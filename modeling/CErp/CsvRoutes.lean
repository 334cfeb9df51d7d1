/-
The CSV routes: `GET /web/export/{model}` and `POST /web/import/{model}`.

Both authenticate the session, make a context of it and go to the model
itself; the view model of the model is not asked.  `exportRecords` and
`importRecords` are the routes up to the reply, `exportRoute` and
`importRoute` the replies.  `importRecords` keeps, for every record it creates,
the values and the table it was created in.
-/
import CErp.Csv
import CErp.ViewModels

namespace CErp

open List Outcome

variable [FloatText]

/-- A reply of a route: its status and its body. -/
structure HttpReply where
  status : ℕ
  body : String
  deriving DecidableEq

/-- The context the CSV routes build from a session. -/
def Session.csvContext (s : Session) : UserContext where
  uid := s.uid
  companyId := s.companyId
  partnerId := s.partnerId
  isAdmin := s.isAdmin
  groupIds := s.groupIds

def Session.csvCaller (s : Session) : Caller where
  ctx := s.csvContext

/-! ### Export -/

/-- The query of an export. -/
structure ExportQuery where
  fields : String := ""
  limit : String := ""

/-- The names in a comma-separated list, blanks around them taken off. -/
def splitFields (csv : String) : List String :=
  (Text.splitCommas csv).filterMap fun token =>
    match ((token.dropWhile Text.isBlank).reverse.dropWhile Text.isBlank).reverse with
    | [] => none
    | cs => some (String.ofList cs)

/-- The fields `fieldsGet` describes: the registered ones and `id`. -/
def knownField (reg : FieldRegistry) (name : String) : Bool := name == "id" || reg.has name

/-- The fields an export holds by default, in the order of the JSON object:
stored and not computed. -/
def defaultExportFields (reg : FieldRegistry) : List String :=
  let names := (reg.fields.filter fun f =>
    FieldRegistry.isColumn f && !f.compute && f.name != "id").map FieldDef.name
  ("id" :: names).insertionSort fun a b => a ≤ b

/-- The fields of an export; unknown names are skipped. -/
def exportFields (reg : FieldRegistry) (q : ExportQuery) : List String :=
  match splitFields q.fields with
  | [] => defaultExportFields reg
  | requested => requested.filter (knownField reg)

def exportLimit (q : ExportQuery) : ℤ :=
  if q.limit = "" then 1000
  else
    match Text.stoi q.limit with
    | some n => min 1000 n
    | none => 1000

/-- The records of an export. -/
def exportRecords (server : Server) (session : Session) (model : String) (q : ExportQuery) :
    Except String (List String × List Values) :=
  match server.entries model with
  | none => .error ("Unknown model: " ++ model)
  | some e =>
      let fields := exportFields e.model.derived.registry q
      if fields.isEmpty then .error "No valid fields specified"
      else
        (searchRead e.model server.engine session.csvCaller e.table.rows (.arr []) fields
          (exportLimit q) 0 "id ASC").map fun records => (fields, records)

/-- The text of a record's field in the CSV. -/
def csvCell (rec : Values) (field : String) : String :=
  match rec.lookup field with
  | none => ""
  | some .null => ""
  | some (.str s) => s
  | some v => v.dump

/-- The records as CSV, under a header of the field names. -/
def exportCsv (fields : List String) (records : List Values) : String :=
  buildCsv (fields :: records.map fun rec => fields.map (csvCell rec))

/-- `GET /web/export/{model}` with the cookie's session, if it has one. -/
def exportRoute (devMode : Bool) (server : Server) (session : Option Session) (model : String)
    (q : ExportQuery) : HttpReply :=
  match session.filter (·.isAuthenticated) with
  | none => ⟨401, "Unauthorized"⟩
  | some s =>
      match exportRecords server s model q with
      | .ok (fields, records) => ⟨200, exportCsv fields records⟩
      | .error e =>
          if devMode ∨ e = "No valid fields specified" then ⟨400, e⟩ else ⟨400, "Export failed"⟩

/-! ### Import -/

/-- An upload: the request body, and the contents of the files the multipart
parser finds in it. -/
structure Upload where
  body : String
  files : Option (List String)

def kMaxUploadBytes : ℕ := 5 * 1024 * 1024

/-- The CSV text of an upload, or the reply that refuses it. -/
def uploadedCsv (u : Upload) : Except (ℕ × String) String :=
  if u.body.utf8ByteSize > kMaxUploadBytes then .error (413, "File too large (max 5 MB)")
  else
    match u.files with
    | none => .error (400, "Invalid multipart request")
    | some files =>
        let content := files.headD u.body
        if content.isEmpty then .error (400, "No file content received")
        else if content.utf8ByteSize > kMaxUploadBytes then
          .error (413, "File too large (max 5 MB)")
        else .ok content

/-- The values of a CSV row: a cell under every header that names a field. -/
def rowValues (reg : FieldRegistry) (headers row : List String) : Values :=
  (headers.zip row).foldl
    (fun vals hc => if knownField reg hc.1 && hc.1 != "id" then vals.set hc.1 (.str hc.2) else vals)
    []

/-- A record an import created: the values, and the table before and after. -/
structure Created where
  before : Table Row
  values : Values
  after : Table Row

/-- An import under way: the table, what was created, and the rows refused. -/
structure Import where
  table : Table Row
  created : List Created := []
  errors : List (ℕ × String) := []

/-- One CSV row, numbered from 1 with the header.  Blank rows are skipped. -/
def importRow (m : ServedModel) (session : Session) (headers : List String) (st : Import)
    (numbered : ℕ × List String) : Import :=
  if numbered.2.all (·.isEmpty) then st
  else
    let values := rowValues m.derived.registry headers numbered.2
    match create m.derived m.schema.toSchema session.csvCaller st.table values with
    | .ok t' =>
        { st with table := t', created := st.created ++ [⟨st.table, values, t'⟩] }
    | .error e => { st with errors := st.errors ++ [(numbered.1, e)] }

/-- The rows below the header, one after the other. -/
def importRows (m : ServedModel) (session : Session) (headers : List String)
    (rows : List (List String)) (t : Table Row) : Import :=
  (((range rows.length).map (· + 2)).zip rows).foldl (importRow m session headers)
    { table := t }

/-- The import of an upload, or the reply that refuses it. -/
def importRecords (server : Server) (session : Session) (model : String) (u : Upload) :
    Except (ℕ × String) Import :=
  match server.entries model with
  | none => .error (400, "Unknown model: " ++ model)
  | some e =>
      match uploadedCsv u with
      | .error reply => .error reply
      | .ok content =>
          match parseCsv content with
          | [] => .error (400, "CSV file is empty")
          | [] :: _ => .error (400, "CSV has no header row")
          | headers :: rows => .ok (importRows e.model session headers rows e.table.toTable)

/-- The reply to a finished import. -/
def importReply (devMode : Bool) (i : Import) : Json :=
  .obj [("errors", .arr (i.errors.map fun (row, e) =>
      .obj [("message", .str (if devMode then e else "Invalid data")), ("row", .num row)])),
    ("imported", .num i.created.length)]

/-- `POST /web/import/{model}` with the cookie's session, if it has one. -/
def importRoute (devMode : Bool) (server : Server) (session : Option Session) (model : String)
    (u : Upload) : HttpReply :=
  match session.filter (·.isAuthenticated) with
  | none => ⟨401, (Json.obj [("error", .str "Unauthorized")]).dump⟩
  | some s =>
      match importRecords server s model u with
      | .ok i => ⟨200, (importReply devMode i).dump⟩
      | .error (status, e) => ⟨status, (Json.obj [("error", .str e)]).dump⟩

/-! ### What the routes return and create -/

variable {session : Session}

/-- **An answered export.**  The records are a page of the model's rows, found
for no domain at all. -/
theorem exportRecords_ok_iff {server : Server} {model : String} {q : ExportQuery}
    {fields : List String} {records : List Values} :
    exportRecords server session model q = .ok (fields, records) ↔
      ∃ e, server.entries model = some e ∧ fields = exportFields e.model.derived.registry q ∧
        fields ≠ [] ∧
        searchRead e.model server.engine session.csvCaller e.table.rows (.arr []) fields
          (exportLimit q) 0 "id ASC" = .ok records := by
  unfold exportRecords
  rcases hentry : server.entries model with - | e
  · simp
  · dsimp only
    constructor
    · intro h
      split at h
      · cases h
      · next hne =>
          obtain ⟨found, hfound, heq⟩ := map_ok_iff.mp h
          cases heq
          exact ⟨e, rfl, rfl, mt List.isEmpty_iff.mpr hne, hfound⟩
    · rintro ⟨e', he, rfl, hne, hsearch⟩
      cases he
      rw [if_neg (mt List.isEmpty_iff.mp hne)]
      exact map_ok_iff.mpr ⟨records, hsearch, rfl⟩

omit [FloatText] in
lemma knownField_iff {reg : FieldRegistry} {f : String} :
    knownField reg f = true ↔ f = "id" ∨ reg.has f = true := by
  rw [knownField, Bool.or_eq_true, beq_iff_eq]

omit [FloatText] in
/-- Every exported field is one `fieldsGet` describes. -/
lemma knownField_of_mem_exportFields {reg : FieldRegistry} {q : ExportQuery} {f : String}
    (h : f ∈ exportFields reg q) : knownField reg f = true := by
  unfold exportFields at h
  split at h
  · -- the default fields are `id` and registered names
    rw [defaultExportFields, mem_insertionSort, mem_cons] at h
    rcases h with rfl | h
    · rfl
    · obtain ⟨fd, hfd, rfl⟩ := mem_map.mp h
      have hany : reg.has fd.name = true :=
        any_eq_true.mpr ⟨fd, mem_of_mem_filter hfd, beq_self_eq_true _⟩
      simp [knownField, hany]
  · exact (mem_filter.mp h).2

/-- Every record of an import was created by the model, as the session the
routes make. -/
def MadeBy (m : ServedModel) (session : Session) (c : Created) : Prop :=
  create m.derived m.schema.toSchema session.csvCaller c.before c.values = .ok c.after

lemma importRow_created {m : ServedModel} {headers : List String} {st : Import}
    (numbered : ℕ × List String) (hst : ∀ c ∈ st.created, MadeBy m session c) :
    ∀ c ∈ (importRow m session headers st numbered).created, MadeBy m session c := by
  unfold importRow
  split
  · exact hst
  · dsimp only
    rcases e : create m.derived m.schema.toSchema session.csvCaller st.table
        (rowValues m.derived.registry headers numbered.2) with err | t'
    · exact hst
    · intro c hc
      rcases mem_append.mp hc with hold | hnew
      · exact hst c hold
      · rw [mem_singleton.mp hnew]
        exact e

lemma importRows_created (m : ServedModel) (session : Session) (headers : List String)
    (rows : List (List String)) (t : Table Row) :
    ∀ c ∈ (importRows m session headers rows t).created, MadeBy m session c := by
  -- the rows are taken from the left; what was created so far is the invariant
  have hfold : ∀ (l : List (ℕ × List String)) (st : Import),
      (∀ c ∈ st.created, MadeBy m session c) →
      ∀ c ∈ (l.foldl (importRow m session headers) st).created, MadeBy m session c := by
    intro l
    induction l with
    | nil => exact fun st hst => hst
    | cons numbered l ih =>
        intro st hst
        exact ih _ (importRow_created numbered hst)
  exact hfold _ _ (fun c hc => absurd hc not_mem_nil)

/-- **Inversion of an import.** -/
theorem importRecords_ok {server : Server} {model : String} {u : Upload} {i : Import}
    (h : importRecords server session model u = .ok i) :
    ∃ e, server.entries model = some e ∧ ∀ c ∈ i.created, MadeBy e.model session c := by
  unfold importRecords at h
  rcases hentry : server.entries model with - | e
  · rw [hentry] at h
    cases h
  · rw [hentry] at h
    rcases hup : uploadedCsv u with reply | content
    · rw [hup] at h
      cases h
    · rw [hup] at h
      dsimp only at h
      rcases hcsv : parseCsv content with - | ⟨- | ⟨header, headers⟩, rows⟩
      · rw [hcsv] at h
        cases h
      · rw [hcsv] at h
        cases h
      · rw [hcsv] at h
        cases h
        exact ⟨e, rfl, importRows_created e.model session _ rows _⟩

end CErp
