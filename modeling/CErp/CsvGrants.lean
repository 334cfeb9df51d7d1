/-
What the CSV routes grant, against what the RPC door grants.

The routes go to the model and skip two things that stand before it on the
other path: the dispatcher's access check and the view model.  So the question
is, for every exported value and every imported record, whether these would
have let it pass (`MayRead`, `MayCreate`); the context the routes build is as
good as the dispatcher's own (`foundRows_csv`, `create_csv`).
-/
import CErp.CsvRoutes

namespace CErp

open Outcome List Json

variable [FloatText]

/-! ### What the two paths grant -/

/-- Some `search_read` of the session returns this value of this record. -/
def RpcReturns (server : Server) (s : Session) (model : String) (rec : Values) (f : String) :
    Prop :=
  ∃ call records, call.model = model ∧ call.method = "search_read" ∧
    searchReadCall server s call = .ok records ∧
    ∃ rec' ∈ records, rec'.lookup "id" = rec.lookup "id" ∧ rec'.lookup f = rec.lookup f

/-- Every exported value is one the session's `search_read` could return. -/
def ExportGrantsNoMore (server : Server) (s : Session) (model : String) (q : ExportQuery) : Prop :=
  ∀ fields records, exportRecords server s model q = .ok (fields, records) →
    ∀ rec ∈ records, ∀ f ∈ fields, RpcReturns server s model rec f

/-- The session's `create` with the values of a created record is granted. -/
def RpcCreates (server : Server) (s : Session) (model : String) (c : Created) : Prop :=
  ∃ t', createCall server s c.before ⟨model, "create", .arr [.obj c.values], .obj []⟩ = .ok t'

/-- Every imported record is one the session's `create` could have created. -/
def ImportGrantsNoMore (server : Server) (s : Session) (model : String) (u : Upload) : Prop :=
  ∀ i, importRecords server s model u = .ok i → ∀ c ∈ i.created, RpcCreates server s model c

/-! ### What stands before the model on the other path -/

/-- The read handler of a view model lets a row's field through: the model's
own search does, a search of the view model's making where some domain finds
the row, a statement where it returns the value. -/
def ReadHandler.Yields {m : ServedModel} (engine : Option RuleEngine) (s : Session)
    (model : String) (rows : List (ℤ × Row)) (r : ℤ × Row) (f : String) : ReadHandler m → Prop
  | .none => False
  | .model _ => True
  | .service hands adapt _ =>
      ∃ domain found, foundRows m engine (s.caller hands) rows (adapt domain) = .ok found ∧ r ∈ found
  | .statement run =>
      ∃ call records, call.model = model ∧ call.method = "search_read" ∧
        run s.userContext call = .ok records ∧
        ∃ rec ∈ records, rec.lookup "id" = some (.num r.1) ∧
          rec.lookup f = some (cellJson m f (cell r f))

/-- The checks of the RPC door pass and its handler lets the value through. -/
def MayRead (server : Server) (s : Session) (model : String) (e : Entry) (r : ℤ × Row)
    (f : String) : Prop :=
  mayAccess model s = true ∧ ∃ vm, e.viewModel = some vm ∧ vm.readCheck s.userContext = .ok () ∧
      vm.read.Yields server.engine s model e.table.rows r f

/-- The create handler of a view model accepts values. -/
def CreateHandler.Accepts (m : ServedModel) (s : Session) (t : Table Row) (values : Values) :
    CreateHandler → Prop
  | .none => False
  | .model => True
  | .service hands prepare =>
      ∃ prepared t', prepare s.userContext t values = .ok prepared ∧
        create m.derived m.schema.toSchema (s.caller hands) t prepared = .ok t'
  | .statement insert => ∃ t', insert s.userContext t values = .ok t'

/-- The checks of the RPC door pass and its handler accepts the values. -/
def MayCreate (s : Session) (model : String) (e : Entry) (c : Created) : Prop :=
  mayAccess model s = true ∧ ∃ vm, e.viewModel = some vm ∧ vm.createCheck s.userContext = .ok () ∧
      vm.creation.Accepts e.model s c.before c.values

/-! ### The context of the routes -/

variable {s : Session}

/-- The routes leave out the allowed companies, which no search reads. -/
lemma foundRows_csv (hs : s.isAuthenticated = true) (m : ServedModel)
    (engine : Option RuleEngine) (rows : List (ℤ × Row)) (domain : Json) :
    foundRows m engine s.csvCaller rows domain = foundRows m engine (s.caller true) rows domain := by
  have huid : s.uid > 0 := of_decide_eq_true hs
  have hmerge : mergeRuleDomain engine m.derived.modelName s.csvCaller.ctx domain .read =
      mergeRuleDomain engine m.derived.modelName (s.caller true).ctx domain .read := rfl
  have hvisible : ∀ row, companyVisible m.schema.toSchema s.csvCaller row =
      companyVisible m.schema.toSchema (s.caller true) row := by
    intro row
    have hcsv : s.csvCaller.scopeCtx = s.csvContext := if_pos huid
    have hrpc : (s.caller true).scopeCtx = s.userContext := if_pos huid
    unfold companyVisible companyScoped
    rw [hcsv, hrpc]
    rfl
  unfold foundRows
  rw [hmerge]
  simp only [hvisible]

omit [FloatText] in
/-- The stamp of the routes is the stricter one: without allowed companies a
record can only be made for the active one. -/
lemma stampCompany_csv (hs : s.isAuthenticated = true) {db : Schema} {vals : Values}
    {stamped : ℤ × Values} (h : stampCompany db s.csvCaller vals = .ok stamped) :
    stampCompany db (s.caller true) vals = .ok stamped := by
  have huid : s.uid > 0 := of_decide_eq_true hs
  have hcsv : s.csvCaller.scopeCtx = s.csvContext := if_pos huid
  have hrpc : (s.caller true).scopeCtx = s.userContext := if_pos huid
  have hscoped : companyScoped db s.csvCaller = companyScoped db (s.caller true) := by
    unfold companyScoped
    rw [hcsv, hrpc]
    rfl
  unfold stampCompany at h ⊢
  rw [hscoped, hcsv] at h
  rw [hrpc]
  rcases e : companyScoped db (s.caller true) with - | -
  · rw [e] at h
    exact h
  · rw [e] at h
    dsimp only [Session.csvContext] at h
    dsimp only [Session.userContext]
    rcases hv : vals.lookup "company_id" with - | v
    · rw [hv] at h
      exact h
    · rw [hv] at h
      simp only [Bool.not_true, Bool.false_eq_true, if_false] at h ⊢
      split at h
      · next hshared => rw [if_pos hshared]; exact h
      · next hshared =>
          rw [if_neg hshared]
          split at h
          · cases h
          · next hown =>
              -- the value names the active company or none
              have hno : ∀ cid, s.csvContext.mayUseCompany cid = false := by
                intro cid
                exact Bool.and_false _
              rw [if_neg]
              · exact h
              · rintro ⟨hpos, hne, -⟩
                exact hown ⟨hpos, hne, hno _⟩

/-- What the routes create, the session's `create` under its own context would. -/
lemma create_csv (hs : s.isAuthenticated = true) {D : Derived} {db : Schema} {t t' : Table Row}
    {values : Values} (h : create D db s.csvCaller t values = .ok t') :
    create D db (s.caller true) t values = .ok t' := by
  unfold create at h ⊢
  obtain ⟨u, hknown, h⟩ := bind_ok_iff.mp h
  obtain ⟨stamped, hstamp, h⟩ := bind_ok_iff.mp h
  rw [hknown]
  show (stampCompany db (s.caller true) _ >>= _) = _
  rw [stampCompany_csv hs hstamp]
  exact h

/-! ### One value of an export -/

/-- The call that asks for one field of the row at a position. -/
def fieldCall (model : String) (domain : Json) (f : String) (k : ℕ) : CallKwArgs where
  model := model
  method := "search_read"
  args := .arr [domain]
  kwargs := .obj [("fields", .arr [.str f]), ("limit", .num 1), ("offset", .num k)]

omit [FloatText] in
lemma fieldCall_args (model : String) (domain : Json) (f : String) {k : ℕ} (hk : k < 2 ^ 31) :
    (fieldCall model domain f k).domain = domain ∧ (fieldCall model domain f k).fields = .ok [f] ∧
      (fieldCall model domain f k).limit = .ok 1 ∧ (fieldCall model domain f k).offset = .ok k ∧
      (fieldCall model domain f k).order = .ok "" := by
  have hint : toInt32 k = k := by
    unfold toInt32
    rw [Int.bmod_def]
    omega
  refine ⟨rfl, rfl, rfl, ?_, rfl⟩
  show Except.ok (toInt32 k) = _
  rw [hint]

variable {r : ℤ × Row}

/-- **A found row can be asked for.**  The model's search answers the call for
one field of a row some domain finds. -/
theorem searchReadWith_fieldCall {m : ServedModel} {engine : Option RuleEngine} {c : Caller}
    {t : SerialTable} (d : ReadDefaults m) (model : String) (asked : Json) {domain : Json}
    {found : List (ℤ × Row)} {f : String}
    (hfound : foundRows m engine c t.rows domain = .ok found) (hr : r ∈ found)
    (hid : m.schema.hasColumn "id" = true) (hf : m.schema.hasColumn f = true) :
    ∃ k, searchReadWith engine c t.rows d domain (fieldCall model asked f k) =
      .ok [record m (buildSelectCols m.derived.registry [f]) r] := by
  obtain ⟨sorted, hsorted⟩ := d.order.sorts found
  have hcols : (buildSelectCols m.derived.registry [f]).all m.schema.hasColumn = true := by
    rw [all_eq_true]
    intro col hcol
    rcases mem_cons.mp hcol with rfl | hcol
    · exact hid
    · rw [mem_singleton.mp (mem_of_mem_filter hcol)]
      exact hf
  obtain ⟨k, hk, hsearch⟩ := searchRead_single d.order.valid hcols hfound hr hsorted
  obtain ⟨-, hfields, hlimit, hoffset, horder⟩ :=
    fieldCall_args model asked f (hk.trans t.length_lt)
  have hasked : askedOrder d (fieldCall model asked f k) = .ok "" := by
    unfold askedOrder
    rw [horder, ite_self]
  refine ⟨k, ?_⟩
  unfold searchReadWith
  rw [hasked, hfields, hlimit, hoffset]
  exact hsearch

omit [FloatText] in
lemma cellJson_id (m : ServedModel) (r : ℤ × Row) : cellJson m "id" (cell r "id") = .num r.1 := by
  show (if m.schema.bigint "id" && _ then _ else _) = _
  rw [m.schema.bigint_id]
  rfl

/-- What an answered search of the model returns of a row, it found. -/
lemma searchReadWith_found {m : ServedModel} {engine : Option RuleEngine} {c : Caller}
    {t : SerialTable} {d : ReadDefaults m} {domain : Json} {call : CallKwArgs}
    {records : List Values} {rec : Values}
    (h : searchReadWith engine c t.rows d domain call = .ok records) (hrec : rec ∈ records)
    (hr : r ∈ t.rows) (hid : rec.lookup "id" = some (.num r.1)) :
    ∃ found, foundRows m engine c t.rows domain = .ok found ∧ r ∈ found := by
  obtain ⟨asked, -, h⟩ := bind_ok_iff.mp h
  obtain ⟨fields, -, h⟩ := bind_ok_iff.mp h
  obtain ⟨limit, -, h⟩ := bind_ok_iff.mp h
  obtain ⟨offset, -, h⟩ := bind_ok_iff.mp h
  obtain ⟨found, hfound, r', hr', rfl⟩ := searchRead_found h hrec
  refine ⟨found, hfound, ?_⟩
  -- the record carries the identifier of the row it was made of
  rw [record_lookup m r' (id_mem_buildSelectCols _ _)] at hid
  rw [cellJson_id] at hid
  obtain ⟨i, row⟩ := r
  obtain ⟨i', row'⟩ := r'
  cases hid
  have hrow : row' = row := Table.eq_of_mem (foundRows_subset hfound _ hr') hr
  rw [← hrow]
  exact hr'

/-- What an export returned of a row: the row is the model's, was found for
the session, and its identifier and the field are columns. -/
structure Exported (server : Server) (s : Session) (e : Entry) (q : ExportQuery) (r : ℤ × Row)
    (f : String) : Prop where
  mem : r ∈ e.table.rows
  found : ∃ found, foundRows e.model server.engine (s.caller true) e.table.rows (.arr []) = .ok found ∧
    r ∈ found
  field : f ∈ exportFields e.model.derived.registry q
  idColumn : e.model.schema.hasColumn "id" = true
  fieldColumn : e.model.schema.hasColumn f = true

variable {server : Server}

variable {model : String}

/-- **One value on the two paths.**  The session's `search_read` can return a
field of an exported row exactly when what stands before the model lets it. -/
theorem rpcReturns_iff {e : Entry} {q : ExportQuery} {f : String} {rec : Values}
    (hs : s.isAuthenticated = true) (hentry : server.entries model = some e)
    (hexp : Exported server s e q r f) (hid : rec.lookup "id" = some (.num r.1))
    (hf : rec.lookup f = some (cellJson e.model f (cell r f))) :
    RpcReturns server s model rec f ↔ MayRead server s model e r f := by
  have hknown := knownField_iff.mp (knownField_of_mem_exportFields hexp.field)
  -- the record a search for the field alone makes of the row
  have hsel : f ∈ buildSelectCols e.model.derived.registry [f] :=
    mem_buildSelectCols mem_cons_self hknown
  have hrecF : (record e.model (buildSelectCols e.model.derived.registry [f]) r).lookup f =
      rec.lookup f := (record_lookup e.model r hsel).trans hf.symm
  have hrecId : (record e.model (buildSelectCols e.model.derived.registry [f]) r).lookup "id" =
      rec.lookup "id" := by
    rw [hid, record_lookup e.model r (id_mem_buildSelectCols _ _), cellJson_id]
  constructor
  · rintro ⟨call, records, rfl, hmethod, hcall, rec', hrec', hid', hf'⟩
    obtain ⟨-, haccess, e', vm, hentry', hvm, hcheck, hanswer⟩ :=
      (searchReadCall_ok_iff hmethod).mp hcall
    rw [hentry, Option.some.injEq] at hentry'
    subst hentry'
    refine ⟨haccess, vm, hvm, hcheck, ?_⟩
    rcases hread : vm.read with - | d | ⟨hands, adapt, d⟩ | run
    · rw [hread] at hanswer
      cases hanswer
    · trivial
    · rw [hread] at hanswer
      obtain ⟨found, hfound, hr⟩ :=
        searchReadWith_found hanswer hrec' hexp.mem (hid'.trans hid)
      exact ⟨call.domain, found, hfound, hr⟩
    · rw [hread] at hanswer
      exact ⟨call, records, rfl, hmethod, hanswer, rec', hrec', hid'.trans hid, hf'.trans hf⟩
  · rintro ⟨haccess, vm, hvm, hcheck, hyields⟩
    -- a call of the session that the handler answers with the value
    have hcall : ∀ call records, call.model = model → call.method = "search_read" →
        vm.read.answer server.engine s e.table.rows call = .ok records →
        searchReadCall server s call = .ok records := by
      rintro call records rfl hmethod hanswer
      exact (searchReadCall_ok_iff hmethod).mpr
        ⟨hs, haccess, e, vm, hentry, hvm, hcheck, hanswer⟩
    rcases hread : vm.read with - | d | ⟨hands, adapt, d⟩ | run
    · rw [hread] at hyields
      exact hyields.elim
    · -- the model's own search: the export's, for the field alone
      obtain ⟨found, hfound, hr⟩ := hexp.found
      obtain ⟨k, hk⟩ := searchReadWith_fieldCall d model (.arr []) hfound
        hr hexp.idColumn hexp.fieldColumn
      refine ⟨fieldCall model (.arr []) f k, _, rfl, rfl, hcall _ _ rfl rfl ?_,
        _, mem_singleton_self _, hrecId, hrecF⟩
      rw [hread]
      exact hk
    · rw [hread] at hyields
      obtain ⟨domain, found, hfound, hr⟩ := hyields
      obtain ⟨k, hk⟩ := searchReadWith_fieldCall d model domain hfound
        hr hexp.idColumn hexp.fieldColumn
      refine ⟨fieldCall model domain f k, _, rfl, rfl, hcall _ _ rfl rfl ?_,
        _, mem_singleton_self _, hrecId, hrecF⟩
      rw [hread]
      exact hk
    · rw [hread] at hyields
      obtain ⟨call, records, hmodel, hmethod, hrun, rec', hrec', hid', hf'⟩ := hyields
      refine ⟨call, records, hmodel, hmethod, hcall _ _ hmodel hmethod ?_,
        rec', hrec', hid'.trans hid.symm, hf'.trans hf.symm⟩
      rw [hread]
      exact hrun

/-! ### The routes -/

/-- The rows an export of the session returns: a page of those found, where
every column asked for exists. -/
def ExportedRows (server : Server) (s : Session) (e : Entry) (q : ExportQuery)
    (rows : List (ℤ × Row)) : Prop :=
  (buildSelectCols e.model.derived.registry
    (exportFields e.model.derived.registry q)).all e.model.schema.hasColumn = true ∧
  ∃ found sorted, foundRows e.model server.engine s.csvCaller e.table.rows (.arr []) = .ok found ∧
    e.model.schema.orderBy "id ASC" found = .ok sorted ∧ rows = page (exportLimit q) 0 sorted

/-- The checks of the RPC door let every value of an export through. -/
def ExportMayRead (server : Server) (s : Session) (model : String) (q : ExportQuery) : Prop :=
  ∀ e rows, server.entries model = some e → ExportedRows server s e q rows →
    ∀ r ∈ rows, ∀ f ∈ exportFields e.model.derived.registry q, MayRead server s model e r f

/-- The checks of the RPC door let every record of an import through. -/
def ImportMayCreate (server : Server) (s : Session) (model : String) (u : Upload) : Prop :=
  ∀ e i, server.entries model = some e → importRecords server s model u = .ok i →
    ∀ c ∈ i.created, MayCreate s model e c

lemma exported_of_mem {e : Entry} {q : ExportQuery} {rows : List (ℤ × Row)} {f : String}
    (hs : s.isAuthenticated = true) (hrows : ExportedRows server s e q rows) (hr : r ∈ rows)
    (hf : f ∈ exportFields e.model.derived.registry q) : Exported server s e q r f := by
  obtain ⟨hcols, found, sorted, hfound, hsorted, rfl⟩ := hrows
  have hmem : r ∈ found := by
    have hsortedMem : r ∈ sorted := mem_of_mem_drop (mem_of_mem_take hr)
    exact (e.model.schema.orderBy_perm hsorted).mem_iff.mp hsortedMem
  have hknown := knownField_iff.mp (knownField_of_mem_exportFields hf)
  rw [all_eq_true] at hcols
  exact {
    mem := foundRows_subset hfound r hmem
    found := ⟨found, (foundRows_csv hs e.model _ _ _).symm.trans hfound, hmem⟩
    field := hf
    idColumn := hcols _ (id_mem_buildSelectCols _ _)
    fieldColumn := hcols _ (mem_buildSelectCols hf hknown) }

lemma exportGrantsNoMore_iff {q : ExportQuery} (hs : s.isAuthenticated = true) :
    ExportGrantsNoMore server s model q ↔ ExportMayRead server s model q := by
  -- the two values of a record that `rpcReturns_iff` compares
  have hvalue : ∀ {e : Entry} {rows r f}, server.entries model = some e →
      ExportedRows server s e q rows → r ∈ rows →
      f ∈ exportFields e.model.derived.registry q →
      (RpcReturns server s model (record e.model (buildSelectCols e.model.derived.registry
        (exportFields e.model.derived.registry q)) r) f ↔ MayRead server s model e r f) := by
    intro e rows r f hentry hrows hr hf
    have hexp := exported_of_mem hs hrows hr hf
    have hknown := knownField_iff.mp (knownField_of_mem_exportFields hf)
    refine rpcReturns_iff hs hentry hexp ?_ (record_lookup e.model r (mem_buildSelectCols hf hknown))
    rw [record_lookup e.model r (id_mem_buildSelectCols _ _)]
    exact congrArg some (cellJson_id e.model r)
  constructor
  · intro h e rows hentry hrows r hr f hf
    obtain ⟨hcols, found, sorted, hfound, hsorted, rfl⟩ := hrows
    have hrows : ExportedRows server s e q (page (exportLimit q) 0 sorted) :=
      ⟨hcols, found, sorted, hfound, hsorted, rfl⟩
    have hexport := exportRecords_ok_iff.mpr ⟨e, hentry, rfl, ne_nil_of_mem hf,
      searchRead_ok_iff.mpr ⟨validateOrder_id _, hcols, found, sorted, hfound, hsorted, rfl⟩⟩
    exact (hvalue hentry hrows hr hf).mp (h _ _ hexport _ (mem_map_of_mem hr) f hf)
  · intro h fields records hexport rec hrec f hf
    obtain ⟨e, hentry, rfl, -, hsearch⟩ := exportRecords_ok_iff.mp hexport
    obtain ⟨-, hcols, found, sorted, hfound, hsorted, rfl⟩ := searchRead_ok_iff.mp hsearch
    obtain ⟨r, hr, rfl⟩ := mem_map.mp hrec
    have hrows : ExportedRows server s e q (page (exportLimit q) 0 sorted) :=
      ⟨hcols, found, sorted, hfound, hsorted, rfl⟩
    exact (hvalue hentry hrows hr hf).mpr (h e _ hentry hrows r hr f hf)

lemma importGrantsNoMore_iff {u : Upload} (hs : s.isAuthenticated = true) :
    ImportGrantsNoMore server s model u ↔ ImportMayCreate server s model u := by
  constructor
  · intro h e i hentry himport c hc
    obtain ⟨t', hcreate⟩ := h i himport c hc
    obtain ⟨-, haccess, e', vm, hentry', hvm, hcheck, hanswer⟩ := createCall_ok_iff.mp hcreate
    rw [hentry, Option.some.injEq] at hentry'
    subst hentry'
    refine ⟨haccess, vm, hvm, hcheck, ?_⟩
    rcases hcreation : vm.creation with - | - | ⟨hands, prepare⟩ | insert
    · rw [hcreation] at hanswer
      cases hanswer
    · trivial
    · rw [hcreation] at hanswer
      obtain ⟨prepared, hprepared, hmade⟩ := bind_ok_iff.mp hanswer
      exact ⟨prepared, t', hprepared, hmade⟩
    · rw [hcreation] at hanswer
      exact ⟨t', hanswer⟩
  · intro h i himport c hc
    obtain ⟨e, hentry, hmade⟩ := importRecords_ok himport
    obtain ⟨haccess, vm, hvm, hcheck, haccepts⟩ := h e i hentry himport c hc
    have hcall : (∃ t', vm.creation.answer e.model s c.before "create" c.values = .ok t') →
        RpcCreates server s model c := by
      rintro ⟨t', hanswer⟩
      exact ⟨t', createCall_ok_iff.mpr ⟨hs, haccess, e, vm, hentry, hvm, hcheck, hanswer⟩⟩
    apply hcall
    rcases hcreation : vm.creation with - | - | ⟨hands, prepare⟩ | insert
    · rw [hcreation] at haccepts
      exact haccepts.elim
    · -- the model's own create: the import's, under the session's own context
      exact ⟨c.after, create_csv hs (hmade c hc)⟩
    · rw [hcreation] at haccepts
      obtain ⟨prepared, t', hprepared, hmade'⟩ := haccepts
      exact ⟨t', bind_ok_iff.mpr ⟨prepared, hprepared, hmade'⟩⟩
    · rw [hcreation] at haccepts
      exact haccepts

/-- **The CSV routes grant no more than the RPC door exactly where the checks
of the door let everything through.**  For every server, model, authenticated
session, query and upload. -/
theorem csv_routes_grant_no_more_iff (server : Server) (s : Session) (model : String)
    (q : ExportQuery) (u : Upload) (hs : s.isAuthenticated = true) :
    (ExportGrantsNoMore server s model q ↔ ExportMayRead server s model q) ∧
    (ImportGrantsNoMore server s model u ↔ ImportMayCreate server s model u) :=
  ⟨exportGrantsNoMore_iff hs, importGrantsNoMore_iff hs⟩

/-! ### A user outside the ledger's group -/

/-- The fields of a journal entry. -/
def accountMoveFields : List FieldDef :=
  [{ name := "name" }, { name := "ref" }, { name := "narration", type := .text },
    { name := "move_type", type := .selection },
    { name := "state", type := .selection },
    { name := "date", type := .date },
    { name := "invoice_date", type := .date },
    { name := "due_date", type := .date },
    { name := "journal_id", type := .many2one },
    { name := "partner_id", type := .many2one },
    { name := "company_id", type := .many2one },
    { name := "currency_id", type := .many2one },
    { name := "payment_state", type := .selection },
    { name := "reversed_entry_id", type := .many2one, readonly := true },
    { name := "amount_untaxed", type := .monetary, scaled := true },
    { name := "amount_tax", type := .monetary, scaled := true },
    { name := "amount_total", type := .monetary, scaled := true },
    { name := "amount_residual", type := .monetary, scaled := true },
    { name := "payment_term_id", type := .many2one },
    { name := "invoice_origin" }]

/-- The journal entries as a served model, with the columns as they are. -/
def accountMoveModel : ServedModel where
  derived := {
    modelName := "account.move"
    tableName := "account_move"
    registry := {
      fields := accountMoveFields
      identifiers := by decide
      nodup := by decide }
    members := id
    validate := fun _ => [] }
  schema := {
    hasCompanyColumn := true
    integerInput := fun
      | .null => .ok none
      | .int i => .ok (some i)
      | _ => .error "ERROR:  invalid input syntax for type integer"
    integerInput_null := rfl
    integerInput_int := fun _ _ => rfl
    companyDefault := none
    constraints := fun _ => .ok ()
    sameTimestamp := fun _ _ => true
    now := .null
    hasColumn := fun _ => true
    bigint := fun col => col.startsWith "amount_"
    bigint_id := by decide
    orderBy := fun _ rows => .ok (rows.insertionSort fun a b => a.1 ≤ b.1)
    orderBy_perm := by
      intro order rows sorted h
      cases h
      exact perm_insertionSort _ rows
    orderBy_id := fun _ => ⟨_, rfl⟩ }
  interp := ⟨fun _ _ => false, fun _ _ _ _ => .unknown⟩

/-- One posted invoice of company 1. -/
def ledgerTable : SerialTable where
  rows := [(1, { companyId := some 1, cells := fun col =>
    if col = "name" then .text "INV/2026/0001"
    else if col = "amount_total" then .int 1060000000
    else .null })]
  nextId := 2
  below := by simp
  nodup := by simp
  serial := by simp

/-- A server with the journal entries under their view model. -/
def ledgerServer : Server where
  entries model :=
    if model = "account.move" then
      some ⟨accountMoveModel, some (accountViewModel accountMoveModel), ledgerTable⟩
    else none
  engine := none

/-- An internal user of company 1 who is in no accounting group. -/
def internalUser : Session where
  uid := 7
  login := "sam"
  companyId := 1
  groupIds := [Groups.BASE_INTERNAL]
  allowedCompanyIds := [1]

omit [FloatText] in
/-- The journal entries and a user without access to them. -/
theorem csv_routes_grant_no_more_internalUser :
    let _ := wholeFloatText
    (ExportGrantsNoMore ledgerServer internalUser "account.move" { fields := "name" } ↔
      ExportMayRead ledgerServer internalUser "account.move" { fields := "name" }) ∧
    (ImportGrantsNoMore ledgerServer internalUser "account.move" ⟨"name\r\n", some []⟩ ↔
      ImportMayCreate ledgerServer internalUser "account.move" ⟨"name\r\n", some []⟩) := by
  let _ := wholeFloatText
  exact csv_routes_grant_no_more_iff ledgerServer internalUser "account.move" { fields := "name" }
    ⟨"name\r\n", some []⟩ (by decide)

omit [FloatText] in
/-- The export hands the ledger's entries to a user whose `search_read` on them
is refused. -/
theorem export_beyond_rpc :
    ¬ ∀ (text : FloatText) (server : Server) (s : Session) (model : String) (q : ExportQuery),
      s.isAuthenticated = true → @ExportGrantsNoMore text server s model q := by
  intro h
  let _ := wholeFloatText
  have hgrants := h wholeFloatText ledgerServer internalUser "account.move"
    { fields := "name" } (by decide)
  have hexport : (exportRecords ledgerServer internalUser "account.move"
      { fields := "name" }).toOption.map (fun p => (p.1, p.2.length)) = some (["name"], 1) := by
    decide
  obtain ⟨⟨fields, records⟩, hrecords, heq⟩ := Option.map_eq_some_iff.mp hexport
  rw [Prod.mk.injEq] at heq
  obtain ⟨rfl, hlength⟩ := heq
  obtain ⟨rec, rfl⟩ := length_eq_one_iff.mp hlength
  have hok : exportRecords ledgerServer internalUser "account.move" { fields := "name" } =
      .ok (["name"], [rec]) := by
    revert hrecords
    rcases exportRecords ledgerServer internalUser "account.move" { fields := "name" } with e | p
    · rintro ⟨⟩
    · rintro ⟨⟩
      rfl
  obtain ⟨call, records, hmodel, hmethod, hcall, -⟩ :=
    hgrants _ _ hok rec (mem_singleton_self rec) "name" (mem_singleton_self "name")
  obtain ⟨-, haccess, -⟩ := (searchReadCall_ok_iff hmethod).mp hcall
  rw [hmodel] at haccess
  have hdenied : mayAccess "account.move" internalUser = false := by decide
  rw [hdenied] at haccess
  cases haccess

end CErp
