/-
What becomes of the fields a model registers as read-only.

The flag is told to the client by the field listing, and read by nothing else:
`BaseModel::create` and `BaseModel::write` take every registered field of the
values.  So a read-only field keeps its value in every write of some values if
and only if the values do not name it (`writeKeeps_iff`), and has its default in
a new record if and only if the members the values set give it its default
(`createKeeps_iff`).
-/
import CErp.CompanyWrites

namespace CErp

open Outcome Option Table

section Readonly

variable [FloatText]

/-! ### Writing -/

/-- The values as an UPDATE takes them. -/
def written (D : Derived) (values : Values) : Values :=
  (coerceNumericStrings D.registry values).erase "__expected_write_date"

/-- The column of a field holds what it held. -/
structure KeepsField (f : FieldDef) (row row' : Row) : Prop where
  cell : row'.cells f.name = row.cells f.name
  company : f.name = "company_id" → row'.companyId = row.companyId

/-- No write of the values, by any caller and on any records, changes a
read-only field. -/
def WriteKeeps (D : Derived) (values : Values) : Prop :=
  ∀ (db : Schema) (engine : Option RuleEngine) (I : Sql.Interp (ℤ × Row)) (c : Caller)
    (t : Table Row) (ids : List ℤ) (t' : Table Row),
    write D db engine I c t ids values = .ok t' →
    ∀ id row row', t.get? id = some row → t'.get? id = some row' →
      ∀ f ∈ D.registry.fields, f.readonly = true → KeepsField f row row'

/-- The values pass the checks of a write: their keys are known, their amounts
convert, and the write date is left to the server. -/
def Writable (D : Derived) (values : Values) : Prop :=
  rejectUnknownFields D (written D values) = .ok () ∧
    ∃ sets, setColumns D (written D values) = .ok sets ∧ sets.lookup "write_date" = none

/-- The values name no read-only field, and the write date, which every write
sets, is none. -/
def LeavesReadonly (D : Derived) (values : Values) : Prop :=
  ∀ f ∈ D.registry.fields, f.readonly = true →
    (written D values).contains f.name = false ∧ f.name ≠ "write_date"

omit [FloatText] in
lemma has_of_mem {reg : FieldRegistry} {f : FieldDef} (h : f ∈ reg.fields) :
    reg.has f.name = true :=
  List.any_eq_true.mpr ⟨f, h, beq_self_eq_true _⟩

variable {D : Derived}

/-- The column of a field is set when the values name it. -/
lemma lookup_setColumns {vals : Values} {sets : List (String × SqlValue)}
    (h : setColumns D vals = .ok sets) {f : FieldDef} (hf : f ∈ D.registry.fields) :
    (sets.lookup f.name).isSome = vals.contains f.name := by
  obtain ⟨hsome, hnone⟩ := bindColumns_lookup f.name h
  have hlookup := Values.lookup_filter vals D.registry.has (has_of_mem hf)
  unfold Values.contains
  rw [hlookup] at hsome hnone
  rcases hv : vals.lookup f.name with - | v
  · rw [hnone hv]
    rfl
  · obtain ⟨b, -, hb⟩ := hsome v hv
    rw [hb]
    rfl

variable {values : Values}

lemma writeKeeps_of_leaves (h : LeavesReadonly D values) : WriteKeeps D values := by
  intro db engine I c t ids t' hwrite id row row' hrow hrow' f hf hreadonly
  obtain ⟨hnot, hdate⟩ := h f hf hreadonly
  obtain ⟨-, ⟨rfl, -⟩ | ⟨sets, stamped, clause, company, hsets, hstamped, -, hcompany, rfl⟩⟩ :=
    write_ok rfl rfl hwrite
  · rw [hrow] at hrow'
    cases hrow'
    exact ⟨rfl, fun _ => rfl⟩
  have hset : sets.lookup f.name = none := by
    rw [← isNone_iff_eq_none, ← not_isSome, lookup_setColumns hsets hf]
    exact congrArg (!·) hnot
  rw [get?_updateWhere, hrow, map_some, Option.some.injEq] at hrow'
  subst hrow'
  split
  · constructor
    · show (stamped.lookup f.name).getD _ = _
      rw [(stampedColumns_ok hstamped).1 f.name hdate, hset]
      rfl
    · intro hname
      rw [hname] at hset
      unfold assignedCompany at hcompany
      rw [hset] at hcompany
      cases hcompany
      rfl
  · exact ⟨rfl, fun _ => rfl⟩

lemma write_of_empty {db : Schema} {engine : Option RuleEngine} {I : Sql.Interp (ℤ × Row)}
    {c : Caller} {t t' : Table Row} {ids : List ℤ} (hempty : written D values = [])
    (h : write D db engine I c t ids values = .ok t') : t' = t := by
  unfold written at hempty
  obtain ⟨⟨⟩, -, h⟩ := bind_ok_iff.mp h
  rw [hempty, if_pos (by exact Bool.or_true _)] at h
  exact (pure_ok_iff.mp h).symm

omit [FloatText] in
/-- A database that takes every value, and compares no dates. -/
def permissive : Schema where
  hasCompanyColumn := false
  integerInput
    | .int i => .ok (some i)
    | _ => .ok none
  integerInput_null := rfl
  integerInput_int _ _ := rfl
  companyDefault := none
  constraints _ := .ok ()
  sameTimestamp _ _ := true
  now := .bool true

omit [FloatText] in
lemma permissive_integerInput (b : SqlValue) : ∃ cid, permissive.integerInput b = .ok cid := by
  cases b with
  | int i => exact ⟨some i, rfl⟩
  | _ => exact ⟨none, rfl⟩

omit [FloatText] in
lemma touched_permissive (I : Sql.Interp (ℤ × Row)) (c : Caller) (expectedWd : String)
    (row : Row) : touched permissive I c [1] expectedWd none 1 row = true := by
  have hvisible : companyVisible permissive c row = true := by
    unfold companyVisible companyScoped
    rw [if_neg (by simp [permissive])]
  unfold touched
  rw [hvisible]
  simp [permissive, passes]

/-- An UPDATE of writable values in the permissive database. -/
lemma write_permissive {sets stamped : List (String × SqlValue)}
    (hknown : rejectUnknownFields D (written D values) = .ok ()) (hvals : written D values ≠ [])
    (hsets : setColumns D (written D values) = .ok sets)
    (hstamped : stampedColumns D permissive sets = .ok stamped) (hne : stamped ≠ [])
    (I : Sql.Interp (ℤ × Row)) (c : Caller) (row : Row) :
    ∃ company, write D permissive none I c (empty.insert row) [1] values =
      .ok ((empty.insert row).updateWhere
        (touched permissive I c [1] (expectedWriteDate (coerceNumericStrings D.registry values)) none)
        (assignRow company stamped)) := by
  obtain ⟨company, hcompany⟩ : ∃ company, assignedCompany permissive sets = .ok company := by
    unfold assignedCompany
    split
    · exact ⟨none, rfl⟩
    · next b _ =>
        obtain ⟨cid, hcid⟩ := permissive_integerInput b
        exact ⟨some cid, map_ok_iff.mpr ⟨cid, hcid, rfl⟩⟩
  refine ⟨company, ?_⟩
  refine bind_ok_iff.mpr ⟨⟨⟩, hknown, ?_⟩
  rw [if_neg (by simpa [written] using hvals)]
  refine bind_ok_iff.mpr ⟨sets, hsets, bind_ok_iff.mpr ⟨stamped, hstamped, ?_⟩⟩
  rw [if_neg (by simpa using hne)]
  refine bind_ok_iff.mpr ⟨none, rfl, bind_ok_iff.mpr ⟨company, hcompany, ?_⟩⟩
  refine bind_ok_iff.mpr ⟨⟨⟩, rfl, bind_ok_iff.mpr ⟨⟨⟩, require_ok_iff.mpr (.inr ?_), rfl⟩⟩
  apply List.any_eq_true.mpr
  exact ⟨(1, row), List.mem_singleton.mpr rfl, touched_permissive I c _ row⟩

omit [FloatText] in
/-- A value other than a given one. -/
def otherValue : SqlValue → SqlValue
  | .null => .bool true
  | _ => .null

omit [FloatText] in
lemma ne_otherValue (b : SqlValue) : b ≠ otherValue b := by
  cases b <;> simp [otherValue]

/-- A read-only column the UPDATE assigns changes where it held another value. -/
lemma not_writeKeeps {sets stamped : List (String × SqlValue)}
    (hknown : rejectUnknownFields D (written D values) = .ok ()) (hvals : written D values ≠ [])
    (hsets : setColumns D (written D values) = .ok sets)
    (hstamped : stampedColumns D permissive sets = .ok stamped) {f : FieldDef}
    (hf : f ∈ D.registry.fields) (hreadonly : f.readonly = true) {b : SqlValue}
    (hb : stamped.lookup f.name = some b) : ¬ WriteKeeps D values := by
  intro hkeeps
  have hne : stamped ≠ [] := by
    rintro rfl
    cases hb
  let I : Sql.Interp (ℤ × Row) := ⟨fun _ _ => false, fun _ _ _ _ => .unknown⟩
  let row : Row := ⟨none, fun _ => otherValue b⟩
  obtain ⟨company, hwrite⟩ := write_permissive hknown hvals hsets hstamped hne I ⟨{}, {}⟩ row
  have hrow : (empty.insert row).get? 1 = some row := rfl
  have htouched := touched_permissive I ⟨{}, {}⟩
    (expectedWriteDate (coerceNumericStrings D.registry values)) row
  obtain ⟨hcell, -⟩ := hkeeps permissive none I ⟨{}, {}⟩ (empty.insert row) [1] _ hwrite 1 row
    (assignRow company stamped row) hrow
    (by rw [get?_updateWhere, hrow, map_some, if_pos htouched]) f hf hreadonly
  have hassigned : (assignRow company stamped row).cells f.name = b := by
    show (stamped.lookup f.name).getD _ = b
    rw [hb]
    rfl
  exact ne_otherValue b (hassigned.symm.trans hcell)

/-- **What a write leaves alone.**  No write of the values changes a read-only
field if and only if the values cannot be written, are empty, or name no
read-only field. -/
theorem writeKeeps_iff : WriteKeeps D values ↔
      (Writable D values → written D values ≠ [] → LeavesReadonly D values) := by
  constructor
  · rintro hkeeps ⟨hknown, sets, hsets, hundated⟩ hvals f hf hreadonly
    obtain ⟨stamped, hstamped⟩ : ∃ stamped, stampedColumns D permissive sets = .ok stamped := by
      unfold stampedColumns
      rw [hundated]
      exact ⟨_, rfl⟩
    have hunset : ∀ b, stamped.lookup f.name ≠ some b := by
      intro b hb
      exact not_writeKeeps hknown hvals hsets hstamped hf hreadonly hb hkeeps
    have hdate : f.name ≠ "write_date" := by
      intro hname
      have htracks : D.registry.has "write_date" = true := hname ▸ has_of_mem hf
      exact hunset _ (hname ▸ stampedColumns_date htracks hstamped)
    refine ⟨?_, hdate⟩
    rw [← lookup_setColumns hsets hf, ← (stampedColumns_ok hstamped).1 f.name hdate,
      isSome_eq_false_iff, isNone_iff_eq_none, eq_none_iff_forall_ne_some]
    exact hunset
  · intro h db engine I c t ids t' hwrite
    by_cases hvals : written D values = []
    · -- an empty object sets nothing
      obtain rfl : t' = t := write_of_empty hvals hwrite
      intro id row row' hrow hrow' f _ _
      obtain rfl := mem_unique hrow hrow'
      exact ⟨rfl, fun _ => rfl⟩
    obtain ⟨hknown, hdone⟩ := write_ok rfl rfl hwrite
    rcases hdone with ⟨rfl, -⟩ | ⟨sets, stamped, clause, company, hsets, hstamped, -⟩
    · intro id row row' hrow hrow' f _ _
      obtain rfl := mem_unique hrow hrow'
      exact ⟨rfl, fun _ => rfl⟩
    have hundated : sets.lookup "write_date" = none := by
      unfold stampedColumns at hstamped
      split at hstamped
      · cases hstamped
      · next hnone => rwa [Bool.not_eq_true, isSome_eq_false_iff, isNone_iff_eq_none] at hnone
    exact writeKeeps_of_leaves (h ⟨hknown, sets, hsets, hundated⟩ hvals) db engine I c t ids t' hwrite

/-! ### Creating -/

/-- What an INSERT puts into a column. -/
def filled (D : Derived) (full : Values) (col : String) : Except String SqlValue :=
  match (insertValues D full).lookup col with
  | none => .ok .null
  | some v => bindColumn D.registry v col

/-- Every record the values create, for any caller, has in the read-only fields
what a record of no values has there. -/
def CreateKeeps (D : Derived) (values : Values) : Prop :=
  ∀ (db : Schema) (c : Caller) (t t' : Table Row), create D db c t values = .ok t' →
    ∀ row, t'.get? t.nextId = some row → ∀ f ∈ D.registry.fields, f.readonly = true →
      filled D (D.members []) f.name = .ok (row.cells f.name)

/-- The values, with whatever company the server puts in, set no member of a
read-only field. -/
def MembersDefault (D : Derived) (values : Values) : Prop :=
  ∀ (db : Schema) (c : Caller) (stamped : ℤ) (vals : Values),
    stampCompany db c (coerceNumericStrings D.registry values) = .ok (stamped, vals) →
    D.validate vals = [] → (∃ cols, insertColumns D (D.members vals) = .ok cols) →
    ∀ f ∈ D.registry.fields, f.readonly = true →
      filled D (D.members vals) f.name = filled D (D.members []) f.name

lemma filled_of_insert {full : Values} {cols : List (String × SqlValue)}
    (h : insertColumns D full = .ok cols) (col : String) :
    filled D full col = .ok ((cols.lookup col).getD .null) := by
  obtain ⟨hsome, hnone⟩ := bindColumns_lookup col h
  unfold filled
  rcases hv : (insertValues D full).lookup col with - | v
  · rw [hnone hv]
    rfl
  · obtain ⟨b, hb, hcol⟩ := hsome v hv
    rw [hcol]
    exact hb

/-- **What a create leaves at the default.** -/
theorem createKeeps_iff (hknown : rejectUnknownFields D values = .ok ()) :
    CreateKeeps D values ↔ MembersDefault D values := by
  constructor
  · rintro hkeeps db c stamped vals hstamp hvalid ⟨cols, hcols⟩ f hf hreadonly
    let db' : Schema := { permissive with hasCompanyColumn := db.hasCompanyColumn }
    obtain ⟨company, hcompany⟩ : ∃ company, insertedCompany D db' stamped cols = .ok company := by
      unfold insertedCompany
      split
      · next b _ => exact permissive_integerInput b
      · split
        · exact permissive_integerInput (.int stamped)
        · exact ⟨none, rfl⟩
    let row : Row := ⟨company, fun col => (cols.lookup col).getD .null⟩
    have hcreate : create D db' c empty values = .ok (empty.insert row) := by
      refine bind_ok_iff.mpr ⟨⟨⟩, hknown, bind_ok_iff.mpr ⟨(stamped, vals), hstamp, ?_⟩⟩
      dsimp only
      rw [hvalid]
      exact bind_ok_iff.mpr ⟨cols, hcols, bind_ok_iff.mpr ⟨company, hcompany, rfl⟩⟩
    rw [filled_of_insert hcols]
    exact (hkeeps db' c _ _ hcreate row rfl f hf hreadonly).symm
  · intro h db c t t' hcreate row hrow f hf hreadonly
    obtain ⟨-, stamped, vals, cols, company, hstamp, hvalid, hcols, -, rfl⟩ := create_ok hcreate
    rw [get?_insert_self, Option.some.injEq] at hrow
    subst hrow
    rw [← h db c stamped vals hstamp hvalid ⟨cols, hcols⟩ f hf hreadonly, filled_of_insert hcols]

/-- **Read-only fields.**  The values leave them alone in every write if and
only if they cannot be written, are empty, or name none of them, and in every
create if and only if they are refused or set none of their members. -/
theorem readonly_kept_iff (D : Derived) (values : Values) : (WriteKeeps D values ↔
      (Writable D values → written D values ≠ [] → LeavesReadonly D values)) ∧
    (CreateKeeps D values ↔ (rejectUnknownFields D values = .ok () → MembersDefault D values)) := by
  refine ⟨writeKeeps_iff, ?_⟩
  constructor
  · intro hkeeps hknown
    exact (createKeeps_iff hknown).mp hkeeps
  · intro h db c t t' hcreate
    have hknown := (create_ok hcreate).1
    exact (createKeeps_iff hknown).mpr (h hknown) db c t t' hcreate

end Readonly

/-! ### An expense report -/

/-- The members of an expense report: read where the kinds agree, else the
defaults. -/
def hrExpenseSheetMembers (j : Values) : Values :=
  let text (key default : String) : String :=
    match j.lookup key with
    | some (.str s) => s
    | _ => default
  let m2o (key : String) (default : ℤ) : ℤ :=
    match j.lookup key with
    | some v => m2oToId v
    | none => default
  let textOrFalse (s : String) : Json := if s = "" then .bool false else .str s
  let idOrFalse (n : ℤ) : Json := if n > 0 then .num n else .bool false
  [("name", .str (text "name" "")), ("employee_id", idOrFalse (m2o "employee_id" 0)),
    ("date", textOrFalse (text "date" "")),
    ("total_amount", .float (((j.lookup "total_amount").bind asDouble).getD 0.0)),
    ("payment_mode", .str (text "payment_mode" "own_account")),
    ("state", .str (text "state" "draft")),
    ("journal_id", idOrFalse (m2o "journal_id" 0)),
    -- the entries are not read from the object
    ("move_id", .bool false),
    ("payment_move_id", .bool false),
    ("note", textOrFalse (text "note" "")),
    ("company_id", idOrFalse (m2o "company_id" 1))]

def hrExpenseSheet : Derived where
  modelName := "hr.expense.sheet"
  tableName := "hr_expense_sheet"
  registry := {
    fields := [{ name := "name" }, { name := "employee_id", type := .many2one },
      { name := "date", type := .date },
      { name := "total_amount", type := .monetary, readonly := true, scaled := true },
      { name := "payment_mode", type := .selection },
      { name := "state", type := .selection, readonly := true },
      { name := "journal_id", type := .many2one },
      { name := "move_id", type := .many2one, readonly := true },
      { name := "payment_move_id", type := .many2one, readonly := true },
      { name := "note", type := .text },
      { name := "company_id", type := .many2one }]
    identifiers := by decide
    nodup := by decide }
  members := hrExpenseSheetMembers
  validate j :=
    match j.lookup "name" with
    | some (.str s) => if s = "" then ["A report name is required"] else []
    | _ => ["A report name is required"]

/-- The text of a column. -/
def SqlValue.text? : SqlValue → Option String
  | .text s => some s
  | _ => none

/-- A report in draft. -/
def draftReport : Row := ⟨some 1, fun col => if col = "state" then .text "draft" else .null⟩

/-- A report is written to be paid, past every step of its approval. -/
theorem report_written_paid :
    ¬ ∀ (_ : FloatText) (D : Derived) (values : Values), WriteKeeps D values ∧
      CreateKeeps D values := by
  intro h
  let _ := Json.wholeFloatText
  let paid : Values := [("state", .str "paid")]
  have hok : ((write hrExpenseSheet departmentSchema none noInterp (clerk.caller {})
      (empty.insert draftReport) [1] paid).toOption.bind
        fun t' => (t'.get? 1).map fun row => (row.cells "state").text?) = some (some "paid") := by
    decide
  obtain ⟨t', hwrite, hrow'⟩ := bind_eq_some_iff.mp hok
  rw [toOption_eq_some_iff] at hwrite
  obtain ⟨row', hget, hstate⟩ := map_eq_some_iff.mp hrow'
  obtain ⟨hcell, -⟩ := (h Json.wholeFloatText hrExpenseSheet paid).1 departmentSchema none noInterp
    (clerk.caller {}) (empty.insert draftReport) [1] t' hwrite 1 draftReport row' rfl hget
    { name := "state", type := .selection, readonly := true } (by decide) rfl
  rw [hcell] at hstate
  exact absurd hstate (by decide)

end CErp
