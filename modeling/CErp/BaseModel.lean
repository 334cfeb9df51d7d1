/-
The create, write and read path every model shares.

`BaseModel` is a template over a derived model.  What the derived model brings
is the record `Derived`: its names, its field registry, and `members`, the
values it keeps of a JSON object when its members are set from it and written
back.  What the database brings is the record `Schema`: the input conversion
and the default of the company column, the constraints of the table, and the
clock.

`touched` is the condition of an UPDATE.  `write_ok` and `create_ok` say
everything a successful write or create does to the table; the results on the
two go through these lemmas.

The fields a model registers come first: what the create and write paths, the
field listing and the access to columns read of them.  A registry is built by
`add` alone, which refuses a name that is no SQL identifier and a name that is
taken, so both facts are fields of the structure.
-/
import CErp.DomainSql
import CErp.Money
import CErp.RuleEngine
import CErp.Table

namespace CErp

inductive FieldType where
  | char
  | text
  | integer
  | float
  | boolean
  | date
  | datetime
  | binary
  | selection
  | many2one
  | one2many
  | many2many
  | html
  | monetary
  deriving DecidableEq

/-- The metadata of one field.  `compute` fields are derived by the server,
`scaled` ones are stored as micro-units. -/
structure FieldDef where
  name : String
  type : FieldType := .char
  readonly : Bool := false
  store : Bool := true
  compute : Bool := false
  scaled : Bool := false
  deriving DecidableEq

/-- A safe SQL identifier. -/
def isValidIdentifier (name : String) : Bool :=
  match name.toList with
  | [] => false
  | c :: cs => (c.isAlpha || c == '_') && cs.all fun c => c.isAlphanum || c == '_'

/-- The fields of one model, in registration order. -/
structure FieldRegistry where
  fields : List FieldDef := []
  identifiers : ∀ f ∈ fields, isValidIdentifier f.name = true := by simp
  nodup : (fields.map FieldDef.name).Nodup := by simp

namespace FieldRegistry

def has (reg : FieldRegistry) (name : String) : Bool := reg.fields.any fun f => f.name == name

/-- The field under a name. -/
def get? (reg : FieldRegistry) (name : String) : Option FieldDef :=
  reg.fields.find? fun f => f.name == name

lemma not_mem_of_not_has {reg : FieldRegistry} {name : String} (h : reg.has name = false) :
    name ∉ reg.fields.map FieldDef.name := by
  intro hm
  obtain ⟨f, hf, hname⟩ := List.mem_map.mp hm
  have hany : reg.has name = true :=
    List.any_eq_true.mpr ⟨f, hf, beq_iff_eq.mpr hname⟩
  rw [h] at hany
  cases hany

lemma has_iff_get? {reg : FieldRegistry} {name : String} :
    reg.has name = true ↔ ∃ f, reg.get? name = some f := by
  unfold has get?
  rw [List.any_eq_true, ← Option.isSome_iff_exists, List.find?_isSome]

/-- Registration. -/
def add (reg : FieldRegistry) (f : FieldDef) : Except String FieldRegistry :=
  if hid : isValidIdentifier f.name = true then
    if hdup : reg.has f.name = false then
      .ok {
        fields := reg.fields ++ [f]
        identifiers := by
          intro g hg
          rcases List.mem_append.mp hg with h | h
          · exact reg.identifiers g h
          · rw [List.mem_singleton.mp h]
            exact hid
        nodup := by
          rw [List.map_append, List.nodup_append]
          refine ⟨reg.nodup, List.nodup_singleton _, ?_⟩
          rintro a ha b hb rfl
          rw [List.mem_singleton.mp hb] at ha
          exact not_mem_of_not_has hdup ha }
    else .error ("FieldRegistry: duplicate field '" ++ f.name ++ "'")
  else
    .error ("FieldRegistry: field name '" ++ f.name ++
      "' is not a valid SQL identifier ([a-zA-Z_][a-zA-Z0-9_]*)")

def isScaled (reg : FieldRegistry) (name : String) : Bool :=
  match reg.get? name with
  | some f => f.scaled
  | none => false

/-- Whether a field is a column of the model's table. -/
def isColumn (f : FieldDef) : Bool :=
  f.store && f.type != .one2many && f.type != .many2many

def storedColumnNames (reg : FieldRegistry) : List String :=
  "id" :: (reg.fields.filter isColumn).map FieldDef.name

end FieldRegistry

end CErp

namespace CErp

open Sql

/-! ### Values -/

/-- The members of a JSON object. -/
abbrev Values := List (String × Json)

namespace Values

def contains (vals : Values) (key : String) : Bool := (vals.lookup key).isSome

def erase (vals : Values) (key : String) : Values := vals.filter fun kv => kv.1 != key

def set (vals : Values) (key : String) (v : Json) : Values := (key, v) :: vals.erase key

variable (vals : Values)

lemma lookup_set (key : String) (v : Json) : (vals.set key v).lookup key = some v := by
  simp [set]

/-- Taking out other keys leaves a key alone. -/
lemma lookup_filter (p : String → Bool) {key : String} (hp : p key = true) :
    (vals.filter fun kv => p kv.1).lookup key = vals.lookup key := by
  induction vals with
  | nil => rfl
  | cons kv vals ih =>
      obtain ⟨k, v⟩ := kv
      by_cases hk : key = k
      · subst hk
        simp only [List.filter_cons, hp, if_true, List.lookup_cons_self]
      · have hne : (key == k) = false := beq_eq_false_iff_ne.mpr hk
        rw [List.filter_cons, List.lookup_cons, hne]
        split
        · rw [List.lookup_cons, hne]
          exact ih
        · exact ih

lemma lookup_filter_none (p : String → Bool) {key : String} (hp : p key = false) :
    (vals.filter fun kv => p kv.1).lookup key = none := by
  rw [List.lookup_eq_none_iff]
  intro kv hkv
  obtain ⟨-, hpk⟩ := List.mem_filter.mp hkv
  rw [bne_iff_ne]
  rintro rfl
  rw [hp] at hpk
  cases hpk

end Values

/-- A value as a statement binds it, or as a column holds it. -/
inductive SqlValue where
  | null
  | bool (b : Bool)
  | int (i : ℤ)
  | double (x : Float)
  | text (s : String)

/-- A row of a model's table: the company column and the other columns. -/
structure Row where
  companyId : Option ℤ
  cells : String → SqlValue

/-! ### The derived model and the database -/

/-- What a model brings to the template. -/
structure Derived where
  modelName : String
  tableName : String
  registry : FieldRegistry
  members : Values → Values
  validate : Values → List String

/-- What the database brings to a table.  A bound NULL is stored as NULL and a
bound integer of the column's range as itself; texts and other kinds are
converted or refused by the database's own rules. -/
structure Schema where
  hasCompanyColumn : Bool
  integerInput : SqlValue → Except String (Option ℤ)
  integerInput_null : integerInput .null = .ok none
  integerInput_int : ∀ i, Json.toInt32 i = i → integerInput (.int i) = .ok (some i)
  companyDefault : Option ℤ
  constraints : Table Row → Except String Unit
  /-- the comparison of the `write_date` column with a bound text -/
  sameTimestamp : SqlValue → String → Bool
  now : SqlValue

/-- A call: the context the view model handed over, and the one published for
the request. -/
structure Caller where
  ctx : UserContext
  current : UserContext := {}

variable [FloatText]

/-! ### Values on their way to the database -/

/-- `get<double>()` of a number. -/
def asDouble : Json → Option Float
  | .num i => some (Float.ofInt i)
  | .float x => some x
  | _ => none

/-- The coercion of one value: a numeric string under a numeric field. -/
def coerceNumericString (reg : FieldRegistry) (key : String) (v : Json) : Json :=
  match v, reg.get? key with
  | .str s, some fd =>
      if fd.scaled || fd.type == .monetary || fd.type == .float || fd.type == .integer then
        if s = "" then if fd.type = .integer then .num 0 else .float 0.0
        else if fd.type = .integer then
          match Text.stollExact s with
          | some n => .num n
          | none => v
        else
          match FloatText.stod s with
          | some d => .float d
          | none => v
      else v
  | _, _ => v

/-- Coerces the numeric strings of a whole values object. -/
def coerceNumericStrings (reg : FieldRegistry) (vals : Values) : Values :=
  vals.map fun kv => (kv.1, coerceNumericString reg kv.1 kv.2)

/-- A key no field is registered under is refused, `id` and the `__` keys of
the protocol apart. -/
def rejectUnknownFields (D : Derived) (vals : Values) : Except String Unit :=
  match vals.find? fun kv => !(kv.1 == "id" || Text.hasPrefix "__" kv.1 || D.registry.has kv.1) with
  | none => .ok ()
  | some kv => .error ("Unknown field '" ++ kv.1 ++ "' on " ++ D.modelName)

/-- Money on its way into a micro-unit column. -/
def scaleForDb (v : Json) : Except String Json :=
  match v, asDouble v with
  | _, some d => (Money.fromJson d).map fun m => .num m.micros
  | .str s, none =>
      if s = "" then .ok (.num 0)
      else
        match Money.parse s with
        | .ok m => .ok (.num m.micros)
        | .error _ => .ok v
  | _, none => .ok v

/-- The value a column is given: `false` and blanks that are no value become
NULL, a display tuple its id, an amount its micro-units. -/
def normalizeForDb (reg : FieldRegistry) (v : Json) (col : String) : Except String Json :=
  match reg.get? col with
  | none => .ok v
  | some fd =>
      match v, fd.type with
      | .bool false, .boolean => .ok v
      | .bool false, _ => .ok .null
      | .str "", .date => .ok .null
      | .str "", .datetime => .ok .null
      | .str "", .many2one => .ok .null
      | .num i, .many2one =>
          if Json.toInt32 i = 0 then .ok .null
          else if fd.scaled then scaleForDb v else .ok v
      | .arr (.num i :: _), .many2one => .ok (.num (Json.toInt32 i))
      | _, _ => if fd.scaled then scaleForDb v else .ok v

def appendParam : Json → SqlValue
  | .null => .null
  | .bool b => .bool b
  | .num i => .int i
  | .float x => .double x
  | .str s => .text s
  | v => .text v.dump

/-- The bound value of a column. -/
def bindColumn (reg : FieldRegistry) (v : Json) (col : String) : Except String SqlValue :=
  (normalizeForDb reg v col).map appendParam

/-- The columns of a statement with their bound values. -/
def bindColumns (reg : FieldRegistry) (kvs : Values) : Except String (List (String × SqlValue)) :=
  kvs.mapM fun kv => (bindColumn reg kv.2 kv.1).map fun b => (kv.1, b)

/-- The binding of a column depends on the value under its key alone. -/
lemma bindColumns_lookup {reg : FieldRegistry} {kvs : Values} {cols : List (String × SqlValue)}
    (key : String) (h : bindColumns reg kvs = .ok cols) :
    (∀ v, kvs.lookup key = some v → ∃ b, bindColumn reg v key = .ok b ∧ cols.lookup key = some b) ∧
    (kvs.lookup key = none → cols.lookup key = none) := by
  unfold bindColumns at h
  induction kvs generalizing cols with
  | nil =>
      cases h
      exact ⟨fun v hv => (Option.some_ne_none v hv.symm).elim, fun _ => rfl⟩
  | cons kv kvs ih =>
      obtain ⟨k, v⟩ := kv
      rw [List.mapM_cons] at h
      obtain ⟨col, hcol, h⟩ := Outcome.bind_ok_iff.mp h
      obtain ⟨rest, hrest, h⟩ := Outcome.bind_ok_iff.mp h
      obtain ⟨b, hb, rfl⟩ := Outcome.map_ok_iff.mp hcol
      rw [Outcome.pure_ok_iff] at h
      subst h
      by_cases hk : key = k
      · subst hk
        rw [List.lookup_cons_self, List.lookup_cons_self]
        refine ⟨?_, fun hnone => absurd hnone (Option.some_ne_none v)⟩
        intro w hw
        cases hw
        exact ⟨b, hb, rfl⟩
      · have hne : (key == k) = false := beq_eq_false_iff_ne.mpr hk
        rw [List.lookup_cons, List.lookup_cons, hne]
        exact ih hrest

/-! ### Company scoping -/

/-- The context to scope by: the caller's, or the request's where the view
model handed over an anonymous one. -/
def Caller.scopeCtx (c : Caller) : UserContext := if c.ctx.uid > 0 then c.ctx else c.current

def companyScoped (db : Schema) (c : Caller) : Bool :=
  decide (c.scopeCtx.uid > 0) && db.hasCompanyColumn

/-- The company clause: the active company's rows and the shared ones. -/
def companyVisible (db : Schema) (c : Caller) (row : Row) : Bool :=
  if companyScoped db c then
    if c.scopeCtx.companyId > 0 then
      row.companyId == none || row.companyId == some c.scopeCtx.companyId
    else row.companyId == none
  else true

/-- `null` and `false` leave the company out. -/
def saysShared : Json → Bool
  | .null => true
  | .bool false => true
  | _ => false

/-- The company a caller asks for, 0 where the value names none. -/
def wantedCompany : Json → ℤ
  | .num i => Json.toInt32 i
  | .float x => Json.truncFloat x
  | .str s => (Text.stoi s).getD 0
  | _ => 0

/-- The company a new row must carry (0 for none), and the values with the
company filled in. -/
def stampCompany (db : Schema) (c : Caller) (vals : Values) : Except String (ℤ × Values) :=
  if !companyScoped db c then .ok (0, vals)
  else
    let u := c.scopeCtx
    match vals.lookup "company_id" with
    | some v =>
        if saysShared v then
          if u.isAdmin then .ok (0, vals.erase "company_id")
          else if u.companyId > 0 then
            .ok (u.companyId, vals.set "company_id" (.num u.companyId))
          else .ok (0, vals)
        else
          let want := wantedCompany v
          if want > 0 ∧ want ≠ u.companyId ∧ u.mayUseCompany want = false then
            .error "You cannot create records for another company."
          else .ok (if want > 0 then want else u.companyId, vals)
    | none =>
        if u.companyId > 0 then
          .ok (u.companyId, vals.set "company_id" (.num u.companyId))
        else .ok (0, vals)

/-! ### Record rules -/

/-- The rule clause of a statement on rows addressed by id, compiled on its
own. -/
def ruleClause (engine : Option RuleEngine) (D : Derived) (op : RuleOp) (c : Caller) :
    Except String (Option (Cond × List String)) :=
  match engine with
  | none => .ok none
  | some engine =>
      let ruleDomain := engine.buildRuleDomain D.modelName op c.ctx
      if ruleDomain.isEmpty then .ok none
      else
        match domainFromJson ruleDomain with
        | .error e => .error e
        | .ok d => (d.toCond none "").map some

/-- Whether a row passes a rule clause. -/
def passes (I : Interp (ℤ × Row)) (clause : Option (Cond × List String)) (r : ℤ × Row) : Bool :=
  match clause with
  | none => true
  | some (cond, params) => cond.eval I params r == .true

/-! ### Writing -/

section Write

variable (D : Derived) (db : Schema) (engine : Option RuleEngine) (I : Interp (ℤ × Row))
variable (c : Caller)

/-- The columns an UPDATE sets, with their bound values. -/
def setColumns (vals : Values) : Except String (List (String × SqlValue)) :=
  bindColumns D.registry (vals.filter fun kv => D.registry.has kv.1)

/-- The company an UPDATE assigns, if it sets the column. -/
def assignedCompany (sets : List (String × SqlValue)) : Except String (Option (Option ℤ)) :=
  match sets.lookup "company_id" with
  | none => .ok none
  | some b => (db.integerInput b).map some

/-- A row with the assignments of an UPDATE made. -/
def assignRow (company : Option (Option ℤ)) (sets : List (String × SqlValue)) (row : Row) : Row where
  companyId := company.getD row.companyId
  cells col := (sets.lookup col).getD (row.cells col)

/-- The condition of an UPDATE: the ids, the expected write date, the rule and
the company. -/
def touched (ids : List ℤ) (expectedWd : String) (clause : Option (Cond × List String))
    (id : ℤ) (row : Row) : Bool :=
  ids.contains id &&
    (expectedWd == "" || db.sameTimestamp (row.cells "write_date") expectedWd) &&
    passes I clause (id, row) && companyVisible db c row

/-- The sentinel of the concurrency check, taken out of the values. -/
def expectedWriteDate (vals : Values) : String :=
  match vals.lookup "__expected_write_date" with
  | some (.str s) => s
  | _ => ""

/-- The assignments of an UPDATE, the write date of a model that tracks it
added.  A column cannot be assigned twice. -/
def stampedColumns (sets : List (String × SqlValue)) : Except String (List (String × SqlValue)) :=
  if (sets.lookup "write_date").isSome then
    .error "ERROR:  multiple assignments to same column \"write_date\""
  else .ok (if D.registry.has "write_date" then sets ++ [("write_date", db.now)] else sets)

/-- `BaseModel::write`: the table after the UPDATE. -/
def write (t : Table Row) (ids : List ℤ) (values : Values) : Except String (Table Row) := do
  let coerced := coerceNumericStrings D.registry values
  let expectedWd := expectedWriteDate coerced
  let vals := coerced.erase "__expected_write_date"
  rejectUnknownFields D vals
  if ids.isEmpty || vals.isEmpty then return t
  else
    let sets ← setColumns D vals
    let stamped ← stampedColumns D db sets
    if stamped.isEmpty then return t
    else
      let clause ← ruleClause engine D .write c
      let company ← assignedCompany db sets
      let hit := touched db I c ids expectedWd clause
      let t' := t.updateWhere hit (assignRow company stamped)
      db.constraints t'
      Outcome.require (expectedWd = "" ∨ t.rows.any fun r => hit r.1 r.2)
        "Record was modified by another user. Please reload and re-apply your changes."
      return t'

end Write

/-! ### Creating -/

section Create

variable (D : Derived) (db : Schema) (c : Caller)

/-- The members an INSERT fills columns from. -/
def insertValues (full : Values) : Values :=
  (D.registry.storedColumnNames.filter fun col => col != "id" && full.contains col).map
    fun col => (col, (full.lookup col).getD .null)

/-- The columns an INSERT fills, with their bound values. -/
def insertColumns (full : Values) : Except String (List (String × SqlValue)) :=
  bindColumns D.registry (insertValues D full)

/-- The company of a new row: the model's own column, the stamp where the
model registers none, or the column's default. -/
def insertedCompany (stamped : ℤ) (cols : List (String × SqlValue)) : Except String (Option ℤ) :=
  match cols.lookup "company_id" with
  | some b => db.integerInput b
  | none =>
      if stamped > 0 ∧ D.registry.has "company_id" = false then
        db.integerInput (.int stamped)
      else .ok db.companyDefault

/-- `BaseModel::create`: the table with the new row, whose id is the one the
table was to give next. -/
def create (t : Table Row) (values : Values) : Except String (Table Row) := do
  rejectUnknownFields D values
  let (stamped, vals) ← stampCompany db c (coerceNumericStrings D.registry values)
  match D.validate vals with
  | e :: _ => throw e
  | [] =>
      let cols ← insertColumns D (D.members vals)
      let company ← insertedCompany D db stamped cols
      let t' := t.insert ⟨company, fun col => (cols.lookup col).getD .null⟩
      db.constraints t'
      return t'

end Create

/-! ### What a successful call does -/

variable {D : Derived} {db : Schema}

omit [FloatText] in
/-- The write date is the one column the stamp sets. -/
lemma stampedColumns_ok {sets stamped : List (String × SqlValue)}
    (h : stampedColumns D db sets = .ok stamped) :
    (∀ col, col ≠ "write_date" → stamped.lookup col = sets.lookup col) ∧
      (stamped = [] → sets = []) := by
  unfold stampedColumns at h
  split at h
  · cases h
  · rw [Except.ok.injEq] at h
    subst h
    split
    · refine ⟨fun col hcol => ?_, fun hnil => absurd hnil (by simp)⟩
      have hwd : List.lookup col [("write_date", db.now)] = none := by
        rw [List.lookup_cons, beq_eq_false_iff_ne.mpr hcol]
        rfl
      rw [List.lookup_append, hwd, Option.or_none]
    · exact ⟨fun _ _ => rfl, id⟩

omit [FloatText] in
/-- The date of the write is among the columns it sets. -/
lemma stampedColumns_date {sets stamped : List (String × SqlValue)}
    (htracks : D.registry.has "write_date" = true) (h : stampedColumns D db sets = .ok stamped) :
    stamped.lookup "write_date" = some db.now := by
  unfold stampedColumns at h
  split at h
  · cases h
  · next hnone =>
      obtain rfl := Except.ok.inj h
      rw [Bool.not_eq_true, Option.isSome_eq_false_iff, Option.isNone_iff_eq_none] at hnone
      rw [List.lookup_append, hnone]
      rfl

/-- **Inversion of `write`.**  Either nothing was to be set, or the rows the
condition selects get the assignments. -/
theorem write_ok {engine : Option RuleEngine} {I : Interp (ℤ × Row)} {c : Caller}
    {t t' : Table Row} {ids : List ℤ} {values : Values} {coerced vals : Values}
    (hcoerced : coerced = coerceNumericStrings D.registry values)
    (hvals : vals = coerced.erase "__expected_write_date")
    (h : write D db engine I c t ids values = .ok t') :
    rejectUnknownFields D vals = .ok () ∧
    ((t' = t ∧ (ids = [] ∨ vals = [] ∨ setColumns D vals = .ok [])) ∨ ∃ sets stamped clause company,
        setColumns D vals = .ok sets ∧ stampedColumns D db sets = .ok stamped ∧
        ruleClause engine D .write c = .ok clause ∧
        assignedCompany db sets = .ok company ∧
        t' = t.updateWhere (touched db I c ids (expectedWriteDate coerced) clause)
          (assignRow company stamped)) := by
  subst hcoerced hvals
  obtain ⟨⟨⟩, hknown, h⟩ := Outcome.bind_ok_iff.mp h
  refine ⟨hknown, ?_⟩
  split at h
  · -- no ids, or no values
    next hempty =>
      refine .inl ⟨(Outcome.pure_ok_iff.mp h).symm, ?_⟩
      rcases Bool.or_eq_true_iff.mp hempty with hids | hvals
      · exact .inl (List.isEmpty_iff.mp hids)
      · exact .inr (.inl (List.isEmpty_iff.mp hvals))
  obtain ⟨sets, hsets, h⟩ := Outcome.bind_ok_iff.mp h
  obtain ⟨stamped, hstamped, h⟩ := Outcome.bind_ok_iff.mp h
  have hnil := (stampedColumns_ok hstamped).2
  split at h
  · -- no column to set
    next hempty =>
      refine .inl ⟨(Outcome.pure_ok_iff.mp h).symm, .inr (.inr ?_)⟩
      rw [hsets, hnil (List.isEmpty_iff.mp hempty)]
  obtain ⟨clause, hclause, h⟩ := Outcome.bind_ok_iff.mp h
  obtain ⟨company, hassigned, h⟩ := Outcome.bind_ok_iff.mp h
  obtain ⟨-, -, h⟩ := Outcome.bind_ok_iff.mp h
  obtain ⟨-, -, h⟩ := Outcome.bind_ok_iff.mp h
  exact .inr ⟨sets, stamped, clause, company, hsets, hstamped, hclause, hassigned,
    (Outcome.pure_ok_iff.mp h).symm⟩

/-- **Inversion of `create`.**  The values are stamped with a company, and one
row is added whose company is the one its columns carry. -/
theorem create_ok {c : Caller} {t t' : Table Row} {values : Values}
    (h : create D db c t values = .ok t') :
    rejectUnknownFields D values = .ok () ∧
    ∃ stamped vals cols company,
      stampCompany db c (coerceNumericStrings D.registry values) = .ok (stamped, vals) ∧
      D.validate vals = [] ∧ insertColumns D (D.members vals) = .ok cols ∧
      insertedCompany D db stamped cols = .ok company ∧
      t' = t.insert ⟨company, fun col => (cols.lookup col).getD .null⟩ := by
  obtain ⟨⟨⟩, hknown, h⟩ := Outcome.bind_ok_iff.mp h
  refine ⟨hknown, ?_⟩
  obtain ⟨⟨stamped, vals⟩, hstamp, h⟩ := Outcome.bind_ok_iff.mp h
  dsimp only at h
  rcases e : D.validate vals with - | ⟨err, errs⟩
  · rw [e] at h
    obtain ⟨cols, hcols, h⟩ := Outcome.bind_ok_iff.mp h
    obtain ⟨company, hcompany, h⟩ := Outcome.bind_ok_iff.mp h
    obtain ⟨-, -, h⟩ := Outcome.bind_ok_iff.mp h
    exact ⟨stamped, vals, cols, company, hstamp, e, hcols, hcompany,
      (Outcome.pure_ok_iff.mp h).symm⟩
  · rw [e] at h
    cases h

end CErp
