/-
Company isolation on the write paths.

A signed-in user belongs to a set of companies, one of which is active.  An
UPDATE reaches the active company's rows and the shared ones only, so a row of
another company is left alone whatever the values are
(`write_foreign_unchanged`).  What the values themselves say of the company
column is another matter: `create` checks a company given as a number or a
text, `write` checks none.  `company_isolation_iff` is the exact extent.
-/
import CErp.BaseModel

namespace CErp

open Sql Outcome List Table Json

/-! ### Who calls -/

/-- A signed-in user who is no administrator, with a membership set that holds
the active company (an `int` of the session). -/
structure Member where
  ctx : UserContext
  signedIn : 0 < ctx.uid
  notAdmin : ctx.isAdmin = false
  activeMember : ctx.companyId ≤ 0 ∨ ctx.companyId ∈ ctx.allowedCompanyIds
  activeInt32 : toInt32 ctx.companyId = ctx.companyId

/-- The call of a member through a view model that hands the context over. -/
def Member.caller (m : Member) (current : UserContext) : Caller := ⟨m.ctx, current⟩

@[simp] lemma scopeCtx_caller (m : Member) (current : UserContext) :
    (m.caller current).scopeCtx = m.ctx := by
  simp [Caller.scopeCtx, Member.caller, m.signedIn]

/-! ### Models with a company -/

/-- A model whose table has a company column, with what it makes of the column
if it registers it: `readCompany` is the member its `deserializeFields` leaves,
from the value in the object if there is one, and `writeCompany` what its
`serializeFields` gives back. -/
structure CompanyModel extends Derived where
  readCompany : Option Json → ℤ
  writeCompany : ℤ → Json
  company_field : ∀ f, registry.get? "company_id" = some f →
    f.type = .many2one ∧ f.scaled = false ∧ FieldRegistry.isColumn f = true
  members_company : registry.has "company_id" = true → ∀ vals : Values,
    (members vals).lookup "company_id" = some (writeCompany (readCompany (vals.lookup "company_id")))
  read_integer : ∀ i, readCompany (some (.num i)) = toInt32 i
  read_int32 : ∀ v, toInt32 (readCompany v) = readCompany v
  write_positive : ∀ n, 0 < n → writeCompany n = .num n ∨ ∃ s, writeCompany n = .arr [.num n, s]
  write_none : ∀ n, n ≤ 0 → writeCompany n = .bool false ∨ writeCompany n = .num n

/-- The usual conversion of a many2one: an id, or a display tuple. -/
def m2oToId : Json → ℤ
  | .num i => toInt32 i
  | .arr (.num i :: _) => toInt32 i
  | _ => 0

/-! ### The property -/

/-- A row of a company outside the set. -/
def Foreign (companies : List ℤ) (row : Row) : Prop :=
  ∃ cid, row.companyId = some cid ∧ cid ∉ companies

/-- Rows of foreign companies are as they were, and every row that is new or
changed is shared or of a company of the set. -/
def KeepsCompanies (companies : List ℤ) (t t' : Table Row) : Prop :=
  (∀ r ∈ t.rows, Foreign companies r.2 → r ∈ t'.rows) ∧
  ∀ r ∈ t'.rows, r ∉ t.rows → ¬ Foreign companies r.2

/-! ### The conditions -/

/-- The value leaves the company out. -/
def omitsCompany : Option Json → Bool
  | none => true
  | some v => saysShared v

/-- A company member under which the model writes NULL. -/
def CompanyModel.NoCompany (model : CompanyModel) (n : ℤ) : Prop :=
  n = 0 ∨ (n < 0 ∧ model.writeCompany n = .bool false)

/-- The company a create is given: the active one is filled in, or it is a
positive integer (which is checked), or the model reads a company of the set or
none from the value. -/
def CreateNamesOwn (model : CompanyModel) (db : Schema) (u : UserContext) (values : Values) :
    Prop :=
  if model.registry.has "company_id" then
    (omitsCompany (values.lookup "company_id") = true ∧ 0 < u.companyId) ∨
    (∃ i, values.lookup "company_id" = some (.num i) ∧ 0 < toInt32 i) ∨
    model.readCompany (values.lookup "company_id") ∈ u.allowedCompanyIds ∨
    model.NoCompany (model.readCompany (values.lookup "company_id"))
  else 0 < u.companyId ∨ ∀ cid, db.companyDefault = some cid → cid ∈ u.allowedCompanyIds

section Isolation

variable [FloatText]

/-- The company a write is given, if it is given one, is NULL or of the set. -/
def WriteNamesOwn (model : CompanyModel) (db : Schema) (u : UserContext) (values : Values) : Prop :=
  ∀ v b cid, values.lookup "company_id" = some v →
    bindColumn model.registry v "company_id" = .ok b →
    db.integerInput b = .ok (some cid) → cid ∈ u.allowedCompanyIds

/-- The UPDATE of a write selects some row. -/
def Selects (model : CompanyModel) (db : Schema) (engine : Option RuleEngine)
    (I : Interp (ℤ × Row)) (c : Caller) (t : Table Row) (ids : List ℤ) (values : Values) : Prop :=
  ∃ clause, ruleClause engine model.toDerived .write c = .ok clause ∧
    ∃ r ∈ t.rows, touched db I c ids
      (expectedWriteDate (coerceNumericStrings model.registry values)) clause r.1 r.2 = true

/-! ### What the company clause lets through -/

section Visible

variable {m : Member} {current : UserContext} {db : Schema} {row : Row}
variable (hcol : db.hasCompanyColumn = true)
include hcol

omit [FloatText] in
lemma companyScoped_member : companyScoped db (m.caller current) = true := by
  simp [companyScoped, hcol, m.signedIn]

omit [FloatText] in
/-- A visible row is shared or of the active company, so it is not foreign. -/
lemma not_foreign_of_visible (h : companyVisible db (m.caller current) row = true) :
    ¬ Foreign m.ctx.allowedCompanyIds row := by
  rintro ⟨cid, hrow, hout⟩
  unfold companyVisible at h
  rw [companyScoped_member hcol, if_pos rfl, scopeCtx_caller] at h
  by_cases hpos : m.ctx.companyId > 0
  · rw [if_pos hpos, hrow] at h
    have hcid : cid = m.ctx.companyId := by simpa using h
    rcases m.activeMember with hle | hmem
    · omega
    · exact hout (hcid ▸ hmem)
  · rw [if_neg hpos, hrow] at h
    cases h

end Visible

/-! ### The company column on its way -/

section Column

variable {model : CompanyModel} {db : Schema}

/-- The value of a many2one column on its way to the database. -/
def m2oForDb : Json → Json
  | .bool false => .null
  | .str "" => .null
  | .num i => if toInt32 i = 0 then .null else .num i
  | .arr (.num i :: _) => .num (toInt32 i)
  | v => v

omit [FloatText] in
lemma registered_iff :
    model.registry.has "company_id" = true ↔ ∃ f, model.registry.get? "company_id" = some f :=
  FieldRegistry.has_iff_get?

omit [FloatText] in
lemma normalizeForDb_company (hreg : model.registry.has "company_id" = true) (v : Json) :
    normalizeForDb model.registry v "company_id" = .ok (m2oForDb v) := by
  obtain ⟨f, hf⟩ := registered_iff.mp hreg
  obtain ⟨htype, hscaled, -⟩ := model.company_field f hf
  unfold normalizeForDb m2oForDb
  rw [hf]
  dsimp only
  rw [htype, hscaled]
  split <;> simp_all
  split <;> rfl

lemma bindColumn_company (hreg : model.registry.has "company_id" = true) (v : Json) :
    bindColumn model.registry v "company_id" = .ok (appendParam (m2oForDb v)) := by
  rw [bindColumn, normalizeForDb_company hreg]
  rfl

/-- A company is no numeric field: its texts are left as they are. -/
lemma coerceNumericString_company (v : Json) :
    coerceNumericString model.registry "company_id" v = v := by
  rcases e : model.registry.get? "company_id" with - | f
  · unfold coerceNumericString
    rw [e]
    cases v <;> rfl
  · obtain ⟨htype, hscaled, -⟩ := model.company_field f e
    unfold coerceNumericString
    rw [e]
    cases v with
    | str s => simp [htype, hscaled]
    | _ => rfl

lemma lookup_coerce (reg : FieldRegistry) (vals : Values) (key : String) :
    (coerceNumericStrings reg vals).lookup key =
      (vals.lookup key).map (coerceNumericString reg key) := by
  induction vals with
  | nil => rfl
  | cons kv vals ih =>
      obtain ⟨k, v⟩ := kv
      unfold coerceNumericStrings at ih ⊢
      by_cases hk : key = k
      · subst hk
        rw [map_cons, lookup_cons_self, lookup_cons_self, Option.map_some]
      · have hne : (key == k) = false := beq_eq_false_iff_ne.mpr hk
        rw [map_cons, lookup_cons, lookup_cons, hne]
        exact ih

lemma lookup_coerce_company (vals : Values) :
    (coerceNumericStrings model.registry vals).lookup "company_id" = vals.lookup "company_id" := by
  rw [lookup_coerce]
  rcases vals.lookup "company_id" with - | v
  · rfl
  · rw [Option.map_some, coerceNumericString_company]

omit [FloatText] in
/-- A key that passed the check is registered. -/
lemma registered_of_known {D : Derived} {vals : Values} {v : Json}
    (hknown : rejectUnknownFields D vals = .ok ()) (hv : vals.lookup "company_id" = some v) :
    D.registry.has "company_id" = true := by
  unfold rejectUnknownFields at hknown
  split at hknown
  · next hfind =>
      rw [find?_eq_none] at hfind
      have hmem : ("company_id", v) ∈ vals := by
        obtain ⟨l₁, l₂, rfl, -⟩ := lookup_eq_some_iff.mp hv
        exact mem_append_right l₁ mem_cons_self
      have hkey := hfind _ hmem
      have hstart : Text.hasPrefix "__" "company_id" = false := by decide
      simpa [hstart] using hkey
  · cases hknown

/-- The company a model's member is stored as. -/
lemma storedCompany {n : ℤ} {b : SqlValue} {company : Option ℤ}
    (hreg : model.registry.has "company_id" = true) (hn : toInt32 n = n)
    (hbind : bindColumn model.registry (model.writeCompany n) "company_id" = .ok b)
    (hinput : db.integerInput b = .ok company) :
    (model.NoCompany n ∧ company = none) ∨ (¬ model.NoCompany n ∧ company = some n) := by
  rw [bindColumn_company hreg, Except.ok.injEq] at hbind
  subst hbind
  have hnum : n ≠ 0 → appendParam (m2oForDb (.num n)) = .int n := by
    intro h0
    rw [m2oForDb, hn, if_neg h0, appendParam]
  have hnull : appendParam (m2oForDb (.bool false)) = .null := rfl
  rcases Int.lt_or_le 0 n with hpos | hle
  · -- a positive member is written as the number or a display tuple
    right
    have hb : appendParam (m2oForDb (model.writeCompany n)) = .int n := by
      rcases model.write_positive n hpos with hw | ⟨s, hw⟩
      · rw [hw]
        exact hnum (by omega)
      · rw [hw, m2oForDb, hn, appendParam]
    rw [hb, db.integerInput_int n hn, Except.ok.injEq] at hinput
    refine ⟨?_, hinput.symm⟩
    rintro (h0 | ⟨hneg, -⟩) <;> omega
  · rcases model.write_none n hle with hw | hw
    · -- the model writes `false`
      left
      rw [hw, hnull, db.integerInput_null, Except.ok.injEq] at hinput
      refine ⟨?_, hinput.symm⟩
      by_cases h0 : n = 0
      · exact .inl h0
      · exact .inr ⟨by omega, hw⟩
    · -- the model writes the member as it is
      by_cases h0 : n = 0
      · left
        subst h0
        have hzero : appendParam (m2oForDb (.num 0)) = .null := rfl
        rw [hw, hzero, db.integerInput_null, Except.ok.injEq] at hinput
        exact ⟨.inl rfl, hinput.symm⟩
      · right
        rw [hw, hnum h0, db.integerInput_int n hn, Except.ok.injEq] at hinput
        refine ⟨?_, hinput.symm⟩
        rintro (h | ⟨-, hfalse⟩)
        · exact h0 h
        · rw [hw] at hfalse
          cases hfalse

end Column

/-! ### Writing -/

section Writes

variable {model : CompanyModel} {db : Schema} {engine : Option RuleEngine}
variable {I : Interp (ℤ × Row)} {m : Member} {current : UserContext}
variable {t t' : Table Row} {ids : List ℤ} {values : Values}

/-- What a successful write does, with the company it assigns traced back to
the values. -/
lemma write_company
    (h : write model.toDerived db engine I (m.caller current) t ids values = .ok t') :
    (t' = t ∧ (ids = [] ∨ values.lookup "company_id" = none)) ∨
    ∃ clause company stamped,
      ruleClause engine model.toDerived .write (m.caller current) = .ok clause ∧
      t' = t.updateWhere (touched db I (m.caller current) ids
        (expectedWriteDate (coerceNumericStrings model.registry values)) clause)
        (assignRow company stamped) ∧
      ((values.lookup "company_id" = none ∧ company = none) ∨
        ∃ v b cid, values.lookup "company_id" = some v ∧
          bindColumn model.registry v "company_id" = .ok b ∧
          db.integerInput b = .ok cid ∧ company = some cid) := by
  obtain ⟨hknown, hdone⟩ := write_ok rfl rfl h
  have hkeep : (("company_id" : String) != "__expected_write_date") = true := by decide
  have hlookup : ((coerceNumericStrings model.registry values).erase
      "__expected_write_date").lookup "company_id" = values.lookup "company_id" := by
    rw [Values.erase, Values.lookup_filter _ (fun k => k != "__expected_write_date") hkeep,
      lookup_coerce_company]
  -- the bound columns, as far as the company goes
  have hset : ∀ sets, setColumns model.toDerived ((coerceNumericStrings model.registry values).erase
      "__expected_write_date") = .ok sets →
      (values.lookup "company_id" = none ∧ sets.lookup "company_id" = none) ∨
      ∃ v b, values.lookup "company_id" = some v ∧
        bindColumn model.registry v "company_id" = .ok b ∧
        sets.lookup "company_id" = some b := by
    intro sets hsets
    obtain ⟨hsome, hnone⟩ := bindColumns_lookup "company_id" hsets
    rcases e : values.lookup "company_id" with - | v
    · left
      refine ⟨rfl, hnone ?_⟩
      cases hreg : model.registry.has "company_id" with
      | true => rw [Values.lookup_filter _ _ hreg, hlookup, e]
      | false => exact Values.lookup_filter_none _ _ hreg
    · right
      have hreg := registered_of_known hknown (hlookup.trans e)
      obtain ⟨b, hb, hlb⟩ := hsome v (by rw [Values.lookup_filter _ _ hreg, hlookup, e])
      exact ⟨v, b, rfl, hb, hlb⟩
  rcases hdone with ⟨rfl, hids | hvals | hnil⟩ | ⟨sets, stamped, clause, company, hsets, -, hclause,
    hassigned, rfl⟩
  · exact .inl ⟨rfl, .inl hids⟩
  · refine .inl ⟨rfl, .inr ?_⟩
    rw [← hlookup, hvals]
    rfl
  · refine .inl ⟨rfl, .inr ?_⟩
    rcases hset [] hnil with ⟨hnone, -⟩ | ⟨v, b, -, -, hb⟩
    · exact hnone
    · cases hb
  · refine .inr ⟨clause, company, stamped, hclause, rfl, ?_⟩
    unfold assignedCompany at hassigned
    rcases hset sets hsets with ⟨hnone, hl⟩ | ⟨v, b, hv, hb, hl⟩
    · rw [hl] at hassigned
      cases hassigned
      exact .inl ⟨hnone, rfl⟩
    · rw [hl] at hassigned
      obtain ⟨cid, hcid, rfl⟩ := map_ok_iff.mp hassigned
      exact .inr ⟨v, b, cid, hv, hb, hcid, rfl⟩

omit [FloatText] in
/-- A row the UPDATE selects is no foreign one. -/
lemma not_foreign_of_touched (hcol : db.hasCompanyColumn = true) {expectedWd : String}
    {clause : Option (Cond × List String)} {id : ℤ} {row : Row}
    (h : touched db I (m.caller current) ids expectedWd clause id row = true) :
    ¬ Foreign m.ctx.allowedCompanyIds row := by
  exact not_foreign_of_visible hcol (Bool.and_eq_true_iff.mp h).2

/-- **Foreign rows are out of reach.**  Whatever the values, a write leaves
every row of a company outside the set as it was. -/
theorem write_foreign_unchanged (hcol : db.hasCompanyColumn = true)
    (h : write model.toDerived db engine I (m.caller current) t ids values = .ok t') :
    ∀ r ∈ t.rows, Foreign m.ctx.allowedCompanyIds r.2 → r ∈ t'.rows := by
  intro r hr hforeign
  rcases write_company h with ⟨rfl, -⟩ | ⟨clause, company, stamped, -, rfl, -⟩
  · exact hr
  · refine mem_update_iff.mpr ⟨r.2, hr, ?_⟩
    rw [if_neg]
    intro hhit
    exact not_foreign_of_touched hcol hhit hforeign

/-- What a write that selects rows says of the company it assigns. -/
lemma keepsCompanies_write_iff (hcol : db.hasCompanyColumn = true)
    (h : write model.toDerived db engine I (m.caller current) t ids values = .ok t') :
    KeepsCompanies m.ctx.allowedCompanyIds t t' ↔ WriteNamesOwn model db m.ctx values ∨
        ¬ Selects model db engine I (m.caller current) t ids values := by
  have hforeign := write_foreign_unchanged hcol h
  rcases write_company h with ⟨rfl, hnothing⟩ | ⟨clause, company, stamped, hclause, rfl, hgiven⟩
  · -- nothing was set
    constructor
    · rintro -
      rcases hnothing with rfl | hnone
      · right
        rintro ⟨clause, -, r, -, hhit⟩
        simp [touched] at hhit
      · left
        intro v b cid hv
        rw [hnone] at hv
        cases hv
    · rintro -
      exact ⟨fun r hr _ => hr, fun r hr hnew => absurd hr hnew⟩
  constructor
  · rintro ⟨-, hnew⟩
    rw [or_iff_not_imp_right, not_not]
    rintro ⟨clause', hclause', r, hr, hhit⟩ v b cid hv hb hinput
    rw [hclause, Except.ok.injEq] at hclause'
    subst hclause'
    -- the selected row carries the company of the values
    have hcompany : company = some (some cid) := by
      rcases hgiven with ⟨hnone, -⟩ | ⟨v', b', cid', hv', hb', hinput', rfl⟩
      · rw [hnone] at hv
        cases hv
      · rw [hv, Option.some.injEq] at hv'
        subst hv'
        rw [hb, Except.ok.injEq] at hb'
        subst hb'
        rw [hinput, Except.ok.injEq] at hinput'
        rw [hinput']
    subst hcompany
    by_contra hout
    have hforeign' : Foreign m.ctx.allowedCompanyIds (assignRow (some (some cid)) stamped r.2) :=
      ⟨cid, rfl, hout⟩
    have hmem : (r.1, assignRow (some (some cid)) stamped r.2) ∈
        (t.updateWhere (touched db I (m.caller current) ids
          (expectedWriteDate (coerceNumericStrings model.registry values)) clause)
          (assignRow (some (some cid)) stamped)).rows :=
      mem_update_iff.mpr ⟨r.2, hr, by rw [if_pos hhit]⟩
    refine hnew _ hmem ?_ hforeign'
    intro hold
    rw [← eq_of_mem hr hold] at hforeign'
    exact not_foreign_of_touched hcol hhit hforeign'
  · intro hcond
    refine ⟨hforeign, ?_⟩
    intro r hr hnew
    obtain ⟨row, hrow, hr2⟩ := mem_update_iff.mp hr
    by_cases hhit : touched db I (m.caller current) ids
        (expectedWriteDate (coerceNumericStrings model.registry values)) clause r.1 row = true
    · rw [if_pos hhit] at hr2
      rintro ⟨cid, hcid, hout⟩
      rw [← hr2] at hcid
      rcases hgiven with ⟨-, rfl⟩ | ⟨v, b, c, hv, hb, hinput, rfl⟩
      · -- the company stays the one the clause let through
        exact not_foreign_of_touched hcol hhit ⟨cid, hcid, hout⟩
      · have hc : c = some cid := hcid
        subst hc
        rcases hcond with hown | hnone
        · exact hout (hown v b cid hv hb hinput)
        · exact hnone ⟨clause, hclause, (r.1, row), hrow, hhit⟩
    · -- a row the condition does not select is as it was
      rw [if_neg hhit] at hr2
      subst hr2
      exact absurd hrow hnew

end Writes

/-! ### Creating -/

section Creates

variable {model : CompanyModel} {db : Schema} {m : Member} {current : UserContext}
variable {t t' : Table Row} {values : Values}

section

omit [FloatText]

/-- What the stamp leaves under the company, in three cases: the active company
filled in, nothing to fill in, or a company that was supplied and passed. -/
lemma stampCompany_ok (hcol : db.hasCompanyColumn = true) {vals vals' : Values} {stamped : ℤ}
    (h : stampCompany db (m.caller current) vals = .ok (stamped, vals')) :
    (omitsCompany (vals.lookup "company_id") = true ∧ 0 < m.ctx.companyId ∧
      stamped = m.ctx.companyId ∧ vals'.lookup "company_id" = some (.num m.ctx.companyId)) ∨
    (omitsCompany (vals.lookup "company_id") = true ∧ m.ctx.companyId ≤ 0 ∧ stamped = 0 ∧
      vals'.lookup "company_id" = vals.lookup "company_id") ∨
    ∃ v, vals.lookup "company_id" = some v ∧ saysShared v = false ∧
      vals'.lookup "company_id" = some v ∧
      (0 < wantedCompany v → wantedCompany v ∈ m.ctx.allowedCompanyIds) := by
  unfold stampCompany at h
  rw [companyScoped_member hcol] at h
  simp only [Bool.not_true, Bool.false_eq_true, if_false, scopeCtx_caller, m.notAdmin] at h
  rcases e : vals.lookup "company_id" with - | v
  · rw [e] at h
    dsimp only at h
    split at h
    · next hpos =>
        cases h
        exact .inl ⟨rfl, hpos, rfl, Values.lookup_set vals _ _⟩
    · next hpos =>
        cases h
        exact .inr (.inl ⟨rfl, by omega, rfl, e⟩)
  · rw [e] at h
    dsimp only at h
    by_cases hshared : saysShared v = true
    · rw [if_pos hshared] at h
      split at h
      · next hpos =>
          cases h
          exact .inl ⟨hshared, hpos, rfl, Values.lookup_set vals _ _⟩
      · next hpos =>
          cases h
          exact .inr (.inl ⟨hshared, by omega, rfl, e⟩)
    · rw [if_neg hshared] at h
      split at h
      · cases h
      · next hpass =>
          cases h
          refine .inr (.inr ⟨v, rfl, by simpa using hshared, e, ?_⟩)
          intro hpos
          rcases m.activeMember with hle | hmem
          · by_cases huse : m.ctx.mayUseCompany (wantedCompany v) = true
            · simpa [UserContext.mayUseCompany, hpos] using huse
            · exact absurd ⟨hpos, by omega, by simpa using huse⟩ hpass
          · by_cases hactive : wantedCompany v = m.ctx.companyId
            · rw [hactive]
              exact hmem
            · by_cases huse : m.ctx.mayUseCompany (wantedCompany v) = true
              · simpa [UserContext.mayUseCompany, hpos] using huse
              · exact absurd ⟨hpos, hactive, by simpa using huse⟩ hpass

/-- Adding one row keeps the companies when that row is no foreign one. -/
lemma keepsCompanies_insert_iff {companies : List ℤ} {row : Row} :
    KeepsCompanies companies t (t.insert row) ↔ ¬ Foreign companies row := by
  constructor
  · rintro ⟨-, hnew⟩
    refine hnew (t.nextId, row) (mem_insert_iff.mpr (.inr rfl)) ?_
    intro hold
    exact absurd (t.below _ hold) (Int.lt_irrefl _)
  · intro hrow
    refine ⟨fun r hr _ => mem_insert_iff.mpr (.inl hr), ?_⟩
    intro r hr hnew
    rcases mem_insert_iff.mp hr with hold | rfl
    · exact absurd hold hnew
    · exact hrow

lemma company_mem_storedColumnNames (hreg : model.registry.has "company_id" = true) :
    "company_id" ∈ model.registry.storedColumnNames := by
  obtain ⟨f, hf⟩ := registered_iff.mp hreg
  obtain ⟨-, -, hcolumn⟩ := model.company_field f hf
  have hmem := mem_of_find?_eq_some hf
  have hname : f.name = "company_id" := by simpa using find?_some hf
  refine mem_cons_of_mem _ (mem_map.mpr ⟨f, mem_filter.mpr ⟨hmem, hcolumn⟩, hname⟩)

lemma company_not_mem_storedColumnNames (hreg : model.registry.has "company_id" = false) :
    "company_id" ∉ model.registry.storedColumnNames := by
  intro hmem
  rcases mem_cons.mp hmem with h | h
  · exact absurd h (by decide)
  · obtain ⟨f, hf, hname⟩ := mem_map.mp h
    exact FieldRegistry.not_mem_of_not_has hreg
      (mem_map.mpr ⟨f, mem_of_mem_filter hf, hname⟩)

lemma lookup_map_names (names : List String) (f : String → Json) (key : String) :
    (names.map fun col => (col, f col)).lookup key = if key ∈ names then some (f key) else none := by
  induction names with
  | nil => rfl
  | cons col names ih =>
      by_cases hk : key = col
      · subst hk
        rw [map_cons, lookup_cons_self, if_pos mem_cons_self]
      · have hne : (key == col) = false := beq_eq_false_iff_ne.mpr hk
        rw [map_cons, lookup_cons, hne]
        simp only [mem_cons, hk, false_or]
        exact ih

/-- The member an INSERT fills the company column from. -/
lemma lookup_insertValues (full : Values) {v : Json} (hv : full.lookup "company_id" = some v) :
    (insertValues model.toDerived full).lookup "company_id" =
      if model.registry.has "company_id" then some v else none := by
  unfold insertValues
  rw [lookup_map_names, hv, Option.getD_some]
  have hcontains : full.contains "company_id" = true := by rw [Values.contains, hv]; rfl
  cases hreg : model.registry.has "company_id" with
  | true =>
      rw [if_pos rfl, if_pos]
      exact mem_filter.mpr ⟨company_mem_storedColumnNames hreg, by rw [hcontains]; decide⟩
  | false =>
      rw [if_neg, if_neg (by decide)]
      intro hmem
      exact company_not_mem_storedColumnNames hreg (mem_filter.mp hmem).1

lemma lookup_insertValues_unregistered (hreg : model.registry.has "company_id" = false)
    (full : Values) : (insertValues model.toDerived full).lookup "company_id" = none := by
  unfold insertValues
  rw [lookup_map_names, if_neg]
  intro hmem
  exact company_not_mem_storedColumnNames hreg (mem_filter.mp hmem).1

end

/-- The row a successful create adds, for a model that registers the company:
the company the model reads from the stamped values, or none. -/
lemma create_registered (hreg : model.registry.has "company_id" = true)
    (h : create model.toDerived db (m.caller current) t values = .ok t') :
    ∃ stamped vals company cells,
      stampCompany db (m.caller current) (coerceNumericStrings model.registry values)
        = .ok (stamped, vals) ∧ t' = t.insert ⟨company, cells⟩ ∧
      ((model.NoCompany (model.readCompany (vals.lookup "company_id")) ∧ company = none) ∨
        (¬ model.NoCompany (model.readCompany (vals.lookup "company_id")) ∧
          company = some (model.readCompany (vals.lookup "company_id")))) := by
  obtain ⟨-, stamped, vals, cols, company, hstamp, -, hcols, hcompany, rfl⟩ := create_ok h
  refine ⟨stamped, vals, company, _, hstamp, rfl, ?_⟩
  have hlookup : (insertValues model.toDerived (model.members vals)).lookup "company_id"
      = if model.registry.has "company_id" then _ else none :=
    lookup_insertValues _ (model.members_company hreg vals)
  rw [hreg, if_pos rfl] at hlookup
  obtain ⟨b, hb, hcol⟩ := (bindColumns_lookup "company_id" hcols).1 _ hlookup
  rw [insertedCompany, hcol] at hcompany
  exact storedCompany hreg (model.read_int32 _) hb hcompany

/-- The row a successful create adds, for a model that does not register the
company: the stamp, or the column's default. -/
lemma create_unregistered (hreg : model.registry.has "company_id" = false)
    (h : create model.toDerived db (m.caller current) t values = .ok t') :
    ∃ stamped vals company cells, values.lookup "company_id" = none ∧
      stampCompany db (m.caller current) (coerceNumericStrings model.registry values)
        = .ok (stamped, vals) ∧ t' = t.insert ⟨company, cells⟩ ∧
      (if stamped > 0 then db.integerInput (.int stamped) = .ok company
        else company = db.companyDefault) := by
  obtain ⟨hknown, stamped, vals, cols, company, hstamp, -, hcols, hcompany, rfl⟩ := create_ok h
  refine ⟨stamped, vals, company, _, ?_, hstamp, rfl, ?_⟩
  · rcases e : values.lookup "company_id" with - | v
    · rfl
    · rw [registered_of_known hknown e] at hreg
      cases hreg
  · have hcol := (bindColumns_lookup "company_id" hcols).2 (lookup_insertValues_unregistered hreg _)
    rw [insertedCompany, hcol] at hcompany
    by_cases hpos : stamped > 0
    · rw [if_pos ⟨hpos, hreg⟩] at hcompany
      rw [if_pos hpos]
      exact hcompany
    · rw [if_neg (fun hand => hpos hand.1), Except.ok.injEq] at hcompany
      rw [if_neg hpos]
      exact hcompany.symm

omit [FloatText] in
/-- Of a row given the company a model reads. -/
lemma not_foreign_iff {companies : List ℤ} {n : ℤ} {company : Option ℤ}
    {cells : String → SqlValue}
    (h : (model.NoCompany n ∧ company = none) ∨ (¬ model.NoCompany n ∧ company = some n)) :
    ¬ Foreign companies ⟨company, cells⟩ ↔ n ∈ companies ∨ model.NoCompany n := by
  rcases h with ⟨hno, rfl⟩ | ⟨hsome, rfl⟩
  · constructor
    · exact fun _ => .inr hno
    · rintro - ⟨cid, hcid, -⟩
      cases hcid
  · constructor
    · intro hnot
      left
      by_contra hout
      exact hnot ⟨n, rfl, hout⟩
    · rintro (hmem | hno) ⟨cid, hcid, hout⟩
      · cases hcid
        exact hout hmem
      · exact hsome hno

/-- What a create says of the company it is given. -/
lemma keepsCompanies_create_iff (hcol : db.hasCompanyColumn = true)
    (h : create model.toDerived db (m.caller current) t values = .ok t') :
    KeepsCompanies m.ctx.allowedCompanyIds t t' ↔ CreateNamesOwn model db m.ctx values := by
  have hactive : 0 < m.ctx.companyId → m.ctx.companyId ∈ m.ctx.allowedCompanyIds := by
    intro hpos
    rcases m.activeMember with hle | hmem
    · omega
    · exact hmem
  unfold CreateNamesOwn
  cases hreg : model.registry.has "company_id" with
  | true =>
      obtain ⟨stamped, vals, company, cells, hstamp, rfl, hcompany⟩ := create_registered hreg h
      rw [if_pos rfl, keepsCompanies_insert_iff, not_foreign_iff hcompany]
      have hcases := stampCompany_ok hcol hstamp
      rw [lookup_coerce_company] at hcases
      rcases hcases with ⟨homit, hpos, -, hval⟩ | ⟨homit, hle, -, hval⟩ |
        ⟨v, hv, hsupplied, hval, hwant⟩
      · -- the active company was filled in
        rw [hval, model.read_integer, m.activeInt32]
        exact ⟨fun _ => .inl ⟨homit, hpos⟩, fun _ => .inl (hactive hpos)⟩
      · -- there is no active company to fill in
        rw [hval]
        constructor
        · rintro (hmem | hno)
          · exact .inr (.inr (.inl hmem))
          · exact .inr (.inr (.inr hno))
        · rintro (⟨-, hpos⟩ | ⟨i, hi, -⟩ | hmem | hno)
          · omega
          · rw [hi] at homit
            cases homit
          · exact .inl hmem
          · exact .inr hno
      · -- a company was supplied
        rw [hval, hv]
        constructor
        · rintro (hmem | hno)
          · exact .inr (.inr (.inl hmem))
          · exact .inr (.inr (.inr hno))
        · rintro (⟨homit, -⟩ | ⟨i, hi, hpos⟩ | hmem | hno)
          · rw [omitsCompany, hsupplied] at homit
            cases homit
          · cases hi
            rw [model.read_integer]
            exact .inl (hwant hpos)
          · exact .inl hmem
          · exact .inr hno
  | false =>
      obtain ⟨stamped, vals, company, cells, hnone, hstamp, rfl, hcompany⟩ :=
        create_unregistered hreg h
      rw [if_neg (by decide), keepsCompanies_insert_iff]
      have hcases := stampCompany_ok hcol hstamp
      rw [lookup_coerce_company, hnone] at hcases
      rcases hcases with ⟨-, hpos, rfl, -⟩ | ⟨-, hle, rfl, -⟩ | ⟨v, hv, -⟩
      · rw [if_pos hpos, db.integerInput_int _ m.activeInt32, Except.ok.injEq] at hcompany
        subst hcompany
        constructor
        · exact fun _ => .inl hpos
        · rintro - ⟨cid, hcid, hout⟩
          cases hcid
          exact hout (hactive hpos)
      · rw [if_neg (by decide)] at hcompany
        subst hcompany
        constructor
        · intro hnot
          right
          intro cid hcid
          by_contra hout
          exact hnot ⟨cid, hcid, hout⟩
        · rintro (hpos | hdefault) ⟨cid, hcid, hout⟩
          · omega
          · exact hout (hdefault cid hcid)
      · cases hv

end Creates

/-! ### The extent of the isolation -/

/-- **Company isolation, exactly.**  Of every successful create and write of a
member: rows of other companies stay as they are and rows made or changed stay
inside the set, if and only if the values name no company outside it (or the
write selects no row). -/
theorem company_isolation_iff (model : CompanyModel) (db : Schema)
    (hcol : db.hasCompanyColumn = true) (engine : Option RuleEngine) (I : Interp (ℤ × Row))
    (m : Member) (current : UserContext) (t : Table Row) (values : Values) :
    (∀ t', create model.toDerived db (m.caller current) t values = .ok t' →
      (KeepsCompanies m.ctx.allowedCompanyIds t t' ↔ CreateNamesOwn model db m.ctx values)) ∧
    ∀ ids t', write model.toDerived db engine I (m.caller current) t ids values = .ok t' →
      (KeepsCompanies m.ctx.allowedCompanyIds t t' ↔ WriteNamesOwn model db m.ctx values ∨
          ¬ Selects model db engine I (m.caller current) t ids values) :=
  ⟨fun _ h => keepsCompanies_create_iff hcol h, fun _ _ h => keepsCompanies_write_iff hcol h⟩

end Isolation

/-! ### Departments -/

/-- A many2one member written with an empty display name. -/
def tupleOrFalse (n : ℤ) : Json := if 0 < n then .arr [.num n, .str ""] else .bool false

/-- A many2one member written as its id. -/
def idOrFalse (n : ℤ) : Json := if 0 < n then .num n else .bool false

/-- The member `deserializeFields` leaves of a many2one: its initial value when
the object has none. -/
def readM2o (initial : ℤ) (v : Option Json) : ℤ := (v.map m2oToId).getD initial

lemma toInt32_toInt32 (i : ℤ) : toInt32 (toInt32 i) = toInt32 i :=
  Int.bmod_bmod

lemma toInt32_m2oToId (v : Json) : toInt32 (m2oToId v) = m2oToId v := by
  unfold m2oToId
  split
  · exact toInt32_toInt32 _
  · exact toInt32_toInt32 _
  · rfl

/-- `hr.department`: its name, and whether it is active. -/
def departmentName (j : Values) : String :=
  match j.lookup "name" with
  | some (.str s) => s
  | _ => ""

def departmentActive (j : Values) : Bool :=
  match j.lookup "active" with
  | some (.bool b) => b
  | _ => true

/-- `hr.department`. -/
def hrDepartment : CompanyModel where
  modelName := "hr.department"
  tableName := "hr_department"
  registry := {
    fields := [{ name := "name" }, { name := "parent_id", type := .many2one },
      { name := "manager_id", type := .many2one },
      { name := "company_id", type := .many2one },
      { name := "active", type := .boolean }]
    identifiers := by decide
    nodup := by decide }
  members j := [("name", .str (departmentName j)),
    ("parent_id", tupleOrFalse (readM2o 0 (j.lookup "parent_id"))),
    ("manager_id", tupleOrFalse (readM2o 0 (j.lookup "manager_id"))),
    ("company_id", idOrFalse (readM2o 1 (j.lookup "company_id"))),
    ("active", .bool (departmentActive j))]
  validate j := if departmentName j = "" then ["Department name is required"] else []
  readCompany := readM2o 1
  writeCompany := idOrFalse
  company_field := by
    intro f hf
    cases hf
    decide
  members_company _ _ := rfl
  read_integer _ := rfl
  read_int32 := by
    rintro (- | v)
    · decide
    · exact toInt32_m2oToId v
  write_positive n hn := .inl (if_pos hn)
  write_none n hn := .inl (if_neg (by omega))

/-- The `company_id INTEGER` column of `hr_department`. -/
def departmentSchema : Schema where
  hasCompanyColumn := true
  integerInput
    | .null => .ok none
    | .int i =>
        if toInt32 i = i then .ok (some i) else .error "ERROR:  integer out of range"
    | .text s =>
        match Text.stoi s with
        | some i => .ok (some i)
        | none => .error "ERROR:  invalid input syntax for type integer"
    | _ => .error "ERROR:  invalid input syntax for type integer"
  integerInput_null := rfl
  integerInput_int _ hi := if_pos hi
  companyDefault := none
  constraints _ := .ok ()
  sameTimestamp _ _ := false
  now := .null

/-- A user of company 1 alone. -/
def clerk : Member where
  ctx := { uid := 5, companyId := 1, allowedCompanyIds := [1] }
  signedIn := by decide
  notAdmin := rfl
  activeMember := by decide
  activeInt32 := by decide

/-- One department, of company 1. -/
def departments : Table Row := Table.empty.insert ⟨some 1, fun _ => .null⟩

/-- No condition on rows is ever asked. -/
def noInterp : Interp (ℤ × Row) where
  isNull _ _ := false
  compare _ _ _ _ := .unknown

/-- Renaming a department. -/
theorem company_isolation_rename :
    ∃ t', @write wholeFloatText hrDepartment.toDerived departmentSchema none noInterp
        (clerk.caller {}) departments [1] [("name", .str "Sales")] = .ok t' ∧
      (KeepsCompanies [1] departments t' ↔
        @WriteNamesOwn wholeFloatText hrDepartment departmentSchema clerk.ctx
            [("name", .str "Sales")] ∨
          ¬ @Selects wholeFloatText hrDepartment departmentSchema none noInterp
            (clerk.caller {}) departments [1] [("name", .str "Sales")]) := by
  let _ := wholeFloatText
  have hok : (write hrDepartment.toDerived departmentSchema none noInterp (clerk.caller {})
      departments [1] [("name", .str "Sales")]).isOk = true := by decide
  obtain ⟨t', ht'⟩ := exists_ok hok
  exact ⟨t', ht', (company_isolation_iff hrDepartment departmentSchema rfl none noInterp clerk {}
    departments [("name", .str "Sales")]).2 [1] t' ht'⟩

/-- The clerk writes company 2 into the department and thereby moves it there. -/
theorem department_moved_out :
    ¬ ∀ (_ : FloatText) (model : CompanyModel) (db : Schema) (engine : Option RuleEngine)
      (I : Interp (ℤ × Row)) (m : Member) (current : UserContext) (t : Table Row)
      (values : Values), db.hasCompanyColumn = true →
      (∀ t', create model.toDerived db (m.caller current) t values = .ok t' →
        KeepsCompanies m.ctx.allowedCompanyIds t t') ∧
      ∀ ids t', write model.toDerived db engine I (m.caller current) t ids values = .ok t' →
        KeepsCompanies m.ctx.allowedCompanyIds t t' := by
  intro h
  let _ := wholeFloatText
  have hok : (write hrDepartment.toDerived departmentSchema none noInterp (clerk.caller {})
      departments [1] [("company_id", .num 2)]).isOk = true := by decide
  obtain ⟨t', ht'⟩ := exists_ok hok
  obtain ⟨-, hnew⟩ := (h wholeFloatText hrDepartment departmentSchema none noInterp clerk {}
    departments [("company_id", .num 2)] rfl).2 [1] t' ht'
  rcases write_company ht' with ⟨-, hids | hvals⟩ | ⟨clause, company, stamped, hclause, rfl, hgiven⟩
  · cases hids
  · cases hvals
  rcases hgiven with ⟨hnone, -⟩ | ⟨v, b, cid, hv, hb, hinput, rfl⟩
  · cases hnone
  cases hclause
  cases hv
  cases hb
  cases hinput
  -- the department is the row the UPDATE selects, and its company is 2 now
  have hrow := hnew (1, assignRow (some (some 2)) stamped ⟨some 1, fun _ => .null⟩)
    (mem_update_iff.mpr ⟨⟨some 1, fun _ => .null⟩, mem_singleton.mpr rfl, if_pos rfl⟩)
  refine hrow ?_ ⟨2, rfl, by decide⟩
  intro hold
  have hcompany : some 2 = some (1 : ℤ) :=
    congrArg (fun r => r.2.companyId) (mem_singleton.mp hold)
  exact absurd hcompany (by decide)

end CErp
