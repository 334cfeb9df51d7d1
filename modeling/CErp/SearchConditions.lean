/-
The conditions a search and a read put together as text.

`BaseModel` compiles a domain to a text and appends the record rules and the
company clause with ` AND `.  `searchWhere` and `readWhere` build these texts as the
source does; what the database makes of them is `Sql.read`.  The text compiled from
a domain is a clause of its own (`compileCond_good`, `Sql.cond_clause`), so what is
appended restricts every row that is found (`conditions_restrict_every_row`).
-/
import CErp.CompanyWrites
import CErp.RecordRules
import CErp.SqlText

namespace CErp

open Sql Outcome List String Char Nat PrefixStack DomainNode

variable [FloatText]

/-! ### Compiled conditions are well formed -/

mutual

/-- The columns that the leaves of a domain name. -/
def DomainNode.columns : DomainNode → List String
  | .leaf l => [l.field]
  | .and children => allColumns children
  | .or children => allColumns children
  | .not child => child.columns

def DomainNode.allColumns : List DomainNode → List String
  | [] => []
  | child :: rest => child.columns ++ allColumns rest

end

/-- The columns a domain may be compiled with are names. -/
def Named (allowed : Option (List String)) (columns : List String) : Prop :=
  ∀ col ∈ columns, sanitizeColumn col allowed = .ok col → isName col.toList = true

variable {allowed : Option (List String)}

omit [FloatText] in
lemma Named.of_mem {columns columns' : List String} (h : Named allowed columns)
    (hsub : ∀ col ∈ columns', col ∈ columns) : Named allowed columns' :=
  fun col hcol => h col (hsub col hcol)

variable {col op : String}

lemma inListCond_good {value : Json} {params params' : List String} {c : Cond}
    (hcol : isName col.toList = true) (h : inListCond col op value params = .ok (c, params')) :
    c.Good := by
  have hargs : ¬(!value.isArray || value.isEmpty) = true →
      nextArgs params (value.items.map jsonToSqlParam).length ≠ [] := by
    intro hne
    cases value with
    | arr items =>
        cases items with
        | nil => exact absurd rfl hne
        | cons item items => simp [nextArgs, Json.items]
    | _ => exact absurd rfl hne
  unfold inListCond at h
  simp only at h
  split_ifs at h with hin hconst hnot hconst
  all_goals cases h
  · trivial
  · exact ⟨hcol, hargs hconst⟩
  · trivial
  · exact ⟨hcol, hargs hconst⟩

omit [FloatText] in
lemma sqlOperator_known {sqlOp : String} {pattern : Bool}
    (h : sqlOperator op = some (sqlOp, pattern)) : sqlOp ∈ symbolOps ∨ sqlOp ∈ wordOps := by
  unfold sqlOperator at h
  split_ifs at h
  all_goals
    cases h
    decide

lemma leafCond_good {value : Json} {params params' : List String} {c : Cond}
    (hcol : isName col.toList = true) (h : leafCond col op value params = .ok (c, params')) :
    c.Good := by
  unfold leafCond at h
  split_ifs at h
  · cases h
    exact hcol
  · cases h
    exact hcol
  · split at h
    case h_1 sqlOp v hcomparison =>
      cases h
      obtain ⟨⟨sqlOp', pattern⟩, hop, heq⟩ := Option.map_eq_some_iff.mp hcomparison
      cases heq
      exact ⟨hcol, sqlOperator_known hop⟩
    case h_2 => exact inListCond_good hcol h

mutual

/-- A compiled condition has names for columns, known operators, and lists and
connectives that are not empty. -/
lemma compileCond_good {allowed : Option (List String)} (node : DomainNode)
    {params params' : List String} {c : Cond} (hnames : Named allowed node.columns)
    (h : compileCond allowed "" node params = .ok (c, params')) : c.Good := by
  match node with
  | .leaf l =>
      simp only [compileCond] at h
      split at h
      · cases h
      · next bare hbare =>
          have hfield := sanitizeColumn_ok allowed hbare
          subst hfield
          exact leafCond_good (hnames l.field mem_cons_self hbare) h
  | .and [] =>
      cases h
      trivial
  | .and (child :: rest) =>
      obtain ⟨⟨cs, ps⟩, hcs, heq⟩ := map_ok_iff.mp h
      cases heq
      exact compileConds_good (child :: rest) hnames (cons_ne_nil _ _) hcs
  | .or [] =>
      cases h
      trivial
  | .or (child :: rest) =>
      obtain ⟨⟨cs, ps⟩, hcs, heq⟩ := map_ok_iff.mp h
      cases heq
      exact compileConds_good (child :: rest) hnames (cons_ne_nil _ _) hcs
  | .not child =>
      obtain ⟨⟨c', ps⟩, hc, heq⟩ := map_ok_iff.mp h
      cases heq
      have hgood : c'.Good := compileCond_good child hnames hc
      exact hgood

lemma compileConds_good {allowed : Option (List String)} (children : List DomainNode)
    {params params' : List String} {cs : List Cond}
    (hnames : Named allowed (allColumns children)) (hne : children ≠ [])
    (h : compileConds allowed "" children params = .ok (cs, params')) :
    cs ≠ [] ∧ Cond.AllGood cs := by
  match children with
  | [] => exact absurd rfl hne
  | child :: rest =>
      simp only [compileConds] at h
      split at h
      · cases h
      · next c ps hc =>
          obtain ⟨⟨cs', ps'⟩, hcs, heq⟩ := map_ok_iff.mp h
          cases heq
          have hchild := compileCond_good child
            (hnames.of_mem fun col hcol => mem_append_left _ hcol) hc
          refine ⟨cons_ne_nil _ _, hchild, ?_⟩
          cases rest with
          | nil =>
              cases hcs
              trivial
          | cons next rest =>
              exact (compileConds_good (next :: rest)
                (hnames.of_mem fun col hcol => mem_append_right _ hcol)
                (cons_ne_nil _ _) hcs).2

end

/-! ### Placeholders moved on -/

/-- The shift of every placeholder in a text. -/
def shiftParams (offset : ℕ) : List Char → List Char
  | [] => []
  | c :: cs =>
      if c = '$' ∧ cs.head?.any isDigit then
        let n := ofDigitChars 10 (cs.takeWhile isDigit) 0
        '$' :: ((toString (n + offset)).toList ++ shiftParams offset (cs.dropWhile isDigit))
      else c :: shiftParams offset cs
termination_by cs => cs.length
decreasing_by
  · exact lt_succ_of_le (dropWhile_suffix _).length_le
  · exact lt_succ_self _

def offsetParams (sql : String) (offset : ℕ) : String :=
  if offset = 0 then sql else ofList (shiftParams offset sql.toList)

mutual

/-- A condition with its placeholders moved on. -/
def shift (offset : ℕ) : Cond → Cond
  | .compare col op arg => .compare col op (arg + offset)
  | .isIn col args => .isIn col (args.map (· + offset))
  | .isNotIn col args => .isNotIn col (args.map (· + offset))
  | .and cs => .and (shifts offset cs)
  | .or cs => .or (shifts offset cs)
  | .not c => .not (shift offset c)
  | c => c

def shifts (offset : ℕ) : List Cond → List Cond
  | [] => []
  | c :: cs => shift offset c :: shifts offset cs

end

/-! #### The text moved on is the text of the condition moved on -/

/-- A piece of text that the shift takes to another, whatever stands behind it. -/
def Shifts (offset : ℕ) (s s' : String) : Prop :=
  ∀ rest : List Char, rest.head?.any isDigit = false →
    shiftParams offset (s.toList ++ rest) = s'.toList ++ shiftParams offset rest

variable {ss : List String}

section Shifts

variable {offset : ℕ} {s s' t t' : String}

omit [FloatText]

lemma shiftParams_plain {cs : List Char} (h : '$' ∉ cs) (rest : List Char) :
    shiftParams offset (cs ++ rest) = cs ++ shiftParams offset rest := by
  induction cs with
  | nil => rfl
  | cons c cs ih =>
      have hc : ¬(c = '$' ∧ (cs ++ rest).head?.any isDigit) := by
        rintro ⟨rfl, -⟩
        exact h mem_cons_self
      rw [cons_append, shiftParams, if_neg hc, ih fun hmem => h (mem_cons_of_mem c hmem)]
      rfl

lemma Shifts.plain (h : '$' ∉ s.toList) : Shifts offset s s :=
  fun rest _ => shiftParams_plain h rest

lemma Shifts.plain_append (h : '$' ∉ s.toList) (ht : Shifts offset t t') :
    Shifts offset (s ++ t) (s ++ t') := by
  intro rest hrest
  rw [toList_append, toList_append, List.append_assoc, shiftParams_plain h,
    ht rest hrest, List.append_assoc]

/-- Of two pieces the second may not begin with a digit. -/
lemma Shifts.append (hs : Shifts offset s s') (ht : Shifts offset t t')
    (hstart : ∀ rest, (t.toList ++ rest).head?.any isDigit = false) :
    Shifts offset (s ++ t) (s' ++ t') := by
  intro rest hrest
  rw [toList_append, toList_append, List.append_assoc, hs _ (hstart rest),
    ht rest hrest, List.append_assoc]

lemma shifts_placeholder (n : ℕ) : Shifts offset (placeholder n) (placeholder (n + offset)) := by
  intro rest hrest
  have hdigits := all_eq_true.mp (digits_isDigit n)
  have htake : rest.takeWhile isDigit = [] ∧ rest.dropWhile isDigit = rest := by
    cases rest with
    | nil => exact ⟨rfl, rfl⟩
    | cons c rest =>
        have hc : ¬c.isDigit = true := by simpa using hrest
        exact ⟨takeWhile_cons_of_neg hc, dropWhile_cons_of_neg hc⟩
  have hhead : (toDigits 10 n ++ rest).head?.any isDigit = true := by
    cases hd : toDigits 10 n with
    | nil => exact absurd hd (digits_ne_nil n)
    | cons c cs =>
        rw [hd] at hdigits
        exact hdigits c mem_cons_self
  rw [placeholder_toList, placeholder_toList, cons_append, shiftParams, if_pos ⟨rfl, hhead⟩,
    takeWhile_append_of_pos hdigits, dropWhile_append_of_pos hdigits, htake.1, htake.2,
    append_nil]
  simp only [ofDigitChars_ten_toDigits, toString_eq_repr, toList_repr]
  rfl

lemma Shifts.intercalate {sep : String} (hsep : '$' ∉ sep.toList)
    (hstart : sep.toList.head?.any (!·.isDigit) = true) {ss' : List String}
    (h : Forall₂ (Shifts offset) ss ss') :
    Shifts offset (sep.intercalate ss) (sep.intercalate ss') := by
  induction h with
  | nil => exact Shifts.plain not_mem_nil
  | cons hs hss ih =>
      cases hss with
      | nil =>
          rw [String.intercalate_singleton, String.intercalate_singleton]
          exact hs
      | cons hs' hss' =>
          rw [String.intercalate_cons_cons, String.intercalate_cons_cons, String.append_assoc,
            String.append_assoc]
          refine hs.append (ih.plain_append hsep) fun rest => ?_
          rw [toList_append]
          cases hl : sep.toList with
          | nil =>
              rw [hl] at hstart
              cases hstart
          | cons c cs =>
              rw [hl] at hstart
              simpa using hstart

lemma Shifts.paren (h : Shifts offset s s') :
    Shifts offset ("(" ++ s ++ ")") ("(" ++ s' ++ ")") := by
  rw [String.append_assoc, String.append_assoc]
  exact (h.append (Shifts.plain (by decide)) fun _ => rfl).plain_append (by decide)

lemma shifts_listText (args : List ℕ) :
    Shifts offset (listText args) (listText (args.map (· + offset))) := by
  refine (Shifts.intercalate (by decide) (by decide) ?_).paren
  rw [List.map_map, forall₂_map_left_iff, forall₂_map_right_iff, forall₂_same]
  exact fun n _ => shifts_placeholder n

lemma name_plain (h : isName col.toList = true) : '$' ∉ col.toList := by
  intro hmem
  have hword := all_eq_true.mp (isName_words h).2 _ hmem
  exact absurd hword (by decide)

lemma operator_plain (h : op ∈ symbolOps ∨ op ∈ wordOps) : '$' ∉ op.toList := by
  have hall : ∀ op ∈ symbolOps ++ wordOps, '$' ∉ op.toList := by decide
  exact hall op (mem_append.mpr h)

mutual

lemma cond_shifts (c : Cond) (h : c.Good) : Shifts offset c.text (shift offset c).text := by
  match c with
  | .lit true => exact Shifts.plain (by decide)
  | .lit false => exact Shifts.plain (by decide)
  | .isNull col => exact (Shifts.plain (by decide)).plain_append (name_plain h)
  | .isNotNull col => exact (Shifts.plain (by decide)).plain_append (name_plain h)
  | .compare col op n =>
      have hop := operator_plain h.2
      simp only [Cond.text, shift, String.append_assoc]
      exact ((((shifts_placeholder n).plain_append (by decide)).plain_append hop).plain_append
        (by decide)).plain_append (name_plain h.1)
  | .isIn col args =>
      simp only [Cond.text, shift, String.append_assoc]
      exact ((shifts_listText args).plain_append (by decide)).plain_append (name_plain h.1)
  | .isNotIn col args =>
      simp only [Cond.text, shift, String.append_assoc]
      exact ((shifts_listText args).plain_append (by decide)).plain_append (name_plain h.1)
  | .and cs => exact (Shifts.intercalate (by decide) (by decide) (conds_shifts cs h.2)).paren
  | .or cs => exact (Shifts.intercalate (by decide) (by decide) (conds_shifts cs h.2)).paren
  | .not c =>
      simp only [Cond.text, shift]
      rw [String.append_assoc, String.append_assoc]
      exact ((cond_shifts c h).append (Shifts.plain (by decide)) fun _ => rfl).plain_append
        (by decide)

lemma conds_shifts (cs : List Cond) (h : Cond.AllGood cs) :
    Forall₂ (Shifts offset) (Cond.texts cs) (Cond.texts (shifts offset cs)) := by
  match cs with
  | [] => exact .nil
  | c :: cs => exact .cons (cond_shifts c h.1) (conds_shifts cs h.2)

end

lemma offsetParams_text {c : Cond} (h : c.Good) :
    offsetParams c.text (offset + 1) = (shift (offset + 1) c).text := by
  have hshift := @cond_shifts (offset + 1) c h [] rfl
  rw [append_nil, shiftParams, append_nil] at hshift
  rw [offsetParams, if_neg (succ_ne_zero offset), hshift, ofList_toList]

end Shifts

/-! #### Compiling behind values that are bound already -/

section Behind

variable (pre : List String)

/-- A result moved behind the values `pre`. -/
def behind {α : Type} (f : ℕ → α → α) (r : α × List String) : α × List String :=
  (f pre.length r.1, pre ++ r.2)

omit [FloatText] in
lemma nextArgs_behind (params : List String) (n : ℕ) :
    nextArgs (pre ++ params) n = (nextArgs params n).map (· + pre.length) := by
  rw [nextArgs, nextArgs, range'_eq_map_range, range'_eq_map_range, List.map_map, List.length_append]
  refine map_congr_left fun k _ => ?_
  simp only [Function.comp_apply]
  omega

lemma inListCond_behind (col op : String) (value : Json) (params : List String) :
    inListCond col op value (pre ++ params) =
      (inListCond col op value params).map (behind pre shift) := by
  unfold inListCond
  simp only [nextArgs_behind]
  split_ifs <;> simp [Except.map, behind, shift]

lemma leafCond_behind (col op : String) (value : Json) (params : List String) :
    leafCond col op value (pre ++ params) =
      (leafCond col op value params).map (behind pre shift) := by
  unfold leafCond
  split_ifs
  · rfl
  · rfl
  · split
    · have harg : (pre ++ params).length + 1 = params.length + 1 + pre.length := by
        rw [List.length_append]
        omega
      rw [harg, List.append_assoc]
      rfl
    · exact inListCond_behind pre col op value params

mutual

lemma compileCond_behind (allowed : Option (List String)) (aliasName : String)
    (node : DomainNode) (params : List String) :
    compileCond allowed aliasName node (pre ++ params) =
      (compileCond allowed aliasName node params).map (behind pre shift) := by
  match node with
  | .leaf l =>
      simp only [compileCond]
      split
      · rfl
      · exact leafCond_behind pre _ _ _ _
  | .and [] => rfl
  | .and (child :: rest) =>
      simp only [compileCond]
      rw [compileConds_behind allowed aliasName (child :: rest) params]
      rcases compileConds allowed aliasName (child :: rest) params with e | ⟨cs, ps⟩ <;> rfl
  | .or [] => rfl
  | .or (child :: rest) =>
      simp only [compileCond]
      rw [compileConds_behind allowed aliasName (child :: rest) params]
      rcases compileConds allowed aliasName (child :: rest) params with e | ⟨cs, ps⟩ <;> rfl
  | .not child =>
      simp only [compileCond]
      rw [compileCond_behind allowed aliasName child params]
      rcases compileCond allowed aliasName child params with e | ⟨c, ps⟩ <;> rfl

lemma compileConds_behind (allowed : Option (List String)) (aliasName : String)
    (children : List DomainNode) (params : List String) :
    compileConds allowed aliasName children (pre ++ params) =
      (compileConds allowed aliasName children params).map (behind pre shifts) := by
  match children with
  | [] => rfl
  | child :: rest =>
      simp only [compileConds]
      rw [compileCond_behind allowed aliasName child params]
      rcases compileCond allowed aliasName child params with e | ⟨c, ps⟩
      · rfl
      · have hrest := compileConds_behind allowed aliasName rest ps
        simp only [Except.map, behind, hrest]
        rcases compileConds allowed aliasName rest ps with e | ⟨cs, ps'⟩ <;> rfl

end

end Behind

/-! ### The conditions as text -/

section Conditions

variable (D : Derived) (db : Schema) (engine : Option RuleEngine) (c : Caller)

/-- The company restriction in brackets, or nothing. -/
def companyClause : String :=
  if companyScoped db c then
    if c.scopeCtx.companyId > 0 then
      "(company_id IS NULL OR company_id = " ++ toString c.scopeCtx.companyId ++ ")"
    else "(company_id IS NULL)"
  else ""

def appendCompanyClause (sql : String) : String :=
  if companyClause db c = "" then sql else sql ++ " AND " ++ companyClause db c

/-- The rules behind a condition, their parameters behind its own. -/
def appendRuleClause (op : RuleOp) (sql : SqlResult) (existingParamCount : ℕ) :
    Except String SqlResult :=
  match engine with
  | none => .ok sql
  | some engine =>
      let ruleDomain := engine.buildRuleDomain D.modelName op c.ctx
      if ruleDomain.isEmpty then .ok sql
      else do
        let domain ← domainFromJson ruleDomain
        let r ← domain.toSql none ""
        if r.clause = "TRUE" ∨ r.clause = "" then return sql
        return ⟨sql.clause ++ " AND " ++ offsetParams r.clause existingParamCount,
          sql.params ++ r.params⟩

/-- The condition of `search`, `searchRead` and `searchCount`: what follows WHERE. -/
def searchWhere (domainJson : Json) : Except String SqlResult := do
  let merged ← mergeRuleDomain engine D.modelName c.ctx domainJson .read
  let domain ← domainFromJson merged
  let r ← domain.toSql (some D.registry.storedColumnNames) ""
  return ⟨appendCompanyClause db c r.clause, r.params⟩

/-- An array of integers as a parameter. -/
def idsToArray (ids : List ℤ) : String := "\x7b" ++ ",".intercalate (ids.map toString) ++ "\x7d"

/-- The condition of `read`. -/
def readWhere (ids : List ℤ) : Except String SqlResult := do
  let r ← appendRuleClause D engine c .read ⟨"id = ANY($1::int[])", [idsToArray ids]⟩ 1
  return ⟨appendCompanyClause db c r.clause, r.params⟩

end Conditions

/-! ### What the texts are read as -/

/-- A row that a condition lets through: its text is read as a condition that is
true of the row. -/
def Admits {Row : Type*} (I : Interp Row) (row : Row) (r : Except String SqlResult) : Prop :=
  ∃ s e, r = .ok s ∧ Sql.read s.clause = some e ∧ e.eval I s.params row = .true

/-- The company restriction on a row: the active company's, or shared. -/
def CompanyHolds {Row : Type*} (I : Interp Row) (db : Schema) (c : Caller) (row : Row) : Prop :=
  companyScoped db c = true → I.isNull "company_id" row = true ∨ c.scopeCtx.companyId > 0 ∧
      I.compare "company_id" "=" (toString c.scopeCtx.companyId) row = .true

section Read

variable {Row : Type*} (I : Interp Row) (row : Row)

omit [FloatText]

/-- The conditions put together by ` AND `, clause by clause. -/
lemma admits_clauses {s : String} {e : Expr} {es : List Expr} (h : Clause s e)
    (hs : Forall₂ Clause ss es) (params : List String) :
    Admits I row (.ok ⟨" AND ".intercalate (s :: ss), params⟩) ↔
      ∀ e' ∈ e :: es, e'.eval I params row = .true := by
  have hread := read_clauses h hs
  have heval : (andAll e es).eval I params row = .true ↔
      ∀ e' ∈ e :: es, e'.eval I params row = .true := by
    rw [andAll_eval, Truth.all_eq_true, forall_mem_map]
  rw [← heval]
  constructor
  · rintro ⟨_, e', hok, hread', htrue⟩
    cases hok
    rw [hread] at hread'
    cases hread'
    exact htrue
  · intro htrue
    exact ⟨_, _, rfl, hread, htrue⟩

lemma clause_ids : Clause "id = ANY($1::int[])" (.cond (.compare "id" "= ANY" 1)) := by
  have hlist : Lexes ":int[])".toList
      [.sym ':', .word "int".toList, .sym '[', .sym ']', .sym ')'] := by
    have hclose : Lexes "[])".toList [.sym '[', .sym ']', .sym ')'] :=
      ((Lexes.nil.sym rfl (by decide)).sym rfl (by decide)).sym rfl (by decide)
    exact (@Lexes.word "int".toList _ _ (by decide) (by decide) hclose
      (starts_cons rfl _)).sym rfl (by decide)
  have hany : Lexes "ANY($1::int[])".toList (.word "ANY".toList :: .sym '(' :: .arg ['1'] ::
      .sym ':' :: [.sym ':', .word "int".toList, .sym '[', .sym ']', .sym ')']) :=
    @Lexes.word "ANY".toList _ _ (by decide) (by decide)
      ((@Lexes.arg ['1'] _ _ (by decide) (by decide) (hlist.sym rfl (by decide))
        (starts_cons rfl _)).sym rfl (by decide)) (starts_cons rfl _)
  have htext : Lexes " = ANY($1::int[])".toList (.op ['='] :: .word "ANY".toList :: .sym '(' ::
      .arg ['1'] :: .sym ':' :: [.sym ':', .word "int".toList, .sym '[', .sym ']', .sym ')']) :=
    (@Lexes.op ['='] _ _ (by decide) (by decide) hany.space (starts_cons rfl _)).space
  have hname : isName "id".toList = true := by decide
  exact @clause_of_predicate "id" hname " = ANY($1::int[])" _ _ htext (starts_cons rfl _)
    fun _ => rfl

lemma toString_digits {i : ℤ} (h : 0 < i) : (toString i).toList = toDigits 10 i.toNat := by
  obtain ⟨n, rfl⟩ := Int.eq_ofNat_of_zero_le h.le
  exact Decimals.toList_natCast n

lemma clause_company {i : ℤ} (h : 0 < i) : Clause ("company_id" ++ (" = " ++ toString i))
      (.compareText "company_id" "=" (toString i)) := by
  have hname : isName "company_id".toList = true := by decide
  have hdigits := toString_digits h
  refine @clause_of_predicate "company_id" hname _ [.op ['='], .word (toString i).toList] _ ?_ ?_ ?_
  · have hnumber := Lexes.word (digits_ne_nil i.toNat) (digits_words i.toNat) Lexes.nil starts_nil
    rw [append_nil] at hnumber
    rw [toList_append, hdigits]
    exact (@Lexes.op ['='] _ _ (by decide) (by decide) hnumber.space (starts_cons rfl _)).space
  · rw [toList_append]
    exact starts_cons rfl _
  · intro rest
    rw [hdigits, cons_append, singleton_append, parsePredicate,
      if_pos (digits_isDigit _), ← hdigits, ofList_toList]

/-- The company clause is one clause, true of the rows it is meant for. -/
lemma clause_companyClause {db : Schema} {c : Caller} (h : companyClause db c ≠ "") :
    ∃ e, Clause (companyClause db c) e ∧ ∀ params,
      e.eval I params row = .true ↔ CompanyHolds I db c row := by
  have hname : isName "company_id".toList = true := by decide
  have hnull := clause_isNull hname
  unfold companyClause at h ⊢
  unfold CompanyHolds
  split_ifs at h ⊢ with hscoped hcompany
  · have hor := clause_or hnull (.cons (clause_company hcompany) .nil)
    have htext : "(" ++ " OR ".intercalate ["company_id" ++ " IS NULL",
        "company_id" ++ (" = " ++ toString c.scopeCtx.companyId)] ++ ")" =
          "(company_id IS NULL OR company_id = " ++ toString c.scopeCtx.companyId ++ ")" := by
      rw [String.intercalate_cons_cons, String.intercalate_singleton, ← toList_inj]
      simp only [toList_append, List.append_assoc]
      rfl
    rw [htext] at hor
    refine ⟨_, hor, fun params => ?_⟩
    rw [forall_prop_of_true hscoped, and_iff_right hcompany]
    simp only [orAll, Expr.eval, Cond.eval, Truth.or_eq_true, Truth.ofBool_eq_true]
  · have hor := clause_or hnull .nil
    rw [String.intercalate_singleton] at hor
    refine ⟨_, hor, fun params => ?_⟩
    rw [forall_prop_of_true hscoped, or_iff_left fun hand => hcompany hand.1]
    simp only [orAll, Expr.eval, Cond.eval, Truth.ofBool_eq_true]
  · exact absurd rfl h

end Read

/-! ### Domains as text -/

variable {r : List Json} {rule : Domain}

variable {d : Domain}

section Domains

variable {Row : Type*} (I : Interp Row) (row : Row)

lemma toSql_eq (d : Domain) (allowed : Option (List String)) (aliasName : String) :
    d.toSql allowed aliasName =
      (compileCond allowed aliasName d.root []).map fun (c, ps) => ⟨c.text, ps⟩ := by
  unfold Domain.toSql
  split
  · next h =>
      unfold Domain.isEmpty at h
      split at h
      · next hroot =>
          rw [hroot]
          rfl
      · cases h
  · rw [compileNode_eq]
    rcases compileCond allowed aliasName d.root [] with e | ⟨c, ps⟩ <;> rfl

omit [FloatText] in
lemma domainFromJson_arr (items : List Json) :
    domainFromJson (.arr items) = (parseItems items).map domainOfStack := by
  cases items <;> rfl

/-- Of two programs the second one's nodes stay on the stack of both together. -/
lemma satisfies_append {u : List Json} (hu : domainFromJson (.arr u) = .ok d)
    (hr : domainFromJson (.arr r) = .ok rule) :
    ∃ merged, domainFromJson (.arr (u ++ r)) = .ok merged ∧ ∀ allowed,
      merged.Satisfies allowed I row ↔ d.Satisfies allowed I row ∧ rule.Satisfies allowed I row := by
  rw [domainFromJson_arr] at hu hr
  obtain ⟨su, hsu, rfl⟩ := map_ok_iff.mp hu
  obtain ⟨sr, hsr, rfl⟩ := map_ok_iff.mp hr
  rw [parseItems_eq_run] at hsu hsr
  have hmerged : parseItems (u ++ r) = .ok (su ++ sr) := by
    have hrun : domainSignature.run (u ++ r) =
        (domainSignature.runOn r []).bind (domainSignature.runOn u) :=
      runOn_append domainSignature u r []
    have hbase : domainSignature.runOn r [] = .ok sr := hsr
    rw [parseItems_eq_run, hrun, hbase]
    exact runOn_of_run hsu sr
  refine ⟨domainOfStack (su ++ sr), by rw [domainFromJson_arr, hmerged]; rfl, fun allowed => ?_⟩
  simp only [satisfies_domainOfStack, mem_append]
  exact ⟨fun h => ⟨fun n hn => h n (.inl hn), fun n hn => h n (.inr hn)⟩,
    fun h n hn => hn.elim (h.1 n) (h.2 n)⟩

/-- A domain that compiles is satisfied where its condition is true. -/
lemma satisfies_compiled {c : Cond} {ps : List String}
    (h : compileCond allowed "" d.root [] = .ok (c, ps)) :
    d.Satisfies allowed I row ↔ c.eval I ps row = .true := by
  unfold Domain.Satisfies
  rw [toCond_eq, h]
  constructor
  · rintro ⟨_, _, heq, htrue⟩
    cases heq
    exact htrue
  · exact fun htrue => ⟨c, ps, rfl, htrue⟩

lemma not_satisfies_of_error {e : String} (h : compileCond allowed "" d.root [] = .error e) :
    ¬d.Satisfies allowed I row := by
  unfold Domain.Satisfies
  rw [toCond_eq, h]
  rintro ⟨_, _, heq, -⟩
  cases heq

end Domains

/-! ### The restrictions restrict every row -/

/-- The rules that apply to a call, as a domain. -/
def ruleDomain (engine : Option RuleEngine) (D : Derived) (op : RuleOp) (c : Caller) : Json :=
  match engine with
  | none => .arr []
  | some engine => engine.buildRuleDomain D.modelName op c.ctx

section Restrict

variable {Row : Type*} (I : Interp Row) (row : Row)
variable {D : Derived} {db : Schema} {engine : Option RuleEngine} {c : Caller}

section

omit [FloatText]

lemma appendCompanyClause_intercalate (hne : ss ≠ []) :
    appendCompanyClause db c (" AND ".intercalate ss) =
      " AND ".intercalate (ss ++ if companyClause db c = "" then [] else [companyClause db c]) := by
  unfold appendCompanyClause
  split_ifs
  · rw [append_nil]
  · rw [intercalate_append_of_ne_nil hne (cons_ne_nil _ _), String.intercalate_singleton]

/-- The company clause behind clauses that are read one by one. -/
lemma admits_companyClause {s : String} {e : Expr} {es : List Expr} (h : Clause s e)
    (hs : Forall₂ Clause ss es) (params : List String) :
    Admits I row (.ok ⟨appendCompanyClause db c (" AND ".intercalate (s :: ss)), params⟩) ↔
      (∀ e' ∈ e :: es, e'.eval I params row = .true) ∧ CompanyHolds I db c row := by
  rw [appendCompanyClause_intercalate (cons_ne_nil s ss)]
  by_cases hclause : companyClause db c = ""
  · have hholds : CompanyHolds I db c row := by
      intro hscoped
      refine absurd hclause ?_
      unfold companyClause
      rw [if_pos hscoped]
      split_ifs
      · intro heq
        have hlist := congrArg toList heq
        rw [toList_append, toList_append] at hlist
        cases hlist
      · decide
    rw [if_pos hclause, append_nil, and_iff_left hholds]
    exact admits_clauses I row h hs params
  · obtain ⟨e', he', htrue⟩ := clause_companyClause I row hclause
    rw [if_neg hclause, cons_append, ← htrue params]
    have hall := admits_clauses I row h (rel_append hs (.cons he' .nil)) params
    rw [hall]
    simp [or_imp, forall_and, and_assoc]

lemma mergeRuleDomain_eq {u : List Json} (hr : ruleDomain engine D .read c = .arr r) :
    mergeRuleDomain engine D.modelName c.ctx (.arr u) .read = .ok (.arr (u ++ r)) := by
  cases engine with
  | none =>
      obtain rfl : [] = r := by
        cases hr
        rfl
      rw [append_nil]
      rfl
  | some engine => exact mergeRuleDomain_arr hr u

lemma not_admits_error (e : String) : ¬Admits I row (.error e) := by
  rintro ⟨_, _, heq, -⟩
  cases heq

/-- A column that may be written as a name. -/
def isReserved (col : String) : Bool := reserved.any fun k => isKeyword k col.toList

lemma not_isDigit_of_isAlpha {c : Char} (h : c.isAlpha = true) : c.isDigit = false := by
  simp only [isAlpha, isUpper, isLower, isDigit, Bool.or_eq_true,
    Bool.and_eq_true, decide_eq_true_eq, Bool.and_eq_false_iff, decide_eq_false_iff_not,
    ge_iff_le, UInt32.le_iff_toNat_le] at h ⊢
  simp at h ⊢
  omega

lemma isName_of_identifier (hid : isValidIdentifier col = true) (hfree : isReserved col = false) :
    isName col.toList = true := by
  unfold isValidIdentifier at hid
  split at hid
  · cases hid
  · next c cs hcol =>
      obtain ⟨hfirst, hrest⟩ := Bool.and_eq_true_iff.mp hid
      have hdigit : c.isDigit = false := by
        rcases Bool.or_eq_true_iff.mp hfirst with halpha | hline
        · exact not_isDigit_of_isAlpha halpha
        · rw [beq_iff_eq.mp hline]
          rfl
      have hword : isWordChar c = true := by
        rcases Bool.or_eq_true_iff.mp hfirst with halpha | hline
        · simp [isWordChar, isAlphanum, halpha]
        · simp [isWordChar, hline]
      have hall : cs.all isWordChar = true := hrest
      unfold isReserved at hfree
      rw [hcol] at hfree ⊢
      simp [isName, hword, hall, hdigit, hfree]

/-- What a search compiles with names columns. -/
lemma named_of_registry (hfree : ∀ f ∈ D.registry.fields, isReserved f.name = false)
    (columns : List String) : Named (some D.registry.storedColumnNames) columns := by
  intro col _ hok
  unfold sanitizeColumn at hok
  split_ifs at hok
  simp only at hok
  split_ifs at hok with hmem
  rcases mem_cons.mp hmem with rfl | hmem
  · decide
  · obtain ⟨f, hf, rfl⟩ := mem_map.mp hmem
    have hfield := (mem_filter.mp hf).1
    exact isName_of_identifier (D.registry.identifiers f hfield) (hfree f hfield)

end

/-- The text of any domain with the company clause behind it. -/
lemma domain_admits_iff (dom : Domain) (hnames : Named allowed dom.root.columns) :
    Admits I row ((dom.toSql allowed "").map
        fun r => ⟨appendCompanyClause db c r.clause, r.params⟩) ↔
      dom.Satisfies allowed I row ∧ CompanyHolds I db c row := by
  rw [toSql_eq]
  rcases hcompiled : compileCond allowed "" dom.root [] with e | ⟨cond, ps⟩
  · exact iff_of_false (not_admits_error I row e)
      fun h => not_satisfies_of_error I row hcompiled h.1
  · obtain ⟨e, hclause, hmeans⟩ := cond_clause Row cond (compileCond_good dom.root hnames hcompiled)
    rw [satisfies_compiled I row hcompiled]
    have hadmits : Admits I row (.ok ⟨appendCompanyClause db c (" AND ".intercalate [cond.text]),
        ps⟩) ↔ _ := admits_companyClause I row hclause .nil ps
    rw [String.intercalate_singleton, forall_mem_singleton, hmeans I ps row] at hadmits
    exact hadmits

/-- A search finds the rows that satisfy the domain and the rules, of the company. -/
lemma search_admits_iff (hfree : ∀ f ∈ D.registry.fields, isReserved f.name = false)
    {u : List Json} (hu : domainFromJson (.arr u) = .ok d)
    (hr : ruleDomain engine D .read c = .arr r) (hrule : domainFromJson (.arr r) = .ok rule) :
    Admits I row (searchWhere D db engine c (.arr u)) ↔
      d.Satisfies (some D.registry.storedColumnNames) I row ∧
        rule.Satisfies (some D.registry.storedColumnNames) I row ∧ CompanyHolds I db c row := by
  obtain ⟨merged, hmerged, hsat⟩ := satisfies_append I row hu hrule
  have hwhere : searchWhere D db engine c (.arr u) =
      (merged.toSql (some D.registry.storedColumnNames) "").map
        fun r => ⟨appendCompanyClause db c r.clause, r.params⟩ := by
    simp only [searchWhere, mergeRuleDomain_eq hr]
    change (domainFromJson _ >>= _) = _
    rw [hmerged]
    change (merged.toSql _ "" >>= _) = _
    rcases merged.toSql (some D.registry.storedColumnNames) "" with e | r <;> rfl
  rw [← and_assoc, ← hsat, hwhere]
  exact domain_admits_iff I row merged (named_of_registry hfree _)

omit [FloatText] in
/-- Reading by ids where no rule is appended. -/
lemma read_admits_ids (ids : List ℤ) :
    Admits I row (.ok ⟨appendCompanyClause db c "id = ANY($1::int[])", [idsToArray ids]⟩) ↔
      I.compare "id" "= ANY" (idsToArray ids) row = .true ∧ CompanyHolds I db c row := by
  have hadmits : Admits I row (.ok ⟨appendCompanyClause db c
      (" AND ".intercalate ["id = ANY($1::int[])"]), [idsToArray ids]⟩) ↔ _ :=
    admits_companyClause I row clause_ids .nil [idsToArray ids]
  rw [String.intercalate_singleton, forall_mem_singleton] at hadmits
  exact hadmits

/-- Reading by ids with a rule behind: its placeholders are moved on past the ids. -/
lemma read_admits_rule (ids : List ℤ) {cond : Cond} {ps : List String}
    (hnames : ∀ col ∈ rule.root.columns, isName col.toList = true)
    (h : compileCond none "" rule.root [] = .ok (cond, ps)) :
    Admits I row (.ok ⟨appendCompanyClause db c
        ("id = ANY($1::int[])" ++ " AND " ++ offsetParams cond.text 1), [idsToArray ids] ++ ps⟩) ↔
      I.compare "id" "= ANY" (idsToArray ids) row = .true ∧ rule.Satisfies none I row ∧
        CompanyHolds I db c row := by
  have hnamed : Named none rule.root.columns := fun col hcol _ => hnames col hcol
  have hbehind : compileCond none "" rule.root [idsToArray ids] =
      .ok (shift 1 cond, [idsToArray ids] ++ ps) := by
    have hpre := compileCond_behind [idsToArray ids] none "" rule.root []
    rw [append_nil, h] at hpre
    exact hpre
  obtain ⟨e, hclause, hmeans⟩ := cond_clause Row (shift 1 cond) (compileCond_good rule.root hnamed
    hbehind)
  -- the moved condition says behind the ids what the rule says
  have htruth : e.eval I ([idsToArray ids] ++ ps) row = .true ↔ rule.Satisfies none I row := by
    have hmoved := (compileCond_truth I row none "" rule.root hbehind).2 []
    have hown := (compileCond_truth I row none "" rule.root h).2 []
    rw [append_nil] at hmoved hown
    rw [satisfies_compiled I row h, hmeans, hmoved, hown]
  have hadmits : Admits I row (.ok ⟨appendCompanyClause db c
      (" AND ".intercalate ["id = ANY($1::int[])", (shift 1 cond).text]),
      [idsToArray ids] ++ ps⟩) ↔ _ :=
    admits_companyClause I row clause_ids (.cons hclause .nil) ([idsToArray ids] ++ ps)
  rw [String.intercalate_cons_cons, String.intercalate_singleton, forall_mem_cons,
    forall_mem_singleton, htruth, and_assoc] at hadmits
  rw [offsetParams_text (compileCond_good rule.root hnamed h)]
  exact hadmits

omit [FloatText] in
/-- A condition with the text of a constant is true, or no condition. -/
lemma true_of_text {cond : Cond} (hgood : cond.Good)
    (h : cond.text = "TRUE" ∨ cond.text = "") (params : List String) :
    cond.eval I params row = .true := by
  obtain ⟨e, hclause, hmeans⟩ := cond_clause Row cond hgood
  have hread := read_clauses hclause .nil
  rw [String.intercalate_singleton] at hread
  have htrue : read "TRUE" = some (.cond (.lit true)) := by rfl
  have hempty : read "" = none := by rfl
  rcases h with h | h
  · rw [h, htrue] at hread
    cases hread
    rw [← hmeans]
    rfl
  · rw [h, hempty] at hread
    cases hread

/-- The rule clause of a read, with the rule compiled. -/
lemma appendRuleClause_eq {engine : RuleEngine}
    (hr : engine.buildRuleDomain D.modelName .read c.ctx = .arr r) (hne : r ≠ [])
    (hrule : domainFromJson (.arr r) = .ok rule) (sql : SqlResult) (n : ℕ) :
    appendRuleClause D (some engine) c .read sql n =
      (compileCond none "" rule.root []).map fun (cond, ps) =>
        if cond.text = "TRUE" ∨ cond.text = "" then sql
        else ⟨sql.clause ++ " AND " ++ offsetParams cond.text n, sql.params ++ ps⟩ := by
  have hnonempty : ¬(Json.arr r).isEmpty = true := fun h => hne (List.isEmpty_iff.mp h)
  unfold appendRuleClause
  simp only [hr]
  rw [if_neg hnonempty, hrule]
  change ((rule.toSql none "") >>= _) = _
  rw [toSql_eq]
  rcases compileCond none "" rule.root [] with e | ⟨cond, ps⟩
  · rfl
  · change (if cond.text = "TRUE" ∨ cond.text = "" then _ else _) =
      Except.ok (if cond.text = "TRUE" ∨ cond.text = "" then _ else _)
    split_ifs <;> rfl

/-- A read returns the rows asked for that satisfy the rules, of the company. -/
lemma read_admits_iff (hr : ruleDomain engine D .read c = .arr r)
    (hrule : domainFromJson (.arr r) = .ok rule)
    (hnames : ∀ col ∈ rule.root.columns, isName col.toList = true) (ids : List ℤ) :
    Admits I row (readWhere D db engine c ids) ↔
      I.compare "id" "= ANY" (idsToArray ids) row = .true ∧ rule.Satisfies none I row ∧
        CompanyHolds I db c row := by
  have hids : Admits I row (.ok ⟨appendCompanyClause db c "id = ANY($1::int[])",
      [idsToArray ids]⟩) ↔ _ := read_admits_ids I row ids
  -- where nothing is appended the rules are satisfied by every row
  have hwithout : rule.Satisfies none I row → readWhere D db engine c ids =
      .ok ⟨appendCompanyClause db c "id = ANY($1::int[])", [idsToArray ids]⟩ →
      (Admits I row (readWhere D db engine c ids) ↔
        I.compare "id" "= ANY" (idsToArray ids) row = .true ∧ rule.Satisfies none I row ∧
          CompanyHolds I db c row) := by
    intro hsat hwhere
    rw [hwhere, hids, and_iff_right hsat]
  have hnothing : r = [] → rule.Satisfies none I row := by
    rintro rfl
    cases hrule
    exact ⟨.lit true, [], rfl, rfl⟩
  cases engine with
  | none =>
      have hempty : r = [] := by
        cases hr
        rfl
      exact hwithout (hnothing hempty) rfl
  | some engine =>
      by_cases hne : r = []
      · refine hwithout (hnothing hne) ?_
        have hbuild : engine.buildRuleDomain D.modelName .read c.ctx = .arr [] := hne ▸ hr
        simp only [readWhere, appendRuleClause, hbuild]
        rfl
      · have hclause := appendRuleClause_eq (D := D) (c := c) hr hne hrule
          ⟨"id = ANY($1::int[])", [idsToArray ids]⟩ 1
        rcases hcompiled : compileCond none "" rule.root [] with e | ⟨cond, ps⟩
        · rw [readWhere, hclause, hcompiled]
          exact iff_of_false (not_admits_error I row e)
            fun h => not_satisfies_of_error I row hcompiled h.2.1
        · have hgood := compileCond_good rule.root (fun col hcol _ => hnames col hcol) hcompiled
          by_cases hconst : cond.text = "TRUE" ∨ cond.text = ""
          · refine hwithout ?_ ?_
            · rw [satisfies_compiled I row hcompiled]
              exact true_of_text I row hgood hconst ps
            · rw [readWhere, hclause, hcompiled]
              change Except.ok _ = _
              simp only [if_pos hconst]
          · have hrule' : Admits I row (.ok ⟨appendCompanyClause db c ("id = ANY($1::int[])" ++ " AND " ++
                offsetParams cond.text 1), [idsToArray ids] ++ ps⟩) ↔ _ :=
              read_admits_rule I row ids hnames hcompiled
            rw [readWhere, hclause, hcompiled]
            change Admits I row (.ok _) ↔ _
            simp only [if_neg hconst]
            exact hrule'

end Restrict

/-- **The restrictions restrict every row.**  For every domain of a caller, every set of
rules and every user: the condition of a search, read as SQL, lets a row through
exactly when the row satisfies the domain, the rules and the company restriction, and
the condition of a read exactly when the row is asked for and satisfies the rules and
the company restriction.  The first part is about any tree of a domain, parsed or
not.  Fields are columns written without quotes, so none is a reserved word. -/
theorem conditions_restrict_every_row {Row : Type*} (I : Interp Row) (D : Derived) (db : Schema)
    (engine : Option RuleEngine) (c : Caller)
    (hfree : ∀ f ∈ D.registry.fields, isReserved f.name = false)
    (u r : List Json) (d rule : Domain) (hu : domainFromJson (.arr u) = .ok d)
    (hr : ruleDomain engine D .read c = .arr r) (hrule : domainFromJson (.arr r) = .ok rule)
    (hnames : ∀ col ∈ rule.root.columns, isName col.toList = true) :
    (∀ (dom : Domain) row, Admits I row
        ((dom.toSql (some D.registry.storedColumnNames) "").map
          fun r => ⟨appendCompanyClause db c r.clause, r.params⟩) ↔
      dom.Satisfies (some D.registry.storedColumnNames) I row ∧ CompanyHolds I db c row) ∧
    (∀ row, Admits I row (searchWhere D db engine c (.arr u)) ↔
      d.Satisfies (some D.registry.storedColumnNames) I row ∧
        rule.Satisfies (some D.registry.storedColumnNames) I row ∧ CompanyHolds I db c row) ∧
    ∀ ids row, Admits I row (readWhere D db engine c ids) ↔
      I.compare "id" "= ANY" (idsToArray ids) row = .true ∧ rule.Satisfies none I row ∧
        CompanyHolds I db c row :=
  ⟨fun dom row => domain_admits_iff I row dom (named_of_registry hfree _),
    fun row => search_admits_iff I row hfree hu hr hrule,
    fun ids row => read_admits_iff I row hr hrule hnames ids⟩

/-- One rule for everybody: departments the calling user manages. -/
def managedDepartments : RuleEngine where
  loadRules _ := [{
    domainForce := .arr [.arr [.str "manager_id", .str "=", .str "user.id"]]
    permRead := true, permWrite := true, permCreate := true, permUnlink := true
    globalRule := true, active := true, groupIds := [] }]

/-- A name or an active department, with `|` at the top. -/
def namedOrActive : List Json :=
  [.str "|", .arr [.str "name", .str "=", .str "Sales"], .arr [.str "active", .str "=", .bool true]]

omit [FloatText] in
theorem conditions_restrict_every_row_departments :
    let _ := Json.wholeFloatText
    let c : Caller := { ctx := { uid := 5, companyId := 1 }, current := {} }
    let d : Domain := ⟨.or [.leaf ⟨"active", "=", .bool true⟩, .leaf ⟨"name", "=", .str "Sales"⟩]⟩
    let rule : Domain := ⟨.leaf ⟨"manager_id", "=", .num 5⟩⟩
    let columns := hrDepartment.toDerived.registry.storedColumnNames
    let row : ℤ × Row := (1, ⟨some 2, fun _ => .null⟩)
    Admits noInterp row (searchWhere hrDepartment.toDerived departmentSchema
        (some managedDepartments) c (.arr namedOrActive)) ↔
      d.Satisfies (some columns) noInterp row ∧ rule.Satisfies (some columns) noInterp row ∧
        CompanyHolds noInterp departmentSchema c row :=
  (@conditions_restrict_every_row Json.wholeFloatText _ noInterp hrDepartment.toDerived
    departmentSchema (some managedDepartments) { ctx := { uid := 5, companyId := 1 }, current := {} }
    (by decide) namedOrActive _ _ _ rfl rfl rfl (by decide)).2.1 _

end CErp
