/-
What the placeholders of a compiled clause are bound to.

A clause numbers its placeholders from one on in the order they stand in, and
its parameters are the values of the leaves in the order of the tree
(`compileCond_binds`).  Spliced behind a query, every placeholder is moved on by
the number of values bound there, and nothing else is touched
(`clauseChars_shiftParams`), so it is bound to the value it was compiled with.
-/
import CErp.SearchConditions

namespace CErp

open Sql Outcome List Char DomainNode

/-! ### The source's other splice -/

/-- `offsetSqlParams`, the scanner of `BaseModel` once more. -/
def offsetSqlParams (sql : String) (offset : ℕ) : String := offsetParams sql offset

/-- The rules as a subquery of their own behind a condition. -/
def appendRecordRuleSubquery [FloatText] (engine : Option RuleEngine) (model : String) (op : RuleOp)
    (ctx : UserContext) (table idExpr : String) (sql : SqlResult) (existingParamCount : ℕ) :
    Except String SqlResult :=
  match engine with
  | none => .ok sql
  | some engine =>
      let ruleDomain := engine.buildRuleDomain model op ctx
      if ruleDomain.isEmpty then .ok sql
      else do
        let domain ← domainFromJson ruleDomain
        let r ← domain.toSql none ""
        if r.clause = "" ∨ r.clause = "TRUE" then return sql
        return ⟨sql.clause ++ (" AND " ++ idExpr ++ " IN (SELECT id FROM " ++ table ++ " WHERE ") ++
          offsetSqlParams r.clause existingParamCount ++ ")", sql.params ++ r.params⟩

/-! ### Placeholders moved on -/

def movedOn (offset : ℕ) : ClauseChar → ClauseChar
  | .plain c => .plain c
  | .arg n => .arg (n + offset)

lemma head?_shiftParams (offset : ℕ) (cs : List Char) :
    (shiftParams offset cs).head? = cs.head? := by
  cases cs with
  | nil => rw [shiftParams]
  | cons c cs =>
      rw [shiftParams]
      split
      · next h =>
          rw [h.1]
          rfl
      · rfl

lemma digitFree_shiftParams {offset : ℕ} {cs : List Char} (h : DigitFree cs) :
    DigitFree (shiftParams offset cs) := by
  unfold DigitFree
  rw [head?_shiftParams]
  exact h

/-- **Every placeholder moves on, everything else stays.** -/
theorem clauseChars_shiftParams (offset : ℕ) (cs : List Char) :
    clauseChars (shiftParams offset cs) = (clauseChars cs).map (movedOn offset) := by
  induction cs using clauseChars.induct with
  | case1 => rw [shiftParams, clauseChars, map_nil]
  | case2 c cs hbegins ih =>
      have hrest : DigitFree (shiftParams offset (cs.dropWhile isDigit)) :=
        digitFree_shiftParams (digitFree_dropWhile cs)
      have hdollar : c = '$' ∧ cs.head?.any isDigit := hbegins
      have hread : clauseChars (c :: cs) = .arg (Nat.ofDigitChars 10 (cs.takeWhile isDigit) 0) ::
            clauseChars (cs.dropWhile isDigit) := by
        rw [clauseChars, if_pos hbegins]
      rw [shiftParams, if_pos hdollar, hread, map_cons, ← ih]
      rw [← cons_append, clauseChars_append hrest, Nat.toString_eq_repr, Nat.toList_repr,
        clauseChars_arg]
      rfl
  | case3 c cs hbegins ih =>
      have hstill : ¬ArgBegins c (shiftParams offset cs) := by
        unfold ArgBegins
        rw [head?_shiftParams]
        exact hbegins
      have hplain : ¬(c = '$' ∧ cs.head?.any isDigit) := hbegins
      rw [shiftParams, if_neg hplain, clauseChars, if_neg hstill, ih, clauseChars,
        if_neg hbegins, map_cons]
      rfl

lemma clauseChars_offsetParams (sql : String) (offset : ℕ) :
    clauseChars (offsetParams sql offset).toList =
      (clauseChars sql.toList).map (movedOn offset) := by
  unfold offsetParams
  split
  · next h =>
      subst h
      have hsame : movedOn 0 = id := by
        funext c
        cases c <;> rfl
      rw [hsame, map_id]
  · rw [String.toList_ofList, clauseChars_shiftParams]

lemma args_offsetParams (sql : String) (offset : ℕ) :
    args (offsetParams sql offset).toList = (args sql.toList).map (· + offset) := by
  unfold args
  rw [clauseChars_offsetParams, filterMap_map, map_filterMap]
  refine filterMap_congr fun c _ => ?_
  cases c <;> rfl

/-! ### What is bound -/

section Values

variable [FloatText]

/-- The values of a list to search. -/
def listValues (value : Json) : List String :=
  if value.isArray then value.items.map jsonToSqlParam else []

/-- The values a leaf binds. -/
def DomainLeaf.values (l : DomainLeaf) : List String :=
  if (l.op = "=" ∨ l.op = "=?") ∧ l.value.isNull then []
  else if l.op = "!=" ∧ l.value.isNull then []
  else
    match comparison l.op l.value with
    | some (_, v) => [v]
    | none => listValues l.value

mutual

/-- The values a domain binds, leaf by leaf. -/
def DomainNode.values : DomainNode → List String
  | .leaf l => l.values
  | .and children => allValues children
  | .or children => allValues children
  | .not child => child.values

def DomainNode.allValues : List DomainNode → List String
  | [] => []
  | child :: rest => child.values ++ allValues rest

end

end Values

/-- What compiling binds: values behind those that are bound, placeholders in a
row behind those that are given, columns that passed the check. -/
structure Binds (allowed : Option (List String)) (aliasName : String) (fields values : List String)
    (params params' : List String) (ns : List ℕ) (columns operators : List String) : Prop where
  params_eq : params' = params ++ values
  args_eq : ns = range' (params.length + 1) values.length
  columns_of : ∀ col ∈ columns, ∃ f ∈ fields,
    sanitizeColumn f allowed = .ok f ∧ col = qualified aliasName f
  operators_known : ∀ op ∈ operators, op ∈ symbolOps ∨ op ∈ wordOps

section Binds

variable {allowed : Option (List String)} {aliasName : String} {params params' : List String}

/-- Nothing is bound, nothing is named. -/
lemma Binds.nothing : Binds allowed aliasName [] [] params params [] [] [] where
  params_eq := (append_nil params).symm
  args_eq := rfl
  columns_of := fun _ h => nomatch h
  operators_known := fun _ h => nomatch h

/-- One behind the other. -/
lemma Binds.append {params'' fields fields' values values' columns columns' operators operators' :
    List String} {ns ns' : List ℕ}
    (h : Binds allowed aliasName fields values params params' ns columns operators)
    (h' : Binds allowed aliasName fields' values' params' params'' ns' columns' operators') :
    Binds allowed aliasName (fields ++ fields') (values ++ values') params params'' (ns ++ ns')
      (columns ++ columns') (operators ++ operators') where
  params_eq := by rw [h'.params_eq, h.params_eq, append_assoc]
  args_eq := by
    have hlength : params'.length + 1 = params.length + 1 + values.length := by
      rw [h.params_eq, length_append]
      omega
    rw [h.args_eq, h'.args_eq, hlength, length_append, range'_append_1]
  columns_of := by
    intro col hcol
    rcases mem_append.mp hcol with hcol | hcol
    · obtain ⟨f, hf, hok⟩ := h.columns_of col hcol
      exact ⟨f, mem_append_left _ hf, hok⟩
    · obtain ⟨f, hf, hok⟩ := h'.columns_of col hcol
      exact ⟨f, mem_append_right _ hf, hok⟩
  operators_known := by
    intro op hop
    rcases mem_append.mp hop with hop | hop
    · exact h.operators_known op hop
    · exact h'.operators_known op hop

variable [FloatText]

lemma listValues_of_empty {value : Json} (h : (!value.isArray || value.isEmpty) = true) :
    listValues value = [] := by
  cases value with
  | arr items =>
      cases items with
      | nil => rfl
      | cons item items => cases h
  | _ => rfl

lemma listValues_of_items {value : Json} (h : ¬(!value.isArray || value.isEmpty) = true) :
    listValues value = value.items.map jsonToSqlParam := by
  cases value with
  | arr items => rfl
  | _ => exact absurd rfl h

/-- `in` and `not in` bind their list, or are constant. -/
lemma inListCond_binds {col op : String} {fields : List String} {value : Json} {c : Cond}
    (hcol : ∃ f ∈ fields, sanitizeColumn f allowed = .ok f ∧ col = qualified aliasName f)
    (h : inListCond col op value params = .ok (c, params')) :
    Binds allowed aliasName fields (listValues value) params params' c.args c.columns
      c.operators := by
  have hcolumns : ∀ col' ∈ [col], ∃ f ∈ fields,
      sanitizeColumn f allowed = .ok f ∧ col' = qualified aliasName f := by
    intro col' hcol'
    rw [mem_singleton.mp hcol']
    exact hcol
  unfold inListCond at h
  split_ifs at h with hin hconst hnot hconst
  all_goals cases h
  · rw [listValues_of_empty hconst]
    exact ⟨(append_nil _).symm, rfl, fun _ h => (not_mem_nil h).elim, fun _ h => (not_mem_nil h).elim⟩
  · rw [listValues_of_items hconst]
    exact ⟨rfl, rfl, hcolumns, fun _ h => (not_mem_nil h).elim⟩
  · rw [listValues_of_empty hconst]
    exact ⟨(append_nil _).symm, rfl, fun _ h => (not_mem_nil h).elim, fun _ h => (not_mem_nil h).elim⟩
  · rw [listValues_of_items hconst]
    exact ⟨rfl, rfl, hcolumns, fun _ h => (not_mem_nil h).elim⟩

/-- A leaf binds its values and names its column. -/
lemma leafCond_binds {l : DomainLeaf} {c : Cond}
    (hfield : sanitizeColumn l.field allowed = .ok l.field)
    (h : leafCond (qualified aliasName l.field) l.op l.value params = .ok (c, params')) :
    Binds allowed aliasName [l.field] l.values params params' c.args c.columns c.operators := by
  have hcol : ∃ f ∈ [l.field], sanitizeColumn f allowed = .ok f ∧
      qualified aliasName l.field = qualified aliasName f :=
    ⟨l.field, mem_cons_self, hfield, rfl⟩
  have hcolumns : ∀ col ∈ [qualified aliasName l.field], ∃ f ∈ [l.field],
      sanitizeColumn f allowed = .ok f ∧ col = qualified aliasName f := by
    intro col hmem
    rw [mem_singleton.mp hmem]
    exact hcol
  unfold leafCond at h
  unfold DomainLeaf.values
  split_ifs at h ⊢ with hnull hnotnull
  · cases h
    exact ⟨(append_nil _).symm, rfl, hcolumns, fun _ h => (not_mem_nil h).elim⟩
  · cases h
    exact ⟨(append_nil _).symm, rfl, hcolumns, fun _ h => (not_mem_nil h).elim⟩
  · rcases hcomparison : comparison l.op l.value with - | ⟨sqlOp, v⟩
    · rw [hcomparison] at h
      exact inListCond_binds hcol h
    · rw [hcomparison] at h
      cases h
      obtain ⟨⟨sqlOp', pattern⟩, hop, heq⟩ := Option.map_eq_some_iff.mp hcomparison
      cases heq
      refine ⟨rfl, rfl, hcolumns, fun op hop' => ?_⟩
      rw [mem_singleton.mp hop']
      exact sqlOperator_known hop

mutual

/-- **A tree binds its leaves' values**, behind those that are bound. -/
theorem compileCond_binds (node : DomainNode) {params params' : List String} {c : Cond}
    (h : compileCond allowed aliasName node params = .ok (c, params')) :
    Binds allowed aliasName node.columns node.values params params' c.args c.columns
      c.operators := by
  match node with
  | .leaf l =>
      simp only [compileCond] at h
      split at h
      · cases h
      · next bare hbare =>
          have hfield := sanitizeColumn_ok allowed hbare
          subst hfield
          exact leafCond_binds hbare h
  | .and [] =>
      cases h
      exact Binds.nothing
  | .and (child :: rest) =>
      obtain ⟨⟨cs, ps⟩, hcs, heq⟩ := map_ok_iff.mp h
      cases heq
      exact compileConds_binds (child :: rest) hcs
  | .or [] =>
      cases h
      exact Binds.nothing
  | .or (child :: rest) =>
      obtain ⟨⟨cs, ps⟩, hcs, heq⟩ := map_ok_iff.mp h
      cases heq
      exact compileConds_binds (child :: rest) hcs
  | .not child =>
      obtain ⟨⟨c', ps⟩, hc, heq⟩ := map_ok_iff.mp h
      cases heq
      have hbinds := compileCond_binds child hc
      exact hbinds

lemma compileConds_binds (children : List DomainNode) {params params' : List String}
    {cs : List Cond} (h : compileConds allowed aliasName children params = .ok (cs, params')) :
    Binds allowed aliasName (allColumns children) (allValues children) params
      params' (Cond.allArgs cs) (Cond.allColumns cs) (Cond.allOperators cs) := by
  match children with
  | [] =>
      cases h
      exact Binds.nothing
  | child :: rest =>
      simp only [compileConds] at h
      split at h
      · cases h
      · next c ps hc =>
          obtain ⟨⟨cs', ps'⟩, hcs, heq⟩ := map_ok_iff.mp h
          cases heq
          exact (compileCond_binds child hc).append (compileConds_binds rest hcs)

end

end Binds

/-! ### Clauses -/

section Clauses

variable [FloatText]

/-- A clause of a domain: the text of its condition, whose placeholders are
numbered in the order they stand in and bound to the values of the leaves in
theirs, and whose columns are columns the caller allows. -/
structure Faithful (d : Domain) (allowed : Option (List String)) (aliasName : String)
    (r : SqlResult) (c : Cond) : Prop where
  compiled : d.toCond allowed aliasName = .ok (c, r.params)
  text_eq : r.clause = c.text
  args_eq : args r.clause.toList = range' 1 r.params.length
  params_eq : r.params = d.root.values
  columns_of : ∀ col ∈ c.columns, ∃ f ∈ d.root.columns,
    sanitizeColumn f allowed = .ok f ∧ col = qualified aliasName f
  meaning : ∀ {Row : Type} (I : Interp Row) (row : Row) (more : List String),
    c.eval I (r.params ++ more) row = d.root.truth I aliasName row

variable {aliasName : String} {allowed : Option (List String)}

omit [FloatText] in
lemma qualified_plain {f : String} (halias : '$' ∉ aliasName.toList)
    (hf : sanitizeColumn f allowed = .ok f) : '$' ∉ (qualified aliasName f).toList := by
  have hfield : '$' ∉ f.toList := by
    intro hmem
    unfold sanitizeColumn at hf
    split at hf
    · next hall => exact absurd (all_eq_true.mp hall _ hmem) (by decide)
    · cases hf
  unfold qualified
  split
  · exact hfield
  · simp only [String.toList_append, mem_append, not_or]
    exact ⟨⟨halias, by decide⟩, hfield⟩

/-- **What is compiled binds what it says.** -/
theorem toSql_faithful {d : Domain} {r : SqlResult} (halias : '$' ∉ aliasName.toList)
    (h : d.toSql allowed aliasName = .ok r) : ∃ c, Faithful d allowed aliasName r c := by
  rw [toSql_eq] at h
  obtain ⟨⟨c, ps⟩, hc, rfl⟩ := map_ok_iff.mp h
  have hbinds := compileCond_binds d.root hc
  have hplain : ∀ s ∈ c.columns ++ c.operators, '$' ∉ s.toList := by
    intro s hs
    rcases mem_append.mp hs with hs | hs
    · obtain ⟨f, -, hf, rfl⟩ := hbinds.columns_of s hs
      exact qualified_plain halias hf
    · exact operator_plain (hbinds.operators_known s hs)
  refine ⟨c, ⟨?_, rfl, ?_, hbinds.params_eq, hbinds.columns_of, ?_⟩⟩
  · unfold Domain.toCond
    split
    · next hempty =>
        unfold Domain.isEmpty at hempty
        split at hempty
        · next hroot =>
            rw [hroot] at hc
            cases hc
            rfl
        · cases hempty
    · exact hc
  · rw [args_text c hplain, hbinds.args_eq, hbinds.params_eq]
    rfl
  · intro Row I row more
    exact (compileCond_truth I row allowed aliasName d.root hc).2 more

/-- A clause behind a query: its placeholders moved on behind the values of the
query, nothing else touched, and bound to the values it was compiled with,
whatever is bound later. -/
structure Spliced (sql rule out : SqlResult) (before after : String) (t : String) : Prop where
  clause_eq : out.clause = sql.clause ++ before ++ t ++ after
  params_eq : out.params = sql.params ++ rule.params
  moved : clauseChars t.toList = (clauseChars rule.clause.toList).map (movedOn sql.params.length)
  bound_eq : ∀ more, (args t.toList).map (bound (out.params ++ more)) = rule.params

lemma spliced_of_faithful {sql rule out : SqlResult} {before after : String} {d : Domain}
    {c : Cond} (h : Faithful d allowed aliasName rule c) (hclause : out.clause =
      sql.clause ++ before ++ offsetParams rule.clause sql.params.length ++ after)
    (hparams : out.params = sql.params ++ rule.params) :
    Spliced sql rule out before after (offsetParams rule.clause sql.params.length) := by
  refine ⟨hclause, hparams, clauseChars_offsetParams _ _, fun more => ?_⟩
  have hrange : (range' 1 rule.params.length).map (· + sql.params.length) =
      range' (sql.params.length + 1) rule.params.length := by
    have hbehind := nextArgs_behind sql.params [] rule.params.length
    rw [append_nil] at hbehind
    exact hbehind.symm
  rw [args_offsetParams, h.args_eq, hrange, hparams]
  exact map_bound_range sql.params rule.params more

section Splices

variable {D : Derived} {engine : Option RuleEngine} {c : Caller} {op : RuleOp} {sql out : SqlResult}

/-- The rules of a model, compiled without an allowlist. -/
def CompiledRules (engine : Option RuleEngine) (model : String) (op : RuleOp) (ctx : UserContext)
    (rule : SqlResult) : Prop :=
  ∃ e d, engine = some e ∧ domainFromJson (e.buildRuleDomain model op ctx) = .ok d ∧
    d.toSql none "" = .ok rule

lemma appendRuleClause_spliced
    (h : appendRuleClause D engine c op sql sql.params.length = .ok out) :
    out = sql ∨ ∃ rule t, CompiledRules engine D.modelName op c.ctx rule ∧
      Spliced sql rule out " AND " "" t := by
  unfold appendRuleClause at h
  rcases engine with - | e
  · exact .inl (Except.ok.inj h).symm
  dsimp only at h
  split at h
  · exact .inl (Except.ok.inj h).symm
  · obtain ⟨d, hd, h⟩ := bind_ok_iff.mp h
    obtain ⟨rule, hrule, h⟩ := bind_ok_iff.mp h
    split at h
    · exact .inl (pure_ok_iff.mp h).symm
    · obtain rfl := pure_ok_iff.mp h
      obtain ⟨c', hfaithful⟩ := toSql_faithful not_mem_nil hrule
      refine .inr ⟨rule, _, ⟨e, d, rfl, hd, hrule⟩, spliced_of_faithful hfaithful ?_ rfl⟩
      rw [String.append_empty]

lemma appendRecordRuleSubquery_spliced {model table idExpr : String} {ctx : UserContext}
    (h : appendRecordRuleSubquery engine model op ctx table idExpr sql sql.params.length = .ok out) :
    out = sql ∨ ∃ rule t, CompiledRules engine model op ctx rule ∧
      Spliced sql rule out (" AND " ++ idExpr ++ " IN (SELECT id FROM " ++ table ++ " WHERE ") ")"
        t := by
  unfold appendRecordRuleSubquery at h
  rcases engine with - | e
  · exact .inl (Except.ok.inj h).symm
  dsimp only at h
  split at h
  · exact .inl (Except.ok.inj h).symm
  · obtain ⟨d, hd, h⟩ := bind_ok_iff.mp h
    obtain ⟨rule, hrule, h⟩ := bind_ok_iff.mp h
    split at h
    · exact .inl (pure_ok_iff.mp h).symm
    · obtain rfl := pure_ok_iff.mp h
      obtain ⟨c', hfaithful⟩ := toSql_faithful not_mem_nil hrule
      exact .inr ⟨rule, _, ⟨e, d, rfl, hd, hrule⟩, spliced_of_faithful hfaithful rfl rfl⟩

end Splices

/-- **Placeholders are bound to the values they were compiled with.**  A domain
that is compiled gives a clause numbered from one on in the order of its text,
bound to its leaves' values, over allowed columns.  The scanners move every
placeholder of a text on and touch nothing else.  What is spliced behind a query
stays bound to the values of the rules. -/
theorem clauses_bind_their_values :
    (∀ (d : Domain) (allowed : Option (List String)) (aliasName : String) (r : SqlResult),
      '$' ∉ aliasName.toList → d.toSql allowed aliasName = .ok r →
      ∃ c, Faithful d allowed aliasName r c ∧ ∀ columns, allowed = some columns → ∀ col ∈ c.columns,
          ∃ f ∈ columns, col = qualified aliasName f) ∧
    (∀ (text : String) (offset : ℕ), clauseChars (offsetParams text offset).toList =
        (clauseChars text.toList).map (movedOn offset) ∧
      clauseChars (offsetSqlParams text offset).toList =
        (clauseChars text.toList).map (movedOn offset)) ∧
    (∀ (D : Derived) (engine : Option RuleEngine) (c : Caller) (op : RuleOp) (sql out : SqlResult),
      appendRuleClause D engine c op sql sql.params.length = .ok out →
      out = sql ∨ ∃ rule t, CompiledRules engine D.modelName op c.ctx rule ∧
        Spliced sql rule out " AND " "" t) ∧
    ∀ (engine : Option RuleEngine) (model : String) (op : RuleOp) (ctx : UserContext)
      (table idExpr : String) (sql out : SqlResult),
      appendRecordRuleSubquery engine model op ctx table idExpr sql sql.params.length = .ok out →
      out = sql ∨ ∃ rule t, CompiledRules engine model op ctx rule ∧
        Spliced sql rule out (" AND " ++ idExpr ++ " IN (SELECT id FROM " ++ table ++ " WHERE ") ")"
          t := by
  refine ⟨?_, ?_, ?_, ?_⟩
  · intro d allowed aliasName r halias h
    obtain ⟨c, hfaithful⟩ := toSql_faithful halias h
    refine ⟨c, hfaithful, ?_⟩
    rintro columns rfl col hcol
    obtain ⟨f, -, hf, rfl⟩ := hfaithful.columns_of col hcol
    refine ⟨f, ?_, rfl⟩
    unfold sanitizeColumn at hf
    split at hf
    · dsimp only at hf
      split at hf
      · next hmem => exact hmem
      · cases hf
    · cases hf
  · intro text offset
    exact ⟨clauseChars_offsetParams text offset, clauseChars_offsetParams text offset⟩
  · intro D engine c op sql out h
    exact appendRuleClause_spliced h
  · intro engine model op ctx table idExpr sql out h
    exact appendRecordRuleSubquery_spliced h

end Clauses

-- the tenth placeholder becomes the twelfth, and the letters stay
example : offsetParams "a IN ($9,$10)" 2 = "a IN ($11,$12)" := by decide +kernel

end CErp
