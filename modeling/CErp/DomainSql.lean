/-
Compiling a domain to a parameterised WHERE clause.

`compileNode` builds the text of the clause and pushes the values it binds, as
the source does.  `compileCond` is the same pass with a condition of `Sql` in
place of its text, and `compileNode_eq` says that the text is that condition's
text, the bound values and the errors being the same.

`DomainNode.truth` is what a domain means at a row, without placeholders.
`compileCond_truth` is the correctness of the pass: the compiled condition has
the domain's meaning, under the values it pushed and whatever is bound after
them.
-/
import CErp.Domain
import CErp.Sql

namespace CErp

open Sql List

variable [FloatText]

/-! ### Leaves -/

/-- The text a value is bound as. -/
def jsonToSqlParam : Json → String
  | .str s => s
  | .bool b => if b then "true" else "false"
  | .null => ""
  | v => v.dump

/-- The pattern of the `like` operators. -/
def likePattern (v : Json) : String := "%" ++ jsonToSqlParam v ++ "%"

/-- A column name is checked against the identifier characters, then against
the columns the caller may filter on. -/
def sanitizeColumn (field : String) (allowed : Option (List String)) : Except String String :=
  if field.toList.all fun c => c.isAlphanum || c == '_' then
    match allowed with
    | none => .ok field
    | some columns =>
        if field ∈ columns then .ok field
        else .error ("Domain: field '" ++ field ++ "' is not filterable on this model")
  else .error ("Domain: invalid field name '" ++ field ++ "'")

/-- A column under a table alias. -/
def qualified (aliasName bare : String) : String :=
  if aliasName = "" then bare else aliasName ++ "." ++ bare

/-- A clause with the values bound so far. -/
abbrev Compiled (α : Type) := Except String (α × List String)

/-- The operators that compare the column with one bound value: their SQL
spelling, and whether the value is matched as a pattern. -/
def sqlOperator (op : String) : Option (String × Bool) :=
  if op = "=" ∨ op = "=?" then some ("=", false)
  else if op = "!=" then some ("!=", false)
  else if op = "<" then some ("<", false)
  else if op = "<=" then some ("<=", false)
  else if op = ">" then some (">", false)
  else if op = ">=" then some (">=", false)
  else if op = "like" then some ("LIKE", true)
  else if op = "ilike" then some ("ILIKE", true)
  else if op = "not like" then some ("NOT LIKE", true)
  else if op = "not ilike" then some ("NOT ILIKE", true)
  else none

/-- The SQL operator of a comparison and the text of its value. -/
def comparison (op : String) (value : Json) : Option (String × String) :=
  (sqlOperator op).map fun (sqlOp, pattern) =>
    (sqlOp, if pattern then likePattern value else jsonToSqlParam value)

/-- The placeholders of `count` values bound after `params`. -/
def nextArgs (params : List String) (count : ℕ) : List ℕ :=
  range' (params.length + 1) count

/-- The clause of `in` and `not in`, constant when there is no list to
search.  No other operator is left here. -/
def inListText (col op : String) (value : Json) (params : List String) : Compiled String :=
  let values := value.items.map jsonToSqlParam
  if op = "in" then
    if !value.isArray || value.isEmpty then .ok ("FALSE", params)
    else .ok (col ++ " IN " ++ listText (nextArgs params values.length), params ++ values)
  else if op = "not in" then
    if !value.isArray || value.isEmpty then .ok ("TRUE", params)
    else .ok (col ++ " NOT IN " ++ listText (nextArgs params values.length), params ++ values)
  else .error ("Domain: unsupported operator '" ++ op ++ "'")

/-- The clause of a leaf, its column checked already.  A comparison with
`null` tests the column and binds nothing. -/
def leafText (col op : String) (value : Json) (params : List String) : Compiled String :=
  if (op = "=" ∨ op = "=?") ∧ value.isNull then .ok (col ++ " IS NULL", params)
  else if op = "!=" ∧ value.isNull then .ok (col ++ " IS NOT NULL", params)
  else
    match comparison op value with
    | some (sqlOp, v) =>
        .ok (col ++ " " ++ sqlOp ++ " " ++ placeholder (params.length + 1), params ++ [v])
    | none => inListText col op value params

def compileLeaf (allowed : Option (List String)) (aliasName : String) (leaf : DomainLeaf)
    (params : List String) : Compiled String :=
  match sanitizeColumn leaf.field allowed with
  | .error e => .error e
  | .ok bare => leafText (qualified aliasName bare) leaf.op leaf.value params

/-! ### Trees -/

mutual

/-- The clause of a node, with the values it binds pushed after `params`. -/
def compileNode (allowed : Option (List String)) (aliasName : String) (node : DomainNode)
    (params : List String) : Compiled String :=
  match node with
  | .leaf l => compileLeaf allowed aliasName l params
  | .and [] => .ok ("TRUE", params)
  | .and children =>
      (compileChildren allowed aliasName children params).map fun (texts, ps) =>
        ("(" ++ " AND ".intercalate texts ++ ")", ps)
  | .or [] => .ok ("FALSE", params)
  | .or children =>
      (compileChildren allowed aliasName children params).map fun (texts, ps) =>
        ("(" ++ " OR ".intercalate texts ++ ")", ps)
  | .not child =>
      (compileNode allowed aliasName child params).map fun (text, ps) => ("(NOT " ++ text ++ ")", ps)

def compileChildren (allowed : Option (List String)) (aliasName : String)
    (children : List DomainNode) (params : List String) : Compiled (List String) :=
  match children with
  | [] => .ok ([], params)
  | child :: rest =>
      match compileNode allowed aliasName child params with
      | .error e => .error e
      | .ok (text, ps) =>
          (compileChildren allowed aliasName rest ps).map fun (texts, ps') => (text :: texts, ps')

end

structure SqlResult where
  clause : String
  params : List String

/-- Compile a domain.  `allowed` restricts the columns a leaf may name. -/
def Domain.toSql (d : Domain) (allowed : Option (List String)) (aliasName : String) :
    Except String SqlResult :=
  if d.isEmpty then .ok ⟨"TRUE", []⟩
  else (compileNode allowed aliasName d.root []).map fun (clause, params) => ⟨clause, params⟩

/-! ### The same pass with conditions -/

def inListCond (col op : String) (value : Json) (params : List String) : Compiled Cond :=
  let values := value.items.map jsonToSqlParam
  if op = "in" then
    if !value.isArray || value.isEmpty then .ok (.lit false, params)
    else .ok (.isIn col (nextArgs params values.length), params ++ values)
  else if op = "not in" then
    if !value.isArray || value.isEmpty then .ok (.lit true, params)
    else .ok (.isNotIn col (nextArgs params values.length), params ++ values)
  else .error ("Domain: unsupported operator '" ++ op ++ "'")

/-- The condition of a leaf, its column checked already. -/
def leafCond (col op : String) (value : Json) (params : List String) : Compiled Cond :=
  if (op = "=" ∨ op = "=?") ∧ value.isNull then .ok (.isNull col, params)
  else if op = "!=" ∧ value.isNull then .ok (.isNotNull col, params)
  else
    match comparison op value with
    | some (sqlOp, v) => .ok (.compare col sqlOp (params.length + 1), params ++ [v])
    | none => inListCond col op value params

mutual

def compileCond (allowed : Option (List String)) (aliasName : String) (node : DomainNode)
    (params : List String) : Compiled Cond :=
  match node with
  | .leaf l =>
      match sanitizeColumn l.field allowed with
      | .error e => .error e
      | .ok bare => leafCond (qualified aliasName bare) l.op l.value params
  | .and [] => .ok (.lit true, params)
  | .and children =>
      (compileConds allowed aliasName children params).map fun (cs, ps) => (.and cs, ps)
  | .or [] => .ok (.lit false, params)
  | .or children =>
      (compileConds allowed aliasName children params).map fun (cs, ps) => (.or cs, ps)
  | .not child => (compileCond allowed aliasName child params).map fun (c, ps) => (.not c, ps)

def compileConds (allowed : Option (List String)) (aliasName : String)
    (children : List DomainNode) (params : List String) : Compiled (List Cond) :=
  match children with
  | [] => .ok ([], params)
  | child :: rest =>
      match compileCond allowed aliasName child params with
      | .error e => .error e
      | .ok (c, ps) =>
          (compileConds allowed aliasName rest ps).map fun (cs, ps') => (c :: cs, ps')

end

/-- The condition and the bound values of a compiled domain. -/
def Domain.toCond (d : Domain) (allowed : Option (List String)) (aliasName : String) :
    Compiled Cond :=
  if d.isEmpty then .ok (.lit true, [])
  else compileCond allowed aliasName d.root []

/-! ### The text is the condition's -/

variable (col op : String)

lemma inListText_eq (value : Json) (params : List String) : inListText col op value params =
      (inListCond col op value params).map fun (c, ps) => (c.text, ps) := by
  unfold inListText inListCond
  split_ifs <;> rfl

lemma leafText_eq (value : Json) (params : List String) : leafText col op value params =
      (leafCond col op value params).map fun (c, ps) => (c.text, ps) := by
  unfold leafText leafCond
  rcases comparison op value with - | ⟨sqlOp, v⟩
  · dsimp only
    rw [inListText_eq]
    split_ifs <;> rfl
  · dsimp only
    split_ifs <;> rfl

mutual

lemma compileNode_eq (allowed : Option (List String)) (aliasName : String) (node : DomainNode)
    (params : List String) :
    compileNode allowed aliasName node params =
      (compileCond allowed aliasName node params).map fun (c, ps) => (c.text, ps) := by
  match node with
  | .leaf l =>
      simp only [compileNode, compileCond, compileLeaf]
      rcases sanitizeColumn l.field allowed with e | bare
      · rfl
      · exact leafText_eq _ _ _ _
  | .and [] => rfl
  | .and (child :: rest) =>
      simp only [compileNode, compileCond]
      rw [compileChildren_eq allowed aliasName (child :: rest) params]
      rcases compileConds allowed aliasName (child :: rest) params with e | ⟨cs, ps⟩ <;> rfl
  | .or [] => rfl
  | .or (child :: rest) =>
      simp only [compileNode, compileCond]
      rw [compileChildren_eq allowed aliasName (child :: rest) params]
      rcases compileConds allowed aliasName (child :: rest) params with e | ⟨cs, ps⟩ <;> rfl
  | .not child =>
      simp only [compileNode, compileCond]
      rw [compileNode_eq allowed aliasName child params]
      rcases compileCond allowed aliasName child params with e | ⟨c, ps⟩ <;> rfl

lemma compileChildren_eq (allowed : Option (List String)) (aliasName : String)
    (children : List DomainNode) (params : List String) :
    compileChildren allowed aliasName children params =
      (compileConds allowed aliasName children params).map fun (cs, ps) => (Cond.texts cs, ps) := by
  match children with
  | [] => rfl
  | child :: rest =>
      simp only [compileChildren, compileConds]
      rw [compileNode_eq allowed aliasName child params]
      rcases compileCond allowed aliasName child params with e | ⟨c, ps⟩
      · rfl
      · simp only [Except.map]
        rw [compileChildren_eq allowed aliasName rest ps]
        rcases compileConds allowed aliasName rest ps with e | ⟨cs, ps'⟩ <;> rfl

end

/-! ### Meaning -/

section Meaning

variable {Row : Type*} (I : Interp Row) (aliasName : String) (row : Row)

/-- What `in` and `not in` say of a row. -/
def inListTruth (col op : String) (value : Json) : Truth :=
  let found :=
    if !value.isArray || value.isEmpty then Truth.false
    else evalIn I col (value.items.map jsonToSqlParam) row
  if op = "in" then found else found.not

/-- What a leaf says of a row. -/
def DomainLeaf.truth (l : DomainLeaf) : Truth :=
  let col := qualified aliasName l.field
  if (l.op = "=" ∨ l.op = "=?") ∧ l.value.isNull then Truth.ofBool (I.isNull col row)
  else if l.op = "!=" ∧ l.value.isNull then Truth.ofBool (!I.isNull col row)
  else
    match comparison l.op l.value with
    | some (sqlOp, v) => I.compare col sqlOp v row
    | none => inListTruth I row col l.op l.value

mutual

/-- What a domain tree says of a row. -/
def DomainNode.truth : DomainNode → Truth
  | .leaf l => l.truth I aliasName row
  | .and children => Truth.all (DomainNode.truths children)
  | .or children => Truth.any (DomainNode.truths children)
  | .not child => child.truth.not

def DomainNode.truths : List DomainNode → List Truth
  | [] => []
  | child :: rest => child.truth :: DomainNode.truths rest

end

lemma truths_eq_map (children : List DomainNode) : DomainNode.truths I aliasName row children =
      children.map fun n => n.truth I aliasName row := by
  induction children with
  | nil => rfl
  | cons child rest ih => rw [DomainNode.truths, ih, map_cons]

end Meaning

/-! ### The pass preserves the meaning -/

section Correct

variable {Row : Type*} (I : Interp Row) (row : Row)
variable (allowed : Option (List String)) (aliasName : String)

omit [FloatText] in
lemma sanitizeColumn_ok {field bare : String} (h : sanitizeColumn field allowed = .ok bare) :
    bare = field := by
  unfold sanitizeColumn at h
  split at h
  · split at h
    · cases h; rfl
    · split at h
      · cases h; rfl
      · cases h
  · cases h

lemma inListCond_truth {col op : String} {value : Json} {params params' : List String}
    {c : Cond} (h : inListCond col op value params = .ok (c, params')) :
    params <+: params' ∧ ∀ more,
      c.eval I (params' ++ more) row = inListTruth I row col op value := by
  have hargs : ∀ more, (nextArgs params (value.items.map jsonToSqlParam).length).map
      (bound (params ++ value.items.map jsonToSqlParam ++ more))
        = value.items.map jsonToSqlParam :=
    map_bound_range params (value.items.map jsonToSqlParam)
  simp only [inListCond] at h
  simp only [inListTruth]
  by_cases hin : op = "in"
  · rw [if_pos hin] at h
    by_cases hconst : (!value.isArray || value.isEmpty) = true
    · rw [if_pos hconst] at h
      cases h
      exact ⟨prefix_rfl, fun more => by rw [if_pos hin, if_pos hconst]; rfl⟩
    · rw [if_neg hconst] at h
      cases h
      refine ⟨prefix_append _ _, fun more => ?_⟩
      rw [if_pos hin, if_neg hconst, Cond.eval, hargs more]
  · rw [if_neg hin] at h
    by_cases hnotin : op = "not in"
    · rw [if_pos hnotin] at h
      by_cases hconst : (!value.isArray || value.isEmpty) = true
      · rw [if_pos hconst] at h
        cases h
        exact ⟨prefix_rfl, fun more => by rw [if_neg hin, if_pos hconst]; rfl⟩
      · rw [if_neg hconst] at h
        cases h
        refine ⟨prefix_append _ _, fun more => ?_⟩
        rw [if_neg hin, if_neg hconst, Cond.eval, hargs more]
    · rw [if_neg hnotin] at h
      cases h

/-- A compiled leaf has the leaf's meaning, whatever is bound after it. -/
lemma leafCond_truth {l : DomainLeaf} {params params' : List String} {c : Cond}
    (h : leafCond (qualified aliasName l.field) l.op l.value params = .ok (c, params')) :
    params <+: params' ∧ ∀ more, c.eval I (params' ++ more) row = l.truth I aliasName row := by
  unfold leafCond at h
  unfold DomainLeaf.truth
  by_cases hnull : (l.op = "=" ∨ l.op = "=?") ∧ l.value.isNull
  · rw [if_pos hnull] at h
    cases h
    exact ⟨prefix_rfl, fun more => by rw [if_pos hnull, Cond.eval]⟩
  rw [if_neg hnull] at h
  rw [if_neg hnull]
  by_cases hnotnull : l.op = "!=" ∧ l.value.isNull
  · rw [if_pos hnotnull] at h
    cases h
    exact ⟨prefix_rfl, fun more => by rw [if_pos hnotnull, Cond.eval]⟩
  rw [if_neg hnotnull] at h
  rw [if_neg hnotnull]
  rcases e : comparison l.op l.value with - | ⟨sqlOp, v⟩
  · -- the list operators
    rw [e] at h
    exact inListCond_truth I row h
  · -- a comparison with one bound value
    rw [e] at h
    cases h
    refine ⟨prefix_append _ _, fun more => ?_⟩
    rw [Cond.eval, bound_last]

mutual

/-- **The pass preserves the meaning.**  The condition compiled from a tree
says of a row what the tree says, whatever is bound after the tree's own
values. -/
theorem compileCond_truth (node : DomainNode) {params params' : List String} {c : Cond}
    (h : compileCond allowed aliasName node params = .ok (c, params')) :
    params <+: params' ∧ ∀ more, c.eval I (params' ++ more) row = node.truth I aliasName row := by
  match node with
  | .leaf l =>
      simp only [compileCond] at h
      split at h
      · cases h
      · next bare hb =>
          rw [sanitizeColumn_ok allowed hb] at h
          exact leafCond_truth I row aliasName h
  | .and [] =>
      cases h
      exact ⟨prefix_rfl, fun more => rfl⟩
  | .and (child :: rest) =>
      simp only [compileCond] at h
      rcases e : compileConds allowed aliasName (child :: rest) params with err | ⟨cs, ps⟩
      · rw [e] at h; cases h
      · rw [e] at h
        cases h
        obtain ⟨hp, ht⟩ := compileConds_truth (child :: rest) e
        exact ⟨hp, fun more => by rw [Cond.eval, ht more, DomainNode.truth]⟩
  | .or [] =>
      cases h
      exact ⟨prefix_rfl, fun more => rfl⟩
  | .or (child :: rest) =>
      simp only [compileCond] at h
      rcases e : compileConds allowed aliasName (child :: rest) params with err | ⟨cs, ps⟩
      · rw [e] at h; cases h
      · rw [e] at h
        cases h
        obtain ⟨hp, ht⟩ := compileConds_truth (child :: rest) e
        exact ⟨hp, fun more => by rw [Cond.eval, ht more, DomainNode.truth]⟩
  | .not child =>
      simp only [compileCond] at h
      rcases e : compileCond allowed aliasName child params with err | ⟨c', ps⟩
      · rw [e] at h; cases h
      · rw [e] at h
        cases h
        obtain ⟨hp, ht⟩ := compileCond_truth child e
        exact ⟨hp, fun more => by rw [Cond.eval, ht more, DomainNode.truth]⟩

lemma compileConds_truth (children : List DomainNode) {params params' : List String}
    {cs : List Cond}
    (h : compileConds allowed aliasName children params = .ok (cs, params')) :
    params <+: params' ∧ ∀ more,
      Cond.evals I (params' ++ more) row cs = DomainNode.truths I aliasName row children := by
  match children with
  | [] =>
      cases h
      exact ⟨prefix_rfl, fun more => rfl⟩
  | child :: rest =>
      simp only [compileConds] at h
      split at h
      · cases h
      · next c ps hc =>
          rcases e : compileConds allowed aliasName rest ps with err | ⟨cs', ps'⟩
          · rw [e] at h; cases h
          · rw [e] at h
            cases h
            obtain ⟨hp, ht⟩ := compileCond_truth child hc
            obtain ⟨hp', ht'⟩ := compileConds_truth rest e
            refine ⟨hp.trans hp', fun more => ?_⟩
            obtain ⟨vs, rfl⟩ := hp'
            rw [Cond.evals, DomainNode.truths, ht' more, append_assoc, ht (vs ++ more)]

end

end Correct

/-! ### Rows a domain is satisfied by -/

section Satisfies

variable (allowed : Option (List String))

/-- An operator the compiler knows. -/
def supportedOp (op : String) : Bool :=
  (sqlOperator op).isSome || op = "in" || op = "not in"

def DomainLeaf.compiles (l : DomainLeaf) : Bool :=
  (sanitizeColumn l.field allowed).isOk && supportedOp l.op

mutual

/-- Every leaf names an admissible column and a supported operator. -/
def DomainNode.compiles : DomainNode → Bool
  | .leaf l => l.compiles allowed
  | .and children => DomainNode.allCompile children
  | .or children => DomainNode.allCompile children
  | .not child => child.compiles

def DomainNode.allCompile : List DomainNode → Bool
  | [] => true
  | child :: rest => child.compiles && DomainNode.allCompile rest

end

omit [FloatText] in
lemma allCompile_eq_all (children : List DomainNode) :
    DomainNode.allCompile allowed children = children.all fun n => n.compiles allowed := by
  induction children with
  | nil => rfl
  | cons child rest ih => rw [DomainNode.allCompile, ih, all_cons]

lemma comparison_isSome (op : String) (value : Json) :
    (comparison op value).isSome = (sqlOperator op).isSome := Option.isSome_map

lemma inListCond_isOk (value : Json) (params : List String) :
    (inListCond col op value params).isOk = (decide (op = "in") || decide (op = "not in")) := by
  by_cases hin : op = "in"
  · by_cases hconst : (!value.isArray || value.isEmpty) = true <;>
      simp [inListCond, hin, hconst, Except.isOk, Except.toBool]
  · by_cases hnotin : op = "not in"
    · by_cases hconst : (!value.isArray || value.isEmpty) = true <;>
        simp [inListCond, hnotin, hconst, Except.isOk, Except.toBool]
    · simp [inListCond, hin, hnotin, Except.isOk, Except.toBool]

lemma leafCond_isOk (value : Json) (params : List String) :
    (leafCond col op value params).isOk = supportedOp op := by
  unfold leafCond supportedOp
  rw [← comparison_isSome op value]
  by_cases hnull : (op = "=" ∨ op = "=?") ∧ value.isNull
  · rw [if_pos hnull, comparison, sqlOperator, if_pos hnull.1]
    rfl
  rw [if_neg hnull]
  by_cases hnotnull : op = "!=" ∧ value.isNull
  · rw [if_pos hnotnull, hnotnull.1]
    rfl
  rw [if_neg hnotnull]
  rcases comparison op value with - | ⟨sqlOp, v⟩
  · exact inListCond_isOk col op value params
  · rfl

mutual

lemma compileCond_isOk (aliasName : String) (node : DomainNode) (params : List String) :
    (compileCond allowed aliasName node params).isOk = node.compiles allowed := by
  match node with
  | .leaf l =>
      simp only [compileCond, DomainNode.compiles, DomainLeaf.compiles]
      rcases sanitizeColumn l.field allowed with e | bare
      · rfl
      · exact leafCond_isOk _ _ _ _
  | .and [] => rfl
  | .and (child :: rest) =>
      rw [compileCond, DomainNode.compiles, ← compileConds_isOk aliasName (child :: rest) params]
      · rcases compileConds allowed aliasName (child :: rest) params with e | ⟨cs, ps⟩ <;> rfl
      · exact cons_ne_nil _ _
  | .or [] => rfl
  | .or (child :: rest) =>
      rw [compileCond, DomainNode.compiles, ← compileConds_isOk aliasName (child :: rest) params]
      · rcases compileConds allowed aliasName (child :: rest) params with e | ⟨cs, ps⟩ <;> rfl
      · exact cons_ne_nil _ _
  | .not child =>
      rw [compileCond, DomainNode.compiles, ← compileCond_isOk aliasName child params]
      rcases compileCond allowed aliasName child params with e | ⟨c, ps⟩ <;> rfl

lemma compileConds_isOk (aliasName : String) (children : List DomainNode)
    (params : List String) :
    (compileConds allowed aliasName children params).isOk
      = DomainNode.allCompile allowed children := by
  match children with
  | [] => rfl
  | child :: rest =>
      rw [compileConds, DomainNode.allCompile, ← compileCond_isOk aliasName child params]
      rcases compileCond allowed aliasName child params with e | ⟨c, ps⟩
      · rfl
      · rw [← compileConds_isOk aliasName rest ps]
        dsimp only
        rcases compileConds allowed aliasName rest ps with e | ⟨cs, ps'⟩ <;> rfl

end

variable {Row : Type*} (I : Interp Row) (row : Row)

/-- The domain compiles, and its condition holds at the row. -/
def Domain.Satisfies (d : Domain) : Prop :=
  ∃ c params, d.toCond allowed "" = .ok (c, params) ∧ c.eval I params row = .true

variable (d : Domain)

lemma toCond_eq (aliasName : String) :
    d.toCond allowed aliasName = compileCond allowed aliasName d.root [] := by
  unfold Domain.toCond
  split
  · next h =>
      unfold Domain.isEmpty at h
      split at h
      · next hroot => rw [hroot]; rfl
      · cases h
  · rfl

/-- Satisfaction without the pass: the tree compiles and is true. -/
lemma satisfies_iff : d.Satisfies allowed I row ↔
      d.root.compiles allowed = true ∧ d.root.truth I "" row = .true := by
  unfold Domain.Satisfies
  rw [toCond_eq, ← compileCond_isOk allowed "" d.root []]
  rcases e : compileCond allowed "" d.root [] with err | ⟨c, params⟩
  · simp [Except.isOk, Except.toBool]
  · obtain ⟨-, ht⟩ := compileCond_truth I row allowed "" d.root e
    have ht' := ht []
    rw [append_nil] at ht'
    rw [← ht']
    simp [Except.isOk, Except.toBool]

variable (stack : List DomainNode)

/-- Several nodes on the stack are satisfied together. -/
lemma satisfies_domainOfStack : (domainOfStack stack).Satisfies allowed I row ↔
      ∀ n ∈ stack, n.compiles allowed = true ∧ n.truth I "" row = .true := by
  rw [satisfies_iff]
  have hall : ∀ s : List DomainNode, ((DomainNode.and s.reverse).compiles allowed = true ∧
        (DomainNode.and s.reverse).truth I "" row = .true) ↔
      ∀ n ∈ s, n.compiles allowed = true ∧ n.truth I "" row = .true := by
    intro s
    rw [DomainNode.compiles, allCompile_eq_all, DomainNode.truth, truths_eq_map, Truth.all_eq_true]
    simp only [all_reverse, all_eq_true, mem_map, mem_reverse,
      forall_exists_index, and_imp, forall_apply_eq_imp_iff₂]
    exact ⟨fun h n hn => ⟨h.1 n hn, h.2 n hn⟩, fun h => ⟨fun n hn => (h n hn).1,
      fun n hn => (h n hn).2⟩⟩
  rcases stack with - | ⟨n, - | ⟨m, stack⟩⟩
  · exact hall []
  · simp [domainOfStack]
  · exact hall (n :: m :: stack)

omit [FloatText] in
/-- Several nodes on the stack compile together. -/
lemma compiles_domainOfStack : (domainOfStack stack).root.compiles allowed = true ↔
      ∀ n ∈ stack, n.compiles allowed = true := by
  have hall : ∀ s : List DomainNode, (DomainNode.and s.reverse).compiles allowed = true ↔
      ∀ n ∈ s, n.compiles allowed = true := by
    intro s
    rw [DomainNode.compiles, allCompile_eq_all, all_reverse, all_eq_true]
  rcases stack with - | ⟨n, - | ⟨m, stack⟩⟩
  · exact hall []
  · simp [domainOfStack]
  · exact hall (n :: m :: stack)

omit [FloatText] in
lemma DomainLeaf.compiles_none {l : DomainLeaf} (h : l.compiles allowed = true) :
    l.compiles none = true := by
  unfold DomainLeaf.compiles at h ⊢
  rw [Bool.and_eq_true_iff] at h ⊢
  refine ⟨?_, h.2⟩
  rcases e : sanitizeColumn l.field allowed with err | bare
  · rw [e] at h
    cases h.1
  · unfold sanitizeColumn at e ⊢
    split at e
    · next hid =>
        rw [if_pos hid]
        rfl
    · cases e

omit [FloatText] in
mutual

/-- What compiles for some columns compiles for all. -/
lemma DomainNode.compiles_none (n : DomainNode) (h : n.compiles allowed = true) :
    n.compiles none = true := by
  match n with
  | .leaf l => exact DomainLeaf.compiles_none allowed h
  | .and children => exact DomainNode.allCompile_none children h
  | .or children => exact DomainNode.allCompile_none children h
  | .not child => exact DomainNode.compiles_none child h

lemma DomainNode.allCompile_none (children : List DomainNode)
    (h : DomainNode.allCompile allowed children = true) :
    DomainNode.allCompile none children = true := by
  match children with
  | [] => rfl
  | child :: rest =>
      rw [DomainNode.allCompile, Bool.and_eq_true_iff] at h ⊢
      exact ⟨DomainNode.compiles_none child h.1, DomainNode.allCompile_none rest h.2⟩

end

omit [FloatText] in
/-- What a combinator is built from compiles with it. -/
lemma compiles_operands {item : Json} {n : ℕ} {operands : List DomainNode}
    (ha : domainSignature.arity item = .ok n) (hlen : operands.length = n)
    (h : (domainSignature.build item operands).compiles allowed = true) :
    ∀ x ∈ operands, x.compiles allowed = true := by
  intro x hx
  have hall : ∀ children : List DomainNode, DomainNode.allCompile allowed children = true →
      ∀ y ∈ children, y.compiles allowed = true := by
    intro children hc
    rw [allCompile_eq_all, all_eq_true] at hc
    exact hc
  simp only [domainSignature] at ha h
  cases item with
  | str op =>
      simp only [itemArity, itemNode] at ha h
      by_cases hand : op = "&"
      · rw [if_pos hand] at h
        exact hall _ h x (mem_reverse.mpr hx)
      · by_cases hor : op = "|"
        · rw [if_neg hand, if_pos hor] at h
          exact hall _ h x (mem_reverse.mpr hx)
        · rw [if_neg hand, if_neg hor] at ha h
          split at ha
          · rw [Except.ok.injEq] at ha
            obtain ⟨y, rfl⟩ : ∃ y, operands = [y] := length_eq_one_iff.mp (by omega)
            obtain rfl := mem_singleton.mp hx
            exact h
          · cases ha
  | _ =>
      -- a leaf takes no operands
      simp only [itemArity, Except.map] at ha
      split at ha
      · cases ha
      · rw [Except.ok.injEq] at ha
        rw [← ha] at hlen
        rw [length_eq_zero_iff.mp hlen] at hx
        cases hx

lemma Domain.satisfies_none {d : Domain} (h : d.Satisfies allowed I row) :
    d.Satisfies none I row := by
  rw [satisfies_iff] at h ⊢
  exact ⟨d.root.compiles_none allowed h.1, h.2⟩

/-- A compiled condition holds where the domain is satisfied. -/
lemma Domain.satisfies_of_toCond {d : Domain} {c : Cond} {params : List String}
    (h : d.toCond allowed "" = .ok (c, params)) :
    d.Satisfies allowed I row ↔ c.eval I params row = .true := by
  unfold Domain.Satisfies
  rw [h]
  simp

lemma Domain.toCond_isOk :
    (∃ c params, d.toCond allowed "" = .ok (c, params)) ↔ d.root.compiles allowed = true := by
  rw [toCond_eq, ← compileCond_isOk allowed "" d.root []]
  rcases compileCond allowed "" d.root [] with err | ⟨c, params⟩
  · simp [Except.isOk, Except.toBool]
  · simp [Except.isOk, Except.toBool]

end Satisfies

end CErp
