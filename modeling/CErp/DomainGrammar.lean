/-
The prefix notation of domains as a grammar, read from left to right.

`DomainExpr` is a complete expression: a leaf, `&` and `|` with two operands
behind them, `!` with one.  The parser walks the items backwards with a stack;
it accepts the sequences of complete expressions and no others
(`run_prefix_iff`), and the tree it builds says of a row what all of them say
(`domainFromJson_denotes`).
-/
import CErp.SearchConditions

namespace CErp

open Sql List PrefixStack

/-! ### Expressions -/

/-- A complete expression in prefix notation. -/
inductive DomainExpr where
  | leaf (l : DomainLeaf)
  | and (a b : DomainExpr)
  | or (a b : DomainExpr)
  | not (a : DomainExpr)

namespace DomainExpr

/-- The items an expression is written as. -/
def items : DomainExpr → List Json
  | .leaf l => [.arr [.str l.field, .str l.op, l.value]]
  | .and a b => .str "&" :: (a.items ++ b.items)
  | .or a b => .str "|" :: (a.items ++ b.items)
  | .not a => .str "!" :: a.items

/-- What an expression says of a row. -/
def truth [FloatText] {Row : Type*} (I : Interp Row) (aliasName : String) (row : Row) :
    DomainExpr → Truth
  | .leaf l => l.truth I aliasName row
  | .and a b => (a.truth I aliasName row).and (b.truth I aliasName row)
  | .or a b => (a.truth I aliasName row).or (b.truth I aliasName row)
  | .not a => (a.truth I aliasName row).not

/-- The node the parser builds: the operand that is read last comes first. -/
def node : DomainExpr → DomainNode
  | .leaf l => .leaf l
  | .and a b => .and [b.node, a.node]
  | .or a b => .or [b.node, a.node]
  | .not a => .not a.node

lemma node_truth [FloatText] {Row : Type*} (I : Interp Row) (aliasName : String) (row : Row)
    (e : DomainExpr) : e.node.truth I aliasName row = e.truth I aliasName row := by
  induction e with
  | leaf l => rfl
  | and a b iha ihb =>
      show (b.node.truth I aliasName row).and ((a.node.truth I aliasName row).and .true) = _
      rw [iha, ihb, Truth.and_true, Truth.and_comm]
      rfl
  | or a b iha ihb =>
      show (b.node.truth I aliasName row).or ((a.node.truth I aliasName row).or .false) = _
      rw [iha, ihb, Truth.or_false, Truth.or_comm]
      rfl
  | not a iha =>
      show (a.node.truth I aliasName row).not = _
      rw [iha]
      rfl

/-! ### What the parser accepts -/

/-- An expression leaves its node on the stack. -/
lemma run_items (e : DomainExpr) : domainSignature.run e.items = .ok [e.node] := by
  have htwo : ∀ {a b : DomainExpr}, domainSignature.run a.items = .ok [a.node] →
      domainSignature.run b.items = .ok [b.node] →
      domainSignature.runOn (a.items ++ b.items) [] = .ok [a.node, b.node] := by
    intro a b ha hb
    have hb' : domainSignature.runOn b.items [] = .ok [b.node] := hb
    rw [runOn_append, hb']
    exact runOn_of_run ha [b.node]
  induction e with
  | leaf l => rfl
  | and a b iha ihb =>
      show (domainSignature.runOn (a.items ++ b.items) []).bind _ = _
      rw [htwo iha ihb]
      rfl
  | or a b iha ihb =>
      show (domainSignature.runOn (a.items ++ b.items) []).bind _ = _
      rw [htwo iha ihb]
      rfl
  | not a iha =>
      have ha : domainSignature.runOn a.items [] = .ok [a.node] := iha
      show (domainSignature.runOn a.items []).bind _ = _
      rw [ha]
      rfl

/-- Expressions one behind the other leave their nodes, the first one on top. -/
lemma run_flatMap_items (es : List DomainExpr) :
    domainSignature.run (es.flatMap items) = .ok (es.map node) := by
  induction es with
  | nil => rfl
  | cons e es ih =>
      have ih' : domainSignature.runOn (es.flatMap items) [] = .ok (es.map node) := ih
      rw [flatMap_cons, Signature.run, runOn_append, ih']
      exact runOn_of_run e.run_items _

lemma string_of_getString {j : Json} {text : String} (h : j.getString = .ok text) :
    j = .str text := by
  cases j with
  | str s =>
      cases h
      rfl
  | _ => cases h

/-- Only a triple that begins with two strings is a leaf. -/
lemma leaf_of_parse {item : Json} {n : DomainNode} (h : parseLeaf item = .ok n) :
    ∃ l : DomainLeaf, item = .arr [.str l.field, .str l.op, l.value] ∧ n = .leaf l := by
  unfold parseLeaf at h
  split at h
  · next field op value =>
      split at h
      · next f o hf ho =>
          cases h
          rw [string_of_getString hf, string_of_getString ho]
          exact ⟨⟨f, o, value⟩, rfl, rfl⟩
      · cases h
      · cases h
  · cases h

/-- An item turns the expressions behind it into expressions. -/
lemma expr_of_step {item : Json} {es : List DomainExpr} {s : List DomainNode}
    (h : pushItem (es.map node) item = .ok s) :
    ∃ es' : List DomainExpr, item :: es.flatMap items = es'.flatMap items ∧ s = es'.map node := by
  cases item with
  | str op =>
      unfold pushItem at h
      dsimp only at h
      split_ifs at h with hand hor hnot
      · rcases es with - | ⟨a, - | ⟨b, es⟩⟩
        · cases h
        · cases h
        · cases h
          refine ⟨.and a b :: es, ?_, rfl⟩
          rw [hand, flatMap_cons, flatMap_cons, flatMap_cons, ← append_assoc]
          rfl
      · rcases es with - | ⟨a, - | ⟨b, es⟩⟩
        · cases h
        · cases h
        · cases h
          refine ⟨.or a b :: es, ?_, rfl⟩
          rw [hor, flatMap_cons, flatMap_cons, flatMap_cons, ← append_assoc]
          rfl
      · rcases es with - | ⟨a, es⟩
        · cases h
        · cases h
          refine ⟨.not a :: es, ?_, rfl⟩
          rw [hnot, flatMap_cons, flatMap_cons]
          rfl
  | _ =>
      simp only [pushItem] at h
      split at h
      · next n hleaf =>
          cases h
          obtain ⟨l, hitem, rfl⟩ := leaf_of_parse hleaf
          exact ⟨.leaf l :: es, by rw [hitem, flatMap_cons]; rfl, rfl⟩
      · cases h

/-- **The parser accepts the sequences of complete expressions.** -/
theorem run_prefix_iff {items : List Json} {s : List DomainNode} :
    domainSignature.run items = .ok s ↔
      ∃ es : List DomainExpr, items = es.flatMap DomainExpr.items ∧ s = es.map node := by
  constructor
  · intro h
    induction items generalizing s with
    | nil =>
        cases h
        exact ⟨[], rfl, rfl⟩
    | cons item items ih =>
        obtain ⟨m, hm, hstep⟩ := runOn_cons_ok h
        obtain ⟨es, rfl, rfl⟩ := ih hm
        rw [← pushItem_eq_step] at hstep
        exact expr_of_step hstep
  · rintro ⟨es, rfl, rfl⟩
    exact run_flatMap_items es

end DomainExpr

/-! ### What a parsed domain means -/

section Meaning

variable [FloatText] {Row : Type*} (I : Interp Row) (aliasName : String) (row : Row)

/-- The domain of a stack says what all its nodes say. -/
lemma domainOfStack_truth (s : List DomainNode) : (domainOfStack s).root.truth I aliasName row =
      Truth.all (s.map fun n => n.truth I aliasName row) := by
  rcases s with - | ⟨n, - | ⟨n', s⟩⟩
  · rfl
  · exact (Truth.and_true _).symm
  · show Truth.all (DomainNode.truths I aliasName row (n :: n' :: s).reverse) = _
    rw [truths_eq_map, map_reverse]
    exact Truth.all_perm (reverse_perm _)

omit [FloatText] in
lemma domainFromJson_flatMap (es : List DomainExpr) :
    domainFromJson (.arr (es.flatMap DomainExpr.items)) =
      .ok (domainOfStack (es.map DomainExpr.node)) := by
  rw [domainFromJson_arr, parseItems_eq_run, DomainExpr.run_flatMap_items]
  rfl

end Meaning

/-- **A domain is accepted when it is a sequence of complete prefix expressions**,
and then it says of every row what all of them say: as a tree, and as the
condition it is compiled to. -/
theorem domainFromJson_denotes [FloatText] (items : List Json) :
    ((∃ d, domainFromJson (.arr items) = .ok d) ↔
      ∃ es : List DomainExpr, items = es.flatMap DomainExpr.items) ∧
    ∀ es : List DomainExpr, items = es.flatMap DomainExpr.items →
      ∃ d, domainFromJson (.arr items) = .ok d ∧
        ∀ (Row : Type) (I : Interp Row) (aliasName : String) (row : Row),
          d.root.truth I aliasName row = Truth.all (es.map fun e => e.truth I aliasName row) ∧
          ∀ (allowed : Option (List String)) (r : SqlResult), d.toSql allowed aliasName = .ok r →
            ∃ c : Cond, r.clause = c.text ∧ ∀ more, c.eval I (r.params ++ more) row =
                Truth.all (es.map fun e => e.truth I aliasName row) := by
  constructor
  · rw [domainFromJson_isOk_iff]
    constructor
    · rintro ⟨s, hs⟩
      obtain ⟨es, hes, -⟩ := DomainExpr.run_prefix_iff.mp hs
      exact ⟨es, hes⟩
    · rintro ⟨es, hes⟩
      exact ⟨_, DomainExpr.run_prefix_iff.mpr ⟨es, hes, rfl⟩⟩
  · rintro es rfl
    refine ⟨_, domainFromJson_flatMap es, ?_⟩
    intro Row I aliasName row
    have htruth : (domainOfStack (es.map DomainExpr.node)).root.truth I aliasName row =
        Truth.all (es.map fun e => e.truth I aliasName row) := by
      rw [domainOfStack_truth, map_map]
      exact congrArg Truth.all
        (map_congr_left fun e _ => e.node_truth I aliasName row)
    refine ⟨htruth, ?_⟩
    intro allowed r h
    rw [toSql_eq] at h
    obtain ⟨⟨c, ps⟩, hc, rfl⟩ := Outcome.map_ok_iff.mp h
    refine ⟨c, rfl, fun more => ?_⟩
    rw [← htruth]
    exact (compileCond_truth I row allowed aliasName _ hc).2 more

end CErp
