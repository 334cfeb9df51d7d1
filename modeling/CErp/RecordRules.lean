/-
The merge of the caller's domain with the record rules.

`BaseModel::mergeRuleDomain_` appends the items of the rule domain to the
caller's items and has the whole parsed as one prefix program.  The program is
read from the right, so the rule's nodes are on the stack when the caller's
items run; whether they are still there at the end depends on the caller's
items alone (`mergeRuleDomain_intact_iff`).
-/
import CErp.DomainSql
import CErp.RuleEngine

namespace CErp

open Sql List PrefixStack Json

/-- The caller's domain with the applicable rules appended.  There are no
rules before the engine is initialized. -/
def mergeRuleDomain (engine : Option RuleEngine) (modelName : String) (ctx : UserContext)
    (userDomain : Json) (op : RuleOp) : Except String Json :=
  match engine with
  | none => .ok userDomain
  | some engine =>
      let ruleDomain := engine.buildRuleDomain modelName op ctx
      if ruleDomain.isEmpty then .ok userDomain
      else ruleDomain.items.foldlM pushBack userDomain

lemma mergeRuleDomain_arr {engine : RuleEngine} {modelName : String} {ctx : UserContext}
    {op : RuleOp} {r : List Json} (hr : engine.buildRuleDomain modelName op ctx = .arr r)
    (u : List Json) :
    mergeRuleDomain (some engine) modelName ctx (.arr u) op = .ok (.arr (u ++ r)) := by
  unfold mergeRuleDomain
  simp only [hr]
  by_cases hempty : (Json.arr r).isEmpty
  · rw [if_pos hempty, List.isEmpty_iff.mp hempty, append_nil]
  · rw [if_neg hempty]
    exact foldlM_pushBack_arr u r

lemma items_of_isEmpty {j : Json} (h : j.isEmpty = true) : j.items = [] := by
  cases j with
  | null => rfl
  | arr items => exact List.isEmpty_iff.mp h
  | obj fields => exact map_eq_nil_iff.mpr (List.isEmpty_iff.mp h)
  | _ => cases h

/-! ### Parsing what was merged -/

/-- The caller's items run on the stack the rule's items leave. -/
lemma parseItems_append {u r : List Json} {s : List DomainNode}
    (h : parseItems (u ++ r) = .ok s) :
    ∃ base, parseItems r = .ok base ∧ domainSignature.runOn u base = .ok s := by
  rw [parseItems_eq_run] at h
  obtain ⟨base, hbase, hs⟩ := runOn_append_ok h
  exact ⟨base, (parseItems_eq_run r).trans hbase, hs⟩

lemma domainFromJson_ok {items : List Json} {d : Domain} (hne : items ≠ [])
    (h : domainFromJson (.arr items) = .ok d) :
    ∃ s, parseItems items = .ok s ∧ d = domainOfStack s := by
  rcases items with - | ⟨item, items⟩
  · exact absurd rfl hne
  · rw [domainFromJson] at h
    rcases e : parseItems (item :: items) with err | s
    · rw [e] at h; cases h
    · rw [e] at h
      cases h
      exact ⟨s, rfl, rfl⟩

lemma domainFromJson_isOk_iff (items : List Json) :
    (∃ d, domainFromJson (.arr items) = .ok d) ↔ ∃ s, domainSignature.run items = .ok s := by
  rw [← parseItems_eq_run]
  rcases items with - | ⟨item, items⟩
  · exact ⟨fun _ => ⟨[], rfl⟩, fun _ => ⟨{}, rfl⟩⟩
  · rw [domainFromJson]
    rcases parseItems (item :: items) with e | s
    · simp [Except.map]
    · simp [Except.map]

/-! ### The rule's nodes on the stack -/

/-- The nodes of the rule are on the stack of the merged program as they are
on the rule's own: no operator of the caller took one for its operand. -/
def RuleIntact (u r : List Json) : Prop :=
  ∃ base s, parseItems r = .ok base ∧ parseItems (u ++ r) = .ok s ∧ base <:+ s

/-- Every row the merged domain is satisfied by satisfies the rule. -/
def NeverWidens [FloatText] (Row : Type*) (merged rule : Domain) : Prop :=
  ∀ (allowed : Option (List String)) (I : Interp Row) (row : Row),
    merged.Satisfies allowed I row → rule.Satisfies allowed I row

/-- The rule's nodes stay intact exactly when every operator of the caller
finds its operands among the caller's own items. -/
lemma ruleIntact_iff {u r : List Json} {s : List DomainNode}
    (h : parseItems (u ++ r) = .ok s) :
    RuleIntact u r ↔ ∃ d, domainFromJson (.arr u) = .ok d := by
  obtain ⟨base, hbase, hs⟩ := parseItems_append h
  rw [domainFromJson_isOk_iff, ← runOn_intact_iff sizeOf_lt_build hs]
  constructor
  · rintro ⟨base', s', hbase', hs', hsuf⟩
    rw [hbase, Except.ok.injEq] at hbase'
    rw [h, Except.ok.injEq] at hs'
    rw [hbase', hs']
    exact hsuf
  · intro hsuf
    exact ⟨base, s, hbase, h, hsuf⟩

/-- With the rule's nodes intact, the merged domain is the conjunction of the
rule with the caller's nodes. -/
lemma neverWidens_of_intact [FloatText] (Row : Type*) {u r : List Json}
    (hr : r ≠ []) {merged rule : Domain}
    (hmerged : domainFromJson (.arr (u ++ r)) = .ok merged)
    (hrule : domainFromJson (.arr r) = .ok rule) (h : RuleIntact u r) :
    NeverWidens Row merged rule := by
  obtain ⟨base, s, hbase, hs, pre, rfl⟩ := h
  obtain ⟨base', hbase', rfl⟩ := domainFromJson_ok hr hrule
  obtain ⟨s', hs', rfl⟩ :=
    domainFromJson_ok (fun h => hr (append_eq_nil_iff.mp h).2) hmerged
  rw [hbase, Except.ok.injEq] at hbase'
  rw [hs, Except.ok.injEq] at hs'
  subst hbase' hs'
  intro allowed I row hsat
  rw [satisfies_domainOfStack] at hsat ⊢
  exact fun n hn => hsat n (mem_append_right pre hn)

/-! ### What the merge guarantees -/

/-- **The merge keeps the rules exactly when the caller's domain parses on its
own.**  For every rule set, user and caller's domain whose merge parses: every
row found satisfies the rule and no operator of the caller takes a node of the
rule, if and only if the caller's items are a program of their own. -/
theorem mergeRuleDomain_keeps_rule_iff [FloatText] (Row : Type*) (engine : RuleEngine)
    (modelName : String) (op : RuleOp) (ctx : UserContext) (u r : List Json)
    (mergedJson : Json) (merged rule : Domain)
    (hbuild : engine.buildRuleDomain modelName op ctx = .arr r) (hne : r ≠ [])
    (hrule : domainFromJson (.arr r) = .ok rule)
    (hmerge : mergeRuleDomain (some engine) modelName ctx (.arr u) op = .ok mergedJson)
    (hparse : domainFromJson mergedJson = .ok merged) :
    (NeverWidens Row merged rule ∧ RuleIntact u r) ↔ ∃ own, domainFromJson (.arr u) = .ok own := by
  rw [mergeRuleDomain_arr hbuild u, Except.ok.injEq] at hmerge
  subst hmerge
  obtain ⟨s, hs, -⟩ :=
    domainFromJson_ok (fun h => hne (append_eq_nil_iff.mp h).2) hparse
  rw [← ruleIntact_iff hs]
  constructor
  · exact fun h => h.2
  · exact fun h => ⟨neverWidens_of_intact Row hne hparse hrule h, h⟩

/-- One rule for everybody: records of the calling user only. -/
def ownRecords : RuleEngine where
  loadRules _ := [{
    domainForce := .arr [.arr [.str "user_id", .str "=", .str "user.id"]]
    permRead := true, permWrite := true, permCreate := true, permUnlink := true
    globalRule := true, active := true, groupIds := [] }]

def ownLeaf : Json := .arr [.str "user_id", .str "=", .num 7]

def draftLeaf : Json := .arr [.str "state", .str "=", .str "draft"]

/-- A well-formed caller's domain under the own-records rule. -/
theorem mergeRuleDomain_keeps_rule_draft : (@NeverWidens wholeFloatText Unit
        ⟨.and [.leaf ⟨"user_id", "=", .num 7⟩, .leaf ⟨"state", "=", .str "draft"⟩]⟩
        ⟨.leaf ⟨"user_id", "=", .num 7⟩⟩ ∧ RuleIntact [draftLeaf] [ownLeaf]) ↔
      ∃ own, domainFromJson (.arr [draftLeaf]) = .ok own :=
  @mergeRuleDomain_keeps_rule_iff wholeFloatText Unit ownRecords "sale.order" .read
    { uid := 7 } [draftLeaf] [ownLeaf] _ _ _ rfl (cons_ne_nil _ _) rfl rfl rfl

/-- The comparison of an integer column whose value is the row itself. -/
def columnIs : Interp String where
  isNull _ _ := false
  compare _ _ v row := Truth.ofBool (v = row)

/-- A lone `!` turns the rule into its negation: user 7 finds the records of
user 8. -/
theorem mergeRuleDomain_negated_rule :
    ¬ ∀ (text : FloatText) (engine : RuleEngine) (ctx : UserContext) (u r : List Json)
      (mergedJson : Json) (merged rule : Domain),
      engine.buildRuleDomain "sale.order" .read ctx = .arr r → r ≠ [] →
      domainFromJson (.arr r) = .ok rule →
      mergeRuleDomain (some engine) "sale.order" ctx (.arr u) .read = .ok mergedJson →
      domainFromJson mergedJson = .ok merged →
      @NeverWidens text String merged rule ∧ RuleIntact u r := by
  intro h
  have hnot := (h wholeFloatText ownRecords { uid := 7 } [.str "!"] [ownLeaf] _
    ⟨.not (.leaf ⟨"user_id", "=", .num 7⟩)⟩ ⟨.leaf ⟨"user_id", "=", .num 7⟩⟩
    rfl (cons_ne_nil _ _) rfl rfl rfl).1
  let _ := wholeFloatText
  have hsat := hnot none columnIs "8" ⟨.not (.compare "user_id" "=" 1), ["7"], rfl, by decide⟩
  rw [satisfies_iff] at hsat
  exact absurd hsat.2 (by decide)

end CErp
