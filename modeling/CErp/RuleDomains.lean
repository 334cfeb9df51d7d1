/-
What the combined domain of the record rules means.

Rules are combined as raw prefix programs.  For AND that is sound: programs
that parse on their own may be put one after the other.  For OR the items of
each side are grouped by one `&` for every item but the first, which is right
for a list of leaves and asks for too much as soon as the side has an operator.
The result of an OR has one, so a third domain is never combined
(`domainOr_foldl_rejected`); and an empty domain, which means TRUE, is dropped
from the OR as if it meant FALSE.
-/
import CErp.ModelSearch

namespace CErp

open PrefixStack List Json DomainNode

/-! ### Domains as programs -/

/-- The items of a domain; what is no array has none. -/
def programOf : Json → List Json
  | .arr items => items
  | _ => []

lemma noDomain_iff {d : Json} : noDomain d = true ↔ programOf d = [] := by
  cases d with
  | arr items =>
      show (!true || items.isEmpty) = true ↔ items = []
      simp
  | _ => simp [noDomain, programOf, isArray]

lemma domainFromJson_eq (d : Json) :
    domainFromJson d = (domainSignature.run (programOf d)).map domainOfStack := by
  rcases e : programOf d with - | ⟨item, items⟩
  · cases d with
    | arr items =>
        rw [show items = [] from e]
        rfl
    | _ => rfl
  · cases d with
    | arr items' =>
        rw [show items' = item :: items from e, domainFromJson, parseItems_eq_run]
    | _ => cases e

/-- The domain parses. -/
def Parses (d : Json) : Prop := ∃ dom, domainFromJson d = .ok dom

lemma parses_iff {d : Json} : Parses d ↔ ∃ s, domainSignature.run (programOf d) = .ok s := by
  unfold Parses
  rw [domainFromJson_eq]
  rcases domainSignature.run (programOf d) with e | s
  · simp [Except.map]
  · simp [Except.map]

/-! ### The rules appended -/

section Appended

/-- The items of the rules that apply to a search. -/
def ruleItems (engine : Option RuleEngine) (m : ServedModel) (c : Caller) : List Json :=
  match engine with
  | none => []
  | some e => (e.buildRuleDomain m.derived.modelName .read c.ctx).items

variable {m : ServedModel} {engine : Option RuleEngine} {c : Caller} {domainJson : Json}

lemma merge_arr (items : List Json) :
    mergeRuleDomain engine m.derived.modelName c.ctx (.arr items) .read =
      .ok (.arr (items ++ ruleItems engine m c)) := by
  unfold mergeRuleDomain ruleItems
  rcases engine with - | e
  · rw [append_nil]
  · dsimp only
    split
    · next hempty => rw [items_of_isEmpty hempty, append_nil]
    · exact foldlM_pushBack_arr items _

/-- The rules come after the caller's items. -/
lemma programOf_merge {merged : Json}
    (h : mergeRuleDomain engine m.derived.modelName c.ctx domainJson .read = .ok merged) :
    programOf merged = programOf domainJson ++ ruleItems engine m c := by
  rcases engine with - | e
  · cases h
    exact (append_nil _).symm
  unfold mergeRuleDomain at h
  dsimp only at h
  split at h
  · next hempty =>
      cases h
      have hnone : ruleItems (some e) m c = [] := items_of_isEmpty hempty
      rw [hnone, append_nil]
  have hpush : (ruleItems (some e) m c).foldlM pushBack domainJson = .ok merged := h
  generalize ruleItems (some e) m c = rules at hpush ⊢
  rcases rules with - | ⟨x, xs⟩
  · cases hpush
    exact (append_nil _).symm
  rcases domainJson with - | b | n | y | t | items | fields
  case arr =>
    rw [foldlM_pushBack_arr] at hpush
    cases hpush
    rfl
  case null =>
    have hfold : xs.foldlM pushBack (.arr [x]) = .ok merged := hpush
    rw [foldlM_pushBack_arr] at hfold
    cases hfold
    rfl
  -- nothing is pushed on the other kinds
  all_goals cases hpush

end Appended

/-! ### Meaning -/

section Meaning

variable [FloatText] {Row : Type*} (I : Sql.Interp Row) (row : Row)

/-- A node is true at the row. -/
def DomainNode.Holds (n : DomainNode) : Prop := n.truth I "" row = .true

def Domain.Holds (d : Domain) : Prop := d.root.Holds I row

/-- The row satisfies the domain that the JSON parses to. -/
def SatisfiedBy (d : Json) : Prop := ∃ dom, domainFromJson d = .ok dom ∧ dom.Holds I row

lemma holds_and (ns : List DomainNode) :
    (DomainNode.and ns).Holds I row ↔ ∀ n ∈ ns, n.Holds I row := by
  unfold Holds
  rw [truth, truths_eq_map, Sql.Truth.all_eq_true]
  simp

lemma holds_or (ns : List DomainNode) :
    (DomainNode.or ns).Holds I row ↔ ∃ n ∈ ns, n.Holds I row := by
  unfold Holds
  rw [truth, truths_eq_map, Sql.Truth.any_eq_true]
  simp

/-- The top-level nodes are an implicit AND. -/
lemma holds_domainOfStack (s : List DomainNode) :
    (domainOfStack s).Holds I row ↔ ∀ n ∈ s, n.Holds I row := by
  unfold Domain.Holds
  rcases s with - | ⟨n, - | ⟨m, s⟩⟩
  · exact holds_and I row []
  · simp [domainOfStack]
  · show (DomainNode.and (n :: m :: s).reverse).Holds I row ↔ _
    rw [holds_and]
    simp only [mem_reverse]

lemma satisfiedBy_iff {d : Json} {s : List DomainNode}
    (h : domainSignature.run (programOf d) = .ok s) :
    SatisfiedBy I row d ↔ ∀ n ∈ s, n.Holds I row := by
  unfold SatisfiedBy
  rw [domainFromJson_eq, h, ← holds_domainOfStack]
  show (∃ dom, Except.ok (domainOfStack s) = .ok dom ∧ _) ↔ _
  simp

/-- The empty domain is TRUE. -/
lemma satisfiedBy_of_noDomain {d : Json} (h : noDomain d = true) : SatisfiedBy I row d := by
  have hrun : domainSignature.run (programOf d) = .ok [] := by
    rw [noDomain_iff.mp h]
    rfl
  rw [satisfiedBy_iff I row hrun]
  simp

end Meaning

/-! ### AND -/

lemma programOf_domainAnd (d e : Json) :
    programOf (domainAnd d e) = programOf d ++ programOf e := by
  unfold domainAnd
  by_cases hd : noDomain d = true
  · rw [if_pos hd, noDomain_iff.mp hd, nil_append]
  · rw [if_neg hd]
    by_cases he : noDomain e = true
    · rw [if_pos he, noDomain_iff.mp he, append_nil]
    · rw [if_neg he]
      cases d with
      | arr ds =>
          cases e with
          | arr es => rfl
          | _ => exact absurd rfl he
      | _ => exact absurd rfl hd

/-- Two programs of their own, one after the other. -/
lemma run_domainAnd {d e : Json} {s t : List DomainNode}
    (hd : domainSignature.run (programOf d) = .ok s)
    (he : domainSignature.run (programOf e) = .ok t) :
    domainSignature.run (programOf (domainAnd d e)) = .ok (s ++ t) := by
  rw [programOf_domainAnd, Signature.run, runOn_append]
  rw [Signature.run] at he
  rw [he]
  exact runOn_of_run hd t

section Meaning

variable [FloatText] {Row : Type*}

/-- Global rules are subtractive. -/
lemma run_foldl_domainAnd {ds : List Json} (hds : ∀ d ∈ ds, Parses d) {d₀ : Json}
    {s₀ : List DomainNode} (h₀ : domainSignature.run (programOf d₀) = .ok s₀) :
    ∃ s, domainSignature.run (programOf (ds.foldl domainAnd d₀)) = .ok s ∧
      ∀ (I : Sql.Interp Row) (row : Row), (∀ n ∈ s, n.Holds I row) ↔
        (∀ n ∈ s₀, n.Holds I row) ∧ ∀ d ∈ ds, SatisfiedBy I row d := by
  induction ds generalizing d₀ s₀ with
  | nil => exact ⟨s₀, h₀, fun I row => by simp⟩
  | cons d ds ih =>
      obtain ⟨t, ht⟩ := parses_iff.mp (hds d mem_cons_self)
      obtain ⟨s, hs, hiff⟩ :=
        ih (fun e he => hds e (mem_cons_of_mem d he)) (run_domainAnd h₀ ht)
      refine ⟨s, hs, ?_⟩
      intro I row
      rw [hiff, forall_mem_append, and_assoc, ← satisfiedBy_iff I row ht]
      simp

end Meaning

/-! ### OR -/

/-- Every item is a leaf. -/
def leavesOnly (d : Json) : Bool := (programOf d).all isArray

lemma isArray_iff_arity {item : Json} {n : ℕ} (h : itemArity item = .ok n) :
    item.isArray = true ↔ n = 0 := by
  cases item with
  | str op =>
      rw [itemArity] at h
      have hn : n ≠ 0 := by
        split at h
        · cases h
          decide
        · split at h
          · cases h
            decide
          · split at h
            · cases h
              decide
            · cases h
      simp [isArray, hn]
  | arr items =>
      have hn : n = 0 := by
        have h : (parseLeaf (.arr items)).map (fun _ => 0) = .ok n := h
        rcases e : parseLeaf (.arr items) with err | node
        · rw [e] at h
          cases h
        · rw [e] at h
          cases h
          rfl
      simp [isArray, hn]
  | _ => cases h

/-- Leaves take no operands, everything else takes some. -/
lemma leavesOnly_iff {d : Json} {s : List DomainNode}
    (h : domainSignature.run (programOf d) = .ok s) :
    leavesOnly d = true ↔ domainSignature.demand (programOf d) = 0 := by
  unfold leavesOnly Signature.demand
  rw [List.all_eq_true, List.sum_eq_zero_iff_forall_eq_nat]
  simp only [mem_map, forall_exists_index, and_imp, forall_apply_eq_imp_iff₂]
  refine forall₂_congr fun item hitem => ?_
  obtain ⟨n, hn⟩ := arity_of_runOn h item hitem
  rw [isArray_iff_arity hn, hn]
  rfl

lemma programOf_domainOr {d e : Json} (hd : noDomain d = false) (he : noDomain e = false) :
    programOf (domainOr d e) = .str "|" :: (grouping (programOf d) ++ grouping (programOf e)) := by
  cases d with
  | arr ds =>
      cases e with
      | arr es =>
          rw [domainOr, hd, he]
          rfl
      | _ => cases he
  | _ => cases hd

lemma noDomain_domainOr {d e : Json} (hd : noDomain d = false) (he : noDomain e = false) :
    noDomain (domainOr d e) = false := by
  rw [← Bool.not_eq_true, noDomain_iff, programOf_domainOr hd he]
  exact cons_ne_nil _ _

lemma programOf_ne_nil {d : Json} (hd : noDomain d = false) : programOf d ≠ [] := by
  rw [ne_eq, ← noDomain_iff, hd]
  decide

lemma length_grouping {items : List Json} (hne : items ≠ []) :
    (grouping items).length + 1 = 2 * items.length := by
  have hpos : 0 < items.length := length_pos_of_ne_nil hne
  rw [grouping, length_append, length_replicate]
  omega

lemma demand_grouping {items : List Json} (hne : items ≠ []) :
    domainSignature.demand (grouping items) + 2 =
      2 * items.length + domainSignature.demand items := by
  have hpos : 0 < items.length := length_pos_of_ne_nil hne
  rw [grouping, demand_append, demand_replicate]
  show (items.length - 1) * 2 + _ + 2 = _
  omega

/-- **One OR.**  Two domains combine into one that parses only if they are lists
of leaves: every operator of a side is one more operand the grouping asks
for. -/
theorem leavesOnly_of_domainOr {d e : Json} (hd : noDomain d = false) (he : noDomain e = false)
    (h : Parses (domainOr d e)) :
    domainSignature.demand (programOf d) = 0 ∧ domainSignature.demand (programOf e) = 0 := by
  obtain ⟨s, hs⟩ := parses_iff.mp h
  rw [programOf_domainOr hd he, Signature.run] at hs
  have hlen := length_runOn hs
  have hpos : 0 < s.length :=
    length_pos_of_ne_nil (runOn_ne_nil (cons_ne_nil _ _) hs)
  have hld := length_grouping (programOf_ne_nil hd)
  have hle := length_grouping (programOf_ne_nil he)
  have hdd := demand_grouping (programOf_ne_nil hd)
  have hde := demand_grouping (programOf_ne_nil he)
  rw [demand_cons, demand_append, length_cons, length_append] at hlen
  have hbar : (domainSignature.arity (.str "|")).toOption.getD 0 = 2 := rfl
  rw [hbar, length_nil] at hlen
  omega

section Meaning

variable [FloatText] (Row : Type*) {d e : Json}

/-- A list of leaves, grouped, is the AND of its leaves. -/
lemma run_grouping {s : List DomainNode} (hne : programOf d ≠ [])
    (hrun : domainSignature.run (programOf d) = .ok s)
    (hflat : domainSignature.demand (programOf d) = 0) :
    ∃ n, domainSignature.run (grouping (programOf d)) = .ok [n] ∧
      ∀ (I : Sql.Interp Row) (row : Row), n.Holds I row ↔ SatisfiedBy I row d := by
  have hlen : s.length = (programOf d).length := by
    have h := length_runOn hrun
    rw [hflat] at h
    simpa using h
  have hs : s ≠ [] := runOn_ne_nil hne hrun
  have hand : ∀ (i : Sql.Interp Row × Row) (m n : DomainNode),
      (domainSignature.build (.str "&") [m, n]).Holds i.1 i.2 ↔
        m.Holds i.1 i.2 ∧ n.Holds i.1 i.2 := by
    intro i m n
    show (DomainNode.and [n, m]).Holds i.1 i.2 ↔ _
    rw [holds_and]
    simp [and_comm]
  obtain ⟨n, hn, hholds⟩ := runOn_replicate (S := domainSignature) rfl hand hs
  refine ⟨n, ?_, fun I row => ?_⟩
  · rw [Signature.run] at hrun
    rw [grouping, Signature.run, runOn_append, hrun, ← hlen]
    exact hn
  · rw [satisfiedBy_iff I row hrun]
    exact hholds (I, row)

/-- Two lists of leaves combine into their OR. -/
lemma domainOr_denotes {s t : List DomainNode} (hd : noDomain d = false)
    (he : noDomain e = false) (hds : domainSignature.run (programOf d) = .ok s)
    (hes : domainSignature.run (programOf e) = .ok t)
    (hflat : leavesOnly d = true ∧ leavesOnly e = true) :
    ∃ n, domainSignature.run (programOf (domainOr d e)) = .ok [n] ∧
      ∀ (I : Sql.Interp Row) (row : Row),
        n.Holds I row ↔ SatisfiedBy I row d ∨ SatisfiedBy I row e := by
  obtain ⟨m, hm, hmholds⟩ := run_grouping Row (programOf_ne_nil hd) hds
    ((leavesOnly_iff hds).mp hflat.1)
  obtain ⟨n, hn, hnholds⟩ := run_grouping Row (programOf_ne_nil he) hes
    ((leavesOnly_iff hes).mp hflat.2)
  refine ⟨.or [n, m], ?_, fun I row => ?_⟩
  · rw [programOf_domainOr hd he, Signature.run, runOn_cons, runOn_append]
    rw [Signature.run] at hn
    rw [hn]
    show ((domainSignature.runOn (grouping (programOf d)) [n]).bind _) = _
    rw [runOn_of_run hm [n]]
    rfl
  · rw [holds_or, ← hmholds, ← hnholds]
    simp [or_comm]

end Meaning

/-! ### Chains of OR -/

/-- What the group domains are combined into, the empty ones left out. -/
def orChain : List Json → Json
  | [] => .arr []
  | d :: ds => ds.foldl domainOr d

/-- Domains that OR combines: at most two of them, and two only if they are
lists of leaves. -/
def OrCombines : List Json → Prop
  | [] | [_] => True
  | [d, e] => leavesOnly d = true ∧ leavesOnly e = true
  | _ => False

/-- An empty domain is dropped on either side. -/
lemma programOf_foldl_domainOr (d : Json) (ds : List Json) : programOf (ds.foldl domainOr d) =
      programOf (orChain ((d :: ds).filter fun e => !noDomain e)) := by
  induction ds generalizing d with
  | nil =>
      by_cases hd : noDomain d = true
      · rw [filter_cons_of_neg (by simp [hd])]
        exact noDomain_iff.mp hd
      · rw [filter_cons_of_pos (by simp [hd])]
        rfl
  | cons e ds ih =>
      rw [foldl_cons, ih]
      by_cases hd : noDomain d = true
      · rw [domainOr, if_pos hd]
        conv => rhs; rw [filter_cons_of_neg (by simp [hd])]
      · by_cases he : noDomain e = true
        · rw [domainOr, if_neg hd, if_pos he, filter_cons_of_pos (by simp [hd])]
          conv => rhs; rw [filter_cons_of_pos (by simp [hd]), filter_cons_of_neg (by simp [he])]
        · have hor : noDomain (domainOr d e) = false :=
            noDomain_domainOr (Bool.not_eq_true _ ▸ hd) (Bool.not_eq_true _ ▸ he)
          rw [filter_cons_of_pos (by simp [hor]), filter_cons_of_pos (by simp [hd]),
            filter_cons_of_pos (by simp [he])]
          rfl

/-- What has an operator is combined with nothing. -/
lemma foldl_domainOr_rejected {ds : List Json} (hne : ds ≠ [])
    (hds : ∀ d ∈ ds, noDomain d = false) {d : Json} (hd : noDomain d = false)
    (hop : domainSignature.demand (programOf d) ≠ 0) : ¬ Parses (ds.foldl domainOr d) := by
  induction ds generalizing d with
  | nil => exact absurd rfl hne
  | cons e ds ih =>
      obtain ⟨he, hrest⟩ := forall_mem_cons.mp hds
      rcases ds with - | ⟨f, ds⟩
      · intro h
        exact hop (leavesOnly_of_domainOr hd he h).1
      · apply ih (cons_ne_nil f ds) hrest (noDomain_domainOr hd he)
        -- the OR of the two begins with an operator
        rw [programOf_domainOr hd he, demand_cons]
        show 2 + _ ≠ 0
        omega

/-- Domains that parse are combined into one that parses exactly when OR
combines them. -/
lemma parses_orChain_iff {ds : List Json} (hne : ∀ d ∈ ds, noDomain d = false)
    (hds : ∀ d ∈ ds, Parses d) : Parses (orChain ds) ↔ OrCombines ds := by
  rcases ds with - | ⟨d, - | ⟨e, - | ⟨f, ds⟩⟩⟩
  · exact iff_of_true (parses_iff.mpr ⟨[], rfl⟩) trivial
  · exact iff_of_true (hds d mem_cons_self) trivial
  · have hd : noDomain d = false := hne d (by simp)
    have he : noDomain e = false := hne e (by simp)
    obtain ⟨s, hs⟩ := parses_iff.mp (hds d (by simp))
    obtain ⟨t, ht⟩ := parses_iff.mp (hds e (by simp))
    constructor
    · intro h
      obtain ⟨hzd, hze⟩ := leavesOnly_of_domainOr hd he h
      exact ⟨(leavesOnly_iff hs).mpr hzd, (leavesOnly_iff ht).mpr hze⟩
    · intro hflat
      let _ := wholeFloatText
      obtain ⟨n, hn, -⟩ := domainOr_denotes Unit hd he hs ht hflat
      exact parses_iff.mpr ⟨[n], hn⟩
  · obtain ⟨hd, he, hrest⟩ : noDomain d = false ∧ noDomain e = false ∧
        ∀ x ∈ f :: ds, noDomain x = false := by
      simpa using hne
    refine iff_of_false ?_ id
    apply foldl_domainOr_rejected (cons_ne_nil f ds) hrest (noDomain_domainOr hd he)
    rw [programOf_domainOr hd he, demand_cons]
    show 2 + _ ≠ 0
    omega

section Meaning

variable [FloatText] {Row : Type*}

/-- Where OR combines some domains, the result is their OR. -/
lemma satisfiedBy_orChain {ds : List Json} (hnil : ds ≠ [])
    (hne : ∀ d ∈ ds, noDomain d = false) (hds : ∀ d ∈ ds, Parses d) (h : OrCombines ds)
    (I : Sql.Interp Row) (row : Row) :
    SatisfiedBy I row (orChain ds) ↔ ∃ d ∈ ds, SatisfiedBy I row d := by
  rcases ds with - | ⟨d, - | ⟨e, - | ⟨f, ds⟩⟩⟩
  · exact absurd rfl hnil
  · show SatisfiedBy I row d ↔ _
    simp
  · obtain ⟨s, hs⟩ := parses_iff.mp (hds d (by simp))
    obtain ⟨t, ht⟩ := parses_iff.mp (hds e (by simp))
    obtain ⟨n, hn, hholds⟩ := domainOr_denotes Row (hne d (by simp)) (hne e (by simp)) hs ht h
    show SatisfiedBy I row (domainOr d e) ↔ _
    rw [satisfiedBy_iff I row hn, forall_mem_singleton, hholds I row]
    simp
  · exact absurd h id

end Meaning

/-! ### Variables -/

variable (ctx : UserContext)

/-- Replacing a variable changes no field and no operator. -/
lemma itemArity_substituteLeaf (item : Json) :
    itemArity (substituteLeaf ctx item) = itemArity item := by
  unfold substituteLeaf
  split
  · next field op s =>
      simp only [itemArity, parseLeaf]
      rcases field.getString with e | f <;> rcases op.getString with e' | o <;> rfl
  · rfl

lemma programOf_substituteVars (d : Json) :
    programOf (substituteVars ctx d) = (programOf d).map (substituteLeaf ctx) := by
  cases d with
  | arr items => rfl
  | _ => rfl

lemma parses_substituteVars {d : Json} (h : Parses d) : Parses (substituteVars ctx d) := by
  obtain ⟨s, hs⟩ := parses_iff.mp h
  have hsame : (programOf d).map domainSignature.arity =
      (programOf (substituteVars ctx d)).map domainSignature.arity := by
    rw [programOf_substituteVars, map_map]
    apply map_congr_left
    intro item _
    exact (itemArity_substituteLeaf ctx item).symm
  obtain ⟨s', hs', -⟩ := runOn_of_arity hsame hs
  exact parses_iff.mpr ⟨s', hs'⟩

/-! ### What the rules say -/

/-- The rules of a model that are active and apply to an operation. -/
def RuleEngine.applicable (engine : RuleEngine) (modelName : String) (op : RuleOp) :
    List IrRuleRecord :=
  (engine.loadRules modelName).filter fun r => r.active && r.appliesToOp op

/-- The domains of the global rules. -/
def globalDomains (ctx : UserContext) (rules : List IrRuleRecord) : List Json :=
  ruleDomains ctx (rules.filter (·.globalRule))

/-- The domains of the group rules that match a group of the user. -/
def groupDomains (ctx : UserContext) (rules : List IrRuleRecord) : List Json :=
  ruleDomains ctx (rules.filter fun r => !r.globalRule && r.matchesUser ctx)

/-- The combined domain of some global and some group domains. -/
def combine (globals groups : List Json) : Json :=
  match groups with
  | [] => globals.foldl domainAnd (.arr [])
  | g :: gs => domainAnd (globals.foldl domainAnd (.arr [])) (gs.foldl domainOr g)

lemma programOf_combine (globals groups : List Json) :
    programOf (combine globals groups) = programOf (globals.foldl domainAnd (.arr [])) ++
      programOf (orChain (groups.filter fun g => !noDomain g)) := by
  rcases groups with - | ⟨g, gs⟩
  · exact (append_nil _).symm
  · show programOf (domainAnd _ _) = _
    rw [programOf_domainAnd, programOf_foldl_domainOr]

section Rules

variable [FloatText] (Row : Type*)

/-- The domain parses, and a row satisfies it when all global rules match and,
where the user has group rules, one of them. -/
def DenotesRules (combined : Json) (globals groups : List Json) : Prop :=
  ∃ d, domainFromJson combined = .ok d ∧ ∀ (I : Sql.Interp Row) (row : Row),
    d.Holds I row ↔ (∀ g ∈ globals, SatisfiedBy I row g) ∧
      (groups ≠ [] → ∃ g ∈ groups, SatisfiedBy I row g)

/-- An empty group domain is no loss: there is none, or no other group domain,
or one of the others is satisfied by every row the global rules leave. -/
def EmptyIsNoLoss (globals groups : List Json) : Prop :=
  (∃ g ∈ groups, noDomain g = true) → (∃ g ∈ groups, noDomain g = false) →
    ∀ (I : Sql.Interp Row) (row : Row), (∀ g ∈ globals, SatisfiedBy I row g) →
      ∃ g ∈ groups, noDomain g = false ∧ SatisfiedBy I row g

variable {globals groups : List Json}

lemma emptyIsNoLoss_of_nonempty (h : ∀ g ∈ groups, noDomain g = false) :
    EmptyIsNoLoss Row globals groups := by
  rintro ⟨g, hg, hempty⟩
  rw [h g hg] at hempty
  cases hempty

/-- A combined domain that parses is the AND of the global domains and of what
the group domains are combined into. -/
lemma holds_combine (hglobals : ∀ g ∈ globals, Parses g)
    (h : Parses (orChain (groups.filter fun g => !noDomain g))) :
    ∃ d, domainFromJson (combine globals groups) = .ok d ∧
      ∀ (I : Sql.Interp Row) (row : Row), d.Holds I row ↔ (∀ g ∈ globals, SatisfiedBy I row g) ∧
          SatisfiedBy I row (orChain (groups.filter fun g => !noDomain g)) := by
  have hempty : domainSignature.run (programOf (.arr [])) = .ok [] := rfl
  obtain ⟨s, hs, hglob⟩ := @run_foldl_domainAnd _ Row globals hglobals _ _ hempty
  obtain ⟨t, ht⟩ := parses_iff.mp h
  have hrun : domainSignature.run (programOf (combine globals groups)) = .ok (s ++ t) := by
    rw [programOf_combine, Signature.run, runOn_append]
    have ht' := ht
    rw [Signature.run] at ht'
    rw [ht']
    exact runOn_of_run hs t
  refine ⟨domainOfStack (s ++ t), ?_, fun I row => ?_⟩
  · rw [domainFromJson_eq, hrun]
    rfl
  · rw [holds_domainOfStack, forall_mem_append, hglob I row, satisfiedBy_iff I row ht]
    simp

omit [FloatText] in
lemma parses_orChain_of_combine (h : Parses (combine globals groups)) :
    Parses (orChain (groups.filter fun g => !noDomain g)) := by
  obtain ⟨s, hs⟩ := parses_iff.mp h
  rw [programOf_combine, Signature.run] at hs
  obtain ⟨t, ht, -⟩ := runOn_append_ok hs
  exact parses_iff.mpr ⟨t, ht⟩

/-- **Combining domains** is sound where OR combines those of the group rules
and no empty one among them is lost, and nowhere else. -/
theorem combine_denotes_iff (hglobals : ∀ g ∈ globals, Parses g)
    (hgroups : ∀ g ∈ groups, Parses g) :
    DenotesRules Row (combine globals groups) globals groups ↔
      OrCombines (groups.filter fun g => !noDomain g) ∧ EmptyIsNoLoss Row globals groups := by
  have hmem : ∀ g, g ∈ groups.filter (fun g => !noDomain g) ↔ g ∈ groups ∧ noDomain g = false := by
    intro g
    simp [mem_filter]
  have hne : ∀ g ∈ groups.filter (fun g => !noDomain g), noDomain g = false :=
    fun g hg => ((hmem g).mp hg).2
  have hparses : ∀ g ∈ groups.filter (fun g => !noDomain g), Parses g :=
    fun g hg => hgroups g ((hmem g).mp hg).1
  constructor
  · rintro ⟨d, hd, hiff⟩
    have hchain := parses_orChain_of_combine ⟨d, hd⟩
    have hor := (parses_orChain_iff hne hparses).mp hchain
    refine ⟨hor, ?_⟩
    rintro ⟨g, hg, hempty⟩ ⟨g', hg', hfull⟩ I row hrow
    obtain ⟨d', hd', hholds⟩ := holds_combine Row hglobals hchain
    rw [hd, Except.ok.injEq] at hd'
    subst hd'
    have hd : d.Holds I row :=
      (hiff I row).mpr ⟨hrow, fun _ => ⟨g, hg, satisfiedBy_of_noDomain I row hempty⟩⟩
    have hsat := ((hholds I row).mp hd).2
    rw [satisfiedBy_orChain (ne_nil_of_mem ((hmem g').mpr ⟨hg', hfull⟩)) hne hparses hor]
      at hsat
    obtain ⟨h, hh, hrow⟩ := hsat
    exact ⟨h, ((hmem h).mp hh).1, hne h hh, hrow⟩
  · rintro ⟨hor, hloss⟩
    obtain ⟨d, hd, hholds⟩ :=
      holds_combine Row hglobals ((parses_orChain_iff hne hparses).mpr hor)
    refine ⟨d, hd, fun I row => ?_⟩
    rw [hholds I row]
    apply and_congr_right
    intro hrow
    by_cases hnil : groups.filter (fun g => !noDomain g) = []
    · -- every group domain is empty
      rw [hnil]
      refine iff_of_true (satisfiedBy_of_noDomain I row rfl) ?_
      intro hgroups
      obtain ⟨g, hg⟩ := exists_mem_of_ne_nil groups hgroups
      have hempty : noDomain g = true := by
        by_contra hfull
        exact ne_nil_of_mem ((hmem g).mpr ⟨hg, Bool.not_eq_true _ ▸ hfull⟩) hnil
      exact ⟨g, hg, satisfiedBy_of_noDomain I row hempty⟩
    · rw [satisfiedBy_orChain hnil hne hparses hor]
      obtain ⟨h, hh⟩ := exists_mem_of_ne_nil _ hnil
      obtain ⟨hgroup, hfull⟩ := (hmem h).mp hh
      constructor
      · rintro ⟨g, hg, hsat⟩ -
        exact ⟨g, ((hmem g).mp hg).1, hsat⟩
      · intro hsome
        obtain ⟨g, hg, hsat⟩ := hsome (ne_nil_of_mem hgroup)
        by_cases hempty : noDomain g = true
        · obtain ⟨g', hg', hfull', hsat'⟩ := hloss ⟨g, hg, hempty⟩ ⟨h, hgroup, hfull⟩ I row hrow
          exact ⟨g', (hmem g').mpr ⟨hg', hfull'⟩, hsat'⟩
        · exact ⟨g, (hmem g).mpr ⟨hg, Bool.not_eq_true _ ▸ hempty⟩, hsat⟩

end Rules

/-! ### The rule engine -/

lemma buildRuleDomain_eq (engine : RuleEngine) (modelName : String) (op : RuleOp)
    {ctx : UserContext} (h : ctx.isAdmin = false) :
    engine.buildRuleDomain modelName op ctx =
      combine (globalDomains ctx (engine.applicable modelName op))
        (groupDomains ctx (engine.applicable modelName op)) := by
  unfold RuleEngine.buildRuleDomain
  rw [if_neg (by simp [h])]
  rfl

lemma parses_ruleDomains {ctx : UserContext} {rules : List IrRuleRecord}
    (h : ∀ r ∈ rules, Parses r.domainForce) (p : IrRuleRecord → Bool) :
    ∀ g ∈ ruleDomains ctx (rules.filter p), Parses g := by
  intro g hg
  obtain ⟨r, hr, rfl⟩ := mem_map.mp hg
  exact parses_substituteVars ctx (h r (mem_of_mem_filter hr))

/-- **The combined domain means what the rules say**, for a user who is no
administrator, exactly when OR combines the group domains that match and no
empty one among them is lost. -/
theorem buildRuleDomain_denotes_iff [FloatText] (Row : Type*) (engine : RuleEngine)
    (modelName : String) (op : RuleOp) (ctx : UserContext) (hctx : ctx.isAdmin = false)
    (hrules : ∀ r ∈ engine.loadRules modelName, r.active = true → Parses r.domainForce) :
    DenotesRules Row (engine.buildRuleDomain modelName op ctx)
        (globalDomains ctx (engine.applicable modelName op))
        (groupDomains ctx (engine.applicable modelName op)) ↔
      OrCombines ((groupDomains ctx (engine.applicable modelName op)).filter
          fun g => !noDomain g) ∧
        EmptyIsNoLoss Row (globalDomains ctx (engine.applicable modelName op))
          (groupDomains ctx (engine.applicable modelName op)) := by
  have happlicable : ∀ r ∈ engine.applicable modelName op, Parses r.domainForce := by
    intro r hr
    obtain ⟨hmem, hok⟩ := mem_filter.mp hr
    exact hrules r hmem (Bool.and_eq_true_iff.mp hok).1
  rw [buildRuleDomain_eq engine modelName op hctx]
  exact combine_denotes_iff Row (parses_ruleDomains happlicable _) (parses_ruleDomains happlicable _)

/-- A rule of a group of its own for each of some stages of an order. -/
def stageRules (stages : List String) : RuleEngine where
  loadRules _ := stages.map fun stage => {
    domainForce := .arr [.arr [.str "state", .str "=", .str stage]]
    permRead := true, permWrite := true, permCreate := true, permUnlink := true
    globalRule := false, active := true, groupIds := [1] }

lemma parses_stageRules (stages : List String) :
    ∀ r ∈ (stageRules stages).loadRules "sale.order", r.active = true → Parses r.domainForce := by
  intro r hr _
  obtain ⟨stage, -, rfl⟩ := mem_map.mp hr
  exact ⟨_, rfl⟩

/-- Two group rules of one leaf each are combined. -/
theorem buildRuleDomain_denotes_two : @DenotesRules wholeFloatText Unit
      ((stageRules ["draft", "sent"]).buildRuleDomain "sale.order" .read { groupIds := [1] })
      [] [.arr [.arr [.str "state", .str "=", .str "draft"]],
        .arr [.arr [.str "state", .str "=", .str "sent"]]] := by
  let _ := wholeFloatText
  apply (buildRuleDomain_denotes_iff Unit (stageRules ["draft", "sent"]) "sale.order" .read
    { groupIds := [1] } rfl (parses_stageRules _)).mpr
  refine ⟨⟨rfl, rfl⟩, emptyIsNoLoss_of_nonempty Unit ?_⟩
  decide

/-- With a third rule the combined domain does not parse. -/
theorem buildRuleDomain_three_groups :
    ¬ ∀ (text : FloatText) (engine : RuleEngine) (op : RuleOp) (ctx : UserContext),
      ctx.isAdmin = false →
      (∀ r ∈ engine.loadRules "sale.order", r.active = true → Parses r.domainForce) →
      @DenotesRules text Unit (engine.buildRuleDomain "sale.order" op ctx)
        (globalDomains ctx (engine.applicable "sale.order" op))
        (groupDomains ctx (engine.applicable "sale.order" op)) := by
  intro h
  obtain ⟨d, hd, -⟩ := h wholeFloatText (stageRules ["draft", "sent", "done"]) .read
    { groupIds := [1] } rfl (parses_stageRules _)
  have hrejected : domainFromJson ((stageRules ["draft", "sent", "done"]).buildRuleDomain
      "sale.order" .read { groupIds := [1] }) = .error "domainFromJson: '&' needs 2 operands" := rfl
  rw [hrejected] at hd
  cases hd

end CErp
