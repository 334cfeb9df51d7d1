/-
Archived contacts in the lists of contacts.

The service appends the leaf `active = true` to a domain whose text does not hold
the word `active` in quotes.  Behind a domain that parses on its own, the leaf
stands beside it (`filter_of_parses`); a domain that lacks an operand takes it for
one, and a domain that holds the word anywhere else is searched as it came
(`archived_hidden_iff`).
-/
import CErp.PartnerRules

namespace CErp

open Outcome List PrefixStack

/-! ### The leaf and the domain -/

def activeLeaf : Json := .arr [.str "active", .str "=", .bool true]

/-- The domain has a leaf on the flag. -/
def NamesActive (domain : Json) : Prop :=
  ∃ op value, .arr [.str "active", .str op, value] ∈ programOf domain

section Service

variable [FloatText]

/-- The text of the domain holds the word in quotes. -/
def mentionsActive (domain : Json) : Bool :=
  mentions (if domain.isNull then "" else domain.dump) "\"active\""

variable {domain : Json}

lemma hideArchived_of_mentions (h : mentionsActive domain = true) :
    hideArchived domain = domain := if_pos h

lemma hideArchived_of_not_mentions (h : mentionsActive domain = false) :
    hideArchived domain = .arr (programOf domain ++ [activeLeaf]) := by
  unfold mentionsActive at h
  unfold hideArchived
  rw [if_neg (by rw [h]; exact Bool.false_ne_true)]
  cases domain with
  | arr items => rfl
  | _ => rfl

variable (P : PartnerModel) (engine : Option RuleEngine) (s : Session)

/-- The flag of the contact is set. -/
def IsUnarchived (r : ℤ × Row) : Prop := P.interp.compare "active" "=" "true" r = .true

instance : DecidablePred (IsUnarchived P) :=
  fun r => inferInstanceAs (Decidable (P.interp.compare "active" "=" "true" r = .true))

/-- The row satisfies the domain with the rules appended, and is seen. -/
def SearchSelects (domain : Json) (r : ℤ × Row) : Prop :=
  ∃ merged dom, mergeRuleDomain engine P.derived.modelName (s.caller false).ctx domain .read =
      .ok merged ∧ domainFromJson merged = .ok dom ∧
    dom.Satisfies (some P.columns) P.interp r ∧ SeenBy P s r

/-- Without a leaf on the flag, a search reaches no archived contact, and of what
the domain finds on its own it reaches exactly those that are not archived. -/
structure HidesArchived (t : Table Row) (domain : Json) (request : PartnerRequest) : Prop where
  hides : ¬ NamesActive domain → ∀ found, request.reached P engine s t = .ok found →
    ∀ r ∈ found, IsUnarchived P r
  exact : ¬ NamesActive domain → Parses domain → ∀ all,
    foundRows P.toServedModel engine (s.caller false) t.rows domain = .ok all →
    request.reached P engine s t = .ok (all.filter fun r => decide (IsUnarchived P r))

/-- The word stands in the domain and the row satisfies it, or the domain does not
parse and the row satisfies it with the leaf for its last operand. -/
def DomainAdmits (domain : Json) (r : ℤ × Row) : Prop :=
  (mentionsActive domain = true ∧ SearchSelects P engine s domain r) ∨
    (mentionsActive domain = false ∧ ¬ Parses domain ∧
      SearchSelects P engine s (.arr (programOf domain ++ [activeLeaf])) r)

variable {P engine s}

/-! ### What a search finds -/

variable {r : ℤ × Row}

lemma mem_found_iff {rows found : List (ℤ × Row)}
    (h : foundRows P.toServedModel engine (s.caller false) rows domain = .ok found) :
    r ∈ found ↔ r ∈ rows ∧ SearchSelects P engine s domain r := by
  obtain ⟨merged, dom, hmerged, hdom, -, p, rfl, hp⟩ := foundRows_ok h
  rw [mem_filter, hp]
  constructor
  · rintro ⟨hr, hsat, hseen⟩
    exact ⟨hr, merged, dom, hmerged, hdom, hsat, hseen⟩
  · rintro ⟨hr, merged', dom', hmerged', hdom', hsat, hseen⟩
    obtain rfl := Except.ok.inj (hmerged.symm.trans hmerged')
    obtain rfl := Except.ok.inj (hdom.symm.trans hdom')
    exact ⟨hr, hsat, hseen⟩

/-- A domain that selects a row is answered. -/
lemma found_of_selects (h : SearchSelects P engine s domain r) (rows : List (ℤ × Row)) :
    ∃ found, foundRows P.toServedModel engine (s.caller false) rows domain = .ok found := by
  obtain ⟨merged, dom, hmerged, hdom, hsat, -⟩ := h
  exact foundRows_of_compiles hmerged hdom ((satisfies_iff _ _ _ _).mp hsat).1 rows

/-! ### The leaf beside the domain -/

/-- What the nodes of a stack say, and that they compile. -/
def AllHold (P : PartnerModel) (stack : List DomainNode) (r : ℤ × Row) : Prop :=
  ∀ n ∈ stack, n.compiles (some P.columns) = true ∧ n.truth P.interp "" r = .true

/-- Rows a domain selects, by the stack of its items and the rules'. -/
lemma selects_iff
    (hmerge : ∃ merged, mergeRuleDomain engine P.derived.modelName (s.caller false).ctx domain
      .read = .ok merged) :
    SearchSelects P engine s domain r ↔ ∃ stack, domainSignature.run (programOf domain ++
          ruleItems engine P.toServedModel (s.caller false)) = .ok stack ∧
        AllHold P stack r ∧ SeenBy P s r := by
  obtain ⟨merged, hmerged⟩ := hmerge
  have hprogram := programOf_merge hmerged
  constructor
  · rintro ⟨merged', dom, hmerged', hdom, hsat, hseen⟩
    obtain rfl := Except.ok.inj (hmerged.symm.trans hmerged')
    rw [domainFromJson_eq, hprogram] at hdom
    obtain ⟨stack, hstack, rfl⟩ := map_ok_iff.mp hdom
    exact ⟨stack, hstack, (satisfies_domainOfStack _ _ _ _).mp hsat, hseen⟩
  · rintro ⟨stack, hstack, hall, hseen⟩
    refine ⟨merged, domainOfStack stack, hmerged, ?_, (satisfies_domainOfStack _ _ _ _).mpr hall,
      hseen⟩
    rw [domainFromJson_eq, hprogram, hstack]
    rfl

def activeNode : DomainNode := .leaf ⟨"active", "=", .bool true⟩

omit [FloatText] in
lemma activeNode_compiles : activeNode.compiles (some P.columns) = true := by
  have hcolumn : sanitizeColumn "active" (some P.columns) = .ok "active" := by
    unfold sanitizeColumn
    rw [if_pos (by decide)]
    exact if_pos P.active_mem
  show ((sanitizeColumn "active" (some P.columns)).isOk && supportedOp "=") = true
  rw [hcolumn]
  rfl

lemma activeNode_holds (r : ℤ × Row) :
    (activeNode.compiles (some P.columns) = true ∧ activeNode.truth P.interp "" r = .true) ↔
      IsUnarchived P r := and_iff_right activeNode_compiles

omit [FloatText] in
/-- Behind a domain that parses on its own, the leaf stands beside its nodes. -/
lemma run_beside {items base : List Json} {stack : List DomainNode}
    (hown : domainSignature.run items = .ok stack) {rules : List DomainNode}
    (hrules : domainSignature.run base = .ok rules) :
    domainSignature.run (items ++ base) = .ok (stack ++ rules) ∧
      domainSignature.run ((items ++ [activeLeaf]) ++ base) =
        .ok (stack ++ activeNode :: rules) := by
  have hrules : domainSignature.runOn base [] = .ok rules := hrules
  have hleaf : domainSignature.runOn [activeLeaf] rules = .ok (activeNode :: rules) := rfl
  constructor
  · rw [Signature.run, runOn_append, hrules]
    exact runOn_of_run hown rules
  · rw [Signature.run, runOn_append, hrules]
    show domainSignature.runOn (items ++ [activeLeaf]) rules = _
    rw [runOn_append, hleaf]
    exact runOn_of_run hown _

omit [FloatText] in
/-- Items that run before the rules leave the rules' own stack behind. -/
lemma rules_of_run {items base : List Json} {stack : List DomainNode}
    (h : domainSignature.run (items ++ base) = .ok stack) :
    ∃ rules, domainSignature.run base = .ok rules := by
  obtain ⟨rules, hrules, -⟩ := runOn_append_ok h
  exact ⟨rules, hrules⟩

lemma selects_beside_iff (hparses : Parses domain)
    (hmerge : ∃ merged, mergeRuleDomain engine P.derived.modelName (s.caller false).ctx domain
      .read = .ok merged) :
    SearchSelects P engine s (.arr (programOf domain ++ [activeLeaf])) r ↔
      SearchSelects P engine s domain r ∧ IsUnarchived P r := by
  obtain ⟨own, hown⟩ := parses_iff.mp hparses
  have hsplit : ∀ rules, AllHold P (own ++ activeNode :: rules) r ↔
      AllHold P (own ++ rules) r ∧ IsUnarchived P r := by
    intro rules
    unfold AllHold
    rw [forall_mem_append, forall_mem_append, forall_mem_cons, activeNode_holds]
    tauto
  rw [selects_iff ⟨_, merge_arr _⟩, selects_iff hmerge]
  constructor
  · rintro ⟨stack, hstack, hall, hseen⟩
    obtain ⟨rules, hrules⟩ := rules_of_run hstack
    obtain ⟨hplain, hbeside⟩ := run_beside hown hrules
    obtain rfl := Except.ok.inj (hstack.symm.trans hbeside)
    obtain ⟨hall, hactive⟩ := (hsplit rules).mp hall
    exact ⟨⟨_, hplain, hall, hseen⟩, hactive⟩
  · rintro ⟨⟨stack, hstack, hall, hseen⟩, hactive⟩
    obtain ⟨rules, hrules⟩ := rules_of_run hstack
    obtain ⟨hplain, hbeside⟩ := run_beside hown hrules
    obtain rfl := Except.ok.inj (hstack.symm.trans hplain)
    exact ⟨_, hbeside, (hsplit rules).mpr ⟨hall, hactive⟩, hseen⟩

/-- A domain with the leaf beside it selects no archived contact. -/
lemma unarchived_of_selects (hparses : Parses domain)
    (h : SearchSelects P engine s (.arr (programOf domain ++ [activeLeaf])) r) :
    IsUnarchived P r := by
  obtain ⟨own, hown⟩ := parses_iff.mp hparses
  obtain ⟨stack, hstack, hall, -⟩ := (selects_iff ⟨_, merge_arr _⟩).mp h
  obtain ⟨rules, hrules⟩ := rules_of_run hstack
  obtain rfl := Except.ok.inj (hstack.symm.trans (run_beside hown hrules).2)
  exact activeNode_holds r |>.mp (hall _ (mem_append_right own (mem_cons_self ..)))

/-- **The leaf beside a domain that parses on its own leaves out the archived
contacts and no others.** -/
theorem filter_of_parses (hparses : Parses domain) {rows all : List (ℤ × Row)}
    (hall : foundRows P.toServedModel engine (s.caller false) rows domain = .ok all) :
    foundRows P.toServedModel engine (s.caller false) rows
        (.arr (programOf domain ++ [activeLeaf])) =
      .ok (all.filter fun r => decide (IsUnarchived P r)) := by
  obtain ⟨merged, dom, hmerged, hdom, hcompiles, p, rfl, hp⟩ := foundRows_ok hall
  have hmerge : ∃ merged, mergeRuleDomain engine P.derived.modelName (s.caller false).ctx domain
      .read = .ok merged := ⟨merged, hmerged⟩
  -- the search is answered
  obtain ⟨own, hown⟩ := parses_iff.mp hparses
  rw [domainFromJson_eq, programOf_merge hmerged] at hdom
  obtain ⟨stack, hstack, rfl⟩ := map_ok_iff.mp hdom
  obtain ⟨rules, hrules⟩ := rules_of_run hstack
  obtain ⟨hplain, hbeside⟩ := run_beside hown hrules
  obtain rfl := Except.ok.inj (hstack.symm.trans hplain)
  obtain ⟨merged', hmerged'⟩ : ∃ merged', mergeRuleDomain engine P.derived.modelName
      (s.caller false).ctx (.arr (programOf domain ++ [activeLeaf])) .read = .ok merged' :=
    ⟨_, merge_arr _⟩
  have hdom' : domainFromJson merged' = .ok (domainOfStack (own ++ activeNode :: rules)) := by
    rw [domainFromJson_eq, programOf_merge hmerged']
    exact congrArg _ hbeside
  have hcompiles' : (domainOfStack (own ++ activeNode :: rules)).root.compiles (some P.columns) =
      true := by
    have hplain := (compiles_domainOfStack _ _).mp hcompiles
    rw [compiles_domainOfStack]
    intro n hn
    rcases mem_append.mp hn with hn | hn
    · exact hplain n (mem_append_left _ hn)
    · rcases mem_cons.mp hn with rfl | hn
      · exact activeNode_compiles
      · exact hplain n (mem_append_right _ hn)
  obtain ⟨found, hfound⟩ := foundRows_of_compiles hmerged' hdom' hcompiles' rows
  rw [hfound]
  obtain ⟨-, -, -, -, -, q, rfl, -⟩ := foundRows_ok hfound
  rw [filter_filter]
  congr 1
  apply filter_congr
  intro r hr
  have hq := mem_found_iff hfound (r := r)
  have hp := mem_found_iff hall (r := r)
  rw [mem_filter, and_congr_right_iff] at hq hp
  rw [Bool.eq_iff_iff, Bool.and_eq_true_iff, hq hr, hp hr, selects_beside_iff hparses hmerge,
    decide_eq_true_iff, and_comm]

/-! ### The two requests -/

/-- What both requests come to. -/
lemma hidesArchived_iff {t : Table Row} {request : PartnerRequest}
    (hreached : request.reached P engine s t =
      foundRows P.toServedModel engine (s.caller false) t.rows (hideArchived domain)) :
    HidesArchived P engine s t domain request ↔ NamesActive domain ∨
        ∀ r ∈ t.rows, ¬ IsUnarchived P r → ¬ DomainAdmits P engine s domain r := by
  constructor
  · intro h
    by_cases hnames : NamesActive domain
    · exact .inl hnames
    · right
      intro r hr harchived hadmits
      have hselects : SearchSelects P engine s (hideArchived domain) r := by
        rcases hadmits with ⟨hmentions, hselects⟩ | ⟨hmentions, -, hselects⟩
        · rwa [hideArchived_of_mentions hmentions]
        · rwa [hideArchived_of_not_mentions hmentions]
      obtain ⟨found, hfound⟩ := found_of_selects hselects t.rows
      have hmem := (mem_found_iff hfound).mpr ⟨hr, hselects⟩
      exact harchived (h.hides hnames found (hreached.trans hfound) r hmem)
  · intro h
    constructor
    · intro hnames found hfound r hr
      have hnone := h.resolve_left hnames
      rw [hreached] at hfound
      obtain ⟨hrows, hselects⟩ := (mem_found_iff hfound).mp hr
      by_contra harchived
      rcases hmentions : mentionsActive domain with - | -
      · rw [hideArchived_of_not_mentions hmentions] at hselects
        by_cases hparses : Parses domain
        · exact harchived (unarchived_of_selects hparses hselects)
        · exact hnone r hrows harchived (.inr ⟨hmentions, hparses, hselects⟩)
      · rw [hideArchived_of_mentions hmentions] at hselects
        exact hnone r hrows harchived (.inl ⟨hmentions, hselects⟩)
    · intro hnames hparses all hall
      have hnone := h.resolve_left hnames
      rw [hreached]
      rcases hmentions : mentionsActive domain with - | -
      · rw [hideArchived_of_not_mentions hmentions]
        exact filter_of_parses hparses hall
      · -- nothing archived is among what the domain finds
        rw [hideArchived_of_mentions hmentions, hall]
        congr 1
        symm
        rw [filter_eq_self]
        intro r hr
        obtain ⟨hrows, hselects⟩ := (mem_found_iff hall).mp hr
        rw [decide_eq_true_iff]
        by_contra harchived
        exact hnone r hrows harchived (.inl ⟨hmentions, hselects⟩)

/-- **Archived contacts stay hidden** without a leaf on the flag exactly where none
satisfies a domain that holds the word elsewhere, or that takes the leaf for the
operand it lacks. -/
theorem archived_hidden_iff (P : PartnerModel) (engine : Option RuleEngine) (s : Session)
    (t : Table Row) (call : CallKwArgs) :
    (HidesArchived P engine s t call.domain (.searchRead call) ↔ NamesActive call.domain ∨
        ∀ r ∈ t.rows, ¬ IsUnarchived P r → ¬ DomainAdmits P engine s call.domain r) ∧
    (HidesArchived P engine s t call.domain (.searchCount call) ↔ NamesActive call.domain ∨
        ∀ r ∈ t.rows, ¬ IsUnarchived P r → ¬ DomainAdmits P engine s call.domain r) :=
  ⟨hidesArchived_iff rfl, hidesArchived_iff rfl⟩

end Service

/-! ### A contact named active -/

/-- Contacts none of whose flags is set. -/
def archivedContacts : PartnerModel where
  toServedModel := { contacts.toServedModel with
    interp := {
      isNull := fun _ _ => false
      compare := fun col _ _ _ => if col = "active" then .false else .true } }
  named := rfl
  registered := rfl

/-- A search of contacts. -/
def contactSearch (items : List Json) : CallKwArgs :=
  ⟨"res.partner", "search_count", .arr [.arr items], .obj []⟩

/-- An archived contact named "active" is found by its name. -/
theorem archived_found :
    ¬ ∀ (_ : FloatText) (P : PartnerModel) (engine : Option RuleEngine) (s : Session)
      (t : Table Row) (call : CallKwArgs),
      HidesArchived P engine s t call.domain (.searchRead call) ∧
        HidesArchived P engine s t call.domain (.searchCount call) := by
  intro h
  let _ := Json.wholeFloatText
  let call := contactSearch [.arr [.str "name", .str "=", .str "active"]]
  let t : Table Row := oneRow (1, ⟨none, fun _ => .null⟩)
  have hnames : ¬ NamesActive call.domain := by
    rintro ⟨op, value, hmem⟩
    have hleaf := mem_singleton.mp hmem
    injection hleaf with hitems
    injection hitems with hfield
    injection hfield with hname
    exact absurd hname (by decide)
  have hfound : ((PartnerRequest.searchCount call).reached archivedContacts none {} t).toOption.map
      List.length = some 1 := by
    decide
  obtain ⟨found, hok, hlength⟩ := Option.map_eq_some_iff.mp hfound
  rw [toOption_eq_some_iff] at hok
  obtain ⟨r, hr⟩ := exists_mem_of_length_pos (hlength ▸ Nat.one_pos)
  have hactive :=
    (h Json.wholeFloatText archivedContacts none {} t call).2.hides hnames found hok r hr
  have hflag : archivedContacts.interp.compare "active" "=" "true" r = .false := rfl
  unfold IsUnarchived at hactive
  rw [hflag] at hactive
  cases hactive

end CErp
