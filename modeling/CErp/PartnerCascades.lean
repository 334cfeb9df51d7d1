/-
What one AFTER trigger repairs, and what it leaves to the triggers it fires.

While triggers are waiting, derived columns may be out of date, but not just
anywhere (`Tidy`): a row has the wrong commercial entity only if its parent has,
or if the trigger of its parent is still waiting; the wrong name only if its
entity is wrong, or the trigger of its entity is waiting; and another tenant
than its parent only if the trigger of its parent is waiting.

* `Tidy.touch`: one row of a statement;
* `fire_tidy`: one trigger, whatever the order its statement visits the rows in;
* `runAll_tidy`: when no trigger is waiting any more, nothing is out of date.
-/
import CErp.PartnerTree

namespace CErp

open List Option Table

namespace ResPartner

variable {t u : Table ResPartner}

/-! ### Names -/

lemma companyNameUnder_congr (h : SameBase t u) (cp : Option ℤ) (own : Option String) :
    companyNameUnder t cp own = companyNameUnder u cp own := by
  unfold companyNameUnder
  cases cp with
  | none => rfl
  | some c =>
      rw [bind_some, bind_some]
      cases hp : t.get? c with
      | none => rw [h.none hp]
      | some p =>
          obtain ⟨q, hq, hbase⟩ := h.exists hp
          obtain ⟨hname, -, hcompany, -⟩ := base_eq_iff.mp hbase
          rw [hq]
          dsimp only
          rw [hname, hcompany]

variable {p : ResPartner}

lemma companyNameFor_congr (h : SameBase t u) {q : ResPartner} (hbase : base p = base q) :
    companyNameFor t p = companyNameFor u q := by
  obtain ⟨hname, hparent, hcompany, hown⟩ := base_eq_iff.mp hbase
  unfold companyNameFor
  rw [hname, hparent, hcompany, hown]
  cases q.parentId with
  | none => rfl
  | some par =>
      dsimp only
      rw [commercialOf_congr h, companyNameUnder_congr h]

variable {i : ℤ}

/-- The name up the chain is the name under the commercial entity. -/
lemma companyNameFor_eq (h : Shallow t) (hp : t.get? i = some p) :
    companyNameFor t p = companyNameUnder t (commercialOf t i) p.companyName := by
  rw [commercialOf_eq h hp]
  unfold companyNameFor commercialFor
  have hself : companyNameUnder t (some i) p.companyName =
      if p.isCompany then some p.name else p.companyName := by
    unfold companyNameUnder
    rw [bind_some, hp]
  split
  · next hcompany => rw [hself, if_pos hcompany]
  · next hcompany =>
      cases hpar : p.parentId with
      | none =>
          rw [hself, if_neg hcompany]
      | some par => rfl

/-- Under its right entity, a row's stored name is computed right. -/
lemma commercialNameOf_eq (h : Shallow t) (hp : t.get? i = some p)
    (hcp : p.commercialPartnerId = commercialOf t i) :
    commercialNameOf t i = companyNameFor t p := by
  rw [companyNameFor_eq h hp, ← hcp]
  unfold commercialNameOf
  rw [hp, bind_some]

/-! ### BEFORE triggers -/

/-- The tenant of the parent, where the parent has one. -/
def inheritedTenant (t : Table ResPartner) (p : ResPartner) : Option ℤ :=
  ((p.parentId.bind t.get?).bind (·.companyId)).or p.companyId

variable (named : Named)

/-- The row the BEFORE triggers leave, column by column. -/
lemma before_eq (t : Table ResPartner) (id : ℤ) (new : ResPartner) :
    before named t id new = { new with
      commercialCompanyName := companyNameFor t new
      commercialPartnerId :=
        if named.parentId || named.isCompany then commercialFor t id new
        else new.commercialPartnerId
      displayName :=
        if new.isCompany then new.name else displayNameJoin new.name (companyNameFor t new)
      companyId :=
        if named.parentId || named.companyId then inheritedTenant t new else new.companyId } := by
  have hinherit : ∀ p : ResPartner, inheritTenant t p = { p with
      companyId := inheritedTenant t p } := by
    intro p
    unfold inheritTenant inheritedTenant
    cases (p.parentId.bind t.get?).bind (·.companyId) with
    | none => rfl
    | some co => rfl
  unfold before
  dsimp only
  rw [hinherit]
  cases named.parentId || named.isCompany with
  | true =>
      cases named.parentId || named.companyId with
      | true => rfl
      | false => rfl
  | false =>
      cases named.parentId || named.companyId with
      | true => rfl
      | false => rfl

lemma before_base (t : Table ResPartner) (id : ℤ) (new : ResPartner) :
    base (before named t id new) = base new := by
  rw [before_eq]
  rfl

lemma before_shownAs (t : Table ResPartner) (id : ℤ) (new : ResPartner) :
    (before named t id new).displayName = shownAs (before named t id new) := by
  rw [before_eq]
  rfl

lemma inheritedTenant_of_parent {q : ResPartner} {par : ℤ} (hpar : p.parentId = some par)
    (hq : t.get? par = some q) (hco : q.companyId ≠ none) : inheritedTenant t p = q.companyId := by
  unfold inheritedTenant
  obtain ⟨co, hco⟩ := ne_none_iff_exists'.mp hco
  rw [hpar, bind_some, hq, bind_some, hco, some_or]

/-! ### Rows out of date -/

/-- The rows that may be out of date: under a parent, under an entity, and
under a parent again. -/
structure Excuses where
  commercial : ℤ → ℤ → Prop
  name : ℤ → ℤ → Prop
  tenant : ℤ → ℤ → Prop

/-- Rows are out of date only where they are excused. -/
structure Tidy (t : Table ResPartner) (x : Excuses) : Prop where
  commercial : ∀ i p, t.get? i = some p → p.commercialPartnerId ≠ commercialOf t i →
    p.isCompany = false ∧ ∃ par q, p.parentId = some par ∧ t.get? par = some q ∧
      (q.commercialPartnerId ≠ commercialOf t par ∨ x.commercial par i)
  name : ∀ i p, t.get? i = some p → p.commercialCompanyName ≠ companyNameFor t p →
    p.commercialPartnerId ≠ commercialOf t i ∨ ∃ c, p.commercialPartnerId = some c ∧ x.name c i
  display : ∀ i p, t.get? i = some p → p.displayName = shownAs p
  tenant : ∀ i p par q, t.get? i = some p → p.parentId = some par → t.get? par = some q →
    q.companyId ≠ none → p.companyId = q.companyId ∨ x.tenant par i

/-- What one row of a statement has become: the statement of `tr` sets its own
column right and leaves the others', and the names are right in any case. -/
structure Repaired (tr : Trigger) (t : Table ResPartner) (id : ℤ) (old new : ResPartner) :
    Prop where
  base : base new = base old
  name : new.commercialCompanyName = companyNameFor t new
  display : new.displayName = shownAs new
  commercial : if tr = .cascadeCommercial then new.commercialPartnerId = commercialOf t id
    else new.commercialPartnerId = old.commercialPartnerId
  tenant : if tr = .cascadeTenant then ∀ par q, new.parentId = some par →
      t.get? par = some q → q.companyId ≠ none → new.companyId = q.companyId
    else new.companyId = old.companyId

/-- The excuses the waiting triggers give. -/
def excuses (P : List (Event × Trigger)) : Excuses where
  commercial par _ := ∃ e, (e, .cascadeCommercial) ∈ P ∧ e.id = par ∧ e.commercialChanged = true
  name c i := ∃ e, (e, .cascadeCommercialName) ∈ P ∧ e.id = c ∧ i ≠ c ∧ e.entityChanged = true
  tenant par _ := ∃ e, (e, .cascadeTenant) ∈ P ∧ e.id = par ∧ e.tenantChanged = true

/-- The excuse of the rows a statement has still to visit, or a waiting trigger's. -/
def during (tr : Trigger) (e : Event) (todo : List ℤ) (P : List (Event × Trigger)) : Excuses where
  commercial par i := tr = .cascadeCommercial ∧ par = e.id ∧ i ∈ todo ∨ (excuses P).commercial par i
  name c i := tr = .cascadeCommercialName ∧ c = e.id ∧ i ∈ todo ∨ (excuses P).name c i
  tenant par i := tr = .cascadeTenant ∧ par = e.id ∧ i ∈ todo ∨ (excuses P).tenant par i

variable {tr : Trigger}

lemma mem_jobs {e : Event} {evs : List Event} : (e, tr) ∈ jobs evs ↔ e ∈ evs := by
  unfold jobs
  rw [mem_flatMap]
  constructor
  · rintro ⟨e', he', hmem⟩
    simp only [mem_cons, Prod.mk.injEq, not_mem_nil, or_false] at hmem
    obtain ⟨rfl, -⟩ | ⟨rfl, -⟩ | ⟨rfl, -⟩ | ⟨rfl, -⟩ := hmem
    all_goals exact he'
  · intro he
    refine ⟨e, he, ?_⟩
    cases tr with
    | cascadeCommercialName => simp
    | cascadeCommercial => simp
    | cascadeDisplayName => simp
    | cascadeTenant => simp

variable {todo : List ℤ}

variable {Q : List (Event × Trigger)}

/-- More triggers give more excuses. -/
lemma Tidy.mono_during {e : Event} {P : List (Event × Trigger)}
    (h : Tidy t (during tr e todo P)) (hPQ : P ⊆ Q) : Tidy t (during tr e todo Q) where
  commercial i p hp hwrong := by
    obtain ⟨hcompany, par, q, hpar, hq, hwhy⟩ := h.commercial i p hp hwrong
    refine ⟨hcompany, par, q, hpar, hq, hwhy.imp_right (Or.imp_right ?_)⟩
    exact fun ⟨e', he', hrest⟩ => ⟨e', hPQ he', hrest⟩
  name i p hp hwrong := (h.name i p hp hwrong).imp_right fun ⟨c, hc, hx⟩ =>
    ⟨c, hc, hx.imp_right fun ⟨e', he', hrest⟩ => ⟨e', hPQ he', hrest⟩⟩
  display := h.display
  tenant i p par q hp hpar hq hco := (h.tenant i p par q hp hpar hq hco).imp_right
    (Or.imp_right fun ⟨e', he', hrest⟩ => ⟨e', hPQ he', hrest⟩)

/-- What excuses a row goes on excusing it when the statement has visited
another. -/
lemma during_tail {e : Event} {P : List (Event × Trigger)} (hPQ : P ⊆ Q) {c : ℤ} (hi : i ≠ c) :
    (∀ par, (during tr e (c :: todo) P).commercial par i → (during tr e todo Q).commercial par i) ∧
      (∀ d, (during tr e (c :: todo) P).name d i → (during tr e todo Q).name d i) ∧
      ∀ par, (during tr e (c :: todo) P).tenant par i → (during tr e todo Q).tenant par i := by
  have hrest : i ∈ c :: todo → i ∈ todo := fun hmem => (mem_cons.mp hmem).resolve_left hi
  refine ⟨fun par hx => ?_, fun d hx => ?_, fun par hx => ?_⟩
  all_goals
    refine hx.imp (fun ⟨htr, hid, hmem⟩ => ⟨htr, hid, hrest hmem⟩) ?_
    exact fun ⟨e', he', hr⟩ => ⟨e', hPQ he', hr⟩

variable {ids : List ℤ}

/-- A trigger of another kind is waiting whatever the statement does. -/
lemma during_other {e : Event} {P : List (Event × Trigger)} (hPQ : P ⊆ Q) :
    (tr ≠ .cascadeCommercial → ∀ par i, (during tr e ids P).commercial par i →
      (during tr e todo Q).commercial par i) ∧
    (tr ≠ .cascadeTenant → ∀ par i, (during tr e ids P).tenant par i →
      (during tr e todo Q).tenant par i) := by
  refine ⟨fun htr par i hx => ?_, fun htr par i hx => ?_⟩
  all_goals
    obtain ⟨htr', -⟩ | ⟨e', he', hr⟩ := hx
    · exact absurd htr' htr
    · exact .inr ⟨e', hPQ he', hr⟩

/-- **One row.** -/
theorem Tidy.touch {e : Event} {id : ℤ} {old new : ResPartner} {P : List (Event × Trigger)}
    (h : Tidy t (during tr e (id :: todo) P)) (hshallow : Shallow t) (hold : t.get? id = some old)
    (hnew : Repaired tr t id old new) :
    Tidy (t.modify id fun _ => new) (during tr e todo (jobs [⟨id, old, new⟩] ++ P)) := by
  have hbase : SameBase t (t.modify id fun _ => new) := sameBase_modify hold hnew.base
  obtain ⟨-, hparent, hcompany, -⟩ := base_eq_iff.mp hnew.base
  have hself : (t.modify id fun _ => new).get? id = some new := by
    rw [get?_modify_self, hold, map_some]
  have hother : ∀ {i}, i ≠ id → (t.modify id fun _ => new).get? i = t.get? i :=
    fun hi => get?_modify_of_ne t _ hi
  have hjob : ∀ tr, ((⟨id, old, new⟩, tr) : Event × Trigger) ∈
      jobs [⟨id, old, new⟩] ++ P := fun tr =>
    mem_append_left _ (mem_jobs.mpr (mem_singleton.mpr rfl))
  have hlater : P ⊆ jobs [⟨id, old, new⟩] ++ P := subset_append_right _ _
  refine ⟨?_, ?_, ?_, ?_⟩
  · intro i p hp hwrong
    rw [← commercialOf_congr hbase] at hwrong
    by_cases hi : i = id
    · subst hi
      obtain rfl : new = p := some.inj (hself.symm.trans hp)
      have hcp := hnew.commercial
      by_cases htr : tr = .cascadeCommercial
      · rw [if_pos htr] at hcp
        exact absurd hcp hwrong
      · rw [if_neg htr] at hcp
        rw [hcp] at hwrong
        obtain ⟨hcomp, par, q, hpar, hq, hwhy⟩ := h.commercial _ _ hold hwrong
        have hne := hshallow.parent_ne hold hpar
        refine ⟨hcompany.trans hcomp, par, q, hparent.trans hpar, (hother hne).trans hq, ?_⟩
        rw [← commercialOf_congr hbase]
        exact hwhy.imp_right ((during_other hlater).1 htr par _)
    · rw [hother hi] at hp
      obtain ⟨hcomp, par, q, hpar, hq, hwhy⟩ := h.commercial i p hp hwrong
      have hwhy := hwhy.imp_right ((during_tail hlater hi).1 par)
      by_cases hparid : par = id
      · obtain rfl : id = par := hparid.symm
        obtain rfl : old = q := some.inj (hold.symm.trans hq)
        refine ⟨hcomp, _, new, hpar, hself, ?_⟩
        rw [← commercialOf_congr hbase]
        by_cases hright : new.commercialPartnerId = commercialOf t id
        · obtain hwrongpar | hx := hwhy
          · -- the parent was wrong and is right now, so its own trigger waits
            refine .inr (.inr ⟨⟨id, old, new⟩, hjob _, rfl, ?_⟩)
            unfold Event.commercialChanged
            rw [hright, bne_iff_ne]
            exact hwrongpar.symm
          · exact .inr hx
        · exact .inl hright
      · refine ⟨hcomp, par, q, hpar, (hother hparid).trans hq, ?_⟩
        rw [← commercialOf_congr hbase]
        exact hwhy
  · intro i p hp hwrong
    rw [← companyNameFor_congr hbase rfl] at hwrong
    rw [← commercialOf_congr hbase]
    by_cases hi : i = id
    · subst hi
      obtain rfl : new = p := some.inj (hself.symm.trans hp)
      exact absurd hnew.name hwrong
    · rw [hother hi] at hp
      exact (h.name i p hp hwrong).imp_right fun ⟨c, hc, hx⟩ =>
        ⟨c, hc, (during_tail hlater hi).2.1 c hx⟩
  · intro i p hp
    by_cases hi : i = id
    · subst hi
      obtain rfl : new = p := some.inj (hself.symm.trans hp)
      exact hnew.display
    · rw [hother hi] at hp
      exact h.display i p hp
  · intro i p par q hp hpar hq hco
    by_cases hi : i = id
    · subst hi
      obtain rfl : new = p := some.inj (hself.symm.trans hp)
      have hparold := hparent.symm.trans hpar
      rw [hother (hshallow.parent_ne hold hparold)] at hq
      have htenant := hnew.tenant
      by_cases htr : tr = .cascadeTenant
      · rw [if_pos htr] at htenant
        exact .inl (htenant par q hpar hq hco)
      · rw [if_neg htr] at htenant
        rw [htenant]
        exact (h.tenant _ _ par q hold hparold hq hco).imp_right
          ((during_other hlater).2 htr par _)
    · rw [hother hi] at hp
      by_cases hparid : par = id
      · obtain rfl : id = par := hparid.symm
        obtain rfl : new = q := some.inj (hself.symm.trans hq)
        by_cases hsame : new.companyId = old.companyId
        · rw [hsame] at hco ⊢
          exact (h.tenant i p _ _ hp hpar hold hco).imp_right ((during_tail hlater hi).2.2 _)
        · refine .inr (.inr ⟨⟨id, old, new⟩, hjob _, rfl, ?_⟩)
          exact bne_iff_ne.mpr hsame
      · rw [hother hparid] at hq
        exact (h.tenant i p par q hp hpar hq hco).imp_right ((during_tail hlater hi).2.2 par)

/-- A row that is gone needs no excuse. -/
lemma Tidy.skip {e : Event} {c : ℤ} {P : List (Event × Trigger)}
    (h : Tidy t (during tr e (c :: todo) P)) (hgone : t.get? c = none) :
    Tidy t (during tr e todo P) := by
  have hne : ∀ {i p}, t.get? i = some p → i ≠ c := by
    rintro i p hp rfl
    rw [hgone] at hp
    cases hp
  refine ⟨fun i p hp hwrong => ?_, fun i p hp hwrong => ?_, h.display, ?_⟩
  · obtain ⟨hcomp, par, q, hpar, hq, hwhy⟩ := h.commercial i p hp hwrong
    refine ⟨hcomp, par, q, hpar, hq, hwhy.imp_right ?_⟩
    exact (during_tail (List.Subset.refl P) (hne hp)).1 par
  · exact (h.name i p hp hwrong).imp_right fun ⟨d, hd, hx⟩ =>
      ⟨d, hd, (during_tail (List.Subset.refl P) (hne hp)).2.1 d hx⟩
  · exact fun i p par q hp hpar hq hco => (h.tenant i p par q hp hpar hq hco).imp_right
      ((during_tail (List.Subset.refl P) (hne hp)).2.2 par)

/-! ### Statements -/

/-- **The rule of statements.**  What holds of the table, the rows to visit and the
rows changed, and goes on holding as one row is visited, holds at the end. -/
theorem updateRows_rule (set : Table ResPartner → ℤ → ResPartner → ResPartner)
    {I : Table ResPartner → List ℤ → List Event → Prop}
    (hskip : ∀ s id ids evs, s.get? id = none → I s (id :: ids) evs → I s ids evs)
    (hrow : ∀ s id ids evs old, s.get? id = some old → I s (id :: ids) evs →
      I (s.modify id fun _ => before named s id (set s id old)) ids
        (evs ++ [⟨id, old, before named s id (set s id old)⟩]))
    {s : Table ResPartner} {evs : List Event} (h : I s ids evs) :
    I (updateRows named set ids s).1 [] (evs ++ (updateRows named set ids s).2) := by
  induction ids generalizing s evs with
  | nil =>
      rw [updateRows, append_nil]
      exact h
  | cons id ids ih =>
      rw [updateRows]
      cases hold : s.get? id with
      | none => exact ih (hskip s id ids evs hold h)
      | some old =>
          have hrest := ih (hrow s id ids evs old hold h)
          rw [append_assoc] at hrest
          exact hrest

/-- **One statement.**  Where the statement sets each row right for its trigger,
it leaves out of date only what the triggers it fires will see to. -/
theorem updateRows_tidy {e : Event} {named : Named}
    {set : Table ResPartner → ℤ → ResPartner → ResPartner} {t₀ : Table ResPartner}
    (hshallow : Shallow t₀) (hset : ∀ s id old, SameBase t₀ s → s.get? id = some old →
      Repaired tr s id old (before named s id (set s id old)))
    {P : List (Event × Trigger)} (hbase : SameBase t₀ t) (h : Tidy t (during tr e ids P)) :
    SameBase t₀ (updateRows named set ids t).1 ∧ Tidy (updateRows named set ids t).1
        (during tr e [] (jobs (updateRows named set ids t).2 ++ P)) := by
  have hstart : SameBase t₀ t ∧ Tidy t (during tr e ids (jobs [] ++ P)) := ⟨hbase, h⟩
  refine updateRows_rule named set (I := fun s ids evs =>
    SameBase t₀ s ∧ Tidy s (during tr e ids (jobs evs ++ P))) ?_ ?_ hstart
  · exact fun s id ids evs hgone hs => ⟨hs.1, hs.2.skip hgone⟩
  · rintro s id ids evs old hold ⟨hbase, h⟩
    have hnew := hset s id old hbase hold
    refine ⟨hbase.trans (sameBase_modify hold hnew.base), ?_⟩
    refine (h.touch (hshallow.congr hbase) hold hnew).mono_during ?_
    rintro ⟨e', tr'⟩ hmem
    simp only [mem_append, mem_jobs, mem_cons, not_mem_nil, or_false] at hmem ⊢
    tauto

lemma repaired_before {named : Named} {id : ℤ} {old new : ResPartner}
    (hbase : base new = base old) (hcommercial : if tr = .cascadeCommercial then
        (before named t id new).commercialPartnerId = commercialOf t id
      else (before named t id new).commercialPartnerId = old.commercialPartnerId)
    (htenant : if tr = .cascadeTenant then ∀ par q, new.parentId = some par →
        t.get? par = some q → q.companyId ≠ none →
        (before named t id new).companyId = q.companyId
      else (before named t id new).companyId = old.companyId) :
    Repaired tr t id old (before named t id new) where
  base := (before_base named t id new).trans hbase
  name := by
    have hname : (before named t id new).commercialCompanyName = companyNameFor t new := by
      rw [before_eq]
    rw [hname]
    exact companyNameFor_congr (SameBase.refl t) (before_base named t id new).symm
  display := before_shownAs named t id new
  commercial := hcommercial
  tenant := by
    obtain ⟨-, hparent, -, -⟩ := base_eq_iff.mp (before_base named t id new)
    rw [hparent]
    exact htenant

/-! ### Triggers -/

/-- The rows a trigger has to visit. -/
structure Covers (tr : Trigger) (e : Event) (t : Table ResPartner) (ids : List ℤ) : Prop where
  commercial : tr = .cascadeCommercial → e.commercialChanged = true → ∀ i p,
    t.get? i = some p → p.parentId = some e.id → p.isCompany = false → i ∈ ids
  name : tr = .cascadeCommercialName → e.entityChanged = true → ∀ i p,
    t.get? i = some p → p.commercialPartnerId = some e.id → i ≠ e.id →
    p.commercialPartnerId = commercialOf t i →
    p.commercialCompanyName ≠ companyNameFor t p → i ∈ ids
  tenant : tr = .cascadeTenant → e.tenantChanged = true → ∀ i p,
    t.get? i = some p → p.parentId = some e.id → i ∈ ids

/-- The trigger's excuse is the rows its statement is going to visit. -/
lemma Tidy.begin {e : Event} {P : List (Event × Trigger)} (h : Tidy t (excuses ((e, tr) :: P)))
    (hcovers : Covers tr e t ids) : Tidy t (during tr e ids P) := by
  have hjob : ∀ {e' : Event} {tr' : Trigger}, (e', tr') ∈ (e, tr) :: P →
      e' = e ∧ tr = tr' ∨ (e', tr') ∈ P := by
    intro e' tr' hmem
    rcases mem_cons.mp hmem with heq | hmem
    · cases heq
      exact .inl ⟨rfl, rfl⟩
    · exact .inr hmem
  refine ⟨fun i p hp hwrong => ?_, fun i p hp hwrong => ?_, h.display, ?_⟩
  · obtain ⟨hcomp, par, q, hpar, hq, hwhy⟩ := h.commercial i p hp hwrong
    refine ⟨hcomp, par, q, hpar, hq, hwhy.imp_right ?_⟩
    rintro ⟨e', he', rfl, hchanged⟩
    obtain ⟨rfl, htr⟩ | hmem := hjob he'
    · exact .inl ⟨htr, rfl, hcovers.commercial htr hchanged i p hp hpar hcomp⟩
    · exact .inr ⟨e', hmem, rfl, hchanged⟩
  · by_cases hcp : p.commercialPartnerId = commercialOf t i
    · refine (h.name i p hp hwrong).imp_right fun ⟨c, hc, hx⟩ => ⟨c, hc, ?_⟩
      obtain ⟨e', he', rfl, hne, hchanged⟩ := hx
      obtain ⟨rfl, htr⟩ | hmem := hjob he'
      · exact .inl ⟨htr, rfl, hcovers.name htr hchanged i p hp hc hne hcp hwrong⟩
      · exact .inr ⟨e', hmem, rfl, hne, hchanged⟩
    · exact .inl hcp
  · intro i p par q hp hpar hq hco
    refine (h.tenant i p par q hp hpar hq hco).imp_right ?_
    rintro ⟨e', he', rfl, hchanged⟩
    obtain ⟨rfl, htr⟩ | hmem := hjob he'
    · exact .inl ⟨htr, rfl, hcovers.tenant htr hchanged i p hp hpar⟩
    · exact .inr ⟨e', hmem, rfl, hchanged⟩

/-- When the statement has visited its rows, only waiting triggers excuse. -/
lemma Tidy.end {e : Event} {P : List (Event × Trigger)} (h : Tidy t (during tr e [] P)) :
    Tidy t (excuses P) := by
  refine ⟨fun i p hp hwrong => ?_, fun i p hp hwrong => ?_, h.display, ?_⟩
  · obtain ⟨hcomp, par, q, hpar, hq, hwhy⟩ := h.commercial i p hp hwrong
    refine ⟨hcomp, par, q, hpar, hq, hwhy.imp_right fun hx => hx.resolve_left ?_⟩
    exact fun ⟨_, _, hmem⟩ => not_mem_nil hmem
  · refine (h.name i p hp hwrong).imp_right fun ⟨c, hc, hx⟩ => ⟨c, hc, hx.resolve_left ?_⟩
    exact fun ⟨_, _, hmem⟩ => not_mem_nil hmem
  · refine fun i p par q hp hpar hq hco => (h.tenant i p par q hp hpar hq hco).imp_right
      fun hx => hx.resolve_left ?_
    exact fun ⟨_, _, hmem⟩ => not_mem_nil hmem

/-- A partner's children are the first level of what is beneath it. -/
lemma mem_kidsOf {id : ℤ} (hp : t.get? i = some p) (hpar : p.parentId = some id) :
    i ∈ kidsOf t id := by
  have hrow := get?_eq_some_iff.mp hp
  have hchild : i ∈ children t [id] := by
    refine List.mem_map.mpr ⟨(i, p), mem_filter.mpr ⟨hrow, ?_⟩, rfl⟩
    simp [hpar]
  unfold kidsOf
  obtain ⟨n, hn⟩ := Nat.exists_eq_succ_of_ne_zero (length_pos_of_mem hrow).ne'
  rw [hn]
  exact mem_append_left _ hchild

lemma mem_select {cond : ℤ → ResPartner → Bool} (hp : t.get? i = some p)
    (hcond : cond i p = true) : i ∈ select t cond :=
  List.mem_map.mpr ⟨(i, p), mem_filter.mpr ⟨get?_eq_some_iff.mp hp, hcond⟩, rfl⟩

section Fire

variable {scan : Table ResPartner → List ℤ → List ℤ} {t₀ : Table ResPartner}
  {P : List (Event × Trigger)} {e : Event}

lemma cascadeCommercialName_tidy (hscan : ∀ t l, (scan t l).Perm l) (hshallow : Shallow t₀)
    (hbase : SameBase t₀ t) (h : Tidy t (excuses ((e, .cascadeCommercialName) :: P))) :
    SameBase t₀ (cascadeCommercialName scan t e).1 ∧ Tidy (cascadeCommercialName scan t e).1
        (excuses (jobs (cascadeCommercialName scan t e).2 ++ P)) := by
  unfold cascadeCommercialName
  split
  · next hchanged =>
      have hcovers : Covers .cascadeCommercialName e t (scan t (select t fun id p =>
          p.commercialPartnerId == some e.id && id != e.id &&
            p.commercialCompanyName != commercialNameOf t id)) := by
        refine ⟨nofun, fun _ _ i p hp hc hne hcp hwrong => ?_, nofun⟩
        refine (hscan t _).mem_iff.mpr (mem_select hp ?_)
        rw [commercialNameOf_eq (hshallow.congr hbase) hp hcp]
        simp [hc, hne, hwrong]
      have hset : ∀ (s : Table ResPartner) (id : ℤ) (old : ResPartner), SameBase t₀ s →
          s.get? id = some old → Repaired .cascadeCommercialName s id old
            (before {} s id { old with commercialCompanyName := commercialNameOf s id }) := by
        intro s id old _ _
        refine repaired_before rfl ?_ ?_
        · rw [if_neg nofun, before_eq]
          rfl
        · rw [if_neg nofun, before_eq]
          rfl
      obtain ⟨hbase', h'⟩ := updateRows_tidy hshallow hset hbase (h.begin hcovers)
      exact ⟨hbase', h'.end⟩
  · next hsame =>
      have hcovers : Covers .cascadeCommercialName e t [] :=
        ⟨nofun, fun _ hchanged => absurd hchanged hsame, nofun⟩
      exact ⟨hbase, (h.begin hcovers).end⟩

lemma cascadeCommercial_tidy (hscan : ∀ t l, (scan t l).Perm l) (hshallow : Shallow t₀)
    (hbase : SameBase t₀ t) (h : Tidy t (excuses ((e, .cascadeCommercial) :: P))) :
    SameBase t₀ (cascadeCommercial scan t e).1 ∧ Tidy (cascadeCommercial scan t e).1
        (excuses (jobs (cascadeCommercial scan t e).2 ++ P)) := by
  unfold cascadeCommercial
  split
  · next hchanged =>
      have hcovers : Covers .cascadeCommercial e t (scan t ((kidsOf t e.id).filter fun id =>
          !(t.get? id).any (·.isCompany))) := by
        refine ⟨fun _ _ i p hp hpar hcompany => ?_, nofun, nofun⟩
        refine (hscan t _).mem_iff.mpr (mem_filter.mpr ⟨mem_kidsOf hp hpar, ?_⟩)
        simp [hp, hcompany]
      have hset : ∀ (s : Table ResPartner) (id : ℤ) (old : ResPartner), SameBase t₀ s →
          s.get? id = some old → Repaired .cascadeCommercial s id old
            (before {} s id { old with commercialPartnerId := commercialOf s id }) := by
        intro s id old _ _
        refine repaired_before rfl ?_ ?_
        · rw [if_pos rfl, before_eq]
          rfl
        · rw [if_neg nofun, before_eq]
          rfl
      obtain ⟨hbase', h'⟩ := updateRows_tidy hshallow hset hbase (h.begin hcovers)
      exact ⟨hbase', h'.end⟩
  · next hsame =>
      have hcovers : Covers .cascadeCommercial e t [] :=
        ⟨fun _ hchanged => absurd hchanged hsame, nofun, nofun⟩
      exact ⟨hbase, (h.begin hcovers).end⟩

lemma cascadeDisplayName_tidy (hshallow : Shallow t₀)
    (hbase : SameBase t₀ t) (h : Tidy t (excuses ((e, .cascadeDisplayName) :: P))) :
    SameBase t₀ (cascadeDisplayName scan t e).1 ∧ Tidy (cascadeDisplayName scan t e).1
        (excuses (jobs (cascadeDisplayName scan t e).2 ++ P)) := by
  have hcovers : ∀ ids, Covers .cascadeDisplayName e t ids := fun ids => ⟨nofun, nofun, nofun⟩
  unfold cascadeDisplayName
  split
  · have hset : ∀ (s : Table ResPartner) (id : ℤ) (old : ResPartner), SameBase t₀ s →
        s.get? id = some old → Repaired .cascadeDisplayName s id old
          (before {} s id { old with
            displayName := (displayNameOf s id).getD old.displayName }) := by
      intro s id old _ _
      refine repaired_before rfl ?_ ?_
      · rw [if_neg nofun, before_eq]
        rfl
      · rw [if_neg nofun, before_eq]
        rfl
    obtain ⟨hbase', h'⟩ := updateRows_tidy hshallow hset hbase (h.begin (hcovers _))
    exact ⟨hbase', h'.end⟩
  · exact ⟨hbase, (h.begin (hcovers [])).end⟩

lemma cascadeTenant_tidy (hscan : ∀ t l, (scan t l).Perm l) (hshallow : Shallow t₀)
    (hbase : SameBase t₀ t) (h : Tidy t (excuses ((e, .cascadeTenant) :: P))) :
    SameBase t₀ (cascadeTenant scan t e).1 ∧
      Tidy (cascadeTenant scan t e).1 (excuses (jobs (cascadeTenant scan t e).2 ++ P)) := by
  unfold cascadeTenant
  split
  · next hchanged =>
      have hcovers : Covers .cascadeTenant e t (scan t (kidsOf t e.id)) := by
        refine ⟨nofun, nofun, fun _ _ i p hp hpar => ?_⟩
        exact (hscan t _).mem_iff.mpr (mem_kidsOf hp hpar)
      have hinherits : ∀ (s : Table ResPartner) (id : ℤ) (old : ResPartner),
          SameBase t₀ s → s.get? id = some old → Repaired .cascadeTenant s id old
            (before { companyId := true } s id { old with companyId := e.new.companyId }) := by
        intro s id old _ _
        refine repaired_before rfl (by rw [if_neg nofun, before_eq]; rfl) ?_
        rw [if_pos rfl]
        intro par q hpar hq hco
        rw [before_eq]
        exact inheritedTenant_of_parent hpar hq hco
      obtain ⟨hbase', h'⟩ := updateRows_tidy hshallow hinherits hbase (h.begin hcovers)
      exact ⟨hbase', h'.end⟩
  · next hsame =>
      have hcovers : Covers .cascadeTenant e t [] :=
        ⟨nofun, nofun, fun _ hchanged => absurd hchanged hsame⟩
      exact ⟨hbase, (h.begin hcovers).end⟩

/-- **One trigger.** -/
theorem fire_tidy (hscan : ∀ t l, (scan t l).Perm l) (hshallow : Shallow t₀)
    (job : Event × Trigger) (hbase : SameBase t₀ t) (h : Tidy t (excuses (job :: P))) :
    SameBase t₀ (fire scan t job).1 ∧
      Tidy (fire scan t job).1 (excuses ((fire scan t job).2 ++ P)) := by
  obtain ⟨e, tr⟩ := job
  cases tr with
  | cascadeCommercialName => exact cascadeCommercialName_tidy hscan hshallow hbase h
  | cascadeCommercial => exact cascadeCommercial_tidy hscan hshallow hbase h
  | cascadeDisplayName => exact cascadeDisplayName_tidy hshallow hbase h
  | cascadeTenant => exact cascadeTenant_tidy hscan hshallow hbase h

/-- **All triggers.** -/
theorem runAll_tidy (hscan : ∀ t l, (scan t l).Perm l) (hshallow : Shallow t₀) {nest : ℕ}
    (h : Tidy t₀ (excuses P)) (hrun : Cascades.runAll (fire scan) nest t₀ P = some t) :
    SameBase t₀ t ∧ Tidy t (excuses []) :=
  Cascades.runAll_pending (I := fun s P => SameBase t₀ s ∧ Tidy s (excuses P))
    (fun _ job _ hs => fire_tidy hscan hshallow job hs.1 hs.2) hrun ⟨SameBase.refl t₀, h⟩

end Fire

/-! ### Nothing waiting -/

/-- A wrong entity would have a wrong entity above it, and so on up to the root. -/
lemma Tidy.commercial_eq (h : Tidy t (excuses [])) {n : ℕ} :
    ∀ {i : ℤ} {p : ResPartner}, within t n i = true → t.get? i = some p →
      p.commercialPartnerId = commercialOf t i := by
  induction n with
  | zero =>
      intro i p hn hp
      obtain ⟨p', hp', hroot⟩ := within_zero hn
      obtain rfl : p = p' := some.inj (hp.symm.trans hp')
      by_contra hwrong
      obtain ⟨-, par, -, hpar, -⟩ := h.commercial i p hp hwrong
      rw [hroot] at hpar
      cases hpar
  | succ n ih =>
      intro i p hn hp
      obtain ⟨p', hp', hparent⟩ := within_succ hn
      obtain rfl : p = p' := some.inj (hp.symm.trans hp')
      by_contra hwrong
      obtain ⟨-, par, q, hpar, hq, hwhy⟩ := h.commercial i p hp hwrong
      obtain hwrongpar | ⟨e, he, -⟩ := hwhy
      · exact hwrongpar (ih (hparent par hpar) hq)
      · cases he

/-- What the stored columns are, when nothing is out of date. -/
structure Settled (t : Table ResPartner) : Prop where
  commercial : ∀ i p, t.get? i = some p → p.commercialPartnerId = commercialOf t i
  name : ∀ i p, t.get? i = some p → p.commercialCompanyName = companyNameFor t p
  display : ∀ i p, t.get? i = some p → p.displayName = shownAs p
  tenant : ∀ i p par q, t.get? i = some p → p.parentId = some par → t.get? par = some q →
    q.companyId ≠ none → p.companyId = q.companyId

lemma Tidy.settled (hshallow : Shallow t) (h : Tidy t (excuses [])) : Settled t := by
  have hcommercial : ∀ i p, t.get? i = some p → p.commercialPartnerId = commercialOf t i :=
    fun i p hp => h.commercial_eq (hshallow.within hp) hp
  refine ⟨hcommercial, fun i p hp => ?_, h.display, fun i p par q hp hpar hq hco => ?_⟩
  · by_contra hwrong
    obtain hcp | ⟨c, -, e, he, -⟩ := h.name i p hp hwrong
    · exact hcp (hcommercial i p hp)
    · cases he
  · obtain heq | ⟨e, he, -⟩ := h.tenant i p par q hp hpar hq hco
    · exact heq
    · cases he

/-- Settled columns are what they are defined to be. -/
lemma Settled.derived (hshallow : Shallow t) (h : Settled t) : Derived t := by
  refine ⟨fun i p hp => ?_, fun i p c q hp hc hq => ?_, h.display, h.tenant⟩
  · obtain ⟨c, hc, his⟩ := commercialOf_isCommercial hshallow hp
    exact ⟨c, (h.commercial i p hp).trans hc, his⟩
  · obtain ⟨d, hd, his⟩ := commercialOf_isCommercial hshallow hp
    obtain rfl : c = d := hc.unique his
    rw [h.name i p hp, companyNameFor_eq hshallow hp, hd]
    unfold companyNameUnder
    rw [bind_some, hq]

end ResPartner

end CErp
