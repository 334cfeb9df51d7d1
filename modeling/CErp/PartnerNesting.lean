/-
How deep the triggers of the partner hierarchy nest.

A trigger works only for a row with something of note changed in it, and what it
changes of note is beneath that row (`fire_beneath`).  With 64 partners above a
row at most, and one level for the names of the last of them, 66 levels are
always enough: `step_finishes`.
-/
import CErp.PartnerCascades

namespace CErp

open List Table

namespace ResPartner

variable {t u : Table ResPartner}

/-! ### Below a row -/

/-- There are at least `d` partners above. -/
def Deep (t : Table ResPartner) (d : ℕ) (i : ℤ) : Prop := ∀ n, within t n i = true → d ≤ n

lemma Deep.congr {d : ℕ} {i : ℤ} (h : Deep t d i) (hbase : SameBase t u) : Deep u d i :=
  fun n hn => h n (within_congr hbase.symm hn)

lemma Deep.mono {d d' : ℕ} {i : ℤ} (h : Deep t d' i) (hle : d ≤ d') : Deep t d i :=
  fun n hn => hle.trans (h n hn)

lemma deep_children {d : ℕ} {ids : List ℤ} (h : ∀ i ∈ ids, Deep t d i) :
    ∀ i ∈ children t ids, Deep t (d + 1) i := by
  intro i hi n hn
  obtain ⟨⟨j, p⟩, hmem, rfl⟩ := mem_map.mp hi
  obtain ⟨hrow, hparent⟩ := mem_filter.mp hmem
  obtain ⟨par, hpar, hin⟩ := (Option.any_eq_true _ _).mp hparent
  obtain ⟨m, rfl, hm⟩ := within_parent hn (get?_eq_some_iff.mpr hrow) hpar
  have hd := h par (contains_iff_mem.mp hin) m hm
  omega

lemma deep_kids {levels d : ℕ} {ids : List ℤ} (h : ∀ i ∈ ids, Deep t d i) :
    ∀ i ∈ kids t levels ids, Deep t (d + 1) i := by
  induction levels generalizing d ids with
  | zero =>
      intro i hi
      cases hi
  | succ levels ih =>
      intro i hi
      rw [kids, mem_append] at hi
      obtain hi | hi := hi
      · exact deep_children h i hi
      · exact (ih (deep_children h) i hi).mono (Nat.le_succ _)

lemma deep_kidsOf {d : ℕ} {id : ℤ} (h : Deep t d id) : ∀ i ∈ kidsOf t id, Deep t (d + 1) i := by
  refine deep_kids fun i hi => ?_
  rw [mem_singleton] at hi
  rwa [hi]

/-! ### One trigger -/

/-- Nothing of note has changed. -/
def Event.Quiet (e : Event) : Prop := e.entityChanged = false ∧ e.tenantChanged = false

lemma Event.Quiet.commercial {e : Event} (h : e.Quiet) : e.commercialChanged = false := by
  have hentity := h.1
  exact (Bool.or_eq_false_iff.mp hentity).2

/-- What a statement that leaves the base columns alone changes. -/
lemma updateRows_events (named : Named) (set : Table ResPartner → ℤ → ResPartner → ResPartner)
    (hset : ∀ s id old, base (set s id old) = base old) (ids : List ℤ) (t : Table ResPartner) :
    SameBase t (updateRows named set ids t).1 ∧
      ∀ e ∈ (updateRows named set ids t).2, e.id ∈ ids ∧ (∃ p, t.get? e.id = some p) ∧
        ∃ s, e.new = before named s e.id (set s e.id e.old) := by
  have hstart : SameBase t t ∧ ids ⊆ ids ∧ ∀ e ∈ ([] : List Event), e.id ∈ ids ∧
      (∃ p, t.get? e.id = some p) ∧ ∃ s, e.new = before named s e.id (set s e.id e.old) :=
    ⟨SameBase.refl t, List.Subset.refl ids, fun _ he => absurd he not_mem_nil⟩
  have hend := updateRows_rule named set (I := fun s todo evs => SameBase t s ∧ todo ⊆ ids ∧
    ∀ e ∈ evs, e.id ∈ ids ∧ (∃ p, t.get? e.id = some p) ∧
      ∃ s, e.new = before named s e.id (set s e.id e.old)) ?_ ?_ hstart
  · exact ⟨hend.1, hend.2.2⟩
  · exact fun s id todo evs _ h => ⟨h.1, List.Subset.trans (subset_cons_self _ _) h.2.1, h.2.2⟩
  · rintro s id todo evs old hold ⟨hbase, htodo, hevs⟩
    have hnew : base (before named s id (set s id old)) = base old :=
      (before_base _ _ _ _).trans (hset s id old)
    refine ⟨hbase.trans (sameBase_modify hold hnew), List.Subset.trans (subset_cons_self _ _) htodo, ?_⟩
    intro e he
    obtain he | he := mem_append.mp he
    · exact hevs e he
    · obtain rfl := mem_singleton.mp he
      obtain ⟨p, hp, -⟩ := hbase.symm.exists hold
      exact ⟨htodo mem_cons_self, ⟨p, hp⟩, s, rfl⟩

section Fire

variable {scan : Table ResPartner → List ℤ → List ℤ}

/-- A statement that sets one of the names changes nothing of note. -/
lemma quiet_of_before {s : Table ResPartner} {e : Event} {p : ResPartner}
    (hnew : e.new = before {} s e.id p) (hbase : base p = base e.old)
    (hcommercial : p.commercialPartnerId = e.old.commercialPartnerId)
    (htenant : p.companyId = e.old.companyId) : e.Quiet := by
  obtain ⟨hname, -, hcompany, -⟩ := base_eq_iff.mp hbase
  rw [before_eq] at hnew
  unfold Event.Quiet Event.entityChanged Event.commercialChanged Event.tenantChanged
  rw [hnew]
  simp [hname, hcompany, hcommercial, htenant]

/-- **What a trigger changes of note is beneath the row it is fired for.** -/
theorem fire_beneath (hscan : ∀ t l, (scan t l).Perm l) (t : Table ResPartner)
    (job : Event × Trigger) :
    SameBase t (fire scan t job).1 ∧ ∀ j ∈ (fire scan t job).2, ¬ job.1.Quiet ∧
      (j.1.Quiet ∨ j.1.id ∈ kidsOf t job.1.id ∧ ∃ p, t.get? j.1.id = some p) := by
  obtain ⟨e, tr⟩ := job
  have hnothing : SameBase t t ∧ ∀ j ∈ jobs [], ¬ e.Quiet ∧
      (j.1.Quiet ∨ j.1.id ∈ kidsOf t e.id ∧ ∃ p, t.get? j.1.id = some p) :=
    ⟨SameBase.refl t, fun _ hj => absurd hj not_mem_nil⟩
  unfold fire
  cases tr with
  | cascadeCommercialName =>
      dsimp only
      unfold cascadeCommercialName
      split
      · next hchanged =>
          obtain ⟨hbase, hevs⟩ := updateRows_events {}
            (fun t id p => { p with commercialCompanyName := commercialNameOf t id })
            (fun _ _ _ => rfl) (scan t (select t fun id p => p.commercialPartnerId == some e.id &&
              id != e.id && p.commercialCompanyName != commercialNameOf t id)) t
          refine ⟨hbase, fun j hj => ⟨fun hquiet => ?_, .inl ?_⟩⟩
          · rw [hquiet.1] at hchanged
            cases hchanged
          · obtain ⟨-, -, s, hnew⟩ := hevs j.1 (mem_jobs.mp hj)
            exact quiet_of_before hnew rfl rfl rfl
      · exact hnothing
  | cascadeCommercial =>
      dsimp only
      unfold cascadeCommercial
      split
      · next hchanged =>
          obtain ⟨hbase, hevs⟩ := updateRows_events {}
            (fun t id p => { p with commercialPartnerId := commercialOf t id })
            (fun _ _ _ => rfl) (scan t ((kidsOf t e.id).filter fun id =>
              !(t.get? id).any (·.isCompany))) t
          refine ⟨hbase, fun j hj => ⟨fun hquiet => ?_, .inr ?_⟩⟩
          · rw [hquiet.commercial] at hchanged
            cases hchanged
          · obtain ⟨hid, hrow, -⟩ := hevs j.1 (mem_jobs.mp hj)
            exact ⟨(mem_filter.mp ((hscan t _).mem_iff.mp hid)).1, hrow⟩
      · exact hnothing
  | cascadeDisplayName =>
      dsimp only
      unfold cascadeDisplayName
      split
      · next hchanged =>
          obtain ⟨hbase, hevs⟩ := updateRows_events {}
            (fun t id p => { p with
              displayName := (displayNameOf t id).getD p.displayName })
            (fun _ _ _ => rfl) (scan t (select t fun id p => p.commercialPartnerId == some e.id &&
              id != e.id && some p.displayName != displayNameOf t id)) t
          refine ⟨hbase, fun j hj => ⟨fun hquiet => ?_, .inl ?_⟩⟩
          · rw [hquiet.1] at hchanged
            cases hchanged
          · obtain ⟨-, -, s, hnew⟩ := hevs j.1 (mem_jobs.mp hj)
            exact quiet_of_before hnew rfl rfl rfl
      · exact hnothing
  | cascadeTenant =>
      dsimp only
      unfold cascadeTenant
      split
      · next hchanged =>
          obtain ⟨hbase, hevs⟩ := updateRows_events { companyId := true }
            (fun _ _ p => { p with companyId := e.new.companyId })
            (fun _ _ _ => rfl) (scan t (kidsOf t e.id)) t
          refine ⟨hbase, fun j hj => ⟨fun hquiet => ?_, .inr ?_⟩⟩
          · rw [hquiet.2] at hchanged
            cases hchanged
          · obtain ⟨hid, hrow, -⟩ := hevs j.1 (mem_jobs.mp hj)
            exact ⟨(hscan t _).mem_iff.mp hid, hrow⟩
      · exact hnothing

/-- The levels a trigger needs: one if nothing of note has changed, and otherwise
fewer the deeper its row is. -/
def Fits (t : Table ResPartner) (n : ℕ) (job : Event × Trigger) : Prop :=
  1 ≤ n ∧ (job.1.Quiet ∨ within t 64 job.1.id = true ∧ ∃ d, Deep t d job.1.id ∧ 66 ≤ n + d)

lemma fire_fits (hscan : ∀ t l, (scan t l).Perm l) (hshallow : Shallow u) (hbase : SameBase u t)
    {n : ℕ} {job : Event × Trigger} (h : Fits u n job) :
    ∃ m, n = m + 1 ∧ SameBase u (fire scan t job).1 ∧ ∀ j ∈ (fire scan t job).2, Fits u m j := by
  obtain ⟨hsame, hbeneath⟩ := fire_beneath hscan t job
  obtain ⟨hone, hwhy⟩ := h
  refine ⟨n - 1, by omega, hbase.trans hsame, fun j hj => ?_⟩
  obtain ⟨hloud, hj⟩ := hbeneath j hj
  obtain hquiet | ⟨hwithin, d, hd, hlevels⟩ := hwhy
  · exact absurd hquiet hloud
  · have h64 := hd 64 hwithin
    refine ⟨by omega, ?_⟩
    obtain hquiet | ⟨hkid, p, hp⟩ := hj
    · exact .inl hquiet
    · obtain ⟨q, hq, -⟩ := hbase.symm.exists hp
      refine .inr ⟨hshallow.within hq, d + 1, ?_, by omega⟩
      exact (deep_kidsOf (hd.congr hbase) _ hkid).congr hbase.symm

end Fire

/-! ### Operations -/

/-- The rows a statement has changed are there when it is done. -/
lemma updateRows_there {named : Named} {set : Table ResPartner → ℤ → ResPartner → ResPartner}
    {ids : List ℤ} {evs : List Event} (h : ∀ e ∈ evs, ∃ p, t.get? e.id = some p) :
    ∀ e ∈ evs ++ (updateRows named set ids t).2,
      ∃ p, (updateRows named set ids t).1.get? e.id = some p := by
  refine updateRows_rule named set (I := fun s _ evs => ∀ e ∈ evs, ∃ p, s.get? e.id = some p)
    (fun _ _ _ _ _ hs => hs) ?_ h
  intro s id todo evs' old hold hs e he
  by_cases hid : e.id = id
  · rw [hid, get?_modify_self, hold]
    exact ⟨_, rfl⟩
  · rw [get?_modify_of_ne s _ hid]
    obtain he | he := mem_append.mp he
    · exact hs e he
    · rw [mem_singleton.mp he] at hid
      exact absurd rfl hid

lemma write_there {scan : Table ResPartner → List ℤ → List ℤ} {parentFirst : Bool}
    (t : Table ResPartner) (op : PartnerOp) :
    ∀ e ∈ (write scan parentFirst t op).2,
      ∃ p, (write scan parentFirst t op).1.get? e.id = some p := by
  have hnone : ∀ {s : Table ResPartner}, ∀ e ∈ ([] : List Event), ∃ p, s.get? e.id = some p :=
    fun _ he => absurd he not_mem_nil
  cases op with
  | insert vals => exact hnone
  | write id c => exact updateRows_there hnone
  | delete id =>
      cases parentFirst with
      | true => exact updateRows_there (updateRows_there hnone)
      | false => exact updateRows_there (updateRows_there hnone)

/-- **66 levels are enough.** -/
theorem step_finishes {scan : Table ResPartner → List ℤ → List ℤ}
    (hscan : ∀ t l, (scan t l).Perm l) {nest : ℕ} (hnest : 66 ≤ nest) (parentFirst : Bool)
    (t : Table ResPartner) (op : PartnerOp)
    (hshallow : Shallow (write scan parentFirst t op).1) :
    ∃ t', step scan nest parentFirst t op = some t' := by
  have hfits : ∀ j ∈ jobs (write scan parentFirst t op).2,
      Fits (write scan parentFirst t op).1 nest j := by
    rintro ⟨e, tr⟩ hj
    obtain ⟨p, hp⟩ := write_there t op e (mem_jobs.mp hj)
    exact ⟨by omega, .inr ⟨hshallow.within hp, 0, fun n _ => Nat.zero_le n, by omega⟩⟩
  obtain ⟨t', ht', -⟩ := Cascades.runAll_finishes
    (K := fun s => SameBase (write scan parentFirst t op).1 s)
    (fun _ _ _ hbase hj => fire_fits hscan hshallow hbase hj) (SameBase.refl _) hfits
  exact ⟨t', ht'⟩

theorem step_finishes_group :
    ∃ t, step (fun _ ids => ids) 66 true Table.empty (.insert { name := "Group" }) = some t :=
  step_finishes (fun _ l => List.Perm.refl l) le_rfl true Table.empty _ (by decide)


end ResPartner

end CErp
