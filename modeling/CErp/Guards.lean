/-
Mutual exclusion by a set of taken keys.

Whoever wants a key looks whether it is taken and takes it in one step, and
gives it back when done.  `Exclusive` says that the set tells the truth: a key
is in it exactly when somebody holds it, and nobody else then does.  Taking a
free key and giving one back keep it so.
-/
import Mathlib.Data.List.Basic

namespace Guards

variable {ι κ : Type*}

/-- The taken keys are those that are held, each by one holder. -/
structure Exclusive (taken : List κ) (holds : ι → Option κ) : Prop where
  nodup : taken.Nodup
  taken_iff : ∀ k, k ∈ taken ↔ ∃ i, holds i = some k
  alone : ∀ {i j k}, holds i = some k → holds j = some k → i = j

variable {taken : List κ} {holds : ι → Option κ}

lemma Exclusive.empty : @Exclusive ι κ [] fun _ => none := by
  refine ⟨List.nodup_nil, ?_, fun h => nomatch h⟩
  intro k
  constructor
  · intro h
    cases h
  · rintro ⟨i, h⟩
    cases h

variable [DecidableEq ι]

/-- A key that is free is taken by somebody who holds none. -/
lemma Exclusive.take (h : Exclusive taken holds) {i : ι} {k : κ} (hfree : k ∉ taken)
    (hi : holds i = none) : Exclusive (k :: taken) (Function.update holds i (some k)) := by
  have hother : ∀ {j k'}, j ≠ i → Function.update holds i (some k) j = some k' → k' ∈ taken := by
    intro j k' hj hk'
    rw [Function.update_of_ne hj] at hk'
    exact (h.taken_iff k').mpr ⟨j, hk'⟩
  refine ⟨List.nodup_cons.mpr ⟨hfree, h.nodup⟩, ?_, ?_⟩
  · intro k'
    rw [List.mem_cons]
    constructor
    · rintro (rfl | hmem)
      · exact ⟨i, Function.update_self i _ holds⟩
      · obtain ⟨j, hj⟩ := (h.taken_iff k').mp hmem
        refine ⟨j, ?_⟩
        rw [Function.update_of_ne]
        · exact hj
        · rintro rfl
          rw [hi] at hj
          cases hj
    · rintro ⟨j, hj⟩
      by_cases hji : j = i
      · rw [hji, Function.update_self] at hj
        exact .inl (Option.some.inj hj).symm
      · exact .inr (hother hji hj)
  · intro j j' k' hj hj'
    by_cases hji : j = i
    · by_cases hji' : j' = i
      · rw [hji, hji']
      · rw [hji, Function.update_self] at hj
        cases hj
        exact absurd (hother hji' hj') hfree
    · by_cases hji' : j' = i
      · rw [hji', Function.update_self] at hj'
        cases hj'
        exact absurd (hother hji hj) hfree
      · rw [Function.update_of_ne hji] at hj
        rw [Function.update_of_ne hji'] at hj'
        exact h.alone hj hj'

variable [DecidableEq κ]

/-- Its holder gives a key back. -/
lemma Exclusive.release (h : Exclusive taken holds) {i : ι} {k : κ} (hi : holds i = some k) :
    Exclusive (taken.erase k) (Function.update holds i none) := by
  have hother : ∀ {j k'}, Function.update holds i none j = some k' → j ≠ i ∧ holds j = some k' := by
    intro j k' hj
    by_cases hji : j = i
    · rw [hji, Function.update_self] at hj
      cases hj
    · rw [Function.update_of_ne hji] at hj
      exact ⟨hji, hj⟩
  refine ⟨h.nodup.erase k, ?_, ?_⟩
  · intro k'
    rw [h.nodup.mem_erase_iff, h.taken_iff]
    constructor
    · rintro ⟨hne, j, hj⟩
      refine ⟨j, ?_⟩
      rw [Function.update_of_ne]
      · exact hj
      · rintro rfl
        rw [hi] at hj
        exact hne (Option.some.inj hj).symm
    · rintro ⟨j, hj⟩
      obtain ⟨hji, hj⟩ := hother hj
      refine ⟨?_, j, hj⟩
      rintro rfl
      exact hji (h.alone hj hi)
  · intro j j' k' hj hj'
    exact h.alone (hother hj).2 (hother hj').2

omit [DecidableEq ι] in
/-- A key that was given back is free. -/
lemma Exclusive.free_of_release (h : Exclusive taken holds) (k : κ) : k ∉ taken.erase k := by
  rw [h.nodup.mem_erase_iff]
  exact fun hmem => hmem.1 rfl

end Guards
