/-
Spans of a linear order: from a first element to a last one, both included, or
without end.

`overlaps` compares the ends of two spans; they overlap exactly when they have an
element in common (`overlaps_iff`).
-/
import Mathlib

variable {α : Type*} [LinearOrder α]

/-- A span; without a last element it has no end.  It is never the wrong way
round. -/
structure Span (α : Type*) [LinearOrder α] where
  first : α
  last : Option α
  ordered : ∀ e ∈ last, first ≤ e

namespace Span

/-- The elements from one on, up to another if there is one. -/
def between (first : α) (last : Option α) : Set α := {x | first ≤ x ∧ ∀ e ∈ last, x ≤ e}

def elements (s : Span α) : Set α := between s.first s.last

/-- Neither span ends before the other begins. -/
def overlaps (s t : Span α) : Bool :=
  (t.last.all fun e => decide (s.first ≤ e)) && s.last.all fun e => decide (t.first ≤ e)

lemma overlaps_eq_true {s t : Span α} :
    s.overlaps t = true ↔ (∀ e ∈ t.last, s.first ≤ e) ∧ ∀ e ∈ s.last, t.first ≤ e := by
  simp [overlaps, Option.all_eq_true]

/-- **Two spans overlap when they have an element in common.** -/
theorem overlaps_iff {s t : Span α} : s.overlaps t = true ↔ ¬ Disjoint s.elements t.elements := by
  rw [overlaps_eq_true, Set.not_disjoint_iff]
  constructor
  · rintro ⟨hst, hts⟩
    -- the later of the two first elements is in both
    refine ⟨max s.first t.first, ⟨le_max_left _ _, ?_⟩, ⟨le_max_right _ _, ?_⟩⟩
    · intro e he
      exact max_le (s.ordered e he) (hts e he)
    · intro e he
      exact max_le (hst e he) (t.ordered e he)
  · rintro ⟨x, ⟨hsx, hxs⟩, ⟨htx, hxt⟩⟩
    refine ⟨?_, ?_⟩
    · intro e he
      exact le_trans hsx (hxt e he)
    · intro e he
      exact le_trans htx (hxs e he)

lemma disjoint_of_not_overlaps {s t : Span α} (h : s.overlaps t = false) :
    Disjoint s.elements t.elements := by
  by_contra hnot
  rw [overlaps_iff.mpr hnot] at h
  cases h

end Span
