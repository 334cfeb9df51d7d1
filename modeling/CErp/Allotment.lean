/-
A budget spent on a queue of demands: each demand in turn gets what it asks
for or, if that is less, all that remains, and the queue stops once nothing
does.  Demands may be negative; these give back.

* `allot` lists the amounts, `remains` is what the budget leaves.
* `remains_eq` ties the two together, and `spent_le_iff` says when what was
  spent before still fits beside them.
* `remains_of_nonneg` is the closed form when no demand is negative, `sum_allot`
  the sum of the amounts then.
* `dropLast_allot`: every demand served before another one got all it asked for.
-/
import Mathlib.Algebra.Order.BigOperators.Group.List
import Mathlib.Algebra.Order.Group.MinMax
import Mathlib.Tactic.Abel

namespace Allotment

open List

variable {α : Type*} [AddCommGroup α] [LinearOrder α] [IsOrderedAddMonoid α]

/-- The amounts the demands at the head of the queue get. -/
def allot (budget : α) : List α → List α
  | [] => []
  | d :: ds => if budget = 0 then [] else min budget d :: allot (budget - min budget d) ds

/-- What the budget leaves. -/
def remains (budget : α) : List α → α
  | [] => budget
  | d :: ds => if budget = 0 then 0 else remains (max 0 (budget - d)) ds

omit [IsOrderedAddMonoid α] in
@[simp] lemma allot_nil (budget : α) : allot budget [] = [] := rfl

omit [IsOrderedAddMonoid α] in
@[simp] lemma allot_zero (ds : List α) : allot 0 ds = [] := by
  cases ds with
  | nil => rfl
  | cons d ds => simp [allot]

variable {budget : α}

omit [IsOrderedAddMonoid α] in
lemma allot_cons (h : budget ≠ 0) (d : α) (ds : List α) :
    allot budget (d :: ds) = min budget d :: allot (budget - min budget d) ds := by
  rw [allot, if_neg h]

omit [IsOrderedAddMonoid α] in
lemma length_allot_le (budget : α) (ds : List α) : (allot budget ds).length ≤ ds.length := by
  induction ds generalizing budget with
  | nil => exact le_rfl
  | cons d ds ih =>
      unfold allot
      split
      · exact Nat.zero_le _
      · exact Nat.succ_le_succ (ih _)

/-- Taking the smaller of the two leaves the difference, or nothing. -/
lemma sub_min_eq (budget d : α) : budget - min budget d = max 0 (budget - d) := by
  rcases le_total budget d with h | h
  · rw [min_eq_left h, sub_self, max_eq_left (sub_nonpos.mpr h)]
  · rw [min_eq_right h, max_eq_right (sub_nonneg.mpr h)]

/-- What is left is what was not allotted. -/
lemma remains_eq (budget : α) (ds : List α) :
    remains budget ds = budget - (allot budget ds).sum := by
  induction ds generalizing budget with
  | nil => simp [remains]
  | cons d ds ih =>
      unfold remains allot
      split
      · next h => simp [h]
      · rw [sum_cons, ← sub_sub, sub_min_eq, ← ih]

/-- Without negative demands the budget leaves what exceeds their sum. -/
lemma remains_of_nonneg {ds : List α} (hb : 0 ≤ budget) (hds : ∀ d ∈ ds, 0 ≤ d) :
    remains budget ds = max 0 (budget - ds.sum) := by
  induction ds generalizing budget with
  | nil => simp [remains, hb]
  | cons d ds ih =>
      have hd : 0 ≤ d := hds d mem_cons_self
      have hsum : 0 ≤ ds.sum := sum_nonneg fun x hx => hds x (mem_cons_of_mem d hx)
      unfold remains
      split
      · next h =>
          rw [h, sum_cons, zero_sub, max_eq_left (neg_nonpos.mpr (add_nonneg hd hsum))]
      · rw [ih (le_max_left 0 _) fun x hx => hds x (mem_cons_of_mem d hx), sum_cons]
        rcases le_total budget d with h | h
        · rw [max_eq_left (sub_nonpos.mpr h), zero_sub, max_eq_left (neg_nonpos.mpr hsum)]
          have hle : budget - (d + ds.sum) ≤ 0 := by
            rw [sub_nonpos]
            exact h.trans (le_add_of_nonneg_right hsum)
          rw [max_eq_left hle]
        · rw [max_eq_right (sub_nonneg.mpr h), sub_sub]

/-- On top of what is already spent, a queue stays within the budget exactly
when it takes nothing or the budget leaves what is already spent. -/
lemma spent_le_iff {spent : α} {ds : List α} (h : spent ≤ budget) :
    spent + (allot budget ds).sum ≤ budget ↔ allot budget ds = [] ∨ spent ≤ remains budget ds := by
  rw [remains_eq, le_sub_iff_add_le]
  constructor
  · exact .inr
  · rintro (hnil | hle)
    · rw [hnil, sum_nil, add_zero]
      exact h
    · exact hle

/-- Without negative demands the queue gets the smaller of the budget and what
it asks for. -/
lemma sum_allot {ds : List α} (hb : 0 ≤ budget) (hds : ∀ d ∈ ds, 0 ≤ d) :
    (allot budget ds).sum = min budget ds.sum := by
  have hleft := remains_eq budget ds
  rw [remains_of_nonneg hb hds, ← sub_min_eq] at hleft
  exact (sub_right_injective hleft).symm

omit [IsOrderedAddMonoid α] in
/-- A demand behind another one is served when that one got all it asked for. -/
lemma dropLast_allot (budget : α) (ds : List α) :
    (allot budget ds).dropLast = ds.take ((allot budget ds).length - 1) := by
  induction ds generalizing budget with
  | nil => rfl
  | cons d ds ih =>
      unfold allot
      split
      · rfl
      rcases hrest : allot (budget - min budget d) ds with - | ⟨a, as⟩
      · rfl
      have hleft : budget - min budget d ≠ 0 := by
        intro hzero
        rw [hzero, allot_zero] at hrest
        cases hrest
      have hall : min budget d = d := by
        rcases min_choice budget d with hmin | hmin
        · rw [hmin, sub_self] at hleft
          exact absurd rfl hleft
        · exact hmin
      have hih := ih (budget - min budget d)
      rw [hrest] at hih
      show min budget d :: (a :: as).dropLast = (d :: ds).take ((a :: as).length - 1 + 1)
      rw [hih, take_succ_cons, hall]

end Allotment
