/-
A total shared out over a list of items.  Each item in turn gets a share; the
last one gets what is left, so that the shares add up to the total exactly.

`Shared` is that relation, with a condition on every share but the last.

* `Shared.sum_eq`: the shares add up to the total;
* `Shared.near`: where every share but the last is within `u` of its target and
  the targets add up to within `d` of the total, every share is within `d` and
  one `u` for each other item of its target: the last share carries no more than
  the errors of the others.
-/
import Mathlib.Algebra.BigOperators.Group.List.Basic
import Mathlib.Tactic.Abel
import Mathlib.Tactic.Linarith

namespace LastRemainder

open List

variable {α G : Type*}

section Group

variable [AddCommGroup G]

/-- Shares of a total, the last one the remainder. -/
inductive Shared (ok : α → G → Prop) : G → List α → List G → Prop
  | last (a : α) (total : G) : Shared ok total [a] [total]
  | cons {a : α} {s total : G} {as : List α} {ss : List G} :
      as ≠ [] → ok a s → Shared ok (total - s) as ss → Shared ok total (a :: as) (s :: ss)

variable {ok : α → G → Prop}

lemma Shared.sum_eq {total : G} {as : List α} {ss : List G} (h : Shared ok total as ss) :
    ss.sum = total := by
  induction h with
  | last a total => exact List.sum_singleton
  | cons _ _ _ ih =>
      rw [sum_cons, ih]
      abel

/-- The condition holds of every share but the last. -/
lemma Shared.dropLast {total : G} {as : List α} {ss : List G} (h : Shared ok total as ss) :
    List.Forall₂ ok as.dropLast ss.dropLast := by
  induction h with
  | last a total => exact .nil
  | @cons a s total as ss has hs hrest ih =>
      have hss : ss ≠ [] := by
        rintro rfl
        cases hrest
      rw [dropLast_cons_of_ne_nil has, dropLast_cons_of_ne_nil hss]
      exact .cons hs ih

end Group

variable [AddCommGroup G] [LinearOrder G] [IsOrderedAddMonoid G]

/-- **The last share is as near to its target as the errors of the others
allow.** -/
theorem Shared.near {ok : α → G → Prop} {q : α → G} {u d total : G} {as : List α} {ss : List G}
    (h : Shared ok total as ss) (hok : ∀ a ∈ as.dropLast, ∀ s, ok a s → |s - q a| ≤ u)
    (htotal : |total - (as.map q).sum| ≤ d) :
    List.Forall₂ (fun a s => |s - q a| ≤ d + (as.length - 1) • u) as ss := by
  induction h generalizing d with
  | last a total =>
      rw [map_singleton, List.sum_singleton] at htotal
      refine List.Forall₂.cons ?_ .nil
      rw [length_singleton, Nat.sub_self, zero_nsmul, add_zero]
      exact htotal
  | @cons a s total as ss has hs _ ih =>
      rw [dropLast_cons_of_ne_nil has] at hok
      have hhead : |s - q a| ≤ u := hok a mem_cons_self s hs
      have hu : 0 ≤ u := (abs_nonneg _).trans hhead
      have hd : 0 ≤ d := (abs_nonneg _).trans htotal
      -- what the share misses is left to the later items
      have hrest : |total - s - (as.map q).sum| ≤ d + u := by
        have hsplit : total - s - (as.map q).sum = (total - ((a :: as).map q).sum) - (s - q a) := by
          rw [map_cons, sum_cons]
          abel
        rw [hsplit]
        exact (abs_sub _ _).trans (add_le_add htotal hhead)
      obtain ⟨n, hn⟩ : ∃ n, as.length = n + 1 :=
        Nat.exists_eq_succ_of_ne_zero fun hzero => has (length_eq_zero_iff.mp hzero)
      have hlength : ((a :: as).length - 1) • u = u + n • u := by
        rw [length_cons, Nat.add_sub_cancel, hn, succ_nsmul, add_comm]
      rw [hlength]
      constructor
      · calc |s - q a| ≤ u := hhead
          _ ≤ u + n • u := le_add_of_nonneg_right (nsmul_nonneg hu n)
          _ ≤ d + (u + n • u) := le_add_of_nonneg_left hd
      · have hlater := ih (fun b hb => hok b (mem_cons_of_mem _ hb)) hrest
        rw [hn, Nat.add_sub_cancel, add_assoc] at hlater
        exact hlater

end LastRemainder
