/-
A loop that counts a bounded counter up to a limit:

    for (n = lo; n <= hi; ++n) body(n);

The counter has a last value, and stepping past it gives some value of the type
again (`Counter.wrapped`).  A loop up to the last value therefore never sees its
counter pass the limit.

* `loop_ends_iff`: the loop ends exactly when the limit is not the last value;
* `loop_eq`: what it has done then is what the body does at each number in turn.

A loop that takes one turn after the other until no turn is left.

* `loop_ends`: a loop ends where every turn makes something smaller;
* `loop_keeps`: what no turn changes is the same at the end.
-/
import Mathlib.Algebra.Order.Group.Int
import Mathlib.Data.List.Range

namespace CountedLoop

/-- The last value of a counter, and the value it has one step later. -/
structure Counter where
  last : ℤ
  wrapped : ℤ
  wrapped_le : wrapped ≤ last

def Counter.next (c : Counter) (n : ℤ) : ℤ := if n = c.last then c.wrapped else n + 1

variable {σ : Type*}

/-- The loop, as far as `fuel` tests of its condition take it. -/
def loop (c : Counter) (body : σ → ℤ → σ) (hi : ℤ) : ℕ → ℤ → σ → Option σ
  | 0, _, _ => none
  | fuel + 1, n, s => if n ≤ hi then loop c body hi fuel (c.next n) (body s n) else some s

variable {c : Counter} {body : σ → ℤ → σ} {hi : ℤ}

variable {n : ℤ}

lemma Counter.next_le (h : n ≤ c.last) : c.next n ≤ c.last := by
  unfold Counter.next
  split
  · exact c.wrapped_le
  · next hne => exact Int.add_one_le_of_lt (lt_of_le_of_ne h hne)

lemma Counter.next_of_lt (h : n < c.last) : c.next n = n + 1 :=
  if_neg (ne_of_lt h)

/-- More fuel does not change what a loop that has ended did. -/
lemma loop_mono {fuel : ℕ} {s s' : σ} (h : loop c body hi fuel n s = some s') (k : ℕ) :
    loop c body hi (fuel + k) n s = some s' := by
  induction fuel generalizing n s with
  | zero => cases h
  | succ fuel ih =>
      rw [Nat.add_right_comm]
      unfold loop at h ⊢
      split at h
      · next hle => rw [if_pos hle]; exact ih h
      · next hlt => rw [if_neg hlt]; exact h

/-- A loop up to the last value goes on. -/
lemma loop_last (fuel : ℕ) (hn : n ≤ c.last) (s : σ) : loop c body c.last fuel n s = none := by
  induction fuel generalizing n s with
  | zero => rfl
  | succ fuel ih =>
      unfold loop
      rw [if_pos hn]
      exact ih (Counter.next_le hn) _

/-- A loop up to a smaller value meets each number from `n` on once. -/
lemma loop_range (h : hi < c.last) (k : ℕ) (hk : n + k = hi + 1) (s : σ) :
    loop c body hi (k + 1) n s = some (((List.range k).map fun i : ℕ => n + i).foldl body s) := by
  induction k generalizing n s with
  | zero =>
      have hlt : ¬ n ≤ hi := by omega
      unfold loop
      rw [if_neg hlt]
      rfl
  | succ k ih =>
      have hle : n ≤ hi := by omega
      have hnext : c.next n = n + 1 := Counter.next_of_lt (lt_of_le_of_lt hle h)
      have hshift : (List.range (k + 1)).map (fun i : ℕ => n + (i : ℤ)) =
          n :: (List.range k).map fun i : ℕ => (n + 1) + (i : ℤ) := by
        rw [List.range_succ_eq_map, List.map_cons, List.map_map]
        apply congrArg₂ List.cons
        · omega
        · apply List.map_congr_left
          intro i _
          rw [Function.comp_apply]
          omega
      unfold loop
      rw [if_pos hle, hnext, ih (by omega), hshift, List.foldl_cons]

/-- **When the loop ends.** -/
theorem loop_ends_iff {lo : ℤ} (hlo : lo ≤ hi) (hhi : hi ≤ c.last) (s : σ) :
    (∃ fuel s', loop c body hi fuel lo s = some s') ↔ hi ≠ c.last := by
  constructor
  · rintro ⟨fuel, s', h⟩ rfl
    rw [loop_last fuel hlo s] at h
    cases h
  · intro hne
    have hlt : hi < c.last := lt_of_le_of_ne hhi hne
    exact ⟨_, _, loop_range hlt (hi + 1 - lo).toNat (by omega) s⟩

/-- **What the loop has done when it ends.** -/
theorem loop_eq {lo : ℤ} (hlo : lo ≤ hi) (hhi : hi ≤ c.last) {fuel : ℕ} {s s' : σ}
    (h : loop c body hi fuel lo s = some s') :
    s' = ((List.range (hi + 1 - lo).toNat).map fun i : ℕ => lo + i).foldl body s := by
  have hne : hi ≠ c.last := (loop_ends_iff hlo hhi s).mp ⟨fuel, s', h⟩
  have hlt : hi < c.last := lt_of_le_of_ne hhi hne
  have hrange : loop c body hi ((hi + 1 - lo).toNat + 1) lo s = _ :=
    loop_range hlt (hi + 1 - lo).toNat (by omega) s
  -- both runs end, so they agree at the fuel of the two together
  have hboth := loop_mono h ((hi + 1 - lo).toNat + 1)
  rw [Nat.add_comm, loop_mono hrange fuel] at hboth
  exact (Option.some.inj hboth).symm

end CountedLoop

namespace Loops

variable {σ : Type*} (turn : σ → Option σ)

/-- The loop, as far as `fuel` tests for another turn take it. -/
def loop : ℕ → σ → Option σ
  | 0, _ => none
  | fuel + 1, s =>
      match turn s with
      | none => some s
      | some s' => loop fuel s'

variable {turn}

/-- **A loop ends.** -/
theorem loop_ends (size : σ → ℕ) (hsize : ∀ s s', turn s = some s' → size s' < size s) {fuel : ℕ}
    {s : σ} (h : size s < fuel) : ∃ s', loop turn fuel s = some s' ∧ turn s' = none := by
  induction fuel generalizing s with
  | zero => exact absurd h (Nat.not_lt_zero _)
  | succ fuel ih =>
      unfold loop
      rcases hturn : turn s with - | s'
      · exact ⟨s, rfl, hturn⟩
      · have hless := hsize s s' hturn
        exact ih (by omega)

/-- What no turn changes. -/
lemma loop_keeps {β : Type*} (f : σ → β) (hf : ∀ s s', turn s = some s' → f s' = f s)
    {fuel : ℕ} {s s' : σ} (h : loop turn fuel s = some s') : f s' = f s := by
  induction fuel generalizing s with
  | zero => cases h
  | succ fuel ih =>
      unfold loop at h
      rcases hturn : turn s with - | s₁
      · rw [hturn] at h
        cases h
        rfl
      · rw [hturn] at h
        exact (ih h).trans (hf s s₁ hturn)

end Loops
