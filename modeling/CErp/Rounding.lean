/-
How far the rounding operations of `Money` are from the exact value.

Amounts are whole micro-units; the errors are rationals of micro-units.  `step`
is the unit `roundTo` rounds to.  Dividing half away from zero errs by half a
unit, rounding to a precision by half a step; truncating a quotient first and
rounding it then still errs by no more than a step, and below full scale it is
the rounding of the exact quotient.
-/
import CErp.Money
import Mathlib.Data.Rat.Floor
import Mathlib.Tactic.Positivity

namespace CErp

open Outcome Int Nat

namespace Money

/-- The micro-units a precision is rounded to. -/
def step (dp : ℤ) : ℤ := if dp ≥ SCALE then 1 else 10 ^ (SCALE - dp.toNat)

/-! ### Integer bounds -/

variable {den : ℤ}

variable (num : ℤ)

lemma divRoundHalfAway_bounds (hden : 0 < den) :
    2 * (divRoundHalfAway num den * den) ≤ 2 * num + den ∧
      2 * num - den ≤ 2 * (divRoundHalfAway num den * den) := by
  unfold divRoundHalfAway
  obtain ⟨d, rfl⟩ : ∃ d : ℕ, den = d := ⟨den.toNat, (toNat_of_nonneg hden.le).symm⟩
  have hd : 0 < d := by omega
  -- the quotient of the magnitudes, rounded half up
  have hlow := div_mul_le_self (num.natAbs + d / 2) d
  have hhigh := lt_div_mul_add (a := num.natAbs + d / 2) hd
  rw [natAbs_natCast]
  generalize hq : (num.natAbs + d / 2) / d = q at hlow hhigh
  have hlow : ((q * d : ℕ) : ℤ) ≤ (num.natAbs + d / 2 : ℕ) := by exact_mod_cast hlow
  have hhigh : ((num.natAbs + d / 2 : ℕ) : ℤ) < (q * d + d : ℕ) := by exact_mod_cast hhigh
  push_cast at hlow hhigh
  have hhalf : (d : ℤ) / 2 * 2 ≤ d ∧ (d : ℤ) < (d : ℤ) / 2 * 2 + 2 := by omega
  have hden : ¬ (d : ℤ) < 0 := by omega
  by_cases hneg : num < 0
  · rw [abs_of_neg hneg] at hlow hhigh
    rw [if_pos (by simp [hneg]), neg_mul]
    generalize (q : ℤ) * d = x at *
    omega
  · rw [abs_of_nonneg (not_lt.mp hneg)] at hlow hhigh
    rw [if_neg (by simp [hneg])]
    generalize (q : ℤ) * d = x at *
    omega

/-- A multiple is divided exactly. -/
lemma divRoundHalfAway_mul (k : ℤ) {den : ℤ} (hden : 0 < den) :
    divRoundHalfAway (k * den) den = k := by
  obtain ⟨hhigh, hlow⟩ := divRoundHalfAway_bounds (k * den) hden
  have habove : divRoundHalfAway (k * den) den * den < (k + 1) * den := by
    rw [Int.add_mul, Int.one_mul]
    omega
  have hbelow : (k - 1) * den < divRoundHalfAway (k * den) den * den := by
    rw [Int.sub_mul, Int.one_mul]
    omega
  have hle := Int.lt_of_mul_lt_mul_right habove hden.le
  have hge := Int.lt_of_mul_lt_mul_right hbelow hden.le
  omega

lemma tdiv_bounds (hden : 0 < den) :
    num.tdiv den * den < num + den ∧ num - den < num.tdiv den * den := by
  have hsplit := tdiv_mul_add_tmod num den
  have hlt := tmod_lt_of_pos num hden
  have hgt := lt_tmod_of_pos num hden
  omega

lemma step_pos (dp : ℤ) : 0 < step dp := by
  unfold step
  split
  · decide
  · exact Int.pow_pos (by decide)

/-- A step is a single micro-unit, or an even number of them. -/
lemma step_eq_one_or (dp : ℤ) : step dp = 1 ∧ dp ≥ SCALE ∨ 2 ≤ step dp ∧ ¬ dp ≥ SCALE := by
  unfold step
  split
  · next h => exact .inl ⟨rfl, h⟩
  · next h =>
      refine .inr ⟨?_, h⟩
      have hexp : SCALE - dp.toNat ≠ 0 := by
        unfold SCALE at *
        omega
      obtain ⟨k, hk⟩ := exists_eq_succ_of_ne_zero hexp
      rw [hk, pow_succ]
      have : (0 : ℤ) < 10 ^ k := Int.pow_pos (by decide)
      omega

/-! ### Errors -/

/-- **Half away from zero** errs by half a unit. -/
theorem divRoundHalfAway_near (hden : 0 < den) :
    |(divRoundHalfAway num den : ℚ) - num / den| ≤ 1 / 2 := by
  obtain ⟨hhigh, hlow⟩ := divRoundHalfAway_bounds num hden
  have hden' : (0 : ℚ) < den := by exact_mod_cast hden
  have hhigh : 2 * ((divRoundHalfAway num den : ℚ) * den) ≤ 2 * num + den := by exact_mod_cast hhigh
  have hlow : 2 * (num : ℚ) - den ≤ 2 * ((divRoundHalfAway num den : ℚ) * den) := by
    exact_mod_cast hlow
  rw [abs_le]
  constructor
  · rw [neg_le_sub_iff_le_add, div_le_iff₀ hden']
    linarith
  · rw [sub_le_iff_le_add, ← sub_le_iff_le_add', le_div_iff₀ hden']
    linarith

lemma tdiv_near (hden : 0 < den) : |(num.tdiv den : ℚ) - num / den| < 1 := by
  obtain ⟨hhigh, hlow⟩ := tdiv_bounds num hden
  have hden' : (0 : ℚ) < den := by exact_mod_cast hden
  have hhigh : (num.tdiv den : ℚ) * den < num + den := by exact_mod_cast hhigh
  have hlow : (num : ℚ) - den < (num.tdiv den : ℚ) * den := by exact_mod_cast hlow
  rw [abs_lt]
  constructor
  · rw [neg_lt_sub_iff_lt_add, div_lt_iff₀ hden']
    linarith
  · rw [sub_lt_iff_lt_add, ← sub_lt_iff_lt_add', lt_div_iff₀ hden']
    linarith

variable {a r : Money} {dp : ℤ}

lemma roundTo_micros (h : a.roundTo dp = .ok r) : (dp ≥ SCALE ∧ r.micros = a.micros) ∨
      (¬ dp ≥ SCALE ∧ r.micros = divRoundHalfAway a.micros (step dp) * step dp) := by
  unfold roundTo at h
  unfold step
  split at h
  · next hdp =>
      cases h
      exact .inl ⟨hdp, rfl⟩
  · next hdp =>
      obtain ⟨v, hv, rfl⟩ := map_ok_iff.mp h
      obtain ⟨-, -, rfl⟩ := clampToInt64_ok_iff.mp hv
      rw [if_neg hdp]
      exact .inr ⟨hdp, rfl⟩

/-- **Rounding to a precision** errs by half a step. -/
theorem roundTo_near (h : a.roundTo dp = .ok r) : |(r.micros : ℚ) - a.micros| ≤ step dp / 2 := by
  have hstep : (0 : ℚ) < step dp := by exact_mod_cast step_pos dp
  rcases roundTo_micros h with ⟨-, hr⟩ | ⟨-, hr⟩
  · rw [hr, sub_self, abs_zero]
    positivity
  · have hnear := divRoundHalfAway_near a.micros (step_pos dp)
    have hscaled : (r.micros : ℚ) - a.micros =
        ((divRoundHalfAway a.micros (step dp) : ℚ) - a.micros / step dp) * step dp := by
      rw [hr]
      push_cast
      field_simp
    rw [hscaled, abs_mul, abs_of_pos hstep]
    calc _ ≤ 1 / 2 * (step dp : ℚ) := mul_le_mul_of_nonneg_right hnear hstep.le
      _ = step dp / 2 := by ring

/-- **Truncating, then rounding** errs by a step at most. -/
theorem roundTo_tdiv_near {num : ℤ} (hden : 0 < den) (ha : a.micros = num.tdiv den)
    (h : a.roundTo dp = .ok r) : |(r.micros : ℚ) - num / den| ≤ step dp := by
  have htrunc := tdiv_near num hden
  rcases step_eq_one_or dp with ⟨hone, hdp⟩ | ⟨htwo, -⟩
  · rcases roundTo_micros h with ⟨-, hr⟩ | ⟨hdp', -⟩
    · rw [hr, ha, hone]
      exact_mod_cast htrunc.le
    · exact absurd hdp hdp'
  · have hround := roundTo_near h
    rw [ha] at hround
    have htwo : (2 : ℚ) ≤ step dp := by exact_mod_cast htwo
    calc |(r.micros : ℚ) - num / den|
        ≤ |(r.micros : ℚ) - num.tdiv den| + |(num.tdiv den : ℚ) - num / den| := abs_sub_le _ _ _
      _ ≤ step dp := by linarith

/-! ### Differences and products -/

lemma sub_range {b c : Money} (h : a.sub b = .ok c) :
    int64Min ≤ c.micros ∧ c.micros ≤ int64Max := by
  obtain ⟨-, -, h⟩ := bind_ok_iff.mp h
  obtain ⟨v, hv, h⟩ := bind_ok_iff.mp h
  obtain ⟨hmin, hmax, rfl⟩ := clampToInt64_ok_iff.mp hv
  cases h
  exact ⟨hmin, hmax⟩

lemma mulQty_ok {price qty m : Money} (h : price.mulQty qty = .ok m) :
    int64Min ≤ m.micros ∧ m.micros ≤ int64Max ∧
      m.micros = divRoundHalfAway (price.micros * qty.micros) ONE := by
  obtain ⟨v, hv, h⟩ := bind_ok_iff.mp h
  obtain ⟨hmin, hmax, rfl⟩ := clampToInt64_ok_iff.mp hv
  cases h
  exact ⟨hmin, hmax, rfl⟩

lemma percent_ok {pct m : Money} (h : a.percent pct = .ok m) :
    m.micros = divRoundHalfAway (a.micros * pct.micros) (ONE * 100) := by
  obtain ⟨v, hv, h⟩ := bind_ok_iff.mp h
  obtain ⟨-, -, rfl⟩ := clampToInt64_ok_iff.mp hv
  cases h
  rfl

/-! ### The exact value -/

/-- The integer nearest a rational, half away from zero. -/
def halfAway (x : ℚ) : ℤ := if 0 ≤ x then ⌊x + 1 / 2⌋ else -⌊-x + 1 / 2⌋

lemma halfAway_neg (x : ℚ) : halfAway (-x) = -halfAway x := by
  unfold halfAway
  rcases lt_trichotomy x 0 with hx | rfl | hx
  · rw [if_pos (neg_nonneg.mpr hx.le), if_neg (not_le.mpr hx), neg_neg]
  · norm_num
  · rw [if_neg (by linarith), if_pos hx.le, neg_neg]

lemma divRoundHalfAway_neg (hden : 1 < den) :
    divRoundHalfAway (-num) den = -divRoundHalfAway num den := by
  have hpos : ¬ den < 0 := by omega
  unfold divRoundHalfAway
  rw [natAbs_neg]
  rcases lt_trichotomy num 0 with hn | rfl | hn
  · rw [if_neg (by simp [hn.le, hpos]), if_pos (by simp [hn, hpos]), neg_neg]
  · have hnone : (0 + den.natAbs / 2) / den.natAbs = 0 := div_eq_of_lt (by omega)
    rw [natAbs_zero, hnone]
    simp
  · rw [if_pos (by simp [hn, hpos]), if_neg (by simp [hn.le, hpos])]

/-- The digits a quotient loses by truncation do not reach the half of an even
step. -/
lemma divRoundHalfAway_natDiv (num : ℕ) {den half : ℕ} (hden : 0 < den) (hhalf : 0 < half) :
    divRoundHalfAway ((num / den : ℕ) : ℤ) ((2 * half : ℕ) : ℤ) =
      halfAway ((num : ℚ) / den / (2 * half : ℕ)) := by
  have hsum : (num : ℚ) / den / (2 * half : ℕ) + 1 / 2 =
      ((num + half * den : ℕ) : ℤ) / ((den * (2 * half) : ℕ) : ℚ) := by
    push_cast
    field_simp
  have hquotient : ((num / den : ℕ) + 2 * half / 2) / (2 * half) =
      (num + half * den) / (den * (2 * half)) := by
    rw [Nat.mul_div_cancel_left half (by decide), ← add_mul_div_right num half hden,
      Nat.div_div_eq_div_mul]
  have hnonneg : (0 : ℚ) ≤ (num : ℚ) / den / (2 * half : ℕ) := by positivity
  unfold divRoundHalfAway halfAway
  rw [if_pos hnonneg, hsum, Rat.floor_intCast_div_natCast]
  simp only [natAbs_natCast]
  have hnum : ¬ ((num / den : ℕ) : ℤ) < 0 := not_lt.mpr (natCast_nonneg _)
  have hstep : ¬ ((2 * half : ℕ) : ℤ) < 0 := not_lt.mpr (natCast_nonneg _)
  rw [hquotient, if_neg (by simp only [hnum, hstep, ne_eq, not_true, not_false_iff])]
  norm_cast

/-- **Truncating, then rounding** to an even step rounds the exact quotient. -/
theorem divRoundHalfAway_tdiv {den half : ℕ} (hden : 0 < den) (hhalf : 0 < half) :
    divRoundHalfAway (num.tdiv den) ((2 * half : ℕ) : ℤ) =
      halfAway ((num : ℚ) / den / (2 * half : ℕ)) := by
  obtain ⟨n, rfl | rfl⟩ := num.eq_nat_or_neg
  · rw [← ofNat_tdiv]
    exact divRoundHalfAway_natDiv n hden hhalf
  · rw [Int.neg_tdiv, ← ofNat_tdiv, divRoundHalfAway_neg _ (by omega),
      divRoundHalfAway_natDiv n hden hhalf, ← halfAway_neg]
    push_cast
    rw [neg_div, neg_div]

/-- A rational amount of micro-units rounded to a precision. -/
def rounded (dp : ℤ) (x : ℚ) : ℤ := halfAway (x / step dp) * step dp

lemma step_eq_double (h : ¬ dp ≥ SCALE) : ∃ half : ℕ, 0 < half ∧ step dp = (2 * half : ℕ) := by
  obtain ⟨k, hk⟩ : ∃ k, SCALE - dp.toNat = k + 1 := by
    refine ⟨SCALE - dp.toNat - 1, ?_⟩
    unfold SCALE at *
    omega
  refine ⟨5 * 10 ^ k, by positivity, ?_⟩
  unfold step
  rw [if_neg h, hk, pow_succ]
  push_cast
  ring

/-- Truncating a quotient first does no harm below full scale. -/
lemma roundTo_tdiv {a r : Money} {dp num : ℤ} {den : ℕ} (hden : 0 < den)
    (ha : a.micros = num.tdiv den) (hdp : ¬ dp ≥ SCALE) (h : a.roundTo dp = .ok r) :
    r.micros = rounded dp ((num : ℚ) / den) := by
  obtain ⟨half, hhalf, hstep⟩ := step_eq_double hdp
  rcases roundTo_micros h with ⟨hfull, -⟩ | ⟨-, hr⟩
  · exact absurd hfull hdp
  · rw [hr, ha, rounded, hstep, divRoundHalfAway_tdiv num hden hhalf]
    push_cast
    rfl

/-- An amount rounded to a precision is a multiple of its step. -/
lemma step_dvd_of_roundTo (h : a.roundTo dp = .ok r) : step dp ∣ r.micros := by
  rcases roundTo_micros h with ⟨hfull, -⟩ | ⟨-, hr⟩
  · have hone : step dp = 1 := if_pos hfull
    rw [hone]
    exact one_dvd _
  · exact ⟨_, hr.trans (mul_comm _ _)⟩

end Money

end CErp
