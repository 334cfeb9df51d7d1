/-
The rounding of `Money` is a proper rounding.

`halfAway` is the nearest integer, ties away from zero; `multipleOf s` carries it
to the multiples of a step.  `roundTo` and `roundToCurrency` give that multiple or
throw (`roundTo_rounds`, `roundToCurrency_rounds`), from which everything else
about them follows for any step (`Rounds.proper`).  The operations that divide
give the rounding of the exact quotient or throw, and on 64-bit operands nothing
they compute on the way leaves 128 bits (`money_rounding_proper`).
-/
import CErp.Rounding
import CErp.StockDb
import Mathlib

namespace CErp

open Int

/-- A row of `res_currency`, as far as rounding reads it. -/
structure Currency where
  decimalPlaces : ℤ := 2
  roundingStep : ℤ := 10000
  deriving DecidableEq

namespace Money

/-! ### Operations -/

/-- Round per the currency: its step when it has one, else its decimal places. -/
def roundToCurrency (a : Money) (c : Currency) : Except String Money :=
  if c.roundingStep > 0 then
    (clampToInt64 (divRoundHalfAway a.micros c.roundingStep * c.roundingStep) "rounded value").map
      fun v => { a with micros := v }
  else a.roundTo c.decimalPlaces

def prorate (a : Money) (days totalDays : ℤ) : Except String Money :=
  if totalDays = 0 then .error "Money::prorate: totalDays is zero"
  else
    (clampToInt64 (divRoundHalfAway (a.micros * days) totalDays) "prorated amount").map fun v =>
      { a with micros := v }

/-- The step a currency is rounded to. -/
def currencyStep (c : Currency) : ℤ :=
  if c.roundingStep > 0 then c.roundingStep else step c.decimalPlaces

/-! ### The nearest integer -/

section Nearest

variable {x y : ℚ} {m : ℤ}

lemma halfAway_of_nonneg (hx : 0 ≤ x) : halfAway x = ⌊x + 1 / 2⌋ := if_pos hx

lemma halfAway_nonneg (hx : 0 ≤ x) : 0 ≤ halfAway x := by
  rw [halfAway_of_nonneg hx, floor_nonneg]
  positivity

lemma halfAway_bounds_of_nonneg (hx : 0 ≤ x) :
    x - 1 / 2 < halfAway x ∧ (halfAway x : ℚ) ≤ x + 1 / 2 := by
  rw [halfAway_of_nonneg hx]
  have hle := floor_le (x + 1 / 2)
  have hlt := lt_floor_add_one (x + 1 / 2)
  constructor
  · linarith
  · exact hle

lemma halfAway_near (x : ℚ) : |(halfAway x : ℚ) - x| ≤ 1 / 2 := by
  rcases le_total 0 x with hx | hx
  · obtain ⟨hlow, hhigh⟩ := halfAway_bounds_of_nonneg hx
    rw [abs_le]
    constructor <;> linarith
  · obtain ⟨hlow, hhigh⟩ := halfAway_bounds_of_nonneg (neg_nonneg.mpr hx)
    rw [halfAway_neg] at hlow hhigh
    push_cast at hlow hhigh
    rw [abs_le]
    constructor <;> linarith

lemma halfAway_intCast (m : ℤ) : halfAway (m : ℚ) = m := by
  have hnear := halfAway_near (m : ℚ)
  rw [← cast_sub, ← cast_abs] at hnear
  have hlt : (|halfAway (m : ℚ) - m| : ℤ) < 1 := by
    have : ((|halfAway (m : ℚ) - m| : ℤ) : ℚ) < 1 := by linarith
    exact_mod_cast this
  have hzero := abs_lt_one_iff.mp hlt
  omega

lemma halfAway_mono : Monotone halfAway := by
  have hnonneg : ∀ {x y : ℚ}, 0 ≤ x → x ≤ y → halfAway x ≤ halfAway y := by
    intro x y hx hxy
    rw [halfAway_of_nonneg hx, halfAway_of_nonneg (hx.trans hxy)]
    exact floor_le_floor (by linarith)
  intro x y hxy
  rcases le_total 0 x with hx | hx
  · exact hnonneg hx hxy
  · rcases le_total 0 y with hy | hy
    · -- the signs differ
      have hneg := halfAway_nonneg (neg_nonneg.mpr hx)
      rw [halfAway_neg] at hneg
      have hpos := halfAway_nonneg hy
      omega
    · have h := hnonneg (neg_nonneg.mpr hy) (neg_le_neg hxy)
      rw [halfAway_neg, halfAway_neg] at h
      omega

/-- **No integer is nearer.** -/
theorem halfAway_nearest (x : ℚ) (m : ℤ) : |(halfAway x : ℚ) - x| ≤ |(m : ℚ) - x| := by
  by_cases hm : m = halfAway x
  · rw [hm]
  · have hone : (1 : ℚ) ≤ |(m : ℚ) - halfAway x| := by
      have h : 1 ≤ |m - halfAway x| := one_le_abs (sub_ne_zero.mpr hm)
      exact_mod_cast h
    have htriangle := abs_sub_le (m : ℚ) x (halfAway x)
    have hnear := halfAway_near x
    rw [abs_sub_comm x] at htriangle
    linarith

lemma abs_lt_halfAway_of_nonneg (hx : 0 ≤ x) (hm : m ≠ halfAway x)
    (htie : |(m : ℚ) - x| = |(halfAway x : ℚ) - x|) : |m| < |halfAway x| := by
  obtain ⟨hlow, hhigh⟩ := halfAway_bounds_of_nonneg hx
  have hsum : (m : ℚ) + halfAway x = 2 * x := by
    rcases abs_eq_abs.mp htie with h | h
    · exact absurd (by exact_mod_cast sub_left_inj.mp h) hm
    · linarith
  -- the other neighbour is one below
  have hbelow : m = halfAway x - 1 := by
    have hlt : (halfAway x : ℚ) - 2 < m := by linarith
    have hle : (m : ℚ) < halfAway x + 1 := by linarith
    have hlt : halfAway x - 2 < m := by exact_mod_cast hlt
    have hle : m < halfAway x + 1 := by exact_mod_cast hle
    omega
  have hpos : 0 < halfAway x := by
    have htwice : (2 * halfAway x - 1 : ℚ) = 2 * x := by
      rw [hbelow] at hsum
      push_cast at hsum
      linarith
    have : (0 : ℚ) < halfAway x := by linarith
    exact_mod_cast this
  rw [hbelow, abs_of_nonneg (by omega), abs_of_pos hpos]
  omega

/-- **Ties go away from zero.** -/
theorem abs_lt_halfAway (hm : m ≠ halfAway x)
    (htie : |(m : ℚ) - x| = |(halfAway x : ℚ) - x|) : |m| < |halfAway x| := by
  rcases le_total 0 x with hx | hx
  · exact abs_lt_halfAway_of_nonneg hx hm htie
  · have hsame : ∀ k : ℤ, |((-k : ℤ) : ℚ) - -x| = |(k : ℚ) - x| := by
      intro k
      rw [← abs_neg, cast_neg]
      congr 1
      ring
    have h := abs_lt_halfAway_of_nonneg (x := -x) (m := -m) (neg_nonneg.mpr hx)
      (by rw [halfAway_neg]; omega) (by rw [halfAway_neg, hsame, hsame, htie])
    rw [halfAway_neg, abs_neg, abs_neg] at h
    exact h

lemma natDiv_eq_halfAway (n : ℕ) {d : ℕ} (hd : 0 < d) :
    (((n + d / 2) / d : ℕ) : ℤ) = halfAway ((n : ℚ) / d) := by
  have hsum : (n : ℚ) / d + 1 / 2 = ((2 * n + d : ℕ) : ℤ) / ((2 * d : ℕ) : ℚ) := by
    push_cast
    field_simp
  have hhalves : (2 * n + d) / 2 = n + d / 2 := by omega
  rw [halfAway_of_nonneg (by positivity), hsum, Rat.floor_intCast_div_natCast, ← hhalves,
    Nat.div_div_eq_div_mul]
  norm_cast

/-- The division of the source rounds the exact quotient. -/
lemma divRoundHalfAway_eq (num : ℤ) {den : ℤ} (hden : den ≠ 0) :
    divRoundHalfAway num den = halfAway ((num : ℚ) / den) := by
  have hmagnitude : (((num.natAbs + den.natAbs / 2) / den.natAbs : ℕ) : ℤ) =
      halfAway (|(num : ℚ)| / |(den : ℚ)|) := by
    rw [natDiv_eq_halfAway _ (natAbs_pos.mpr hden)]
    simp only [Nat.cast_natAbs, cast_abs]
  unfold divRoundHalfAway
  rw [hmagnitude]
  rcases le_or_gt 0 num with hnum | hnum
  · have hnum' : (0 : ℚ) ≤ num := by exact_mod_cast hnum
    rw [abs_of_nonneg hnum']
    rcases lt_or_gt_of_ne hden with hd | hd
    · have hd' : (den : ℚ) < 0 := by exact_mod_cast hd
      rw [if_pos (by simp [not_lt.mpr hnum, hd]), abs_of_neg hd', div_neg, halfAway_neg, neg_neg]
    · have hd' : (0 : ℚ) < den := by exact_mod_cast hd
      rw [if_neg (by simp [not_lt.mpr hnum, not_lt.mpr hd.le]), abs_of_pos hd']
  · have hnum' : (num : ℚ) < 0 := by exact_mod_cast hnum
    rw [abs_of_neg hnum']
    rcases lt_or_gt_of_ne hden with hd | hd
    · have hd' : (den : ℚ) < 0 := by exact_mod_cast hd
      rw [if_neg (by simp [hnum, hd]), abs_of_neg hd', neg_div_neg_eq]
    · have hd' : (0 : ℚ) < den := by exact_mod_cast hd
      rw [if_pos (by simp [hnum, not_lt.mpr hd.le]), abs_of_pos hd', neg_div, halfAway_neg, neg_neg]

end Nearest

/-! ### Multiples of a step -/

section Multiples

variable {s x y : ℤ}

/-- The multiple of a step nearest an amount, ties away from zero. -/
def multipleOf (s x : ℤ) : ℤ := halfAway ((x : ℚ) / s) * s

lemma dvd_multipleOf (s x : ℤ) : s ∣ multipleOf s x := ⟨_, mul_comm _ _⟩

/-- Distances are steps times distances of quotients. -/
lemma abs_mul_step_sub (hs : 0 < s) (k x : ℤ) :
    ((|k * s - x| : ℤ) : ℚ) = |(k : ℚ) - (x : ℚ) / s| * s := by
  have hs' : (0 : ℚ) < s := by exact_mod_cast hs
  have hscaled : ((k * s - x : ℤ) : ℚ) = ((k : ℚ) - (x : ℚ) / s) * s := by
    push_cast
    field_simp
  rw [cast_abs, hscaled, abs_mul, abs_of_pos hs']

lemma multipleOf_nearest (hs : 0 < s) {m : ℤ} (hm : s ∣ m) :
    |multipleOf s x - x| ≤ |m - x| := by
  obtain ⟨k, rfl⟩ := hm
  have hs' : (0 : ℚ) < s := by exact_mod_cast hs
  have hle : ((|multipleOf s x - x| : ℤ) : ℚ) ≤ ((|s * k - x| : ℤ) : ℚ) := by
    rw [mul_comm s k, multipleOf, abs_mul_step_sub hs, abs_mul_step_sub hs]
    exact mul_le_mul_of_nonneg_right (halfAway_nearest _ k) hs'.le
  exact_mod_cast hle

lemma multipleOf_away (hs : 0 < s) {m : ℤ} (hm : s ∣ m) (hne : m ≠ multipleOf s x)
    (htie : |m - x| = |multipleOf s x - x|) : |m| < |multipleOf s x| := by
  obtain ⟨k, rfl⟩ := hm
  have hs' : (0 : ℚ) < s := by exact_mod_cast hs
  rw [mul_comm s k] at hne htie ⊢
  have hk : k ≠ halfAway ((x : ℚ) / s) := fun h => hne (by rw [h, multipleOf])
  have htie : |(k : ℚ) - (x : ℚ) / s| = |(halfAway ((x : ℚ) / s) : ℚ) - (x : ℚ) / s| := by
    have h : ((|k * s - x| : ℤ) : ℚ) = ((|multipleOf s x - x| : ℤ) : ℚ) := by rw [htie]
    rw [multipleOf, abs_mul_step_sub hs, abs_mul_step_sub hs] at h
    exact mul_right_cancel₀ hs'.ne' h
  rw [multipleOf, abs_mul, abs_mul, abs_of_pos hs]
  exact Int.mul_lt_mul_of_pos_right (abs_lt_halfAway hk htie) hs

lemma multipleOf_mul (hs : 0 < s) (k : ℤ) : multipleOf s (k * s) = k * s := by
  have hs' : (s : ℚ) ≠ 0 := by exact_mod_cast hs.ne'
  unfold multipleOf
  rw [cast_mul, mul_div_cancel_right₀ _ hs', halfAway_intCast]

lemma multipleOf_idem (hs : 0 < s) (x : ℤ) :
    multipleOf s (multipleOf s x) = multipleOf s x := multipleOf_mul hs _

lemma multipleOf_mono (hs : 0 < s) (hxy : x ≤ y) : multipleOf s x ≤ multipleOf s y := by
  have hs' : (0 : ℚ) < s := by exact_mod_cast hs
  have hxy : (x : ℚ) ≤ y := by exact_mod_cast hxy
  apply mul_le_mul_of_nonneg_right _ hs.le
  exact halfAway_mono (div_le_div_of_nonneg_right hxy hs'.le)

lemma multipleOf_neg (s x : ℤ) : multipleOf s (-x) = -multipleOf s x := by
  unfold multipleOf
  rw [cast_neg, neg_div, halfAway_neg, neg_mul]

lemma multipleOf_one (x : ℤ) : multipleOf 1 x = x := by
  have h := multipleOf_mul (s := 1) (by decide) x
  rwa [mul_one] at h

lemma divRoundHalfAway_mul_step (hs : 0 < s) (x : ℤ) :
    divRoundHalfAway x s * s = multipleOf s x := by
  rw [divRoundHalfAway_eq x hs.ne', multipleOf]

end Multiples

/-! ### Operations that round to a step -/

/-- The nearest multiple of a step, when it fits. -/
def Rounds (round : Money → Except String Money) (s : ℤ) : Prop :=
  ∀ a r, FitsInt64 a.micros → (round a = .ok r ↔
      FitsInt64 (multipleOf s a.micros) ∧ r = { a with micros := multipleOf s a.micros })

def neg (a : Money) : Money := { a with micros := -a.micros }

/-- The nearest multiple of the step with ties away from zero, idempotent,
monotone and odd, wherever nothing is thrown. -/
structure ProperRounding (round : Money → Except String Money) (s : ℤ) : Prop where
  fits : ∀ {a r}, FitsInt64 a.micros → round a = .ok r →
    FitsInt64 r.micros ∧ r.currencyId = a.currencyId
  multiple : ∀ {a r}, FitsInt64 a.micros → round a = .ok r → s ∣ r.micros
  nearest : ∀ {a r m}, FitsInt64 a.micros → round a = .ok r → s ∣ m →
    |r.micros - a.micros| ≤ |m - a.micros|
  away : ∀ {a r m}, FitsInt64 a.micros → round a = .ok r → s ∣ m → m ≠ r.micros →
    |m - a.micros| = |r.micros - a.micros| → |m| < |r.micros|
  idempotent : ∀ {a r}, FitsInt64 a.micros → round a = .ok r → round r = .ok r
  monotone : ∀ {a b r t}, FitsInt64 a.micros → FitsInt64 b.micros → round a = .ok r →
    round b = .ok t → a.micros ≤ b.micros → r.micros ≤ t.micros
  odd : ∀ {a r t}, FitsInt64 a.micros → FitsInt64 a.neg.micros → round a = .ok r →
    round a.neg = .ok t → t = r.neg

lemma Rounds.proper {round : Money → Except String Money} {s : ℤ} (hs : 0 < s)
    (h : Rounds round s) : ProperRounding round s where
  fits ha hr := by
    obtain ⟨hfits, rfl⟩ := (h _ _ ha).mp hr
    exact ⟨hfits, rfl⟩
  multiple ha hr := by
    obtain ⟨-, rfl⟩ := (h _ _ ha).mp hr
    exact dvd_multipleOf s _
  nearest ha hr hm := by
    obtain ⟨-, rfl⟩ := (h _ _ ha).mp hr
    exact multipleOf_nearest hs hm
  away ha hr hm hne htie := by
    obtain ⟨-, rfl⟩ := (h _ _ ha).mp hr
    exact multipleOf_away hs hm hne htie
  idempotent ha hr := by
    obtain ⟨hfits, rfl⟩ := (h _ _ ha).mp hr
    refine (h _ _ hfits).mpr ⟨?_, ?_⟩
    · rw [multipleOf_idem hs]
      exact hfits
    · rw [multipleOf_idem hs]
  monotone ha hb hr ht hab := by
    obtain ⟨-, rfl⟩ := (h _ _ ha).mp hr
    obtain ⟨-, rfl⟩ := (h _ _ hb).mp ht
    exact multipleOf_mono hs hab
  odd ha hneg hr ht := by
    obtain ⟨-, rfl⟩ := (h _ _ ha).mp hr
    obtain ⟨-, rfl⟩ := (h _ _ hneg).mp ht
    unfold neg
    rw [multipleOf_neg]

lemma map_clamp_ok_iff {v ccy : ℤ} {what : String} {r : Money} :
    ((clampToInt64 v what).map fun v => (⟨v, ccy⟩ : Money)) = .ok r ↔
      FitsInt64 v ∧ r = ⟨v, ccy⟩ := by
  rw [Outcome.map_ok_iff]
  constructor
  · rintro ⟨w, hw, rfl⟩
    obtain ⟨hmin, hmax, rfl⟩ := clampToInt64_ok_iff.mp hw
    exact ⟨⟨hmin, hmax⟩, rfl⟩
  · rintro ⟨⟨hmin, hmax⟩, rfl⟩
    exact ⟨v, clampToInt64_ok_iff.mpr ⟨hmin, hmax, rfl⟩, rfl⟩

lemma roundTo_rounds (dp : ℤ) : Rounds (fun a => a.roundTo dp) (step dp) := by
  intro a r ha
  dsimp only
  rcases step_eq_one_or dp with ⟨hone, hdp⟩ | ⟨-, hdp⟩
  · rw [hone, multipleOf_one]
    unfold roundTo
    rw [if_pos hdp, Except.ok.injEq]
    constructor
    · exact fun h => ⟨ha, h.symm⟩
    · exact fun h => h.2.symm
  · rw [← divRoundHalfAway_mul_step (step_pos dp)]
    unfold roundTo step
    rw [if_neg hdp, if_neg hdp]
    exact map_clamp_ok_iff

lemma currencyStep_pos (c : Currency) : 0 < currencyStep c := by
  unfold currencyStep
  split
  · next h => exact h
  · exact step_pos _

lemma roundToCurrency_rounds (c : Currency) :
    Rounds (fun a => a.roundToCurrency c) (currencyStep c) := by
  unfold currencyStep roundToCurrency
  by_cases hc : c.roundingStep > 0
  · simp only [if_pos hc]
    intro a r _
    rw [← divRoundHalfAway_mul_step hc]
    exact map_clamp_ok_iff
  · simp only [if_neg hc]
    exact roundTo_rounds c.decimalPlaces

/-! ### Operations that divide -/

/-- The half-away rounding of an exact value, or nothing. -/
def RoundsExactly (o : Except String Money) (x : ℚ) (ccy : ℤ) : Prop :=
  ∀ r, o = .ok r ↔ FitsInt64 (halfAway x) ∧ r = ⟨halfAway x, ccy⟩

lemma map_clamp_div {num den ccy : ℤ} {what : String} (hden : den ≠ 0) :
    RoundsExactly ((clampToInt64 (divRoundHalfAway num den) what).map fun v => ⟨v, ccy⟩)
      ((num : ℚ) / den) ccy := by
  intro r
  rw [← divRoundHalfAway_eq num hden]
  exact map_clamp_ok_iff

/-- The operations bind where the others map. -/
lemma bind_clamp_eq (v ccy : ℤ) (what : String) :
    (clampToInt64 v what >>= fun v => pure (⟨v, ccy⟩ : Money)) =
      (clampToInt64 v what).map fun v => ⟨v, ccy⟩ := by
  cases clampToInt64 v what <;> rfl

/-! ### What is computed on the way -/

def FitsInt128 (v : ℤ) : Prop := |v| < 2 ^ 127

/-- What a division half away from zero computes, and the multiple made of its
quotient. -/
structure DividesIn128 (num den : ℤ) : Prop where
  numerator : FitsInt128 num
  numMagnitude : FitsInt128 |num|
  denMagnitude : FitsInt128 |den|
  sum : FitsInt128 (|num| + |den| / 2)
  quotient : FitsInt128 (divRoundHalfAway num den)
  multiple : FitsInt128 (divRoundHalfAway num den * den)

lemma abs_divRoundHalfAway (num den : ℤ) :
    |divRoundHalfAway num den| = (|num| + |den| / 2) / |den| := by
  have hquotient : (((num.natAbs + den.natAbs / 2) / den.natAbs : ℕ) : ℤ) =
      (|num| + |den| / 2) / |den| := by
    simp only [natCast_ediv, Nat.cast_add, Nat.cast_natAbs, cast_abs, cast_id, Nat.cast_ofNat]
  have hnonneg : 0 ≤ (|num| + |den| / 2) / |den| := hquotient ▸ natCast_nonneg _
  unfold divRoundHalfAway
  rw [hquotient]
  split
  · rw [abs_neg, abs_of_nonneg hnonneg]
  · rw [abs_of_nonneg hnonneg]

lemma abs_le_of_fits {v : ℤ} (h : FitsInt64 v) : |v| ≤ 2 ^ 63 := by
  obtain ⟨hmin, hmax⟩ := h
  unfold int64Min at hmin
  unfold int64Max at hmax
  rw [abs_le]
  omega

lemma abs_mul_le_of_fits {u v : ℤ} (hu : FitsInt64 u) (hv : FitsInt64 v) :
    |u * v| ≤ 2 ^ 126 := by
  rw [abs_mul]
  calc |u| * |v| ≤ 2 ^ 63 * 2 ^ 63 :=
        mul_le_mul (abs_le_of_fits hu) (abs_le_of_fits hv) (abs_nonneg v) (by decide)
    _ = 2 ^ 126 := by norm_num

/-- **128 bits are enough** for a product of two amounts over a third. -/
theorem divides_in_128 {num den : ℤ} (hnum : |num| ≤ 2 ^ 126) (hden : FitsInt64 den)
    (hne : den ≠ 0) : DividesIn128 num den := by
  have hle := abs_le_of_fits hden
  have hpos : 1 ≤ |den| := one_le_abs hne
  have hsum : |num| + |den| / 2 < 2 ^ 127 := by omega
  have hnonneg : 0 ≤ |num| + |den| / 2 := by
    have := abs_nonneg num
    omega
  have hback : (|num| + |den| / 2) / |den| * |den| ≤ |num| + |den| / 2 :=
    Int.ediv_mul_le _ (by omega)
  have hquotient : (|num| + |den| / 2) / |den| ≤ |num| + |den| / 2 := ediv_le_self _ hnonneg
  refine ⟨?_, ?_, ?_, ?_, ?_, ?_⟩ <;> unfold FitsInt128
  · omega
  · rw [abs_abs]
    omega
  · rw [abs_abs]
    omega
  · rw [abs_of_nonneg hnonneg]
    exact hsum
  · rw [abs_divRoundHalfAway]
    omega
  · rw [abs_mul, abs_divRoundHalfAway]
    omega

/-- **Money rounding is a proper rounding.** -/
theorem money_rounding_proper : (∀ dp, ProperRounding (fun a => a.roundTo dp) (step dp)) ∧
      (∀ c, ProperRounding (fun a => a.roundToCurrency c) (currencyStep c)) ∧
      (∀ a qty : Money, RoundsExactly (a.mulQty qty) ((a.micros * qty.micros : ℤ) / (ONE : ℤ))
        a.currencyId) ∧
      (∀ a pct : Money, RoundsExactly (a.percent pct)
        ((a.micros * pct.micros : ℤ) / (ONE * 100 : ℤ)) a.currencyId) ∧
      (∀ (a : Money) (days totalDays : ℤ), totalDays ≠ 0 →
        RoundsExactly (a.prorate days totalDays) ((a.micros * days : ℤ) / totalDays)
          a.currencyId) ∧
      (∀ (a : Money) (ccy rate : ℤ), RoundsExactly (a.convertTo ccy rate)
        ((a.micros * rate : ℤ) / (ONE : ℤ)) ccy) ∧
      (∀ u v den : ℤ, FitsInt64 u → FitsInt64 v → FitsInt64 den → den ≠ 0 →
        DividesIn128 (u * v) den) := by
  refine ⟨?_, ?_, ?_, ?_, ?_, ?_, ?_⟩
  · exact fun dp => (roundTo_rounds dp).proper (step_pos dp)
  · exact fun c => (roundToCurrency_rounds c).proper (currencyStep_pos c)
  · intro a qty
    unfold mulQty
    rw [bind_clamp_eq]
    exact map_clamp_div (by decide)
  · intro a pct
    unfold percent
    rw [bind_clamp_eq]
    exact map_clamp_div (by decide)
  · intro a days totalDays hne
    unfold prorate
    rw [if_neg hne]
    exact map_clamp_div hne
  · intro a ccy rate
    exact map_clamp_div (by decide)
  · intro u v den hu hv hden hne
    exact divides_in_128 (abs_mul_le_of_fits hu hv) hden hne

end Money

end CErp
