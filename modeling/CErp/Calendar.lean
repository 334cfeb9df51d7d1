/-
Days and months of the Gregorian calendar.

A day is an integer, day 0 being the first of March of year 0; a month is an
integer too, counted from that month on.  `monthStart` is the first day of a
month and `monthOf` the month of a day: each month has 28 to 31 days
(`monthStart_succ`) and a day is in the one month whose days it is among
(`monthOf_eq_iff`).

* `dayIn o a` is the day `a` of the month `o`, or its last day when the month is
  shorter; it is in that month (`monthOf_dayIn`);
* `addMonths d k` is the same day some months later, clamped the same way.

Years begin in March here, so that the leap day is the last of its year.

The same day every so many months, counted in two ways.

`anchored` counts every day from the first; `stepped` takes the months from one
day to the next, and a day that a short month cut down stays cut down.  Both
name one day in each month counted to, so they name the same days as far as the
first that a short month has moved (`steps_agree_iff`).
-/
import Mathlib

namespace Calendar

/-- The first day of a month. -/
def monthStart (o : ℤ) : ℤ :=
  365 * (o / 12) + o / 12 / 4 - o / 12 / 100 + o / 12 / 400 + (153 * (o % 12) + 2) / 5

/-- The last day of a month. -/
def monthEnd (o : ℤ) : ℤ := monthStart (o + 1) - 1

/-- The month of a day: an estimate by the mean length of a month, corrected by
one where it is off. -/
def monthOf (d : ℤ) : ℤ :=
  let o := d * 4800 / 146097
  if monthStart (o + 1) ≤ d then o + 1 else if d < monthStart o then o - 1 else o

/-- The day of a month, from 1 on. -/
def dayOfMonth (d : ℤ) : ℤ := d - monthStart (monthOf d) + 1

/-- The day `a` of a month, or its last one. -/
def dayIn (o a : ℤ) : ℤ := min (monthStart o + (a - 1)) (monthEnd o)

/-- The number of days in a month. -/
def daysIn (o : ℤ) : ℤ := monthStart (o + 1) - monthStart o

/-- The same day some months later, or the last one of that month. -/
def addMonths (d k : ℤ) : ℤ := dayIn (monthOf d + k) (dayOfMonth d)

/-- The day of a date; January and February are months of the year before. -/
def ofDate (year month day : ℤ) : ℤ := monthStart (12 * year + month - 3) + (day - 1)

/-- The year of a month as it is written. -/
def yearOf (o : ℤ) : ℤ := (o + 2) / 12

/-- The number of a month in its year as it is written. -/
def monthInYear (o : ℤ) : ℤ := (o + 2) % 12 + 1

/-! ### Lengths -/

/-- A month has 28 to 31 days. -/
lemma monthStart_succ (o : ℤ) :
    monthStart o + 28 ≤ monthStart (o + 1) ∧ monthStart (o + 1) ≤ monthStart o + 31 := by
  unfold monthStart
  by_cases hlast : o % 12 = 11
  · -- the leap day falls on the last month
    have hyear : (o + 1) / 12 = o / 12 + 1 := by omega
    have hmonth : (o + 1) % 12 = 0 := by omega
    rw [hyear, hmonth, hlast]
    omega
  · have hyear : (o + 1) / 12 = o / 12 := by omega
    have hmonth : (o + 1) % 12 = o % 12 + 1 := by omega
    rw [hyear, hmonth]
    omega

lemma monthStart_lt_succ (o : ℤ) : monthStart o < monthStart (o + 1) := by
  have h := (monthStart_succ o).1
  omega

lemma monthStart_strictMono : StrictMono monthStart := strictMono_int_of_lt_succ monthStart_lt_succ

lemma monthStart_le_monthEnd (o : ℤ) : monthStart o ≤ monthEnd o := by
  have h := (monthStart_succ o).1
  unfold monthEnd
  omega

/-- A month begins no farther from the mean than a few days; in units of a
4800th of a day. -/
lemma monthStart_near (o : ℤ) :
    146097 * o - 28800 ≤ 4800 * monthStart o ∧ 4800 * monthStart o ≤ 146097 * o + 28800 := by
  unfold monthStart
  omega

/-! ### The month of a day -/

lemma monthOf_bounds (d : ℤ) : monthStart (monthOf d) ≤ d ∧ d < monthStart (monthOf d + 1) := by
  have hbefore := (monthStart_near (d * 4800 / 146097 - 1)).2
  have hafter := (monthStart_near (d * 4800 / 146097 + 1 + 1)).1
  have hestimate : 146097 * (d * 4800 / 146097) ≤ d * 4800 ∧
      d * 4800 < 146097 * (d * 4800 / 146097) + 146097 := by omega
  unfold monthOf
  dsimp only
  split
  · next hnext =>
      refine ⟨hnext, ?_⟩
      omega
  · next hnext =>
      split
      · next hprev =>
          rw [sub_add_cancel]
          refine ⟨?_, hprev⟩
          omega
      · next hprev => exact ⟨not_lt.mp hprev, not_le.mp hnext⟩

/-- **A day is in the month among whose days it is.** -/
theorem monthOf_eq_iff {d o : ℤ} : monthOf d = o ↔ monthStart o ≤ d ∧ d < monthStart (o + 1) := by
  obtain ⟨hlow, hhigh⟩ := monthOf_bounds d
  constructor
  · rintro rfl
    exact ⟨hlow, hhigh⟩
  · rintro ⟨hlow', hhigh'⟩
    have h₁ : monthOf d < o + 1 := monthStart_strictMono.lt_iff_lt.mp (lt_of_le_of_lt hlow hhigh')
    have h₂ : o < monthOf d + 1 := monthStart_strictMono.lt_iff_lt.mp (lt_of_le_of_lt hlow' hhigh)
    omega

lemma monthOf_monthStart (o : ℤ) : monthOf (monthStart o) = o :=
  monthOf_eq_iff.mpr ⟨le_rfl, monthStart_lt_succ o⟩

lemma le_monthOf_iff {o d : ℤ} : o ≤ monthOf d ↔ monthStart o ≤ d := by
  obtain ⟨hlow, hhigh⟩ := monthOf_bounds d
  constructor
  · intro h
    exact le_trans (monthStart_strictMono.monotone h) hlow
  · intro h
    have hlt := monthStart_strictMono.lt_iff_lt.mp (lt_of_le_of_lt h hhigh)
    omega

lemma monthOf_mono : Monotone monthOf := by
  intro d d' h
  exact le_monthOf_iff.mpr (le_trans (monthOf_bounds d).1 h)

/-! ### Days in a month -/

lemma dayOfMonth_pos (d : ℤ) : 1 ≤ dayOfMonth d := by
  have h := (monthOf_bounds d).1
  unfold dayOfMonth
  omega

lemma monthOf_dayIn (o : ℤ) {a : ℤ} (h : 1 ≤ a) : monthOf (dayIn o a) = o := by
  have hend := monthStart_le_monthEnd o
  apply monthOf_eq_iff.mpr
  unfold dayIn monthEnd at *
  omega

lemma dayOfMonth_dayIn (o : ℤ) {a : ℤ} (h : 1 ≤ a) :
    dayOfMonth (dayIn o a) = min a (daysIn o) := by
  unfold dayOfMonth
  rw [monthOf_dayIn o h]
  unfold dayIn monthEnd daysIn
  omega

/-- A day is named by its month and its number there. -/
lemma eq_of_month_day {d d' : ℤ} (hmonth : monthOf d = monthOf d')
    (hday : dayOfMonth d = dayOfMonth d') : d = d' := by
  unfold dayOfMonth at hday
  rw [hmonth] at hday
  omega

lemma monthStart_le_dayIn (o : ℤ) {a : ℤ} (h : 1 ≤ a) : monthStart o ≤ dayIn o a := by
  have hend := monthStart_le_monthEnd o
  unfold dayIn
  omega

/-- A month after the first of a month is the first of the next. -/
lemma addMonths_monthStart (o k : ℤ) : addMonths (monthStart o) k = monthStart (o + k) := by
  have hend := monthStart_le_monthEnd (o + k)
  unfold addMonths dayIn dayOfMonth
  rw [monthOf_monthStart]
  omega

-- 31 January is clamped to 28 February, and the day after is 1 March
example : dayIn (monthOf (ofDate 2026 1 31) + 1) 31 = ofDate 2026 2 28 := by decide
example : ofDate 2024 2 29 + 1 = ofDate 2024 3 1 := by decide

end Calendar

namespace Calendar

/-- The day so many steps on, each step counted from the day before. -/
def stepped (d m : ℤ) : ℕ → ℤ
  | 0 => d
  | k + 1 => addMonths (stepped d m k) m

/-- The day so many steps on, counted from the first. -/
def anchored (d m : ℤ) (k : ℕ) : ℤ := addMonths d (k * m)

/-- The month so many steps on. -/
def stepMonth (d m : ℤ) (k : ℕ) : ℤ := monthOf d + k * m

variable {d m : ℤ}

lemma stepMonth_zero : stepMonth d m 0 = monthOf d := by
  unfold stepMonth
  rw [Int.natCast_zero, Int.zero_mul, Int.add_zero]

variable (k : ℕ)

lemma stepMonth_succ : stepMonth d m (k + 1) = stepMonth d m k + m := by
  unfold stepMonth
  rw [Int.natCast_add, Int.natCast_one, Int.add_mul, Int.one_mul, Int.add_assoc]

lemma stepMonth_strictMono (hm : 1 ≤ m) : StrictMono (stepMonth d m) := by
  apply strictMono_nat_of_lt_succ
  intro k
  rw [stepMonth_succ]
  omega

lemma monthOf_addMonths (d k : ℤ) : monthOf (addMonths d k) = monthOf d + k :=
  monthOf_dayIn _ (dayOfMonth_pos d)

lemma dayOfMonth_addMonths (d k : ℤ) :
    dayOfMonth (addMonths d k) = min (dayOfMonth d) (daysIn (monthOf d + k)) :=
  dayOfMonth_dayIn _ (dayOfMonth_pos d)

lemma dayOfMonth_le_daysIn (d : ℤ) : dayOfMonth d ≤ daysIn (monthOf d) := by
  have hlast := (monthOf_bounds d).2
  unfold dayOfMonth daysIn
  omega

lemma one_le_daysIn (o : ℤ) : 1 ≤ daysIn o := by
  have hlen := (monthStart_succ o).1
  unfold daysIn
  omega

lemma monthOf_anchored : monthOf (anchored d m k) = stepMonth d m k :=
  monthOf_addMonths d _

lemma dayOfMonth_anchored :
    dayOfMonth (anchored d m k) = min (dayOfMonth d) (daysIn (stepMonth d m k)) :=
  dayOfMonth_addMonths d _

lemma monthOf_stepped : monthOf (stepped d m k) = stepMonth d m k := by
  induction k with
  | zero => exact stepMonth_zero.symm
  | succ k ih => rw [stepped, monthOf_addMonths, ih, stepMonth_succ]

lemma dayOfMonth_stepped_succ : dayOfMonth (stepped d m (k + 1)) =
    min (dayOfMonth (stepped d m k)) (daysIn (stepMonth d m (k + 1))) := by
  rw [stepped, dayOfMonth_addMonths, monthOf_stepped, stepMonth_succ]

/-- Days are in the order of their months. -/
lemma lt_of_monthOf_lt {x y : ℤ} (h : monthOf x < monthOf y) : x < y := by
  by_contra hle
  exact absurd (monthOf_mono (Int.not_lt.mp hle)) (Int.not_le.mpr h)

lemma stepped_strictMono (hm : 1 ≤ m) : StrictMono (stepped d m) := by
  intro j k h
  apply lt_of_monthOf_lt
  rw [monthOf_stepped, monthOf_stepped]
  exact stepMonth_strictMono hm h

/-- A step never finds the day back that a short month cut down. -/
lemma dayOfMonth_stepped_le {j k : ℕ} (h : j ≤ k) :
    dayOfMonth (stepped d m k) ≤ daysIn (stepMonth d m j) := by
  induction k, h using Nat.le_induction with
  | base =>
      rw [← monthOf_stepped]
      exact dayOfMonth_le_daysIn _
  | succ k _ ih =>
      rw [dayOfMonth_stepped_succ]
      exact (min_le_left _ _).trans ih

lemma dayOfMonth_stepped_le_first : dayOfMonth (stepped d m k) ≤ dayOfMonth d := by
  induction k with
  | zero => exact le_rfl
  | succ k ih =>
      rw [dayOfMonth_stepped_succ]
      exact (min_le_left _ _).trans ih

/-- The day is the first one's, or the length of a month on the way. -/
lemma dayOfMonth_stepped_eq : dayOfMonth (stepped d m k) = dayOfMonth d ∨
    ∃ j ≤ k, dayOfMonth (stepped d m k) = daysIn (stepMonth d m j) := by
  induction k with
  | zero => exact .inl rfl
  | succ k ih =>
      rw [dayOfMonth_stepped_succ]
      rcases min_choice (dayOfMonth (stepped d m k)) (daysIn (stepMonth d m (k + 1)))
        with hday | hlast
      · rw [hday]
        rcases ih with hfirst | ⟨j, hj, heq⟩
        · exact .inl hfirst
        · exact .inr ⟨j, hj.trans (Nat.le_succ k), heq⟩
      · exact .inr ⟨k + 1, le_rfl, hlast⟩

/-- A step does not overtake the count. -/
lemma stepped_le_anchored : stepped d m k ≤ anchored d m k := by
  have hle : dayOfMonth (stepped d m k) ≤ dayOfMonth (anchored d m k) := by
    rw [dayOfMonth_anchored]
    exact le_min (dayOfMonth_stepped_le_first k) (dayOfMonth_stepped_le le_rfl)
  unfold dayOfMonth at hle
  rw [monthOf_stepped, monthOf_anchored] at hle
  omega

/-- An earlier month is too short for the day a later one should have. -/
def CutsDown (d m : ℤ) (j k : ℕ) : Prop :=
  j < k ∧ daysIn (stepMonth d m j) < min (dayOfMonth d) (daysIn (stepMonth d m k))

/-- **Both ways name the same days** up to a limit exactly if no day that a short
month has moved is within it. -/
theorem steps_agree_iff (hm : 1 ≤ m) {L : ℤ → Prop} (hL : ∀ x y, x ≤ y → L y → L x) :
    (∀ x, (∃ k, stepped d m k = x ∧ L x) ↔ ∃ k, anchored d m k = x ∧ L x) ↔
      ∀ j k, CutsDown d m j k → ¬L (dayIn (stepMonth d m k) (daysIn (stepMonth d m j))) := by
  constructor
  · rintro h j k ⟨hjk, hshort⟩ hwithin
    have hday := one_le_daysIn (stepMonth d m j)
    have hle := dayOfMonth_stepped_le (d := d) (m := m) hjk.le
    have hsame : ∀ i, monthOf (anchored d m i) = monthOf (stepped d m k) → i = k := by
      intro i hi
      rw [monthOf_anchored, monthOf_stepped] at hi
      exact (stepMonth_strictMono hm).injective hi
    -- the day itself is no later, so it is within the limit and named by the count
    have hbefore : stepped d m k ≤ dayIn (stepMonth d m k) (daysIn (stepMonth d m j)) := by
      have hmonth := monthOf_stepped (d := d) (m := m) k
      have hcut := dayOfMonth_dayIn (stepMonth d m k) hday
      have hlast := dayOfMonth_le_daysIn (stepped d m k)
      unfold dayOfMonth at hle hlast
      unfold dayIn monthEnd
      unfold daysIn at *
      rw [hmonth] at hle hlast
      omega
    obtain ⟨i, hi, -⟩ := (h _).mp ⟨k, rfl, hL _ _ hbefore hwithin⟩
    obtain rfl := hsame i (congrArg monthOf hi)
    have hdays := congrArg dayOfMonth hi
    rw [dayOfMonth_anchored] at hdays
    omega
  · intro h x
    -- a day within the limit is the count's, as no month has moved it
    have hagree : ∀ k, L (stepped d m k) → stepped d m k = anchored d m k := by
      intro k hwithin
      apply eq_of_month_day
      · rw [monthOf_stepped, monthOf_anchored]
      · have hself := dayOfMonth_stepped_le (d := d) (m := m) (le_refl k)
        have hfirst := dayOfMonth_stepped_le_first (d := d) (m := m) k
        rw [dayOfMonth_anchored]
        by_contra hne
        rcases dayOfMonth_stepped_eq (d := d) (m := m) k with heq | ⟨j, hj, heq⟩
        · omega
        · have hjk : j < k := by
            rcases Nat.lt_or_eq_of_le hj with hlt | rfl
            · exact hlt
            · omega
          refine h j k ⟨hjk, by omega⟩ ?_
          have hday : stepped d m k = dayIn (stepMonth d m k) (daysIn (stepMonth d m j)) := by
            apply eq_of_month_day
            · rw [monthOf_stepped, monthOf_dayIn _ (one_le_daysIn _)]
            · rw [dayOfMonth_dayIn _ (one_le_daysIn _)]
              omega
          rw [← hday]
          exact hwithin
    constructor
    · rintro ⟨k, rfl, hwithin⟩
      exact ⟨k, (hagree k hwithin).symm, hwithin⟩
    · rintro ⟨k, rfl, hwithin⟩
      exact ⟨k, hagree k (hL _ _ (stepped_le_anchored k) hwithin), hwithin⟩

end Calendar
