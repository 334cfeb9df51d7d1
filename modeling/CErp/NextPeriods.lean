/-
`rental_next_period` as the database computes it: its arguments may be missing,
its numbers are 32-bit, and a day beyond the range of a timestamp is an error.

Where it returns, it returns what `rentalNextPeriod` says
(`rentalNextPeriodSql_ok`).  The anchor is an argument of its own, so a clamped
day does not lose it: `nextPeriods` takes the function again and again, and by
months and years it leads to the anchor of the month that is counted on to
(`next_periods_anchored`).
-/
import CErp.PeriodTiling

namespace CErp

open Outcome Calendar

namespace RentalPeriods

/-! ### The function -/

/-- The first day a timestamp can have. -/
def timestampMin : ℤ := ofDate (-4713) 11 24

/-- The first day a timestamp cannot have any more. -/
def timestampEnd : ℤ := ofDate 294277 1 1

/-- A day as a timestamp. -/
def timestamp (d : ℤ) : Except String ℤ :=
  if timestampMin ≤ d ∧ d < timestampEnd then .ok d else .error "timestamp out of range"

/-- A product that an `INTEGER` holds. -/
def integer (v : ℤ) : Except String ℤ :=
  if v < 2 ^ 31 then .ok v else .error "integer out of range"

/-- `p_unit`: what is none of the three is a month. -/
def unitOf (unit : Option String) : BillingUnit :=
  if unit = some "day" then .day
  else if unit = some "week" then .week
  else if unit = some "year" then .year
  else .month

def intervalOf (interval : Option ℤ) : ℤ := max 1 (interval.getD 1)

def anchorOf (anchor : Option ℤ) : ℤ := max 1 (min 31 (anchor.getD 1))

/-- So many days later. -/
def addDays (d days : ℤ) : Except String ℤ := do
  let start ← timestamp d
  timestamp (start + days)

/-- The anchor day of a month so many months later, or its last day. -/
def anchorDay (d months anchor : ℤ) : Except String ℤ := do
  let day ← timestamp d
  let month ← timestamp (monthStart (monthOf day))
  let start ← timestamp (addMonths month months)
  let next ← timestamp (addMonths start 1)
  let last ← timestamp (next - 1)
  return min (start + (anchor - 1)) last

/-- `rental_next_period`. -/
def rentalNextPeriodSql (d : ℤ) (anchor interval : Option ℤ) (unit : Option String) :
    Except String ℤ :=
  let n := intervalOf interval
  match unitOf unit with
  | .day => addDays d n
  | .week => do
      let days ← integer (n * 7)
      addDays d days
  | .month => anchorDay d n (anchorOf anchor)
  | .year => do
      let months ← integer (n * 12)
      anchorDay d months (anchorOf anchor)

/-- Taken again and again. -/
def nextPeriods (anchor interval : Option ℤ) (unit : Option String) : ℕ → ℤ → Except String ℤ
  | 0, d => .ok d
  | k + 1, d => do
      let next ← rentalNextPeriodSql d anchor interval unit
      nextPeriods anchor interval unit k next

/-! ### Where it returns -/

lemma timestamp_ok_iff {d v : ℤ} :
    timestamp d = .ok v ↔ (timestampMin ≤ d ∧ d < timestampEnd) ∧ d = v :=
  given_ok_iff

lemma integer_ok_iff {v w : ℤ} : integer v = .ok w ↔ v < 2 ^ 31 ∧ v = w :=
  given_ok_iff

/-- Only the two ends matter. -/
lemma addDays_ok_iff {d days v : ℤ} (hdays : 0 ≤ days) :
    addDays d days = .ok v ↔ (timestampMin ≤ d ∧ d + days < timestampEnd) ∧ d + days = v := by
  unfold addDays
  rw [bind_ok_iff]
  constructor
  · rintro ⟨start, hstart, h⟩
    obtain ⟨hin, rfl⟩ := timestamp_ok_iff.mp hstart
    obtain ⟨hin', hv⟩ := timestamp_ok_iff.mp h
    exact ⟨⟨hin.1, hin'.2⟩, hv⟩
  · rintro ⟨hin, hv⟩
    exact ⟨d, timestamp_ok_iff.mpr ⟨⟨hin.1, by omega⟩, rfl⟩,
      timestamp_ok_iff.mpr ⟨⟨by omega, hin.2⟩, hv⟩⟩

/-- A month to count from begins, and the month counted on to ends, in range. -/
def MonthsInRange (o months : ℤ) : Prop :=
  timestampMin ≤ monthStart o ∧ monthStart (o + months + 1) < timestampEnd

lemma anchorDay_ok_iff {d months a v : ℤ} (hmonths : 1 ≤ months) :
    anchorDay d months a = .ok v ↔ MonthsInRange (monthOf d) months ∧
      dayIn (monthOf d + months) a = v := by
  have hd := monthOf_bounds d
  have hlast : monthStart (monthOf d + 1) ≤ monthStart (monthOf d + months) :=
    monthStart_strictMono.monotone (by omega)
  have hnext := monthStart_le_monthEnd (monthOf d + months)
  unfold monthEnd at hnext
  unfold anchorDay
  simp only [bind_ok_iff, timestamp_ok_iff, pure_ok_iff]
  constructor
  · rintro ⟨_, ⟨-, rfl⟩, _, ⟨hmonth, rfl⟩, _, ⟨-, rfl⟩, _, ⟨hafter, rfl⟩, _, ⟨-, rfl⟩, hv⟩
    rw [addMonths_monthStart, addMonths_monthStart] at hafter hv
    exact ⟨⟨hmonth.1, hafter.2⟩, hv⟩
  · rintro ⟨⟨hmonth, hafter⟩, hv⟩
    refine ⟨d, ⟨?_, rfl⟩, _, ⟨?_, rfl⟩, _, ⟨?_, rfl⟩, _, ⟨?_, rfl⟩, _, ⟨?_, rfl⟩, ?_⟩
    · omega
    · omega
    · rw [addMonths_monthStart]
      omega
    · rw [addMonths_monthStart, addMonths_monthStart]
      omega
    · rw [addMonths_monthStart, addMonths_monthStart]
      omega
    · rw [addMonths_monthStart, addMonths_monthStart]
      exact hv

lemma one_le_intervalOf (interval : Option ℤ) : 1 ≤ intervalOf interval := le_max_left _ _

lemma one_le_anchorOf (anchor : Option ℤ) : 1 ≤ anchorOf anchor := le_max_left _ _

/-- The day and everything counted with are in range. -/
def InRange (d : ℤ) (interval : Option ℤ) (unit : Option String) : Prop :=
  let n := intervalOf interval
  match unitOf unit with
  | .day => timestampMin ≤ d ∧ d + n < timestampEnd
  | .week => n * 7 < 2 ^ 31 ∧ timestampMin ≤ d ∧ d + n * 7 < timestampEnd
  | .month => MonthsInRange (monthOf d) n
  | .year => n * 12 < 2 ^ 31 ∧ MonthsInRange (monthOf d) (n * 12)

/-- In range the function returns the day of `rentalNextPeriod`, and elsewhere it
returns none. -/
lemma rentalNextPeriodSql_ok_iff {d v : ℤ} {anchor interval : Option ℤ} {unit : Option String} :
    rentalNextPeriodSql d anchor interval unit = .ok v ↔ InRange d interval unit ∧
      rentalNextPeriod d (anchor.getD 1) (interval.getD 1) (unitOf unit) = v := by
  have hn := one_le_intervalOf interval
  unfold rentalNextPeriodSql InRange rentalNextPeriod
  generalize unitOf unit = u
  cases u with
  | day =>
      rw [addDays_ok_iff (by omega)]
      rfl
  | week =>
      rw [bind_ok_iff]
      simp only [integer_ok_iff]
      constructor
      · rintro ⟨_, ⟨hsmall, rfl⟩, h⟩
        obtain ⟨hin, hv⟩ := (addDays_ok_iff (by omega)).mp h
        exact ⟨⟨hsmall, hin⟩, hv⟩
      · rintro ⟨⟨hsmall, hin⟩, hv⟩
        exact ⟨_, ⟨hsmall, rfl⟩, (addDays_ok_iff (by omega)).mpr ⟨hin, hv⟩⟩
  | month =>
      rw [anchorDay_ok_iff hn]
      rfl
  | year =>
      rw [bind_ok_iff]
      simp only [integer_ok_iff]
      constructor
      · rintro ⟨_, ⟨hsmall, rfl⟩, h⟩
        obtain ⟨hin, hv⟩ := (anchorDay_ok_iff (by omega)).mp h
        exact ⟨⟨hsmall, hin⟩, hv⟩
      · rintro ⟨⟨hsmall, hin⟩, hv⟩
        exact ⟨_, ⟨hsmall, rfl⟩, (anchorDay_ok_iff (by omega)).mpr ⟨hin, hv⟩⟩

/-! ### By months and years -/

/-- The months a period by months or years takes. -/
def stepMonths (interval : Option ℤ) (unit : Option String) : Option ℤ :=
  match unitOf unit with
  | .day | .week => none
  | .month => some (intervalOf interval)
  | .year => some (intervalOf interval * 12)

/-- The months of so many years are counted in an `INTEGER`. -/
def Countable (interval : Option ℤ) (unit : Option String) : Prop :=
  unitOf unit = .year → intervalOf interval * 12 < 2 ^ 31

section Months

variable {d m v : ℤ} {anchor interval : Option ℤ} {unit : Option String}

lemma one_le_stepMonths (hm : stepMonths interval unit = some m) : 1 ≤ m := by
  have hn := one_le_intervalOf interval
  unfold stepMonths at hm
  split at hm
  · cases hm
  · cases hm
  · obtain rfl := Option.some.inj hm
    exact hn
  · obtain rfl := Option.some.inj hm
    omega

lemma monthStep_ok_iff (hm : stepMonths interval unit = some m) :
    rentalNextPeriodSql d anchor interval unit = .ok v ↔
      (Countable interval unit ∧ MonthsInRange (monthOf d) m) ∧
        dayIn (monthOf d + m) (anchorOf anchor) = v := by
  rw [rentalNextPeriodSql_ok_iff]
  unfold stepMonths at hm
  unfold InRange Countable rentalNextPeriod
  generalize unitOf unit = u at hm ⊢
  cases u with
  | day => cases hm
  | week => cases hm
  | month =>
      obtain rfl := Option.some.inj hm
      simp only [reduceCtorEq, false_implies, true_and]
      rfl
  | year =>
      obtain rfl := Option.some.inj hm
      simp only [true_implies]
      rfl

/-- Where the periods lead to, and how far. -/
lemma nextPeriods_ok_iff (hm : stepMonths interval unit = some m) (k : ℕ)
    (hday : dayOfMonth d = min (anchorOf anchor) (daysIn (monthOf d))) :
    nextPeriods anchor interval unit k d = .ok v ↔
      (k = 0 ∨ Countable interval unit ∧ MonthsInRange (monthOf d) (k * m)) ∧
        dayIn (monthOf d + k * m) (anchorOf anchor) = v := by
  have hm1 := one_le_stepMonths hm
  have ha := one_le_anchorOf anchor
  induction k generalizing d with
  | zero =>
      have hsame : dayIn (monthOf d + (0 : ℕ) * m) (anchorOf anchor) = d := by
        rw [Int.natCast_zero, zero_mul, add_zero]
        exact eq_of_month_day (monthOf_dayIn _ ha)
          ((dayOfMonth_dayIn _ ha).trans hday.symm)
      rw [hsame]
      unfold nextPeriods
      rw [Except.ok.injEq]
      exact ⟨fun h => ⟨.inl rfl, h⟩, fun h => h.2⟩
  | succ k ih =>
      have hmonth := monthOf_dayIn (monthOf d + m) ha
      -- the clamped day still names its month, and the anchor is not read off it
      have hnext := ih (d := dayIn (monthOf d + m) (anchorOf anchor)) (by
        rw [hmonth]
        exact dayOfMonth_dayIn _ ha)
      have hsum : monthOf d + m + k * m = monthOf d + (k + 1 : ℕ) * m := by
        push_cast
        ring
      have hkm : 0 ≤ (k : ℤ) * m := mul_nonneg (Int.natCast_nonneg k) (by omega)
      rw [hmonth, hsum] at hnext
      unfold nextPeriods
      rw [bind_ok_iff]
      simp only [monthStep_ok_iff hm]
      unfold MonthsInRange at hnext ⊢
      rw [hsum] at hnext
      have hstart : monthStart (monthOf d) ≤ monthStart (monthOf d + m) :=
        monthStart_strictMono.monotone (by omega)
      have hend : monthStart (monthOf d + m + 1) ≤ monthStart (monthOf d + (k + 1 : ℕ) * m + 1) :=
        monthStart_strictMono.monotone (by omega)
      constructor
      · rintro ⟨_, ⟨⟨hcount, hmin, hfirst⟩, rfl⟩, h⟩
        obtain ⟨hrest, hv⟩ := hnext.mp h
        refine ⟨.inr ⟨hcount, hmin, ?_⟩, hv⟩
        rcases hrest with rfl | ⟨-, -, hlast⟩
        · rw [← hsum, Int.natCast_zero, zero_mul, add_zero]
          exact hfirst
        · exact hlast
      · rintro ⟨hzero | ⟨hcount, hmin, hlast⟩, hv⟩
        · cases hzero
        · exact ⟨_, ⟨⟨hcount, hmin, by omega⟩, rfl⟩, hnext.mpr ⟨.inr ⟨hcount, by omega, hlast⟩, hv⟩⟩

end Months

/-- **The next period never stalls and never drifts.**  What is returned is a
later day; it is returned exactly in range.  By months and years, from a day
that is the anchor or the last of a shorter month, any number of periods leads
to the anchor, or the last day, of the month counted on to. -/
theorem next_periods_anchored (d : ℤ) (anchor interval : Option ℤ) (unit : Option String) :
    (∀ v, rentalNextPeriodSql d anchor interval unit = .ok v → d < v) ∧
    ((∃ v, rentalNextPeriodSql d anchor interval unit = .ok v) ↔ InRange d interval unit) ∧
    ∀ m, stepMonths interval unit = some m →
      dayOfMonth d = min (anchorOf anchor) (daysIn (monthOf d)) →
      ∀ k : ℕ, (∀ v, nextPeriods anchor interval unit k d = .ok v → monthOf v = monthOf d + k * m ∧
          dayOfMonth v = min (anchorOf anchor) (daysIn (monthOf d + k * m))) ∧
        ((∃ v, nextPeriods anchor interval unit k d = .ok v) ↔
          k = 0 ∨ Countable interval unit ∧ MonthsInRange (monthOf d) (k * m)) := by
  refine ⟨?_, ?_, ?_⟩
  · intro v h
    obtain ⟨-, rfl⟩ := rentalNextPeriodSql_ok_iff.mp h
    exact RentalBilling.lt_rentalNextPeriod _ _ _ _
  · constructor
    · rintro ⟨v, h⟩
      exact (rentalNextPeriodSql_ok_iff.mp h).1
    · intro h
      exact ⟨_, rentalNextPeriodSql_ok_iff.mpr ⟨h, rfl⟩⟩
  · intro m hm hday k
    refine ⟨?_, ?_⟩
    · intro v h
      obtain ⟨-, rfl⟩ := (nextPeriods_ok_iff hm k hday).mp h
      have ha := one_le_anchorOf anchor
      exact ⟨monthOf_dayIn _ ha, dayOfMonth_dayIn _ ha⟩
    · constructor
      · rintro ⟨v, h⟩
        exact ((nextPeriods_ok_iff hm k hday).mp h).1
      · intro h
        exact ⟨_, (nextPeriods_ok_iff hm k hday).mpr ⟨h, rfl⟩⟩

-- the anchor on the 31st comes back in March
example : nextPeriods (some 31) (some 1) (some "month") 2 (ofDate 2026 1 31) =
    .ok (ofDate 2026 3 31) := by decide

/-- Too many weeks are no number, and no months are one month. -/
theorem next_period_limits : (¬∀ (d : ℤ) (anchor interval : Option ℤ) (unit : Option String),
      ∃ v, rentalNextPeriodSql d anchor interval unit = .ok v ∧ d < v) ∧
    ¬∀ (d interval : ℤ) (anchor : Option ℤ) (k : ℕ) (v : ℤ),
      dayOfMonth d = min (anchorOf anchor) (daysIn (monthOf d)) →
      nextPeriods anchor (some interval) (some "month") k d = .ok v →
      monthOf v = monthOf d + k * interval := by
  constructor
  · intro h
    obtain ⟨v, hv, -⟩ := h (ofDate 2026 1 31) (some 31) (some 400000000) (some "week")
    have hnone : rentalNextPeriodSql (ofDate 2026 1 31) (some 31) (some 400000000)
        (some "week") = .error "integer out of range" := by
      decide
    rw [hnone] at hv
    cases hv
  · intro h
    have hmonth := h (ofDate 2026 1 31) 0 (some 31) 1 (ofDate 2026 2 28)
      (by decide) (by decide)
    exact absurd hmonth (by decide)

end RentalPeriods

end CErp
