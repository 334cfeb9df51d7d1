/-
Buckets of consecutive days: days, weeks, months, quarters and years.

A family of buckets (`Buckets`) says where each bucket begins and which one a day
is in, the two being adjoint: a bucket is not after that of a day exactly when it
begins by that day.  So a day is in the one bucket whose days it is among
(`index_eq_iff`), and two days with one start are in one bucket
(`index_eq_of_start_eq`).
-/
import CErp.Calendar

namespace Calendar

/-- Where each bucket begins, and the bucket of a day. -/
structure Buckets where
  start : ℤ → ℤ
  index : ℤ → ℤ
  le_index_iff : ∀ {q d}, q ≤ index d ↔ start q ≤ d

namespace Buckets

variable (b : Buckets)

/-- The first day of a day's bucket. -/
def floor (d : ℤ) : ℤ := b.start (b.index d)

/-- The first day of the next bucket. -/
def next (d : ℤ) : ℤ := b.start (b.index d + 1)

lemma floor_le (d : ℤ) : b.floor d ≤ d := b.le_index_iff.mp le_rfl

lemma lt_next (d : ℤ) : d < b.next d := by
  by_contra h
  have hle := b.le_index_iff.mpr (not_lt.mp h)
  omega

lemma start_mono : Monotone b.start := by
  intro q q' h
  -- a start that were later would be after the day it begins at
  by_contra hlt
  have hnot : ¬q ≤ b.index (b.start q') := fun hq => hlt (b.le_index_iff.mp hq)
  exact hnot (le_trans h (b.le_index_iff.mpr le_rfl))

/-- **A day is in the bucket among whose days it is.** -/
theorem index_eq_iff {d q : ℤ} : b.index d = q ↔ b.start q ≤ d ∧ d < b.start (q + 1) := by
  constructor
  · rintro rfl
    exact ⟨b.floor_le d, b.lt_next d⟩
  · rintro ⟨hle, hlt⟩
    have hlow := b.le_index_iff.mpr hle
    have hhigh : ¬q + 1 ≤ b.index d := fun h => absurd (b.le_index_iff.mp h) (not_le.mpr hlt)
    omega

lemma index_le_of_floor_eq {d d' : ℤ} (h : b.floor d = b.floor d') : b.index d ≤ b.index d' := by
  apply b.le_index_iff.mpr
  have hfloor : b.start (b.index d) = b.floor d' := h
  rw [hfloor]
  exact b.floor_le d'

/-- Days whose buckets begin together are in one bucket. -/
lemma index_eq_of_floor_eq {d d' : ℤ} (h : b.floor d = b.floor d') : b.index d = b.index d' :=
  le_antisymm (b.index_le_of_floor_eq h) (b.index_le_of_floor_eq h.symm)

/-- A day is between the ends of another's bucket exactly when their buckets
begin together. -/
lemma floor_eq_iff {d d' : ℤ} : b.floor d' = b.floor d ↔ b.floor d ≤ d' ∧ d' < b.next d := by
  constructor
  · intro h
    have hindex := b.index_eq_of_floor_eq h
    refine ⟨h ▸ b.floor_le d', ?_⟩
    have hnext : b.next d' = b.next d := by
      unfold next
      rw [hindex]
    exact hnext ▸ b.lt_next d'
  · rintro ⟨hle, hlt⟩
    unfold floor
    rw [b.index_eq_iff.mpr ⟨hle, hlt⟩]

end Buckets

/-! ### The buckets of the calendar -/

def days : Buckets where
  start := id
  index := id
  le_index_iff := Iff.rfl

/-- A Monday. -/
def aMonday : ℤ := ofDate 2026 3 2

/-- Weeks begin on Mondays. -/
def weeks : Buckets where
  start q := 7 * q + aMonday
  index d := (d - aMonday) / 7
  le_index_iff := by
    intro q d
    omega

def months : Buckets where
  start := monthStart
  index := monthOf
  le_index_iff := le_monthOf_iff

/-- Runs of `n` months, the first month of one being January of year 0. -/
def monthRuns (n : ℤ) (h : 0 < n) : Buckets where
  start q := monthStart (n * q - 2)
  index d := (monthOf d + 2) / n
  le_index_iff := by
    intro q d
    rw [Int.le_ediv_iff_mul_le h, ← le_monthOf_iff, mul_comm q n]
    omega

def quarters : Buckets := monthRuns 3 (by decide)

def years : Buckets := monthRuns 12 (by decide)

/-- A bucket is a week at the most, or begins with a month. -/
def Buckets.Plain (b : Buckets) : Prop :=
  (∀ q, b.start (q + 1) ≤ b.start q + 7) ∨ ∀ q, dayOfMonth (b.start q) = 1

lemma dayOfMonth_monthStart (o : ℤ) : dayOfMonth (monthStart o) = 1 := by
  unfold dayOfMonth
  rw [monthOf_monthStart]
  omega

lemma days_plain : days.Plain := .inl fun q => by
  show q + 1 ≤ q + 7
  omega

lemma weeks_plain : weeks.Plain := .inl fun q => by
  show 7 * (q + 1) + aMonday ≤ 7 * q + aMonday + 7
  omega

lemma months_plain : months.Plain := .inr dayOfMonth_monthStart

lemma monthRuns_plain {n : ℤ} (h : 0 < n) : (monthRuns n h).Plain :=
  .inr fun _ => dayOfMonth_monthStart _

end Calendar
