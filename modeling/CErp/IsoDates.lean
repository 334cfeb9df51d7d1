/-
Days as texts, and texts as days.

`dateText` writes a day as year, month and day between dashes, years before the
first as years before Christ, the era left to what is written after
(`midnightText`).  `dayOfDigits` reads such a text, and knows no era.

* `midnightText_injective`: the whole text tells days apart;
* `dayOfDigits_cut`: ten characters of it are enough from year 1 to year 9999;
* before, they are read as a day that is later than all of those
  (`firstDay_le_dayOfDigits`); after, as a day nine or more days too early, or not
  at all (`dayOfDigits_cut_late`).

Days compared as texts.

Numerals of one length are in the order of their values, so from year 1 to year
9999 the texts of days are in the order of the days (`dateText_lt_iff`), and each
of them is read back (`dayOfDigits_dateText`).
-/
import CErp.Decimals
import CErp.TimeBuckets

namespace Calendar

open Decimals

/-! ### Writing -/

/-- The digits of a number, with zeros before them up to a width. -/
def padded (w n : ℕ) : List Char := (Nat.toDigits 10 n).leftpad w '0'

/-- The year and the month of a day as they are written. -/
def writtenYear (d : ℤ) : ℤ := yearOf (monthOf d)

def writtenMonth (d : ℤ) : ℤ := monthInYear (monthOf d)

/-- The number of a year in its era. -/
def yearInEra (y : ℤ) : ℕ := (if 1 ≤ y then y else 1 - y).toNat

/-- A day as year, month and day. -/
def dateText (d : ℤ) : List Char :=
  padded 4 (yearInEra (writtenYear d)) ++ '-' ::
    (padded 2 (writtenMonth d).toNat ++ '-' :: padded 2 (dayOfMonth d).toNat)

/-- The midnight a day begins with; `zone` is what a time zone adds. -/
def midnightText (zone : ℤ → List Char) (d : ℤ) : List Char :=
  dateText d ++ (" 00:00:00".toList ++ zone d ++
    if 1 ≤ writtenYear d then [] else " BC".toList)

/-! ### Reading -/

/-- The day of a date, if there is one. -/
def checkDate (year month day : ℕ) : Option ℤ :=
  let o : ℤ := 12 * year + month - 3
  if 1 ≤ year ∧ 1 ≤ month ∧ month ≤ 12 ∧ 1 ≤ day ∧ monthStart o + (day - 1) < monthStart (o + 1) then
    some (ofDate year month day)
  else none

/-- What follows the first dash. -/
def afterDash (cs : List Char) : List Char := (cs.dropWhile (· ≠ '-')).drop 1

/-- A part of a date is a numeral. -/
def isNumeral (cs : List Char) : Bool := !cs.isEmpty && cs.all (·.isDigit)

/-- A date as year, month and day, the year of four digits or more. -/
def dayOfDigits (cs : List Char) : Option ℤ :=
  let y := cs.takeWhile (· ≠ '-')
  let m := (afterDash cs).takeWhile (· ≠ '-')
  let d := afterDash (afterDash cs)
  if 4 ≤ y.length ∧ isNumeral y ∧ isNumeral m ∧ isNumeral d then
    checkDate (value y) (value m) (value d)
  else none

/-! ### Numerals -/

lemma allDigits_padded (w n : ℕ) : AllDigits (padded w n) := by
  intro c hc
  rcases List.mem_append.mp hc with h | h
  · rw [List.eq_of_mem_replicate h]
    rfl
  · exact allDigits_toDigits n c h

lemma value_replicate_zero (k : ℕ) : value (List.replicate k '0') = 0 := by
  induction k with
  | zero => rfl
  | succ k ih => rw [List.replicate_succ, value_cons, ih]; simp

lemma value_padded (w n : ℕ) : value (padded w n) = n := by
  unfold padded List.leftpad
  rw [value_append, value_replicate_zero, value_toDigits, Nat.zero_mul, Nat.zero_add]

lemma length_padded (w n : ℕ) : (padded w n).length = max w (Nat.toDigits 10 n).length := by
  unfold padded
  rw [List.length_leftpad]

lemma length_padded_of_lt {w n : ℕ} (hw : 0 < w) (h : n < 10 ^ w) : (padded w n).length = w := by
  rw [length_padded, max_eq_left]
  exact (Nat.length_toDigits_le_iff (by decide) hw).mpr h

lemma lt_length_padded {w n : ℕ} (hw : 0 < w) (h : 10 ^ w ≤ n) : w < (padded w n).length := by
  rw [length_padded, lt_max_iff]
  right
  by_contra hle
  exact absurd ((Nat.length_toDigits_le_iff (by decide) hw).mp (not_lt.mp hle)) (not_lt.mpr h)

lemma isNumeral_iff {cs : List Char} : isNumeral cs = true ↔ cs ≠ [] ∧ AllDigits cs := by
  unfold isNumeral
  rw [Bool.and_eq_true, List.all_eq_true]
  cases cs with
  | nil => simp
  | cons c cs => simp [AllDigits]

lemma dash_not_mem {ds : List Char} (h : AllDigits ds) : '-' ∉ ds := by
  intro hmem
  exact absurd (h '-' hmem) (by decide)

/-! ### The parts of a cut text -/

section Parts

variable {xs rest : List Char}

lemma takeWhile_cut (h : AllDigits xs) (n : ℕ) :
    ((xs ++ '-' :: rest).take n).takeWhile (· ≠ '-') = xs.take n := by
  have hne : ∀ c ∈ xs.take n, decide (c ≠ '-') = true := by
    intro c hc
    apply decide_eq_true
    rintro rfl
    exact dash_not_mem h (List.mem_of_mem_take hc)
  rw [List.take_append, List.takeWhile_append_of_pos hne]
  rcases n - xs.length with - | k
  · rw [List.take_zero, List.takeWhile_nil, List.append_nil]
  · rw [List.take_succ_cons, List.takeWhile_cons_of_neg (by simp), List.append_nil]

lemma afterDash_cut (h : AllDigits xs) (n : ℕ) :
    afterDash ((xs ++ '-' :: rest).take n) = rest.take (n - xs.length - 1) := by
  have hne : ∀ c ∈ xs.take n, decide (c ≠ '-') = true := by
    intro c hc
    apply decide_eq_true
    rintro rfl
    exact dash_not_mem h (List.mem_of_mem_take hc)
  unfold afterDash
  rw [List.take_append, List.dropWhile_append_of_pos hne]
  rcases n - xs.length with - | k
  · rfl
  · rw [List.take_succ_cons, List.dropWhile_cons_of_neg (by simp)]
    rfl

/-- What is read of a date's first characters. -/
lemma dayOfDigits_take {ys ms more : List Char} (hys : AllDigits ys) (hms : AllDigits ms) (n : ℕ) :
    dayOfDigits ((ys ++ '-' :: (ms ++ '-' :: more)).take n) =
      if 4 ≤ (ys.take n).length ∧ isNumeral (ys.take n) ∧ isNumeral (ms.take (n - ys.length - 1)) ∧
          isNumeral (more.take (n - ys.length - 1 - ms.length - 1)) then
        checkDate (value (ys.take n)) (value (ms.take (n - ys.length - 1)))
          (value (more.take (n - ys.length - 1 - ms.length - 1)))
      else none := by
  unfold dayOfDigits
  simp only [takeWhile_cut hys, afterDash_cut hys, takeWhile_cut hms, afterDash_cut hms]

end Parts

/-! ### The parts of a day -/

lemma ofDate_written (d : ℤ) : ofDate (writtenYear d) (writtenMonth d) (dayOfMonth d) = d := by
  have hmonth : 12 * writtenYear d + writtenMonth d - 3 = monthOf d := by
    unfold writtenYear writtenMonth yearOf monthInYear
    omega
  unfold ofDate
  rw [hmonth]
  unfold dayOfMonth
  omega

lemma writtenMonth_bounds (d : ℤ) : 1 ≤ writtenMonth d ∧ writtenMonth d ≤ 12 := by
  unfold writtenMonth monthInYear
  omega

lemma dayOfMonth_le (d : ℤ) : dayOfMonth d ≤ 31 := by
  have hlen := (monthStart_succ (monthOf d)).2
  have hlast := (monthOf_bounds d).2
  unfold dayOfMonth
  omega

lemma writtenYear_mono : Monotone writtenYear := by
  intro d d' h
  have hmonth := monthOf_mono h
  unfold writtenYear yearOf
  omega

/-- The first day of year 1. -/
def firstDay : ℤ := ofDate 1 1 1

variable {d : ℤ}

lemma firstDay_le_iff : firstDay ≤ d ↔ 1 ≤ writtenYear d := by
  have hstart : firstDay = monthStart 10 := by decide
  rw [hstart, ← le_monthOf_iff]
  unfold writtenYear yearOf
  omega

lemma length_month (d : ℤ) : (padded 2 (writtenMonth d).toNat).length = 2 := by
  have hbounds := writtenMonth_bounds d
  exact length_padded_of_lt (by decide) (by omega)

lemma length_day (d : ℤ) : (padded 2 (dayOfMonth d).toNat).length = 2 := by
  have hpos := dayOfMonth_pos d
  have hle := dayOfMonth_le d
  exact length_padded_of_lt (by decide) (by omega)

lemma isNumeral_padded {w : ℕ} (hw : 0 < w) (n : ℕ) : isNumeral (padded w n) = true := by
  refine isNumeral_iff.mpr ⟨?_, allDigits_padded w n⟩
  intro hnil
  have hlen := length_padded w n
  rw [hnil, List.length_nil] at hlen
  omega

/-! ### Reading what was written -/

/-- A checked date is of year 1 or later, and of its month. -/
lemma checkDate_eq_some {year month day : ℕ} {e : ℤ} (h : checkDate year month day = some e) :
    e = ofDate year month day ∧ firstDay ≤ e ∧ 1 ≤ day := by
  unfold checkDate at h
  dsimp only at h
  split at h
  · next hok =>
      cases h
      obtain ⟨hyear, hmonth, -, hday, -⟩ := hok
      refine ⟨rfl, ?_, hday⟩
      have hstart : firstDay = monthStart 10 := by decide
      have hle : monthStart 10 ≤ monthStart (12 * year + month - 3) :=
        monthStart_strictMono.monotone (by omega)
      unfold ofDate
      omega
  · cases h

lemma checkDate_written (h : 1 ≤ writtenYear d) :
    checkDate (writtenYear d).toNat (writtenMonth d).toNat (dayOfMonth d).toNat = some d := by
  have hmonth := writtenMonth_bounds d
  have hday := dayOfMonth_pos d
  have hyear' : ((writtenYear d).toNat : ℤ) = writtenYear d := Int.toNat_of_nonneg (by omega)
  have hmonth' : ((writtenMonth d).toNat : ℤ) = writtenMonth d := Int.toNat_of_nonneg (by omega)
  have hday' : ((dayOfMonth d).toNat : ℤ) = dayOfMonth d := Int.toNat_of_nonneg (by omega)
  have hof : 12 * writtenYear d + writtenMonth d - 3 = monthOf d := by
    unfold writtenYear writtenMonth yearOf monthInYear
    omega
  have hwithin : monthStart (monthOf d) + (dayOfMonth d - 1) < monthStart (monthOf d + 1) := by
    have hlast := (monthOf_bounds d).2
    unfold dayOfMonth
    omega
  unfold checkDate
  simp only [hyear', hmonth', hday', hof, ofDate_written]
  rw [if_pos ⟨by omega, by omega, by omega, by omega, hwithin⟩]

/-- **From year 1 to year 9999 ten characters are read as the day.** -/
theorem dayOfDigits_cut (h : 1 ≤ writtenYear d) (h' : writtenYear d ≤ 9999) (zone : ℤ → List Char) :
    dayOfDigits ((midnightText zone d).take 10) = some d := by
  have hera : yearInEra (writtenYear d) = (writtenYear d).toNat := by
    unfold yearInEra
    rw [if_pos h]
  have hlen : (padded 4 (writtenYear d).toNat).length = 4 :=
    length_padded_of_lt (by decide) (by omega)
  unfold midnightText dateText
  simp only [List.append_assoc, List.cons_append, hera]
  rw [dayOfDigits_take (allDigits_padded _ _) (allDigits_padded _ _), hlen, length_month,
    List.take_of_length_le (by omega : (padded 4 (writtenYear d).toNat).length ≤ 10),
    List.take_of_length_le (by rw [length_month]; omega :
      (padded 2 (writtenMonth d).toNat).length ≤ 10 - 4 - 1),
    List.take_append_of_le_length (by rw [length_day]),
    List.take_of_length_le (by rw [length_day]), hlen]
  rw [if_pos ⟨le_rfl, isNumeral_padded (by decide) _, isNumeral_padded (by decide) _,
    isNumeral_padded (by decide) _⟩, value_padded, value_padded, value_padded]
  exact checkDate_written h

/-- Whatever is read as a day is of year 1 or later. -/
lemma firstDay_le_dayOfDigits {cs : List Char} {e : ℤ} (h : dayOfDigits cs = some e) : firstDay ≤ e := by
  unfold dayOfDigits at h
  dsimp only at h
  split at h
  · exact (checkDate_eq_some h).2.1
  · cases h

variable {zone : ℤ → List Char}

/-- After year 9999 the last digits of the day are lost. -/
lemma dayOfDigits_cut_late {e : ℤ} (h : 9999 < writtenYear d)
    (he : dayOfDigits ((midnightText zone d).take 10) = some e) :
    10 ≤ dayOfMonth d ∧ e + 9 ≤ d := by
  have hfirst : 1 ≤ writtenYear d := by omega
  have hera : yearInEra (writtenYear d) = (writtenYear d).toNat := by
    unfold yearInEra
    rw [if_pos hfirst]
  have hlen : 4 < (padded 4 (writtenYear d).toNat).length :=
    lt_length_padded (by decide) (by omega)
  obtain ⟨c, c', hc⟩ : ∃ c c', padded 2 (dayOfMonth d).toNat = [c, c'] :=
    List.length_eq_two.mp (length_day d)
  unfold midnightText dateText at he
  simp only [List.append_assoc, List.cons_append, hera, if_pos hfirst] at he
  rw [dayOfDigits_take (allDigits_padded _ _) (allDigits_padded _ _), length_month, hc] at he
  split at he
  · next hok =>
      obtain ⟨-, -, -, hlast⟩ := hok
      obtain hfive | hlong : (padded 4 (writtenYear d).toNat).length = 5 ∨
          6 ≤ (padded 4 (writtenYear d).toNat).length := by omega
      · -- five digits of the year leave one for the day
        rw [hfive, List.take_of_length_le (by omega : (padded 4 (writtenYear d).toNat).length ≤ 10),
          List.take_of_length_le (by rw [length_month]; omega :
            (padded 2 (writtenMonth d).toNat).length ≤ 10 - 5 - 1), value_padded, value_padded] at he
        have hread : checkDate (writtenYear d).toNat (writtenMonth d).toNat (value [c]) = some e := he
        obtain ⟨rfl, -, hdigit⟩ := checkDate_eq_some hread
        have hday : value [c] * 10 + value [c'] = (dayOfMonth d).toNat := by
          rw [← value_padded 2 (dayOfMonth d).toNat, hc]
          exact (value_append [c] [c']).symm
        have hpos := dayOfMonth_pos d
        have hmonth := writtenMonth_bounds d
        have hsame := ofDate_written d
        rw [Int.toNat_of_nonneg (by omega), Int.toNat_of_nonneg (by omega)]
        unfold ofDate at hsame ⊢
        omega
      · -- six leave none
        have hnone : 10 - (padded 4 (writtenYear d).toNat).length - 1 - 2 - 1 = 0 := by omega
        rw [hnone, List.take_zero] at hlast
        cases hlast
  · cases he

/-! ### Telling days apart -/

lemma split_dash {xs xs' rest rest' : List Char} (h : AllDigits xs) (h' : AllDigits xs')
    (heq : xs ++ '-' :: rest = xs' ++ '-' :: rest') : xs = xs' ∧ rest = rest' := by
  induction xs generalizing xs' with
  | nil =>
      cases xs' with
      | nil => exact ⟨rfl, (List.cons.inj heq).2⟩
      | cons c xs' =>
          have hc : '-' = c := (List.cons.inj heq).1
          exact absurd (hc ▸ List.mem_cons_self) (dash_not_mem h')
  | cons c xs ih =>
      cases xs' with
      | nil =>
          have hc : c = '-' := (List.cons.inj heq).1
          exact absurd (hc ▸ List.mem_cons_self) (dash_not_mem h)
      | cons c' xs' =>
          obtain ⟨hc, hrest⟩ := List.cons.inj heq
          obtain ⟨hxs, hrest⟩ := ih (fun x hx => h x (List.mem_cons_of_mem _ hx))
            (fun x hx => h' x (List.mem_cons_of_mem _ hx)) hrest
          exact ⟨by rw [hc, hxs], hrest⟩

/-- The era is what follows the midnight. -/
lemma era_mem_iff (hzone : ∀ d, 'B' ∉ zone d) (d : ℤ) :
    'B' ∈ " 00:00:00".toList ++ zone d ++ (if 1 ≤ writtenYear d then [] else " BC".toList) ↔
      writtenYear d < 1 := by
  have hclock : 'B' ∉ " 00:00:00".toList := by decide
  by_cases hera : 1 ≤ writtenYear d
  · rw [if_pos hera]
    simp only [List.append_nil, List.mem_append]
    exact iff_of_false (not_or.mpr ⟨hclock, hzone d⟩) (not_lt.mpr hera)
  · rw [if_neg hera]
    exact iff_of_true (List.mem_append_right _ (by decide)) (not_le.mp hera)

/-- **The whole text tells days apart.** -/
theorem midnightText_injective (hzone : ∀ d, 'B' ∉ zone d) {d' : ℤ}
    (h : midnightText zone d = midnightText zone d') : d = d' := by
  unfold midnightText dateText at h
  simp only [List.append_assoc, List.cons_append] at h
  obtain ⟨hyears, h⟩ := split_dash (allDigits_padded _ _) (allDigits_padded _ _) h
  obtain ⟨hmonths, h⟩ := split_dash (allDigits_padded _ _) (allDigits_padded _ _) h
  obtain ⟨hdays, htail⟩ := List.append_inj h ((length_day d).trans (length_day d').symm)
  have hyear : yearInEra (writtenYear d) = yearInEra (writtenYear d') := by
    rw [← value_padded 4 (yearInEra (writtenYear d)), hyears, value_padded]
  have hmonth : (writtenMonth d).toNat = (writtenMonth d').toNat := by
    rw [← value_padded 2 (writtenMonth d).toNat, hmonths, value_padded]
  have hday : (dayOfMonth d).toNat = (dayOfMonth d').toNat := by
    rw [← value_padded 2 (dayOfMonth d).toNat, hdays, value_padded]
  have hera : writtenYear d < 1 ↔ writtenYear d' < 1 := by
    rw [← era_mem_iff hzone d, ← era_mem_iff hzone d', List.append_assoc, htail, List.append_assoc]
  have hmonth_pos := writtenMonth_bounds d
  have hmonth_pos' := writtenMonth_bounds d'
  have hday_pos := dayOfMonth_pos d
  have hday_pos' := dayOfMonth_pos d'
  have hyear : writtenYear d = writtenYear d' := by
    unfold yearInEra at hyear
    split at hyear <;> split at hyear <;> omega
  have hmonth : writtenMonth d = writtenMonth d' := by omega
  have hday : dayOfMonth d = dayOfMonth d' := by omega
  rw [← ofDate_written d, ← ofDate_written d', hyear, hmonth, hday]

/-- A day's text begins with a digit. -/
lemma midnightText_head (zone : ℤ → List Char) (d : ℤ) :
    ∃ c cs, midnightText zone d = c :: cs ∧ c.isDigit = true := by
  have hdigits := allDigits_padded 4 (yearInEra (writtenYear d))
  have hlen := length_padded 4 (yearInEra (writtenYear d))
  unfold midnightText dateText
  generalize padded 4 (yearInEra (writtenYear d)) = ys at hdigits hlen ⊢
  rcases ys with - | ⟨c, cs⟩
  · rw [List.length_nil] at hlen
    omega
  · exact ⟨c, _, rfl, hdigits c List.mem_cons_self⟩

end Calendar

namespace Calendar

open Decimals

/-! ### Numerals -/

lemma lt_of_toNat_lt {c d : Char} (h : c.toNat < d.toNat) : c < d := h

lemma append_lt_append {as bs : List Char} (hlen : as.length = bs.length) (h : as < bs)
    (xs ys : List Char) : as ++ xs < bs ++ ys := by
  induction as generalizing bs with
  | nil =>
      rw [List.eq_nil_of_length_eq_zero hlen.symm] at h
      exact absurd h (List.lt_irrefl _)
  | cons a as ih =>
      cases bs with
      | nil => cases hlen
      | cons b bs =>
          rw [List.cons_append, List.cons_append, List.cons_lt_cons_iff]
          rcases List.cons_lt_cons_iff.mp h with hab | ⟨rfl, hrest⟩
          · exact .inl hab
          · exact .inr ⟨rfl, ih (Nat.succ.inj hlen) hrest⟩

lemma lt_of_value_lt {ds es : List Char} (hds : AllDigits ds) (hes : AllDigits es)
    (hlen : ds.length = es.length) (h : value ds < value es) : ds < es := by
  induction ds generalizing es with
  | nil =>
      rw [List.eq_nil_of_length_eq_zero hlen.symm] at h
      exact absurd h (Nat.lt_irrefl _)
  | cons c ds ih =>
      cases es with
      | nil => cases hlen
      | cons d es =>
          have hrest : ds.length = es.length := Nat.succ.inj hlen
          have hds' : AllDigits ds := fun x hx => hds x (List.mem_cons_of_mem c hx)
          have hes' : AllDigits es := fun x hx => hes x (List.mem_cons_of_mem d hx)
          have hc := digit_bounds (hds c List.mem_cons_self)
          have hd := digit_bounds (hes d List.mem_cons_self)
          rw [value_cons, value_cons, hrest] at h
          rw [List.cons_lt_cons_iff]
          rcases Nat.lt_trichotomy c.toNat d.toNat with hlt | heq | hgt
          · exact .inl (lt_of_toNat_lt hlt)
          · have hcd : c = d := Char.toNat_inj.mp heq
            subst hcd
            exact .inr ⟨rfl, ih hds' hes' hrest (Nat.lt_of_add_lt_add_left h)⟩
          · -- a greater digit in front outweighs all behind it
            have hless := value_lt hes'
            have hstep : (d.toNat - 48) + 1 ≤ c.toNat - 48 := by omega
            have hmul := Nat.mul_le_mul_right (10 ^ es.length) hstep
            rw [Nat.succ_mul] at hmul
            omega

lemma padded_lt {w a b : ℕ} (hw : 0 < w) (h : a < b) (hb : b < 10 ^ w) :
    padded w a < padded w b := by
  apply lt_of_value_lt (allDigits_padded w a) (allDigits_padded w b)
  · rw [length_padded_of_lt hw hb, length_padded_of_lt hw (h.trans hb)]
  · rw [value_padded, value_padded]
    exact h

/-! ### Days -/

/-- A day whose year has four digits. -/
def FourDigits (d : ℤ) : Prop := 1 ≤ writtenYear d ∧ writtenYear d ≤ 9999

instance (d : ℤ) : Decidable (FourDigits d) := inferInstanceAs (Decidable (_ ∧ _))

variable {d e : ℤ}

lemma yearInEra_eq (h : 1 ≤ writtenYear d) :
    yearInEra (writtenYear d) = (writtenYear d).toNat := by
  unfold yearInEra
  rw [if_pos h]

lemma FourDigits.length_year (h : FourDigits d) :
    (padded 4 (yearInEra (writtenYear d))).length = 4 := by
  rw [yearInEra_eq h.1]
  have hlast := h.2
  exact length_padded_of_lt (by decide) (by omega)

lemma FourDigits.length_dateText (h : FourDigits d) : (dateText d).length = 10 := by
  unfold dateText
  rw [List.length_append, h.length_year, List.length_cons, List.length_append, length_month,
    List.length_cons, length_day]

/-- A later day has the later text. -/
lemma dateText_lt (hd : FourDigits d) (he : FourDigits e) (h : d < e) :
    dateText d < dateText e := by
  have hyears := writtenYear_mono h.le
  have hfirst := hd.1
  have hlast := he.2
  have hlen := hd.length_year.trans he.length_year.symm
  unfold dateText
  rcases Int.lt_or_eq_of_le hyears with hyear | hyear
  · apply append_lt_append hlen
    rw [yearInEra_eq hd.1, yearInEra_eq he.1]
    exact padded_lt (by decide) (by omega) (by omega)
  · rw [hyear]
    apply List.append_left_lt
    rw [List.cons_lt_cons_iff]
    refine .inr ⟨rfl, ?_⟩
    have hmonths : monthOf d ≤ monthOf e := monthOf_mono h.le
    have hbounds := writtenMonth_bounds d
    have hbounds' := writtenMonth_bounds e
    have hwritten : writtenMonth d ≤ writtenMonth e := by
      unfold writtenYear yearOf at hyear
      unfold writtenMonth monthInYear
      omega
    rcases Int.lt_or_eq_of_le hwritten with hmonth | hmonth
    · apply append_lt_append ((length_month d).trans (length_month e).symm)
      exact padded_lt (by decide) (by omega) (by omega)
    · rw [hmonth]
      apply List.append_left_lt
      rw [List.cons_lt_cons_iff]
      refine .inr ⟨rfl, ?_⟩
      have hsame : monthOf d = monthOf e := by
        unfold writtenYear yearOf at hyear
        unfold writtenMonth monthInYear at hmonth
        omega
      have hpos := dayOfMonth_pos d
      have hle := dayOfMonth_le e
      have hday : dayOfMonth d < dayOfMonth e := by
        unfold dayOfMonth
        rw [hsame]
        omega
      exact padded_lt (by decide) (by omega) (by omega)

/-- **Days are in the order of their texts** from year 1 to year 9999. -/
theorem dateText_lt_iff (hd : FourDigits d) (he : FourDigits e) :
    dateText d < dateText e ↔ d < e := by
  refine ⟨fun h => ?_, dateText_lt hd he⟩
  by_contra hle
  rcases Int.lt_or_eq_of_le (Int.not_lt.mp hle) with hlt | rfl
  · exact absurd h (List.lt_asymm (dateText_lt he hd hlt))
  · exact absurd h (List.lt_irrefl _)

lemma dateText_ne_nil (d : ℤ) : dateText d ≠ [] :=
  List.append_ne_nil_of_right_ne_nil _ (List.cons_ne_nil _ _)

/-- **The text of a day is read as the day.** -/
theorem dayOfDigits_dateText (h : FourDigits d) : dayOfDigits (dateText d) = some d := by
  have hcut := dayOfDigits_cut h.1 h.2 fun _ => []
  unfold midnightText at hcut
  rw [List.take_append_of_le_length h.length_dateText.ge,
    List.take_of_length_le h.length_dateText.le] at hcut
  exact hcut

end Calendar
