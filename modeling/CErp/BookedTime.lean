/-
Attendance never books a moment twice, and its hours are those of its interval.

A check-in keeps this as long as no closed attendance of the employee ends in the
future, a check-out always.  A generic create takes any interval and leaves its hours
at 0; a generic write takes any interval too, and its hours stay right when the
transaction after it gets through.  `Keeps` is the condition on a call that leaves out
just these, and along runs of such calls time is booked once (`booked_once`).
-/
import CErp.HrAttendance
import Mathlib

namespace CErp

open HrDb Outcome Table Option Runs HrKiosk

namespace Attendance

lemma overlaps_comm (a b : Attendance) : a.overlaps b = b.overlaps a := Bool.and_comm _ _

/-- **Rows that do not overlap book no moment twice.** -/
theorem disjoint_of_not_overlaps {a b : Attendance} (h : a.overlaps b = false) :
    Disjoint a.moments b.moments := by
  rw [Set.disjoint_left]
  rintro x ⟨hax, hxa⟩ ⟨hbx, hxb⟩
  have hover : a.overlaps b = true := by
    unfold overlaps
    rw [Bool.and_eq_true, all_eq_true, all_eq_true]
    constructor
    · intro o ho
      exact decide_eq_true (hax.trans_lt (hxb o ho))
    · intro o ho
      exact decide_eq_true (hbx.trans_lt (hxa o ho))
  rw [hover] at h
  cases h

/-- A row overlaps no more when it begins the same and ends no later. -/
lemma not_overlaps_of_shorter {a a' b : Attendance} (hin : a'.checkIn = a.checkIn)
    (hout : ∀ o ∈ a.checkOut, ∃ o' ∈ a'.checkOut, o' ≤ o) (h : a.overlaps b = false) :
    a'.overlaps b = false := by
  by_contra hover
  rw [Bool.not_eq_false] at hover
  unfold overlaps at h hover
  rw [Bool.and_eq_true, all_eq_true, all_eq_true, hin] at hover
  obtain ⟨hb, ha⟩ := hover
  have hall : (a.checkOut.all fun o => decide (b.checkIn < o)) = true := by
    rw [all_eq_true]
    intro o ho
    obtain ⟨o', ho', hle⟩ := hout o ho
    exact decide_eq_true ((of_decide_eq_true (ha o' ho')).trans_le hle)
  have hback : (b.checkOut.all fun o => decide (a.checkIn < o)) = true := by
    rw [all_eq_true]
    exact hb
  rw [hall, hback] at h
  cases h

end Attendance

/-! ### Tables of attendance -/

/-- Rows of an employee do not overlap. -/
def Apart (t : Table Attendance) : Prop :=
  ∀ r ∈ t.rows, ∀ s ∈ t.rows, r.1 ≠ s.1 → r.2.employeeId = s.2.employeeId → r.2.overlaps s.2 = false

/-- The hours of every row are those of its interval. -/
def Timed (t : Table Attendance) : Prop := ∀ r ∈ t.rows, r.2.workedHours = r.2.hours

instance (t : Table Attendance) : Decidable (Apart t) :=
  inferInstanceAs (Decidable (∀ r ∈ t.rows, ∀ s ∈ t.rows, _ → _ → _))

instance (t : Table Attendance) : Decidable (Timed t) :=
  inferInstanceAs (Decidable (∀ r ∈ t.rows, _))

/-- A row overlaps none of its employee's. -/
def Fits (t : Table Attendance) (a : Attendance) : Prop :=
  ∀ r ∈ t.rows, r.2.employeeId = a.employeeId → r.2.overlaps a = false

instance (t : Table Attendance) (a : Attendance) : Decidable (Fits t a) :=
  inferInstanceAs (Decidable (∀ r ∈ t.rows, _ → _))

variable {t : Table Attendance} {a : Attendance}

lemma Apart.insert (h : Apart t) (hfits : Fits t a) : Apart (t.insert a) := by
  intro r hr s hs hne hemployee
  rcases mem_insert_iff.mp hr with hr | rfl
  · rcases mem_insert_iff.mp hs with hs | rfl
    · exact h r hr s hs hne hemployee
    · exact hfits r hr hemployee
  · rcases mem_insert_iff.mp hs with hs | rfl
    · rw [Attendance.overlaps_comm]
      exact hfits s hs hemployee.symm
    · exact absurd rfl hne

lemma Timed.insert (h : Timed t) (ha : a.workedHours = a.hours) : Timed (t.insert a) := by
  intro r hr
  rcases mem_insert_iff.mp hr with hr | rfl
  · exact h r hr
  · exact ha

/-- A change of rows that moves none to another employee and makes none longer. -/
lemma Apart.update {f : ℤ → Attendance → Attendance} (h : Apart t)
    (hemployee : ∀ r ∈ t.rows, (f r.1 r.2).employeeId = r.2.employeeId)
    (hin : ∀ r ∈ t.rows, (f r.1 r.2).checkIn = r.2.checkIn)
    (hout : ∀ r ∈ t.rows, ∀ o ∈ r.2.checkOut, ∃ o' ∈ (f r.1 r.2).checkOut, o' ≤ o) :
    Apart (t.update f) := by
  rintro ⟨i, a'⟩ hr ⟨j, b'⟩ hs hne hsame
  obtain ⟨a, ha, (rfl : f i a = a')⟩ := mem_update_iff.mp hr
  obtain ⟨b, hb, (rfl : f j b = b')⟩ := mem_update_iff.mp hs
  have hab : a.employeeId = b.employeeId :=
    (hemployee _ ha).symm.trans (hsame.trans (hemployee _ hb))
  -- first the one row is made shorter, then the other
  have hfirst : (f i a).overlaps b = false :=
    Attendance.not_overlaps_of_shorter (hin _ ha) (hout _ ha) (h _ ha _ hb hne hab)
  show (f i a).overlaps (f j b) = false
  rw [Attendance.overlaps_comm] at hfirst ⊢
  exact Attendance.not_overlaps_of_shorter (hin _ hb) (hout _ hb) hfirst

/-- Time is booked once, and hours are right. -/
structure BookedOnce (t : Table Attendance) : Prop where
  oneOpen : ∀ r ∈ t.rows, ∀ s ∈ t.rows, r.2.checkOut = none → s.2.checkOut = none →
    r.2.employeeId = s.2.employeeId → r.1 = s.1
  disjoint : ∀ r ∈ t.rows, ∀ s ∈ t.rows, r.1 ≠ s.1 → r.2.employeeId = s.2.employeeId →
    Disjoint r.2.moments s.2.moments
  hours : ∀ r ∈ t.rows, r.2.workedHours = r.2.hours

/-! ### Calls -/

lemma newRow_workedHours {v : AttendanceValues} (h : v.newRow = .ok a) : a.workedHours = 0 := by
  obtain ⟨-, -, h⟩ := bind_ok_iff.mp h
  split at h
  · cases h
  · cases h
    rfl

/-! ### The rows of a write -/

/-- The version of a row a write leaves. -/
def version (access : AttendanceAccess) (v : AttendanceValues) (ids : List ℤ) (r : ℤ × Attendance) :
    Attendance :=
  if ids.contains r.1 && access.writable r.2 then v.assign r.2 else r.2

/-- No row that is written comes to overlap another of its employee's. -/
def WriteFits (t : Table Attendance) (access : AttendanceAccess) (v : AttendanceValues)
    (ids : List ℤ) : Prop :=
  ∀ r ∈ t.rows, (ids.contains r.1 && access.writable r.2) = true → ∀ s ∈ t.rows, r.1 ≠ s.1 →
      (v.assign r.2).employeeId = (version access v ids s).employeeId →
      (v.assign r.2).overlaps (version access v ids s) = false

instance (t : Table Attendance) (access : AttendanceAccess) (v : AttendanceValues)
    (ids : List ℤ) : Decidable (WriteFits t access v ids) :=
  inferInstanceAs (Decidable (∀ r ∈ t.rows, _ → ∀ s ∈ t.rows, _ → _ → _))

/-- The rows that are written get the hours of their intervals. -/
def WriteTimes (t : Table Attendance) (access : AttendanceAccess) (v : AttendanceValues)
    (ids : List ℤ) : Prop :=
  ∀ r ∈ t.rows, (ids.contains r.1 && access.writable r.2) = true →
    (v.assign r.2).workedHours = (v.assign r.2).hours

instance (t : Table Attendance) (access : AttendanceAccess) (v : AttendanceValues)
    (ids : List ℤ) : Decidable (WriteTimes t access v ids) :=
  inferInstanceAs (Decidable (∀ r ∈ t.rows, _ → _))

/-- The hours of the rows a write names fit their column. -/
def HoursFit (t : Table Attendance) (access : AttendanceAccess) (v : AttendanceValues)
    (ids : List ℤ) : Prop :=
  ∀ r ∈ t.rows, ids.contains r.1 = true → |(version access v ids r).hours| < 10 ^ 8

instance (t : Table Attendance) (access : AttendanceAccess) (v : AttendanceValues)
    (ids : List ℤ) : Decidable (HoursFit t access v ids) :=
  inferInstanceAs (Decidable (∀ r ∈ t.rows, _ → _))

section Write

variable {access : AttendanceAccess} {v : AttendanceValues} {ids : List ℤ}

lemma mem_written {s : ℤ × Attendance} (h : s ∈ (written t access v ids).rows) :
    ∃ r ∈ t.rows, s = (r.1, version access v ids r) := by
  obtain ⟨a, ha, hs⟩ := mem_update_iff.mp h
  exact ⟨(s.1, a), ha, Prod.ext rfl hs.symm⟩

lemma Apart.written (h : Apart t) (hfits : WriteFits t access v ids) :
    Apart (HrDb.written t access v ids) := by
  intro r' hr' s' hs' hne hemployee
  obtain ⟨r, hr, rfl⟩ := mem_written hr'
  obtain ⟨s, hs, rfl⟩ := mem_written hs'
  dsimp only at hne hemployee ⊢
  by_cases hitr : (ids.contains r.1 && access.writable r.2) = true
  · have hversion : version access v ids r = v.assign r.2 := if_pos hitr
    rw [hversion] at hemployee ⊢
    exact hfits r hr hitr s hs hne hemployee
  · have hversionr : version access v ids r = r.2 := if_neg hitr
    by_cases hits : (ids.contains s.1 && access.writable s.2) = true
    · have hversion : version access v ids s = v.assign s.2 := if_pos hits
      rw [hversion] at hemployee ⊢
      rw [Attendance.overlaps_comm]
      exact hfits s hs hits r hr hne.symm hemployee.symm
    · have hversions : version access v ids s = s.2 := if_neg hits
      rw [hversionr, hversions] at hemployee ⊢
      exact h r hr s hs hne hemployee

lemma Timed.written (h : Timed t) (htimes : WriteTimes t access v ids) :
    Timed (HrDb.written t access v ids) := by
  intro r' hr'
  obtain ⟨r, hr, rfl⟩ := mem_written hr'
  unfold version
  split
  · next hit => exact htimes r hr hit
  · exact h r hr

lemma Apart.derived (h : Apart t) : Apart (HrDb.derived t ids) := by
  apply h.update
  · intro r _
    split
    · rfl
    · rfl
  · intro r _
    split
    · rfl
    · rfl
  · intro r _ o ho
    refine ⟨o, ?_, le_rfl⟩
    split
    · exact ho
    · exact ho

/-- Whatever the hours of the written rows were, those of the named rows are derived. -/
lemma Timed.derived (h : Timed t) : Timed (HrDb.derived (HrDb.written t access v ids) ids) := by
  rintro ⟨i, b'⟩ hr
  obtain ⟨b, hb, (rfl : (if ids.contains i then { b with workedHours := b.hours } else b) = b')⟩ :=
    mem_update_iff.mp hr
  obtain ⟨⟨j, c⟩, hc, heq⟩ := mem_written hb
  obtain ⟨(rfl : i = j), (rfl : b = version access v ids (i, c))⟩ := Prod.mk.inj heq
  split
  · rfl
  · next hnot =>
      have hversion : version access v ids (i, c) = c := by
        apply if_neg
        rw [Bool.and_eq_true]
        exact fun hit => hnot hit.1
      rw [hversion]
      exact h _ hc

/-- Hours that fit are all a derivation needs. -/
lemma Constraints.derived {employees : List HrEmployee}
    (h : Constraints employees (HrDb.written t access v ids)) (hfit : HoursFit t access v ids) :
    Constraints employees (HrDb.derived (HrDb.written t access v ids) ids) := by
  have hrow : ∀ r ∈ (HrDb.derived (HrDb.written t access v ids) ids).rows,
      ∃ s ∈ (HrDb.written t access v ids).rows, r.1 = s.1 ∧
        (r.2.employeeId = s.2.employeeId ∧ r.2.checkIn = s.2.checkIn ∧
          r.2.checkOut = s.2.checkOut) ∧
        (ids.contains s.1 = true ∧ r.2.workedHours = s.2.hours ∨ r.2 = s.2) := by
    intro r hr
    obtain ⟨b, hb, hr'⟩ := mem_update_iff.mp hr
    refine ⟨(r.1, b), hb, rfl, ?_⟩
    rw [← hr']
    split
    · next hnamed => exact ⟨⟨rfl, rfl, rfl⟩, .inl ⟨hnamed, rfl⟩⟩
    · exact ⟨⟨rfl, rfl, rfl⟩, .inr rfl⟩
  constructor
  · intro r hr
    obtain ⟨s, hs, -, ⟨hemployee, -, -⟩, -⟩ := hrow r hr
    rw [hemployee]
    exact h.employee_id_fkey s hs
  · intro r hr
    obtain ⟨s, hs, -, ⟨-, hin, hout⟩, -⟩ := hrow r hr
    rw [hin, hout]
    exact h.interval_chk s hs
  · intro r hr
    obtain ⟨s, hs, -, -, ⟨hnamed, hhours⟩ | hsame⟩ := hrow r hr
    · rw [hhours]
      obtain ⟨c, hc, rfl⟩ := mem_written hs
      exact hfit c hc hnamed
    · rw [hsame]
      exact h.worked_hours_fit s hs
  · intro r hr r' hr' hopen hopen' hsame
    obtain ⟨s, hs, hid, ⟨hemployee, -, hout⟩, -⟩ := hrow r hr
    obtain ⟨s', hs', hid', ⟨hemployee', -, hout'⟩, -⟩ := hrow r' hr'
    rw [Attendance.isOpen, hout] at hopen
    rw [Attendance.isOpen, hout'] at hopen'
    rw [hid, hid']
    exact h.one_open_uniq s hs s' hs' hopen hopen'
      (hemployee.symm.trans (hsame.trans hemployee'))

end Write

namespace HrDb

variable {db db' : HrDb}

lemma commit_ok {t' : Table Attendance} (h : db.commit t' = .ok db') :
    db'.attendance = t' ∧ db'.employees = db.employees := by
  unfold commit at h
  split at h
  · cases h
    exact ⟨rfl, rfl⟩
  · cases h

/-- No attendance of the employee ends in the future. -/
def NoneAhead (db : HrDb) (now employeeId : ℤ) : Prop :=
  ∀ r ∈ db.attendance.rows, r.2.employeeId = employeeId → ∀ o ∈ r.2.checkOut, o ≤ now

instance (db : HrDb) (now employeeId : ℤ) : Decidable (NoneAhead db now employeeId) :=
  inferInstanceAs (Decidable (∀ r ∈ db.attendance.rows, _ → ∀ o ∈ r.2.checkOut, _))

/-- A check-in of an employee without an open row has nothing ahead. -/
def OpensClear (db : HrDb) (now employeeId : ℤ) : Prop :=
  db.openIdFor employeeId = none → NoneAhead db now employeeId

instance (db : HrDb) (now employeeId : ℤ) : Decidable (OpensClear db now employeeId) :=
  inferInstanceAs (Decidable (_ → _))

/-- The tables on which the invariant is kept. -/
structure Sound (db : HrDb) : Prop where
  apart : Apart db.attendance
  timed : Timed db.attendance

variable {employeeId : ℤ}

lemma openIdFor_none (h : db.openIdFor employeeId = none) :
    ∀ r ∈ db.attendance.rows, r.2.employeeId = employeeId → r.2.isOpen = false := by
  intro r hr hemployee
  have hnot := List.find?_eq_none.mp h r hr
  rw [hemployee, beq_self_eq_true, Bool.true_and] at hnot
  exact Bool.eq_false_of_not_eq_true hnot

lemma openIdFor_some {id : ℤ} {a : Attendance} (h : db.openIdFor employeeId = some (id, a)) :
    db.attendance.get? id = some a ∧ a.employeeId = employeeId ∧ a.checkOut = none := by
  have hfound := List.find?_some h
  rw [Bool.and_eq_true, beq_iff_eq] at hfound
  exact ⟨get?_eq_some_iff.mpr (List.mem_of_find?_eq_some h), hfound.1,
    isNone_iff_eq_none.mp hfound.2⟩

variable {now : ℤ}

lemma openAttendance_sound (h : db.Sound) (hopen : db.openIdFor employeeId = none)
    (hclear : NoneAhead db now employeeId) (hok : db.openAttendance now employeeId = .ok db') :
    db'.Sound := by
  unfold openAttendance at hok
  split at hok
  · cases hok
    exact h
  · obtain ⟨ht, -⟩ := commit_ok hok
    constructor
    · rw [ht]
      apply h.apart.insert
      intro r hr hemployee
      -- every row of the employee has ended
      have hended := openIdFor_none hopen r hr hemployee
      obtain ⟨o, ho⟩ : ∃ o, r.2.checkOut = some o := by
        rw [Attendance.isOpen, isNone_eq_false_iff, isSome_iff_exists] at hended
        exact hended
      have hle : o ≤ now := hclear r hr hemployee o ho
      unfold Attendance.overlaps
      rw [ho]
      show (true && decide (now < o)) = false
      rw [Bool.true_and, decide_eq_false_iff_not]
      exact not_lt.mpr hle
    · rw [ht]
      exact h.timed.insert rfl

lemma closeAttendance_sound {id : ℤ} {a : Attendance} (h : db.Sound)
    (ha : db.attendance.get? id = some a) (hopen : a.checkOut = none)
    (hok : db.closeAttendance now id = .ok db') : db'.Sound := by
  obtain ⟨ht, -⟩ := commit_ok hok
  constructor
  · rw [ht]
    apply h.apart.update
    · intro r _
      split
      · rfl
      · rfl
    · intro r _
      split
      · rfl
      · rfl
    · rintro ⟨i, b⟩ hr o ho
      dsimp only at ho ⊢
      split
      · next hi =>
          -- the row that is closed had no end
          rw [beq_iff_eq] at hi
          subst hi
          rw [eq_of_mem hr (get?_eq_some_iff.mp ha), hopen] at ho
          cases ho
      · exact ⟨o, ho, le_rfl⟩
  · rw [ht]
    rintro ⟨i, b'⟩ hr
    obtain ⟨b, hb, (rfl : (if i == id then closed now b else b) = b')⟩ :=
      mem_update_iff.mp hr
    split
    · rfl
    · exact h.timed _ hb

lemma create_sound {access : AttendanceAccess} {v : AttendanceValues} (h : db.Sound)
    (hfits : ∀ a, v.newRow = .ok a → Constraints db.employees (db.attendance.insert a) →
      Fits db.attendance a ∧ a.hours = 0)
    (hok : db.create access v = .ok db') : db'.Sound := by
  obtain ⟨a, ha, hok⟩ := bind_ok_iff.mp hok
  obtain ⟨-, -, hok⟩ := bind_ok_iff.mp hok
  obtain ⟨ht, hemployees⟩ := commit_ok hok
  have haccepted := db'.constraints
  rw [ht, hemployees] at haccepted
  obtain ⟨hrow, hzero⟩ := hfits a ha haccepted
  constructor
  · rw [ht]
    exact h.apart.insert hrow
  · rw [ht]
    apply h.timed.insert
    rw [hzero]
    exact newRow_workedHours ha

lemma handleWriteAtt_sound {access : AttendanceAccess} {v : AttendanceValues} {ids : List ℤ}
    {connected : Bool} (h : db.Sound)
    (hfits : Constraints db.employees (written db.attendance access v ids) →
      WriteFits db.attendance access v ids ∧
        (connected = true ∧ HoursFit db.attendance access v ids ∨
          WriteTimes db.attendance access v ids)) :
    (db.handleWriteAtt access v ids connected).Sound := by
  unfold handleWriteAtt
  split
  · exact h
  · next db₁ hok =>
      obtain ⟨ht, hemployees⟩ := commit_ok hok
      have haccepted := db₁.constraints
      rw [ht, hemployees] at haccepted
      obtain ⟨hwrite, hours⟩ := hfits haccepted
      have hapart : Apart db₁.attendance := by
        rw [ht]
        exact h.apart.written hwrite
      have htimed : WriteTimes db.attendance access v ids → Timed db₁.attendance := by
        intro htimes
        rw [ht]
        exact h.timed.written htimes
      have hderived : ∀ db₂, db₁.commit (derived db₁.attendance ids) = .ok db₂ → db₂.Sound := by
        intro db₂ hok₂
        obtain ⟨ht₂, -⟩ := commit_ok hok₂
        constructor
        · rw [ht₂]
          exact hapart.derived
        · rw [ht₂, ht]
          exact h.timed.derived
      split
      · split
        · next e hfailed =>
            -- the second transaction is refused only for hours that do not fit
            rcases hours with ⟨-, hfit⟩ | htimes
            · exfalso
              have hpass := haccepted.derived hfit
              rw [← hemployees, ← ht] at hpass
              unfold commit at hfailed
              rw [dif_pos hpass] at hfailed
              cases hfailed
            · exact ⟨hapart, htimed htimes⟩
        · next db₂ hok₂ => exact hderived db₂ hok₂
      · next hnot =>
          rcases hours with ⟨hconnected, -⟩ | htimes
          · exact absurd hconnected hnot
          · exact ⟨hapart, htimed htimes⟩

lemma orSame_sound {r : Except String HrDb} (h : db.Sound)
    (hok : ∀ db', r = .ok db' → db'.Sound) : (db.orSame r).Sound := by
  cases r with
  | error e => exact h
  | ok db' => exact hok db' rfl

/-! ### Runs -/

/-- The condition on a call: it begins nothing that ends later than a closed attendance
of the employee, creates no interval that counts for hours or is taken, and writes none
that is taken or whose hours are not derived. -/
def Keeps (verifyPassword : String → String → Bool) (db : HrDb) (now : ℤ) : Call → Prop
  | .checkIn employeeId => OpensClear db now employeeId
  | .checkOut _ => True
  | .toggle employeeId => OpensClear db now employeeId
  | .punch pin => ∀ e ∈ recognise verifyPassword pin db.employees, OpensClear db now e.id
  | .create _ v => ∀ a ∈ v.newRow.toOption, Constraints db.employees (db.attendance.insert a) →
      Fits db.attendance a ∧ a.hours = 0
  | .write access v ids connected =>
      Constraints db.employees (written db.attendance access v ids) →
        WriteFits db.attendance access v ids ∧
          (connected = true ∧ HoursFit db.attendance access v ids ∨
            WriteTimes db.attendance access v ids)

instance (verifyPassword : String → String → Bool) (db : HrDb) (now : ℤ) (c : Call) :
    Decidable (Keeps verifyPassword db now c) := by
  cases c <;> unfold Keeps <;> infer_instance

variable {verifyPassword : String → String → Bool}

lemma handleCheckIn_sound (h : db.Sound) (hclear : OpensClear db now employeeId)
    (hok : db.handleCheckIn now employeeId = .ok db') : db'.Sound := by
  obtain ⟨-, -, hok⟩ := bind_ok_iff.mp hok
  obtain ⟨⟨⟩, hopen, hok⟩ := bind_ok_iff.mp hok
  have hnone := require_ok_iff.mp hopen
  exact openAttendance_sound h hnone (hclear hnone) hok

lemma handleCheckOut_sound (h : db.Sound) (hok : db.handleCheckOut now employeeId = .ok db') :
    db'.Sound := by
  obtain ⟨-, -, hok⟩ := bind_ok_iff.mp hok
  split at hok
  · cases hok
  · next id a hopen =>
      obtain ⟨-, -, hok⟩ := bind_ok_iff.mp hok
      obtain ⟨ha, -, hnone⟩ := openIdFor_some hopen
      exact closeAttendance_sound h ha hnone hok

lemma punch_sound {pin : String} (h : db.Sound)
    (hclear : ∀ e ∈ recognise verifyPassword pin db.employees, OpensClear db now e.id)
    (hok : db.punch verifyPassword now pin = .ok db') : db'.Sound := by
  unfold punch at hok
  split at hok
  · cases hok
  · next e he =>
      split at hok
      · next hnone => exact openAttendance_sound h hnone (hclear e he hnone) hok
      · next id a hopen =>
          obtain ⟨ha, -, hout⟩ := openIdFor_some hopen
          exact closeAttendance_sound h ha hout hok

/-- **One call.** -/
theorem run_sound {c : Call} (h : db.Sound) (hkeeps : Keeps verifyPassword db now c) :
    (db.run verifyPassword now c).Sound := by
  cases c with
  | checkIn employeeId =>
      exact orSame_sound h fun db' hok => handleCheckIn_sound h hkeeps hok
  | checkOut employeeId =>
      exact orSame_sound h fun db' hok => handleCheckOut_sound h hok
  | toggle employeeId =>
      apply orSame_sound h
      intro db' hok
      obtain ⟨-, -, hok⟩ := bind_ok_iff.mp hok
      split at hok
      · exact handleCheckOut_sound h hok
      · exact handleCheckIn_sound h hkeeps hok
  | punch pin =>
      exact orSame_sound h fun db' hok => punch_sound h hkeeps hok
  | create access v =>
      apply orSame_sound h
      intro db' hok
      refine create_sound h ?_ hok
      intro a ha
      exact hkeeps a (toOption_eq_some_iff.mpr ha)
  | write access v ids connected => exact handleWriteAtt_sound h hkeeps

/-- What is kept is that time is booked once. -/
lemma Sound.bookedOnce (h : db.Sound) : BookedOnce db.attendance where
  oneOpen := by
    intro r hr s hs hopen hopen' hemployee
    exact db.constraints.one_open_uniq r hr s hs (by rw [Attendance.isOpen, hopen]; rfl)
      (by rw [Attendance.isOpen, hopen']; rfl) hemployee
  disjoint := by
    intro r hr s hs hne hemployee
    exact Attendance.disjoint_of_not_overlaps (h.apart r hr s hs hne hemployee)
  hours := h.timed

/-- Nobody has clocked in yet. -/
def noAttendance (employees : List HrEmployee) : HrDb where
  employees := employees
  attendance := .empty
  constraints := by
    constructor
    all_goals
      intro r hr
      cases hr

lemma noAttendance_sound (employees : List HrEmployee) : (noAttendance employees).Sound := by
  constructor
  all_goals
    intro r hr
    cases hr

end HrDb

/-- **Over every run of calls that meet the condition, at increasing moments, time is
booked once and hours are right.** -/
theorem booked_once (verifyPassword : String → String → Bool)
    (employees : List HrEmployee) (clock : ℤ) {s : HrState}
    (hrun : Reaches (hrStep verifyPassword) (fun s c => Keeps verifyPassword s.db c.1 c.2)
      ⟨noAttendance employees, clock⟩ s) :
    BookedOnce s.db.attendance := by
  have hsound : s.db.Sound := by
    refine hrun.invariant (I := fun s => s.db.Sound) ?_ (noAttendance_sound employees)
    intro s c s' hi hok hs
    unfold hrStep at hs
    split at hs
    · cases hs
      exact run_sound hi hok
    · cases hs
  exact hsound.bookedOnce

/-! ### Where the tablet and the generic calls do not look -/

/-- Ann, with the PIN 2468. -/
def ann : HrEmployee := { id := 1, name := "Ann", pinHash := some "2468" }

/-- A moment as microseconds. -/
def atSecond (s : ℤ) : ℤ := s * 1000000

/-- A row of Ann's between two seconds. -/
def annsRow (checkIn checkOut : ℤ) : AttendanceValues where
  employeeId := some 1
  checkIn := some (atSecond checkIn)
  checkOut := some (some (atSecond checkOut))

/-- Eight hours entered on the screen. -/
def hoursEntered : List (ℤ × Call) := [(atSecond 40000, .create {} (annsRow 0 28800))]

/-- An attendance of ten seconds is entered ahead, and Ann clocks in and out around it
on the tablet. -/
def enteredAhead : List (ℤ × Call) :=
  [(atSecond 0, .create {} (annsRow 2000 2010)), (atSecond 1000, .punch "2468"),
    (atSecond 3000, .punch "2468")]

/-- Ann clocks in on the tablet and out on the screen, and her times are corrected. -/
def timesCorrected : List (ℤ × Call) :=
  [(atSecond 1000, .punch "2468"), (atSecond 19000, .checkOut 1),
    (atSecond 20000, .write {} { checkIn := some (atSecond 900), workedHours := some 9900 } [1] true),
    (atSecond 21000, .toggle 1)]

/-- The hours of an attendance that is entered are 0, and the tablet books over one that
was entered ahead. -/
theorem time_booked_twice : (∃ s, execute (hrStep samePin) (fun _ _ => True) hoursEntered
        ⟨noAttendance [ann], -1⟩ = some s ∧ ¬ BookedOnce s.db.attendance) ∧
      ∃ s, execute (hrStep samePin) (fun _ _ => True) enteredAhead
        ⟨noAttendance [ann], -1⟩ = some s ∧ ¬ BookedOnce s.db.attendance := by
  constructor
  · have hrun : ((execute (hrStep samePin) (fun _ _ => True) hoursEntered
        ⟨noAttendance [ann], -1⟩).any fun s => decide (¬ Timed s.db.attendance)) = true := by
      decide
    obtain ⟨s, hs, hnot⟩ := (any_eq_true _ _).mp hrun
    exact ⟨s, hs, fun h => of_decide_eq_true hnot h.hours⟩
  · have hrun : ((execute (hrStep samePin) (fun _ _ => True) enteredAhead
        ⟨noAttendance [ann], -1⟩).any fun s => decide (s.db.attendance.rows =
          [(1, { employeeId := 1, checkIn := atSecond 2000, checkOut := some (atSecond 2010) }),
            (2, { employeeId := 1, checkIn := atSecond 1000, checkOut := some (atSecond 3000),
                  workedHours := 56 })])) = true := by
      decide
    obtain ⟨s, hs, hrows⟩ := (any_eq_true _ _).mp hrun
    refine ⟨s, hs, ?_⟩
    intro h
    have hdisjoint := h.disjoint
    rw [of_decide_eq_true hrows] at hdisjoint
    have hapart := hdisjoint _ (List.mem_cons_self ..) _
      (List.mem_cons_of_mem _ (List.mem_cons_self ..)) (by decide) rfl
    -- the moment the entered attendance begins
    rw [Set.disjoint_left] at hapart
    refine hapart (show atSecond 2000 ∈ _ from ⟨le_rfl, ?_⟩) ⟨by decide, ?_⟩
    · intro o ho
      cases ho
      decide
    · intro o ho
      cases ho
      decide

theorem booked_once_timesCorrected : ∃ s,
    execute (hrStep samePin) (fun s c => Keeps samePin s.db c.1 c.2)
      timesCorrected ⟨noAttendance [ann], 0⟩ = some s ∧ BookedOnce s.db.attendance := by
  have hrun : (execute (hrStep samePin)
      (fun s c => Keeps samePin s.db c.1 c.2) timesCorrected
      ⟨noAttendance [ann], 0⟩).isSome = true := by
    decide
  obtain ⟨s, hs⟩ := isSome_iff_exists.mp hrun
  exact ⟨s, hs, booked_once samePin [ann] 0 (reaches_of_execute hs)⟩

end CErp
