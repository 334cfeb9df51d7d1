/-
Attendance: the clock on the screen, the clock-in tablet and the generic calls.

Times are microseconds, hours are hundredths.  What the table refuses no row of a
database has (`Constraints`), so every statement ends with `commit`.

A check-out on the screen is refused when a closed attendance ends after the open one
began; the tablet closes without a look.  A write of the client is followed by a second
transaction that derives the hours of the rows it names; a create has none, and its
hours are 0.
-/
import CErp.HrKiosk
import CErp.Money
import CErp.Table

namespace CErp

open HrKiosk (HrEmployee recognise)
open Outcome

/-! ### Rows -/

/-- A row of `hr_attendance`. -/
structure Attendance where
  employeeId : ℤ
  checkIn : ℤ
  checkOut : Option ℤ := none
  workedHours : ℤ := 0
  companyId : ℤ := 1
deriving DecidableEq

namespace Attendance

/-- `ROUND((EXTRACT(EPOCH FROM (check_out - check_in))/3600.0)::numeric, 2)`. -/
def hoursBetween (checkIn checkOut : ℤ) : ℤ :=
  Money.divRoundHalfAway ((checkOut - checkIn) * 100) 3600000000

/-- What the hours of a row should be. -/
def hours (a : Attendance) : ℤ :=
  match a.checkOut with
  | none => 0
  | some o => hoursBetween a.checkIn o

/-- The time a row books; an open one has no end. -/
def moments (a : Attendance) : Set ℤ := {x | a.checkIn ≤ x ∧ ∀ o ∈ a.checkOut, x < o}

/-- Neither row ends before the other begins. -/
def overlaps (a b : Attendance) : Bool :=
  (b.checkOut.all fun o => decide (a.checkIn < o)) && a.checkOut.all fun o => decide (b.checkIn < o)

def isOpen (a : Attendance) : Bool := a.checkOut.isNone

end Attendance

/-! ### The database -/

/-- The constraints of `hr_attendance`: the employee exists, the interval is in order,
the hours fit NUMERIC(8,2), and an employee has one open row. -/
structure Constraints (employees : List HrEmployee) (t : Table Attendance) : Prop where
  employee_id_fkey : ∀ r ∈ t.rows, ∃ e ∈ employees, e.id = r.2.employeeId
  interval_chk : ∀ r ∈ t.rows, ∀ o ∈ r.2.checkOut, r.2.checkIn < o
  worked_hours_fit : ∀ r ∈ t.rows, |r.2.workedHours| < 10 ^ 8
  one_open_uniq : ∀ r ∈ t.rows, ∀ s ∈ t.rows, r.2.isOpen = true → s.2.isOpen = true →
    r.2.employeeId = s.2.employeeId → r.1 = s.1

instance (employees : List HrEmployee) (t : Table Attendance) :
    Decidable (Constraints employees t) :=
  decidable_of_iff (_ ∧ _ ∧ _ ∧ _)
    ⟨fun h => ⟨h.1, h.2.1, h.2.2.1, h.2.2.2⟩,
      fun h => ⟨h.employee_id_fkey, h.interval_chk, h.worked_hours_fit, h.one_open_uniq⟩⟩

structure HrDb where
  employees : List HrEmployee
  attendance : Table Attendance
  constraints : Constraints employees attendance

namespace HrDb

/-- The database with other rows, unless it refuses them. -/
def commit (db : HrDb) (t : Table Attendance) : Except String HrDb :=
  if h : Constraints db.employees t then .ok ⟨db.employees, t, h⟩
  else .error "violates a constraint of relation \"hr_attendance\""

/-! ### The clock on the screen -/

def requireEmployee (db : HrDb) (employeeId : ℤ) : Except String Unit := do
  require (0 < employeeId) "An employee is required."
  require (db.employees.any (fun e => e.id == employeeId && e.active) = true)
    "That employee does not exist, or is archived."

/-- The open attendance of an employee, with its identifier. -/
def openIdFor (db : HrDb) (employeeId : ℤ) : Option (ℤ × Attendance) :=
  db.attendance.rows.find? fun r => r.2.employeeId == employeeId && r.2.isOpen

/-- `INSERT ... SELECT $1, now(), COALESCE(company_id,1) FROM hr_employee WHERE id=$1`. -/
def openAttendance (db : HrDb) (now employeeId : ℤ) : Except String HrDb :=
  match db.employees.find? fun e => e.id == employeeId with
  | none => .ok db
  | some e =>
      db.commit (db.attendance.insert
        { employeeId := employeeId, checkIn := now, companyId := e.companyId.getD 1 })

/-- The row with its end and its hours. -/
def closed (now : ℤ) (a : Attendance) : Attendance :=
  { a with checkOut := some now, workedHours := Attendance.hoursBetween a.checkIn now }

def closeAttendance (db : HrDb) (now id : ℤ) : Except String HrDb :=
  db.commit (db.attendance.modify id (closed now))

def handleCheckIn (db : HrDb) (now employeeId : ℤ) : Except String HrDb := do
  db.requireEmployee employeeId
  require (db.openIdFor employeeId = none) "Already checked in. Check out first."
  db.openAttendance now employeeId

/-- A closed attendance of the employee ends after this one began. -/
def runsInto (db : HrDb) (id : ℤ) (a : Attendance) : Bool :=
  db.attendance.rows.any fun r =>
    r.2.employeeId == a.employeeId && r.1 != id && r.2.checkOut.any fun o => decide (a.checkIn < o)

def handleCheckOut (db : HrDb) (now employeeId : ℤ) : Except String HrDb := do
  db.requireEmployee employeeId
  match db.openIdFor employeeId with
  | none => throw "Not checked in."
  | some (id, a) =>
      require (db.runsInto id a = false)
        "This check-out would overlap an existing attendance record."
      db.closeAttendance now id

def handleToggle (db : HrDb) (now employeeId : ℤ) : Except String HrDb := do
  db.requireEmployee employeeId
  if (db.openIdFor employeeId).isSome then db.handleCheckOut now employeeId
  else db.handleCheckIn now employeeId

/-- The toggle of the tablet, for the employee whose PIN it is. -/
def punch (verifyPassword : String → String → Bool) (db : HrDb) (now : ℤ) (pin : String) :
    Except String HrDb :=
  match recognise verifyPassword pin db.employees with
  | none => .error "PIN not recognised"
  | some e =>
      match db.openIdFor e.id with
      | none => db.openAttendance now e.id
      | some (id, _) => db.closeAttendance now id

/-! ### Generic calls -/

end HrDb

/-- The values of a create or a write, each as its column is given it. -/
structure AttendanceValues where
  employeeId : Option ℤ := none
  checkIn : Option ℤ := none
  checkOut : Option (Option ℤ) := none
  workedHours : Option ℤ := none
  companyId : Option ℤ := none

/-- The rows a caller may write, and what the company scope says of a new one. -/
structure AttendanceAccess where
  writable : Attendance → Bool := fun _ => true
  accepts : Attendance → Except String Unit := fun _ => .ok ()

namespace AttendanceValues

/-- The row of a create; the hours of the client are not read. -/
def newRow (v : AttendanceValues) : Except String Attendance := do
  require (0 < v.employeeId.getD 0) "An employee is required"
  match v.checkIn with
  | none => throw "A check-in time is required"
  | some checkIn =>
      return {
        employeeId := v.employeeId.getD 0
        checkIn := checkIn
        checkOut := v.checkOut.getD none
        workedHours := 0
        companyId := v.companyId.getD 1 }

/-- The assignments of a write; the hours of the client are among them. -/
def assign (v : AttendanceValues) (a : Attendance) : Attendance where
  employeeId := v.employeeId.getD a.employeeId
  checkIn := v.checkIn.getD a.checkIn
  checkOut := v.checkOut.getD a.checkOut
  workedHours := v.workedHours.getD a.workedHours
  companyId := v.companyId.getD a.companyId

end AttendanceValues

namespace HrDb

def create (db : HrDb) (access : AttendanceAccess) (v : AttendanceValues) : Except String HrDb := do
  let a ← v.newRow
  access.accepts a
  db.commit (db.attendance.insert a)

/-- The rows a write leaves. -/
def written (t : Table Attendance) (access : AttendanceAccess) (v : AttendanceValues)
    (ids : List ℤ) : Table Attendance :=
  t.updateWhere (fun id a => ids.contains id && access.writable a) v.assign

/-- The rows with the hours of the named ones derived. -/
def derived (t : Table Attendance) (ids : List ℤ) : Table Attendance :=
  t.updateWhere (fun id _ => ids.contains id) fun a => { a with workedHours := a.hours }

/-- A write and the transaction after it, which may get no connection: what the call
leaves, whether it fails or not. -/
def handleWriteAtt (db : HrDb) (access : AttendanceAccess) (v : AttendanceValues) (ids : List ℤ)
    (connected : Bool) : HrDb :=
  match db.commit (written db.attendance access v ids) with
  | .error _ => db
  | .ok db' =>
      if connected then
        match db'.commit (derived db'.attendance ids) with
        | .error _ => db'
        | .ok db'' => db''
      else db'

/-! ### Calls -/

inductive Call where
  | checkIn (employeeId : ℤ)
  | checkOut (employeeId : ℤ)
  | toggle (employeeId : ℤ)
  | punch (pin : String)
  | create (access : AttendanceAccess) (v : AttendanceValues)
  | write (access : AttendanceAccess) (v : AttendanceValues) (ids : List ℤ) (connected : Bool)

/-- What a transaction leaves: on failure, what was there. -/
def orSame (db : HrDb) (r : Except String HrDb) : HrDb :=
  match r with
  | .ok db' => db'
  | .error _ => db

/-- What a call at a moment leaves. -/
def run (verifyPassword : String → String → Bool) (db : HrDb) (now : ℤ) : Call → HrDb
  | .checkIn employeeId => db.orSame (db.handleCheckIn now employeeId)
  | .checkOut employeeId => db.orSame (db.handleCheckOut now employeeId)
  | .toggle employeeId => db.orSame (db.handleToggle now employeeId)
  | .punch pin => db.orSame (db.punch verifyPassword now pin)
  | .create access v => db.orSame (db.create access v)
  | .write access v ids connected => db.handleWriteAtt access v ids connected

end HrDb

/-- The database and the last look at the clock. -/
structure HrState where
  db : HrDb
  clock : ℤ

/-- A call and its moment, which is after the last. -/
def hrStep (verifyPassword : String → String → Bool) (s : HrState) (c : ℤ × HrDb.Call) :
    Option HrState :=
  if s.clock < c.1 then some ⟨s.db.run verifyPassword c.1 c.2, c.1⟩ else none

end CErp
