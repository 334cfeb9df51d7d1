/-
Leave requests and the allocations they are taken from.

A date is the number of its day and days of leave are hundredths, as NUMERIC(6,2) has
them.  What the tables refuse no database has (`LeaveConstraints`), and every statement
ends with a commit.  The rules are enforced when a leave is approved; a write of the
client sets any registered column, the state among them.
-/
import CErp.Workflow

namespace CErp

open Outcome

/-! ### Rows -/

inductive LeaveState where
  | draft
  | confirm
  | validate
  | refuse
  | cancel
deriving DecidableEq

structure LeaveType where
  name : String
  requiresAllocation : Bool := true
deriving DecidableEq

structure PublicHoliday where
  date : ℤ
  companyId : Option ℤ := some 1
deriving DecidableEq

/-- A row of `hr_leave_allocation`. -/
structure LeaveAllocation where
  employeeId : ℤ
  leaveTypeId : ℤ
  numberOfDays : ℤ := 0
  state : LeaveState := .draft
  companyId : ℤ := 1
deriving DecidableEq

/-- A row of `hr_leave`. -/
structure Leave where
  employeeId : ℤ
  leaveTypeId : ℤ
  dateFrom : ℤ
  dateTo : ℤ
  numberOfDays : ℤ := 0
  state : LeaveState := .draft
  companyId : ℤ := 1
deriving DecidableEq

/-! ### The database -/

/-- The records no leave operation changes. -/
structure LeaveSettings where
  employees : List ℤ
  types : Table LeaveType
  holidays : List PublicHoliday := []

/-- The constraints of `hr_leave`. -/
structure LeaveConstraints (c : LeaveSettings) (t : Table Leave) : Prop where
  references : ∀ r ∈ t.rows, r.2.employeeId ∈ c.employees ∧
    (c.types.get? r.2.leaveTypeId).isSome = true
  range_chk : ∀ r ∈ t.rows, r.2.dateFrom ≤ r.2.dateTo
  days_fit : ∀ r ∈ t.rows, |r.2.numberOfDays| < 10 ^ 6

/-- The constraints of `hr_leave_allocation`. -/
structure AllocationConstraints (c : LeaveSettings) (t : Table LeaveAllocation) : Prop where
  references : ∀ r ∈ t.rows, r.2.employeeId ∈ c.employees ∧
    (c.types.get? r.2.leaveTypeId).isSome = true
  state_chk : ∀ r ∈ t.rows, r.2.state ≠ .cancel
  days_chk : ∀ r ∈ t.rows, 0 ≤ r.2.numberOfDays
  days_fit : ∀ r ∈ t.rows, |r.2.numberOfDays| < 10 ^ 6

instance (c : LeaveSettings) (t : Table Leave) : Decidable (LeaveConstraints c t) :=
  decidable_of_iff (_ ∧ _ ∧ _)
    ⟨fun h => ⟨h.1, h.2.1, h.2.2⟩, fun h => ⟨h.references, h.range_chk, h.days_fit⟩⟩

instance (c : LeaveSettings) (t : Table LeaveAllocation) : Decidable (AllocationConstraints c t) :=
  decidable_of_iff (_ ∧ _ ∧ _ ∧ _)
    ⟨fun h => ⟨h.1, h.2.1, h.2.2.1, h.2.2.2⟩,
      fun h => ⟨h.references, h.state_chk, h.days_chk, h.days_fit⟩⟩

structure LeaveDb where
  settings : LeaveSettings
  leaves : Table Leave
  allocations : Table LeaveAllocation
  leave_constraints : LeaveConstraints settings leaves
  allocation_constraints : AllocationConstraints settings allocations

namespace LeaveDb

def commitLeaves (db : LeaveDb) (t : Table Leave) : Except String LeaveDb :=
  if h : LeaveConstraints db.settings t then .ok { db with leaves := t, leave_constraints := h }
  else .error "violates a constraint of relation \"hr_leave\""

def commitAllocations (db : LeaveDb) (t : Table LeaveAllocation) : Except String LeaveDb :=
  if h : AllocationConstraints db.settings t then
    .ok { db with allocations := t, allocation_constraints := h }
  else .error "violates a constraint of relation \"hr_leave_allocation\""

/-! ### Days and balances -/

/-- `EXTRACT(ISODOW FROM d)`; day 0 is a Thursday. -/
def isoDow (d : ℤ) : ℤ := (d + 3) % 7 + 1

/-- The days of a range that are neither weekend nor holiday. -/
def workingDays (c : LeaveSettings) (dateFrom dateTo companyId : ℤ) : ℕ :=
  (List.range (dateTo - dateFrom + 1).toNat).countP fun (i : ℕ) =>
    isoDow (dateFrom + i) < 6 &&
      !c.holidays.any fun h =>
        h.date == dateFrom + i && (h.companyId == some companyId || h.companyId == none)

structure Balance where
  allocated : ℤ
  taken : ℤ
  pending : ℤ

/-- The days of an allocation that count for an employee and a type. -/
def allocatedDays (employeeId typeId : ℤ) (a : LeaveAllocation) : ℤ :=
  if a.employeeId = employeeId ∧ a.leaveTypeId = typeId ∧ a.state = .validate then a.numberOfDays
  else 0

/-- The days of a leave in a state that count for an employee and a type. -/
def leaveDays (state : LeaveState) (employeeId typeId : ℤ) (l : Leave) : ℤ :=
  if l.employeeId = employeeId ∧ l.leaveTypeId = typeId ∧ l.state = state then l.numberOfDays else 0

def allocatedIn (t : Table LeaveAllocation) (employeeId typeId : ℤ) : ℤ :=
  t.sumOver fun _ a => allocatedDays employeeId typeId a

def takenIn (t : Table Leave) (employeeId typeId : ℤ) : ℤ :=
  t.sumOver fun _ l => leaveDays .validate employeeId typeId l

def balanceOf (db : LeaveDb) (employeeId typeId : ℤ) : Balance where
  allocated := allocatedIn db.allocations employeeId typeId
  taken := takenIn db.leaves employeeId typeId
  pending := db.leaves.sumOver fun _ l => leaveDays .confirm employeeId typeId l

/-- Whether leave of a type is taken from an allocation. -/
def requiresAlloc (db : LeaveDb) (typeId : ℤ) : Bool :=
  (db.settings.types.get? typeId).any (·.requiresAllocation)

def setState (state : LeaveState) (l : Leave) : Leave := { l with state := state }

def setAllocationState (state : LeaveState) (a : LeaveAllocation) : LeaveAllocation :=
  { a with state := state }

/-! ### Approving a leave -/

/-- A validated leave of the employee that overlaps this one. -/
def clashes (t : Table Leave) (id : ℤ) (l : Leave) : Bool :=
  t.rows.any fun r =>
    r.2.employeeId == l.employeeId && r.1 != id && r.2.state == .validate &&
      decide (r.2.dateFrom ≤ l.dateTo) && decide (l.dateFrom ≤ r.2.dateTo)

def approveOne (db : LeaveDb) (id : ℤ) : Except String LeaveDb :=
  match db.leaves.get? id with
  | none => .error "Leave request not found."
  | some l => do
      require (l.state = .confirm) "Only a submitted leave request can be approved."
      require (0 < l.numberOfDays)
        "This request covers no working days — check the dates, weekends and public holidays."
      require (clashes db.leaves id l = false)
        "This employee already has approved leave overlapping those dates."
      let b := db.balanceOf l.employeeId l.leaveTypeId
      let tname := ((db.settings.types.get? l.leaveTypeId).map LeaveType.name).getD "this type"
      -- doubles keep hundredths apart, so the 1e-9 of the source decides nothing
      require
        (db.requiresAlloc l.leaveTypeId = true → l.numberOfDays ≤ b.allocated - b.taken)
        ("Not enough " ++ tname ++ " remaining: " ++ toString ((b.allocated - b.taken).tdiv 100) ++
          " day(s) left, " ++ toString (l.numberOfDays.tdiv 100) ++ " requested.")
      db.commitLeaves (db.leaves.modify id (setState .validate))

def handleApprove (db : LeaveDb) (ids : List ℤ) : Except String LeaveDb := ids.foldlM approveOne db

/-! ### The other actions -/

inductive LeaveAction where
  | confirm
  | approve
  | refuse
  | cancel
  | resetDraft
deriving DecidableEq

/-- `step_` of `hr.leave`. -/
def leaveStep (db : LeaveDb) (source : List LeaveState) (target : LeaveState) (refusal : String)
    (ids : List ℤ) : Except String LeaveDb := do
  let t ← Workflow.step Leave.state setState "Leave request not found." refusal source target
    db.leaves ids
  db.commitLeaves t

def leaveAction (db : LeaveDb) (ids : List ℤ) : LeaveAction → Except String LeaveDb
  | .confirm => db.leaveStep [.draft] .confirm "Only a draft leave request can be submitted." ids
  | .approve => db.handleApprove ids
  | .refuse => db.leaveStep [.confirm, .validate] .refuse
      "Only a submitted or approved leave request can be refused." ids
  | .cancel => db.leaveStep [.draft, .confirm, .validate] .cancel
      "This leave request cannot be cancelled." ids
  | .resetDraft => db.leaveStep [.confirm, .refuse, .cancel] .draft
      "Only a submitted, refused or cancelled request can be reset to draft." ids

inductive AllocationAction where
  | confirm
  | approve
  | refuse
deriving DecidableEq

/-- `step_` of `hr.leave.allocation`. -/
def allocationStep (db : LeaveDb) (source : List LeaveState) (target : LeaveState)
    (refusal : String) (ids : List ℤ) : Except String LeaveDb := do
  let t ← Workflow.step LeaveAllocation.state setAllocationState "Allocation not found." refusal
    source target db.allocations ids
  db.commitAllocations t

def allocationAction (db : LeaveDb) (ids : List ℤ) : AllocationAction → Except String LeaveDb
  | .confirm => db.allocationStep [.draft] .confirm "Only a draft allocation can be submitted." ids
  | .approve => db.allocationStep [.confirm] .validate
      "Only a submitted allocation can be approved." ids
  | .refuse => db.allocationStep [.confirm, .validate] .refuse
      "Only a submitted or approved allocation can be refused." ids

end LeaveDb

/-! ### Generic calls -/

/-- The values of a create or a write, each as its column is given it. -/
structure LeaveValues where
  employeeId : Option ℤ := none
  leaveTypeId : Option ℤ := none
  dateFrom : Option ℤ := none
  dateTo : Option ℤ := none
  numberOfDays : Option ℤ := none
  state : Option LeaveState := none
  companyId : Option ℤ := none

structure AllocationValues where
  employeeId : Option ℤ := none
  leaveTypeId : Option ℤ := none
  numberOfDays : Option ℤ := none
  state : Option LeaveState := none
  companyId : Option ℤ := none

/-- The rows a caller may write, and what the company scope says of a new one. -/
structure RowAccess (α : Type) where
  writable : α → Bool := fun _ => true
  accepts : α → Except String Unit := fun _ => .ok ()

namespace LeaveValues

/-- The row of a create: a draft without days, whatever the client says of the two. -/
def newRow (v : LeaveValues) : Except String Leave := do
  require (0 < v.employeeId.getD 0) "An employee is required"
  require (0 < v.leaveTypeId.getD 0) "A leave type is required"
  match v.dateFrom, v.dateTo with
  | some dateFrom, some dateTo =>
      require (dateFrom ≤ dateTo) "The end date cannot be before the start date"
      return {
        employeeId := v.employeeId.getD 0
        leaveTypeId := v.leaveTypeId.getD 0
        dateFrom := dateFrom
        dateTo := dateTo
        companyId := v.companyId.getD 1 }
  | _, _ => throw "Both dates are required"

/-- The assignments of a write. -/
def assign (v : LeaveValues) (l : Leave) : Leave where
  employeeId := v.employeeId.getD l.employeeId
  leaveTypeId := v.leaveTypeId.getD l.leaveTypeId
  dateFrom := v.dateFrom.getD l.dateFrom
  dateTo := v.dateTo.getD l.dateTo
  numberOfDays := v.numberOfDays.getD l.numberOfDays
  state := v.state.getD l.state
  companyId := v.companyId.getD l.companyId

end LeaveValues

namespace AllocationValues

/-- The row of a create: a draft, whatever the client says of the state. -/
def newRow (v : AllocationValues) : Except String LeaveAllocation := do
  require (0 < v.employeeId.getD 0) "An employee is required"
  require (0 < v.leaveTypeId.getD 0) "A leave type is required"
  require (0 < v.numberOfDays.getD 0) "Allocated days must be greater than zero"
  return {
    employeeId := v.employeeId.getD 0
    leaveTypeId := v.leaveTypeId.getD 0
    numberOfDays := v.numberOfDays.getD 0
    companyId := v.companyId.getD 1 }

/-- The assignments of a write. -/
def assign (v : AllocationValues) (a : LeaveAllocation) : LeaveAllocation where
  employeeId := v.employeeId.getD a.employeeId
  leaveTypeId := v.leaveTypeId.getD a.leaveTypeId
  numberOfDays := v.numberOfDays.getD a.numberOfDays
  state := v.state.getD a.state
  companyId := v.companyId.getD a.companyId

end AllocationValues

namespace LeaveDb

/-- The rows a write selects. -/
def hit {α : Type} (access : RowAccess α) (ids : List ℤ) (id : ℤ) (a : α) : Bool :=
  ids.contains id && access.writable a

/-- The row with its days counted from its dates. -/
def recounted (c : LeaveSettings) (l : Leave) : Leave :=
  { l with numberOfDays := 100 * (workingDays c l.dateFrom l.dateTo l.companyId : ℤ) }

/-- `recount_`, in a transaction of its own, which may get no connection. -/
def recount (db : LeaveDb) (ids : List ℤ) (connected : Bool) : LeaveDb :=
  if connected then
    match db.commitLeaves (db.leaves.updateWhere (fun id _ => ids.contains id)
        (recounted db.settings)) with
    | .error _ => db
    | .ok db' => db'
  else db

/-- A create: what the call leaves, whether it fails or not. -/
def handleCreateLeave (db : LeaveDb) (access : RowAccess Leave) (v : LeaveValues)
    (connected : Bool) : LeaveDb :=
  match (do
      let l ← v.newRow
      access.accepts l
      db.commitLeaves (db.leaves.insert l)) with
  | .error _ => db
  | .ok db' => db'.recount [db.leaves.nextId] connected

/-- A leave that is validated or refused is not edited. -/
def editable (db : LeaveDb) (ids : List ℤ) : Bool :=
  ids.all fun id => (db.leaves.get? id).all fun l => l.state != .validate && l.state != .refuse

/-- The leaves after a write. -/
def writtenLeaves (db : LeaveDb) (access : RowAccess Leave) (v : LeaveValues) (ids : List ℤ) :
    Table Leave :=
  db.leaves.updateWhere (hit access ids) v.assign

def handleWriteLeave (db : LeaveDb) (access : RowAccess Leave) (v : LeaveValues) (ids : List ℤ)
    (connected : Bool) : LeaveDb :=
  if db.editable ids then
    match db.commitLeaves (db.writtenLeaves access v ids) with
    | .error _ => db
    | .ok db' => db'.recount ids connected
  else db

def createAllocation (db : LeaveDb) (access : RowAccess LeaveAllocation) (v : AllocationValues) :
    Except String LeaveDb := do
  let a ← v.newRow
  access.accepts a
  db.commitAllocations (db.allocations.insert a)

/-- The allocations after a write. -/
def writtenAllocations (db : LeaveDb) (access : RowAccess LeaveAllocation) (v : AllocationValues)
    (ids : List ℤ) : Table LeaveAllocation :=
  db.allocations.updateWhere (hit access ids) v.assign

def writeAllocation (db : LeaveDb) (access : RowAccess LeaveAllocation) (v : AllocationValues)
    (ids : List ℤ) : Except String LeaveDb :=
  db.commitAllocations (db.writtenAllocations access v ids)

/-! ### Calls -/

inductive LeaveCall where
  | createLeave (access : RowAccess Leave) (v : LeaveValues) (connected : Bool)
  | writeLeave (access : RowAccess Leave) (v : LeaveValues) (ids : List ℤ) (connected : Bool)
  | leave (action : LeaveAction) (ids : List ℤ)
  | createAllocation (access : RowAccess LeaveAllocation) (v : AllocationValues)
  | writeAllocation (access : RowAccess LeaveAllocation) (v : AllocationValues) (ids : List ℤ)
  | allocation (action : AllocationAction) (ids : List ℤ)

/-- What a transaction leaves: on failure, what was there. -/
def orSame (db : LeaveDb) (r : Except String LeaveDb) : LeaveDb :=
  match r with
  | .ok db' => db'
  | .error _ => db

/-- What a call leaves. -/
def run (db : LeaveDb) : LeaveCall → LeaveDb
  | .createLeave access v connected => db.handleCreateLeave access v connected
  | .writeLeave access v ids connected => db.handleWriteLeave access v ids connected
  | .leave action ids => db.orSame (db.leaveAction ids action)
  | .createAllocation access v => db.orSame (db.createAllocation access v)
  | .writeAllocation access v ids => db.orSame (db.writeAllocation access v ids)
  | .allocation action ids => db.orSame (db.allocationAction ids action)

end LeaveDb

end CErp
