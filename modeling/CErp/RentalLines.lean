/-
What is done to tenancies: the statements on `rental_contract_line` with their
triggers, a booking from the calendar, and taking a unit out of service and back.
-/
import CErp.RentalDb

namespace CErp

open Outcome JsonDouble ContractLine

/-! ### Statements -/

/-- A column of a line and the value it is set to. -/
inductive LineColumn where
  | contractId (v : Option ℤ)
  | unitId (v : Option ℤ)
  | partnerId (v : Option ℤ)
  | dateStart (v : ℤ)
  | dateEnd (v : Option ℤ)
  | unitPrice (v : ℤ)
  | discountPct (v : ℤ)
  | taxIds (v : List ℤ)
  | billingAnchorDay (v : ℤ)
  | nextPeriodStart (v : Option ℤ)
  | invoicedThrough (v : Option ℤ)
  | state (v : LineState)
  | companyId (v : ℤ)
  | billingMode (v : BillingMode)
  | billingMonths (v : ℤ)
  | billingLeadDays (v : ℤ)
  | billingInterval (v : Option ℤ)
  | billingUnit (v : Option BillingUnit)
  | billingSpan (v : BillingSpan)

namespace LineColumn

def set (l : ContractLine) : LineColumn → ContractLine
  | contractId v => { l with contractId := v }
  | unitId v => { l with unitId := v }
  | partnerId v => { l with partnerId := v }
  | dateStart v => { l with dateStart := v }
  | dateEnd v => { l with dateEnd := v }
  | unitPrice v => { l with unitPrice := v }
  | discountPct v => { l with discountPct := v }
  | taxIds v => { l with taxIds := v }
  | billingAnchorDay v => { l with billingAnchorDay := v }
  | nextPeriodStart v => { l with nextPeriodStart := v }
  | invoicedThrough v => { l with invoicedThrough := v }
  | state v => { l with state := v }
  | companyId v => { l with companyId := v }
  | billingMode v => { l with billingMode := v }
  | billingMonths v => { l with billingMonths := v }
  | billingLeadDays v => { l with billingLeadDays := v }
  | billingInterval v => { l with billingInterval := v }
  | billingUnit v => { l with billingUnit := v }
  | billingSpan v => { l with billingSpan := v }

/-- The columns whose update fires the overlap trigger. -/
def guarded : LineColumn → Bool
  | unitId _ | dateStart _ | dateEnd _ | state _ => true
  | _ => false

end LineColumn

/-- What a statement runs under: the local date, and whether the planner
evaluates the range of a new row early. -/
structure RentalNow where
  today : ℤ
  folds : Bool

namespace RentalDb

/-- INSERT of one line, with the identifier it gets. -/
def insertLine (now : RentalNow) (db : RentalDb) (l : ContractLine) :
    Except String (RentalDb × ℤ) := do
  partnerMatches db.contracts l
  let l := l.defaultNextPeriod
  checkOverlap now.folds db.lines db.lines.nextId l
  let l := l.inheritPartner db.contracts
  checks db l
  return ({ db with lines := db.lines.insert l }.deriveState l.unitId, db.lines.nextId)

/-- The overlap trigger, which an UPDATE fires when it sets one of its columns. -/
def checkUpdate (now : RentalNow) (lines : Table ContractLine) (sets : List LineColumn) (id : ℤ)
    (l : ContractLine) : Except String Unit :=
  if sets.any LineColumn.guarded then checkOverlap now.folds lines id l else .ok ()

/-- The new version of one row. -/
def updateRow (now : RentalNow) (db : RentalDb) (sets : List LineColumn) (id : ℤ)
    (old : ContractLine) : Except String ContractLine := do
  let l := sets.foldl LineColumn.set old
  partnerMatches db.contracts l
  checkUpdate now db.lines sets id l
  let l := l.inheritPartner db.contracts
  checks db l
  return l

/-- The rows of an UPDATE so far, and the units they were and are on.  A row
that is not there is not updated. -/
def updateOne (now : RentalNow) (sets : List LineColumn) (s : RentalDb × List (Option ℤ)) (id : ℤ) :
    Except String (RentalDb × List (Option ℤ)) :=
  match s.1.lines.get? id with
  | none => .ok s
  | some old => do
      let l ← updateRow now s.1 sets id old
      return ({ s.1 with lines := s.1.lines.modify id fun _ => l }, s.2 ++ [old.unitId, l.unitId])

/-- UPDATE of the lines under some identifiers.  The units are derived when all
rows are written. -/
def updateLines (now : RentalNow) (db : RentalDb) (ids : List ℤ) (sets : List LineColumn) :
    Except String RentalDb := do
  let (db, units) ← ids.foldlM (updateOne now sets) (db, [])
  return db.deriveStates units

/-- DELETE of the lines under some identifiers, with their links. -/
def deleteLines (db : RentalDb) (ids : List ℤ) : RentalDb :=
  let units := (db.lines.rows.filter fun r => ids.contains r.1).map fun r => r.2.unitId
  { db with
    lines := db.lines.delete fun id _ => ids.contains id
    links := db.links.delete fun _ k => ids.contains k.contractLineId }.deriveStates units

end RentalDb

/-! ### Maintenance -/

namespace RentalUnits

/-- `RentalUnits::openMaintenance`. -/
def openMaintenance (db : RentalDb) (unitId : ℤ) : RentalDb :=
  { db with units := db.units.modify unitId fun u => { u with state := .maintenance } }

/-- `RentalUnits::recompute`. -/
def recompute (db : RentalDb) (unitId : ℤ) : RentalDb :=
  if unitId ≤ 0 then db else db.deriveState (some unitId)

/-- `RentalUnits::closeMaintenance`. -/
def closeMaintenance (db : RentalDb) (unitId : ℤ) : RentalDb :=
  match db.units.get? unitId with
  | none => db
  | some u =>
      if u.state = .maintenance then
        recompute { db with units := db.units.modify unitId fun u => { u with state := .available } }
          unitId
      else db

end RentalUnits

/-! ### Bookings -/

/-- A booking from the calendar; an identifier that is not given is 0, and a
price below zero asks for the rate of the unit's type. -/
structure BookRequest (D : Type) where
  unitId : ℤ := 0
  partnerId : ℤ := 0
  dateStart : Option ℤ := none
  dateEnd : Option ℤ := none
  unitPrice : D
  contractId : ℤ := 0
  billingMode : Option BillingMode := none
  companyId : ℤ := 0

/-- What a booking comes to. -/
structure Booking where
  db : RentalDb
  lineId : ℤ
  contractId : ℤ
  state : LineState
  billingMode : BillingMode

namespace RentalCalendar

/-- What holds a unit in a period, the earliest first.  Every live line of the
unit is compared with the period. -/
def clashes (db : RentalDb) (unitId dateStart : ℤ) (dateEnd : Option ℤ) :
    Except String (List ContractLine) := do
  let held := (db.lines.rows.filter fun r =>
    r.2.unitId == some unitId && r.2.state.isLive).map Prod.snd
  let overlapping ← held.filterMapM fun l => do
    let range ← l.range
    let wanted ← dateRange dateStart dateEnd
    return if range.overlaps wanted then some l else none
  return overlapping.insertionSort fun x y => x.dateStart ≤ y.dateStart

/-- The overlap, in words. -/
def checkFree (db : RentalDb) (unit : RentalUnit) (unitId dateStart : ℤ) (dateEnd : Option ℤ) :
    Except String Unit := do
  match ← clashes db unitId dateStart dateEnd with
  | [] => return ()
  | l :: _ =>
      let who := ((db.partnerNames.find? fun p => some p.1 == l.partnerId).map Prod.snd).getD ""
      .error ("Unit " ++ unit.code ++ " is already let " ++
        (if who = "" then "" else "to " ++ who ++ " ") ++ "from " ++ dateText l.dateStart ++ " to " ++
        endText l.dateEnd ++ ". Pick dates that do not overlap.")

section Book

variable {D : Type} [JsonDouble D]

/-- The rate of a booking. -/
def price (db : RentalDb) (unit : RentalUnit) (req : BookRequest D) : Except String ℤ :=
  if le zero req.unitPrice then
    (fromJson req.unitPrice).map Money.micros
  else
    .ok (((unit.typeId.bind db.unitTypes.get?).map RentalUnitType.defaultRate).getD 0)

/-- The contract of a booking: the one asked for, or a new one. -/
def contract (db : RentalDb) (unit : RentalUnit) (req : BookRequest D) (dateStart : ℤ) :
    Except String (RentalDb × ℤ) :=
  if req.contractId > 0 then
    match db.contracts.get? req.contractId with
    | none => .error "That contract no longer exists."
    | some c => do
        require (c.partnerId = req.partnerId) "That contract belongs to a different customer."
        return (db, req.contractId)
  else do
    let c := derivePeriod
      { name := "BK-" ++ unit.code ++ "-" ++ dateText dateStart
        partnerId := req.partnerId
        dateStart := some dateStart
        billingPeriod := if req.dateEnd.isNone then .monthly else .oneoff
        billingInterval := some 1
        billingUnit := some .month
        companyId := if req.companyId > 0 then req.companyId else unit.companyId }
    require
      ((db.contracts.rows.any fun r => r.2.name == c.name && r.2.companyId == c.companyId) = false)
      "duplicate key value violates unique constraint \"rental_contract_name_uniq\""
    return ({ db with contracts := db.contracts.insert c }, db.contracts.nextId)

/-- `RentalCalendar::book`. -/
def book (now : RentalNow) (db : RentalDb) (req : BookRequest D) : Except String Booking := do
  require (req.unitId > 0) "Choose a unit to book."
  require (req.partnerId > 0) "Choose a customer for this booking."
  match req.dateStart with
  | none => .error "A start date is required."
  | some dateStart => do
      require (∀ e ∈ req.dateEnd, dateStart ≤ e) "The end date is before the start date."
      match (db.units.get? req.unitId).filter RentalUnit.active with
      | none => .error "That unit no longer exists."
      | some unit => do
          require (unit.state ≠ .retired)
            ("Unit " ++ unit.code ++ " is retired and cannot be let.")
          require (unit.state ≠ .maintenance)
            ("Unit " ++ unit.code ++ " is under maintenance. Take it out of maintenance before " ++
              "booking it.")
          checkFree db unit req.unitId dateStart req.dateEnd
          let unitPrice ← price db unit req
          let (db, contractId) ← contract db unit req dateStart
          let billingMode :=
            req.billingMode.getD (if req.dateEnd.isNone then .recurring else .oneoff)
          let state : LineState := if dateStart ≤ now.today then .active else .pending
          let (db, lineId) ← db.insertLine now
            { contractId := some contractId
              unitId := some req.unitId
              partnerId := some req.partnerId
              dateStart := dateStart
              dateEnd := req.dateEnd
              unitPrice := unitPrice
              billingMode := billingMode
              state := state
              companyId := if req.companyId > 0 then req.companyId else unit.companyId }
          return ⟨db, lineId, contractId, state, billingMode⟩

end Book

end RentalCalendar

/-! ### Runs -/

/-- What is done to the tenancies and the units. -/
inductive RentalOp (D : Type) where
  | insertLine (l : ContractLine)
  | updateLines (ids : List ℤ) (sets : List LineColumn)
  | deleteLines (ids : List ℤ)
  | book (req : BookRequest D)
  | openMaintenance (unitId : ℤ)
  | closeMaintenance (unitId : ℤ)

def RentalOp.run {D : Type} [JsonDouble D] (now : RentalNow) (db : RentalDb) :
    RentalOp D → Except String RentalDb
  | insertLine l => (db.insertLine now l).map Prod.fst
  | updateLines ids sets => db.updateLines now ids sets
  | deleteLines ids => .ok (db.deleteLines ids)
  | book req => (RentalCalendar.book now db req).map Booking.db
  | openMaintenance unitId => .ok (RentalUnits.openMaintenance db unitId)
  | closeMaintenance unitId => .ok (RentalUnits.closeMaintenance db unitId)

/-- An operation leads on when it succeeds. -/
def rentalStep {D : Type} [JsonDouble D] (db : RentalDb) (e : RentalNow × RentalOp D) :
    Option RentalDb := (e.2.run e.1 db).toOption

lemma rentalStep_eq_some_iff {D : Type} [JsonDouble D] {db db' : RentalDb}
    {e : RentalNow × RentalOp D} : rentalStep db e = some db' ↔ e.2.run e.1 db = .ok db' :=
  toOption_eq_some_iff

end CErp
