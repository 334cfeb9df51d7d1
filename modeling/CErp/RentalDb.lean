/-
The tables of the rental module, and what the database does of itself when a row
of `rental_contract_line` or `rental_contract` is written: the checks, the
triggers, and the period a tenancy is billed for next.

Dates are days of the `Calendar`; a text `YYYY-MM-DD` stands for its day.
-/
import CErp.AccountDb
import CErp.Calendar
import CErp.Spans

namespace CErp

open Outcome Calendar

/-! ### Kinds and states -/

inductive UnitState where
  | available
  | reserved
  | occupied
  | maintenance
  | retired
  deriving DecidableEq

inductive LineState where
  | pending
  | active
  | ended
  | cancelled
  deriving DecidableEq

inductive BillingMode where
  | manual
  | recurring
  | oneoff
  | ondemand
  deriving DecidableEq

inductive BillingUnit where
  | day
  | week
  | month
  | year
  deriving DecidableEq

/-- Whether a line is billed by whole calendar months; `contract` leaves it to
the contract. -/
inductive BillingSpan where
  | contract
  | month
  | dates
  deriving DecidableEq

inductive BillingPeriod where
  | daily
  | weekly
  | monthly
  | quarterly
  | biannual
  | yearly
  | custom
  | oneoff
  | ondemand
  deriving DecidableEq

/-! ### Rows -/

/-- A row of `rental_unit_type`. -/
structure RentalUnitType where
  defaultRate : ℤ := 0
  deriving DecidableEq

/-- A row of `rental_unit`. -/
structure RentalUnit where
  code : String
  name : String := ""
  typeId : Option ℤ := none
  state : UnitState := .available
  companyId : ℤ := 1
  active : Bool := true
  deriving DecidableEq

/-- A row of `rental_contract`. -/
structure RentalContract where
  name : String
  partnerId : ℤ
  dateStart : Option ℤ := none
  billingPeriod : BillingPeriod := .monthly
  billingInterval : Option ℤ := none
  billingUnit : Option BillingUnit := none
  wholeMonthBilling : Bool := false
  dueOnMoveIn : Bool := false
  currencyId : Option ℤ := none
  journalId : Option ℤ := none
  companyId : ℤ := 1
  deriving DecidableEq

/-- A row of `rental_contract_line`; `taxIds` are the integers of the JSON array
in `tax_ids_json`. -/
structure ContractLine where
  contractId : Option ℤ := none
  unitId : Option ℤ := none
  partnerId : Option ℤ := none
  dateStart : ℤ
  dateEnd : Option ℤ := none
  unitPrice : ℤ := 0
  discountPct : ℤ := 0
  taxIds : List ℤ := []
  billingAnchorDay : ℤ := 1
  nextPeriodStart : Option ℤ := none
  invoicedThrough : Option ℤ := none
  state : LineState := .pending
  companyId : ℤ := 1
  billingMode : BillingMode := .manual
  billingMonths : ℤ := 1
  billingLeadDays : ℤ := 7
  billingInterval : Option ℤ := none
  billingUnit : Option BillingUnit := none
  billingSpan : BillingSpan := .contract
  deriving DecidableEq

/-- A row of `rental_invoice_link`. -/
structure InvoiceLink where
  moveId : ℤ
  contractId : Option ℤ
  contractLineId : ℤ
  periodStart : ℤ
  periodEnd : ℤ
  amount : ℤ
  companyId : ℤ
  deriving DecidableEq

structure RentalDb where
  account : AccountDb := {}
  unitTypes : Table RentalUnitType := .empty
  units : Table RentalUnit := .empty
  contracts : Table RentalContract := .empty
  lines : Table ContractLine := .empty
  links : Table InvoiceLink := .empty
  partnerNames : List (ℤ × String) := []

/-! ### Periods -/

/-- `rental_next_period`: days and weeks are counted, months and years lead to
the anchor day, or to the last day of a month that has no such day. -/
def rentalNextPeriod (p anchor interval : ℤ) (unit : BillingUnit) : ℤ :=
  let n := max 1 interval
  let inMonth (months : ℤ) : ℤ :=
    dayIn (monthOf p + months) (max 1 (min 31 anchor))
  match unit with
  | .day => p + n
  | .week => p + n * 7
  | .month => inMonth n
  | .year => inMonth (n * 12)

/-- `rental_contract_derive_period`: what a preset means. -/
def derivePeriod (c : RentalContract) : RentalContract :=
  let every (interval : ℤ) (unit : BillingUnit) : RentalContract :=
    { c with billingInterval := some interval, billingUnit := some unit }
  match c.billingPeriod with
  | .daily => every 1 .day
  | .weekly => every 1 .week
  | .monthly => every 1 .month
  | .quarterly => every 3 .month
  | .biannual => every 6 .month
  | .yearly => every 1 .year
  | .custom => every (max 1 (min 366 (c.billingInterval.getD 1))) (c.billingUnit.getD .month)
  | .oneoff | .ondemand => { c with billingInterval := none, billingUnit := none }

/-! ### Dates in messages -/

/-- A day as it is written. -/
def dateText (d : ℤ) : String :=
  let o := monthOf d
  IrSequence.padded 4 (yearOf o) ++ "-" ++ IrSequence.padded 2 (monthInYear o) ++
    "-" ++ IrSequence.padded 2 (dayOfMonth d)

def endText (dateEnd : Option ℤ) : String :=
  match dateEnd with
  | none => "open-ended"
  | some d => dateText d

/-! ### Triggers on lines -/

/-- Pending and active lines take up their unit. -/
def LineState.isLive : LineState → Bool
  | .pending | .active => true
  | .ended | .cancelled => false

/-- `daterange(date_start, COALESCE(date_end, 'infinity'), '[]')`. -/
def dateRange (dateStart : ℤ) (dateEnd : Option ℤ) : Except String (Span ℤ) :=
  if h : ∀ e ∈ dateEnd, dateStart ≤ e then .ok ⟨dateStart, dateEnd, h⟩
  else .error "range lower bound must be less than or equal to range upper bound"

namespace ContractLine

def range (l : ContractLine) : Except String (Span ℤ) := dateRange l.dateStart l.dateEnd

/-- `rental_cl_partner_matches_trg`. -/
def partnerMatches (contracts : Table RentalContract) (l : ContractLine) : Except String Unit :=
  match l.contractId.bind contracts.get?, l.partnerId with
  | some c, some partner =>
      require (c.partnerId = partner)
        ("rental: line partner (" ++ toString partner ++ ") does not match contract partner (" ++
          toString c.partnerId ++ ")")
  | _, _ => .ok ()

/-- `rental_line_default_next_period`. -/
def defaultNextPeriod (l : ContractLine) : ContractLine :=
  if l.nextPeriodStart.isNone && l.billingMode == .recurring then
    { l with nextPeriodStart := some l.dateStart }
  else l

/-- `rental_line_inherit_partner`. -/
def inheritPartner (contracts : Table RentalContract) (l : ContractLine) : ContractLine :=
  if l.partnerId.isNone then
    { l with partnerId := (l.contractId.bind contracts.get?).map RentalContract.partnerId }
  else l

/-- The other live lines of a unit. -/
def rivals (lines : Table ContractLine) (id unit : ℤ) : List ContractLine :=
  (lines.rows.filter fun r =>
    r.2.unitId == some unit && r.1 != id && r.2.state.isLive).map Prod.snd

/-- The comparison of a line with another one of its unit. -/
def checkRival (l other : ContractLine) : Except String Unit := do
  let held ← other.range
  let wanted ← l.range
  require (held.overlaps wanted = false)
    ("This unit is already let from " ++ dateText other.dateStart ++ " to " ++
      endText other.dateEnd)

/-- `rental_line_check_overlap`.  The planner may evaluate the range of the new
row, which is the same for every other row, before it looks at any of them. -/
def checkOverlap (folds : Bool) (lines : Table ContractLine) (id : ℤ) (l : ContractLine) :
    Except String Unit :=
  match l.unitId with
  | none => .ok ()
  | some unit =>
      if l.state.isLive then do
        if folds then discard l.range
        (rivals lines id unit).forM (checkRival l)
      else .ok ()

/-- The constraints of the table. -/
def checks (db : RentalDb) (l : ContractLine) : Except String Unit := do
  require (l.partnerId.isSome = true) "null value in column \"partner_id\""
  require (1 ≤ l.billingAnchorDay ∧ l.billingAnchorDay ≤ 31)
    "rental_contract_line_anchor_chk"
  require (1 ≤ l.billingMonths ∧ l.billingMonths ≤ 12) "rental_cl_billing_months_chk"
  require (∀ n ∈ l.billingInterval, 1 ≤ n ∧ n ≤ 366) "rental_line_billing_interval_chk"
  require (∀ c ∈ l.contractId, (db.contracts.get? c).isSome = true)
    "rental_contract_line_contract_id_fkey"
  require (∀ u ∈ l.unitId, (db.units.get? u).isSome = true)
    "rental_contract_line_unit_id_fkey"

end ContractLine

/-! ### The state of a unit -/

/-- A live line of a unit is in a state. -/
def hasLine (lines : Table ContractLine) (unit : ℤ) (state : LineState) : Bool :=
  lines.rows.any fun r => r.2.unitId == some unit && r.2.state == state

/-- What the lines say of a unit. -/
def occupancy (lines : Table ContractLine) (unit : ℤ) : UnitState :=
  if hasLine lines unit .active then .occupied
  else if hasLine lines unit .pending then .reserved
  else .available

/-- Operators take units out of service. -/
def UnitState.outOfService : UnitState → Bool
  | .maintenance | .retired => true
  | _ => false

namespace RentalDb

/-- `rental_unit_derive_state`. -/
def deriveState (db : RentalDb) (unit : Option ℤ) : RentalDb :=
  match unit with
  | none => db
  | some id =>
      { db with
        units := db.units.modify id fun u =>
          if u.state.outOfService then u else { u with state := occupancy db.lines id } }

/-- `rental_contract_line_state_trg` for the rows of a statement, each with the
units it was and is on. -/
def deriveStates (db : RentalDb) (units : List (Option ℤ)) : RentalDb :=
  units.foldl deriveState db

end RentalDb

end CErp
