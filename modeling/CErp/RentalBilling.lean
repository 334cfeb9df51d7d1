/-
The billing run: the due tenancies, grouped into one invoice for each customer,
period, company and currency, each group in a transaction of its own.

A group that meets a tenancy already billed for the period is rolled back and
counted as skipped; one that fails otherwise is counted as failed, and the run
goes on with the next.  The two are told apart by the text of the exception.
-/
import CErp.AccountMove
import CErp.RentalLines

namespace CErp

open Calendar JsonDouble AccountMove

namespace RentalBilling

/-! ### What is due -/

/-- What the due query reads of a tenancy. -/
structure DueLine where
  id : ℤ
  contractId : ℤ
  partnerId : ℤ
  companyId : ℤ
  currencyId : ℤ
  journalId : Option ℤ
  unitCode : String
  unitName : String
  unitPrice : ℤ
  discountPct : ℤ
  taxIds : List ℤ
  anchorDay : ℤ
  interval : ℤ
  unit : BillingUnit
  periodStart : ℤ
  wholeMonth : Bool
  deriving DecidableEq

def contractOf (db : RentalDb) (l : ContractLine) : Option RentalContract :=
  l.contractId.bind db.contracts.get?

/-- `COALESCE(next_period_start, date_start)`. -/
def billingStart (l : ContractLine) : ℤ := l.nextPeriodStart.getD l.dateStart

/-- Whether a line is billed by whole calendar months. -/
def wholeMonth (db : RentalDb) (l : ContractLine) : Bool :=
  match l.billingSpan with
  | .month => true
  | .dates => false
  | .contract => (contractOf db l).any RentalContract.wholeMonthBilling

/-- The start of the period to bill; whole months begin on the first. -/
def periodStart (db : RentalDb) (l : ContractLine) : ℤ :=
  if wholeMonth db l then monthStart (monthOf (billingStart l))
  else billingStart l

/-- The line's own interval, or the contract's, or 1. -/
def resolvedInterval (db : RentalDb) (l : ContractLine) : ℤ :=
  (l.billingInterval.or ((contractOf db l).bind RentalContract.billingInterval)).getD 1

def resolvedUnit (db : RentalDb) (l : ContractLine) : BillingUnit :=
  (l.billingUnit.or ((contractOf db l).bind RentalContract.billingUnit)).getD .month

def dueLine (db : RentalDb) (r : ℤ × ContractLine) : DueLine where
  id := r.1
  contractId := r.2.contractId.getD 0
  partnerId := r.2.partnerId.getD 0
  companyId := r.2.companyId
  currencyId := ((contractOf db r.2).bind RentalContract.currencyId).getD 0
  journalId := (contractOf db r.2).bind RentalContract.journalId
  unitCode := ((r.2.unitId.bind db.units.get?).map RentalUnit.code).getD ""
  unitName := ((r.2.unitId.bind db.units.get?).map RentalUnit.name).getD ""
  unitPrice := r.2.unitPrice
  discountPct := r.2.discountPct
  taxIds := r.2.taxIds
  anchorDay := r.2.billingAnchorDay
  interval := resolvedInterval db r.2
  unit := resolvedUnit db r.2
  periodStart := periodStart db r.2
  wholeMonth := wholeMonth db r.2

/-- What the run is asked for: one contract's lines whatever their mode, or what
is scheduled. -/
def isAskedFor (db : RentalDb) (contractId : ℤ) (l : ContractLine) : Bool :=
  if contractId > 0 then l.contractId == some contractId
  else
    l.billingMode == .recurring && l.nextPeriodStart.isSome &&
      (contractOf db l).all fun c => c.billingPeriod != .oneoff && c.billingPeriod != .ondemand

/-- The condition of the due query. -/
def isDue (db : RentalDb) (asOf contractId : ℤ) (l : ContractLine) : Bool :=
  l.state == .active && isAskedFor db contractId l &&
    decide (billingStart l - l.billingLeadDays ≤ asOf) &&
    l.dateEnd.all fun e => decide (billingStart l ≤ e)

/-- ORDER BY partner, start of the period, identifier. -/
def comesBefore (r s : ℤ × ContractLine) : Bool :=
  let p (r : ℤ × ContractLine) : ℤ := r.2.partnerId.getD 0
  decide (p r < p s) || (p r == p s && (decide (billingStart r.2 < billingStart s.2) ||
    (billingStart r.2 == billingStart s.2 && decide (r.1 ≤ s.1))))

/-- All tenancies that are due. -/
def allDue (db : RentalDb) (asOf contractId : ℤ) : List DueLine :=
  ((db.lines.rows.filter fun r => isDue db asOf contractId r.2).insertionSort
    fun r s => comesBefore r s = true).map (dueLine db)

/-- LIMIT 1000. -/
def dueLines (db : RentalDb) (asOf contractId : ℤ) : List DueLine :=
  (allDue db asOf contractId).take 1000

/-! ### Groups -/

structure GroupKey where
  partnerId : ℤ
  periodStart : ℤ
  companyId : ℤ
  currencyId : ℤ
  deriving DecidableEq

def DueLine.key (l : DueLine) : GroupKey := ⟨l.partnerId, l.periodStart, l.companyId, l.currencyId⟩

/-- The order of the keys. -/
def GroupKey.le (a b : GroupKey) : Bool :=
  decide (a.partnerId < b.partnerId) || (a.partnerId == b.partnerId &&
    (decide (a.periodStart < b.periodStart) || (a.periodStart == b.periodStart &&
      (decide (a.companyId < b.companyId) || (a.companyId == b.companyId &&
        decide (a.currencyId ≤ b.currencyId))))))

/-- The tenancies of one invoice. -/
structure DueGroup where
  key : GroupKey
  lines : List DueLine
  deriving DecidableEq

/-- The groups in the order of their keys, each with its lines in the order they
were read. -/
def groupsOf (ls : List DueLine) : List DueGroup :=
  ((ls.map DueLine.key).dedup.insertionSort fun a b => a.le b = true).map fun key =>
    ⟨key, ls.filter fun l => l.key == key⟩

namespace DueGroup

/-- All lines are billed by whole months. -/
def wholeMonth (g : DueGroup) : Bool := g.lines.all DueLine.wholeMonth

/-- The journal of the last line that has one, else 0. -/
def journalId (g : DueGroup) : ℤ := g.lines.foldl (fun j l => l.journalId.getD j) 0

/-- The contract of the first line that has one, else 0. -/
def contractId (g : DueGroup) : ℤ :=
  ((g.lines.find? fun l => decide (l.contractId > 0)).map DueLine.contractId).getD 0

/-- The end of the period: of the calendar month, or the day before the next
period of the first line. -/
def periodEnd (g : DueGroup) : ℤ :=
  match g.lines with
  | [] => g.key.periodStart
  | l :: _ =>
      if g.wholeMonth then addMonths g.key.periodStart 1 - 1
      else rentalNextPeriod g.key.periodStart l.anchorDay l.interval l.unit - 1

end DueGroup

/-! ### One group -/

def monthName (month : ℤ) : String :=
  ["January", "February", "March", "April", "May", "June", "July", "August", "September",
    "October", "November", "December"].getD (month - 1).toNat ""

/-- The month, or the range. -/
def periodLabel (g : DueGroup) : String :=
  if g.wholeMonth then
    let o := monthOf g.key.periodStart
    monthName (monthInYear o) ++ " " ++ IrSequence.padded 4 (yearOf o)
  else dateText g.key.periodStart ++ " to " ++ dateText g.periodEnd

/-- What an invoice is entered with. -/
structure Header where
  journalId : ℤ
  arAccount : ℤ
  revAccount : ℤ

def orThrow {α : Type} (what : String) : Option α → Except String α
  | none => .error what
  | some a => .ok a

/-- The first sale journal of a company. -/
def saleJournal (db : AccountDb) (companyId : ℤ) : Option ℤ :=
  ((db.journals.rows.filter fun r => r.2.type == .sale && r.2.companyId == companyId).map
    Prod.fst).insertionSort (· ≤ ·) |>.head?

/-- The journal of the contract, else the first sale journal. -/
def journalOf (db : AccountDb) (g : DueGroup) : Except String ℤ :=
  if g.journalId = 0 then orThrow "no sale journal configured" (saleJournal db g.key.companyId)
  else .ok g.journalId

def header (db : AccountDb) (g : DueGroup) : Except String Header := do
  let journalId ← journalOf db g
  let arAccount ← orThrow "receivable account 1200 missing"
    (db.accountOfCode "1200" g.key.companyId)
  let revAccount ← orThrow "revenue account 4000 missing" (db.accountOfCode "4000" g.key.companyId)
  return ⟨journalId, arAccount, revAccount⟩

section Bill

variable (D : Type) [JsonDouble D]

/-- What `TaxEngine` makes of a line at quantity 1. -/
def lineTaxes (db : AccountDb) (l : DueLine) : Except String TaxComputation :=
  TaxEngine.compute { micros := l.unitPrice } { micros := Money.ONE } { micros := l.discountPct }
    (loadTaxes db l.taxIds) db.accountDigits

/-- The subtotal of a line, by `applyLineTaxes`: price, discount and result pass
through JSON. -/
def lineSubtotal (db : AccountDb) (l : DueLine) : Except String ℤ := do
  let quantity ← throughJson D { micros := Money.ONE }
  let price ← throughJson D { micros := l.unitPrice }
  let discount ← throughJson D { micros := l.discountPct }
  let res ← TaxEngine.compute price quantity discount (loadTaxes db l.taxIds)
    db.accountDigits
  let subtotal ← throughJson D res.baseExcluded
  return subtotal.micros

/-- The revenue line of a tenancy. -/
def revenueLine (h : Header) (g : DueGroup) (l : DueLine) (subtotal : ℤ) : MoveLine where
  accountId := h.revAccount
  companyId := some g.key.companyId
  name := (if l.unitCode = "" then "Rental" else "Unit " ++ l.unitCode) ++
    (if l.unitName = "" then "" else " (" ++ l.unitName ++ ")") ++ " — " ++ periodLabel g
  partnerId := some g.key.partnerId
  credit := subtotal
  quantity := 1000000
  priceUnit := subtotal
  taxIds := l.taxIds

def duplicateLink : String :=
  "duplicate key value violates unique constraint \"rental_invoice_link_uniq\""

/-- A line has been billed for a period. -/
def isBilled (links : Table InvoiceLink) (lineId periodStart : ℤ) : Bool :=
  links.rows.any fun r => r.2.contractLineId == lineId && r.2.periodStart == periodStart

/-- INSERT INTO rental_invoice_link, under UNIQUE (contract_line_id,
period_start). -/
def insertLink (links : Table InvoiceLink) (k : InvoiceLink) : Except String (Table InvoiceLink) :=
  if isBilled links k.contractLineId k.periodStart then .error duplicateLink
  else .ok (links.insert k)

/-- The period after the one that is billed; a one-off keeps its own. -/
def advanced (l : DueLine) (row : ContractLine) : Option ℤ :=
  if row.billingMode = .oneoff then row.nextPeriodStart
  else some (rentalNextPeriod (billingStart row) l.anchorDay l.interval l.unit)

/-- Advance to the next period. -/
def advance (now : RentalNow) (db : RentalDb) (g : DueGroup) (l : DueLine) : Except String RentalDb :=
  match db.lines.get? l.id with
  | none => .ok db
  | some row =>
      db.updateLines now [l.id]
        [.nextPeriodStart (advanced l row), .invoicedThrough (some g.periodEnd)]

/-- The period that is billed for a line. -/
def linkOf (g : DueGroup) (moveId : ℤ) (l : DueLine) (subtotal : ℤ) : InvoiceLink where
  moveId := moveId
  contractId := if l.contractId > 0 then some l.contractId else none
  contractLineId := l.id
  periodStart := g.key.periodStart
  periodEnd := g.periodEnd
  amount := subtotal
  companyId := g.key.companyId

/-- One line of the invoice, and what the lines come to so far. -/
def billLine (now : RentalNow) (h : Header) (g : DueGroup) (moveId : ℤ) (s : RentalDb × ℤ)
    (l : DueLine) : Except String (RentalDb × ℤ) := do
  let subtotal ← lineSubtotal D s.1.account l
  let account ← s.1.account.addLine moveId (revenueLine h g l subtotal)
  let links ← insertLink s.1.links (linkOf g moveId l subtotal)
  let db ← advance now { s.1 with account := account, links := links } g l
  return (db, s.2 + subtotal)

/-- An amount added to the total of its tax, the totals being in the order of
the taxes. -/
def addTo (taxId amount : ℤ) : List (ℤ × ℤ) → List (ℤ × ℤ)
  | [] => [(taxId, amount)]
  | t :: ts =>
      if taxId < t.1 then (taxId, amount) :: t :: ts
      else if taxId = t.1 then (t.1, t.2 + amount) :: ts
      else t :: addTo taxId amount ts

/-- The taxes of one line, added to the totals. -/
def addLineTaxes (db : AccountDb) (byTax : List (ℤ × ℤ)) (l : DueLine) :
    Except String (List (ℤ × ℤ)) :=
  if (loadTaxes db l.taxIds).isEmpty then .ok byTax
  else do
    let res ← lineTaxes db l
    return res.components.foldl (fun byTax c => addTo c.taxId c.amount.micros byTax) byTax

/-- The account a tax is booked on in a company. -/
def taxAccount (db : AccountDb) (companyId : ℤ) (tax : Tax) : Option ℤ :=
  tax.accountId.or (db.accountOfCode "2200" companyId)

def taxLine (g : DueGroup) (acct : ℤ) (tax : Tax) (t : ℤ × ℤ) : MoveLine where
  accountId := acct
  companyId := some g.key.companyId
  name := tax.name
  taxLineId := some t.1
  credit := t.2

/-- The line of one tax, where there is an account for it. -/
def insertTax (g : DueGroup) (moveId : ℤ) (s : AccountDb × ℤ) (t : ℤ × ℤ) :
    Except String (AccountDb × ℤ) :=
  if t.2 = 0 then .ok s
  else
    match s.1.taxes.get? t.1 with
    | none => .ok s
    | some tax =>
        match taxAccount s.1 g.key.companyId tax with
        | none => .ok s
        | some acct => do
            let account ← s.1.addLine moveId (taxLine g acct tax t)
            return (account, s.2 + t.2)

/-- The draft an invoice begins with. -/
def draft (asOf : ℤ) (h : Header) (g : DueGroup) : Move where
  moveType := .outInvoice
  date := dateText asOf
  journalId := h.journalId
  partnerId := some g.key.partnerId
  companyId := g.key.companyId
  currencyId := if g.key.currencyId > 0 then some g.key.currencyId else none

/-- What the customer owes for all of it. -/
def receivableLine (h : Header) (g : DueGroup) (total : ℤ) : MoveLine where
  accountId := h.arAccount
  companyId := some g.key.companyId
  name := "Rental receivable"
  partnerId := some g.key.partnerId
  debit := total

/-- An invoice with its totals. -/
def withTotals (untaxed tax : ℤ) (m : Move) : Move :=
  { m with
    amountUntaxed := untaxed
    amountTax := tax
    amountTotal := untaxed + tax
    amountResidual := untaxed + tax }

/-- The transaction of a group. -/
def billGroup (now : RentalNow) (asOf : ℤ) (db : RentalDb) (g : DueGroup) :
    Except String (RentalDb × ℤ) := do
  let h ← header db.account g
  let moveId := db.account.moves.nextId
  let (db, untaxed) ← g.lines.foldlM (billLine D now h g moveId)
    ({ db with account := db.account.insertMove (draft asOf h g) }, 0)
  let byTax ← g.lines.foldlM (addLineTaxes db.account) []
  let (account, tax) ← byTax.foldlM (insertTax g moveId) (db.account, 0)
  let account ← account.addLine moveId (receivableLine h g (untaxed + tax))
  return ({ db with account := account.modifyMove moveId (withTotals untaxed tax) }, moveId)

/-! ### The run -/

/-- A text is somewhere in another. -/
def isIn (text what : String) : Bool := decide (text.toList <:+: what.toList)

/-- The exception of a duplicate. -/
def isDuplicate (what : String) : Bool :=
  isIn "rental_invoice_link_uniq" what || isIn "duplicate key" what

/-- What becomes of a group. -/
inductive GroupOutcome where
  | billed (moveId : ℤ)
  | skipped
  | failed (what : String)
  deriving DecidableEq

/-- A group is committed or rolled back alone. -/
def billOne (now : RentalNow) (asOf : ℤ) (s : RentalDb × List (DueGroup × GroupOutcome))
    (g : DueGroup) : RentalDb × List (DueGroup × GroupOutcome) :=
  match billGroup D now asOf s.1 g with
  | .ok (db, moveId) => (db, s.2 ++ [(g, .billed moveId)])
  | .error what => (s.1, s.2 ++ [(g, if isDuplicate what then .skipped else .failed what)])

/-- `RentalBilling::run`, with what became of each group. -/
def run (now : RentalNow) (db : RentalDb) (asOf : Option ℤ) (contractId : ℤ) :
    RentalDb × List (DueGroup × GroupOutcome) :=
  (groupsOf (dueLines db (asOf.getD now.today) contractId)).foldl
    (billOne D now (asOf.getD now.today)) (db, [])

end Bill

/-- What a run reports. -/
structure BillingResult where
  invoicesCreated : ℕ := 0
  linesBilled : ℕ := 0
  groupsSkipped : ℕ := 0
  groupsFailed : ℕ := 0
  moveIds : List ℤ := []
  errors : List String := []
  deriving DecidableEq

def BillingResult.count (out : BillingResult) : DueGroup × GroupOutcome → BillingResult
  | (g, .billed moveId) =>
      { out with
        invoicesCreated := out.invoicesCreated + 1
        linesBilled := out.linesBilled + g.lines.length
        moveIds := out.moveIds ++ [moveId] }
  | (_, .skipped) => { out with groupsSkipped := out.groupsSkipped + 1 }
  | (_, .failed what) =>
      { out with groupsFailed := out.groupsFailed + 1, errors := out.errors ++ [what] }

def resultOf (outcomes : List (DueGroup × GroupOutcome)) : BillingResult :=
  outcomes.foldl BillingResult.count {}

end RentalBilling

end CErp
