/-
The statement of account of a customer.

The balances come from the posted lines of the receivable accounts: one query adds up
what is before the window, another lists what is in it.  The ageing comes from the
residuals that the customer's posted invoices have now.  Amounts are micro-units and
exact, a date is the number of its day, and a text that is no ISO date counts as none.
-/
import CErp.DatedEntries
import CErp.StockDb

namespace CErp

open DatedEntries

/-! ### Rows -/

/-- A row of `account_move`, as far as a statement reads it; a NULL text is empty. -/
structure StatementMove where
  name : String := ""
  ref : String := ""
  invoiceOrigin : String := ""
  moveType : MoveType
  state : MoveState := .draft
  partnerId : Option ℤ := none
  invoiceDate : Option ℤ := none
  dueDate : Option ℤ := none
  amountTotal : ℤ := 0
  amountResidual : ℤ := 0
deriving DecidableEq

/-- A row of `account_move_line`. -/
structure LedgerLine where
  moveId : ℤ
  accountId : ℤ
  partnerId : Option ℤ := none
  date : Option ℤ := none
  name : String := ""
  debit : ℤ := 0
  credit : ℤ := 0
deriving DecidableEq

/-- A row of `account_partial_reconcile`. -/
structure StatementAllocation where
  moveId : ℤ
  amount : ℤ
  date : ℤ
deriving DecidableEq

structure StatementDb where
  partners : Table String := .empty
  accounts : Table Account := .empty
  moves : Table StatementMove := .empty
  lines : Table LedgerLine := .empty
  allocations : Table StatementAllocation := .empty
  currentDate : ℤ

namespace PortalStatement

/-! ### Dates -/

def isIsoDate (s : String) : Bool :=
  s.isEmpty ||
    (s.utf8ByteSize == 10 && s.toList.zipIdx.all fun (c, i) =>
      if i = 4 ∨ i = 7 then c == '-' else c.isDigit)

/-- The date a statement takes from a text, which the database reads. -/
def readDate (dateInput : String → Except String ℤ) (s : String) : Except String (Option ℤ) :=
  if isIsoDate s = true ∧ s ≠ "" then (dateInput s).map some else .ok none

/-! ### The ledger -/

/-- A row of the query: a line with its move. -/
structure Movement where
  id : ℤ
  line : LedgerLine
  move : StatementMove
deriving DecidableEq

namespace Movement

def date (r : Movement) : Option ℤ := r.line.date

/-- `l.debit - l.credit`. -/
def amount (r : Movement) : ℤ := r.line.debit - r.line.credit

/-- A date, with none after all others. -/
def dateKey (r : Movement) : WithTop ℤ :=
  match r.line.date with
  | none => ⊤
  | some d => d

/-- `l.date, m.id, l.id`. -/
def key (r : Movement) : WithTop ℤ ×ₗ ℤ ×ₗ ℤ := toLex (r.dateKey, toLex (r.line.moveId, r.id))

/-- The order of the rows. -/
def le (r s : Movement) : Prop := r.key ≤ s.key

instance : DecidableRel le := fun r s => inferInstanceAs (Decidable (r.key ≤ s.key))

/-- The row in the customer's words. -/
def kind (r : Movement) : String :=
  match r.move.moveType with
  | .outInvoice => "Invoice"
  | .outRefund => "Credit Note"
  | .entry => if r.line.credit > 0 then "Payment" else "Adjustment"
  | _ => "Entry"

/-- `COALESCE(NULLIF(l.name,''), NULLIF(m.ref,''), COALESCE(m.invoice_origin,''))`. -/
def description (r : Movement) : String :=
  if r.line.name ≠ "" then r.line.name
  else if r.move.ref ≠ "" then r.move.ref
  else r.move.invoiceOrigin

end Movement

variable (db : StatementDb) (partnerId : ℤ)

/-- What the query makes of a line: nothing, unless it is the partner's and posted on a
receivable account. -/
def movement? (r : ℤ × LedgerLine) : Option Movement :=
  match db.moves.get? r.2.moveId, db.accounts.get? r.2.accountId with
  | some m, some a =>
      if r.2.partnerId = some partnerId ∧ m.state = .posted ∧ a.accountType = .assetReceivable then
        some ⟨r.1, r.2, m⟩
      else none
  | _, _ => none

/-- The posted lines of a partner on receivable accounts, with their moves. -/
def receivables : List Movement := db.lines.rows.filterMap (movement? db partnerId)

def openingBalance (dateFrom : Option ℤ) : Except String ℤ :=
  bigint (total Movement.amount ((receivables db partnerId).filter (before Movement.date dateFrom)))

/-- The movements of a window, in order. -/
def movements (dateFrom dateTo : Option ℤ) : List Movement :=
  ((receivables db partnerId).filter fun r =>
    since Movement.date dateFrom r && upTo Movement.date dateTo r).insertionSort Movement.le

structure StatementLine where
  date : Option ℤ
  document : String
  kind : String
  description : String
  dueDate : Option ℤ
  debit : ℤ
  credit : ℤ
  balance : ℤ
deriving DecidableEq

/-- A movement and the balance after it. -/
def statementLine (r : Movement × ℤ) : StatementLine where
  date := r.1.line.date
  document := r.1.move.name
  kind := r.1.kind
  description := r.1.description
  dueDate := r.1.move.dueDate
  debit := r.1.line.debit
  credit := r.1.line.credit
  balance := r.2

/-! ### The ageing -/

inductive Bucket where
  | current
  | d1_30
  | d31_60
  | d61_90
  | d90_plus
deriving DecidableEq

/-- `COALESCE(m.due_date, m.invoice_date)`. -/
def dueOn (m : StatementMove) : Option ℤ := m.dueDate.or m.invoiceDate

/-- The CASE of a bucket, on a reference date; an unknown date is in none. -/
def Bucket.takes (ref : ℤ) (m : StatementMove) : Bucket → Bool
  | .current => (dueOn m).any fun d => decide (d ≥ ref)
  | .d1_30 => (dueOn m).any fun d => decide (1 ≤ ref - d ∧ ref - d ≤ 30)
  | .d31_60 => (dueOn m).any fun d => decide (31 ≤ ref - d ∧ ref - d ≤ 60)
  | .d61_90 => (dueOn m).any fun d => decide (61 ≤ ref - d ∧ ref - d ≤ 90)
  | .d90_plus => (dueOn m).any fun d => decide (ref - d > 90)

/-- A posted customer invoice of the partner. -/
def isInvoice (m : StatementMove) : Bool :=
  m.partnerId == some partnerId && m.state == .posted && m.moveType == .outInvoice

/-- An invoice that the ageing looks at. -/
def isAged (dateTo : Option ℤ) (m : StatementMove) : Bool :=
  isInvoice partnerId m && m.amountResidual != 0 && upTo StatementMove.invoiceDate dateTo m

def bucketSum (dateTo : Option ℤ) (b : Bucket) : ℤ :=
  db.moves.sumOver fun _ m =>
    if isAged partnerId dateTo m && b.takes (dateTo.getD db.currentDate) m then m.amountResidual
    else 0

structure Aging where
  current : ℤ
  d1_30 : ℤ
  d31_60 : ℤ
  d61_90 : ℤ
  d90_plus : ℤ
deriving DecidableEq

def Aging.sum (a : Aging) : ℤ := a.current + a.d1_30 + a.d31_60 + a.d61_90 + a.d90_plus

def aging (dateTo : Option ℤ) : Except String Aging := do
  let current ← bigint (bucketSum db partnerId dateTo .current)
  let d1_30 ← bigint (bucketSum db partnerId dateTo .d1_30)
  let d31_60 ← bigint (bucketSum db partnerId dateTo .d31_60)
  let d61_90 ← bigint (bucketSum db partnerId dateTo .d61_90)
  let d90_plus ← bigint (bucketSum db partnerId dateTo .d90_plus)
  return { current, d1_30, d31_60, d61_90, d90_plus }

def amountDue : Except String ℤ :=
  bigint (db.moves.sumOver fun _ m => if isInvoice partnerId m then m.amountResidual else 0)

/-! ### The statement -/

structure Statement where
  dateFrom : Option ℤ
  dateTo : Option ℤ
  partner : String
  openingBalance : ℤ
  lines : List StatementLine
  totalDebit : ℤ
  totalCredit : ℤ
  closingBalance : ℤ
  aging : Aging
  amountDue : ℤ
deriving DecidableEq

def build (dateInput : String → Except String ℤ) (dateFrom dateTo : String) :
    Except String Statement := do
  let dateFrom ← readDate dateInput dateFrom
  let dateTo ← readDate dateInput dateTo
  let opening ← openingBalance db partnerId dateFrom
  let rows := movements db partnerId dateFrom dateTo
  let aging ← aging db partnerId dateTo
  let amountDue ← amountDue db partnerId
  return {
    dateFrom := dateFrom
    dateTo := dateTo
    partner := (db.partners.get? partnerId).getD ""
    openingBalance := opening
    lines := (runningFrom Movement.amount opening rows).map statementLine
    totalDebit := total (fun r => r.line.debit) rows
    totalCredit := total (fun r => r.line.credit) rows
    closingBalance := opening + total Movement.amount rows
    aging := aging
    amountDue := amountDue }

end PortalStatement

end CErp
