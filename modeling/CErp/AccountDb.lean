/-
The tables of the accounting module: moves with their lines, payments with
their allocations, and what the two look up.

A move line belongs to one move and an allocation (a row of
`account_partial_reconcile`) to one payment, and neither outlives its owner, so
both are kept inside it.  Amounts of the tables are micro-units; a date is its
ISO text, so dates compare as texts do.  Sums of amount columns are not bounded
by what a column holds.

* `addLine` is the only statement that adds a line; `addLine_ok` says what it
  does.
* the `modifyMove_*` and `modifyPayment_*` lemmas say what an UPDATE of one row
  leaves as it was.
-/
import CErp.IrSequence
import CErp.TaxEngine

namespace CErp

open Outcome IrSequence Table List

/-! ### Moments -/

/-- What an operation reads of the moment it runs in: the allocator's clock,
the local date of the server, the date of the database, and what the database
makes of a text given for a date. -/
structure Moment where
  clock : Clock
  localDate : String
  currentDate : String
  dateInput : String → Except String String

/-! ### Kinds and states -/

inductive MoveType where
  | entry
  | outInvoice
  | outRefund
  | inInvoice
  | inRefund
  | other
  deriving DecidableEq

namespace MoveType

/-- A customer's or vendor's document. -/
def isInvoice : MoveType → Bool
  | outInvoice | outRefund | inInvoice | inRefund => true
  | entry | other => false

/-- A customer's document. -/
def isOut : MoveType → Bool
  | outInvoice | outRefund => true
  | _ => false

/-- The documents whose product lines are credits. -/
def productLinesAreCredit : MoveType → Bool
  | outInvoice | inRefund => true
  | _ => false

end MoveType

inductive MoveState where
  | draft
  | posted
  | cancel
  deriving DecidableEq

inductive PaymentStatus where
  | notPaid
  | partially
  | paid
  deriving DecidableEq

inductive PaymentType where
  | inbound
  | outbound
  | other
  deriving DecidableEq

inductive PartnerType where
  | customer
  | supplier
  deriving DecidableEq

inductive PaymentState where
  | draft
  | posted
  | cancelled
  deriving DecidableEq

inductive AccountType where
  | assetCash
  | assetReceivable
  | liabilityPayable
  | income
  | incomeOther
  | expense
  | expenseDirectCost
  | other
  deriving DecidableEq

inductive JournalType where
  | sale
  | purchase
  | bank
  | cash
  | other
  deriving DecidableEq

inductive AssetState where
  | draft
  | opened
  | close
  deriving DecidableEq

/-! ### Rows -/

/-- A row of `account_move_line`; `taxIds` are the integers of the JSON array in
`tax_ids_json`. -/
structure MoveLine where
  id : ℤ := 0
  accountId : ℤ
  companyId : Option ℤ := none
  name : String := ""
  partnerId : Option ℤ := none
  debit : ℤ := 0
  credit : ℤ := 0
  quantity : ℤ := 1
  priceUnit : ℤ := 0
  displayType : String := ""
  taxLineId : Option ℤ := none
  taxIds : List ℤ := []
  analyticAccountId : Option ℤ := none
  deriving DecidableEq

/-- A row of `account_move` with its lines. -/
structure Move where
  name : String := "/"
  moveType : MoveType
  state : MoveState := .draft
  date : String
  journalId : ℤ
  partnerId : Option ℤ := none
  companyId : ℤ := 1
  currencyId : Option ℤ := none
  paymentState : PaymentStatus := .notPaid
  amountUntaxed : ℤ := 0
  amountTax : ℤ := 0
  amountTotal : ℤ := 0
  amountResidual : ℤ := 0
  currencyRate : ℤ := Money.ONE
  linePrecision : Option ℤ := none
  saleId : Option ℤ := none
  purchaseId : Option ℤ := none
  lines : List MoveLine := []
  deriving DecidableEq

/-- A row of `account_partial_reconcile`: an amount of the payment that holds
it, applied to a move. -/
structure PartialReconcile where
  moveId : ℤ
  amount : ℤ
  amountBase : ℤ
  fxDiff : ℤ
  date : String
  companyId : ℤ
  deriving DecidableEq

/-- A row of `account_payment` with its allocations. -/
structure Payment where
  name : String := "/"
  date : String
  journalId : ℤ
  partnerId : Option ℤ := none
  companyId : ℤ := 1
  currencyId : Option ℤ := none
  amount : ℤ := 0
  currencyRate : ℤ := Money.ONE
  paymentType : PaymentType := .inbound
  partnerType : PartnerType := .customer
  state : PaymentState := .draft
  moveId : Option ℤ := none
  memo : Option String := none
  allocations : List PartialReconcile := []
  deriving DecidableEq

structure Account where
  code : String
  accountType : AccountType
  companyId : ℤ := 1
  active : Bool := true
  deriving DecidableEq

structure Journal where
  code : String
  type : JournalType
  companyId : ℤ := 1
  defaultAccountId : Option ℤ := none
  active : Bool := true
  deriving DecidableEq

/-- A row of `account_tax`; the rate has four decimals. -/
structure Tax where
  name : String
  amount : ℤ
  amountType : AmountType := .percent
  priceInclude : Bool := false
  active : Bool := true
  accountId : Option ℤ := none
  deriving DecidableEq

/-- A row of `account_bank_statement_line`, with the journal of its
statement. -/
structure StatementLine where
  amount : ℤ
  companyId : Option ℤ := none
  journalId : Option ℤ := none
  partnerId : Option ℤ := none
  isReconciled : Bool := false
  reconciledMoveId : Option ℤ := none
  deriving DecidableEq

/-- A row of `account_asset_depreciation_line`. -/
structure DepreciationLine where
  sequence : ℤ
  depreciationDate : Option String
  amount : ℤ
  remainingValue : ℤ
  depreciatedValue : ℤ
  moveId : Option ℤ := none
  posted : Bool := false
  deriving DecidableEq

/-- A row of `account_asset_type`. -/
structure AssetType where
  accountAssetId : Option ℤ := none
  accountDepreciationId : Option ℤ := none
  accountExpenseId : Option ℤ := none
  journalId : Option ℤ := none
  deriving DecidableEq

/-- A row of `account_asset` with its schedule. -/
structure Asset where
  name : String
  assetTypeId : Option ℤ := none
  value : ℤ
  valueResidual : ℤ
  acquisitionDate : Option String := none
  number : ℤ := 5
  periodMonths : ℤ := 12
  accountAssetId : Option ℤ := none
  accountDepreciationId : Option ℤ := none
  accountExpenseId : Option ℤ := none
  journalId : Option ℤ := none
  state : AssetState := .draft
  companyId : ℤ := 1
  schedule : Table DepreciationLine := .empty

/-- A row of `account_analytic_line`. -/
structure AnalyticLine where
  name : String
  date : String
  amount : ℤ
  accountId : ℤ
  generalAccountId : Option ℤ
  moveLineId : Option ℤ
  companyId : Option ℤ
  deriving DecidableEq

structure AccountDb where
  moves : Table Move := .empty
  nextLineId : ℤ := 1
  payments : Table Payment := .empty
  accounts : Table Account := .empty
  journals : Table Journal := .empty
  taxes : Table Tax := .empty
  statementLines : Table StatementLine := .empty
  assets : Table Asset := .empty
  assetTypes : Table AssetType := .empty
  sequences : Table Sequence := .empty
  analyticLines : Table AnalyticLine := .empty
  params : List (String × String) := []
  accountDigits : ℤ := 2

/-! ### Lines -/

namespace MoveLine

def balance (l : MoveLine) : ℤ := l.debit - l.credit

end MoveLine

/-- Debits less credits over some lines. -/
def linesBalance (ls : List MoveLine) : ℤ := (ls.map MoveLine.balance).sum

@[simp] lemma linesBalance_nil : linesBalance [] = 0 := rfl

@[simp] lemma linesBalance_append (ls ls' : List MoveLine) :
    linesBalance (ls ++ ls') = linesBalance ls + linesBalance ls' := by
  simp [linesBalance]

@[simp] lemma linesBalance_cons (l : MoveLine) (ls : List MoveLine) :
    linesBalance (l :: ls) = l.debit - l.credit + linesBalance ls := by
  simp [linesBalance, MoveLine.balance]

/-- Every debit is matched by a credit. -/
def Move.Balanced (m : Move) : Prop := linesBalance m.lines = 0

/-! ### Lookups -/

namespace AccountDb

/-- The first active account of a type in a company. -/
def accountOfType (db : AccountDb) (type : AccountType) (companyId : ℤ) : Option ℤ :=
  (db.accounts.rows.find? fun r =>
    r.2.accountType == type && r.2.companyId == companyId && r.2.active).map Prod.fst

/-- The account under a code in a company. -/
def accountOfCode (db : AccountDb) (code : String) (companyId : ℤ) : Option ℤ :=
  (db.accounts.rows.find? fun r => r.2.code == code && r.2.companyId == companyId).map Prod.fst

/-- The account cash moves through in a journal: its own, or the first cash
account of the company; 0 where there is neither. -/
def cashAccount (db : AccountDb) (j : Journal) (companyId : ℤ) : ℤ :=
  match j.defaultAccountId with
  | some a => a
  | none => (db.accountOfType .assetCash companyId).getD 0

/-! ### Statements -/

def modifyMove (db : AccountDb) (id : ℤ) (f : Move → Move) : AccountDb :=
  { db with moves := db.moves.modify id f }

def modifyPayment (db : AccountDb) (id : ℤ) (f : Payment → Payment) : AccountDb :=
  { db with payments := db.payments.modify id f }

def insertMove (db : AccountDb) (m : Move) : AccountDb :=
  { db with moves := db.moves.insert m }

def insertPayment (db : AccountDb) (p : Payment) : AccountDb :=
  { db with payments := db.payments.insert p }

def foreignKeyViolation : String := "insert or update violates foreign key constraint"

/-- INSERT INTO account_move_line. -/
def addLine (db : AccountDb) (moveId : ℤ) (l : MoveLine) : Except String AccountDb := do
  require (db.accounts.get? l.accountId).isSome foreignKeyViolation
  return { db.modifyMove moveId fun m => { m with lines := m.lines ++ [{ l with id := db.nextLineId }] }
    with nextLineId := db.nextLineId + 1 }

/-- Some lines added in turn. -/
def addLines (db : AccountDb) (moveId : ℤ) (ls : List MoveLine) : Except String AccountDb :=
  ls.foldlM (fun db l => db.addLine moveId l) db

/-- The code of a journal's own series. -/
def journalSeries (jcode : String) : String := "account.move." ++ jcode

/-- A yearly series for a journal that has none. -/
def ensureJournalSequence (db : AccountDb) (jcode : String) : AccountDb :=
  { db with
    sequences := ensureYearly db.sequences (journalSeries jcode) (jcode ++ "/%(year)s/") }

/-- The next number of a series, taken. -/
def nextNumber (db : AccountDb) (now : Moment) (code : String) :
    Except String (String × AccountDb) := do
  let (name, sequences) ← nextByCode now.clock db.sequences code 0
  return (name, { db with sequences := sequences })

def nextJournalNumber (db : AccountDb) (now : Moment) (jcode : String) :
    Except String (String × AccountDb) :=
  (db.ensureJournalSequence jcode).nextNumber now (journalSeries jcode)

/-- INSERT INTO account_move of a posted journal entry, and its lines. -/
def postEntry (db : AccountDb) (m : Move) (ls : List MoveLine) : Except String AccountDb :=
  (db.insertMove { m with moveType := .entry, state := .posted }).addLines db.moves.nextId ls

/-! ### What the statements leave as it was -/

section Frame

variable (db : AccountDb) (id : ℤ)

@[simp] lemma modifyMove_payments (f : Move → Move) :
    (db.modifyMove id f).payments = db.payments := rfl

@[simp] lemma modifyMove_moves (f : Move → Move) :
    (db.modifyMove id f).moves = db.moves.modify id f := rfl

@[simp] lemma modifyMove_accounts (f : Move → Move) :
    (db.modifyMove id f).accounts = db.accounts := rfl

variable (f : Payment → Payment)

@[simp] lemma modifyPayment_moves : (db.modifyPayment id f).moves = db.moves := rfl

@[simp] lemma modifyPayment_payments :
    (db.modifyPayment id f).payments = db.payments.modify id f := rfl

@[simp] lemma modifyPayment_accounts : (db.modifyPayment id f).accounts = db.accounts := rfl

@[simp] lemma insertMove_moves (m : Move) : (db.insertMove m).moves = db.moves.insert m := rfl

@[simp] lemma insertMove_payments (m : Move) : (db.insertMove m).payments = db.payments := rfl

@[simp] lemma insertPayment_moves (p : Payment) : (db.insertPayment p).moves = db.moves := rfl

@[simp] lemma insertPayment_payments (p : Payment) :
    (db.insertPayment p).payments = db.payments.insert p := rfl

end Frame

/-! ### What the statements do -/

/-- Lines numbered from an identifier on. -/
def numbered : ℤ → List MoveLine → List MoveLine
  | _, [] => []
  | n, l :: ls => { l with id := n } :: numbered (n + 1) ls

/-- A quantity that does not depend on the identifiers of the lines. -/
lemma map_numbered {β : Type*} (f : MoveLine → β) (hf : ∀ l n, f { l with id := n } = f l)
    (n : ℤ) (ls : List MoveLine) : (numbered n ls).map f = ls.map f := by
  induction ls generalizing n with
  | nil => rfl
  | cons l ls ih =>
      show f { l with id := n } :: (numbered (n + 1) ls).map f = f l :: ls.map f
      rw [hf, ih]

variable {ls : List MoveLine}

/-- A condition on lines that does not depend on their identifiers. -/
lemma forall_mem_numbered {p : MoveLine → Prop} (hp : ∀ l n, p l → p { l with id := n }) (n : ℤ)
    (h : ∀ l ∈ ls, p l) : ∀ l ∈ numbered n ls, p l := by
  induction ls generalizing n with
  | nil => exact h
  | cons l ls ih =>
      rw [forall_mem_cons] at h
      exact forall_mem_cons.mpr ⟨hp l n h.1, ih (n + 1) h.2⟩

@[simp] lemma linesBalance_numbered (n : ℤ) (ls : List MoveLine) :
    linesBalance (numbered n ls) = linesBalance ls := by
  rw [linesBalance, map_numbered MoveLine.balance (fun _ _ => rfl)]
  rfl

variable {db db' : AccountDb}

lemma addLine_ok {moveId : ℤ} {l : MoveLine} (h : db.addLine moveId l = .ok db') :
    db' = { db.modifyMove moveId fun m =>
        { m with lines := m.lines ++ [{ l with id := db.nextLineId }] } with
      nextLineId := db.nextLineId + 1 } := by
  obtain ⟨_, -, h⟩ := bind_ok_iff.mp h
  cases h
  rfl

/-- Lines go to the end of their move and change nothing else. -/
lemma addLines_ok {moveId : ℤ} (h : db.addLines moveId ls = .ok db') :
    (∃ moves n, db' = { db with moves := moves, nextLineId := n }) ∧
      ∀ i, db'.moves.get? i = (db.moves.get? i).map fun m =>
        if i = moveId then { m with lines := m.lines ++ numbered db.nextLineId ls } else m := by
  induction ls generalizing db with
  | nil =>
      cases h
      refine ⟨⟨_, _, rfl⟩, ?_⟩
      intro i
      simp [numbered]
  | cons l ls ih =>
      obtain ⟨db₁, h₁, h₂⟩ := bind_ok_iff.mp (by rwa [addLines, foldlM_cons] at h)
      obtain ⟨⟨moves, n, heq⟩, hget⟩ := ih h₂
      rw [addLine_ok h₁] at heq hget
      refine ⟨⟨moves, n, heq⟩, ?_⟩
      intro i
      rw [hget, modifyMove_moves, get?_modify, Option.map_map]
      congr 1
      funext m
      by_cases hi : i = moveId
      · simp [hi, numbered]
      · simp [hi]

/-- A new posted entry with its lines, and nothing else. -/
lemma postEntry_ok {m : Move} (h : db.postEntry m ls = .ok db') :
    (∃ moves n, db' = { db with moves := moves, nextLineId := n }) ∧ ∀ i, db'.moves.get? i =
        if i = db.moves.nextId then
          some { m with
            moveType := .entry, state := .posted, lines := m.lines ++ numbered db.nextLineId ls }
        else db.moves.get? i := by
  obtain ⟨⟨moves, n, heq⟩, hget⟩ := addLines_ok h
  refine ⟨⟨moves, n, heq⟩, ?_⟩
  intro i
  rw [hget, insertMove_moves]
  by_cases hi : i = db.moves.nextId
  · rw [hi, get?_insert_self]
    simp [insertMove]
  · rw [get?_insert_of_ne _ _ hi]
    simp [hi]

lemma nextNumber_ok {now : Moment} {code name : String}
    (h : db.nextNumber now code = .ok (name, db')) :
    ∃ sequences, nextByCode now.clock db.sequences code 0 = .ok (name, sequences) ∧
      db' = { db with sequences := sequences } := by
  obtain ⟨⟨name', sequences⟩, hnext, h⟩ := bind_ok_iff.mp h
  cases h
  exact ⟨sequences, hnext, rfl⟩

lemma nextJournalNumber_rest {now : Moment} {jcode name : String}
    (h : db.nextJournalNumber now jcode = .ok (name, db')) :
    ∃ sequences, db' = { db with sequences := sequences } := by
  obtain ⟨sequences, -, rfl⟩ := nextNumber_ok h
  exact ⟨sequences, rfl⟩

end AccountDb

end CErp
