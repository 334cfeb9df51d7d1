/-
The financial statements: trial balance, profit and loss, balance sheet and
general ledger, as four queries over the lines of posted moves.

Each query reads the two tables through `aml` and `am`, which keep the rows of
one company where the report has one, and cuts by the date of the line.
Amounts are micro-units, a date is the number of its day; the text of a cell is
left out, as is the text a line of the general ledger is labelled with.
-/
import CErp.AccountDb
import CErp.DatedEntries

namespace CErp

namespace FinancialReports

open DatedEntries

/-! ### Rows -/

/-- A row of `account_account`. -/
structure ChartAccount where
  code : String
  name : String
  accountType : String
deriving DecidableEq

/-- A row of `account_move`. -/
structure JournalEntry where
  companyId : ℤ
  state : MoveState
deriving DecidableEq

/-- A row of `account_move_line`. -/
structure JournalItem where
  moveId : ℤ
  accountId : ℤ
  companyId : Option ℤ
  date : Option ℤ
  debit : ℤ
  credit : ℤ
deriving DecidableEq

/-- A line with its id. -/
abbrev Item := ℤ × JournalItem

def Item.date (r : Item) : Option ℤ := r.2.date

/-- `l.debit - l.credit`. -/
def Item.amount (r : Item) : ℤ := r.2.debit - r.2.credit

/-- The tables; the foreign keys of a line name an account and a move. -/
structure Ledger where
  accounts : Table ChartAccount
  moves : Table JournalEntry
  lines : Table JournalItem
  account_there : ∀ r ∈ lines.rows, r.2.accountId ∈ accounts.rows.map Prod.fst
  move_there : ∀ r ∈ lines.rows, r.2.moveId ∈ moves.rows.map Prod.fst

variable (b : Ledger) (companyId : ℤ)

/-- `companyId <= 0` means no scoping. -/
def inCompany (c : Option ℤ) : Bool := decide (companyId ≤ 0) || c == some companyId

/-- The lines the report reads. -/
def aml : List Item := b.lines.rows.filter fun r => inCompany companyId r.2.companyId

/-- The moves the report reads. -/
def am (id : ℤ) : Option JournalEntry :=
  (b.moves.get? id).filter fun m => inCompany companyId (some m.companyId)

/-- The join with the posted moves. -/
def isPosted (id : ℤ) : Bool := (am b companyId id).any (·.state == .posted)

/-- The lines of an account that a query adds up. -/
def linesOf (p : Item → Bool) (accountId : ℤ) : List Item :=
  ((aml b companyId).filter fun r => isPosted b companyId r.2.moveId && p r).filter
    fun r => r.2.accountId = accountId

def debits (l : List Item) : ℤ := total (fun r : Item => r.2.debit) l

def credits (l : List Item) : ℤ := total (fun r : Item => r.2.credit) l

def ChartAccount.label (a : ChartAccount) : String := a.code ++ "  " ++ a.name

/-- `ORDER BY a.code`. -/
def byCode : List (ℤ × ChartAccount) := b.accounts.rows.insertionSort fun x y => x.2.code ≤ y.2.code

/-- `ORDER BY a.account_type, a.code`. -/
def byType : List (ℤ × ChartAccount) :=
  b.accounts.rows.insertionSort fun x y => x.2.accountType < y.2.accountType ∨
    (x.2.accountType = y.2.accountType ∧ x.2.code ≤ y.2.code)

/-! ### Trial balance -/

structure TrialLine where
  accountId : ℤ
  label : String
  debit : ℤ
  credit : ℤ
deriving DecidableEq

structure TrialBalance where
  lines : List TrialLine
  debit : ℤ
  credit : ℤ
deriving DecidableEq

/-- An account with its sums, unless both are zero. -/
def trialLine? (date_to : ℤ) (a : ℤ × ChartAccount) : Option TrialLine :=
  let l := linesOf b companyId (upTo Item.date (some date_to)) a.1
  if debits l ≠ 0 ∨ credits l ≠ 0 then some ⟨a.1, a.2.label, debits l, credits l⟩ else none

def trialBalance (date_to : ℤ) : TrialBalance :=
  let lines := (byCode b).filterMap (trialLine? b companyId date_to)
  ⟨lines, lines.foldl (fun td x => td + x.debit) 0, lines.foldl (fun tc x => tc + x.credit) 0⟩

/-! ### Profit and loss -/

/-- The types the query asks for. -/
def profitTypes : List String :=
  ["income", "income_other", "expense", "expense_depreciation", "expense_direct_cost"]

structure ProfitLoss where
  income : ℤ := 0
  expense : ℤ := 0
  incRows : List (String × ℤ) := []
  expRows : List (String × ℤ) := []
deriving DecidableEq

/-- One row of the query; `bal` is credit less debit. -/
def ProfitLoss.add (s : ProfitLoss) (a : ChartAccount) (bal : ℤ) : ProfitLoss :=
  if a.accountType = "income" ∨ a.accountType = "income_other" then
    { s with income := s.income + bal, incRows := s.incRows ++ [(a.label, bal)] }
  else { s with expense := s.expense + -bal, expRows := s.expRows ++ [(a.label, -bal)] }

def between (date_from date_to : ℤ) (r : Item) : Bool :=
  since Item.date (some date_from) r && upTo Item.date (some date_to) r

/-- The rows of a query that joins accounts with their lines: accounts without
any have none. -/
def joined (p : Item → Bool) (accounts : List (ℤ × ChartAccount)) :
    List (ChartAccount × List Item) :=
  (accounts.map fun a => (a.2, linesOf b companyId p a.1)).filter fun x => x.2 ≠ []

def profitLoss (date_from date_to : ℤ) : ProfitLoss :=
  (joined b companyId (between date_from date_to)
    ((byType b).filter fun a => a.2.accountType ∈ profitTypes)).foldl
      (fun s x => s.add x.1 (credits x.2 - debits x.2)) {}

def ProfitLoss.netProfit (s : ProfitLoss) : ℤ := s.income - s.expense

/-! ### Balance sheet -/

structure BalanceSheet where
  assets : ℤ := 0
  liab : ℤ := 0
  equity : ℤ := 0
  earnings : ℤ := 0
  assetRows : List (String × ℤ) := []
  liabRows : List (String × ℤ) := []
  eqRows : List (String × ℤ) := []
deriving DecidableEq

/-- One row of the query, by the start of its type. -/
def BalanceSheet.add (s : BalanceSheet) (a : ChartAccount) (dr cr : ℤ) : BalanceSheet :=
  if Text.hasPrefix "asset" a.accountType then
    { s with assets := s.assets + dr, assetRows := s.assetRows ++ [(a.label, dr)] }
  else if Text.hasPrefix "liability" a.accountType then
    { s with liab := s.liab + cr, liabRows := s.liabRows ++ [(a.label, cr)] }
  else if Text.hasPrefix "equity" a.accountType then
    { s with equity := s.equity + cr, eqRows := s.eqRows ++ [(a.label, cr)] }
  else if Text.hasPrefix "income" a.accountType ∨ Text.hasPrefix "expense" a.accountType then
    { s with earnings := s.earnings + cr }
  else s

def balanceSheet (date_to : ℤ) : BalanceSheet :=
  (joined b companyId (upTo Item.date (some date_to)) (byType b)).foldl
    (fun s x => s.add x.1 (debits x.2 - credits x.2) (credits x.2 - debits x.2)) {}

def BalanceSheet.totalAssets (s : BalanceSheet) : ℤ := s.assets

def BalanceSheet.currentYearEarnings (s : BalanceSheet) : ℤ := s.earnings

def BalanceSheet.totalLiabilitiesEquity (s : BalanceSheet) : ℤ := s.liab + s.equity + s.earnings

/-! ### General ledger -/

/-- What an account has in the general ledger: its lines with the balance after
each. -/
structure LedgerAccount where
  accountId : ℤ
  label : String
  opening : ℤ
  lines : List (Item × ℤ)
  closing : ℤ
deriving DecidableEq

/-- A date, none after all others, and the id: `ORDER BY l.date, l.id`. -/
def Item.key (r : Item) : WithTop ℤ ×ₗ ℤ :=
  toLex (match r.2.date with | none => ⊤ | some d => (d : WithTop ℤ), r.1)

def ledgerAccount? (date_from date_to : ℤ) (a : ℤ × ChartAccount) : Option LedgerAccount :=
  let opening := total Item.amount (linesOf b companyId (before Item.date (some date_from)) a.1)
  let lns := (linesOf b companyId (between date_from date_to) a.1).insertionSort
    fun r s => r.key ≤ s.key
  if lns = [] ∧ opening = 0 then none
  else some ⟨a.1, a.2.label, opening, runningFrom Item.amount opening lns,
    lns.foldl (fun bal x => bal + Item.amount x) opening⟩

def generalLedger (date_from date_to : ℤ) : List LedgerAccount :=
  ((byCode b).filter fun a => linesOf b companyId (upTo Item.date (some date_to)) a.1 ≠ []).filterMap
    (ledgerAccount? b companyId date_from date_to)

end FinancialReports

end CErp
