/-
Reconciling a bank statement line with a document: the bank entry is posted and
the document's residual goes down by the amount, without a row of
`account_partial_reconcile`.
-/
import CErp.AccountDb

namespace CErp

open Outcome

namespace BankStatement

/-- What must hold of the document a line is reconciled with. -/
def checkTarget (l : StatementLine) (m : Move) : Except String Unit := do
  require (m.state = .posted) "Reconcile: the invoice is not posted."
  require (m.moveType.isInvoice = true)
    "Reconcile: the target is not a customer/vendor invoice."
  require (0 < m.amountResidual) "Reconcile: the invoice is already fully paid."
  require (¬ (m.companyId > 0 ∧ l.companyId.getD 1 ≠ m.companyId))
    "Reconcile: the invoice belongs to a different company."
  require
    (¬ (l.partnerId.getD 0 > 0 ∧ m.partnerId.getD 0 > 0 ∧ l.partnerId.getD 0 ≠ m.partnerId.getD 0))
    "Reconcile: the invoice partner does not match the statement line."

/-- The account of the bank: the journal's own, or the one under 1100. -/
def bankAccount (db : AccountDb) (journalId companyId : ℤ) : ℤ :=
  ((db.journals.get? journalId).bind Journal.defaultAccountId).getD
    ((db.accountOfCode "1100" companyId).getD 0)

/-- The counterpart: the receivable or payable account of the document's lines,
or the one under 1200. -/
def counterpartAccount (db : AccountDb) (m : Move) (companyId : ℤ) : ℤ :=
  let isPartner (l : MoveLine) : Bool :=
    match db.accounts.get? l.accountId with
    | none => false
    | some a => a.accountType == .assetReceivable || a.accountType == .liabilityPayable
  ((m.lines.find? isPartner).map MoveLine.accountId).getD
    ((db.accountOfCode "1200" companyId).getD 0)

/-- The legs of the bank entry: the bank is debited on an inflow. -/
def legs (bankAcct cpAcct companyId amount : ℤ) : List MoveLine :=
  let line (acc debit credit : ℤ) : MoveLine :=
    { accountId := acc
      companyId := some companyId
      name := "Bank reconciliation"
      debit := debit
      credit := credit }
  [line bankAcct (if amount ≥ 0 then |amount| else 0) (if amount ≥ 0 then 0 else |amount|),
    line cpAcct (if amount ≥ 0 then 0 else |amount|) (if amount ≥ 0 then |amount| else 0)]

/-- The bank entry, without its lines. -/
def entry (now : Moment) (entryId journalId companyId : ℤ) : Move where
  name := "BNK/" ++ toString entryId
  moveType := .entry
  state := .posted
  date := now.currentDate
  journalId := journalId
  companyId := companyId

/-- The document after an amount came in by the bank. -/
def settleByBank (amount : ℤ) (m : Move) : Move :=
  { m with
    amountResidual := max (m.amountResidual - amount) 0
    paymentState := if m.amountResidual - amount ≤ 0 then .paid else .partially }

/-- `handleReconcile`. -/
def reconcile (now : Moment) (db : AccountDb) (lineId moveId : ℤ) : Except String AccountDb := do
  require (0 < lineId ∧ 0 < moveId) "reconcile: line_id and move_id required"
  match db.statementLines.get? lineId with
  | none => .error "statement line not found"
  | some l => do
      require (l.isReconciled = false) "line already reconciled"
      let companyId := l.companyId.getD 1
      match l.journalId with
      | none => .error "conversion of NULL to int"
      | some journalId =>
          match db.moves.get? moveId with
          | none => .error "Reconcile: invoice not found."
          | some m => do
              checkTarget l m
              let bankAcct := bankAccount db journalId companyId
              let cpAcct := counterpartAccount db m companyId
              require (0 < bankAcct ∧ 0 < cpAcct) "bank or counterpart account not configured"
              let entryId := db.moves.nextId
              let db ← db.postEntry (entry now entryId journalId companyId)
                (legs bankAcct cpAcct companyId l.amount)
              let db := db.modifyMove moveId (settleByBank |l.amount|)
              return { db with
                statementLines := db.statementLines.modify lineId fun l =>
                  { l with isReconciled := true, reconciledMoveId := some entryId } }

/-! ### What reconciling does -/

lemma checkTarget_ok {l : StatementLine} {m : Move} {u : Unit} (h : checkTarget l m = .ok u) :
    m.state = .posted ∧ m.moveType.isInvoice = true ∧ 0 < m.amountResidual := by
  obtain ⟨_, hstate, h⟩ := bind_ok_iff.mp h
  obtain ⟨_, htype, h⟩ := bind_ok_iff.mp h
  obtain ⟨_, hresidual, -⟩ := bind_ok_iff.mp h
  exact ⟨require_ok_iff.mp hstate, require_ok_iff.mp htype, require_ok_iff.mp hresidual⟩

lemma reconcile_ok {now : Moment} {db db' : AccountDb} {lineId moveId : ℤ}
    (h : reconcile now db lineId moveId = .ok db') :
    ∃ l m journalId companyId bankAcct cpAcct db₁ statementLines,
      db.statementLines.get? lineId = some l ∧ l.isReconciled = false ∧
      db.moves.get? moveId = some m ∧
      m.state = .posted ∧ m.moveType.isInvoice = true ∧ 0 < m.amountResidual ∧
      db.postEntry (entry now db.moves.nextId journalId companyId)
        (legs bankAcct cpAcct companyId l.amount) = .ok db₁ ∧
      db' = { db₁.modifyMove moveId (settleByBank |l.amount|) with
        statementLines := statementLines } := by
  obtain ⟨_, -, h⟩ := bind_ok_iff.mp h
  rcases el : db.statementLines.get? lineId with - | l
  · rw [el] at h
    cases h
  rw [el] at h
  obtain ⟨_, hopen, h⟩ := bind_ok_iff.mp h
  rcases ej : l.journalId with - | journalId
  · rw [ej] at h
    cases h
  rw [ej] at h
  rcases em : db.moves.get? moveId with - | m
  · rw [em] at h
    cases h
  rw [em] at h
  obtain ⟨_, hcheck, h⟩ := bind_ok_iff.mp h
  obtain ⟨hstate, htype, hresidual⟩ := checkTarget_ok hcheck
  obtain ⟨_, -, h⟩ := bind_ok_iff.mp h
  obtain ⟨db₁, hentry, h⟩ := bind_ok_iff.mp h
  cases h
  exact ⟨l, m, journalId, _, _, _, db₁, _, rfl, require_ok_iff.mp hopen, rfl, hstate, htype,
    hresidual, hentry, rfl⟩

end BankStatement

end CErp
