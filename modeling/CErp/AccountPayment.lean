/-
The operations of `account.payment`: posting, which writes the journal entry,
and cancelling, which does not touch it.
-/
import CErp.AccountMove

namespace CErp

open Outcome

namespace AccountPayment

/-- The year of an ISO date. -/
def yearOf (date : String) : String :=
  if date.length ≥ 4 then String.ofList (date.toList.take 4) else "2026"

/-- The posted moves of a journal in a year. -/
def countPosted (db : AccountDb) (journalId : ℤ) (year : String) : ℕ :=
  (db.moves.rows.filter fun r =>
    r.2.journalId == journalId && r.2.state == .posted && yearOf r.2.date == year).length

/-- The name of a payment's entry: one more than the posted moves of its
journal and year. -/
def entryName (db : AccountDb) (jcode : String) (journalId : ℤ) (date : String) : String :=
  jcode ++ "/" ++ yearOf date ++ "/" ++
    IrSequence.padded 4 ((countPosted db journalId (yearOf date) : ℤ) + 1)

/-- The two legs, both of the same amount. -/
def legs (p : Payment) (cashAcc partnerAcc amount : ℤ) : List MoveLine :=
  let line (acc debit credit : ℤ) : MoveLine :=
    { accountId := acc
      companyId := some p.companyId
      name := if p.memo.getD "" = "" then "Payment" else p.memo.getD ""
      partnerId := p.partnerId
      debit := debit
      credit := credit }
  if p.paymentType = .inbound then [line cashAcc amount 0, line partnerAcc 0 amount]
  else [line partnerAcc amount 0, line cashAcc 0 amount]

/-- The entry of a payment, without its lines. -/
def entry (p : Payment) (name : String) : Move where
  name := name
  moveType := .entry
  state := .posted
  date := p.date
  journalId := p.journalId
  partnerId := p.partnerId
  companyId := p.companyId
  currencyId := p.currencyId

/-- The UPDATE that posts a payment. -/
def link (moveId : ℤ) (name : String) (p : Payment) : Payment :=
  { p with state := .posted, moveId := some moveId, name := name }

/-- Posting one payment.  The amount is read as a double and bound as one. -/
def actionPostOne (D : Type) [JsonDouble D] (db : AccountDb) (pid : ℤ) : Except String AccountDb :=
  match db.payments.get? pid with
  | none => .error "Payment not found"
  | some p => do
      require (p.state = .draft) "Only draft payments can be posted"
      match db.journals.get? p.journalId with
      | none => .error "Journal not found"
      | some j => do
          let cashAcc := db.cashAccount j p.companyId
          let type : AccountType :=
            if p.partnerType = .customer then .assetReceivable else .liabilityPayable
          let partnerAcc := (db.accountOfType type p.companyId).getD cashAcc
          let name := entryName db j.code p.journalId p.date
          let moveId := db.moves.nextId
          let amount ← JsonDouble.bindInt (JsonDouble.ofInt p.amount : D)
          let db ← db.postEntry (entry p name) (legs p cashAcc partnerAcc amount)
          return db.modifyPayment pid (link moveId name)

/-- `AccountPaymentViewModel::handleActionPost`. -/
def actionPost (D : Type) [JsonDouble D] (db : AccountDb) (ids : List ℤ) :
    Except String AccountDb :=
  ids.foldlM (actionPostOne D) db

/-- `handleActionCancel`. -/
def actionCancel (db : AccountDb) (ids : List ℤ) : AccountDb :=
  { db with
    payments := db.payments.updateWhere
      (fun id p => ids.contains id && (p.state == .draft || p.state == .posted))
      (fun p => { p with state := .cancelled }) }

/-! ### What posting does -/

lemma actionPostOne_ok {D : Type} [JsonDouble D] {db db' : AccountDb} {pid : ℤ}
    (h : actionPostOne D db pid = .ok db') :
    ∃ p j cashAcc partnerAcc amount db₁, db.payments.get? pid = some p ∧ p.state = .draft ∧
      db.journals.get? p.journalId = some j ∧
      db.postEntry (entry p (entryName db j.code p.journalId p.date))
        (legs p cashAcc partnerAcc amount) = .ok db₁ ∧
      db' = db₁.modifyPayment pid
        (link db.moves.nextId (entryName db j.code p.journalId p.date)) := by
  unfold actionPostOne at h
  rcases e : db.payments.get? pid with - | p
  · rw [e] at h
    cases h
  rw [e] at h
  obtain ⟨_, hdraft, h⟩ := bind_ok_iff.mp h
  rcases ej : db.journals.get? p.journalId with - | j
  · rw [ej] at h
    cases h
  rw [ej] at h
  obtain ⟨amount, -, h⟩ := bind_ok_iff.mp h
  obtain ⟨db₁, hentry, h⟩ := bind_ok_iff.mp h
  cases h
  exact ⟨p, j, _, _, amount, db₁, rfl, require_ok_iff.mp hdraft, ej, hentry, rfl⟩

end AccountPayment

end CErp
