/-
The operations of `account.move`: posting, cancelling, resetting to draft,
recomputing a document from its product lines, and registering a payment on it.

An operation that runs over several documents takes one after the other in one
transaction; a failure undoes them all.  The allocation of credit when an
invoice is posted is the exception: what goes wrong there is logged, and what
was done before it stays.
-/
import CErp.PaymentAllocation

namespace CErp

open Outcome AccountDb

/-! ### action_post -/

namespace AccountMove

/-- The lock dates on or after a date. -/
def lockValues (params : List (String × String)) (date : String) : List String :=
  (params.filter fun kv =>
    (kv.1 == "account.lock_date" || kv.1 == "account.tax_lock_date") &&
      kv.2 != "" && decide (date ≤ kv.2)).map Prod.snd

/-- The latest of some dates. -/
def latest (v : String) (vs : List String) : String :=
  vs.foldl (fun a b => if a < b then b else a) v

def requireOpenPeriod (params : List (String × String)) (date : String) : Except String Unit :=
  match lockValues params date with
  | [] => .ok ()
  | v :: vs =>
      .error ("This period is locked (entries on or before " ++ latest v vs ++
        " cannot be posted). Change the date or move the lock date.")

/-- The number a move is posted under, and the sequence it is taken from. -/
def takeNumber (db : AccountDb) (now : Moment) (m : Move) : Except String (String × AccountDb) :=
  match m.moveType with
  | .outRefund => db.nextNumber now "account.move.RINV"
  | .outInvoice => db.nextNumber now "account.move.INV"
  | _ =>
      db.nextJournalNumber now (match db.journals.get? m.journalId with
        | none => "MISC"
        | some j => j.code)

/-- The analytic line of a journal item that has an analytic account and no
analytic line yet. -/
def analyticLine (analytic : Table AnalyticLine) (date : String) (l : MoveLine) :
    Option AnalyticLine :=
  match l.analyticAccountId with
  | none => none
  | some a =>
      if analytic.rows.any fun r => r.2.moveLineId == some l.id then none
      else some ⟨if l.name = "" then "/" else l.name, date, l.credit - l.debit, a,
        some l.accountId, some l.id, l.companyId⟩

def recordAnalytic (analytic : Table AnalyticLine) (m : Move) : Table AnalyticLine :=
  (m.lines.filterMap (analyticLine analytic m.date)).foldl Table.insert analytic

/-- The posted payments of a partner that are not used up, by identifier. -/
def unallocatedPayments (db : AccountDb) (partnerId : ℤ) : List ℤ :=
  ((db.payments.rows.filter fun r =>
    r.2.state == .posted && r.2.partnerId == some partnerId &&
      decide (r.2.amount - r.2.allocated > 0)).map Prod.fst).insertionSort (· ≤ ·)

/-- Credit drawn for one invoice, payment after payment, until it owes nothing
or something goes wrong. -/
def drawPayments (id : ℤ) : AccountDb → List ℤ → AccountDb
  | db, [] => db
  | db, p :: ps =>
      match PaymentAllocation.allocate db p { micros := 0 } [id] with
      | (db, .error _) => db
      | (db, .ok _) =>
          if ((db.moves.get? id).map Move.amountResidual).getD 0 ≤ 0 then db
          else drawPayments id db ps

def drawCredit (db : AccountDb) (id : ℤ) (partnerId : Option ℤ) : AccountDb :=
  match partnerId with
  | none => db
  | some partner => drawPayments id db (unallocatedPayments db partner)

def post (name : String) (m : Move) : Move := { m with state := .posted, name := name }

/-- Posting one move. -/
def actionPostOne (now : Moment) (db : AccountDb) (id : ℤ) : Except String AccountDb :=
  match db.moves.get? id with
  | none => .error ("Move not found: " ++ toString id)
  | some m => do
      require (m.state = .draft) "Only draft entries can be posted"
      requireOpenPeriod db.params m.date
      require (m.moveType = .entry → linesBalance m.lines = 0)
        "Journal entry is not balanced (debit ≠ credit)"
      let (name, db) ← takeNumber db now m
      let db := { db.modifyMove id (post name) with
        analyticLines := recordAnalytic db.analyticLines m }
      return if m.moveType = .outInvoice then drawCredit db id m.partnerId else db

/-- `AccountMoveViewModel::handleActionPost`. -/
def actionPost (now : Moment) (db : AccountDb) (ids : List ℤ) : Except String AccountDb :=
  ids.foldlM (actionPostOne now) db

/-! ### button_cancel and button_draft -/

/-- `handleButtonCancel`. -/
def buttonCancel (db : AccountDb) (ids : List ℤ) : AccountDb :=
  { db with
    moves := db.moves.updateWhere (fun id m => ids.contains id && m.state == .posted)
      (fun m => { m with state := .cancel }) }

/-- `handleButtonDraft`. -/
def buttonDraft (db : AccountDb) (ids : List ℤ) : AccountDb :=
  { db with
    moves := db.moves.updateWhere (fun id m => ids.contains id && m.state == .cancel)
      (fun m => { m with state := .draft, name := "/" }) }

/-! ### recompute_totals -/

/-- `loadTaxes`: unknown and inactive taxes are skipped. -/
def loadTaxes (db : AccountDb) (taxIds : List ℤ) : List TaxDef :=
  taxIds.filterMap fun tid =>
    match db.taxes.get? tid with
    | none => none
    | some t =>
        if t.active then
          some ⟨tid, t.name, { micros := t.amount * 100 }, t.amountType, t.priceInclude, tid⟩
        else none

/-- The tax of all lines under one tax. -/
structure TaxTotal where
  taxId : ℤ
  name : String
  amount : Money
  deriving DecidableEq

/-- An amount added to the total of its tax, the totals being in the order of
the taxes. -/
def addTax (c : TaxComponent) : List TaxTotal → Except String (List TaxTotal)
  | [] => do
      let amount ← Money.add { micros := 0 } c.amount
      return [⟨c.taxId, c.name, amount⟩]
  | t :: ts =>
      if c.taxId < t.taxId then do
        let amount ← Money.add { micros := 0 } c.amount
        return ⟨c.taxId, c.name, amount⟩ :: t :: ts
      else if c.taxId = t.taxId then do
        let amount ← t.amount.add c.amount
        return ⟨c.taxId, c.name, amount⟩ :: ts
      else (addTax c ts).map (t :: ·)

/-- The totals by tax and over all taxes. -/
structure TaxTotals where
  byTax : List TaxTotal := []
  grandTotal : Money := { micros := 0 }
  deriving DecidableEq

def addComponent (totals : TaxTotals) (c : TaxComponent) : Except String TaxTotals := do
  let byTax ← addTax c totals.byTax
  let grandTotal ← totals.grandTotal.add c.amount
  return ⟨byTax, grandTotal⟩

/-- A product line: it is no section or note and no generated tax line. -/
def isProductLine (l : MoveLine) : Bool := l.displayType == "" && l.taxLineId.isNone

/-- A line that `recomputeTaxLines_` generates. -/
def isTaxLine (l : MoveLine) : Bool := l.taxLineId.isSome

/-- DELETE of the generated lines; an analytic line of one is kept and loses
the reference. -/
def deleteTaxLines (db : AccountDb) (id : ℤ) : AccountDb :=
  let gone := match db.moves.get? id with
    | none => []
    | some m => (m.lines.filter isTaxLine).map MoveLine.id
  { db.modifyMove id fun m => { m with lines := m.lines.filter fun l => !isTaxLine l } with
    analyticLines := db.analyticLines.updateWhere (fun _ a => a.moveLineId.any gone.contains)
      (fun a => { a with moveLineId := none }) }

section Recompute

variable (D : Type) [JsonDouble D]

/-- The taxes of one product line, added to the totals. -/
def addLineTaxes (db : AccountDb) (dp : ℤ) (totals : TaxTotals) (l : MoveLine) :
    Except String TaxTotals :=
  let taxes := loadTaxes db l.taxIds
  if taxes.isEmpty then .ok totals
  else do
    let price ← JsonDouble.throughJson D { micros := l.priceUnit }
    let quantity ← JsonDouble.throughJson D { micros := l.quantity }
    let res ← TaxEngine.compute price quantity { micros := 0 } taxes dp
    res.components.foldlM addComponent totals

/-- The line of one tax, where there is an account for it. -/
def insertTaxLine (id : ℤ) (m : Move) (db : AccountDb) (t : TaxTotal) : Except String AccountDb :=
  if t.amount.micros = 0 then .ok db
  else
    let account := match db.taxes.get? t.taxId with
      | none => none
      | some tax => tax.accountId
    match account.or (db.accountOfCode "2200" m.companyId) with
    | none => .ok db
    | some acctId =>
        db.addLine id
          { accountId := acctId
            companyId := some m.companyId
            name := t.name
            taxLineId := some t.taxId
            debit := if m.moveType.productLinesAreCredit then 0 else t.amount.micros
            credit := if m.moveType.productLinesAreCredit then t.amount.micros else 0 }

/-- The decimals a document's lines are rounded to. -/
def linePrecision (db : AccountDb) (m : Move) : ℤ :=
  if m.linePrecision.getD 0 > 0 then m.linePrecision.getD 0 else db.accountDigits

/-- The tax of a document's product lines. -/
def taxTotals (db : AccountDb) (m : Move) : Except String TaxTotals :=
  (m.lines.filter isProductLine).foldlM (addLineTaxes D db (linePrecision db m)) {}

/-- `recomputeTaxLines_`. -/
def recomputeTaxLines (db : AccountDb) (id : ℤ) : Except String (AccountDb × ℤ) :=
  let db := deleteTaxLines db id
  match db.moves.get? id with
  | none => .ok (db, 0)
  | some m => do
      let totals ← taxTotals D db m
      let db ← totals.byTax.foldlM (insertTaxLine id m) db
      return (db, totals.grandTotal.micros)

/-- What the product lines on their side add up to. -/
def untaxedAmount (m : Move) : ℤ :=
  let side (l : MoveLine) : ℤ := if m.moveType.productLinesAreCredit then l.credit else l.debit
  ((m.lines.filter fun l => decide (side l > 0) && isProductLine l).map side).sum

/-- The counterparty's side of every line that has one, brought to the total. -/
def matchCounterparty (moveType : MoveType) (total : ℤ) (l : MoveLine) : MoveLine :=
  if moveType.productLinesAreCredit then
    if l.debit > 0 then { l with debit := total } else l
  else if l.credit > 0 then { l with credit := total }
  else l

/-- Recomputing one document. -/
def recomputeOne (db : AccountDb) (id : ℤ) : Except String AccountDb :=
  match db.moves.get? id with
  | none => .ok db
  | some m => do
      let untaxed := untaxedAmount m
      let (db, tax) ← recomputeTaxLines D db id
      let total := untaxed + tax
      return db.modifyMove id fun m' => { m' with
        amountUntaxed := untaxed
        amountTax := tax
        amountTotal := total
        amountResidual := if m.paymentState = .paid then 0 else total
        lines := m'.lines.map (matchCounterparty m.moveType total) }

/-- `handleRecomputeTotals`. -/
def recomputeTotals (db : AccountDb) (ids : List ℤ) : Except String AccountDb :=
  ids.foldlM (recomputeOne D) db

end Recompute

/-! ### action_register_payment -/

/-- The keyword arguments; a text that is not given is empty, an identifier
that is not given is 0. -/
structure PaymentArgs (D : Type) where
  paymentDate : String := ""
  journalId : ℤ := 0
  amount : Option D := none
  memo : String := ""
  amountReceivedBase : Option D := none

section Register

variable {D : Type} [JsonDouble D]

open JsonDouble

/-- What is paid: the amount asked for, at most what the document owes, or all
of that. -/
def payAmount (args : PaymentArgs D) (amountResidual : D) : D :=
  let asked := match args.amount with
    | none => amountResidual
    | some kw =>
        if lt zero kw then (if lt amountResidual kw then amountResidual else kw) else amountResidual
  if le asked zero then amountResidual else asked

/-- The journal asked for, or the first bank or cash journal of the company,
banks first. -/
def paymentJournal (db : AccountDb) (journalId companyId : ℤ) : Except String ℤ :=
  if journalId > 0 then .ok journalId
  else
    let of (type : JournalType) :=
      ((db.journals.rows.filter fun r => r.2.type == type && r.2.companyId == companyId).map
        Prod.fst).insertionSort (· ≤ ·)
    match of .bank ++ of .cash with
    | [] => .error "No bank or cash journal found"
    | id :: _ => .ok id

/-- The legs of the entry of a payment: cash on one side, the partner on the
other.  Where the two differ by realised FX, that goes to its account, if there
is one. -/
def settlementLines (isOut : Bool) (cashAcc partnerAcc : ℤ) (fxAcc : Option ℤ)
    (cash booked : ℤ) : List MoveLine :=
  let legs : List MoveLine :=
    [{ accountId := if isOut then cashAcc else partnerAcc, debit := if isOut then cash else booked },
      { accountId := if isOut then partnerAcc else cashAcc, credit := if isOut then booked else cash }]
  let gap := booked - cash
  let debitSide : Bool := if isOut then decide (gap ≥ 0) else decide (gap < 0)
  match fxAcc with
  | none => legs
  | some acc =>
      legs ++ [{ accountId := acc
                 debit := if debitSide then |gap| else 0
                 credit := if debitSide then 0 else |gap| }]

/-- What a payment on a document comes to before it is written. -/
structure Registration where
  journalId : ℤ
  jcode : String
  cashAcc : ℤ
  partnerAcc : ℤ
  amount : ℤ
  date : String
  memo : String

/-- What is read before the first INSERT, in the order it is read. -/
def registration (now : Moment) (db : AccountDb) (args : PaymentArgs D) (m : Move) :
    Except String Registration := do
  require (m.state = .posted) "Payment can only be registered on posted invoices"
  require (m.paymentState ≠ .paid) "Invoice is already fully paid"
  let journalId ← paymentJournal db args.journalId m.companyId
  match db.journals.get? journalId with
  | none => .error "Journal not found"
  | some j => do
      let cashAcc := db.cashAccount j m.companyId
      let type : AccountType := if m.moveType.isOut then .assetReceivable else .liabilityPayable
      let amount ← fromJson (payAmount args (toJson { micros := m.amountResidual }))
      let date ← now.dateInput (if args.paymentDate = "" then now.localDate else args.paymentDate)
      return ⟨journalId, j.code, cashAcc, (db.accountOfType type m.companyId).getD cashAcc,
        amount.micros, date, if args.memo = "" then m.name else args.memo⟩

/-- The payment row, posted under the number and with the entry it is given. -/
def Registration.payment (r : Registration) (m : Move) (name : String) (moveId : ℤ) : Payment where
  name := name
  date := r.date
  journalId := r.journalId
  partnerId := m.partnerId
  companyId := m.companyId
  currencyId := m.currencyId
  amount := r.amount
  paymentType := if m.moveType.isOut then .inbound else .outbound
  partnerType := if m.moveType.isOut then .customer else .supplier
  state := .posted
  moveId := some moveId
  memo := some r.memo

/-- The entry of the payment, without its lines. -/
def Registration.entry (r : Registration) (m : Move) (name : String) : Move where
  name := name
  moveType := .entry
  state := .posted
  date := r.date
  journalId := r.journalId
  partnerId := m.partnerId
  companyId := m.companyId
  currencyId := m.currencyId

/-- The payment and its entry inserted, before anything is allocated. -/
def Registration.opened (r : Registration) (db : AccountDb) (m : Move) (name : String) :
    AccountDb :=
  (db.insertPayment (r.payment m name db.moves.nextId)).insertMove (r.entry m name)

/-- The lines of the entry, once the realised FX is known. -/
def Registration.lines (r : Registration) (db : AccountDb) (m : Move) (received fx : ℤ) :
    List MoveLine :=
  let cash := if fx ≠ 0 then received else r.amount
  let booked := if fx ≠ 0 then received - fx else r.amount
  let fxAcc := if fx ≠ 0 then db.accountOfCode "7900" m.companyId else none
  (settlementLines m.moveType.isOut r.cashAcc r.partnerAcc fxAcc cash booked).map fun l =>
    { l with companyId := some m.companyId, name := r.memo, partnerId := m.partnerId }

/-- What landed in base currency; zero where nothing is said. -/
def receivedBase (args : PaymentArgs D) : Except String Money :=
  match args.amountReceivedBase with
  | none => .ok { micros := 0 }
  | some d => fromJson d

/-- Registering a payment on one document. -/
def registerPaymentOne (now : Moment) (args : PaymentArgs D) (db : AccountDb) (id : ℤ) :
    Except String AccountDb :=
  match db.moves.get? id with
  | none => .error ("Invoice not found: " ++ toString id)
  | some m => do
      let r ← registration now db args m
      let (name, db) ← db.nextJournalNumber now r.jcode
      let received ← receivedBase args
      match PaymentAllocation.allocate (r.opened db m name) db.payments.nextId received [id] with
      | (_, .error e) => .error e
      | (db', .ok alloc) =>
          db'.addLines db.moves.nextId (r.lines db' m received.micros alloc.totalFxDiff.micros)

/-- `handleActionRegisterPayment`. -/
def registerPayment (now : Moment) (args : PaymentArgs D) (db : AccountDb) (ids : List ℤ) :
    Except String AccountDb :=
  ids.foldlM (registerPaymentOne now args) db

/-! ### What the operations do -/

/-- **What registering a payment does.** -/
theorem registerPaymentOne_ok {now : Moment} {args : PaymentArgs D} {db db' : AccountDb} {id : ℤ}
    (h : registerPaymentOne now args db id = .ok db') :
    ∃ m r name sequences received db₂ alloc,
      db.moves.get? id = some m ∧ registration now db args m = .ok r ∧
      db.nextJournalNumber now r.jcode = .ok (name, { db with sequences := sequences }) ∧
      receivedBase args = .ok received ∧
      PaymentAllocation.allocate (r.opened { db with sequences := sequences } m name)
        db.payments.nextId received [id] = (db₂, .ok alloc) ∧
      db₂.addLines db.moves.nextId (r.lines db₂ m received.micros alloc.totalFxDiff.micros) =
        .ok db' := by
  unfold registerPaymentOne at h
  rcases e : db.moves.get? id with - | m
  · rw [e] at h
    cases h
  · rw [e] at h
    obtain ⟨r, hr, h⟩ := bind_ok_iff.mp h
    obtain ⟨⟨name, db₁⟩, hname, h⟩ := bind_ok_iff.mp h
    obtain ⟨sequences, rfl⟩ := nextJournalNumber_rest hname
    obtain ⟨received, hreceived, h⟩ := bind_ok_iff.mp h
    rcases ea : PaymentAllocation.allocate (r.opened { db with sequences := sequences } m name)
      db.payments.nextId received [id] with ⟨db₂, err | alloc⟩
    · rw [ea] at h
      cases h
    · rw [ea] at h
      exact ⟨m, r, name, sequences, received, db₂, alloc, rfl, hr, hname, hreceived, ea, h⟩

end Register

lemma takeNumber_rest {db db' : AccountDb} {now : Moment} {m : Move} {name : String}
    (h : takeNumber db now m = .ok (name, db')) :
    ∃ sequences, db' = { db with sequences := sequences } := by
  unfold takeNumber at h
  split at h
  · obtain ⟨sequences, -, rfl⟩ := nextNumber_ok h
    exact ⟨sequences, rfl⟩
  · obtain ⟨sequences, -, rfl⟩ := nextNumber_ok h
    exact ⟨sequences, rfl⟩
  · exact nextJournalNumber_rest h

/-- The tables with a move posted, before any credit is drawn. -/
def posted (db : AccountDb) (id : ℤ) (m : Move) (name : String) (sequences : Table Sequence) :
    AccountDb :=
  { db.modifyMove id (post name) with
    sequences := sequences
    analyticLines := recordAnalytic db.analyticLines m }

/-- **What posting a move does.** -/
theorem actionPostOne_ok {now : Moment} {db db' : AccountDb} {id : ℤ}
    (h : actionPostOne now db id = .ok db') :
    ∃ m name sequences,
      db.moves.get? id = some m ∧ m.state = .draft ∧ lockValues db.params m.date = [] ∧
      (m.moveType = .entry → linesBalance m.lines = 0) ∧
      takeNumber db now m = .ok (name, { db with sequences := sequences }) ∧
      db' = if m.moveType = .outInvoice then
          drawCredit (posted db id m name sequences) id m.partnerId
        else posted db id m name sequences := by
  unfold actionPostOne at h
  rcases e : db.moves.get? id with - | m
  · rw [e] at h
    cases h
  · rw [e] at h
    obtain ⟨_, hdraft, h⟩ := bind_ok_iff.mp h
    obtain ⟨_, hlock, h⟩ := bind_ok_iff.mp h
    obtain ⟨_, hbalance, h⟩ := bind_ok_iff.mp h
    obtain ⟨⟨name, db₁⟩, hname, h⟩ := bind_ok_iff.mp h
    obtain ⟨sequences, rfl⟩ := takeNumber_rest hname
    refine ⟨m, name, sequences, rfl, require_ok_iff.mp hdraft, ?_,
      require_ok_iff.mp hbalance, hname, (pure_ok_iff.mp h).symm⟩
    unfold requireOpenPeriod at hlock
    split at hlock
    · assumption
    · cases hlock

end AccountMove

end CErp
