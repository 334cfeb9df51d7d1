/-
What is left on a partner's account once a document is paid in full.

A document has its counterparty on one account, on the side opposite its product
lines; the entry of a payment has the other leg of the cash there.  Which side
that is the payment decides by the family of the document alone: a receipt is a
credit, also for a credit note, whose counterparty is a credit already.
`paid_in_full_iff` says when the two come to nothing;
`credit_note_paid_in_full` is a refund, where they add up.
-/
import CErp.Balanced
import CErp.Reversal

namespace CErp

open Outcome AccountDb Option Table

namespace AccountMove

open PaymentAllocation

/-! ### The two sides -/

/-- The kind of account a document has its counterparty on. -/
def counterpartyType (moveType : MoveType) : AccountType :=
  if moveType.isOut then .assetReceivable else .liabilityPayable

/-- One line is the counterparty's: it has the total, on the side opposite the
product lines, and no other line is on its account. -/
def CounterpartyOn (m : Move) (account : ℤ) : Prop :=
  ∃ before l after, m.lines = before ++ l :: after ∧ l.accountId = account ∧
    (∀ l' ∈ before ++ after, l'.accountId ≠ account) ∧
    l.debit = (if m.moveType.productLinesAreCredit then m.amountTotal else 0) ∧
    l.credit = (if m.moveType.productLinesAreCredit then 0 else m.amountTotal)

/-- What a move comes to on one account. -/
def netOf (db : AccountDb) (account id : ℤ) : ℤ :=
  ((db.moves.get? id).map fun m => netOn account m.lines).getD 0

@[simp] lemma netOn_nil (account : ℤ) : netOn account [] = 0 := rfl

@[simp] lemma netOn_cons (account : ℤ) (l : MoveLine) (ls : List MoveLine) :
    netOn account (l :: ls) =
      (if l.accountId = account then l.debit - l.credit else 0) + netOn account ls := by
  simp [netOn]

@[simp] lemma netOn_append (account : ℤ) (ls ls' : List MoveLine) :
    netOn account (ls ++ ls') = netOn account ls + netOn account ls' := by
  simp [netOn]

variable {account : ℤ}

lemma netOn_eq_zero {ls : List MoveLine} (h : ∀ l ∈ ls, l.accountId ≠ account) :
    netOn account ls = 0 := by
  induction ls with
  | nil => rfl
  | cons l ls ih =>
      rw [List.forall_mem_cons] at h
      rw [netOn_cons, if_neg h.1, ih h.2, add_zero]

variable {m : Move}

/-- The document is on the side its counterparty line is on. -/
lemma netOn_counterparty (h : CounterpartyOn m account) : netOn account m.lines =
      if m.moveType.productLinesAreCredit then m.amountTotal else -m.amountTotal := by
  obtain ⟨before, l, after, hlines, haccount, hothers, hdebit, hcredit⟩ := h
  have hbefore := netOn_eq_zero fun l' hl' => hothers l' (List.mem_append_left _ hl')
  have hafter := netOn_eq_zero fun l' hl' => hothers l' (List.mem_append_right _ hl')
  rw [hlines, netOn_append, netOn_cons, if_pos haccount, hbefore, hafter, hdebit, hcredit]
  split
  · omega
  · omega

section Register

variable {D : Type} [JsonDouble D]

open JsonDouble

/-- The entry of a payment that realises no FX: a credit on the partner's
account for a receipt, a debit for a payment. -/
lemma netOn_registration (r : Registration) (db : AccountDb) (m : Move) (received n : ℤ) :
    netOn r.partnerAcc (numbered n (r.lines db m received 0)) =
      if r.cashAcc = r.partnerAcc then 0
      else if m.moveType.isOut then -r.amount else r.amount := by
  rw [netOn, map_numbered _ (fun _ _ => rfl)]
  show netOn r.partnerAcc (r.lines db m received 0) = _
  have hmap : ∀ ls : List MoveLine, netOn r.partnerAcc (ls.map fun l =>
      { l with companyId := some m.companyId, name := r.memo, partnerId := m.partnerId }) =
      netOn r.partnerAcc ls := by
    intro ls
    rw [netOn, List.map_map]
    rfl
  rw [Registration.lines, hmap]
  by_cases hsame : r.cashAcc = r.partnerAcc
  · cases m.moveType.isOut
    · simp [settlementLines, hsame]
    · simp [settlementLines, hsame]
  · cases m.moveType.isOut
    · simp [settlementLines, hsame]
    · simp [settlementLines, hsame]

variable {args : PaymentArgs D} {db : AccountDb}

/-- The accounts a payment moves between. -/
lemma registration_accounts {now : Moment} {r : Registration}
    (h : registration now db args m = .ok r) :
    ∃ journalId j, paymentJournal db args.journalId m.companyId = .ok journalId ∧
      db.journals.get? journalId = some j ∧ r.cashAcc = db.cashAccount j m.companyId ∧
      r.partnerAcc = (db.accountOfType (counterpartyType m.moveType) m.companyId).getD r.cashAcc := by
  obtain ⟨_, -, h⟩ := bind_ok_iff.mp h
  obtain ⟨_, -, h⟩ := bind_ok_iff.mp h
  obtain ⟨journalId, hjournal, h⟩ := bind_ok_iff.mp h
  rcases ej : db.journals.get? journalId with - | j
  · rw [ej] at h
    cases h
  rw [ej] at h
  obtain ⟨amount, -, h⟩ := bind_ok_iff.mp h
  obtain ⟨date, -, h⟩ := bind_ok_iff.mp h
  cases h
  exact ⟨journalId, j, hjournal, ej, rfl, rfl⟩

/-- Paid in the currency it was booked in, a document realises no FX. -/
lemma not_realisesFx {id amount : ℤ} (hrate : m.currencyRate = Money.ONE) :
    ¬ RealisesFx db id m amount { micros := 0 } := by
  rintro ⟨-, -, -, rate, s, hfresh, hs, hfx⟩
  have hone : Money.ONE = rate := by
    unfold freshRate at hfresh
    rw [if_neg (fun h => h.1 rfl)] at hfresh
    exact Except.ok.inj hfresh
  obtain ⟨-, -, hzero⟩ := slice_some hs
  exact hfx (hzero (hrate.trans hone))

/-! ### When nothing is left -/

/-- The payment's cash is on the account of the counterparty. -/
def CashOn (args : PaymentArgs D) (db : AccountDb) (m : Move) (account : ℤ) : Prop :=
  ∃ journalId j, paymentJournal db args.journalId m.companyId = .ok journalId ∧
    db.journals.get? journalId = some j ∧ db.cashAccount j m.companyId = account

/-- Cash is on another account, and the document is an invoice or a bill that owes
all of its total, or a refund that owes the total the other way round; or there
is no total to pay. -/
def ClearsLedger (args : PaymentArgs D) (db : AccountDb) (m : Move) (account residual : ℤ) : Prop :=
  (CashOn args db m account → m.amountTotal = 0) ∧ (¬ CashOn args db m account →
      residual = if m.moveType = .outInvoice ∨ m.moveType = .inInvoice then m.amountTotal
        else -m.amountTotal)

/-- What a document and a payment of its residual come to. -/
lemma net_paid {residual : ℤ} (hdoc : m.moveType.isInvoice = true) :
    (if m.moveType.productLinesAreCredit then m.amountTotal else -m.amountTotal) +
        (if m.moveType.isOut then -residual else residual) = 0 ↔
      residual = if m.moveType = .outInvoice ∨ m.moveType = .inInvoice then m.amountTotal
        else -m.amountTotal := by
  rcases e : m.moveType with - | - | - | - | - | -
  · rw [e] at hdoc
    cases hdoc
  · simp [MoveType.productLinesAreCredit, MoveType.isOut]
    omega
  · simp [MoveType.productLinesAreCredit, MoveType.isOut]
    omega
  · simp [MoveType.productLinesAreCredit, MoveType.isOut]
    omega
  · simp [MoveType.productLinesAreCredit, MoveType.isOut]
    omega
  · rw [e] at hdoc
    cases hdoc

/-- A payment of the residual of a posted document, in its currency. -/
lemma registerPaymentOne_clears_iff {now : Moment} {db' : AccountDb} {id : ℤ} {full : Money}
    (hget : db.moves.get? id = some m) (hdoc : m.moveType.isInvoice = true)
    (haccount : db.accountOfType (counterpartyType m.moveType) m.companyId = some account)
    (hcounter : CounterpartyOn m account) (hrate : m.currencyRate = Money.ONE)
    (hreceived : args.amountReceivedBase = none)
    (hasked : fromJson (payAmount args (toJson { micros := m.amountResidual })) = .ok full)
    (hfull : full.micros = m.amountResidual) (h : registerPaymentOne now args db id = .ok db') :
    ∃ p entry, db'.payments.get? db.payments.nextId = some p ∧ p.moveId = some entry ∧
      (netOf db' account id + netOf db' account entry = 0 ↔
        ClearsLedger args db m account m.amountResidual) := by
  obtain ⟨m', r, name, sequences, received, db₂, out, n, hget', hr, -, hbase, halloc, henters⟩ :=
    registerPaymentOne_enters h
  obtain rfl : m = m' := some.inj (hget.symm.trans hget')
  obtain ⟨m', r', name', rows, -, hget'', hr', -, hpay, -, -⟩ := registerPaymentOne_effect h
  obtain rfl : m = m' := some.inj (hget.symm.trans hget'')
  obtain rfl : r = r' := Except.ok.inj (hr.symm.trans hr')
  refine ⟨_, db.moves.nextId, by rw [hpay, if_pos rfl], rfl, ?_⟩
  -- the document is as it was, and the entry has its two legs
  have hnet : ∀ {i : ℤ} {d : Move}, db'.document i = some d.document →
      netOf db' account i = netOn account d.lines := by
    intro i d hd
    obtain ⟨e, he, heq⟩ := document_eq_some hd
    have hlines := congrArg Move.lines heq
    rw [netOf, he]
    show netOn account e.lines = _
    rw [show e.lines = d.lines from hlines]
  have hold : netOf db' account id = netOn account m.lines := by
    apply hnet
    rw [henters id, if_neg (lt_nextId_of_get? hget).ne]
    exact document_of_get? hget
  have hentry : netOf db' account db.moves.nextId = netOn account (numbered n
      (r.lines db₂ m received.micros out.totalFxDiff.micros)) := by
    apply hnet (d := r.posted m name _)
    rw [henters, if_pos rfl]
  have hzero : received = { micros := 0 } := by
    unfold receivedBase at hbase
    rw [hreceived] at hbase
    exact (Except.ok.inj hbase).symm
  have hfx : out.totalFxDiff.micros = 0 := by
    apply (fx_registration_iff hget hr halloc).mpr
    rw [hzero]
    exact not_realisesFx hrate
  obtain ⟨-, amount, hamount, hmicros⟩ := registration_amount hr
  have hpaid : r.amount = m.amountResidual := by
    rw [hasked] at hamount
    cases hamount
    rw [← hmicros, hfull]
  obtain ⟨journalId, j, hjournal, hj, hcash, hpartner⟩ := registration_accounts hr
  have hsame : r.partnerAcc = account := by
    rw [hpartner, haccount]
    rfl
  have hcashOn : CashOn args db m account ↔ r.cashAcc = account := by
    constructor
    · rintro ⟨journalId', j', hjournal', hj', hcash'⟩
      obtain rfl : journalId = journalId' := Except.ok.inj (hjournal.symm.trans hjournal')
      obtain rfl : j = j' := some.inj (hj.symm.trans hj')
      exact hcash.trans hcash'
    · intro heq
      exact ⟨journalId, j, hjournal, hj, hcash.symm.trans heq⟩
  have hlegs := netOn_registration r db₂ m received.micros n
  rw [hsame, hpaid] at hlegs
  rw [hold, hentry, hfx, netOn_counterparty hcounter, hlegs, ClearsLedger, hcashOn, ← net_paid hdoc]
  by_cases hon : r.cashAcc = account
  · rw [if_pos hon, add_zero]
    simp only [hon, true_implies, not_true_eq_false, false_implies, and_true]
    split
    · exact Iff.rfl
    · exact neg_eq_zero
  · rw [if_neg hon]
    simp [hon]

/-! ### Posted and paid -/

omit [JsonDouble D] in
/-- Journals and accounts are all that the cash of a payment depends on. -/
lemma cashOn_congr {db' : AccountDb} {m' : Move} (hset : db'.settings = db.settings)
    (hcompany : m'.companyId = m.companyId) :
    CashOn args db' m' account ↔ CashOn args db m account := by
  have haccounts : db'.accounts = db.accounts := congrArg (fun x => x.2.1) hset
  have hjournals : db'.journals = db.journals := congrArg (fun x => x.2.2.1) hset
  unfold CashOn paymentJournal cashAccount accountOfType
  rw [haccounts, hjournals, hcompany]

/-- **Paid in full.**  A document is posted and paid what it then owes, in its
currency: the two come to nothing on its partner's account exactly when the
document is an invoice or a bill that owes all of its total, or a refund that
owes it the other way round, and the cash is on another account; or when there
was nothing to pay. -/
theorem paid_in_full_iff (now now' : Moment) (args : PaymentArgs D) (db db₁ db₂ : AccountDb)
    (id account : ℤ) (m m₁ : Move) (full : Money) (hget : db.moves.get? id = some m)
    (hdoc : m.moveType.isInvoice = true)
    (haccount : db.accountOfType (counterpartyType m.moveType) m.companyId = some account)
    (hcounter : CounterpartyOn m account) (hrate : m.currencyRate = Money.ONE)
    (hreceived : args.amountReceivedBase = none) (hpost : actionPost now db [id] = .ok db₁)
    (hposted : db₁.moves.get? id = some m₁)
    (hasked : fromJson (payAmount args (toJson { micros := m₁.amountResidual })) = .ok full)
    (hfull : full.micros = m₁.amountResidual)
    (hpay : registerPayment now' args db₁ [id] = .ok db₂) :
    ∃ p entry, db₂.payments.get? db₁.payments.nextId = some p ∧ p.moveId = some entry ∧
      (netOf db₂ account id + netOf db₂ account entry = 0 ↔
        ClearsLedger args db m account m₁.amountResidual) := by
  obtain ⟨db', hone, hrest⟩ := Runs.foldlM_cons_ok.mp hpost
  cases hrest
  obtain ⟨db', honepay, hrest⟩ := Runs.foldlM_cons_ok.mp hpay
  cases hrest
  -- posting changes the name and the state of the document, and no setting
  obtain ⟨m', name, hget', -, -, -, hdocument⟩ := actionPostOne_document hone
  obtain rfl : m = m' := some.inj (hget.symm.trans hget')
  have hset := actionPostOne_settings hone
  have hsame := hdocument id
  rw [if_pos rfl, document_of_get? hposted] at hsame
  have hsame := some.inj hsame
  have htype : m₁.moveType = m.moveType := congrArg (fun d => d.moveType) hsame
  have hcompany : m₁.companyId = m.companyId := congrArg (fun d => d.companyId) hsame
  have htotal : m₁.amountTotal = m.amountTotal := congrArg (fun d => d.amountTotal) hsame
  have hlines : m₁.lines = m.lines := congrArg (fun d => d.lines) hsame
  have hbooked : m₁.currencyRate = m.currencyRate := congrArg (fun d => d.currencyRate) hsame
  have haccounts : db₁.accounts = db.accounts := congrArg (fun x => x.2.1) hset
  have hcounter₁ : CounterpartyOn m₁ account := by
    unfold CounterpartyOn
    rw [htype, htotal, hlines]
    exact hcounter
  have haccount₁ : db₁.accountOfType (counterpartyType m₁.moveType) m₁.companyId =
      some account := by
    unfold accountOfType
    rw [haccounts, htype, hcompany]
    exact haccount
  have hclears : ClearsLedger args db₁ m₁ account m₁.amountResidual ↔
      ClearsLedger args db m account m₁.amountResidual := by
    unfold ClearsLedger
    rw [cashOn_congr hset hcompany, htype, htotal]
  rw [← hclears]
  exact registerPaymentOne_clears_iff hposted (htype ▸ hdoc) haccount₁ hcounter₁
    (hbooked.trans hrate) hreceived hasked hfull honepay

end Register

/-! ### A refund -/

/-- A document of 60.00 with its two lines. -/
def sixtyDue (type : MoveType) : Move where
  moveType := type
  date := "2026-02-10"
  journalId := 1
  partnerId := some 7
  amountTotal := 60000000
  amountResidual := 60000000
  lines :=
    let side (onCredit : Bool) (accountId : ℤ) : MoveLine :=
      { accountId := accountId
        debit := if onCredit then 0 else 60000000
        credit := if onCredit then 60000000 else 0 }
    [side (!type.productLinesAreCredit) 2, side type.productLinesAreCredit 3]

/-- The books of a shop, with one draft. -/
def shopBooks (type : MoveType) : AccountDb where
  accounts := ((empty.insert { code := "1100", accountType := .assetCash }).insert
    { code := "1200", accountType := .assetReceivable }).insert
      { code := "4000", accountType := .other }
  journals := (empty.insert { code := "INV", type := .sale }).insert
    { code := "BNK", type := .bank, defaultAccountId := some 1 }
  sequences := (empty.insert { code := "account.move.INV", pre := "INV", padding := 6 }).insert
    { code := "account.move.RINV", pre := "RINV", padding := 6 }
  moves := empty.insert (sixtyDue type)

lemma sixtyDue_counterparty (type : MoveType) : CounterpartyOn (sixtyDue type) 2 := by
  refine ⟨[], _, _, rfl, rfl, ?_, ?_, ?_⟩
  · intro l hl
    rw [List.mem_singleton.mp hl]
    show (3 : ℤ) ≠ 2
    decide
  · cases type <;> rfl
  · cases type <;> rfl

/-- The draft can be posted, and the 60.00 paid. -/
lemma shopBooks_paid {type : MoveType} (htype : type = .outInvoice ∨ type = .outRefund) :
    ∃ db₁ m₁ db₂, actionPost february (shopBooks type) [1] = .ok db₁ ∧
      db₁.moves.get? 1 = some m₁ ∧ m₁.amountResidual = 60000000 ∧
      @registerPayment ℤ JsonDouble.wholeMicros february {} db₁ [1] = .ok db₂ := by
  have hrun : ((actionPost february (shopBooks type) [1]).toOption.any fun db₁ =>
      (db₁.moves.get? 1).any (fun m₁ => m₁.amountResidual == 60000000) &&
        (@registerPayment ℤ JsonDouble.wholeMicros february {} db₁ [1]).toOption.isSome) = true := by
    rcases htype with rfl | rfl
    · decide
    · decide
  obtain ⟨db₁, hpost, hboth⟩ := (any_eq_true _ _).mp hrun
  rw [Bool.and_eq_true] at hboth
  obtain ⟨hdue, hpay⟩ := hboth
  obtain ⟨m₁, hm₁, hresidual⟩ := (any_eq_true _ _).mp hdue
  obtain ⟨db₂, hpay⟩ := isSome_iff_exists.mp hpay
  exact ⟨db₁, m₁, db₂, toOption_eq_some_iff.mp hpost, hm₁, beq_iff_eq.mp hresidual,
    toOption_eq_some_iff.mp hpay⟩

/-- The cash of the shop is on the account of its bank. -/
lemma shopBooks_cash (type : MoveType) :
    ¬ CashOn ({} : PaymentArgs ℤ) (shopBooks type) (sixtyDue type) 2 := by
  rintro ⟨journalId, j, hjournal, hj, hcash⟩
  obtain rfl : (2 : ℤ) = journalId := Except.ok.inj hjournal
  cases hj
  have hcash : (1 : ℤ) = 2 := hcash
  exact absurd hcash (by decide)

/-- An invoice of 60.00 is paid, and nothing is left. -/
theorem paid_in_full_iff_invoice : let _ := JsonDouble.wholeMicros
    ∃ (db₁ db₂ : AccountDb) (p : Payment) (entry : ℤ),
      actionPost february (shopBooks .outInvoice) [1] = .ok db₁ ∧
      registerPayment february ({} : PaymentArgs ℤ) db₁ [1] = .ok db₂ ∧
      db₂.payments.get? db₁.payments.nextId = some p ∧ p.moveId = some entry ∧
      netOf db₂ 2 1 + netOf db₂ 2 entry = 0 := by
  intro _
  obtain ⟨db₁, m₁, db₂, hpost, hm₁, hresidual, hpay⟩ := shopBooks_paid (.inl rfl)
  obtain ⟨p, entry, hp, hentry, hclears⟩ := paid_in_full_iff february february
    ({} : PaymentArgs ℤ) (shopBooks .outInvoice) db₁ db₂ 1 2 (sixtyDue .outInvoice) m₁
    { micros := 60000000 } rfl rfl rfl (sixtyDue_counterparty .outInvoice) rfl rfl hpost hm₁
    (by rw [hresidual]; rfl) hresidual.symm hpay
  refine ⟨db₁, db₂, p, entry, hpost, hpay, hp, hentry, hclears.mpr ⟨?_, ?_⟩⟩
  · intro hcash
    exact absurd hcash (shopBooks_cash .outInvoice)
  · intro _
    rw [hresidual]
    rfl

/-- A credit note of 60.00 is paid, and 120.00 are left. -/
theorem credit_note_paid_in_full :
    ¬ ∀ (_ : JsonDouble ℤ) (now now' : Moment) (args : PaymentArgs ℤ) (db db₁ db₂ : AccountDb)
      (id account : ℤ) (m m₁ : Move) (full : Money), db.moves.get? id = some m →
      m.moveType.isInvoice = true →
      db.accountOfType (counterpartyType m.moveType) m.companyId = some account →
      CounterpartyOn m account → m.currencyRate = Money.ONE → args.amountReceivedBase = none →
      actionPost now db [id] = .ok db₁ → db₁.moves.get? id = some m₁ →
      JsonDouble.fromJson (payAmount args (JsonDouble.toJson { micros := m₁.amountResidual })) =
        .ok full → full.micros = m₁.amountResidual →
      registerPayment now' args db₁ [id] = .ok db₂ →
      ∃ p entry, db₂.payments.get? db₁.payments.nextId = some p ∧ p.moveId = some entry ∧
        netOf db₂ account id + netOf db₂ account entry = 0 := by
  intro h
  let _ := JsonDouble.wholeMicros
  obtain ⟨db₁, m₁, db₂, hpost, hm₁, hresidual, hpay⟩ := shopBooks_paid (.inr rfl)
  obtain ⟨p, entry, hp, hentry, hnone⟩ := h JsonDouble.wholeMicros february february {}
    (shopBooks .outRefund) db₁ db₂ 1 2 (sixtyDue .outRefund) m₁ { micros := 60000000 } rfl rfl rfl
    (sixtyDue_counterparty .outRefund) rfl rfl hpost hm₁ (by rw [hresidual]; rfl) hresidual.symm hpay
  have hleft : ((actionPost february (shopBooks .outRefund) [1]).toOption.all fun db₁ =>
      (@registerPayment ℤ JsonDouble.wholeMicros february {} db₁ [1]).toOption.all fun db₂ =>
        (db₂.payments.get? db₁.payments.nextId).all fun p => p.moveId.all fun entry =>
          netOf db₂ 2 1 + netOf db₂ 2 entry == -120000000) = true := by
    decide
  rw [hpost] at hleft
  simp only [Except.toOption, all_some] at hleft
  rw [hpay] at hleft
  simp only [all_some, hp, hentry, beq_iff_eq] at hleft
  rw [hnone] at hleft
  exact absurd hleft (by decide)

end AccountMove

end CErp
