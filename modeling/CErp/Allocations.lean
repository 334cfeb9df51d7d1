/-
Payments and what they have been allocated for.

A call of `allocate` spends the payment's amount, whatever earlier calls have
spent of it.  It is called again for the same payment each time an invoice of
the partner is posted while some of the payment is unallocated, so a payment
can be allocated for more than it is.  `payments_not_overspent` says which runs
keep every payment within its amount: a call must leave, of the amount it
starts from, at least what is allocated already.
-/
import CErp.RegisterPayment

namespace CErp

open AccountMove PaymentAllocation Runs List Table Allotment

/-- No payment is allocated for more than its amount. -/
def NotOverspent (db : AccountDb) : Prop :=
  ∀ pid p, db.payments.get? pid = some p → p.allocated ≤ p.amount

variable {db : AccountDb}

lemma notOverspent_iff : NotOverspent db ↔ ∀ r ∈ db.payments.rows, r.2.allocated ≤ r.2.amount :=
  forall_get?_iff

/-! ### One call -/

/-- A call draws nothing on the payment, or leaves what is allocated
already. -/
def WithinCredit (moveIds : List ℤ) (db : AccountDb) (paymentId : ℤ) : Prop :=
  ∀ p partnerId, payer db paymentId = some (p, partnerId) →
    let residuals := (openDocuments db p.paymentType partnerId moveIds).map OpenDocument.residual
    allot p.amount residuals = [] ∨ p.allocated ≤ remains p.amount residuals

lemma allocated_append (p : Payment) (job : Job) (ss : List Slice) :
    ({ p with allocations := p.allocations ++ ss.map job.row } : Payment).allocated =
      p.allocated + (ss.map fun s => s.amount.micros).sum := by
  simp only [Payment.allocated, map_append, sum_append, map_map]
  rfl

variable {paymentId : ℤ}

/-- Slices that follow what is drawn, or none, keep a payment within its
amount. -/
lemma applySlices_notOverspent {moveIds : List ℤ} {job : Job} {ss : List Slice}
    (h0 : NotOverspent db) (hok : WithinCredit moveIds db paymentId)
    (hid : job.paymentId = paymentId)
    (hss : ss = [] ∨ (ss.map fun s => (s.moveId, s.amount.micros)) = drawnBy db paymentId moveIds) :
    NotOverspent (applySlices job db ss) := by
  rcases hss with rfl | hall
  · exact h0
  intro j q hq
  rw [applySlices_payments, Option.map_eq_some_iff] at hq
  obtain ⟨p, hp, rfl⟩ := hq
  by_cases hj : j = job.paymentId
  · rw [if_pos hj, allocated_append]
    show _ ≤ p.amount
    rw [hj, hid] at hp
    have hbudget := h0 paymentId p hp
    rcases e : payer db paymentId with - | ⟨p', partnerId⟩
    · -- nothing is drawn on the payment
      have hnil : ss = [] := by
        rw [drawnBy, e] at hall
        exact map_eq_nil_iff.mp hall
      rw [hnil]
      simpa using hbudget
    · obtain ⟨hp', -⟩ := payer_eq_some_iff.mp e
      rw [hp] at hp'
      cases hp'
      have hsum : (ss.map fun s => s.amount.micros) = allot p.amount
          ((openDocuments db p.paymentType partnerId moveIds).map OpenDocument.residual) := by
        rw [← drawn_amounts, show drawn _ _ = drawnBy db paymentId moveIds by rw [drawnBy, e], ← hall,
          map_map]
        rfl
      rw [hsum, spent_le_iff hbudget]
      exact hok p partnerId e
  · rw [if_neg hj]
    exact h0 j p hp

variable {db' : AccountDb}

lemma allocate_notOverspent {receivedBase : Money} {moveIds : List ℤ} {out : AllocationResult}
    (h0 : NotOverspent db) (hok : WithinCredit moveIds db paymentId)
    (h : allocate db paymentId receivedBase moveIds = (db', .ok out)) : NotOverspent db' := by
  obtain ⟨job, ss, hid, hstate, -, hall⟩ := allocate_effect db paymentId receivedBase moveIds
  rw [h] at hstate hall
  rw [show db' = _ from hstate]
  exact applySlices_notOverspent h0 hok hid (.inr (hall out rfl).2.1)

/-- For one document the same is true when the call fails. -/
lemma allocate_one_notOverspent {id : ℤ} {receivedBase : Money} (h0 : NotOverspent db)
    (hok : WithinCredit [id] db paymentId) :
    NotOverspent (allocate db paymentId receivedBase [id]).1 := by
  obtain ⟨job, ss, hid, hstate, hpre, -⟩ := allocate_effect db paymentId receivedBase [id]
  rw [hstate]
  refine applySlices_notOverspent h0 hok hid ?_
  -- at most one slice is drawn, so a part of it is nothing or all
  have hlen : (drawnBy db paymentId [id]).length ≤ 1 := by
    unfold drawnBy
    split
    · exact Nat.zero_le _
    · next p partnerId _ =>
        have hdocs : (openDocuments db p.paymentType partnerId [id]).length ≤ 1 := by
          have hsub : ∀ d ∈ (openDocuments db p.paymentType partnerId [id]).map OpenDocument.id,
              d = id := by
            intro i hi
            obtain ⟨d, hd, rfl⟩ := mem_map.mp hi
            obtain ⟨m, -, -, -, -, hids, -⟩ := mem_openDocuments.mp hd
            simpa using hids
          have hnodup := openDocuments_nodup db p.paymentType partnerId [id]
          rw [eq_replicate_of_mem hsub, nodup_replicate] at hnodup
          simpa using hnodup
        rw [drawn, length_map, length_zip]
        exact (min_le_left _ _).trans hdocs
  rcases ss with - | ⟨s, ss⟩
  · exact .inl rfl
  · refine .inr (hpre.eq_of_length_le ?_)
    refine hlen.trans ?_
    simp

/-! ### The operations -/

section Operations

variable {D : Type} [JsonDouble D]

open JsonDouble

/-- Drawing credit for the invoice that is posted stays within the credit. -/
def CreditWithin (now : Moment) (db : AccountDb) (id : ℤ) : Prop :=
  ∀ m name sequences, db.moves.get? id = some m → m.moveType = .outInvoice →
    takeNumber db now m = .ok (name, { db with sequences := sequences }) →
    DrawsInTurn (WithinCredit [id]) id (posted db id m name sequences) m.partnerId

/-- The payment is not negative, or the document is one it is spent on. -/
def RegistersWithin (args : PaymentArgs D) (db : AccountDb) (id : ℤ) : Prop :=
  ∀ m amount, db.moves.get? id = some m →
    fromJson (payAmount args (toJson { micros := m.amountResidual })) = .ok amount →
    0 ≤ amount.micros ∨ (m.moveType.isInvoice = true ∧ m.amountTotal - db.applied id ≠ 0)

/-- The payment itself is not negative. -/
def NotNegative (db : AccountDb) (paymentId : ℤ) : Prop :=
  ∀ p, db.payments.get? paymentId = some p → 0 ≤ p.amount

/-- What the operation spends stays within what there is to spend.  Only the
operations that pay, allocate or post are considered. -/
def SpendsWithin (now : Moment) (db : AccountDb) : AccountOp D → Prop
  | .registerPayment ids args => InTurn (registerPaymentOne now args) (RegistersWithin args) db ids
  | .postPayment _ => True
  | .allocate paymentId _ moveIds => WithinCredit moveIds db paymentId
  | .unallocate paymentId => NotNegative db paymentId
  | .actionPost ids => InTurn (actionPostOne now) (CreditWithin now) db ids
  | _ => False

lemma actionPostOne_notOverspent {now : Moment} {id : ℤ} (h0 : NotOverspent db)
    (hok : CreditWithin now db id) (h : actionPostOne now db id = .ok db') : NotOverspent db' := by
  obtain ⟨m, name, sequences, hget, -, -, -, hname, rfl⟩ := actionPostOne_ok h
  split
  · next htype =>
      exact drawCredit_invariant NotOverspent
        (fun db₁ p h₁ hp => allocate_one_notOverspent h₁ hp) (hok m name sequences hget htype hname) h0
  · exact h0

lemma registerPaymentOne_notOverspent {now : Moment} {args : PaymentArgs D} {id : ℤ}
    (h0 : NotOverspent db) (hok : RegistersWithin args db id)
    (h : registerPaymentOne now args db id = .ok db') : NotOverspent db' := by
  obtain ⟨m, r, name, rows, lines, hget, hr, hrows, hpay, -, -⟩ := registerPaymentOne_effect h
  obtain ⟨-, amount, hamount, hmicros⟩ := registration_amount hr
  intro i q hq
  rw [hpay] at hq
  split at hq
  · cases hq
    show (rows.map PartialReconcile.amount).sum ≤ r.amount
    rw [SpentOn] at hrows
    split at hrows
    · obtain ⟨row, rfl, -, hmin⟩ := hrows
      simp [hmin]
    · next hnot =>
        -- nothing was drawn, so the payment must not be negative
        rw [hrows]
        show (0 : ℤ) ≤ r.amount
        rcases hok m amount hget hamount with hnonneg | hopen
        · rwa [hmicros] at hnonneg
        · by_contra hne
          exact hnot ⟨(not_le.mp hne).ne, hopen⟩
  · exact h0 i q hq

lemma postPaymentOne_notOverspent {pid : ℤ} (h0 : NotOverspent db)
    (h : AccountPayment.actionPostOne D db pid = .ok db') : NotOverspent db' := by
  obtain ⟨p, j, name, -, -, -, hpay⟩ := postPaymentOne_payments h
  intro i q hq
  rw [hpay, Option.map_eq_some_iff] at hq
  obtain ⟨q₀, hq₀, rfl⟩ := hq
  have hle := h0 i q₀ hq₀
  split
  · exact hle
  · exact hle

lemma unallocate_notOverspent (h0 : NotOverspent db) (hok : NotNegative db paymentId) :
    NotOverspent (unallocate db paymentId) := by
  intro i q hq
  rw [unallocate_payments, Option.map_eq_some_iff] at hq
  obtain ⟨p, hp, rfl⟩ := hq
  split
  · next hi =>
      show (0 : ℤ) ≤ p.amount
      exact hok p (hi ▸ hp)
  · exact h0 i p hp

lemma spendsWithin_notOverspent {now : Moment} {op : AccountOp D} (h0 : NotOverspent db)
    (hok : SpendsWithin now db op) (h : op.run now db = .ok db') : NotOverspent db' := by
  cases op with
  | registerPayment ids args =>
      exact foldlM_invariant (fun _ _ _ h₁ hid hone => registerPaymentOne_notOverspent h₁ hid hone)
        hok h h0
  | postPayment ids =>
      exact foldlM_keeps NotOverspent (fun _ _ _ => postPaymentOne_notOverspent) h h0
  | allocate paymentId received moveIds =>
      rw [AccountOp.run] at h
      split at h
      · next e =>
          cases h
          exact allocate_notOverspent h0 hok e
      · cases h
  | unallocate paymentId =>
      cases h
      exact unallocate_notOverspent h0 hok
  | actionPost ids =>
      exact foldlM_invariant (fun _ _ _ h₁ hid hone => actionPostOne_notOverspent h₁ hid hone)
        hok h h0
  | _ => cases hok

end Operations

/-- An invoice of 60.00. -/
def sixty (issued : MoveState) : Move where
  moveType := .outInvoice
  state := issued
  date := "2026-02-10"
  journalId := 1
  partnerId := some 7
  amountTotal := 60000000
  amountResidual := 60000000

/-- A payment of 100.00 and two invoices of 60.00 of its partner. -/
def twoInvoices (paid : PaymentState) (issued : MoveState) : AccountDb where
  accounts := (empty.insert { code := "1100", accountType := .assetCash }).insert
    { code := "1200", accountType := .assetReceivable }
  journals := empty.insert { code := "BNK", type := .bank, defaultAccountId := some 1 }
  sequences := empty.insert { code := "account.move.INV", pre := "INV", padding := 6 }
  payments := empty.insert
    { date := "2026-02-10", journalId := 1, partnerId := some 7, amount := 100000000, state := paid }
  moves := (empty.insert (sixty issued)).insert (sixty issued)

lemma twoInvoices_notOverspent (paid : PaymentState) (issued : MoveState) :
    NotOverspent (twoInvoices paid issued) := by
  apply notOverspent_iff.mpr
  intro r hr
  rw [mem_singleton.mp hr]
  show (0 : ℤ) ≤ 100000000
  decide

/-- The operations that pay, allocate or post. -/
def AccountOp.spends {D : Type} : AccountOp D → Bool
  | .registerPayment _ _ | .postPayment _ | .allocate _ _ _ | .unallocate _ | .actionPost _ => true
  | _ => false

end CErp
