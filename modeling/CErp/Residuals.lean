/-
What documents still owe.

The residual and the payment state of a document are derived from what has been
settled of it: the rows of `account_partial_reconcile` and the amounts of the
bank statement reconciled to it.  The tables keep the rows; what the bank has
settled is known from the history alone, so a state here has it beside the
tables.

An operation that derives the columns from the rows forgets the bank, the bank
takes its amount off the residual down to nothing, and recomputing resets it to
the total.  `residuals_derived` says which runs keep the columns right all the
same; `paid_in_full_still_open` is one that does not.
-/
import CErp.Allocations
import CErp.Reversal
import Mathlib.Data.List.Dedup

namespace CErp

open AccountMove PaymentAllocation Runs List Table AccountDb

/-- The tables, and what the bank has settled of each document. -/
structure Settlements where
  db : AccountDb
  banked : ℤ → ℤ

/-- What has been settled of a document. -/
def Settlements.settled (s : Settlements) (id : ℤ) : ℤ := s.db.applied id + s.banked id

/-- The columns of a document agree with what has been settled of it. -/
structure Consistent (m : Move) (settled : ℤ) : Prop where
  residual : m.amountResidual = m.amountTotal - settled
  paid : m.paymentState = .paid ↔ m.amountResidual = 0
  notPaid : m.paymentState = .notPaid ↔ settled = 0
  partially : m.paymentState = .partially ↔ m.amountResidual ≠ 0 ∧ settled ≠ 0

/-- Every posted document agrees with what has been settled of it. -/
def ResidualsDerived (s : Settlements) : Prop :=
  ∀ id m, s.db.moves.get? id = some m → m.state = .posted → m.moveType.isInvoice = true →
    Consistent m (s.settled id)

/-- The third state is what is left of the other two. -/
lemma consistent_iff {m : Move} {settled : ℤ} :
    Consistent m settled ↔ m.amountResidual = m.amountTotal - settled ∧
      (m.paymentState = .paid ↔ m.amountResidual = 0) ∧
      (m.paymentState = .notPaid ↔ settled = 0) := by
  constructor
  · intro h
    exact ⟨h.residual, h.paid, h.notPaid⟩
  · rintro ⟨hresidual, hpaid, hnot⟩
    refine ⟨hresidual, hpaid, hnot, ?_⟩
    rw [Ne, Ne, ← hpaid, ← hnot]
    cases m.paymentState with
    | notPaid => simp
    | partially => simp
    | paid => simp

/-- A document that is derived from its rows agrees with them, unless it is one
of nothing of which nothing has been settled. -/
lemma consistent_derived (m : Move) (a : ℤ) :
    Consistent (m.derived a) a ↔ m.amountTotal ≠ 0 ∨ a ≠ 0 := by
  rw [consistent_iff]
  show m.amountTotal - a = m.amountTotal - a ∧ ((if _ then _ else _) = _ ↔ m.amountTotal - a = 0) ∧
    ((if _ then _ else _) = _ ↔ _) ↔ _
  by_cases hzero : m.amountTotal - a = 0
  · rw [if_pos hzero]
    simp [hzero]
    omega
  · rw [if_neg hzero]
    by_cases hsame : m.amountTotal - a = m.amountTotal
    · rw [if_pos hsame]
      simp [hzero]
      omega
    · rw [if_neg hsame]
      simp [hzero]
      omega

/-! ### The system -/

section System

variable {D : Type} [JsonDouble D]

/-- What the bank has settled after an operation. -/
def bankedAfter (s : Settlements) : AccountOp D → ℤ → ℤ
  | .reconcile lineId moveId => fun i =>
      s.banked i + if i = moveId then
        ((s.db.statementLines.get? lineId).map fun l => |l.amount|).getD 0 else 0
  | _ => s.banked

def settlementStep (s : Settlements) (e : Moment × AccountOp D) : Option Settlements :=
  (accountStep s.db e).map fun db => ⟨db, bankedAfter s e.2⟩

lemma settlementStep_eq_some_iff {s s' : Settlements} {e : Moment × AccountOp D} :
    settlementStep s e = some s' ↔
      ∃ db, e.2.run e.1 s.db = .ok db ∧ s' = ⟨db, bankedAfter s e.2⟩ := by
  unfold settlementStep
  rw [Option.map_eq_some_iff]
  constructor
  · rintro ⟨db, hdb, rfl⟩
    exact ⟨db, accountStep_eq_some_iff.mp hdb, rfl⟩
  · rintro ⟨db, hdb, rfl⟩
    exact ⟨db, accountStep_eq_some_iff.mpr hdb, rfl⟩

end System

/-! ### When the operations keep the columns right -/

/-- The rows of a posted document tell what has been settled of it: the bank
has settled nothing of it.  They come to an amount. -/
def RowsTell (banked : ℤ → ℤ) (db : AccountDb) (id applied : ℤ) : Prop :=
  ∀ m, db.moves.get? id = some m → m.state = .posted → m.moveType.isInvoice = true →
    banked id = 0 ∧ (m.amountTotal ≠ 0 ∨ applied ≠ 0)

/-- A call draws on documents whose rows tell what has been settled of them. -/
def DrawsUnbanked (banked : ℤ → ℤ) (moveIds : List ℤ) (db : AccountDb) (paymentId : ℤ) : Prop :=
  ∀ x ∈ drawnBy db paymentId moveIds, RowsTell banked db x.1 (db.applied x.1 + x.2)

/-- What is undone was on such documents. -/
def FreesUnbanked (banked : ℤ → ℤ) (db : AccountDb) (paymentId : ℤ) : Prop :=
  ∀ p, db.payments.get? paymentId = some p → ∀ r ∈ p.allocations,
    RowsTell banked db r.moveId (db.applied r.moveId - p.appliedTo r.moveId)

/-- A draft document agrees with what has been settled of it, and the credit
drawn for it is drawn on such documents. -/
def PostsConsistent (now : Moment) (banked : ℤ → ℤ) (db : AccountDb) (id : ℤ) : Prop :=
  ∀ m name sequences, db.moves.get? id = some m → m.moveType.isInvoice = true →
    takeNumber db now m = .ok (name, { db with sequences := sequences }) →
    Consistent m (db.applied id + banked id) ∧ (m.moveType = .outInvoice →
      DrawsInTurn (DrawsUnbanked banked [id]) id (posted db id m name sequences) m.partnerId)

section Conditions

variable {D : Type} [JsonDouble D]

open JsonDouble

/-- What is paid on a document goes to one whose rows tell what has been settled
of it. -/
def RegistersUnbanked (args : PaymentArgs D) (banked : ℤ → ℤ) (db : AccountDb) (id : ℤ) : Prop :=
  ∀ m amount, db.moves.get? id = some m →
    fromJson (payAmount args (toJson { micros := m.amountResidual })) = .ok amount →
    amount.micros ≠ 0 → m.amountTotal - db.applied id ≠ 0 →
    RowsTell banked db id (db.applied id + min amount.micros (m.amountTotal - db.applied id))

variable (D) in
/-- A posted document is recomputed while nothing has been settled of it, or to
the same total when all of it has been. -/
def RecomputesConsistent (db : AccountDb) (id : ℤ) : Prop :=
  ∀ m totals, db.moves.get? id = some m → m.state = .posted → m.moveType.isInvoice = true →
    taxTotals D db m = .ok totals →
    (m.paymentState = .notPaid ∧ untaxedAmount m + totals.grandTotal.micros ≠ 0) ∨
      (m.paymentState = .paid ∧ untaxedAmount m + totals.grandTotal.micros = m.amountTotal)

/-- The bank settles something, and no more than the document owes. -/
def ReconcilesWithin (s : Settlements) (lineId moveId : ℤ) : Prop :=
  ∀ l m, s.db.statementLines.get? lineId = some l → s.db.moves.get? moveId = some m →
    |l.amount| ≤ m.amountResidual ∧ s.settled moveId + |l.amount| ≠ 0

/-- The operation keeps the columns right.  Only the operations that post, pay,
settle or recompute are considered. -/
def SettlesConsistent (now : Moment) (s : Settlements) : AccountOp D → Prop
  | .actionPost ids => InTurn (actionPostOne now) (PostsConsistent now s.banked) s.db ids
  | .registerPayment ids args =>
      InTurn (registerPaymentOne now args) (RegistersUnbanked args s.banked) s.db ids
  | .postPayment _ => True
  | .allocate paymentId _ moveIds => DrawsUnbanked s.banked moveIds s.db paymentId
  | .unallocate paymentId => FreesUnbanked s.banked s.db paymentId
  | .reconcile lineId moveId => ReconcilesWithin s lineId moveId
  | .recomputeTotals ids => InTurn (recomputeOne D) (RecomputesConsistent D) s.db ids
  | _ => False

end Conditions

/-! ### Columns derived again -/

variable {banked : ℤ → ℤ} {db db' : AccountDb}

/-- Documents that are derived again from rows that tell what has been settled,
the others and what is applied to them being as they were. -/
lemma ResidualsDerived.derive {ids : List ℤ} (h : ResidualsDerived ⟨db, banked⟩)
    (hmoves : ∀ i, db'.moves.get? i = (db.moves.get? i).map fun m =>
      if i ∈ ids then m.derived (db'.applied i) else m)
    (happlied : ∀ i, i ∉ ids → db'.applied i = db.applied i)
    (hok : ∀ i ∈ ids, RowsTell banked db i (db'.applied i)) : ResidualsDerived ⟨db', banked⟩ := by
  intro i m' hm' hposted htype
  have hm' : db'.moves.get? i = some m' := hm'
  rw [hmoves, Option.map_eq_some_iff] at hm'
  obtain ⟨m, hm, rfl⟩ := hm'
  show Consistent _ (db'.applied i + banked i)
  by_cases hi : i ∈ ids
  · rw [if_pos hi] at hposted htype ⊢
    obtain ⟨hbanked, hsome⟩ := hok i hi m hm hposted htype
    rw [hbanked, add_zero]
    exact (consistent_derived m _).mpr hsome
  · rw [if_neg hi] at hposted htype ⊢
    rw [happlied i hi]
    exact h i m hm hposted htype

lemma drawn_sublist (budget : ℤ) (docs : List OpenDocument) :
    ((drawn budget docs).map Prod.fst).Sublist (docs.map OpenDocument.id) := by
  induction docs generalizing budget with
  | nil => simp [drawn]
  | cons d ds ih =>
      by_cases hzero : budget = 0
      · simp [drawn, hzero]
      · rw [drawn_cons hzero, map_cons, map_cons]
        exact (ih _).cons_cons _

/-- A payment draws on a document once. -/
lemma drawnBy_nodup (db : AccountDb) (paymentId : ℤ) (moveIds : List ℤ) :
    ((drawnBy db paymentId moveIds).map Prod.fst).Nodup := by
  unfold drawnBy
  split
  · exact nodup_nil
  · exact (openDocuments_nodup _ _ _ _).sublist (drawn_sublist _ _)

lemma amountOn_of_notMem {ss : List Slice} {i : ℤ} (h : i ∉ ss.map Slice.moveId) :
    amountOn i ss = 0 := by
  have hnone : (ss.filter fun s => s.moveId == i) = [] := by
    rw [filter_eq_nil_iff]
    intro s hs heq
    exact h (mem_map.mpr ⟨s, hs, beq_iff_eq.mp heq⟩)
  rw [amountOn, hnone]
  rfl

/-- The only slice on a document is what there is on it. -/
lemma amountOn_of_mem {ss : List Slice} {s : Slice} (hnodup : (ss.map Slice.moveId).Nodup)
    (hs : s ∈ ss) : amountOn s.moveId ss = s.amount.micros := by
  induction ss with
  | nil => cases hs
  | cons t ss ih =>
      rw [map_cons, nodup_cons] at hnodup
      obtain ⟨hnot, hrest⟩ := hnodup
      rcases mem_cons.mp hs with rfl | hs
      · have hnone := amountOn_of_notMem hnot
        simp only [amountOn] at hnone ⊢
        simp [hnone]
      · have hne : t.moveId ≠ s.moveId := by
          intro heq
          exact hnot (heq ▸ mem_map_of_mem hs)
        rw [← ih hrest hs]
        simp [amountOn, hne]

/-- Slices that follow what is drawn, or part of it, keep the columns right. -/
lemma applySlices_derived {paymentId : ℤ} {moveIds : List ℤ} {job : Job} {ss : List Slice}
    (h : ResidualsDerived ⟨db, banked⟩) (hok : DrawsUnbanked banked moveIds db paymentId)
    (hid : job.paymentId = paymentId)
    (hss : (ss.map fun s => (s.moveId, s.amount.micros)) <+: drawnBy db paymentId moveIds) :
    ResidualsDerived ⟨applySlices job db ss, banked⟩ := by
  rcases hnil : ss with - | ⟨s₀, ss₀⟩
  · exact h
  rw [← hnil]
  -- there is a payment, since something is drawn on it
  obtain ⟨p, partnerId, hpayer, -⟩ := payer_of_mem_drawnBy (hss.subset (a := (s₀.moveId,
    s₀.amount.micros)) (by rw [hnil]; exact mem_cons_self))
  have hp : db.payments.get? job.paymentId = some p := by
    rw [hid]
    exact (payer_eq_some_iff.mp hpayer).1
  have hnodup : (ss.map Slice.moveId).Nodup := by
    have hids : ss.map Slice.moveId = (ss.map fun s => (s.moveId, s.amount.micros)).map Prod.fst := by
      rw [map_map]
      rfl
    rw [hids]
    exact (drawnBy_nodup db paymentId moveIds).sublist (hss.sublist.map _)
  have happlied : ∀ i, (applySlices job db ss).applied i = db.applied i + amountOn i ss :=
    fun i => applied_applySlices ss i hp
  refine h.derive (fun i => applySlices_moves ss i hp) ?_ ?_
  · intro i hi
    rw [happlied, amountOn_of_notMem hi, add_zero]
  · intro i hi
    obtain ⟨s, hs, rfl⟩ := mem_map.mp hi
    rw [happlied, amountOn_of_mem hnodup hs]
    exact hok (s.moveId, s.amount.micros) (hss.subset (mem_map.mpr ⟨s, hs, rfl⟩))

lemma allocate_derived {db : AccountDb} {banked : ℤ → ℤ} {paymentId : ℤ} {received : Money}
    {moveIds : List ℤ} (h : ResidualsDerived ⟨db, banked⟩)
    (hok : DrawsUnbanked banked moveIds db paymentId) :
    ResidualsDerived ⟨(allocate db paymentId received moveIds).1, banked⟩ := by
  obtain ⟨job, ss, hid, hstate, hpre, -⟩ := allocate_effect db paymentId received moveIds
  rw [hstate]
  exact applySlices_derived h hok hid hpre

lemma unallocate_derived {paymentId : ℤ} (h : ResidualsDerived ⟨db, banked⟩)
    (hok : FreesUnbanked banked db paymentId) :
    ResidualsDerived ⟨unallocate db paymentId, banked⟩ := by
  rcases hp : db.payments.get? paymentId with - | p
  · -- there is nothing to undo
    have hnone : affected db paymentId = [] := by
      rw [affected, hp]
    have hsame : unallocate db paymentId = db := by
      rw [unallocate, hnone]
      show { db with payments := db.payments.modify paymentId _ } = db
      rw [modify_of_none _ hp]
    rw [hsame]
    exact h
  have happlied : ∀ i, (unallocate db paymentId).applied i = db.applied i - p.appliedTo i :=
    fun i => applied_unallocate i hp
  refine h.derive (fun i => unallocate_moves db paymentId i) ?_ ?_
  · intro i hi
    have hzero : p.appliedTo i = 0 := by
      have hnone : (p.allocations.filter fun r => r.moveId == i) = [] := by
        rw [filter_eq_nil_iff]
        intro r hr heq
        apply hi
        rw [affected, hp, mem_dedup]
        exact mem_map.mpr ⟨r, hr, beq_iff_eq.mp heq⟩
      rw [Payment.appliedTo, hnone]
      rfl
    rw [happlied, hzero, sub_zero]
  · intro i hi
    rw [affected, hp, mem_dedup] at hi
    obtain ⟨r, hr, rfl⟩ := mem_map.mp hi
    rw [happlied]
    exact hok p hp r hr

/-! ### The other operations -/

/-- Entering a journal entry leaves the documents as they were. -/
lemma postEntry_derived {m : Move} {ls : List MoveLine} (h : ResidualsDerived ⟨db, banked⟩)
    (hentry : db.postEntry m ls = .ok db') : ResidualsDerived ⟨db', banked⟩ := by
  obtain ⟨⟨moves, n, heq⟩, hget⟩ := postEntry_ok hentry
  intro i m' hm' hposted htype
  have hm' : db'.moves.get? i = some m' := hm'
  rw [hget] at hm'
  split at hm'
  · cases hm'
    cases htype
  · have happlied : db'.applied i = db.applied i := by
      rw [heq]
      rfl
    show Consistent m' (db'.applied i + banked i)
    rw [happlied]
    exact h i m' hm' hposted htype

variable {id : ℤ}

/-- Posting a document. -/
lemma posted_derived {m : Move} (name : String) (sequences : Table Sequence)
    (h : ResidualsDerived ⟨db, banked⟩) (hget : db.moves.get? id = some m)
    (hok : m.moveType.isInvoice = true → Consistent m (db.applied id + banked id)) :
    ResidualsDerived ⟨posted db id m name sequences, banked⟩ := by
  intro i m' hm' hposted htype
  show Consistent m' (db.applied i + banked i)
  have hm' : (db.moves.modify id (post name)).get? i = some m' := hm'
  by_cases hi : i = id
  · subst hi
    rw [get?_modify_self, hget] at hm'
    cases hm'
    have hm := hok htype
    exact ⟨hm.residual, hm.paid, hm.notPaid, hm.partially⟩
  · rw [get?_modify_of_ne _ _ hi] at hm'
    exact h i m' hm' hposted htype

lemma actionPostOne_derived {now : Moment} (h : ResidualsDerived ⟨db, banked⟩)
    (hok : PostsConsistent now banked db id) (hone : actionPostOne now db id = .ok db') :
    ResidualsDerived ⟨db', banked⟩ := by
  obtain ⟨m, name, sequences, hget, -, -, -, hname, rfl⟩ := actionPostOne_ok hone
  have hposted := posted_derived name sequences h hget fun htype =>
    (hok m name sequences hget htype hname).1
  split
  · next htype =>
      have hinvoice : m.moveType.isInvoice = true := by
        rw [htype]
        rfl
      refine drawCredit_invariant (fun db => ResidualsDerived ⟨db, banked⟩) ?_
        ((hok m name sequences hget hinvoice hname).2 htype) hposted
      intro db₁ p h₁ hp
      exact allocate_derived h₁ hp
  · exact hposted

lemma registerPaymentOne_derived {D : Type} [JsonDouble D] {now : Moment} {args : PaymentArgs D}
    (h : ResidualsDerived ⟨db, banked⟩) (hok : RegistersUnbanked args banked db id)
    (hone : registerPaymentOne now args db id = .ok db') : ResidualsDerived ⟨db', banked⟩ := by
  obtain ⟨m, r, name, rows, lines, hget, hr, hrows, -, happlied, hmoves⟩ :=
    registerPaymentOne_effect hone
  obtain ⟨hposted, amount, hamount, hmicros⟩ := registration_amount hr
  intro i m' hm' hposted' htype'
  show Consistent m' (db'.applied i + banked i)
  have hm' : db'.moves.get? i = some m' := hm'
  rw [hmoves] at hm'
  split at hm'
  · -- the entry of the payment
    cases hm'
    cases htype'
  split at hm'
  · next hpaid =>
      obtain ⟨rfl, hne⟩ := hpaid
      cases hm'
      rw [SpentOn] at hrows
      split at hrows
      · next hspent =>
          obtain ⟨hzero, htype, hopen⟩ := hspent
          obtain ⟨row, rfl, -, hrow⟩ := hrows
          have hafter : db'.applied i =
              db.applied i + min r.amount (m.amountTotal - db.applied i) := by
            rw [happlied, if_pos rfl]
            simp [hrow]
          rw [← hmicros] at hafter hzero
          obtain ⟨hbanked, hsome⟩ := hok m amount hget hamount hzero hopen m hget hposted htype
          rw [hbanked, add_zero, hafter]
          exact (consistent_derived m _).mpr hsome
      · exact absurd hrows hne
  · next hnot =>
      have hsame : db'.applied i = db.applied i := by
        rw [happlied]
        by_cases hi : i = id
        · have hnil : rows = [] := by
            by_contra hne
            exact hnot ⟨hi, hne⟩
          simp [hnil]
        · rw [if_neg hi, add_zero]
      rw [hsame]
      exact h i m' hm' hposted' htype'

lemma postPaymentOne_derived {D : Type} [JsonDouble D] {pid : ℤ}
    (h : ResidualsDerived ⟨db, banked⟩) (hone : AccountPayment.actionPostOne D db pid = .ok db') :
    ResidualsDerived ⟨db', banked⟩ := by
  obtain ⟨p, j, cashAcc, partnerAcc, amount, db₁, -, -, -, hentry, rfl⟩ :=
    AccountPayment.actionPostOne_ok hone
  have h₁ := postEntry_derived h hentry
  intro i m hm hposted htype
  have hsame : (db₁.modifyPayment pid (AccountPayment.link db.moves.nextId
      (AccountPayment.entryName db j.code p.journalId p.date))).applied i = db₁.applied i :=
    sumOver_modify_same _ _ _ fun _ => rfl
  show Consistent m (_ + banked i)
  rw [hsame]
  exact h₁ i m hm hposted htype

lemma reconcile_derived {now : Moment} {s : Settlements} {lineId moveId : ℤ}
    (h : ResidualsDerived s) (hok : ReconcilesWithin s lineId moveId)
    (hone : BankStatement.reconcile now s.db lineId moveId = .ok db') (banked : ℤ → ℤ)
    (hbanked : ∀ l, s.db.statementLines.get? lineId = some l →
      ∀ i, banked i = s.banked i + if i = moveId then |l.amount| else 0) :
    ResidualsDerived ⟨db', banked⟩ := by
  obtain ⟨l, m, journalId, companyId, bankAcct, cpAcct, db₁, statementLines, hl, -, hm, -, -, -,
    hentry, rfl⟩ := BankStatement.reconcile_ok hone
  obtain ⟨hwithin, hsome⟩ := hok l m hl hm
  have h₁ : ResidualsDerived ⟨db₁, s.banked⟩ := postEntry_derived h hentry
  have happlied : db₁.applied = s.db.applied := by
    obtain ⟨⟨moves, n, rfl⟩, -⟩ := postEntry_ok hentry
    rfl
  have hget : db₁.moves.get? moveId = some m := by
    rw [(postEntry_ok hentry).2, if_neg (lt_nextId_of_get? hm).ne, hm]
  intro i m' hm' hposted htype
  show Consistent m' (db₁.applied i + banked i)
  rw [hbanked l hl]
  have hm' : (db₁.moves.modify moveId (BankStatement.settleByBank |l.amount|)).get? i = some m' := hm'
  by_cases hi : i = moveId
  · subst hi
    rw [get?_modify_self, hget] at hm'
    cases hm'
    have hbefore : Consistent m (db₁.applied i + s.banked i) := h₁ i m hget hposted htype
    have hresidual := hbefore.residual
    rw [if_pos rfl, consistent_iff]
    rw [Settlements.settled, ← happlied] at hsome
    refine ⟨?_, ?_, ?_⟩
    · show max (m.amountResidual - |l.amount|) 0 = m.amountTotal - _
      omega
    · show (if _ then _ else _) = _ ↔ max (m.amountResidual - |l.amount|) 0 = 0
      split
      · next hle => simpa using hle
      · next hnot =>
          refine iff_of_false (fun hne => PaymentStatus.noConfusion hne) ?_
          omega
    · refine iff_of_false ?_ ?_
      · show ¬ (if _ then _ else _) = _
        split
        · exact fun hne => PaymentStatus.noConfusion hne
        · exact fun hne => PaymentStatus.noConfusion hne
      · rwa [← add_assoc]
  · rw [get?_modify_of_ne _ _ hi] at hm'
    rw [if_neg hi, add_zero]
    exact h₁ i m' hm' hposted htype

lemma recomputeOne_derived {D : Type} [JsonDouble D] (h : ResidualsDerived ⟨db, banked⟩)
    (hok : RecomputesConsistent D db id) (hone : recomputeOne D db id = .ok db') :
    ResidualsDerived ⟨db', banked⟩ := by
  obtain ⟨hpayments, hothers⟩ := recomputeOne_rest hone
  have happlied : db'.applied = db.applied := by
    unfold AccountDb.applied
    rw [hpayments]
  intro i m' hm' hposted htype
  show Consistent m' (db'.applied i + banked i)
  rw [happlied]
  have hm' : db'.moves.get? i = some m' := hm'
  by_cases hi : i = id
  · subst hi
    rcases hget : db.moves.get? i with - | m
    · have hsame : db' = db := by
        unfold recomputeOne at hone
        rw [hget] at hone
        exact (Except.ok.inj hone).symm
      rw [hsame, hget] at hm'
      cases hm'
    · obtain ⟨totals, htotals, -, hafter⟩ := recomputeOne_ok hget hone
      rw [hafter] at hm'
      cases hm'
      have hbefore := h i m hget hposted htype
      have hsettled : m.amountResidual = m.amountTotal - (db.applied i + banked i) := hbefore.residual
      rw [consistent_iff]
      show (if m.paymentState = .paid then 0 else _) = untaxedAmount m + totals.grandTotal.micros - _ ∧
        (m.paymentState = .paid ↔ (if m.paymentState = .paid then 0 else _) = 0) ∧
        (m.paymentState = .notPaid ↔ _)
      rcases hok m totals hget hposted htype htotals with ⟨hnot, hne⟩ | ⟨hpaid, hsame⟩
      · -- nothing is settled, and the residual is the total again
        have hnone : db.applied i + banked i = 0 := hbefore.notPaid.mp hnot
        rw [hnot, hnone, if_neg (fun heq => PaymentStatus.noConfusion heq), sub_zero]
        exact ⟨rfl, iff_of_false (fun heq => PaymentStatus.noConfusion heq) hne, by simp⟩
      · -- all of the total is settled, and it has not changed
        have hzero : m.amountResidual = 0 := hbefore.paid.mp hpaid
        rw [if_pos hpaid, hsame]
        exact ⟨by omega, iff_of_true hpaid rfl, hbefore.notPaid⟩
  · rw [hothers i hi] at hm'
    exact h i m' hm' hposted htype

/-! ### Runs -/

section Run

variable {D : Type} [JsonDouble D]

lemma settlementStep_derived {s s' : Settlements} {e : Moment × AccountOp D}
    (h : ResidualsDerived s) (hok : SettlesConsistent e.1 s e.2)
    (hs : settlementStep s e = some s') : ResidualsDerived s' := by
  obtain ⟨db, hrun, rfl⟩ := settlementStep_eq_some_iff.mp hs
  obtain ⟨now, op⟩ := e
  have hrun : op.run now s.db = .ok db := hrun
  cases op with
  | actionPost ids =>
      exact @foldlM_invariant _ _ _ _ _ (fun db => ResidualsDerived ⟨db, s.banked⟩) _ _ _
        (fun _ _ _ h₁ hid hone => actionPostOne_derived h₁ hid hone) hok hrun h
  | registerPayment ids args =>
      exact @foldlM_invariant _ _ _ _ _ (fun db => ResidualsDerived ⟨db, s.banked⟩) _ _ _
        (fun _ _ _ h₁ hid hone => registerPaymentOne_derived h₁ hid hone) hok hrun h
  | postPayment ids =>
      exact foldlM_keeps (fun db => ResidualsDerived ⟨db, s.banked⟩)
        (fun _ _ _ => postPaymentOne_derived) hrun h
  | allocate paymentId received moveIds =>
      rw [AccountOp.run] at hrun
      split at hrun
      · next e =>
          cases hrun
          have hderived := @allocate_derived s.db s.banked paymentId received moveIds h hok
          rw [e] at hderived
          exact hderived
      · cases hrun
  | unallocate paymentId =>
      cases hrun
      exact unallocate_derived h hok
  | reconcile lineId moveId =>
      refine reconcile_derived h hok hrun _ ?_
      intro l hl i
      show s.banked i + (if i = moveId then _ else 0) = _
      rw [hl]
      rfl
  | recomputeTotals ids =>
      exact @foldlM_invariant _ _ _ _ _ (fun db => ResidualsDerived ⟨db, s.banked⟩) _ _ _
        (fun _ _ _ h₁ hid hone => recomputeOne_derived h₁ hid hone) hok hrun h
  | _ => cases hok

end Run

/-- **The residual and the payment state are derived** from what has been settled
in any run whose operations keep them so. -/
theorem residuals_derived (D : Type) [JsonDouble D] (s s' : Settlements) (h0 : ResidualsDerived s)
    (hrun : Reaches settlementStep
      (fun s (e : Moment × AccountOp D) => SettlesConsistent e.1 s e.2) s s') :
    ResidualsDerived s' := by
  refine hrun.invariant ?_ h0
  intro s₁ e s₂ h₁ hok hs
  exact settlementStep_derived h₁ hok hs

/-! ### An invoice paid in full -/

/-- The operations that post, pay, settle or recompute. -/
def AccountOp.settlesDocuments {D : Type} : AccountOp D → Bool
  | .actionPost _ | .registerPayment _ _ | .postPayment _ | .allocate _ _ _ | .unallocate _
  | .reconcile _ _ | .recomputeTotals _ => true
  | _ => false

/-- Two invoices of 60.00, and 20.00 that came in by the bank. -/
def bankedInvoice (issued : MoveState) : Settlements where
  db := { twoInvoices .draft issued with
    statementLines := Table.empty.insert { amount := 20000000, journalId := some 1 } }
  banked := fun _ => 0

/-- The documents of the example. -/
lemma get?_bankedInvoice {issued : MoveState} {m : Move}
    (h : (bankedInvoice issued).db.moves.get? id = some m) : m = sixty issued := by
  have hmem := get?_eq_some_iff.mp h
  simp [bankedInvoice, twoInvoices, Table.insert, Table.empty] at hmem
  rcases hmem with ⟨-, rfl⟩ | ⟨-, rfl⟩
  · rfl
  · rfl

lemma bankedInvoice_derived (issued : MoveState) : ResidualsDerived (bankedInvoice issued) := by
  intro id m hm _ _
  rw [get?_bankedInvoice hm]
  have hnone : (bankedInvoice issued).settled id = 0 := rfl
  rw [hnone, consistent_iff]
  refine ⟨rfl, ?_, iff_of_true rfl rfl⟩
  show PaymentStatus.notPaid = .paid ↔ (60000000 : ℤ) = 0
  decide

/-- The 20.00 are settled of the first invoice. -/
theorem residuals_derived_banked : let _ := JsonDouble.wholeMicros
    ∃ s', settlementStep (bankedInvoice .posted) (february, (.reconcile 1 1 : AccountOp ℤ)) = some s' ∧
      ResidualsDerived s' := by
  intro _
  obtain ⟨s', hs⟩ : ∃ s', settlementStep (bankedInvoice .posted)
      (february, (.reconcile 1 1 : AccountOp ℤ)) = some s' :=
    Option.isSome_iff_exists.mp (by decide)
  refine ⟨s', hs, residuals_derived ℤ _ s' (bankedInvoice_derived .posted) ?_⟩
  refine Relation.ReflTransGen.single ⟨(february, .reconcile 1 1), ?_, hs⟩
  intro l m hl hm
  cases hl
  cases hm
  decide

/-- The invoice is posted, the bank settles 20.00 of it, and the 40.00 it still
owes are paid: it owes 20.00. -/
theorem paid_in_full_still_open : ¬ ∀ (_ : JsonDouble ℤ) (s s' : Settlements), ResidualsDerived s →
      Reaches settlementStep (fun _ (e : Moment × AccountOp ℤ) => e.2.settlesDocuments = true) s s' →
        ResidualsDerived s' := by
  intro h
  let _ := JsonDouble.wholeMicros
  let events : List (Moment × AccountOp ℤ) :=
    [(february, .actionPost [1]), (february, .reconcile 1 1), (february, .registerPayment [1] {})]
  have hrun : ((execute settlementStep
      (fun _ (e : Moment × AccountOp ℤ) => e.2.settlesDocuments = true) events
      (bankedInvoice .draft)).any fun s =>
        (s.db.moves.get? 1).any fun m =>
          m.state == .posted && m.moveType.isInvoice && m.amountResidual == 20000000 &&
            m.amountTotal == 60000000 && s.settled 1 == 60000000) = true := by
    decide
  obtain ⟨s', hexec, hfound⟩ := (Option.any_eq_true _ _).mp hrun
  obtain ⟨m, hm, hopen⟩ := (Option.any_eq_true _ _).mp hfound
  simp only [Bool.and_eq_true, beq_iff_eq] at hopen
  obtain ⟨⟨⟨⟨hposted, htype⟩, hresidual⟩, htotal⟩, hsettled⟩ := hopen
  have hderived := h JsonDouble.wholeMicros _ s' (bankedInvoice_derived .draft)
    (reaches_of_execute hexec) 1 m hm hposted htype
  have hagrees := hderived.residual
  rw [hresidual, htotal, hsettled] at hagrees
  exact absurd hagrees (by decide)

end CErp
