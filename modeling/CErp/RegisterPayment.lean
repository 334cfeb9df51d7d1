/-
What registering a payment on a document does, as a whole: a fresh payment, a
new posted entry, and at most one slice of the payment, applied to the
document.
-/
import CErp.Documents

namespace CErp

open AccountMove PaymentAllocation Outcome Table AccountDb Option

section Register

variable {D : Type} [JsonDouble D]

open JsonDouble

variable {args : PaymentArgs D} {db : AccountDb}

lemma registration_amount {now : Moment} {m : Move} {r : Registration}
    (h : registration now db args m = .ok r) :
    m.state = .posted ∧ ∃ amount : Money,
      fromJson (payAmount args (toJson { micros := m.amountResidual })) = .ok amount ∧
        amount.micros = r.amount := by
  obtain ⟨_, hposted, h⟩ := bind_ok_iff.mp h
  obtain ⟨_, -, h⟩ := bind_ok_iff.mp h
  obtain ⟨journalId, -, h⟩ := bind_ok_iff.mp h
  rcases ej : db.journals.get? journalId with - | j
  · rw [ej] at h
    cases h
  rw [ej] at h
  obtain ⟨amount, hamount, h⟩ := bind_ok_iff.mp h
  obtain ⟨date, -, h⟩ := bind_ok_iff.mp h
  cases h
  exact ⟨require_ok_iff.mp hposted, amount, hamount, rfl⟩

variable (r : Registration)

/-- The family of a fresh payment is that of its document. -/
lemma settles_registration (m : Move) (name : String) (moveId : ℤ) :
    settles (r.payment m name moveId).paymentType m.moveType = m.moveType.isInvoice := by
  rcases e : m.moveType with - | - | - | - | - | -
  all_goals simp [settles, Registration.payment, e, MoveType.isOut, MoveType.isInvoice]

/-- A fresh payment has been applied to nothing. -/
lemma applied_opened (db : AccountDb) (m : Move) (name : String) (i : ℤ) :
    (r.opened db m name).applied i = db.applied i := by
  show (db.payments.insert _).sumOver _ = _
  rw [sumOver_insert]
  show _ + (0 : ℤ) = _
  rw [add_zero]
  rfl

lemma get?_opened_moves (db : AccountDb) (m : Move) (name : String) {i : ℤ} {m' : Move}
    (h : db.moves.get? i = some m') : (r.opened db m name).moves.get? i = some m' := by
  have hne : i ≠ db.moves.nextId := (lt_nextId_of_get? h).ne
  show (db.moves.insert _).get? i = _
  rw [get?_insert_of_ne _ _ hne, h]

/-- A fresh payment that is allocated has the partner of its document. -/
lemma payer_opened {db₂ : AccountDb} {id : ℤ} {m : Move} {r : Registration} {name : String}
    {sequences : Table Sequence} {received : Money} {out : AllocationResult}
    (h : allocate (r.opened { db with sequences := sequences } m name) db.payments.nextId received
      [id] = (db₂, .ok out)) :
    ∃ partnerId, payer (r.opened { db with sequences := sequences } m name) db.payments.nextId =
      some (r.payment m name db.moves.nextId, partnerId) ∧ m.partnerId = some partnerId := by
  have hpayment : (r.opened { db with sequences := sequences } m name).payments.get?
      db.payments.nextId = some (r.payment m name db.moves.nextId) := get?_insert_self _ _
  obtain ⟨job, ss, -, -, -, hok⟩ := allocate_effect
    (r.opened { db with sequences := sequences } m name) db.payments.nextId received [id]
  rw [h] at hok
  obtain ⟨hprep, -⟩ := hok out rfl
  obtain ⟨p, partnerId, hpayer, -⟩ := prepare_ok hprep
  obtain ⟨hp, -, hpartner, hne⟩ := payer_eq_some_iff.mp hpayer
  rw [hpayment] at hp
  cases hp
  refine ⟨partnerId, hpayer, ?_⟩
  have hsame : m.partnerId.getD 0 = partnerId := hpartner
  rcases e : m.partnerId with - | partner
  · rw [e] at hsame
    exact absurd hsame.symm hne
  · rw [e] at hsame
    exact congrArg some hsame

/-- A fresh payment is drawn on for its document, once, exactly when it is of some
amount and the document is of the family and owes something. -/
lemma allocate_opened {now : Moment} {db₂ : AccountDb} {id : ℤ} {m : Move} {r : Registration}
    {name : String} {sequences : Table Sequence} {received : Money} {out : AllocationResult}
    (hget : db.moves.get? id = some m) (hr : registration now db args m = .ok r)
    (h : allocate (r.opened { db with sequences := sequences } m name) db.payments.nextId received
      [id] = (db₂, .ok out)) :
    (¬ (r.amount ≠ 0 ∧ m.moveType.isInvoice = true ∧ m.amountTotal - db.applied id ≠ 0) ∧
      db₂ = r.opened { db with sequences := sequences } m name ∧ out.totalFxDiff.micros = 0) ∨
    ((r.amount ≠ 0 ∧ m.moveType.isInvoice = true ∧ m.amountTotal - db.applied id ≠ 0) ∧
      ∃ (job : Job) (rate : ℤ) (s : Slice), job.paymentId = db.payments.nextId ∧
        settlementRate (r.payment m name db.moves.nextId) received = .ok rate ∧
        slice rate { micros := r.amount } (asOpen db id m) = .ok (some s) ∧
        db₂ = applySlice job (r.opened { db with sequences := sequences } m name) s ∧
        out.totalFxDiff.micros = s.fxDiff.micros) := by
  set db₁ := r.opened { db with sequences := sequences } m name with hdb₁
  obtain ⟨hposted, -⟩ := registration_amount hr
  have hmove : db₁.moves.get? id = some m := get?_opened_moves r _ m name hget
  have happlied : db₁.applied id = db.applied id := applied_opened r _ m name id
  obtain ⟨partnerId, hpayer, hpartner⟩ := payer_opened h
  have hdraws : Draws db₁ (r.payment m name db.moves.nextId) partnerId id m ↔
      r.amount ≠ 0 ∧ m.moveType.isInvoice = true ∧ m.amountTotal - db.applied id ≠ 0 := by
    rw [Draws, settles_registration, happlied]
    constructor
    · rintro ⟨hamount, -, -, htype, hres⟩
      exact ⟨hamount, htype, hres⟩
    · rintro ⟨hamount, htype, hres⟩
      exact ⟨hamount, hpartner, hposted, htype, hres⟩
  have hopen : asOpen db₁ id m = asOpen db id m := by rw [asOpen, asOpen, happlied]
  have hsingle := allocate_single received hpayer hmove
  rw [h, hdraws, hopen] at hsingle
  rcases hsingle with ⟨hsame, hnone⟩ | ⟨howes, job, rate, s, hid, hrate, hs, hstate, hfx⟩
  · obtain ⟨hnot, hzero⟩ := hnone out rfl
    exact .inl ⟨hnot, hsame, hzero⟩
  · exact .inr ⟨howes, job, rate, s, hid, hrate, hs, hstate, hfx out rfl⟩

/-- What a registered payment is spent on: the document, if it is one of the
family and owes something, and nothing else. -/
def SpentOn (db : AccountDb) (id : ℤ) (m : Move) (amount : ℤ) (rows : List PartialReconcile) :
    Prop :=
  if amount ≠ 0 ∧ m.moveType.isInvoice = true ∧ m.amountTotal - db.applied id ≠ 0 then
    ∃ row, rows = [row] ∧ row.moveId = id ∧ row.amount = min amount (m.amountTotal - db.applied id)
  else rows = []

/-- **What registering a payment does.** -/
theorem registerPaymentOne_effect {now : Moment} {db' : AccountDb} {id : ℤ}
    (h : registerPaymentOne now args db id = .ok db') :
    ∃ (m : Move) (r : Registration) (name : String) (rows : List PartialReconcile)
      (lines : List MoveLine),
      db.moves.get? id = some m ∧ registration now db args m = .ok r ∧
      SpentOn db id m r.amount rows ∧
      (∀ i, db'.payments.get? i = if i = db.payments.nextId then
          some { r.payment m name db.moves.nextId with allocations := rows }
        else db.payments.get? i) ∧
      (∀ i, db'.applied i =
        db.applied i + if i = id then (rows.map PartialReconcile.amount).sum else 0) ∧
      (∀ i, db'.moves.get? i = if i = db.moves.nextId then some (r.posted m name lines)
        else if i = id ∧ rows ≠ [] then some (m.derived (db'.applied id))
        else db.moves.get? i) := by
  obtain ⟨m, r, name, sequences, received, db₂, out, hget, hr, -, -, halloc, hlines⟩ :=
    registerPaymentOne_ok h
  generalize r.lines db₂ m received.micros out.totalFxDiff.micros = lines at hlines
  obtain ⟨⟨moves, n, heq⟩, hmoves⟩ := addLines_ok hlines
  have hpay' : ∀ i, db'.payments.get? i = db₂.payments.get? i := by
    intro i
    rw [heq]
  have happlied' : ∀ i, db'.applied i = db₂.applied i := by
    intro i
    rw [heq]
    rfl
  set db₁ := r.opened { db with sequences := sequences } m name with hdb₁
  have hentry : db₁.moves.get? db.moves.nextId = some (r.entry m name) := get?_insert_self _ _
  have hothers : ∀ i, i ≠ db.moves.nextId → db₁.moves.get? i = db.moves.get? i :=
    fun i hi => get?_insert_of_ne _ _ hi
  have happlied : ∀ i, db₁.applied i = db.applied i := applied_opened r _ m name
  have hpayment : db₁.payments.get? db.payments.nextId =
      some (r.payment m name db.moves.nextId) := get?_insert_self _ _
  have hother : ∀ i, i ≠ db.payments.nextId → db₁.payments.get? i = db.payments.get? i :=
    fun i hi => get?_insert_of_ne _ _ hi
  have hidne : id ≠ db.moves.nextId := (lt_nextId_of_get? hget).ne
  rcases allocate_opened hget hr halloc with
    ⟨hnot, hsame, -⟩ | ⟨howes, job, rate, s, hid, -, hs, hstate, -⟩
  · -- nothing is drawn: the tables are those with the payment and the entry
    rw [show db₂ = db₁ from hsame] at hpay' happlied' hmoves
    refine ⟨m, r, name, [], numbered db₁.nextLineId lines, hget, hr, ?_, ?_, ?_, ?_⟩
    · rw [SpentOn, if_neg hnot]
    · intro i
      rw [hpay']
      split
      · next hi =>
          rw [hi, hpayment]
          rfl
      · next hi => exact hother i hi
    · intro i
      rw [happlied', happlied]
      simp
    · intro i
      rw [hmoves]
      by_cases hi : i = db.moves.nextId
      · rw [if_pos hi, hi, hentry]
        simp only [map_some, if_true]
        rfl
      · rw [if_neg hi, if_neg (fun h => h.2 rfl), hothers i hi]
        simp [hi]
  · rw [show db₂ = _ from hstate] at hpay' happlied' hmoves
    obtain ⟨hmoveId, hmin, -⟩ := slice_some hs
    have hslice : s.moveId = id := hmoveId
    have hamount : s.amount.micros = min r.amount (m.amountTotal - db.applied id) := hmin
    have hafter : ∀ i, db'.applied i = db.applied i + if i = id then s.amount.micros else 0 := by
      intro i
      have hp : db₁.payments.get? job.paymentId = some (r.payment m name db.moves.nextId) := by
        rw [hid, hpayment]
      rw [happlied', applied_applySlice s i hp, happlied, hslice]
      by_cases hi : i = id
      · rw [if_pos hi, if_pos hi.symm]
      · rw [if_neg hi, if_neg (Ne.symm hi)]
    refine ⟨m, r, name, [job.row s], numbered (applySlice job db₁ s).nextLineId lines,
      hget, hr, ?_, ?_, ?_, ?_⟩
    · rw [SpentOn, if_pos howes]
      exact ⟨job.row s, rfl, hslice, hamount⟩
    · intro i
      rw [hpay', get?_applySlice_payments, hid]
      split
      · next hi =>
          rw [hi, hpayment]
          rfl
      · next hi =>
          rw [hother i hi]
          rw [map_id']
    · intro i
      rw [hafter i]
      simp [Job.row]
    · intro i
      rw [hmoves, get?_applySlice_moves, map_map, hslice]
      by_cases hi : i = db.moves.nextId
      · rw [if_pos hi, hi, hentry]
        simp only [Function.comp, map_some, if_true, if_neg (Ne.symm hidne)]
        rfl
      · rw [if_neg hi, hothers i hi]
        by_cases hdoc : i = id
        · rw [if_pos ⟨hdoc, by simp⟩, hdoc, hget, ← happlied']
          simp only [Function.comp, map_some, if_true, if_neg hidne]
        · rw [if_neg (fun h => hdoc h.1)]
          rcases db.moves.get? i with - | m'
          · rfl
          · simp [hi, hdoc]

end Register

end CErp
