/-
Payments spent on open documents.

One call of `allocate` takes the whole amount of a payment as its budget and
spends it on the partner's open documents, oldest first; a slice is one row of
`account_partial_reconcile`, after which the document's residual is derived
from its rows again.  A call that fails leaves the slices it has made behind:
it is the caller that commits or rolls back.

* `settle_effect`: what a call of the loop does is to apply a list of slices,
  and the amounts of these are those of `Allotment.allot`.
* `applySlices_moves`, `applySlices_payments` and `applied_applySlices`: what a
  list of slices does to the moves, the payments and the applied amounts.
* the `unallocate_*` lemmas say the same of `unallocate`.
-/
import CErp.AccountDb
import CErp.Allotment
import Mathlib.Data.List.Induction

namespace CErp

open Outcome List Table Money Allotment

/-! ### Amounts applied -/

/-- What a payment has been allocated for. -/
def Payment.allocated (p : Payment) : ℤ := (p.allocations.map PartialReconcile.amount).sum

/-- What a payment has been applied to a move. -/
def Payment.appliedTo (p : Payment) (moveId : ℤ) : ℤ :=
  ((p.allocations.filter fun r => r.moveId == moveId).map PartialReconcile.amount).sum

/-- What all payments have been applied to a move. -/
def AccountDb.applied (db : AccountDb) (moveId : ℤ) : ℤ :=
  db.payments.sumOver fun _ p => p.appliedTo moveId

/-- The columns that are derived from what is applied. -/
def Move.derived (m : Move) (applied : ℤ) : Move :=
  { m with
    amountResidual := m.amountTotal - applied
    paymentState :=
      if m.amountTotal - applied = 0 then .paid
      else if m.amountTotal - applied = m.amountTotal then .notPaid
      else .partially }

namespace PaymentAllocation

/-- `residualOf` and the UPDATE that stores it. -/
def refreshResidual (db : AccountDb) (moveId : ℤ) : AccountDb :=
  db.modifyMove moveId fun m => m.derived (db.applied moveId)

/-! ### Open documents -/

/-- A document that still owes something, as the query returns it. -/
structure OpenDocument where
  id : ℤ
  date : String
  total : ℤ
  applied : ℤ
  bookedRate : ℤ
  deriving DecidableEq

def OpenDocument.residual (d : OpenDocument) : ℤ := d.total - d.applied

/-- The documents a payment of a type can settle. -/
def settles (type : PaymentType) (moveType : MoveType) : Bool :=
  if type ≠ .outbound then moveType = .outInvoice || moveType = .outRefund
  else moveType = .inInvoice || moveType = .inRefund

/-- The order of the query. -/
def OpenDocument.before (a b : OpenDocument) : Prop :=
  a.date < b.date ∨ a.date = b.date ∧ a.id ≤ b.id

instance : DecidableRel OpenDocument.before := fun a b =>
  inferInstanceAs (Decidable (a.date < b.date ∨ a.date = b.date ∧ a.id ≤ b.id))

/-- The open documents of a partner, oldest first; all of them, or those of a
list. -/
def openDocuments (db : AccountDb) (type : PaymentType) (partnerId : ℤ) (moveIds : List ℤ) :
    List OpenDocument :=
  let selected := db.moves.rows.filter fun r =>
    r.2.partnerId == some partnerId && r.2.state == .posted && settles type r.2.moveType &&
      (moveIds.isEmpty || moveIds.contains r.1)
  let documents := selected.map fun r =>
    (⟨r.1, r.2.date, r.2.amountTotal, db.applied r.1, r.2.currencyRate⟩ : OpenDocument)
  (documents.filter fun d => d.residual != 0).insertionSort OpenDocument.before

/-! ### One call -/

/-- One slice of a payment, as `AllocationResult::applied` lists it. -/
structure Slice where
  moveId : ℤ
  amount : Money
  atSettlement : Money
  fxDiff : Money
  deriving DecidableEq

structure AllocationResult where
  applied : List Slice := []
  totalApplied : Money := { micros := 0 }
  totalFxDiff : Money := { micros := 0 }
  unallocated : Money
  deriving DecidableEq

/-- What a call has worked out before it comes to the first document. -/
structure Job where
  paymentId : ℤ
  settlementRate : ℤ
  date : String
  companyId : ℤ
  amount : Money
  documents : List OpenDocument

/-- The rate a payment settles at: the one implied by what was received. -/
def settlementRate (p : Payment) (receivedBase : Money) : Except String ℤ :=
  if receivedBase.micros ≠ 0 ∧ p.amount ≠ 0 then
    impliedRate { micros := p.amount } receivedBase
  else .ok p.currencyRate

def prepare (db : AccountDb) (paymentId : ℤ) (receivedBase : Money) (moveIds : List ℤ) :
    Except String Job :=
  match db.payments.get? paymentId with
  | none => .error "Payment not found, or not posted."
  | some p => do
      require (p.state = .posted) "Payment not found, or not posted."
      let partnerId := p.partnerId.getD 0
      require (partnerId ≠ 0) "Payment has no partner, so it cannot be allocated."
      let rate ← settlementRate p receivedBase
      return ⟨paymentId, rate, p.date, p.companyId, { micros := p.amount },
        openDocuments db p.paymentType partnerId moveIds⟩

/-- The slice of what remains that a document takes, never more than it still
owes; none where it owes nothing. -/
def slice (rate : ℤ) (remaining : Money) (inv : OpenDocument) : Except String (Option Slice) := do
  let residual ← sub { micros := inv.total } { micros := inv.applied }
  if residual.micros = 0 then return none
  else
    let amount := if remaining.micros < residual.micros then remaining else residual
    let atSettlement ← amount.convertTo 0 rate
    let atBooked ← amount.convertTo 0 inv.bookedRate
    let fxDiff ← atSettlement.sub atBooked
    return some ⟨inv.id, amount, atSettlement, fxDiff⟩

/-- The row of a slice. -/
def Job.row (job : Job) (s : Slice) : PartialReconcile :=
  ⟨s.moveId, s.amount.micros, s.atSettlement.micros, s.fxDiff.micros, job.date, job.companyId⟩

/-- INSERT INTO account_partial_reconcile, and the residual derived again. -/
def applySlice (job : Job) (db : AccountDb) (s : Slice) : AccountDb :=
  refreshResidual
    (db.modifyPayment job.paymentId fun p => { p with allocations := p.allocations ++ [job.row s] })
    s.moveId

/-- The result with a slice counted in, and what remains. -/
def AllocationResult.count (out : AllocationResult) (remaining : Money) (s : Slice) :
    Except String (AllocationResult × Money) := do
  let totalApplied ← out.totalApplied.add s.amount
  let totalFxDiff ← out.totalFxDiff.add s.fxDiff
  let remaining ← remaining.sub s.amount
  return ({ out with
    applied := out.applied ++ [s], totalApplied := totalApplied, totalFxDiff := totalFxDiff },
    remaining)

/-- The loop over the documents. -/
def settle (job : Job) : AccountDb → AllocationResult → Money → List OpenDocument →
    AccountDb × Except String AllocationResult
  | db, out, remaining, [] => (db, .ok { out with unallocated := remaining })
  | db, out, remaining, inv :: rest =>
      if remaining.micros = 0 then (db, .ok { out with unallocated := remaining })
      else
        match slice job.settlementRate remaining inv with
        | .error e => (db, .error e)
        | .ok none => settle job db out remaining rest
        | .ok (some s) =>
            match out.count remaining s with
            | .error e => (applySlice job db s, .error e)
            | .ok (out, remaining) => settle job (applySlice job db s) out remaining rest

/-- `PaymentAllocation::allocate`; the tables come back also when it fails. -/
def allocate (db : AccountDb) (paymentId : ℤ) (receivedBase : Money) (moveIds : List ℤ) :
    AccountDb × Except String AllocationResult :=
  match prepare db paymentId receivedBase moveIds with
  | .error e => (db, .error e)
  | .ok job => settle job db { unallocated := job.amount } job.amount job.documents

/-- The moves a payment has been applied to. -/
def affected (db : AccountDb) (paymentId : ℤ) : List ℤ :=
  match db.payments.get? paymentId with
  | none => []
  | some p => (p.allocations.map PartialReconcile.moveId).dedup

/-- `PaymentAllocation::unallocate`. -/
def unallocate (db : AccountDb) (paymentId : ℤ) : AccountDb :=
  (affected db paymentId).foldl refreshResidual
    (db.modifyPayment paymentId fun p => { p with allocations := [] })

/-! ### One slice -/

/-- What one document after the other gets of a budget. -/
def drawn (budget : ℤ) (documents : List OpenDocument) : List (ℤ × ℤ) :=
  (documents.zip (allot budget (documents.map OpenDocument.residual))).map
    fun x => (x.1.id, x.2)

variable {remaining : Money}

lemma slice_none {rate : ℤ} {inv : OpenDocument} (h : slice rate remaining inv = .ok none) :
    inv.residual = 0 := by
  obtain ⟨residual, hres, h⟩ := bind_ok_iff.mp h
  have hmicros : residual.micros = inv.residual := sub_micros hres
  split at h
  · next hzero => exact hmicros ▸ hzero
  · obtain ⟨_, -, h⟩ := bind_ok_iff.mp h
    obtain ⟨_, -, h⟩ := bind_ok_iff.mp h
    obtain ⟨_, -, h⟩ := bind_ok_iff.mp h
    cases h

lemma slice_some {rate : ℤ} {inv : OpenDocument} {s : Slice}
    (h : slice rate remaining inv = .ok (some s)) :
    s.moveId = inv.id ∧ s.amount.micros = min remaining.micros inv.residual ∧
      (inv.bookedRate = rate → s.fxDiff.micros = 0) := by
  obtain ⟨residual, hres, h⟩ := bind_ok_iff.mp h
  have hmicros : residual.micros = inv.residual := sub_micros hres
  split at h
  · cases h
  · obtain ⟨atSettlement, hset, h⟩ := bind_ok_iff.mp h
    obtain ⟨atBooked, hbook, h⟩ := bind_ok_iff.mp h
    obtain ⟨fxDiff, hfx, h⟩ := bind_ok_iff.mp h
    cases h
    refine ⟨rfl, ?_, ?_⟩
    · dsimp only
      rw [← hmicros]
      split
      · next hlt => rw [min_eq_left hlt.le]
      · next hlt => rw [min_eq_right (not_lt.mp hlt)]
    · intro hrate
      rw [hrate, hset] at hbook
      cases hbook
      rw [sub_micros hfx, sub_self]

lemma count_ok {out out' : AllocationResult} {remaining' : Money} {s : Slice}
    (h : out.count remaining s = .ok (out', remaining')) :
    out'.applied = out.applied ++ [s] ∧
      out'.totalFxDiff.micros = out.totalFxDiff.micros + s.fxDiff.micros ∧
      remaining'.micros = remaining.micros - s.amount.micros := by
  obtain ⟨totalApplied, -, h⟩ := bind_ok_iff.mp h
  obtain ⟨totalFxDiff, hfx, h⟩ := bind_ok_iff.mp h
  obtain ⟨rest, hrest, h⟩ := bind_ok_iff.mp h
  cases h
  exact ⟨rfl, add_micros hfx, sub_micros hrest⟩

/-! ### A list of slices -/

/-- The slices of a call applied in turn. -/
def applySlices (job : Job) (db : AccountDb) (ss : List Slice) : AccountDb :=
  ss.foldl (applySlice job) db

/-- What some slices add up to on a move. -/
def amountOn (moveId : ℤ) (ss : List Slice) : ℤ :=
  ((ss.filter fun s => s.moveId == moveId).map fun s => s.amount.micros).sum

variable (job : Job)

@[simp] lemma applySlices_nil (db : AccountDb) : applySlices job db [] = db := rfl

lemma applySlices_cons (db : AccountDb) (s : Slice) (ss : List Slice) :
    applySlices job db (s :: ss) = applySlices job (applySlice job db s) ss := rfl

lemma applySlices_snoc (db : AccountDb) (ss : List Slice) (s : Slice) :
    applySlices job db (ss ++ [s]) = applySlice job (applySlices job db ss) s := by
  simp [applySlices, foldl_append]

@[simp] lemma derived_derived (m : Move) (a b : ℤ) : (m.derived a).derived b = m.derived b := rfl

@[simp] lemma refreshResidual_payments (db : AccountDb) (moveId : ℤ) :
    (refreshResidual db moveId).payments = db.payments := rfl

@[simp] lemma applied_refreshResidual (db : AccountDb) (moveId i : ℤ) :
    (refreshResidual db moveId).applied i = db.applied i := rfl

lemma get?_refreshResidual (db : AccountDb) (moveId i : ℤ) :
    (refreshResidual db moveId).moves.get? i =
      (db.moves.get? i).map fun m => if i = moveId then m.derived (db.applied moveId) else m :=
  get?_modify _ _ _ _

variable {db : AccountDb} {p : Payment}

lemma applied_modifyPayment {id : ℤ} (f : Payment → Payment) (i : ℤ)
    (h : db.payments.get? id = some p) :
    (db.modifyPayment id f).applied i = db.applied i - p.appliedTo i + (f p).appliedTo i :=
  sumOver_modify _ f h

lemma get?_applySlice_payments (db : AccountDb) (s : Slice) (j : ℤ) :
    (applySlice job db s).payments.get? j = (db.payments.get? j).map fun p =>
      if j = job.paymentId then { p with allocations := p.allocations ++ [job.row s] } else p :=
  get?_modify _ _ _ _

lemma appliedTo_append (p : Payment) (r : PartialReconcile) (i : ℤ) :
    ({ p with allocations := p.allocations ++ [r] } : Payment).appliedTo i =
      p.appliedTo i + if r.moveId = i then r.amount else 0 := by
  by_cases hi : r.moveId = i
  · simp [Payment.appliedTo, filter_append, hi]
  · simp [Payment.appliedTo, filter_append, hi]

lemma applied_applySlice {job : Job} (s : Slice) (i : ℤ)
    (h : db.payments.get? job.paymentId = some p) :
    (applySlice job db s).applied i =
      db.applied i + if s.moveId = i then s.amount.micros else 0 := by
  show (db.modifyPayment _ _).applied i = _
  rw [applied_modifyPayment _ _ h, appliedTo_append]
  show _ - _ + (_ + if s.moveId = i then s.amount.micros else 0) = _
  ring

lemma get?_applySlice_moves (db : AccountDb) (s : Slice) (i : ℤ) :
    (applySlice job db s).moves.get? i = (db.moves.get? i).map fun m =>
      if i = s.moveId then m.derived ((applySlice job db s).applied i) else m := by
  show (refreshResidual _ _).moves.get? i = _
  rw [get?_refreshResidual]
  congr 1
  funext m
  by_cases hi : i = s.moveId
  · rw [if_pos hi, if_pos hi, hi]
    rfl
  · rw [if_neg hi, if_neg hi]

/-- Slices go to the allocations of the payment they are of. -/
lemma applySlices_payments (db : AccountDb) (ss : List Slice) (j : ℤ) :
    (applySlices job db ss).payments.get? j = (db.payments.get? j).map fun p =>
      if j = job.paymentId then { p with allocations := p.allocations ++ ss.map job.row } else p := by
  induction ss using reverseRecOn with
  | nil => simp
  | append_singleton ss s ih =>
      rw [applySlices_snoc, get?_applySlice_payments, ih, Option.map_map]
      congr 1
      funext p
      by_cases hj : j = job.paymentId
      · simp [hj]
      · simp [hj]

variable (ss : List Slice)

/-- The payment of a call exists throughout it. -/
lemma exists_applySlices {job : Job} (h : db.payments.get? job.paymentId = some p) :
    (applySlices job db ss).payments.get? job.paymentId =
      some { p with allocations := p.allocations ++ ss.map job.row } := by
  rw [applySlices_payments, h]
  simp

lemma applied_applySlices {job : Job} (i : ℤ) (h : db.payments.get? job.paymentId = some p) :
    (applySlices job db ss).applied i = db.applied i + amountOn i ss := by
  induction ss using reverseRecOn with
  | nil => simp [amountOn]
  | append_singleton ss s ih =>
      rw [applySlices_snoc, applied_applySlice s i (exists_applySlices ss h), ih]
      by_cases hi : s.moveId = i
      · simp [amountOn, filter_append, hi, add_assoc]
      · simp [amountOn, filter_append, hi]

/-- A move that got a slice is derived again, the others are as they were. -/
lemma applySlices_moves {job : Job} (i : ℤ) (h : db.payments.get? job.paymentId = some p) :
    (applySlices job db ss).moves.get? i = (db.moves.get? i).map fun m =>
      if i ∈ ss.map Slice.moveId then m.derived ((applySlices job db ss).applied i) else m := by
  induction ss using reverseRecOn with
  | nil => simp
  | append_singleton ss s ih =>
      rw [applySlices_snoc, get?_applySlice_moves, ih, Option.map_map]
      congr 1
      funext m
      by_cases hi : i = s.moveId
      · -- the last slice derives the move anew, whatever was stored before
        simp only [Function.comp, hi, if_true, map_append, map_cons, map_nil,
          mem_append, mem_singleton, or_true]
        split
        · rfl
        · rfl
      · -- the last slice is on another move, so the applied amount is as it was
        have hsame : (applySlice job (applySlices job db ss) s).applied i =
            (applySlices job db ss).applied i := by
          rw [applied_applySlice s i (exists_applySlices ss h), if_neg (Ne.symm hi), add_zero]
        simp only [Function.comp, if_false, hsame, map_append, map_cons, map_nil,
          mem_append, mem_singleton, hi, or_false]

/-- Slices change moves and payments and nothing else. -/
lemma applySlices_rest (db : AccountDb) (ss : List Slice) :
    ∃ moves payments, applySlices job db ss = { db with moves := moves, payments := payments } := by
  induction ss using reverseRecOn with
  | nil => exact ⟨_, _, rfl⟩
  | append_singleton ss s ih =>
      obtain ⟨moves, payments, h⟩ := ih
      rw [applySlices_snoc, h]
      exact ⟨_, _, rfl⟩

/-! ### The loop -/

/-- What the slices of a call are: one document after the other. -/
lemma drawn_cons {budget : ℤ} (h : budget ≠ 0) (d : OpenDocument) (ds : List OpenDocument) :
    drawn budget (d :: ds) =
      (d.id, min budget d.residual) :: drawn (budget - min budget d.residual) ds := by
  simp only [drawn, map_cons, allot_cons h, zip_cons_cons]

/-- **What a call of the loop does.**  It applies slices; these follow the
allotment of the budget as far as they go, and all the way when the call
succeeds. -/
theorem settle_effect (db : AccountDb) (out : AllocationResult) (remaining : Money)
    {docs : List OpenDocument} (hopen : ∀ d ∈ docs, d.residual ≠ 0) :
    ∃ ss : List Slice, (settle job db out remaining docs).1 = applySlices job db ss ∧
      (ss.map fun s => (s.moveId, s.amount.micros)) <+: drawn remaining.micros docs ∧
      (∀ s ∈ ss, ∃ d ∈ docs, ∃ r, slice job.settlementRate r d = .ok (some s)) ∧
      ∀ out', (settle job db out remaining docs).2 = .ok out' →
        (ss.map fun s => (s.moveId, s.amount.micros)) = drawn remaining.micros docs ∧
          out'.totalFxDiff.micros =
            out.totalFxDiff.micros + (ss.map fun s => s.fxDiff.micros).sum := by
  induction docs generalizing db out remaining with
  | nil =>
      refine ⟨[], rfl, nil_prefix, by simp, ?_⟩
      intro out' h
      cases h
      simp [drawn]
  | cons d ds ih =>
      have hrest : ∀ d' ∈ ds, d'.residual ≠ 0 := fun d' hd' => hopen d' (mem_cons_of_mem d hd')
      unfold settle
      split
      · next hzero =>
          refine ⟨[], rfl, nil_prefix, by simp, ?_⟩
          intro out' h
          cases h
          simp [drawn, hzero]
      next hne =>
      split
      · next e _ =>
          refine ⟨[], rfl, nil_prefix, by simp, ?_⟩
          intro out' h
          cases h
      · next hnone => exact absurd (slice_none hnone) (hopen d mem_cons_self)
      · next s hs =>
          obtain ⟨hid, hamount, -⟩ := slice_some hs
          have hhead : (s.moveId, s.amount.micros) = (d.id, min remaining.micros d.residual) :=
            Prod.ext hid hamount
          split
          · -- the slice is made, the totals do not hold it any more
            refine ⟨[s], rfl, ?_, ?_, ?_⟩
            · rw [drawn_cons hne, ← hhead]
              exact prefix_append [_] _
            · intro s' hs'
              rw [mem_singleton.mp hs']
              exact ⟨d, mem_cons_self, remaining, hs⟩
            · intro out' h
              cases h
          · next out₁ remaining₁ hcount =>
              obtain ⟨-, hfx, hleft⟩ := count_ok hcount
              obtain ⟨ss, heq, hpre, hfrom, hok⟩ := ih (applySlice job db s) out₁ remaining₁ hrest
              have hdrawn : drawn remaining.micros (d :: ds) =
                  (s.moveId, s.amount.micros) :: drawn remaining₁.micros ds := by
                rw [drawn_cons hne, hhead, hleft, hamount]
              refine ⟨s :: ss, heq, ?_, ?_, ?_⟩
              · rw [hdrawn, map_cons]
                exact cons_prefix_cons.mpr ⟨rfl, hpre⟩
              · intro s' hs'
                rcases mem_cons.mp hs' with rfl | hs'
                · exact ⟨d, mem_cons_self, remaining, hs⟩
                · obtain ⟨d', hd', r, hr⟩ := hfrom s' hs'
                  exact ⟨d', mem_cons_of_mem d hd', r, hr⟩
              · intro out' h
                obtain ⟨hall, hsum⟩ := hok out' h
                refine ⟨?_, ?_⟩
                · rw [hdrawn, map_cons, hall]
                · rw [hsum, hfx, map_cons, sum_cons, add_assoc]

/-! ### A whole call -/

variable {moveIds : List ℤ}

variable {partnerId : ℤ}

lemma mem_openDocuments {type : PaymentType} {d : OpenDocument} :
    d ∈ openDocuments db type partnerId moveIds ↔
      ∃ m, db.moves.get? d.id = some m ∧ m.partnerId = some partnerId ∧ m.state = .posted ∧
        settles type m.moveType = true ∧ (moveIds = [] ∨ d.id ∈ moveIds) ∧
        d = ⟨d.id, m.date, m.amountTotal, db.applied d.id, m.currencyRate⟩ ∧ d.residual ≠ 0 := by
  unfold openDocuments
  simp only [mem_insertionSort, mem_filter, mem_map, bne_iff_ne, Bool.and_eq_true,
    Bool.or_eq_true, beq_iff_eq, List.isEmpty_iff, contains_iff_mem]
  constructor
  · rintro ⟨⟨r, ⟨hmem, ⟨⟨hpartner, hstate⟩, htype⟩, hids⟩, rfl⟩, hres⟩
    exact ⟨r.2, get?_eq_some_iff.mpr hmem, hpartner, hstate, htype, hids, rfl, hres⟩
  · rintro ⟨m, hget, hpartner, hstate, htype, hids, heq, hres⟩
    exact ⟨⟨(d.id, m), ⟨get?_eq_some_iff.mp hget, ⟨⟨hpartner, hstate⟩, htype⟩, hids⟩,
      heq.symm⟩, hres⟩

/-- A payment that may be allocated, with its partner. -/
def payer (db : AccountDb) (paymentId : ℤ) : Option (Payment × ℤ) :=
  match db.payments.get? paymentId with
  | none => none
  | some p =>
      if p.state = .posted ∧ p.partnerId.getD 0 ≠ 0 then some (p, p.partnerId.getD 0) else none

/-- What a call draws on a payment, document by document. -/
def drawnBy (db : AccountDb) (paymentId : ℤ) (moveIds : List ℤ) : List (ℤ × ℤ) :=
  match payer db paymentId with
  | none => []
  | some (p, partnerId) => drawn p.amount (openDocuments db p.paymentType partnerId moveIds)

variable {paymentId : ℤ}

lemma payer_eq_some_iff : payer db paymentId = some (p, partnerId) ↔
      db.payments.get? paymentId = some p ∧ p.state = .posted ∧ p.partnerId.getD 0 = partnerId ∧
        partnerId ≠ 0 := by
  unfold payer
  rcases e : db.payments.get? paymentId with - | q
  · simp
  · simp only [Option.ite_none_right_eq_some, Option.some.injEq, Prod.mk.injEq]
    constructor
    · rintro ⟨⟨hstate, hpartner⟩, rfl, rfl⟩
      exact ⟨rfl, hstate, rfl, hpartner⟩
    · rintro ⟨rfl, hstate, rfl, hpartner⟩
      exact ⟨⟨hstate, hpartner⟩, rfl, rfl⟩

lemma prepare_ok {receivedBase : Money} {job : Job}
    (h : prepare db paymentId receivedBase moveIds = .ok job) :
    ∃ p partnerId, payer db paymentId = some (p, partnerId) ∧ job.paymentId = paymentId ∧
      settlementRate p receivedBase = .ok job.settlementRate ∧ job.amount.micros = p.amount ∧
      job.documents = openDocuments db p.paymentType partnerId moveIds := by
  unfold prepare at h
  rcases e : db.payments.get? paymentId with - | p
  · rw [e] at h
    cases h
  · rw [e] at h
    obtain ⟨_, hstate, h⟩ := bind_ok_iff.mp h
    obtain ⟨_, hpartner, h⟩ := bind_ok_iff.mp h
    obtain ⟨rate, hrate, h⟩ := bind_ok_iff.mp h
    cases h
    exact ⟨p, _, payer_eq_some_iff.mpr ⟨e, require_ok_iff.mp hstate, rfl,
      require_ok_iff.mp hpartner⟩, rfl, hrate, rfl, rfl⟩

/-- **What `allocate` does.**  Whether it fails or not, it applies slices of the
payment, and these follow what the payment draws; the whole of it, when it does
not fail. -/
theorem allocate_effect (db : AccountDb) (paymentId : ℤ) (receivedBase : Money)
    (moveIds : List ℤ) :
    ∃ (job : Job) (ss : List Slice), job.paymentId = paymentId ∧
      (allocate db paymentId receivedBase moveIds).1 = applySlices job db ss ∧
      (ss.map fun s => (s.moveId, s.amount.micros)) <+: drawnBy db paymentId moveIds ∧
      ∀ out, (allocate db paymentId receivedBase moveIds).2 = .ok out →
        prepare db paymentId receivedBase moveIds = .ok job ∧
        (ss.map fun s => (s.moveId, s.amount.micros)) = drawnBy db paymentId moveIds ∧
        out.totalFxDiff.micros = (ss.map fun s => s.fxDiff.micros).sum ∧
        ∀ s ∈ ss, ∃ d ∈ job.documents, ∃ r, slice job.settlementRate r d = .ok (some s) := by
  unfold allocate
  rcases e : prepare db paymentId receivedBase moveIds with err | job
  · refine ⟨⟨paymentId, 0, "", 0, { micros := 0 }, []⟩, [], rfl, rfl, nil_prefix, ?_⟩
    intro out h
    cases h
  · obtain ⟨p, partnerId, hpayer, hid, -, hamount, hdocs⟩ := prepare_ok e
    have hopen : ∀ d ∈ job.documents, d.residual ≠ 0 := by
      intro d hd
      rw [hdocs] at hd
      obtain ⟨m, -, -, -, -, -, -, hres⟩ := mem_openDocuments.mp hd
      exact hres
    have hdrawn : drawnBy db paymentId moveIds = drawn job.amount.micros job.documents := by
      simp only [drawnBy, hpayer, hamount, hdocs]
    obtain ⟨ss, heq, hpre, hfrom, hok⟩ :=
      settle_effect job db { unallocated := job.amount } job.amount hopen
    refine ⟨job, ss, hid, heq, hdrawn ▸ hpre, ?_⟩
    intro out h
    obtain ⟨hall, hfx⟩ := hok out h
    exact ⟨rfl, hdrawn ▸ hall, by simpa using hfx, hfrom⟩

/-- Only a payment that may be allocated draws anything. -/
lemma payer_of_mem_drawnBy {x : ℤ × ℤ} (h : x ∈ drawnBy db paymentId moveIds) :
    ∃ p partnerId, payer db paymentId = some (p, partnerId) ∧
      ∃ d ∈ openDocuments db p.paymentType partnerId moveIds, x.1 = d.id := by
  unfold drawnBy at h
  rcases e : payer db paymentId with - | ⟨p, partnerId⟩
  · rw [e] at h
    cases h
  · rw [e] at h
    obtain ⟨⟨d, a⟩, hmem, rfl⟩ := mem_map.mp h
    exact ⟨p, partnerId, rfl, d, (of_mem_zip hmem).1, rfl⟩

/-- What is drawn is drawn by a posted payment on a posted document of its
partner. -/
lemma of_mem_drawnBy {x : ℤ × ℤ} (h : x ∈ drawnBy db paymentId moveIds) :
    (∃ p, db.payments.get? paymentId = some p ∧ p.state = .posted) ∧
      (∃ m, db.moves.get? x.1 = some m ∧ m.state = .posted ∧ m.moveType.isInvoice = true) ∧
      (moveIds = [] ∨ x.1 ∈ moveIds) := by
  obtain ⟨p, partnerId, hpayer, d, hd, hid⟩ := payer_of_mem_drawnBy h
  obtain ⟨hget, hstate, -, -⟩ := payer_eq_some_iff.mp hpayer
  obtain ⟨m, hm, -, hposted, htype, hids, -, -⟩ := mem_openDocuments.mp hd
  refine ⟨⟨p, hget, hstate⟩, ⟨m, hid ▸ hm, hposted, ?_⟩, hid ▸ hids⟩
  unfold settles at htype
  split at htype
  · rcases e : m.moveType with - | - | - | - | - | -
    all_goals simp_all [MoveType.isInvoice]
  · rcases e : m.moveType with - | - | - | - | - | -
    all_goals simp_all [MoveType.isInvoice]

/-- The amounts drawn are an allotment of the payment's amount. -/
lemma drawn_amounts (budget : ℤ) (docs : List OpenDocument) : (drawn budget docs).map Prod.snd =
      allot budget (docs.map OpenDocument.residual) := by
  have hlen := length_allot_le budget (docs.map OpenDocument.residual)
  rw [length_map] at hlen
  rw [drawn, map_map]
  exact map_snd_zip hlen

/-! ### One document -/

/-- A move as the query returns it. -/
def asOpen (db : AccountDb) (id : ℤ) (m : Move) : OpenDocument :=
  ⟨id, m.date, m.amountTotal, db.applied id, m.currencyRate⟩

/-- A payment draws on a document: there is something to spend, and the
document is a posted one of its partner and kind that owes something. -/
def Draws (db : AccountDb) (p : Payment) (partnerId : ℤ) (id : ℤ) (m : Move) : Prop :=
  p.amount ≠ 0 ∧ m.partnerId = some partnerId ∧ m.state = .posted ∧
    settles p.paymentType m.moveType = true ∧ m.amountTotal - db.applied id ≠ 0

instance (db : AccountDb) (p : Payment) (partnerId id : ℤ) (m : Move) :
    Decidable (Draws db p partnerId id m) :=
  inferInstanceAs (Decidable (_ ∧ _))

lemma openDocuments_nodup (db : AccountDb) (type : PaymentType) (partnerId : ℤ)
    (moveIds : List ℤ) : ((openDocuments db type partnerId moveIds).map OpenDocument.id).Nodup := by
  refine ((perm_insertionSort _ _).map OpenDocument.id).nodup_iff.mpr ?_
  refine Nodup.sublist (filter_sublist.map _) ?_
  rw [map_map]
  exact db.moves.nodup.sublist (filter_sublist.map _)

/-- Asked for one document, the query returns it or nothing. -/
lemma openDocuments_single {id : ℤ} {m : Move} (type : PaymentType) (partnerId : ℤ)
    (h : db.moves.get? id = some m) :
    openDocuments db type partnerId [id] = [] ∨
      openDocuments db type partnerId [id] = [asOpen db id m] := by
  have hall : ∀ d ∈ openDocuments db type partnerId [id], d = asOpen db id m := by
    intro d hd
    obtain ⟨m', hm', -, -, -, hids, heq, -⟩ := mem_openDocuments.mp hd
    have hid : d.id = id := by simpa using hids
    rw [hid, h] at hm'
    cases hm'
    rw [heq, hid]
    rfl
  have hnodup := openDocuments_nodup db type partnerId [id]
  rcases e : openDocuments db type partnerId [id] with - | ⟨d, ds⟩
  · exact .inl rfl
  · rw [e] at hall hnodup
    refine .inr ?_
    have hd : d = asOpen db id m := hall d mem_cons_self
    rcases ds with - | ⟨d', ds⟩
    · rw [hd]
    · have hd' : d' = asOpen db id m := hall d' (mem_cons_of_mem _ mem_cons_self)
      rw [hd, hd'] at hnodup
      simp at hnodup

lemma settle_single {job : Job} {db : AccountDb} {d : OpenDocument}
    (hne : job.amount.micros ≠ 0) (hopen : d.residual ≠ 0) :
    (∃ e, settle job db { unallocated := job.amount } job.amount [d] = (db, .error e)) ∨
      ∃ s, slice job.settlementRate job.amount d = .ok (some s) ∧
        (settle job db { unallocated := job.amount } job.amount [d]).1 = applySlice job db s ∧
        ∀ out, (settle job db { unallocated := job.amount } job.amount [d]).2 = .ok out →
          out.totalFxDiff.micros = s.fxDiff.micros := by
  rw [settle, if_neg hne]
  rcases e : slice job.settlementRate job.amount d with err | - | s
  · exact .inl ⟨err, rfl⟩
  · exact absurd (slice_none e) hopen
  · refine .inr ⟨s, rfl, ?_⟩
    dsimp only
    rcases ec : AllocationResult.count { unallocated := job.amount } job.amount s with
      err | ⟨out, remaining⟩
    · refine ⟨rfl, ?_⟩
      intro out h
      cases h
    · obtain ⟨-, hfx, -⟩ := count_ok ec
      refine ⟨rfl, ?_⟩
      intro out' h
      cases h
      simpa using hfx

/-- **A payment spent on one document.**  Either nothing is changed, or one
slice of the payment is applied to it. -/
theorem allocate_single {pid id : ℤ} {m : Move} (received : Money)
    (hpayer : payer db pid = some (p, partnerId)) (hget : db.moves.get? id = some m) :
    ((allocate db pid received [id]).1 = db ∧ ∀ out, (allocate db pid received [id]).2 = .ok out →
        ¬ Draws db p partnerId id m ∧ out.totalFxDiff.micros = 0) ∨
    (Draws db p partnerId id m ∧ ∃ (job : Job) (rate : ℤ) (s : Slice),
      job.paymentId = pid ∧ settlementRate p received = .ok rate ∧
      slice rate { micros := p.amount } (asOpen db id m) = .ok (some s) ∧
      (allocate db pid received [id]).1 = applySlice job db s ∧
      ∀ out, (allocate db pid received [id]).2 = .ok out →
        out.totalFxDiff.micros = s.fxDiff.micros) := by
  unfold allocate
  rcases e : prepare db pid received [id] with err | job
  · refine .inl ⟨rfl, ?_⟩
    intro out h
    cases h
  obtain ⟨p', partner', hpayer', hid, hrate, hamount, hdocs⟩ := prepare_ok e
  rw [hpayer] at hpayer'
  cases hpayer'
  have hjob : job.amount = { micros := p.amount } := by
    unfold prepare at e
    rw [(payer_eq_some_iff.mp hpayer).1] at e
    obtain ⟨_, -, e⟩ := bind_ok_iff.mp e
    obtain ⟨_, -, e⟩ := bind_ok_iff.mp e
    obtain ⟨rate, -, e⟩ := bind_ok_iff.mp e
    cases e
    rfl
  have hmem : ∀ d, d ∈ openDocuments db p.paymentType partnerId [id] →
      d = asOpen db id m ∧ m.partnerId = some partnerId ∧ m.state = .posted ∧
        settles p.paymentType m.moveType = true ∧ m.amountTotal - db.applied id ≠ 0 := by
    intro d hd
    obtain ⟨m', hm', hpartner, hstate, htype, hids, heq, hres⟩ := mem_openDocuments.mp hd
    have hdid : d.id = id := by simpa using hids
    rw [hdid, hget] at hm'
    cases hm'
    refine ⟨heq.trans (by rw [hdid]; rfl), hpartner, hstate, htype, ?_⟩
    rw [heq, hdid] at hres
    exact hres
  dsimp only
  rw [hdocs]
  rcases openDocuments_single p.paymentType partnerId hget with hnil | hone
  · -- the query returns nothing
    rw [hnil]
    refine .inl ⟨rfl, ?_⟩
    intro out h
    cases h
    refine ⟨?_, rfl⟩
    rintro ⟨-, hpartner, hstate, htype, hres⟩
    have hd : asOpen db id m ∈ openDocuments db p.paymentType partnerId [id] :=
      mem_openDocuments.mpr ⟨m, hget, hpartner, hstate, htype, .inr (by simp [asOpen]), rfl, hres⟩
    rw [hnil] at hd
    cases hd
  · rw [hone]
    obtain ⟨-, hrest⟩ := hmem (asOpen db id m) (by rw [hone]; exact mem_cons_self)
    by_cases hzero : p.amount = 0
    · -- there is nothing to spend
      have hmicros : job.amount.micros = 0 := by rw [hjob]; exact hzero
      rw [settle, if_pos hmicros]
      refine .inl ⟨rfl, ?_⟩
      intro out h
      cases h
      exact ⟨fun hd => hd.1 hzero, rfl⟩
    · have hne : job.amount.micros ≠ 0 := by rw [hjob]; exact hzero
      have hopen : (asOpen db id m).residual ≠ 0 := hrest.2.2.2
      rcases @settle_single job db _ hne hopen with ⟨err, herr⟩ | ⟨s, hs, hstate, hfx⟩
      · rw [herr]
        refine .inl ⟨rfl, ?_⟩
        intro out h
        cases h
      · rw [hjob] at hs
        exact .inr ⟨⟨hzero, hrest⟩, job, job.settlementRate, s, hid, hrate, hs, hstate, hfx⟩

/-! ### Undoing -/

lemma foldl_refreshResidual_payments (ids : List ℤ) (db : AccountDb) :
    (ids.foldl refreshResidual db).payments = db.payments := by
  induction ids generalizing db with
  | nil => rfl
  | cons id ids ih => exact ih _

lemma get?_foldl_refreshResidual (ids : List ℤ) (db : AccountDb) (i : ℤ) :
    (ids.foldl refreshResidual db).moves.get? i =
      (db.moves.get? i).map fun m => if i ∈ ids then m.derived (db.applied i) else m := by
  induction ids generalizing db with
  | nil => simp
  | cons id ids ih =>
      rw [foldl_cons, ih, get?_refreshResidual, Option.map_map]
      congr 1
      funext m
      by_cases hi : i = id
      · simp [hi]
      · simp [hi]

lemma unallocate_payments (db : AccountDb) (paymentId j : ℤ) :
    (unallocate db paymentId).payments.get? j = (db.payments.get? j).map fun p =>
      if j = paymentId then { p with allocations := [] } else p := by
  show (List.foldl refreshResidual _ _).payments.get? j = _
  rw [foldl_refreshResidual_payments]
  exact get?_modify _ _ _ _

lemma applied_unallocate (i : ℤ) (h : db.payments.get? paymentId = some p) :
    (unallocate db paymentId).applied i = db.applied i - p.appliedTo i := by
  have hpay : (unallocate db paymentId).payments =
      (db.modifyPayment paymentId fun p => { p with allocations := [] }).payments :=
    foldl_refreshResidual_payments _ _
  show (unallocate db paymentId).payments.sumOver _ = _
  rw [hpay]
  show (db.modifyPayment paymentId _).applied i = _
  rw [applied_modifyPayment _ _ h]
  simp [Payment.appliedTo]

/-- A move the payment was applied to is derived again, the others are as they
were. -/
lemma unallocate_moves (db : AccountDb) (paymentId i : ℤ) :
    (unallocate db paymentId).moves.get? i = (db.moves.get? i).map fun m =>
      if i ∈ affected db paymentId then m.derived ((unallocate db paymentId).applied i) else m := by
  have happlied : (unallocate db paymentId).applied i =
      (db.modifyPayment paymentId fun p => { p with allocations := [] }).applied i := by
    show (unallocate db paymentId).payments.sumOver _ = _
    rw [unallocate, foldl_refreshResidual_payments]
    rfl
  rw [happlied]
  exact get?_foldl_refreshResidual _ _ _

end PaymentAllocation

end CErp
