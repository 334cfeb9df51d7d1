/-
Who settles whom while documents and payments live their own lives.

An allocation is a row of the payment that makes it and names the move it is
on; a payment names the entry it was posted with.  `LiveLinks` couples the
states of the three: a row links a posted payment to a posted move, and a
cancelled payment has no posted entry.  Cancelling touches neither the rows nor
the entry, so it keeps this, and undoes what it should, exactly when there is
nothing to undo (`live_links_iff`).
-/
import CErp.Allocations
import CErp.Balanced
import CErp.Reversal

namespace CErp

open AccountMove PaymentAllocation Runs List Table Option JsonDouble

def IsPosted (db : AccountDb) (id : ℤ) : Prop := ∃ m, db.moves.get? id = some m ∧ m.state = .posted

/-- Only live documents settle each other.  The entry of a payment exists, as
its foreign key has it. -/
structure LiveLinks (db : AccountDb) : Prop where
  rows : ∀ pid p, db.payments.get? pid = some p →
    ∀ r ∈ p.allocations, p.state = .posted ∧ IsPosted db r.moveId
  entries : ∀ pid p, db.payments.get? pid = some p → p.state = .cancelled →
    ∀ j ∈ p.moveId, ¬ IsPosted db j
  known : ∀ pid p, db.payments.get? pid = some p → ∀ j ∈ p.moveId, (db.moves.get? j).isSome = true

/-! ### Cancelling -/

/-- The payment is cancelled by a call that names it. -/
def Payment.cancellable (p : Payment) : Bool := p.state == .draft || p.state == .posted

/-- The move is cancelled by a call for some moves. -/
def cancels (db : AccountDb) (ids : List ℤ) (id : ℤ) : Bool :=
  ids.contains id && (db.moves.get? id).any fun m => m.state == .posted

/-- What cancelling some payments frees of a move. -/
def freedOf (db : AccountDb) (ids : List ℤ) (id : ℤ) : ℤ :=
  db.payments.sumOver fun pid p =>
    if ids.contains pid && p.cancellable then p.appliedTo id else 0

/-- Cancelling moves removes the allocations on them and no others, and restores
the credit of their payments. -/
def FreesPayments (db : AccountDb) (ids : List ℤ) (db' : AccountDb) : Prop :=
  ∀ pid p, db.payments.get? pid = some p → ∃ p', db'.payments.get? pid = some p' ∧
    p'.allocations = p.allocations.filter (fun r => !cancels db ids r.moveId) ∧
    p'.amount - p'.allocated = p.amount - p.allocated +
      ((p.allocations.filter fun r => cancels db ids r.moveId).map PartialReconcile.amount).sum

/-- Cancelling payments removes their allocations, and restores the residuals of
what they were on. -/
def FreesMoves (db : AccountDb) (ids : List ℤ) (db' : AccountDb) : Prop :=
  (∀ pid ∈ ids, ∀ p, db.payments.get? pid = some p → p.cancellable = true →
    ∃ p', db'.payments.get? pid = some p' ∧ p'.allocations = []) ∧
  ∀ id m, db.moves.get? id = some m → ∃ m', db'.moves.get? id = some m' ∧
    m'.amountResidual = m.amountResidual + freedOf db ids id

section Operations

variable {D : Type} [JsonDouble D]

/-- What an operation that cancels undoes. -/
def Frees (db : AccountDb) (db' : AccountDb) : AccountOp D → Prop
  | .buttonCancel ids => FreesPayments db ids db'
  | .cancelPayment ids => FreesMoves db ids db'
  | _ => True

/-- There is nothing to undo: no allocation is on a move that is cancelled, and
a payment that is cancelled has no allocations and no posted entry.  Nor is the
entry of a cancelled payment posted again. -/
def NothingToUndo (db : AccountDb) : AccountOp D → Prop
  | .actionPost ids => ∀ pid p, db.payments.get? pid = some p → p.state = .cancelled →
      ∀ j ∈ p.moveId, j ∉ ids
  | .buttonCancel ids => ∀ pid p, db.payments.get? pid = some p →
      ∀ r ∈ p.allocations, r.moveId ∉ ids
  | .cancelPayment ids => ∀ pid ∈ ids, ∀ p, db.payments.get? pid = some p →
      p.allocations = [] ∧ ∀ j ∈ p.moveId, ¬ IsPosted db j
  | _ => True

end Operations

/-! ### Changes that keep the links -/

/-- A payment keeps its state and its entry, and gains allocations on posted
moves only if it is posted itself; or it is posted anew. -/
inductive PaidFrom (db db' : AccountDb) (pid : ℤ) (p' : Payment) : Prop
  | kept (p : Payment) (hget : db.payments.get? pid = some p) (hstate : p'.state = p.state)
      (hentry : p'.moveId = p.moveId)
      (hrows : ∀ r ∈ p'.allocations, r ∈ p.allocations ∨ p.state = .posted ∧ IsPosted db r.moveId)
  | posted (hstate : p'.state = .posted)
      (hentry : ∀ j ∈ p'.moveId, (db'.moves.get? j).isSome = true)
      (hrows : ∀ r ∈ p'.allocations, IsPosted db r.moveId)

/-- The moves there are keep their states. -/
def KeepsStates (db db' : AccountDb) : Prop :=
  ∀ i m, db.moves.get? i = some m → ∃ m', db'.moves.get? i = some m' ∧ m'.state = m.state

variable {db db' : AccountDb} {id : ℤ}

lemma KeepsStates.isPosted (h : KeepsStates db db') (hposted : IsPosted db id) :
    IsPosted db' id := by
  obtain ⟨m, hm, hstate⟩ := hposted
  obtain ⟨m', hm', hsame⟩ := h id m hm
  exact ⟨m', hm', hsame.trans hstate⟩

/-- What exists and is not posted does not get posted. -/
lemma KeepsStates.not_isPosted (h : KeepsStates db db')
    (hsome : (db.moves.get? id).isSome = true) (hnot : ¬ IsPosted db id) : ¬ IsPosted db' id := by
  rintro ⟨m', hm', hposted⟩
  obtain ⟨m, hm⟩ := isSome_iff_exists.mp hsome
  obtain ⟨m₁, hm₁, hsame⟩ := h id m hm
  rw [hm'] at hm₁
  cases hm₁
  exact hnot ⟨m, hm, hsame.symm.trans hposted⟩

lemma KeepsStates.isSome (h : KeepsStates db db') (hsome : (db.moves.get? id).isSome = true) :
    (db'.moves.get? id).isSome = true := by
  obtain ⟨m, hm⟩ := isSome_iff_exists.mp hsome
  obtain ⟨m', hm', -⟩ := h id m hm
  exact isSome_iff_exists.mpr ⟨m', hm'⟩

/-- **The links are kept** by changes to the payments that leave the states of
the moves alone. -/
theorem LiveLinks.of_changes (h : LiveLinks db) (hmoves : KeepsStates db db')
    (hpay : ∀ pid p', db'.payments.get? pid = some p' → PaidFrom db db' pid p') :
    LiveLinks db' := by
  refine ⟨?_, ?_, ?_⟩
  · intro pid p' hp' r hr
    cases hpay pid p' hp' with
    | kept p hp hstate _ hrows =>
        rcases hrows r hr with hold | ⟨hposted, hmove⟩
        · obtain ⟨hposted, hmove⟩ := h.rows pid p hp r hold
          exact ⟨hstate.trans hposted, hmoves.isPosted hmove⟩
        · exact ⟨hstate.trans hposted, hmoves.isPosted hmove⟩
    | posted hstate _ hrows => exact ⟨hstate, hmoves.isPosted (hrows r hr)⟩
  · intro pid p' hp' hcancelled j hj
    cases hpay pid p' hp' with
    | kept p hp hstate hentry _ =>
        rw [hentry] at hj
        exact hmoves.not_isPosted (h.known pid p hp j hj)
          (h.entries pid p hp (hstate.symm.trans hcancelled) j hj)
    | posted hstate _ _ =>
        rw [hstate] at hcancelled
        cases hcancelled
  · intro pid p' hp' j hj
    cases hpay pid p' hp' with
    | kept p hp _ hentry _ =>
        rw [hentry] at hj
        exact hmoves.isSome (h.known pid p hp j hj)
    | posted _ hentry _ => exact hentry j hj

/-- Payments that are as they were. -/
lemma paidFrom_same (hpay : db'.payments = db.payments) (pid : ℤ) (p' : Payment)
    (hp' : db'.payments.get? pid = some p') : PaidFrom db db' pid p' := by
  rw [hpay] at hp'
  exact .kept p' hp' rfl rfl fun r hr => .inl hr

/-- Documents that are as they were keep their states. -/
lemma keepsStates_of_document (h : ∀ i, i ≠ db.moves.nextId → db'.document i = db.document i) :
    KeepsStates db db' := by
  intro i m hm
  have hdoc := (h i (lt_nextId_of_get? hm).ne).trans (document_of_get? hm)
  obtain ⟨m', hm', heq⟩ := document_eq_some hdoc
  have hstate := congrArg Move.state heq
  exact ⟨m', hm', hstate⟩

lemma Enters.keepsStates {e : Move} (h : Enters db db' e) : KeepsStates db db' := by
  refine keepsStates_of_document fun i hi => ?_
  rw [h i, if_neg hi]

/-! ### Each operation -/

lemma allocate_live {db : AccountDb} {pid : ℤ} {received : Money} {ids : List ℤ}
    (h : LiveLinks db) : LiveLinks (allocate db pid received ids).1 := by
  refine h.of_changes (keepsStates_of_document fun i _ => document_allocate db pid received ids i) ?_
  obtain ⟨job, ss, hid, hstate, hpre, -⟩ := allocate_effect db pid received ids
  rw [hstate]
  intro i p' hp'
  rw [applySlices_payments, map_eq_some_iff] at hp'
  obtain ⟨p, hp, rfl⟩ := hp'
  by_cases hi : i = job.paymentId
  · rw [if_pos hi]
    refine .kept p hp rfl rfl ?_
    intro r hr
    rcases mem_append.mp hr with hold | hnew
    · exact .inl hold
    · -- a slice of the call: of a posted payment, on a posted move
      obtain ⟨s, hs, rfl⟩ := List.mem_map.mp hnew
      have hdrawn := hpre.subset (List.mem_map.mpr ⟨s, hs, rfl⟩)
      obtain ⟨⟨q, hq, hposted⟩, ⟨m, hm, hmove, -⟩, -⟩ := of_mem_drawnBy hdrawn
      rw [← hid, ← hi, hp] at hq
      cases hq
      exact .inr ⟨hposted, m, hm, hmove⟩
  · rw [if_neg hi]
    exact .kept p hp rfl rfl fun r hr => .inl hr

lemma unallocate_live {pid : ℤ} (h : LiveLinks db) : LiveLinks (unallocate db pid) := by
  refine h.of_changes (keepsStates_of_document fun i _ => document_unallocate db pid i) ?_
  intro i p' hp'
  rw [unallocate_payments, map_eq_some_iff] at hp'
  obtain ⟨p, hp, rfl⟩ := hp'
  by_cases hi : i = pid
  · rw [if_pos hi]
    exact .kept p hp rfl rfl fun r hr => absurd hr not_mem_nil
  · rw [if_neg hi]
    exact .kept p hp rfl rfl fun r hr => .inl hr

variable {now : Moment}

lemma registerPaymentOne_live {D : Type} [JsonDouble D] {args : PaymentArgs D}
    (h : LiveLinks db) (hone : registerPaymentOne now args db id = .ok db') : LiveLinks db' := by
  obtain ⟨_, _, _, _, _, _, _, _, -, -, -, -, -, henters⟩ := registerPaymentOne_enters hone
  obtain ⟨m, r, name, rows, lines, hget, hr, hrows, hpay, -, hmoves⟩ := registerPaymentOne_effect hone
  obtain ⟨hposted, -⟩ := registration_amount hr
  refine h.of_changes henters.keepsStates ?_
  intro i p' hp'
  rw [hpay] at hp'
  split at hp'
  · -- the payment is posted with its entry, and at most one row is on the document
    cases hp'
    refine .posted rfl ?_ ?_
    · rintro j ⟨⟩
      rw [hmoves, if_pos rfl]
      rfl
    · intro row hrow
      have hrow : row ∈ rows := hrow
      rw [SpentOn] at hrows
      split at hrows
      · obtain ⟨row', rfl, hdoc, -⟩ := hrows
        rw [mem_singleton.mp hrow, hdoc]
        exact ⟨m, hget, hposted⟩
      · rw [hrows] at hrow
        cases hrow
  · exact .kept p' hp' rfl rfl fun row hrow => .inl hrow

lemma postPaymentOne_live {D : Type} [JsonDouble D] {pid : ℤ} (h : LiveLinks db)
    (hone : AccountPayment.actionPostOne D db pid = .ok db') : LiveLinks db' := by
  obtain ⟨_, _, _, _, _, -, -, -, henters⟩ := postPaymentOne_enters hone
  obtain ⟨p, j, name, hget, hdraft, -, hpay⟩ := postPaymentOne_payments hone
  refine h.of_changes henters.keepsStates ?_
  intro i p' hp'
  rw [hpay, map_eq_some_iff] at hp'
  obtain ⟨q, hq, rfl⟩ := hp'
  by_cases hi : i = pid
  · rw [if_pos hi]
    rw [hi, hget] at hq
    cases hq
    refine .posted rfl ?_ ?_
    · rintro k ⟨⟩
      have hentered := henters db.moves.nextId
      rw [if_pos rfl] at hentered
      obtain ⟨e, he, -⟩ := document_eq_some hentered
      rw [he]
      rfl
    · intro r hr
      -- a draft has no allocations
      have hposted := (h.rows pid p hget r hr).1
      rw [hdraft] at hposted
      cases hposted
  · rw [if_neg hi]
    exact .kept q hq rfl rfl fun r hr => .inl hr

lemma reconcile_live {lineId moveId : ℤ} (h : LiveLinks db)
    (hone : BankStatement.reconcile now db lineId moveId = .ok db') : LiveLinks db' := by
  obtain ⟨_, _, _, _, _, -, henters⟩ := reconcile_enters hone
  obtain ⟨l, m, journalId, companyId, bankAcct, cpAcct, db₁, statementLines, -, -, -, -, -, -, hentry,
    rfl⟩ := BankStatement.reconcile_ok hone
  refine h.of_changes henters.keepsStates (paidFrom_same ?_)
  obtain ⟨⟨moves, n, rfl⟩, -⟩ := AccountDb.postEntry_ok hentry
  rfl

lemma recomputeOne_live {D : Type} [JsonDouble D] (h : LiveLinks db)
    (hone : recomputeOne D db id = .ok db') : LiveLinks db' := by
  obtain ⟨hpayments, hothers⟩ := recomputeOne_rest hone
  refine h.of_changes ?_ (paidFrom_same hpayments)
  intro i m hm
  by_cases hi : i = id
  · subst hi
    obtain ⟨totals, -, -, hafter⟩ := recomputeOne_ok hm hone
    exact ⟨_, hafter, rfl⟩
  · exact ⟨m, (hothers i hi).trans hm, rfl⟩

variable {ids : List ℤ}

lemma depreciate_live {asOf : String} (h : LiveLinks db)
    (hrun : AccountAsset.depreciate now asOf db ids = .ok db') : LiveLinks db' := by
  refine foldlM_keeps LiveLinks ?_ hrun h
  intro db₁ id db₂ h₁ hone
  refine depreciateOne_invariant LiveLinks
    (fun _ _ _ hinv => ⟨hinv.rows, hinv.entries, hinv.known⟩) ?_ hone h₁
  intro a acc due _ _ db₃ line db₄ _ h₃ hline
  obtain ⟨_, _, -, henters⟩ := postLine_enters hline
  obtain ⟨name, sequences, db₅, assets, -, hentry, rfl⟩ := AccountAsset.postLine_ok hline
  refine h₃.of_changes henters.keepsStates (paidFrom_same ?_)
  obtain ⟨⟨moves, n, rfl⟩, -⟩ := AccountDb.postEntry_ok hentry
  rfl

/-- A change of the states of some moves, none of which is linked. -/
lemma LiveLinks.updateStates {moves : Table Move} (h : LiveLinks db)
    (hkept : ∀ i m, db.moves.get? i = some m → ∃ m', moves.get? i = some m')
    (hrows : ∀ pid p, db.payments.get? pid = some p → ∀ r ∈ p.allocations,
      IsPosted { db with moves := moves } r.moveId)
    (hposted : ∀ pid p, db.payments.get? pid = some p → p.state = .cancelled → ∀ j ∈ p.moveId,
      IsPosted { db with moves := moves } j → IsPosted db j) :
    LiveLinks { db with moves := moves } := by
  refine ⟨?_, ?_, ?_⟩
  · intro pid p hp r hr
    exact ⟨(h.rows pid p hp r hr).1, hrows pid p hp r hr⟩
  · intro pid p hp hcancelled j hj hnow
    exact h.entries pid p hp hcancelled j hj (hposted pid p hp hcancelled j hj hnow)
  · intro pid p hp j hj
    obtain ⟨m, hm⟩ := isSome_iff_exists.mp (h.known pid p hp j hj)
    obtain ⟨m', hm'⟩ := hkept j m hm
    exact isSome_iff_exists.mpr ⟨m', hm'⟩

/-- Posting a draft that is not the entry of a cancelled payment. -/
lemma actionPostOne_live (h : LiveLinks db)
    (hok : ∀ pid p, db.payments.get? pid = some p → p.state = .cancelled → ∀ j ∈ p.moveId, j ≠ id)
    (hone : actionPostOne now db id = .ok db') : LiveLinks db' := by
  obtain ⟨m, name, sequences, hget, -, -, -, -, rfl⟩ := actionPostOne_ok hone
  have hmodify : ∀ i, (db.moves.modify id (post name)).get? i =
      if i = id then some (post name m) else db.moves.get? i := by
    intro i
    by_cases hi : i = id
    · rw [hi, get?_modify_self, hget, if_pos rfl]
      rfl
    · rw [get?_modify_of_ne _ _ hi, if_neg hi]
  have hposted : LiveLinks (posted db id m name sequences) := by
    have hmoves : LiveLinks { db with moves := db.moves.modify id (post name) } := by
      refine h.updateStates ?_ ?_ ?_
      · intro i m' hm'
        rw [hmodify]
        split
        · exact ⟨_, rfl⟩
        · exact ⟨m', hm'⟩
      · intro pid p hp r hr
        obtain ⟨m', hm', hstate⟩ := (h.rows pid p hp r hr).2
        rw [IsPosted]
        simp only [hmodify]
        split
        · exact ⟨_, rfl, rfl⟩
        · exact ⟨m', hm', hstate⟩
      · rintro pid p hp hcancelled j hj ⟨m', hm', hstate⟩
        have hm' : (db.moves.modify id (post name)).get? j = some m' := hm'
        rw [hmodify, if_neg (hok pid p hp hcancelled j hj)] at hm'
        exact ⟨m', hm', hstate⟩
    exact ⟨hmoves.rows, hmoves.entries, hmoves.known⟩
  split
  · exact drawCredit_invariant LiveLinks (fun _ _ h₁ _ => allocate_live h₁)
      (drawsInTurn_true id _ m.partnerId) hposted
  · exact hposted

/-! ### Posting moves -/

/-- Every payment keeps its state and its entry. -/
def SameEntries (db db' : AccountDb) : Prop :=
  ∀ pid, (db'.payments.get? pid).map (fun p => (p.state, p.moveId)) =
    (db.payments.get? pid).map fun p => (p.state, p.moveId)

lemma SameEntries.exists_payment (h : SameEntries db db') {pid : ℤ} {p : Payment}
    (hp : db.payments.get? pid = some p) :
    ∃ p', db'.payments.get? pid = some p' ∧ p'.state = p.state ∧ p'.moveId = p.moveId := by
  have hpid := h pid
  rw [hp] at hpid
  obtain ⟨p', hp', heq⟩ := map_eq_some_iff.mp hpid
  exact ⟨p', hp', congrArg Prod.fst heq, congrArg Prod.snd heq⟩

lemma allocate_sameEntries (db : AccountDb) (pid : ℤ) (received : Money) (ids : List ℤ) :
    SameEntries db (allocate db pid received ids).1 := by
  obtain ⟨job, ss, -, hstate, -⟩ := allocate_effect db pid received ids
  intro i
  rw [hstate, applySlices_payments, Option.map_map]
  congr 1
  funext p
  show ((if _ then _ else p : Payment).state, (if _ then _ else p : Payment).moveId) = _
  split
  · rfl
  · rfl

lemma actionPostOne_sameEntries (h : actionPostOne now db id = .ok db') : SameEntries db db' := by
  obtain ⟨m, name, sequences, -, -, -, -, -, rfl⟩ := actionPostOne_ok h
  split
  · refine drawCredit_invariant (SameEntries db) ?_ (drawsInTurn_true id _ m.partnerId) fun _ => rfl
    intro db₁ p h₁ _ i
    exact (allocate_sameEntries db₁ p _ _ i).trans (h₁ i)
  · exact fun _ => rfl

lemma KeepsPosted.isPosted (h : KeepsPosted db db') (hposted : IsPosted db id) :
    IsPosted db' id := by
  obtain ⟨m, hm, hstate⟩ := hposted
  obtain ⟨d', hd', hstate', -⟩ := h id m.document (document_of_get? hm) hstate
  obtain ⟨m', hm', rfl⟩ := document_eq_some hd'
  exact ⟨m', hm', hstate'⟩

lemma actionPostOne_isPosted (h : actionPostOne now db id = .ok db') : IsPosted db' id := by
  obtain ⟨m, name, -, -, -, -, hdoc⟩ := actionPostOne_document h
  have hafter := hdoc id
  rw [if_pos rfl] at hafter
  obtain ⟨m', hm', heq⟩ := document_eq_some hafter
  have hstate := congrArg Move.state heq
  exact ⟨m', hm', hstate⟩

lemma actionPost_isPosted (h : actionPost now db ids = .ok db') :
    ∀ id ∈ ids, IsPosted db' id := by
  induction ids generalizing db with
  | nil => exact fun id hid => absurd hid not_mem_nil
  | cons i ids ih =>
      obtain ⟨db₁, hone, hrest⟩ := foldlM_cons_ok.mp h
      have hkeeps : KeepsPosted db₁ db' :=
        foldlM_rel keepsPosted_refl keepsPosted_trans (fun _ _ _ => actionPostOne_keepsPosted) hrest
      rintro id hid
      rcases mem_cons.mp hid with rfl | hid
      · exact hkeeps.isPosted (actionPostOne_isPosted hone)
      · exact ih hrest id hid

section Iff

variable {D : Type}

lemma actionPost_live_iff (h : LiveLinks db) (hrun : actionPost now db ids = .ok db') :
    LiveLinks db' ↔ NothingToUndo db (.actionPost ids : AccountOp D) := by
  have hsame : SameEntries db db' :=
    @foldlM_rel _ _ _ _ SameEntries _ _ _ (fun _ _ => rfl) (fun hab hbc i => (hbc i).trans (hab i))
      (fun _ _ _ => actionPostOne_sameEntries) hrun
  constructor
  · intro h' pid p hp hcancelled j hj hmem
    obtain ⟨p', hp', hstate, hentry⟩ := hsame.exists_payment hp
    rw [← hentry] at hj
    exact h'.entries pid p' hp' (hstate.trans hcancelled) j hj (actionPost_isPosted hrun j hmem)
  · intro hok
    have hboth : LiveLinks db' ∧ SameEntries db' db := by
      refine @foldlM_invariant _ _ _ _ (fun _ id => ∀ pid p, db.payments.get? pid = some p →
        p.state = .cancelled → ∀ j ∈ p.moveId, j ≠ id)
        (fun db₁ => LiveLinks db₁ ∧ SameEntries db₁ db) _ _ _ ?_ ?_ hrun ⟨h, fun _ => rfl⟩
      · rintro db₁ id db₂ ⟨h₁, hentries⟩ hid hone
        refine ⟨actionPostOne_live h₁ ?_ hone, ?_⟩
        · intro pid p hp hcancelled j hj
          obtain ⟨p₀, hp₀, hstate, hentry⟩ := hentries.exists_payment hp
          rw [← hentry] at hj
          exact hid pid p₀ hp₀ (hstate.trans hcancelled) j hj
        · intro i
          exact (hentries i).trans (actionPostOne_sameEntries hone i).symm
      · refine inTurn_of_forall db fun id hid => ?_
        rintro pid p hp hcancelled j hj rfl
        exact hok pid p hp hcancelled j hj hid
    exact hboth.1

/-! ### Cancelling and resetting -/

lemma buttonDraft_live (ids : List ℤ) (h : LiveLinks db) : LiveLinks (buttonDraft db ids) := by
  have hget : ∀ i, (buttonDraft db ids).moves.get? i = (db.moves.get? i).map fun m =>
      if ids.contains i && m.state == .cancel then { m with state := .draft, name := "/" } else m :=
    fun i => get?_updateWhere _ _ _ _
  refine h.updateStates ?_ ?_ ?_
  · intro i m hm
    have hi := hget i
    rw [hm] at hi
    exact ⟨_, hi⟩
  · intro pid p hp r hr
    obtain ⟨m, hm, hposted⟩ := (h.rows pid p hp r hr).2
    have hi := hget r.moveId
    rw [hm] at hi
    refine ⟨_, hi, ?_⟩
    simp [hposted]
  · rintro pid p hp hcancelled j hj ⟨m', hm', hposted⟩
    have hm' : (buttonDraft db ids).moves.get? j = some m' := hm'
    rw [hget, map_eq_some_iff] at hm'
    obtain ⟨m, hm, rfl⟩ := hm'
    split at hposted
    · cases hposted
    · exact ⟨m, hm, hposted⟩

lemma buttonCancel_live_iff (h : LiveLinks db) :
    (LiveLinks (buttonCancel db ids) ∧ FreesPayments db ids (buttonCancel db ids)) ↔
      NothingToUndo db (.buttonCancel ids : AccountOp D) := by
  have hget : ∀ i, (buttonCancel db ids).moves.get? i = (db.moves.get? i).map fun m =>
      if ids.contains i && m.state == .posted then { m with state := .cancel } else m :=
    fun i => get?_updateWhere _ _ _ _
  constructor
  · rintro ⟨h', -⟩ pid p hp r hr hmem
    obtain ⟨m', hm', hposted⟩ := (h'.rows pid p hp r hr).2
    rw [hget, map_eq_some_iff] at hm'
    obtain ⟨m, hm, rfl⟩ := hm'
    split at hposted
    · cases hposted
    · next hnot =>
        apply hnot
        simp [hmem, hposted]
  · intro hok
    have hnone : ∀ pid p, db.payments.get? pid = some p → ∀ r ∈ p.allocations,
        cancels db ids r.moveId = false := by
      intro pid p hp r hr
      have hnot := hok pid p hp r hr
      simp [cancels, hnot]
    refine ⟨h.updateStates ?_ ?_ ?_, ?_⟩
    · intro i m hm
      have hi := hget i
      rw [hm] at hi
      exact ⟨_, hi⟩
    · intro pid p hp r hr
      obtain ⟨m, hm, hposted⟩ := (h.rows pid p hp r hr).2
      have hi := hget r.moveId
      rw [hm] at hi
      refine ⟨_, hi, ?_⟩
      have hnot := hok pid p hp r hr
      simp [hnot, hposted]
    · rintro pid p hp hcancelled j hj ⟨m', hm', hposted⟩
      have hm' : (buttonCancel db ids).moves.get? j = some m' := hm'
      rw [hget, map_eq_some_iff] at hm'
      obtain ⟨m, hm, rfl⟩ := hm'
      split at hposted
      · cases hposted
      · exact ⟨m, hm, hposted⟩
    · intro pid p hp
      have hkept : p.allocations.filter (fun r => !cancels db ids r.moveId) = p.allocations := by
        rw [filter_eq_self]
        intro r hr
        rw [hnone pid p hp r hr]
        rfl
      have hfreed : p.allocations.filter (fun r => cancels db ids r.moveId) = [] := by
        rw [filter_eq_nil_iff]
        intro r hr
        rw [hnone pid p hp r hr]
        exact Bool.false_ne_true
      refine ⟨p, hp, hkept.symm, ?_⟩
      rw [hfreed, map_nil, sum_nil, add_zero]

lemma actionCancel_live_iff (h : LiveLinks db) : (LiveLinks (AccountPayment.actionCancel db ids) ∧
      FreesMoves db ids (AccountPayment.actionCancel db ids)) ↔
      NothingToUndo db (.cancelPayment ids : AccountOp D) := by
  have hget : ∀ pid, (AccountPayment.actionCancel db ids).payments.get? pid =
      (db.payments.get? pid).map fun p =>
        if ids.contains pid && p.cancellable then { p with state := .cancelled } else p :=
    fun pid => get?_updateWhere _ _ _ _
  constructor
  · rintro ⟨h', hfrees, -⟩ pid hmem p hp
    rcases hc : p.cancellable with - | -
    · -- it is cancelled already
      have hcancelled : p.state = .cancelled := by
        rcases e : p.state with - | - | -
        · simp [Payment.cancellable, e] at hc
        · simp [Payment.cancellable, e] at hc
        · rfl
      refine ⟨?_, h.entries pid p hp hcancelled⟩
      rw [eq_nil_iff_forall_not_mem]
      intro r hr
      have hposted := (h.rows pid p hp r hr).1
      rw [hcancelled] at hposted
      cases hposted
    · obtain ⟨p', hp', hnil⟩ := hfrees pid hmem p hp hc
      have hafter := hp'
      rw [hget, hp, map_some, hc] at hafter
      simp only [contains_iff_mem, hmem, Bool.and_true, if_true] at hafter
      cases hafter
      have hentries := h'.entries pid _ hp' rfl
      exact ⟨hnil, hentries⟩
  · intro hok
    refine ⟨⟨?_, ?_, ?_⟩, ?_, ?_⟩
    · intro pid p' hp' r hr
      rw [hget, map_eq_some_iff] at hp'
      obtain ⟨p, hp, rfl⟩ := hp'
      split at hr
      · next hcancel =>
          rw [Bool.and_eq_true, contains_iff_mem] at hcancel
          rw [(hok pid hcancel.1 p hp).1] at hr
          cases hr
      · next hnot =>
          rw [if_neg hnot]
          exact h.rows pid p hp r hr
    · intro pid p' hp' hcancelled j hj
      rw [hget, map_eq_some_iff] at hp'
      obtain ⟨p, hp, rfl⟩ := hp'
      split at hj
      · next hcancel =>
          rw [Bool.and_eq_true, contains_iff_mem] at hcancel
          exact (hok pid hcancel.1 p hp).2 j hj
      · next hnot =>
          rw [if_neg hnot] at hcancelled
          exact h.entries pid p hp hcancelled j hj
    · intro pid p' hp' j hj
      rw [hget, map_eq_some_iff] at hp'
      obtain ⟨p, hp, rfl⟩ := hp'
      split at hj
      · exact h.known pid p hp j hj
      · exact h.known pid p hp j hj
    · intro pid hmem p hp hc
      refine ⟨_, by rw [hget, hp, map_some], ?_⟩
      split
      · exact (hok pid hmem p hp).1
      · exact (hok pid hmem p hp).1
    · intro id m hm
      refine ⟨m, hm, ?_⟩
      have hzero : freedOf db ids id = 0 := by
        apply sum_eq_zero
        intro a ha
        obtain ⟨⟨pid, p⟩, hmem, rfl⟩ := List.mem_map.mp ha
        dsimp only
        split
        · next hcancel =>
            rw [Bool.and_eq_true, contains_iff_mem] at hcancel
            have hnil := (hok pid hcancel.1 p (get?_eq_some_iff.mpr hmem)).1
            rw [Payment.appliedTo, hnil]
            rfl
        · rfl
      rw [hzero, add_zero]

/-! ### Runs -/

variable [JsonDouble D]

/-- **Exactly the operations that undo what they should keep the links.** -/
theorem step_live_iff {e : Moment × AccountOp D} (h : LiveLinks db)
    (hs : accountStep db e = some db') :
    (LiveLinks db' ∧ Frees db db' e.2) ↔ NothingToUndo db e.2 := by
  obtain ⟨now, op⟩ := e
  have hrun : op.run now db = .ok db' := accountStep_eq_some_iff.mp hs
  cases op with
  | actionPost ids => exact (and_iff_left trivial).trans (actionPost_live_iff h hrun)
  | buttonCancel ids =>
      cases hrun
      exact buttonCancel_live_iff h
  | cancelPayment ids =>
      cases hrun
      exact actionCancel_live_iff h
  | buttonDraft ids =>
      cases hrun
      exact iff_of_true ⟨buttonDraft_live ids h, trivial⟩ trivial
  | recomputeTotals ids =>
      have hlive := foldlM_keeps LiveLinks (fun _ _ _ => recomputeOne_live) hrun h
      exact iff_of_true ⟨hlive, trivial⟩ trivial
  | registerPayment ids args =>
      have hlive := foldlM_keeps LiveLinks (fun _ _ _ => registerPaymentOne_live) hrun h
      exact iff_of_true ⟨hlive, trivial⟩ trivial
  | postPayment ids =>
      have hlive := foldlM_keeps LiveLinks (fun _ _ _ => postPaymentOne_live) hrun h
      exact iff_of_true ⟨hlive, trivial⟩ trivial
  | allocate paymentId received moveIds =>
      rw [AccountOp.run] at hrun
      split at hrun
      · next e =>
          cases hrun
          have hlive := @allocate_live db paymentId received moveIds h
          rw [e] at hlive
          exact iff_of_true ⟨hlive, trivial⟩ trivial
      · cases hrun
  | unallocate paymentId =>
      cases hrun
      exact iff_of_true ⟨unallocate_live h, trivial⟩ trivial
  | reconcile lineId moveId =>
      exact iff_of_true ⟨reconcile_live h hrun, trivial⟩ trivial
  | depreciate ids asOf =>
      exact iff_of_true ⟨depreciate_live h hrun, trivial⟩ trivial

end Iff

lemma twoInvoices_live (paid : PaymentState) (issued : MoveState) :
    LiveLinks (twoInvoices paid issued) := by
  have hpayment : ∀ {pid p}, (twoInvoices paid issued).payments.get? pid = some p →
      p.allocations = [] ∧ p.moveId = none := by
    intro pid p hp
    have hmem := get?_eq_some_iff.mp hp
    obtain ⟨-, rfl⟩ := Prod.mk.inj (mem_singleton.mp hmem)
    exact ⟨rfl, rfl⟩
  refine ⟨?_, ?_, ?_⟩
  · intro pid p hp r hr
    rw [(hpayment hp).1] at hr
    cases hr
  · intro pid p hp _ j hj
    rw [(hpayment hp).2] at hj
    cases hj
  · intro pid p hp j hj
    rw [(hpayment hp).2] at hj
    cases hj

/-- The operations that post, pay, allocate, cancel or reset. -/
def AccountOp.movesDocuments {D : Type} : AccountOp D → Bool
  | .actionPost _ | .buttonCancel _ | .buttonDraft _ | .registerPayment _ _ | .postPayment _
  | .cancelPayment _ | .allocate _ _ _ | .unallocate _ => true
  | _ => false

end CErp
