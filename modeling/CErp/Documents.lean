/-
What the operations do to the documents: the moves, without the two columns
that are derived from what has been settled.

Allocating payments leaves every document as it was (`document_allocate`).
Posting a move changes that move (`actionPostOne_document`).  Every other way
to a posted move enters a new one: `Enters` says that one entry is new and all
documents are as they were, and the `*_enters` lemmas say with which entry.
None of the operations changes the settings.

The accounting module as a system: an event is an operation at a moment, and
an operation that fails leaves the tables as they were.
-/
import CErp.AccountAsset
import CErp.AccountPayment
import CErp.BankStatement
import CErp.Runs

namespace CErp

open PaymentAllocation
open AccountDb (numbered)

/-- A move without its residual and payment state. -/
def Move.document (m : Move) : Move := { m with amountResidual := 0, paymentState := .notPaid }

namespace AccountDb

def document (db : AccountDb) (id : ℤ) : Option Move := (db.moves.get? id).map Move.document

/-- The tables that no operation of this development changes. -/
def settings (db : AccountDb) : List (String × String) × Table Account × Table Journal × Table Tax :=
  (db.params, db.accounts, db.journals, db.taxes)

end AccountDb

/-- One document is new, the others are as they were. -/
def Enters (db db' : AccountDb) (e : Move) : Prop :=
  ∀ i, db'.document i = if i = db.moves.nextId then some e.document else db.document i

variable {id : ℤ}

lemma document_eq_some {db : AccountDb} {d : Move} (h : db.document id = some d) :
    ∃ m, db.moves.get? id = some m ∧ m.document = d :=
  Option.map_eq_some_iff.mp h

variable {m : Move}

lemma document_of_get? {db : AccountDb} (h : db.moves.get? id = some m) :
    db.document id = some m.document := by
  rw [AccountDb.document, h]
  rfl

variable (db : AccountDb)

/-- The identifier given next names no document yet. -/
@[simp] lemma document_nextId : db.document db.moves.nextId = none := by
  rw [AccountDb.document, Table.get?_nextId]
  rfl

/-! ### Allocations -/

@[simp] lemma document_derived (m : Move) (applied : ℤ) :
    (m.derived applied).document = m.document := rfl

lemma document_applySlice (job : Job) (db : AccountDb) (s : Slice) (i : ℤ) :
    (applySlice job db s).document i = db.document i := by
  rw [AccountDb.document, get?_applySlice_moves, Option.map_map, AccountDb.document]
  congr 1
  funext m
  show Move.document (if i = s.moveId then _ else m) = _
  split
  · rfl
  · rfl

lemma document_applySlices (job : Job) (db : AccountDb) (ss : List Slice) (i : ℤ) :
    (applySlices job db ss).document i = db.document i := by
  induction ss generalizing db with
  | nil => rfl
  | cons s ss ih => rw [applySlices_cons, ih, document_applySlice]

lemma document_allocate (paymentId : ℤ) (receivedBase : Money) (moveIds : List ℤ) (i : ℤ) :
    (allocate db paymentId receivedBase moveIds).1.document i = db.document i := by
  obtain ⟨job, ss, -, heq, -⟩ := allocate_effect db paymentId receivedBase moveIds
  rw [heq, document_applySlices]

lemma settings_allocate (paymentId : ℤ) (receivedBase : Money) (moveIds : List ℤ) :
    (allocate db paymentId receivedBase moveIds).1.settings = db.settings := by
  obtain ⟨job, ss, -, heq, -⟩ := allocate_effect db paymentId receivedBase moveIds
  obtain ⟨moves, payments, h⟩ := applySlices_rest job db ss
  rw [heq, h]
  rfl

lemma document_unallocate (paymentId i : ℤ) :
    (unallocate db paymentId).document i = db.document i := by
  rw [AccountDb.document, unallocate_moves, Option.map_map, AccountDb.document]
  congr 1
  funext m
  show Move.document (if i ∈ affected db paymentId then _ else m) = _
  split
  · rfl
  · rfl

variable {now : Moment}

variable (Inv : AccountDb → Prop)

namespace AccountMove

/-- A condition on every payment that is drawn on, when its turn comes. -/
def CreditInTurn (ok : AccountDb → ℤ → Prop) (id : ℤ) : AccountDb → List ℤ → Prop
  | _, [] => True
  | db, p :: ps =>
      ok db p ∧ ∀ db' out, allocate db p { micros := 0 } [id] = (db', .ok out) →
        CreditInTurn ok id db' ps

/-- **The rule for drawing credit.**  What a call keeps is kept also when it
fails, for what it did before it failed stays. -/
theorem drawPayments_invariant {ok : AccountDb → ℤ → Prop}
    (hstep : ∀ db p, Inv db → ok db p → Inv (allocate db p { micros := 0 } [id]).1)
    {db : AccountDb} {ps : List ℤ} (hok : CreditInTurn ok id db ps) (h0 : Inv db) :
    Inv (drawPayments id db ps) := by
  induction ps generalizing db with
  | nil => exact h0
  | cons p ps ih =>
      obtain ⟨hp, hps⟩ := hok
      have hnext := hstep db p h0 hp
      unfold drawPayments
      rcases e : allocate db p { micros := 0 } [id] with ⟨db₁, err | out⟩
      · rw [e] at hnext
        exact hnext
      · rw [e] at hnext
        dsimp only
        split
        · exact hnext
        · exact ih (hps db₁ out e) hnext

/-- A condition on the payments drawn on for an invoice, if it has a
partner. -/
def DrawsInTurn (ok : AccountDb → ℤ → Prop) (id : ℤ) (db : AccountDb) (partnerId : Option ℤ) :
    Prop :=
  ∀ partner, partnerId = some partner → CreditInTurn ok id db (unallocatedPayments db partner)

lemma drawCredit_invariant {ok : AccountDb → ℤ → Prop}
    (hstep : ∀ db p, Inv db → ok db p → Inv (allocate db p { micros := 0 } [id]).1)
    {db : AccountDb} {partnerId : Option ℤ} (hok : DrawsInTurn ok id db partnerId) (h0 : Inv db) :
    Inv (drawCredit db id partnerId) := by
  cases partnerId with
  | none => exact h0
  | some partner => exact drawPayments_invariant Inv hstep (hok partner rfl) h0

lemma drawsInTurn_true (id : ℤ) (db : AccountDb) (partnerId : Option ℤ) :
    DrawsInTurn (fun _ _ => True) id db partnerId := by
  have hall : ∀ (ps : List ℤ) (db : AccountDb), CreditInTurn (fun _ _ => True) id db ps := by
    intro ps
    induction ps with
    | nil => exact fun _ => trivial
    | cons p ps ih => exact fun _ => ⟨trivial, fun db' _ _ => ih db'⟩
  exact fun partner _ => hall _ db

lemma document_drawCredit (id : ℤ) (partnerId : Option ℤ) (i : ℤ) :
    (drawCredit db id partnerId).document i = db.document i := by
  refine drawCredit_invariant (fun db' => db'.document i = db.document i) ?_
    (drawsInTurn_true id db partnerId) rfl
  intro db' p h _
  rw [document_allocate, h]

lemma settings_drawCredit (id : ℤ) (partnerId : Option ℤ) :
    (drawCredit db id partnerId).settings = db.settings := by
  refine drawCredit_invariant (fun db' => db'.settings = db.settings) ?_
    (drawsInTurn_true id db partnerId) rfl
  intro db' p h _
  rw [settings_allocate, h]

/-! ### Posting -/

lemma document_posted {db : AccountDb} (name : String) (sequences : Table Sequence)
    (h : db.moves.get? id = some m) (i : ℤ) :
    (posted db id m name sequences).document i =
      if i = id then some (post name m).document else db.document i := by
  show ((db.moves.modify id (post name)).get? i).map Move.document = _
  by_cases hi : i = id
  · rw [if_pos hi, hi, Table.get?_modify_self, h]
    rfl
  · rw [if_neg hi, Table.get?_modify_of_ne _ _ hi]
    rfl

/-- **A posted move.**  It was a draft in an open period, balanced if it is a
journal entry, and nothing but its state and name has changed. -/
theorem actionPostOne_document {db db' : AccountDb} (h : actionPostOne now db id = .ok db') :
    ∃ m name, db.moves.get? id = some m ∧ m.state = .draft ∧ lockValues db.params m.date = [] ∧
      (m.moveType = .entry → linesBalance m.lines = 0) ∧
      ∀ i, db'.document i = if i = id then some (post name m).document else db.document i := by
  obtain ⟨m, name, sequences, hget, hdraft, hlock, hbalance, -, rfl⟩ := actionPostOne_ok h
  refine ⟨m, name, hget, hdraft, hlock, hbalance, ?_⟩
  intro i
  split
  · rw [document_drawCredit, document_posted name sequences hget]
  · rw [document_posted name sequences hget]

lemma actionPostOne_settings {db db' : AccountDb} (h : actionPostOne now db id = .ok db') :
    db'.settings = db.settings := by
  obtain ⟨m, name, sequences, -, -, -, -, -, rfl⟩ := actionPostOne_ok h
  split
  · rw [settings_drawCredit]
    rfl
  · rfl

end AccountMove

/-! ### New entries -/

variable {ls : List MoveLine}

/-- Inserting an entry with its lines enters it. -/
lemma postEntry_enters {db db' : AccountDb} (h : db.postEntry m ls = .ok db') :
    Enters db db' { m with
      moveType := .entry, state := .posted, lines := m.lines ++ numbered db.nextLineId ls } := by
  obtain ⟨-, hget⟩ := AccountDb.postEntry_ok h
  intro i
  rw [AccountDb.document, hget]
  split
  · rfl
  · rfl

lemma postEntry_settings {db db' : AccountDb} (h : db.postEntry m ls = .ok db') :
    db'.settings = db.settings := by
  obtain ⟨⟨moves, n, rfl⟩, -⟩ := AccountDb.postEntry_ok h
  rfl

/-- Inserting a draft with its lines enters it. -/
lemma addLines_enters {db db' : AccountDb}
    (h : (db.insertMove m).addLines db.moves.nextId ls = .ok db') :
    Enters db db' { m with lines := m.lines ++ numbered db.nextLineId ls } := by
  obtain ⟨-, hget⟩ := AccountDb.addLines_ok h
  intro i
  rw [AccountDb.document, hget, AccountDb.insertMove_moves]
  by_cases hi : i = db.moves.nextId
  · rw [hi, Table.get?_insert_self, Option.map_some, if_pos rfl, if_pos rfl]
    rfl
  · rw [Table.get?_insert_of_ne _ _ hi, if_neg hi, AccountDb.document]
    simp [hi]

/-- A quantity of the documents, added up over them. -/
lemma sumOver_eq_of_documents {db db' : AccountDb} {f : Move → ℤ} (hf : ∀ m, f m.document = f m)
    (h : ∀ i, (db'.document i).map f = (db.document i).map f) :
    (db'.moves.sumOver fun _ m => f m) = db.moves.sumOver fun _ m => f m := by
  apply Table.sumOver_eq_of_get?
  intro i
  have hfun : f = f ∘ Move.document := funext fun m => (hf m).symm
  rw [hfun, ← Option.map_map, ← Option.map_map]
  exact h i

/-- The new document counts too. -/
lemma Enters.sum {db db' : AccountDb} {e : Move} (h : Enters db db' e) {f : Move → ℤ}
    (hf : ∀ m, f m.document = f m) : (db'.moves.sumOver fun _ m => f m) =
      (db.moves.sumOver fun _ m => f m) + f e := by
  refine (@sumOver_eq_of_documents (db.insertMove e) _ _ hf ?_).trans (Table.sumOver_insert _ _ _)
  intro i
  rw [h i]
  show _ = (((db.moves.insert e).get? i).map Move.document).map f
  by_cases hi : i = db.moves.nextId
  · rw [if_pos hi, hi, Table.get?_insert_self]
    rfl
  · rw [if_neg hi, Table.get?_insert_of_ne _ _ hi]
    rfl

/-- A new document leaves the others as they are. -/
lemma Enters.keeps {db db' : AccountDb} {e d : Move} {i : ℤ} (h : Enters db db' e)
    (hd : db.document i = some d) : db'.document i = some d := by
  rw [h i, if_neg, hd]
  rintro rfl
  rw [document_nextId] at hd
  cases hd

/-- Later changes that leave the documents alone do not matter. -/
lemma Enters.congr {db db₁ db' : AccountDb} {e : Move} (h : Enters db db₁ e)
    (hdoc : ∀ i, db'.document i = db₁.document i) : Enters db db' e := by
  intro i
  rw [hdoc, h i]

/-- The entry of a registered payment. -/
def AccountMove.Registration.posted (r : AccountMove.Registration) (m : Move) (name : String)
    (lines : List MoveLine) : Move := { r.entry m name with lines := lines }

lemma registerPaymentOne_enters {D : Type} [JsonDouble D] {args : AccountMove.PaymentArgs D}
    {db db' : AccountDb} (h : AccountMove.registerPaymentOne now args db id = .ok db') :
    ∃ m r name sequences received db₂ alloc n,
      db.moves.get? id = some m ∧ AccountMove.registration now db args m = .ok r ∧
      db.nextJournalNumber now r.jcode = .ok (name, { db with sequences := sequences }) ∧
      AccountMove.receivedBase args = .ok received ∧
      allocate (r.opened { db with sequences := sequences } m name)
        db.payments.nextId received [id] = (db₂, .ok alloc) ∧
      Enters db db' (r.posted m name
        (numbered n (r.lines db₂ m received.micros alloc.totalFxDiff.micros))) := by
  obtain ⟨m, r, name, sequences, received, db₂, alloc, hget, hr, hname, hreceived, halloc, hlines⟩ :=
    AccountMove.registerPaymentOne_ok h
  refine ⟨m, r, name, sequences, received, db₂, alloc, db₂.nextLineId, hget, hr, hname, hreceived,
    halloc, ?_⟩
  intro i
  have hdoc := document_allocate (r.opened { db with sequences := sequences } m name)
    db.payments.nextId received [id] i
  rw [halloc] at hdoc
  obtain ⟨-, hmoves⟩ := AccountDb.addLines_ok hlines
  rw [AccountDb.document, hmoves, Option.map_map]
  by_cases hi : i = db.moves.nextId
  · -- the new entry, which has got its lines
    subst hi
    have hopened : (r.opened { db with sequences := sequences } m name).document db.moves.nextId =
        some (r.entry m name).document :=
      document_of_get? (Table.get?_insert_self _ _)
    obtain ⟨e, he, hed⟩ := document_eq_some (hdoc.trans hopened)
    rw [he, if_pos rfl]
    show some (Move.document (if _ then _ else e)) = _
    rw [if_pos rfl]
    have hlines : e.lines = [] := congrArg Move.lines hed
    have hwith : ∀ ls, ({ e with lines := ls } : Move).document = { e.document with lines := ls } :=
      fun ls => rfl
    rw [hwith, hed, hlines]
    rfl
  · have hopened : (r.opened { db with sequences := sequences } m name).document i =
        db.document i := by
      show Option.map _ ((db.moves.insert _).get? i) = _
      rw [Table.get?_insert_of_ne _ _ hi]
      rfl
    rw [if_neg hi, ← hopened, ← hdoc]
    show Option.map _ _ = Option.map _ _
    congr 1
    funext e
    show Move.document (if i = db.moves.nextId then _ else e) = _
    rw [if_neg hi]

lemma registerPaymentOne_settings {D : Type} [JsonDouble D] {args : AccountMove.PaymentArgs D}
    {db db' : AccountDb} (h : AccountMove.registerPaymentOne now args db id = .ok db') :
    db'.settings = db.settings := by
  obtain ⟨m, r, name, sequences, received, db₂, alloc, -, -, -, -, halloc, hlines⟩ :=
    AccountMove.registerPaymentOne_ok h
  have hset := settings_allocate (r.opened { db with sequences := sequences } m name)
    db.payments.nextId received [id]
  rw [halloc] at hset
  obtain ⟨⟨moves, n, rfl⟩, -⟩ := AccountDb.addLines_ok hlines
  exact hset

lemma postPaymentOne_enters {D : Type} [JsonDouble D] {db db' : AccountDb} {pid : ℤ}
    (h : AccountPayment.actionPostOne D db pid = .ok db') :
    ∃ p j cashAcc partnerAcc amount,
      db.payments.get? pid = some p ∧ p.state = .draft ∧ db.journals.get? p.journalId = some j ∧
      Enters db db' { AccountPayment.entry p
          (AccountPayment.entryName db j.code p.journalId p.date) with
        lines := numbered db.nextLineId (AccountPayment.legs p cashAcc partnerAcc amount) } := by
  obtain ⟨p, j, cashAcc, partnerAcc, amount, db₁, hget, hdraft, hj, hentry, rfl⟩ :=
    AccountPayment.actionPostOne_ok h
  exact ⟨p, j, cashAcc, partnerAcc, amount, hget, hdraft, hj,
    (postEntry_enters hentry).congr fun i => rfl⟩

lemma postPaymentOne_settings {D : Type} [JsonDouble D] {db db' : AccountDb} {pid : ℤ}
    (h : AccountPayment.actionPostOne D db pid = .ok db') : db'.settings = db.settings := by
  obtain ⟨p, j, cashAcc, partnerAcc, amount, db₁, -, -, -, hentry, rfl⟩ :=
    AccountPayment.actionPostOne_ok h
  show db₁.settings = _
  exact postEntry_settings hentry

/-- Posting a payment changes that payment, and no other. -/
lemma postPaymentOne_payments {D : Type} [JsonDouble D] {db db' : AccountDb} {pid : ℤ}
    (h : AccountPayment.actionPostOne D db pid = .ok db') :
    ∃ p j name, db.payments.get? pid = some p ∧ p.state = .draft ∧
      db.journals.get? p.journalId = some j ∧
      ∀ i, db'.payments.get? i = (db.payments.get? i).map fun q =>
        if i = pid then AccountPayment.link db.moves.nextId name q else q := by
  obtain ⟨p, j, cashAcc, partnerAcc, amount, db₁, hget, hdraft, hj, hentry, rfl⟩ :=
    AccountPayment.actionPostOne_ok h
  obtain ⟨⟨moves, n, rfl⟩, -⟩ := AccountDb.postEntry_ok hentry
  exact ⟨p, j, _, hget, hdraft, hj, fun i => Table.get?_modify _ _ _ _⟩

lemma reconcile_enters {db db' : AccountDb} {lineId moveId : ℤ}
    (h : BankStatement.reconcile now db lineId moveId = .ok db') :
    ∃ l journalId companyId bankAcct cpAcct, db.statementLines.get? lineId = some l ∧
      Enters db db' { BankStatement.entry now db.moves.nextId journalId companyId with
        lines := numbered db.nextLineId (BankStatement.legs bankAcct cpAcct companyId l.amount) } := by
  obtain ⟨l, m, journalId, companyId, bankAcct, cpAcct, db₁, statementLines, hl, -, -, -, -, -, hentry,
    rfl⟩ := BankStatement.reconcile_ok h
  refine ⟨l, journalId, companyId, bankAcct, cpAcct, hl, (postEntry_enters hentry).congr ?_⟩
  intro i
  show ((db₁.moves.modify moveId _).get? i).map Move.document = _
  rw [Table.get?_modify, Option.map_map, AccountDb.document]
  congr 1
  funext m
  show Move.document (if i = moveId then _ else m) = _
  split
  · rfl
  · rfl

lemma postLine_enters {a : Asset} {acc : AccountAsset.Accounts} {db db' : AccountDb}
    {line : ℤ × DepreciationLine} (h : AccountAsset.postLine now id a acc db line = .ok db') :
    ∃ name sequences, db.nextNumber now (AccountDb.journalSeries acc.jcode) =
        .ok (name, { db with sequences := sequences }) ∧
      Enters db db' { AccountAsset.entry a acc line.2 name with
        lines := numbered db.nextLineId
          (AccountAsset.legs a acc.expenseId acc.depreciationId line.2.amount) } := by
  obtain ⟨name, sequences, db₁, assets, hname, hentry, rfl⟩ := AccountAsset.postLine_ok h
  exact ⟨name, sequences, hname, (postEntry_enters hentry).congr fun i => rfl⟩

lemma postLine_settings {a : Asset} {acc : AccountAsset.Accounts} {db db' : AccountDb}
    {line : ℤ × DepreciationLine} (h : AccountAsset.postLine now id a acc db line = .ok db') :
    db'.settings = db.settings := by
  obtain ⟨name, sequences, db₁, assets, -, hentry, rfl⟩ := AccountAsset.postLine_ok h
  show db₁.settings = _
  rw [postEntry_settings hentry]
  rfl

/-- What posting lines keeps, depreciating an asset keeps. -/
lemma depreciateOne_invariant {asOf : String} (hrest : ∀ db sequences assets,
      Inv db → Inv { db with sequences := sequences, assets := assets })
    {db db' : AccountDb}
    (hline : ∀ a acc due, db.assets.get? id = some a → AccountAsset.asOfDate now asOf = .ok due →
      ∀ db line db', line ∈ AccountAsset.dueLines a due → Inv db →
        AccountAsset.postLine now id a acc db line = .ok db' → Inv db')
    (h : AccountAsset.depreciateOne now asOf db id = .ok db') (h0 : Inv db) : Inv db' := by
  rcases AccountAsset.depreciateOne_ok h with
    ⟨-, rfl⟩ | ⟨a, acc, due, db₁, assets, ha, -, hdue, hlines, rfl⟩
  · exact h0
  refine hrest db₁ db₁.sequences assets ?_
  have hposted : ∀ (ls : List (ℤ × DepreciationLine)) (db₀ : AccountDb),
      (∀ l ∈ ls, l ∈ AccountAsset.dueLines a due) → Inv db₀ →
      ls.foldlM (AccountAsset.postLine now id a acc) db₀ = .ok db₁ → Inv db₁ := by
    intro ls
    induction ls with
    | nil =>
        intro db₀ _ hinv hfold
        cases hfold
        exact hinv
    | cons l ls ih =>
        intro db₀ hmem hinv hfold
        obtain ⟨db₂, hl, hrest'⟩ := Runs.foldlM_cons_ok.mp hfold
        exact ih db₂ (fun l' hl' => hmem l' (List.mem_cons_of_mem l hl'))
          (hline a acc due ha hdue db₀ l db₂ (hmem l List.mem_cons_self) hinv hl) hrest'
  exact hposted _ _ (fun l hl => hl) (hrest db _ db.assets h0) hlines

end CErp

namespace CErp

inductive AccountOp (D : Type) where
  | actionPost (ids : List ℤ)
  | buttonCancel (ids : List ℤ)
  | buttonDraft (ids : List ℤ)
  | recomputeTotals (ids : List ℤ)
  | registerPayment (ids : List ℤ) (args : AccountMove.PaymentArgs D)
  | postPayment (ids : List ℤ)
  | cancelPayment (ids : List ℤ)
  | allocate (paymentId : ℤ) (receivedBase : Money) (moveIds : List ℤ)
  | unallocate (paymentId : ℤ)
  | reconcile (lineId moveId : ℤ)
  | depreciate (ids : List ℤ) (asOf : String)

namespace AccountOp

variable {D : Type} [JsonDouble D]

/-- What an operation leaves in the tables when it succeeds. -/
def run (now : Moment) (db : AccountDb) : AccountOp D → Except String AccountDb
  | actionPost ids => AccountMove.actionPost now db ids
  | buttonCancel ids => .ok (AccountMove.buttonCancel db ids)
  | buttonDraft ids => .ok (AccountMove.buttonDraft db ids)
  | recomputeTotals ids => AccountMove.recomputeTotals D db ids
  | registerPayment ids args => AccountMove.registerPayment now args db ids
  | postPayment ids => AccountPayment.actionPost D db ids
  | cancelPayment ids => .ok (AccountPayment.actionCancel db ids)
  | allocate paymentId receivedBase moveIds =>
      match PaymentAllocation.allocate db paymentId receivedBase moveIds with
      | (db, .ok _) => .ok db
      | (_, .error e) => .error e
  | unallocate paymentId => .ok (PaymentAllocation.unallocate db paymentId)
  | reconcile lineId moveId => BankStatement.reconcile now db lineId moveId
  | depreciate ids asOf => AccountAsset.depreciate now asOf db ids

end AccountOp

/-- An event leads on when its operation succeeds. -/
def accountStep {D : Type} [JsonDouble D] (db : AccountDb) (e : Moment × AccountOp D) :
    Option AccountDb := (e.2.run e.1 db).toOption

lemma accountStep_eq_some_iff {D : Type} [JsonDouble D] {db db' : AccountDb}
    {e : Moment × AccountOp D} :
    accountStep db e = some db' ↔ e.2.run e.1 db = .ok db' :=
  Outcome.toOption_eq_some_iff

/-- The tenth of February, the moment the examples below run in. -/
def february : Moment where
  clock := { year := "2026", shortYear := "26", month := "02", day := "10" }
  localDate := "2026-02-10"
  currentDate := "2026-02-10"
  dateInput := .ok

end CErp
