/-
Closed periods.

The lock date is read where a draft is posted.  The other ways to a posted
move, and cancelling one, do not look at it: a payment is posted on whatever
date it has, a depreciation entry on the date of its schedule, and a posted
move is cancelled in any period.

`frozen` is what a closed period holds.  `closed_period_iff` says of each of
these operations when exactly it leaves that as it was.
-/
import CErp.Documents

namespace CErp

open AccountMove Runs Outcome AccountDb Option JsonDouble Table List

/-- What a period closed up to a date holds: the posted documents dated in
it. -/
def frozen (L : String) (db : AccountDb) (id : ℤ) : Option Move :=
  (db.document id).filter fun m => m.state == .posted && decide (m.date ≤ L)

/-- No posted document of the closed period is new, gone or changed. -/
def KeepsClosed (L : String) (db db' : AccountDb) : Prop := ∀ i, frozen L db' i = frozen L db i

/-- The lock date is set, and the closed period is as it was. -/
structure StaysClosed (L : String) (db₀ db : AccountDb) : Prop where
  locked : ("account.lock_date", L) ∈ db.params
  closed : KeepsClosed L db₀ db

/-- What the closed period held, it holds. -/
def KeepsFrozen (L : String) (db db' : AccountDb) : Prop :=
  ∀ i m, frozen L db i = some m → frozen L db' i = some m

/-! ### One document -/

variable {L : String} {db : AccountDb}

variable {id : ℤ}

lemma frozen_eq_some_iff {d : Move} :
    frozen L db id = some d ↔ db.document id = some d ∧ d.state = .posted ∧ d.date ≤ L := by
  rw [frozen, filter_eq_some_iff]
  simp

variable {db' : AccountDb}

lemma frozen_congr (h : db'.document id = db.document id) : frozen L db' id = frozen L db id := by
  rw [frozen, frozen, h]

/-- Steps that keep what was frozen do no harm together exactly when neither
does any. -/
lemma keepsClosed_comp {a b c : AccountDb} (hab : KeepsFrozen L a b) (hbc : KeepsFrozen L b c) :
    KeepsClosed L a c ↔ KeepsClosed L a b ∧ KeepsClosed L b c := by
  constructor
  · intro h
    have hfirst : KeepsClosed L a b := by
      intro i
      apply Option.ext
      intro d
      constructor
      · intro hd
        rw [← h i]
        exact hbc i d hd
      · exact hab i d
    refine ⟨hfirst, ?_⟩
    intro i
    rw [h i, hfirst i]
  · rintro ⟨h₁, h₂⟩ i
    rw [h₂ i, h₁ i]

/-! ### A new entry -/

lemma keepsFrozen_enters {e : Move} (h : Enters db db' e) : KeepsFrozen L db db' := by
  intro i d hd
  obtain ⟨hdoc, hstate⟩ := frozen_eq_some_iff.mp hd
  have hne : i ≠ db.moves.nextId := by
    rintro rfl
    rw [document_nextId] at hdoc
    cases hdoc
  refine frozen_eq_some_iff.mpr ⟨?_, hstate⟩
  rw [h i, if_neg hne, hdoc]

/-- A posted entry stays out of the closed period exactly when it is dated
after it. -/
lemma keepsClosed_enters_iff {e : Move} (h : Enters db db' e) (hposted : e.state = .posted) :
    KeepsClosed L db db' ↔ L < e.date := by
  have hnew : db'.document db.moves.nextId = some e.document := by rw [h, if_pos rfl]
  constructor
  · intro hkeep
    by_contra hnot
    have hin : frozen L db' db.moves.nextId = some e.document :=
      frozen_eq_some_iff.mpr ⟨hnew, hposted, String.not_lt.mp hnot⟩
    rw [hkeep, frozen, document_nextId] at hin
    cases hin
  · intro hafter i
    by_cases hi : i = db.moves.nextId
    · subst hi
      have hout : ¬ e.document.date ≤ L := String.not_le.mpr hafter
      rw [frozen, frozen, hnew, document_nextId]
      simp [Option.filter, hout]
    · exact frozen_congr (by rw [h i, if_neg hi])

/-! ### The operations -/

variable {now : Moment}

/-- A draft posted in an open period stays out of the closed one. -/
lemma actionPostOne_keepsClosed (hlock : ("account.lock_date", L) ∈ db.params) (hL : L ≠ "")
    (h : actionPostOne now db id = .ok db') : KeepsClosed L db db' := by
  obtain ⟨m, name, hget, hdraft, hopen, -, hdoc⟩ := actionPostOne_document h
  have hafter : ¬ m.date ≤ L := by
    intro hle
    have hmem : L ∈ lockValues db.params m.date := by
      refine List.mem_map.mpr ⟨_, mem_filter.mpr ⟨hlock, ?_⟩, rfl⟩
      simp [hL, hle]
    rw [hopen] at hmem
    cases hmem
  intro i
  by_cases hi : i = id
  · subst hi
    have hbefore : frozen L db i = none := by
      rw [frozen, document_of_get? hget]
      simp [Option.filter, Move.document, hdraft]
    rw [hbefore, frozen, hdoc, if_pos rfl]
    simp [Option.filter, Move.document, post, hafter]
  · exact frozen_congr (by rw [hdoc, if_neg hi])

variable {ids : List ℤ}

lemma actionPost_keepsClosed (hlock : ("account.lock_date", L) ∈ db.params) (hL : L ≠ "")
    (h : actionPost now db ids = .ok db') : KeepsClosed L db db' := by
  have hstep : ∀ db₁ id db₂, StaysClosed L db db₁ → actionPostOne now db₁ id = .ok db₂ →
      StaysClosed L db db₂ := by
    rintro db₁ id db₂ ⟨hin, hkeep⟩ hone
    refine ⟨?_, fun i => ?_⟩
    · rw [show db₂.params = db₁.params from congrArg Prod.fst (actionPostOne_settings hone)]
      exact hin
    · rw [actionPostOne_keepsClosed hin hL hone i, hkeep i]
  exact (foldlM_keeps _ hstep h ⟨hlock, fun _ => rfl⟩).closed

/-- Cancelling takes a posted document out of its period. -/
lemma buttonCancel_keepsClosed_iff : KeepsClosed L db (buttonCancel db ids) ↔
      ∀ id ∈ ids, ∀ m, db.moves.get? id = some m → m.state = .posted → L < m.date := by
  have hget : ∀ i, (buttonCancel db ids).moves.get? i = (db.moves.get? i).map fun m =>
      if ids.contains i && m.state == .posted then { m with state := .cancel } else m :=
    fun i => get?_updateWhere _ _ _ _
  constructor
  · intro hkeep id hid m hm hposted
    by_contra hnot
    have hbefore : frozen L db id = some m.document :=
      frozen_eq_some_iff.mpr ⟨document_of_get? hm, hposted, String.not_lt.mp hnot⟩
    rw [← hkeep id] at hbefore
    obtain ⟨hdoc, hstate, -⟩ := frozen_eq_some_iff.mp hbefore
    have hafter : (buttonCancel db ids).document id =
        some { m with state := .cancel }.document := by
      rw [document, hget, hm]
      simp [hid, hposted]
    rw [hafter] at hdoc
    have hcancel : m.document.state = .cancel := (congrArg Move.state (some.inj hdoc)).symm
    rw [hstate] at hcancel
    cases hcancel
  · intro hall i
    rcases e : db.moves.get? i with - | m
    · apply frozen_congr
      rw [document, document, hget, e]
      rfl
    by_cases hcancelled : (ids.contains i && m.state == .posted) = true
    · -- the document was posted after the closed period
      obtain ⟨hi, hposted⟩ := Bool.and_eq_true_iff.mp hcancelled
      have hlt := hall i (contains_iff_mem.mp hi) m e (beq_iff_eq.mp hposted)
      have hout : ¬ m.date ≤ L := String.not_le.mpr hlt
      rw [frozen, frozen, document, document, hget, e, map_some, if_pos hcancelled]
      simp [Option.filter, Move.document, hout]
    · apply frozen_congr
      rw [document, document, hget, e, map_some, if_neg hcancelled]

section Payments

variable {D : Type} [JsonDouble D]

/-- The date a payment is registered under, as it is given. -/
def givenDate (now : Moment) (args : PaymentArgs D) : String :=
  if args.paymentDate = "" then now.localDate else args.paymentDate

lemma registration_date {args : PaymentArgs D} {m : Move} {r : Registration}
    (h : registration now db args m = .ok r) : now.dateInput (givenDate now args) = .ok r.date := by
  obtain ⟨_, -, h⟩ := bind_ok_iff.mp h
  obtain ⟨_, -, h⟩ := bind_ok_iff.mp h
  obtain ⟨journalId, -, h⟩ := bind_ok_iff.mp h
  rcases ej : db.journals.get? journalId with - | j
  · rw [ej] at h
    cases h
  rw [ej] at h
  obtain ⟨amount, -, h⟩ := bind_ok_iff.mp h
  obtain ⟨date, hdate, h⟩ := bind_ok_iff.mp h
  cases h
  exact hdate

lemma registerPayment_keepsClosed_iff {args : PaymentArgs D}
    (h : registerPayment now args db ids = .ok db') :
    KeepsClosed L db db' ↔ ids = [] ∨ ∀ d, now.dateInput (givenDate now args) = .ok d → L < d := by
  have hiff : KeepsClosed L db db' ↔ InTurn (registerPaymentOne now args)
      (fun _ _ => ∀ d, now.dateInput (givenDate now args) = .ok d → L < d) db ids := by
    refine foldlM_iff (P := KeepsClosed L) (K := KeepsFrozen L) (fun _ _ => rfl)
      (fun _ _ _ hd => hd) (fun hab hbc i d hd => hbc i d (hab i d hd)) keepsClosed_comp ?_ ?_ h
    · intro db₁ id db₂ hone
      obtain ⟨m, r, name, sequences, received, db₃, alloc, n, -, -, -, -, -, hent⟩ :=
        registerPaymentOne_enters hone
      exact keepsFrozen_enters hent
    · intro db₁ id db₂ hone
      obtain ⟨m, r, name, sequences, received, db₃, alloc, n, -, hr, -, -, -, hent⟩ :=
        registerPaymentOne_enters hone
      rw [keepsClosed_enters_iff hent rfl]
      have hdate := registration_date hr
      constructor
      · intro hlt d hd
        rw [hdate] at hd
        cases hd
        exact hlt
      · intro hall
        exact hall r.date hdate
  rw [hiff, inTurn_iff (fun _ _ _ _ _ => Iff.rfl) h]
  constructor
  · intro hall
    rcases ids with - | ⟨id, ids⟩
    · exact .inl rfl
    · exact .inr (hall id mem_cons_self)
  · rintro (rfl | hdate) id hid
    · cases hid
    · exact hdate

/-- The payment is dated after the closed period. -/
def PaymentAfter (L : String) (db : AccountDb) (pid : ℤ) : Prop :=
  ∀ p, db.payments.get? pid = some p → L < p.date

lemma postPayment_keepsClosed_iff (h : AccountPayment.actionPost D db ids = .ok db') :
    KeepsClosed L db db' ↔ ∀ pid ∈ ids, PaymentAfter L db pid := by
  have hiff : KeepsClosed L db db' ↔
      InTurn (AccountPayment.actionPostOne D) (PaymentAfter L) db ids := by
    refine foldlM_iff (P := KeepsClosed L) (K := KeepsFrozen L) (fun _ _ => rfl)
      (fun _ _ _ hd => hd) (fun hab hbc i d hd => hbc i d (hab i d hd)) keepsClosed_comp ?_ ?_ h
    · intro db₁ pid db₂ hone
      obtain ⟨p, j, cashAcc, partnerAcc, amount, -, -, -, hent⟩ := postPaymentOne_enters hone
      exact keepsFrozen_enters hent
    · intro db₁ pid db₂ hone
      obtain ⟨p, j, cashAcc, partnerAcc, amount, hp, -, -, hent⟩ := postPaymentOne_enters hone
      rw [keepsClosed_enters_iff hent rfl]
      constructor
      · intro hlt p' hp'
        rw [hp] at hp'
        cases hp'
        exact hlt
      · intro hall
        exact hall p hp
  rw [hiff, inTurn_iff ?_ h]
  -- posting a payment changes no date
  intro db₁ pid db₂ hone j
  obtain ⟨p, j', name, -, -, -, hpay⟩ := postPaymentOne_payments hone
  rw [PaymentAfter, PaymentAfter, hpay]
  rcases db₁.payments.get? j with - | q
  · simp
  · by_cases hj : j = pid
    · simp [hj, AccountPayment.link]
    · simp [hj]

end Payments

/-- The lines of the asset that are due, when its turn comes, are dated after
the closed period. -/
def DueAfter (L : String) (now : Moment) (asOf : String) (db : AccountDb) (id : ℤ) : Prop :=
  ∀ a due, db.assets.get? id = some a → AccountAsset.asOfDate now asOf = .ok due →
    ∀ l ∈ AccountAsset.dueLines a due, L < l.2.depreciationDate.getD ""

lemma depreciateOne_keepsClosed {asOf : String}
    (h : AccountAsset.depreciateOne now asOf db id = .ok db') :
    KeepsFrozen L db db' ∧ (KeepsClosed L db db' ↔ DueAfter L now asOf db id) := by
  rcases AccountAsset.depreciateOne_ok h with
    ⟨hnone, rfl⟩ | ⟨a, acc, due, db₁, assets, ha, -, hdue, hlines, rfl⟩
  · refine ⟨fun _ _ hd => hd, iff_of_true (fun _ => rfl) ?_⟩
    intro a due ha
    rw [hnone] at ha
    cases ha
  have hkeep : ∀ db₁ line db₂, AccountAsset.postLine now id a acc db₁ line = .ok db₂ →
      KeepsFrozen L db₁ db₂ := by
    intro db₁ line db₂ hone
    obtain ⟨name, sequences, -, hent⟩ := postLine_enters hone
    exact keepsFrozen_enters hent
  have hiff : KeepsClosed L (db.ensureJournalSequence acc.jcode) db₁ ↔
      InTurn (AccountAsset.postLine now id a acc)
        (fun _ line => L < line.2.depreciationDate.getD "") (db.ensureJournalSequence acc.jcode)
        (AccountAsset.dueLines a due) := by
    refine foldlM_iff (P := KeepsClosed L) (K := KeepsFrozen L) (fun _ _ => rfl)
      (fun _ _ _ hd => hd) (fun hab hbc i d hd => hbc i d (hab i d hd)) keepsClosed_comp hkeep ?_
      hlines
    intro db₁ line db₂ hone
    obtain ⟨name, sequences, -, hent⟩ := postLine_enters hone
    rw [keepsClosed_enters_iff hent rfl]
    rfl
  rw [inTurn_iff (fun _ _ _ _ _ => Iff.rfl) hlines] at hiff
  refine ⟨?_, ?_⟩
  · have hall : KeepsFrozen L (db.ensureJournalSequence acc.jcode) db₁ :=
      foldlM_rel (fun _ _ _ hd => hd) (fun hab hbc i d hd => hbc i d (hab i d hd)) hkeep hlines
    exact hall
  · refine Iff.trans hiff ?_
    constructor
    · intro hall a' due' ha' hdue'
      rw [ha] at ha'
      rw [hdue] at hdue'
      cases ha'
      cases hdue'
      exact hall
    · intro hall
      exact hall a due ha hdue

lemma depreciate_keepsClosed_iff {asOf : String}
    (h : AccountAsset.depreciate now asOf db ids = .ok db') :
    KeepsClosed L db db' ↔
      InTurn (AccountAsset.depreciateOne now asOf) (DueAfter L now asOf) db ids :=
  foldlM_iff (P := KeepsClosed L) (K := KeepsFrozen L) (fun _ _ => rfl) (fun _ _ _ hd => hd)
    (fun hab hbc i d hd => hbc i d (hab i d hd)) keepsClosed_comp
    (fun _ _ _ hone => (depreciateOne_keepsClosed hone).1)
    (fun _ _ _ hone => (depreciateOne_keepsClosed hone).2) h

/-! ### Runs -/

section Runs

variable {D : Type} [JsonDouble D]

/-- The operations that enter posted moves or cancel them. -/
def AccountOp.entersPeriod : AccountOp D → Bool
  | actionPost _ | buttonCancel _ | registerPayment _ _ | postPayment _ | depreciate _ _ => true
  | _ => false

/-- The operation respects the lock date of its own accord: nothing posted in
the closed period is cancelled, and what is posted is dated after it. -/
def RespectsLock (L : String) (now : Moment) (db : AccountDb) : AccountOp D → Prop
  | .actionPost _ => True
  | .buttonCancel ids =>
      ∀ id ∈ ids, ∀ m, db.moves.get? id = some m → m.state = .posted → L < m.date
  | .registerPayment ids args =>
      ids = [] ∨ ∀ d, now.dateInput (givenDate now args) = .ok d → L < d
  | .postPayment ids => ∀ pid ∈ ids, PaymentAfter L db pid
  | .depreciate ids asOf =>
      InTurn (AccountAsset.depreciateOne now asOf) (DueAfter L now asOf) db ids
  | _ => False

variable {op : AccountOp D}

lemma run_settings (hop : op.entersPeriod = true) (h : op.run now db = .ok db') :
    db'.settings = db.settings := by
  have hsame : ∀ {α : Type} {one : AccountDb → α → Except String AccountDb} {as : List α},
      (∀ s a s', one s a = .ok s' → s'.settings = s.settings) →
      ∀ {s s'}, as.foldlM one s = .ok s' → s'.settings = s.settings := by
    intro α one as hone s s' hfold
    refine foldlM_rel (R := fun s s' => s'.settings = s.settings) (fun _ => rfl) ?_ hone hfold
    intro a b c hab hbc
    exact hbc.trans hab
  cases op with
  | actionPost ids => exact hsame (fun _ _ _ hone => actionPostOne_settings hone) h
  | buttonCancel ids =>
      cases h
      rfl
  | registerPayment ids args => exact hsame (fun _ _ _ hone => registerPaymentOne_settings hone) h
  | postPayment ids => exact hsame (fun _ _ _ hone => postPaymentOne_settings hone) h
  | depreciate ids asOf =>
      refine hsame ?_ h
      intro s id s' hone
      exact depreciateOne_invariant (fun s₁ => s₁.settings = s.settings)
        (fun _ _ _ hinv => hinv)
        (fun _ _ _ _ _ _ _ _ _ hinv hline => (postLine_settings hline).trans hinv) hone rfl
  | _ => cases hop

lemma keepsClosed_run_iff (hlock : ("account.lock_date", L) ∈ db.params) (hL : L ≠ "")
    (hop : op.entersPeriod = true) (h : op.run now db = .ok db') :
    KeepsClosed L db db' ↔ RespectsLock L now db op := by
  cases op with
  | actionPost ids => exact iff_of_true (actionPost_keepsClosed hlock hL h) trivial
  | buttonCancel ids =>
      cases h
      exact buttonCancel_keepsClosed_iff
  | registerPayment ids args => exact registerPayment_keepsClosed_iff h
  | postPayment ids => exact postPayment_keepsClosed_iff h
  | depreciate ids asOf => exact depreciate_keepsClosed_iff h
  | _ => cases hop

omit [JsonDouble D] in
/-- An operation that respects the lock is one of those considered. -/
lemma entersPeriod_of_respectsLock (h : RespectsLock L now db op) : op.entersPeriod = true := by
  cases op with
  | actionPost ids => rfl
  | buttonCancel ids => rfl
  | registerPayment ids args => rfl
  | postPayment ids => rfl
  | depreciate ids asOf => rfl
  | _ => cases h

end Runs

/-- January is closed; an entry is posted in it, and a draft payment is dated
in it. -/
def closedBooks : AccountDb where
  params := [("account.lock_date", "2026-01-31")]
  accounts := (empty.insert { code := "1100", accountType := .assetCash }).insert
    { code := "1200", accountType := .assetReceivable }
  journals := empty.insert { code := "BNK", type := .bank, defaultAccountId := some 1 }
  moves := empty.insert
    { moveType := .entry, state := .posted, date := "2026-01-05", journalId := 1 }
  payments := empty.insert
    { date := "2026-01-10", journalId := 1, partnerId := some 7, amount := 100000000 }

end CErp
