/-
Balance of the moves that become posted.

Posting a draft checks the balance of a journal entry and of nothing else.  The
entries the other operations write are balanced by construction, except that of
a payment with realised FX when the company has no account to put it on.
`posted_balanced_iff` says exactly when an operation posts only balanced moves,
in any state the tables may be in.
-/
import CErp.RegisterPayment

namespace CErp

open AccountMove PaymentAllocation Runs Outcome AccountDb AccountAsset Table List

/-- Every move that the step made posted is balanced. -/
def PostsBalanced (db db' : AccountDb) : Prop :=
  ∀ i d', db'.document i = some d' → d'.state = .posted →
    (∃ d, db.document i = some d ∧ d.state = .posted) ∨ linesBalance d'.lines = 0

/-- Posted moves stay posted, with their lines. -/
def KeepsPosted (db db' : AccountDb) : Prop :=
  ∀ i d, db.document i = some d → d.state = .posted →
    ∃ d', db'.document i = some d' ∧ d'.state = .posted ∧ d'.lines = d.lines

lemma postsBalanced_refl (db : AccountDb) : PostsBalanced db db :=
  fun _ d hd hposted => .inl ⟨d, hd, hposted⟩

lemma keepsPosted_refl (db : AccountDb) : KeepsPosted db db :=
  fun _ d hd hposted => ⟨d, hd, hposted, rfl⟩

lemma keepsPosted_trans {a b c : AccountDb} (hab : KeepsPosted a b) (hbc : KeepsPosted b c) :
    KeepsPosted a c := by
  intro i d hd hposted
  obtain ⟨d₁, hd₁, hposted₁, hlines₁⟩ := hab i d hd hposted
  obtain ⟨d₂, hd₂, hposted₂, hlines₂⟩ := hbc i d₁ hd₁ hposted₁
  exact ⟨d₂, hd₂, hposted₂, hlines₂.trans hlines₁⟩

/-- What one step posts, the next one leaves as it is, so it can still be seen
at the end. -/
lemma postsBalanced_comp {a b c : AccountDb} (hab : KeepsPosted a b) (hbc : KeepsPosted b c) :
    PostsBalanced a c ↔ PostsBalanced a b ∧ PostsBalanced b c := by
  constructor
  · intro h
    refine ⟨?_, ?_⟩
    · intro i d hd hposted
      obtain ⟨d', hd', hposted', hlines⟩ := hbc i d hd hposted
      rcases h i d' hd' hposted' with hbefore | hbalanced
      · exact .inl hbefore
      · exact .inr (hlines ▸ hbalanced)
    · intro i d' hd' hposted'
      rcases h i d' hd' hposted' with ⟨d, hd, hposted⟩ | hbalanced
      · obtain ⟨d₁, hd₁, hposted₁, -⟩ := hab i d hd hposted
        exact .inl ⟨d₁, hd₁, hposted₁⟩
      · exact .inr hbalanced
  · rintro ⟨hfirst, hsecond⟩ i d' hd' hposted'
    rcases hsecond i d' hd' hposted' with ⟨d, hd, hposted⟩ | hbalanced
    · rcases hfirst i d hd hposted with hbefore | hbalanced
      · exact .inl hbefore
      · obtain ⟨d₁, hd₁, -, hlines⟩ := hbc i d hd hposted
        rw [hd'] at hd₁
        cases hd₁
        exact .inr (hlines ▸ hbalanced)
    · exact .inr hbalanced

/-! ### A new entry -/

variable {db db' : AccountDb}

lemma keepsPosted_enters {e : Move} (h : Enters db db' e) : KeepsPosted db db' := by
  intro i d hd hposted
  have hne : i ≠ db.moves.nextId := by
    rintro rfl
    rw [document_nextId] at hd
    cases hd
  exact ⟨d, by rw [h i, if_neg hne, hd], hposted, rfl⟩

lemma postsBalanced_enters_iff {e : Move} (h : Enters db db' e) (hposted : e.state = .posted) :
    PostsBalanced db db' ↔ linesBalance e.lines = 0 := by
  constructor
  · intro hall
    have hnew : db'.document db.moves.nextId = some e.document := by rw [h, if_pos rfl]
    rcases hall _ _ hnew hposted with ⟨d, hd, -⟩ | hbalanced
    · rw [document_nextId] at hd
      cases hd
    · exact hbalanced
  · intro hbalanced i d' hd' hstate
    rw [h i] at hd'
    split at hd'
    · cases hd'
      exact .inr hbalanced
    · exact .inl ⟨d', hd', hstate⟩

/-! ### Posting drafts -/

/-- The lines of a draft balance. -/
def LinesBalance (db : AccountDb) (id : ℤ) : Prop :=
  ∀ m, db.moves.get? id = some m → linesBalance m.lines = 0

variable {id : ℤ} {now : Moment}

lemma actionPostOne_keepsPosted (h : actionPostOne now db id = .ok db') : KeepsPosted db db' := by
  obtain ⟨m, name, hget, hdraft, -, -, hdoc⟩ := actionPostOne_document h
  intro i d hd hposted
  have hne : i ≠ id := by
    rintro rfl
    rw [document_of_get? hget] at hd
    cases hd
    rw [show m.document.state = m.state from rfl, hdraft] at hposted
    cases hposted
  exact ⟨d, by rw [hdoc, if_neg hne, hd], hposted, rfl⟩

lemma actionPostOne_postsBalanced_iff (h : actionPostOne now db id = .ok db') :
    PostsBalanced db db' ↔ LinesBalance db id := by
  obtain ⟨m, name, hget, hdraft, -, -, hdoc⟩ := actionPostOne_document h
  constructor
  · intro hall m' hm'
    rw [hget] at hm'
    cases hm'
    have hnew : db'.document id = some (post name m).document := by rw [hdoc, if_pos rfl]
    rcases hall _ _ hnew rfl with ⟨d, hd, hposted⟩ | hbalanced
    · rw [document_of_get? hget] at hd
      cases hd
      rw [show m.document.state = m.state from rfl, hdraft] at hposted
      cases hposted
    · exact hbalanced
  · intro hbalanced i d' hd' hstate
    rw [hdoc] at hd'
    split at hd'
    · cases hd'
      exact .inr (hbalanced m hget)
    · exact .inl ⟨d', hd', hstate⟩

/-- Posting one draft leaves the lines of all as they were. -/
lemma actionPostOne_linesBalance_iff (h : actionPostOne now db id = .ok db') (i : ℤ) :
    LinesBalance db' i ↔ LinesBalance db i := by
  obtain ⟨m, name, hget, -, -, -, hdoc⟩ := actionPostOne_document h
  have hlines : (db'.document i).map Move.lines = (db.document i).map Move.lines := by
    rw [hdoc]
    split
    · next hi =>
        rw [hi, document_of_get? hget]
        rfl
    · rfl
  have hof : ∀ db₁ : AccountDb,
      LinesBalance db₁ i ↔ ∀ ls, (db₁.document i).map Move.lines = some ls → linesBalance ls = 0 := by
    intro db₁
    rw [LinesBalance, document]
    rcases db₁.moves.get? i with - | m₁
    · simp
    · simp [Move.document]
  rw [hof, hof, hlines]

lemma actionPost_postsBalanced_iff {ids : List ℤ} (h : actionPost now db ids = .ok db') :
    PostsBalanced db db' ↔ ∀ id ∈ ids, LinesBalance db id := by
  have hiff : PostsBalanced db db' ↔ InTurn (actionPostOne now) LinesBalance db ids :=
    foldlM_iff postsBalanced_refl keepsPosted_refl keepsPosted_trans postsBalanced_comp
      (fun _ _ _ hone => actionPostOne_keepsPosted hone)
      (fun _ _ _ hone => actionPostOne_postsBalanced_iff hone) h
  rw [hiff, inTurn_iff (fun _ _ _ hone => actionPostOne_linesBalance_iff hone) h]

/-! ### Registering payments -/

section Register

variable {D : Type} [JsonDouble D]

open JsonDouble

/-- The legs differ by the realised FX; the third line takes it up. -/
lemma linesBalance_settlementLines (isOut : Bool) (cashAcc partnerAcc : ℤ) (fxAcc : Option ℤ)
    (cash booked : ℤ) :
    linesBalance (settlementLines isOut cashAcc partnerAcc fxAcc cash booked) =
      if fxAcc.isSome then 0 else if isOut then cash - booked else booked - cash := by
  rcases fxAcc with - | acc
  · cases isOut
    · simp [settlementLines, sub_eq_add_neg]
    · simp [settlementLines, sub_eq_add_neg]
  · have hgap : ∀ b : Bool, linesBalance
          [{ accountId := acc
             debit := if b then |booked - cash| else 0
             credit := if b then 0 else |booked - cash| }] =
        if b then |booked - cash| else -|booked - cash| := by
      intro b
      cases b
      · simp
      · simp
    simp only [settlementLines, linesBalance_append, hgap, Option.isSome_some, if_true]
    cases isOut
    · -- an outgoing payment: a positive gap is a gain, on the credit side
      have hside : (if decide (booked - cash < 0) = true then |booked - cash|
          else -|booked - cash|) = cash - booked := by
        by_cases h : booked - cash < 0
        · rw [if_pos (decide_eq_true h), abs_of_neg h, neg_sub]
        · rw [if_neg (by simpa using h), abs_of_nonneg (not_lt.mp h), neg_sub]
      show linesBalance _ + (if decide (booked - cash < 0) = true then _ else _) = 0
      rw [hside]
      simp only [linesBalance_cons, linesBalance_nil]
      ring_nf
      simp
    · -- an incoming one: a positive gap is a loss, on the debit side
      have hside : (if decide (booked - cash ≥ 0) = true then |booked - cash|
          else -|booked - cash|) = booked - cash := by
        by_cases h : booked - cash ≥ 0
        · rw [if_pos (decide_eq_true h), abs_of_nonneg h]
        · rw [if_neg (by simpa using h), abs_of_neg (not_le.mp h), neg_neg]
      show linesBalance _ + (if decide (booked - cash ≥ 0) = true then _ else _) = 0
      rw [hside]
      simp only [linesBalance_cons, linesBalance_nil]
      ring_nf
      simp

lemma linesBalance_registration_iff (r : Registration) (db : AccountDb) (m : Move)
    (received fx : ℤ) :
    linesBalance (r.lines db m received fx) = 0 ↔
      fx = 0 ∨ (db.accountOfCode "7900" m.companyId).isSome = true := by
  have hmap : ∀ ls : List MoveLine, linesBalance (ls.map fun l =>
      { l with companyId := some m.companyId, name := r.memo, partnerId := m.partnerId }) =
      linesBalance ls := by
    intro ls
    rw [linesBalance, map_map]
    rfl
  rw [Registration.lines, hmap, linesBalance_settlementLines]
  by_cases hfx : fx = 0
  · simp [hfx]
  · rcases e : db.accountOfCode "7900" m.companyId with - | acc
    · cases m.moveType.isOut
      · simp [hfx]
      · simp [hfx]
    · simp [hfx]

/-- The rate a fresh payment of an amount settles at. -/
def freshRate (amount : ℤ) (received : Money) : Except String ℤ :=
  if received.micros ≠ 0 ∧ amount ≠ 0 then Money.impliedRate { micros := amount } received
  else .ok Money.ONE

/-- A payment of an amount on a document realises FX: the document is open,
and what it takes of the payment is worth something else at the rate it is
settled at than at the rate it was booked at. -/
def RealisesFx (db : AccountDb) (id : ℤ) (m : Move) (amount : ℤ) (received : Money) : Prop :=
  amount ≠ 0 ∧ m.moveType.isInvoice = true ∧ m.amountTotal - db.applied id ≠ 0 ∧
    ∃ rate s, freshRate amount received = .ok rate ∧
      slice rate { micros := amount } (asOpen db id m) = .ok (some s) ∧ s.fxDiff.micros ≠ 0

/-- A payment on the document realises no FX, or there is an account for it. -/
def FxCovered (args : PaymentArgs D) (db : AccountDb) (id : ℤ) : Prop :=
  ∀ m amount received, db.moves.get? id = some m →
    fromJson (payAmount args (toJson { micros := m.amountResidual })) = .ok amount →
    receivedBase args = .ok received →
    ¬ RealisesFx db id m amount.micros received ∨
      (db.accountOfCode "7900" m.companyId).isSome = true

/-- The realised FX of a registered payment is that of its one slice. -/
lemma fx_registration_iff {args : PaymentArgs D} {db₂ : AccountDb} {m : Move} {r : Registration}
    {name : String} {sequences : Table Sequence} {received : Money} {out : AllocationResult}
    (hget : db.moves.get? id = some m) (hr : registration now db args m = .ok r)
    (h : allocate (r.opened { db with sequences := sequences } m name) db.payments.nextId received
      [id] = (db₂, .ok out)) :
    out.totalFxDiff.micros = 0 ↔ ¬ RealisesFx db id m r.amount received := by
  rcases allocate_opened hget hr h with
    ⟨hnot, -, hzero⟩ | ⟨⟨hamount, htype, hres⟩, job, rate, s, -, hrate, hs, -, hsum⟩
  · refine iff_of_true hzero ?_
    rintro ⟨hamount, htype, hres, -⟩
    exact hnot ⟨hamount, htype, hres⟩
  · rw [hsum]
    constructor
    · rintro hzero ⟨-, -, -, rate', s', hrate', hs', hfx'⟩
      have hsame : rate' = rate := by
        rw [show freshRate r.amount received = .ok rate from hrate] at hrate'
        exact (Except.ok.inj hrate').symm
      rw [hsame, show slice rate { micros := r.amount } (asOpen db id m) = .ok (some s) from hs] at hs'
      cases hs'
      exact hfx' hzero
    · intro hnot
      by_contra hzero
      exact hnot ⟨hamount, htype, hres, rate, s, hrate, hs, hzero⟩

lemma registerPaymentOne_postsBalanced_iff {args : PaymentArgs D}
    (h : registerPaymentOne now args db id = .ok db') :
    PostsBalanced db db' ↔ FxCovered args db id := by
  obtain ⟨m, r, name, sequences, received, db₂, out, n, hget, hr, -, hreceived, halloc, hent⟩ :=
    registerPaymentOne_enters h
  have hcode : db₂.accountOfCode "7900" m.companyId = db.accountOfCode "7900" m.companyId := by
    have hset := settings_allocate (r.opened { db with sequences := sequences } m name)
      db.payments.nextId received [id]
    rw [halloc] at hset
    have haccounts : db₂.accounts = db.accounts := congrArg (fun x => x.2.1) hset
    rw [accountOfCode, accountOfCode, haccounts]
  obtain ⟨-, amount, hamount, hmicros⟩ := registration_amount hr
  rw [postsBalanced_enters_iff hent rfl]
  show linesBalance (numbered n _) = 0 ↔ _
  rw [linesBalance_numbered, linesBalance_registration_iff, hcode,
    fx_registration_iff hget hr halloc, ← hmicros]
  constructor
  · intro hcovered m' amount' received' hm' hamount' hreceived'
    rw [hget] at hm'
    cases hm'
    rw [hamount] at hamount'
    cases hamount'
    rw [hreceived] at hreceived'
    cases hreceived'
    exact hcovered
  · intro hall
    exact hall m amount received hget hamount hreceived

end Register

/-! ### Entries that are balanced by construction -/

lemma linesBalance_paymentLegs (p : Payment) (cashAcc partnerAcc amount : ℤ) :
    linesBalance (AccountPayment.legs p cashAcc partnerAcc amount) = 0 := by
  by_cases h : p.paymentType = .inbound
  · simp [AccountPayment.legs, h]
  · simp [AccountPayment.legs, h]

lemma linesBalance_bankLegs (bankAcct cpAcct companyId amount : ℤ) :
    linesBalance (BankStatement.legs bankAcct cpAcct companyId amount) = 0 := by
  by_cases h : amount ≥ 0
  · simp [BankStatement.legs, h]
  · simp [BankStatement.legs, h]

lemma linesBalance_depreciationLegs (a : Asset) (expenseId depreciationId amount : ℤ) :
    linesBalance (legs a expenseId depreciationId amount) = 0 := by
  simp [legs]

lemma postPayment_postsBalanced {D : Type} [JsonDouble D] {ids : List ℤ}
    (h : AccountPayment.actionPost D db ids = .ok db') : PostsBalanced db db' := by
  have hiff : PostsBalanced db db' ↔
      InTurn (AccountPayment.actionPostOne D) (fun _ _ => True) db ids := by
    refine foldlM_iff postsBalanced_refl keepsPosted_refl keepsPosted_trans postsBalanced_comp ?_ ?_ h
    · intro db₁ pid db₂ hone
      obtain ⟨p, j, cashAcc, partnerAcc, amount, -, -, -, hent⟩ := postPaymentOne_enters hone
      exact keepsPosted_enters hent
    · intro db₁ pid db₂ hone
      obtain ⟨p, j, cashAcc, partnerAcc, amount, -, -, -, hent⟩ := postPaymentOne_enters hone
      rw [postsBalanced_enters_iff hent rfl]
      show linesBalance (numbered _ _) = 0 ↔ True
      rw [linesBalance_numbered, linesBalance_paymentLegs]
      exact iff_of_true rfl trivial
  rw [hiff, inTurn_iff (fun _ _ _ _ _ => Iff.rfl) h]
  exact fun _ _ => trivial

lemma reconcile_postsBalanced {lineId moveId : ℤ}
    (h : BankStatement.reconcile now db lineId moveId = .ok db') : PostsBalanced db db' := by
  obtain ⟨l, journalId, companyId, bankAcct, cpAcct, -, hent⟩ := reconcile_enters h
  rw [postsBalanced_enters_iff hent rfl]
  show linesBalance (numbered _ _) = 0
  rw [linesBalance_numbered, linesBalance_bankLegs]

/-- Posted with balanced lines, seen from a fixed state on. -/
structure PostedFrom (db₀ db : AccountDb) : Prop where
  balanced : PostsBalanced db₀ db
  kept : KeepsPosted db₀ db

lemma postLine_postedFrom {a : Asset} {acc : Accounts} {db₀ : AccountDb}
    {line : ℤ × DepreciationLine} (h0 : PostedFrom db₀ db)
    (h : postLine now id a acc db line = .ok db') : PostedFrom db₀ db' := by
  obtain ⟨name, sequences, -, hent⟩ := postLine_enters h
  have hkeep := keepsPosted_enters hent
  refine ⟨(postsBalanced_comp h0.kept hkeep).mpr ⟨h0.balanced, ?_⟩, keepsPosted_trans h0.kept hkeep⟩
  rw [postsBalanced_enters_iff hent rfl]
  show linesBalance (numbered _ _) = 0
  rw [linesBalance_numbered, linesBalance_depreciationLegs]

lemma depreciate_postsBalanced {asOf : String} {ids : List ℤ}
    (h : AccountAsset.depreciate now asOf db ids = .ok db') : PostsBalanced db db' := by
  have hstep : ∀ db₁ id db₂, PostedFrom db db₁ →
      depreciateOne now asOf db₁ id = .ok db₂ → PostedFrom db db₂ := by
    intro db₁ id db₂ h₁ hone
    exact depreciateOne_invariant (PostedFrom db) (fun _ _ _ hinv => ⟨hinv.balanced, hinv.kept⟩)
      (fun _ _ _ _ _ _ _ _ _ hinv hline => postLine_postedFrom hinv hline) hone h₁
  exact (foldlM_keeps _ hstep h ⟨postsBalanced_refl db, keepsPosted_refl db⟩).balanced

/-! ### Operations that post nothing -/

/-- What is posted was posted. -/
def PostsNothing (db db' : AccountDb) : Prop :=
  ∀ i m', db'.moves.get? i = some m' → m'.state = .posted →
    ∃ m, db.moves.get? i = some m ∧ m.state = .posted

lemma PostsNothing.postsBalanced (h : PostsNothing db db') : PostsBalanced db db' := by
  intro i d' hd' hposted
  obtain ⟨m', hm', rfl⟩ := document_eq_some hd'
  obtain ⟨m, hm, hstate⟩ := h i m' hm' hposted
  exact .inl ⟨m.document, document_of_get? hm, hstate⟩

lemma postsNothing_of_map (f : ℤ → Move → Move)
    (hf : ∀ i m, (f i m).state = .posted → m.state = .posted)
    (h : ∀ i, db'.moves.get? i = (db.moves.get? i).map (f i)) : PostsNothing db db' := by
  intro i m' hm' hposted
  rw [h, Option.map_eq_some_iff] at hm'
  obtain ⟨m, hm, rfl⟩ := hm'
  exact ⟨m, hm, hf i m hposted⟩

lemma postsNothing_of_document (h : ∀ i, db'.document i = db.document i) :
    PostsNothing db db' := by
  intro i m' hm' hposted
  have hdoc := (h i).symm.trans (document_of_get? hm')
  obtain ⟨m, hm, heq⟩ := document_eq_some hdoc
  exact ⟨m, hm, (congrArg Move.state heq).trans hposted⟩

lemma PostsNothing.trans {a b c : AccountDb} (hab : PostsNothing a b) (hbc : PostsNothing b c) :
    PostsNothing a c := by
  intro i m hm hposted
  obtain ⟨m₁, hm₁, hposted₁⟩ := hbc i m hm hposted
  exact hab i m₁ hm₁ hposted₁

/-- A change of one move that does not touch its state. -/
lemma postsNothing_modifyMove (db : AccountDb) (id : ℤ) {f : Move → Move}
    (hf : ∀ m, (f m).state = m.state) : PostsNothing db (db.modifyMove id f) := by
  refine postsNothing_of_map (fun i m => if i = id then f m else m) ?_ fun i =>
    get?_modify _ _ _ _
  intro i m hposted
  by_cases hi : i = id
  · rw [if_pos hi, hf] at hposted
    exact hposted
  · rw [if_neg hi] at hposted
    exact hposted

lemma insertTaxLine_postsNothing {m : Move} {t : TaxTotal}
    (h : insertTaxLine id m db t = .ok db') : PostsNothing db db' := by
  unfold insertTaxLine at h
  split at h
  · cases h
    exact fun i m' hm' hposted => ⟨m', hm', hposted⟩
  dsimp only at h
  split at h
  · cases h
    exact fun i m' hm' hposted => ⟨m', hm', hposted⟩
  · rw [addLine_ok h]
    exact postsNothing_modifyMove db id fun _ => rfl

lemma recomputeOne_postsNothing {D : Type} [JsonDouble D] (h : recomputeOne D db id = .ok db') :
    PostsNothing db db' := by
  have hrefl : ∀ db : AccountDb, PostsNothing db db := fun db i m hm hposted => ⟨m, hm, hposted⟩
  unfold recomputeOne at h
  split at h
  · cases h
    exact hrefl db
  obtain ⟨⟨db₁, tax⟩, htax, h⟩ := bind_ok_iff.mp h
  cases h
  refine PostsNothing.trans ?_ (postsNothing_modifyMove db₁ id fun _ => rfl)
  have hdelete : PostsNothing db (deleteTaxLines db id) :=
    postsNothing_modifyMove db id fun _ => rfl
  unfold recomputeTaxLines at htax
  dsimp only at htax
  split at htax
  · cases htax
    exact hdelete
  · obtain ⟨totals, -, htax⟩ := bind_ok_iff.mp htax
    obtain ⟨db₂, hlines, htax⟩ := bind_ok_iff.mp htax
    cases htax
    have hinsert : PostsNothing (deleteTaxLines db id) db₁ :=
      foldlM_rel hrefl (fun hab hbc => hab.trans hbc)
        (fun _ _ _ hone => insertTaxLine_postsNothing hone) hlines
    exact hdelete.trans hinsert

/-! ### All operations -/

section Run

variable {D : Type} [JsonDouble D]

/-- The operation posts what balances: the drafts it posts have balanced lines,
and the FX its payments realise has an account. -/
def PostsWhatBalances (now : Moment) (db : AccountDb) : AccountOp D → Prop
  | .actionPost ids => ∀ id ∈ ids, LinesBalance db id
  | .registerPayment ids args => InTurn (registerPaymentOne now args) (FxCovered args) db ids
  | _ => True

lemma registerPayment_postsBalanced_iff {args : PaymentArgs D} {ids : List ℤ}
    (h : registerPayment now args db ids = .ok db') :
    PostsBalanced db db' ↔ InTurn (registerPaymentOne now args) (FxCovered args) db ids := by
  refine foldlM_iff postsBalanced_refl keepsPosted_refl keepsPosted_trans postsBalanced_comp ?_
    (fun _ _ _ hone => registerPaymentOne_postsBalanced_iff hone) h
  intro db₁ id db₂ hone
  obtain ⟨m, r, name, sequences, received, db₃, out, n, -, -, -, -, -, hent⟩ :=
    registerPaymentOne_enters hone
  exact keepsPosted_enters hent

end Run

/-- **Balance.**  From any state of the tables, an operation posts only
balanced moves exactly when the drafts it posts have balanced lines and the FX
its payments realise has an account. -/
theorem posted_balanced_iff (D : Type) [JsonDouble D] (now : Moment) (db db' : AccountDb)
    (op : AccountOp D) (h : op.run now db = .ok db') :
    PostsBalanced db db' ↔ PostsWhatBalances now db op := by
  cases op with
  | actionPost ids => exact actionPost_postsBalanced_iff h
  | registerPayment ids args => exact registerPayment_postsBalanced_iff h
  | postPayment ids => exact iff_of_true (postPayment_postsBalanced h) trivial
  | reconcile lineId moveId => exact iff_of_true (reconcile_postsBalanced h) trivial
  | depreciate ids asOf => exact iff_of_true (depreciate_postsBalanced h) trivial
  | buttonCancel ids =>
      cases h
      refine iff_of_true (PostsNothing.postsBalanced ?_) trivial
      refine postsNothing_of_map _ ?_ fun i => get?_updateWhere _ _ _ _
      intro i m hposted
      split at hposted
      · cases hposted
      · exact hposted
  | buttonDraft ids =>
      cases h
      refine iff_of_true (PostsNothing.postsBalanced ?_) trivial
      refine postsNothing_of_map _ ?_ fun i => get?_updateWhere _ _ _ _
      intro i m hposted
      split at hposted
      · cases hposted
      · exact hposted
  | recomputeTotals ids =>
      have hnothing : PostsNothing db db' :=
        foldlM_rel (fun db i m hm hposted => ⟨m, hm, hposted⟩) (fun hab hbc => hab.trans hbc)
          (fun _ _ _ hone => recomputeOne_postsNothing hone) h
      exact iff_of_true hnothing.postsBalanced trivial
  | cancelPayment ids =>
      cases h
      exact iff_of_true (postsNothing_of_document fun i => rfl).postsBalanced trivial
  | allocate paymentId received moveIds =>
      have hdoc := document_allocate db paymentId received moveIds
      rw [AccountOp.run] at h
      split at h
      · next db₁ out e =>
          cases h
          rw [e] at hdoc
          exact iff_of_true (postsNothing_of_document hdoc).postsBalanced trivial
      · cases h
  | unallocate paymentId =>
      cases h
      exact iff_of_true
        (postsNothing_of_document (document_unallocate db paymentId)).postsBalanced trivial

/-! ### An invoice out of balance -/

/-- A draft invoice of 100.00 with its revenue line and no receivable. -/
def oneLegged : AccountDb where
  sequences := empty.insert { code := "account.move.INV", pre := "INV", padding := 6 }
  moves := empty.insert
    { moveType := .outInvoice
      date := "2026-02-10"
      journalId := 1
      amountTotal := 100000000
      amountResidual := 100000000
      lines := [{ accountId := 1, credit := 100000000 }] }

/-- Posting it is not refused. -/
lemma oneLegged_run : ∃ db', actionPost february oneLegged [1] = .ok db' :=
  exists_ok (by decide)

/-- The step posts a move that is not balanced. -/
theorem posted_balanced_oneLegged : let _ := JsonDouble.wholeMicros
    ∃ db', (AccountOp.actionPost [1] : AccountOp ℤ).run february oneLegged = .ok db' ∧
      ¬ PostsBalanced oneLegged db' := by
  let _ := JsonDouble.wholeMicros
  obtain ⟨db', hrun⟩ := oneLegged_run
  refine ⟨db', hrun, ?_⟩
  intro hbalanced
  have hlines := (posted_balanced_iff ℤ february oneLegged db' (.actionPost [1]) hrun).mp hbalanced
  exact absurd (hlines 1 List.mem_cons_self _ rfl) (by decide)

theorem invoice_posted_out_of_balance :
    ¬ ∀ (_ : JsonDouble ℤ) (now : Moment) (db db' : AccountDb) (op : AccountOp ℤ),
      op.run now db = .ok db' → PostsBalanced db db' := by
  intro h
  let _ := JsonDouble.wholeMicros
  obtain ⟨db', hrun⟩ := oneLegged_run
  have hbalanced := h JsonDouble.wholeMicros february oneLegged db' (.actionPost [1]) hrun
  have hlines := (actionPost_postsBalanced_iff hrun).mp hbalanced
  exact absurd (hlines 1 List.mem_cons_self _ rfl) (by decide)

end CErp
