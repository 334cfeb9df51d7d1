/-
An invoice in a foreign currency, paid in base currency.

What is received implies a rate of six decimals, and the allocation converts the
payment back at it: it comes to what was received where some rate of six decimals
takes the payment there (`converted_implied_iff`).  When that is what the invoice
was booked at, nothing is realised, and the entry is written in the amount of the
payment, as if it were base currency.  `foreign_settlement_iff` says that the
settlement is exact but for these two.
-/
import CErp.Balanced
import CErp.Reversal
import CErp.Rounding

namespace CErp

open AccountMove PaymentAllocation Outcome AccountDb Money Int Table List

namespace ForeignSettlement

/-! ### Rates of six decimals -/

/-- An amount at a rate of six decimals. -/
def converted (amount rate : ℤ) : ℤ := divRoundHalfAway (amount * rate) ONE

lemma divRoundHalfAway_nonneg {num den : ℤ} (hnum : 0 ≤ num) (hden : 0 < den) :
    divRoundHalfAway num den = (num + den / 2) / den := by
  obtain ⟨n, rfl⟩ := eq_ofNat_of_zero_le hnum
  obtain ⟨d, rfl⟩ := eq_ofNat_of_zero_le hden.le
  have hsigns : ¬ ((((n : ℤ) < 0) : Prop) ≠ ((d : ℤ) < 0)) := by
    rw [not_not]
    exact propext ⟨fun h => absurd h (by omega), fun h => absurd h (by omega)⟩
  unfold divRoundHalfAway
  rw [if_neg hsigns]
  simp

variable {amount rate : ℤ}

lemma converted_eq_iff {received : ℤ} (hamount : 0 < amount) (hrate : 0 ≤ rate) :
    converted amount rate = received ↔ -500000 ≤ amount * rate - received * 1000000 ∧
        amount * rate - received * 1000000 < 500000 := by
  have hprod : 0 ≤ amount * rate := mul_nonneg hamount.le hrate
  rw [converted, divRoundHalfAway_nonneg hprod (by decide), ONE]
  generalize amount * rate = x
  omega

lemma rate_nonneg {received : ℤ} (hamount : 0 < amount) (hreceived : 0 < received)
    (h : converted amount rate = received) : 0 ≤ rate := by
  by_contra hneg
  have hprod : amount * rate < 0 := mul_neg_of_pos_of_neg hamount (not_le.mp hneg)
  obtain ⟨hhigh, -⟩ := divRoundHalfAway_bounds (amount * rate) (show 0 < ONE by decide)
  rw [show divRoundHalfAway (amount * rate) ONE = received from h, ONE] at hhigh
  omega

/-- **When an amount converts to what was received** at the rate this implies: where
it does at any rate of six decimals. -/
theorem converted_implied_iff {received : ℤ} (hamount : 0 < amount) (hreceived : 0 < received) :
    converted amount (divRoundHalfAway (received * ONE) amount) = received ↔
      ∃ rate, converted amount rate = received := by
  have hnum : 0 ≤ received * ONE := mul_nonneg hreceived.le (by decide)
  have himplied := divRoundHalfAway_nonneg hnum hamount
  have hnonneg : 0 ≤ divRoundHalfAway (received * ONE) amount := by
    rw [himplied]
    exact ediv_nonneg (by omega) hamount.le
  constructor
  · intro h
    exact ⟨_, h⟩
  · rintro ⟨rate, h⟩
    have hrate := rate_nonneg hamount hreceived h
    obtain ⟨hlow, hhigh⟩ := (converted_eq_iff hamount hrate).mp h
    rw [converted_eq_iff hamount hnonneg]
    -- the implied rate is the nearest to what was received
    have habove : amount * divRoundHalfAway (received * ONE) amount ≤
        received * 1000000 + amount / 2 := by
      rw [himplied]
      exact mul_ediv_self_le hamount.ne'
    have hbelow : received * 1000000 + amount / 2 <
        amount * divRoundHalfAway (received * ONE) amount + amount := by
      have hlt := lt_mul_ediv_self_add (x := received * ONE + amount / 2) hamount
      rw [himplied]
      exact hlt
    generalize divRoundHalfAway (received * ONE) amount = implied at *
    rcases lt_trichotomy implied rate with hlt | rfl | hgt
    · have hstep : amount * implied + amount ≤ amount * rate := by nlinarith
      omega
    · exact ⟨hlow, hhigh⟩
    · have hstep : amount * rate + amount ≤ amount * implied := by nlinarith
      by_cases hunit : amount = 1000000
      · -- at one unit, what is received is itself a rate
        rw [hunit] at hlow habove hbelow ⊢
        omega
      · omega

/-! ### The entry of a foreign settlement -/

section Register

variable {D : Type} [JsonDouble D] {now : Moment} {args : PaymentArgs D} {db db' : AccountDb} {id : ℤ}
  {m : Move} {r : Registration} {received : Money} {fxAcc : ℤ}

/-- The leg of the difference: a loss is debited, a gain credited. -/
def fxLeg (fxAcc received booked : ℤ) : List (ℤ × ℤ × ℤ) :=
  if booked = received then []
  else [(fxAcc, max 0 (booked - received), max 0 (received - booked))]

/-- A payment settles an invoice exactly: its entry debits cash with what was
received, relieves the receivable of the amount at the booked rate, posts the
difference, and balances; and what was received is allocated. -/
structure SettlesExactly (db db' : AccountDb) (m : Move) (r : Registration) (fxAcc received : ℤ) :
    Prop where
  entry : ∃ e, db'.moves.get? db.moves.nextId = some e ∧ e.Balanced ∧
    e.lines.map sides = [(r.cashAcc, received, 0),
      (r.partnerAcc, 0, converted r.amount m.currencyRate)] ++
        fxLeg fxAcc received (converted r.amount m.currencyRate)
  allocated : ∃ p, db'.payments.get? db.payments.nextId = some p ∧
    (p.allocations.map PartialReconcile.amountBase).sum = received

lemma convertTo_ok {a b : Money} {currencyId : ℤ} (h : a.convertTo currencyId rate = .ok b) :
    b.micros = converted a.micros rate := by
  obtain ⟨v, hv, rfl⟩ := map_ok_iff.mp h
  obtain ⟨-, -, rfl⟩ := clampToInt64_ok_iff.mp hv
  rfl

/-- A slice of a payment that a document takes all of. -/
lemma slice_whole {remaining : Money} {inv : OpenDocument} {s : Slice}
    (h : slice rate remaining inv = .ok (some s)) (hall : remaining.micros ≤ inv.residual) :
    s.atSettlement.micros = converted remaining.micros rate ∧
      s.fxDiff.micros = converted remaining.micros rate - converted remaining.micros inv.bookedRate := by
  obtain ⟨residual, hres, h⟩ := bind_ok_iff.mp h
  have hmicros : residual.micros = inv.residual := sub_micros hres
  split at h
  · cases h
  obtain ⟨atSettlement, hset, h⟩ := bind_ok_iff.mp h
  obtain ⟨atBooked, hbook, h⟩ := bind_ok_iff.mp h
  obtain ⟨fxDiff, hfx, h⟩ := bind_ok_iff.mp h
  cases h
  have hamount : (if remaining.micros < residual.micros then remaining else residual).micros =
      remaining.micros := by
    split
    · rfl
    · omega
  have hset := convertTo_ok hset
  have hbook := convertTo_ok hbook
  rw [hamount] at hset hbook
  refine ⟨hset, ?_⟩
  rw [sub_micros hfx, hset, hbook]

lemma settlementRate_implied {p : Payment} (hreceived : 0 < received.micros)
    (hamount : 0 < p.amount) (h : settlementRate p received = .ok rate) :
    rate = divRoundHalfAway (received.micros * ONE) p.amount := by
  unfold settlementRate at h
  rw [if_pos ⟨hreceived.ne', hamount.ne'⟩] at h
  unfold impliedRate at h
  rw [if_neg (show ¬ (⟨p.amount, 0⟩ : Money).micros = 0 from hamount.ne')] at h
  obtain ⟨-, -, hsame⟩ := clampToInt64_ok_iff.mp h
  exact hsame.symm

/-- What registering a payment that an invoice takes all of writes: the entry with
the lines for what it realises, and one allocation of what it comes to. -/
lemma registerPaymentOne_writes (hget : db.moves.get? id = some m)
    (hinvoice : m.moveType.isInvoice = true) (hr : registration now db args m = .ok r)
    (hreceived : receivedBase args = .ok received) (hpos : 0 < received.micros)
    (hamount : 0 < r.amount) (hall : r.amount ≤ m.amountTotal - db.applied id)
    (hfx : db.accountOfCode "7900" m.companyId = some fxAcc)
    (h : registerPaymentOne now args db id = .ok db') :
    ∃ settled, settled = converted r.amount
        (divRoundHalfAway (received.micros * ONE) r.amount) ∧
      (∃ e n db₂, db'.moves.get? db.moves.nextId = some e ∧
        db₂.accountOfCode "7900" m.companyId = some fxAcc ∧
        e.lines = numbered n (r.lines db₂ m received.micros
          (settled - converted r.amount m.currencyRate))) ∧
      ∃ p, db'.payments.get? db.payments.nextId = some p ∧
        (p.allocations.map PartialReconcile.amountBase).sum = settled := by
  obtain ⟨m', r', name, sequences, received', db₂, alloc, hget', hr', -, hreceived', halloc, hlines⟩ :=
    registerPaymentOne_ok h
  rw [hget] at hget'
  cases hget'
  rw [hr] at hr'
  cases hr'
  rw [hreceived] at hreceived'
  cases hreceived'
  have hidne : id ≠ db.moves.nextId := (lt_nextId_of_get? hget).ne
  rcases allocate_opened hget hr halloc with
    ⟨hnot, -, -⟩ | ⟨-, job, rate, s, hid, hrate, hs, hstate, htotal⟩
  · exact absurd ⟨hamount.ne', hinvoice, by omega⟩ hnot
  have hrate' : rate = divRoundHalfAway (received.micros * ONE) r.amount :=
    settlementRate_implied hpos hamount hrate
  obtain ⟨hsettled, hdiff⟩ := slice_whole hs hall
  rw [hrate'] at hsettled hdiff
  obtain ⟨hslice, -, -⟩ := slice_some hs
  have hslice : s.moveId = id := hslice
  have hcode : db₂.accountOfCode "7900" m.companyId = some fxAcc := by
    have hset := settings_allocate (r.opened { db with sequences := sequences } m name)
      db.payments.nextId received [id]
    rw [halloc] at hset
    have haccounts : db₂.accounts = db.accounts := congrArg (fun x => x.2.1) hset
    rw [← hfx, accountOfCode, accountOfCode, haccounts]
  obtain ⟨⟨moves, n, heq⟩, hmoves⟩ := addLines_ok hlines
  have hentry : (r.opened { db with sequences := sequences } m name).moves.get? db.moves.nextId =
      some (r.entry m name) := get?_insert_self _ _
  have hpayment : (r.opened { db with sequences := sequences } m name).payments.get?
      db.payments.nextId = some (r.payment m name db.moves.nextId) := get?_insert_self _ _
  have hfxDiff : alloc.totalFxDiff.micros = converted r.amount
      (divRoundHalfAway (received.micros * ONE) r.amount) -
        converted r.amount m.currencyRate := htotal.trans hdiff
  rw [hfxDiff] at hmoves
  refine ⟨_, rfl, ⟨{ r.entry m name with lines := numbered db₂.nextLineId _ },
    db₂.nextLineId, db₂, ?_, hcode, rfl⟩,
    { r.payment m name db.moves.nextId with allocations := [job.row s] }, ?_, ?_⟩
  · rw [hmoves, hstate, get?_applySlice_moves, hentry, hslice]
    simp only [Option.map_some, if_neg (Ne.symm hidne), if_true]
    rfl
  · rw [heq]
    show db₂.payments.get? db.payments.nextId = _
    rw [hstate, get?_applySlice_payments, hpayment, hid, Option.map_some, if_pos rfl]
    rfl
  · rw [map_singleton, sum_singleton, ← hsettled]
    rfl

/-- The legs of the entry of an invoice's payment. -/
lemma sides_lines (hout : m.moveType.isOut = true) {db₂ : AccountDb}
    (hfx : db₂.accountOfCode "7900" m.companyId = some fxAcc) (n cash fx : ℤ) :
    (numbered n (r.lines db₂ m cash fx)).map sides =
      if fx = 0 then [(r.cashAcc, r.amount, 0), (r.partnerAcc, 0, r.amount)]
      else [(r.cashAcc, cash, 0), (r.partnerAcc, 0, cash - fx), (fxAcc, max 0 (-fx), max 0 fx)] := by
  rw [map_numbered sides (fun _ _ => rfl), Registration.lines, map_map]
  by_cases hzero : fx = 0
  · simp [hzero, settlementLines, hout, sides]
  · have hgap : cash - fx - cash = -fx := by ring
    simp only [if_pos hzero, if_neg hzero, hfx, settlementLines, hout, if_true, hgap, map_cons,
      map_nil, Function.comp_apply, sides, cons_append, nil_append]
    by_cases hloss : -fx ≥ 0
    · rw [max_eq_right hloss, max_eq_left (by omega), abs_of_nonneg hloss]
      simp
      omega
    · rw [max_eq_left (by omega), max_eq_right (by omega), abs_of_neg (by omega)]
      simp
      omega

/-- **When a foreign settlement is exact**: some rate of six decimals converts the
payment to what was received, and if that is what it was booked at, it is the amount
of the payment itself. -/
theorem foreign_settlement_iff (hget : db.moves.get? id = some m) (hinvoice : m.moveType = .outInvoice)
    (hr : registration now db args m = .ok r) (hreceived : receivedBase args = .ok received)
    (hpos : 0 < received.micros) (hamount : 0 < r.amount)
    (hall : r.amount ≤ m.amountTotal - db.applied id)
    (hfx : db.accountOfCode "7900" m.companyId = some fxAcc)
    (h : registerPaymentOne now args db id = .ok db') :
    SettlesExactly db db' m r fxAcc received.micros ↔
      (∃ rate, converted r.amount rate = received.micros) ∧
        (converted r.amount m.currencyRate = received.micros → received.micros = r.amount) := by
  have hout : m.moveType.isOut = true := by
    rw [hinvoice]
    rfl
  obtain ⟨settled, hsettled, ⟨e, n, db₂, hentry, hcode, hlines⟩, p, hpayment, hbase⟩ :=
    registerPaymentOne_writes hget (by rw [hinvoice]; rfl) hr hreceived hpos hamount hall hfx h
  have hexact : settled = received.micros ↔ ∃ rate, converted r.amount rate = received.micros := by
    rw [hsettled]
    exact converted_implied_iff hamount hpos
  have hsides := congrArg (List.map sides) hlines
  rw [sides_lines hout hcode] at hsides
  have hbalanced : e.Balanced := by
    unfold Move.Balanced
    rw [hlines, linesBalance_numbered, linesBalance_registration_iff, hcode]
    exact .inr rfl
  have hwell : SettlesExactly db db' m r fxAcc received.micros ↔
      e.lines.map sides = [(r.cashAcc, received.micros, 0),
        (r.partnerAcc, 0, converted r.amount m.currencyRate)] ++
          fxLeg fxAcc received.micros (converted r.amount m.currencyRate) ∧
        settled = received.micros := by
    constructor
    · rintro ⟨⟨e', hentry', -, hlegs⟩, p', hpayment', hbase'⟩
      rw [hentry] at hentry'
      rw [hpayment] at hpayment'
      cases hentry'
      cases hpayment'
      exact ⟨hlegs, hbase.symm.trans hbase'⟩
    · rintro ⟨hlegs, hsum⟩
      exact ⟨⟨e, hentry, hbalanced, hlegs⟩, p, hpayment, hbase.trans hsum⟩
  rw [hwell, ← hexact, hsides]
  generalize converted r.amount m.currencyRate = booked
  unfold fxLeg
  by_cases hzero : settled - booked = 0
  · rw [if_pos hzero]
    by_cases hsame : booked = received.micros
    · rw [if_pos hsame]
      simp
      omega
    · rw [if_neg hsame]
      simp
      omega
  · rw [if_neg hzero]
    by_cases hsame : booked = received.micros
    · rw [if_pos hsame]
      simp
      omega
    · rw [if_neg hsame]
      simp
      omega

end Register

/-- A posted invoice of some dollars, booked at 4.70. -/
def dollarInvoice (amount : ℤ) : Move where
  name := "INV000001"
  moveType := .outInvoice
  state := .posted
  date := "2026-01-15"
  journalId := 1
  partnerId := some 7
  amountTotal := amount
  amountResidual := amount
  currencyRate := 4700000

/-- A company with a bank account, a receivable and an account 7900. -/
def oneDollarInvoice (amount : ℤ) : AccountDb where
  moves := empty.insert (dollarInvoice amount)
  accounts := ((empty.insert { code := "1010", accountType := .assetCash }).insert
    { code := "1200", accountType := .assetReceivable }).insert
    { code := "7900", accountType := .other }
  journals := empty.insert { code := "BNK", type := .bank, defaultAccountId := some 1 }

/-- What a payment of a dollar invoice in full comes to. -/
def dollarPayment (amount : ℤ) : Registration :=
  ⟨1, "BNK", 1, 2, amount, "2026-02-10", "INV000001"⟩

/-- A payment in full, and what was received for it. -/
def allFor (received : ℤ) : PaymentArgs ℤ := { amountReceivedBase := some received }

/-- A hundred dollars booked at 470.00, for which 448.50 are received. -/
theorem foreign_settlement_dollars : let _ := JsonDouble.wholeMicros
    ∃ db', registerPaymentOne february (allFor 448500000)
        (oneDollarInvoice 100000000) 1 = .ok db' ∧
      SettlesExactly (oneDollarInvoice 100000000) db' (dollarInvoice 100000000)
        (dollarPayment 100000000) 3 448500000 := by
  intro _
  obtain ⟨db', hrun⟩ := exists_ok
    (show (registerPaymentOne february (allFor 448500000)
      (oneDollarInvoice 100000000) 1).isOk = true by decide)
  have hreceived : receivedBase (allFor 448500000) = .ok { micros := 448500000 } := rfl
  refine ⟨db', hrun, (foreign_settlement_iff rfl rfl rfl hreceived
    (by decide) (by decide) (by decide) (by decide) hrun).mpr ⟨⟨4485000, by decide⟩, ?_⟩⟩
  intro hbooked
  exact absurd hbooked (by decide)

/-- The legs of the entry a call adds, and what it allocates in base currency. -/
def written (db db' : AccountDb) : Option (List (ℤ × ℤ × ℤ)) × Option ℤ :=
  ((db'.moves.get? db.moves.nextId).map fun e => e.lines.map sides,
    (db'.payments.get? db.payments.nextId).map fun p =>
      (p.allocations.map PartialReconcile.amountBase).sum)

lemma written_of_exact {db db' : AccountDb} {m : Move} {r : Registration} {fxAcc received : ℤ}
    (h : SettlesExactly db db' m r fxAcc received) : written db db' =
      (some ([(r.cashAcc, received, 0), (r.partnerAcc, 0, converted r.amount m.currencyRate)] ++
        fxLeg fxAcc received (converted r.amount m.currencyRate)), some received) := by
  obtain ⟨⟨e, hentry, -, hlegs⟩, p, hpayment, hbase⟩ := h
  rw [written, hentry, hpayment, Option.map_some, Option.map_some, hlegs, hbase]

/-- **Two settlements that are not exact.**  A hundred dollars booked at 470.00, for
which just that is received, are entered as 100.00; and for thirty thousand, of the
134567.89 received only 134567.88 are allocated. -/
theorem dollars_misentered : let _ := JsonDouble.wholeMicros
    (∃ db', registerPaymentOne february (allFor 470000000)
        (oneDollarInvoice 100000000) 1 = .ok db' ∧
      written (oneDollarInvoice 100000000) db' =
        (some [(1, 100000000, 0), (2, 0, 100000000)], some 470000000) ∧
      ¬ SettlesExactly (oneDollarInvoice 100000000) db' (dollarInvoice 100000000)
        (dollarPayment 100000000) 3 470000000) ∧
    ∃ db', registerPaymentOne february (allFor 134567890000)
        (oneDollarInvoice 30000000000) 1 = .ok db' ∧
      written (oneDollarInvoice 30000000000) db' =
        (some [(1, 134567890000, 0), (2, 0, 141000010000), (3, 6432120000, 0)], some 134567880000) ∧
      ¬ SettlesExactly (oneDollarInvoice 30000000000) db' (dollarInvoice 30000000000)
        (dollarPayment 30000000000) 3 134567890000 := by
  intro _
  have hfirst : (registerPaymentOne february (allFor 470000000)
      (oneDollarInvoice 100000000) 1).map (written (oneDollarInvoice 100000000)) =
        .ok (some [(1, 100000000, 0), (2, 0, 100000000)], some 470000000) := by
    decide
  have hsecond : (registerPaymentOne february (allFor 134567890000)
      (oneDollarInvoice 30000000000) 1).map (written (oneDollarInvoice 30000000000)) =
        .ok (some [(1, 134567890000, 0), (2, 0, 141000010000), (3, 6432120000, 0)],
          some 134567880000) := by
    decide
  obtain ⟨db₁, hrun₁, hwritten₁⟩ := map_ok_iff.mp hfirst
  obtain ⟨db₂, hrun₂, hwritten₂⟩ := map_ok_iff.mp hsecond
  refine ⟨⟨db₁, hrun₁, hwritten₁, ?_⟩, db₂, hrun₂, hwritten₂, ?_⟩
  · intro hexact
    have hsame := hwritten₁.symm.trans (written_of_exact hexact)
    exact absurd hsame (by decide)
  · intro hexact
    have hsame := hwritten₂.symm.trans (written_of_exact hexact)
    exact absurd hsame (by decide)

end ForeignSettlement

end CErp
