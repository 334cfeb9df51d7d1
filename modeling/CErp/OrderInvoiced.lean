/-
How much of a sale order is invoiced.

`invoiced` adds up the invoices of an order that are not cancelled.  Of the
actions, only the final invoice looks at earlier invoices, and at the posted ones
only.  The total is kept as a bound when `action_create_invoices` finds nothing
invoiced, the final invoice finds no draft, and no down payment is taken
(`order_not_over_invoiced`).
-/
import CErp.OrderInvoices

namespace CErp

open Runs Outcome Table Option AccountMove

namespace OrderInvoices

/-! ### Sums of invoices -/

/-- An invoice of an order that is not cancelled. -/
def Counts (ord : ℤ) (m : Move) : Prop :=
  m.saleId = some ord ∧ m.moveType = .outInvoice ∧ m.state ≠ .cancel

instance (ord : ℤ) : DecidablePred (Counts ord) :=
  fun m => inferInstanceAs (Decidable (m.saleId = some ord ∧ m.moveType = .outInvoice ∧ _))

/-- What a move counts for. -/
def share (ord : ℤ) (m : Move) : ℤ := if Counts ord m then m.amountTotal else 0

/-- The invoices of an order that are not cancelled, added up. -/
def invoiced (db : AccountDb) (ord : ℤ) : ℤ := db.moves.sumOver fun _ m => share ord m

/-- The drafts among them. -/
def drafted (db : AccountDb) (ord : ℤ) : ℤ :=
  db.moves.sumOver fun _ m =>
    if m.saleId = some ord ∧ m.state = .draft ∧ m.moveType = .outInvoice then m.amountTotal else 0

lemma share_document (ord : ℤ) (m : Move) : share ord m.document = share ord m := rfl

/-- An invoice that is not cancelled is posted or a draft. -/
lemma invoiced_eq (db : AccountDb) (ord : ℤ) :
    invoiced db ord = postedAmount db ord + drafted db ord := by
  rw [invoiced, postedAmount, drafted, ← sumOver_add]
  apply sumOver_congr
  intro r _
  cases hstate : r.2.state with
  | draft => simp [share, Counts, hstate, and_comm]
  | posted => simp [share, Counts, hstate, and_comm]
  | cancel => simp [share, Counts, hstate]

/-! ### Calls -/

inductive InvoiceOp where
  | createInvoices (ids : List ℤ)
  | downPayment (amount : ℚ) (note : String) (ids : List ℤ)
  | progressPayment (amount : ℚ) (note : String) (ids : List ℤ)
  | finalInvoice (ids : List ℤ)
  | post (ids : List ℤ)
  | cancel (ids : List ℤ)

/-- A call and the moment it is made in. -/
structure InvoiceCall where
  now : Moment
  today : String
  op : InvoiceOp

section Calls

variable (plain : ℤ → Bool)

def InvoiceCall.run (c : InvoiceCall) (db : OrderDb) : Except String OrderDb :=
  match c.op with
  | .createInvoices ids => handleActionCreateInvoices c.today db ids
  | .downPayment amount note ids => handleActionCreateDownPayment plain c.today amount note db ids
  | .progressPayment amount note ids =>
      handleActionCreateDownPayment plain c.today amount note db ids
  | .finalInvoice ids => handleActionCreateFinalInvoice plain c.today db ids
  | .post ids => (actionPost c.now db.account ids).map fun account =>
      { db with account := account }
  | .cancel ids => .ok { db with account := buttonCancel db.account ids }

def invoiceStep (db : OrderDb) (c : InvoiceCall) : Option OrderDb := (c.run plain db).toOption

end Calls

/-! ### What a new draft changes -/

/-- One more draft of an order, over an amount. -/
structure DraftAdded (db db' : OrderDb) (ordId v : ℤ) : Prop where
  draft : ∃ e : Move, Enters db.account db'.account e ∧ e.saleId = some ordId ∧
    e.moveType = .outInvoice ∧ e.state = .draft ∧ e.amountTotal = v
  totals : ∀ i, (db'.saleOrders.get? i).map (·.amountTotal) =
    (db.saleOrders.get? i).map (·.amountTotal)

/-- The status of an order is no part of its total. -/
lemma totals_modify {t : Table Order} {ordId : ℤ} {f : Order → Order}
    (hf : ∀ o, (f o).amountTotal = o.amountTotal) (i : ℤ) :
    ((t.modify ordId f).get? i).map (·.amountTotal) = (t.get? i).map (·.amountTotal) := by
  rw [get?_modify, map_map]
  congr 1
  funext o
  show (if i = ordId then f o else o).amountTotal = _
  split
  · exact hf o
  · rfl

section Steps

variable {plain : ℤ → Bool} {today : String} {db db' : OrderDb} {ordId : ℤ}

lemma createInvoice_ok (h : createInvoice today db ordId = .ok db') :
    ∃ o, db.saleOrders.get? ordId = some o ∧
      DraftAdded db db' ordId (Doubles.round o.amountTotal) := by
  unfold createInvoice at h
  split at h
  · cases h
  next o ho =>
  obtain ⟨account, haccount, h⟩ := bind_ok_iff.mp h
  cases h
  obtain ⟨b, ls, -, -, -, henters⟩ := orderDocument_ok haccount
  exact ⟨o, ho, ⟨_, henters, rfl, rfl, rfl, rfl⟩, totals_modify fun _ => rfl⟩

lemma downPayment_ok {amount : ℚ} {note : String}
    (h : downPayment plain today amount note db ordId = .ok db') :
    ∃ v : ℤ, amount = v ∧ DraftAdded db db' ordId v := by
  unfold downPayment at h
  split at h
  · cases h
  obtain ⟨_, -, h⟩ := bind_ok_iff.mp h
  obtain ⟨account, haccount, h⟩ := bind_ok_iff.mp h
  cases h
  obtain ⟨b, v, hv, -, henters⟩ := oneAmount_ok haccount
  refine ⟨v, hv, ⟨_, henters, rfl, rfl, rfl, rfl⟩, totals_modify ?_⟩
  intro o
  split
  · rfl
  · rfl

lemma finalInvoice_ok (h : finalInvoice plain today db ordId = .ok db') :
    ∃ o, db.saleOrders.get? ordId = some o ∧ 0 < remaining db.account ordId o ∧
      DraftAdded db db' ordId (remaining db.account ordId o) := by
  unfold finalInvoice at h
  split at h
  · cases h
  next o ho =>
  obtain ⟨_, -, h⟩ := bind_ok_iff.mp h
  obtain ⟨_, hleft, h⟩ := bind_ok_iff.mp h
  obtain ⟨account, haccount, h⟩ := bind_ok_iff.mp h
  cases h
  obtain ⟨b, v, hv, -, henters⟩ := oneAmount_ok haccount
  have hv : v = remaining db.account ordId o := by exact_mod_cast hv.symm
  exact ⟨o, ho, require_ok_iff.mp hleft, ⟨_, henters, rfl, rfl, rfl, hv⟩,
    totals_modify fun _ => rfl⟩

lemma actionPostOne_invoiced {now : Moment} {account account' : AccountDb} {id : ℤ}
    (h : actionPostOne now account id = .ok account') (ord : ℤ) :
    invoiced account' ord = invoiced account ord := by
  obtain ⟨m, name, hm, hdraft, -, -, hdoc⟩ := actionPostOne_document h
  apply sumOver_eq_of_documents (share_document ord)
  intro i
  rw [hdoc]
  split
  · next hi =>
      rw [hi, document_of_get? hm, map_some, map_some, share_document, share_document]
      -- a draft that is posted counts as it did
      simp [share, Counts, AccountMove.post, hdraft]
  · rfl

end Steps

/-! ### The bound -/

/-- The invoices of an order stay within a total; none of them is negative. -/
structure Bounded (ord total : ℤ) (db : OrderDb) : Prop where
  order : (db.saleOrders.get? ord).map (·.amountTotal) = some total
  nonneg : ∀ i m, db.account.moves.get? i = some m → 0 ≤ share ord m
  sum : invoiced db.account ord ≤ total

section Bounds

variable {ord total : ℤ} {db db' : OrderDb} {ordId v : ℤ}

lemma DraftAdded.share_eq (h : DraftAdded db db' ordId v) (ord : ℤ) :
    ∃ e : Move, Enters db.account db'.account e ∧ share ord e = if ordId = ord then v else 0 := by
  obtain ⟨e, henters, hsale, htype, hstate, hv⟩ := h.draft
  refine ⟨e, henters, ?_⟩
  simp [share, Counts, hsale, htype, hstate, hv]

lemma DraftAdded.invoiced_eq (h : DraftAdded db db' ordId v) (ord : ℤ) :
    invoiced db'.account ord = invoiced db.account ord + if ordId = ord then v else 0 := by
  obtain ⟨e, henters, hshare⟩ := h.share_eq ord
  rw [← hshare]
  exact henters.sum (share_document ord)

lemma DraftAdded.drafted_eq (h : DraftAdded db db' ordId v) (hne : ordId ≠ ord) :
    drafted db'.account ord = drafted db.account ord := by
  obtain ⟨e, henters, hsale, -, -, -⟩ := h.draft
  have hsum := henters.sum (f := fun m =>
    if m.saleId = some ord ∧ m.state = .draft ∧ m.moveType = .outInvoice then m.amountTotal else 0)
    fun _ => rfl
  refine hsum.trans ?_
  rw [if_neg, add_zero]
  · rfl
  · rintro ⟨hord, -⟩
    rw [hsale] at hord
    exact hne (some.inj hord)

/-- A draft that is not negative and fits keeps the bound. -/
lemma Bounded.draftAdded (h0 : Bounded ord total db) (h : DraftAdded db db' ordId v)
    (hv : ordId = ord → 0 ≤ v ∧ invoiced db.account ord + v ≤ total) : Bounded ord total db' := by
  refine ⟨(h.totals ord).trans h0.order, ?_, ?_⟩
  · intro i m hm
    obtain ⟨e, henters, hshare⟩ := h.share_eq ord
    have hdoc := henters i
    rw [document_of_get? hm] at hdoc
    split at hdoc
    · rw [← share_document, some.inj hdoc, share_document, hshare]
      split
      · next hord => exact (hv hord).1
      · exact le_rfl
    · obtain ⟨m', hm', hsame⟩ := document_eq_some hdoc.symm
      rw [← share_document, ← hsame, share_document]
      exact h0.nonneg i m' hm'
  · rw [h.invoiced_eq]
    split
    · next hord => exact (hv hord).2
    · rw [add_zero]
      exact h0.sum

/-- The total of the order is the bound. -/
lemma Bounded.total_eq (h : Bounded ord total db) {o : Order}
    (ho : db.saleOrders.get? ord = some o) : o.amountTotal = total := by
  have hsome := h.order
  rw [ho] at hsome
  exact some.inj hsome

lemma Bounded.posted {now : Moment} {account account' : AccountDb} {id : ℤ}
    (h0 : Bounded ord total { db with account := account })
    (h : actionPostOne now account id = .ok account') :
    Bounded ord total { db with account := account' } := by
  refine ⟨h0.order, ?_, (actionPostOne_invoiced h ord).trans_le h0.sum⟩
  obtain ⟨m, name, hm, hdraft, -, -, hdoc⟩ := actionPostOne_document h
  intro i m' hm'
  have hi := hdoc i
  rw [document_of_get? hm'] at hi
  split at hi
  · have hshare : share ord m' = share ord m := by
      rw [← share_document, some.inj hi, share_document]
      simp [share, Counts, AccountMove.post, hdraft]
    rw [hshare]
    exact h0.nonneg _ m hm
  · obtain ⟨m₀, hm₀, hsame⟩ := document_eq_some hi.symm
    rw [← share_document, ← hsame, share_document]
    exact h0.nonneg i m₀ hm₀

/-- A cancelled invoice counts no more. -/
lemma share_cancel (ord : ℤ) (m : Move) : share ord { m with state := .cancel } = 0 := by
  simp [share, Counts]

lemma invoiced_buttonCancel (account : AccountDb) (ids : List ℤ) :
    invoiced (buttonCancel account ids) ord = account.moves.sumOver fun i m =>
      share ord (if (ids.contains i && m.state == .posted) = true then
        { m with state := .cancel } else m) :=
  sumOver_update account.moves
    (fun i m => if (ids.contains i && m.state == .posted) = true then { m with state := .cancel }
      else m) fun _ m => share ord m

lemma Bounded.cancelled (h0 : Bounded ord total db) (ids : List ℤ) :
    Bounded ord total { db with account := buttonCancel db.account ids } := by
  have hcancel : ∀ i m, db.account.moves.get? i = some m →
      0 ≤ share ord (if (ids.contains i && m.state == .posted) = true then
          { m with state := .cancel } else m) ∧
        share ord (if (ids.contains i && m.state == .posted) = true then
          { m with state := .cancel } else m) ≤ share ord m := by
    intro i m hm
    have hnonneg := h0.nonneg i m hm
    split
    · rw [share_cancel]
      exact ⟨le_rfl, hnonneg⟩
    · exact ⟨hnonneg, le_rfl⟩
  refine ⟨h0.order, ?_, ?_⟩
  · intro i m hm
    obtain ⟨m₀, hm₀, rfl⟩ := map_eq_some_iff.mp
      ((get?_updateWhere _ _ _ i).symm.trans hm)
    exact (hcancel i m₀ hm₀).1
  · refine le_trans ?_ h0.sum
    show invoiced (buttonCancel db.account ids) ord ≤ _
    rw [invoiced_buttonCancel]
    apply sumOver_mono
    intro r hr
    exact (hcancel r.1 r.2 (get?_eq_some_iff.mpr hr)).2

end Bounds

/-! ### Runs -/

/-- What doubles leave of a total less what is posted. -/
def leftInDoubles (total posted : ℤ) : ℤ :=
  Doubles.round (Doubles.round total - Doubles.round posted)

/-- Nothing of the order is invoiced yet, up to what a double loses of the total. -/
def NothingInvoiced (ord : ℤ) (db : OrderDb) (ordId : ℤ) : Prop :=
  ordId = ord → ∀ o, db.saleOrders.get? ord = some o →
    invoiced db.account ord ≤ o.amountTotal - Doubles.round o.amountTotal

/-- The drafts of the order leave room for what is not posted, and without drafts doubles
lose nothing of it. -/
def DraftsLeaveRoom (ord : ℤ) (db : OrderDb) (ordId : ℤ) : Prop :=
  ordId = ord → ∀ o, db.saleOrders.get? ord = some o →
    let left := leftInDoubles o.amountTotal (postedAmount db.account ord)
    drafted db.account ord + left ≤ o.amountTotal - postedAmount db.account ord ∧
      (drafted db.account ord = 0 → left = o.amountTotal - postedAmount db.account ord)

/-- The invoices of the order are posted, but for the cancelled ones. -/
def AllPosted (ord : ℤ) (db : AccountDb) : Prop :=
  ∀ i m, db.moves.get? i = some m → Counts ord m → m.state = .posted

variable (plain : ℤ → Bool)

/-- A call that invoices no more of the order than there is. -/
def KeepsWithin (ord : ℤ) (db : OrderDb) (c : InvoiceCall) : Prop :=
  match c.op with
  | .createInvoices ids => InTurn (createInvoice c.today) (NothingInvoiced ord) db ids
  | .downPayment _ _ ids => ord ∉ ids
  | .progressPayment _ _ ids => ord ∉ ids
  | .finalInvoice ids => InTurn (finalInvoice plain c.today) (DraftsLeaveRoom ord) db ids
  | .post _ => True
  | .cancel _ => True

/-- What a call is to do: a down payment is invoiced at its amount in micro-units, and
a final invoice after posted ones brings the sum to the total. -/
def MeetsAmounts (ord total : ℤ) (c : InvoiceCall) (db db' : OrderDb) : Prop :=
  match c.op with
  | .downPayment amount _ ids | .progressPayment amount _ ids =>
      ord ∈ ids → ∀ i m, db'.account.moves.get? i = some m → db.account.moves.get? i = none →
        m.saleId = some ord → m.amountTotal = amount * 1000000
  | .finalInvoice ids => AllPosted ord db.account → ord ∈ ids → invoiced db'.account ord = total
  | _ => True

variable {plain} {ord total : ℤ} {db db' : OrderDb}

variable {today : String}

lemma createInvoices_bounded {ids : List ℤ} (htotal : 0 ≤ total) (h0 : Bounded ord total db)
    (hok : InTurn (createInvoice today) (NothingInvoiced ord) db ids)
    (h : handleActionCreateInvoices today db ids = .ok db') : Bounded ord total db' := by
  refine foldlM_invariant (fun db ordId db' h0 hone h => ?_) hok h h0
  obtain ⟨o, ho, hadded⟩ := createInvoice_ok h
  refine h0.draftAdded hadded ?_
  rintro rfl
  have hwithin := hone rfl o ho
  rw [h0.total_eq ho] at hwithin ⊢
  exact ⟨Doubles.round_nonneg htotal, by omega⟩

lemma downPayment_bounded {note : String} {amount : ℚ} {ids : List ℤ}
    (h0 : Bounded ord total db) (hids : ord ∉ ids)
    (h : handleActionCreateDownPayment plain today amount note db ids = .ok db') :
    Bounded ord total db' := by
  unfold handleActionCreateDownPayment at h
  split_ifs at h
  · cases h
    exact h0
  · have hother : InTurn (downPayment plain today amount note) (fun _ ordId => ordId ≠ ord) db ids :=
      inTurn_of_forall db fun ordId hmem heq => hids (heq ▸ hmem)
    refine foldlM_invariant (fun db ordId db' h0 hne h => ?_) hother h h0
    obtain ⟨v, -, hadded⟩ := downPayment_ok h
    exact h0.draftAdded hadded fun heq => absurd heq hne

lemma AllPosted.drafted_eq_zero (h : AllPosted ord db.account) : drafted db.account ord = 0 := by
  apply List.sum_eq_zero
  intro x hx
  obtain ⟨r, hr, rfl⟩ := List.mem_map.mp hx
  apply if_neg
  rintro ⟨hord, hdraft, htype⟩
  have hposted := h r.1 r.2 (get?_eq_some_iff.mpr hr) ⟨hord, htype, by rw [hdraft]; decide⟩
  rw [hdraft] at hposted
  cases hposted

/-- The final invoice stays within the total, and reaches it when there is no draft, exactly
when the drafts leave it room. -/
lemma finalInvoice_within_iff {o : Order} (ho : db.saleOrders.get? ord = some o)
    (h : finalInvoice plain today db ord = .ok db') :
    (invoiced db'.account ord ≤ o.amountTotal ∧
        (drafted db.account ord = 0 → invoiced db'.account ord = o.amountTotal)) ↔
      DraftsLeaveRoom ord db ord := by
  obtain ⟨o', ho', -, hadded⟩ := finalInvoice_ok h
  rw [ho] at ho'
  cases ho'
  have hsplit := invoiced_eq db.account ord
  have hleft : remaining db.account ord o =
      leftInDoubles o.amountTotal (postedAmount db.account ord) := rfl
  rw [hadded.invoiced_eq, if_pos rfl, hleft]
  constructor
  · rintro ⟨hle, hfull⟩ - o' ho'
    rw [ho] at ho'
    cases ho'
    refine ⟨by omega, fun hnone => ?_⟩
    have hfull := hfull hnone
    omega
  · intro hroom
    obtain ⟨hle, hexact⟩ := hroom rfl o ho
    refine ⟨by omega, fun hnone => ?_⟩
    have hexact := hexact hnone
    omega

lemma finalInvoice_bounded {ordId : ℤ} (h0 : Bounded ord total db)
    (hroom : DraftsLeaveRoom ord db ordId) (h : finalInvoice plain today db ordId = .ok db') :
    Bounded ord total db' ∧
      (ordId = ord ∧ drafted db.account ord = 0 ∨ invoiced db.account ord = total →
        invoiced db'.account ord = total) ∧
      (ordId ≠ ord → drafted db'.account ord = drafted db.account ord) := by
  obtain ⟨o, ho, hpos, hadded⟩ := finalInvoice_ok h
  by_cases hord : ordId = ord
  · subst hord
    have htotal := h0.total_eq ho
    obtain ⟨hle, hfull⟩ := (finalInvoice_within_iff ho h).mpr hroom
    rw [htotal] at hle hfull
    have hadd := hadded.invoiced_eq ordId
    rw [if_pos rfl] at hadd
    refine ⟨h0.draftAdded hadded fun _ => ⟨hpos.le, by omega⟩, ?_, fun hne => absurd rfl hne⟩
    rintro (⟨-, hnone⟩ | hbefore)
    · exact hfull hnone
    · -- nothing is left of an order that is invoiced in full
      omega
  · refine ⟨h0.draftAdded hadded fun heq => absurd heq hord, ?_, fun hne => hadded.drafted_eq hne⟩
    rintro (⟨heq, -⟩ | hfull)
    · exact absurd heq hord
    · rw [hadded.invoiced_eq, if_neg hord, add_zero, hfull]

lemma finalInvoices_bounded {ids : List ℤ} (h0 : Bounded ord total db)
    (hok : InTurn (finalInvoice plain today) (DraftsLeaveRoom ord) db ids)
    (h : handleActionCreateFinalInvoice plain today db ids = .ok db') :
    Bounded ord total db' ∧
      (ord ∈ ids ∧ drafted db.account ord = 0 ∨ invoiced db.account ord = total →
        invoiced db'.account ord = total) := by
  induction ids generalizing db with
  | nil =>
      cases h
      refine ⟨h0, ?_⟩
      rintro (⟨hmem, -⟩ | hfull)
      · cases hmem
      · exact hfull
  | cons ordId ids ih =>
      obtain ⟨db₁, hone, hrest⟩ := foldlM_cons_ok.mp h
      obtain ⟨hbound, hfull, hother⟩ := finalInvoice_bounded h0 hok.1 hone
      obtain ⟨hbound', hfull'⟩ := ih hbound (hok.2 db₁ hone) hrest
      refine ⟨hbound', ?_⟩
      rintro (⟨hmem, hnone⟩ | hbefore)
      · by_cases hord : ordId = ord
        · exact hfull' (.inr (hfull (.inl ⟨hord, hnone⟩)))
        · have hmem := (List.mem_cons.mp hmem).resolve_left (Ne.symm hord)
          exact hfull' (.inl ⟨hmem, (hother hord).trans hnone⟩)
      · exact hfull' (.inr (hfull (.inr hbefore)))

/-- **A call within the condition** keeps the bound and meets its amounts. -/
theorem invoiceCall_bounded {c : InvoiceCall} (htotal : 0 ≤ total) (h0 : Bounded ord total db)
    (hok : KeepsWithin plain ord db c) (h : c.run plain db = .ok db') :
    Bounded ord total db' ∧ MeetsAmounts ord total c db db' := by
  obtain ⟨now, today, op⟩ := c
  cases op with
  | createInvoices ids => exact ⟨createInvoices_bounded htotal h0 hok h, trivial⟩
  | downPayment amount note ids =>
      exact ⟨downPayment_bounded h0 hok h, fun hmem => absurd hmem hok⟩
  | progressPayment amount note ids =>
      exact ⟨downPayment_bounded h0 hok h, fun hmem => absurd hmem hok⟩
  | finalInvoice ids =>
      obtain ⟨hbound, hfull⟩ := finalInvoices_bounded h0 hok h
      exact ⟨hbound, fun hposted hmem => hfull (.inl ⟨hmem, hposted.drafted_eq_zero⟩)⟩
  | post ids =>
      obtain ⟨account, haccount, rfl⟩ := map_ok_iff.mp h
      refine ⟨?_, trivial⟩
      exact foldlM_keeps (fun account => Bounded ord total { db with account := account })
        (fun _ _ _ hb hone => hb.posted hone) haccount h0
  | cancel ids =>
      cases h
      exact ⟨h0.cancelled ids, trivial⟩

lemma invoiceStep_eq_some_iff {c : InvoiceCall} :
    invoiceStep plain db c = some db' ↔ c.run plain db = .ok db' := toOption_eq_some_iff

/-- No invoice of the order is written yet. -/
def NoInvoices (ord : ℤ) (db : OrderDb) : Prop :=
  ∀ r ∈ db.account.moves.rows, r.2.saleId ≠ some ord

lemma NoInvoices.bounded (h : NoInvoices ord db) (htotal : 0 ≤ total)
    (horder : (db.saleOrders.get? ord).map (·.amountTotal) = some total) :
    Bounded ord total db := by
  have hzero : ∀ r ∈ db.account.moves.rows, share ord r.2 = 0 :=
    fun r hr => if_neg fun hcounts => h r hr hcounts.1
  refine ⟨horder, ?_, ?_⟩
  · intro i m hm
    exact (hzero _ (get?_eq_some_iff.mp hm)).ge
  · refine le_of_eq_of_le ?_ htotal
    apply List.sum_eq_zero
    intro x hx
    obtain ⟨r, hr, rfl⟩ := List.mem_map.mp hx
    exact hzero r hr

/-- **An order is not invoiced beyond its total** in any run of calls each of which,
in the state it is made in, invoices no more than there is; and each of these calls
meets its amounts. -/
theorem order_not_over_invoiced {db₁ : OrderDb} {o : Order}
    (ho : db.saleOrders.get? ord = some o) (htotal : 0 ≤ o.amountTotal) (hnew : NoInvoices ord db)
    (hrun : Reaches (invoiceStep plain) (KeepsWithin plain ord) db db₁) :
    invoiced db₁.account ord ≤ o.amountTotal ∧
      ∀ c db₂, KeepsWithin plain ord db₁ c → invoiceStep plain db₁ c = some db₂ →
        MeetsAmounts ord o.amountTotal c db₁ db₂ := by
  have h0 : Bounded ord o.amountTotal db := hnew.bounded htotal (by rw [ho]; rfl)
  have hbound : Bounded ord o.amountTotal db₁ := by
    apply hrun.invariant _ h0
    intro s c s' hs hok hstep
    exact (invoiceCall_bounded htotal hs hok (invoiceStep_eq_some_iff.mp hstep)).1
  refine ⟨hbound.sum, ?_⟩
  intro c db₂ hok hstep
  exact (invoiceCall_bounded htotal hbound hok (invoiceStep_eq_some_iff.mp hstep)).2

/-! ### Down payments -/

/-! ### Examples -/

/-- Whether the shortest text of a whole double is its digits: they are no longer than the form
with an exponent. -/
def digitsOnly (n : ℤ) : Bool :=
  let digits := Nat.toDigits 10 n.natAbs
  let significant := (digits.reverse.dropWhile (· == '0')).length
  digits.length ≤ (if significant ≤ 1 then 1 else significant + 1) + 4

example : digitsOnly 123456789 = true ∧ digitsOnly 100000000 = false := by decide

/-- A confirmed order of one line. -/
def chairOrder (total : ℤ) : OrderDb where
  account := {
    accounts := (Table.empty.insert { code := "1200", accountType := .assetReceivable }).insert
      { code := "4000", accountType := .income }
    journals := Table.empty.insert { code := "INV", type := .sale } }
  saleOrders := Table.empty.insert
    { name := "SO/2026/0001", amountUntaxed := total, amountTotal := total }
  saleLines := Table.empty.insert
    { orderId := 1
      name := "Chair"
      priceUnit := total
      priceSubtotal := total
      priceTotal := total }

def finalCall : InvoiceCall := ⟨february, "2026-02-10", .finalInvoice [1]⟩

theorem order_not_over_invoiced_chair :
    ∃ db₁, invoiceStep digitsOnly (chairOrder 123456789) finalCall = some db₁ ∧
      invoiced db₁.account 1 ≤ 123456789 := by
  obtain ⟨db₁, hstep⟩ : ∃ db₁, invoiceStep digitsOnly (chairOrder 123456789) finalCall = some db₁ :=
    isSome_iff_exists.mp (by decide)
  have hroom : KeepsWithin digitsOnly 1 (chairOrder 123456789) finalCall := by
    refine ⟨fun _ o ho => ?_, fun _ _ => trivial⟩
    cases ho
    decide
  exact ⟨db₁, hstep, (@order_not_over_invoiced digitsOnly 1 (chairOrder 123456789) db₁ _ rfl
    (by decide) (fun r hr => by cases hr)
    (Relation.ReflTransGen.single ⟨finalCall, hroom, hstep⟩)).1⟩

/-- An order of 100.00 that is invoiced twice. -/
theorem order_invoiced_twice : ¬ ∀ (plain : ℤ → Bool) (db db₁ : OrderDb) (ord : ℤ) (o : Order),
      db.saleOrders.get? ord = some o → 0 ≤ o.amountTotal → NoInvoices ord db →
        Reaches (invoiceStep plain) (fun _ _ => True) db db₁ →
          invoiced db₁.account ord ≤ o.amountTotal := by
  intro h
  let call : InvoiceCall := ⟨february, "2026-02-10", .createInvoices [1]⟩
  have hrun : ((do
      let db₁ ← call.run digitsOnly (chairOrder 100000000)
      let db₂ ← call.run digitsOnly db₁
      require (invoiced db₂.account 1 = 200000000) "") : Except String Unit).isOk = true := by
    decide
  obtain ⟨_, hrun⟩ := exists_ok hrun
  obtain ⟨db₁, hone, hrun⟩ := bind_ok_iff.mp hrun
  obtain ⟨db₂, htwo, hrun⟩ := bind_ok_iff.mp hrun
  have hsum := require_ok_iff.mp hrun
  have hreach : Reaches (invoiceStep digitsOnly) (fun _ _ => True) (chairOrder 100000000) db₂ :=
    (Relation.ReflTransGen.single ⟨call, trivial, invoiceStep_eq_some_iff.mpr hone⟩).tail
      ⟨call, trivial, invoiceStep_eq_some_iff.mpr htwo⟩
  have hbound := h digitsOnly (chairOrder 100000000) db₂ 1 _ rfl (by decide)
    (fun r hr => by cases hr) hreach
  rw [hsum] at hbound
  exact absurd hbound (by decide)

end OrderInvoices

end CErp
