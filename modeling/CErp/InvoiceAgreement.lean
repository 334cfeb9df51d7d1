/-
What an order's document is to the accounting module.

The lines of the document carry no tax and no tax line is marked as one, so
recomputing the totals reads the positive amounts on the side of the goods and no
tax at all (`recomputeOne_document`).  The balance counts the negative amounts as
well, and takes the header's total against them (`IsDocumentOf.balanced_iff`).
The two agree with each other and with the order exactly when the order has no tax,
no negative line, and lines that add up to its total (`agrees_iff`).
-/
import CErp.OrderInvoiced
import CErp.Reversal

namespace CErp

open List Table
open AccountDb (numbered)
open Outcome
open AccountMove

namespace OrderInvoices

/-! ### The two kinds of orders -/

inductive OrderSort where
  | sale
  | purchase
  deriving DecidableEq

namespace OrderSort

def kind : OrderSort → Kind
  | sale => saleKind
  | purchase => purchaseKind

def orders : OrderSort → OrderDb → Table Order
  | sale, db => db.saleOrders
  | purchase, db => db.purchaseOrders

/-- The lines that go into the document of an order. -/
def documentLines : OrderSort → OrderDb → ℤ → List OrderLine
  | sale => invoicedLines
  | purchase => billedLines

def create : OrderSort → String → OrderDb → ℤ → Except String OrderDb
  | sale => createInvoice
  | purchase => createBill

/-- `action_create_invoices` or `action_create_bills`. -/
def createAll : OrderSort → String → OrderDb → List ℤ → Except String OrderDb
  | sale => handleActionCreateInvoices
  | purchase => handleActionCreateBills

lemma createAll_eq (s : OrderSort) (today : String) (db : OrderDb) (ids : List ℤ) :
    s.createAll today db ids = ids.foldlM (s.create today) db := by
  cases s <;> rfl

end OrderSort

/-! ### The lines of a document -/

/-- The lines for one line of the order, with its amounts as doubles hold them. -/
def roundedLines (k : Kind) (b : Books) (o : Order) (ln : OrderLine) : List MoveLine :=
  productLine k b o ln.name (Doubles.round ln.qty) (Doubles.round ln.priceUnit)
      (Doubles.round ln.priceSubtotal) ::
    if 0 < Doubles.round ln.priceTax then [taxLine k b o ln.name (Doubles.round ln.priceTax)]
    else []

lemma linesFor_ok {k : Kind} {b : Books} {o : Order} {ln : OrderLine} {ls : List MoveLine}
    (h : linesFor k b o ln = .ok ls) : ls = roundedLines k b o ln := by
  obtain ⟨qty, hqty, h⟩ := bind_ok_iff.mp h
  obtain ⟨unit, hunit, h⟩ := bind_ok_iff.mp h
  obtain ⟨sub, hsub, h⟩ := bind_ok_iff.mp h
  obtain ⟨tax, htax, h⟩ := bind_ok_iff.mp h
  rw [← pure_ok_iff.mp h, throughDouble_ok hqty, throughDouble_ok hunit,
    throughDouble_ok hsub, throughDouble_ok htax]
  rfl

lemma linesFor_flatten {k : Kind} {b : Books} {o : Order} {lines : List OrderLine}
    {ls : List (List MoveLine)} (h : lines.mapM (linesFor k b o) = .ok ls) :
    ls.flatten = lines.flatMap (roundedLines k b o) := by
  induction lines generalizing ls with
  | nil =>
      cases h
      rfl
  | cons ln lines ih =>
      rw [mapM_cons] at h
      obtain ⟨l, hl, h⟩ := bind_ok_iff.mp h
      obtain ⟨ls', hls', h⟩ := bind_ok_iff.mp h
      rw [← pure_ok_iff.mp h, flatten_cons, flatMap_cons, ih hls', linesFor_ok hl]

/-- A document of an order: its header, and its lines. -/
structure IsDocumentOf (k : Kind) (o : Order) (lines : List OrderLine) (m : Move) : Prop where
  moveType : m.moveType = k.moveType
  state : m.state = .draft
  header : headerTotals m = (Doubles.round o.amountUntaxed, Doubles.round o.amountTax,
    Doubles.round o.amountTotal)
  lines : ∃ b n, m.lines = numbered n (lines.flatMap (roundedLines k b o) ++
    [partnerLine k b o (k.partnerLabel ++ o.name) (Doubles.round o.amountTotal)])

/-! ### Making documents -/

/-- An order without its invoice status. -/
def terms (o : Order) : Order := { o with invoiceStatus := .nothing }

/-- The document of an order does not depend on its status. -/
lemma isDocumentOf_terms {k : Kind} {o : Order} {lines : List OrderLine} {m : Move} :
    IsDocumentOf k (terms o) lines m ↔ IsDocumentOf k o lines m :=
  ⟨fun ⟨h₁, h₂, h₃, h₄⟩ => ⟨h₁, h₂, h₃, h₄⟩, fun ⟨h₁, h₂, h₃, h₄⟩ => ⟨h₁, h₂, h₃, h₄⟩⟩

lemma terms_modify (t : Table Order) (ordId : ℤ) (st : InvoiceStatus) (i : ℤ) :
    ((t.modify ordId fun o => { o with invoiceStatus := st }).get? i).map terms =
      (t.get? i).map terms := by
  rw [get?_modify, Option.map_map]
  congr 1
  funext o
  show terms (if i = ordId then _ else o) = _
  split
  · rfl
  · rfl

/-- One document of an order is new, and the orders are as they were. -/
structure DocumentAdded (s : OrderSort) (db db' : OrderDb) (ordId : ℤ) : Prop where
  document : ∃ o e, (s.orders db).get? ordId = some o ∧
    IsDocumentOf s.kind o (s.documentLines db ordId) e ∧ Enters db.account db'.account e
  orders : ∀ i, ((s.orders db').get? i).map terms = ((s.orders db).get? i).map terms
  lines : ∀ i, s.documentLines db' i = s.documentLines db i

lemma orderDocument_isDocument {k : Kind} {db db' : AccountDb} {today : String} {o : Order}
    {lines : List OrderLine} {link : Move → Move}
    (h : orderDocument k db today o lines link = .ok db')
    (hlink : ∀ m, (link m).moveType = m.moveType ∧ (link m).state = m.state ∧
      headerTotals (link m) = headerTotals m ∧ (link m).lines = m.lines) :
    ∃ e, IsDocumentOf k o lines e ∧ Enters db db' e := by
  obtain ⟨b, ls, -, -, hls, henters⟩ := orderDocument_ok h
  obtain ⟨htype, hstate, hheader, hlines⟩ := hlink (draft k b o today
    (Doubles.round o.amountUntaxed) (Doubles.round o.amountTax) (Doubles.round o.amountTotal))
  refine ⟨_, ?_, henters⟩
  refine ⟨htype, hstate, hheader, b, db.nextLineId, ?_⟩
  rw [hlines, linesFor_flatten hls]
  rfl

lemma create_ok {s : OrderSort} {today : String} {db db' : OrderDb} {ordId : ℤ}
    (h : s.create today db ordId = .ok db') : DocumentAdded s db db' ordId := by
  cases s with
  | sale =>
      change createInvoice today db ordId = .ok db' at h
      unfold createInvoice at h
      split at h
      · cases h
      next o ho =>
      obtain ⟨account, haccount, h⟩ := bind_ok_iff.mp h
      cases h
      obtain ⟨e, hdoc, henters⟩ :=
        orderDocument_isDocument haccount fun _ => ⟨rfl, rfl, rfl, rfl⟩
      exact ⟨⟨o, e, ho, hdoc, henters⟩, terms_modify db.saleOrders ordId .invoiced, fun _ => rfl⟩
  | purchase =>
      change createBill today db ordId = .ok db' at h
      unfold createBill at h
      split at h
      · cases h
      next o ho =>
      obtain ⟨account, haccount, h⟩ := bind_ok_iff.mp h
      cases h
      obtain ⟨e, hdoc, henters⟩ :=
        orderDocument_isDocument haccount fun _ => ⟨rfl, rfl, rfl, rfl⟩
      exact ⟨⟨o, e, ho, hdoc, henters⟩, terms_modify db.purchaseOrders ordId .billed, fun _ => rfl⟩

/-- What is read of a document is no part of what its payments change. -/
lemma isDocumentOf_document {k : Kind} {o : Order} {lines : List OrderLine} {m e : Move}
    (hme : m.document = e.document) (h : IsDocumentOf k o lines e) : IsDocumentOf k o lines m := by
  obtain ⟨htype, hstate, hheader, hlines⟩ := h
  have hfields := congrArg (fun d : Move => (d.moveType, d.state, headerTotals d, d.lines)) hme
  simp only [Prod.mk.injEq] at hfields
  obtain ⟨htype', hstate', hheader', hlines' : m.lines = e.lines⟩ := hfields
  exact ⟨htype'.trans htype, hstate'.trans hstate, hheader'.trans hheader, by rw [hlines']; exact hlines⟩

/-- A new document of an order, in the tables. -/
def DocumentIn (s : OrderSort) (db db' : OrderDb) (ordId i : ℤ) : Prop :=
  db.account.moves.get? i = none ∧ ∃ o m, (s.orders db).get? ordId = some o ∧
    db'.account.moves.get? i = some m ∧ IsDocumentOf s.kind o (s.documentLines db ordId) m

section Created

variable {s : OrderSort} {today : String} {db db₁ db' : OrderDb} {ordId : ℤ}

lemma DocumentAdded.keeps {i : ℤ} {d : Move} (h : DocumentAdded s db db' ordId)
    (hd : db.account.document i = some d) : db'.account.document i = some d := by
  obtain ⟨o, e, -, -, henters⟩ := h.document
  exact henters.keeps hd

/-- What later calls make is made of the orders as they were. -/
lemma DocumentAdded.documentIn (h : DocumentAdded s db db₁ ordId) {ordId' i : ℤ}
    (hin : DocumentIn s db₁ db' ordId' i) : DocumentIn s db db' ordId' i := by
  obtain ⟨hnew, o₁, m, ho₁, hm, hdoc⟩ := hin
  have hsame := h.orders ordId'
  rw [ho₁, Option.map_some] at hsame
  obtain ⟨o, ho, hterms⟩ := Option.map_eq_some_iff.mp hsame.symm
  refine ⟨?_, o, m, ho, hm, ?_⟩
  · rcases hbefore : db.account.moves.get? i with - | m₀
    · rfl
    · have hkept := h.keeps (document_of_get? hbefore)
      rw [AccountDb.document, hnew] at hkept
      cases hkept
  · rw [← isDocumentOf_terms, hterms, isDocumentOf_terms, ← h.lines]
    exact hdoc

/-- **Every order of a call gets a document**, and nothing else is new. -/
theorem createAll_documents {ids : List ℤ} (h : s.createAll today db ids = .ok db') :
    (∃ created, Forall₂ (DocumentIn s db db') ids created ∧
        ∀ i d, db'.account.document i = some d → db.account.document i = some d ∨ i ∈ created) ∧
      ∀ i d, db.account.document i = some d → db'.account.document i = some d := by
  rw [OrderSort.createAll_eq] at h
  induction ids generalizing db with
  | nil =>
      cases h
      exact ⟨⟨[], .nil, fun _ _ hd => .inl hd⟩, fun _ _ hd => hd⟩
  | cons ordId ids ih =>
      obtain ⟨db₁, hone, hrest⟩ := Runs.foldlM_cons_ok.mp h
      have hadded := create_ok hone
      obtain ⟨⟨created, hall, honly⟩, hkeep⟩ := ih hrest
      obtain ⟨o, e, ho, hdoc, henters⟩ := hadded.document
      have hnew : db₁.account.document db.account.moves.nextId = some e.document := by
        rw [henters, if_pos rfl]
      obtain ⟨m, hm, hme⟩ := document_eq_some (hkeep _ _ hnew)
      refine ⟨⟨db.account.moves.nextId :: created, .cons ?_ ?_, ?_⟩, ?_⟩
      · exact ⟨get?_nextId _, o, m, ho, hm, isDocumentOf_document hme hdoc⟩
      · exact hall.imp fun _ _ hin => hadded.documentIn hin
      · intro i d hd
        rcases honly i d hd with hbefore | hmem
        · rw [henters i] at hbefore
          split at hbefore
          · next hi => exact .inr (hi ▸ mem_cons_self)
          · exact .inl hbefore
        · exact .inr (mem_cons_of_mem _ hmem)
      · intro i d hd
        exact hkeep i d (hadded.keeps hd)

end Created

/-! ### Amounts of a document -/

/-- What a line of the order puts on the side of the goods. -/
def goods (ln : OrderLine) : ℤ :=
  Doubles.round ln.priceSubtotal + max 0 (Doubles.round ln.priceTax)

/-- What recomputing reads of it. -/
def positiveGoods (ln : OrderLine) : ℤ :=
  max 0 (Doubles.round ln.priceSubtotal) + max 0 (Doubles.round ln.priceTax)

/-- An amount on the side of the goods counts as the side says. -/
def signed (onCredit : Bool) (x : ℤ) : ℤ := if onCredit then -x else x

/-- What a line counts for in the untaxed amount. -/
def counted (onCredit : Bool) (l : MoveLine) : ℤ :=
  if isProductLine l then max 0 (if onCredit then l.credit else l.debit) else 0

lemma untaxedAmount_eq (m : Move) :
    untaxedAmount m = (m.lines.map (counted m.moveType.productLinesAreCredit)).sum := by
  unfold untaxedAmount
  dsimp only
  induction m.lines with
  | nil => rfl
  | cons l ls ih =>
      rw [map_cons, sum_cons, ← ih, filter_cons]
      unfold counted
      by_cases hproduct : isProductLine l = true
      · by_cases hpos : 0 < if m.moveType.productLinesAreCredit = true then l.credit else l.debit
        · rw [if_pos (by simp [hpos, hproduct]), map_cons, sum_cons, if_pos hproduct,
            max_eq_right hpos.le]
        · rw [if_neg (by simp [hpos]), if_pos hproduct, max_eq_left (not_lt.mp hpos), zero_add]
      · rw [if_neg (by simp [hproduct]), if_neg hproduct, zero_add]

section Lines

variable (k : Kind) (b : Books) (o : Order)

lemma linesBalance_roundedLines (ln : OrderLine) :
    linesBalance (roundedLines k b o ln) = signed k.moveType.productLinesAreCredit (goods ln) := by
  unfold roundedLines goods
  rw [linesBalance_cons]
  split
  · next htax =>
      rw [linesBalance_cons, linesBalance_nil, max_eq_right htax.le]
      cases hside : k.moveType.productLinesAreCredit <;>
        simp [signed, productLine, taxLine, sided, hside]
      omega
  · next htax =>
      rw [linesBalance_nil, max_eq_left (not_lt.mp htax)]
      cases hside : k.moveType.productLinesAreCredit <;> simp [signed, productLine, sided, hside]

lemma counted_roundedLines (ln : OrderLine) :
    ((roundedLines k b o ln).map (counted k.moveType.productLinesAreCredit)).sum =
      positiveGoods ln := by
  unfold roundedLines positiveGoods
  rw [map_cons, sum_cons]
  have hgoods : ∀ amount, counted k.moveType.productLinesAreCredit
      (productLine k b o ln.name (Doubles.round ln.qty) (Doubles.round ln.priceUnit) amount) =
        max 0 amount := by
    intro amount
    cases hside : k.moveType.productLinesAreCredit <;>
      simp [counted, isProductLine, productLine, sided, hside]
  have htax : ∀ amount, counted k.moveType.productLinesAreCredit
      (taxLine k b o ln.name amount) = max 0 amount := by
    intro amount
    cases hside : k.moveType.productLinesAreCredit <;>
      simp [counted, isProductLine, taxLine, sided, hside]
  rw [hgoods]
  split
  · rw [map_cons, sum_cons, htax, map_nil, sum_nil, add_zero]
  · next hnone => rw [map_nil, sum_nil, max_eq_left (not_lt.mp hnone)]

/-- A line without taxes that is no generated one. -/
def Ordinary (l : MoveLine) : Prop := l.taxIds = [] ∧ l.taxLineId = none

lemma ordinary_sided {c : Bool} {amount : ℤ} {l : MoveLine} (h : Ordinary l) :
    Ordinary (sided c amount l) := by
  cases c
  · exact h
  · exact h

lemma ordinary_roundedLines (ln : OrderLine) : ∀ l ∈ roundedLines k b o ln, Ordinary l := by
  refine forall_mem_cons.mpr ⟨ordinary_sided ⟨rfl, rfl⟩, ?_⟩
  split
  · exact forall_mem_singleton.mpr (ordinary_sided ⟨rfl, rfl⟩)
  · exact fun l hl => absurd hl not_mem_nil

/-- The lines of the goods have nothing on the counterparty's side. -/
lemma matchCounterparty_roundedLines (total : ℤ) (ln : OrderLine) :
    ∀ l ∈ roundedLines k b o ln, matchCounterparty k.moveType total l = l := by
  unfold roundedLines matchCounterparty
  refine forall_mem_cons.mpr ⟨?_, ?_⟩
  · cases hside : k.moveType.productLinesAreCredit <;> simp [productLine, sided, hside]
  · split
    · refine forall_mem_singleton.mpr ?_
      cases hside : k.moveType.productLinesAreCredit <;> simp [taxLine, sided, hside]
    · exact fun l hl => absurd hl not_mem_nil

/-- The counterparty's line goes to the new total, if its side is positive. -/
lemma balance_matchCounterparty (name : String) (total total' : ℤ) :
    (matchCounterparty k.moveType total' (partnerLine k b o name total)).balance =
      -signed k.moveType.productLinesAreCredit (if 0 < total then total' else total) := by
  unfold matchCounterparty
  by_cases htotal : 0 < total
  · cases hside : k.moveType.productLinesAreCredit <;>
      simp [partnerLine, sided, hside, signed, MoveLine.balance, htotal]
  · cases hside : k.moveType.productLinesAreCredit <;>
      simp [partnerLine, sided, hside, signed, MoveLine.balance, htotal]

end Lines

/-! ### Balance and recomputing -/

section Document

variable {k : Kind} {o : Order} {lines : List OrderLine} {m : Move}

lemma signed_sum (c : Bool) (f : OrderLine → ℤ) (lines : List OrderLine) :
    (lines.map fun ln => signed c (f ln)).sum = signed c (lines.map f).sum := by
  cases c with
  | false => rfl
  | true =>
      show _ = -(lines.map f).sum
      rw [sum_neg, map_map]
      rfl

lemma signed_sub (c : Bool) (x y : ℤ) : signed c (x - y) = signed c x + -signed c y := by
  cases c
  · exact sub_eq_add_neg x y
  · show -(x - y) = -x + - -y
    omega

lemma signed_eq_zero_iff {c : Bool} {x : ℤ} : signed c x = 0 ↔ x = 0 := by
  cases c
  · exact Iff.rfl
  · exact neg_eq_zero

/-- A quantity of the lines of a document, added up: that of the goods, and the
counterparty's. -/
lemma IsDocumentOf.sum_lines (hdoc : IsDocumentOf k o lines m) {f : MoveLine → ℤ}
    {g : OrderLine → ℤ} {x : ℤ} (hid : ∀ l n, f { l with id := n } = f l)
    (hgoods : ∀ b ln, ((roundedLines k b o ln).map f).sum = g ln)
    (hpartner : ∀ b name, f (partnerLine k b o name (Doubles.round o.amountTotal)) = x) :
    (m.lines.map f).sum = (lines.map g).sum + x := by
  obtain ⟨b, n, hlines⟩ := hdoc.lines
  rw [hlines, AccountDb.map_numbered f hid, map_append, sum_append, map_singleton,
    sum_singleton, hpartner]
  congr 1
  clear hlines hdoc
  induction lines with
  | nil => rfl
  | cons ln lines ih =>
      rw [flatMap_cons, map_append, sum_append, hgoods, ih, map_cons, sum_cons]

lemma IsDocumentOf.linesBalance_eq (hdoc : IsDocumentOf k o lines m) :
    linesBalance m.lines = signed k.moveType.productLinesAreCredit
      ((lines.map goods).sum - Doubles.round o.amountTotal) := by
  rw [signed_sub, ← signed_sum]
  refine hdoc.sum_lines (fun _ _ => rfl) (fun b ln => linesBalance_roundedLines k b o ln) ?_
  intro b name
  cases hside : k.moveType.productLinesAreCredit <;>
    simp [partnerLine, sided, hside, signed, MoveLine.balance]

/-- The balance once the counterparty's line is brought to some total. -/
lemma IsDocumentOf.linesBalance_matched (hdoc : IsDocumentOf k o lines m) (total : ℤ) :
    linesBalance (m.lines.map (matchCounterparty m.moveType total)) =
      signed k.moveType.productLinesAreCredit ((lines.map goods).sum -
        if 0 < Doubles.round o.amountTotal then total else Doubles.round o.amountTotal) := by
  rw [signed_sub, ← signed_sum, linesBalance, map_map, hdoc.moveType]
  refine hdoc.sum_lines ?_ ?_ fun b name => balance_matchCounterparty k b o name _ total
  · intro l n
    simp only [Function.comp_apply, matchCounterparty]
    split <;> split <;> rfl
  · intro b ln
    rw [← linesBalance_roundedLines k b o ln, linesBalance]
    congr 1
    apply map_congr_left
    intro l hl
    exact congrArg MoveLine.balance (matchCounterparty_roundedLines k b o total ln l hl)

lemma IsDocumentOf.untaxedAmount_eq (hdoc : IsDocumentOf k o lines m) :
    untaxedAmount m = (lines.map positiveGoods).sum := by
  rw [OrderInvoices.untaxedAmount_eq, hdoc.moveType, ← add_zero (lines.map positiveGoods).sum]
  refine hdoc.sum_lines (fun _ _ => rfl) (fun b ln => counted_roundedLines k b o ln) ?_
  intro b name
  cases hside : k.moveType.productLinesAreCredit <;>
    simp [counted, isProductLine, partnerLine, sided, hside]

lemma IsDocumentOf.ordinary (hdoc : IsDocumentOf k o lines m) : ∀ l ∈ m.lines, Ordinary l := by
  obtain ⟨b, n, hlines⟩ := hdoc.lines
  rw [hlines]
  refine AccountDb.forall_mem_numbered (fun _ _ h => h) n fun l hl => ?_
  rcases mem_append.mp hl with hgoods | hpartner
  · obtain ⟨ln, -, hln⟩ := mem_flatMap.mp hgoods
    exact ordinary_roundedLines k b o ln l hln
  · rw [mem_singleton.mp hpartner]
    exact ordinary_sided ⟨rfl, rfl⟩

end Document

section Recompute

variable (D : Type) [JsonDouble D] {m : Move}

/-- Lines without taxes have no tax. -/
lemma taxTotals_ordinary (db : AccountDb) (h : ∀ l ∈ m.lines, Ordinary l) :
    taxTotals D db m = .ok {} := by
  have hlines : ∀ l ∈ m.lines.filter isProductLine, Ordinary l :=
    fun l hl => h l (mem_of_mem_filter hl)
  unfold taxTotals
  generalize m.lines.filter isProductLine = ls at hlines
  induction ls with
  | nil => rfl
  | cons l ls ih =>
      rw [forall_mem_cons] at hlines
      have hline : addLineTaxes D db (linePrecision db m) {} l = .ok {} := by
        unfold addLineTaxes
        rw [hlines.1.1]
        rfl
      rw [foldlM_cons, hline]
      exact ih hlines.2

lemma keptLines_ordinary (h : ∀ l ∈ m.lines, Ordinary l) : keptLines m = m.lines := by
  apply filter_eq_self.mpr
  intro l hl
  rw [isTaxLine, (h l hl).2]
  rfl

/-- **Recomputing an order's document** reads its positive goods as untaxed, and no tax. -/
theorem recomputeOne_document {k : Kind} {o : Order} {lines : List OrderLine} {db : AccountDb} {i : ℤ}
    (hdoc : IsDocumentOf k o lines m) (hm : db.moves.get? i = some m) :
    ∃ dbr mr, recomputeTotals D db [i] = .ok dbr ∧ dbr.moves.get? i = some mr ∧
      headerTotals mr = ((lines.map positiveGoods).sum, 0, (lines.map positiveGoods).sum) ∧
      linesBalance mr.lines = signed k.moveType.productLinesAreCredit ((lines.map goods).sum -
        if 0 < Doubles.round o.amountTotal then (lines.map positiveGoods).sum
        else Doubles.round o.amountTotal) := by
  have htotals := taxTotals_ordinary D db hdoc.ordinary
  obtain ⟨dbr, hrun⟩ := recomputeOne_isOk hm htotals fun l hl => absurd hl not_mem_nil
  obtain ⟨totals, htotals', -, hmr⟩ := recomputeOne_ok hm hrun
  rw [htotals] at htotals'
  cases htotals'
  refine ⟨dbr, _, ?_, hmr, ?_, ?_⟩
  · show [i].foldlM (recomputeOne D) db = _
    rw [foldlM_cons, hrun]
    rfl
  · show (untaxedAmount m, 0, untaxedAmount m + 0) = _
    rw [hdoc.untaxedAmount_eq, add_zero]
  · show linesBalance ((keptLines m ++ []).map (matchCounterparty m.moveType (untaxedAmount m + 0))) = _
    rw [append_nil, keptLines_ordinary hdoc.ordinary, hdoc.linesBalance_matched,
      hdoc.untaxedAmount_eq, add_zero]

end Recompute

/-! ### Agreement -/

/-- The amounts of an order. -/
def amounts (o : Order) : ℤ × ℤ × ℤ := (o.amountUntaxed, o.amountTax, o.amountTotal)

/-- A document that balances, has the amounts of its order, and keeps both when it is
recomputed. -/
structure Agrees (D : Type) [JsonDouble D] (db : AccountDb) (i : ℤ) (m : Move) (o : Order) :
    Prop where
  balanced : m.Balanced
  header : headerTotals m = amounts o
  recomputed : ∃ dbr mr, recomputeTotals D db [i] = .ok dbr ∧ dbr.moves.get? i = some mr ∧
    headerTotals mr = headerTotals m ∧ linesBalance mr.lines = linesBalance m.lines

/-- An order without tax, without negative lines, and with lines that add up to its total,
which a double holds. -/
structure Untaxed (o : Order) (lines : List OrderLine) : Prop where
  tax : o.amountTax = 0
  untaxed : o.amountUntaxed = o.amountTotal
  held : Doubles.Held o.amountTotal
  nonneg : ∀ ln ∈ lines, 0 ≤ ln.priceSubtotal
  sum : (lines.map goods).sum = o.amountTotal

/-- Recomputing leaves negative goods out. -/
lemma goods_le_positiveGoods (ln : OrderLine) : goods ln ≤ positiveGoods ln :=
  add_le_add_left (le_max_right _ _) _

lemma goods_eq_positiveGoods_iff {ln : OrderLine} :
    goods ln = positiveGoods ln ↔ 0 ≤ ln.priceSubtotal := by
  rw [← Doubles.round_nonneg_iff, goods, positiveGoods, add_left_inj, eq_comm, max_eq_right_iff]

/-- The two sums agree when no line is negative. -/
lemma sum_goods_eq_iff {lines : List OrderLine} :
    (lines.map goods).sum = (lines.map positiveGoods).sum ↔ ∀ ln ∈ lines, 0 ≤ ln.priceSubtotal := by
  have hle : ∀ lines : List OrderLine, (lines.map goods).sum ≤ (lines.map positiveGoods).sum :=
    fun lines => sum_le_sum fun ln _ => goods_le_positiveGoods ln
  induction lines with
  | nil => simp
  | cons ln lines ih =>
      have hline := goods_le_positiveGoods ln
      have hrest := hle lines
      rw [forall_mem_cons, map_cons, map_cons, sum_cons, sum_cons]
      refine Iff.trans ?_ (and_congr goods_eq_positiveGoods_iff ih)
      omega

lemma agrees_iff {D : Type} [JsonDouble D] {k : Kind} {o : Order} {lines : List OrderLine}
    {m : Move} {db : AccountDb} {i : ℤ} (hdoc : IsDocumentOf k o lines m)
    (hm : db.moves.get? i = some m) : Agrees D db i m o ↔ Untaxed o lines := by
  obtain ⟨dbr, mr, hrun, hmr, hheader, hbalance⟩ := recomputeOne_document D hdoc hm
  have hbalanced : m.Balanced ↔ (lines.map goods).sum = Doubles.round o.amountTotal := by
    rw [Move.Balanced, hdoc.linesBalance_eq, signed_eq_zero_iff, sub_eq_zero]
  constructor
  · rintro ⟨hbal, hhead, dbr', mr', hrun', hmr', hsame, -⟩
    rw [hrun] at hrun'
    cases hrun'
    rw [hmr] at hmr'
    cases hmr'
    have hgoods := hbalanced.mp hbal
    rw [hheader, hhead] at hsame
    rw [hdoc.header] at hhead
    simp only [amounts, Prod.mk.injEq] at hhead hsame
    obtain ⟨-, -, htotal⟩ := hhead
    obtain ⟨huntaxed, htax, hsum⟩ := hsame
    refine ⟨htax.symm, huntaxed.symm.trans hsum, htotal, ?_, hgoods.trans htotal⟩
    rw [← sum_goods_eq_iff, hgoods, htotal, hsum]
  · rintro ⟨htax, huntaxed, hheld, hnonneg, hsum⟩
    have hpositive := (sum_goods_eq_iff.mpr hnonneg).symm.trans hsum
    have hhead : headerTotals m = (o.amountTotal, 0, o.amountTotal) := by
      rw [hdoc.header, huntaxed, htax, hheld, Doubles.round_zero]
    refine ⟨hbalanced.mpr (by rw [hsum, hheld]), ?_, dbr, mr, hrun, hmr, ?_, ?_⟩
    · rw [hhead, amounts, huntaxed, htax]
    · rw [hheader, hpositive, hhead]
    · rw [hbalance, hdoc.linesBalance_eq, hpositive, hheld, ite_self]

/-- **A document agrees with its order exactly when the order is untaxed**, for every
document that is made. -/
theorem documents_agree_iff (D : Type) [JsonDouble D] {s : OrderSort} {today : String}
    {db db' : OrderDb} {ids : List ℤ} (h : s.createAll today db ids = .ok db') :
    ∃ created, List.Forall₂ (fun ordId i => db.account.moves.get? i = none ∧
        ∃ o m, (s.orders db).get? ordId = some o ∧ db'.account.moves.get? i = some m ∧
          (Agrees D db'.account i m o ↔ Untaxed o (s.documentLines db ordId))) ids created ∧
      ∀ i m, db'.account.moves.get? i = some m → db.account.moves.get? i = none → i ∈ created := by
  obtain ⟨⟨created, hall, honly⟩, -⟩ := createAll_documents h
  refine ⟨created, hall.imp ?_, ?_⟩
  · rintro ordId i ⟨hnew, o, m, ho, hm, hdoc⟩
    exact ⟨hnew, o, m, ho, hm, agrees_iff hdoc hm⟩
  · intro i m hm hnone
    rcases honly i _ (document_of_get? hm) with hbefore | hmem
    · obtain ⟨m₀, hm₀, -⟩ := document_eq_some hbefore
      rw [hnone] at hm₀
      cases hm₀
    · exact hmem

/-- A confirmed order of one taxed line of 100.00. -/
def taxedOrder : OrderDb :=
  { chairOrder 100000000 with
    saleOrders := empty.insert
      { name := "SO/2026/0001"
        amountUntaxed := 100000000
        amountTax := 8000000
        amountTotal := 108000000 }
    saleLines := empty.insert
      { orderId := 1
        name := "Chair"
        priceUnit := 100000000
        priceSubtotal := 100000000
        priceTax := 8000000
        priceTotal := 108000000 } }

theorem documents_agree_iff_chair : let _ := JsonDouble.wholeMicros
    ∃ db', OrderSort.sale.createAll "2026-02-10" (chairOrder 100000000) [1] = .ok db' ∧
      ∃ created, List.Forall₂ (fun ordId i => (chairOrder 100000000).account.moves.get? i = none ∧
          ∃ o m, (OrderSort.sale.orders (chairOrder 100000000)).get? ordId = some o ∧
            db'.account.moves.get? i = some m ∧
            (Agrees ℤ db'.account i m o ↔
              Untaxed o (OrderSort.sale.documentLines (chairOrder 100000000) ordId))) [1] created ∧
        ∀ i m, db'.account.moves.get? i = some m →
          (chairOrder 100000000).account.moves.get? i = none → i ∈ created := by
  intro _
  obtain ⟨db', hrun⟩ : ∃ db', OrderSort.sale.createAll "2026-02-10" (chairOrder 100000000) [1] =
      .ok db' := exists_ok (by decide)
  exact ⟨db', hrun, documents_agree_iff ℤ hrun⟩

/-- The document of a taxed order does not agree with it. -/
theorem taxed_order_disagrees : let _ := JsonDouble.wholeMicros
    ¬ ∀ (s : OrderSort) (today : String) (db db' : OrderDb) (ordId i : ℤ) (o : Order) (m : Move),
      (s.orders db).get? ordId = some o → s.createAll today db [ordId] = .ok db' →
        db'.account.moves.get? i = some m → db.account.moves.get? i = none →
          Agrees ℤ db'.account i m o := by
  intro _ h
  obtain ⟨db', hrun⟩ : ∃ db', OrderSort.sale.createAll "2026-02-10" taxedOrder [1] = .ok db' :=
    exists_ok (by decide)
  obtain ⟨⟨created, hall, -⟩, -⟩ := createAll_documents hrun
  cases hall with
  | cons hin _ =>
      obtain ⟨hnew, o, m, ho, hm, hdoc⟩ := hin
      have hagrees := h .sale "2026-02-10" taxedOrder db' 1 _ o m ho hrun hm hnew
      have huntaxed := (agrees_iff hdoc hm).mp hagrees
      cases ho
      exact absurd huntaxed.tax (by decide)

end OrderInvoices

end CErp
