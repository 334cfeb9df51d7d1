/-
Lines and totals of a sale order over runs of creates, writes and unlinks.

Columns and amounts of a line come from the same doubles, so the amounts are always
those of the columns (`computed_of_columns`).  The rest holds as far as the calls let
it: a write that leaves out a quantity, price or discount multiplies the stored one
by a million, which only 0 survives (`changesOnly_iff`), a line that moves to another
order is not counted there, and one that is deleted is not taken off
(`unlink_totalled_iff`).  `order_lines_consistent` is the run.
-/
import CErp.InvoiceAgreement
import CErp.SaleLines

namespace CErp

open Outcome List Table Option

namespace SaleLines

open AccountMove (loadTaxes)
open JsonDouble
open Runs

/-! ### Amounts -/

/-- The three amounts that lines and orders have. -/
inductive Amount where
  | subtotal
  | tax
  | total

namespace Amount

def ofLine : Amount → OrderLine → ℤ
  | subtotal, l => l.priceSubtotal
  | tax, l => l.priceTax
  | total, l => l.priceTotal

def ofOrder : Amount → Order → ℤ
  | subtotal, o => o.amountUntaxed
  | tax, o => o.amountTax
  | total, o => o.amountTotal

end Amount

/-- The amounts of a line are those the tax engine computes of its columns. -/
def Computed (db : AccountDb) (l : OrderLine) : Prop :=
  ∃ res, TaxEngine.compute { micros := l.priceUnit } { micros := l.qty } { micros := l.discount }
      (loadTaxes db l.taxIds) db.accountDigits = .ok res ∧
    l.priceSubtotal = res.baseExcluded.micros ∧ l.priceTax = res.totalTax.micros ∧
    l.priceTotal = res.totalIncluded.micros

/-- The amounts of an order are the sums over its lines. -/
def Totalled (db : OrderDb) (ordId : ℤ) (o : Order) : Prop :=
  ∀ a : Amount, a.ofOrder o = lineSum db ordId a.ofLine

def LinesComputed (db : OrderDb) : Prop :=
  ∀ i l, db.saleLines.get? i = some l → Computed db.account l

/-- Lines and totals are right; the identifiers of orders are positive. -/
structure Consistent (db : OrderDb) : Prop where
  lines : LinesComputed db
  totals : ∀ i o, db.saleOrders.get? i = some o → Totalled db i o
  positive : ∀ i o, db.saleOrders.get? i = some o → 0 < i

/-- A line with no more changes than the values given, amounts apart. -/
structure ChangesOnly {D : Type} (v : LineValues D) (l l' : OrderLine) : Prop where
  orderId : v.orderId = none → l'.orderId = l.orderId
  sequence : v.sequence = none → l'.sequence = l.sequence
  productId : v.productId = none → l'.productId = l.productId
  name : v.name = none → l'.name = l.name
  displayType : v.displayType = none → l'.displayType = l.displayType
  qty : v.qty = none → l'.qty = l.qty
  productUomId : v.productUomId = none → l'.productUomId = l.productUomId
  priceUnit : v.priceUnit = none → l'.priceUnit = l.priceUnit
  discount : v.discount = none → l'.discount = l.discount
  taxIds : v.taxIds = none → l'.taxIds = l.taxIds
  qtyInvoiced : v.qtyInvoiced = none → l'.qtyInvoiced = l.qtyInvoiced
  qtyDelivered : v.qtyDelivered = none → l'.qtyDelivered = l.qtyDelivered
  companyId : v.companyId = none → l'.companyId = l.companyId
  currencyId : v.currencyId = none → l'.currencyId = l.currencyId

lemma ChangesOnly.refl {D : Type} (v : LineValues D) (l : OrderLine) : ChangesOnly v l l := by
  constructor <;> exact fun _ => rfl

variable {l' : OrderLine}

lemma ChangesOnly.trans {D : Type} {v : LineValues D} {l l'' : OrderLine}
    (h : ChangesOnly v l l') (h' : ChangesOnly v l' l'') : ChangesOnly v l l'' where
  orderId hv := (h'.orderId hv).trans (h.orderId hv)
  sequence hv := (h'.sequence hv).trans (h.sequence hv)
  productId hv := (h'.productId hv).trans (h.productId hv)
  name hv := (h'.name hv).trans (h.name hv)
  displayType hv := (h'.displayType hv).trans (h.displayType hv)
  qty hv := (h'.qty hv).trans (h.qty hv)
  productUomId hv := (h'.productUomId hv).trans (h.productUomId hv)
  priceUnit hv := (h'.priceUnit hv).trans (h.priceUnit hv)
  discount hv := (h'.discount hv).trans (h.discount hv)
  taxIds hv := (h'.taxIds hv).trans (h.taxIds hv)
  qtyInvoiced hv := (h'.qtyInvoiced hv).trans (h.qtyInvoiced hv)
  qtyDelivered hv := (h'.qtyDelivered hv).trans (h.qtyDelivered hv)
  companyId hv := (h'.companyId hv).trans (h.companyId hv)
  currencyId hv := (h'.currencyId hv).trans (h.currencyId hv)

/-! ### What a row gets -/

section Columns

variable {D : Type} [JsonDouble D]

/-- A row that `columns` makes. -/
structure ColumnsOf (l : OrderLine) (v : LineValues D) (x : Factors D) (a : Amounts D)
    (l' : OrderLine) : Prop where
  qty : toColumn x.qty = .ok l'.qty
  priceUnit : toColumn x.priceUnit = .ok l'.priceUnit
  discount : toColumn x.discount = .ok l'.discount
  subtotal : toColumn a.subtotal = .ok l'.priceSubtotal
  tax : toColumn a.tax = .ok l'.priceTax
  total : toColumn a.total = .ok l'.priceTotal
  qtyInvoiced : toColumn? v.qtyInvoiced l.qtyInvoiced = .ok l'.qtyInvoiced
  qtyDelivered : toColumn? v.qtyDelivered l.qtyDelivered = .ok l'.qtyDelivered
  taken : l' = { l' with
    orderId := v.orderId.getD l.orderId
    sequence := v.sequence.getD l.sequence
    productId := v.productId.getD l.productId
    name := v.name.getD l.name
    displayType := v.displayType.getD l.displayType
    productUomId := v.productUomId.getD l.productUomId
    taxIds := v.taxIds.getD l.taxIds
    companyId := v.companyId.getD l.companyId
    currencyId := v.currencyId.getD l.currencyId }

lemma columns_ok {l : OrderLine} {v : LineValues D} {x : Factors D} {a : Amounts D}
    (h : columns l v x a = .ok l') : ColumnsOf l v x a l' := by
  obtain ⟨qty, hqty, h⟩ := bind_ok_iff.mp h
  obtain ⟨priceUnit, hprice, h⟩ := bind_ok_iff.mp h
  obtain ⟨discount, hdiscount, h⟩ := bind_ok_iff.mp h
  obtain ⟨subtotal, hsubtotal, h⟩ := bind_ok_iff.mp h
  obtain ⟨tax, htax, h⟩ := bind_ok_iff.mp h
  obtain ⟨total, htotal, h⟩ := bind_ok_iff.mp h
  obtain ⟨qtyInvoiced, hinvoiced, h⟩ := bind_ok_iff.mp h
  obtain ⟨qtyDelivered, hdelivered, h⟩ := bind_ok_iff.mp h
  obtain rfl := pure_ok_iff.mp h
  exact ⟨hqty, hprice, hdiscount, hsubtotal, htax, htotal, hinvoiced, hdelivered, rfl⟩

variable [ExactDoubles D]

lemma fromJson_of_toColumn {d : D} {x : ℤ} (h : toColumn d = .ok x) :
    fromJson d = .ok { micros := x } := by
  obtain ⟨m, hm, rfl⟩ := map_ok_iff.mp h
  rw [hm, ExactDoubles.base hm]

lemma toColumn_toJson {m : Money} {x : ℤ} (h : toColumn (toJson m : D) = .ok x) :
    x = m.micros := by
  obtain ⟨n, hn, rfl⟩ := map_ok_iff.mp h
  exact ExactDoubles.through hn

lemma toColumn_ofInt {i x : ℤ} (h : toColumn (ofInt i : D) = .ok x) : x = i * Money.ONE := by
  obtain ⟨n, hn, rfl⟩ := map_ok_iff.mp h
  exact ExactDoubles.ofInt hn

/-- **The amounts are computed of the columns**: both come from the same doubles. -/
theorem computed_of_columns {db : AccountDb} {l : OrderLine} {v : LineValues D} {x : Factors D}
    {a : Amounts D} (htaxes : applyLineTaxes db x (v.taxIds.getD l.taxIds) = .ok a)
    (hcols : ColumnsOf l v x a l') : Computed db l' := by
  obtain ⟨qty, hqty, h⟩ := bind_ok_iff.mp htaxes
  obtain ⟨unit, hunit, h⟩ := bind_ok_iff.mp h
  obtain ⟨disc, hdisc, h⟩ := bind_ok_iff.mp h
  obtain ⟨res, hres, h⟩ := bind_ok_iff.mp h
  obtain rfl := pure_ok_iff.mp h
  rw [fromJson_of_toColumn hcols.qty] at hqty
  rw [fromJson_of_toColumn hcols.priceUnit] at hunit
  rw [fromJson_of_toColumn hcols.discount] at hdisc
  cases hqty
  cases hunit
  cases hdisc
  have htaken : l'.taxIds = v.taxIds.getD l.taxIds := congrArg OrderLine.taxIds hcols.taken
  refine ⟨res, ?_, toColumn_toJson hcols.subtotal, toColumn_toJson hcols.tax,
    toColumn_toJson hcols.total⟩
  rw [htaken]
  exact hres

/-- What a write leaves out of the factors is 0 in the row. -/
def UnitsKept (v : LineValues D) (l : OrderLine) : Prop :=
  (v.qty = none → l.qty = 0) ∧ (v.priceUnit = none → l.priceUnit = 0) ∧
    (v.discount = none → l.discount = 0)

/-- Micro-units taken for major units stay what they are at 0 only. -/
lemma kept_iff {given : Option D} {old new : ℤ}
    (h : toColumn (given.getD (ofInt old)) = .ok new) :
    (given = none → new = old) ↔ (given = none → old = 0) := by
  apply imp_congr_right
  rintro rfl
  have hnew : new = old * 1000000 := toColumn_ofInt h
  omega

/-- A write changes what it is given and nothing more exactly when it leaves out zeros. -/
lemma changesOnly_iff {l : OrderLine} {v : LineValues D} {a : Amounts D}
    (hcols : ColumnsOf l v (v.factors (ofInt l.qty) (ofInt l.priceUnit) (ofInt l.discount)) a l') :
    ChangesOnly v l l' ↔ UnitsKept v l := by
  have hqty := kept_iff hcols.qty
  have hprice := kept_iff hcols.priceUnit
  have hdiscount := kept_iff hcols.discount
  constructor
  · intro h
    exact ⟨hqty.mp h.qty, hprice.mp h.priceUnit, hdiscount.mp h.discount⟩
  · rintro ⟨hzero, hzero', hzero''⟩
    have hinvoiced := hcols.qtyInvoiced
    have hdelivered := hcols.qtyDelivered
    have htaken := hcols.taken
    constructor
    case qty => exact hqty.mpr hzero
    case priceUnit => exact hprice.mpr hzero'
    case discount => exact hdiscount.mpr hzero''
    case qtyInvoiced =>
      intro hv
      rw [hv] at hinvoiced
      exact (Except.ok.inj hinvoiced).symm
    case qtyDelivered =>
      intro hv
      rw [hv] at hdelivered
      exact (Except.ok.inj hdelivered).symm
    all_goals
      intro hv
      rw [htaken, hv]
      rfl

end Columns

/-! ### Refreshing totals -/

/-- The sums of an order fit their columns. -/
def TotalsFit (db : OrderDb) (ordId : ℤ) : Prop :=
  ∀ a : Amount, FitsInt64 (lineSum db ordId a.ofLine)

section Refresh

variable {db db' : OrderDb} {ordId : ℤ}

lemma lineSum_congr (h : db'.saleLines = db.saleLines) (i : ℤ) (f : OrderLine → ℤ) :
    lineSum db' i f = lineSum db i f := by
  rw [lineSum, lineSum, h]

/-- The totals of an order, brought to its lines. -/
def retotal (db : OrderDb) (ordId : ℤ) (o : Order) : Order :=
  { o with
    amountUntaxed := lineSum db ordId (·.priceSubtotal)
    amountTax := lineSum db ordId (·.priceTax)
    amountTotal := lineSum db ordId (·.priceTotal) }

lemma updateOrderTotals_eq {o : Order} (ho : db.saleOrders.get? ordId = some o)
    (hfit : TotalsFit db ordId) : updateOrderTotals ordId db =
      .ok { db with saleOrders := db.saleOrders.modify ordId (retotal db ordId) } := by
  unfold updateOrderTotals
  rw [ho]
  exact bind_ok_iff.mpr ⟨_, bigint_ok_iff.mpr ⟨hfit .subtotal, rfl⟩,
    bind_ok_iff.mpr ⟨_, bigint_ok_iff.mpr ⟨hfit .tax, rfl⟩,
      bind_ok_iff.mpr ⟨_, bigint_ok_iff.mpr ⟨hfit .total, rfl⟩, rfl⟩⟩⟩

lemma updateOrderTotals_ok (h : updateOrderTotals ordId db = .ok db') :
    ∃ f, db' = { db with saleOrders := db.saleOrders.modify ordId f } := by
  unfold updateOrderTotals at h
  split at h
  · next ho =>
      cases h
      exact ⟨id, by rw [modify_of_none id ho]⟩
  · obtain ⟨untaxed, -, h⟩ := bind_ok_iff.mp h
    obtain ⟨tax, -, h⟩ := bind_ok_iff.mp h
    obtain ⟨total, -, h⟩ := bind_ok_iff.mp h
    cases h
    exact ⟨_, rfl⟩

/-- A refresh changes one order at most, whether its totals can be written or not. -/
lemma refreshTotals_ok (ordId : ℤ) (db : OrderDb) : (refreshTotals ordId db).1 = db ∨
      ∃ f, (refreshTotals ordId db).1 = { db with saleOrders := db.saleOrders.modify ordId f } := by
  unfold refreshTotals transaction
  split
  · rcases h : updateOrderTotals ordId db with e | db'
    · exact .inl rfl
    · exact .inr (updateOrderTotals_ok h)
  · exact .inl rfl

lemma refreshTotals_lines (ordId : ℤ) (db : OrderDb) :
    (refreshTotals ordId db).1.saleLines = db.saleLines := by
  rcases refreshTotals_ok ordId db with h | ⟨f, h⟩ <;> rw [h]

lemma refreshTotals_others {i : ℤ} (hi : i ≠ ordId) :
    (refreshTotals ordId db).1.saleOrders.get? i = db.saleOrders.get? i := by
  rcases refreshTotals_ok ordId db with h | ⟨f, h⟩
  · rw [h]
  · rw [h]
    exact get?_modify_of_ne _ _ hi

/-- **A refresh sets one order right**: what is left to ask is that the others are. -/
theorem refreshTotals_consistent (hlines : LinesComputed db)
    (hpos : ∀ i o, db.saleOrders.get? i = some o → 0 < i)
    (hothers : ∀ i o, db.saleOrders.get? i = some o → i ≠ ordId → Totalled db i o)
    (hfit : TotalsFit db ordId) : Consistent (refreshTotals ordId db).1 := by
  unfold refreshTotals transaction
  rcases ho : db.saleOrders.get? ordId with - | o
  · -- there is no such order, and nothing happens
    have hsame : updateOrderTotals ordId db = .ok db := by
      unfold updateOrderTotals
      rw [ho]
    have hdb : Consistent db := by
      refine ⟨hlines, fun i o hi => hothers i o hi ?_, hpos⟩
      rintro rfl
      rw [ho] at hi
      cases hi
    split
    · rw [hsame]
      exact hdb
    · exact hdb
  · rw [if_pos (hpos ordId o ho), updateOrderTotals_eq ho hfit]
    have hget : ∀ i o', (db.saleOrders.modify ordId (retotal db ordId)).get? i = some o' →
        ∃ o, db.saleOrders.get? i = some o ∧ (if i = ordId then retotal db ordId o else o) = o' := by
      intro i o' ho'
      rw [get?_modify] at ho'
      exact map_eq_some_iff.mp ho'
    refine ⟨hlines, ?_, ?_⟩
    · intro i o' ho'
      obtain ⟨o, hi, rfl⟩ := hget i o' ho'
      by_cases hord : i = ordId
      · rw [if_pos hord, hord]
        intro a
        cases a <;> rfl
      · rw [if_neg hord]
        exact hothers i o hi hord
    · intro i o' ho'
      obtain ⟨o, hi, -⟩ := hget i o' ho'
      exact hpos i o hi

end Refresh

/-! ### Creating a line -/

variable {ids : List ℤ}

section Calls

variable {D : Type} [JsonDouble D]

variable [ExactDoubles D] {access : LineAccess} {v : LineValues D} {db db' : OrderDb}

lemma createLine_ok (h : createLine access v db = .ok db') :
    ∃ l, Computed db.account l ∧ l.orderId = v.orderId.getD 0 ∧
      db' = { db with saleLines := db.saleLines.insert l } := by
  obtain ⟨amounts, hamounts, h⟩ := bind_ok_iff.mp h
  obtain ⟨_, -, h⟩ := bind_ok_iff.mp h
  obtain ⟨_, -, h⟩ := bind_ok_iff.mp h
  obtain ⟨l, hl, h⟩ := bind_ok_iff.mp h
  obtain ⟨_, -, h⟩ := bind_ok_iff.mp h
  obtain ⟨_, -, h⟩ := bind_ok_iff.mp h
  cases h
  have hcols := columns_ok hl
  exact ⟨l, computed_of_columns (l := newLine) hamounts hcols,
    congrArg OrderLine.orderId hcols.taken, rfl⟩

lemma createLine_computed (h0 : LinesComputed db) (h : createLine access v db = .ok db') :
    LinesComputed db' := by
  obtain ⟨l, hl, -, rfl⟩ := createLine_ok h
  intro i l' hl'
  change (db.saleLines.insert l).get? i = some l' at hl'
  rw [get?_insert] at hl'
  split at hl'
  · cases hl'
    exact hl
  · exact h0 i l' hl'

/-- The sums of the order fit once the line is there. -/
def CreatesWell (access : LineAccess) (v : LineValues D) (db : OrderDb) : Prop :=
  ∀ db', createLine access v db = .ok db' → TotalsFit db' (v.orderId.getD 0)

lemma handleCreate_consistent (h0 : Consistent db) (hok : CreatesWell access v db) :
    Consistent (handleCreate access v db).1 := by
  unfold handleCreate transaction andThen
  rcases h : createLine access v db with e | db'
  · exact h0
  obtain ⟨l, hl, hord, rfl⟩ := createLine_ok h
  refine refreshTotals_consistent (createLine_computed h0.lines h) h0.positive ?_ (hok _ h)
  intro i o ho hne a
  rw [h0.totals i o ho a]
  show _ = (db.saleLines.insert l).sumOver _
  rw [sumOver_insert, hord, if_neg (Ne.symm hne), add_zero]
  rfl

/-! ### Writing a line -/

variable {id : ℤ} {l : OrderLine}

/-- A written row, or none. -/
lemma writeLine_ok (h : writeLine access v id l db = .ok db') :
    ∃ l' a, ColumnsOf l v (v.factors (ofInt l.qty) (ofInt l.priceUnit) (ofInt l.discount)) a l' ∧
      Computed db.account l' ∧
      (access.writable l = true ∧ (db.saleOrders.get? l'.orderId).isSome = true ∧
          db' = { db with saleLines := db.saleLines.modify id fun _ => l' } ∨
        access.writable l = false ∧ db' = db) := by
  obtain ⟨a, ha, h⟩ := bind_ok_iff.mp h
  obtain ⟨l', hl', h⟩ := bind_ok_iff.mp h
  have hcols := columns_ok hl'
  refine ⟨l', a, hcols, computed_of_columns ha hcols, ?_⟩
  cases hw : access.writable l with
  | true =>
      rw [if_pos hw] at h
      obtain ⟨_, -, h⟩ := bind_ok_iff.mp h
      obtain ⟨_, hord, h⟩ := bind_ok_iff.mp h
      exact .inl ⟨rfl, require_ok_iff.mp hord, (pure_ok_iff.mp h).symm⟩
  | false =>
      rw [hw, if_neg Bool.false_ne_true] at h
      exact .inr ⟨rfl, (pure_ok_iff.mp h).symm⟩

lemma writeLine_computed (h0 : LinesComputed db) (hl : db.saleLines.get? id = some l)
    (h : writeLine access v id l db = .ok db') : LinesComputed db' := by
  obtain ⟨l', a, -, hcomputed, ⟨-, -, rfl⟩ | ⟨-, rfl⟩⟩ := writeLine_ok h
  · intro i l₁ hl₁
    change (db.saleLines.modify id fun _ => l').get? i = some l₁ at hl₁
    by_cases hi : i = id
    · rw [hi, get?_modify_self, hl] at hl₁
      cases hl₁
      exact hcomputed
    · rw [get?_modify_of_ne _ _ hi] at hl₁
      exact h0 i l₁ hl₁
  · exact h0

/-- A line stays with its order, or has no amounts to take along. -/
def MovesNothing (l l' : OrderLine) : Prop :=
  l'.orderId = l.orderId ∨ ∀ a : Amount, a.ofLine l' = 0

/-- A row that is written leaves out zeros only and takes nothing to another order, and the
sums of its order fit. -/
def WritesWell (access : LineAccess) (v : LineValues D) (id : ℤ) (db : OrderDb) : Prop :=
  ∀ l db', db.saleLines.get? id = some l → writeLine access v id l db = .ok db' →
    (access.writable l = true → UnitsKept v l) ∧
      (∀ l', db'.saleLines.get? id = some l' → MovesNothing l l') ∧ TotalsFit db' l.orderId

/-- Every line is there as it was, but for what the lines written are given. -/
def WritesOnly (v : LineValues D) (ids : List ℤ) (db db' : OrderDb) : Prop :=
  ∀ i, Option.Rel (fun l l' => ChangesOnly v l l' ∧ (i ∉ ids → l' = l))
    (db.saleLines.get? i) (db'.saleLines.get? i)

omit [JsonDouble D] [ExactDoubles D] in
lemma WritesOnly.of_lines (h : db'.saleLines = db.saleLines) : WritesOnly v ids db db' := by
  intro i
  rw [h]
  rcases db.saleLines.get? i with - | l
  · exact .none
  · exact .some ⟨.refl v l, fun _ => rfl⟩

omit [JsonDouble D] [ExactDoubles D] in
lemma WritesOnly.trans {ids₁ ids₂ : List ℤ} {db₁ : OrderDb} (h₁ : WritesOnly v ids₁ db db₁)
    (h₂ : WritesOnly v ids₂ db₁ db') (hids : ∀ i, i ∉ ids → i ∉ ids₁ ∧ i ∉ ids₂) :
    WritesOnly v ids db db' := by
  intro i
  have hrel₁ := h₁ i
  have hrel₂ := h₂ i
  generalize db.saleLines.get? i = line at hrel₁ ⊢
  generalize db₁.saleLines.get? i = line₁ at hrel₁ hrel₂
  generalize db'.saleLines.get? i = line' at hrel₂ ⊢
  cases hrel₁ with
  | none =>
      cases hrel₂
      exact .none
  | some hfirst =>
      cases hrel₂ with
      | some hsecond =>
          refine .some ⟨hfirst.1.trans hsecond.1, fun hi => ?_⟩
          exact (hsecond.2 (hids i hi).2).trans (hfirst.2 (hids i hi).1)

lemma writeLine_writesOnly (hl : db.saleLines.get? id = some l)
    (hok : access.writable l = true → UnitsKept v l) (h : writeLine access v id l db = .ok db') :
    WritesOnly v [id] db db' := by
  obtain ⟨l', a, hcols, -, ⟨hw, -, rfl⟩ | ⟨-, rfl⟩⟩ := writeLine_ok h
  · intro i
    show Option.Rel _ _ ((db.saleLines.modify id fun _ => l').get? i)
    by_cases hi : i = id
    · rw [hi, get?_modify_self, hl]
      exact .some ⟨(changesOnly_iff hcols).mpr (hok hw), fun hmem => absurd mem_cons_self hmem⟩
    · rw [get?_modify_of_ne _ _ hi]
      exact WritesOnly.of_lines rfl i
  · exact WritesOnly.of_lines rfl

/-- The line after a write that touches it. -/
lemma get?_written (hl : db.saleLines.get? id = some l) (l' : OrderLine) :
    (db.saleLines.modify id fun _ => l').get? id = some l' := by
  rw [get?_modify_self, hl]
  rfl

/-- What a written line means for the sums of an order. -/
lemma lineSum_written (hl : db.saleLines.get? id = some l) (l' : OrderLine) (i : ℤ)
    (f : OrderLine → ℤ) :
    lineSum { db with saleLines := db.saleLines.modify id fun _ => l' } i f =
      lineSum db i f - (if l.orderId = i then f l else 0) + if l'.orderId = i then f l' else 0 :=
  sumOver_modify (fun _ (x : OrderLine) => if x.orderId = i then f x else 0) (fun _ => l') hl

omit [ExactDoubles D] in
lemma handleWriteOne_of_ok (hl : db.saleLines.get? id = some l)
    (h : writeLine access v id l db = .ok db') :
    (handleWriteOne access v id db).1 = (refreshTotals l.orderId db').1 := by
  unfold handleWriteOne transaction andThen
  simp only [hl, h]

/-- **A write keeps the totals exactly when it takes nothing to another order.** -/
theorem handleWriteOne_consistent_iff (h0 : Consistent db) (hl : db.saleLines.get? id = some l)
    (h : writeLine access v id l db = .ok db') (hfit : TotalsFit db' l.orderId) :
    Consistent (handleWriteOne access v id db).1 ↔
      ∀ l', db'.saleLines.get? id = some l' → MovesNothing l l' := by
  rw [handleWriteOne_of_ok hl h]
  have hlines := writeLine_computed h0.lines hl h
  obtain ⟨l', a, -, -, ⟨-, hord, rfl⟩ | ⟨-, rfl⟩⟩ := writeLine_ok h
  · constructor
    · intro hafter l₁ hl₁
      cases (get?_written hl l').symm.trans hl₁
      by_cases hstays : l'.orderId = l.orderId
      · exact .inl hstays
      -- the other order has the total it had
      refine .inr fun b => ?_
      obtain ⟨o, ho⟩ := isSome_iff_exists.mp hord
      have hsum := hafter.totals l'.orderId o ((refreshTotals_others hstays).trans ho) b
      rw [lineSum_congr (refreshTotals_lines _ _), lineSum_written hl, if_neg (Ne.symm hstays),
        if_pos rfl, h0.totals _ o ho b] at hsum
      omega
    · intro hmoves
      refine refreshTotals_consistent hlines h0.positive ?_ hfit
      intro i o ho hne b
      rw [h0.totals i o ho b, lineSum_written hl, if_neg (Ne.symm hne)]
      rcases hmoves l' (get?_written hl l') with hstays | hnothing
      · rw [if_neg (hstays ▸ Ne.symm hne), sub_zero, add_zero]
      · rw [hnothing b, ite_self, sub_zero, add_zero]
  · refine iff_of_true ?_ ?_
    · exact refreshTotals_consistent h0.lines h0.positive (fun i o ho _ => h0.totals i o ho) hfit
    · intro l₁ hl₁
      cases hl.symm.trans hl₁
      exact .inl rfl

lemma handleWriteOne_keeps (h0 : Consistent db) (hok : WritesWell access v id db) :
    Consistent (handleWriteOne access v id db).1 ∧
      WritesOnly v [id] db (handleWriteOne access v id db).1 := by
  rcases hl : db.saleLines.get? id with - | l
  · unfold handleWriteOne
    simp only [hl]
    exact ⟨h0, WritesOnly.of_lines rfl⟩
  rcases h : writeLine access v id l db with e | db'
  · unfold handleWriteOne transaction andThen
    simp only [hl, h]
    exact ⟨h0, WritesOnly.of_lines rfl⟩
  obtain ⟨hunits, hmoves, hfit⟩ := hok l db' hl h
  refine ⟨(handleWriteOne_consistent_iff h0 hl h hfit).mpr hmoves, ?_⟩
  rw [handleWriteOne_of_ok hl h]
  exact (writeLine_writesOnly hl hunits h).trans
    (WritesOnly.of_lines (refreshTotals_lines l.orderId db')) fun i hi => ⟨hi, hi⟩

/-- Each line of a write in its turn. -/
def WritesWellInTurn (access : LineAccess) (v : LineValues D) : List ℤ → OrderDb → Prop
  | [], _ => True
  | id :: ids, db => WritesWell access v id db ∧
      ∀ db', handleWriteOne access v id db = (db', .ok ()) → WritesWellInTurn access v ids db'

lemma handleWrite_keeps (h0 : Consistent db) (hok : WritesWellInTurn access v ids db) :
    Consistent (handleWrite access v ids db).1 ∧
      WritesOnly v ids db (handleWrite access v ids db).1 := by
  induction ids generalizing db with
  | nil => exact ⟨h0, WritesOnly.of_lines rfl⟩
  | cons id ids ih =>
      obtain ⟨hone, honly⟩ := handleWriteOne_keeps h0 hok.1
      unfold handleWrite andThen
      rcases h : handleWriteOne access v id db with ⟨db₁, e | u⟩
      · rw [h] at hone honly
        exact ⟨hone, honly.trans (WritesOnly.of_lines rfl) fun i hi =>
          ⟨fun hmem => hi (mem_singleton.mp hmem ▸ mem_cons_self), hi⟩⟩
      · rw [h] at hone honly
        obtain ⟨hall, honly'⟩ := ih hone (hok.2 db₁ h)
        refine ⟨hall, honly.trans honly' fun i hi => ?_⟩
        obtain ⟨hne, hrest⟩ := not_or.mp (mem_cons.not.mp hi)
        exact ⟨fun hmem => hne (mem_singleton.mp hmem), hrest⟩

end Calls

/-! ### Deleting lines -/

/-- A column of the lines of an order that go. -/
def goneSum (access : LineAccess) (ids : List ℤ) (db : OrderDb) (ordId : ℤ) (f : OrderLine → ℤ) : ℤ :=
  db.saleLines.sumOver fun i l =>
    if (ids.contains i && access.deletable l) = true then (if l.orderId = ordId then f l else 0)
    else 0

/-- The lines that go leave the sums of the orders as they are. -/
def UnlinksNothing (access : LineAccess) (ids : List ℤ) (db : OrderDb) : Prop :=
  ∀ i o, db.saleOrders.get? i = some o → ∀ a : Amount, goneSum access ids db i a.ofLine = 0

lemma get?_of_handleUnlink {access : LineAccess} {db : OrderDb} {i : ℤ} {l : OrderLine}
    (h : (handleUnlink access ids db).saleLines.get? i = some l) :
    db.saleLines.get? i = some l := by
  change (db.saleLines.delete _).get? i = some l at h
  rw [get?_delete] at h
  exact (filter_eq_some_iff.mp h).1

/-- **Deleting lines keeps the totals exactly when what goes adds up to nothing.** -/
theorem handleUnlink_consistent_iff {access : LineAccess} {db : OrderDb} (h0 : Consistent db) :
    Consistent (handleUnlink access ids db) ↔ UnlinksNothing access ids db := by
  have hsum : ∀ i (f : OrderLine → ℤ), lineSum (handleUnlink access ids db) i f =
      lineSum db i f - goneSum access ids db i f := by
    intro i f
    exact sumOver_delete db.saleLines _ fun _ l => if l.orderId = i then f l else 0
  constructor
  · intro h i o ho a
    have hafter := h.totals i o ho a
    rw [hsum, h0.totals i o ho a] at hafter
    omega
  · intro hnothing
    refine ⟨?_, ?_, h0.positive⟩
    · intro i l hl
      exact h0.lines i l (get?_of_handleUnlink hl)
    · intro i o ho a
      rw [hsum, hnothing i o ho a, sub_zero]
      exact h0.totals i o ho a

/-! ### Runs -/

section Runs

variable {D : Type} [JsonDouble D]

/-- A call that keeps units and totals. -/
def KeepsTotals (db : OrderDb) (c : LineCall D) : Prop :=
  match c.op with
  | .create v => CreatesWell c.access v db
  | .write v ids => WritesWellInTurn c.access v ids db
  | .unlink ids => UnlinksNothing c.access ids db

variable [ExactDoubles D] {db db₁ : OrderDb}

/-- **Lines and totals of orders stay consistent** in every run of calls that keep units
and totals, and each of its writes changes what it is given and nothing more. -/
theorem order_lines_consistent (h0 : Consistent db)
    (hrun : Reaches (lineStep (D := D)) KeepsTotals db db₁) :
    Consistent db₁ ∧ ∀ (access : LineAccess) (v : LineValues D) (ids : List ℤ),
      KeepsTotals db₁ ⟨access, .write v ids⟩ →
        WritesOnly v ids db₁ (handleWrite access v ids db₁).1 := by
  have hconsistent : Consistent db₁ := by
    apply hrun.invariant _ h0
    rintro db ⟨access, op⟩ db' h0 hok hstep
    cases hstep
    cases op with
    | create v => exact handleCreate_consistent h0 hok
    | write v ids => exact (handleWrite_keeps h0 hok).1
    | unlink ids => exact (handleUnlink_consistent_iff h0).mpr hok
  exact ⟨hconsistent, fun access v ids hok => (handleWrite_keeps hconsistent hok).2⟩

end Runs

/-! ### Examples -/

/-- Doubles as the rational numbers they are, if none of them is rounded. -/
@[reducible] def rationalDoubles : JsonDouble ℚ where
  toJson m := m.micros / 1000000
  fromJson q :=
    let scaled := q * 1000000
    if |scaled| ≤ 9200000000000000000 then
      .ok { micros := if scaled < 0 then ⌈scaled - 1 / 2⌉ else ⌊scaled + 1 / 2⌋ }
    else .error "Money::fromJson: value out of range"
  ofInt i := i
  bindInt q := if q.den = 1 then .ok q.num else .error "invalid input syntax for type bigint"
  zero := 0
  lt a b := decide (a < b)
  le a b := decide (a ≤ b)

/-- Half a unit rounds nothing that is whole. -/
lemma round_whole (i : ℤ) :
    (if (i : ℚ) < 0 then ⌈(i : ℚ) - 1 / 2⌉ else ⌊(i : ℚ) + 1 / 2⌋) = i := by
  split
  · rw [Int.ceil_eq_iff]
    constructor <;> linarith
  · rw [Int.floor_eq_iff]
    constructor <;> linarith

lemma rationalDoubles_fromJson {q : ℚ} {m : Money} (h : rationalDoubles.fromJson q = .ok m) :
    m = { micros := if q * 1000000 < 0 then ⌈q * 1000000 - 1 / 2⌉ else ⌊q * 1000000 + 1 / 2⌋ } := by
  change (if _ then _ else _) = _ at h
  split at h
  · exact (Except.ok.inj h).symm
  · cases h

lemma exact_rationalDoubles : @ExactDoubles ℚ rationalDoubles := by
  have hwhole : ∀ {q : ℚ} {m : Money} {i : ℤ}, rationalDoubles.fromJson q = .ok m →
      q * 1000000 = i → m.micros = i := by
    intro q m i h hq
    rw [rationalDoubles_fromJson h, hq]
    exact round_whole i
  refine @ExactDoubles.mk ℚ rationalDoubles ?_ ?_ ?_
  · intro d m h
    rw [rationalDoubles_fromJson h]
  · intro m n h
    exact hwhole h (div_mul_cancel₀ _ (by norm_num))
  · intro i m h
    exact hwhole h (by push_cast; rfl)

/-- An order of one line, 1 at 1.00. -/
def oneLine : OrderDb where
  saleOrders := Table.empty.insert
    { name := "SO/2026/0001", amountUntaxed := 1000000, amountTotal := 1000000 }
  saleLines := Table.empty.insert
    { orderId := 1
      name := "Chair"
      priceUnit := 1000000
      priceSubtotal := 1000000
      priceTotal := 1000000 }

lemma oneLine_consistent : Consistent oneLine := by
  refine ⟨?_, ?_, ?_⟩
  · refine forall_get?_iff.mpr fun r hr => ?_
    rw [mem_singleton.mp hr]
    exact ⟨⟨{ micros := 1000000 }, { micros := 0 }, { micros := 1000000 }, []⟩, by decide⟩
  · refine forall_get?_iff.mpr fun r hr => ?_
    rw [mem_singleton.mp hr]
    intro a
    cases a <;> rfl
  · refine forall_get?_iff.mpr fun r hr => ?_
    rw [mem_singleton.mp hr]
    decide

/-- A second line for the order. -/
def table : LineValues ℚ where
  orderId := some 1
  name := some "Table"
  qty := some 2
  priceUnit := some 5

def createTable : LineCall ℚ := ⟨{}, .create table⟩

theorem order_lines_consistent_table : let _ := rationalDoubles
    ∃ db₁, lineStep oneLine createTable = some db₁ ∧ Consistent db₁ := by
  intro _
  have hsums : ((createLine {} table oneLine).map fun db =>
      (lineSum db 1 Amount.subtotal.ofLine, lineSum db 1 Amount.tax.ofLine,
        lineSum db 1 Amount.total.ofLine)) = .ok (11000000, 0, 11000000) := by
    decide +kernel
  have hok : KeepsTotals oneLine createTable := by
    intro db' h a
    rw [show createLine {} table oneLine = .ok db' from h] at hsums
    have hvalues := Except.ok.inj hsums
    simp only [Prod.mk.injEq] at hvalues
    obtain ⟨hsubtotal, htax, htotal⟩ := hvalues
    show FitsInt64 (lineSum db' 1 a.ofLine)
    cases a with
    | subtotal =>
        rw [hsubtotal]
        decide
    | tax =>
        rw [htax]
        decide
    | total =>
        rw [htotal]
        decide
  exact ⟨_, rfl, (@order_lines_consistent ℚ _ exact_rationalDoubles oneLine _ oneLine_consistent
    (Relation.ReflTransGen.single ⟨createTable, hok, rfl⟩)).1⟩

/-- A write of the price multiplies the quantity by a million. -/
theorem price_write_scales_quantity : let _ := rationalDoubles
    ¬ ∀ (db db₁ : OrderDb), Consistent db → Reaches (lineStep (D := ℚ)) (fun _ _ => True) db db₁ →
        Consistent db₁ ∧ ∀ (access : LineAccess) (v : LineValues ℚ) (ids : List ℤ),
          WritesOnly v ids db₁ (handleWrite access v ids db₁).1 := by
  intro _ h
  have honly := (h oneLine oneLine oneLine_consistent .refl).2 {} { priceUnit := some 5 } [1] 1
  have hqty : ((handleWrite {} { priceUnit := some (5 : ℚ) } [1] oneLine).1.saleLines.get? 1).map
      (·.qty) = some 1000000000000 := by decide +kernel
  rcases hafter : (handleWrite {} { priceUnit := some (5 : ℚ) } [1] oneLine).1.saleLines.get? 1
    with - | l'
  · rw [hafter] at hqty
    cases hqty
  · rw [hafter] at hqty honly
    cases honly with
    | some hchange =>
        have hsame := hchange.1.qty rfl
        rw [map_some, hsame] at hqty
        exact absurd hqty (by decide)

end SaleLines

end CErp
