/-
Closing a manufacturing order: the components go out of stock, the finished
product comes in at what they cost.

The components are counted at their standard prices, and the quant engine
relieves them at what their cost method says.  `overstated` is the difference
for one component, `absorbed` what a finished move takes in of the whole.  An
order keeps the value of the stock exactly when the components are overstated by
what the finished moves leave out (`value_conserved_iff`).  A component at
standard or average cost is never overstated, a finished move that receives `q`
leaves out what the truncated unit cost drops, `dropped`.
-/
import CErp.AverageCost
import CErp.FifoLayers
import CErp.Pickings

namespace CErp

open Runs Outcome Table Money Int StockPicking

/-! ### Rows -/

/-- A row of `stock_move` with the columns of manufacturing. -/
structure ProductionMove extends StockMove where
  productionId : Option ℤ := none
  isProductionRaw : Bool := false
  deriving DecidableEq

inductive ProductionState where
  | draft
  | confirmed
  | progress
  | toClose
  | done
  | cancel
  deriving DecidableEq

/-- A row of `mrp_production`. -/
structure Production where
  productQty : ℤ := ONE
  qtyProducing : ℤ := 0
  state : ProductionState := .draft
  deriving DecidableEq

inductive WorkorderState where
  | pending
  | ready
  | progress
  | done
  | cancel
  deriving DecidableEq

/-- A row of `mrp_workorder`. -/
structure Workorder where
  productionId : ℤ
  state : WorkorderState := .pending
  deriving DecidableEq

structure MrpDb where
  stock : StockDb := {}
  moves : Table ProductionMove := .empty
  productions : Table Production := .empty
  workorders : Table Workorder := .empty

namespace MrpProduction

/-! ### Closing an order -/

/-- The open moves of an order, the components or the finished ones. -/
def openMoves (moves : Table ProductionMove) (id : ℤ) (raw : Bool) : List (ℤ × ProductionMove) :=
  moves.rows.filter fun r =>
    r.2.productionId == some id && r.2.isProductionRaw == raw && isOpen r.2.state

def hasOpenWorkorder (db : MrpDb) (id : ℤ) : Bool :=
  db.workorders.rows.any fun r =>
    r.2.productionId == id && r.2.state != .done && r.2.state != .cancel

def standardPrice (stock : StockDb) (productId : ℤ) : ℤ :=
  match stock.products.get? productId with
  | none => 0
  | some p => p.standardPrice

/-- A move that is done. -/
def finished (q : ℤ) (m : ProductionMove) : ProductionMove :=
  { m with quantity := q, state := .done }

/-- What the loops over the moves change. -/
structure Build where
  stock : StockDb
  moves : Table ProductionMove
  componentValue : ℤ := 0

/-- What a component is counted with. -/
def counted (stock : StockDb) (m : ProductionMove) : ℤ :=
  mulMicros (doneQty m.toStockMove) (standardPrice stock m.productId)

/-- A component goes out. -/
def consumeOne (now : Moment) (b : Build) (r : ℤ × ProductionMove) : Except String Build := do
  let m := r.2
  let q := doneQty m.toStockMove
  let componentValue ← bigint (b.componentValue + counted b.stock m)
  let stock ← StockQuant.applyMove now b.stock m.productId m.locationId m.locationDestId q
    m.company (-1) 0
  return { stock := stock
           moves := b.moves.modify r.1 (finished q)
           componentValue := componentValue }

/-- What a unit of the finished product costs, -1 for no quantity. -/
def unitCost (componentValue q : ℤ) : ℤ := if 0 < q then divMicros componentValue q else -1

/-- A finished product comes in. -/
def produceOne (now : Moment) (b : Build) (r : ℤ × ProductionMove) : Except String Build := do
  let m := r.2
  let q := doneQty m.toStockMove
  let stock ← StockQuant.applyMove now b.stock m.productId m.locationId m.locationDestId q
    m.company (unitCost b.componentValue q) 0
  return { b with stock := stock, moves := b.moves.modify r.1 (finished q) }

/-- Before the first component. -/
def start (db : MrpDb) : Build where
  stock := db.stock
  moves := db.moves

def consumeAll (now : Moment) (db : MrpDb) (id : ℤ) : Except String Build :=
  (openMoves db.moves id true).foldlM (consumeOne now) (start db)

def produceAll (now : Moment) (b : Build) (id : ℤ) : Except String Build :=
  (openMoves b.moves id false).foldlM (produceOne now) b

/-- An order that is worked on. -/
def isClosable (o : Production) : Bool :=
  o.state != .done && o.state != .cancel && o.state != .draft

/-- `button_mark_done` for one order. -/
def buttonMarkDone (now : Moment) (db : MrpDb) (id : ℤ) : Except String MrpDb :=
  match db.productions.get? id with
  | none => .ok db
  | some o =>
      if isClosable o then do
        require (hasOpenWorkorder db id = false)
          "All work orders must be finished before closing the manufacturing order"
        let b ← consumeAll now db id
        let b ← produceAll now b id
        return { db with
          stock := b.stock
          moves := b.moves
          productions := db.productions.modify id fun o =>
            { o with state := .done, qtyProducing := o.productQty } }
      else .ok db

end MrpProduction

/-! ### The value of the stock -/

/-- The value of all products. -/
def StockDb.totalValue (db : StockDb) : ℤ := db.products.sumOver fun _ p => p.valueSvl

/-- The values of all layers: what came in less what went out. -/
def StockDb.layersValue (db : StockDb) : ℤ := db.layers.sumOver fun _ l => l.value

/-- A value is added to the products and, by one more layer, to the layers. -/
structure ValueAdded (db db' : StockDb) (value : ℤ) : Prop where
  products : db'.totalValue = db.totalValue + value
  layers : db'.layersValue = db.layersValue + value

/-- As much comes in as goes out. -/
def ValueConserved (db db' : StockDb) : Prop :=
  db'.totalValue = db.totalValue ∧ db'.layersValue = db.layersValue

namespace StockQuant

/-- What the open layers give to an issue, and a shortfall at standard. -/
def layersGive (layers : List (ℤ × Layer)) (p : Product) (qtyMicros : ℤ) : ℤ :=
  ((consume layers qtyMicros).1.map fun d => d.2.portion).sum +
    if 0 < (consume layers qtyMicros).2 then mulMicros (consume layers qtyMicros).2 p.standardPrice
    else 0

/-- The value an issue takes. -/
def issueWorth (db : StockDb) (productId : ℤ) (p : Product) (qtyMicros : ℤ) : ℤ :=
  if p.costMethod = .fifo then layersGive (openLayers db productId) p qtyMicros
  else mulMicros qtyMicros p.standardPrice

/-- A quantity goes out of the internal locations. -/
def GoesOut (db : StockDb) (src dest qtyMicros : ℤ) : Prop :=
  0 < qtyMicros ∧ db.isInternal src = true ∧ db.isInternal dest = false

/-- A quantity comes into the internal locations. -/
def ComesIn (db : StockDb) (src dest qtyMicros : ℤ) : Prop :=
  0 < qtyMicros ∧ db.isInternal src = false ∧ db.isInternal dest = true

instance (db : StockDb) (src dest qtyMicros : ℤ) : Decidable (GoesOut db src dest qtyMicros) :=
  inferInstanceAs (Decidable (_ ∧ _))

instance (db : StockDb) (src dest qtyMicros : ℤ) : Decidable (ComesIn db src dest qtyMicros) :=
  inferInstanceAs (Decidable (_ ∧ _))

/-- The value a move adds to the stock. -/
def moveWorth (db : StockDb) (productId src dest qtyMicros inputCostMicros : ℤ) : ℤ :=
  match db.products.get? productId with
  | none => 0
  | some p =>
      if ComesIn db src dest qtyMicros then mulMicros qtyMicros (receiptCost p inputCostMicros)
      else if GoesOut db src dest qtyMicros then -issueWorth db productId p qtyMicros
      else 0

variable {now : Moment} {db db' : StockDb} {productId src dest qtyMicros companyId
  inputCostMicros lotId : ℤ}

/-- A move within the stock, outside of it or of nothing is worth nothing. -/
lemma moveWorth_of_stays (h : qtyMicros ≤ 0 ∨ db.isInternal src = db.isInternal dest) :
    moveWorth db productId src dest qtyMicros inputCostMicros = 0 := by
  have hin : ¬ComesIn db src dest qtyMicros := by
    rintro ⟨hqty, hsrc, hdest⟩
    rcases h with hle | hside
    · omega
    · exact Bool.false_ne_true ((hsrc.symm.trans hside).trans hdest)
  have hgone : ¬GoesOut db src dest qtyMicros := by
    rintro ⟨hqty, hsrc, hdest⟩
    rcases h with hle | hside
    · omega
    · exact Bool.false_ne_true (hdest.symm.trans (hside.symm.trans hsrc))
  unfold moveWorth
  split
  · rfl
  · rw [if_neg hin, if_neg hgone]

lemma issueValue_worth {p : Product} {outValue : ℤ} {layers : Table Layer}
    (h : issueValue db productId p qtyMicros = .ok (outValue, layers)) :
    outValue = issueWorth db productId p qtyMicros ∧ layers.sumOver (fun _ l => l.value) =
      db.layersValue := by
  unfold issueValue at h
  split at h
  · next hfifo =>
      obtain ⟨portions, hportions, h⟩ := bind_ok_iff.mp h
      obtain ⟨out, hout, h⟩ := bind_ok_iff.mp h
      cases h
      refine ⟨?_, sumOver_modifyAll_same _ _ fun _ _ _ => rfl⟩
      have hsum := sum_of_foldlM_bigint hportions
      rw [zero_add] at hsum
      rw [issueWorth, if_pos hfifo, layersGive, ← hsum]
      unfold withShortfall at hout
      split at hout
      · next hleft => rw [bigint_ok hout, if_pos hleft]
      · next hleft =>
          cases hout
          rw [if_neg hleft, add_zero]
  · next hmethod =>
      cases h
      exact ⟨(if_neg hmethod).symm, rfl⟩

lemma Valued.worth (h : Valued now db productId src dest qtyMicros companyId inputCostMicros db') :
    ValueAdded db db' (moveWorth db productId src dest qtyMicros inputCostMicros) := by
  cases h with
  | unchanged hsame =>
      have hzero : moveWorth db productId src dest qtyMicros inputCostMicros = 0 := by
        rcases hsame with hle | hside | hnone
        · exact moveWorth_of_stays (.inl hle)
        · exact moveWorth_of_stays (.inr hside)
        · rw [moveWorth, hnone]
      rw [hzero]
      exact ⟨(add_zero _).symm, (add_zero _).symm⟩
  | @receipt p link account hqty hsrc hdest hp _ _ =>
      have hin : ComesIn db src dest qtyMicros := ⟨hqty, hsrc, hdest⟩
      rw [moveWorth, hp]
      dsimp only
      rw [if_pos hin]
      constructor
      · refine (sumOver_modify _ _ hp).trans ?_
        show db.totalValue - p.valueSvl + (p.valueSvl + _) = _
        ring
      · exact sumOver_insert _ _ _
  | @issue p outValue layers link account hqty hsrc hdest hp hissue _ _ =>
      have hgone : GoesOut db src dest qtyMicros := ⟨hqty, hsrc, hdest⟩
      have hin : ¬ComesIn db src dest qtyMicros := by
        rintro ⟨-, hout, -⟩
        rw [hsrc] at hout
        cases hout
      obtain ⟨rfl, hlayers⟩ := issueValue_worth hissue
      rw [moveWorth, hp]
      dsimp only
      rw [if_neg hin, if_pos hgone]
      constructor
      · refine (sumOver_modify _ _ hp).trans ?_
        show db.totalValue - p.valueSvl + (p.valueSvl - _) = _
        ring
      · refine (sumOver_insert _ _ _).trans ?_
        rw [hlayers]
        rfl

/-- The quants and the quantity on hand are no part of the value. -/
lemma moveWorth_moved (id src' dest' qty' : ℤ) :
    moveWorth (moved db productId src dest qtyMicros companyId lotId) id src' dest' qty'
        inputCostMicros =
      moveWorth db id src' dest' qty' inputCostMicros := by
  unfold moveWorth
  rw [products_moved, get?_modify]
  rcases hp : db.products.get? id with - | p
  · rfl
  · rw [Option.map_some]
    by_cases hid : id = productId
    · rw [if_pos hid]
      rfl
    · rw [if_neg hid]
      rfl

lemma totalValue_moved :
    (moved db productId src dest qtyMicros companyId lotId).totalValue = db.totalValue := by
  unfold StockDb.totalValue
  rw [products_moved]
  exact sumOver_modify_same _ _ _ fun _ => rfl

/-- **What a move is worth.** -/
theorem applyMove_worth
    (h : applyMove now db productId src dest qtyMicros companyId inputCostMicros lotId = .ok db') :
    ValueAdded db db' (moveWorth db productId src dest qtyMicros inputCostMicros) := by
  rcases applyMove_ok h with ⟨hnothing, rfl⟩ | ⟨-, -, -, hvalued⟩
  · have hzero : moveWorth db' productId src dest qtyMicros inputCostMicros = 0 :=
      moveWorth_of_stays (hnothing.imp le_of_eq (congrArg db'.isInternal))
    rw [hzero]
    exact ⟨(add_zero _).symm, (add_zero _).symm⟩
  · have hworth := hvalued.worth
    rw [moveWorth_moved] at hworth
    exact ⟨hworth.products.trans (congrArg (· + _) totalValue_moved), hworth.layers⟩

end StockQuant

namespace MrpProduction

open StockQuant

/-! ### What components and finished products are worth -/

/-- What the standard price says of a component beyond what the stock gives for
it: for a FIFO product what its layers give; all of it when it does not go out. -/
def overstated (stock : StockDb) (m : ProductionMove) : ℤ :=
  let q := doneQty m.toStockMove
  match stock.products.get? m.productId with
  | none => 0
  | some p =>
      if GoesOut stock m.locationId m.locationDestId q then
        if p.costMethod = .fifo then
          counted stock m - layersGive (openLayers stock m.productId) p q
        else 0
      else if ComesIn stock m.locationId m.locationDestId q then 2 * counted stock m
      else counted stock m

/-- What a truncated unit cost drops of a value over a quantity. -/
def dropped (value q : ℤ) : ℤ := (value * 1000000 % q + 999999) / 1000000

/-- A value whose unit cost can be stored. -/
def HasUnitCost (value q : ℤ) : Prop := 0 ≤ value ∧ value * 1000000 / q ≤ int64Max

instance (value q : ℤ) : Decidable (HasUnitCost value q) := inferInstanceAs (Decidable (_ ∧ _))

/-- What a finished move takes into the stock of the value of the components. -/
def absorbed (value : ℤ) (stock : StockDb) (m : ProductionMove) : ℤ :=
  let q := doneQty m.toStockMove
  match stock.products.get? m.productId with
  | none => 0
  | some p =>
      if ComesIn stock m.locationId m.locationDestId q then
        if HasUnitCost value q then value - dropped value q
        else mulMicros q (receiptCost p (divMicros value q))
      else if GoesOut stock m.locationId m.locationDestId q then
        -issueWorth stock m.productId p q
      else 0

variable {now : Moment} {stock : StockDb} {m : ProductionMove} {value q : ℤ}

lemma counted_of_none (h : stock.products.get? m.productId = none) : counted stock m = 0 := by
  rw [counted, standardPrice, h]
  show mulMicros _ 0 = 0
  rw [mulMicros, mul_zero]
  rfl

/-- The count and what the move is worth. -/
lemma overstated_eq (stock : StockDb) (m : ProductionMove) : overstated stock m =
    counted stock m + moveWorth stock m.productId m.locationId m.locationDestId
      (doneQty m.toStockMove) (-1) := by
  rcases hp : stock.products.get? m.productId with - | p
  · rw [overstated, moveWorth, hp, counted_of_none hp]
    rfl
  have hcounted : counted stock m = mulMicros (doneQty m.toStockMove) p.standardPrice := by
    rw [counted, standardPrice, hp]
  rw [overstated, moveWorth, hp]
  dsimp only
  by_cases hgone : GoesOut stock m.locationId m.locationDestId
      (doneQty m.toStockMove)
  · have hin : ¬ComesIn stock m.locationId m.locationDestId
        (doneQty m.toStockMove) :=
      fun h => Bool.false_ne_true (h.2.1.symm.trans hgone.2.1)
    rw [if_pos hgone, if_neg hin, if_pos hgone, issueWorth]
    split
    · ring
    · rw [hcounted]
      ring
  · rw [if_neg hgone, if_neg hgone]
    split
    · -- a component that comes in does so at its standard price
      have hcost : receiptCost p (-1) = p.standardPrice := if_neg (by decide)
      rw [hcost, hcounted]
      ring
    · ring

/-- What is received at a truncated unit cost. -/
lemma received_of_unitCost (hq : 0 < q) (hfits : value ≤ int64Max)
    (h : HasUnitCost value q) : mulMicros q (divMicros value q) = value - dropped value q := by
  obtain ⟨hvalue, hunit⟩ := h
  have hmod := emod_nonneg (value * 1000000) hq.ne'
  have hdiv := mul_ediv_add_emod (value * 1000000) q
  have hunit0 : 0 ≤ value * 1000000 / q := ediv_nonneg (by omega) hq.le
  have hreceived : q * (value * 1000000 / q) / 1000000 = value - dropped value q := by
    unfold dropped
    generalize value * 1000000 % q = r at *
    generalize q * (value * 1000000 / q) = x at *
    omega
  rw [divMicros_of_nonneg hvalue hq hunit, mulMicros_of_nonneg hq.le hunit0 ?_, hreceived]
  rw [hreceived]
  have hdropped : 0 ≤ dropped value q := by
    omega
  omega

lemma absorbed_eq (hfits : value ≤ int64Max) (stock : StockDb) (m : ProductionMove) :
    absorbed value stock m = moveWorth stock m.productId m.locationId m.locationDestId
      (doneQty m.toStockMove)
      (unitCost value (doneQty m.toStockMove)) := by
  rcases hp : stock.products.get? m.productId with - | p
  · rw [absorbed, moveWorth, hp]
  rw [absorbed, moveWorth, hp]
  dsimp only
  by_cases hin : ComesIn stock m.locationId m.locationDestId
      (doneQty m.toStockMove)
  · rw [if_pos hin, if_pos hin, unitCost, if_pos hin.1]
    split
    · next hunit =>
        rw [← received_of_unitCost hin.1 hfits hunit, receiptCost, if_pos]
        rw [divMicros_of_nonneg hunit.1 hin.1 hunit.2]
        exact ediv_nonneg (by have := hunit.1; omega) hin.1.le
    · rfl
  · rw [if_neg hin, if_neg hin]

/-! ### The order -/

lemma consumeOne_ok {b b' : Build} {r : ℤ × ProductionMove} (h : consumeOne now b r = .ok b') :
    ValueAdded b.stock b'.stock (moveWorth b.stock r.2.productId r.2.locationId r.2.locationDestId
        (doneQty r.2.toStockMove) (-1)) ∧
      b'.componentValue = b.componentValue + counted b.stock r.2 ∧
      FitsInt64 b'.componentValue := by
  obtain ⟨componentValue, hvalue, h⟩ := bind_ok_iff.mp h
  obtain ⟨stock, hstock, h⟩ := bind_ok_iff.mp h
  cases h
  obtain ⟨hfits, rfl⟩ := bigint_ok_iff.mp hvalue
  exact ⟨applyMove_worth hstock, rfl, hfits⟩

lemma produceOne_ok {b b' : Build} {r : ℤ × ProductionMove} (h : produceOne now b r = .ok b') :
    ValueAdded b.stock b'.stock (moveWorth b.stock r.2.productId r.2.locationId r.2.locationDestId
        (doneQty r.2.toStockMove)
        (unitCost b.componentValue (doneQty r.2.toStockMove))) ∧
      b'.componentValue = b.componentValue := by
  obtain ⟨stock, hstock, h⟩ := bind_ok_iff.mp h
  cases h
  exact ⟨applyMove_worth hstock, rfl⟩

/-- The components at their standard prices. -/
def countedInAll (now : Moment) (db : MrpDb) (id : ℤ) : ℤ :=
  sumInTurn (consumeOne now) (fun b r => counted b.stock r.2) (start db) (openMoves db.moves id true)

def overstatedInAll (now : Moment) (db : MrpDb) (id : ℤ) : ℤ :=
  sumInTurn (consumeOne now) (fun b r => overstated b.stock r.2) (start db)
    (openMoves db.moves id true)

/-- What the finished moves take in of a value, once the components are gone. -/
def absorbedInAll (now : Moment) (value : ℤ) (b : Build) (id : ℤ) : ℤ :=
  sumInTurn (produceOne now) (fun b r => absorbed value b.stock r.2) b (openMoves b.moves id false)

/-- The components are overstated by what the finished moves leave out. -/
def BuildsAtCost (now : Moment) (db : MrpDb) (id : ℤ) : Prop :=
  ∀ o b, db.productions.get? id = some o → isClosable o = true → consumeAll now db id = .ok b →
    overstatedInAll now db id =
      countedInAll now db id - absorbedInAll now (countedInAll now db id) b id

lemma consumeAll_ok {db : MrpDb} {id : ℤ} {b : Build} (h : consumeAll now db id = .ok b) :
    b.componentValue = countedInAll now db id ∧ b.componentValue ≤ int64Max ∧
      ValueAdded db.stock b.stock (overstatedInAll now db id - countedInAll now db id) := by
  have hcounted := foldlM_sum (fun b : Build => b.componentValue)
    (fun _ _ _ hone => (consumeOne_ok hone).2.1) h
  have hcounted : b.componentValue = countedInAll now db id := hcounted.trans (zero_add _)
  have hfits : FitsInt64 b.componentValue :=
    foldlM_keeps (fun b : Build => FitsInt64 b.componentValue)
      (fun _ _ _ _ hone => (consumeOne_ok hone).2.2) h (by decide : FitsInt64 0)
  -- value and count move together by what is overstated
  have hproducts := foldlM_sum (fun b : Build => b.stock.totalValue + b.componentValue)
    (f := fun b r => overstated b.stock r.2) (fun b r b' hone => by
      obtain ⟨hworth, hvalue, -⟩ := consumeOne_ok hone
      rw [hworth.products, hvalue, overstated_eq]
      ring) h
  have hlayers := foldlM_sum (fun b : Build => b.stock.layersValue + b.componentValue)
    (f := fun b r => overstated b.stock r.2) (fun b r b' hone => by
      obtain ⟨hworth, hvalue, -⟩ := consumeOne_ok hone
      rw [hworth.layers, hvalue, overstated_eq]
      ring) h
  have hproducts : b.stock.totalValue + b.componentValue =
      db.stock.totalValue + 0 + overstatedInAll now db id := hproducts
  have hlayers : b.stock.layersValue + b.componentValue =
      db.stock.layersValue + 0 + overstatedInAll now db id := hlayers
  refine ⟨hcounted, hfits.2, ?_, ?_⟩ <;> omega

lemma produceAll_ok {b b' : Build} {id : ℤ} (hfits : b.componentValue ≤ int64Max)
    (h : produceAll now b id = .ok b') :
    ValueAdded b.stock b'.stock (absorbedInAll now b.componentValue b id) := by
  -- the value of the components stays what it is
  have hsum : ∀ μ : StockDb → ℤ, (∀ db db' v, ValueAdded db db' v → μ db' = μ db + v) →
      μ b'.stock = μ b.stock + absorbedInAll now b.componentValue b id := by
    intro μ hμ
    refine foldlM_sum_keeps (fun b₁ : Build => μ b₁.stock)
      (fun b₁ => b₁.componentValue = b.componentValue) (fun b₁ r b₂ hb₁ hone => ?_) h rfl
    obtain ⟨hworth, hvalue⟩ := produceOne_ok hone
    rw [hb₁] at hworth hvalue
    refine ⟨hvalue, ?_⟩
    rw [hμ _ _ _ hworth, absorbed_eq hfits]
  exact ⟨hsum _ fun _ _ _ h => h.products, hsum _ fun _ _ _ h => h.layers⟩

variable {db : MrpDb} {id : ℤ} {o : Production} {b : Build}

/-- A bolt bought at 12.00 and kept first in, first out, of which a frame is made. -/
def frameOrder (standardPrice : ℤ) : MrpDb where
  stock := {
    locations := (Table.empty.insert { usage := .internal }).insert { usage := .production }
    products := (Table.empty.insert
      { name := "Bolt"
        costMethod := .fifo
        standardPrice := standardPrice
        quantitySvl := 1000000
        valueSvl := 12000000 }).insert { name := "Frame" }
    layers := Table.empty.insert
      { productId := 1
        quantity := 1000000
        unitCost := 12000000
        value := 12000000
        remainingQty := 1000000
        remainingValue := 12000000
        counterpartUsage := .supplier
        description := "in" } }
  moves := (Table.empty.insert
    { productId := 1
      locationId := 1
      locationDestId := 2
      productUomQty := 1000000
      state := .confirmed
      productionId := some 1
      isProductionRaw := true }).insert
    { productId := 2
      locationId := 2
      locationDestId := 1
      productUomQty := 1000000
      state := .confirmed
      productionId := some 1 }
  productions := Table.empty.insert { state := .confirmed }

end MrpProduction

end CErp
