/-
The tables of the quant engine: locations, products with their categories, the
quants and the valuation layers, beside the tables of the accounting module.

Quantities and values are micro-units.  A quant is kept under its product,
location and lot, which the database keeps unique.  Lot 0 is untracked stock.
-/
import CErp.AccountDb
import CErp.KeyedSums

namespace CErp

open Money TaxEngine

/-! ### Rows -/

/-- What a location stands for. -/
inductive Usage where
  | internal
  | supplier
  | customer
  | production
  | subcontract
  | inventory
  | other (name : String)
  deriving DecidableEq

inductive CostMethod where
  | standard
  | average
  | fifo
  | other
  deriving DecidableEq

inductive Tracking where
  | untracked
  | lot
  | serial
  | other
  deriving DecidableEq

structure Location where
  usage : Usage := .internal
  deriving DecidableEq

/-- A row of `product_category`: the accounts it gives its products. -/
structure ProductCategory where
  stockValuationAccountId : Option ℤ := none
  stockJournalId : Option ℤ := none
  stockAccountInputId : Option ℤ := none
  stockAccountOutputId : Option ℤ := none
  deriving DecidableEq

/-- A row of `product_product`; weight and volume have four decimals. -/
structure Product where
  name : String
  categId : Option ℤ := none
  standardPrice : ℤ := 0
  weight : ℤ := 0
  volume : ℤ := 0
  qtyAvailable : ℤ := 0
  costMethod : CostMethod := .standard
  quantitySvl : ℤ := 0
  valueSvl : ℤ := 0
  tracking : Tracking := .untracked
  deriving DecidableEq

structure QuantKey where
  productId : ℤ
  locationId : ℤ
  lotId : ℤ
  deriving DecidableEq

structure Quant where
  quantity : ℤ := 0
  reservedQuantity : ℤ := 0
  companyId : Option ℤ := none
  deriving DecidableEq

/-- A row of `stock_valuation_layer`. -/
structure Layer where
  productId : ℤ
  quantity : ℤ := 0
  unitCost : ℤ := 0
  value : ℤ := 0
  remainingQty : ℤ := 0
  remainingValue : ℤ := 0
  counterpartUsage : Usage
  description : String
  accountMoveId : Option ℤ := none
  companyId : Option ℤ := none
  deriving DecidableEq

/-- `floored` says whether a release ever met the floor of `GREATEST`; no
operation reads it. -/
structure StockDb where
  account : AccountDb := {}
  locations : Table Location := .empty
  categories : Table ProductCategory := .empty
  products : Table Product := .empty
  quants : AList (fun _ : QuantKey => Quant) := ∅
  layers : Table Layer := .empty
  floored : Bool := false

/-! ### Numbers -/

/-- What a 64-bit integer holds. -/
def FitsInt64 (v : ℤ) : Prop := int64Min ≤ v ∧ v ≤ int64Max

instance : DecidablePred FitsInt64 :=
  fun v => inferInstanceAs (Decidable (int64Min ≤ v ∧ v ≤ int64Max))

/-- A 64-bit sum.  In a column an overflow is an error; in the source's own
sums it is undefined, and the model stops there. -/
def bigint (v : ℤ) : Except String ℤ :=
  if FitsInt64 v then .ok v else .error "bigint out of range"

lemma bigint_ok_iff {v w : ℤ} : bigint v = .ok w ↔ FitsInt64 v ∧ v = w :=
  Outcome.given_ok_iff

lemma bigint_ok {v w : ℤ} (h : bigint v = .ok w) : w = v := (bigint_ok_iff.mp h).2.symm

/-- Narrowing keeps what fits. -/
lemma toInt64_of_fits {v : ℤ} (h : FitsInt64 v) : toInt64 v = v := by
  obtain ⟨hmin, hmax⟩ := h
  unfold int64Min at hmin
  unfold int64Max at hmax
  apply Int.bmod_eq_of_le
  · omega
  · omega

/-- `NULLIF(companyId, 0)`. -/
def nullIfZero (companyId : ℤ) : Option ℤ := if companyId = 0 then none else some companyId

/-- A product of micro-units, truncated to micro-units. -/
def mulMicros (qtyMic costMic : ℤ) : ℤ := toInt64 ((qtyMic * costMic).tdiv 1000000)

/-- A quotient of micro-units, truncated to micro-units. -/
def divMicros (valueMic qtyMic : ℤ) : ℤ :=
  if qtyMic = 0 then 0 else toInt64 ((valueMic * 1000000).tdiv qtyMic)

/-- A column of some product's layers, added up. -/
def layersSum (layers : Table Layer) (productId : ℤ) (f : Layer → ℤ) : ℤ :=
  layers.sumOver fun _ l => if l.productId = productId then f l else 0

@[simp] lemma layersSum_insert (layers : Table Layer) (l : Layer) (productId : ℤ)
    (f : Layer → ℤ) : layersSum (layers.insert l) productId f =
      layersSum layers productId f + if l.productId = productId then f l else 0 :=
  Table.sumOver_insert layers _ l

namespace StockDb

/-! ### Lookups -/

def usageOf (db : StockDb) (locId : ℤ) : Usage :=
  match db.locations.get? locId with
  | none => .other ""
  | some l => l.usage

def isInternal (db : StockDb) (locId : ℤ) : Bool := db.usageOf locId == .internal

/-- Quantities on hand of a product over the internal locations. -/
def onHandInternal (db : StockDb) (productId : ℤ) : ℤ :=
  db.quants.sumOver fun k q =>
    if k.productId = productId ∧ db.isInternal k.locationId then q.quantity else 0

/-- The quants of a product, over all locations. -/
def onHandAnywhere (db : StockDb) (productId : ℤ) : ℤ :=
  db.quants.sumOver fun k q => if k.productId = productId then q.quantity else 0

/-- A column of a product's layers, added up. -/
def layerSum (db : StockDb) (productId : ℤ) (f : Layer → ℤ) : ℤ :=
  layersSum db.layers productId f

/-! ### Statements -/

def modifyProduct (db : StockDb) (id : ℤ) (f : Product → Product) : StockDb :=
  { db with products := db.products.modify id f }

def insertLayer (db : StockDb) (l : Layer) : StockDb := { db with layers := db.layers.insert l }

def modifyLayer (db : StockDb) (id : ℤ) (f : Layer → Layer) : StockDb :=
  { db with layers := db.layers.modify id f }

def setQuant (db : StockDb) (k : QuantKey) (q : Quant) : StockDb :=
  { db with quants := db.quants.insert k q }

end StockDb

end CErp
