/-
The lines of a sale order as the client writes them.

A create or a write takes amounts as doubles of major units.  `applyLineTaxes`
computes the three amounts of the line from them, and every amount goes into its
micro-unit column through `Money::fromJson`.  A write fills up what it is not given
from the row, and takes the micro-units it reads there for major units.

A line is written in one transaction and the totals of its order in the next, so
what is written stays when something fails later.  A quantity, price or discount
that is no number makes `applyLineTaxes` throw before anything is written.
-/
import CErp.OrderInvoices

namespace CErp

open Outcome

/-! ### Exact doubles -/

/-- Doubles that lose nothing of an amount on its way to JSON and back, and hold the
whole numbers that are read as doubles. -/
class ExactDoubles (D : Type) [JsonDouble D] : Prop where
  base : ∀ {d : D} {m : Money}, JsonDouble.fromJson d = .ok m → m = { micros := m.micros }
  through : ∀ {m n : Money}, JsonDouble.throughJson D m = .ok n → n.micros = m.micros
  ofInt : ∀ {i : ℤ} {m : Money}, JsonDouble.fromJson (JsonDouble.ofInt i : D) = .ok m →
    m.micros = i * Money.ONE

namespace SaleLines

open AccountMove (loadTaxes)
open JsonDouble

/-! ### Values -/

/-- The values of a create or a write, each as its column is given it; the amounts of
the line are replaced and left out.  The identifier 0 stands for no order. -/
structure LineValues (D : Type) where
  orderId : Option ℤ := none
  sequence : Option ℤ := none
  productId : Option (Option ℤ) := none
  name : Option String := none
  displayType : Option String := none
  qty : Option D := none
  productUomId : Option (Option ℤ) := none
  priceUnit : Option D := none
  discount : Option D := none
  taxIds : Option (List ℤ) := none
  qtyInvoiced : Option D := none
  qtyDelivered : Option D := none
  companyId : Option (Option ℤ) := none
  currencyId : Option (Option ℤ) := none

/-- What a caller may touch, and what the database says of a row beyond its order. -/
structure LineAccess where
  writable : OrderLine → Bool := fun _ => true
  deletable : OrderLine → Bool := fun _ => true
  accepts : OrderLine → Except String Unit := fun _ => .ok ()

section Doubles

variable {D : Type} [JsonDouble D]

/-- Quantity, price and discount as doubles. -/
structure Factors (D : Type) where
  qty : D
  priceUnit : D
  discount : D

/-- The values given for them, and what stands in for the others. -/
def LineValues.factors (v : LineValues D) (qty priceUnit discount : D) : Factors D :=
  ⟨v.qty.getD qty, v.priceUnit.getD priceUnit, v.discount.getD discount⟩

/-- The amounts of a line as doubles. -/
structure Amounts (D : Type) where
  subtotal : D
  tax : D
  total : D

def applyLineTaxes (db : AccountDb) (x : Factors D) (taxIds : List ℤ) :
    Except String (Amounts D) := do
  let qty ← fromJson x.qty
  let unit ← fromJson x.priceUnit
  let disc ← fromJson x.discount
  let res ← TaxEngine.compute unit qty disc (loadTaxes db taxIds) db.accountDigits
  return ⟨toJson res.baseExcluded, toJson res.totalTax, toJson res.totalIncluded⟩

/-- A scaled column of a double. -/
def toColumn (d : D) : Except String ℤ := (fromJson d).map Money.micros

/-- A scaled column that a write may leave out. -/
def toColumn? (d : Option D) (old : ℤ) : Except String ℤ :=
  match d with
  | none => .ok old
  | some d => toColumn d

/-- The columns of a row with the values given for them. -/
def columns (l : OrderLine) (v : LineValues D) (x : Factors D) (a : Amounts D) :
    Except String OrderLine := do
  let qty ← toColumn x.qty
  let priceUnit ← toColumn x.priceUnit
  let discount ← toColumn x.discount
  let priceSubtotal ← toColumn a.subtotal
  let priceTax ← toColumn a.tax
  let priceTotal ← toColumn a.total
  let qtyInvoiced ← toColumn? v.qtyInvoiced l.qtyInvoiced
  let qtyDelivered ← toColumn? v.qtyDelivered l.qtyDelivered
  return {
    orderId := v.orderId.getD l.orderId
    sequence := v.sequence.getD l.sequence
    productId := v.productId.getD l.productId
    name := v.name.getD l.name
    displayType := v.displayType.getD l.displayType
    qty := qty
    productUomId := v.productUomId.getD l.productUomId
    priceUnit := priceUnit
    discount := discount
    taxIds := v.taxIds.getD l.taxIds
    priceSubtotal := priceSubtotal
    priceTax := priceTax
    priceTotal := priceTotal
    qtyInvoiced := qtyInvoiced
    qtyDelivered := qtyDelivered
    companyId := v.companyId.getD l.companyId
    currencyId := v.currencyId.getD l.currencyId }

/-- The reference of a line to its order; NULL refers to none. -/
def requireOrder (db : OrderDb) (l : OrderLine) : Except String Unit :=
  require ((db.saleOrders.get? l.orderId).isSome = true)
    "insert or update on table \"sale_order_line\" violates foreign key constraint"

/-! ### Transactions -/

/-- A transaction: what fails leaves nothing. -/
def transaction (f : OrderDb → Except String OrderDb) (db : OrderDb) : OrderDb × Except String Unit :=
  match f db with
  | .ok db' => (db', .ok ())
  | .error e => (db, .error e)

/-- What comes after a success; what a failure leaves stays. -/
def andThen (r : OrderDb × Except String Unit) (next : OrderDb → OrderDb × Except String Unit) :
    OrderDb × Except String Unit :=
  match r with
  | (db, .ok ()) => next db
  | (db, .error e) => (db, .error e)

/-! ### Totals of an order -/

/-- A column of the lines of an order, added up. -/
def lineSum (db : OrderDb) (ordId : ℤ) (f : OrderLine → ℤ) : ℤ :=
  db.saleLines.sumOver fun _ l => if l.orderId = ordId then f l else 0

def updateOrderTotals (ordId : ℤ) (db : OrderDb) : Except String OrderDb :=
  match db.saleOrders.get? ordId with
  | none => .ok db
  | some _ => do
      let untaxed ← bigint (lineSum db ordId (·.priceSubtotal))
      let tax ← bigint (lineSum db ordId (·.priceTax))
      let total ← bigint (lineSum db ordId (·.priceTotal))
      return { db with
        saleOrders := db.saleOrders.modify ordId fun o =>
          { o with amountUntaxed := untaxed, amountTax := tax, amountTotal := total } }

def refreshTotals (ordId : ℤ) (db : OrderDb) : OrderDb × Except String Unit :=
  if 0 < ordId then transaction (updateOrderTotals ordId) db else (db, .ok ())

/-! ### create, write and unlink -/

/-- A line before its values: the defaults of the model. -/
def newLine : OrderLine := { orderId := 0, name := "" }

def createLine (access : LineAccess) (v : LineValues D) (db : OrderDb) : Except String OrderDb := do
  let x := v.factors (ofInt 1) (ofInt 0) (ofInt 0)
  let amounts ← applyLineTaxes db.account x (v.taxIds.getD [])
  require (0 < v.orderId.getD 0) "Order is required"
  require (¬(v.name.getD "" = "" ∧ v.displayType.getD "" = "")) "Description is required"
  let l ← columns newLine v x amounts
  access.accepts l
  requireOrder db l
  return { db with saleLines := db.saleLines.insert l }

def handleCreate (access : LineAccess) (v : LineValues D) (db : OrderDb) :
    OrderDb × Except String Unit :=
  andThen (transaction (createLine access v) db) (refreshTotals (v.orderId.getD 0))

def writeLine (access : LineAccess) (v : LineValues D) (id : ℤ) (l : OrderLine) (db : OrderDb) :
    Except String OrderDb := do
  -- the micro-units of the columns, as major units
  let x := v.factors (ofInt l.qty) (ofInt l.priceUnit) (ofInt l.discount)
  let amounts ← applyLineTaxes db.account x (v.taxIds.getD l.taxIds)
  let l' ← columns l v x amounts
  if access.writable l then do
    access.accepts l'
    requireOrder db l'
    return { db with saleLines := db.saleLines.modify id fun _ => l' }
  else return db

def handleWriteOne (access : LineAccess) (v : LineValues D) (id : ℤ) (db : OrderDb) :
    OrderDb × Except String Unit :=
  match db.saleLines.get? id with
  | none => (db, .ok ())
  | some l => andThen (transaction (writeLine access v id l) db) (refreshTotals l.orderId)

def handleWrite (access : LineAccess) (v : LineValues D) :
    List ℤ → OrderDb → OrderDb × Except String Unit
  | [], db => (db, .ok ())
  | id :: ids, db => andThen (handleWriteOne access v id db) (handleWrite access v ids)

def handleUnlink (access : LineAccess) (ids : List ℤ) (db : OrderDb) : OrderDb :=
  { db with saleLines := db.saleLines.delete fun id l => ids.contains id && access.deletable l }

/-! ### Calls -/

inductive LineOp (D : Type) where
  | create (v : LineValues D)
  | write (v : LineValues D) (ids : List ℤ)
  | unlink (ids : List ℤ)

/-- A call, with what its caller may touch. -/
structure LineCall (D : Type) where
  access : LineAccess
  op : LineOp D

/-- What a call leaves, whether it fails or not. -/
def LineCall.run (c : LineCall D) (db : OrderDb) : OrderDb :=
  match c.op with
  | .create v => (handleCreate c.access v db).1
  | .write v ids => (handleWrite c.access v ids db).1
  | .unlink ids => handleUnlink c.access ids db

def lineStep (db : OrderDb) (c : LineCall D) : Option OrderDb := some (c.run db)

end Doubles

end SaleLines

end CErp
