/-
The tables of the stock module beside the quant engine's: transfers with their
moves, the rules and orders a transfer looks at, and landed costs.

The lines of an order, a bill of materials or a landed cost go with it and are
kept inside it, in the order of their identifiers.
-/
import CErp.StockDb

namespace CErp

/-! ### Rows -/

/-- The states of a transfer and of its moves. -/
inductive TransferState where
  | draft
  | confirmed
  | partiallyAvailable
  | assigned
  | done
  | cancel
  | other
  deriving DecidableEq

inductive PickingCode where
  | incoming
  | outgoing
  | internal
  | other
  deriving DecidableEq

/-- A row of `stock_picking`. -/
structure Picking where
  name : String := "New"
  state : TransferState := .draft
  pickingTypeId : ℤ
  saleId : Option ℤ := none
  purchaseId : Option ℤ := none
  deriving DecidableEq

structure PickingType where
  code : PickingCode
  deriving DecidableEq

/-- A row of `stock_move`: `productUomQty` is the demand, `quantity` what was
done. -/
structure StockMove where
  pickingId : Option ℤ := none
  productId : ℤ
  name : String := ""
  productUomQty : ℤ := 0
  quantity : ℤ := 0
  state : TransferState := .draft
  locationId : ℤ
  locationDestId : ℤ
  companyId : Option ℤ := none
  origin : Option String := none
  lotId : Option ℤ := none
  reservedQty : ℤ := 0
  resultPackageId : Option ℤ := none
  deriving DecidableEq

/-- A row of `stock_quant_package`. -/
structure QuantPackage where
  locationId : Option ℤ := none
  deriving DecidableEq

structure PutawayRule where
  productId : Option ℤ := none
  categoryId : Option ℤ := none
  locationInId : ℤ
  locationOutId : ℤ
  sequence : ℤ := 10
  deriving DecidableEq

structure SaleOrderLine where
  productId : Option ℤ := none
  productUomQty : ℤ := 0
  qtyDelivered : ℤ := 0
  deriving DecidableEq

/-- A row of `sale_order`; `confirmed` says that its state is `sale`. -/
structure SaleOrder where
  confirmed : Bool := true
  invoiceStatus : String := "nothing"
  lines : List SaleOrderLine := []
  deriving DecidableEq

structure PurchaseOrderLine where
  productId : Option ℤ := none
  productQty : ℤ := 0
  priceUnit : Option ℤ := some 0
  qtyReceived : ℤ := 0
  deriving DecidableEq

/-- A row of `purchase_order`; `confirmed` says that its state is
`purchase`. -/
structure PurchaseOrder where
  confirmed : Bool := true
  invoiceStatus : String := "nothing"
  lines : List PurchaseOrderLine := []
  deriving DecidableEq

structure BomLine where
  productId : ℤ
  productQty : ℤ := Money.ONE
  deriving DecidableEq

/-- A row of `mrp_bom`. -/
structure Bom where
  productId : ℤ
  productQty : Option ℤ := some Money.ONE
  subcontract : Bool := false
  active : Bool := true
  lines : List BomLine := []
  deriving DecidableEq

inductive SplitMethod where
  | byQuantity
  | byPrice
  | byWeight
  | byVolume
  | equal
  deriving DecidableEq

structure LandedCostLine where
  name : String
  price : ℤ := 0
  splitMethod : SplitMethod := .byQuantity
  accountId : Option ℤ := none
  deriving DecidableEq

/-- A row of `stock_landed_cost`. -/
structure LandedCost where
  done : Bool := false
  pickingId : Option ℤ := none
  companyId : Option ℤ := none
  lines : List LandedCostLine := []
  deriving DecidableEq

structure WarehouseDb where
  stock : StockDb := {}
  pickingTypes : Table PickingType := .empty
  pickings : Table Picking := .empty
  moves : Table StockMove := .empty
  packages : Table QuantPackage := .empty
  putawayRules : Table PutawayRule := .empty
  saleOrders : Table SaleOrder := .empty
  purchaseOrders : Table PurchaseOrder := .empty
  boms : Table Bom := .empty
  landedCosts : Table LandedCost := .empty

namespace StockMove

/-- `COALESCE(lot_id, 0)`. -/
def lot (m : StockMove) : ℤ := m.lotId.getD 0

/-- The company a quant or an entry is written for, 0 where there is none. -/
def company (m : StockMove) : ℤ := m.companyId.getD 0

/-- The quant a move takes from. -/
def key (m : StockMove) : QuantKey := ⟨m.productId, m.locationId, m.lot⟩

end StockMove

/-- The products of some moves, each once.  The database leaves the order of the
groups of a query open; here it is that of their first moves. -/
def movedProducts (ms : List StockMove) : List ℤ := (ms.map (·.productId)).eraseDups

/-- The quantity some moves bring of a product. -/
def movedQuantity (ms : List StockMove) (productId : ℤ) : Except String ℤ :=
  bigint ((ms.filter (·.productId = productId)).map (·.quantity)).sum

end CErp
