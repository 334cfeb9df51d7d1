/-
Transfers: confirming, reserving, validating, cancelling and resetting them.

Each function is the transaction of one identifier; a call takes its identifiers
one after the other.  Validation runs over the moves of the transfer and then
over what depends on it: packages, the sale or purchase order and the components
of a subcontractor.
-/
import CErp.Documents
import CErp.StockQuant
import CErp.WarehouseDb

namespace CErp

open Outcome StockQuant

namespace StockPicking

/-- The moves of a transfer in some states. -/
def movesIn (db : WarehouseDb) (id : ℤ) (states : TransferState → Bool) : List (ℤ × StockMove) :=
  db.moves.rows.filter fun r => r.2.pickingId == some id && states r.2.state

/-- A change of the moves of a transfer in some states. -/
def updateMoves (db : WarehouseDb) (id : ℤ) (states : TransferState → Bool)
    (f : StockMove → StockMove) : Table StockMove :=
  db.moves.updateWhere (fun _ m => m.pickingId == some id && states m.state) f

/-- A change of a transfer that is in some states. -/
def updatePicking (db : WarehouseDb) (id : ℤ) (states : TransferState → Bool)
    (f : Picking → Picking) : Table Picking :=
  db.pickings.modify id fun p => if states p.state then f p else p

def isDraft (s : TransferState) : Bool := s == .draft
def isCancelled (s : TransferState) : Bool := s == .cancel
def isWaiting (s : TransferState) : Bool := s == .confirmed || s == .partiallyAvailable
def isReserving (s : TransferState) : Bool := s == .assigned || s == .partiallyAvailable
def isNotDone (s : TransferState) : Bool := s != .done
def isOpen (s : TransferState) : Bool := s != .done && s != .cancel

/-! ### Confirming -/

/-- The series of a transfer, by its direction. -/
def seqCode (db : WarehouseDb) (pickingTypeId : ℤ) : String :=
  match db.pickingTypes.get? pickingTypeId with
  | some ⟨.outgoing⟩ => "stock.picking.out"
  | some ⟨.internal⟩ => "stock.picking.int"
  | _ => "stock.picking.in"

def actionConfirm (now : Moment) (db : WarehouseDb) (id : ℤ) : Except String WarehouseDb :=
  match db.pickings.get? id with
  | none => .ok db
  | some p =>
      if p.state ≠ .draft then .ok db
      else do
        let (ref, account) ← db.stock.account.nextNumber now (seqCode db p.pickingTypeId)
        return { db with
          stock := { db.stock with account := account }
          pickings := db.pickings.modify id fun p => { p with state := .confirmed, name := ref }
          moves := updateMoves db id isDraft fun m => { m with state := .confirmed } }

/-! ### Reserving -/

/-- What a move has reserved already. -/
def alreadyReserved (db : WarehouseDb) (moveId : ℤ) : ℤ :=
  match db.moves.get? moveId with
  | none => 0
  | some m => m.reservedQty

/-- Reserve what a move still needs. -/
def reserveNeed (stock : StockDb) (m : StockMove) (need : ℤ) : Except String (ℤ × StockDb) :=
  if 0 < need then reserve stock m.productId m.locationId need m.lot else .ok (0, stock)

/-- A move with what it has reserved of its demand. -/
def withReserved (demand total : ℤ) (m : StockMove) : StockMove :=
  { m with
    reservedQty := total
    state := if demand ≤ total then .assigned else .partiallyAvailable }

/-- One move; whether all moves so far are reserved in full goes along. -/
def assignOne (s : WarehouseDb × Bool) (r : ℤ × StockMove) : Except String (WarehouseDb × Bool) := do
  let demand := r.2.productUomQty
  let already := alreadyReserved s.1 r.1
  let need ← bigint (demand - already)
  let (got, stock) ← reserveNeed s.1.stock r.2 need
  let total := already + got
  return ({ s.1 with
      stock := stock
      moves := s.1.moves.modify r.1 (withReserved demand total) },
    s.2 && demand ≤ total)

def actionAssign (db : WarehouseDb) (id : ℤ) : Except String WarehouseDb := do
  let moves := movesIn db id isWaiting
  let (db, allFull) ← moves.foldlM assignOne (db, !moves.isEmpty)
  return { db with
    pickings := updatePicking db id isWaiting fun p =>
      { p with state := if allFull then .assigned else .partiallyAvailable } }

/-! ### Releasing -/

/-- The moves that hold something. -/
def holding (rows : List (ℤ × StockMove)) : List (ℤ × StockMove) :=
  rows.filter fun r => 0 < r.2.reservedQty

/-- Give back what some moves hold. -/
def releaseAll (stock : StockDb) (rows : List (ℤ × StockMove)) : Except String StockDb :=
  rows.foldlM (fun stock r =>
    release stock r.2.productId r.2.locationId r.2.reservedQty r.2.lot) stock

def actionCancel (db : WarehouseDb) (id : ℤ) : Except String WarehouseDb := do
  let stock ← releaseAll db.stock (holding (movesIn db id isOpen))
  return { db with
    stock := stock
    pickings := updatePicking db id isNotDone fun p => { p with state := .cancel }
    moves := updateMoves db id isNotDone fun m => { m with state := .cancel, reservedQty := 0 } }

def buttonUnreserve (db : WarehouseDb) (id : ℤ) : Except String WarehouseDb := do
  let stock ← releaseAll db.stock (holding (movesIn db id isReserving))
  return { db with
    stock := stock
    pickings := updatePicking db id isReserving fun p => { p with state := .confirmed }
    moves := updateMoves db id isReserving fun m => { m with state := .confirmed, reservedQty := 0 } }

def buttonResetToDraft (db : WarehouseDb) (id : ℤ) : WarehouseDb :=
  { db with
    pickings := updatePicking db id isCancelled fun p => { p with state := .draft, name := "New" }
    moves := updateMoves db id isCancelled fun m => { m with state := .draft } }

/-! ### Validating: the moves -/

/-- The first rule in its sequence. -/
def firstRule : List PutawayRule → Option PutawayRule
  | [] => none
  | r :: rs =>
      match firstRule rs with
      | none => some r
      | some r' => if r'.sequence < r.sequence then some r' else some r

/-- The rules for a location, between internal locations. -/
def putawayRules (db : WarehouseDb) (dest : ℤ) : List PutawayRule :=
  (db.putawayRules.rows.map Prod.snd).filter fun r =>
    r.locationInId = dest ∧ db.stock.isInternal r.locationInId ∧ db.stock.isInternal r.locationOutId

/-- Where a move ends: a rule of its product sends it on, else one of the
product's category. -/
def putaway (db : WarehouseDb) (productId : ℤ) (p : Product) (dest : ℤ) : ℤ :=
  let rules := putawayRules db dest
  match firstRule (rules.filter (·.productId = some productId)) with
  | some r => r.locationOutId
  | none =>
      match firstRule (rules.filter fun r =>
        r.productId = none ∧ r.categoryId.isSome ∧ r.categoryId = p.categId) with
      | some r => r.locationOutId
      | none => dest

/-- What a receipt costs a unit: the price on the purchase order, -1 where there
is none. -/
def inCost (db : WarehouseDb) (purchaseId productId : ℤ) : ℤ :=
  if 0 < purchaseId then
    match (db.purchaseOrders.get? purchaseId).bind fun po =>
      po.lines.find? fun l => l.productId == some productId with
    | none => -1
    | some l => l.priceUnit.getD (-1)
  else -1

/-- The quantity done: the demand, unless another one was entered. -/
def doneQty (m : StockMove) : ℤ := if 0 < m.quantity then m.quantity else m.productUomQty

def isTracked (p : Product) : Prop := p.tracking = .lot ∨ p.tracking = .serial

instance : DecidablePred isTracked := fun p =>
  inferInstanceAs (Decidable (p.tracking = .lot ∨ p.tracking = .serial))

/-- A move that is done. -/
def finished (dest qty : ℤ) (m : StockMove) : StockMove :=
  { m with locationDestId := dest, quantity := qty, reservedQty := 0, state := .done }

/-- One move.  The query joins the product, so a move without one is not seen. -/
def validateOne (now : Moment) (purchaseId : ℤ) (db : WarehouseDb) (r : ℤ × StockMove) :
    Except String WarehouseDb :=
  let m := r.2
  match db.stock.products.get? m.productId with
  | none => .ok db
  | some p => do
      let dest := putaway db m.productId p m.locationDestId
      require (isTracked p → 0 < m.lot)
        ("A lot/serial number is required for " ++ p.name ++ ".")
      require (p.tracking = .serial → doneQty m = 1000000)
        "A serial-tracked move must be exactly one unit — split the operation."
      let stock ← release db.stock m.productId m.locationId m.reservedQty m.lot
      let stock ← applyMove now stock m.productId m.locationId dest (doneQty m) m.company
        (inCost db purchaseId m.productId) m.lot
      return { db with
        stock := stock
        moves := db.moves.modify r.1 (finished dest (doneQty m)) }

/-! ### Validating: what depends on it -/

/-- A package is where the first of its moves ended. -/
def carryPackages (db : WarehouseDb) (id : ℤ) : WarehouseDb :=
  { db with
    packages := db.packages.update fun packageId p =>
      match db.moves.rows.find? fun r =>
        r.2.pickingId == some id && r.2.resultPackageId == some packageId with
      | none => p
      | some r => { p with locationId := some r.2.locationDestId } }

/-- The done moves of a transfer. -/
def doneMoves (db : WarehouseDb) (id : ℤ) : List StockMove :=
  (movesIn db id (· == .done)).map Prod.snd

def deliverLine (productId qty : ℤ) (l : SaleOrderLine) : Except String SaleOrderLine :=
  if l.productId = some productId then do
    let delivered ← bigint (l.qtyDelivered + qty)
    return { l with qtyDelivered := delivered }
  else .ok l

def receiveLine (productId qty : ℤ) (l : PurchaseOrderLine) : Except String PurchaseOrderLine :=
  if l.productId = some productId then do
    let received ← bigint (l.qtyReceived + qty)
    return { l with qtyReceived := received }
  else .ok l

/-- The lines of an order, told of the quantities of some moves. -/
def tellLines {α : Type} (tell : ℤ → ℤ → α → Except String α) (ms : List StockMove) (lines : List α) :
    Except String (List α) :=
  (movedProducts ms).foldlM (fun lines productId => do
    let qty ← movedQuantity ms productId
    lines.mapM (tell productId qty)) lines

/-- A delivery on its sale order. -/
def deliver (db : WarehouseDb) (id saleId : ℤ) : Except String WarehouseDb :=
  match db.saleOrders.get? saleId with
  | none => .ok db
  | some so => do
      let lines ← tellLines deliverLine (doneMoves db id) so.lines
      return { db with
        saleOrders := db.saleOrders.modify saleId fun so =>
          { so with
            lines := lines
            invoiceStatus :=
              if so.confirmed ∧ ∀ l ∈ lines, l.productUomQty ≤ l.qtyDelivered then "to_invoice"
              else so.invoiceStatus } }

/-- A receipt on its purchase order. -/
def receive (db : WarehouseDb) (id purchaseId : ℤ) : Except String WarehouseDb :=
  match db.purchaseOrders.get? purchaseId with
  | none => .ok db
  | some po => do
      let lines ← tellLines receiveLine (doneMoves db id) po.lines
      return { db with
        purchaseOrders := db.purchaseOrders.modify purchaseId fun po =>
          { po with
            lines := lines
            invoiceStatus :=
              if po.confirmed ∧ ∀ l ∈ lines, l.productQty ≤ l.qtyReceived then "to_bill"
              else po.invoiceStatus } }

/-- The subcontractor's location; 0 where there is none. -/
def subcontractLocation (db : WarehouseDb) : ℤ :=
  ((db.stock.locations.rows.find? fun r => r.2.usage == .subcontract).map Prod.fst).getD 0

/-- The bill of materials a subcontractor works by. -/
def subcontractBom (db : WarehouseDb) (productId : ℤ) : Option Bom :=
  (db.boms.rows.find? fun r => r.2.productId == productId && r.2.subcontract && r.2.active).map
    Prod.snd

/-- The quantity a bill of materials is for. -/
def bomQty (b : Bom) : ℤ :=
  let qty := b.productQty.getD 1000000
  if qty ≤ 0 then 1000000 else qty

/-- The largest company of some moves, 0 where no move has one. -/
def maxCompany (ms : List StockMove) : ℤ :=
  ((ms.filterMap (·.companyId)).max?).getD 0

/-- The move of a component to the subcontractor. -/
def componentMove (id subLoc comp q : ℤ) (ln : BomLine) : StockMove where
  pickingId := some id
  productId := ln.productId
  name := "Subcontract component"
  productUomQty := q
  quantity := q
  state := .done
  locationId := 4
  locationDestId := subLoc
  companyId := nullIfZero comp
  origin := some "Subcontract"

/-- A component's move and its booking. -/
def consumeComponent (now : Moment) (id subLoc recvQty comp : ℤ) (b : Bom) (db : WarehouseDb)
    (ln : BomLine) : Except String WarehouseDb := do
  let q ← bigint (Money.divRoundHalfAway (ln.productQty * recvQty) (bomQty b))
  if q ≤ 0 then return db
  else do
    let stock ← applyMove now db.stock ln.productId 4 subLoc q comp (-1) 0
    return { db with
      stock := stock
      moves := db.moves.insert (componentMove id subLoc comp q ln) }

/-- The components of one received product. -/
def consumeComponents (now : Moment) (id subLoc : ℤ) (ms : List StockMove) (db : WarehouseDb)
    (productId : ℤ) : Except String WarehouseDb := do
  let recvQty ← movedQuantity ms productId
  match subcontractBom db productId with
  | none => return db
  | some b =>
      b.lines.foldlM
        (consumeComponent now id subLoc recvQty (maxCompany (ms.filter (·.productId = productId))) b)
        db

def backflush (now : Moment) (db : WarehouseDb) (id : ℤ) : Except String WarehouseDb :=
  if subcontractLocation db ≤ 0 then .ok db
  else
    (movedProducts (doneMoves db id)).foldlM
      (consumeComponents now id (subcontractLocation db) (doneMoves db id)) db

/-- Go on only under a condition. -/
def provided (c : Bool) (f : WarehouseDb → Except String WarehouseDb) (db : WarehouseDb) :
    Except String WarehouseDb :=
  if c then f db else .ok db

def buttonValidate (now : Moment) (db : WarehouseDb) (id : ℤ) : Except String WarehouseDb :=
  match db.pickings.get? id with
  | none => .ok db
  | some p =>
      if !isOpen p.state then .ok db
      else do
        let saleId := p.saleId.getD 0
        let purchaseId := p.purchaseId.getD 0
        let code := (db.pickingTypes.get? p.pickingTypeId).map (·.code)
        let db ← (movesIn db id isOpen).foldlM (validateOne now purchaseId) db
        let db := { db with pickings := db.pickings.modify id fun p => { p with state := .done } }
        let db := carryPackages db id
        let db ← provided (0 < saleId && code == some .outgoing) (fun db => deliver db id saleId) db
        let db ← provided (0 < purchaseId && code == some .incoming)
          (fun db => receive db id purchaseId) db
        provided (code == some .incoming) (fun db => backflush now db id) db

lemma provided_ok {c : Bool} {f : WarehouseDb → Except String WarehouseDb} {db db' : WarehouseDb}
    (h : provided c f db = .ok db') : (c = true ∧ f db = .ok db') ∨ (c = false ∧ db' = db) := by
  unfold provided at h
  split at h
  · next hc => exact .inl ⟨hc, h⟩
  · next hc =>
      cases h
      exact .inr ⟨eq_false_of_ne_true hc, rfl⟩

/-- An open transfer is validated in four stages: its moves `db₁`, the sale order
`db₂`, the purchase order `db₃` and the components of a subcontractor `db'`. -/
structure Validated (now : Moment) (id : ℤ) (p : Picking) (db db₁ db₂ db₃ db' : WarehouseDb) :
    Prop where
  picking : db.pickings.get? id = some p
  opened : isOpen p.state = true
  moves : (movesIn db id isOpen).foldlM (validateOne now (p.purchaseId.getD 0)) db = .ok db₁
  delivery : provided
    (0 < p.saleId.getD 0 && (db.pickingTypes.get? p.pickingTypeId).map (·.code) == some .outgoing)
    (fun db => deliver db id (p.saleId.getD 0))
    (carryPackages
      { db₁ with pickings := db₁.pickings.modify id fun p => { p with state := .done } } id) = .ok db₂
  receipt : provided
    (0 < p.purchaseId.getD 0 &&
      (db.pickingTypes.get? p.pickingTypeId).map (·.code) == some .incoming)
    (fun db => receive db id (p.purchaseId.getD 0)) db₂ = .ok db₃
  components : provided ((db.pickingTypes.get? p.pickingTypeId).map (·.code) == some .incoming)
    (fun db => backflush now db id) db₃ = .ok db'

/-- Validating does nothing to a transfer that is not open. -/
lemma buttonValidate_cases {now : Moment} {db db' : WarehouseDb} {id : ℤ}
    (h : buttonValidate now db id = .ok db') :
    ((∀ p, db.pickings.get? id = some p → ¬ isOpen p.state = true) ∧ db' = db) ∨
    ∃ p db₁ db₂ db₃, Validated now id p db db₁ db₂ db₃ db' := by
  unfold buttonValidate at h
  split at h
  · next hnone =>
      cases h
      left
      refine ⟨?_, rfl⟩
      intro p hp
      rw [hnone] at hp
      cases hp
  next p hp =>
  split at h
  · next hclosed =>
      cases h
      left
      refine ⟨?_, rfl⟩
      intro q hq
      rw [hp] at hq
      cases hq
      simpa using hclosed
  · next hopen =>
      obtain ⟨db₁, hmoves, h⟩ := bind_ok_iff.mp h
      obtain ⟨db₂, hdelivery, h⟩ := bind_ok_iff.mp h
      obtain ⟨db₃, hreceipt, hcomponents⟩ := bind_ok_iff.mp h
      right
      exact ⟨p, db₁, db₂, db₃, hp, by simpa using hopen, hmoves, hdelivery, hreceipt, hcomponents⟩

end StockPicking

end CErp
