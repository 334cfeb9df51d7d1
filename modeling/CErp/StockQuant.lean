/-
The quant engine: the one place that changes quantities on hand, reservations
and the value of the stock.

`applyMove` writes two quants, the cache on the product and, when one end is an
internal location and the other is not, a valuation layer with its journal
entry.  `applyMove_ok` and `revalue_ok` say everything a success does; the rest
of the development does not look into the functions again.
-/
import CErp.StockDb

namespace CErp

open Outcome Table Option

namespace StockQuant

/-! ### Quants -/

/-- Add to a quant, or create it. -/
def upsertDelta (db : StockDb) (productId locId delta companyId lotId : ℤ) :
    Except String StockDb := do
  require ((db.products.get? productId).isSome ∧ (db.locations.get? locId).isSome)
    AccountDb.foreignKeyViolation
  match db.quants.lookup ⟨productId, locId, lotId⟩ with
  | none =>
      return db.setQuant ⟨productId, locId, lotId⟩
        { quantity := delta, companyId := nullIfZero companyId }
  | some q => do
      let quantity ← bigint (q.quantity + delta)
      return db.setQuant ⟨productId, locId, lotId⟩ { q with quantity := quantity }

def refreshProductOnHand (db : StockDb) (productId : ℤ) : Except String StockDb := do
  let onHand ← bigint (db.onHandInternal productId)
  return db.modifyProduct productId fun p => { p with qtyAvailable := onHand }

def availableAt (db : StockDb) (productId locId lotId : ℤ) : ℤ :=
  match db.quants.lookup ⟨productId, locId, lotId⟩ with
  | none => 0
  | some q => q.quantity - q.reservedQuantity

/-- Reserve what is available, up to a quantity. -/
def reserve (db : StockDb) (productId locId qtyMicros lotId : ℤ) : Except String (ℤ × StockDb) :=
  if qtyMicros ≤ 0 then .ok (0, db)
  else do
    let avail ← bigint (availableAt db productId locId lotId)
    let toReserve := if qtyMicros < avail then qtyMicros else avail
    if toReserve ≤ 0 then return (0, db)
    else
      match db.quants.lookup ⟨productId, locId, lotId⟩ with
      | none => return (toReserve, db)
      | some q => do
          let reserved ← bigint (q.reservedQuantity + toReserve)
          return (toReserve,
            db.setQuant ⟨productId, locId, lotId⟩ { q with reservedQuantity := reserved })

/-- Give a reservation back, down to zero. -/
def release (db : StockDb) (productId locId qtyMicros lotId : ℤ) : Except String StockDb :=
  if qtyMicros ≤ 0 then .ok db
  else
    match db.quants.lookup ⟨productId, locId, lotId⟩ with
    | none => .ok db
    | some q => do
        let left ← bigint (q.reservedQuantity - qtyMicros)
        return { db.setQuant ⟨productId, locId, lotId⟩
            { q with reservedQuantity := max left 0 } with
          floored := db.floored || left < 0 }

/-! ### Journal entries -/

/-- An account or a journal of the category, else the one the company has. -/
def configured (own fallback : ℤ) : ℤ := if own ≤ 0 then fallback else own

def categoryOf (db : StockDb) (productId : ℤ) : Option ProductCategory :=
  match db.products.get? productId with
  | none => none
  | some p =>
      if p.categId.getD 0 ≤ 0 then none else db.categories.get? (p.categId.getD 0)

def catAcct (db : StockDb) (productId : ℤ) (col : ProductCategory → Option ℤ) : ℤ :=
  ((categoryOf db productId).bind col).getD 0

def acctByCode (db : StockDb) (comp : ℤ) (code : String) : ℤ :=
  (db.account.accountOfCode code comp).getD 0

/-- The stock journal of a company. -/
def stockJournal (db : StockDb) (comp : ℤ) : ℤ :=
  ((db.account.journals.rows.find? fun r =>
    r.2.code == "STJ" && r.2.companyId == comp).map Prod.fst).getD 0

def valuationJournal (db : StockDb) (productId comp : ℤ) : ℤ :=
  configured (catAcct db productId (·.stockJournalId)) (stockJournal db comp)

/-- The account a product's stock is valued on. -/
def valuationAccount (db : StockDb) (productId comp : ℤ) : ℤ :=
  configured (catAcct db productId (·.stockValuationAccountId)) (acctByCode db comp "1400")

/-- The account on the other side, by what the virtual location stands for. -/
def counterpartAccount (db : StockDb) (productId comp : ℤ) : Usage → ℤ
  | .supplier => configured (catAcct db productId (·.stockAccountInputId)) (acctByCode db comp "1410")
  | .customer => configured (catAcct db productId (·.stockAccountOutputId)) (acctByCode db comp "5000")
  | .production | .subcontract => acctByCode db comp "1430"
  | .inventory => acctByCode db comp "5100"
  | .internal | .other _ => 0

/-- The company entries are posted in. -/
def entryCompany (companyId : ℤ) : ℤ := if 0 < companyId then companyId else 1

/-- A line of a stock entry. -/
def stockLine (comp : ℤ) (name : String) (accountId debit credit : ℤ) : MoveLine :=
  { accountId := accountId, companyId := some comp, name := name, debit := debit, credit := credit }

/-- A posted entry of the stock journal, linked to its layer. -/
def postStockEntry (now : Moment) (db : StockDb) (layerId journalId comp : ℤ)
    (lines : List MoveLine) : Except String StockDb := do
  let moveId := db.account.moves.nextId
  let account ← db.account.postEntry
    { name := "STJ/" ++ toString moveId
      moveType := .entry
      date := now.currentDate
      journalId := journalId
      companyId := comp } lines
  return { db with account := account }.modifyLayer layerId fun l =>
    { l with accountMoveId := some moveId }

/-- The entry of a layer: the valuation account first, then the counterpart. -/
def postValuationEntry (now : Moment) (db : StockDb) (layerId productId : ℤ)
    (counterpartUsage : Usage) (valueMicros : ℤ) (incoming : Bool) (companyId : ℤ) :
    Except String StockDb :=
  if valueMicros ≤ 0 then .ok db
  else
    let comp := entryCompany companyId
    let journalId := valuationJournal db productId comp
    let valAcct := valuationAccount db productId comp
    let cpAcct := counterpartAccount db productId comp counterpartUsage
    if journalId ≤ 0 ∨ valAcct ≤ 0 ∨ cpAcct ≤ 0 then .ok db
    else
      let line := stockLine comp "Inventory valuation"
      postStockEntry now db layerId journalId comp
        (if incoming then [line valAcct valueMicros 0, line cpAcct 0 valueMicros]
          else [line valAcct 0 valueMicros, line cpAcct valueMicros 0])

/-! ### Valuation -/

/-- What a receipt costs a unit: the input cost, where there is one. -/
def receiptCost (p : Product) (inputCostMicros : ℤ) : ℤ :=
  if 0 ≤ inputCostMicros then inputCostMicros else p.standardPrice

/-- The layer of a receipt. -/
def receiptLayer (productId : ℤ) (p : Product) (usage : Usage) (qtyMicros companyId
    inputCostMicros : ℤ) : Layer :=
  let unitCost := receiptCost p inputCostMicros
  let layerValue := mulMicros qtyMicros unitCost
  { productId := productId
    quantity := qtyMicros
    unitCost := unitCost
    value := layerValue
    remainingQty := if p.costMethod = .fifo then qtyMicros else 0
    remainingValue := if p.costMethod = .fifo then layerValue else 0
    counterpartUsage := usage
    description := "in"
    companyId := nullIfZero companyId }

/-- What a layer gives to an issue. -/
structure Draw where
  take : ℤ
  portion : ℤ
  deriving DecidableEq

/-- The layers in turn, until a quantity is found; and what is not found.  A
portion is part of a 64-bit value, so it needs no narrowing. -/
def consume : List (ℤ × Layer) → ℤ → List (ℤ × Draw) × ℤ
  | [], toConsume => ([], toConsume)
  | (id, l) :: ls, toConsume =>
      if toConsume ≤ 0 then ([], toConsume)
      else
        let take := min l.remainingQty toConsume
        let portion :=
          if 0 < l.remainingQty then (l.remainingValue * take).tdiv l.remainingQty else 0
        let (ds, left) := consume ls (toConsume - take)
        ((id, ⟨take, portion⟩) :: ds, left)

/-- A layer after it gave to an issue. -/
def drawn (d : Draw) (l : Layer) : Layer :=
  { l with remainingQty := l.remainingQty - d.take, remainingValue := l.remainingValue - d.portion }

/-- The layers of a product that have units left, oldest first. -/
def openLayers (db : StockDb) (productId : ℤ) : List (ℤ × Layer) :=
  db.layers.rows.filter fun r => r.2.productId = productId ∧ 0 < r.2.remainingQty

/-- The value that goes out: what the layers gave, and a shortfall at standard. -/
def withShortfall (p : Product) (portions left : ℤ) : Except String ℤ :=
  if 0 < left then bigint (portions + mulMicros left p.standardPrice) else .ok portions

/-- The value an issue takes out, and the layers afterwards. -/
def issueValue (db : StockDb) (productId : ℤ) (p : Product) (qtyMicros : ℤ) :
    Except String (ℤ × Table Layer) :=
  if p.costMethod = .fifo then do
    let (ds, left) := consume (openLayers db productId) qtyMicros
    let portions ← ds.foldlM (fun v d => bigint (v + d.2.portion)) 0
    let outValue ← withShortfall p portions left
    return (outValue, db.layers.modifyAll drawn ds)
  else return (mulMicros qtyMicros p.standardPrice, db.layers)

/-- The layer of an issue. -/
def issueLayer (productId : ℤ) (usage : Usage) (qtyMicros companyId outValue : ℤ) : Layer :=
  { productId := productId
    quantity := -qtyMicros
    unitCost := divMicros outValue qtyMicros
    value := -outValue
    counterpartUsage := usage
    description := "out"
    companyId := nullIfZero companyId }

def receive (now : Moment) (db : StockDb) (productId : ℤ) (p : Product) (usage : Usage)
    (qtyMicros companyId inputCostMicros : ℤ) : Except String StockDb := do
  let layer := receiptLayer productId p usage qtyMicros companyId inputCostMicros
  let newQ ← bigint (p.quantitySvl + qtyMicros)
  let newV ← bigint (p.valueSvl + layer.value)
  let layerId := db.layers.nextId
  let db := (db.insertLayer layer).modifyProduct productId fun p =>
    { p with
      quantitySvl := newQ
      valueSvl := newV
      standardPrice :=
        if p.costMethod = .average ∧ 0 < newQ then divMicros newV newQ else p.standardPrice }
  postValuationEntry now db layerId productId usage layer.value true companyId

def issue (now : Moment) (db : StockDb) (productId : ℤ) (p : Product) (usage : Usage)
    (qtyMicros companyId : ℤ) : Except String StockDb := do
  let (outValue, layers) ← issueValue db productId p qtyMicros
  let newQ ← bigint (p.quantitySvl - qtyMicros)
  let newV ← bigint (p.valueSvl - outValue)
  let _ ← bigint (-outValue)
  let layerId := layers.nextId
  let layer := issueLayer productId usage qtyMicros companyId outValue
  let db := ({ db with layers := layers }.insertLayer layer).modifyProduct productId fun p =>
    { p with quantitySvl := newQ, valueSvl := newV }
  postValuationEntry now db layerId productId usage outValue false companyId

def valuateMove (now : Moment) (db : StockDb) (productId srcLocId destLocId qtyMicros companyId
    inputCostMicros : ℤ) : Except String StockDb :=
  if qtyMicros ≤ 0 then .ok db
  else if db.isInternal srcLocId = db.isInternal destLocId then .ok db
  else
    match db.products.get? productId with
    | none => .ok db
    | some p =>
        if db.isInternal destLocId then
          receive now db productId p (db.usageOf srcLocId) qtyMicros companyId inputCostMicros
        else issue now db productId p (db.usageOf destLocId) qtyMicros companyId

/-- `StockQuant::applyMove`. -/
def applyMove (now : Moment) (db : StockDb) (productId srcLocId destLocId qtyMicros companyId
    inputCostMicros lotId : ℤ) : Except String StockDb :=
  if qtyMicros = 0 ∨ srcLocId = destLocId then .ok db
  else do
    let db ← upsertDelta db productId srcLocId (-qtyMicros) companyId lotId
    let db ← upsertDelta db productId destLocId qtyMicros companyId lotId
    let db ← refreshProductOnHand db productId
    valuateMove now db productId srcLocId destLocId qtyMicros companyId inputCostMicros

/-! ### Revaluation -/

/-- A value over the open layers by their quantities, each share truncated; the
last one takes the rounding remainder. -/
def revalueShares (valueMicros totRem : ℤ) : List (ℤ × Layer) → ℤ → List (ℤ × ℤ)
  | [], _ => []
  | [(id, l)], distributed =>
      let share := (valueMicros * l.remainingQty).tdiv totRem
      [(id, share + (valueMicros - (distributed + share)))]
  | (id, l) :: ls, distributed =>
      let share := (valueMicros * l.remainingQty).tdiv totRem
      (id, share) :: revalueShares valueMicros totRem ls (distributed + share)

def addValues (layers : Table Layer) (adds : List (ℤ × ℤ)) : Except String (Table Layer) :=
  adds.foldlM (fun layers a =>
    match layers.get? a.1 with
    | none => .ok layers
    | some l => do
        let v ← bigint (l.remainingValue + a.2)
        return layers.modify a.1 fun l => { l with remainingValue := v }) layers

/-- The quantity the open layers have left. -/
def remainingTotal (db : StockDb) (productId : ℤ) : ℤ :=
  ((openLayers db productId).map fun r => r.2.remainingQty).sum

/-- The layer of a revaluation. -/
def revaluationLayer (productId valueMicros : ℤ) (description : String) (companyId : ℤ) : Layer where
  productId := productId
  value := valueMicros
  counterpartUsage := .other "revaluation"
  description := description
  companyId := nullIfZero companyId

/-- FIFO: the added value goes onto the layers that have units left. -/
def revalueLayers (db : StockDb) (productId valueMicros : ℤ) (p : Product) :
    Except String (Table Layer) :=
  if p.costMethod = .fifo ∧ 0 < remainingTotal db productId then
    addValues db.layers
      (revalueShares valueMicros (remainingTotal db productId) (openLayers db productId) 0)
  else .ok db.layers

/-- `StockQuant::revalue`; the layer's identifier, 0 when there is none. -/
def revalue (db : StockDb) (productId valueMicros : ℤ) (description : String) (companyId : ℤ) :
    Except String (ℤ × StockDb) :=
  if valueMicros = 0 then .ok (0, db)
  else
    match db.products.get? productId with
    | none => .ok (0, db)
    | some p => do
        let newV ← bigint (p.valueSvl + valueMicros)
        let layerId := db.layers.nextId
        let db := (db.insertLayer
            (revaluationLayer productId valueMicros description companyId)).modifyProduct productId
          fun p =>
            { p with
              valueSvl := newV
              standardPrice :=
                if p.costMethod = .average ∧ 0 < p.quantitySvl then divMicros newV p.quantitySvl
                else p.standardPrice }
        let layers ← revalueLayers db productId valueMicros p
        return (layerId, { db with layers := layers })

/-! ### What the statements do -/

/-- The quants after adding to one. -/
def addQuantity (quants : AList fun _ : QuantKey => Quant) (k : QuantKey) (delta companyId : ℤ) :
    AList fun _ : QuantKey => Quant :=
  match quants.lookup k with
  | none => quants.insert k { quantity := delta, companyId := nullIfZero companyId }
  | some q => quants.insert k { q with quantity := q.quantity + delta }

lemma addQuantity_new {quants : AList fun _ : QuantKey => Quant} {k : QuantKey}
    (h : quants.lookup k = none) (delta companyId : ℤ) : addQuantity quants k delta companyId =
      quants.insert k { quantity := delta, companyId := nullIfZero companyId } := by
  rw [addQuantity, h]

lemma addQuantity_old {quants : AList fun _ : QuantKey => Quant} {k : QuantKey} {q : Quant}
    (h : quants.lookup k = some q) (delta companyId : ℤ) : addQuantity quants k delta companyId =
      quants.insert k { q with quantity := q.quantity + delta } := by
  rw [addQuantity, h]

variable {companyId productId : ℤ} {db db' : StockDb}

variable {lotId : ℤ}

lemma upsertDelta_ok {locId delta : ℤ}
    (h : upsertDelta db productId locId delta companyId lotId = .ok db') :
    (∃ p, db.products.get? productId = some p) ∧ db' = { db with
        quants := addQuantity db.quants ⟨productId, locId, lotId⟩ delta companyId } := by
  obtain ⟨_, hkeys, h⟩ := bind_ok_iff.mp h
  refine ⟨isSome_iff_exists.mp (require_ok_iff.mp hkeys).1, ?_⟩
  rcases hlook : db.quants.lookup ⟨productId, locId, lotId⟩ with - | q
  · rw [addQuantity_new hlook]
    rw [hlook] at h
    cases h
    rfl
  · rw [addQuantity_old hlook]
    rw [hlook] at h
    obtain ⟨quantity, hq, h⟩ := bind_ok_iff.mp h
    cases h
    rw [bigint_ok hq]
    rfl

lemma refreshProductOnHand_ok (h : refreshProductOnHand db productId = .ok db') :
    db' = db.modifyProduct productId fun p =>
      { p with qtyAvailable := db.onHandInternal productId } := by
  obtain ⟨onHand, hsum, h⟩ := bind_ok_iff.mp h
  cases h
  rw [bigint_ok hsum]

/-- The lines of a valuation entry. -/
def valuationLines (comp valAcct cpAcct valueMicros : ℤ) (incoming : Bool) : List MoveLine :=
  let line := stockLine comp "Inventory valuation"
  if incoming then [line valAcct valueMicros 0, line cpAcct 0 valueMicros]
  else [line valAcct 0 valueMicros, line cpAcct valueMicros 0]

/-- An entry of the stock journal without its lines. -/
def stockEntry (now : Moment) (account : AccountDb) (journalId comp : ℤ) : Move where
  name := "STJ/" ++ toString account.moves.nextId
  moveType := .entry
  date := now.currentDate
  journalId := journalId
  companyId := comp

/-- What posting the entry of a layer comes to: the entry the layer is linked
to, if any, and the accounting tables. -/
inductive Posted (now : Moment) (db : StockDb) (productId : ℤ) (usage : Usage) (valueMicros : ℤ)
    (incoming : Bool) (companyId : ℤ) : Option ℤ → AccountDb → Prop
  | worthless : valueMicros ≤ 0 →
      Posted now db productId usage valueMicros incoming companyId none db.account
  | unconfigured : valuationJournal db productId (entryCompany companyId) ≤ 0 ∨
        valuationAccount db productId (entryCompany companyId) ≤ 0 ∨
        counterpartAccount db productId (entryCompany companyId) usage ≤ 0 →
      Posted now db productId usage valueMicros incoming companyId none db.account
  | entered {account : AccountDb} : 0 < valueMicros → db.account.postEntry
        (stockEntry now db.account (valuationJournal db productId (entryCompany companyId))
          (entryCompany companyId))
        (valuationLines (entryCompany companyId)
          (valuationAccount db productId (entryCompany companyId))
          (counterpartAccount db productId (entryCompany companyId) usage) valueMicros incoming) =
        .ok account →
      Posted now db productId usage valueMicros incoming companyId
        (some db.account.moves.nextId) account

/-- Posting the entry of the layer that was inserted last. -/
lemma postValuationEntry_ok {now : Moment} {db db' : StockDb} {base : Table Layer} {l : Layer}
    {productId valueMicros companyId : ℤ} {usage : Usage} {incoming : Bool}
    (hlayers : db.layers = base.insert l) (hl : l.accountMoveId = none)
    (h : postValuationEntry now db base.nextId productId usage valueMicros incoming companyId =
      .ok db') :
    ∃ link account, Posted now db productId usage valueMicros incoming companyId link account ∧
      db' = { db with
        account := account
        layers := base.insert { l with accountMoveId := link } } := by
  have hnone : db = { db with layers := base.insert { l with accountMoveId := none } } := by
    rw [← hl, ← hlayers]
  unfold postValuationEntry at h
  split at h
  · next hvalue =>
      cases h
      exact ⟨none, db.account, .worthless hvalue, hnone⟩
  next hvalue =>
  dsimp only at h
  split at h
  · next hskip =>
      cases h
      exact ⟨none, db.account, .unconfigured hskip, hnone⟩
  · obtain ⟨account, hentry, h⟩ := bind_ok_iff.mp h
    cases h
    refine ⟨_, account, .entered (not_le.mp hvalue) hentry, ?_⟩
    show { db with account := account, layers := db.layers.modify base.nextId _ } = _
    rw [hlayers, modify_insert]

/-- The product after a receipt. -/
def received (qtyMicros layerValue : ℤ) (p : Product) : Product :=
  let newQ := p.quantitySvl + qtyMicros
  let newV := p.valueSvl + layerValue
  { p with
    quantitySvl := newQ
    valueSvl := newV
    standardPrice :=
      if p.costMethod = .average ∧ 0 < newQ then divMicros newV newQ else p.standardPrice }

/-- The product after an issue. -/
def issued (qtyMicros outValue : ℤ) (p : Product) : Product :=
  { p with quantitySvl := p.quantitySvl - qtyMicros, valueSvl := p.valueSvl - outValue }

/-- What valuing a move comes to. -/
inductive Valued (now : Moment) (db : StockDb) (productId src dest qtyMicros companyId
    inputCostMicros : ℤ) : StockDb → Prop
  | unchanged : (qtyMicros ≤ 0 ∨ db.isInternal src = db.isInternal dest ∨
        db.products.get? productId = none) →
      Valued now db productId src dest qtyMicros companyId inputCostMicros db
  | receipt {p : Product} {link : Option ℤ} {account : AccountDb} :
      0 < qtyMicros → db.isInternal src = false → db.isInternal dest = true →
      db.products.get? productId = some p →
      FitsInt64 (p.valueSvl + mulMicros qtyMicros (receiptCost p inputCostMicros)) →
      Posted now db productId (db.usageOf src)
        (mulMicros qtyMicros (receiptCost p inputCostMicros)) true companyId link account →
      Valued now db productId src dest qtyMicros companyId inputCostMicros
        { db with
          account := account
          products := db.products.modify productId
            (received qtyMicros (mulMicros qtyMicros (receiptCost p inputCostMicros)))
          layers := db.layers.insert
            { receiptLayer productId p (db.usageOf src) qtyMicros companyId inputCostMicros with
              accountMoveId := link } }
  | issue {p : Product} {outValue : ℤ} {layers : Table Layer} {link : Option ℤ}
      {account : AccountDb} :
      0 < qtyMicros → db.isInternal src = true → db.isInternal dest = false →
      db.products.get? productId = some p →
      issueValue db productId p qtyMicros = .ok (outValue, layers) →
      FitsInt64 (p.valueSvl - outValue) →
      Posted now db productId (db.usageOf dest) outValue false companyId link account →
      Valued now db productId src dest qtyMicros companyId inputCostMicros
        { db with
          account := account
          products := db.products.modify productId (issued qtyMicros outValue)
          layers := layers.insert
            { issueLayer productId (db.usageOf dest) qtyMicros companyId outValue with
              accountMoveId := link } }

/-- The accounts an entry is posted on do not depend on quantities and values. -/
lemma categoryOf_congr {db db' : StockDb} {productId : ℤ}
    (hcategories : db'.categories = db.categories)
    (hproducts : (db'.products.get? productId).map (·.categId) =
      (db.products.get? productId).map (·.categId)) :
    categoryOf db' productId = categoryOf db productId := by
  unfold categoryOf
  rw [hcategories]
  rcases hp : db.products.get? productId with - | p
  · rw [hp, map_none, map_eq_none_iff] at hproducts
    rw [hproducts]
  · rw [hp] at hproducts
    obtain ⟨p', hp', hcateg⟩ := map_eq_some_iff.mp hproducts
    rw [hp']
    dsimp only
    rw [hcateg]

lemma Posted.congr {now : Moment} {db db' : StockDb} {productId valueMicros companyId : ℤ}
    {usage : Usage} {incoming : Bool} {link : Option ℤ} {account : AccountDb}
    (haccount : db'.account = db.account)
    (hcategory : categoryOf db' productId = categoryOf db productId)
    (h : Posted now db' productId usage valueMicros incoming companyId link account) :
    Posted now db productId usage valueMicros incoming companyId link account := by
  have hcol : catAcct db' productId = catAcct db productId := by
    funext col
    rw [catAcct, hcategory]
    rfl
  have hcode : acctByCode db' = acctByCode db := by
    funext comp code
    rw [acctByCode, haccount]
    rfl
  have hjournal : valuationJournal db' productId = valuationJournal db productId := by
    funext comp
    rw [valuationJournal, hcol, stockJournal, haccount]
    rfl
  have hvaluation : valuationAccount db' productId = valuationAccount db productId := by
    funext comp
    rw [valuationAccount, hcol, hcode]
    rfl
  have hcounter : counterpartAccount db' productId = counterpartAccount db productId := by
    funext comp usage
    cases usage <;> simp only [counterpartAccount, hcol, hcode]
  cases h with
  | worthless hvalue =>
      rw [haccount]
      exact .worthless hvalue
  | unconfigured hskip =>
      rw [haccount]
      rw [hjournal, hvaluation, hcounter] at hskip
      exact .unconfigured hskip
  | entered hvalue hentry =>
      rw [haccount] at hentry ⊢
      rw [hjournal, hvaluation, hcounter] at hentry
      exact .entered hvalue hentry

variable {inputCostMicros qtyMicros : ℤ}

variable {now : Moment}

lemma receive_ok {p : Product} {usage : Usage} (hp : db.products.get? productId = some p)
    (h : receive now db productId p usage qtyMicros companyId inputCostMicros = .ok db') :
    FitsInt64 (p.valueSvl + mulMicros qtyMicros (receiptCost p inputCostMicros)) ∧ ∃ link account,
      Posted now db productId usage (mulMicros qtyMicros (receiptCost p inputCostMicros)) true
        companyId link account ∧
      db' = { db with
        account := account
        products := db.products.modify productId
          (received qtyMicros (mulMicros qtyMicros (receiptCost p inputCostMicros)))
        layers := db.layers.insert
          { receiptLayer productId p usage qtyMicros companyId inputCostMicros with
            accountMoveId := link } } := by
  obtain ⟨newQ, hq, h⟩ := bind_ok_iff.mp h
  obtain ⟨newV, hv, h⟩ := bind_ok_iff.mp h
  obtain ⟨link, account, hposted, rfl⟩ := @postValuationEntry_ok _ _ _ db.layers _ _ _ _ _ _ rfl rfl h
  refine ⟨(bigint_ok_iff.mp hv).1, link, account, Posted.congr ?_ (categoryOf_congr ?_ ?_) hposted, ?_⟩
  · rfl
  · rfl
  · show ((db.products.modify productId _).get? productId).map _ = _
    rw [get?_modify_self, map_map]
    rfl
  · have hproducts : db.products.modify productId (fun p => { p with
          quantitySvl := newQ
          valueSvl := newV
          standardPrice :=
            if p.costMethod = .average ∧ 0 < newQ then divMicros newV newQ else p.standardPrice }) =
        db.products.modify productId
          (received qtyMicros (mulMicros qtyMicros (receiptCost p inputCostMicros))) := by
      apply modify_congr hp
      rw [bigint_ok hq, bigint_ok hv]
      rfl
    show { db with account := account, products := _, layers := _ } = _
    rw [← hproducts]
    rfl

lemma issue_ok {p : Product} {usage : Usage} (hp : db.products.get? productId = some p)
    (h : issue now db productId p usage qtyMicros companyId = .ok db') :
    ∃ outValue layers link account, issueValue db productId p qtyMicros = .ok (outValue, layers) ∧
      FitsInt64 (p.valueSvl - outValue) ∧
      Posted now db productId usage outValue false companyId link account ∧
      db' = { db with
        account := account
        products := db.products.modify productId (issued qtyMicros outValue)
        layers := layers.insert
          { issueLayer productId usage qtyMicros companyId outValue with accountMoveId := link } } := by
  obtain ⟨⟨outValue, layers⟩, hissue, h⟩ := bind_ok_iff.mp h
  obtain ⟨newQ, hq, h⟩ := bind_ok_iff.mp h
  obtain ⟨newV, hv, h⟩ := bind_ok_iff.mp h
  obtain ⟨_, -, h⟩ := bind_ok_iff.mp h
  obtain ⟨link, account, hposted, rfl⟩ := @postValuationEntry_ok _ _ _ layers _ _ _ _ _ _ rfl rfl h
  refine ⟨outValue, layers, link, account, hissue, (bigint_ok_iff.mp hv).1,
    Posted.congr ?_ (categoryOf_congr ?_ ?_) hposted, ?_⟩
  · rfl
  · rfl
  · show ((db.products.modify productId _).get? productId).map _ = _
    rw [get?_modify_self, map_map]
    rfl
  · have hproducts : db.products.modify productId
          (fun p => { p with quantitySvl := newQ, valueSvl := newV }) =
        db.products.modify productId (issued qtyMicros outValue) := by
      apply modify_congr hp
      rw [bigint_ok hq, bigint_ok hv]
      rfl
    show { db with account := account, products := _, layers := _ } = _
    rw [← hproducts]
    rfl

lemma valuateMove_ok {src dest : ℤ}
    (h : valuateMove now db productId src dest qtyMicros companyId inputCostMicros = .ok db') :
    Valued now db productId src dest qtyMicros companyId inputCostMicros db' := by
  unfold valuateMove at h
  split at h
  · next hqty =>
      cases h
      exact .unchanged (.inl hqty)
  next hqty =>
  split at h
  · next hside =>
      cases h
      exact .unchanged (.inr (.inl hside))
  next hside =>
  split at h
  · next hp =>
      cases h
      exact .unchanged (.inr (.inr hp))
  next p hp =>
  split at h
  · next hdest =>
      have hsrc : db.isInternal src = false := by
        rw [hdest] at hside
        exact eq_false_of_ne_true hside
      obtain ⟨hfits, link, account, hposted, rfl⟩ := receive_ok hp h
      exact .receipt (not_le.mp hqty) hsrc hdest hp hfits hposted
  · next hdest =>
      have hdest : db.isInternal dest = false := eq_false_of_ne_true hdest
      have hsrc : db.isInternal src = true := by
        rw [hdest] at hside
        exact eq_true_of_ne_false hside
      obtain ⟨outValue, layers, link, account, hissue, hfits, hposted, rfl⟩ := issue_ok hp h
      exact .issue (not_le.mp hqty) hsrc hdest hp hissue hfits hposted

/-- The quants and the quantity on hand after a move. -/
def moved (db : StockDb) (productId src dest qtyMicros companyId lotId : ℤ) : StockDb :=
  let db := { db with
    quants := addQuantity
      (addQuantity db.quants ⟨productId, src, lotId⟩ (-qtyMicros) companyId)
      ⟨productId, dest, lotId⟩ qtyMicros companyId }
  db.modifyProduct productId fun p => { p with qtyAvailable := db.onHandInternal productId }

/-- **What a move does**: nothing, or two quants, the quantity on hand and the
valuation. -/
theorem applyMove_ok {src dest : ℤ}
    (h : applyMove now db productId src dest qtyMicros companyId inputCostMicros lotId = .ok db') :
    ((qtyMicros = 0 ∨ src = dest) ∧ db' = db) ∨
      (qtyMicros ≠ 0 ∧ src ≠ dest ∧ (∃ p, db.products.get? productId = some p) ∧
        Valued now (moved db productId src dest qtyMicros companyId lotId) productId src dest
          qtyMicros companyId inputCostMicros db') := by
  unfold applyMove at h
  split at h
  · next hnothing =>
      cases h
      exact .inl ⟨hnothing, rfl⟩
  · next hmoves =>
      obtain ⟨hqty, hplace⟩ := not_or.mp hmoves
      obtain ⟨db₁, hout, h₁⟩ := bind_ok_iff.mp h
      obtain ⟨db₂, hin, h₂⟩ := bind_ok_iff.mp h₁
      obtain ⟨db₃, hrefresh, h₃⟩ := bind_ok_iff.mp h₂
      obtain ⟨hp, rfl⟩ := upsertDelta_ok hout
      obtain ⟨-, rfl⟩ := upsertDelta_ok hin
      rw [refreshProductOnHand_ok hrefresh] at h₃
      exact .inr ⟨hqty, hplace, hp, valuateMove_ok h₃⟩

/-! ### What reservations and revaluations do -/

/-- What is reserved of a quant. -/
def reservedAt (quants : AList fun _ : QuantKey => Quant) (k : QuantKey) : ℤ :=
  match quants.lookup k with
  | none => 0
  | some q => q.reservedQuantity

lemma reserve_ok {locId got : ℤ}
    (h : reserve db productId locId qtyMicros lotId = .ok (got, db')) :
    (got = 0 ∧ db' = db) ∨
      ∃ q, db.quants.lookup ⟨productId, locId, lotId⟩ = some q ∧ 0 < got ∧ got ≤ qtyMicros ∧
        db' = db.setQuant ⟨productId, locId, lotId⟩
          { q with reservedQuantity := q.reservedQuantity + got } := by
  unfold reserve at h
  split at h
  · cases h
    exact .inl ⟨rfl, rfl⟩
  obtain ⟨avail, havail, h⟩ := bind_ok_iff.mp h
  have havail := bigint_ok havail
  dsimp only at h
  generalize hmin : (if qtyMicros < avail then qtyMicros else avail) = toReserve at h
  have hle : toReserve ≤ qtyMicros ∧ toReserve ≤ avail := by
    rw [← hmin]
    split <;> omega
  split at h
  · cases h
    exact .inl ⟨rfl, rfl⟩
  next hpos =>
  rcases hlook : db.quants.lookup ⟨productId, locId, lotId⟩ with - | q
  · -- nothing is available where there is no quant
    rw [availableAt, hlook] at havail
    dsimp only at havail
    omega
  · rw [hlook] at h
    obtain ⟨reserved, hres, h⟩ := bind_ok_iff.mp h
    rw [bigint_ok hres] at h
    cases h
    exact .inr ⟨q, hlook, not_le.mp hpos, hle.1, rfl⟩

lemma release_ok {locId : ℤ} (h : release db productId locId qtyMicros lotId = .ok db') :
    ((qtyMicros ≤ 0 ∨ db.quants.lookup ⟨productId, locId, lotId⟩ = none) ∧ db' = db) ∨
      ∃ q, db.quants.lookup ⟨productId, locId, lotId⟩ = some q ∧ 0 < qtyMicros ∧
        db' = { db.setQuant ⟨productId, locId, lotId⟩
            { q with reservedQuantity := max (q.reservedQuantity - qtyMicros) 0 } with
          floored := db.floored || q.reservedQuantity - qtyMicros < 0 } := by
  unfold release at h
  split at h
  · next hqty =>
      cases h
      exact .inl ⟨.inl hqty, rfl⟩
  next hqty =>
  rcases hlook : db.quants.lookup ⟨productId, locId, lotId⟩ with - | q
  · rw [hlook] at h
    cases h
    exact .inl ⟨.inr hlook, rfl⟩
  · rw [hlook] at h
    obtain ⟨left, hleft, h⟩ := bind_ok_iff.mp h
    rw [bigint_ok hleft] at h
    cases h
    exact .inr ⟨q, hlook, not_le.mp hqty, rfl⟩

/-- The product after a revaluation. -/
def revalued (valueMicros : ℤ) (p : Product) : Product :=
  let newV := p.valueSvl + valueMicros
  { p with
    valueSvl := newV
    standardPrice :=
      if p.costMethod = .average ∧ 0 < p.quantitySvl then divMicros newV p.quantitySvl
      else p.standardPrice }

/-- A layer with nothing left is not open. -/
lemma openLayers_insert {db : StockDb} {l : Layer} (hl : l.remainingQty = 0) (productId : ℤ) :
    openLayers (db.insertLayer l) productId = openLayers db productId := by
  show (db.layers.rows ++ [_]).filter _ = db.layers.rows.filter _
  rw [List.filter_append]
  simp [hl]

/-- **What a revaluation does**: nothing, or a layer without a quantity, the
product's value and, for a FIFO product, the values of its open layers. -/
theorem revalue_ok {valueMicros layerId : ℤ} {description : String}
    (h : revalue db productId valueMicros description companyId = .ok (layerId, db')) :
    ((valueMicros = 0 ∨ db.products.get? productId = none) ∧ layerId = 0 ∧ db' = db) ∨
      ∃ p layers, valueMicros ≠ 0 ∧ db.products.get? productId = some p ∧
        layerId = db.layers.nextId ∧
        revalueLayers
          (db.insertLayer (revaluationLayer productId valueMicros description companyId)) productId
          valueMicros p = .ok layers ∧
        db' = { db with
          products := db.products.modify productId (revalued valueMicros)
          layers := layers } := by
  unfold revalue at h
  split at h
  · next hvalue =>
      cases h
      exact .inl ⟨.inl hvalue, rfl, rfl⟩
  next hvalue =>
  split at h
  · next hp =>
      cases h
      exact .inl ⟨.inr hp, rfl, rfl⟩
  next p hp =>
  obtain ⟨newV, hv, h⟩ := bind_ok_iff.mp h
  obtain ⟨layers, hlayers, h⟩ := bind_ok_iff.mp h
  cases h
  refine .inr ⟨p, layers, hvalue, hp, rfl, hlayers, ?_⟩
  have hproducts : db.products.modify productId (fun p => { p with
        valueSvl := newV
        standardPrice :=
          if p.costMethod = .average ∧ 0 < p.quantitySvl then divMicros newV p.quantitySvl
          else p.standardPrice }) =
      db.products.modify productId (revalued valueMicros) := by
    apply modify_congr hp
    rw [bigint_ok hv]
    rfl
  rw [← hproducts]
  rfl

end StockQuant

end CErp
