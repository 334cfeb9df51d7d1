/-
Landed costs: each line of a cost is split over the products a receipt brought
in, raises their value by a revaluation layer and posts an entry for it.

The splitting is done in doubles.  They are a parameter `SplitDouble`; the
program's own are `SplitDouble.native`.
-/
import CErp.StockQuant
import CErp.WarehouseDb

namespace CErp

open Outcome StockQuant

/-- The doubles a cost is split in.  `ofDecimal` reads a column of four
decimals. -/
class SplitDouble (D : Type) where
  ofInt : ℤ → D
  ofDecimal : ℤ → D
  add : D → D → D
  mul : D → D → D
  div : D → D → D
  isPos : D → Bool
  llround : D → ℤ

namespace SplitDouble

/-- The doubles of the program. -/
@[reducible] def native : SplitDouble Float where
  ofInt := Float.ofInt
  ofDecimal w := Float.ofInt w / 10000.0
  add x y := x + y
  mul x y := x * y
  div x y := x / y
  isPos x := 0.0 < x
  llround x := Json.truncFloat x.round

/-- Doubles as long as no operation on them rounds. -/
@[reducible] def exact : SplitDouble ℚ where
  ofInt i := i
  ofDecimal w := w / 10000
  add x y := x + y
  mul x y := x * y
  div x y := x / y
  isPos x := 0 < x
  llround x := Money.divRoundHalfAway x.num x.den

end SplitDouble

namespace LandedCost

variable (D : Type) [SplitDouble D]

/-! ### Splitting a cost -/

/-- What a receipt brought of a product. -/
structure ReceivedProduct where
  id : ℤ
  qty : ℤ
  weight : ℤ
  volume : ℤ
  cost : ℤ
  deriving DecidableEq

/-- The done moves of a transfer into internal locations. -/
def receivedMoves (db : WarehouseDb) (pickingId : ℤ) : List StockMove :=
  (db.moves.rows.map Prod.snd).filter fun m =>
    m.pickingId = some pickingId ∧ m.state = .done ∧ db.stock.isInternal m.locationDestId

/-- The moves by product. -/
def received (db : WarehouseDb) (pickingId : ℤ) : Except String (List ReceivedProduct) :=
  let ms := receivedMoves db pickingId
  let prods := (movedProducts ms).filterMap fun id => (db.stock.products.get? id).map fun p => (id, p)
  prods.mapM fun (id, p) => do
    let qty ← movedQuantity ms id
    return { id := id, qty := qty, weight := p.weight, volume := p.volume, cost := p.standardPrice }

def qtyU (r : ReceivedProduct) : D :=
  SplitDouble.div (SplitDouble.ofInt r.qty) (SplitDouble.ofInt 1000000)

/-- What a product counts in a split. -/
def basis (method : SplitMethod) (r : ReceivedProduct) : D :=
  match method with
  | .byQuantity => qtyU D r
  | .byPrice =>
      SplitDouble.mul (qtyU D r) (SplitDouble.div (SplitDouble.ofInt r.cost) (SplitDouble.ofInt 1000000))
  | .byWeight => SplitDouble.mul (qtyU D r) (SplitDouble.ofDecimal r.weight)
  | .byVolume => SplitDouble.mul (qtyU D r) (SplitDouble.ofDecimal r.volume)
  | .equal => SplitDouble.ofInt 1

/-- Each product's share of a price, rounded. -/
def shares (price : ℤ) (method : SplitMethod) (prods : List ReceivedProduct) : List (ℤ × ℤ) :=
  let totalB := prods.foldl (fun t r => SplitDouble.add t (basis D method r)) (SplitDouble.ofInt 0)
  prods.map fun r =>
    (r.id,
      if SplitDouble.isPos totalB then
        SplitDouble.llround
          (SplitDouble.div (SplitDouble.mul (SplitDouble.ofInt price) (basis D method r)) totalB)
      else 0)

/-- The rounding remainder goes onto the last product. -/
def addToLast (rest : ℤ) : List (ℤ × ℤ) → Except String (List (ℤ × ℤ))
  | [] => .ok []
  | [(id, a)] => do
      let a ← bigint (a + rest)
      return [(id, a)]
  | x :: xs => (addToLast rest xs).map (x :: ·)

/-- The price of a line over the products. -/
def allocate (price : ℤ) (method : SplitMethod) (prods : List ReceivedProduct) :
    Except String (List (ℤ × ℤ)) := do
  let alloc := shares D price method prods
  let distributed ← alloc.foldlM (fun d a => bigint (d + a.2)) 0
  let rest ← bigint (price - distributed)
  addToLast rest alloc

/-- What a line charges the products with: nothing without a price or without
products. -/
def charges (ln : LandedCostLine) (prods : List ReceivedProduct) : Except String (List (ℤ × ℤ)) :=
  if ln.price ≤ 0 ∨ prods = [] then .ok [] else allocate D ln.price ln.splitMethod prods

/-! ### Charging it -/

/-- The accounts and the journal of a company, looked up once. -/
structure Accounts where
  comp : ℤ
  valAcct : ℤ
  dfltCost : ℤ
  journalId : ℤ
  deriving DecidableEq

def accountsOf (db : StockDb) (comp : ℤ) : Accounts where
  comp := comp
  valAcct := acctByCode db comp "1400"
  dfltCost := acctByCode db comp "5200"
  journalId := stockJournal db comp

/-- The account a line is taken from. -/
def costAcct (accts : Accounts) (ln : LandedCostLine) : ℤ := ln.accountId.getD accts.dfltCost

/-- Link a layer to its entry, where there is a layer. -/
def linkLayer (layers : Table Layer) (layerId moveId : ℤ) : Table Layer :=
  if 0 < layerId then layers.modify layerId fun l => { l with accountMoveId := some moveId }
  else layers

/-- The lines of the entry: stock valuation against the cost account. -/
def costLines (accts : Accounts) (amount cost : ℤ) : List MoveLine :=
  let line := stockLine accts.comp "Landed cost"
  [line accts.valAcct amount 0, line cost 0 amount]

def postGl (now : Moment) (accts : Accounts) (db : StockDb) (layerId amount cost : ℤ) :
    Except String StockDb :=
  if amount ≤ 0 ∨ accts.journalId ≤ 0 ∨ accts.valAcct ≤ 0 ∨ cost ≤ 0 then .ok db
  else do
    let account ← db.account.postEntry
      (stockEntry now db.account accts.journalId accts.comp)
      (costLines accts amount cost)
    return { db with
      account := account
      layers := linkLayer db.layers layerId db.account.moves.nextId }

/-- One product's share of a line. -/
def charge (now : Moment) (accts : Accounts) (ln : LandedCostLine) (db : StockDb) (c : ℤ × ℤ) :
    Except String StockDb :=
  if c.2 = 0 then .ok db
  else do
    let (layerId, db) ← revalue db c.1 c.2 ("Landed: " ++ ln.name) accts.comp
    postGl now accts db layerId c.2 (costAcct accts ln)

def chargeLine (now : Moment) (accts : Accounts) (prods : List ReceivedProduct) (db : StockDb)
    (ln : LandedCostLine) : Except String StockDb := do
  let cs ← charges D ln prods
  cs.foldlM (charge now accts ln) db

/-- The company of a landed cost. -/
def companyOf (lc : LandedCost) : ℤ := lc.companyId.getD 1

/-- `handleValidate` on one of its identifiers, in a transaction of its own. -/
def handleValidate (now : Moment) (db : WarehouseDb) (id : ℤ) : Except String WarehouseDb :=
  match db.landedCosts.get? id with
  | none => .ok db
  | some lc =>
      if lc.done then .ok db
      else
        match lc.pickingId with
        | none => .error "Set the receipt this landed cost applies to"
        | some pickingId => do
            let prods ← received db pickingId
            let stock ← lc.lines.foldlM
              (chargeLine D now (accountsOf db.stock (companyOf lc)) prods) db.stock
            return { db with
              stock := stock
              landedCosts := db.landedCosts.modify id fun lc => { lc with done := true } }

/-! ### What charging a product does -/

/-- What posting the entry of a charge comes to: the accounting tables and the
layers. -/
inductive GlPosted (now : Moment) (accts : Accounts) (db : StockDb) (layerId amount cost : ℤ) :
    StockDb → Prop
  | skipped : amount ≤ 0 ∨ accts.journalId ≤ 0 ∨ accts.valAcct ≤ 0 ∨ cost ≤ 0 →
      GlPosted now accts db layerId amount cost db
  | entered {account : AccountDb} : 0 < amount →
      db.account.postEntry (stockEntry now db.account accts.journalId accts.comp)
        (costLines accts amount cost) = .ok account →
      GlPosted now accts db layerId amount cost
        { db with
          account := account
          layers := linkLayer db.layers layerId db.account.moves.nextId }

lemma postGl_ok {now : Moment} {accts : Accounts} {db db' : StockDb} {layerId amount cost : ℤ}
    (h : postGl now accts db layerId amount cost = .ok db') :
    GlPosted now accts db layerId amount cost db' := by
  unfold postGl at h
  split at h
  · next hskip =>
      cases h
      exact .skipped hskip
  · next hposts =>
      obtain ⟨account, hentry, h⟩ := bind_ok_iff.mp h
      cases h
      exact .entered (not_le.mp (not_or.mp hposts).1) hentry

lemma charge_ok {now : Moment} {accts : Accounts} {ln : LandedCostLine} {db db' : StockDb}
    {c : ℤ × ℤ} (h : charge now accts ln db c = .ok db') :
    (c.2 = 0 ∧ db' = db) ∨ ∃ layerId db₁,
      revalue db c.1 c.2 ("Landed: " ++ ln.name) accts.comp = .ok (layerId, db₁) ∧
        GlPosted now accts db₁ layerId c.2 (costAcct accts ln) db' := by
  unfold charge at h
  split at h
  · next hnothing =>
      cases h
      exact .inl ⟨hnothing, rfl⟩
  · obtain ⟨⟨layerId, db₁⟩, hrevalue, h⟩ := bind_ok_iff.mp h
    exact .inr ⟨layerId, db₁, hrevalue, postGl_ok h⟩

variable {D}

/-- **What validating a landed cost does**: nothing, or every line charges its
products in turn and the landed cost is done. -/
theorem handleValidate_ok {now : Moment} {db db' : WarehouseDb} {id : ℤ}
    (h : handleValidate D now db id = .ok db') :
    db' = db ∨ ∃ lc pickingId prods stock, db.landedCosts.get? id = some lc ∧ lc.done = false ∧
      lc.pickingId = some pickingId ∧ received db pickingId = .ok prods ∧
      lc.lines.foldlM (chargeLine D now (accountsOf db.stock (companyOf lc)) prods) db.stock =
        .ok stock ∧
      db' = { db with
        stock := stock
        landedCosts := db.landedCosts.modify id fun lc => { lc with done := true } } := by
  unfold handleValidate at h
  split at h
  · cases h
    exact .inl rfl
  next lc hlc =>
  split at h
  · cases h
    exact .inl rfl
  next hdone =>
  split at h
  · cases h
  next pickingId hpicking =>
  obtain ⟨prods, hprods, h⟩ := bind_ok_iff.mp h
  obtain ⟨stock, hstock, h⟩ := bind_ok_iff.mp h
  cases h
  exact .inr ⟨lc, pickingId, prods, stock, hlc, eq_false_of_ne_true hdone, hpicking, hprods, hstock,
    rfl⟩

end LandedCost

end CErp
