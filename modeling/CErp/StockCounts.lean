/-
Inventory counts: `set_on_hand` sets what is on hand of a product at a location
to a counted value, by a move to or from the adjustments location.

The count is of everything the location has of the product; the query reads one
quant, whichever lot the database finds first, and the move changes the untracked
stock.  `count_sets_iff` says when the two come to the same.
-/
import CErp.BomRows
import CErp.StockLedger

namespace CErp

open Outcome

namespace StockCounts

open StockQuant

/-! ### The handler -/

/-- The inventory adjustments location the module is seeded with. -/
def kInventoryLoc : ℤ := 7

def parseM2o (j : Json) (key : String) : ℤ := BomImport.jint j key 0

/-- A request of `set_on_hand`; the count is in micro-units. -/
structure Count where
  productId : ℤ
  locationId : ℤ
  newQ : ℤ
  deriving DecidableEq

/-- `llround` of micro-units. -/
def countedMicros (x : Float) : ℤ := Json.truncFloat (x * 1000000.0).round

/-- The counted quantity of a request, 0 where there is no number. -/
def countedIn (v : Json) : ℤ :=
  match v.find? "quantity" with
  | some (.num i) => countedMicros (Float.ofInt i)
  | some (.float x) => countedMicros x
  | _ => countedMicros 0.0

def countOf (v : Json) : Except String Count :=
  if !v.isObject then .error "set_on_hand: args[0] must be a dict"
  else if parseM2o v "product_id" ≤ 0 ∨ parseM2o v "location_id" ≤ 0 then
    .error "set_on_hand: product_id and location_id are required"
  else .ok ⟨parseM2o v "product_id", parseM2o v "location_id", countedIn v⟩

/-- The first row of the quants of a product at a location, in whatever order the
database returns them. -/
def ReadsFirst (db : StockDb) (n : Count) : Option Quant → Prop
  | none => ∀ lot, db.quants.lookup ⟨n.productId, n.locationId, lot⟩ = none
  | some q => ∃ lot, db.quants.lookup ⟨n.productId, n.locationId, lot⟩ = some q

def curQ (cur : Option Quant) : ℤ :=
  match cur with
  | none => 0
  | some q => q.quantity

/-- Book the difference between the count and the row that was read. -/
def setOnHand (now : Moment) (db : StockDb) (n : Count) (cur : Option Quant) :
    Except String StockDb :=
  let comp := (cur.bind (·.companyId)).getD 0
  let delta := n.newQ - curQ cur
  if 0 < delta then applyMove now db n.productId kInventoryLoc n.locationId delta comp (-1) 0
  else if delta < 0 then
    applyMove now db n.productId n.locationId kInventoryLoc (-delta) comp (-1) 0
  else .ok db

def handleSetOnHand (now : Moment) (db : StockDb) (v : Json) (cur : Option Quant) :
    Except String (StockDb × Json) := do
  let n ← countOf v
  let db ← setOnHand now db n cur
  return (db, .obj [("location_id", .num n.locationId), ("product_id", .num n.productId),
    ("quantity", .float (Money.toJson { micros := n.newQ }))])

/-! ### What is on hand -/

/-- On hand of a product at a location, over all lots. -/
def onHandAt (db : StockDb) (productId locationId : ℤ) : ℤ :=
  quantitySum db.quants fun k => k.productId = productId ∧ k.locationId = locationId

/-- The location has what was counted, and no other internal location changed. -/
structure Sets (db db' : StockDb) (n : Count) : Prop where
  counted : onHandAt db' n.productId n.locationId = n.newQ
  others : ∀ loc, loc ≠ n.locationId → db.isInternal loc = true →
    onHandAt db' n.productId loc = onHandAt db n.productId loc

section Moves

variable {now : Moment} {db db' : StockDb} {productId src dest qtyMicros companyId inputCostMicros
  lotId : ℤ}

/-- A move takes from one location and brings to the other. -/
lemma onHandAt_applyMove
    (h : applyMove now db productId src dest qtyMicros companyId inputCostMicros lotId = .ok db')
    (loc : ℤ) : onHandAt db' productId loc = onHandAt db productId loc +
      ((if dest = loc then qtyMicros else 0) - if src = loc then qtyMicros else 0) := by
  rcases applyMove_ok h with ⟨hnothing, rfl⟩ | ⟨-, -, -, hvalued⟩
  · rcases hnothing with hzero | hsame
    · rw [hzero, ite_self, ite_self]
      ring
    · rw [hsame]
      ring
  · unfold onHandAt
    rw [(Valued.quants_eq hvalued).1]
    show quantitySum (addQuantity (addQuantity db.quants _ _ _) _ _ _) _ = _
    rw [quantitySum_addQuantity, quantitySum_addQuantity]
    simp only [true_and]
    split <;> split <;> ring

end Moves

/-- What a count books at each location. -/
lemma onHandAt_setOnHand {now : Moment} {db db' : StockDb} {n : Count} {cur : Option Quant}
    (h : setOnHand now db n cur = .ok db') (loc : ℤ) :
    onHandAt db' n.productId loc = onHandAt db n.productId loc +
      ((if n.locationId = loc then n.newQ - curQ cur else 0) -
        if kInventoryLoc = loc then n.newQ - curQ cur else 0) := by
  unfold setOnHand at h
  dsimp only at h
  split at h
  · exact onHandAt_applyMove h loc
  · split at h
    · rw [onHandAt_applyMove h loc]
      split <;> split <;> ring
    · cases h
      have hzero : n.newQ - curQ cur = 0 := by omega
      rw [hzero, ite_self, ite_self]
      ring

/-- **When a count sets the stock.**  Away from the adjustments location, when the
quants it did not read add up to nothing and no internal location is taken for
the adjustments; at that location, when it was right already. -/
theorem count_sets_iff {now : Moment} {db db' : StockDb} {n : Count} {cur : Option Quant}
    (h : setOnHand now db n cur = .ok db') :
    Sets db db' n ↔
      (n.locationId ≠ kInventoryLoc → onHandAt db n.productId n.locationId = curQ cur ∧
        (db.isInternal kInventoryLoc = true → n.newQ = curQ cur)) ∧
      (n.locationId = kInventoryLoc → onHandAt db n.productId n.locationId = n.newQ) := by
  have hat := onHandAt_setOnHand h
  have hown := hat n.locationId
  rw [if_pos rfl] at hown
  by_cases hplace : n.locationId = kInventoryLoc
  · rw [if_pos hplace.symm] at hown
    constructor
    · intro hsets
      have hcounted := hsets.counted
      exact ⟨fun hne => absurd hplace hne, fun _ => by omega⟩
    · rintro ⟨-, hright⟩
      have hright := hright hplace
      refine ⟨by omega, ?_⟩
      intro loc hloc _
      rw [hat loc, if_neg (Ne.symm hloc), if_neg (hplace ▸ Ne.symm hloc)]
      ring
  · rw [if_neg (Ne.symm hplace)] at hown
    constructor
    · intro hsets
      have hcounted := hsets.counted
      refine ⟨fun _ => ⟨by omega, ?_⟩, fun heq => absurd heq hplace⟩
      intro hinternal
      have hother := hsets.others kInventoryLoc (Ne.symm hplace) hinternal
      rw [hat kInventoryLoc, if_neg hplace, if_pos rfl] at hother
      omega
    · rintro ⟨hall, -⟩
      obtain ⟨hread, hkept⟩ := hall hplace
      refine ⟨by omega, ?_⟩
      intro loc hloc hinternal
      rw [hat loc, if_neg (Ne.symm hloc)]
      split
      · next heq =>
          rw [← heq] at hinternal
          have hsame := hkept hinternal
          omega
      · ring

/-- A request that succeeds is a count of a product at a location. -/
lemma handleSetOnHand_ok {now : Moment} {db : StockDb} {v : Json} {cur : Option Quant}
    {result : StockDb × Json} (h : handleSetOnHand now db v cur = .ok result) :
    ∃ n, countOf v = .ok n ∧ 0 < n.productId ∧ 0 < n.locationId ∧
      setOnHand now db n cur = .ok result.1 := by
  obtain ⟨n, hn, h⟩ := bind_ok_iff.mp h
  obtain ⟨db', hset, h⟩ := bind_ok_iff.mp h
  cases h
  refine ⟨n, hn, ?_⟩
  unfold countOf at hn
  split at hn
  · cases hn
  · split at hn
    · cases hn
    · next hids =>
        obtain ⟨hproduct, hlocation⟩ := not_or.mp hids
        cases hn
        exact ⟨not_le.mp hproduct, not_le.mp hlocation, hset⟩

/-- The seeded locations: 4 is the stock, 7 the adjustments. -/
def seededLocations : Table Location :=
  [.other "view", .other "view", .other "view", .internal, .supplier, .customer, .inventory].foldl
    (fun t usage => t.insert { usage := usage }) .empty

/-- A reel with stock in the given lots. -/
def reels (lots : List (ℤ × ℤ)) : StockDb where
  locations := seededLocations
  products := Table.empty.insert { name := "Reel", tracking := .lot }
  quants := lots.foldl (fun quants l => quants.insert ⟨1, 4, l.1⟩ { quantity := l.2 }) ∅

/-- The request to set a quantity of the reel in the stock. -/
def countReels (quantity : ℤ) : Count := ⟨1, 4, quantity⟩

/-- Five reels of one lot, counted as eight. -/
theorem count_sets_reels :
    ReadsFirst (reels [(1, 5000000)]) (countReels 8000000) (some { quantity := 5000000 }) ∧
      ∃ db', setOnHand february (reels [(1, 5000000)]) (countReels 8000000)
        (some { quantity := 5000000 }) = .ok db' ∧
      Sets (reels [(1, 5000000)]) db' (countReels 8000000) := by
  obtain ⟨db', hset⟩ := exists_ok
    (show (setOnHand february (reels [(1, 5000000)]) (countReels 8000000)
      (some { quantity := 5000000 })).isOk = true by decide)
  refine ⟨⟨1, by decide⟩, db', hset, (count_sets_iff hset).mpr ⟨?_, ?_⟩⟩
  · exact fun _ => ⟨by decide, fun hinternal => absurd hinternal (by decide)⟩
  · exact fun hplace => absurd hplace (by decide)

/-- Five and three reels of two lots, counted as eight: there are then eleven or
thirteen, whichever row is read. -/
theorem two_lots_miscounted :
    (ReadsFirst (reels [(1, 5000000), (2, 3000000)]) (countReels 8000000) (some { quantity := 5000000 }) ∧
      (setOnHand february (reels [(1, 5000000), (2, 3000000)]) (countReels 8000000)
        (some { quantity := 5000000 })).toOption.map (fun db => onHandAt db 1 4) = some 11000000) ∧
    ReadsFirst (reels [(1, 5000000), (2, 3000000)]) (countReels 8000000) (some { quantity := 3000000 }) ∧
      (setOnHand february (reels [(1, 5000000), (2, 3000000)]) (countReels 8000000)
        (some { quantity := 3000000 })).toOption.map (fun db => onHandAt db 1 4) = some 13000000 := by
  refine ⟨⟨⟨1, by decide⟩, by decide⟩, ⟨2, by decide⟩, by decide⟩

end StockCounts

end CErp
