/-
The forecast of a product: what is on hand, and what the open transfers will
bring and take.

The summary scales the demand of a move to micro-units, which it is in already,
so a move counts for a million times what its validation brings.  Nor does the
forecast know of the components a subcontracted receipt consumes.
`forecast_stable_iff` weighs the two.
-/
import CErp.OrderQuantities
import CErp.StockCounts
import Mathlib.Algebra.BigOperators.Group.Finset.Basic

namespace CErp

open Runs StockPicking Outcome List Money Table

namespace StockForecast

open StockQuant StockCounts

/-! ### The summary -/

structure ProductSummary where
  productId : ℤ
  qtyAvailable : Money
  reserved : Money
  incomingQty : Money
  outgoingQty : Money
  virtualAvailable : Money
  orderpointCount : ℤ
  putawayCount : ℤ
  deriving DecidableEq

/-- The product a request names. -/
def summaryProduct (v : Json) : ℤ :=
  match v with
  | .num i => Json.toInt32 i
  | .arr (.num i :: _) => Json.toInt32 i
  | .obj fields => parseM2o (.obj fields) "product_id"
  | _ => 0

/-- A move that is neither a draft nor over. -/
def isPlanned (s : TransferState) : Bool := isOpen s && s != .draft

/-- The demand of the planned moves of a product that come in.  A move's
locations are rows of their table, so the joins drop nothing. -/
def incoming (db : WarehouseDb) (productId : ℤ) : ℤ :=
  db.moves.sumOver fun _ m =>
    if m.productId = productId ∧ isPlanned m.state ∧ db.stock.isInternal m.locationDestId ∧
        !db.stock.isInternal m.locationId then m.productUomQty
    else 0

def outgoing (db : WarehouseDb) (productId : ℤ) : ℤ :=
  db.moves.sumOver fun _ m =>
    if m.productId = productId ∧ isPlanned m.state ∧ db.stock.isInternal m.locationId ∧
        !db.stock.isInternal m.locationDestId then m.productUomQty
    else 0

/-- What is reserved of a product at the internal locations. -/
def reservedInternal (db : StockDb) (productId : ℤ) : ℤ :=
  db.quants.sumOver fun k q =>
    if k.productId = productId ∧ db.isInternal k.locationId then q.reservedQuantity else 0

/-- `product_summary`; the reordering rules are products with their active
flags. -/
def productSummary (db : WarehouseDb) (orderpoints : List (ℤ × Bool)) (v : Json) :
    Except String ProductSummary := do
  let prod := summaryProduct v
  require (0 < prod) "product_summary: a product_id is required"
  let qty ← bigint (db.stock.onHandInternal prod)
  let rsv ← bigint (reservedInternal db.stock prod)
  let inc ← bigint (incoming db prod * 1000000)
  let out ← bigint (outgoing db prod * 1000000)
  let virtual ← bigint (qty + inc - out)
  return {
    productId := prod
    qtyAvailable := { micros := qty }
    reserved := { micros := rsv }
    incomingQty := { micros := inc }
    outgoingQty := { micros := out }
    virtualAvailable := { micros := virtual }
    orderpointCount := (orderpoints.filter fun o => o.1 = prod ∧ o.2).length
    putawayCount := (db.putawayRules.rows.filter fun r => r.2.productId = some prod).length }

/-! ### The forecast -/

/-- What a move brings into the internal locations when its demand is met. -/
def netOf (db : WarehouseDb) (m : StockMove) : ℤ :=
  broughtIn db.stock m.locationId m.locationDestId m.productUomQty

/-- What the planned moves of a product bring in, less what they take out. -/
def planned (db : WarehouseDb) (productId : ℤ) : ℤ :=
  db.moves.sumOver fun _ m => if m.productId = productId ∧ isPlanned m.state then netOf db m else 0

def forecast (db : WarehouseDb) (productId : ℤ) : ℤ :=
  db.stock.onHandInternal productId + planned db productId * 1000000

lemma planned_eq (db : WarehouseDb) (productId : ℤ) :
    planned db productId = incoming db productId - outgoing db productId := by
  unfold planned incoming outgoing sumOver
  induction db.moves.rows with
  | nil => rfl
  | cons r rows ih =>
      simp only [map_cons, sum_cons, ih]
      unfold netOf broughtIn
      by_cases hmine : r.2.productId = productId ∧ isPlanned r.2.state = true
      · obtain ⟨hproduct, hplanned⟩ := hmine
        simp only [hproduct, hplanned, true_and]
        cases db.stock.isInternal r.2.locationDestId <;>
          cases db.stock.isInternal r.2.locationId <;> simp <;> ring
      · have hnot : ∀ q : Prop, ¬ (r.2.productId = productId ∧ isPlanned r.2.state = true ∧ q) :=
          fun q hq => hmine ⟨hq.1, hq.2.1⟩
        rw [if_neg hmine, if_neg (hnot _), if_neg (hnot _)]
        ring

lemma productSummary_ok {db : WarehouseDb} {orderpoints : List (ℤ × Bool)} {v : Json}
    {s : ProductSummary} (h : productSummary db orderpoints v = .ok s) :
    s.productId = summaryProduct v ∧ s.virtualAvailable = { micros := forecast db s.productId } := by
  obtain ⟨_, -, h⟩ := bind_ok_iff.mp h
  obtain ⟨qty, hqty, h⟩ := bind_ok_iff.mp h
  obtain ⟨rsv, -, h⟩ := bind_ok_iff.mp h
  obtain ⟨inc, hinc, h⟩ := bind_ok_iff.mp h
  obtain ⟨out, hout, h⟩ := bind_ok_iff.mp h
  obtain ⟨total, htotal, h⟩ := bind_ok_iff.mp h
  cases h
  refine ⟨rfl, ?_⟩
  dsimp only
  rw [bigint_ok htotal, bigint_ok hqty, bigint_ok hinc, bigint_ok hout, forecast, planned_eq]
  congr 1
  ring

/-! ### Validating the moves -/

/-- Tables with the same locations, products and bills of materials. -/
structure SamePlaces (db s : WarehouseDb) : Prop where
  locations : s.stock.locations = db.stock.locations
  products : ∀ p, (s.stock.products.get? p).isSome = (db.stock.products.get? p).isSome
  boms : s.boms = db.boms

lemma SamePlaces.refl (db : WarehouseDb) : SamePlaces db db := ⟨rfl, fun _ => rfl, rfl⟩

variable {s : WarehouseDb}

lemma SamePlaces.isInternal {db : WarehouseDb} (h : SamePlaces db s) (loc : ℤ) :
    s.stock.isInternal loc = db.stock.isInternal loc := by
  unfold StockDb.isInternal StockDb.usageOf
  rw [h.locations]

lemma SamePlaces.broughtIn_eq {db : WarehouseDb} (h : SamePlaces db s) (src dest qty : ℤ) :
    broughtIn s.stock src dest qty = broughtIn db.stock src dest qty := by
  rw [broughtIn, h.isInternal, h.isInternal]
  rfl

/-- A rule sends goods on from one internal location to another. -/
lemma isInternal_putaway (db : WarehouseDb) (productId : ℤ) (p : Product) (dest : ℤ) :
    db.stock.isInternal (putaway db productId p dest) = db.stock.isInternal dest := by
  have hfirst : ∀ {rules : List PutawayRule} {r : PutawayRule}, firstRule rules = some r →
      r ∈ rules := by
    intro rules
    induction rules with
    | nil =>
        intro r hr
        cases hr
    | cons r rs ih =>
        intro r₁ hr₁
        unfold firstRule at hr₁
        split at hr₁
        · cases hr₁
          exact mem_cons_self
        · next r' hr' =>
            split at hr₁
            · cases hr₁
              exact mem_cons_of_mem _ (ih hr')
            · cases hr₁
              exact mem_cons_self
  have hrule : ∀ {r : PutawayRule} {q : PutawayRule → Bool},
      firstRule ((putawayRules db dest).filter q) = some r →
        db.stock.isInternal r.locationOutId = db.stock.isInternal dest := by
    intro r q hr
    have hmem := mem_of_mem_filter (hfirst hr)
    obtain ⟨hin, hfrom, hto⟩ := of_decide_eq_true (mem_filter.mp hmem).2
    rw [hin] at hfrom
    rw [hto, hfrom]
  unfold putaway
  dsimp only
  split
  · next r hr => exact hrule hr
  · split
    · next r hr => exact hrule hr
    · rfl

/-- A reservation given back changes nothing on hand. -/
lemma onHandInternal_release {db db' : StockDb} {productId locId qtyMicros lotId : ℤ}
    (h : release db productId locId qtyMicros lotId = .ok db') :
    db'.locations = db.locations ∧ (∀ id, db'.onHandInternal id = db.onHandInternal id) ∧
      db'.products = db.products := by
  rcases release_ok h with ⟨-, rfl⟩ | ⟨q, hq, -, rfl⟩
  · exact ⟨rfl, fun _ => rfl, rfl⟩
  · exact ⟨rfl, fun id => quantitySum_reserved hq _ _, rfl⟩

/-- Moves in a new version are planned at the locations they were. -/
lemma planned_congr {db : WarehouseDb} (h : SamePlaces db s) (productId : ℤ) :
    planned s productId = s.moves.sumOver fun _ m =>
      if m.productId = productId ∧ isPlanned m.state then netOf db m else 0 := by
  unfold planned netOf
  simp only [h.broughtIn_eq]

variable {purchaseId : ℤ} {s' : WarehouseDb}

/-- A move is validated: nothing where its product is gone, else what it brings is
on hand and it is planned no more. -/
lemma validateOne_forecast {now : Moment} {r : ℤ × StockMove}
    (hrow : s.moves.get? r.1 = some r.2) (h : validateOne now purchaseId s r = .ok s') :
    SamePlaces s s' ∧ ∀ productId, forecast s' productId = forecast s productId +
      if r.2.productId = productId ∧ (s.stock.products.get? productId).isSome then
        broughtIn s.stock r.2.locationId r.2.locationDestId (doneQty r.2) -
          (if isPlanned r.2.state then netOf s r.2 else 0) * 1000000
      else 0 := by
  unfold validateOne at h
  dsimp only at h
  split at h
  · next hnone =>
      cases h
      refine ⟨.refl s, ?_⟩
      intro productId
      rw [if_neg, add_zero]
      rintro ⟨rfl, hknown⟩
      rw [hnone] at hknown
      cases hknown
  next p hp =>
  obtain ⟨_, -, h⟩ := bind_ok_iff.mp h
  obtain ⟨_, -, h⟩ := bind_ok_iff.mp h
  obtain ⟨stock₁, hrelease, h⟩ := bind_ok_iff.mp h
  obtain ⟨stock₂, hmove, h⟩ := bind_ok_iff.mp h
  obtain ⟨hlocations₁, hhand₁, hproducts₁⟩ := onHandInternal_release hrelease
  obtain ⟨hlocations₂, hhand₂⟩ := onHandInternal_applyMove hmove
  have hproducts : ∀ q, (stock₂.products.get? q).isSome = (s.stock.products.get? q).isSome := by
    intro q
    rw [applyMove_products hmove, hproducts₁]
  cases h
  have hplaces : SamePlaces s { s with
      stock := stock₂
      moves := s.moves.modify r.1
        (finished (putaway s r.2.productId p r.2.locationDestId) (doneQty r.2)) } :=
    ⟨hlocations₂.trans hlocations₁, hproducts, rfl⟩
  have hplaces₁ : SamePlaces s { s with stock := stock₁ } :=
    ⟨hlocations₁, fun q => by rw [hproducts₁], rfl⟩
  refine ⟨hplaces, ?_⟩
  intro productId
  have hbrought : broughtIn stock₁ r.2.locationId (putaway s r.2.productId p r.2.locationDestId)
      (doneQty r.2) = broughtIn s.stock r.2.locationId r.2.locationDestId (doneQty r.2) := by
    rw [hplaces₁.broughtIn_eq, broughtIn, isInternal_putaway]
    rfl
  have hhand := hhand₂ productId
  rw [hhand₁, hbrought] at hhand
  -- the move is done, and counts no more
  have hplanned := planned_congr hplaces productId
  rw [sumOver_modify _ _ hrow] at hplanned
  have hgone : ¬ ((finished (putaway s r.2.productId p r.2.locationDestId) (doneQty r.2)
      r.2).productId = productId ∧ isPlanned (finished (putaway s r.2.productId p
        r.2.locationDestId) (doneQty r.2) r.2).state = true) :=
    fun hboth =>
      have hdone : isPlanned TransferState.done = true := hboth.2
      absurd hdone (by decide)
  rw [if_neg hgone, add_zero] at hplanned
  unfold forecast
  rw [hplanned, hhand]
  unfold planned
  by_cases hmine : r.2.productId = productId
  · have hknown : (s.stock.products.get? productId).isSome = true := by
      rw [← hmine, hp]
      rfl
    rw [if_pos hmine.symm, if_pos (And.intro hmine hknown)]
    simp only [hmine, true_and]
    ring
  · rw [if_neg (Ne.symm hmine), if_neg (fun hboth => hmine hboth.1),
      if_neg (fun hboth => hmine hboth.1)]
    ring

/-- The open moves of a transfer are planned, and done in full. -/
def InFull (db : WarehouseDb) (id : ℤ) : Prop :=
  ∀ r ∈ movesIn db id isOpen, r.2.state ≠ .draft ∧ doneQty r.2 = r.2.productUomQty

/-- What the open moves of a transfer bring in of a product, less what they take
out.  The product has to be there. -/
def transferNet (db : WarehouseDb) (rows : List (ℤ × StockMove)) (productId : ℤ) : ℤ :=
  if (db.stock.products.get? productId).isSome then
    (rows.map fun r => if r.2.productId = productId then netOf db r.2 else 0).sum
  else 0

lemma SamePlaces.trans {a b c : WarehouseDb} (hab : SamePlaces a b) (hbc : SamePlaces b c) :
    SamePlaces a c :=
  ⟨hbc.locations.trans hab.locations, fun p => (hbc.products p).trans (hab.products p),
    hbc.boms.trans hab.boms⟩

/-- Validated in full, the moves lower the forecast by all but one of a million
times what they bring. -/
lemma validateAll_forecast {now : Moment} {rows : List (ℤ × StockMove)} {db : WarehouseDb}
    (h : rows.foldlM (validateOne now purchaseId) s = .ok s')
    (hrows : InTurn (validateOne now purchaseId)
      (fun s r => s.moves.get? r.1 = some r.2 ∧ isOpen r.2.state = true) s rows)
    (hfull : ∀ r ∈ rows, r.2.state ≠ .draft ∧ doneQty r.2 = r.2.productUomQty)
    (hplaces : SamePlaces db s) :
    SamePlaces db s' ∧ ∀ productId,
      forecast s' productId = forecast s productId - transferNet db rows productId * 999999 := by
  induction rows generalizing s with
  | nil =>
      cases h
      refine ⟨hplaces, ?_⟩
      intro productId
      have hnone : transferNet db [] productId = 0 := by
        unfold transferNet
        split <;> rfl
      rw [hnone]
      ring
  | cons r rows ih =>
      obtain ⟨s₁, hone, hrest⟩ := foldlM_cons_ok.mp h
      obtain ⟨⟨hrow, hopen⟩, hlater⟩ := hrows
      rw [forall_mem_cons] at hfull
      obtain ⟨⟨hdraft, hall⟩, hfull⟩ := hfull
      obtain ⟨hplaces₁, hforecast⟩ := validateOne_forecast hrow hone
      obtain ⟨hplaces', hrestForecast⟩ := ih hrest (hlater s₁ hone) hfull (hplaces.trans hplaces₁)
      refine ⟨hplaces', ?_⟩
      intro productId
      have hplanned : isPlanned r.2.state = true := by
        unfold isPlanned
        rw [hopen, Bool.true_and]
        exact bne_iff_ne.mpr hdraft
      have hnet : broughtIn s.stock r.2.locationId r.2.locationDestId r.2.productUomQty =
          netOf db r.2 := hplaces.broughtIn_eq _ _ _
      rw [hrestForecast, hforecast, hall, if_pos hplanned, hplaces.products]
      unfold transferNet netOf at *
      rw [hnet]
      by_cases hknown : (db.stock.products.get? productId).isSome = true
      · simp only [hknown, and_true, if_true, map_cons, sum_cons]
        split <;> ring
      · rw [if_neg (fun hboth => hknown hboth.2), if_neg hknown, if_neg hknown]
        ring

/-! ### The components of a subcontractor -/

/-- What the lines of a bill of materials take of a product, for some received. -/
def takenBy (b : Bom) (recvQty productId : ℤ) : ℤ :=
  (b.lines.map fun ln =>
    if ln.productId = productId then
      max 0 (divRoundHalfAway (ln.productQty * recvQty) (bomQty b))
    else 0).sum

/-- What receiving a product takes of another. -/
def takenFor (db : WarehouseDb) (productId received recvQty : ℤ) : ℤ :=
  match subcontractBom db received with
  | none => 0
  | some b => takenBy b recvQty productId

/-- What validating a transfer takes of a product, by all bills of materials. -/
def componentsTaken (db : WarehouseDb) (id productId : ℤ) : ℤ :=
  ((db.boms.rows.map (·.2.productId)).eraseDups.map fun received =>
    takenFor db productId received (quantityToDo db id received)).sum

/-- What the components of a transfer change on hand.  They leave location 4. -/
def componentChange (db : WarehouseDb) (id : ℤ) (p : Picking) (productId : ℤ) : ℤ :=
  if (db.pickingTypes.get? p.pickingTypeId).map (·.code) = some .incoming ∧
      0 < subcontractLocation db then
    broughtIn db.stock 4 (subcontractLocation db) (componentsTaken db id productId)
  else 0

lemma broughtIn_add (db : StockDb) (src dest a b : ℤ) :
    broughtIn db src dest (a + b) = broughtIn db src dest a + broughtIn db src dest b := by
  unfold broughtIn
  split <;> split <;> ring

lemma divRoundHalfAway_zero (den : ℤ) : divRoundHalfAway 0 den = 0 := by
  have hhalf : den.natAbs / 2 / den.natAbs = 0 :=
    Nat.div_eq_zero_iff.mpr (by omega)
  unfold divRoundHalfAway
  simp [hhalf]

lemma takenFor_zero (db : WarehouseDb) (productId received : ℤ) :
    takenFor db productId received 0 = 0 := by
  unfold takenFor
  split
  · rfl
  · next b hb =>
      apply sum_eq_zero
      intro x hx
      obtain ⟨ln, -, rfl⟩ := mem_map.mp hx
      rw [mul_zero, divRoundHalfAway_zero, max_self, ite_self]

lemma takenFor_of_notMem {db : WarehouseDb} {received : ℤ} (productId recvQty : ℤ)
    (h : received ∉ (db.boms.rows.map (·.2.productId)).eraseDups) :
    takenFor db productId received recvQty = 0 := by
  have hnone : subcontractBom db received = none := by
    apply Option.map_eq_none_iff.mpr
    apply find?_eq_none.mpr
    intro r hr hsel
    apply h
    rw [mem_eraseDups]
    refine mem_map.mpr ⟨r, hr, ?_⟩
    rw [Bool.and_eq_true, Bool.and_eq_true, beq_iff_eq] at hsel
    exact hsel.1.1
  rw [takenFor, hnone]

/-- Sums of what vanishes off either list. -/
lemma sum_eq_of_support {as bs : List ℤ} {f : ℤ → ℤ} (has : as.Nodup) (hbs : bs.Nodup)
    (ha : ∀ x, x ∉ as → f x = 0) (hb : ∀ x, x ∉ bs → f x = 0) :
    (as.map f).sum = (bs.map f).sum := by
  rw [← sum_toFinset f has, ← sum_toFinset f hbs]
  have hcommon : ∀ cs ds : List ℤ, (∀ x, x ∉ ds → f x = 0) →
      (cs.toFinset ∩ ds.toFinset).sum f = cs.toFinset.sum f := by
    intro cs ds hds
    refine Finset.sum_subset Finset.inter_subset_left ?_
    intro x hx hnot
    apply hds
    intro hmem
    exact hnot (Finset.mem_inter.mpr ⟨hx, mem_toFinset.mpr hmem⟩)
  rw [← hcommon as bs hb, ← hcommon bs as ha, Finset.inter_comm]

variable {subLoc : ℤ}

/-- A component changes the forecast by what leaves: its move is done. -/
lemma consumeComponent_forecast {now : Moment} {id recvQty comp : ℤ} {b : Bom} {ln : BomLine}
    (h : consumeComponent now id subLoc recvQty comp b s ln = .ok s') :
    SamePlaces s s' ∧ ∀ productId, forecast s' productId = forecast s productId +
      broughtIn s.stock 4 subLoc (if ln.productId = productId then
        max 0 (divRoundHalfAway (ln.productQty * recvQty) (bomQty b)) else 0) := by
  obtain ⟨q, hq, h⟩ := bind_ok_iff.mp h
  rw [← bigint_ok hq]
  split at h
  · next hnone =>
      cases h
      refine ⟨.refl s, ?_⟩
      intro productId
      rw [max_eq_left hnone, ite_self, broughtIn_zero, add_zero]
  · next hsome =>
      obtain ⟨stock, hmove, h⟩ := bind_ok_iff.mp h
      cases h
      obtain ⟨hlocations, hhand⟩ := onHandInternal_applyMove hmove
      have hplaces : SamePlaces s { s with
          stock := stock
          moves := s.moves.insert (componentMove id subLoc comp q ln) } :=
        ⟨hlocations, applyMove_products hmove, rfl⟩
      refine ⟨hplaces, ?_⟩
      intro productId
      have hplanned := planned_congr hplaces productId
      rw [sumOver_insert, if_neg (fun hboth =>
        have hdone : isPlanned TransferState.done = true := hboth.2
        absurd hdone (by decide)), add_zero] at hplanned
      unfold forecast
      rw [hplanned, hhand, max_eq_right (by omega)]
      unfold planned
      by_cases hmine : ln.productId = productId
      · rw [if_pos hmine.symm, if_pos hmine]
        ring
      · rw [if_neg (Ne.symm hmine), if_neg hmine, broughtIn_zero]
        ring

lemma consumeAll_forecast {now : Moment} {id recvQty comp : ℤ} {b : Bom} {lines : List BomLine}
    {db : WarehouseDb}
    (h : lines.foldlM (consumeComponent now id subLoc recvQty comp b) s = .ok s')
    (hplaces : SamePlaces db s) :
    SamePlaces db s' ∧ ∀ productId, forecast s' productId = forecast s productId +
      broughtIn db.stock 4 subLoc (lines.map fun ln =>
        if ln.productId = productId then
          max 0 (divRoundHalfAway (ln.productQty * recvQty) (bomQty b))
        else 0).sum := by
  induction lines generalizing s with
  | nil =>
      cases h
      refine ⟨hplaces, ?_⟩
      intro productId
      rw [map_nil, sum_nil, broughtIn_zero, add_zero]
  | cons ln lines ih =>
      obtain ⟨s₁, hone, hrest⟩ := foldlM_cons_ok.mp h
      obtain ⟨hplaces₁, hforecast⟩ := consumeComponent_forecast hone
      obtain ⟨hplaces', hrestForecast⟩ := ih hrest (hplaces.trans hplaces₁)
      refine ⟨hplaces', ?_⟩
      intro productId
      rw [hrestForecast, hforecast, hplaces.broughtIn_eq, map_cons, sum_cons,
        broughtIn_add, add_assoc]

/-- The components of some received products. -/
lemma consumeComponents_forecast {now : Moment} {id : ℤ} {ms : List StockMove}
    {products : List ℤ} {db : WarehouseDb}
    (h : products.foldlM (consumeComponents now id subLoc ms) s = .ok s')
    (hplaces : SamePlaces db s) (productId : ℤ) :
    forecast s' productId = forecast s productId + broughtIn db.stock 4 subLoc
        (products.map fun received => takenFor db productId received (quantityIn ms received)).sum := by
  induction products generalizing s with
  | nil =>
      cases h
      rw [map_nil, sum_nil, broughtIn_zero, add_zero]
  | cons received products ih =>
      obtain ⟨s₁, hone, hrest⟩ := foldlM_cons_ok.mp h
      obtain ⟨recvQty, hqty, hone⟩ := bind_ok_iff.mp hone
      have hqty : quantityIn ms received = recvQty := (bigint_ok_iff.mp hqty).2
      have hbom : subcontractBom s received = subcontractBom db received := by
        unfold subcontractBom
        rw [hplaces.boms]
      rw [map_cons, sum_cons, broughtIn_add, hqty]
      split at hone
      · next hnone =>
          cases hone
          rw [ih hrest hplaces, takenFor, ← hbom, hnone, broughtIn_zero, zero_add]
      · next b hb =>
          obtain ⟨hplaces₁, hforecast⟩ := consumeAll_forecast hone hplaces
          rw [ih hrest hplaces₁, hforecast, takenFor, ← hbom, hb, add_assoc]
          rfl

/-! ### Validating a transfer -/

/-- Tables with the same stock, moves and bills of materials. -/
structure SameStock (db s : WarehouseDb) : Prop where
  stock : s.stock = db.stock
  moves : s.moves = db.moves
  boms : s.boms = db.boms

lemma SameStock.trans {a b c : WarehouseDb} (hab : SameStock a b) (hbc : SameStock b c) :
    SameStock a c :=
  ⟨hbc.stock.trans hab.stock, hbc.moves.trans hab.moves, hbc.boms.trans hab.boms⟩

lemma SameStock.samePlaces {db : WarehouseDb} (h : SameStock db s) : SamePlaces db s :=
  ⟨by rw [h.stock], fun p => by rw [h.stock], h.boms⟩

lemma SameStock.forecast_eq {db : WarehouseDb} (h : SameStock db s) (productId : ℤ) :
    forecast s productId = forecast db productId := by
  unfold forecast planned netOf
  rw [h.stock, h.moves]

lemma SameStock.doneMoves_eq {db : WarehouseDb} (h : SameStock db s) (id : ℤ) :
    doneMoves s id = doneMoves db id := by
  unfold doneMoves movesIn
  rw [h.moves]

/-- Orders are told, and nothing else. -/
lemma deliver_sameStock {db db' : WarehouseDb} {id saleId : ℤ}
    (h : deliver db id saleId = .ok db') : SameStock db db' := by
  unfold deliver at h
  split at h
  · cases h
    exact ⟨rfl, rfl, rfl⟩
  · obtain ⟨lines, -, h⟩ := bind_ok_iff.mp h
    cases h
    exact ⟨rfl, rfl, rfl⟩

lemma receive_sameStock {db db' : WarehouseDb} {id : ℤ}
    (h : StockPicking.receive db id purchaseId = .ok db') : SameStock db db' := by
  unfold StockPicking.receive at h
  split at h
  · cases h
    exact ⟨rfl, rfl, rfl⟩
  · obtain ⟨lines, -, h⟩ := bind_ok_iff.mp h
    cases h
    exact ⟨rfl, rfl, rfl⟩

section Validated

variable {now : Moment} {id : ℤ} {p : Picking} {db db₁ db₂ db₃ db' : WarehouseDb}

lemma orders_sameStock (hv : Validated now id p db db₁ db₂ db₃ db') : SameStock db₁ db₃ := by
  have hdelivery : SameStock db₁ db₂ := by
    rcases provided_ok hv.delivery with ⟨-, hdeliver⟩ | ⟨-, rfl⟩
    · have hcarried : SameStock db₁ (carryPackages { db₁ with
          pickings := db₁.pickings.modify id fun p => { p with state := .done } } id) :=
        ⟨rfl, rfl, rfl⟩
      exact hcarried.trans (deliver_sameStock hdeliver)
    · exact ⟨rfl, rfl, rfl⟩
  rcases provided_ok hv.receipt with ⟨-, hreceive⟩ | ⟨-, rfl⟩
  · exact hdelivery.trans (receive_sameStock hreceive)
  · exact hdelivery

/-- **What validating a transfer in full does to the forecast.** -/
theorem forecast_validated (hv : Validated now id p db db₁ db₂ db₃ db') (hfull : InFull db id)
    (productId : ℤ) : forecast db' productId = forecast db productId -
      transferNet db (movesIn db id isOpen) productId * 999999 + componentChange db id p productId := by
  have hrows := @inTurn_rows _ _ _ WarehouseDb.moves (validateOne now (p.purchaseId.getD 0))
    (fun m => isOpen m.state = true) (fun _ _ _ hone => validateOne_frame hone) _ db
    (movesIn_nodup db id isOpen) (fun _ hr => mem_movesIn_state hr)
  obtain ⟨hplaces₁, hmoved⟩ := validateAll_forecast hv.moves hrows hfull (.refl db)
  have hsame := orders_sameStock hv
  have hplaces := hplaces₁.trans hsame.samePlaces
  have hloc : subcontractLocation db₃ = subcontractLocation db := by
    unfold subcontractLocation
    rw [hplaces.locations]
  rw [← hmoved, ← hsame.forecast_eq]
  unfold componentChange
  rcases provided_ok hv.components with ⟨hcode, hback⟩ | ⟨hcode, rfl⟩
  · rw [beq_iff_eq] at hcode
    unfold backflush at hback
    rw [hloc, hsame.doneMoves_eq] at hback
    split at hback
    · next hnone =>
        cases hback
        rw [if_neg (fun hboth => absurd hboth.2 (by omega)), add_zero]
    · next hsome =>
        have htaken : ((movedProducts (doneMoves db₁ id)).map fun received =>
            takenFor db productId received (quantityIn (doneMoves db₁ id) received)).sum =
            componentsTaken db id productId := by
          simp only [componentsTaken, ← hv.quantityIn_eq]
          refine sum_eq_of_support (nodup_eraseDups _) (nodup_eraseDups _) ?_ ?_
          · intro received hnot
            rw [quantityIn_of_notMem hnot, takenFor_zero]
          · intro received hnot
            exact takenFor_of_notMem productId _ hnot
        rw [if_pos ⟨hcode, by omega⟩, consumeComponents_forecast hback hplaces, htaken]
  · rw [if_neg, add_zero]
    rintro ⟨hincoming, -⟩
    rw [hincoming] at hcode
    cases hcode

end Validated

/-- **The forecast is stable where the transfer balances.**  Validated in full, a
transfer leaves the forecast of a product as it was if and only if 999999 times
what its moves bring in is what its components change on hand. -/
theorem forecast_stable_iff {now : Moment} {db db' : WarehouseDb} {id : ℤ} {p : Picking}
    {orderpoints : List (ℤ × Bool)} {v : Json} {s s' : ProductSummary}
    (hp : db.pickings.get? id = some p) (hopen : isOpen p.state = true) (hfull : InFull db id)
    (hvalidate : buttonValidate now db id = .ok db')
    (hbefore : productSummary db orderpoints v = .ok s)
    (hafter : productSummary db' orderpoints v = .ok s') :
    s'.virtualAvailable = s.virtualAvailable ↔
      transferNet db (movesIn db id isOpen) (summaryProduct v) * 999999 =
        componentChange db id p (summaryProduct v) := by
  rcases buttonValidate_cases hvalidate with ⟨hclosed, -⟩ | ⟨p', db₁, db₂, db₃, hv⟩
  · exact absurd hopen (hclosed p hp)
  have hsame : p' = p := by
    have hpicking := hv.picking
    rw [hp] at hpicking
    exact (Option.some.inj hpicking).symm
  subst hsame
  obtain ⟨hproduct, hforecast⟩ := productSummary_ok hbefore
  obtain ⟨hproduct', hforecast'⟩ := productSummary_ok hafter
  have hchange := forecast_validated hv hfull (summaryProduct v)
  rw [hforecast, hforecast', hproduct, hproduct', Money.mk.injEq, hchange]
  omega

/-- A confirmed move of bolts. -/
def boltMove (src dest qty : ℤ) : StockMove where
  pickingId := some 1
  productId := 1
  productUomQty := qty
  state := .confirmed
  locationId := src
  locationDestId := dest

/-- A transfer with confirmed moves of bolts, in and out of the stock. -/
def confirmedTransfer (incoming outgoing : List ℤ) : WarehouseDb where
  stock := smallWarehouse { name := "Bolt" }
  pickingTypes := empty.insert ⟨.incoming⟩
  pickings := empty.insert { pickingTypeId := 1, state := .confirmed }
  moves := (incoming.map (boltMove 2 1) ++ outgoing.map (boltMove 1 3)).foldl insert empty

/-- Three come in and three go out. -/
theorem forecast_stable_exchange :
    ∃ db' s s', buttonValidate february (confirmedTransfer [3000000] [3000000]) 1 = .ok db' ∧
      productSummary (confirmedTransfer [3000000] [3000000]) [] (.num 1) = .ok s ∧
      productSummary db' [] (.num 1) = .ok s' ∧ s'.virtualAvailable = s.virtualAvailable := by
  obtain ⟨db', hrun⟩ := exists_ok
    (show (buttonValidate february (confirmedTransfer [3000000] [3000000]) 1).isOk = true by decide)
  obtain ⟨s, hs⟩ := exists_ok
    (show (productSummary (confirmedTransfer [3000000] [3000000]) [] (.num 1)).isOk = true by decide)
  have hafter : (buttonValidate february (confirmedTransfer [3000000] [3000000]) 1 >>= fun db' =>
      productSummary db' [] (.num 1)).isOk = true := by
    decide
  rw [hrun] at hafter
  obtain ⟨s', hs'⟩ := exists_ok hafter
  refine ⟨db', s, s', hrun, hs, hs', ?_⟩
  have hfull : InFull (confirmedTransfer [3000000] [3000000]) 1 := by
    unfold InFull
    decide
  exact (forecast_stable_iff (p := { pickingTypeId := 1, state := .confirmed }) rfl rfl hfull hrun hs
    hs').mpr (by decide)

/-- A receipt of ten units: ten million are forecast, and ten come. -/
theorem receipt_shrinks_forecast : InFull (confirmedTransfer [10000000] []) 1 ∧
      ∃ db' s s', buttonValidate february (confirmedTransfer [10000000] []) 1 = .ok db' ∧
        productSummary (confirmedTransfer [10000000] []) [] (.num 1) = .ok s ∧
        productSummary db' [] (.num 1) = .ok s' ∧
        s.virtualAvailable = { micros := 10000000000000 } ∧
        s'.virtualAvailable = { micros := 10000000 } := by
  constructor
  · unfold InFull
    decide
  obtain ⟨db', hrun⟩ := exists_ok
    (show (buttonValidate february (confirmedTransfer [10000000] []) 1).isOk = true by decide)
  have hbefore : (productSummary (confirmedTransfer [10000000] []) [] (.num 1)).map
      (·.virtualAvailable) = .ok { micros := 10000000000000 } := by
    decide
  have hafter : (buttonValidate february (confirmedTransfer [10000000] []) 1 >>= fun db' =>
      (productSummary db' [] (.num 1)).map (·.virtualAvailable)) = .ok { micros := 10000000 } := by
    decide
  rw [hrun] at hafter
  obtain ⟨s, hs, hforecast⟩ := map_ok_iff.mp hbefore
  obtain ⟨s', hs', hforecast'⟩ := map_ok_iff.mp hafter
  exact ⟨db', s, s', hrun, hs, hs', hforecast, hforecast'⟩

end StockForecast

end CErp
