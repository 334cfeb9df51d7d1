/-
The four copies of the stock agree.

Quantities are kept in the quants, in the quantity on hand and the valued
quantity of the product, and in the valuation layers; values in the product and
in the layers.  `Booked` says what a valued move or a revaluation does to all of
them at once, and `LedgerAgrees` survives it.
-/
import CErp.Documents
import CErp.StockQuant

namespace CErp

open Runs Outcome Table

/-! ### Operations -/

inductive StockOp where
  | applyMove (productId srcLocId destLocId qtyMicros companyId inputCostMicros lotId : ℤ)
  | reserve (productId locId qtyMicros lotId : ℤ)
  | release (productId locId qtyMicros lotId : ℤ)
  | revalue (productId valueMicros : ℤ) (description : String) (companyId : ℤ)

/-- What an operation leaves in the tables when it succeeds. -/
def StockOp.run (now : Moment) (db : StockDb) : StockOp → Except String StockDb
  | applyMove productId src dest qtyMicros companyId inputCostMicros lotId =>
      StockQuant.applyMove now db productId src dest qtyMicros companyId inputCostMicros lotId
  | reserve productId locId qtyMicros lotId =>
      (StockQuant.reserve db productId locId qtyMicros lotId).map Prod.snd
  | release productId locId qtyMicros lotId =>
      StockQuant.release db productId locId qtyMicros lotId
  | revalue productId valueMicros description companyId =>
      (StockQuant.revalue db productId valueMicros description companyId).map Prod.snd

/-- An event leads on when its operation succeeds. -/
def stockStep (db : StockDb) (e : Moment × StockOp) : Option StockDb := (e.2.run e.1 db).toOption

lemma stockStep_eq_some_iff {db db' : StockDb} {e : Moment × StockOp} :
    stockStep db e = some db' ↔ e.2.run e.1 db = .ok db' :=
  toOption_eq_some_iff

namespace StockQuant

/-! ### Sums over the quants -/

/-- The quantities of the quants a condition selects. -/
def quantitySum (quants : AList fun _ : QuantKey => Quant) (p : QuantKey → Prop)
    [DecidablePred p] : ℤ :=
  quants.sumOver fun k q => if p k then q.quantity else 0

lemma quantitySum_addQuantity (quants : AList fun _ : QuantKey => Quant) (p : QuantKey → Prop)
    [DecidablePred p] (k : QuantKey) (delta companyId : ℤ) :
    quantitySum (addQuantity quants k delta companyId) p =
      quantitySum quants p + if p k then delta else 0 := by
  unfold quantitySum
  rcases hlook : quants.lookup k with - | q
  · rw [addQuantity_new hlook, AList.sumOver_insert_new _ _ _ hlook]
  · rw [addQuantity_old hlook, AList.sumOver_insert_old _ _ _ hlook]
    split <;> ring

/-- A reservation changes no quantity. -/
lemma quantitySum_reserved {quants : AList fun _ : QuantKey => Quant} {k : QuantKey} {q : Quant}
    (hlook : quants.lookup k = some q) (reserved : ℤ) (p : QuantKey → Prop) [DecidablePred p] :
    quantitySum (quants.insert k { q with reservedQuantity := reserved }) p =
      quantitySum quants p := by
  unfold quantitySum
  rw [AList.sumOver_insert_old _ _ _ hlook]
  ring

lemma onHandAnywhere_eq (db : StockDb) (productId : ℤ) :
    db.onHandAnywhere productId = quantitySum db.quants fun k => k.productId = productId := rfl

lemma onHandInternal_eq (db : StockDb) (productId : ℤ) :
    db.onHandInternal productId = quantitySum db.quants fun k =>
      k.productId = productId ∧ db.isInternal k.locationId := rfl

/-- What a move brings into the internal locations. -/
def broughtIn (db : StockDb) (src dest qtyMicros : ℤ) : ℤ :=
  (if db.isInternal dest then qtyMicros else 0) - if db.isInternal src then qtyMicros else 0

section Moved

variable (db : StockDb) (productId src dest qtyMicros companyId lotId id : ℤ)

/-- What leaves one location arrives at the other. -/
lemma onHandAnywhere_moved :
    (moved db productId src dest qtyMicros companyId lotId).onHandAnywhere id =
      db.onHandAnywhere id := by
  show quantitySum (addQuantity (addQuantity db.quants _ _ _) _ _ _) _ = _
  rw [quantitySum_addQuantity, quantitySum_addQuantity, onHandAnywhere_eq]
  split <;> ring

lemma onHandInternal_moved :
    (moved db productId src dest qtyMicros companyId lotId).onHandInternal id =
      db.onHandInternal id + if id = productId then broughtIn db src dest qtyMicros else 0 := by
  show quantitySum (addQuantity (addQuantity db.quants _ _ _) _ _ _)
    (fun k => k.productId = id ∧ db.isInternal k.locationId = true) = _
  rw [quantitySum_addQuantity, quantitySum_addQuantity, onHandInternal_eq, broughtIn]
  by_cases hid : id = productId
  · subst hid
    simp only [true_and, if_true]
    split <;> split <;> ring
  · rw [if_neg fun h => hid h.1.symm, if_neg fun h => hid h.1.symm, if_neg hid]
    ring

lemma products_moved : (moved db productId src dest qtyMicros companyId lotId).products =
    db.products.modify productId fun p => { p with
      qtyAvailable :=
        (moved db productId src dest qtyMicros companyId lotId).onHandInternal productId } := rfl

end Moved

section Moves

variable {now : Moment} {db db' : StockDb} {productId src dest qtyMicros companyId inputCostMicros
  lotId : ℤ}

lemma Valued.quants_eq
    (h : Valued now db productId src dest qtyMicros companyId inputCostMicros db') :
    db'.quants = db.quants ∧ db'.locations = db.locations := by
  cases h with
  | unchanged _ => exact ⟨rfl, rfl⟩
  | receipt _ _ _ _ _ _ => exact ⟨rfl, rfl⟩
  | issue _ _ _ _ _ _ _ => exact ⟨rfl, rfl⟩

lemma broughtIn_self (db : StockDb) (loc qtyMicros : ℤ) : broughtIn db loc loc qtyMicros = 0 :=
  sub_self _

lemma broughtIn_zero (db : StockDb) (src dest : ℤ) : broughtIn db src dest 0 = 0 := by
  rw [broughtIn, ite_self, ite_self, sub_self]

/-- A move changes what is on hand by what it brings in, and no location. -/
lemma onHandInternal_applyMove
    (h : applyMove now db productId src dest qtyMicros companyId inputCostMicros lotId = .ok db') :
    db'.locations = db.locations ∧ ∀ id, db'.onHandInternal id =
      db.onHandInternal id + if id = productId then broughtIn db src dest qtyMicros else 0 := by
  rcases applyMove_ok h with ⟨hnothing, rfl⟩ | ⟨-, -, -, hvalued⟩
  · refine ⟨rfl, ?_⟩
    intro id
    have hnone : broughtIn db' src dest qtyMicros = 0 := by
      rcases hnothing with hzero | hsame
      · rw [hzero, broughtIn_zero]
      · rw [hsame, broughtIn_self]
    rw [hnone, ite_self, add_zero]
  · obtain ⟨hquants, hlocations⟩ := Valued.quants_eq hvalued
    refine ⟨hlocations, ?_⟩
    intro id
    rw [← onHandInternal_moved db productId src dest qtyMicros companyId lotId id]
    unfold StockDb.onHandInternal StockDb.isInternal StockDb.usageOf
    rw [hquants, hlocations]

end Moves

/-! ### Sums over the layers -/

/-- A layer after its value is raised. -/
def raised (share : ℤ) (l : Layer) : Layer := { l with remainingValue := l.remainingValue + share }

/-- Values are added to the layers one after the other. -/
lemma addValues_ok {adds : List (ℤ × ℤ)} {layers layers' : Table Layer}
    (h : addValues layers adds = .ok layers') : layers' = layers.modifyAll raised adds := by
  induction adds generalizing layers with
  | nil =>
      cases h
      rfl
  | cons a adds ih =>
      obtain ⟨t, hone, hrest⟩ := foldlM_cons_ok.mp h
      rw [ih hrest, modifyAll_cons]
      congr 1
      split at hone
      · next hnone =>
          cases hone
          rw [modify_of_none _ hnone]
      · next l hl =>
          obtain ⟨v, hv, hone⟩ := bind_ok_iff.mp hone
          cases hone
          apply modify_congr hl
          rw [bigint_ok hv]
          rfl

end StockQuant

/-! ### Bookings -/

/-- A quantity and a value are added to what is valued of a product: in the
product and, by one more layer, in its layers. -/
structure Booked (db db' : StockDb) (productId quantity value : ℤ) : Prop where
  quants : db'.quants = db.quants
  locations : db'.locations = db.locations
  products : ∀ id p', db'.products.get? id = some p' → ∃ p, db.products.get? id = some p ∧
    p'.qtyAvailable = p.qtyAvailable ∧
    p'.quantitySvl = p.quantitySvl + (if id = productId then quantity else 0) ∧
    p'.valueSvl = p.valueSvl + if id = productId then value else 0
  quantities : ∀ id, db'.layerSum id (·.quantity) =
    db.layerSum id (·.quantity) + if productId = id then quantity else 0
  values : ∀ id, db'.layerSum id (·.value) =
    db.layerSum id (·.value) + if productId = id then value else 0

variable {id productId : ℤ}

/-- A product in a new version. -/
lemma get?_modify_product {db : StockDb} {f : Product → Product} {p' : Product}
    (h : (db.products.modify productId f).get? id = some p') :
    ∃ p, db.products.get? id = some p ∧ p' = if id = productId then f p else p := by
  rw [get?_modify] at h
  obtain ⟨p, hp, heq⟩ := Option.map_eq_some_iff.mp h
  exact ⟨p, hp, heq.symm⟩

/-- The layers an issue leaves hold the quantities and values they did. -/
lemma issueValue_sums {db : StockDb} {qtyMicros outValue : ℤ} {p : Product}
    {layers : Table Layer}
    (h : StockQuant.issueValue db productId p qtyMicros = .ok (outValue, layers)) {f : Layer → ℤ}
    (hf : ∀ l q v, f { l with remainingQty := q, remainingValue := v } = f l) (id : ℤ) :
    layersSum layers id f = db.layerSum id f := by
  unfold StockQuant.issueValue at h
  split at h
  · obtain ⟨portions, -, h⟩ := bind_ok_iff.mp h
    obtain ⟨out, -, h⟩ := bind_ok_iff.mp h
    cases h
    apply sumOver_modifyAll_same
    intro _ d l
    show (if l.productId = id then _ else _) = _
    rw [StockQuant.drawn, hf]
  · cases h
    rfl

/-- Every move that crosses the boundary of the internal locations is booked. -/
lemma StockQuant.Valued.booked {now : Moment} {db db' : StockDb}
    {src dest qtyMicros companyId inputCostMicros : ℤ} (hqty : 0 < qtyMicros)
    (hp : ∃ p, db.products.get? productId = some p)
    (h : Valued now db productId src dest qtyMicros companyId inputCostMicros db') :
    ∃ value, Booked db db' productId (broughtIn db src dest qtyMicros) value := by
  cases h with
  | unchanged hsame =>
      have hnothing : broughtIn db src dest qtyMicros = 0 := by
        rcases hsame with hle | hside | hnone
        · omega
        · rw [broughtIn, hside, sub_self]
        · obtain ⟨p, hp⟩ := hp
          rw [hp] at hnone
          cases hnone
      refine ⟨0, rfl, rfl, ?_, ?_, ?_⟩
      · intro id p hp
        exact ⟨p, hp, rfl, by simp [hnothing], by simp⟩
      · intro id
        simp [hnothing]
      · intro id
        simp
  | @receipt p link account _ hsrc hdest _ _ _ =>
      have hall : broughtIn db src dest qtyMicros = qtyMicros := by simp [broughtIn, hsrc, hdest]
      rw [hall]
      refine ⟨mulMicros qtyMicros (receiptCost p inputCostMicros), rfl, rfl, ?_, ?_, ?_⟩
      · intro id p' hp'
        obtain ⟨p, hp, rfl⟩ := get?_modify_product hp'
        refine ⟨p, hp, ?_⟩
        split <;> simp [received]
      · intro id
        exact layersSum_insert db.layers _ id _
      · intro id
        exact layersSum_insert db.layers _ id _
  | @issue p outValue layers link account _ hsrc hdest _ hissue _ _ =>
      have hall : broughtIn db src dest qtyMicros = -qtyMicros := by simp [broughtIn, hsrc, hdest]
      rw [hall]
      refine ⟨-outValue, rfl, rfl, ?_, ?_, ?_⟩
      · intro id p' hp'
        obtain ⟨p, hp, rfl⟩ := get?_modify_product hp'
        refine ⟨p, hp, ?_⟩
        split <;> simp [issued, sub_eq_add_neg]
      · intro id
        refine (layersSum_insert layers _ id _).trans ?_
        rw [issueValue_sums hissue (fun _ _ _ => rfl) id]
        rfl
      · intro id
        refine (layersSum_insert layers _ id _).trans ?_
        rw [issueValue_sums hissue (fun _ _ _ => rfl) id]
        rfl

lemma StockQuant.revalue_booked {db db' : StockDb} {valueMicros companyId layerId : ℤ}
    {description : String}
    (h : revalue db productId valueMicros description companyId = .ok (layerId, db')) :
    db' = db ∨ Booked db db' productId 0 valueMicros := by
  rcases revalue_ok h with ⟨-, -, rfl⟩ | ⟨p, layers, -, hp, -, hlayers, rfl⟩
  · exact .inl rfl
  right
  -- what is left of the open layers does not count here
  have hsums : ∀ {f : Layer → ℤ},
      (∀ l q v, f { l with remainingQty := q, remainingValue := v } = f l) → ∀ id,
      layersSum layers id f = layersSum (db.layers.insert
        (revaluationLayer productId valueMicros description companyId)) id f := by
    intro f hf id
    unfold revalueLayers at hlayers
    split at hlayers
    · rw [addValues_ok hlayers]
      apply sumOver_modifyAll_same
      intro _ share l
      show (if l.productId = id then _ else _) = _
      rw [raised, hf l l.remainingQty]
    · cases hlayers
      rfl
  refine ⟨rfl, rfl, ?_, ?_, ?_⟩
  · intro id p' hp'
    obtain ⟨p, hp, rfl⟩ := get?_modify_product hp'
    refine ⟨p, hp, ?_⟩
    split <;> simp [revalued]
  · intro id
    exact (hsums (fun _ _ _ => rfl) id).trans (layersSum_insert db.layers _ id _)
  · intro id
    exact (hsums (fun _ _ _ => rfl) id).trans (layersSum_insert db.layers _ id _)

/-! ### The invariant -/

/-- The copies of a product's stock agree. -/
structure LedgerAgrees (db : StockDb) (productId : ℤ) : Prop where
  conserved : db.onHandAnywhere productId = 0
  onHand : ∀ p, db.products.get? productId = some p → p.qtyAvailable = db.onHandInternal productId
  valued : ∀ p, db.products.get? productId = some p → p.qtyAvailable = p.quantitySvl
  quantities : ∀ p, db.products.get? productId = some p →
    p.quantitySvl = db.layerSum productId (·.quantity)
  values : ∀ p, db.products.get? productId = some p → p.valueSvl = db.layerSum productId (·.value)

/-- The quants agree with each other and with the quantity on hand; the valued
quantity lacks what a move has brought in and not valued yet. -/
structure LedgerLacks (db : StockDb) (productId lacking : ℤ) : Prop where
  conserved : db.onHandAnywhere productId = 0
  onHand : ∀ p, db.products.get? productId = some p → p.qtyAvailable = db.onHandInternal productId
  valued : ∀ p, db.products.get? productId = some p → p.qtyAvailable = p.quantitySvl + lacking
  quantities : ∀ p, db.products.get? productId = some p →
    p.quantitySvl = db.layerSum productId (·.quantity)
  values : ∀ p, db.products.get? productId = some p → p.valueSvl = db.layerSum productId (·.value)

lemma LedgerAgrees.lacks {db : StockDb} (h : LedgerAgrees db id) : LedgerLacks db id 0 where
  conserved := h.conserved
  onHand := h.onHand
  valued p hp := by
    rw [add_zero]
    exact h.valued p hp
  quantities := h.quantities
  values := h.values

/-- A move leaves the valuation behind by what it brings in. -/
lemma LedgerAgrees.moved {db : StockDb} (h : LedgerAgrees db id)
    (productId src dest qtyMicros companyId lotId : ℤ) :
    LedgerLacks (StockQuant.moved db productId src dest qtyMicros companyId lotId) id
      (if id = productId then StockQuant.broughtIn db src dest qtyMicros else 0) := by
  have hrow : ∀ p',
      (StockQuant.moved db productId src dest qtyMicros companyId lotId).products.get? id = some p' →
      ∃ p, db.products.get? id = some p ∧ p'.quantitySvl = p.quantitySvl ∧
        p'.valueSvl = p.valueSvl ∧ p'.qtyAvailable =
          if id = productId then
            (StockQuant.moved db productId src dest qtyMicros companyId lotId).onHandInternal id
          else p.qtyAvailable := by
    intro p' hp'
    rw [StockQuant.products_moved] at hp'
    obtain ⟨p, hp, rfl⟩ := get?_modify_product hp'
    refine ⟨p, hp, ?_⟩
    split
    · next hid =>
        subst hid
        exact ⟨rfl, rfl, rfl⟩
    · exact ⟨rfl, rfl, rfl⟩
  have hinternal := StockQuant.onHandInternal_moved db productId src dest qtyMicros companyId lotId id
  constructor
  · rw [StockQuant.onHandAnywhere_moved]
    exact h.conserved
  · intro p' hp'
    obtain ⟨p, hp, -, -, havailable⟩ := hrow p' hp'
    rw [havailable]
    split
    · rfl
    · next hid =>
        rw [if_neg hid, add_zero] at hinternal
        rw [hinternal]
        exact h.onHand p hp
  · intro p' hp'
    obtain ⟨p, hp, hquantity, -, havailable⟩ := hrow p' hp'
    have hbefore := (h.onHand p hp).symm.trans (h.valued p hp)
    rw [havailable, hquantity, hinternal]
    split
    · rw [hbefore]
    · rw [add_zero]
      exact h.valued p hp
  · intro p' hp'
    obtain ⟨p, hp, hquantity, -, -⟩ := hrow p' hp'
    rw [hquantity]
    exact h.quantities p hp
  · intro p' hp'
    obtain ⟨p, hp, -, hvalue, -⟩ := hrow p' hp'
    rw [hvalue]
    exact h.values p hp

lemma isInternal_congr {db db' : StockDb} (h : db'.locations = db.locations) :
    db'.isInternal = db.isInternal := by
  funext loc
  rw [StockDb.isInternal, StockDb.usageOf, h]
  rfl

/-- A booking makes up for what the valuation lacks. -/
lemma Booked.agrees {db db' : StockDb} {quantity value : ℤ}
    (hbooked : Booked db db' productId quantity value)
    (h : LedgerLacks db id (if id = productId then quantity else 0)) : LedgerAgrees db' id := by
  have hinternal := isInternal_congr hbooked.locations
  have hswap : ∀ n : ℤ, (if productId = id then n else 0) = if id = productId then n else 0 := by
    intro n
    simp only [eq_comm]
  constructor
  · rw [StockQuant.onHandAnywhere_eq, hbooked.quants]
    exact h.conserved
  · intro p' hp'
    obtain ⟨p, hp, havailable, -, -⟩ := hbooked.products id p' hp'
    rw [havailable, StockQuant.onHandInternal_eq, hbooked.quants, hinternal]
    exact h.onHand p hp
  · intro p' hp'
    obtain ⟨p, hp, havailable, hquantity, -⟩ := hbooked.products id p' hp'
    rw [havailable, hquantity]
    exact h.valued p hp
  · intro p' hp'
    obtain ⟨p, hp, -, hquantity, -⟩ := hbooked.products id p' hp'
    rw [hquantity, hbooked.quantities, hswap, h.quantities p hp]
  · intro p' hp'
    obtain ⟨p, hp, -, -, hvalue⟩ := hbooked.products id p' hp'
    rw [hvalue, hbooked.values, hswap, h.values p hp]

/-- A reservation does not touch the ledger. -/
lemma LedgerAgrees.setReserved {db : StockDb} (h : LedgerAgrees db id) {k : QuantKey}
    {q : Quant} (hlook : db.quants.lookup k = some q) (reserved : ℤ) (floored : Bool) :
    LedgerAgrees { db.setQuant k { q with reservedQuantity := reserved } with floored := floored }
      id where
  conserved := (StockQuant.quantitySum_reserved hlook reserved _).trans h.conserved
  onHand p hp :=
    (h.onHand p hp).trans (StockQuant.quantitySum_reserved hlook reserved _).symm
  valued := h.valued
  quantities := h.quantities
  values := h.values

/-- Moves are of positive quantities. -/
def MovesForward : StockOp → Prop
  | .applyMove _ _ _ qtyMicros _ _ _ => 0 < qtyMicros
  | _ => True

lemma stockOp_agrees {now : Moment} {op : StockOp} {db db' : StockDb} (h0 : LedgerAgrees db id)
    (hop : MovesForward op) (h : op.run now db = .ok db') : LedgerAgrees db' id := by
  cases op with
  | applyMove productId src dest qtyMicros companyId inputCostMicros lotId =>
      rcases StockQuant.applyMove_ok h with ⟨-, rfl⟩ | ⟨-, -, hp, hvalued⟩
      · exact h0
      · have hp' : ∃ p, (StockQuant.moved db productId src dest qtyMicros companyId lotId).products.get?
            productId = some p := by
          obtain ⟨p, hp⟩ := hp
          rw [StockQuant.products_moved, get?_modify_self, hp]
          exact ⟨_, rfl⟩
        obtain ⟨value, hbooked⟩ := hvalued.booked hop hp'
        exact hbooked.agrees (h0.moved productId src dest qtyMicros companyId lotId)
  | reserve productId locId qtyMicros lotId =>
      obtain ⟨⟨got, db₁⟩, hreserve, rfl⟩ := map_ok_iff.mp h
      rcases StockQuant.reserve_ok hreserve with ⟨-, rfl⟩ | ⟨q, hlook, -, -, rfl⟩
      · exact h0
      · exact h0.setReserved hlook _ db.floored
  | release productId locId qtyMicros lotId =>
      rcases StockQuant.release_ok h with ⟨-, rfl⟩ | ⟨q, hlook, -, rfl⟩
      · exact h0
      · exact h0.setReserved hlook _ _
  | revalue productId valueMicros description companyId =>
      obtain ⟨⟨layerId, db₁⟩, hrevalue, rfl⟩ := map_ok_iff.mp h
      rcases StockQuant.revalue_booked hrevalue with rfl | hbooked
      · exact h0
      · refine hbooked.agrees ?_
        rw [ite_self]
        exact h0.lacks

/-- No operation changes a location. -/
lemma stockOp_locations {now : Moment} {op : StockOp} {db db' : StockDb}
    (h : op.run now db = .ok db') : db'.locations = db.locations := by
  cases op with
  | applyMove productId src dest qtyMicros companyId inputCostMicros lotId =>
      rcases StockQuant.applyMove_ok h with ⟨-, rfl⟩ | ⟨-, -, -, hvalued⟩
      · rfl
      · cases hvalued <;> rfl
  | reserve productId locId qtyMicros lotId =>
      obtain ⟨⟨got, db₁⟩, hreserve, rfl⟩ := map_ok_iff.mp h
      rcases StockQuant.reserve_ok hreserve with ⟨-, rfl⟩ | ⟨q, -, -, -, rfl⟩ <;> rfl
  | release productId locId qtyMicros lotId =>
      rcases StockQuant.release_ok h with ⟨-, rfl⟩ | ⟨q, -, -, rfl⟩ <;> rfl
  | revalue productId valueMicros description companyId =>
      obtain ⟨⟨layerId, db₁⟩, hrevalue, rfl⟩ := map_ok_iff.mp h
      rcases StockQuant.revalue_ok hrevalue with ⟨-, -, rfl⟩ | ⟨p, layers, -, -, -, -, rfl⟩ <;> rfl

/-! ### Runs -/

/-- No quants, no layers, and products without stock. -/
structure EmptyStock (db : StockDb) : Prop where
  quants : db.quants = ∅
  layers : db.layers.rows = []
  products : ∀ r ∈ db.products.rows, r.2.qtyAvailable = 0 ∧ r.2.quantitySvl = 0 ∧ r.2.valueSvl = 0

lemma EmptyStock.layersSum {db : StockDb} (h : EmptyStock db) (id : ℤ) (f : Layer → ℤ) :
    db.layerSum id f = 0 := by
  show ((db.layers.rows.map _).sum : ℤ) = 0
  rw [h.layers]
  rfl

lemma EmptyStock.agrees {db : StockDb} (h : EmptyStock db) (id : ℤ) : LedgerAgrees db id := by
  have hsum : ∀ (p : QuantKey → Prop) [DecidablePred p], StockQuant.quantitySum db.quants p = 0 := by
    intro p _
    rw [StockQuant.quantitySum, h.quants, AList.sumOver_empty]
  have hrow : ∀ id p, db.products.get? id = some p →
      p.qtyAvailable = 0 ∧ p.quantitySvl = 0 ∧ p.valueSvl = 0 := by
    intro id p hp
    exact h.products (id, p) (get?_eq_some_iff.mp hp)
  constructor
  · exact hsum _
  · intro p hp
    exact (hrow id p hp).1.trans (hsum _).symm
  · intro p hp
    rw [(hrow id p hp).1, (hrow id p hp).2.1]
  · intro p hp
    rw [(hrow id p hp).2.1, h.layersSum]
  · intro p hp
    rw [(hrow id p hp).2.2, h.layersSum]

/-- **Conservation of stock.**  From empty tables, over every run of moves of
positive quantities, reservations, releases and revaluations, the copies of
every product's stock agree. -/
theorem stock_ledger_conserved (db db' : StockDb) (productId : ℤ) (h0 : EmptyStock db)
    (hrun : Reaches stockStep (fun _ e => MovesForward e.2) db db') : LedgerAgrees db' productId := by
  refine @Reaches.invariant _ _ _ _ (fun db => LedgerAgrees db productId) _ _ hrun ?_
    (h0.agrees productId)
  rintro db₁ ⟨now, op⟩ db₂ h₁ hok hs
  exact stockOp_agrees h₁ hok (stockStep_eq_some_iff.mp hs)

/-- A warehouse: an internal location, a supplier's and a customer's, and one
product without stock. -/
def smallWarehouse (p : Product) : StockDb where
  locations := ((Table.empty.insert { usage := .internal }).insert { usage := .supplier }).insert
    { usage := .customer }
  products := Table.empty.insert p

lemma smallWarehouse_empty {p : Product}
    (h : p.qtyAvailable = 0 ∧ p.quantitySvl = 0 ∧ p.valueSvl = 0) : EmptyStock (smallWarehouse p) where
  quants := rfl
  layers := rfl
  products := by
    intro r hr
    cases List.mem_singleton.mp hr
    exact h

instance : DecidablePred MovesForward
  | .applyMove _ _ _ qtyMicros _ _ _ => inferInstanceAs (Decidable (0 < qtyMicros))
  | .reserve _ _ _ _ => inferInstanceAs (Decidable True)
  | .release _ _ _ _ => inferInstanceAs (Decidable True)
  | .revalue _ _ _ _ => inferInstanceAs (Decidable True)

/-- A receipt, a landed cost and a delivery. -/
def threeOps : List (Moment × StockOp) :=
  [(february, .applyMove 1 2 1 3000000 1 2000000 0), (february, .revalue 1 500000 "freight" 1),
    (february, .applyMove 1 1 3 1000000 1 (-1) 0)]

theorem stock_ledger_conserved_delivery :
    ∃ db', execute stockStep (fun _ e => MovesForward e.2) threeOps
      (smallWarehouse { name := "Bolt" }) = some db' ∧ LedgerAgrees db' 1 := by
  obtain ⟨db', hrun⟩ : ∃ db', execute stockStep (fun _ e => MovesForward e.2) threeOps
      (smallWarehouse { name := "Bolt" }) = some db' := Option.isSome_iff_exists.mp (by decide)
  exact ⟨db', hrun, stock_ledger_conserved _ db' 1 (smallWarehouse_empty ⟨rfl, rfl, rfl⟩)
    (reaches_of_execute hrun)⟩

end CErp
