/-
The reorder scheduler: a rule whose product is forecast below its minimum drafts
a purchase or a production up to its maximum, in whole multiples.

The forecast counts what is on hand at the rule's location, and what is on the
way of its product anywhere, drafts included.  A rule asks for nothing once its
forecast has reached the minimum or the maximum, and forecasts only grow during
a run, so after a run no rule that can be served asks again
(`rerun_orders_nothing`).
-/
import CErp.MrpProduction
import CErp.StockCounts

namespace CErp

open Runs Outcome Int Table List

/-! ### Rows -/

/-- A row of `stock_warehouse_orderpoint`. -/
structure Orderpoint where
  productId : ℤ
  locationId : Option ℤ := some 4
  productMinQty : ℤ := 0
  productMaxQty : ℤ := 0
  qtyMultiple : ℤ := Money.ONE
  route : String := "buy"
  supplierId : Option ℤ := none
  companyId : Option ℤ := none
  active : Bool := true
  deriving DecidableEq

inductive PurchaseState where
  | draft
  | sent
  | purchase
  | done
  | cancel
  deriving DecidableEq

/-- A row of `purchase_order_line` with its name. -/
structure NamedOrderLine extends PurchaseOrderLine where
  name : String
  deriving DecidableEq

/-- A row of `purchase_order` with its lines. -/
structure Purchase where
  name : String
  state : PurchaseState := .draft
  partnerId : ℤ
  companyId : ℤ := 1
  origin : Option String := none
  lines : List NamedOrderLine := []
  deriving DecidableEq

/-- A row of `mrp_production` with what it makes and where. -/
structure PlannedProduction extends Production where
  name : String := "New"
  productId : ℤ
  locationSrcId : Option ℤ := none
  locationDestId : Option ℤ := none
  companyId : Option ℤ := none
  origin : Option String := none
  deriving DecidableEq

/-- A row of `product_supplierinfo`. -/
structure SupplierInfo where
  productId : Option ℤ := none
  partnerId : ℤ
  price : ℤ := 0
  sequence : ℤ := 10
  deriving DecidableEq

structure ReorderDb where
  stock : StockDb := {}
  orderpoints : Table Orderpoint := .empty
  purchases : Table Purchase := .empty
  productions : Table PlannedProduction := .empty
  suppliers : Table SupplierInfo := .empty

/-- What a run reports. -/
structure ReorderSummary where
  orderpointsChecked : ℕ := 0
  replenishmentsCreated : ℕ := 0
  skippedNoVendor : ℕ := 0
  deriving DecidableEq

namespace ReorderSummary

variable (n : ReorderSummary)

def checked : ReorderSummary := { n with orderpointsChecked := n.orderpointsChecked + 1 }

def created : ReorderSummary := { n with replenishmentsCreated := n.replenishmentsCreated + 1 }

def noVendor : ReorderSummary := { n with skippedNoVendor := n.skippedNoVendor + 1 }

end ReorderSummary

namespace ReorderRules

open StockCounts

/-! ### The forecast -/

def location (op : Orderpoint) : ℤ := op.locationId.getD 4

def company (op : Orderpoint) : ℤ := op.companyId.getD 1

/-- What a line of an open order has still to bring. -/
def openQty (productId : ℤ) (l : NamedOrderLine) : ℤ :=
  if l.productId = some productId ∧ l.qtyReceived < l.productQty then l.productQty - l.qtyReceived
  else 0

/-- `state IN ('draft','sent','purchase')`. -/
def isIncoming (s : PurchaseState) : Bool := s == .draft || s == .sent || s == .purchase

def inPurchase (db : ReorderDb) (productId : ℤ) : ℤ :=
  db.purchases.sumOver fun _ po =>
    if isIncoming po.state then (po.lines.map (openQty productId)).sum else 0

def inProduction (db : ReorderDb) (productId : ℤ) : ℤ :=
  db.productions.sumOver fun _ mo =>
    if mo.productId = productId ∧ mo.state ≠ .done ∧ mo.state ≠ .cancel then mo.productQty else 0

/-- What a rule counts on. -/
def counted (db : ReorderDb) (op : Orderpoint) : ℤ :=
  onHandAt db.stock op.productId (location op) + inPurchase db op.productId +
    inProduction db op.productId

/-- The forecast as the source adds it up: each sum is read as a 64-bit integer. -/
def forecast (db : ReorderDb) (op : Orderpoint) : Except String ℤ := do
  let onHand ← bigint (onHandAt db.stock op.productId (location op))
  let inPo ← bigint (inPurchase db op.productId)
  let inMo ← bigint (inProduction db op.productId)
  let sum ← bigint (onHand + inPo)
  bigint (sum + inMo)

/-! ### The quantity -/

/-- Up to the next multiple, where there is one. -/
def roundUp (qty mult : ℤ) : Except String ℤ := do
  if mult ≤ 0 then return qty
  let above ← bigint (qty + mult)
  bigint ((above - 1).tdiv mult * mult)

/-- What a rule asks for. -/
def toOrder (op : Orderpoint) (virt : ℤ) : Except String (Option ℤ) :=
  if op.productMinQty ≤ virt then .ok none
  else do
    let missing ← bigint (op.productMaxQty - virt)
    if missing ≤ 0 then return none
    let qty ← roundUp missing op.qtyMultiple
    return if qty ≤ 0 then none else some qty

/-! ### The replenishment -/

def origin (id : ℤ) : String := "Reordering: OP/" ++ toString id

/-- INSERT INTO mrp_production. -/
def make (db : ReorderDb) (id : ℤ) (op : Orderpoint) (qty : ℤ) : ReorderDb :=
  { db with
    productions := db.productions.insert
      { productQty := qty
        productId := op.productId
        locationSrcId := some 4
        locationDestId := some 4
        companyId := some (company op)
        origin := some (origin id) } }

/-- `ORDER BY sequence, id`. -/
def InVendorOrder (a b : ℤ × SupplierInfo) : Prop :=
  a.2.sequence < b.2.sequence ∨ (a.2.sequence = b.2.sequence ∧ a.1 ≤ b.1)

instance : DecidableRel InVendorOrder := fun a b =>
  inferInstanceAs (Decidable (a.2.sequence < b.2.sequence ∨
    (a.2.sequence = b.2.sequence ∧ a.1 ≤ b.1)))

/-- The first row of the vendor pricelist that meets a condition. -/
def firstSupplier (db : ReorderDb) (p : SupplierInfo → Bool) : Option SupplierInfo :=
  ((db.suppliers.rows.filter fun r => p r.2).insertionSort InVendorOrder).head?.map Prod.snd

/-- A listed price, where it is one. -/
def listedPrice (si : SupplierInfo) (price : ℤ) : ℤ := if 0 < si.price then si.price else price

/-- The vendor of a rule and the price it buys at; vendor 0 is none. -/
def vendorAndPrice (db : ReorderDb) (op : Orderpoint) (price : ℤ) : ℤ × ℤ :=
  let supp := op.supplierId.getD 0
  if 0 < supp then
    match firstSupplier db fun si => si.productId == some op.productId && si.partnerId == supp with
    | none => (supp, price)
    | some si => (supp, listedPrice si price)
  else
    match firstSupplier db fun si => si.productId == some op.productId with
    | none => (supp, price)
    | some si => (si.partnerId, listedPrice si price)

/-- INSERT INTO purchase_order_line. -/
def orderLine (op : Orderpoint) (productName : String) (price qty : ℤ) : NamedOrderLine where
  productId := some op.productId
  name := productName
  productQty := qty
  priceUnit := some price

/-- INSERT INTO purchase_order under the next number, and its line. -/
def purchase (now : Moment) (db : ReorderDb) (id : ℤ) (op : Orderpoint) (productName : String)
    (vendor price qty : ℤ) : Except String ReorderDb := do
  let (name, account) ← db.stock.account.nextNumber now "purchase.order"
  return { db with
    stock := { db.stock with account := account }
    purchases := db.purchases.insert
      { name := name
        partnerId := vendor
        companyId := company op
        origin := some (origin id)
        lines := [orderLine op productName price qty] } }

/-- Buy from the vendor, or count that there is none. -/
def buy (now : Moment) (s : ReorderDb × ReorderSummary) (id : ℤ) (op : Orderpoint) (qty : ℤ) :
    Except String (ReorderDb × ReorderSummary) :=
  match s.1.stock.products.get? op.productId with
  | none => .ok s
  | some p =>
      let (vendor, price) := vendorAndPrice s.1 op p.standardPrice
      if vendor ≤ 0 then .ok (s.1, s.2.noVendor)
      else (purchase now s.1 id op p.name vendor price qty).map fun db =>
        (db, s.2.created)

/-- One rule's turn. -/
def replenish (now : Moment) (s : ReorderDb × ReorderSummary) (r : ℤ × Orderpoint) :
    Except String (ReorderDb × ReorderSummary) := do
  let s := (s.1, s.2.checked)
  let virt ← forecast s.1 r.2
  match ← toOrder r.2 virt with
  | none => return s
  | some qty =>
      if r.2.route = "manufacture" then return (make s.1 r.1 r.2 qty, s.2.created)
      else buy now s r.1 r.2 qty

/-- The rules a run takes, in no particular order. -/
def activeRules (db : ReorderDb) (productFilter : ℤ) : List (ℤ × Orderpoint) :=
  db.orderpoints.rows.filter fun r =>
    r.2.active && (decide (productFilter ≤ 0) || r.2.productId == productFilter)

/-- A run over the rules in the order the database gives them. -/
def runReorderScheduler (now : Moment) (db : ReorderDb) (rules : List (ℤ × Orderpoint)) :
    Except String (ReorderDb × ReorderSummary) :=
  rules.foldlM (replenish now) (db, {})

/-- The tables after a run: one that fails is rolled back. -/
def committed (db : ReorderDb) : Except String (ReorderDb × ReorderSummary) → ReorderDb
  | .ok s => s.1
  | .error _ => db

/-! ### What a rule asks for -/

variable {op : Orderpoint}

variable {virt : ℤ}

lemma forecast_ok {db : ReorderDb} (h : forecast db op = .ok virt) : virt = counted db op := by
  obtain ⟨onHand, honHand, h⟩ := bind_ok_iff.mp h
  obtain ⟨inPo, hinPo, h⟩ := bind_ok_iff.mp h
  obtain ⟨inMo, hinMo, h⟩ := bind_ok_iff.mp h
  obtain ⟨sum, hsum, h⟩ := bind_ok_iff.mp h
  rw [bigint_ok h, bigint_ok hsum, bigint_ok hinMo, bigint_ok hinPo, bigint_ok honHand]
  rfl

variable {qty : ℤ}

/-- A whole number of multiples, less than one of them too many. -/
lemma roundUp_ok {mult v : ℤ} (hqty : 0 < qty) (h : roundUp qty mult = .ok v) :
    qty ≤ v ∧ (0 < mult → mult ∣ v ∧ v < qty + mult) ∧ (mult ≤ 0 → v = qty) := by
  unfold roundUp at h
  by_cases hmult : mult ≤ 0
  · rw [if_pos hmult] at h
    obtain rfl := pure_ok_iff.mp h
    exact ⟨le_rfl, fun hpos => absurd hpos (not_lt.mpr hmult), fun _ => rfl⟩
  · rw [if_neg hmult] at h
    obtain ⟨above, habove, h⟩ := bind_ok_iff.mp h
    obtain rfl := bigint_ok habove
    obtain rfl := bigint_ok h
    have hpos : 0 < mult := not_le.mp hmult
    rw [tdiv_eq_ediv_of_nonneg (by omega)]
    have hdiv := mul_ediv_add_emod (qty + mult - 1) mult
    have hmod := emod_nonneg (qty + mult - 1) hpos.ne'
    have hlt := emod_lt_of_pos (qty + mult - 1) hpos
    rw [mul_comm] at hdiv
    refine ⟨by omega, fun _ => ⟨dvd_mul_left _ _, by omega⟩, fun hle => absurd hle hmult⟩

/-- A quantity that takes a forecast from below the minimum to the maximum. -/
structure Fills (op : Orderpoint) (before qty after : ℤ) : Prop where
  below : before < op.productMinQty
  positive : 0 < qty
  raised : after = before + qty
  reaches : op.productMaxQty ≤ after
  multiple : 0 < op.qtyMultiple → op.qtyMultiple ∣ qty ∧ after < op.productMaxQty + op.qtyMultiple
  exactly : op.qtyMultiple ≤ 0 → after = op.productMaxQty

lemma toOrder_some (h : toOrder op virt = .ok (some qty)) : Fills op virt qty (virt + qty) := by
  unfold toOrder at h
  split at h
  · cases h
  · next hbelow =>
      obtain ⟨missing, hmissing, h⟩ := bind_ok_iff.mp h
      obtain rfl := bigint_ok hmissing
      by_cases hnone : op.productMaxQty - virt ≤ 0
      · rw [if_pos hnone] at h
        cases h
      · rw [if_neg hnone] at h
        obtain ⟨v, hv, h⟩ := bind_ok_iff.mp h
        obtain ⟨hle, hmult, hexact⟩ := roundUp_ok (not_le.mp hnone) hv
        have hpos : 0 < v := lt_of_lt_of_le (not_le.mp hnone) hle
        rw [if_neg (not_le.mpr hpos)] at h
        obtain rfl := Option.some.inj (pure_ok_iff.mp h)
        refine ⟨not_le.mp hbelow, hpos, rfl, by omega, fun h => ?_, fun h => ?_⟩
        · obtain ⟨hdvd, hlt⟩ := hmult h
          exact ⟨hdvd, by omega⟩
        · have := hexact h
          omega

/-- The forecast has reached the minimum, or else the maximum. -/
def Enough (op : Orderpoint) (virt : ℤ) : Prop :=
  op.productMinQty ≤ virt ∨ op.productMaxQty ≤ virt

lemma toOrder_enough {asked : Option ℤ} (henough : Enough op virt)
    (h : toOrder op virt = .ok asked) : asked = none := by
  rcases asked with - | qty
  · rfl
  · have hfills := toOrder_some h
    unfold toOrder at h
    rw [if_neg (not_le.mpr hfills.below)] at h
    obtain ⟨missing, hmissing, h⟩ := bind_ok_iff.mp h
    obtain rfl := bigint_ok hmissing
    have hmax : op.productMaxQty - virt ≤ 0 := by
      rcases henough with hmin | hmax
      · exact absurd hmin (not_le.mpr hfills.below)
      · omega
    rw [if_pos hmax] at h
    cases h

lemma enough_of_none (h : toOrder op virt = .ok none) : Enough op virt := by
  unfold toOrder at h
  split at h
  · next hmin => exact .inl hmin
  · obtain ⟨missing, hmissing, h⟩ := bind_ok_iff.mp h
    obtain rfl := bigint_ok hmissing
    by_cases hmax : op.productMaxQty - virt ≤ 0
    · exact .inr (by omega)
    · rw [if_neg hmax] at h
      obtain ⟨v, hv, h⟩ := bind_ok_iff.mp h
      obtain ⟨hle, -, -⟩ := roundUp_ok (not_le.mp hmax) hv
      rw [if_neg (by omega)] at h
      cases pure_ok_iff.mp h

/-! ### What a turn does -/

/-- There is somebody to buy from, or the product is made. -/
def Served (db : ReorderDb) (op : Orderpoint) : Prop :=
  op.route = "manufacture" ∨ ∃ p, db.stock.products.get? op.productId = some p ∧
    0 < (vendorAndPrice db op p.standardPrice).1

/-- A draft brings a quantity of a product. -/
structure Drafted (db db' : ReorderDb) (op : Orderpoint) (qty : ℤ) : Prop where
  counted_eq : ∀ op', counted db' op' =
    counted db op' + if op'.productId = op.productId then qty else 0
  orderpoints_eq : db'.orderpoints = db.orderpoints
  served_iff : ∀ op', Served db' op' ↔ Served db op'

lemma make_drafted (db : ReorderDb) (id : ℤ) (op : Orderpoint) (qty : ℤ) :
    Drafted db (make db id op qty) op qty := by
  refine ⟨fun op' => ?_, rfl, fun op' => Iff.rfl⟩
  have hmade : inProduction (make db id op qty) op'.productId =
      inProduction db op'.productId + if op'.productId = op.productId then qty else 0 := by
    unfold inProduction make
    rw [sumOver_insert]
    congr 1
    simp [eq_comm]
  show onHandAt db.stock _ _ + inPurchase db _ + inProduction (make db id op qty) _ = _
  rw [hmade]
  unfold counted
  ring

lemma purchase_drafted {now : Moment} {db db' : ReorderDb} {id : ℤ} {name : String}
    {vendor price : ℤ} (hqty : 0 < qty)
    (h : purchase now db id op name vendor price qty = .ok db') : Drafted db db' op qty := by
  obtain ⟨⟨number, account⟩, -, h⟩ := bind_ok_iff.mp h
  obtain rfl := pure_ok_iff.mp h
  refine ⟨fun op' => ?_, rfl, fun op' => Iff.rfl⟩
  unfold counted inPurchase
  rw [sumOver_insert]
  have hbought : (if isIncoming PurchaseState.draft = true then
      ([orderLine op name price qty].map (openQty op'.productId)).sum else 0) =
        if op'.productId = op.productId then qty else 0 := by
    have hdraft : isIncoming PurchaseState.draft = true := by decide
    rw [if_pos hdraft, map_singleton, sum_singleton]
    simp [openQty, orderLine, hqty, eq_comm]
  show onHandAt db.stock _ _ + (_ + _) + inProduction db _ = _
  rw [hbought]
  ring

section Turn

variable {now : Moment} {s s' : ReorderDb × ReorderSummary} {r : ℤ × Orderpoint}

/-- A turn that drafts nothing leaves the tables as they are. -/
structure Passed (s s' : ReorderDb × ReorderSummary) : Prop where
  tables : s'.1 = s.1
  created_eq : s'.2.replenishmentsCreated = s.2.replenishmentsCreated

lemma buy_cases {id : ℤ} (hqty : 0 < qty) (h : buy now s id op qty = .ok s') :
    (Passed s s' ∧ (op.route ≠ "manufacture" → ¬Served s.1 op)) ∨
    (Served s.1 op ∧ Drafted s.1 s'.1 op qty ∧
      s'.2.replenishmentsCreated = s.2.replenishmentsCreated + 1) := by
  unfold buy at h
  split at h
  · next hproduct =>
      obtain rfl := Except.ok.inj h
      refine .inl ⟨⟨rfl, rfl⟩, ?_⟩
      rintro hroute (hmade | ⟨p, hp, -⟩)
      · exact hroute hmade
      · rw [hproduct] at hp
        cases hp
  · next p hproduct =>
      dsimp only at h
      split at h
      · next hnone =>
          obtain rfl := Except.ok.inj h
          refine .inl ⟨⟨rfl, rfl⟩, ?_⟩
          rintro hroute (hmade | ⟨p', hp', hvendor⟩)
          · exact hroute hmade
          · rw [hproduct] at hp'
            cases hp'
            exact absurd hvendor (not_lt.mpr hnone)
      · next hvendor =>
          obtain ⟨db, hdb, rfl⟩ := map_ok_iff.mp h
          exact .inr ⟨.inr ⟨p, hproduct, not_le.mp hvendor⟩, purchase_drafted hqty hdb, rfl⟩

/-- A turn passes when there is enough or nobody to buy from, and else drafts
what the rule asks for. -/
lemma replenish_cases (h : replenish now s r = .ok s') :
    (Passed s s' ∧ (Enough r.2 (counted s.1 r.2) ∨ ¬Served s.1 r.2)) ∨
    (Served s.1 r.2 ∧ s'.2.replenishmentsCreated = s.2.replenishmentsCreated + 1 ∧
      ∃ qty, Fills r.2 (counted s.1 r.2) qty (counted s'.1 r.2) ∧
        ¬Enough r.2 (counted s.1 r.2) ∧ Drafted s.1 s'.1 r.2 qty) := by
  obtain ⟨virt, hvirt, h⟩ := bind_ok_iff.mp h
  obtain rfl := forecast_ok hvirt
  obtain ⟨asked, hasked, h⟩ := bind_ok_iff.mp h
  rcases asked with - | qty
  · obtain rfl := pure_ok_iff.mp h
    exact .inl ⟨⟨rfl, rfl⟩, .inl (enough_of_none hasked)⟩
  have hfills := toOrder_some hasked
  have hshort : ¬Enough r.2 (counted s.1 r.2) := fun henough => nomatch toOrder_enough henough hasked
  have hafter : ∀ db', Drafted s.1 db' r.2 qty →
      Fills r.2 (counted s.1 r.2) qty (counted db' r.2) := by
    intro db' hdrafted
    rw [hdrafted.counted_eq r.2, if_pos rfl]
    exact hfills
  dsimp only at h
  split at h
  · next hroute =>
      obtain rfl := pure_ok_iff.mp h
      have hdrafted := make_drafted s.1 r.1 r.2 qty
      exact .inr ⟨.inl hroute, rfl, qty, hafter _ hdrafted, hshort, hdrafted⟩
  · next hroute =>
      rcases buy_cases hfills.positive h with ⟨hpassed, hunserved⟩ | ⟨hserved, hdrafted, hcreated⟩
      · exact .inl ⟨⟨hpassed.tables, hpassed.created_eq⟩, .inr (hunserved hroute)⟩
      · exact .inr ⟨hserved, hcreated, qty, hafter _ hdrafted, hshort, hdrafted⟩

end Turn

/-! ### Runs -/

/-- The rule will not ask, or nobody can serve it. -/
def Settled (db : ReorderDb) (op : Orderpoint) : Prop :=
  Enough op (counted db op) ∨ ¬Served db op

section Run

variable {now : Moment} {s s' : ReorderDb × ReorderSummary} {r : ℤ × Orderpoint}

lemma settled_of_replenish (h : replenish now s r = .ok s') : Settled s'.1 r.2 := by
  rcases replenish_cases h with ⟨hpassed, hquiet⟩ | ⟨-, -, qty, hfills, -, -⟩
  · rw [hpassed.tables]
    exact hquiet
  · exact .inl (.inr hfills.reaches)

/-- A draft for one rule counts for the others of its product. -/
lemma settled_keeps (h : replenish now s r = .ok s') (hop : Settled s.1 op) :
    Settled s'.1 op := by
  rcases replenish_cases h with ⟨hpassed, -⟩ | ⟨-, -, qty, hfills, -, hdrafted⟩
  · rw [hpassed.tables]
    exact hop
  · unfold Settled
    rw [hdrafted.served_iff, hdrafted.counted_eq]
    refine hop.imp_left fun henough => ?_
    have hmore : 0 ≤ if op.productId = r.2.productId then qty else 0 := by
      split
      · exact hfills.positive.le
      · exact le_rfl
    exact henough.imp (fun hmin => by omega) (fun hmax => by omega)

lemma passed_of_settled (hquiet : Settled s.1 r.2) (h : replenish now s r = .ok s') :
    Passed s s' := by
  rcases replenish_cases h with ⟨hpassed, -⟩ | ⟨hserved, -, qty, -, hshort, -⟩
  · exact hpassed
  · rcases hquiet with henough | hunserved
    · exact absurd henough hshort
    · exact absurd hserved hunserved

lemma orderpoints_of_replenish (h : replenish now s r = .ok s') :
    s'.1.orderpoints = s.1.orderpoints := by
  rcases replenish_cases h with ⟨hpassed, -⟩ | ⟨-, -, qty, -, -, hdrafted⟩
  · rw [hpassed.tables]
  · exact hdrafted.orderpoints_eq

variable {rules : List (ℤ × Orderpoint)}

/-- A run over settled rules drafts nothing. -/
lemma passed_of_all_settled (hquiet : ∀ r ∈ rules, Settled s.1 r.2)
    (h : rules.foldlM (replenish now) s = .ok s') : Passed s s' := by
  induction rules generalizing s with
  | nil =>
      obtain rfl := pure_ok_iff.mp h
      exact ⟨rfl, rfl⟩
  | cons r rules ih =>
      obtain ⟨m, hm, hrest⟩ := foldlM_cons_ok.mp h
      rw [forall_mem_cons] at hquiet
      have hpassed := passed_of_settled hquiet.1 hm
      have hlater := ih (fun r hr => hpassed.tables ▸ hquiet.2 r hr) hrest
      exact ⟨hlater.tables.trans hpassed.tables, hlater.created_eq.trans hpassed.created_eq⟩

end Run

/-- **A second run drafts nothing**, whatever order the database gives the rules
in, and also where it fails.  In the first one every draft fills its rule up: to
the maximum or beyond it by less than a multiple, and so to the minimum where
the maximum is no smaller. -/
theorem rerun_orders_nothing {now now' : Moment} {db : ReorderDb} {productFilter : ℤ}
    {rules rules' : List (ℤ × Orderpoint)} {s : ReorderDb × ReorderSummary}
    (hrules : rules.Perm (activeRules db productFilter))
    (h : runReorderScheduler now db rules = .ok s)
    (hrules' : rules'.Perm (activeRules s.1 productFilter)) :
    (committed s.1 (runReorderScheduler now' s.1 rules') = s.1 ∧
      ∀ s', runReorderScheduler now' s.1 rules' = .ok s' → s'.2.replenishmentsCreated = 0) ∧
    InTurn (replenish now) (fun m r => ∀ m', replenish now m r = .ok m' → Passed m m' ∨
      m'.2.replenishmentsCreated = m.2.replenishmentsCreated + 1 ∧
      ∃ qty, Fills r.2 (counted m.1 r.2) qty (counted m'.1 r.2) ∧
        (r.2.productMinQty ≤ r.2.productMaxQty → r.2.productMinQty ≤ counted m'.1 r.2))
      (db, {}) rules := by
  have hsettled : ∀ r ∈ rules, Settled s.1 r.2 :=
    foldlM_settles (P := fun (m : ReorderDb × ReorderSummary) (r : ℤ × Orderpoint) => Settled m.1 r.2)
      (fun _ _ _ _ hone hb => settled_keeps hone hb) (fun _ _ _ hone => settled_of_replenish hone) h
  -- the second run takes the rules of the first
  have hsame : s.1.orderpoints = db.orderpoints :=
    foldlM_keeps (fun m => m.1.orderpoints = db.orderpoints)
      (fun _ _ _ hm hone => (orderpoints_of_replenish hone).trans hm) h rfl
  have hagain : ∀ r ∈ rules', Settled s.1 r.2 := by
    intro r hr
    have hr' := hrules'.mem_iff.mp hr
    unfold activeRules at hr'
    rw [hsame] at hr'
    exact hsettled r (hrules.mem_iff.mpr hr')
  refine ⟨⟨?_, ?_⟩, inTurn_of_step _ ?_⟩
  · rcases hrun : runReorderScheduler now' s.1 rules' with msg | s'
    · rfl
    · exact (passed_of_all_settled (s := (s.1, {})) hagain hrun).tables
  · intro s' hrun
    exact (passed_of_all_settled (s := (s.1, {})) hagain hrun).created_eq
  · intro m r m' hone
    rcases replenish_cases hone with ⟨hpassed, -⟩ | ⟨-, hcreated, qty, hfills, -, -⟩
    · exact .inl hpassed
    · exact .inr ⟨hcreated, qty, hfills, fun hle => hle.trans hfills.reaches⟩

/-- Between 10 and 20 pieces, in packs of 6. -/
def packedRule : Orderpoint where
  productId := 1
  productMinQty := 10000000
  productMaxQty := 20000000
  qtyMultiple := 6000000
  route := "manufacture"

/-- A minimum of 10 pieces over a maximum of 5. -/
def invertedRule : Orderpoint where
  productId := 1
  productMinQty := 10000000
  productMaxQty := 5000000
  route := "manufacture"

def oneRule (op : Orderpoint) : ReorderDb where
  orderpoints := empty.insert op

/-- Twenty pieces are four packs, and one run is enough. -/
theorem packedRule_rerun : ∃ s,
    runReorderScheduler february (oneRule packedRule) [(1, packedRule)] = .ok s ∧
    counted s.1 packedRule = 24000000 ∧
    committed s.1 (runReorderScheduler february s.1 [(1, packedRule)]) = s.1 := by
  have hrun : runReorderScheduler february (oneRule packedRule) [(1, packedRule)] =
      .ok (make (oneRule packedRule) 1 packedRule 24000000, ⟨1, 1, 0⟩) := rfl
  have hrules : [(1, packedRule)].Perm (activeRules (oneRule packedRule) 0) := .refl _
  exact ⟨_, hrun, rfl, (rerun_orders_nothing hrules hrun hrules).1.1⟩

/-- A maximum below the minimum leaves the forecast below the minimum. -/
theorem inverted_stays_below : ¬ ∀ (now : Moment) (db : ReorderDb) (rules : List (ℤ × Orderpoint)),
      rules.Perm (activeRules db 0) →
      InTurn (replenish now) (fun m r => ∀ m', replenish now m r = .ok m' → Passed m m' ∨
        r.2.productMinQty ≤ counted m'.1 r.2) (db, {}) rules := by
  intro h
  have hrun : replenish february (oneRule invertedRule, {}) (1, invertedRule) =
      .ok (make (oneRule invertedRule) 1 invertedRule 5000000, ⟨1, 1, 0⟩) := rfl
  rcases (h february (oneRule invertedRule) [(1, invertedRule)] (.refl _)).1 _ hrun with hpassed | hmin
  · exact absurd hpassed.created_eq (by decide)
  · have hcounted : counted (make (oneRule invertedRule) 1 invertedRule 5000000) invertedRule =
        5000000 := rfl
    rw [hcounted] at hmin
    exact absurd hmin (by decide)

end ReorderRules

end CErp
