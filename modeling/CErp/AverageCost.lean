/-
The value of a product at average cost.

A receipt stores the truncated average of what is then there, and an issue takes
its quantity out at that average, truncated again.  Both truncations are in the
stock's favour, so the value never falls below quantity times average and never
below zero (`AverageRow.price`).  What they leave behind stays when the last
unit goes, unless the stored average is exact (`AverageRow.empties_iff`).
-/
import CErp.StockLedger

namespace CErp

open Runs Outcome Money Int

variable {qtyMicros : ℤ}

namespace StockQuant

/-! ### Products and quotients of micro-units -/

lemma fits_of_nonneg {v : ℤ} (h0 : 0 ≤ v) (h : v ≤ int64Max) : FitsInt64 v := by
  refine ⟨?_, h⟩
  unfold int64Min
  omega

lemma mulMicros_of_nonneg {q c : ℤ} (hq : 0 ≤ q) (hc : 0 ≤ c)
    (h : q * c / 1000000 ≤ int64Max) : mulMicros q c = q * c / 1000000 := by
  have hqc : 0 ≤ q * c := Int.mul_nonneg hq hc
  rw [mulMicros, tdiv_eq_ediv_of_nonneg hqc]
  apply toInt64_of_fits
  exact fits_of_nonneg (ediv_nonneg hqc (by decide)) h

lemma divMicros_of_nonneg {v q : ℤ} (hv : 0 ≤ v) (hq : 0 < q)
    (h : v * 1000000 / q ≤ int64Max) : divMicros v q = v * 1000000 / q := by
  have hv' : 0 ≤ v * 1000000 := by omega
  rw [divMicros, if_neg hq.ne', tdiv_eq_ediv_of_nonneg hv']
  apply toInt64_of_fits
  exact fits_of_nonneg (ediv_nonneg hv' hq.le) h

/-! ### The invariant -/

/-- A product at average cost whose value covers its quantity at the stored
average, and is nothing when the quantity is. -/
structure AverageRow (p : Product) : Prop where
  method : p.costMethod = .average
  quantity : 0 ≤ p.quantitySvl
  value : 0 ≤ p.valueSvl
  fits : p.valueSvl ≤ int64Max
  price : 0 < p.quantitySvl →
    0 ≤ p.standardPrice ∧ p.quantitySvl * p.standardPrice ≤ p.valueSvl * 1000000
  nothing : p.quantitySvl = 0 → p.valueSvl = 0

section Row

variable {p : Product} (h : AverageRow p)
include h

/-- The value of a receipt and the average it leads to fit. -/
lemma AverageRow.received {unitCost : ℤ} (hqty : 0 < qtyMicros) (hcost : 0 ≤ unitCost)
    (hlayer : qtyMicros * unitCost / 1000000 ≤ int64Max)
    (haverage : (p.valueSvl + qtyMicros * unitCost / 1000000) * 1000000 /
      (p.quantitySvl + qtyMicros) ≤ int64Max)
    (hfits : FitsInt64 (p.valueSvl + mulMicros qtyMicros unitCost)) :
    AverageRow (received qtyMicros (mulMicros qtyMicros unitCost) p) := by
  have hvalue := mulMicros_of_nonneg hqty.le hcost hlayer
  rw [hvalue] at hfits ⊢
  have hadded : 0 ≤ qtyMicros * unitCost / 1000000 :=
    ediv_nonneg (Int.mul_nonneg hqty.le hcost) (by decide)
  have hv : 0 ≤ p.valueSvl + qtyMicros * unitCost / 1000000 := Int.add_nonneg h.value hadded
  have hq : 0 < p.quantitySvl + qtyMicros := Int.add_pos_of_nonneg_of_pos h.quantity hqty
  have hprice := divMicros_of_nonneg hv hq haverage
  constructor
  · exact h.method
  · exact hq.le
  · exact hv
  · exact hfits.2
  · intro _
    simp only [StockQuant.received, h.method, hq, and_self, if_true, hprice]
    constructor
    · exact ediv_nonneg (by omega) hq.le
    · rw [mul_comm]
      exact Int.ediv_mul_le _ hq.ne'
  · intro hzero
    exact absurd hzero hq.ne'

/-- What an issue takes out at the average is no more than the value there is. -/
lemma AverageRow.issue_le (hqty : 0 < qtyMicros) (hle : qtyMicros ≤ p.quantitySvl) :
    mulMicros qtyMicros p.standardPrice = qtyMicros * p.standardPrice / 1000000 ∧
      (p.quantitySvl - qtyMicros) * p.standardPrice ≤
        (p.valueSvl - qtyMicros * p.standardPrice / 1000000) * 1000000 := by
  obtain ⟨hstd, hcover⟩ := h.price (hqty.trans_le hle)
  have hpart : qtyMicros * p.standardPrice ≤ p.quantitySvl * p.standardPrice :=
    Int.mul_le_mul_of_nonneg_right hle hstd
  have htrunc := Int.ediv_mul_le (qtyMicros * p.standardPrice) (show (1000000 : ℤ) ≠ 0 by decide)
  have hmost : qtyMicros * p.standardPrice / 1000000 ≤ int64Max := by
    have := h.fits
    omega
  refine ⟨mulMicros_of_nonneg hqty.le hstd hmost, ?_⟩
  rw [Int.sub_mul, Int.sub_mul]
  omega

/-- **The last unit** takes the whole value with it exactly when the stored
average is exact. -/
theorem AverageRow.empties_iff (hqty : 0 < p.quantitySvl) :
    p.valueSvl - mulMicros p.quantitySvl p.standardPrice = 0 ↔
      p.quantitySvl * p.standardPrice = p.valueSvl * 1000000 := by
  obtain ⟨-, hcover⟩ := h.price hqty
  rw [(h.issue_le hqty le_rfl).1]
  constructor
  · intro hzero
    have htrunc := Int.ediv_mul_le (p.quantitySvl * p.standardPrice)
      (show (1000000 : ℤ) ≠ 0 by decide)
    omega
  · intro hexact
    rw [hexact, mul_ediv_cancel _ (by decide)]
    exact sub_self _

lemma AverageRow.issued (hqty : 0 < qtyMicros) (hle : qtyMicros ≤ p.quantitySvl)
    (hexact : qtyMicros = p.quantitySvl → p.quantitySvl * p.standardPrice = p.valueSvl * 1000000) :
    AverageRow (issued qtyMicros (mulMicros qtyMicros p.standardPrice) p) := by
  obtain ⟨hvalue, hcover⟩ := h.issue_le hqty hle
  obtain ⟨hstd, -⟩ := h.price (hqty.trans_le hle)
  have hrest : 0 ≤ (p.quantitySvl - qtyMicros) * p.standardPrice :=
    Int.mul_nonneg (sub_nonneg.mpr hle) hstd
  have htaken : 0 ≤ qtyMicros * p.standardPrice / 1000000 :=
    ediv_nonneg (Int.mul_nonneg hqty.le hstd) (by decide)
  constructor
  · exact h.method
  · exact sub_nonneg.mpr hle
  · show 0 ≤ p.valueSvl - mulMicros qtyMicros p.standardPrice
    omega
  · show p.valueSvl - mulMicros qtyMicros p.standardPrice ≤ int64Max
    have := h.fits
    omega
  · intro _
    refine ⟨hstd, ?_⟩
    show (p.quantitySvl - qtyMicros) * p.standardPrice ≤
      (p.valueSvl - mulMicros qtyMicros p.standardPrice) * 1000000
    rw [hvalue]
    exact hcover
  · intro hzero
    have hall : qtyMicros = p.quantitySvl := by
      have : p.quantitySvl - qtyMicros = 0 := hzero
      omega
    show p.valueSvl - mulMicros qtyMicros p.standardPrice = 0
    rw [hall]
    exact (h.empties_iff (hqty.trans_le hle)).mpr (hexact hall)

end Row

end StockQuant

/-! ### Runs -/

open StockQuant

/-- No value is left of a product without a quantity, and none is below zero. -/
def NoPhantomValue (db : StockDb) (productId : ℤ) : Prop :=
  ∀ p, db.products.get? productId = some p → (p.quantitySvl = 0 → p.valueSvl = 0) ∧ 0 ≤ p.valueSvl

/-- The product is moved only, received at costs that are not negative and
never issued beyond its quantity. -/
def MovesInStock (productId : ℤ) (db : StockDb) : StockOp → Prop
  | .applyMove id src dest qtyMicros _ inputCostMicros _ =>
      id = productId → 0 < qtyMicros → ∀ p, db.products.get? id = some p →
        (db.isInternal src = false → db.isInternal dest = true → 0 ≤ inputCostMicros) ∧
        (db.isInternal src = true → db.isInternal dest = false → qtyMicros ≤ p.quantitySvl)
  | .revalue id _ _ _ => id ≠ productId
  | .reserve _ _ _ _ | .release _ _ _ _ => True

/-- A receipt's value and the average after it fit 64 bits, and the last unit
is issued at an exact average. -/
def EmptiesExactly (productId : ℤ) (db : StockDb) : StockOp → Prop
  | .applyMove id src dest qtyMicros _ inputCostMicros _ =>
      id = productId → 0 < qtyMicros → ∀ p, db.products.get? id = some p →
        (db.isInternal src = false → db.isInternal dest = true →
          qtyMicros * inputCostMicros / 1000000 ≤ int64Max ∧
          (p.valueSvl + qtyMicros * inputCostMicros / 1000000) * 1000000 /
            (p.quantitySvl + qtyMicros) ≤ int64Max) ∧
        (db.isInternal src = true → db.isInternal dest = false → qtyMicros = p.quantitySvl →
          p.quantitySvl * p.standardPrice = p.valueSvl * 1000000)
  | _ => True

/-- The product of the number is at average cost, and its value covers it. -/
def AverageState (productId : ℤ) (db : StockDb) : Prop :=
  ∀ p, db.products.get? productId = some p → AverageRow p

section Steps

variable {productId : ℤ} {db db' : StockDb}

/-- The quantity on hand does not matter. -/
lemma AverageState.moved (h : AverageState productId db)
    (id src dest qtyMicros companyId lotId : ℤ) :
    AverageState productId (StockQuant.moved db id src dest qtyMicros companyId lotId) := by
  intro p' hp'
  rw [products_moved] at hp'
  obtain ⟨p, hp, rfl⟩ := get?_modify_product hp'
  have hrow := h p hp
  split
  · exact ⟨hrow.method, hrow.quantity, hrow.value, hrow.fits, hrow.price, hrow.nothing⟩
  · exact hrow

/-- Another product changed. -/
lemma AverageState.other (h : AverageState productId db) {id : ℤ} {f : Product → Product}
    (hne : id ≠ productId) (hproducts : db'.products = db.products.modify id f) :
    AverageState productId db' := by
  intro p hp
  rw [hproducts, Table.get?_modify_of_ne _ _ hne.symm] at hp
  exact h p hp

lemma valued_average {now : Moment} {id src dest companyId inputCostMicros : ℤ}
    (h0 : AverageState productId db)
    (hmoves : id = productId → 0 < qtyMicros → ∀ p, db.products.get? id = some p →
      (db.isInternal src = false → db.isInternal dest = true → 0 ≤ inputCostMicros) ∧
      (db.isInternal src = true → db.isInternal dest = false → qtyMicros ≤ p.quantitySvl))
    (hempties : id = productId → 0 < qtyMicros → ∀ p, db.products.get? id = some p →
      (db.isInternal src = false → db.isInternal dest = true →
        qtyMicros * inputCostMicros / 1000000 ≤ int64Max ∧
        (p.valueSvl + qtyMicros * inputCostMicros / 1000000) * 1000000 /
          (p.quantitySvl + qtyMicros) ≤ int64Max) ∧
      (db.isInternal src = true → db.isInternal dest = false → qtyMicros = p.quantitySvl →
        p.quantitySvl * p.standardPrice = p.valueSvl * 1000000))
    (h : Valued now db id src dest qtyMicros companyId inputCostMicros db') :
    AverageState productId db' := by
  by_cases hid : id = productId
  · subst hid
    cases h with
    | unchanged _ => exact h0
    | @receipt p link account hqty hsrc hdest hp hfits _ =>
        have hcost := (hmoves rfl hqty p hp).1 hsrc hdest
        obtain ⟨hlayer, haverage⟩ := (hempties rfl hqty p hp).1 hsrc hdest
        have hunit : receiptCost p inputCostMicros = inputCostMicros := if_pos hcost
        rw [hunit] at hfits ⊢
        intro p' hp'
        obtain ⟨p₁, hp₁, rfl⟩ := get?_modify_product hp'
        obtain rfl : p = p₁ := Option.some.inj (hp.symm.trans hp₁)
        rw [if_pos rfl]
        exact (h0 p hp).received hqty hcost hlayer haverage hfits
    | @issue p outValue layers link account hqty hsrc hdest hp hissue _ _ =>
        have hrow := h0 p hp
        unfold issueValue at hissue
        rw [if_neg (by rw [hrow.method]; decide)] at hissue
        cases hissue
        intro p' hp'
        obtain ⟨p₁, hp₁, rfl⟩ := get?_modify_product hp'
        obtain rfl : p = p₁ := Option.some.inj (hp.symm.trans hp₁)
        rw [if_pos rfl]
        exact hrow.issued hqty ((hmoves rfl hqty p hp).2 hsrc hdest)
          ((hempties rfl hqty p hp).2 hsrc hdest)
  · cases h with
    | unchanged _ => exact h0
    | receipt _ _ _ _ _ _ => exact h0.other hid rfl
    | issue _ _ _ _ _ _ _ => exact h0.other hid rfl

lemma stockOp_average {now : Moment} {op : StockOp} (h0 : AverageState productId db)
    (hmoves : MovesInStock productId db op) (hempties : EmptiesExactly productId db op)
    (h : op.run now db = .ok db') : AverageState productId db' := by
  cases op with
  | applyMove id src dest qtyMicros companyId inputCostMicros lotId =>
      rcases applyMove_ok h with ⟨-, rfl⟩ | ⟨-, -, -, hvalued⟩
      · exact h0
      · refine valued_average (h0.moved id src dest qtyMicros companyId lotId) ?_ ?_ hvalued
        · intro hid hqty p' hp'
          rw [products_moved] at hp'
          obtain ⟨p, hp, rfl⟩ := get?_modify_product hp'
          rw [if_pos rfl]
          exact hmoves hid hqty p hp
        · intro hid hqty p' hp'
          rw [products_moved] at hp'
          obtain ⟨p, hp, rfl⟩ := get?_modify_product hp'
          rw [if_pos rfl]
          exact hempties hid hqty p hp
  | reserve id locId qtyMicros lotId =>
      obtain ⟨⟨got, db₁⟩, hreserve, rfl⟩ := map_ok_iff.mp h
      rcases reserve_ok hreserve with ⟨-, rfl⟩ | ⟨q, -, -, -, rfl⟩
      · exact h0
      · exact h0
  | release id locId qtyMicros lotId =>
      rcases release_ok h with ⟨-, rfl⟩ | ⟨q, -, -, rfl⟩
      · exact h0
      · exact h0
  | revalue id valueMicros description companyId =>
      obtain ⟨⟨layerId, db₁⟩, hrevalue, rfl⟩ := map_ok_iff.mp h
      rcases revalue_ok hrevalue with ⟨-, -, rfl⟩ | ⟨p, layers, -, -, -, -, rfl⟩
      · exact h0
      · exact h0.other hmoves rfl

end Steps

/-- **Average cost.**  In every run that keeps a product in stock and issues
its last unit at an exact average only, no value is left when the quantity is
gone, and none goes below zero. -/
theorem average_leaves_nothing (db db' : StockDb) (productId : ℤ) (h0 : EmptyStock db)
    (haverage : ∀ p, db.products.get? productId = some p → p.costMethod = .average)
    (hrun : Reaches stockStep
      (fun db e => MovesInStock productId db e.2 ∧ EmptiesExactly productId db e.2) db db') :
    NoPhantomValue db' productId := by
  have hstart : AverageState productId db := by
    intro p hp
    obtain ⟨-, hquantity, hvalue⟩ := h0.products (productId, p) (Table.get?_eq_some_iff.mp hp)
    refine ⟨haverage p hp, hquantity.ge, hvalue.ge, ?_, ?_, fun _ => hvalue⟩
    · exact hvalue.trans_le (by decide)
    · intro hpos
      exact absurd hquantity hpos.ne'
  have hinv : AverageState productId db' := by
    refine hrun.invariant ?_ hstart
    rintro db₁ ⟨now, op⟩ db₂ h₁ ⟨hmoves, hempties⟩ hs
    exact stockOp_average h₁ hmoves hempties (stockStep_eq_some_iff.mp hs)
  intro p hp
  exact ⟨(hinv p hp).nothing, (hinv p hp).value⟩

/-- A product at average cost. -/
def averageBolt : Product where
  name := "Bolt"
  costMethod := .average

theorem average_leaves_nothing_receipt :
    ∃ db', (StockOp.applyMove 1 2 1 3000000 1 2000000 0).run february (smallWarehouse averageBolt) =
      .ok db' ∧ NoPhantomValue db' 1 := by
  obtain ⟨db', hrun⟩ : ∃ db', (StockOp.applyMove 1 2 1 3000000 1 2000000 0).run february
      (smallWarehouse averageBolt) = .ok db' := exists_ok (by decide)
  refine ⟨db', hrun, average_leaves_nothing (smallWarehouse averageBolt) db' 1
    (smallWarehouse_empty ⟨rfl, rfl, rfl⟩) ?_ ?_⟩
  · intro p hp
    cases hp
    rfl
  · refine Relation.ReflTransGen.single ⟨(february, .applyMove 1 2 1 3000000 1 2000000 0),
      ⟨?_, ?_⟩, stockStep_eq_some_iff.mpr hrun⟩
    · intro _ _ p _
      refine ⟨fun _ _ => by decide, ?_⟩
      intro hsrc
      cases hsrc
    · intro _ _ p hp
      cases hp
      refine ⟨fun _ _ => ⟨by decide, by decide⟩, ?_⟩
      intro hsrc
      cases hsrc

/-- Three units, received at one and at two, average a repeating decimal; when
they are gone a value of two micro-units is left. -/
theorem average_leaves_two_micros : ¬ ∀ (db db' : StockDb) (productId : ℤ), EmptyStock db →
      (∀ p, db.products.get? productId = some p → p.costMethod = .average) →
      Reaches stockStep (fun db e => MovesInStock productId db e.2) db db' →
        NoPhantomValue db' productId := by
  intro h
  have hrun : ((do
      let db₁ ← (StockOp.applyMove 1 2 1 1000000 1 1000000 0).run february (smallWarehouse averageBolt)
      let db₂ ← (StockOp.applyMove 1 2 1 2000000 1 2000000 0).run february db₁
      require ((db₂.products.get? 1).all fun p => decide (3000000 ≤ p.quantitySvl)) ""
      let db₃ ← (StockOp.applyMove 1 1 3 3000000 1 (-1) 0).run february db₂
      require ((db₃.products.get? 1).any fun p =>
        decide (p.quantitySvl = 0 ∧ p.valueSvl = 2)) "") : Except String Unit).isOk = true := by
    decide
  obtain ⟨_, hrun⟩ := exists_ok hrun
  obtain ⟨db₁, hone, hrun⟩ := bind_ok_iff.mp hrun
  obtain ⟨db₂, htwo, hrun⟩ := bind_ok_iff.mp hrun
  obtain ⟨_, hthree, hrun⟩ := bind_ok_iff.mp hrun
  obtain ⟨db₃, hissue, hrun⟩ := bind_ok_iff.mp hrun
  obtain ⟨p, hp, hleft⟩ := (Option.any_eq_true _ _).mp (require_ok_iff.mp hrun)
  obtain ⟨hquantity, hvalue⟩ := of_decide_eq_true hleft
  have hlocations := stockOp_locations hone
  have hlocations₂ := (stockOp_locations htwo).trans hlocations
  -- a receipt has no condition but its cost, and the issue finds its three units
  have hreceipt : ∀ (db : StockDb) (qtyMicros cost : ℤ), 0 ≤ cost →
      db.locations = (smallWarehouse averageBolt).locations →
      MovesInStock 1 db (.applyMove 1 2 1 qtyMicros 1 cost 0) := by
    intro db qtyMicros cost hcost hdb _ _ p _
    rw [isInternal_congr hdb]
    refine ⟨fun _ _ => hcost, ?_⟩
    intro hsrc
    cases hsrc
  have hissued : MovesInStock 1 db₂ (.applyMove 1 1 3 3000000 1 (-1) 0) := by
    intro _ _ p hp
    rw [isInternal_congr hlocations₂]
    constructor
    · intro hsrc
      cases hsrc
    · intro _ _
      rw [hp] at hthree
      exact of_decide_eq_true (require_ok_iff.mp hthree)
  have hreach : Reaches stockStep (fun db e => MovesInStock 1 db e.2) (smallWarehouse averageBolt)
      db₃ := by
    refine ((Relation.ReflTransGen.single ⟨(february, .applyMove 1 2 1 1000000 1 1000000 0),
      hreceipt _ _ _ (by decide) rfl, stockStep_eq_some_iff.mpr hone⟩).tail
        ⟨(february, .applyMove 1 2 1 2000000 1 2000000 0), hreceipt _ _ _ (by decide) hlocations,
          stockStep_eq_some_iff.mpr htwo⟩).tail
            ⟨(february, .applyMove 1 1 3 3000000 1 (-1) 0), hissued,
              stockStep_eq_some_iff.mpr hissue⟩
  have hnone := (h _ db₃ 1 (smallWarehouse_empty ⟨rfl, rfl, rfl⟩) (by intro p hp; cases hp; rfl) hreach
    p hp).1 hquantity
  rw [hnone] at hvalue
  exact absurd hvalue (by decide)

end CErp
