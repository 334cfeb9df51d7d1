/-
The open layers of a product that is costed first in, first out.

An issue takes its quantity off the oldest layers and the value that goes with
it; a receipt opens a layer, and a revaluation is spread over the open ones.
While the valued quantity is not negative the open layers account for it and for
its value (`LayersCover`).  An issue may find less than it asks for, and then
the quantity goes below zero; a receipt opens a full layer all the same, so a
product that comes back from below zero has more in its layers than it has.
-/
import CErp.StockLedger

namespace CErp

open Runs Outcome List Table Allotment

variable {companyId valueMicros : ℤ}

variable {description : String} {qtyMicros : ℤ}

namespace StockQuant

/-! ### Issues -/

/-- Layers are taken from as a queue is served: each gives what is asked for
or, if that is less, all it has. -/
lemma consume_allot {sel : List (ℤ × Layer)} {n : ℤ} (hn : 0 ≤ n) :
    (consume sel n).1.map (fun d => d.2.take) = allot n (sel.map fun r => r.2.remainingQty) ∧
      (consume sel n).2 = remains n (sel.map fun r => r.2.remainingQty) := by
  induction sel generalizing n with
  | nil => exact ⟨rfl, rfl⟩
  | cons r ls ih =>
      obtain ⟨id, l⟩ := r
      rcases hn.eq_or_lt with rfl | hpos
      · rw [consume, if_pos le_rfl, allot_zero]
        exact ⟨rfl, rfl⟩
      have hrest : 0 ≤ n - min l.remainingQty n := sub_nonneg.mpr (min_le_right _ _)
      obtain ⟨htakes, hleft⟩ := ih hrest
      rw [consume, if_neg (not_le.mpr hpos)]
      show min l.remainingQty n :: (consume ls (n - min l.remainingQty n)).1.map _ =
          allot n (l.remainingQty :: ls.map _) ∧
        (consume ls (n - min l.remainingQty n)).2 = remains n (l.remainingQty :: ls.map _)
      rw [allot_cons hpos.ne', remains, if_neg hpos.ne', ← sub_min_eq, min_comm n, htakes, hleft]
      exact ⟨rfl, rfl⟩

/-- What a layer gives is part of what it has. -/
lemma of_mem_consume {sel : List (ℤ × Layer)} {n : ℤ} (hsel : ∀ r ∈ sel, 0 < r.2.remainingQty)
    {d : ℤ × Draw} (h : d ∈ (consume sel n).1) :
    ∃ l, (d.1, l) ∈ sel ∧ 0 < d.2.take ∧ d.2.take ≤ l.remainingQty ∧
      d.2.portion = (l.remainingValue * d.2.take).tdiv l.remainingQty := by
  induction sel generalizing n with
  | nil => cases h
  | cons r ls ih =>
      obtain ⟨id, l⟩ := r
      rw [consume] at h
      split at h
      · cases h
      next hpos =>
      have hl := hsel _ mem_cons_self
      rcases mem_cons.mp h with rfl | hrest
      · refine ⟨l, mem_cons_self, lt_min hl (not_le.mp hpos), min_le_left _ _, ?_⟩
        rw [if_pos hl]
      · obtain ⟨l', hmem, hgives⟩ := ih (fun r hr => hsel r (mem_cons_of_mem _ hr)) hrest
        exact ⟨l', mem_cons_of_mem _ hmem, hgives⟩

/-- Layers are taken from at most once. -/
lemma consume_sublist (sel : List (ℤ × Layer)) (n : ℤ) :
    ((consume sel n).1.map Prod.fst).Sublist (sel.map Prod.fst) := by
  induction sel generalizing n with
  | nil => exact List.Sublist.refl _
  | cons r ls ih =>
      obtain ⟨id, l⟩ := r
      rw [consume]
      split
      · exact nil_sublist _
      · exact (ih _).cons_cons id

@[simp] lemma drawn_productId (d : Draw) (l : Layer) : (drawn d l).productId = l.productId := rfl

/-- A portion of a value that is not negative. -/
lemma portion_bounds {v q t : ℤ} (hv : 0 ≤ v) (ht : 0 < t) (htq : t ≤ q) :
    0 ≤ (v * t).tdiv q ∧ (v * t).tdiv q ≤ v := by
  have hq : 0 < q := ht.trans_le htq
  have hvt : 0 ≤ v * t := Int.mul_nonneg hv ht.le
  rw [Int.tdiv_eq_ediv_of_nonneg hvt]
  constructor
  · exact Int.ediv_nonneg hvt hq.le
  · calc v * t / q ≤ v * q / q := Int.ediv_le_ediv hq (Int.mul_le_mul_of_nonneg_left htq hv)
      _ = v := Int.mul_ediv_cancel _ hq.ne'

/-! ### Revaluations -/

lemma ids_revalueShares (valueMicros totRem : ℤ) (sel : List (ℤ × Layer)) (distributed : ℤ) :
    (revalueShares valueMicros totRem sel distributed).map Prod.fst = sel.map Prod.fst := by
  induction sel generalizing distributed with
  | nil => rfl
  | cons r ls ih =>
      cases ls with
      | nil => rfl
      | cons r' ls' =>
          show r.1 :: (revalueShares valueMicros totRem (r' :: ls') _).map Prod.fst = _
          rw [ih]
          rfl

/-- The last share takes what the others leave. -/
lemma sum_revalueShares (valueMicros totRem : ℤ) {sel : List (ℤ × Layer)} (hsel : sel ≠ [])
    (distributed : ℤ) :
    ((revalueShares valueMicros totRem sel distributed).map Prod.snd).sum =
      valueMicros - distributed := by
  induction sel generalizing distributed with
  | nil => exact absurd rfl hsel
  | cons r ls ih =>
      cases ls with
      | nil =>
          simp only [revalueShares, map_cons, map_nil, sum_cons, sum_nil]
          ring
      | cons r' ls' =>
          show _ + ((revalueShares valueMicros totRem (r' :: ls') _).map Prod.snd).sum = _
          rw [ih (cons_ne_nil _ _)]
          ring

@[simp] lemma raised_productId (share : ℤ) (l : Layer) :
    (raised share l).productId = l.productId := rfl

/-! ### Open layers -/

section OpenLayers

variable {db : StockDb} {productId : ℤ}

lemma mem_openLayers {r : ℤ × Layer} : r ∈ openLayers db productId ↔
    db.layers.get? r.1 = some r.2 ∧ r.2.productId = productId ∧ 0 < r.2.remainingQty := by
  rw [openLayers, mem_filter, get?_eq_some_iff, decide_eq_true_eq]

lemma openLayers_nodup : ((openLayers db productId).map Prod.fst).Nodup :=
  db.layers.nodup.sublist (filter_sublist.map _)

lemma consume_nodup (n : ℤ) : ((consume (openLayers db productId) n).1.map Prod.fst).Nodup :=
  openLayers_nodup.sublist (consume_sublist _ _)

/-- Without negative layers the open ones hold all that is left. -/
lemma remainingTotal_eq (h : ∀ i l, db.layers.get? i = some l → l.productId = productId →
    0 ≤ l.remainingQty) :
    remainingTotal db productId = layersSum db.layers productId (·.remainingQty) := by
  have hrows : ∀ rows : List (ℤ × Layer),
      (∀ r ∈ rows, r.2.productId = productId → 0 ≤ r.2.remainingQty) →
      ((rows.filter fun r => r.2.productId = productId ∧ 0 < r.2.remainingQty).map
          fun r => r.2.remainingQty).sum =
        (rows.map fun r => if r.2.productId = productId then r.2.remainingQty else 0).sum := by
    intro rows hrows
    induction rows with
    | nil => rfl
    | cons r rows ih =>
        have hr := hrows r mem_cons_self
        have hih := ih fun r hr => hrows r (mem_cons_of_mem _ hr)
        rw [map_cons, sum_cons, ← hih, filter_cons]
        by_cases hp : r.2.productId = productId
        · rw [if_pos hp]
          rcases (hr hp).eq_or_lt with hzero | hpos
          · rw [if_neg (by simp [← hzero]), ← hzero, zero_add]
          · rw [if_pos (by simp [hp, hpos]), map_cons, sum_cons]
        · rw [if_neg (by simp [hp]), if_neg hp, zero_add]
  apply hrows
  intro r hr
  exact h r.1 r.2 (get?_eq_some_iff.mpr hr)

/-- A share of a revaluation is of an open layer. -/
lemma of_mem_revalueShares {totRem distributed : ℤ} {a : ℤ × ℤ}
    (h : a ∈ revalueShares valueMicros totRem (openLayers db productId) distributed) :
    ∃ l, db.layers.get? a.1 = some l ∧ l.productId = productId ∧ 0 < l.remainingQty := by
  have hmem : a.1 ∈ (openLayers db productId).map Prod.fst := by
    rw [← ids_revalueShares valueMicros totRem _ distributed]
    exact mem_map_of_mem h
  obtain ⟨r, hr, hid⟩ := mem_map.mp hmem
  obtain ⟨hget, hpid, hopen⟩ := mem_openLayers.mp hr
  exact ⟨r.2, hid ▸ hget, hpid, hopen⟩

lemma revalueShares_nodup (valueMicros totRem distributed : ℤ) :
    ((revalueShares valueMicros totRem (openLayers db productId) distributed).map
      Prod.fst).Nodup := by
  rw [ids_revalueShares]
  exact openLayers_nodup

/-- The layer of a revaluation is none of those it goes onto. -/
lemma remainingTotal_insert {l : Layer} (hl : l.remainingQty = 0) :
    remainingTotal (db.insertLayer l) productId = remainingTotal db productId := by
  rw [remainingTotal, openLayers_insert hl]
  rfl

/-- What a revaluation of an open product does to its layers. -/
lemma revalueLayers_ok {p : Product} {layers : Table Layer} (hfifo : p.costMethod = .fifo)
    (hpos : 0 < remainingTotal db productId) (h : revalueLayers
      (db.insertLayer (revaluationLayer productId valueMicros description companyId)) productId
      valueMicros p = .ok layers) :
    layers = (db.layers.insert (revaluationLayer productId valueMicros description companyId)).modifyAll
      raised (revalueShares valueMicros (remainingTotal db productId) (openLayers db productId) 0) := by
  have hopen := @openLayers_insert db
    (revaluationLayer productId valueMicros description companyId) rfl productId
  unfold revalueLayers at h
  rw [remainingTotal_insert rfl, hopen, if_pos ⟨hfifo, hpos⟩] at h
  exact addValues_ok h

/-- The layers of the shares are found beside the new one too. -/
lemma of_mem_revalueShares_insert {totRem distributed : ℤ} {a : ℤ × ℤ}
    (h : a ∈ revalueShares valueMicros totRem (openLayers db productId) distributed) (l' : Layer) :
    ∃ l, (db.layers.insert l').get? a.1 = some l ∧ l.productId = productId := by
  obtain ⟨l, hl, hpid, -⟩ := of_mem_revalueShares h
  exact ⟨l, (get?_insert_of_ne _ _ (lt_nextId_of_get? hl).ne).trans hl, hpid⟩

/-- Something is open where something is left. -/
lemma openLayers_ne_nil (hpos : 0 < remainingTotal db productId) :
    openLayers db productId ≠ [] := by
  intro hnil
  rw [remainingTotal, hnil] at hpos
  exact lt_irrefl _ hpos

end OpenLayers

/-! ### Changes of open layers -/

section Changes

variable {δ : Type*} {layers : Table Layer} {g : δ → Layer → Layer} {cs : List (ℤ × δ)}
  {productId : ℤ} (hrows : ∀ x ∈ cs, ∃ l, layers.get? x.1 = some l ∧ l.productId = productId)
  (hproduct : ∀ d l, (g d l).productId = l.productId)
include hrows hproduct

/-- Changes of a product's layers add up in its sums. -/
lemma layersSum_modifyAll {f : Layer → ℤ} (c : δ → ℤ) (hf : ∀ d l, f (g d l) = f l + c d) :
    layersSum (layers.modifyAll g cs) productId f =
      layersSum layers productId f + (cs.map fun x => c x.2).sum := by
  refine sumOver_modifyAll c hrows ?_ ?_
  · intro d l hl
    rw [hproduct, hl]
  · intro _ d l hl
    rw [if_pos hl, if_pos ((hproduct d l).trans hl), hf]

/-- They do not show in the sums of another product. -/
lemma layersSum_modifyAll_other {other : ℤ} (hne : other ≠ productId) (f : Layer → ℤ) :
    layersSum (layers.modifyAll g cs) other f = layersSum layers other f := by
  have hsum := sumOver_modifyAll (f := fun _ l => if l.productId = other then f l else 0)
    (fun _ : δ => 0) hrows (fun d l hl => (hproduct d l).trans hl) ?_
  · have hzero : (cs.map fun _ => (0 : ℤ)).sum = 0 := by simp
    rw [hzero, add_zero] at hsum
    exact hsum
  · intro _ d l hl
    have hno : l.productId ≠ other := hl.trans_ne hne.symm
    rw [if_neg hno, if_neg ((hproduct d l).trans_ne hno), add_zero]

/-- Nor in its layers. -/
lemma get?_modifyAll_other (hnodup : (cs.map Prod.fst).Nodup) {i : ℤ} {l' : Layer}
    (hne : l'.productId ≠ productId) (h : (layers.modifyAll g cs).get? i = some l') :
    layers.get? i = some l' := by
  by_cases hi : i ∈ cs.map Prod.fst
  · obtain ⟨⟨_, d⟩, hd, rfl⟩ := mem_map.mp hi
    rw [get?_modifyAll_of_mem _ _ hnodup hd] at h
    obtain ⟨l, hl, rfl⟩ := Option.map_eq_some_iff.mp h
    obtain ⟨l₁, hl₁, hpid⟩ := hrows _ hd
    rw [hl] at hl₁
    cases hl₁
    exact absurd ((hproduct d l).trans hpid) hne
  · rwa [get?_modifyAll_of_notMem _ _ hi] at h

end Changes

/-! ### What the layers cover -/

/-- The open layers of a product hold its valued quantity and its value, and
none of them less than nothing. -/
structure LayersCover (layers : Table Layer) (productId : ℤ) (p : Product) : Prop where
  quantity : layersSum layers productId (·.remainingQty) = p.quantitySvl
  value : layersSum layers productId (·.remainingValue) = p.valueSvl
  nonneg : ∀ i l, layers.get? i = some l → l.productId = productId →
    0 ≤ l.remainingQty ∧ 0 ≤ l.remainingValue

section Covers

variable {productId : ℤ} {p : Product}

/-- One more layer with nothing left. -/
lemma LayersCover.insert_closed {layers : Table Layer} (h : LayersCover layers productId p)
    {l : Layer} (hq : l.remainingQty = 0) (hv : l.remainingValue = 0) :
    LayersCover (layers.insert l) productId p := by
  constructor
  · rw [layersSum_insert, hq, ite_self, add_zero]
    exact h.quantity
  · rw [layersSum_insert, hv, ite_self, add_zero]
    exact h.value
  · intro i l' hl' hproduct
    rw [get?_insert] at hl'
    split at hl'
    · cases hl'
      exact ⟨hq.ge, hv.ge⟩
    · exact h.nonneg i l' hl' hproduct

lemma LayersCover.receipt {layers : Table Layer} (h : LayersCover layers productId p)
    (hfifo : p.costMethod = .fifo) {usage : Usage} {qtyMicros companyId inputCostMicros : ℤ}
    (hqty : 0 < qtyMicros) (hvalue : 0 ≤ mulMicros qtyMicros (receiptCost p inputCostMicros))
    (link : Option ℤ) :
    LayersCover (layers.insert
        { receiptLayer productId p usage qtyMicros companyId inputCostMicros with
          accountMoveId := link }) productId
      (received qtyMicros (mulMicros qtyMicros (receiptCost p inputCostMicros)) p) := by
  constructor
  · rw [layersSum_insert, h.quantity]
    simp [receiptLayer, received, hfifo]
  · rw [layersSum_insert, h.value]
    simp [receiptLayer, received, hfifo]
  · intro i l hl hproduct
    rw [get?_insert] at hl
    split at hl
    · cases hl
      simp only [receiptLayer, hfifo, if_true]
      exact ⟨hqty.le, hvalue⟩
    · exact h.nonneg i l hl hproduct

lemma sum_of_foldlM_bigint {α : Type*} {f : α → ℤ} {xs : List α} {start total : ℤ}
    (h : xs.foldlM (fun v x => bigint (v + f x)) start = .ok total) :
    total = start + (xs.map f).sum := by
  induction xs generalizing start with
  | nil =>
      cases h
      simp
  | cons x xs ih =>
      obtain ⟨v, hv, hrest⟩ := foldlM_cons_ok.mp h
      rw [ih hrest, bigint_ok hv, map_cons, sum_cons]
      ring

/-- **An issue of what is there** takes its quantity and its value off the open
layers. -/
theorem LayersCover.issue {db : StockDb} (h : LayersCover db.layers productId p)
    (hfifo : p.costMethod = .fifo) {usage : Usage} {qtyMicros companyId outValue : ℤ}
    {layers : Table Layer} (hqty : 0 < qtyMicros) (hle : qtyMicros ≤ p.quantitySvl)
    (hissue : issueValue db productId p qtyMicros = .ok (outValue, layers)) (link : Option ℤ) :
    LayersCover (layers.insert
        { issueLayer productId usage qtyMicros companyId outValue with accountMoveId := link })
      productId (issued qtyMicros outValue p) := by
  obtain ⟨htakes, hleft⟩ := @consume_allot (openLayers db productId) qtyMicros hqty.le
  have hopen : ∀ r ∈ openLayers db productId, 0 < r.2.remainingQty :=
    fun r hr => (mem_openLayers.mp hr).2.2
  have htotal : remainingTotal db productId = p.quantitySvl :=
    (remainingTotal_eq fun i l hl hp => (h.nonneg i l hl hp).1).trans h.quantity
  -- the layers have enough
  have hnone : (consume (openLayers db productId) qtyMicros).2 = 0 := by
    rw [hleft, remains_of_nonneg hqty.le]
    · apply max_eq_left
      show qtyMicros - remainingTotal db productId ≤ 0
      omega
    · intro d hd
      obtain ⟨r, hr, rfl⟩ := mem_map.mp hd
      exact (hopen r hr).le
  have hall : ((consume (openLayers db productId) qtyMicros).1.map fun d => d.2.take).sum =
      qtyMicros := by
    have hrest := remains_eq qtyMicros
      ((openLayers db productId).map fun r => r.2.remainingQty)
    rw [← hleft, hnone, ← htakes] at hrest
    omega
  unfold issueValue at hissue
  rw [if_pos hfifo] at hissue
  obtain ⟨portions, hportions, hissue⟩ := bind_ok_iff.mp hissue
  obtain ⟨out, hout, hissue⟩ := bind_ok_iff.mp hissue
  rw [hnone, withShortfall, if_neg (lt_irrefl 0)] at hout
  cases hout
  cases hissue
  have hvalue := sum_of_foldlM_bigint hportions
  rw [zero_add] at hvalue
  have hrows : ∀ d ∈ (consume (openLayers db productId) qtyMicros).1,
      ∃ l, db.layers.get? d.1 = some l ∧ l.productId = productId := by
    intro d hd
    obtain ⟨l, hl, -⟩ := of_mem_consume hopen hd
    exact ⟨l, (mem_openLayers.mp hl).1, (mem_openLayers.mp hl).2.1⟩
  have hneg : ∀ (f : Draw → ℤ) (ds : List (ℤ × Draw)),
      (ds.map fun d => -f d.2).sum = -(ds.map fun d => f d.2).sum := by
    intro f ds
    rw [sum_neg, map_map]
    rfl
  refine @insert_closed _ (issued qtyMicros outValue p) _ ⟨?_, ?_, ?_⟩ _ rfl rfl
  · rw [layersSum_modifyAll hrows drawn_productId (fun d => -d.take)
      fun _ _ => sub_eq_add_neg _ _,
      hneg, hall, h.quantity]
    exact (sub_eq_add_neg _ _).symm
  · rw [layersSum_modifyAll hrows drawn_productId (fun d => -d.portion)
      fun _ _ => sub_eq_add_neg _ _, hneg, ← hvalue, h.value]
    exact (sub_eq_add_neg _ _).symm
  · intro i l' hl' hproduct
    by_cases hi : i ∈ (consume (openLayers db productId) qtyMicros).1.map Prod.fst
    · obtain ⟨⟨_, d⟩, hd, rfl⟩ := mem_map.mp hi
      rw [get?_modifyAll_of_mem _ _ (consume_nodup qtyMicros) hd] at hl'
      obtain ⟨l, hl, rfl⟩ := Option.map_eq_some_iff.mp hl'
      obtain ⟨l₁, hmem, htake, hmost, hportion⟩ := of_mem_consume hopen hd
      obtain ⟨hget, hpid, hopened⟩ := mem_openLayers.mp hmem
      obtain rfl : l = l₁ := Option.some.inj (hl.symm.trans hget)
      obtain ⟨-, hleft⟩ := portion_bounds (h.nonneg _ l hl hpid).2 htake hmost
      rw [← hportion] at hleft
      exact ⟨sub_nonneg.mpr hmost, sub_nonneg.mpr hleft⟩
    · rw [get?_modifyAll_of_notMem _ _ hi] at hl'
      exact h.nonneg i l' hl' hproduct

/-- No layer's remaining value is driven below zero by its share of a
revaluation. -/
def SharesFit (db : StockDb) (productId valueMicros : ℤ) : Prop :=
  ∀ a ∈ revalueShares valueMicros (remainingTotal db productId) (openLayers db productId) 0,
    ∀ l, db.layers.get? a.1 = some l → 0 ≤ l.remainingValue + a.2

/-- **A revaluation of what is there** goes onto the open layers. -/
theorem LayersCover.revalue {db : StockDb} (h : LayersCover db.layers productId p)
    (hfifo : p.costMethod = .fifo) (hpos : 0 < p.quantitySvl)
    (hfit : SharesFit db productId valueMicros) {layers : Table Layer} (hlayers : revalueLayers
      (db.insertLayer (revaluationLayer productId valueMicros description companyId)) productId
      valueMicros p = .ok layers) : LayersCover layers productId (revalued valueMicros p) := by
  have htotal : remainingTotal db productId = p.quantitySvl :=
    (remainingTotal_eq fun i l hl hp => (h.nonneg i l hl hp).1).trans h.quantity
  have hbase := @insert_closed productId p _ h
    (revaluationLayer productId valueMicros description companyId) rfl rfl
  have hopen : 0 < remainingTotal db productId := htotal ▸ hpos
  obtain rfl := revalueLayers_ok hfifo hopen hlayers
  have hnodup := @revalueShares_nodup db productId valueMicros (remainingTotal db productId) 0
  have hrows : ∀ a ∈ revalueShares valueMicros (remainingTotal db productId)
      (openLayers db productId) 0,
      ∃ l, (db.layers.insert
        (revaluationLayer productId valueMicros description companyId)).get? a.1 = some l ∧
          l.productId = productId :=
    fun a ha => of_mem_revalueShares_insert ha _
  have hsel := openLayers_ne_nil hopen
  constructor
  · show layersSum ((db.layers.insert _).modifyAll raised _) productId _ = _
    rw [layersSum_modifyAll hrows raised_productId (fun _ => 0) fun _ _ => (add_zero _).symm]
    have hzero : ((revalueShares valueMicros (remainingTotal db productId) (openLayers db productId)
        0).map fun _ => (0 : ℤ)).sum = 0 := by simp
    rw [hzero, add_zero]
    exact hbase.quantity
  · show layersSum ((db.layers.insert _).modifyAll raised _) productId _ = _
    rw [layersSum_modifyAll hrows raised_productId (fun share => share) fun _ _ => rfl,
      sum_revalueShares _ _ hsel, sub_zero, hbase.value]
    rfl
  · intro i l' hl' hproduct
    by_cases hi : i ∈ (revalueShares valueMicros (remainingTotal db productId)
        (openLayers db productId) 0).map Prod.fst
    · obtain ⟨⟨_, share⟩, ha, rfl⟩ := mem_map.mp hi
      rw [get?_modifyAll_of_mem _ _ hnodup ha] at hl'
      obtain ⟨l, hl, rfl⟩ := Option.map_eq_some_iff.mp hl'
      obtain ⟨l₁, hl₁, hpid, -⟩ := of_mem_revalueShares ha
      have hne := (lt_nextId_of_get? hl₁).ne
      obtain rfl : l₁ = l :=
        Option.some.inj (((get?_insert_of_ne _ _ hne).trans hl₁).symm.trans hl)
      exact ⟨(h.nonneg _ l₁ hl₁ hpid).1, hfit _ ha l₁ hl₁⟩
    · rw [get?_modifyAll_of_notMem _ _ hi] at hl'
      exact hbase.nonneg i l' hl' hproduct

end Covers

/-! ### Other products -/

/-- The layers of a product are as they were. -/
structure SameLayers (layers layers' : Table Layer) (productId : ℤ) : Prop where
  sums : ∀ f, layersSum layers' productId f = layersSum layers productId f
  rows : ∀ i l, layers'.get? i = some l → l.productId = productId → layers.get? i = some l

section Other

variable {productId other : ℤ} (hne : other ≠ productId)
include hne

lemma sameLayers_insert {layers layers' : Table Layer} (h : SameLayers layers layers' other)
    {l : Layer} (hl : l.productId = productId) : SameLayers layers (layers'.insert l) other := by
  constructor
  · intro f
    rw [layersSum_insert, if_neg (hl.trans_ne hne.symm), add_zero]
    exact h.sums f
  · intro i l' hl' hproduct
    rw [get?_insert] at hl'
    split at hl'
    · cases hl'
      exact absurd (hproduct.symm.trans hl) hne
    · exact h.rows i l' hl' hproduct

lemma sameLayers_modifyAll {δ : Type*} {layers : Table Layer} {g : δ → Layer → Layer}
    {cs : List (ℤ × δ)} (hnodup : (cs.map Prod.fst).Nodup)
    (hrows : ∀ x ∈ cs, ∃ l, layers.get? x.1 = some l ∧ l.productId = productId)
    (hproduct : ∀ d l, (g d l).productId = l.productId) :
    SameLayers layers (layers.modifyAll g cs) other where
  sums f := layersSum_modifyAll_other hrows hproduct hne f
  rows _ _ hl hpid := get?_modifyAll_other hrows hproduct hnodup (hpid.trans_ne hne) hl

lemma sameLayers_issue {db : StockDb} {p : Product} {outValue : ℤ} {layers : Table Layer}
    (h : issueValue db productId p qtyMicros = .ok (outValue, layers)) :
    SameLayers db.layers layers other := by
  unfold issueValue at h
  split at h
  · obtain ⟨portions, -, h⟩ := bind_ok_iff.mp h
    obtain ⟨out, -, h⟩ := bind_ok_iff.mp h
    cases h
    apply sameLayers_modifyAll hne (consume_nodup qtyMicros) _ drawn_productId
    intro d hd
    obtain ⟨l, hl, -⟩ := of_mem_consume (fun r hr => (mem_openLayers.mp hr).2.2) hd
    exact ⟨l, (mem_openLayers.mp hl).1, (mem_openLayers.mp hl).2.1⟩
  · cases h
    exact ⟨fun _ => rfl, fun _ _ hl _ => hl⟩

lemma sameLayers_revalue {db : StockDb} {p : Product} {layers : Table Layer}
    (h : revalueLayers db productId valueMicros p = .ok layers) :
    SameLayers db.layers layers other := by
  unfold revalueLayers at h
  split at h
  · rw [addValues_ok h]
    refine sameLayers_modifyAll hne (revalueShares_nodup _ _ _) ?_ raised_productId
    intro a ha
    obtain ⟨l, hl, hpid, -⟩ := of_mem_revalueShares ha
    exact ⟨l, hl, hpid⟩
  · cases h
    exact ⟨fun _ => rfl, fun _ _ hl _ => hl⟩

end Other

lemma LayersCover.congr {layers layers' : Table Layer} {productId : ℤ} {p : Product}
    (h : LayersCover layers productId p) (hsame : SameLayers layers layers' productId) :
    LayersCover layers' productId p where
  quantity := (hsame.sums _).trans h.quantity
  value := (hsame.sums _).trans h.value
  nonneg i l hl hproduct := h.nonneg i l (hsame.rows i l hl hproduct) hproduct

end StockQuant

/-! ### Runs -/

open StockQuant

/-- While its valued quantity is not negative, the open layers account for a
product. -/
def FifoCovered (db : StockDb) (productId : ℤ) : Prop :=
  ∀ p, db.products.get? productId = some p → 0 ≤ p.quantitySvl → LayersCover db.layers productId p

/-- A receipt leaves the product below zero, or meets a product that is not
below zero and has a value that is not negative. -/
def ReceivesCovered (db : StockDb) (productId qtyMicros inputCostMicros : ℤ) : Prop :=
  ∀ p, db.products.get? productId = some p → p.quantitySvl + qtyMicros < 0 ∨
    0 ≤ p.quantitySvl ∧ 0 ≤ mulMicros qtyMicros (receiptCost p inputCostMicros)

/-- A revaluation meets a product below zero, or one that has units left and
layers that can bear it. -/
def RevaluesCovered (db : StockDb) (productId valueMicros : ℤ) : Prop :=
  ∀ p, db.products.get? productId = some p → p.quantitySvl < 0 ∨
    0 < p.quantitySvl ∧ SharesFit db productId valueMicros

/-- Receipts and revaluations of the product keep its layers in step with it. -/
def KeepsLayers (productId : ℤ) (db : StockDb) : StockOp → Prop
  | .applyMove id src dest qtyMicros _ inputCostMicros _ =>
      id = productId → 0 < qtyMicros → db.isInternal src = false → db.isInternal dest = true →
        ReceivesCovered db id qtyMicros inputCostMicros
  | .revalue id valueMicros _ _ =>
      id = productId → valueMicros ≠ 0 → RevaluesCovered db id valueMicros
  | .reserve _ _ _ _ | .release _ _ _ _ => True

/-- A FIFO product whose layers account for it. -/
structure FifoState (productId : ℤ) (db : StockDb) : Prop where
  fifo : ∀ p, db.products.get? productId = some p → p.costMethod = .fifo
  covered : FifoCovered db productId

/-- A product whose row and layers are as they were. -/
lemma FifoState.congr {db db' : StockDb} {productId : ℤ} (h : FifoState productId db)
    (hrow : db'.products.get? productId = db.products.get? productId)
    (hsame : SameLayers db.layers db'.layers productId) : FifoState productId db' where
  fifo p hp := h.fifo p (hrow ▸ hp)
  covered p hp hq := (h.covered p (hrow ▸ hp) hq).congr hsame

section Steps

variable {productId : ℤ} {db db' : StockDb}

/-- The product's row is rewritten, at the same cost method. -/
lemma FifoState.modified {p : Product} {f : Product → Product} (h : FifoState productId db)
    (hp : db.products.get? productId = some p)
    (hrow : db'.products = db.products.modify productId f) (hcost : (f p).costMethod = p.costMethod)
    (hcover : 0 ≤ (f p).quantitySvl → LayersCover db'.layers productId (f p)) :
    FifoState productId db' := by
  have hget : db'.products.get? productId = some (f p) := by
    rw [hrow, get?_modify_self, hp]
    rfl
  constructor
  · intro p' hp'
    obtain rfl := Option.some.inj (hget.symm.trans hp')
    exact hcost.trans (h.fifo p hp)
  · intro p' hp'
    obtain rfl := Option.some.inj (hget.symm.trans hp')
    exact hcover

lemma FifoState.moved (h : FifoState productId db) (id src dest qtyMicros companyId lotId : ℤ) :
    FifoState productId (moved db id src dest qtyMicros companyId lotId) := by
  constructor
  · intro p' hp'
    rw [products_moved] at hp'
    obtain ⟨p, hp, rfl⟩ := get?_modify_product hp'
    split
    · exact h.fifo p hp
    · exact h.fifo p hp
  · intro p' hp' hq
    rw [products_moved] at hp'
    obtain ⟨p, hp, rfl⟩ := get?_modify_product hp'
    have hcover : 0 ≤ p.quantitySvl → LayersCover db.layers productId p := h.covered p hp
    split at hq
    · next hid =>
        rw [if_pos hid]
        obtain ⟨hquantity, hvalue, hnonneg⟩ := hcover hq
        exact ⟨hquantity, hvalue, hnonneg⟩
    · next hid =>
        rw [if_neg hid]
        exact hcover hq

lemma receivesCovered_moved {id src dest lotId inputCostMicros : ℤ}
    (h : ReceivesCovered db id qtyMicros inputCostMicros) :
    ReceivesCovered (StockQuant.moved db id src dest qtyMicros companyId lotId) id qtyMicros
      inputCostMicros := by
  intro p' hp'
  rw [products_moved] at hp'
  obtain ⟨p, hp, rfl⟩ := get?_modify_product hp'
  rw [if_pos rfl]
  exact h p hp

lemma valued_fifo {now : Moment} {id src dest inputCostMicros : ℤ} (h0 : FifoState productId db)
    (hreceives : id = productId → 0 < qtyMicros → db.isInternal src = false →
      db.isInternal dest = true → ReceivesCovered db id qtyMicros inputCostMicros)
    (h : Valued now db id src dest qtyMicros companyId inputCostMicros db') :
    FifoState productId db' := by
  by_cases hid : id = productId
  · subst hid
    cases h with
    | unchanged _ => exact h0
    | @receipt p link account hqty hsrc hdest hp _ _ =>
        refine h0.modified hp rfl rfl fun hq => ?_
        rcases hreceives rfl hqty hsrc hdest p hp with hbelow | ⟨hbefore, hvalue⟩
        · exact absurd hq (not_le.mpr hbelow)
        · exact (h0.covered p hp hbefore).receipt (h0.fifo p hp) hqty hvalue link
    | @issue p outValue layers link account hqty _ _ hp hissue _ _ =>
        refine h0.modified hp rfl rfl fun hq => ?_
        -- what is left is not negative, so the layers had enough
        have hle : qtyMicros ≤ p.quantitySvl := sub_nonneg.mp hq
        exact (h0.covered p hp (hqty.le.trans hle)).issue (h0.fifo p hp) hqty hle hissue link
  · have hne : productId ≠ id := fun heq => hid heq.symm
    cases h with
    | unchanged _ => exact h0
    | receipt _ _ _ _ _ _ =>
        refine h0.congr (get?_modify_of_ne _ _ hne) ?_
        exact sameLayers_insert hne ⟨fun _ => rfl, fun _ _ hl _ => hl⟩ rfl
    | issue _ _ _ _ hissue _ _ =>
        refine h0.congr (get?_modify_of_ne _ _ hne) ?_
        exact sameLayers_insert hne (sameLayers_issue hne hissue) rfl

lemma revalue_fifo {id layerId : ℤ} (h0 : FifoState productId db)
    (hrevalues : id = productId → valueMicros ≠ 0 → RevaluesCovered db id valueMicros)
    (h : revalue db id valueMicros description companyId = .ok (layerId, db')) :
    FifoState productId db' := by
  rcases revalue_ok h with ⟨-, -, rfl⟩ | ⟨p, layers, hvalue, hp, -, hlayers, rfl⟩
  · exact h0
  by_cases hid : id = productId
  · subst hid
    refine h0.modified hp rfl rfl fun hq => ?_
    rcases hrevalues rfl hvalue p hp with hbelow | ⟨hpos, hfit⟩
    · exact absurd hq (not_le.mpr hbelow)
    · exact (h0.covered p hp hpos.le).revalue (h0.fifo p hp) hpos hfit hlayers
  · have hne : productId ≠ id := fun heq => hid heq.symm
    refine h0.congr (get?_modify_of_ne _ _ hne) ?_
    have hnew : SameLayers db.layers
        (db.layers.insert (revaluationLayer id valueMicros description companyId)) productId :=
      sameLayers_insert hne ⟨fun _ => rfl, fun _ _ hl _ => hl⟩ rfl
    have hrest := sameLayers_revalue hne hlayers
    exact ⟨fun f => (hrest.sums f).trans (hnew.sums f),
      fun i l hl hpid => hnew.rows i l (hrest.rows i l hl hpid) hpid⟩

lemma stockOp_fifo {now : Moment} {op : StockOp} (h0 : FifoState productId db)
    (hop : KeepsLayers productId db op) (h : op.run now db = .ok db') : FifoState productId db' := by
  cases op with
  | applyMove id src dest qtyMicros companyId inputCostMicros lotId =>
      rcases applyMove_ok h with ⟨-, rfl⟩ | ⟨-, -, -, hvalued⟩
      · exact h0
      · refine valued_fifo (h0.moved id src dest qtyMicros companyId lotId) ?_ hvalued
        intro hid hqty hsrc hdest
        exact receivesCovered_moved (hop hid hqty hsrc hdest)
  | reserve id locId qtyMicros lotId =>
      obtain ⟨⟨got, db₁⟩, hreserve, rfl⟩ := map_ok_iff.mp h
      rcases reserve_ok hreserve with ⟨-, rfl⟩ | ⟨q, -, -, -, rfl⟩
      · exact h0
      · exact ⟨h0.fifo, h0.covered⟩
  | release id locId qtyMicros lotId =>
      rcases release_ok h with ⟨-, rfl⟩ | ⟨q, -, -, rfl⟩
      · exact h0
      · exact ⟨h0.fifo, h0.covered⟩
  | revalue id valueMicros description companyId =>
      obtain ⟨⟨layerId, db₁⟩, hrevalue, rfl⟩ := map_ok_iff.mp h
      exact revalue_fifo h0 hop hrevalue

end Steps

lemma EmptyStock.fifoCovered {db : StockDb} (h : EmptyStock db) (productId : ℤ) :
    FifoCovered db productId := by
  intro p hp _
  obtain ⟨-, hquantity, hvalue⟩ := h.products (productId, p) (get?_eq_some_iff.mp hp)
  constructor
  · exact (h.layersSum productId _).trans hquantity.symm
  · exact (h.layersSum productId _).trans hvalue.symm
  · intro i l hl _
    have hmem := get?_eq_some_iff.mp hl
    rw [h.layers] at hmem
    cases hmem

/-- **FIFO layers.**  In every run whose receipts and revaluations of a FIFO
product meet the condition, its open layers account for its quantity and its
value whenever the quantity is not negative. -/
theorem fifo_layers_cover (db db' : StockDb) (productId : ℤ) (h0 : EmptyStock db)
    (hfifo : ∀ p, db.products.get? productId = some p → p.costMethod = .fifo)
    (hrun : Reaches stockStep (fun db e => KeepsLayers productId db e.2) db db') :
    FifoCovered db' productId := by
  have hinv : FifoState productId db' := by
    refine hrun.invariant ?_ ⟨hfifo, h0.fifoCovered productId⟩
    rintro db₁ ⟨now, op⟩ db₂ h₁ hok hs
    exact stockOp_fifo h₁ hok (stockStep_eq_some_iff.mp hs)
  exact hinv.covered

/-- A product that is costed first in, first out, at a standard price of two. -/
def fifoBolt : Product where
  name := "Bolt"
  costMethod := .fifo
  standardPrice := 2000000

theorem fifo_layers_cover_receipt :
    ∃ db', (StockOp.applyMove 1 2 1 3000000 1 (-1) 0).run february (smallWarehouse fifoBolt) =
      .ok db' ∧ FifoCovered db' 1 := by
  obtain ⟨db', hrun⟩ : ∃ db', (StockOp.applyMove 1 2 1 3000000 1 (-1) 0).run february
      (smallWarehouse fifoBolt) = .ok db' := exists_ok (by decide)
  refine ⟨db', hrun, fifo_layers_cover (smallWarehouse fifoBolt) db' 1
    (smallWarehouse_empty ⟨rfl, rfl, rfl⟩) ?_ ?_⟩
  · intro p hp
    cases hp
    rfl
  · refine Relation.ReflTransGen.single
      ⟨(february, .applyMove 1 2 1 3000000 1 (-1) 0), ?_, stockStep_eq_some_iff.mpr hrun⟩
    intro _ _ _ _ p hp
    cases hp
    exact .inr ⟨le_rfl, by decide⟩

/-- One unit is delivered before three are received. -/
def deliveredFirst : List (Moment × StockOp) :=
  [(february, .applyMove 1 1 3 1000000 1 (-1) 0), (february, .applyMove 1 2 1 3000000 1 (-1) 0)]

/-- The layer of the receipt has three units left, and the product has two. -/
theorem fifo_layers_exceed_stock : ¬ ∀ (db db' : StockDb) (productId : ℤ), EmptyStock db →
      (∀ p, db.products.get? productId = some p → p.costMethod = .fifo) →
      Reaches stockStep (fun _ e => MovesForward e.2) db db' → FifoCovered db' productId := by
  intro h
  have hrun : (execute stockStep (fun _ e => MovesForward e.2) deliveredFirst
      (smallWarehouse fifoBolt)).any (fun db => (db.products.get? 1).any fun p =>
        decide (0 ≤ p.quantitySvl ∧ layersSum db.layers 1 (·.remainingQty) ≠ p.quantitySvl)) =
      true := by
    decide
  obtain ⟨db', hexec, hrow⟩ := (Option.any_eq_true _ _).mp hrun
  obtain ⟨p, hp, hdiffers⟩ := (Option.any_eq_true _ _).mp hrow
  obtain ⟨hq, hne⟩ := of_decide_eq_true hdiffers
  refine hne (h _ db' 1 (smallWarehouse_empty ⟨rfl, rfl, rfl⟩) ?_ (reaches_of_execute hexec) p hp hq).quantity
  intro p hp
  cases hp
  rfl

end CErp
