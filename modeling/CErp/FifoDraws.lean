/-
What issues take out of the layers of a product costed first in, first out, and
what a revaluation puts onto them.

`Consumed` is one issue: the layers are served as a queue, and what they do not
have goes out at the standard price.  Over a run of operations a layer gives a
portion of its value each time it is taken from, and the portions are truncated;
`layer_releases_all` says that none of the value is left when its last unit is
gone.  `revaluation_distributed` is about revaluations.
-/
import CErp.FifoLayers

namespace CErp

open Runs Outcome List Table Allotment

namespace StockQuant

/-! ### One issue -/

/-- What an issue of a quantity does to the layers of a product: `ds` is what it
takes, `outValue` what it is worth. -/
structure Consumed (db : StockDb) (productId : ℤ) (p : Product) (qtyMicros : ℤ)
    (ds : List (ℤ × Draw)) (outValue : ℤ) (layers : Table Layer) : Prop where
  oldest : ds.map Prod.fst <+: (openLayers db productId).map Prod.fst
  exhausted : (ds.map fun d => d.2.take).dropLast =
    ((openLayers db productId).map fun r => r.2.remainingQty).take (ds.length - 1)
  taken : (ds.map fun d => d.2.take).sum = min qtyMicros (remainingTotal db productId)
  released : outValue = (ds.map fun d => d.2.portion).sum +
    mulMicros (qtyMicros - (ds.map fun d => d.2.take).sum) p.standardPrice
  layers_eq : layers = db.layers.modifyAll drawn ds
  kept : ∀ i l, db.layers.get? i = some l → ∃ l', layers.get? i = some l' ∧
    (0 ≤ l.remainingQty → 0 ≤ l'.remainingQty) ∧ (0 ≤ l.remainingValue → 0 ≤ l'.remainingValue)
  emptied : ∀ i d, (i, d) ∈ ds → ∃ l, db.layers.get? i = some l ∧ 0 < d.take ∧
    (l.remainingQty = d.take → l.remainingValue = d.portion)

lemma consume_prefix (sel : List (ℤ × Layer)) (n : ℤ) :
    (consume sel n).1.map Prod.fst <+: sel.map Prod.fst := by
  induction sel generalizing n with
  | nil => exact prefix_rfl
  | cons r ls ih =>
      obtain ⟨id, l⟩ := r
      rw [consume]
      split
      · exact nil_prefix
      · exact (prefix_cons_inj id).mpr (ih _)

/-- A layer gives the whole of its value with the last of its units. -/
lemma portion_of_all (v : ℤ) {q : ℤ} (hq : 0 < q) : (v * q).tdiv q = v :=
  Int.mul_tdiv_cancel v hq.ne'

variable {layers : Table Layer} {p : Product} {qtyMicros : ℤ}

section Issue

variable {db : StockDb} {productId : ℤ}

lemma of_mem_draws {n i : ℤ} {d : Draw}
    (h : (i, d) ∈ (consume (openLayers db productId) n).1) :
    ∃ l, db.layers.get? i = some l ∧ l.productId = productId ∧ 0 < l.remainingQty ∧ 0 < d.take ∧
      d.take ≤ l.remainingQty ∧ d.portion = (l.remainingValue * d.take).tdiv l.remainingQty := by
  obtain ⟨l, hmem, htake, hmost, hportion⟩ := of_mem_consume (fun r hr => (mem_openLayers.mp hr).2.2) h
  obtain ⟨hget, hpid, hopen⟩ := mem_openLayers.mp hmem
  exact ⟨l, hget, hpid, hopen, htake, hmost, hportion⟩

/-- **One issue.** -/
theorem consumed_of_issueValue {outValue : ℤ} (hfifo : p.costMethod = .fifo)
    (hqty : 0 < qtyMicros) (h : issueValue db productId p qtyMicros = .ok (outValue, layers)) :
    Consumed db productId p qtyMicros (consume (openLayers db productId) qtyMicros).1 outValue
      layers := by
  obtain ⟨htakes, hleft⟩ := @consume_allot (openLayers db productId) qtyMicros hqty.le
  have hopen : ∀ d ∈ (openLayers db productId).map fun r => r.2.remainingQty, 0 ≤ d := by
    intro d hd
    obtain ⟨r, hr, rfl⟩ := mem_map.mp hd
    exact (mem_openLayers.mp hr).2.2.le
  have hrest := remains_eq qtyMicros
    ((openLayers db productId).map fun r => r.2.remainingQty)
  rw [← htakes, ← hleft] at hrest
  unfold issueValue at h
  rw [if_pos hfifo] at h
  obtain ⟨portions, hportions, h⟩ := bind_ok_iff.mp h
  obtain ⟨out, hout, h⟩ := bind_ok_iff.mp h
  cases h
  have hvalue := sum_of_foldlM_bigint hportions
  rw [zero_add] at hvalue
  constructor
  · exact consume_prefix _ _
  · have hlength := congrArg List.length htakes
    rw [length_map] at hlength
    rw [htakes, hlength]
    exact dropLast_allot _ _
  · rw [htakes]
    exact sum_allot hqty.le hopen
  · rw [← hrest, ← hvalue]
    unfold withShortfall at hout
    split at hout
    · exact bigint_ok hout
    · next hnone =>
        cases hout
        -- nothing is asked for that is not there
        have hzero : (consume (openLayers db productId) qtyMicros).2 = 0 := by
          apply le_antisymm (not_lt.mp hnone)
          rw [hleft, remains_of_nonneg hqty.le hopen]
          exact le_max_left _ _
        rw [hzero, mulMicros, zero_mul]
        exact (add_zero _).symm
  · rfl
  · intro i l hl
    by_cases hi : i ∈ (consume (openLayers db productId) qtyMicros).1.map Prod.fst
    · obtain ⟨⟨_, d⟩, hd, rfl⟩ := mem_map.mp hi
      rw [get?_modifyAll_of_mem _ _ (consume_nodup qtyMicros) hd, hl]
      obtain ⟨l₁, hget, -, -, htake, hmost, hportion⟩ := of_mem_draws hd
      obtain rfl : l = l₁ := Option.some.inj (hl.symm.trans hget)
      refine ⟨_, rfl, fun _ => sub_nonneg.mpr hmost, ?_⟩
      intro hnonneg
      obtain ⟨-, hle⟩ := portion_bounds hnonneg htake hmost
      rw [← hportion] at hle
      exact sub_nonneg.mpr hle
    · rw [get?_modifyAll_of_notMem _ _ hi]
      exact ⟨l, hl, id, id⟩
  · intro i d hd
    obtain ⟨l, hget, -, hopened, htake, -, hportion⟩ := of_mem_draws hd
    refine ⟨l, hget, htake, ?_⟩
    intro hall
    rw [hportion, ← hall, portion_of_all _ hopened]

end Issue

/-! ### Runs -/

/-- What an operation takes out of the layers. -/
def drawsOf (db : StockDb) : StockOp → List (ℤ × Draw)
  | .applyMove productId src dest qtyMicros _ _ _ =>
      match db.products.get? productId with
      | none => []
      | some p =>
          if 0 < qtyMicros ∧ db.isInternal src = true ∧ db.isInternal dest = false ∧
              p.costMethod = .fifo then (consume (openLayers db productId) qtyMicros).1
          else []
  | .reserve _ _ _ _ | .release _ _ _ _ | .revalue _ _ _ _ => []

/-- What an operation adds to the values of the layers. -/
def addsOf (db : StockDb) : StockOp → List (ℤ × ℤ)
  | .revalue productId valueMicros _ _ =>
      match db.products.get? productId with
      | none => []
      | some p =>
          if valueMicros ≠ 0 ∧ p.costMethod = .fifo ∧ 0 < remainingTotal db productId then
            revalueShares valueMicros (remainingTotal db productId) (openLayers db productId) 0
          else []
  | .applyMove _ _ _ _ _ _ _ | .reserve _ _ _ _ | .release _ _ _ _ => []

/-- What a list of changes comes to for one row. -/
def changeAt {δ : Type*} (i : ℤ) (f : δ → ℤ) (cs : List (ℤ × δ)) : ℤ :=
  (cs.map fun c => if c.1 = i then f c.2 else 0).sum

def takenFrom (i : ℤ) (db : StockDb) (op : StockOp) : ℤ := changeAt i (·.take) (drawsOf db op)

def releasedFrom (i : ℤ) (db : StockDb) (op : StockOp) : ℤ :=
  changeAt i (·.portion) (drawsOf db op)

def addedTo (i : ℤ) (db : StockDb) (op : StockOp) : ℤ := changeAt i (fun v => v) (addsOf db op)

lemma changeAt_of_notMem {δ : Type*} {i : ℤ} (f : δ → ℤ) {cs : List (ℤ × δ)}
    (h : i ∉ cs.map Prod.fst) : changeAt i f cs = 0 := by
  apply sum_eq_zero
  intro x hx
  obtain ⟨c, hc, rfl⟩ := mem_map.mp hx
  have hne : c.1 ≠ i := by
    rintro rfl
    exact h (mem_map_of_mem hc)
  exact if_neg hne

lemma changeAt_of_mem {δ : Type*} {i : ℤ} {d : δ} (f : δ → ℤ) {cs : List (ℤ × δ)}
    (hnodup : (cs.map Prod.fst).Nodup) (h : (i, d) ∈ cs) : changeAt i f cs = f d := by
  induction cs with
  | nil => cases h
  | cons c cs ih =>
      rw [map_cons, nodup_cons] at hnodup
      unfold changeAt at *
      rw [map_cons, sum_cons]
      rcases mem_cons.mp h with rfl | hrest
      · have hothers : changeAt i f cs = 0 := changeAt_of_notMem f hnodup.1
        unfold changeAt at hothers
        rw [if_pos rfl, hothers, add_zero]
      · have hne : c.1 ≠ i := by
          rintro rfl
          exact hnodup.1 (mem_map.mpr ⟨_, hrest, rfl⟩)
        rw [if_neg hne, zero_add, ih hnodup.2 hrest]

/-- A layer without units has no value. -/
def Sound (l : Layer) : Prop := 0 ≤ l.remainingQty ∧ (l.remainingQty = 0 → l.remainingValue = 0)

/-- What becomes of a layer: it gave `taken` units and `released` of its value, and
`added` was added to it. -/
def Became (layers : Table Layer) (i : ℤ) (l : Layer) (taken released added : ℤ) : Prop :=
  ∃ l', layers.get? i = some l' ∧ l'.remainingQty = l.remainingQty - taken ∧
    l'.remainingValue = l.remainingValue - released + added ∧ (Sound l → Sound l')

lemma Became.same {i : ℤ} {l : Layer} (h : layers.get? i = some l) : Became layers i l 0 0 0 :=
  ⟨l, h, (sub_zero _).symm, by ring, id⟩

/-- A new layer is beside the old ones. -/
lemma Became.insert {i taken released added : ℤ} {l : Layer}
    (h : Became layers i l taken released added) (l' : Layer) :
    Became (layers.insert l') i l taken released added := by
  obtain ⟨l₁, hl₁, hrest⟩ := h
  exact ⟨l₁, (get?_insert_of_ne _ _ (lt_nextId_of_get? hl₁).ne).trans hl₁, hrest⟩

variable {companyId inputCostMicros : ℤ}

section Steps

variable {db db' : StockDb} {productId i : ℤ} {l : Layer}

lemma became_of_issue {outValue : ℤ} (hl : db.layers.get? i = some l)
    (hfifo : p.costMethod = .fifo)
    (h : issueValue db productId p qtyMicros = .ok (outValue, layers)) :
    Became layers i l (changeAt i (·.take) (consume (openLayers db productId) qtyMicros).1)
      (changeAt i (·.portion) (consume (openLayers db productId) qtyMicros).1) 0 := by
  unfold issueValue at h
  rw [if_pos hfifo] at h
  obtain ⟨portions, -, h⟩ := bind_ok_iff.mp h
  obtain ⟨out, -, h⟩ := bind_ok_iff.mp h
  cases h
  have hnodup := @consume_nodup db productId qtyMicros
  by_cases hi : i ∈ (consume (openLayers db productId) qtyMicros).1.map Prod.fst
  · obtain ⟨⟨_, d⟩, hd, rfl⟩ := mem_map.mp hi
    obtain ⟨l₁, hget, -, hopen, -, hmost, hportion⟩ := of_mem_draws hd
    obtain rfl : l = l₁ := Option.some.inj (hl.symm.trans hget)
    rw [changeAt_of_mem _ hnodup hd, changeAt_of_mem _ hnodup hd]
    refine ⟨drawn d l, ?_, rfl, (add_zero _).symm, ?_⟩
    · rw [get?_modifyAll_of_mem _ _ hnodup hd, hl]
      rfl
    · intro _
      refine ⟨sub_nonneg.mpr hmost, ?_⟩
      intro hempty
      -- the last of the units takes the whole value with it
      have hall : l.remainingQty = d.take := sub_eq_zero.mp hempty
      show l.remainingValue - d.portion = 0
      rw [hportion, ← hall, portion_of_all _ hopen, sub_self]
  · rw [changeAt_of_notMem _ hi, changeAt_of_notMem _ hi]
    exact .same ((get?_modifyAll_of_notMem _ _ hi).trans hl)

lemma became_of_revalue {valueMicros : ℤ} {description : String}
    (hl : db.layers.get? i = some l) (hfifo : p.costMethod = .fifo)
    (hpos : 0 < remainingTotal db productId) (h : revalueLayers
      (db.insertLayer (revaluationLayer productId valueMicros description companyId)) productId
      valueMicros p = .ok layers) :
    Became layers i l 0 0 (changeAt i (fun v => v)
      (revalueShares valueMicros (remainingTotal db productId) (openLayers db productId) 0)) := by
  obtain rfl := revalueLayers_ok hfifo hpos h
  have hnew : (db.layers.insert
      (revaluationLayer productId valueMicros description companyId)).get? i = some l :=
    (get?_insert_of_ne _ _ (lt_nextId_of_get? hl).ne).trans hl
  have hnodup := @revalueShares_nodup db productId valueMicros (remainingTotal db productId) 0
  by_cases hi : i ∈ (revalueShares valueMicros (remainingTotal db productId)
      (openLayers db productId) 0).map Prod.fst
  · obtain ⟨⟨_, share⟩, ha, rfl⟩ := mem_map.mp hi
    obtain ⟨l₁, hget, -, hopen⟩ := of_mem_revalueShares ha
    obtain rfl : l = l₁ := Option.some.inj (hl.symm.trans hget)
    rw [changeAt_of_mem _ hnodup ha]
    refine ⟨raised share l, ?_, (sub_zero _).symm, ?_, ?_⟩
    · rw [get?_modifyAll_of_mem _ _ hnodup ha, hnew]
      rfl
    · rw [sub_zero]
      rfl
    · exact fun _ => ⟨hopen.le, fun hnone => absurd hnone hopen.ne'⟩
  · rw [changeAt_of_notMem _ hi]
    exact .same ((get?_modifyAll_of_notMem _ _ hi).trans hnew)

lemma drawsOf_eq_nil {src dest lotId : ℤ}
    (h : qtyMicros ≤ 0 ∨ db.isInternal src = false ∨ db.isInternal dest = true ∨
      ∀ p, db.products.get? productId = some p → p.costMethod ≠ .fifo) :
    drawsOf db (.applyMove productId src dest qtyMicros companyId inputCostMicros lotId) = [] := by
  unfold drawsOf
  dsimp only
  split
  · rfl
  · next p hp =>
      apply if_neg
      rintro ⟨hqty, hsrc, hdest, hfifo⟩
      rcases h with hnone | hout | hin | hother
      · omega
      · rw [hsrc] at hout
        cases hout
      · rw [hdest] at hin
        cases hin
      · exact hother p hp hfifo

lemma drawsOf_issue {src dest lotId : ℤ} (hp : db.products.get? productId = some p)
    (hfifo : p.costMethod = .fifo) (hqty : 0 < qtyMicros) (hsrc : db.isInternal src = true)
    (hdest : db.isInternal dest = false) :
    drawsOf db (.applyMove productId src dest qtyMicros companyId inputCostMicros lotId) =
      (consume (openLayers db productId) qtyMicros).1 := by
  unfold drawsOf
  dsimp only
  rw [hp]
  exact if_pos ⟨hqty, hsrc, hdest, hfifo⟩

lemma became_of_valued {now : Moment} {src dest lotId : ℤ} (hl : db.layers.get? i = some l)
    (h : Valued now (moved db productId src dest qtyMicros companyId lotId) productId src dest
      qtyMicros companyId inputCostMicros db') :
    Became db'.layers i l
      (takenFrom i db (.applyMove productId src dest qtyMicros companyId inputCostMicros lotId))
      (releasedFrom i db (.applyMove productId src dest qtyMicros companyId inputCostMicros lotId))
      0 := by
  have hrow : ∀ {p' : Product},
      (moved db productId src dest qtyMicros companyId lotId).products.get? productId = some p' →
      ∃ p, db.products.get? productId = some p ∧ p'.costMethod = p.costMethod := by
    intro p' hp'
    rw [products_moved, get?_modify_self] at hp'
    obtain ⟨p, hp, rfl⟩ := Option.map_eq_some_iff.mp hp'
    exact ⟨p, hp, rfl⟩
  unfold takenFrom releasedFrom
  cases h with
  | unchanged hwhy =>
      have hnone : drawsOf db
          (.applyMove productId src dest qtyMicros companyId inputCostMicros lotId) = [] := by
        apply drawsOf_eq_nil
        rcases hwhy with hqty | hside | habsent
        · exact .inl hqty
        · have hside : db.isInternal src = db.isInternal dest := hside
          cases hdest : db.isInternal dest with
          | true => exact .inr (.inr (.inl rfl))
          | false => exact .inr (.inl (hside.trans hdest))
        · refine .inr (.inr (.inr ?_))
          intro p hp
          rw [products_moved, get?_modify_self, hp] at habsent
          cases habsent
      rw [hnone]
      exact .same hl
  | receipt _ hsrc _ _ _ _ =>
      have hsrc : db.isInternal src = false := hsrc
      rw [drawsOf_eq_nil (.inr (.inl hsrc))]
      exact Became.insert (.same hl) _
  | @issue p' outValue layers link account hqty hsrc hdest hp' hissue _ _ =>
      obtain ⟨p, hp, hmethod⟩ := hrow hp'
      by_cases hfifo : p'.costMethod = .fifo
      · rw [drawsOf_issue hp (hmethod.symm.trans hfifo) hqty hsrc hdest]
        exact Became.insert (became_of_issue hl hfifo hissue) _
      · have hnone : drawsOf db
            (.applyMove productId src dest qtyMicros companyId inputCostMicros lotId) = [] := by
          refine drawsOf_eq_nil (.inr (.inr (.inr ?_)))
          intro p₁ hp₁
          obtain rfl : p = p₁ := Option.some.inj (hp.symm.trans hp₁)
          exact fun hf => hfifo (hmethod.trans hf)
        rw [hnone]
        unfold issueValue at hissue
        rw [if_neg hfifo] at hissue
        cases hissue
        exact Became.insert (.same hl) _

/-- **One operation.** -/
theorem became_of_op {now : Moment} {op : StockOp} (hl : db.layers.get? i = some l)
    (h : op.run now db = .ok db') :
    Became db'.layers i l (takenFrom i db op) (releasedFrom i db op) (addedTo i db op) := by
  cases op with
  | applyMove productId src dest qtyMicros companyId inputCostMicros lotId =>
      show Became db'.layers i l _ _ 0
      rcases applyMove_ok h with ⟨hnothing, rfl⟩ | ⟨-, -, -, hvalued⟩
      · have hnone : drawsOf db'
            (.applyMove productId src dest qtyMicros companyId inputCostMicros lotId) = [] := by
          apply drawsOf_eq_nil
          rcases hnothing with hzero | hsame
          · exact .inl hzero.le
          · rw [hsame]
            cases hdest : db'.isInternal dest with
            | true => exact .inr (.inr (.inl rfl))
            | false => exact .inr (.inl rfl)
        unfold takenFrom releasedFrom
        rw [hnone]
        exact .same hl
      · exact became_of_valued hl hvalued
  | reserve productId locId qtyMicros lotId =>
      obtain ⟨⟨got, db₁⟩, hreserve, rfl⟩ := map_ok_iff.mp h
      rcases reserve_ok hreserve with ⟨-, rfl⟩ | ⟨q, -, -, -, rfl⟩
      · exact .same hl
      · exact .same hl
  | release productId locId qtyMicros lotId =>
      rcases release_ok h with ⟨-, rfl⟩ | ⟨q, -, -, rfl⟩
      · exact .same hl
      · exact .same hl
  | revalue productId valueMicros description companyId =>
      obtain ⟨⟨layerId, db₁⟩, hrevalue, rfl⟩ := map_ok_iff.mp h
      show Became _ i l 0 0 _
      unfold addedTo addsOf
      rcases revalue_ok hrevalue with ⟨hnothing, -, rfl⟩ | ⟨p, layers, hvalue, hp, -, hlayers, rfl⟩
      · dsimp only
        split
        · exact .same hl
        · next p hp =>
            rw [if_neg]
            · exact .same hl
            · rintro ⟨hvalue, -, -⟩
              rcases hnothing with hzero | hnone
              · exact hvalue hzero
              · rw [hp] at hnone
                cases hnone
      · dsimp only
        rw [hp]
        dsimp only
        by_cases hfifo : p.costMethod = .fifo ∧ 0 < remainingTotal db productId
        · rw [if_pos ⟨hvalue, hfifo⟩]
          exact became_of_revalue hl hfifo.1 hfifo.2 hlayers
        · rw [if_neg fun h => hfifo h.2]
          unfold revalueLayers at hlayers
          rw [remainingTotal_insert rfl, if_neg hfifo] at hlayers
          cases hlayers
          exact Became.insert (.same hl) _

/-- An operation of a run. -/
def stockOne (db : StockDb) (e : Moment × StockOp) : Except String StockDb := e.2.run e.1 db

/-- What a run does to a layer, all in all. -/
def inAll (f : StockDb → StockOp → ℤ) (db : StockDb) (events : List (Moment × StockOp)) : ℤ :=
  sumInTurn stockOne (fun db e => f db e.2) db events

lemma inAll_cons (f : StockDb → StockOp → ℤ) {e : Moment × StockOp}
    (events : List (Moment × StockOp)) (h : stockOne db e = .ok db') :
    inAll f db (e :: events) = f db e.2 + inAll f db' events := by
  unfold inAll
  rw [sumInTurn, h]

/-- **A run.** -/
theorem became_in_all {events : List (Moment × StockOp)} (hl : db.layers.get? i = some l)
    (h : events.foldlM stockOne db = .ok db') :
    Became db'.layers i l (inAll (takenFrom i) db events) (inAll (releasedFrom i) db events)
      (inAll (addedTo i) db events) := by
  induction events generalizing db l with
  | nil =>
      cases h
      exact .same hl
  | cons e events ih =>
      obtain ⟨m, hm, hrest⟩ := foldlM_cons_ok.mp h
      obtain ⟨l₁, hl₁, hqty, hvalue, hkeeps⟩ := became_of_op hl hm
      obtain ⟨l₂, hl₂, hqty₂, hvalue₂, hkeeps₂⟩ := ih hl₁ hrest
      rw [inAll_cons _ events hm, inAll_cons _ events hm, inAll_cons _ events hm]
      refine ⟨l₂, hl₂, ?_, ?_, fun hsound => hkeeps₂ (hkeeps hsound)⟩
      · rw [hqty₂, hqty]
        ring
      · rw [hvalue₂, hvalue]
        ring

/-- **No value is left behind.**  Over any run of operations, what a layer gave
and what it has left make up its units, and its value with what revaluations
added; when its last unit is gone it has released all of that. -/
theorem layer_releases_all {events : List (Moment × StockOp)}
    (h : events.foldlM stockOne db = .ok db') (hl : db.layers.get? i = some l)
    (hopen : 0 < l.remainingQty) :
    ∃ l', db'.layers.get? i = some l' ∧ 0 ≤ l'.remainingQty ∧
      inAll (takenFrom i) db events + l'.remainingQty = l.remainingQty ∧
      inAll (releasedFrom i) db events + l'.remainingValue =
        l.remainingValue + inAll (addedTo i) db events ∧
      (l'.remainingQty = 0 → inAll (releasedFrom i) db events =
        l.remainingValue + inAll (addedTo i) db events) := by
  obtain ⟨l', hl', hqty, hvalue, hkeeps⟩ := became_in_all hl h
  obtain ⟨hnonneg, hnone⟩ := hkeeps ⟨hopen.le, fun hzero => absurd hzero hopen.ne'⟩
  refine ⟨l', hl', hnonneg, by omega, by omega, ?_⟩
  intro hempty
  have hnothing := hnone hempty
  omega

end Steps

/-! ### Revaluations -/

/-- **A revaluation is distributed** over the layers to the last micro-unit. -/
theorem revaluation_distributed {db db' : StockDb} {productId valueMicros layerId : ℤ}
    {description : String} (hp : db.products.get? productId = some p)
    (hfifo : p.costMethod = .fifo) (hpos : 0 < remainingTotal db productId)
    (h : revalue db productId valueMicros description companyId = .ok (layerId, db')) :
    db'.layerSum productId (·.remainingValue) =
      db.layerSum productId (·.remainingValue) + valueMicros := by
  unfold StockDb.layerSum
  rcases revalue_ok h with ⟨hnothing, -, rfl⟩ | ⟨p₁, layers, -, hp₁, -, hlayers, rfl⟩
  · rcases hnothing with hzero | hnone
    · rw [hzero, add_zero]
    · rw [hp] at hnone
      cases hnone
  obtain rfl : p = p₁ := Option.some.inj (hp.symm.trans hp₁)
  obtain rfl := revalueLayers_ok hfifo hpos hlayers
  have hrows : ∀ a ∈ revalueShares valueMicros (remainingTotal db productId)
      (openLayers db productId) 0,
      ∃ l, (db.layers.insert
        (revaluationLayer productId valueMicros description companyId)).get? a.1 = some l ∧
          l.productId = productId :=
    fun a ha => of_mem_revalueShares_insert ha _
  rw [layersSum_modifyAll hrows raised_productId (fun share => share) fun _ _ => rfl,
    sum_revalueShares _ _ (openLayers_ne_nil hpos), sub_zero, layersSum_insert]
  show layersSum db.layers productId _ + (if _ then 0 else 0) + valueMicros = _
  rw [ite_self, add_zero]

/-! ### Issues, runs and revaluations -/

/-- An issue of a FIFO product out of an internal location. -/
lemma fifo_issue {now : Moment} {db db' : StockDb} {productId src dest : ℤ}
    (hp : db.products.get? productId = some p) (hfifo : p.costMethod = .fifo)
    (hqty : 0 < qtyMicros) (hsrc : db.isInternal src = true) (hdest : db.isInternal dest = false)
    (h : valuateMove now db productId src dest qtyMicros companyId inputCostMicros = .ok db') :
    ∃ ds outValue layers link, Consumed db productId p qtyMicros ds outValue layers ∧
      db'.layers = layers.insert
        { issueLayer productId (db.usageOf dest) qtyMicros companyId outValue with
          accountMoveId := link } ∧
      db'.products.get? productId = some (issued qtyMicros outValue p) := by
  cases valuateMove_ok h with
  | unchanged hwhy =>
      rcases hwhy with hnone | hside | habsent
      · omega
      · rw [hsrc, hdest] at hside
        cases hside
      · rw [hp] at habsent
        cases habsent
  | receipt _ hout _ _ _ _ =>
      rw [hsrc] at hout
      cases hout
  | @issue p₁ outValue layers link account _ _ _ hp₁ hissue _ _ =>
      obtain rfl : p = p₁ := Option.some.inj (hp.symm.trans hp₁)
      refine ⟨_, outValue, layers, link, consumed_of_issueValue hfifo hqty hissue, rfl, ?_⟩
      rw [get?_modify_self, hp]
      rfl

/-- **First in, first out, exactly.**  An issue takes from the oldest layers what
it asks for or all they have, and is worth what they release and the rest at the
standard price; no layer is left with less than nothing that was not worth less
before.  Over a run a layer releases its whole value with its last unit, and a
revaluation reaches the layers in full. -/
theorem fifo_exact : (∀ (now : Moment) (db db' : StockDb) (productId src dest qtyMicros companyId
        inputCostMicros : ℤ) (p : Product), db.products.get? productId = some p →
      p.costMethod = .fifo → 0 < qtyMicros → db.isInternal src = true → db.isInternal dest = false →
      valuateMove now db productId src dest qtyMicros companyId inputCostMicros = .ok db' →
      ∃ ds outValue layers link, Consumed db productId p qtyMicros ds outValue layers ∧
        db'.layers = layers.insert
          { issueLayer productId (db.usageOf dest) qtyMicros companyId outValue with
            accountMoveId := link } ∧
        db'.products.get? productId = some (issued qtyMicros outValue p)) ∧
    (∀ (events : List (Moment × StockOp)) (db db' : StockDb) (i : ℤ) (l : Layer),
      events.foldlM stockOne db = .ok db' → db.layers.get? i = some l → 0 < l.remainingQty →
      ∃ l', db'.layers.get? i = some l' ∧ 0 ≤ l'.remainingQty ∧
        inAll (takenFrom i) db events + l'.remainingQty = l.remainingQty ∧
        inAll (releasedFrom i) db events + l'.remainingValue =
          l.remainingValue + inAll (addedTo i) db events ∧
        (l'.remainingQty = 0 → inAll (releasedFrom i) db events =
          l.remainingValue + inAll (addedTo i) db events)) ∧
    ∀ (db db' : StockDb) (productId valueMicros companyId layerId : ℤ) (description : String)
        (p : Product), db.products.get? productId = some p → p.costMethod = .fifo →
      0 < remainingTotal db productId →
      revalue db productId valueMicros description companyId = .ok (layerId, db') →
      db'.layerSum productId (·.remainingValue) =
        db.layerSum productId (·.remainingValue) + valueMicros := by
  refine ⟨?_, ?_, ?_⟩
  · intro now db db' productId src dest qtyMicros companyId inputCostMicros p hp hfifo hqty hsrc
      hdest h
    exact fifo_issue hp hfifo hqty hsrc hdest h
  · intro events db db' i l h hl hopen
    exact layer_releases_all h hl hopen
  · intro db db' productId valueMicros companyId layerId description p hp hfifo hpos h
    exact revaluation_distributed hp hfifo hpos h

/-- A unit bought at 1.00 and written down by 3.00. -/
def writtenDown : List (Moment × StockOp) :=
  [(february, .applyMove 1 2 1 1000000 1 1000000 0), (february, .revalue 1 (-3000000) "" 1)]

/-- What is left of a layer may be worth less than nothing: half of that unit
goes out, and the other half is left at -1.00. -/
theorem written_down_below_zero :
    ∃ db db', writtenDown.foldlM stockOne (smallWarehouse fifoBolt) = .ok db ∧
      (StockOp.applyMove 1 1 3 500000 1 (-1) 0).run february db = .ok db' ∧
      ∃ l, db'.layers.get? 1 = some l ∧ l.remainingQty = 500000 ∧ l.remainingValue = -1000000 := by
  obtain ⟨db, hdb⟩ := exists_ok
    (show (writtenDown.foldlM stockOne (smallWarehouse fifoBolt)).isOk = true by decide +kernel)
  have hall : ((writtenDown ++ [(february, StockOp.applyMove 1 1 3 500000 1 (-1) 0)]).foldlM stockOne
      (smallWarehouse fifoBolt)).toOption.any (fun db => (db.layers.get? 1).any fun l =>
        decide (l.remainingQty = 500000 ∧ l.remainingValue = -1000000)) = true := by
    decide +kernel
  obtain ⟨db', hdb', hlayer⟩ := (Option.any_eq_true _ _).mp hall
  obtain ⟨l, hl, hleft⟩ := (Option.any_eq_true _ _).mp hlayer
  have hdb' := toOption_eq_some_iff.mp hdb'
  rw [foldlM_append, hdb] at hdb'
  obtain ⟨db₁, hissue, hdone⟩ := foldlM_cons_ok.mp hdb'
  cases hdone
  exact ⟨db, db', hdb, hissue, l, hl, of_decide_eq_true hleft⟩

end StockQuant

end CErp
