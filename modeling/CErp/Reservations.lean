/-
Reservations are kept twice, on the quants and on the moves.

`Reserved` says that the two agree: what is reserved of a quant is what the open
moves on it hold, and no move holds more than its demand.  Since nothing a move
holds is negative, a quant has always at least as much reserved as one of its
moves, or all moves of a transfer together, give back; the floor under a release
is never met.
-/
import CErp.Pickings
import CErp.StockLedger

namespace CErp

open Runs StockPicking Outcome List Table

/-! ### What the engine does to the reservations -/

variable {now : Moment}

namespace StockQuant

lemma reservedAt_insert (quants : AList fun _ : QuantKey => Quant) (k k' : QuantKey) (q : Quant) :
    reservedAt (quants.insert k q) k' =
      if k' = k then q.reservedQuantity else reservedAt quants k' := by
  unfold reservedAt
  by_cases hk : k' = k
  · subst hk
    rw [AList.lookup_insert, if_pos rfl]
  · rw [AList.lookup_insert_ne hk, if_neg hk]

lemma reservedAt_addQuantity (quants : AList fun _ : QuantKey => Quant) (k : QuantKey)
    (delta companyId : ℤ) (k' : QuantKey) :
    reservedAt (addQuantity quants k delta companyId) k' = reservedAt quants k' := by
  rcases hlook : quants.lookup k with - | q
  · rw [addQuantity_new hlook, reservedAt_insert]
    split
    · next hk => rw [hk, reservedAt, hlook]
    · rfl
  · rw [addQuantity_old hlook, reservedAt_insert]
    split
    · next hk => rw [hk, reservedAt, hlook]
    · rfl

/-- Two states of the engine with the same reservations. -/
structure SameReserved (db db' : StockDb) : Prop where
  reserved : ∀ k, reservedAt db'.quants k = reservedAt db.quants k
  floored : db'.floored = db.floored

lemma SameReserved.refl (db : StockDb) : SameReserved db db := ⟨fun _ => rfl, rfl⟩

variable {productId qtyMicros : ℤ}

/-- A move reserves nothing and gives nothing back. -/
lemma applyMove_sameReserved {db db' : StockDb} {src dest companyId inputCostMicros lotId : ℤ}
    (h : applyMove now db productId src dest qtyMicros companyId inputCostMicros lotId = .ok db') :
    SameReserved db db' := by
  rcases applyMove_ok h with ⟨-, rfl⟩ | ⟨-, -, -, hvalued⟩
  · exact .refl _
  have hmoved : SameReserved db (moved db productId src dest qtyMicros companyId lotId) := by
    refine ⟨?_, rfl⟩
    intro k
    show reservedAt (addQuantity (addQuantity db.quants _ _ _) _ _ _) k = _
    rw [reservedAt_addQuantity, reservedAt_addQuantity]
  cases hvalued with
  | unchanged _ => exact hmoved
  | receipt _ _ _ _ _ _ => exact ⟨hmoved.reserved, rfl⟩
  | issue _ _ _ _ _ _ _ => exact ⟨hmoved.reserved, rfl⟩

/-- What `reserve` gets is added to the quant. -/
lemma reserve_reserved {db db' : StockDb} {locId lotId got : ℤ}
    (h : reserve db productId locId qtyMicros lotId = .ok (got, db')) :
    0 ≤ got ∧ (got = 0 ∨ got ≤ qtyMicros) ∧ db'.floored = db.floored ∧
      ∀ k, reservedAt db'.quants k =
        reservedAt db.quants k + if k = ⟨productId, locId, lotId⟩ then got else 0 := by
  rcases reserve_ok h with ⟨rfl, rfl⟩ | ⟨q, hlook, hpos, hle, rfl⟩
  · refine ⟨le_rfl, .inl rfl, rfl, ?_⟩
    intro k
    rw [ite_self, add_zero]
  · refine ⟨hpos.le, .inr hle, rfl, ?_⟩
    intro k
    show reservedAt (db.quants.insert _ _) k = _
    rw [reservedAt_insert]
    split
    · next hk => rw [hk, reservedAt, hlook]
    · rw [add_zero]

/-- A release of no more than is reserved takes just that, and does not meet the
floor. -/
lemma release_reserved {db db' : StockDb} {locId lotId : ℤ}
    (h : release db productId locId qtyMicros lotId = .ok db') (hqty : 0 ≤ qtyMicros)
    (hle : qtyMicros ≤ reservedAt db.quants ⟨productId, locId, lotId⟩) :
    db'.floored = db.floored ∧ ∀ k, reservedAt db'.quants k =
      reservedAt db.quants k - if k = ⟨productId, locId, lotId⟩ then qtyMicros else 0 := by
  rcases release_ok h with ⟨hnothing, rfl⟩ | ⟨q, hlook, -, rfl⟩
  · have hzero : qtyMicros = 0 := by
      rcases hnothing with hneg | hnone
      · omega
      · rw [reservedAt, hnone] at hle
        dsimp only at hle
        omega
    refine ⟨rfl, ?_⟩
    intro k
    rw [hzero, ite_self, sub_zero]
  · rw [reservedAt, hlook] at hle
    dsimp only at hle
    have hleft : ¬ q.reservedQuantity - qtyMicros < 0 := by omega
    constructor
    · show (db.floored || decide (q.reservedQuantity - qtyMicros < 0)) = db.floored
      rw [decide_eq_false hleft, Bool.or_false]
    · intro k
      show reservedAt (db.quants.insert _ _) k = _
      rw [reservedAt_insert]
      split
      · next hk =>
          rw [hk, reservedAt, hlook]
          show max (q.reservedQuantity - qtyMicros) 0 = q.reservedQuantity - qtyMicros
          omega
      · rw [sub_zero]

end StockQuant

/-! ### What the moves hold -/

/-- What an open move holds of a quant. -/
def StockMove.held (m : StockMove) (k : QuantKey) : ℤ :=
  if isOpen m.state ∧ m.key = k then m.reservedQty else 0

/-- What the open moves hold of a quant. -/
def heldAt (moves : Table StockMove) (k : QuantKey) : ℤ := moves.sumOver fun _ m => m.held k

/-- **The reservations are accounted for.**  A demand below zero asks for nothing,
and nothing is held for it. -/
structure Reserved (db : WarehouseDb) : Prop where
  accounted : ∀ k, StockQuant.reservedAt db.stock.quants k = heldAt db.moves k
  bounds : ∀ id m, db.moves.get? id = some m →
    0 ≤ m.reservedQty ∧ m.reservedQty ≤ max m.productUomQty 0
  unfloored : db.stock.floored = false

/-- Beside, a cancelled move holds nothing, since it may become a draft again. -/
structure ReservedWell (db : WarehouseDb) : Prop extends Reserved db where
  cancelled : ∀ id m, db.moves.get? id = some m → m.state = .cancel → m.reservedQty = 0

variable {m : StockMove}

lemma held_closed (h : isOpen m.state = false) (k : QuantKey) : m.held k = 0 := by
  unfold StockMove.held
  rw [if_neg]
  rw [h]
  rintro ⟨hopen, -⟩
  cases hopen

lemma held_open (h : isOpen m.state = true) (k : QuantKey) :
    m.held k = if k = m.key then m.reservedQty else 0 := by
  unfold StockMove.held
  simp only [h, true_and, eq_comm]

lemma held_of_zero (h : m.reservedQty = 0) (k : QuantKey) : m.held k = 0 := by
  rw [StockMove.held, h, ite_self]

lemma held_nonneg (h : 0 ≤ m.reservedQty) (k : QuantKey) : 0 ≤ m.held k := by
  unfold StockMove.held
  split
  · exact h
  · exact le_rfl

variable {id : ℤ}

lemma heldAt_modify {moves : Table StockMove} (h : moves.get? id = some m)
    (f : StockMove → StockMove) (k : QuantKey) :
    heldAt (moves.modify id f) k = heldAt moves k - m.held k + (f m).held k :=
  sumOver_modify _ f h

lemma heldAt_insert (moves : Table StockMove) (m : StockMove) (k : QuantKey) :
    heldAt (moves.insert m) k = heldAt moves k + m.held k := sumOver_insert _ _ _

namespace ReservedWell

variable {db db' : WarehouseDb}

/-- A move does not hold more of its quant than is reserved of it. -/
lemma held_le (h : ReservedWell db) (hm : db.moves.get? id = some m)
    (hopen : isOpen m.state = true) :
    m.reservedQty ≤ StockQuant.reservedAt db.stock.quants m.key := by
  have hpart : m.held m.key ≤ heldAt db.moves m.key := by
    apply le_sumOver hm
    intro i b hb
    exact held_nonneg (h.bounds i b hb).1 _
  rw [h.accounted]
  rwa [held_open hopen, if_pos rfl] at hpart

/-- Changes of the other tables. -/
lemma of_same (h : ReservedWell db) (hstock : StockQuant.SameReserved db.stock db'.stock)
    (hmoves : db'.moves = db.moves) : ReservedWell db' := by
  constructor
  · constructor
    · intro k
      rw [hstock.reserved, hmoves]
      exact h.accounted k
    · rw [hmoves]
      exact h.bounds
    · rw [hstock.floored]
      exact h.unfloored
  · rw [hmoves]
    exact h.cancelled

/-- A new move that holds nothing. -/
lemma insertMove (h : ReservedWell db) (hstock : StockQuant.SameReserved db.stock db'.stock)
    (hm : m.reservedQty = 0) (hmoves : db'.moves = db.moves.insert m) : ReservedWell db' := by
  have hrow : ∀ id m', db'.moves.get? id = some m' →
      m'.reservedQty = 0 ∨ db.moves.get? id = some m' := by
    intro id m' hm'
    rw [hmoves, get?_insert] at hm'
    split at hm'
    · cases hm'
      exact .inl hm
    · exact .inr hm'
  constructor
  · constructor
    · intro k
      rw [hstock.reserved, hmoves, heldAt_insert, held_of_zero hm, add_zero]
      exact h.accounted k
    · intro id m' hm'
      rcases hrow id m' hm' with hzero | hold
      · rw [hzero]
        exact ⟨le_rfl, le_max_right _ _⟩
      · exact h.bounds id m' hold
    · rw [hstock.floored]
      exact h.unfloored
  · intro id m' hm' hcancel
    rcases hrow id m' hm' with hzero | hold
    · exact hzero
    · exact h.cancelled id m' hold hcancel

/-- One move and its quant change together. -/
lemma modifyMove (h : ReservedWell db) {f : StockMove → StockMove}
    (hm : db.moves.get? id = some m) (hmoves : db'.moves = db.moves.modify id f)
    (hreserved : ∀ k, StockQuant.reservedAt db'.stock.quants k =
      StockQuant.reservedAt db.stock.quants k - m.held k + (f m).held k)
    (hfloored : db'.stock.floored = db.stock.floored)
    (hbounds : 0 ≤ (f m).reservedQty ∧ (f m).reservedQty ≤ max (f m).productUomQty 0)
    (hcancelled : (f m).state = .cancel → (f m).reservedQty = 0) : ReservedWell db' := by
  have hrow : ∀ i m', db'.moves.get? i = some m' → m' = f m ∨ db.moves.get? i = some m' := by
    intro i m' hm'
    rw [hmoves, get?_modify] at hm'
    obtain ⟨m₀, hm₀, rfl⟩ := Option.map_eq_some_iff.mp hm'
    split
    · next hi =>
        subst hi
        rw [hm] at hm₀
        cases hm₀
        exact .inl rfl
    · exact .inr hm₀
  constructor
  · constructor
    · intro k
      rw [hreserved, hmoves, heldAt_modify hm, h.accounted]
    · intro i m' hm'
      rcases hrow i m' hm' with rfl | hold
      · exact hbounds
      · exact h.bounds i m' hold
    · rw [hfloored]
      exact h.unfloored
  · intro i m' hm' hcancel
    rcases hrow i m' hm' with rfl | hold
    · exact hcancelled hcancel
    · exact h.cancelled i m' hold hcancel

end ReservedWell

/-! ### Rows in turn -/

section Rows

variable {τ α ρ : Type*} {tbl : τ → Table α} {one : τ → ℤ × α → Except ρ τ} {p : α → Prop}

/-- Rows that are read first and then taken in turn are still as they were read
when their turn comes, as long as a turn changes its own row only. -/
lemma inTurn_rows
    (hframe : ∀ s r s', one s r = .ok s' → ∀ i, i ≠ r.1 → (tbl s').get? i = (tbl s).get? i)
    {rows : List (ℤ × α)} {s : τ} (hnodup : (rows.map Prod.fst).Nodup)
    (hrows : ∀ r ∈ rows, (tbl s).get? r.1 = some r.2 ∧ p r.2) :
    InTurn one (fun s r => (tbl s).get? r.1 = some r.2 ∧ p r.2) s rows := by
  induction rows generalizing s with
  | nil => trivial
  | cons r rows ih =>
      rw [map_cons, nodup_cons] at hnodup
      rw [forall_mem_cons] at hrows
      refine ⟨hrows.1, ?_⟩
      intro s' hs'
      apply ih hnodup.2
      intro r' hr'
      have hne : r'.1 ≠ r.1 := by
        intro heq
        exact hnodup.1 (heq ▸ mem_map_of_mem hr')
      rw [hframe s r s' hs' r'.1 hne]
      exact hrows.2 r' hr'

end Rows

lemma movesIn_nodup (db : WarehouseDb) (id : ℤ) (states : TransferState → Bool) :
    ((movesIn db id states).map Prod.fst).Nodup :=
  db.moves.nodup.sublist (filter_sublist.map _)

variable {db : WarehouseDb} {r : ℤ × StockMove} {states : TransferState → Bool}

lemma mem_movesIn (h : r ∈ movesIn db id states) :
    db.moves.get? r.1 = some r.2 ∧ (r.2.pickingId == some id && states r.2.state) = true := by
  obtain ⟨hmem, hsel⟩ := mem_filter.mp h
  exact ⟨get?_eq_some_iff.mpr hmem, hsel⟩

lemma mem_movesIn_state (h : r ∈ movesIn db id states) :
    db.moves.get? r.1 = some r.2 ∧ states r.2.state = true := by
  obtain ⟨hrow, hsel⟩ := mem_movesIn h
  exact ⟨hrow, ((Bool.and_eq_true _ _).mp hsel).2⟩

lemma isOpen_of_isWaiting {s : TransferState} (h : isWaiting s = true) : isOpen s = true := by
  cases s <;> first | rfl | cases h

lemma isOpen_of_isReserving {s : TransferState} (h : isReserving s = true) : isOpen s = true := by
  cases s <;> first | rfl | cases h

/-! ### Reserving -/

variable {stock : StockDb}

lemma reserveNeed_reserved {stock' : StockDb} {need got : ℤ}
    (h : reserveNeed stock m need = .ok (got, stock')) :
    0 ≤ got ∧ (got = 0 ∨ got ≤ need) ∧ stock'.floored = stock.floored ∧
      ∀ k, StockQuant.reservedAt stock'.quants k =
        StockQuant.reservedAt stock.quants k + if k = m.key then got else 0 := by
  unfold reserveNeed at h
  split at h
  · exact StockQuant.reserve_reserved h
  · cases h
    refine ⟨le_rfl, .inl rfl, rfl, ?_⟩
    intro k
    rw [ite_self, add_zero]

/-- What one move reserves goes onto its quant and onto itself. -/
lemma assignOne_reserved {s s' : WarehouseDb × Bool} (h : ReservedWell s.1)
    (hrow : s.1.moves.get? r.1 = some r.2) (hwaiting : isWaiting r.2.state = true)
    (hassign : assignOne s r = .ok s') : ReservedWell s'.1 := by
  obtain ⟨need, hneed, hassign⟩ := bind_ok_iff.mp hassign
  obtain ⟨⟨got, stock⟩, hreserve, hassign⟩ := bind_ok_iff.mp hassign
  cases hassign
  have halready : alreadyReserved s.1 r.1 = r.2.reservedQty := by rw [alreadyReserved, hrow]
  have hneed := bigint_ok hneed
  rw [halready] at hneed
  obtain ⟨hgot, hle, hfloored, hreserved⟩ := reserveNeed_reserved hreserve
  have hbounds := h.bounds r.1 r.2 hrow
  have hstate : isOpen (if r.2.productUomQty ≤ r.2.reservedQty + got then TransferState.assigned
      else .partiallyAvailable) = true := by
    split <;> rfl
  rw [halready]
  apply h.modifyMove (f := withReserved r.2.productUomQty (r.2.reservedQty + got)) hrow rfl
  · intro k
    show StockQuant.reservedAt stock.quants k = _
    rw [hreserved, held_open (isOpen_of_isWaiting hwaiting), held_open hstate]
    show _ = _ - (if k = r.2.key then r.2.reservedQty else 0) +
      if k = r.2.key then r.2.reservedQty + got else 0
    split <;> ring
  · exact hfloored
  · show 0 ≤ r.2.reservedQty + got ∧ r.2.reservedQty + got ≤ max r.2.productUomQty 0
    omega
  · intro hcancel
    rw [withReserved] at hcancel
    split at hcancel <;> cases hcancel

lemma assignOne_frame {s s' : WarehouseDb × Bool} (h : assignOne s r = .ok s') (i : ℤ)
    (hi : i ≠ r.1) : s'.1.moves.get? i = s.1.moves.get? i := by
  obtain ⟨need, -, h⟩ := bind_ok_iff.mp h
  obtain ⟨⟨got, stock⟩, -, h⟩ := bind_ok_iff.mp h
  cases h
  exact get?_modify_of_ne _ _ hi

variable {db' : WarehouseDb}

lemma actionAssign_reserved (h : ReservedWell db) (hassign : actionAssign db id = .ok db') :
    ReservedWell db' := by
  obtain ⟨⟨db₁, allFull⟩, hmoves, hassign⟩ := bind_ok_iff.mp hassign
  cases hassign
  have hall : ReservedWell db₁ := by
    refine @foldlM_invariant _ _ _ _ _ (fun s => ReservedWell s.1) _ _ _ ?_
      (@inTurn_rows _ _ _ (fun s => s.1.moves) assignOne (fun m => isWaiting m.state = true)
        (fun _ _ _ hone => assignOne_frame hone) _ _ (movesIn_nodup db id isWaiting)
        (fun _ hr => mem_movesIn_state hr)) hmoves h
    intro s r s' hs hrow hone
    exact assignOne_reserved hs hrow.1 hrow.2 hone
  exact hall.of_same (.refl _) rfl

/-! ### Validating -/

variable {purchaseId : ℤ}

/-- A move that is done gives back what it held, before the quantity moves. -/
lemma validateOne_reserved (h : ReservedWell db) (hrow : db.moves.get? r.1 = some r.2)
    (hopen : isOpen r.2.state = true) (hvalidate : validateOne now purchaseId db r = .ok db') :
    ReservedWell db' := by
  unfold validateOne at hvalidate
  dsimp only at hvalidate
  split at hvalidate
  · cases hvalidate
    exact h
  obtain ⟨_, -, hvalidate⟩ := bind_ok_iff.mp hvalidate
  obtain ⟨_, -, hvalidate⟩ := bind_ok_iff.mp hvalidate
  obtain ⟨stock₁, hrelease, hvalidate⟩ := bind_ok_iff.mp hvalidate
  obtain ⟨stock₂, hmove, hvalidate⟩ := bind_ok_iff.mp hvalidate
  cases hvalidate
  obtain ⟨hfloored, hreserved⟩ := StockQuant.release_reserved hrelease (h.bounds _ _ hrow).1
    (h.held_le hrow hopen)
  have hsame := StockQuant.applyMove_sameReserved hmove
  apply h.modifyMove (f := finished _ (doneQty r.2)) hrow rfl
  · intro k
    rw [held_open hopen, held_closed (by rfl), add_zero]
    exact (hsame.reserved k).trans (hreserved k)
  · exact hsame.floored.trans hfloored
  · exact ⟨le_rfl, le_max_right _ _⟩
  · intro _
    rfl

lemma validateOne_frame (h : validateOne now purchaseId db r = .ok db') (i : ℤ) (hi : i ≠ r.1) :
    db'.moves.get? i = db.moves.get? i := by
  unfold validateOne at h
  dsimp only at h
  split at h
  · cases h
    rfl
  obtain ⟨_, -, h⟩ := bind_ok_iff.mp h
  obtain ⟨_, -, h⟩ := bind_ok_iff.mp h
  obtain ⟨stock₁, -, h⟩ := bind_ok_iff.mp h
  obtain ⟨stock₂, -, h⟩ := bind_ok_iff.mp h
  cases h
  exact get?_modify_of_ne _ _ hi

lemma deliver_reserved {saleId : ℤ} (h : ReservedWell db)
    (hdeliver : deliver db id saleId = .ok db') : ReservedWell db' := by
  unfold deliver at hdeliver
  split at hdeliver
  · cases hdeliver
    exact h
  · obtain ⟨lines, -, hdeliver⟩ := bind_ok_iff.mp hdeliver
    cases hdeliver
    exact h.of_same (.refl _) rfl

lemma receive_reserved (h : ReservedWell db) (hreceive : receive db id purchaseId = .ok db') :
    ReservedWell db' := by
  unfold receive at hreceive
  split at hreceive
  · cases hreceive
    exact h
  · obtain ⟨lines, -, hreceive⟩ := bind_ok_iff.mp hreceive
    cases hreceive
    exact h.of_same (.refl _) rfl

/-- A component's move is done from the start. -/
lemma consumeComponent_reserved {subLoc recvQty comp : ℤ} {b : Bom} {ln : BomLine}
    (h : ReservedWell db)
    (hconsume : consumeComponent now id subLoc recvQty comp b db ln = .ok db') :
    ReservedWell db' := by
  obtain ⟨q, -, hconsume⟩ := bind_ok_iff.mp hconsume
  split at hconsume
  · cases hconsume
    exact h
  · obtain ⟨stock, hmove, hconsume⟩ := bind_ok_iff.mp hconsume
    cases hconsume
    exact h.insertMove (m := componentMove id subLoc comp q ln)
      (StockQuant.applyMove_sameReserved hmove) rfl rfl

lemma backflush_reserved (h : ReservedWell db) (hback : backflush now db id = .ok db') :
    ReservedWell db' := by
  unfold backflush at hback
  split at hback
  · cases hback
    exact h
  refine foldlM_keeps ReservedWell ?_ hback h
  intro db₁ productId db₂ h₁ hone
  obtain ⟨recvQty, -, hone⟩ := bind_ok_iff.mp hone
  split at hone
  · cases hone
    exact h₁
  · refine foldlM_keeps ReservedWell ?_ hone h₁
    intro db₃ ln db₄ h₃ hline
    exact consumeComponent_reserved h₃ hline

lemma provided_reserved {c : Bool} {f : WarehouseDb → Except String WarehouseDb}
    (hf : ∀ db db', ReservedWell db → f db = .ok db' → ReservedWell db') (h : ReservedWell db)
    (hprovided : provided c f db = .ok db') : ReservedWell db' := by
  rcases provided_ok hprovided with ⟨-, hdone⟩ | ⟨-, rfl⟩
  · exact hf db db' h hdone
  · exact h

lemma buttonValidate_reserved (h : ReservedWell db)
    (hvalidate : buttonValidate now db id = .ok db') : ReservedWell db' := by
  rcases buttonValidate_cases hvalidate with ⟨-, rfl⟩ | ⟨p, db₁, db₂, db₃, hv⟩
  · exact h
  have h₁ : ReservedWell db₁ := by
    refine @foldlM_invariant _ _ _ _ _ ReservedWell _ _ _ ?_
      (@inTurn_rows _ _ _ WarehouseDb.moves _ (fun m => isOpen m.state = true)
        (fun _ _ _ hone => validateOne_frame hone) _ _ (movesIn_nodup db id isOpen)
        (fun _ hr => mem_movesIn_state hr)) hv.moves h
    intro s r s' hs hrow hone
    exact validateOne_reserved hs hrow.1 hrow.2 hone
  have hcarried : ∀ pickings, ReservedWell (carryPackages { db₁ with pickings := pickings } id) := by
    intro pickings
    exact h₁.of_same (.refl _) rfl
  have h₂ : ReservedWell db₂ := by
    refine provided_reserved ?_ (hcarried _) hv.delivery
    intro a b ha hb
    exact deliver_reserved ha hb
  have h₃ : ReservedWell db₃ := by
    refine provided_reserved ?_ h₂ hv.receipt
    intro a b ha hb
    exact receive_reserved ha hb
  refine provided_reserved ?_ h₃ hv.components
  intro a b ha hb
  exact backflush_reserved ha hb

/-! ### Releasing -/

/-- What some moves hold of a quant. -/
def heldBy (rows : List (ℤ × StockMove)) (k : QuantKey) : ℤ :=
  (rows.map fun r => if k = r.2.key then r.2.reservedQty else 0).sum

lemma heldBy_cons (r : ℤ × StockMove) (rows : List (ℤ × StockMove)) (k : QuantKey) :
    heldBy (r :: rows) k = (if k = r.2.key then r.2.reservedQty else 0) + heldBy rows k := by
  simp [heldBy]

lemma heldBy_nonneg {rows : List (ℤ × StockMove)} (h : ∀ r ∈ rows, 0 ≤ r.2.reservedQty)
    (k : QuantKey) : 0 ≤ heldBy rows k := by
  apply sum_nonneg
  intro x hx
  obtain ⟨r, hr, rfl⟩ := mem_map.mp hx
  split
  · exact h r hr
  · exact le_rfl

/-- Releases in turn, of no more in all than is reserved. -/
lemma releaseAll_reserved {stock' : StockDb} {rows : List (ℤ × StockMove)}
    (h : releaseAll stock rows = .ok stock') (hrows : ∀ r ∈ rows, 0 ≤ r.2.reservedQty)
    (hle : ∀ k, heldBy rows k ≤ StockQuant.reservedAt stock.quants k) :
    stock'.floored = stock.floored ∧ ∀ k, StockQuant.reservedAt stock'.quants k =
      StockQuant.reservedAt stock.quants k - heldBy rows k := by
  induction rows generalizing stock with
  | nil =>
      cases h
      refine ⟨rfl, ?_⟩
      intro k
      rw [heldBy, map_nil, sum_nil, sub_zero]
  | cons r rows ih =>
      rw [forall_mem_cons] at hrows
      obtain ⟨stock₁, hone, hrest⟩ := foldlM_cons_ok.mp h
      -- what the later moves hold is not negative, so this one fits
      have hfits : r.2.reservedQty ≤ StockQuant.reservedAt stock.quants r.2.key := by
        have hall := hle r.2.key
        rw [heldBy_cons, if_pos rfl] at hall
        have := heldBy_nonneg hrows.2 r.2.key
        omega
      obtain ⟨hfloored, hreserved⟩ := StockQuant.release_reserved hone hrows.1 hfits
      have hlater : ∀ k, heldBy rows k ≤ StockQuant.reservedAt stock₁.quants k := by
        intro k
        have hall := hle k
        rw [heldBy_cons] at hall
        rw [hreserved]
        show _ ≤ _ - if k = r.2.key then _ else 0
        omega
      obtain ⟨hfloored', hreserved'⟩ := ih hrest hrows.2 hlater
      refine ⟨hfloored'.trans hfloored, ?_⟩
      intro k
      rw [hreserved', hreserved, heldBy_cons]
      show _ - (if k = r.2.key then _ else 0) - _ = _
      ring

/-- What the moves of a transfer in some states hold, as a sum over all moves. -/
def heldIn (moves : Table StockMove) (id : ℤ) (states : TransferState → Bool) (k : QuantKey) : ℤ :=
  moves.sumOver fun _ m => if (m.pickingId == some id && states m.state) = true then m.held k else 0

/-- Moves that hold nothing are not asked to give anything back. -/
lemma heldBy_holding (h : ReservedWell db) (hopen : ∀ s, states s = true → isOpen s = true)
    (id : ℤ) (k : QuantKey) :
    heldBy (holding (movesIn db id states)) k = heldIn db.moves id states k := by
  have hrows : ∀ r ∈ db.moves.rows, 0 ≤ r.2.reservedQty := by
    intro r hr
    exact (h.bounds r.1 r.2 (get?_eq_some_iff.mpr hr)).1
  unfold holding movesIn heldIn sumOver
  generalize db.moves.rows = rows at hrows ⊢
  induction rows with
  | nil => rfl
  | cons r rows ih =>
      rw [forall_mem_cons] at hrows
      rw [filter_cons, map_cons, sum_cons, ← ih hrows.2]
      dsimp only
      by_cases hsel : (r.2.pickingId == some id && states r.2.state) = true
      · rw [if_pos hsel, if_pos hsel, filter_cons,
          held_open (hopen _ ((Bool.and_eq_true _ _).mp hsel).2)]
        split
        · rw [heldBy_cons]
        · next hnothing =>
            have hzero : r.2.reservedQty = 0 := by
              have := of_decide_eq_false (eq_false_of_ne_true hnothing)
              omega
            rw [hzero, ite_self, zero_add]
      · rw [if_neg hsel, if_neg hsel, zero_add]

lemma heldIn_le (h : ReservedWell db) (id : ℤ) (states : TransferState → Bool) (k : QuantKey) :
    heldIn db.moves id states k ≤ heldAt db.moves k := by
  apply sum_le_sum
  intro r hr
  have hnonneg := held_nonneg (h.bounds r.1 r.2 (get?_eq_some_iff.mpr hr)).1 k
  show (if _ then r.2.held k else 0) ≤ r.2.held k
  split
  · exact le_rfl
  · exact hnonneg

/-- **Moves give back what they hold.**  The moves of a transfer in some open
states release, and a change of its moves drops just that. -/
theorem ReservedWell.releaseMoves {changed : TransferState → Bool} {f : StockMove → StockMove}
    (h : ReservedWell db) (hopen : ∀ s, states s = true → isOpen s = true)
    (hrelease : releaseAll db.stock (holding (movesIn db id states)) = .ok stock)
    (hchanged : ∀ s, states s = true → changed s = true)
    (hdrop : ∀ s, changed s = true → states s = false → isOpen s = false)
    (hf : ∀ m, (f m).reservedQty = 0) (pickings : Table Picking) :
    ReservedWell { db with
      stock := stock
      pickings := pickings
      moves := updateMoves db id changed f } := by
  have hholding : ∀ r ∈ holding (movesIn db id states), 0 ≤ r.2.reservedQty := by
    intro r hr
    exact (of_decide_eq_true (mem_filter.mp hr).2 : 0 < r.2.reservedQty).le
  obtain ⟨hfloored, hreserved⟩ := releaseAll_reserved hrelease hholding (by
    intro k
    rw [heldBy_holding h hopen, h.accounted]
    exact heldIn_le h id states k)
  have hrow : ∀ i m', (updateMoves db id changed f).get? i = some m' →
      m'.reservedQty = 0 ∨ db.moves.get? i = some m' := by
    intro i m' hm'
    rw [updateMoves, get?_updateWhere] at hm'
    obtain ⟨m, hm, rfl⟩ := Option.map_eq_some_iff.mp hm'
    split
    · exact .inl (hf m)
    · exact .inr hm
  constructor
  · constructor
    · intro k
      have hsum : heldAt db.moves k =
          heldAt (updateMoves db id changed f) k + heldIn db.moves id states k := by
        unfold heldAt heldIn updateMoves updateWhere
        rw [sumOver_update, ← sumOver_add]
        apply sumOver_congr
        rintro ⟨i, m⟩ -
        by_cases hpicking : (m.pickingId == some id) = true
        · by_cases hstates : states m.state = true
          · rw [if_pos (Bool.and_eq_true_iff.mpr ⟨hpicking, hstates⟩),
              if_pos (Bool.and_eq_true_iff.mpr ⟨hpicking, hchanged _ hstates⟩), held_of_zero (hf m),
              zero_add]
          · have hstates := eq_false_of_ne_true hstates
            rw [hstates, Bool.and_false, if_neg Bool.false_ne_true, add_zero]
            split
            · next hch =>
                rw [held_of_zero (hf m),
                  held_closed (hdrop _ (Bool.and_eq_true_iff.mp hch).2 hstates)]
            · rfl
        · have hother : ∀ b, ¬ (m.pickingId == some id && b) = true :=
            fun b hb => hpicking (Bool.and_eq_true_iff.mp hb).1
          rw [if_neg (hother _), if_neg (hother _), add_zero]
      show StockQuant.reservedAt stock.quants k = _
      rw [hreserved, heldBy_holding h hopen, h.accounted, hsum]
      ring
    · intro i m' hm'
      rcases hrow i m' hm' with hzero | hold
      · rw [hzero]
        exact ⟨le_rfl, le_max_right _ _⟩
      · exact h.bounds i m' hold
    · exact hfloored.trans h.unfloored
  · intro i m' hm' hcancel
    rcases hrow i m' hm' with hzero | hold
    · exact hzero
    · exact h.cancelled i m' hold hcancel

lemma actionCancel_reserved (h : ReservedWell db) (hcancel : actionCancel db id = .ok db') :
    ReservedWell db' := by
  obtain ⟨stock, hrelease, hcancel⟩ := bind_ok_iff.mp hcancel
  cases hcancel
  apply h.releaseMoves (fun _ hs => hs) hrelease
  · intro s hs
    cases s <;> first | rfl | cases hs
  · intro s _ hclosed
    exact hclosed
  · intro m
    rfl

lemma buttonUnreserve_reserved (h : ReservedWell db)
    (hunreserve : buttonUnreserve db id = .ok db') : ReservedWell db' := by
  obtain ⟨stock, hrelease, hunreserve⟩ := bind_ok_iff.mp hunreserve
  cases hunreserve
  apply h.releaseMoves (fun _ hs => isOpen_of_isReserving hs) hrelease
  · intro s hs
    exact hs
  · intro s hs hns
    rw [hs] at hns
    cases hns
  · intro m
    rfl

/-! ### Changes of state alone -/

/-- Moves of a transfer in a state become moves in an open state; where the old
one was not open, nothing was held. -/
lemma ReservedWell.changeState {db db' : WarehouseDb} {id : ℤ} {states : TransferState → Bool}
    {state : TransferState} (h : ReservedWell db)
    (hstates : ∀ s, states s = true → isOpen s = true ∨ s = .cancel)
    (hstate : isOpen state = true) (hstock : StockQuant.SameReserved db.stock db'.stock)
    (hmoves : db'.moves = updateMoves db id states fun m => { m with state := state }) :
    ReservedWell db' := by
  have hrow : ∀ i m', db'.moves.get? i = some m' → ∃ m, db.moves.get? i = some m ∧
      m'.reservedQty = m.reservedQty ∧ m'.productUomQty = m.productUomQty ∧
      (m'.state = .cancel → m.state = .cancel) := by
    intro i m' hm'
    rw [hmoves, updateMoves, get?_updateWhere] at hm'
    obtain ⟨m, hm, rfl⟩ := Option.map_eq_some_iff.mp hm'
    refine ⟨m, hm, ?_⟩
    split
    · refine ⟨rfl, rfl, ?_⟩
      intro hcancel
      have hcancel : state = .cancel := hcancel
      rw [hcancel] at hstate
      cases hstate
    · exact ⟨rfl, rfl, fun hcancel => hcancel⟩
  constructor
  · constructor
    · intro k
      rw [hstock.reserved, h.accounted, hmoves]
      unfold heldAt updateMoves updateWhere
      rw [sumOver_update]
      apply sumOver_congr
      rintro ⟨i, m⟩ hm
      split
      · next hsel =>
          rw [held_open (m := { m with state := state }) hstate]
          show _ = if k = m.key then m.reservedQty else 0
          rcases hstates m.state ((Bool.and_eq_true _ _).mp hsel).2 with hopen | hcancel
          · rw [held_open hopen]
          · have hzero := h.cancelled i m (get?_eq_some_iff.mpr hm) hcancel
            rw [held_of_zero hzero, hzero, ite_self]
      · rfl
    · intro i m' hm'
      obtain ⟨m, hm, hreserved, hdemand, -⟩ := hrow i m' hm'
      rw [hreserved, hdemand]
      exact h.bounds i m hm
    · exact hstock.floored.trans h.unfloored
  · intro i m' hm' hcancel
    obtain ⟨m, hm, hreserved, -, hstate⟩ := hrow i m' hm'
    rw [hreserved]
    exact h.cancelled i m hm (hstate hcancel)

lemma actionConfirm_reserved (h : ReservedWell db)
    (hconfirm : actionConfirm now db id = .ok db') : ReservedWell db' := by
  unfold actionConfirm at hconfirm
  split at hconfirm
  · cases hconfirm
    exact h
  split at hconfirm
  · cases hconfirm
    exact h
  obtain ⟨⟨ref, account⟩, -, hconfirm⟩ := bind_ok_iff.mp hconfirm
  cases hconfirm
  refine @ReservedWell.changeState db _ id isDraft .confirmed h ?_ rfl ⟨fun _ => rfl, rfl⟩ rfl
  intro s hs
  cases s <;> first | exact .inl rfl | cases hs

lemma buttonResetToDraft_reserved (h : ReservedWell db) :
    ReservedWell (buttonResetToDraft db id) := by
  refine @ReservedWell.changeState db _ id isCancelled .draft h ?_ rfl (.refl _) rfl
  intro s hs
  exact .inr (beq_iff_eq.mp hs)

/-! ### Operations -/

/-- The operations on a transfer, and beside them new transfers and moves, edits
of moves and the quantities other modules move. -/
inductive TransferOp where
  | actionConfirm (id : ℤ)
  | actionAssign (id : ℤ)
  | buttonUnreserve (id : ℤ)
  | buttonValidate (id : ℤ)
  | actionCancel (id : ℤ)
  | buttonResetToDraft (id : ℤ)
  | createPicking (p : Picking)
  | createMove (m : StockMove)
  | writeMove (id : ℤ) (m : StockMove)
  | applyMove (productId srcLocId destLocId qtyMicros companyId inputCostMicros lotId : ℤ)

def TransferOp.run (now : Moment) (db : WarehouseDb) : TransferOp → Except String WarehouseDb
  | actionConfirm id => StockPicking.actionConfirm now db id
  | actionAssign id => StockPicking.actionAssign db id
  | buttonUnreserve id => StockPicking.buttonUnreserve db id
  | buttonValidate id => StockPicking.buttonValidate now db id
  | actionCancel id => StockPicking.actionCancel db id
  | buttonResetToDraft id => .ok (StockPicking.buttonResetToDraft db id)
  | createPicking p => .ok { db with pickings := db.pickings.insert p }
  | createMove m => .ok { db with moves := db.moves.insert m }
  | writeMove id m => .ok { db with moves := db.moves.modify id fun _ => m }
  | applyMove productId src dest qtyMicros companyId inputCostMicros lotId => do
      let stock ← StockQuant.applyMove now db.stock productId src dest qtyMicros companyId
        inputCostMicros lotId
      return { db with stock := stock }

/-- An event leads on when its operation succeeds. -/
def transferStep (db : WarehouseDb) (e : Moment × TransferOp) : Option WarehouseDb :=
  (e.2.run e.1 db).toOption

/-- A new move holds nothing.  An edit leaves alone what a move holds and, while
it holds something, its quant and its state, and a demand that covers it. -/
def EditsUnreserved (db : WarehouseDb) : TransferOp → Prop
  | .createMove m => m.reservedQty = 0
  | .writeMove id m' => ∀ m ∈ db.moves.get? id, m'.reservedQty = m.reservedQty ∧
      (m.reservedQty ≠ 0 → m'.key = m.key ∧ m'.state = m.state ∧ m'.reservedQty ≤ m'.productUomQty)
  | _ => True

lemma transferStep_eq_some_iff {e : Moment × TransferOp} :
    transferStep db e = some db' ↔ e.2.run e.1 db = .ok db' :=
  toOption_eq_some_iff

lemma ReservedWell.writeMove {m' : StockMove} (h : ReservedWell db)
    (hok : EditsUnreserved db (.writeMove id m')) :
    ReservedWell { db with moves := db.moves.modify id fun _ => m' } := by
  rcases hm : db.moves.get? id with - | m
  · exact h.of_same (.refl _) (modify_of_none (fun _ => m') hm)
  obtain ⟨hreserved, hkept⟩ := hok m hm
  by_cases hzero : m.reservedQty = 0
  · rw [hzero] at hreserved
    apply h.modifyMove (f := fun _ => m') hm rfl
    · intro k
      rw [held_of_zero hzero, held_of_zero hreserved, sub_zero, add_zero]
    · rfl
    · rw [hreserved]
      exact ⟨le_rfl, le_max_right _ _⟩
    · intro _
      exact hreserved
  · obtain ⟨hkey, hstate, hcovers⟩ := hkept hzero
    apply h.modifyMove (f := fun _ => m') hm rfl
    · intro k
      have hsame : m'.held k = m.held k := by
        rw [StockMove.held, StockMove.held, hkey, hstate, hreserved]
      rw [hsame]
      ring
    · rfl
    · rw [hreserved] at hcovers ⊢
      exact ⟨(h.bounds id m hm).1, hcovers.trans (le_max_left _ _)⟩
    · intro hcancel
      rw [hstate] at hcancel
      exact absurd (h.cancelled id m hm hcancel) hzero

lemma transferOp_reserved {op : TransferOp} (h : ReservedWell db) (hok : EditsUnreserved db op)
    (hrun : op.run now db = .ok db') : ReservedWell db' := by
  cases op with
  | actionConfirm id => exact actionConfirm_reserved h hrun
  | actionAssign id => exact actionAssign_reserved h hrun
  | buttonUnreserve id => exact buttonUnreserve_reserved h hrun
  | buttonValidate id => exact buttonValidate_reserved h hrun
  | actionCancel id => exact actionCancel_reserved h hrun
  | buttonResetToDraft id =>
      cases hrun
      exact buttonResetToDraft_reserved h
  | createPicking p =>
      cases hrun
      exact h.of_same (.refl _) rfl
  | createMove m =>
      cases hrun
      exact h.insertMove (.refl _) hok rfl
  | writeMove id m =>
      cases hrun
      exact h.writeMove hok
  | applyMove productId src dest qtyMicros companyId inputCostMicros lotId =>
      obtain ⟨stock, hmove, hrun⟩ := bind_ok_iff.mp hrun
      cases hrun
      exact h.of_same (StockQuant.applyMove_sameReserved hmove) rfl

/-! ### Runs -/

/-- No quant and no move has anything reserved. -/
structure NothingReserved (db : WarehouseDb) : Prop where
  quants : ∀ k, StockQuant.reservedAt db.stock.quants k = 0
  moves : ∀ r ∈ db.moves.rows, r.2.reservedQty = 0
  unfloored : db.stock.floored = false

lemma NothingReserved.reserved (h : NothingReserved db) : ReservedWell db := by
  have hrow : ∀ id m, db.moves.get? id = some m → m.reservedQty = 0 := by
    intro id m hm
    exact h.moves (id, m) (get?_eq_some_iff.mp hm)
  constructor
  · constructor
    · intro k
      have hsum : heldAt db.moves k = 0 := by
        apply sum_eq_zero
        intro x hx
        obtain ⟨r, hr, rfl⟩ := mem_map.mp hx
        exact held_of_zero (h.moves r hr) k
      rw [h.quants, hsum]
    · intro id m hm
      rw [hrow id m hm]
      exact ⟨le_rfl, le_max_right _ _⟩
    · exact h.unfloored
  · intro id m hm _
    exact hrow id m hm

/-- **Reservations are accounted exactly.**  From tables where nothing is
reserved, over every run of the operations on transfers, what is reserved of a
quant is what the open moves on it hold, no move holds more than its demand, and
no release has met the floor. -/
theorem reservations_accounted (db db' : WarehouseDb) (h0 : NothingReserved db)
    (hrun : Reaches transferStep (fun db e => EditsUnreserved db e.2) db db') : Reserved db' := by
  have hfinal : ReservedWell db' := by
    refine @Reaches.invariant _ _ _ _ ReservedWell _ _ hrun ?_ h0.reserved
    rintro db₁ ⟨now, op⟩ db₂ h₁ hok hs
    exact transferOp_reserved h₁ hok (transferStep_eq_some_iff.mp hs)
  exact hfinal.toReserved

/-- The only move of a delivery. -/
def deliveryMove (pickingId qty : ℤ) : StockMove where
  pickingId := some pickingId
  productId := 1
  productUomQty := qty
  locationId := 1
  locationDestId := 3

/-- Five units on hand, and two deliveries that ask for four and for three. -/
def twoDeliveries : WarehouseDb where
  stock := { smallWarehouse { name := "Bolt" } with
    account := { sequences := Table.empty.insert { code := "stock.picking.out", pre := "WH/OUT/" } }
    quants := AList.singleton ⟨1, 1, 0⟩ { quantity := 5000000 } }
  pickingTypes := Table.empty.insert ⟨.outgoing⟩
  pickings := (Table.empty.insert { pickingTypeId := 1 }).insert { pickingTypeId := 1 }
  moves := (Table.empty.insert (deliveryMove 1 4000000)).insert (deliveryMove 2 3000000)

lemma twoDeliveries_nothingReserved : NothingReserved twoDeliveries where
  quants k := by
    show StockQuant.reservedAt (AList.insert _ _ ∅) k = 0
    rw [StockQuant.reservedAt_insert]
    split <;> rfl
  moves := by decide
  unfloored := rfl

instance (db : WarehouseDb) : DecidablePred (EditsUnreserved db)
  | .createMove m => inferInstanceAs (Decidable (m.reservedQty = 0))
  | .writeMove id m' => inferInstanceAs (Decidable (∀ m ∈ db.moves.get? id,
      m'.reservedQty = m.reservedQty ∧ (m.reservedQty ≠ 0 →
        m'.key = m.key ∧ m'.state = m.state ∧ m'.reservedQty ≤ m'.productUomQty)))
  | .actionConfirm _ | .actionAssign _ | .buttonUnreserve _ | .buttonValidate _ | .actionCancel _
  | .buttonResetToDraft _ | .createPicking _ | .applyMove _ _ _ _ _ _ _ =>
      inferInstanceAs (Decidable True)

/-- Both are confirmed and reserve, the second in part; the first is cancelled
and reset, the second reserves the rest and is delivered. -/
def deliveriesInTurn : List (Moment × TransferOp) :=
  [.actionConfirm 1, .actionConfirm 2, .actionAssign 1, .actionAssign 2, .actionCancel 1,
    .buttonResetToDraft 1, .buttonUnreserve 2, .actionAssign 2, .buttonValidate 2].map
    fun op => (february, op)

theorem reservations_accounted_deliveries :
    ∃ db', execute transferStep (fun db e => EditsUnreserved db e.2) deliveriesInTurn twoDeliveries =
      some db' ∧ Reserved db' := by
  obtain ⟨db', hrun⟩ : ∃ db', execute transferStep (fun db e => EditsUnreserved db e.2)
      deliveriesInTurn twoDeliveries = some db' := Option.isSome_iff_exists.mp (by decide)
  exact ⟨db', hrun, reservations_accounted twoDeliveries db' twoDeliveries_nothingReserved
    (reaches_of_execute hrun)⟩

end CErp
