/-
The quantities an order has delivered or received.

Validating a transfer adds up its done moves by product and tells every line of
its order that has the product.  The lines of a product together are told the
quantity once for each of them, so they count it once when there is one line, or
when there is nothing to tell: that is `OneLineEach`, and
`quantities_counted_once` says that nothing else does.
-/
import CErp.Reservations

namespace CErp

open Runs StockPicking Outcome List Table

/-! ### Telling the lines of an order -/

section Tell

variable {α : Type} (productOf : α → Option ℤ) (told : α → ℤ)

/-- A quantity over the lines of one product. -/
def overProduct (f : α → ℤ) (product : ℤ) (lines : List α) : ℤ :=
  (lines.map fun l => if productOf l = some product then f l else 0).sum

/-- The number of lines that have a product. -/
def linesOf (product : ℤ) (lines : List α) : ℤ := overProduct productOf (fun _ => 1) product lines

/-- Telling a line adds a quantity to the lines of one product. -/
def Tells (tell : ℤ → ℤ → α → Except String α) : Prop :=
  ∀ product qty l l', tell product qty l = .ok l' → productOf l' = productOf l ∧
      told l' = told l + if productOf l = some product then qty else 0

variable {productOf told} {tell : ℤ → ℤ → α → Except String α}

lemma overProduct_cons (f : α → ℤ) (product : ℤ) (l : α) (lines : List α) :
    overProduct productOf f product (l :: lines) =
      (if productOf l = some product then f l else 0) + overProduct productOf f product lines := by
  simp [overProduct]

variable {lines lines' : List α}

/-- Telling all lines of one product's quantity. -/
lemma mapM_tell (htell : Tells productOf told tell) {product qty : ℤ}
    (h : lines.mapM (tell product qty) = .ok lines') (p : ℤ) :
    linesOf productOf p lines' = linesOf productOf p lines ∧
      overProduct productOf told p lines' = overProduct productOf told p lines +
        if p = product then linesOf productOf p lines * qty else 0 := by
  induction lines generalizing lines' with
  | nil =>
      cases h
      simp [linesOf, overProduct]
  | cons l lines ih =>
      rw [mapM_cons] at h
      obtain ⟨l', hl, h⟩ := bind_ok_iff.mp h
      obtain ⟨ls, hls, h⟩ := bind_ok_iff.mp h
      cases h
      obtain ⟨hproduct, htold⟩ := htell product qty l l' hl
      obtain ⟨hcount, hsum⟩ := ih hls
      unfold linesOf at hcount hsum ⊢
      rw [overProduct_cons, overProduct_cons, overProduct_cons, overProduct_cons, hproduct, hcount,
        hsum, htold]
      refine ⟨rfl, ?_⟩
      by_cases hp : p = product
      · subst hp
        simp only [if_true]
        split <;> ring
      · simp only [if_neg hp, add_zero]
        split
        · next hline =>
            rw [if_neg, add_zero]
            rw [hline]
            exact fun heq => hp (Option.some.inj heq)
        · rfl

/-- The quantity some moves bring of a product. -/
def quantityIn (ms : List StockMove) (product : ℤ) : ℤ :=
  ((ms.filter (·.productId = product)).map (·.quantity)).sum

lemma quantityIn_of_notMem {ms : List StockMove} {product : ℤ} (h : product ∉ movedProducts ms) :
    quantityIn ms product = 0 := by
  have hnone : ms.filter (·.productId = product) = [] := by
    apply filter_eq_nil_iff.mpr
    intro m hm heq
    apply h
    rw [movedProducts, mem_eraseDups]
    exact mem_map.mpr ⟨m, hm, of_decide_eq_true heq⟩
  rw [quantityIn, hnone]
  rfl

/-- Telling the lines of the products of a list, each in turn. -/
lemma foldlM_tell (htell : Tells productOf told tell) {ms : List StockMove} {products : List ℤ}
    (hnodup : products.Nodup) (h : products.foldlM (fun lines productId => do
      let qty ← movedQuantity ms productId
      lines.mapM (tell productId qty)) lines = .ok lines')
    (p : ℤ) :
    overProduct productOf told p lines' = overProduct productOf told p lines +
      if p ∈ products then linesOf productOf p lines * quantityIn ms p else 0 := by
  induction products generalizing lines with
  | nil =>
      cases h
      simp
  | cons product products ih =>
      obtain ⟨lines₁, hone, hrest⟩ := foldlM_cons_ok.mp h
      obtain ⟨qty, hqty, hone⟩ := bind_ok_iff.mp hone
      have hqty : quantityIn ms product = qty := (bigint_ok_iff.mp hqty).2
      obtain ⟨hcount, hsum⟩ := mapM_tell htell hone p
      rw [nodup_cons] at hnodup
      rw [ih hnodup.2 hrest, hsum, hcount]
      by_cases hp : p = product
      · subst hp
        rw [if_pos rfl, if_neg hnodup.1, if_pos mem_cons_self, hqty, add_zero]
      · rw [if_neg hp, add_zero]
        simp only [mem_cons, hp, false_or]

lemma nodup_eraseDups (xs : List ℤ) : xs.eraseDups.Nodup := by
  -- the tail of the result is that of a shorter list
  generalize hn : xs.length = n
  induction n using Nat.strong_induction_on generalizing xs with
  | _ n ih =>
      rcases xs with - | ⟨x, xs⟩
      · exact nodup_nil
      rw [eraseDups_cons, nodup_cons]
      constructor
      · rw [mem_eraseDups, mem_filter]
        rintro ⟨-, hx⟩
        simp at hx
      · apply ih _ _ _ rfl
        have := length_filter_le (fun b => !b == x) xs
        rw [← hn, length_cons]
        omega

/-- **What the lines of an order are told**: each line of a product is told all
of it. -/
theorem tellLines_ok (htell : Tells productOf told tell) {ms : List StockMove}
    (h : tellLines tell ms lines = .ok lines') (p : ℤ) :
    overProduct productOf told p lines' =
      overProduct productOf told p lines + linesOf productOf p lines * quantityIn ms p := by
  rw [foldlM_tell htell (nodup_eraseDups _) h p]
  split
  · rfl
  · next hp => rw [quantityIn_of_notMem hp, mul_zero]

end Tell

lemma deliverLine_tells : Tells SaleOrderLine.productId SaleOrderLine.qtyDelivered deliverLine := by
  intro product qty l l' h
  unfold deliverLine at h
  split at h
  · next hp =>
      obtain ⟨delivered, hsum, h⟩ := bind_ok_iff.mp h
      cases h
      rw [if_pos hp, bigint_ok hsum]
      exact ⟨rfl, rfl⟩
  · next hp =>
      cases h
      rw [if_neg hp, add_zero]
      exact ⟨rfl, rfl⟩

lemma receiveLine_tells :
    Tells PurchaseOrderLine.productId PurchaseOrderLine.qtyReceived receiveLine := by
  intro product qty l l' h
  unfold receiveLine at h
  split at h
  · next hp =>
      obtain ⟨received, hsum, h⟩ := bind_ok_iff.mp h
      cases h
      rw [if_pos hp, bigint_ok hsum]
      exact ⟨rfl, rfl⟩
  · next hp =>
      cases h
      rw [if_neg hp, add_zero]
      exact ⟨rfl, rfl⟩

/-! ### What a transfer moves -/

/-- What a move of a transfer brings when the transfer is validated: what is
done, and what will be of an open one.  A move whose product is gone stays
open. -/
def StockMove.brings (db : WarehouseDb) (m : StockMove) : ℤ :=
  if isOpen m.state then
    if (db.stock.products.get? m.productId).isSome then doneQty m else 0
  else if m.state = .done then m.quantity
  else 0

/-- What a transfer brings of a product when it is validated. -/
def quantityToDo (db : WarehouseDb) (id product : ℤ) : ℤ :=
  db.moves.sumOver fun _ m =>
    if m.pickingId = some id ∧ m.productId = product then m.brings db else 0

/-- What the moves of a transfer with identifiers below a bound have done of a
product. -/
def quantityDone (db : WarehouseDb) (bound id product : ℤ) : ℤ :=
  db.moves.sumOver fun i m =>
    if i < bound ∧ m.pickingId = some id ∧ m.productId = product ∧ m.state = .done then m.quantity
    else 0

/-- Tables with the same orders. -/
structure SameOrders (db db' : WarehouseDb) : Prop where
  sale : db'.saleOrders = db.saleOrders
  purchase : db'.purchaseOrders = db.purchaseOrders

lemma SameOrders.refl (db : WarehouseDb) : SameOrders db db := ⟨rfl, rfl⟩

/-- The products known to the engine stay known. -/
lemma applyMove_products {now : Moment} {db db' : StockDb} {productId src dest qtyMicros
    companyId inputCostMicros lotId : ℤ}
    (h : StockQuant.applyMove now db productId src dest qtyMicros companyId inputCostMicros lotId =
      .ok db') (p : ℤ) : (db'.products.get? p).isSome = (db.products.get? p).isSome := by
  rcases StockQuant.applyMove_ok h with ⟨-, rfl⟩ | ⟨-, -, -, hvalued⟩
  · rfl
  have hmodify : ∀ (t : Table Product) (i : ℤ) (f : Product → Product),
      ((t.modify i f).get? p).isSome = (t.get? p).isSome := by
    intro t i f
    rw [get?_modify, Option.isSome_map]
  have hmoved : ((StockQuant.moved db productId src dest qtyMicros companyId lotId).products.get?
      p).isSome = (db.products.get? p).isSome := hmodify db.products _ _
  cases hvalued with
  | unchanged _ => exact hmoved
  | receipt _ _ _ _ _ _ => exact (hmodify _ _ _).trans hmoved
  | issue _ _ _ _ _ _ _ => exact (hmodify _ _ _).trans hmoved

variable {purchaseId : ℤ}

/-- What validating one move does: nothing to a move whose product is gone,
else it is done. -/
lemma validateOne_ok {now : Moment} {db db' : WarehouseDb} {r : ℤ × StockMove}
    (h : validateOne now purchaseId db r = .ok db') :
    (db.stock.products.get? r.2.productId = none ∧ db' = db) ∨
      ∃ stock dest, (db.stock.products.get? r.2.productId).isSome = true ∧
        (∀ p, (stock.products.get? p).isSome = (db.stock.products.get? p).isSome) ∧
        db' = { db with
          stock := stock
          moves := db.moves.modify r.1 (finished dest (doneQty r.2)) } := by
  unfold validateOne at h
  dsimp only at h
  split at h
  · next hnone =>
      cases h
      exact .inl ⟨hnone, rfl⟩
  next p hp =>
  obtain ⟨_, -, h⟩ := bind_ok_iff.mp h
  obtain ⟨_, -, h⟩ := bind_ok_iff.mp h
  obtain ⟨stock₁, hrelease, h⟩ := bind_ok_iff.mp h
  obtain ⟨stock₂, hmove, h⟩ := bind_ok_iff.mp h
  cases h
  refine .inr ⟨stock₂, _, by rw [hp]; rfl, ?_, rfl⟩
  intro q
  rw [applyMove_products hmove]
  rcases StockQuant.release_ok hrelease with ⟨-, rfl⟩ | ⟨_, -, -, rfl⟩
  · rfl
  · rfl

/-- What validating the moves of a transfer keeps, one move after the other. -/
structure Validating (id : ℤ) (db s : WarehouseDb) : Prop where
  orders : SameOrders db s
  pickings : s.pickings = db.pickings
  nextId : s.moves.nextId = db.moves.nextId
  toDo : ∀ product, quantityToDo s id product = quantityToDo db id product

variable {s s' : WarehouseDb}

lemma validateOne_validating {now : Moment} {id : ℤ} {db : WarehouseDb} {r : ℤ × StockMove}
    (h : Validating id db s) (hrow : s.moves.get? r.1 = some r.2)
    (hopen : isOpen r.2.state = true) (hone : validateOne now purchaseId s r = .ok s') :
    Validating id db s' := by
  rcases validateOne_ok hone with ⟨-, rfl⟩ | ⟨stock, dest, hknown, hproducts, rfl⟩
  · exact h
  refine ⟨⟨h.orders.sale, h.orders.purchase⟩, h.pickings, h.nextId, ?_⟩
  intro product
  rw [← h.toDo]
  -- the move brings as done what it was to bring when open
  have hbrings : ∀ m, StockMove.brings { s with
      stock := stock, moves := s.moves.modify r.1 (finished dest (doneQty r.2)) } m = m.brings s := by
    intro m
    unfold StockMove.brings
    rw [hproducts]
  have hfinished : (finished dest (doneQty r.2) r.2).brings s = r.2.brings s := by
    unfold StockMove.brings
    rw [if_pos hopen, if_pos hknown]
    rfl
  unfold quantityToDo
  simp only [hbrings]
  rw [sumOver_modify _ _ hrow, hfinished]
  show _ - (if r.2.pickingId = some id ∧ r.2.productId = product then _ else 0) +
    (if r.2.pickingId = some id ∧ r.2.productId = product then _ else 0) = _
  ring

/-- The moves of a transfer that are still to be done. -/
def StillOpen (s : WarehouseDb) (id i : ℤ) : Prop :=
  ∃ m, s.moves.get? i = some m ∧ m.pickingId = some id ∧ isOpen m.state = true ∧
    (s.stock.products.get? m.productId).isSome = true

/-- When all moves have had their turn, none is still to be done. -/
lemma validateAll_closed {now : Moment} {id : ℤ} {rows : List (ℤ × StockMove)}
    (h : rows.foldlM (validateOne now purchaseId) s = .ok s')
    (hrows : InTurn (validateOne now purchaseId)
      (fun s r => s.moves.get? r.1 = some r.2 ∧ isOpen r.2.state = true) s rows)
    (hopen : ∀ i, StillOpen s id i → i ∈ rows.map Prod.fst) (i : ℤ) : ¬ StillOpen s' id i := by
  induction rows generalizing s with
  | nil =>
      cases h
      intro hi
      cases hopen i hi
  | cons r rows ih =>
      obtain ⟨s₁, hone, hrest⟩ := foldlM_cons_ok.mp h
      obtain ⟨⟨hrow, -⟩, hlater⟩ := hrows
      refine ih hrest (hlater s₁ hone) ?_
      rintro j ⟨m, hm, hpicking, hstate, hknown⟩
      -- the move whose turn it was is done, or its product is gone
      have hother : ∀ n, s.moves.get? j = some n → n.pickingId = some id →
          isOpen n.state = true → (s.stock.products.get? n.productId).isSome = true → j ≠ r.1 →
          j ∈ rows.map Prod.fst := by
        intro n hn hp ho hk hne
        have hmem := hopen j ⟨n, hn, hp, ho, hk⟩
        rw [map_cons, mem_cons] at hmem
        exact hmem.resolve_left hne
      rcases validateOne_ok hone with ⟨hnone, rfl⟩ | ⟨stock, dest, -, hproducts, rfl⟩
      · refine hother m hm hpicking hstate hknown ?_
        rintro rfl
        rw [hrow] at hm
        cases hm
        rw [hnone] at hknown
        cases hknown
      · rw [hproducts] at hknown
        rw [get?_modify] at hm
        obtain ⟨m₀, hm₀, rfl⟩ := Option.map_eq_some_iff.mp hm
        by_cases hj : j = r.1
        · rw [if_pos hj] at hstate
          cases hstate
        · rw [if_neg hj] at hpicking hstate hknown
          exact hother m₀ hm₀ hpicking hstate hknown hj

/-- What was to be done of a product is done. -/
lemma quantityDone_of_closed {db : WarehouseDb} {id : ℤ} (h : Validating id db s)
    (hclosed : ∀ i, ¬ StillOpen s id i) (product : ℤ) :
    quantityDone s db.moves.nextId id product = quantityToDo db id product := by
  rw [← h.toDo]
  apply sumOver_congr
  rintro ⟨i, m⟩ hmem
  have hbound : i < db.moves.nextId := by
    rw [← h.nextId]
    exact s.moves.below _ hmem
  show (if i < db.moves.nextId ∧ m.pickingId = some id ∧ m.productId = product ∧ m.state = .done
    then m.quantity else 0) = if m.pickingId = some id ∧ m.productId = product then m.brings s else 0
  by_cases hmine : m.pickingId = some id ∧ m.productId = product
  · rw [if_pos hmine]
    unfold StockMove.brings
    by_cases hopen : isOpen m.state = true
    · have hunknown : ¬ (s.stock.products.get? m.productId).isSome = true := by
        intro hknown
        exact hclosed i ⟨m, get?_eq_some_iff.mpr hmem, hmine.1, hopen, hknown⟩
      rw [if_pos hopen, if_neg hunknown, if_neg]
      rintro ⟨-, -, -, hdone⟩
      rw [hdone] at hopen
      cases hopen
    · rw [if_neg hopen]
      by_cases hdone : m.state = .done
      · rw [if_pos hdone, if_pos ⟨hbound, hmine.1, hmine.2, hdone⟩]
      · rw [if_neg hdone, if_neg]
        rintro ⟨-, -, -, hdone'⟩
        exact hdone hdone'
  · rw [if_neg hmine, if_neg]
    rintro ⟨-, hpicking, hproduct, -⟩
    exact hmine ⟨hpicking, hproduct⟩

/-- Validating the moves of a transfer does what was to be done. -/
lemma validateAll_ok {now : Moment} {id : ℤ} {db : WarehouseDb}
    (h : (movesIn db id isOpen).foldlM (validateOne now purchaseId) db = .ok s) :
    Validating id db s ∧
      ∀ product, quantityDone s db.moves.nextId id product = quantityToDo db id product := by
  have hrows := @inTurn_rows _ _ _ WarehouseDb.moves (validateOne now purchaseId)
    (fun m => isOpen m.state = true) (fun _ _ _ hone => validateOne_frame hone) _ db
    (movesIn_nodup db id isOpen) (fun _ hr => mem_movesIn_state hr)
  have hvalidating : Validating id db s := by
    refine @foldlM_invariant _ _ _ _ _ (Validating id db) _ _ _ ?_ hrows h
      ⟨.refl db, rfl, rfl, fun _ => rfl⟩
    intro s r s' hs hrow hone
    exact validateOne_validating hs hrow.1 hrow.2 hone
  refine ⟨hvalidating, quantityDone_of_closed hvalidating (validateAll_closed h hrows ?_)⟩
  rintro i ⟨m, hm, hpicking, hopen, -⟩
  apply mem_map_of_mem (f := Prod.fst) (a := (i, m))
  apply mem_filter.mpr
  refine ⟨get?_eq_some_iff.mp hm, ?_⟩
  rw [hpicking, hopen]
  simp

lemma quantityIn_doneMoves (db : WarehouseDb) (id product : ℤ) :
    quantityIn (doneMoves db id) product = quantityDone db db.moves.nextId id product := by
  have hbelow := db.moves.below
  unfold quantityIn doneMoves movesIn quantityDone sumOver
  generalize db.moves.rows = rows at hbelow ⊢
  induction rows with
  | nil => rfl
  | cons r rows ih =>
      rw [forall_mem_cons] at hbelow
      rw [map_cons, sum_cons, ← ih hbelow.2]
      dsimp only
      by_cases hsel : (r.2.pickingId == some id && r.2.state == .done) = true
      · obtain ⟨hpicking, hdone⟩ := Bool.and_eq_true_iff.mp hsel
        rw [filter_cons, if_pos hsel, map_cons, filter_cons]
        by_cases hp : r.2.productId = product
        · rw [if_pos (decide_eq_true hp), map_cons, sum_cons,
            if_pos ⟨hbelow.1, beq_iff_eq.mp hpicking, hp, beq_iff_eq.mp hdone⟩]
        · rw [if_neg (by simpa using hp), if_neg, zero_add]
          rintro ⟨-, -, hp', -⟩
          exact hp hp'
      · rw [filter_cons, if_neg hsel, if_neg, zero_add]
        rintro ⟨-, hpicking, -, hdone⟩
        apply hsel
        rw [hpicking, hdone]
        simp

/-! ### What validating does to the orders -/

/-- What the lines of a sale order have delivered of a product. -/
def delivered (db : WarehouseDb) (s product : ℤ) : ℤ :=
  match db.saleOrders.get? s with
  | none => 0
  | some so => overProduct SaleOrderLine.productId SaleOrderLine.qtyDelivered product so.lines

/-- What the lines of a purchase order have received of a product. -/
def received (db : WarehouseDb) (s product : ℤ) : ℤ :=
  match db.purchaseOrders.get? s with
  | none => 0
  | some po => overProduct PurchaseOrderLine.productId PurchaseOrderLine.qtyReceived product po.lines

/-- The lines of a sale order that have a product. -/
def saleLines (db : WarehouseDb) (s product : ℤ) : ℤ :=
  match db.saleOrders.get? s with
  | none => 0
  | some so => linesOf SaleOrderLine.productId product so.lines

/-- The lines of a purchase order that have a product. -/
def purchaseLines (db : WarehouseDb) (s product : ℤ) : ℤ :=
  match db.purchaseOrders.get? s with
  | none => 0
  | some po => linesOf PurchaseOrderLine.productId product po.lines

lemma deliver_ok {db db' : WarehouseDb} {id saleId : ℤ} (h : deliver db id saleId = .ok db') :
    db'.moves = db.moves ∧ db'.purchaseOrders = db.purchaseOrders ∧
      ∀ s product, delivered db' s product = delivered db s product +
        if s = saleId then saleLines db s product * quantityIn (doneMoves db id) product else 0 := by
  unfold deliver at h
  split at h
  · next hnone =>
      cases h
      refine ⟨rfl, rfl, ?_⟩
      intro s product
      split
      · next hs =>
          rw [hs, saleLines, hnone]
          simp
      · rw [add_zero]
  next so hso =>
  obtain ⟨lines, hlines, h⟩ := bind_ok_iff.mp h
  cases h
  refine ⟨rfl, rfl, ?_⟩
  intro s product
  unfold delivered
  by_cases hs : s = saleId
  · rw [hs, get?_modify_self, if_pos rfl, saleLines, hso]
    exact tellLines_ok deliverLine_tells hlines product
  · rw [get?_modify_of_ne _ _ hs, if_neg hs, add_zero]

lemma receive_ok {db db' : WarehouseDb} {id : ℤ} (h : receive db id purchaseId = .ok db') :
    db'.moves = db.moves ∧ db'.saleOrders = db.saleOrders ∧
      ∀ s product, received db' s product = received db s product +
        if s = purchaseId then purchaseLines db s product * quantityIn (doneMoves db id) product
        else 0 := by
  unfold receive at h
  split at h
  · next hnone =>
      cases h
      refine ⟨rfl, rfl, ?_⟩
      intro s product
      split
      · next hs =>
          rw [hs, purchaseLines, hnone]
          simp
      · rw [add_zero]
  next po hpo =>
  obtain ⟨lines, hlines, h⟩ := bind_ok_iff.mp h
  cases h
  refine ⟨rfl, rfl, ?_⟩
  intro s product
  unfold received
  by_cases hs : s = purchaseId
  · rw [hs, get?_modify_self, if_pos rfl, purchaseLines, hpo]
    exact tellLines_ok receiveLine_tells hlines product
  · rw [get?_modify_of_ne _ _ hs, if_neg hs, add_zero]

/-- What consuming components leaves: the orders, and what the moves there were
have done. -/
structure Consumed (bound id : ℤ) (db s : WarehouseDb) : Prop where
  orders : SameOrders db s
  bound_le : bound ≤ s.moves.nextId
  done : ∀ product, quantityDone s bound id product = quantityDone db bound id product

lemma consumeComponent_consumed {now : Moment} {bound id picking subLoc recvQty comp : ℤ}
    {b : Bom} {db : WarehouseDb} {ln : BomLine} (h : Consumed bound id db s)
    (hone : consumeComponent now picking subLoc recvQty comp b s ln = .ok s') :
    Consumed bound id db s' := by
  obtain ⟨q, -, hone⟩ := bind_ok_iff.mp hone
  split at hone
  · cases hone
    exact h
  obtain ⟨stock, -, hone⟩ := bind_ok_iff.mp hone
  cases hone
  refine ⟨⟨h.orders.sale, h.orders.purchase⟩, ?_, ?_⟩
  · have := h.bound_le
    show bound ≤ s.moves.nextId + 1
    omega
  · intro product
    rw [← h.done]
    show sumOver (s.moves.insert _) _ = _
    rw [sumOver_insert, if_neg, add_zero]
    · rfl
    rintro ⟨hlt, -⟩
    have := h.bound_le
    omega

lemma backflush_consumed {now : Moment} {bound id picking : ℤ} {db db' : WarehouseDb}
    (hbound : bound ≤ db.moves.nextId) (h : backflush now db picking = .ok db') :
    Consumed bound id db db' := by
  have h0 : Consumed bound id db db := ⟨.refl db, hbound, fun _ => rfl⟩
  unfold backflush at h
  split at h
  · cases h
    exact h0
  refine foldlM_keeps (Consumed bound id db) ?_ h h0
  intro s productId s' hs hone
  obtain ⟨recvQty, -, hone⟩ := bind_ok_iff.mp hone
  split at hone
  · cases hone
    exact hs
  · refine foldlM_keeps (Consumed bound id db) ?_ hone hs
    intro s₁ ln s₂ h₁ hline
    exact consumeComponent_consumed h₁ hline

/-! ### Counting once -/

/-- The transfer delivers a sale order when it is validated. -/
def DeliversTo (db : WarehouseDb) (id s : ℤ) : Prop :=
  ∃ p, db.pickings.get? id = some p ∧ isOpen p.state = true ∧ 0 < s ∧ p.saleId = some s ∧
    (db.pickingTypes.get? p.pickingTypeId).map (·.code) = some .outgoing

/-- The transfer receives a purchase order when it is validated. -/
def ReceivesFor (db : WarehouseDb) (id s : ℤ) : Prop :=
  ∃ p, db.pickings.get? id = some p ∧ isOpen p.state = true ∧ 0 < s ∧ p.purchaseId = some s ∧
    (db.pickingTypes.get? p.pickingTypeId).map (·.code) = some .incoming

/-- Validating a transfer counts its quantities once: the lines of its order
together grow by what its moves have done of each product, and no other order
changes. -/
structure CountedOnce (db db' : WarehouseDb) (id : ℤ) : Prop where
  delivered : ∀ s so, db.saleOrders.get? s = some so → ∀ product,
    (DeliversTo db id s → CErp.delivered db' s product =
      CErp.delivered db s product + quantityDone db' db.moves.nextId id product) ∧
    (¬ DeliversTo db id s → CErp.delivered db' s product = CErp.delivered db s product)
  received : ∀ s po, db.purchaseOrders.get? s = some po → ∀ product,
    (ReceivesFor db id s → CErp.received db' s product =
      CErp.received db s product + quantityDone db' db.moves.nextId id product) ∧
    (¬ ReceivesFor db id s → CErp.received db' s product = CErp.received db s product)

/-- Every product the transfer brings is on just one line of its order. -/
structure OneLineEach (db : WarehouseDb) (id : ℤ) : Prop where
  sale : ∀ s so, db.saleOrders.get? s = some so → DeliversTo db id s → ∀ product,
    quantityToDo db id product = 0 ∨ linesOf SaleOrderLine.productId product so.lines = 1
  purchase : ∀ s po, db.purchaseOrders.get? s = some po → ReceivesFor db id s → ∀ product,
    quantityToDo db id product = 0 ∨ linesOf PurchaseOrderLine.productId product po.lines = 1

lemma getD_eq_iff {o : Option ℤ} {s : ℤ} (hs : 0 < s) : o.getD 0 = s ↔ o = some s := by
  rcases o with - | v
  · constructor
    · rintro rfl
      cases hs
    · intro h
      cases h
  · exact Option.some_inj.symm

lemma deliversTo_iff {db : WarehouseDb} {id s : ℤ} {p : Picking}
    (hp : db.pickings.get? id = some p) (hopen : isOpen p.state = true) :
    DeliversTo db id s ↔ (decide (0 < p.saleId.getD 0) &&
      (db.pickingTypes.get? p.pickingTypeId).map (·.code) == some .outgoing) = true ∧
        s = p.saleId.getD 0 := by
  rw [Bool.and_eq_true, decide_eq_true_eq, beq_iff_eq]
  constructor
  · rintro ⟨q, hq, -, hs, hsale, hcode⟩
    rw [hp] at hq
    cases hq
    rw [(getD_eq_iff hs).mpr hsale]
    exact ⟨⟨hs, hcode⟩, rfl⟩
  · rintro ⟨⟨hs, hcode⟩, rfl⟩
    exact ⟨p, hp, hopen, hs, (getD_eq_iff hs).mp rfl, hcode⟩

lemma receivesFor_iff {db : WarehouseDb} {id s : ℤ} {p : Picking}
    (hp : db.pickings.get? id = some p) (hopen : isOpen p.state = true) :
    ReceivesFor db id s ↔ (decide (0 < p.purchaseId.getD 0) &&
      (db.pickingTypes.get? p.pickingTypeId).map (·.code) == some .incoming) = true ∧
        s = p.purchaseId.getD 0 := by
  rw [Bool.and_eq_true, decide_eq_true_eq, beq_iff_eq]
  constructor
  · rintro ⟨q, hq, -, hs, hpurchase, hcode⟩
    rw [hp] at hq
    cases hq
    rw [(getD_eq_iff hs).mpr hpurchase]
    exact ⟨⟨hs, hcode⟩, rfl⟩
  · rintro ⟨⟨hs, hcode⟩, rfl⟩
    exact ⟨p, hp, hopen, hs, (getD_eq_iff hs).mp rfl, hcode⟩

/-! ### The stages of validating a transfer -/

section Validating

variable {now : Moment} {id : ℤ} {p : Picking} {db db₁ db₂ db₃ db' : WarehouseDb}

/-- What the moves have done is what was to be done. -/
lemma StockPicking.Validated.quantityIn_eq (hv : Validated now id p db db₁ db₂ db₃ db')
    (product : ℤ) : quantityIn (doneMoves db₁ id) product = quantityToDo db id product := by
  obtain ⟨hvalidating, htodo⟩ := validateAll_ok hv.moves
  rw [quantityIn_doneMoves, hvalidating.nextId, htodo]

/-- The delivery stage tells the sale order, and only it. -/
lemma StockPicking.Validated.delivery_tells (hv : Validated now id p db db₁ db₂ db₃ db') :
    db₂.moves = db₁.moves ∧ db₂.purchaseOrders = db.purchaseOrders ∧ ∀ s product,
      (DeliversTo db id s → delivered db₂ s product =
        delivered db s product + saleLines db s product * quantityToDo db id product) ∧
      (¬ DeliversTo db id s → delivered db₂ s product = delivered db s product) := by
  have horders := (validateAll_ok hv.moves).1.orders
  have hdelivered : ∀ s product, delivered (carryPackages { db₁ with
      pickings := db₁.pickings.modify id fun p => { p with state := .done } } id) s product =
      delivered db s product := by
    intro s product
    show (match db₁.saleOrders.get? s with | none => _ | some so => _) = _
    rw [horders.sale]
    rfl
  rcases provided_ok hv.delivery with ⟨hc, hdeliver⟩ | ⟨hc, rfl⟩
  · obtain ⟨hmoves₂, hpurchase, htold⟩ := deliver_ok hdeliver
    refine ⟨hmoves₂, hpurchase.trans horders.purchase, ?_⟩
    intro s product
    rw [deliversTo_iff hv.picking hv.opened, htold, hdelivered]
    constructor
    · rintro ⟨-, hs⟩
      rw [if_pos hs, ← hv.quantityIn_eq]
      show _ + (match db₁.saleOrders.get? s with | none => _ | some so => _) * _ = _
      rw [horders.sale]
      rfl
    · intro hnot
      rw [if_neg (fun hs => hnot ⟨hc, hs⟩), add_zero]
  · refine ⟨rfl, horders.purchase, ?_⟩
    intro s product
    rw [deliversTo_iff hv.picking hv.opened, hdelivered]
    refine ⟨?_, fun _ => rfl⟩
    rintro ⟨hc', -⟩
    rw [hc] at hc'
    cases hc'

/-- The receipt stage tells the purchase order, and only it. -/
lemma StockPicking.Validated.receipt_tells (hv : Validated now id p db db₁ db₂ db₃ db') :
    db₃.moves = db₁.moves ∧ db₃.saleOrders = db₂.saleOrders ∧ ∀ s product,
      (ReceivesFor db id s → received db₃ s product =
        received db s product + purchaseLines db s product * quantityToDo db id product) ∧
      (¬ ReceivesFor db id s → received db₃ s product = received db s product) := by
  obtain ⟨hmoves₂, hpurchase, -⟩ := hv.delivery_tells
  have hreceived : ∀ s product, received db₂ s product = received db s product := by
    intro s product
    unfold received
    rw [hpurchase]
  have hdone : doneMoves db₂ id = doneMoves db₁ id := by
    unfold doneMoves movesIn
    rw [hmoves₂]
  rcases provided_ok hv.receipt with ⟨hc, hreceive⟩ | ⟨hc, rfl⟩
  · obtain ⟨hmoves₃, hsale, htold⟩ := receive_ok hreceive
    refine ⟨hmoves₃.trans hmoves₂, hsale, ?_⟩
    intro s product
    rw [receivesFor_iff hv.picking hv.opened, htold, hreceived]
    constructor
    · rintro ⟨-, hs⟩
      rw [if_pos hs, hdone, hv.quantityIn_eq]
      unfold purchaseLines
      rw [hpurchase]
    · intro hnot
      rw [if_neg (fun hs => hnot ⟨hc, hs⟩), add_zero]
  · refine ⟨hmoves₂, rfl, ?_⟩
    intro s product
    rw [receivesFor_iff hv.picking hv.opened, hreceived]
    refine ⟨?_, fun _ => rfl⟩
    rintro ⟨hc', -⟩
    rw [hc] at hc'
    cases hc'

/-- The last stage only adds moves of the components. -/
lemma StockPicking.Validated.consumed (hv : Validated now id p db db₁ db₂ db₃ db') :
    Consumed db.moves.nextId id db₃ db' := by
  have hbound : db.moves.nextId ≤ db₃.moves.nextId := by
    rw [hv.receipt_tells.1, (validateAll_ok hv.moves).1.nextId]
  rcases provided_ok hv.components with ⟨-, hback⟩ | ⟨-, rfl⟩
  · exact backflush_consumed hbound hback
  · exact ⟨.refl _, hbound, fun _ => rfl⟩

end Validating

/-- A transfer that is not open is for no order. -/
lemma not_deliversTo_of_closed {db : WarehouseDb} {id : ℤ}
    (h : ∀ p, db.pickings.get? id = some p → ¬ isOpen p.state = true) (s : ℤ) :
    ¬ DeliversTo db id s ∧ ¬ ReceivesFor db id s := by
  constructor <;> rintro ⟨p, hp, hopen, -⟩ <;> exact h p hp hopen

/-- **What validating a transfer tells its orders.** -/
theorem buttonValidate_tells {now : Moment} {db db' : WarehouseDb} {id : ℤ}
    (h : buttonValidate now db id = .ok db') :
    ((∃ p, db.pickings.get? id = some p ∧ isOpen p.state = true) →
      ∀ product, quantityDone db' db.moves.nextId id product = quantityToDo db id product) ∧
    (∀ s product, (DeliversTo db id s → delivered db' s product =
        delivered db s product + saleLines db s product * quantityToDo db id product) ∧
      (¬ DeliversTo db id s → delivered db' s product = delivered db s product)) ∧
    ∀ s product, (ReceivesFor db id s → received db' s product =
        received db s product + purchaseLines db s product * quantityToDo db id product) ∧
      (¬ ReceivesFor db id s → received db' s product = received db s product) := by
  rcases buttonValidate_cases h with ⟨hclosed, rfl⟩ | ⟨p, db₁, db₂, db₃, hv⟩
  · refine ⟨?_, fun s product => ⟨?_, fun _ => rfl⟩, fun s product => ⟨?_, fun _ => rfl⟩⟩
    · rintro ⟨p, hp, hopen⟩
      exact absurd hopen (hclosed p hp)
    · intro hdelivers
      exact absurd hdelivers (not_deliversTo_of_closed hclosed s).1
    · intro hreceives
      exact absurd hreceives (not_deliversTo_of_closed hclosed s).2
  obtain ⟨-, -, hdelivered⟩ := hv.delivery_tells
  obtain ⟨hmoves, hsale, hreceived⟩ := hv.receipt_tells
  have hconsumed := hv.consumed
  refine ⟨?_, ?_, ?_⟩
  · intro _ product
    rw [hconsumed.done, ← (validateAll_ok hv.moves).2]
    unfold quantityDone
    rw [hmoves]
  · intro s product
    have hsame : delivered db' s product = delivered db₂ s product := by
      unfold delivered
      rw [hconsumed.orders.sale, hsale]
    rw [hsame]
    exact hdelivered s product
  · intro s product
    have hsame : received db' s product = received db₃ s product := by
      unfold received
      rw [hconsumed.orders.purchase]
    rw [hsame]
    exact hreceived s product

lemma counted_iff {before lines qty after : ℤ} (h : after = before + lines * qty) :
    after = before + qty ↔ qty = 0 ∨ lines = 1 := by
  have hdiff : after = before + qty ↔ (lines - 1) * qty = 0 := by
    rw [h, sub_one_mul]
    omega
  rw [hdiff, mul_eq_zero, sub_eq_zero, or_comm]

lemma countedOnce_iff {now : Moment} {db db' : WarehouseDb} {id : ℤ}
    (h : buttonValidate now db id = .ok db') : CountedOnce db db' id ↔ OneLineEach db id := by
  obtain ⟨hdone, hsale, hpurchase⟩ := buttonValidate_tells h
  have hsaleIff : ∀ s so, db.saleOrders.get? s = some so → DeliversTo db id s → ∀ product,
      (delivered db' s product = delivered db s product + quantityDone db' db.moves.nextId id product ↔
        quantityToDo db id product = 0 ∨ linesOf SaleOrderLine.productId product so.lines = 1) := by
    intro s so hso hto product
    have hopens := hto
    obtain ⟨p, hp, hopen, -⟩ := hopens
    rw [hdone ⟨p, hp, hopen⟩]
    have htold := (hsale s product).1 hto
    rw [saleLines, hso] at htold
    exact counted_iff htold
  have hpurchaseIff : ∀ s po, db.purchaseOrders.get? s = some po → ReceivesFor db id s → ∀ product,
      (received db' s product = received db s product + quantityDone db' db.moves.nextId id product ↔
        quantityToDo db id product = 0 ∨ linesOf PurchaseOrderLine.productId product po.lines = 1) := by
    intro s po hpo hfor product
    have hopens := hfor
    obtain ⟨p, hp, hopen, -⟩ := hopens
    rw [hdone ⟨p, hp, hopen⟩]
    have htold := (hpurchase s product).1 hfor
    rw [purchaseLines, hpo] at htold
    exact counted_iff htold
  constructor
  · intro hcounted
    constructor
    · intro s so hso hto product
      exact (hsaleIff s so hso hto product).mp ((hcounted.delivered s so hso product).1 hto)
    · intro s po hpo hfor product
      exact (hpurchaseIff s po hpo hfor product).mp ((hcounted.received s po hpo product).1 hfor)
  · intro hone
    constructor
    · intro s so hso product
      refine ⟨?_, (hsale s product).2⟩
      intro hto
      exact (hsaleIff s so hso hto product).mpr (hone.sale s so hso hto product)
    · intro s po hpo product
      refine ⟨?_, (hpurchase s product).2⟩
      intro hfor
      exact (hpurchaseIff s po hpo hfor product).mpr (hone.purchase s po hpo hfor product)

/-- One validation, at its moment. -/
def validateAt (db : WarehouseDb) (c : Moment × ℤ) : Except String WarehouseDb :=
  buttonValidate c.1 db c.2

/-- **Quantities are counted once, by orders with one line for each product.**
Over any sequence of validations, each counts its quantities once if and only if
each finds every product it brings on just one line of its order. -/
theorem quantities_counted_once {calls : List (Moment × ℤ)} {db db' : WarehouseDb}
    (h : calls.foldlM validateAt db = .ok db') :
    InTurn validateAt (fun db c => ∀ db', validateAt db c = .ok db' → CountedOnce db db' c.2) db
        calls ↔
      InTurn validateAt (fun db c => OneLineEach db c.2) db calls := by
  refine inTurn_congr ?_ h
  intro s c s' hs
  constructor
  · intro hcounted
    exact (countedOnce_iff hs).mp (hcounted s' hs)
  · intro hone s'' hs''
    exact (countedOnce_iff hs'').mpr hone

/-- The two deliveries, for a sale order with some lines. -/
def deliveriesFor (lines : List SaleOrderLine) : WarehouseDb :=
  { twoDeliveries with
    pickings := (Table.empty.insert { pickingTypeId := 1, saleId := some 1 }).insert
      { pickingTypeId := 1, saleId := some 1 }
    saleOrders := Table.empty.insert { lines := lines } }

/-- An order of seven on one line is told four and then three. -/
theorem quantities_counted_once_deliveries : ∃ db', [(february, 1), (february, 2)].foldlM validateAt
        (deliveriesFor [{ productId := some 1, productUomQty := 7000000 }]) = .ok db' ∧
      (InTurn validateAt (fun db c => ∀ db', validateAt db c = .ok db' → CountedOnce db db' c.2)
          (deliveriesFor [{ productId := some 1, productUomQty := 7000000 }])
          [(february, 1), (february, 2)] ↔
        InTurn validateAt (fun db c => OneLineEach db c.2)
          (deliveriesFor [{ productId := some 1, productUomQty := 7000000 }])
          [(february, 1), (february, 2)]) := by
  obtain ⟨db', hrun⟩ := exists_ok
    (show ([(february, 1), (february, 2)].foldlM validateAt
      (deliveriesFor [{ productId := some 1, productUomQty := 7000000 }])).isOk = true by
        decide)
  exact ⟨db', hrun, quantities_counted_once hrun⟩

/-- An order of four and three on two lines. -/
def fourAndThree : WarehouseDb :=
  deliveriesFor [{ productId := some 1, productUomQty := 4000000 },
    { productId := some 1, productUomQty := 3000000 }]

/-- When four are delivered, both lines are told four. -/
theorem two_lines_count_twice : ∃ db', buttonValidate february fourAndThree 1 = .ok db' ∧
      quantityDone db' 3 1 1 = 4000000 ∧ delivered fourAndThree 1 1 = 0 ∧
      delivered db' 1 1 = 8000000 ∧ ¬ CountedOnce fourAndThree db' 1 := by
  have hnumbers : (buttonValidate february fourAndThree 1).map
      (fun db' => (quantityDone db' 3 1 1, delivered db' 1 1)) = .ok (4000000, 8000000) := by
    decide
  obtain ⟨db', hrun, hpair⟩ := map_ok_iff.mp hnumbers
  obtain ⟨hdone, htold⟩ := Prod.mk.inj hpair
  refine ⟨db', hrun, hdone, rfl, htold, ?_⟩
  intro hcounted
  have hto : DeliversTo fourAndThree 1 1 :=
    ⟨{ pickingTypeId := 1, saleId := some 1 }, rfl, rfl, by decide, rfl, rfl⟩
  have honce := (hcounted.delivered 1 _ rfl 1).1 hto
  rw [htold] at honce
  change (8000000 : ℤ) = 0 + quantityDone db' 3 1 1 at honce
  rw [hdone] at honce
  exact absurd honce (by decide)

end CErp
