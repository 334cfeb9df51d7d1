/-
Product categories: creating, writing and deleting them, and the screens that
walk the tree their parents make.

A category is inserted under the next number of a sequence, which moves on when
the insertion fails; its parent is checked when the row is in, so a category may
be its own parent.  A walk that meets a cycle does not return: such an event
leads to no state.  The products are the categories they are filed in.

`category_forest` says which runs keep the tree a forest.
-/
import CErp.AuthViewModel
import CErp.RecursiveQuery

namespace CErp

open Relation List Table Option Runs RecursiveQuery Outcome

namespace CategoryTree

/-! ### Rows -/

/-- A row of `product_category`. -/
structure Category where
  name : String
  parentId : Option ℤ
  active : Bool
deriving DecidableEq

/-- The categories, and the `categ_id` of every product. -/
structure CategoryDb where
  categories : Table Category
  products : List (Option ℤ)

/-- The largest number of an `INTEGER` sequence. -/
def maxSerial : ℤ := 2 ^ 31 - 1

namespace CategoryDb

variable (db : CategoryDb)

/-- The row with this id, if there is one. -/
def present (id : ℤ) : List ℤ := if (db.categories.get? id).isSome then [id] else []

/-- `SELECT id … WHERE parent_id = $1`. -/
def childrenOf (id : ℤ) : List ℤ :=
  (db.categories.rows.filter fun r => r.2.parentId == some id).map Prod.fst

/-- `SELECT c.id … WHERE c.id = …parent_id`. -/
def parentsOf (id : ℤ) : List ℤ :=
  match (db.categories.get? id).bind Category.parentId with
  | some p => db.present p
  | none => []

/-- `SELECT COUNT(*) FROM product_product WHERE categ_id = $1`. -/
def directCount (id : ℤ) : ℕ := db.products.count (some id)

/-- Rounds that are enough for any query of the tree that returns. -/
def rounds : ℕ := db.categories.rows.length + 1

end CategoryDb

/-! ### Values -/

def isBlank (c : Char) : Bool := c == ' ' || c == '\t' || c == '\r' || c == '\n'

/-- `requireName_`. -/
def requireName (v : Json) : Except String String :=
  let name := v.text.toList
  if name.all isBlank then .error "Category name is required."
  else .ok (String.ofList ((name.dropWhile isBlank).rdropWhile isBlank))

/-- The parent in a dict of values, 0 when none can be read. -/
def parentIn (v : Json) : ℤ :=
  match v with
  | .num i => Json.toInt32 i
  | .arr (.num i :: _) => Json.toInt32 i
  | _ => 0

/-- A parent as it is stored. -/
def parentParam (parentId : ℤ) : Option ℤ := if 0 < parentId then some parentId else none

/-! ### Create -/

/-- The row a call to `create` asks for. -/
def readCreate (call : CallKwArgs) : Except String Category :=
  match call.arg 0 with
  | .obj vals => do
      let name ← requireName ((vals.lookup "name").getD .null)
      let active ← boolValue vals "active" true
      .ok ⟨name, parentParam (((vals.lookup "parent_id").map parentIn).getD 0), active⟩
  | _ => .error "create: args[0] must be a dict"

/-- `INSERT INTO product_category … RETURNING id`. -/
def insertCategory (db : CategoryDb) (c : Category) : CategoryDb × Except String ℤ :=
  let id := db.categories.nextId
  if maxSerial < id then
    (db, .error "nextval: reached maximum value of sequence \"product_category_id_seq\"")
  else if c.parentId.all fun p => p == id || (db.categories.get? p).isSome then
    ({ db with categories := db.categories.insert c }, .ok id)
  else ({ db with categories := db.categories.skip },
    .error "insert or update on table \"product_category\" violates foreign key constraint")

def handleCreate (db : CategoryDb) (call : CallKwArgs) : CategoryDb × Except String ℤ :=
  match readCreate call with
  | .error e => (db, .error e)
  | .ok c => insertCategory db c

/-! ### Write -/

/-- Why a call comes to nothing. -/
inductive Halt where
  | refused (error : String)
  /-- A query does not return. -/
  | endless
deriving DecidableEq

/-- `wouldCreateCycle_`: the walk up from the new parent, which stops at `id`. -/
def wouldCreateCycle (db : CategoryDb) (id newParentId : ℤ) : Option Bool :=
  if newParentId ≤ 0 then some false
  else if newParentId = id then some true
  else search db.parentsOf (· == id) db.rounds (db.present newParentId)

/-- `UPDATE product_category SET … WHERE id=$2`. -/
def CategoryDb.modify (db : CategoryDb) (id : ℤ) (f : Category → Category) : CategoryDb :=
  { db with categories := db.categories.modify id f }

def writeName (vals : Values) (db : CategoryDb) (id : ℤ) : Except Halt CategoryDb :=
  match vals.lookup "name" with
  | none => .ok db
  | some v =>
      match requireName v with
      | .error e => .error (.refused e)
      | .ok name => .ok (db.modify id fun c => { c with name := name })

def writeActive (vals : Values) (db : CategoryDb) (id : ℤ) : CategoryDb :=
  match vals.lookup "active" with
  | some (.bool b) => db.modify id fun c => { c with active := b }
  | _ => db

def writeParent (vals : Values) (db : CategoryDb) (id : ℤ) : Except Halt CategoryDb :=
  match vals.lookup "parent_id" with
  | none => .ok db
  | some v =>
      let parentId := parentIn v
      if 0 < parentId then
        match wouldCreateCycle db id parentId with
        | none => .error .endless
        | some true => .error (.refused
            "Cannot set parent: that category is a descendant of this one.")
        | some false =>
            if (db.categories.get? id).isSome ∧ (db.categories.get? parentId).isNone then
              .error (.refused
                "insert or update on table \"product_category\" violates foreign key constraint")
            else .ok (db.modify id fun c => { c with parentId := some parentId })
      else .ok (db.modify id fun c => { c with parentId := none })

def writeOne (vals : Values) (db : CategoryDb) (id : ℤ) : Except Halt CategoryDb := do
  let named ← writeName vals db id
  writeParent vals (writeActive vals named id) id

def handleWrite (db : CategoryDb) (call : CallKwArgs) : Except Halt CategoryDb :=
  match call.ids with
  | .error e => .error (.refused e)
  | .ok [] => .ok db
  | .ok (id :: ids) =>
      match call.arg 1 with
      | .obj vals => (id :: ids).foldlM (writeOne vals) db
      | _ => .error (.refused "write: args[1] must be a dict")

/-! ### Unlink -/

/-- `DELETE`, with what the foreign keys on the category do. -/
def CategoryDb.remove (db : CategoryDb) (id : ℤ) : CategoryDb where
  categories := (db.categories.delete fun i _ => i == id).update fun _ c =>
    { c with parentId := c.parentId.filter (· != id) }
  products := db.products.map fun p => p.filter (· != id)

def unlinkOne (db : CategoryDb) (id : ℤ) : Except String CategoryDb :=
  let children := (db.childrenOf id).length
  let products := db.directCount id
  if 0 < children ∨ 0 < products then
    .error ("Cannot delete this category: it has " ++ toString children ++ " subcategor" ++
      (if children = 1 then "y" else "ies") ++ " and " ++ toString products ++ " product" ++
      (if products = 1 then "" else "s") ++ ". Reassign or delete them first.")
  else .ok (db.remove id)

def handleUnlink (db : CategoryDb) (call : CallKwArgs) : Except String CategoryDb := do
  let ids ← call.ids
  ids.foldlM unlinkOne db

/-! ### The screens -/

/-- A node of the tree. -/
structure Node where
  id : ℤ
  name : String
  parentId : ℤ
  active : Bool
  directCount : ℕ
  totalCount : ℕ
  childCount : ℕ
deriving DecidableEq

/-- The rows `(root, node)` of the tree's `descend`. -/
def descend (db : CategoryDb) : Option (List (ℤ × ℤ)) :=
  run (fun d => (db.childrenOf d.2).map fun c => (d.1, c)) db.rounds
    (db.categories.rows.map fun r => (r.1, r.1))

/-- The tree's `totals`. -/
def totals (db : CategoryDb) (rows : List (ℤ × ℤ)) (root : ℤ) : ℕ :=
  ((rows.filter fun d => d.1 == root).map fun d => db.directCount d.2).sum

/-- The nodes, as far as archived ones are asked for. -/
def handleTree (db : CategoryDb) (includeArchived : Bool) : Option (List Node) :=
  (descend db).map fun rows =>
    (db.categories.rows.filter fun r => includeArchived || r.2.active).map fun r =>
      { id := r.1
        name := r.2.name
        parentId := r.2.parentId.getD 0
        active := r.2.active
        directCount := db.directCount r.1
        totalCount := totals db rows r.1
        childCount := (db.childrenOf r.1).length }

/-- The path and the counts of one category. -/
structure Detail where
  path : List ℤ
  direct : ℕ
  total : ℕ
  children : ℕ
  descendants : ℤ
deriving DecidableEq

/-- `detail` of a category that exists. -/
def handleDetail (db : CategoryDb) (id : ℤ) : Option Detail := do
  let up ← run db.parentsOf db.rounds (db.present id)
  let down ← run db.childrenOf db.rounds [id]
  return {
    path := up.reverse
    direct := db.directCount id
    total := (db.products.filter fun p => p.any down.contains).length
    children := (db.childrenOf id).length
    descendants := down.length - 1 }

/-- The categories whose products the catalogue shows under one. -/
def catalogueSubtree (db : CategoryDb) (categId : ℤ) : Option (List ℤ) :=
  run db.childrenOf db.rounds (db.present categId)

/-! ### Events -/

inductive Request where
  | create (call : CallKwArgs)
  | write (call : CallKwArgs)
  | unlink (call : CallKwArgs)

/-- What a call leaves; a refused one leaves the rows as they were. -/
def step (db : CategoryDb) : Request → Option CategoryDb
  | .create call => some (handleCreate db call).1
  | .write call =>
      match handleWrite db call with
      | .ok db' => some db'
      | .error (.refused _) => some db
      | .error .endless => none
  | .unlink call =>
      match handleUnlink db call with
      | .ok db' => some db'
      | .error _ => some db

/-! ### The law -/

/-- The parent of a category. -/
def Up (db : CategoryDb) (id p : ℤ) : Prop :=
  ∃ c, db.categories.get? id = some c ∧ c.parentId = some p

/-- What the screens rely on. -/
structure IsForest (db : CategoryDb) : Prop where
  acyclic : Acyclic (Up db)
  detail : ∀ id, ∃ d, handleDetail db id = some d
  catalogue : ∀ id, ∃ ids, catalogueSubtree db id = some ids
  tree : ∃ nodes, handleTree db true = some nodes ∧
    handleTree db false = some (nodes.filter Node.active) ∧
    ∀ n ∈ nodes, n.totalCount =
      n.directCount + ((nodes.filter fun k => k.parentId == n.id).map Node.totalCount).sum

/-- Tables as they may be found: parents are rows, ids are positive, no cycle. -/
structure Sound (db : CategoryDb) : Prop where
  acyclic : Acyclic (Up db)
  linked : ∀ id p, Up db id p → (db.categories.get? p).isSome
  positive : ∀ r ∈ db.categories.rows, 0 < r.1
  next : 0 < db.categories.nextId

/-- A category is created that names the id it is about to get. -/
def TakesItself (db : CategoryDb) : Request → Prop
  | .create call => ∃ c, readCreate call = .ok c ∧ c.parentId = some db.categories.nextId ∧
      db.categories.nextId ≤ maxSerial
  | _ => False

/-! ### Walks -/

variable {id : ℤ}

section Walks

variable {db : CategoryDb}

lemma mem_childrenOf_iff {c : ℤ} : c ∈ db.childrenOf id ↔ Up db c id := by
  unfold CategoryDb.childrenOf Up
  rw [List.mem_map]
  constructor
  · rintro ⟨r, hr, rfl⟩
    rw [mem_filter, beq_iff_eq] at hr
    exact ⟨r.2, get?_eq_some_iff.mpr hr.1, hr.2⟩
  · rintro ⟨row, hrow, hp⟩
    refine ⟨(c, row), mem_filter.mpr ⟨get?_eq_some_iff.mp hrow, ?_⟩, rfl⟩
    rw [beq_iff_eq]
    exact hp

lemma mem_present_iff {i : ℤ} :
    i ∈ db.present id ↔ i = id ∧ (db.categories.get? id).isSome = true := by
  unfold CategoryDb.present
  split
  · next h => simp [h]
  · next h => simp [h]

lemma mem_parentsOf_iff {p : ℤ} :
    p ∈ db.parentsOf id ↔ Up db id p ∧ (db.categories.get? p).isSome = true := by
  unfold CategoryDb.parentsOf Up
  split
  · next q hq =>
      obtain ⟨c, hc, hcq⟩ := bind_eq_some_iff.mp hq
      rw [mem_present_iff]
      constructor
      · rintro ⟨rfl, hsome⟩
        exact ⟨⟨c, hc, hcq⟩, hsome⟩
      · rintro ⟨⟨c', hc', hcp⟩, hsome⟩
        rw [hc, Option.some.injEq] at hc'
        subst hc'
        rw [hcq, Option.some.injEq] at hcp
        subst hcp
        exact ⟨rfl, hsome⟩
  · next hnone =>
      refine iff_of_false not_mem_nil ?_
      rintro ⟨⟨c, hc, hcp⟩, -⟩
      rw [hc, bind_some, hcp] at hnone
      cases hnone

/-- The ids of the rows. -/
def CategoryDb.ids (db : CategoryDb) : Finset ℤ := (db.categories.rows.map Prod.fst).toFinset

lemma mem_ids_iff : id ∈ db.ids ↔ (db.categories.get? id).isSome = true := by
  unfold CategoryDb.ids
  rw [List.mem_toFinset, List.mem_map, isSome_iff_exists]
  constructor
  · rintro ⟨r, hr, rfl⟩
    exact ⟨r.2, get?_eq_some_iff.mpr hr⟩
  · rintro ⟨c, hc⟩
    exact ⟨(id, c), get?_eq_some_iff.mp hc, rfl⟩

lemma card_ids_lt : db.ids.card < db.rounds := by
  have h := toFinset_card_le (db.categories.rows.map Prod.fst)
  rw [length_map] at h
  exact Nat.lt_succ_of_le h

lemma Up.mem_ids {p : ℤ} (h : Up db id p) : id ∈ db.ids := by
  obtain ⟨c, hc, -⟩ := h
  rw [mem_ids_iff, hc]
  rfl

/-- Every walk down returns. -/
lemma run_childrenOf (h : Acyclic (Up db)) (l : List ℤ) :
    ∃ rows, run db.childrenOf db.rounds l = some rows :=
  run_of_acyclic h.swap
    (fun _ _ hb => ⟨mem_childrenOf_iff.mp hb, (mem_childrenOf_iff.mp hb).mem_ids⟩) card_ids_lt l

/-- Every walk up returns. -/
lemma run_parentsOf (h : Acyclic (Up db)) (l : List ℤ) :
    ∃ rows, run db.parentsOf db.rounds l = some rows :=
  run_of_acyclic h
    (fun _ _ hb => ⟨(mem_parentsOf_iff.mp hb).1, mem_ids_iff.mpr (mem_parentsOf_iff.mp hb).2⟩)
    card_ids_lt l

lemma handleDetail_returns (h : Acyclic (Up db)) (id : ℤ) : ∃ d, handleDetail db id = some d := by
  obtain ⟨up, hup⟩ := run_parentsOf h (db.present id)
  obtain ⟨down, hdown⟩ := run_childrenOf h [id]
  unfold handleDetail
  rw [hup, hdown]
  exact ⟨_, rfl⟩

/-! ### Totals -/

lemma descend_returns (h : Acyclic (Up db)) : ∃ rows, descend db = some rows := by
  apply run_of_rank
    (r := fun d : ℤ × ℤ => rank db.ids (fun a b => Up db b a) d.2)
  · intro d d' hd
    obtain ⟨c, hc, rfl⟩ := List.mem_map.mp hd
    have hup := mem_childrenOf_iff.mp hc
    exact rank_lt h.swap hup.mem_ids hup
  · intro d _
    exact (RecursiveQuery.rank_le _ _ _).trans_lt card_ids_lt

lemma filter_roots (h : (db.categories.get? id).isSome = true) :
    (db.categories.rows.map fun r => (r.1, r.1)).filter (fun d => d.1 == id) = [(id, id)] := by
  have hmem : id ∈ db.categories.rows.map Prod.fst := by
    obtain ⟨c, hc⟩ := isSome_iff_exists.mp h
    exact List.mem_map.mpr ⟨(id, c), get?_eq_some_iff.mp hc, rfl⟩
  calc (db.categories.rows.map fun r => (r.1, r.1)).filter (fun d => d.1 == id)
      = ((db.categories.rows.map Prod.fst).map fun i => (i, i)).filter (fun d => d.1 == id) := by
        rw [List.map_map]
        rfl
    _ = ((db.categories.rows.map Prod.fst).filter (· == id)).map fun i => (i, i) := by
        rw [List.filter_map]
        rfl
    _ = [(id, id)] := by
        rw [filter_beq, count_eq_one_of_mem db.categories.nodup hmem]
        rfl

/-- The total of a category counts the products under it. -/
lemma totals_eq {rows : List (ℤ × ℤ)} (hrows : descend db = some rows)
    (h : (db.categories.get? id).isSome = true) :
    ∃ l, run db.childrenOf db.rounds [id] = some l ∧
      totals db rows id = (l.map db.directCount).sum := by
  have hroot : ∀ d : ℤ × ℤ, ∀ d' ∈ (db.childrenOf d.2).map fun c => (d.1, c),
      (d'.1 == id) = (d.1 == id) := by
    intro d d' hd
    obtain ⟨c, -, rfl⟩ := List.mem_map.mp hd
    rfl
  have hrun := run_filter hroot hrows
  have hpair : ∀ c : ℤ, (fun d : ℤ × ℤ => (db.childrenOf d.2).map fun c => (d.1, c)) (id, c) =
      (db.childrenOf c).map fun c => (id, c) := fun _ => rfl
  rw [filter_roots h, show [(id, id)] = [id].map fun c => (id, c) from rfl,
    run_map hpair, map_eq_some_iff] at hrun
  obtain ⟨l, hl, heq⟩ := hrun
  refine ⟨l, hl, ?_⟩
  unfold totals
  rw [← heq, List.map_map]
  rfl

/-- **The total of a category** is its own products and the totals of its children. -/
theorem totals_add (hac : Acyclic (Up db)) {rows : List (ℤ × ℤ)}
    (hrows : descend db = some rows) (h : (db.categories.get? id).isSome = true) :
    totals db rows id = db.directCount id + ((db.childrenOf id).map (totals db rows)).sum := by
  obtain ⟨l, hl, htotal⟩ := totals_eq hrows h
  choose below hbelow using fun c => run_childrenOf hac [c]
  rw [htotal, RecursiveQuery.sum_singleton db.directCount ⟨_, hl⟩ fun c _ => ⟨_, hbelow c⟩]
  congr 2
  apply map_congr_left
  intro c hc
  obtain ⟨l', hl', htotal'⟩ := totals_eq hrows (mem_ids_iff.mp (mem_childrenOf_iff.mp hc).mem_ids)
  rw [hbelow c, Option.some.injEq] at hl'
  rw [htotal', hl']

end Walks

lemma Sound.isForest {db : CategoryDb} (h : Sound db) : IsForest db := by
  obtain ⟨rows, hrows⟩ := descend_returns h.acyclic
  refine ⟨h.acyclic, handleDetail_returns h.acyclic,
    fun id => run_childrenOf h.acyclic (db.present id), ?_⟩
  unfold handleTree
  rw [hrows, map_some, map_some]
  refine ⟨_, rfl, ?_, ?_⟩
  · rw [List.filter_map]
    simp only [Bool.false_or, Bool.true_or, filter_true]
    rfl
  · intro n hn
    obtain ⟨r, hr, rfl⟩ := List.mem_map.mp hn
    have hr := mem_of_mem_filter hr
    have hpresent : (db.categories.get? r.1).isSome = true := by
      rw [get?_eq_some_iff.mpr hr]
      rfl
    show totals db rows r.1 = db.directCount r.1 + _
    rw [totals_add h.acyclic hrows hpresent, List.filter_map, List.map_map]
    congr 2
    unfold CategoryDb.childrenOf
    rw [List.map_map]
    simp only [Bool.true_or, filter_true]
    -- a row without a parent is listed under 0, which is no id
    have hkind : ∀ k : ℤ × Category, (k.2.parentId == some r.1) = (k.2.parentId.getD 0 == r.1) := by
      intro k
      have hpos := h.positive r hr
      cases k.2.parentId with
      | none => simp [hpos.ne]
      | some p => simp
    rw [filter_congr fun k _ => hkind k]
    rfl

/-! ### Events keep the tree -/

section Events

variable {db db' : CategoryDb}

/-- A change of one parent, which is not under the category. -/
lemma Sound.setParent (h : Sound db) {p : ℤ} (hp : (db.categories.get? p).isSome = true)
    (hfree : ¬ ReflTransGen (Up db) p id) :
    Sound (db.modify id fun c => { c with parentId := some p }) := by
  have hup : ∀ x y, Up (db.modify id fun c => { c with parentId := some p }) x y →
      Up db x y ∨ (x = id ∧ y = p) := by
    rintro x y ⟨c, hc, hcy⟩
    rw [CategoryDb.modify, get?_modify, map_eq_some_iff] at hc
    obtain ⟨old, hold, rfl⟩ := hc
    split at hcy
    · next hx => exact .inr ⟨hx, (some.inj hcy).symm⟩
    · exact .inl ⟨old, hold, hcy⟩
  refine ⟨h.acyclic.redirect hup hfree, ?_, ?_, h.next⟩
  · intro x y hxy
    rw [CategoryDb.modify, get?_modify, isSome_map]
    rcases hup x y hxy with hold | ⟨-, rfl⟩
    · exact h.linked x y hold
    · exact hp
  · intro r hr
    obtain ⟨a, ha, -⟩ := mem_update_iff.mp hr
    exact h.positive (r.1, a) ha

/-- Fewer links, over the same ids or fewer. -/
lemma Sound.weaken (h : Sound db) (hup : ∀ x y, Up db' x y → Up db x y)
    (hids : ∀ x y, Up db' x y → (db.categories.get? y).isSome = true →
      (db'.categories.get? y).isSome = true)
    (hrows : ∀ r ∈ db'.categories.rows, ∃ c, (r.1, c) ∈ db.categories.rows)
    (hnext : 0 < db'.categories.nextId) : Sound db' := by
  refine ⟨h.acyclic.mono hup, ?_, ?_, hnext⟩
  · intro x y hxy
    exact hids x y hxy (h.linked x y (hup x y hxy))
  · intro r hr
    obtain ⟨c, hc⟩ := hrows r hr
    exact h.positive (r.1, c) hc

/-- A change of a row that gives it no new parent. -/
lemma Sound.modify (h : Sound db) {f : Category → Category}
    (hf : ∀ c, (f c).parentId = c.parentId ∨ (f c).parentId = none) : Sound (db.modify id f) := by
  apply h.weaken
  · rintro x y ⟨c, hc, hcy⟩
    rw [CategoryDb.modify, get?_modify, map_eq_some_iff] at hc
    obtain ⟨old, hold, rfl⟩ := hc
    refine ⟨old, hold, ?_⟩
    split at hcy
    · rcases hf old with hsame | hnone
      · rwa [hsame] at hcy
      · rw [hnone] at hcy
        cases hcy
    · exact hcy
  · intro x y _ hy
    rw [CategoryDb.modify, get?_modify, isSome_map]
    exact hy
  · intro r hr
    obtain ⟨a, ha, -⟩ := mem_update_iff.mp hr
    exact ⟨a, ha⟩
  · exact h.next

lemma Sound.insert (h : Sound db) {c : Category}
    (hp : ∀ p, c.parentId = some p → (db.categories.get? p).isSome = true) :
    Sound { db with categories := db.categories.insert c } := by
  have hup : ∀ x y, Up { db with categories := db.categories.insert c } x y →
      Up db x y ∨ (x = db.categories.nextId ∧ c.parentId = some y) := by
    rintro x y ⟨row, hrow, hy⟩
    rw [get?_insert] at hrow
    split at hrow
    · next hx =>
        obtain rfl := some.inj hrow
        exact .inr ⟨hx, hy⟩
    · exact .inl ⟨row, hrow, hy⟩
  have hpresent : ∀ {y : ℤ}, (db.categories.get? y).isSome = true →
      ((db.categories.insert c).get? y).isSome = true := by
    intro y hy
    rw [get?_insert]
    split
    · rfl
    · exact hy
  refine ⟨?_, ?_, ?_, ?_⟩
  · -- the new id is no row's parent, so nothing leads to it
    cases hcp : c.parentId with
    | none =>
        apply h.acyclic.mono
        intro x y hxy
        rcases hup x y hxy with hold | ⟨-, hy⟩
        · exact hold
        · rw [hcp] at hy
          cases hy
    | some p =>
        have hsplit : ∀ x y, Up { db with categories := db.categories.insert c } x y →
            Up db x y ∨ (x = db.categories.nextId ∧ y = p) := by
          intro x y hxy
          rcases hup x y hxy with hold | ⟨hx, hy⟩
          · exact .inl hold
          · rw [hcp, Option.some.injEq] at hy
            exact .inr ⟨hx, hy.symm⟩
        apply h.acyclic.redirect hsplit
        have hfresh : db.categories.get? db.categories.nextId = none := get?_nextId _
        intro hreach
        rcases hreach.cases_tail with hself | ⟨x, -, hx⟩
        · have hsome := hp p hcp
          rw [← hself, hfresh] at hsome
          cases hsome
        · have hsome := h.linked x _ hx
          rw [hfresh] at hsome
          cases hsome
  · intro x y hxy
    rcases hup x y hxy with hold | ⟨-, hy⟩
    · exact hpresent (h.linked x y hold)
    · exact hpresent (hp y hy)
  · intro r hr
    rcases mem_insert_iff.mp hr with hold | rfl
    · exact h.positive r hold
    · exact h.next
  · have hnext := h.next
    show 0 < db.categories.nextId + 1
    omega

lemma Sound.skip (h : Sound db) : Sound { db with categories := db.categories.skip } := by
  have hnext := h.next
  refine ⟨h.acyclic, h.linked, h.positive, ?_⟩
  show 0 < db.categories.nextId + 1
  omega

lemma Sound.remove (h : Sound db) (id : ℤ) : Sound (db.remove id) := by
  have hget : ∀ x, (db.remove id).categories.get? x =
      ((db.categories.get? x).filter fun _ => !(x == id)).map fun c =>
        { c with parentId := c.parentId.filter (· != id) } := by
    intro x
    rw [CategoryDb.remove, get?_update, get?_delete]
  have hup : ∀ x y, Up (db.remove id) x y → Up db x y ∧ y ≠ id := by
    rintro x y ⟨c, hc, hcy⟩
    rw [hget, map_eq_some_iff] at hc
    obtain ⟨old, hold, rfl⟩ := hc
    obtain ⟨hy, hne⟩ := filter_eq_some_iff.mp hcy
    exact ⟨⟨old, (filter_eq_some_iff.mp hold).1, hy⟩, bne_iff_ne.mp hne⟩
  apply h.weaken
  · intro x y hxy
    exact (hup x y hxy).1
  · intro x y hxy hy
    obtain ⟨c, hc⟩ := isSome_iff_exists.mp hy
    rw [hget, hc, isSome_map, filter_some_pos]
    · rfl
    · simpa using (hup x y hxy).2
  · intro r hr
    obtain ⟨a, ha, -⟩ := mem_update_iff.mp hr
    exact ⟨a, mem_of_mem_filter ha⟩
  · exact h.next

/-- A walk up that does not meet `id` shows that `id` is not above. -/
lemma not_reaches_of_search (h : Sound db) {p : ℤ} (hp : (db.categories.get? p).isSome = true)
    (hs : search db.parentsOf (· == id) db.rounds (db.present p) = some false) :
    ¬ ReflTransGen (Up db) p id := by
  obtain ⟨rows, hrows, hnone⟩ := run_of_search hs
  have hstart : p ∈ rows :=
    subset_of_run hrows (mem_present_iff.mpr ⟨rfl, hp⟩)
  have hall : ∀ x, ReflTransGen (Up db) p x → x ∈ rows := by
    intro x hx
    induction hx with
    | refl => exact hstart
    | tail _ hxy ih =>
        exact closed_of_run hrows ih
          (mem_parentsOf_iff.mpr ⟨hxy, h.linked _ _ hxy⟩)
  intro hreach
  have hid := hnone id (hall id hreach)
  rw [beq_self_eq_true] at hid
  cases hid

lemma writeParent_sound {vals : Values} (h : Sound db) (hw : writeParent vals db id = .ok db') :
    Sound db' := by
  unfold writeParent at hw
  split at hw
  · cases hw
    exact h
  next v hv =>
  dsimp only at hw
  split at hw
  · next hpos =>
      split at hw
      · cases hw
      · cases hw
      next hcycle =>
      unfold wouldCreateCycle at hcycle
      rw [if_neg (not_le.mpr hpos)] at hcycle
      split at hcycle
      · cases hcycle
      split at hw
      · cases hw
      next hfk =>
      cases hw
      cases hp : db.categories.get? (parentIn v) with
      | some row =>
          have hsome : (db.categories.get? (parentIn v)).isSome = true := by rw [hp]; rfl
          exact h.setParent hsome (not_reaches_of_search h hsome hcycle)
      | none =>
          -- the foreign key was not checked, so there is no row to change
          have hnone : db.categories.get? id = none := by
            rw [hp, isNone_none] at hfk
            simpa using hfk
          have hsame : (db.modify id fun c => { c with parentId := some (parentIn v) }) = db := by
            unfold CategoryDb.modify
            rw [modify_of_none _ hnone]
          rw [hsame]
          exact h
  · cases hw
    exact h.modify fun _ => .inr rfl

lemma writeOne_sound {vals : Values} (h : Sound db) (hw : writeOne vals db id = .ok db') :
    Sound db' := by
  obtain ⟨named, hname, hparent⟩ := bind_ok_iff.mp hw
  have hnamed : Sound named := by
    unfold writeName at hname
    split at hname
    · cases hname
      exact h
    · split at hname
      · cases hname
      · cases hname
        exact h.modify fun _ => .inl rfl
  refine writeParent_sound ?_ hparent
  unfold writeActive
  split
  · exact hnamed.modify fun _ => .inl rfl
  · exact hnamed

variable {call : CallKwArgs}

lemma handleWrite_sound (h : Sound db) (hw : handleWrite db call = .ok db') : Sound db' := by
  unfold handleWrite at hw
  split at hw
  · cases hw
  · cases hw
    exact h
  · split at hw
    · exact foldlM_keeps Sound (fun _ _ _ hs hone => writeOne_sound hs hone) hw h
    · cases hw

lemma handleUnlink_sound (h : Sound db) (hu : handleUnlink db call = .ok db') : Sound db' := by
  obtain ⟨ids, -, hfold⟩ := bind_ok_iff.mp hu
  refine foldlM_keeps Sound ?_ hfold h
  intro s id s' hs hone
  unfold unlinkOne at hone
  dsimp only at hone
  split at hone
  · cases hone
  · cases hone
    exact hs.remove id

lemma handleCreate_sound (h : Sound db) (hown : ¬ TakesItself db (.create call)) :
    Sound (handleCreate db call).1 := by
  unfold handleCreate
  split
  · exact h
  next c hc =>
  unfold insertCategory
  dsimp only
  split
  · exact h
  next hmax =>
  split
  · next hfk =>
      apply h.insert
      intro p hp
      rw [hp, all_some, Bool.or_eq_true, beq_iff_eq] at hfk
      rcases hfk with rfl | hsome
      · exact absurd ⟨c, hc, hp, not_lt.mp hmax⟩ hown
      · exact hsome
  · exact h.skip

/-- Every event but one keeps the tree. -/
lemma step_sound {e : Request} (h : Sound db) (hown : ¬ TakesItself db e)
    (hs : step db e = some db') : Sound db' := by
  cases e with
  | create call =>
      cases hs
      exact handleCreate_sound h hown
  | write call =>
      unfold step at hs
      dsimp only at hs
      split at hs
      · next hw =>
          cases hs
          exact handleWrite_sound h hw
      · cases hs
        exact h
      · cases hs
  | unlink call =>
      unfold step at hs
      dsimp only at hs
      split at hs
      · next hu =>
          cases hs
          exact handleUnlink_sound h hu
      · cases hs
        exact h

/-- A category that takes itself for its parent makes a cycle. -/
lemma TakesItself.cycle {e : Request} (h : TakesItself db e) (hs : step db e = some db') :
    ¬ Acyclic (Up db') := by
  cases e with
  | write call => exact h.elim
  | unlink call => exact h.elim
  | create call =>
      obtain ⟨c, hc, hp, hmax⟩ := h
      cases hs
      intro hac
      refine hac db.categories.nextId (.single ⟨c, ?_, hp⟩)
      unfold handleCreate
      rw [hc]
      unfold insertCategory
      dsimp only
      rw [if_neg (not_lt.mpr hmax), if_pos]
      · exact get?_insert_self _ _
      · rw [hp, all_some, beq_self_eq_true, Bool.true_or]

end Events

/-! ### Runs -/

/-- Tables a run begins with. -/
structure Start where
  db : CategoryDb
  sound : Sound db

/-- **The tree is a forest, with totals that add up, as long as no category is
created under the id it is about to get**; one that is makes a cycle. -/
theorem category_forest (s : Start) :
    (∀ db, Reaches step (fun db e => ¬ TakesItself db e) s.db db → IsForest db) ∧
      ∀ db e db', Reaches step (fun _ _ => True) s.db db → TakesItself db e →
        step db e = some db' → ¬ IsForest db' := by
  constructor
  · intro db hrun
    exact (hrun.invariant (fun _ _ _ hs hok hstep => step_sound hs hok hstep) s.sound).isForest
  · intro db e db' _ hown hs hforest
    exact hown.cycle hs hforest.acyclic

/-- No categories and no products. -/
def noCategories : Start where
  db := ⟨Table.empty, []⟩
  sound := by
    refine ⟨?_, ?_, ?_, ?_⟩
    · intro a ha
      obtain ⟨b, ⟨c, hc, -⟩, -⟩ := TransGen.head'_iff.mp ha
      cases hc
    · rintro id p ⟨c, hc, -⟩
      cases hc
    · intro r hr
      cases hr
    · decide

/-- `create([{"name": "A", "parent_id": 1}])`. -/
def ownParent : CallKwArgs :=
  ⟨"product.category", "create", .arr [.obj [("name", .str "A"), ("parent_id", .num 1)]], .obj []⟩

/-- The first category can be created under itself. -/
theorem own_parent_cycle : ¬ ∀ (s : Start) (db : CategoryDb),
    Reaches step (fun _ _ => True) s.db db → IsForest db := by
  intro h
  have hown : TakesItself noCategories.db (.create ownParent) :=
    ⟨⟨"A", some 1, true⟩, rfl, rfl, by decide⟩
  exact hown.cycle rfl
    (h noCategories _ (.single ⟨.create ownParent, trivial, rfl⟩)).acyclic

end CategoryTree

end CErp
