/-
A table whose rows are numbered from a sequence: every row has an identifier
below the next one to be given, and no two rows share one.  Both facts are
fields of the structure, so a table that lacks them cannot be built, and the
operations of a database on it are total.

* `insert` gives the next identifier, `update` changes the contents of rows in
  place, `delete` drops rows.
* `mem_update_iff` and `mem_insert_iff` say what the rows are afterwards.
* the `get?_*` lemmas say what is found under an identifier afterwards.
* `sumOver` adds a quantity up over the rows; the `sumOver_*` lemmas say what
  each operation does to the sum.
-/
import Mathlib.Algebra.Order.BigOperators.Group.List
import Mathlib.Data.List.Nodup
import Mathlib.Tactic.Ring

/-- Numbered rows. -/
structure Table (α : Type*) where
  rows : List (ℤ × α)
  nextId : ℤ
  below : ∀ r ∈ rows, r.1 < nextId
  nodup : (rows.map Prod.fst).Nodup

namespace Table

open List

variable {α : Type*}

def empty : Table α where
  rows := []
  nextId := 1
  below := by simp
  nodup := nodup_nil

/-! ### Operations -/

/-- A new row at the end. -/
def insert (t : Table α) (a : α) : Table α where
  rows := t.rows ++ [(t.nextId, a)]
  nextId := t.nextId + 1
  below := by
    intro r hr
    rcases mem_append.mp hr with h | h
    · have := t.below r h
      omega
    · rw [mem_singleton.mp h]
      show t.nextId < t.nextId + 1
      omega
  nodup := by
    rw [map_append, nodup_append]
    refine ⟨t.nodup, nodup_singleton _, ?_⟩
    intro a ha b hb
    obtain ⟨r, hr, rfl⟩ := mem_map.mp ha
    have := t.below r hr
    simp only [map_cons, map_nil, mem_singleton] at hb
    omega

/-- The next identifier is given, and no row gets it. -/
def skip (t : Table α) : Table α where
  rows := t.rows
  nextId := t.nextId + 1
  below := by
    intro r hr
    have := t.below r hr
    omega
  nodup := t.nodup

/-- The contents of every row in a new version, under the same identifiers. -/
def update (t : Table α) (f : ℤ → α → α) : Table α where
  rows := t.rows.map fun r => (r.1, f r.1 r.2)
  nextId := t.nextId
  below := by
    intro r hr
    obtain ⟨r', hr', rfl⟩ := mem_map.mp hr
    exact t.below r' hr'
  nodup := by
    rw [map_map]
    exact t.nodup

/-- The rows a condition spares. -/
def delete (t : Table α) (p : ℤ → α → Bool) : Table α where
  rows := t.rows.filter fun r => !p r.1 r.2
  nextId := t.nextId
  below := fun r hr => t.below r (mem_of_mem_filter hr)
  nodup := t.nodup.sublist (filter_sublist.map _)

/-- The contents under an identifier. -/
def get? (t : Table α) (id : ℤ) : Option α :=
  (t.rows.find? fun r => r.1 == id).map Prod.snd

/-- A row that meets a condition. -/
def findBy (t : Table α) (p : α → Bool) : Option (ℤ × α) := t.rows.find? fun r => p r.2

/-- A change of the rows a condition selects. -/
def updateWhere (t : Table α) (p : ℤ → α → Bool) (f : α → α) : Table α :=
  t.update fun id a => if p id a then f a else a

/-- A change of one row. -/
def modify (t : Table α) (id : ℤ) (f : α → α) : Table α :=
  t.updateWhere (fun i _ => i == id) f

lemma modify_eq_update (t : Table α) (id : ℤ) (f : α → α) :
    t.modify id f = t.update fun i a => if (i == id) = true then f a else a := rfl

/-! ### The rows afterwards -/

variable {a : α} {t : Table α}

lemma mem_insert_iff {r : ℤ × α} : r ∈ (t.insert a).rows ↔ r ∈ t.rows ∨ r = (t.nextId, a) := by
  simp [insert]

lemma mem_update_iff {f : ℤ → α → α} {r : ℤ × α} :
    r ∈ (t.update f).rows ↔ ∃ a, (r.1, a) ∈ t.rows ∧ f r.1 a = r.2 := by
  obtain ⟨id, b⟩ := r
  simp only [update, mem_map, Prod.mk.injEq, Prod.exists]
  constructor
  · rintro ⟨i, a, hmem, rfl, rfl⟩
    exact ⟨a, hmem, rfl⟩
  · rintro ⟨a, hmem, hb⟩
    exact ⟨id, a, hmem, rfl, hb⟩

variable {id : ℤ}

/-- An identifier names one row. -/
lemma eq_of_mem {b : α} (ha : (id, a) ∈ t.rows) (hb : (id, b) ∈ t.rows) : a = b := by
  have hinj := inj_on_of_nodup_map t.nodup ha hb rfl
  exact (Prod.mk.inj hinj).2

lemma get?_eq_some_iff : t.get? id = some a ↔ (id, a) ∈ t.rows := by
  unfold get?
  rcases e : t.rows.find? (fun r => r.1 == id) with - | ⟨i, b⟩
  · have hnone := find?_eq_none.mp e
    rw [e, Option.map_none]
    constructor
    · intro h
      cases h
    intro hmem
    exact absurd (beq_self_eq_true id) (hnone _ hmem)
  · have hmem := mem_of_find?_eq_some e
    have hid : i = id := by simpa using find?_some e
    subst hid
    rw [e, Option.map_some, Option.some.injEq]
    constructor
    · rintro rfl
      exact hmem
    · intro h
      exact eq_of_mem hmem h

@[simp] lemma get?_skip (t : Table α) (id : ℤ) : t.skip.get? id = t.get? id := rfl

/-- What holds of every row can be checked row by row. -/
lemma forall_get?_iff {p : ℤ → α → Prop} :
    (∀ id a, t.get? id = some a → p id a) ↔ ∀ r ∈ t.rows, p r.1 r.2 := by
  constructor
  · intro h r hr
    exact h r.1 r.2 (get?_eq_some_iff.mpr hr)
  · intro h id a ha
    exact h (id, a) (get?_eq_some_iff.mp ha)

lemma of_findBy_eq_some {p : α → Bool} (h : t.findBy p = some (id, a)) :
    t.get? id = some a ∧ p a = true := by
  obtain ⟨hp, -⟩ := find?_eq_some_iff_append.mp h
  exact ⟨get?_eq_some_iff.mpr (mem_of_find?_eq_some h), hp⟩

lemma findBy_eq_none_iff {p : α → Bool} :
    t.findBy p = none ↔ ∀ id a, t.get? id = some a → p a = false := by
  unfold findBy
  rw [find?_eq_none, forall_get?_iff]
  simp only [Bool.not_eq_true]

/-- Where the condition names one row, that row is found. -/
lemma findBy_eq_some {p : α → Bool} (h : t.get? id = some a) (hp : p a = true)
    (hone : ∀ i b, t.get? i = some b → p b = true → i = id) : t.findBy p = some (id, a) := by
  cases hfind : t.findBy p with
  | none =>
      have hfalse := findBy_eq_none_iff.mp hfind id a h
      rw [hp] at hfalse
      cases hfalse
  | some r =>
      obtain ⟨i, b⟩ := r
      obtain ⟨hb, hpb⟩ := of_findBy_eq_some hfind
      obtain rfl := hone i b hb hpb
      rw [h, Option.some.injEq] at hb
      rw [hb]

/-! ### Contents afterwards -/

variable {u : Table α}

/-- Tables with the same rows under an identifier look the same there. -/
lemma get?_congr (h : ∀ a, (id, a) ∈ t.rows ↔ (id, a) ∈ u.rows) : t.get? id = u.get? id := by
  apply Option.ext
  intro a
  rw [get?_eq_some_iff, get?_eq_some_iff]
  exact h a

@[simp] lemma get?_update (t : Table α) (f : ℤ → α → α) (id : ℤ) :
    (t.update f).get? id = (t.get? id).map (f id) := by
  apply Option.ext
  intro b
  rw [get?_eq_some_iff, mem_update_iff, Option.map_eq_some_iff]
  constructor
  · rintro ⟨a, hmem, hb⟩
    exact ⟨a, get?_eq_some_iff.mpr hmem, hb⟩
  · rintro ⟨a, ha, hb⟩
    exact ⟨a, get?_eq_some_iff.mp ha, hb⟩

lemma get?_updateWhere (t : Table α) (p : ℤ → α → Bool) (f : α → α) (id : ℤ) :
    (t.updateWhere p f).get? id = (t.get? id).map fun a => if p id a then f a else a :=
  get?_update t _ id

lemma get?_modify (t : Table α) (id j : ℤ) (f : α → α) :
    (t.modify id f).get? j = (t.get? j).map fun a => if j = id then f a else a := by
  show (t.updateWhere _ f).get? j = _
  rw [get?_updateWhere]
  simp only [beq_iff_eq]

lemma get?_modify_self (t : Table α) (id : ℤ) (f : α → α) :
    (t.modify id f).get? id = (t.get? id).map f := by
  rw [get?_modify]
  simp only [if_true]

lemma get?_modify_of_ne (t : Table α) {j : ℤ} (f : α → α) (h : j ≠ id) :
    (t.modify id f).get? j = t.get? j := by
  rw [get?_modify]
  simp only [if_neg h, Option.map_id']

/-- The identifier to be given next names no row yet. -/
lemma get?_nextId (t : Table α) : t.get? t.nextId = none := by
  rw [Option.eq_none_iff_forall_ne_some]
  intro a ha
  have := t.below _ (get?_eq_some_iff.mp ha)
  omega

lemma get?_insert_self (t : Table α) (a : α) : (t.insert a).get? t.nextId = some a :=
  get?_eq_some_iff.mpr (mem_insert_iff.mpr (.inr rfl))

lemma get?_insert_of_ne (t : Table α) (a : α) (h : id ≠ t.nextId) :
    (t.insert a).get? id = t.get? id := by
  apply get?_congr
  intro b
  rw [mem_insert_iff]
  constructor
  · rintro (hmem | heq)
    · exact hmem
    · exact absurd (Prod.mk.inj heq).1 h
  · exact .inl

lemma lt_nextId_of_get? (h : t.get? id = some a) :
    id < t.nextId := t.below _ (get?_eq_some_iff.mp h)

lemma get?_insert (t : Table α) (a : α) (id : ℤ) :
    (t.insert a).get? id = if id = t.nextId then some a else t.get? id := by
  split
  · next h =>
      rw [h]
      exact get?_insert_self t a
  · next h => exact get?_insert_of_ne t a h

@[ext] lemma ext (hrows : t.rows = u.rows) (hnext : t.nextId = u.nextId) : t = u := by
  cases t
  cases u
  subst hrows
  subst hnext
  rfl

/-- A change that leaves every row as it is. -/
lemma update_eq_self {f : ℤ → α → α} (h : ∀ r ∈ t.rows, f r.1 r.2 = r.2) : t.update f = t := by
  apply ext
  · calc t.rows.map (fun r => (r.1, f r.1 r.2))
        = t.rows.map id := by
          apply map_congr_left
          intro r hr
          exact Prod.ext rfl (h r hr)
      _ = t.rows := map_id _
  · rfl

/-- A change of one row depends on that row only. -/
lemma modify_congr {f g : α → α} (h : t.get? id = some a) (heq : f a = g a) :
    t.modify id f = t.modify id g := by
  apply ext
  · apply map_congr_left
    rintro ⟨i, b⟩ hr
    dsimp only
    split
    · next hi =>
        rw [beq_iff_eq] at hi
        subst hi
        rw [eq_of_mem hr (get?_eq_some_iff.mp h), heq]
    · rfl
  · rfl

/-- A change that leaves the row as it is. -/
lemma modify_eq_self {f : α → α} (h : ∀ a, t.get? id = some a → f a = a) : t.modify id f = t := by
  rw [modify_eq_update, update_eq_self]
  rintro ⟨i, a⟩ hr
  split
  · next hi =>
      rw [beq_iff_eq] at hi
      subst hi
      exact h a (get?_eq_some_iff.mpr hr)
  · rfl

/-- A change of a row that is not there. -/
lemma modify_of_none (f : α → α) (h : t.get? id = none) : t.modify id f = t := by
  apply modify_eq_self
  intro a ha
  rw [h] at ha
  cases ha

/-- Inserting a row and changing it at once. -/
lemma modify_insert (t : Table α) (a : α) (f : α → α) :
    (t.insert a).modify t.nextId f = t.insert (f a) := by
  apply ext
  · have hrow : ∀ r ∈ t.rows, (if (r.1 == t.nextId) = true then f r.2 else r.2) = r.2 := by
      intro r hr
      rw [if_neg]
      rw [beq_iff_eq]
      exact (t.below r hr).ne
    have hold : t.modify t.nextId f = t := by
      rw [modify_eq_update, update_eq_self hrow]
    show List.map _ (t.rows ++ [(t.nextId, a)]) = t.rows ++ [(t.nextId, f a)]
    rw [map_append]
    show (t.modify t.nextId f).rows ++ _ = _
    rw [hold]
    simp
  · rfl

lemma update_insert (t : Table α) (a : α) (f : ℤ → α → α) :
    (t.insert a).update f = (t.update f).insert (f t.nextId a) := by
  apply Table.ext
  · show (t.rows ++ [_]).map _ = t.rows.map _ ++ [_]
    rw [map_append]
    rfl
  · rfl

/-- Changes of a row and of all rows in either order. -/
lemma update_modify (t : Table α) (id : ℤ) {f g : α → α} {f' : ℤ → α → α}
    (h : ∀ a, f' id (f a) = g (f' id a)) :
    (t.modify id f).update f' = (t.update f').modify id g := by
  apply Table.ext
  · show ((t.rows.map _).map _ : List (ℤ × α)) = (t.rows.map _).map _
    rw [map_map, map_map]
    apply map_congr_left
    rintro ⟨i, a⟩ -
    show (i, f' i (if (i == id) = true then f a else a)) =
      (i, if (i == id) = true then g (f' i a) else f' i a)
    split
    · next hi => rw [beq_iff_eq.mp hi, h]
    · rfl
  · rfl

/-! ### Sums over the rows -/

/-- A quantity added up over the rows. -/
def sumOver (t : Table α) (f : ℤ → α → ℤ) : ℤ := (t.rows.map fun r => f r.1 r.2).sum

lemma sumOver_insert (t : Table α) (f : ℤ → α → ℤ) (a : α) :
    (t.insert a).sumOver f = t.sumOver f + f t.nextId a := by
  simp [sumOver, insert]

lemma sumOver_update (t : Table α) (g : ℤ → α → α) (f : ℤ → α → ℤ) :
    (t.update g).sumOver f = t.sumOver fun id a => f id (g id a) := by
  simp only [sumOver, update, map_map]
  rfl

variable {f : ℤ → α → ℤ}

lemma sumOver_congr {g : ℤ → α → ℤ} (h : ∀ r ∈ t.rows, f r.1 r.2 = g r.1 r.2) :
    t.sumOver f = t.sumOver g := by
  unfold sumOver
  rw [map_congr_left h]

/-- A sum depends on what the identifiers name. -/
lemma sumOver_eq_of_get? (h : ∀ id, (t.get? id).map (f id) = (u.get? id).map (f id)) :
    t.sumOver f = u.sumOver f := by
  have hmem : ∀ (v : Table α) (p : ℤ × ℤ), p ∈ v.rows.map (fun r => (r.1, f r.1 r.2)) ↔
      (v.get? p.1).map (f p.1) = some p.2 := by
    rintro v ⟨id, x⟩
    rw [mem_map, Option.map_eq_some_iff]
    constructor
    · rintro ⟨⟨id, a⟩, ha, rfl, rfl⟩
      exact ⟨a, get?_eq_some_iff.mpr ha, rfl⟩
    · rintro ⟨a, ha, hx⟩
      exact ⟨(id, a), get?_eq_some_iff.mp ha, congrArg (Prod.mk id) hx⟩
  have hnodup : ∀ v : Table α, (v.rows.map fun r => (r.1, f r.1 r.2)).Nodup := by
    intro v
    apply List.Nodup.of_map Prod.fst
    rw [map_map]
    exact v.nodup
  have hperm : (t.rows.map fun r => (r.1, f r.1 r.2)).Perm
      (u.rows.map fun r => (r.1, f r.1 r.2)) := by
    rw [perm_ext_iff_of_nodup (hnodup t) (hnodup u)]
    intro p
    rw [hmem t, hmem u, h]
  have hsum := (hperm.map Prod.snd).sum_eq
  rw [map_map, map_map] at hsum
  exact hsum

lemma sumOver_mono {g : ℤ → α → ℤ} (h : ∀ r ∈ t.rows, f r.1 r.2 ≤ g r.1 r.2) :
    t.sumOver f ≤ t.sumOver g := sum_le_sum h

/-- A row in a new version: the sum changes by that row's part. -/
lemma sumOver_modify (f : ℤ → α → ℤ) (g : α → α) (h : t.get? id = some a) :
    (t.modify id g).sumOver f = t.sumOver f - f id a + f id (g a) := by
  have hmem := get?_eq_some_iff.mp h
  obtain ⟨l₁, l₂, hrows⟩ := append_of_mem hmem
  -- no other row has the identifier
  have hother : ∀ r ∈ l₁ ++ l₂, (r.1 == id) = false := by
    intro r hr
    have hnodup := t.nodup
    rw [hrows, map_append, map_cons, nodup_middle, ← map_append, nodup_cons] at hnodup
    rw [beq_eq_false_iff_ne]
    intro hid
    exact hnodup.1 (mem_map.mpr ⟨r, hr, hid⟩)
  have hkeep : ∀ l : List (ℤ × α), (∀ r ∈ l, (r.1 == id) = false) →
      (l.map fun r => f r.1 (if (r.1 == id) = true then g r.2 else r.2)) =
        l.map fun r => f r.1 r.2 := by
    intro l hl
    apply map_congr_left
    intro r hr
    rw [hl r hr]
    rfl
  show (t.update _).sumOver f = _
  rw [sumOver_update]
  simp only [sumOver, hrows, map_append, map_cons, sum_append, sum_cons, beq_self_eq_true, if_true]
  rw [hkeep l₁ fun r hr => hother r (mem_append_left _ hr),
    hkeep l₂ fun r hr => hother r (mem_append_right _ hr)]
  ring

/-- A change that leaves the part of its row alone leaves the sum alone. -/
lemma sumOver_modify_same (t : Table α) (id : ℤ) (f : ℤ → α → ℤ) {g : α → α}
    (h : ∀ a, f id (g a) = f id a) : (t.modify id g).sumOver f = t.sumOver f := by
  show (t.update _).sumOver f = _
  rw [sumOver_update]
  apply sumOver_congr
  rintro ⟨i, a⟩ -
  split
  · next hi =>
      rw [beq_iff_eq.mp hi]
      exact h a
  · rfl

lemma sumOver_add (t : Table α) (f g : ℤ → α → ℤ) :
    (t.sumOver fun id a => f id a + g id a) = t.sumOver f + t.sumOver g := sum_map_add

/-- One part among parts that are not negative. -/
lemma le_sumOver (h : t.get? id = some a) (hf : ∀ i b, t.get? i = some b → 0 ≤ f i b) :
    f id a ≤ t.sumOver f := by
  have hmem : f id a ∈ t.rows.map fun r => f r.1 r.2 :=
    mem_map_of_mem (f := fun r : ℤ × α => f r.1 r.2) (get?_eq_some_iff.mp h)
  apply single_le_sum _ _ hmem
  intro x hx
  obtain ⟨r, hr, rfl⟩ := mem_map.mp hx
  exact hf r.1 r.2 (get?_eq_some_iff.mpr hr)

/-- A sum is not greater when what counts in it counts in the other too. -/
lemma sumOver_le_of_subset (hf : ∀ r ∈ u.rows, 0 ≤ f r.1 r.2)
    (hsub : ∀ r ∈ t.rows, f r.1 r.2 ≠ 0 → r ∈ u.rows) : t.sumOver f ≤ u.sumOver f := by
  have hzero : ∀ l : List (ℤ × α), (l.map fun r => f r.1 r.2).sum =
      ((l.filter fun r => decide (f r.1 r.2 ≠ 0)).map fun r => f r.1 r.2).sum := by
    intro l
    induction l with
    | nil => rfl
    | cons r l ih =>
        by_cases hr : f r.1 r.2 = 0
        · rw [filter_cons_of_neg (by simp [hr]), map_cons, sum_cons, hr, zero_add, ih]
        · rw [filter_cons_of_pos (by simp [hr]), map_cons, map_cons, sum_cons, sum_cons, ih]
  have hnodup : t.rows.Nodup := List.Nodup.of_map Prod.fst t.nodup
  have hsubperm : (t.rows.filter fun r => decide (f r.1 r.2 ≠ 0)).Subperm u.rows := by
    apply subperm_of_subset (hnodup.filter _)
    intro r hr
    obtain ⟨hr, hne⟩ := mem_filter.mp hr
    exact hsub r hr (of_decide_eq_true hne)
  obtain ⟨l, hperm, hlu⟩ := hsubperm
  calc t.sumOver f
      = ((t.rows.filter fun r => decide (f r.1 r.2 ≠ 0)).map fun r => f r.1 r.2).sum := hzero _
    _ = (l.map fun r => f r.1 r.2).sum := (hperm.map _).sum_eq.symm
    _ ≤ (u.rows.map fun r => f r.1 r.2).sum := by
      apply (hlu.map _).sum_le_sum
      intro x hx
      obtain ⟨r, hr, rfl⟩ := mem_map.mp hx
      exact hf r hr

lemma get?_delete (t : Table α) (p : ℤ → α → Bool) (id : ℤ) :
    (t.delete p).get? id = (t.get? id).filter fun a => !p id a := by
  ext a
  rw [get?_eq_some_iff, Option.filter_eq_some_iff, get?_eq_some_iff]
  exact mem_filter

/-- The rows that go take their part of the sum with them. -/
lemma sumOver_delete (t : Table α) (p : ℤ → α → Bool) (f : ℤ → α → ℤ) :
    (t.delete p).sumOver f = t.sumOver f - t.sumOver fun id a => if p id a then f id a else 0 := by
  simp only [sumOver, delete]
  induction t.rows with
  | nil => rfl
  | cons r rs ih =>
      rw [filter_cons, map_cons, map_cons, sum_cons, sum_cons]
      cases hp : p r.1 r.2 with
      | false =>
          rw [if_pos (by rfl), map_cons, sum_cons, ih, if_neg (by decide)]
          omega
      | true =>
          rw [if_neg (by decide), ih, if_pos rfl]
          omega

/-! ### Changes of several rows -/

section ModifyAll

variable {δ : Type*}

/-- Changes of one row each, in turn. -/
def modifyAll (t : Table α) (g : δ → α → α) (cs : List (ℤ × δ)) : Table α :=
  cs.foldl (fun t c => t.modify c.1 (g c.2)) t

@[simp] lemma modifyAll_nil (t : Table α) (g : δ → α → α) : t.modifyAll g [] = t := rfl

lemma modifyAll_cons (t : Table α) (g : δ → α → α) (c : ℤ × δ) (cs : List (ℤ × δ)) :
    t.modifyAll g (c :: cs) = (t.modify c.1 (g c.2)).modifyAll g cs := rfl

variable {cs : List (ℤ × δ)}

lemma get?_modifyAll_of_notMem (t : Table α) (g : δ → α → α) {i : ℤ} (h : i ∉ cs.map Prod.fst) :
    (t.modifyAll g cs).get? i = t.get? i := by
  induction cs generalizing t with
  | nil => rfl
  | cons c cs ih =>
      rw [map_cons, mem_cons, not_or] at h
      rw [modifyAll_cons, ih _ h.2, get?_modify_of_ne _ _ h.1]

lemma get?_modifyAll_of_mem (t : Table α) (g : δ → α → α) {i : ℤ} {d : δ}
    (hnodup : (cs.map Prod.fst).Nodup) (h : (i, d) ∈ cs) :
    (t.modifyAll g cs).get? i = (t.get? i).map (g d) := by
  induction cs generalizing t with
  | nil => cases h
  | cons c cs ih =>
      rw [map_cons, nodup_cons] at hnodup
      rw [modifyAll_cons]
      rcases mem_cons.mp h with rfl | hrest
      · rw [get?_modifyAll_of_notMem _ _ hnodup.1, get?_modify_self]
      · have hne : i ≠ c.1 := by
          rintro rfl
          exact hnodup.1 (mem_map.mpr ⟨_, hrest, rfl⟩)
        rw [ih _ hnodup.2 hrest, get?_modify_of_ne _ _ hne]

variable {g : δ → α → α}

/-- Changes that a view of the rows does not show. -/
lemma update_modifyAll (t : Table α) (cs : List (ℤ × δ)) {f : ℤ → α → α}
    (hg : ∀ i d a, f i (g d a) = f i a) : (t.modifyAll g cs).update f = t.update f := by
  induction cs generalizing t with
  | nil => rfl
  | cons c cs ih =>
      have hsame : ∀ a, f c.1 (g c.2 a) = id (f c.1 a) := hg c.1 c.2
      rw [modifyAll_cons, ih, update_modify t c.1 hsame, modify_eq_update]
      apply update_eq_self
      intro r _
      rw [id, ite_self]

/-- Changes that leave the parts of their rows alone leave the sum alone. -/
lemma sumOver_modifyAll_same (t : Table α) (cs : List (ℤ × δ))
    (hf : ∀ i d a, f i (g d a) = f i a) : (t.modifyAll g cs).sumOver f = t.sumOver f := by
  induction cs generalizing t with
  | nil => rfl
  | cons c cs ih =>
      rw [modifyAll_cons, ih]
      apply sumOver_modify_same
      exact hf c.1 c.2

/-- Changes that add to the parts of their rows add up. -/
lemma sumOver_modifyAll {p : α → Prop} (c : δ → ℤ)
    (hrows : ∀ x ∈ cs, ∃ a, t.get? x.1 = some a ∧ p a) (hp : ∀ d a, p a → p (g d a))
    (hf : ∀ i d a, p a → f i (g d a) = f i a + c d) :
    (t.modifyAll g cs).sumOver f = t.sumOver f + (cs.map fun x => c x.2).sum := by
  induction cs generalizing t with
  | nil => simp
  | cons x cs ih =>
      obtain ⟨a, ha, hpa⟩ := hrows x mem_cons_self
      have hlater : ∀ y ∈ cs, ∃ b, (t.modify x.1 (g x.2)).get? y.1 = some b ∧ p b := by
        intro y hy
        obtain ⟨b, hb, hpb⟩ := hrows y (mem_cons_of_mem _ hy)
        rw [get?_modify, hb]
        refine ⟨_, rfl, ?_⟩
        split
        · exact hp _ _ hpb
        · exact hpb
      rw [modifyAll_cons, ih hlater, sumOver_modify f (g x.2) ha, hf x.1 x.2 a hpa, map_cons,
        sum_cons]
      ring

end ModifyAll

end Table
