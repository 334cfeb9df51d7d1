/-
A recursive query: rows to start from, and the rows each row brings in the next
round (`WITH RECURSIVE … UNION ALL …`).  The rounds go on until one brings
nothing, so the query of a relation with a cycle never returns.

`Returns` says what a query returns; it returns one thing only, and appending
two starts appends the results (`returns_append`).  Hence the rows below a node
are the node and the rows below each of its successors (`returns_singleton`),
and a weight summed over them is the node's own and the sums of its successors
(`sum_singleton`).

`Acyclic` relations have a rank on any finite set (`rank_lt`), which bounds the
rounds (`run_of_acyclic`); `Acyclic.redirect` is what a change of one edge
leaves of acyclicity.
-/
import Mathlib.Algebra.BigOperators.Group.List.Basic
import Mathlib.Data.Finset.Card

namespace RecursiveQuery

open List

variable {α β : Type*}

/-! ### Rounds -/

/-- The rows of at most so many rounds, `none` when there are rounds left. -/
def run (join : α → List α) : ℕ → List α → Option (List α)
  | _, [] => some []
  | 0, _ :: _ => none
  | n + 1, a :: l => (run join n ((a :: l).flatMap join)).map fun rows => (a :: l) ++ rows

/-- The query that starts from `start` returns these rows. -/
def Returns (join : α → List α) (start rows : List α) : Prop := ∃ n, run join n start = some rows

variable {n : ℕ}

section Run

variable {join : α → List α}

@[simp] lemma run_nil (n : ℕ) : run join n [] = some [] := by
  cases n with
  | zero => rfl
  | succ n => rfl

/-- A round of a start that may be empty. -/
lemma run_succ (n : ℕ) (l : List α) :
    run join (n + 1) l = (run join n (l.flatMap join)).map fun rows => l ++ rows := by
  cases l with
  | nil => rw [flatMap_nil, run_nil, run_nil]; rfl
  | cons a l => rfl

variable {l rows : List α}

/-- More rounds find nothing new. -/
lemma run_mono (h : run join n l = some rows) : run join (n + 1) l = some rows := by
  induction n generalizing l rows with
  | zero =>
      cases l with
      | nil => exact h
      | cons a l => cases h
  | succ n ih =>
      rw [run_succ, Option.map_eq_some_iff] at h ⊢
      obtain ⟨rest, hrest, rfl⟩ := h
      exact ⟨rest, ih hrest, rfl⟩

lemma run_le {m : ℕ} (hnm : n ≤ m) (h : run join n l = some rows) : run join m l = some rows := by
  induction hnm with
  | refl => exact h
  | step _ ih => exact run_mono ih

lemma Returns.unique {rows' : List α} (h : Returns join l rows) (h' : Returns join l rows') :
    rows = rows' := by
  obtain ⟨n, hn⟩ := h
  obtain ⟨m, hm⟩ := h'
  have hn' := run_le (Nat.le_max_left n m) hn
  rw [run_le (Nat.le_max_right n m) hm] at hn'
  exact (Option.some.inj hn').symm

lemma returns_nil : Returns join [] [] := ⟨0, rfl⟩

/-- One node: itself, and what its successors bring. -/
lemma returns_singleton {a : α} :
    Returns join [a] rows ↔ ∃ rest, Returns join (join a) rest ∧ rows = a :: rest := by
  constructor
  · rintro ⟨n, hn⟩
    have hn' := run_mono hn
    rw [run_succ, flatMap_singleton, Option.map_eq_some_iff] at hn'
    obtain ⟨rest, hrest, rfl⟩ := hn'
    exact ⟨rest, ⟨n, hrest⟩, rfl⟩
  · rintro ⟨rest, ⟨n, hn⟩, rfl⟩
    refine ⟨n + 1, ?_⟩
    rw [run_succ, flatMap_singleton, hn]
    rfl

/-- Two starts at once return what each returns, round by round. -/
lemma run_append {l' rows' : List α} (h : run join n l = some rows)
    (h' : run join n l' = some rows') :
    ∃ all, run join n (l ++ l') = some all ∧ all.Perm (rows ++ rows') := by
  induction n generalizing l l' rows rows' with
  | zero =>
      cases l with
      | cons a l => cases h
      | nil =>
          cases l' with
          | cons a l' => cases h'
          | nil =>
              cases h
              cases h'
              exact ⟨[], rfl, List.Perm.refl _⟩
  | succ n ih =>
      rw [run_succ, Option.map_eq_some_iff] at h h'
      obtain ⟨rest, hrest, rfl⟩ := h
      obtain ⟨rest', hrest', rfl⟩ := h'
      obtain ⟨all, hall, hperm⟩ := ih hrest hrest'
      refine ⟨(l ++ l') ++ all, ?_, ?_⟩
      · rw [run_succ, flatMap_append, hall]
        rfl
      · calc (l ++ l' ++ all).Perm (l ++ l' ++ (rest ++ rest')) := hperm.append_left _
          _ = l ++ (l' ++ rest) ++ rest' := by simp only [append_assoc]
          _ |>.Perm (l ++ (rest ++ l') ++ rest') :=
            ((perm_append_comm).append_left l).append_right rest'
          _ = (l ++ rest) ++ (l' ++ rest') := by simp only [append_assoc]

lemma Returns.append {l l' rows rows' : List α} (h : Returns join l rows)
    (h' : Returns join l' rows') :
    ∃ all, Returns join (l ++ l') all ∧ all.Perm (rows ++ rows') := by
  obtain ⟨n, hn⟩ := h
  obtain ⟨m, hm⟩ := h'
  obtain ⟨all, hall, hperm⟩ :=
    run_append (run_le (Nat.le_max_left n m) hn) (run_le (Nat.le_max_right n m) hm)
  exact ⟨all, ⟨_, hall⟩, hperm⟩

/-- The rows of several starts. -/
lemma returns_flatMap {f : α → List α} (h : ∀ a ∈ l, Returns join [a] (f a)) :
    ∃ all, Returns join l all ∧ all.Perm (l.flatMap f) := by
  induction l with
  | nil => exact ⟨[], returns_nil, List.Perm.refl _⟩
  | cons a l ih =>
      rw [forall_mem_cons] at h
      obtain ⟨rest, hrest, hperm⟩ := ih h.2
      obtain ⟨all, hall, hperm'⟩ := h.1.append hrest
      exact ⟨all, hall, hperm'.trans (hperm.append_left (f a))⟩

/-- **A weight over the rows of a node** is its own and that of its successors. -/
theorem sum_singleton {M : Type*} [AddCommMonoid M] {a : α} {f : α → List α} (w : α → M)
    (h : Returns join [a] rows) (hf : ∀ b ∈ join a, Returns join [b] (f b)) :
    (rows.map w).sum = w a + ((join a).map fun b => ((f b).map w).sum).sum := by
  obtain ⟨all, hall, hperm⟩ := returns_flatMap hf
  obtain ⟨rest, hrest, rfl⟩ := returns_singleton.mp h
  rw [← hrest.unique hall] at hperm
  rw [map_cons, sum_cons, (hperm.map w).sum_eq, map_flatMap, flatMap_def, sum_flatten, map_map]
  rfl

/-- A query whose rounds go down returns. -/
lemma run_of_rank {r : α → ℕ} (hr : ∀ a, ∀ b ∈ join a, r b < r a) (hl : ∀ a ∈ l, r a < n) :
    ∃ rows, run join n l = some rows := by
  induction n generalizing l with
  | zero =>
      cases l with
      | nil => exact ⟨[], rfl⟩
      | cons a l => exact absurd (hl a mem_cons_self) (Nat.not_lt_zero _)
  | succ n ih =>
      have hnext : ∀ b ∈ l.flatMap join, r b < n := by
        intro b hb
        obtain ⟨a, ha, hba⟩ := mem_flatMap.mp hb
        have h1 := hl a ha
        have h2 := hr a b hba
        omega
      obtain ⟨rows, hrows⟩ := ih hnext
      exact ⟨l ++ rows, by rw [run_succ, hrows]; rfl⟩

lemma subset_of_run (h : run join n l = some rows) : l ⊆ rows := by
  cases n with
  | zero =>
      cases l with
      | nil => exact nil_subset _
      | cons a l => cases h
  | succ n =>
      rw [run_succ, Option.map_eq_some_iff] at h
      obtain ⟨rest, -, rfl⟩ := h
      exact subset_append_left l rest

/-- What the start has and every round hands on, all rows have. -/
lemma forall_of_run {p : α → Prop} (h : run join n l = some rows) (hl : ∀ a ∈ l, p a)
    (hjoin : ∀ a, p a → ∀ b ∈ join a, p b) : ∀ a ∈ rows, p a := by
  induction n generalizing l rows with
  | zero =>
      cases l with
      | nil =>
          cases h
          exact hl
      | cons a l => cases h
  | succ n ih =>
      rw [run_succ, Option.map_eq_some_iff] at h
      obtain ⟨rest, hrest, rfl⟩ := h
      rw [forall_mem_append]
      refine ⟨hl, ih hrest ?_⟩
      intro b hb
      obtain ⟨a, ha, hb⟩ := mem_flatMap.mp hb
      exact hjoin a (hl a ha) b hb

/-- What a query returns is closed under its rounds. -/
lemma closed_of_run (h : run join n l = some rows) {a b : α} (ha : a ∈ rows) (hb : b ∈ join a) :
    b ∈ rows := by
  induction n generalizing l rows with
  | zero =>
      cases l with
      | nil =>
          cases h
          cases ha
      | cons a l => cases h
  | succ n ih =>
      rw [run_succ, Option.map_eq_some_iff] at h
      obtain ⟨rest, hrest, rfl⟩ := h
      rcases mem_append.mp ha with ha | ha
      · exact mem_append_right l (subset_of_run hrest (mem_flatMap.mpr ⟨a, ha, hb⟩))
      · exact mem_append_right l (ih hrest ha)

/-- `SELECT 1 … WHERE p LIMIT 1` over a recursive query: the rounds stop at the
first row that meets `p`. -/
def search (join : α → List α) (p : α → Bool) : ℕ → List α → Option Bool
  | _, [] => some false
  | 0, _ :: _ => none
  | n + 1, a :: l =>
      if (a :: l).any p then some true else search join p n ((a :: l).flatMap join)

/-- A search that finds nothing has seen what the query returns. -/
lemma run_of_search {p : α → Bool} (h : search join p n l = some false) :
    ∃ rows, run join n l = some rows ∧ ∀ a ∈ rows, p a = false := by
  induction n generalizing l with
  | zero =>
      cases l with
      | nil => exact ⟨[], rfl, by simp⟩
      | cons a l => cases h
  | succ n ih =>
      cases l with
      | nil => exact ⟨[], rfl, by simp⟩
      | cons a l =>
          unfold search at h
          split at h
          · cases h
          · next hany =>
              obtain ⟨rest, hrest, hnone⟩ := ih h
              refine ⟨(a :: l) ++ rest, by rw [run_succ, hrest]; rfl, ?_⟩
              rw [forall_mem_append]
              refine ⟨fun b hb => ?_, hnone⟩
              exact eq_false_of_ne_true fun hp => hany (List.any_eq_true.mpr ⟨b, hb, hp⟩)

/-- A query over rows that carry something along. -/
lemma run_map {join' : β → List β} {f : α → β} (hf : ∀ a, join' (f a) = (join a).map f)
    (n : ℕ) (l : List α) : run join' n (l.map f) = (run join n l).map (List.map f) := by
  induction n generalizing l with
  | zero =>
      cases l with
      | nil => rfl
      | cons a l => rfl
  | succ n ih =>
      have hnext : (l.map f).flatMap join' = (l.flatMap join).map f := by
        rw [flatMap_map, map_flatMap]
        exact flatMap_congr fun a _ => hf a
      rw [run_succ, run_succ, hnext, ih, Option.map_map, Option.map_map]
      congr 1
      funext rows
      exact (map_append).symm

lemma filter_flatMap_join {p : α → Bool} (hp : ∀ a, ∀ b ∈ join a, p b = p a) (l : List α) :
    (l.filter p).flatMap join = (l.flatMap join).filter p := by
  induction l with
  | nil => rfl
  | cons a l ih =>
      rw [flatMap_cons, filter_append, ← ih]
      cases ha : p a with
      | true =>
          have hall : ∀ b ∈ join a, p b = true := fun b hb => (hp a b hb).trans ha
          rw [filter_cons_of_pos ha, flatMap_cons, filter_eq_self.mpr hall]
      | false =>
          have hnone : ∀ b ∈ join a, ¬ p b = true := by
            intro b hb
            rw [hp a b hb, ha]
            exact Bool.false_ne_true
          rw [filter_cons_of_neg (by rw [ha]; exact Bool.false_ne_true),
            filter_eq_nil_iff.mpr hnone, nil_append]

/-- The rows of one kind, where a row brings rows of its own kind. -/
lemma run_filter {p : α → Bool} (hp : ∀ a, ∀ b ∈ join a, p b = p a)
    (h : run join n l = some rows) : run join n (l.filter p) = some (rows.filter p) := by
  induction n generalizing l rows with
  | zero =>
      cases l with
      | nil =>
          cases h
          rfl
      | cons a l => cases h
  | succ n ih =>
      rw [run_succ, Option.map_eq_some_iff] at h
      obtain ⟨rest, hrest, rfl⟩ := h
      rw [run_succ, filter_flatMap_join hp, ih hrest, filter_append]
      rfl

end Run

/-! ### Relations without a cycle -/

open Relation

/-- Nothing leads back to itself. -/
def Acyclic (R : α → α → Prop) : Prop := ∀ a, ¬ TransGen R a a

variable {R : α → α → Prop}

lemma Acyclic.mono {S : α → α → Prop} (hR : Acyclic R) (h : ∀ a b, S a b → R a b) :
    Acyclic S := fun a ha => hR a (TransGen.mono h _ _ ha)

lemma Acyclic.swap (hR : Acyclic R) : Acyclic fun a b => R b a :=
  fun a ha => hR a (transGen_swap.mp ha)

/-- **An edge is redirected**: what leads from `a` leads to `p` now, which does not lead
to `a`. -/
theorem Acyclic.redirect {S : α → α → Prop} {a p : α} (hR : Acyclic R)
    (hS : ∀ x y, S x y → R x y ∨ (x = a ∧ y = p)) (hp : ¬ ReflTransGen R p a) : Acyclic S := by
  -- a path of the new relation is one of the old, or passes from `a` to `p`
  have hpath : ∀ x y, TransGen S x y →
      TransGen R x y ∨ (ReflTransGen R x a ∧ ReflTransGen R p y) := by
    intro x y h
    induction h with
    | single hxy =>
        rcases hS _ _ hxy with hR' | ⟨rfl, rfl⟩
        · exact .inl (.single hR')
        · exact .inr ⟨.refl, .refl⟩
    | tail _ hyz ih =>
        rcases hS _ _ hyz with hR' | ⟨rfl, rfl⟩
        · rcases ih with ih | ⟨hxa, hpy⟩
          · exact .inl (ih.tail hR')
          · exact .inr ⟨hxa, hpy.tail hR'⟩
        · rcases ih with ih | ⟨hxa, -⟩
          · exact .inr ⟨ih.to_reflTransGen, .refl⟩
          · exact .inr ⟨hxa, .refl⟩
  intro x hx
  rcases hpath x x hx with h | ⟨hxa, hpx⟩
  · exact hR x h
  · exact hp (hpx.trans hxa)

open Classical in
/-- How many members of a finite set a node leads to. -/
noncomputable def rank (s : Finset α) (R : α → α → Prop) (a : α) : ℕ :=
  (s.filter fun b => TransGen R a b).card

lemma rank_lt (hR : Acyclic R) {s : Finset α} {a b : α} (hb : b ∈ s) (h : R a b) :
    rank s R b < rank s R a := by
  classical
  apply Finset.card_lt_card
  rw [Finset.ssubset_iff_of_subset]
  · refine ⟨b, Finset.mem_filter.mpr ⟨hb, .single h⟩, ?_⟩
    rw [Finset.mem_filter]
    exact fun hbb => hR b hbb.2
  · intro c hc
    rw [Finset.mem_filter] at hc ⊢
    exact ⟨hc.1, hc.2.head h⟩

lemma rank_le (s : Finset α) (R : α → α → Prop) (a : α) : rank s R a ≤ s.card := by
  classical
  exact Finset.card_filter_le _ _

/-- A query along a relation without a cycle, within a finite set, returns after
as many rounds as the set has members, and one. -/
lemma run_of_acyclic {join : α → List α} (hR : Acyclic R) {s : Finset α}
    (hjoin : ∀ a, ∀ b ∈ join a, R a b ∧ b ∈ s) (hn : s.card < n) (l : List α) :
    ∃ rows, run join n l = some rows := by
  apply run_of_rank (r := rank s R)
  · intro a b hb
    obtain ⟨hab, hs⟩ := hjoin a b hb
    exact rank_lt hR hs hab
  · intro a _
    exact (rank_le s R a).trans_lt hn

end RecursiveQuery
