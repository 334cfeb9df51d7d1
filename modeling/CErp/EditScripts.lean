/-
The edit distance of two lists: the fewest insertions, deletions and substitutions
of one element that turn the one into the other.

`distance` is the recursion over the heads.  A script of so many edits exists
(`edits_distance`), and one edit changes the distance to any list by one at most
(`distance_le_of_edit`), so no script is shorter (`isLeast_distance`).  Symmetry and
the like are read off the scripts.
-/
import Mathlib.Order.Bounds.Basic
import Mathlib.Tactic.Common

namespace EditScripts

variable {α : Type*}

/-- One element inserted, deleted or substituted. -/
inductive Edit : List α → List α → Prop
  | insert (u v : List α) (c : α) : Edit (u ++ v) (u ++ c :: v)
  | delete (u v : List α) (c : α) : Edit (u ++ c :: v) (u ++ v)
  | substitute (u v : List α) (c d : α) : Edit (u ++ c :: v) (u ++ d :: v)

/-- So many edits, one after the other. -/
inductive Edits : ℕ → List α → List α → Prop
  | refl (a : List α) : Edits 0 a a
  | step {n : ℕ} {a b c : List α} : Edit a b → Edits n b c → Edits (n + 1) a c

/-! ### Scripts -/

section Scripts

variable {n m : ℕ} {a b c : List α}

lemma Edit.edits (h : Edit a b) : Edits 1 a b := .step h (.refl b)

lemma Edits.trans (h : Edits n a b) (h' : Edits m b c) : Edits (n + m) a c := by
  induction h with
  | refl => rwa [Nat.zero_add]
  | step hedit _ ih =>
      rw [Nat.add_right_comm]
      exact .step hedit (ih h')

lemma Edit.symm (h : Edit a b) : Edit b a := by
  cases h with
  | insert u v c => exact .delete u v c
  | delete u v c => exact .insert u v c
  | substitute u v c d => exact .substitute u v d c

lemma Edits.symm (h : Edits n a b) : Edits n b a := by
  induction h with
  | refl => exact .refl _
  | step hedit _ ih => exact ih.trans hedit.symm.edits

lemma Edit.cons (x : α) (h : Edit a b) : Edit (x :: a) (x :: b) := by
  cases h with
  | insert u v c => exact .insert (x :: u) v c
  | delete u v c => exact .delete (x :: u) v c
  | substitute u v c d => exact .substitute (x :: u) v c d

lemma Edits.cons (x : α) (h : Edits n a b) : Edits n (x :: a) (x :: b) := by
  induction h with
  | refl => exact .refl _
  | step hedit _ ih => exact .step (hedit.cons x) ih

lemma Edit.reverse (h : Edit a b) : Edit a.reverse b.reverse := by
  cases h with
  | insert u v c =>
      have h := Edit.insert v.reverse u.reverse c
      simpa using h
  | delete u v c =>
      have h := Edit.delete v.reverse u.reverse c
      simpa using h
  | substitute u v c d =>
      have h := Edit.substitute v.reverse u.reverse c d
      simpa using h

lemma Edits.reverse (h : Edits n a b) : Edits n a.reverse b.reverse := by
  induction h with
  | refl => exact .refl _
  | step hedit _ ih => exact .step hedit.reverse ih

lemma Edits.eq_of_zero (h : Edits 0 a b) : a = b := by
  cases h
  rfl

/-- A list is inserted element by element. -/
lemma edits_nil (b : List α) : Edits b.length [] b := by
  induction b with
  | nil => exact .refl []
  | cons y b ih => exact .step (.insert [] [] y) (ih.cons y)

end Scripts

/-! ### The recursion -/

variable [DecidableEq α]

def distance : List α → List α → ℕ
  | [], b => b.length
  | a, [] => a.length
  | x :: a, y :: b =>
      min (distance a (y :: b) + 1)
        (min (distance (x :: a) b + 1) (distance a b + if x = y then 0 else 1))
termination_by a b => a.length + b.length

section Distance

variable {x x' y : α} {a b c : List α}

@[simp] lemma distance_nil (b : List α) : distance [] b = b.length := by
  rw [distance]

@[simp] lemma distance_nil_right (a : List α) : distance a [] = a.length := by
  cases a with
  | nil => rw [distance]
  | cons x a =>
      rw [distance]
      exact List.cons_ne_nil x a

lemma distance_cons : distance (x :: a) (y :: b) = min (distance a (y :: b) + 1)
      (min (distance (x :: a) b + 1) (distance a b + if x = y then 0 else 1)) := by
  rw [distance]

lemma cost_le_one : (if x = y then 0 else 1) ≤ 1 := by
  split <;> omega

lemma distance_cons_le : distance (x :: a) b ≤ distance a b + 1 := by
  cases b with
  | nil => simp
  | cons y b =>
      rw [distance_cons]
      exact min_le_left _ _

lemma distance_cons_right_le : distance a (y :: b) ≤ distance a b + 1 := by
  cases a with
  | nil => simp
  | cons x a =>
      rw [distance_cons]
      exact (min_le_right _ _).trans (min_le_left _ _)

lemma distance_cons_cons_le : distance (x :: a) (y :: b) ≤ distance a b + 1 := by
  rw [distance_cons]
  have := cost_le_one (x := x) (y := y)
  omega

/-- The three ways a distance of two heads comes about. -/
lemma distance_cons_cases (x y : α) (a b : List α) :
    distance (x :: a) (y :: b) = distance a (y :: b) + 1 ∨
      distance (x :: a) (y :: b) = distance (x :: a) b + 1 ∨
        distance (x :: a) (y :: b) = distance a b + if x = y then 0 else 1 := by
  rw [distance_cons]
  omega

/-- **There is a script of so many edits.** -/
theorem edits_distance (a b : List α) : Edits (distance a b) a b := by
  induction a, b using distance.induct with
  | case1 b =>
      rw [distance_nil]
      exact edits_nil b
  | case2 a _ =>
      rw [distance_nil_right]
      exact (edits_nil a).symm
  | case3 x a y b ihDelete ihInsert ihBoth =>
      rcases distance_cons_cases x y a b with h | h | h
      · rw [h]
        exact .step (.delete [] a x) ihDelete
      · rw [h]
        exact ihInsert.trans (Edit.insert [] b y).edits
      · rw [h]
        by_cases hxy : x = y
        · rw [if_pos hxy, hxy]
          exact ihBoth.cons y
        · rw [if_neg hxy]
          exact (ihBoth.cons x).trans (Edit.substitute [] b x y).edits

/-! ### One edit -/

lemma distance_le_cons (x : α) (a b : List α) : distance a b ≤ distance (x :: a) b + 1 := by
  induction b with
  | nil =>
      rw [distance_nil_right, distance_nil_right, List.length_cons]
      omega
  | cons y b ih =>
      have hright := distance_cons_right_le (a := a) (y := y) (b := b)
      rcases distance_cons_cases x y a b with h | h | h <;> omega

lemma distance_cons_le_cons (x x' : α) (a b : List α) :
    distance (x :: a) b ≤ distance (x' :: a) b + 1 := by
  induction b with
  | nil => simp
  | cons y b ih =>
      have hleft := distance_cons_le (x := x) (a := a) (b := y :: b)
      have hright := distance_cons_right_le (a := x :: a) (y := y) (b := b)
      have hboth := distance_cons_cons_le (x := x) (y := y) (a := a) (b := b)
      rcases distance_cons_cases x' y a b with h | h | h <;> omega

/-- What holds of two lists holds of them behind one element. -/
lemma distance_le_under_cons (x : α) (h : ∀ c, distance a c ≤ distance b c + 1) (c : List α) :
    distance (x :: a) c ≤ distance (x :: b) c + 1 := by
  induction c with
  | nil =>
      have hnil := h []
      simp only [distance_nil_right, List.length_cons] at hnil ⊢
      omega
  | cons y c ih =>
      have hleft := h (y :: c)
      have hboth := h c
      have hcons := distance_cons (x := x) (y := y) (a := a) (b := c)
      rcases distance_cons_cases x y b c with h | h | h <;> omega

/-- **One edit changes a distance by one at most.** -/
theorem distance_le_of_edit (h : Edit a b) (c : List α) : distance a c ≤ distance b c + 1 := by
  have hunder : ∀ (u : List α) {v w : List α}, (∀ c, distance v c ≤ distance w c + 1) →
      ∀ c, distance (u ++ v) c ≤ distance (u ++ w) c + 1 := by
    intro u v w hvw
    induction u with
    | nil => exact hvw
    | cons x u ih => exact distance_le_under_cons x ih
  cases h with
  | insert u v x => exact hunder u (distance_le_cons x v) c
  | delete u v x => exact hunder u (fun c => distance_cons_le) c
  | substitute u v x y => exact hunder u (distance_cons_le_cons x y v) c

/-- **No script is shorter.** -/
theorem distance_le_of_edits {n : ℕ} (h : Edits n a b) : distance a b ≤ n := by
  have hself : ∀ a : List α, distance a a = 0 := by
    intro a
    induction a with
    | nil => exact distance_nil []
    | cons x a ih =>
        rw [distance_cons, if_pos rfl, ih]
        omega
  induction h with
  | refl a => exact (hself a).le
  | step hedit _ ih =>
      have hle := distance_le_of_edit hedit
      exact (hle _).trans (Nat.add_le_add_right ih 1)

/-- **The distance is the fewest edits.** -/
theorem isLeast_distance (a b : List α) : IsLeast {n | Edits n a b} (distance a b) :=
  ⟨edits_distance a b, fun _ h => distance_le_of_edits h⟩

/-! ### What scripts tell -/

lemma distance_comm (a b : List α) : distance a b = distance b a :=
  le_antisymm (distance_le_of_edits (edits_distance b a).symm)
    (distance_le_of_edits (edits_distance a b).symm)

lemma distance_reverse (a b : List α) : distance a.reverse b.reverse = distance a b := by
  apply le_antisymm
  · exact distance_le_of_edits (edits_distance a b).reverse
  · have h := (edits_distance a.reverse b.reverse).reverse
    rw [List.reverse_reverse, List.reverse_reverse] at h
    exact distance_le_of_edits h

lemma eq_of_distance_eq_zero (h : distance a b = 0) : a = b :=
  Edits.eq_of_zero (h ▸ edits_distance a b)

lemma distance_le_max (a b : List α) : distance a b ≤ max a.length b.length := by
  induction a generalizing b with
  | nil => simp
  | cons x a ih =>
      cases b with
      | nil => simp
      | cons y b =>
          have hboth := distance_cons_cons_le (x := x) (y := y) (a := a) (b := b)
          have ih := ih b
          simp only [List.length_cons]
          omega

end Distance

end EditScripts
