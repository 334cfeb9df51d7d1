/-
How close two parameter names are: the edit distance by two rows, and the score
made of it.

A row holds the distances from what has been read of the first name to every
beginning of the second (`row`), and the loop body makes the next row of it
(`cells_eq`), so the last cell of the last row is the edit distance
(`editDistance_eq`).  The score is taken over any rounding of its divisions that
keeps the order, exact arithmetic and doubles among them.
-/
import CErp.DoubleText
import CErp.EditScripts

namespace CErp

open List DoubleText

namespace NameSimilarity

open EditScripts

/-! ### The two rows -/

/-- The cells of a row from its second on: `left` is the cell before, `diag` the one
above that, and the cells above are read along. -/
def cells (x : UInt8) : ℕ → ℕ → List UInt8 → List ℕ → List ℕ
  | left, diag, y :: ys, up :: ups =>
      let cost := if x = y then 0 else 1
      let c := min (up + 1) (min (left + 1) (diag + cost))
      c :: cells x c up ys ups
  | _, _, _, _ => []

/-- The row of the `i`-th byte from the row before it. -/
def nextRow (i : ℕ) (x : UInt8) (b : List UInt8) : List ℕ → List ℕ
  | [] => []
  | diag :: ups => i :: cells x i diag b ups

/-- The rows of the bytes from the `i`-th on. -/
def lastRow (b : List UInt8) : ℕ → List UInt8 → List ℕ → List ℕ
  | _, [], prev => prev
  | i, x :: a, prev => lastRow b (i + 1) a (nextRow i x b prev)

/-- Edit distance, iterative two-row. -/
def editDistance (a b : List UInt8) : ℕ :=
  if a.length = 0 then b.length
  else if b.length = 0 then a.length
  else (lastRow b 1 a (range (b.length + 1))).getLastD 0

/-! ### What a row holds -/

/-- The distances from a list to a beginning, read backwards, and to all that the
next bytes make of it. -/
def row (xs zs : List UInt8) : List UInt8 → List ℕ
  | [] => [distance xs zs]
  | y :: ys => distance xs zs :: row xs (y :: zs) ys

lemma row_eq_cons (xs zs ys : List UInt8) :
    row xs zs ys = distance xs zs :: (row xs zs ys).tail := by
  cases ys <;> rfl

/-- The row before anything is read counts the bytes. -/
lemma row_nil (zs ys : List UInt8) : row [] zs ys = range' zs.length (ys.length + 1) := by
  induction ys generalizing zs with
  | nil => rw [row, distance_nil]; rfl
  | cons y ys ih =>
      rw [row, distance_nil, ih, length_cons, length_cons, range'_succ (n := ys.length + 1)]

/-- **The loop body makes the next row.** -/
theorem cells_eq (x : UInt8) (xs zs ys : List UInt8) :
    cells x (distance (x :: xs) zs) (distance xs zs) ys (row xs zs ys).tail =
      (row (x :: xs) zs ys).tail := by
  induction ys generalizing zs with
  | nil => rfl
  | cons y ys ih =>
      have ih := ih (y :: zs)
      rw [row, tail_cons, row, tail_cons, row_eq_cons xs (y :: zs) ys,
        row_eq_cons (x :: xs) (y :: zs) ys, cells, ← distance_cons, ih]

lemma nextRow_eq (x : UInt8) (xs b : List UInt8) :
    nextRow (xs.length + 1) x b (row xs [] b) = row (x :: xs) [] b := by
  have h := cells_eq x xs [] b
  rw [distance_nil_right, distance_nil_right] at h
  rw [row_eq_cons xs [] b, row_eq_cons (x :: xs) [] b, nextRow, distance_nil_right,
    distance_nil_right, ← length_cons (a := x), h]

lemma lastRow_eq (b xs a : List UInt8) :
    lastRow b (xs.length + 1) a (row xs [] b) = row (a.reverse ++ xs) [] b := by
  induction a generalizing xs with
  | nil => rfl
  | cons x a ih =>
      rw [lastRow, nextRow_eq, ← length_cons (a := x), ih, reverse_cons, append_assoc,
        singleton_append]

lemma getLastD_row (xs zs ys : List UInt8) (k : ℕ) :
    (row xs zs ys).getLastD k = distance xs (ys.reverse ++ zs) := by
  induction ys generalizing zs k with
  | nil => rfl
  | cons y ys ih =>
      rw [row, getLastD_cons, ih, reverse_cons, append_assoc, singleton_append]

/-- **The two rows compute the edit distance.** -/
theorem editDistance_eq (a b : List UInt8) : editDistance a b = distance a b := by
  unfold editDistance
  split
  · next h => rw [eq_nil_of_length_eq_zero h, distance_nil]
  · split
    · next h => rw [eq_nil_of_length_eq_zero h, distance_nil_right]
    · have hfirst : range (b.length + 1) = row [] [] b := by
        rw [row_nil, range_eq_range']
        rfl
      have hrow := lastRow_eq b [] a
      rw [hfirst, show (1 : ℕ) = ([] : List UInt8).length + 1 from rfl, hrow, getLastD_row,
        append_nil, append_nil, distance_reverse]

/-! ### The score -/

/-- The score of two names, over a rounding of the numbers it goes through. -/
def nameSimilarity (round : ℚ → ℚ) (a b : List UInt8) : ℚ :=
  if a = [] ∨ b = [] then 0
  else if a = b then 1
  else
    let longer := max a.length b.length
    let score := round (1 - round (round (editDistance a b) / round longer))
    let shorter := min a.length b.length
    let score :=
      if 4 ≤ shorter ∧ (b <:+: a ∨ a <:+: b) then max score (round (4 / 5)) else score
    if score < 0 then 0 else score

/-- A rounding that keeps the order, zero and one. -/
structure KeepsOrder (round : ℚ → ℚ) : Prop where
  mono : ∀ {x y : ℚ}, 0 ≤ x → x ≤ y → round x ≤ round y
  zero : round 0 = 0
  one : round 1 = 1

lemma keepsOrder_id : KeepsOrder id where
  mono _ h := h
  zero := rfl
  one := rfl

lemma keepsOrder_nearest : KeepsOrder nearest where
  mono := nearest_mono
  zero := nearest_zero
  one := nearest_one

namespace KeepsOrder

variable {round : ℚ → ℚ} (h : KeepsOrder round) {x y : ℚ}

include h

lemma nonneg (hx : 0 ≤ x) : 0 ≤ round x := h.zero ▸ h.mono (le_refl 0) hx

lemma le_one (hx : 0 ≤ x) (hle : x ≤ 1) : round x ≤ 1 := h.one ▸ h.mono hx hle

/-- A part of a whole is between nothing and one. -/
lemma quotient_mem (hx : 0 ≤ x) (hxy : x ≤ y) :
    0 ≤ round (round x / round y) ∧ round (round x / round y) ≤ 1 := by
  have hquotient : 0 ≤ round x / round y := div_nonneg (h.nonneg hx) (h.nonneg (hx.trans hxy))
  have hle : round x / round y ≤ 1 := div_le_one_of_le₀ (h.mono hx hxy) (h.nonneg (hx.trans hxy))
  exact ⟨h.nonneg hquotient, h.le_one hquotient hle⟩

lemma rest_mem (hx : 0 ≤ x) (hxy : x ≤ y) :
    0 ≤ round (1 - round (round x / round y)) ∧ round (1 - round (round x / round y)) ≤ 1 := by
  obtain ⟨hnonneg, hle⟩ := h.quotient_mem hx hxy
  exact ⟨h.nonneg (by linarith), h.le_one (by linarith) (by linarith)⟩

end KeepsOrder

section Score

variable {round : ℚ → ℚ} {a b : List UInt8}

lemma editDistance_comm (a b : List UInt8) : editDistance a b = editDistance b a := by
  rw [editDistance_eq, editDistance_eq, distance_comm]

lemma nameSimilarity_comm (round : ℚ → ℚ) (a b : List UInt8) :
    nameSimilarity round a b = nameSimilarity round b a := by
  unfold nameSimilarity
  rw [editDistance_comm a b, max_comm a.length, min_comm a.length]
  simp only [or_comm (a := a = []), eq_comm (a := a) (b := b), or_comm (a := b <:+: a)]

lemma editDistance_le (a b : List UInt8) :
    (editDistance a b : ℚ) ≤ (max a.length b.length : ℕ) := by
  rw [editDistance_eq]
  exact_mod_cast distance_le_max a b

lemma nameSimilarity_mem (h : KeepsOrder round) (a b : List UInt8) :
    0 ≤ nameSimilarity round a b ∧ nameSimilarity round a b ≤ 1 := by
  have hscore := h.rest_mem (Nat.cast_nonneg (editDistance a b)) (editDistance_le a b)
  have hfloor : round (4 / 5) ≤ 1 := h.le_one (by norm_num) (by norm_num)
  have hclip : ∀ {s : ℚ}, s ≤ 1 → 0 ≤ (if s < 0 then 0 else s) ∧ (if s < 0 then 0 else s) ≤ 1 := by
    intro s hs
    split
    · norm_num
    · next hneg => exact ⟨not_lt.mp hneg, hs⟩
  unfold nameSimilarity
  split
  · norm_num
  · split
    · norm_num
    · apply hclip
      split
      · exact max_le hscore.2 hfloor
      · exact hscore.2

/-- What is short of one stays short of it when rounded. -/
structure KeepsBelow (round : ℚ → ℚ) (most : ℚ) : Prop where
  floor : round (4 / 5) < 1
  rest : ∀ d n : ℚ, 1 ≤ d → d ≤ n → n ≤ most → round (1 - round (round d / round n)) < 1

lemma keepsBelow_id (most : ℚ) : KeepsBelow id most where
  floor := by norm_num
  rest d n hd hdn _ := by
    have hpos : 0 < d / n := div_pos (by linarith) (by linarith)
    simp only [id]
    linarith

lemma keepsBelow_nearest : KeepsBelow nearest (2 ^ 53) := by
  have hbelow : ∀ {x : ℚ}, 0 ≤ x → x ≤ 1 - 2 ^ (-53 : ℤ) → nearest x < 1 := by
    intro x hx hle
    have hmono := nearest_mono hx hle
    rw [nearest_pred_one] at hmono
    have hpos : (0 : ℚ) < 2 ^ (-53 : ℤ) := by norm_num
    linarith
  refine ⟨hbelow (by norm_num) (by norm_num), ?_⟩
  intro d n hd hdn hn
  have hone : 1 ≤ nearest d := by
    have h := nearest_mono (by norm_num) hd
    rwa [nearest_one] at h
  have hmost : nearest n ≤ 2 ^ 53 := by
    have h := nearest_mono (by linarith) hn
    have hpower := nearest_zpow (e := 53) (by decide)
    rw [zpow_ofNat] at hpower
    rwa [hpower] at h
  have hpos : 0 < nearest n :=
    lt_of_lt_of_le (by linarith) (nearest_mono (by linarith) hdn)
  -- a byte out of so many still counts
  have hquotient : (2 : ℚ) ^ (-53 : ℤ) ≤ nearest d / nearest n := by
    rw [le_div_iff₀ hpos]
    calc (2 : ℚ) ^ (-53 : ℤ) * nearest n ≤ 2 ^ (-53 : ℤ) * 2 ^ 53 :=
          mul_le_mul_of_nonneg_left hmost (by norm_num)
      _ = 1 := by norm_num
      _ ≤ nearest d := hone
  have hround := nearest_mono (by norm_num) hquotient
  rw [nearest_zpow (by decide)] at hround
  have hmem := keepsOrder_nearest.quotient_mem (by linarith) hdn
  exact hbelow (by linarith) (by linarith)

lemma nameSimilarity_eq_one_iff {most : ℚ} (hbelow : KeepsBelow round most)
    (hmost : (max a.length b.length : ℕ) ≤ most) :
    nameSimilarity round a b = 1 ↔ a = b ∧ a ≠ [] := by
  unfold nameSimilarity
  split
  · next hempty =>
      constructor
      · intro hone
        norm_num at hone
      · rintro ⟨rfl, hne⟩
        exact absurd (or_self_iff.mp hempty) hne
  · next hempty =>
      split
      · next heq => exact ⟨fun _ => ⟨heq, fun hnil => hempty (.inl hnil)⟩, fun _ => rfl⟩
      · next hne =>
          have hd : (1 : ℚ) ≤ editDistance a b := by
            rw [editDistance_eq]
            have hpos : 0 < distance a b :=
              Nat.pos_of_ne_zero fun hzero => hne (eq_of_distance_eq_zero hzero)
            exact_mod_cast hpos
          have hscore := hbelow.rest _ _ hd (editDistance_le a b) hmost
          have hlt : ∀ {s : ℚ}, s < 1 → (if s < 0 then 0 else s) < 1 := by
            intro s hs
            split
            · norm_num
            · exact hs
          constructor
          · intro hone
            refine absurd hone (ne_of_lt (hlt ?_))
            split
            · exact max_lt hscore hbelow.floor
            · exact hscore
          · exact fun heq => absurd heq.1 hne

end Score

/-- **`editDistance` is the fewest edits of one byte,** and the score made of it is
symmetric, between 0 and 1, and 1 for equal names that are not empty alone: over
exact divisions for all names, over doubles for all that 2⁵³ bytes hold. -/
theorem editDistance_fewest : (∀ a b, IsLeast {n | Edits n a b} (editDistance a b)) ∧
      (∀ round, round = id ∨ round = nearest → ∀ a b,
        nameSimilarity round a b = nameSimilarity round b a ∧
          0 ≤ nameSimilarity round a b ∧ nameSimilarity round a b ≤ 1) ∧
      (∀ a b, nameSimilarity id a b = 1 ↔ a = b ∧ a ≠ []) ∧
      (∀ a b, a.length ≤ 2 ^ 53 → b.length ≤ 2 ^ 53 →
        (nameSimilarity nearest a b = 1 ↔ a = b ∧ a ≠ [])) := by
  refine ⟨?_, ?_, ?_, ?_⟩
  · intro a b
    rw [editDistance_eq]
    exact isLeast_distance a b
  · intro round hround a b
    refine ⟨nameSimilarity_comm round a b, ?_⟩
    rcases hround with rfl | rfl
    · exact nameSimilarity_mem keepsOrder_id a b
    · exact nameSimilarity_mem keepsOrder_nearest a b
  · intro a b
    exact nameSimilarity_eq_one_iff (keepsBelow_id _) (le_refl _)
  · intro a b ha hb
    exact nameSimilarity_eq_one_iff keepsBelow_nearest (by exact_mod_cast max_le ha hb)

end NameSimilarity

end CErp
