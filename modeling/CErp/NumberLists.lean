/-
Finite sets of numbers, written as text: the numbers in order, with commas
between them.  Two lists without repetition have one text exactly when they have
the same members (`setText_eq_iff`).
-/
import CErp.Decimals
import Mathlib.Data.Finset.Dedup
import Mathlib.Data.List.Sort

namespace NumberLists

open Decimals List

/-! ### Numbers -/

lemma comma_notMem_toString (i : ℤ) : ',' ∉ (toString i).toList := by
  intro h
  exact absurd (mem_toString h) (by decide)

lemma toDigits_injective {n m : ℕ} (h : Nat.toDigits 10 n = Nat.toDigits 10 m) : n = m := by
  rw [← Nat.ofDigitChars_ten_toDigits (n := n), h, Nat.ofDigitChars_ten_toDigits]

lemma toString_injective {i j : ℤ} (h : toString i = toString j) : i = j := by
  have hlist := congrArg String.toList h
  -- a negative number begins with a sign, which is no digit
  have hsign : ∀ n m : ℕ, '-' :: Nat.toDigits 10 (n + 1) ≠ Nat.toDigits 10 m := by
    intro n m heq
    have hmem : '-' ∈ Nat.toDigits 10 m := heq ▸ mem_cons_self
    exact absurd (allDigits_toDigits m _ hmem) (by decide)
  cases i with
  | ofNat n =>
      cases j with
      | ofNat m =>
          have hdigits : Nat.toDigits 10 n = Nat.toDigits 10 m :=
            (toList_natCast n).symm.trans (hlist.trans (toList_natCast m))
          rw [toDigits_injective hdigits]
      | negSucc m =>
          exact (hsign m n (((toList_natCast n).symm.trans
            (hlist.trans (toList_negSucc m))).symm)).elim
  | negSucc n =>
      cases j with
      | ofNat m =>
          exact (hsign n m ((toList_negSucc n).symm.trans (hlist.trans (toList_natCast m)))).elim
      | negSucc m =>
          rw [toList_negSucc, toList_negSucc, List.cons.injEq] at hlist
          have hsucc := toDigits_injective hlist.2
          rw [Nat.add_right_cancel hsucc]

lemma toString_ne_empty (i : ℤ) : (toString i).toList ≠ [] := by
  cases i with
  | ofNat n =>
      rw [show (toString (Int.ofNat n)).toList = Nat.toDigits 10 n from toList_natCast n]
      exact Nat.toDigits_ne_nil
  | negSucc n =>
      rw [toList_negSucc]
      exact cons_ne_nil _ _

/-! ### Lists -/

/-- The numbers with commas between them. -/
def listText (is : List ℤ) : String := ",".intercalate (is.map toString)

lemma toList_listText (is : List ℤ) :
    (listText is).toList = [','].intercalate (is.map fun i => (toString i).toList) := by
  unfold listText
  rw [String.toList_intercalate, map_map]
  rfl

lemma splitOn_listText {is : List ℤ} (h : is ≠ []) :
    (listText is).toList.splitOn ',' = is.map fun i => (toString i).toList := by
  rw [toList_listText]
  apply splitOn_intercalate
  · intro l hl
    obtain ⟨i, -, rfl⟩ := mem_map.mp hl
    exact comma_notMem_toString i
  · exact fun hnil => h (map_eq_nil_iff.mp hnil)

lemma listText_injective {is js : List ℤ} (h : listText is = listText js) : is = js := by
  -- the empty list has the only text without a number
  have hempty : ∀ {ks : List ℤ}, listText [] = listText ks → ks = [] := by
    intro ks hks
    by_contra hne
    have hsplit := splitOn_listText hne
    rw [← hks] at hsplit
    cases ks with
    | nil => exact hne rfl
    | cons k ks =>
        rw [map_cons] at hsplit
        exact toString_ne_empty k (List.cons.inj hsplit).1.symm
  by_cases hi : is = []
  · subst hi
    exact (hempty h).symm
  by_cases hj : js = []
  · subst hj
    exact hempty h.symm
  have hsplit : is.map (fun i => (toString i).toList) = js.map fun i => (toString i).toList := by
    rw [← splitOn_listText hi, h, splitOn_listText hj]
  refine map_injective_iff.mpr ?_ hsplit
  intro i j hij
  exact toString_injective (String.toList_inj.mp hij)

/-! ### Sets -/

/-- The numbers in order, with commas between them. -/
def setText (is : List ℤ) : String := listText (is.insertionSort (· ≤ ·))

lemma setText_eq_iff {is js : List ℤ} (hi : is.Nodup) (hj : js.Nodup) :
    setText is = setText js ↔ is.toFinset = js.toFinset := by
  constructor
  · intro h
    have hsort := listText_injective h
    have hperm : is.Perm js := by
      calc is.Perm (is.insertionSort (· ≤ ·)) := (perm_insertionSort _ _).symm
        _ = js.insertionSort (· ≤ ·) := hsort
        _ |>.Perm js := perm_insertionSort _ _
    exact toFinset_eq_of_perm _ _ hperm
  · intro h
    have hperm : is.Perm js := perm_of_nodup_nodup_toFinset_eq hi hj h
    have hsort : (is.insertionSort (· ≤ ·)).Perm (js.insertionSort (· ≤ ·)) :=
      (perm_insertionSort _ _).trans (hperm.trans (perm_insertionSort _ _).symm)
    unfold setText
    rw [hsort.eq_of_sortedLE sortedLE_insertionSort sortedLE_insertionSort]

end NumberLists
