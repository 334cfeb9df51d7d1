/-
Decimal numerals: lists of digits, leading zeros allowed, and the numbers they
are read as.

* `value_append`: reading one numeral after another;
* `eq_of_value_eq`: numerals of one length differ by their value;
* `toDigits_value`: a numeral without a leading zero is the one its value is
  written with;
* `fraction`: the digits after a point, down to a unit;
* `mem_toString`: the text of an integer.
-/
import Mathlib.Data.Nat.Digits.Defs

namespace Decimals

open List

/-- The number a list of digits is read as. -/
def value (ds : List Char) : ℕ := Nat.ofDigitChars 10 ds 0

/-- A list of digits. -/
def AllDigits (ds : List Char) : Prop := ∀ c ∈ ds, c.isDigit = true

variable {ds es : List Char}

lemma digit_bounds {c : Char} (h : c.isDigit = true) : 48 ≤ c.toNat ∧ c.toNat ≤ 57 := by
  unfold Char.isDigit at h
  rw [Bool.and_eq_true, decide_eq_true_iff, decide_eq_true_iff] at h
  exact ⟨h.1, h.2⟩

lemma value_nil : value [] = 0 := rfl

lemma value_cons (c : Char) (ds : List Char) :
    value (c :: ds) = (c.toNat - 48) * 10 ^ ds.length + value ds := by
  unfold value
  rw [Nat.ofDigitChars_cons, Nat.ofDigitChars_eq_ofDigitChars_zero, Nat.mul_comm (10 ^ _)]
  simp

lemma value_append (ds es : List Char) :
    value (ds ++ es) = value ds * 10 ^ es.length + value es := by
  unfold value
  rw [Nat.ofDigitChars_append, Nat.ofDigitChars_eq_ofDigitChars_zero, Nat.mul_comm (10 ^ _)]

variable (n : ℕ)

lemma value_toDigits : value (Nat.toDigits 10 n) = n := Nat.ofDigitChars_ten_toDigits

lemma allDigits_toDigits : AllDigits (Nat.toDigits 10 n) := fun _ hc =>
  Nat.isDigit_of_mem_toDigits (by decide) (by decide) hc

lemma value_lt (h : AllDigits ds) : value ds < 10 ^ ds.length := by
  induction ds with
  | nil => exact Nat.one_pos
  | cons c ds ih =>
      have hc := digit_bounds (h c mem_cons_self)
      have hds := ih fun x hx => h x (mem_cons_of_mem c hx)
      rw [value_cons, length_cons, Nat.pow_succ]
      calc (c.toNat - 48) * 10 ^ ds.length + value ds
          < (c.toNat - 48) * 10 ^ ds.length + 10 ^ ds.length := Nat.add_lt_add_left hds _
        _ = (c.toNat - 48 + 1) * 10 ^ ds.length := (Nat.succ_mul _ _).symm
        _ ≤ 10 * 10 ^ ds.length := Nat.mul_le_mul_right _ (by omega)
        _ = 10 ^ ds.length * 10 := Nat.mul_comm _ _

/-- Numerals of one length differ by their value. -/
lemma eq_of_value_eq (hds : AllDigits ds) (hes : AllDigits es) (hlen : ds.length = es.length)
    (h : value ds = value es) : ds = es := by
  induction ds generalizing es with
  | nil => exact (length_eq_zero_iff.mp hlen.symm).symm
  | cons c ds ih =>
      cases es with
      | nil => cases hlen
      | cons d es =>
          have hlen : ds.length = es.length := Nat.succ.inj hlen
          have hds' : AllDigits ds := fun x hx => hds x (mem_cons_of_mem c hx)
          have hes' : AllDigits es := fun x hx => hes x (mem_cons_of_mem d hx)
          have hc := digit_bounds (hds c mem_cons_self)
          have hd := digit_bounds (hes d mem_cons_self)
          rw [value_cons, value_cons, hlen] at h
          -- the first digits are the quotients by the power of ten
          have hquot : ∀ q r : ℕ, r < 10 ^ es.length →
              (q * 10 ^ es.length + r) / 10 ^ es.length = q := by
            intro q r hr
            rw [Nat.mul_comm, Nat.mul_add_div (Nat.pow_pos (by decide)), Nat.div_eq_of_lt hr,
              Nat.add_zero]
          have hfirst : c.toNat - 48 = d.toNat - 48 := by
            have hleft := hquot (c.toNat - 48) (value ds) (hlen ▸ value_lt hds')
            have hright := hquot (d.toNat - 48) (value es) (value_lt hes')
            rw [← hleft, h, hright]
          have hcd : c = d := Char.toNat_inj.mp (by omega)
          rw [hfirst] at h
          rw [hcd, ih hds' hes' hlen (Nat.add_left_cancel h)]

lemma toDigits_head {n : ℕ} (hn : 0 < n) : (Nat.toDigits 10 n).head? ≠ some '0' := by
  intro hzero
  obtain ⟨ds, hds⟩ : ∃ ds, Nat.toDigits 10 n = '0' :: ds := head?_eq_some_iff.mp hzero
  have hdigits : AllDigits ds := fun c hc =>
    allDigits_toDigits n c (hds ▸ mem_cons_of_mem _ hc)
  have hvalue : value ds = n := by
    have h := value_toDigits n
    rw [hds, value_cons] at h
    simpa using h
  cases ds with
  | nil => exact absurd hvalue (Nat.ne_of_lt hn)
  | cons d ds =>
      -- one digit fewer would do
      have hlt := value_lt hdigits
      rw [hvalue] at hlt
      have hle := (Nat.length_toDigits_le_iff (by decide : 1 < 10) (Nat.succ_pos _)).mpr hlt
      rw [hds, length_cons, length_cons] at hle
      exact absurd hle (Nat.not_succ_le_self _)

/-- No numeral is shorter than the one its value is written with. -/
lemma length_toDigits_value_le (h : AllDigits ds) (hne : ds ≠ []) :
    (Nat.toDigits 10 (value ds)).length ≤ ds.length :=
  (Nat.length_toDigits_le_iff (by decide) (length_pos_iff.mpr hne)).mpr (value_lt h)

/-- A numeral without a leading zero has the length its value is written with. -/
lemma toDigits_value (h : AllDigits ds) (hhead : ds.head? ≠ some '0') (hne : ds ≠ []) :
    Nat.toDigits 10 (value ds) = ds := by
  refine eq_of_value_eq (allDigits_toDigits _) h ?_ (value_toDigits _)
  refine le_antisymm (length_toDigits_value_le h hne) ?_
  cases ds with
  | nil => exact absurd rfl hne
  | cons c ds =>
      have hc := digit_bounds (h c mem_cons_self)
      have hc0 : c.toNat ≠ 48 := by
        intro h48
        exact hhead (congrArg some (Char.toNat_inj.mp h48))
      have hge : 10 ^ ds.length ≤ value (c :: ds) := by
        rw [value_cons]
        exact le_add_right (Nat.le_mul_of_pos_left _ (by omega))
      by_contra hlt
      rw [Nat.not_le, length_cons, Nat.lt_succ_iff] at hlt
      cases ds with
      | nil => exact absurd hlt (Nat.not_le_of_lt Nat.length_toDigits_pos)
      | cons d ds =>
          have hsmall := (Nat.length_toDigits_le_iff (by decide : 1 < 10) (Nat.succ_pos _)).mp hlt
          exact absurd hge (Nat.not_le_of_lt hsmall)

/-- Numbers between two that are written with the same length. -/
lemma toDigits_length_between {a b n : ℕ} (ha : a ≤ n) (hb : n ≤ b)
    (hlen : (Nat.toDigits 10 a).length = (Nat.toDigits 10 b).length) :
    (Nat.toDigits 10 n).length = (Nat.toDigits 10 b).length := by
  have hmono : ∀ m m' : ℕ, m ≤ m' → (Nat.toDigits 10 m).length ≤ (Nat.toDigits 10 m').length := by
    intro m m' hle
    refine (Nat.length_toDigits_le_iff (by decide) Nat.length_toDigits_pos).mpr
      (lt_of_le_of_lt hle ?_)
    have hlt := value_lt (allDigits_toDigits m')
    rw [value_toDigits] at hlt
    exact hlt
  exact le_antisymm (hmono n b hb) (hlen ▸ hmono a n ha)

/-! ### Digits after a point -/

/-- The digits after a point, in units of the `k`th decimal; smaller ones are dropped. -/
def fraction (k : ℕ) (ds : List Char) : ℕ := value ds * 10 ^ k / 10 ^ ds.length

lemma fraction_nil (k : ℕ) : fraction k [] = 0 := by
  unfold fraction
  rw [value_nil, Nat.zero_mul, Nat.zero_div]

lemma fraction_zero (h : AllDigits ds) : fraction 0 ds = 0 := by
  unfold fraction
  rw [Nat.pow_zero, Nat.mul_one]
  exact Nat.div_eq_of_lt (value_lt h)

lemma fraction_succ_cons (k : ℕ) (c : Char) (ds : List Char) :
    fraction (k + 1) (c :: ds) = (c.toNat - 48) * 10 ^ k + fraction k ds := by
  unfold fraction
  have hpos : 0 < 10 ^ ds.length := Nat.pow_pos (by decide)
  rw [value_cons, length_cons, Nat.pow_succ 10 k, Nat.pow_succ 10 ds.length, ← Nat.mul_assoc,
    Nat.mul_div_mul_right _ _ (by decide), Nat.add_mul, Nat.mul_right_comm,
    Nat.add_comm, Nat.add_mul_div_right _ _ hpos, Nat.add_comm]

/-- So many decimals hold a number that has no more. -/
lemma fraction_take {j k : ℕ} (h : AllDigits ds) (hlen : ds.length = k) (hj : j ≤ k)
    (hdvd : 10 ^ (k - j) ∣ value ds) : fraction k (ds.take j) = value ds := by
  have hsplit : value ds = value (ds.take j) * 10 ^ (k - j) + value (ds.drop j) := by
    conv_lhs => rw [← take_append_drop j ds]
    rw [value_append, length_drop, hlen]
  have hlt : value (ds.drop j) < 10 ^ (k - j) := by
    have hdigits : AllDigits (ds.drop j) := fun c hc => h c (mem_of_mem_drop hc)
    have hdrop := value_lt hdigits
    rwa [length_drop, hlen] at hdrop
  have hzero : value (ds.drop j) = 0 := by
    apply Nat.eq_zero_of_dvd_of_lt _ hlt
    rw [hsplit] at hdvd
    exact (Nat.dvd_add_right (Nat.dvd_mul_left _ _)).mp hdvd
  have hpow : 10 ^ k = 10 ^ (k - j) * 10 ^ j := by
    rw [← Nat.pow_add, Nat.sub_add_cancel hj]
  unfold fraction
  rw [length_take, hlen, Nat.min_eq_left hj, hpow, ← Nat.mul_assoc,
    Nat.mul_div_cancel _ (Nat.pow_pos (by decide)), hsplit, hzero, Nat.add_zero]

/-! ### Integers as text -/

lemma toList_natCast : (toString (n : ℤ)).toList = Nat.toDigits 10 n := by
  show (Nat.repr n).toList = _
  rw [Nat.toList_repr]

lemma toList_negSucc : (toString (Int.negSucc n)).toList = '-' :: Nat.toDigits 10 (n + 1) := by
  show ("-" ++ Nat.repr (n + 1)).toList = _
  rw [String.toList_append, Nat.toList_repr]
  rfl

/-- The text of an integer: digits, and a sign. -/
lemma mem_toString {i : ℤ} {c : Char} (h : c ∈ (toString i).toList) :
    c.isDigit = true ∨ c = '-' := by
  cases i with
  | ofNat n => exact .inl (allDigits_toDigits n c (toList_natCast n ▸ h))
  | negSucc n =>
      rw [toList_negSucc, mem_cons] at h
      rcases h with rfl | hdigit
      · exact .inr rfl
      · exact .inl (allDigits_toDigits _ c hdigit)

end Decimals
