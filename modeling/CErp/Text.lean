/-
The character classes and integer conversions of the C library that the server
reads numbers with.
-/
import CErp.Decimals
import Mathlib.Data.List.TakeWhile

namespace CErp

open List Nat

namespace Text

/-- `std::isspace`. -/
def isSpace (c : Char) : Bool :=
  c = ' ' || c = '\t' || c = '\n' || c = '\r' || c.toNat = 11 || c.toNat = 12

/-- A space or a tab. -/
def isBlank (c : Char) : Bool := c == ' ' || c == '\t'

/-- `std::getline` at every comma: the pieces of a text, an empty one at the
end left out. -/
def splitCommas (s : String) : List (List Char) :=
  let pieces := s.toList.splitOn ','
  if pieces.getLast? = some [] then pieces.dropLast else pieces

instance lawfulBEq : LawfulBEq (List Char) := instLawfulBEq

/-- The text without the white space at both ends. -/
def trimSpaces (cs : List Char) : List Char :=
  ((cs.dropWhile isSpace).reverse.dropWhile isSpace).reverse

/-- The text starts with `pre`. -/
def hasPrefix (pre s : String) : Bool := pre.toList.isPrefixOf s.toList

def digitValue (c : Char) : ℤ := (c.toNat : ℤ) - 48

/-- The value of a run of digits read after `acc`. -/
def digitsValue (acc : ℤ) (cs : List Char) : ℤ :=
  cs.foldl (fun v c => v * 10 + digitValue c) acc

/-- The integer at the start of a text and what follows it: white space, a
sign, and at least one digit, within the bounds of the type. -/
def stoInteger (lo hi : ℤ) (s : String) : Option (ℤ × List Char) :=
  let (neg, body) :=
    match s.toList.dropWhile isSpace with
    | '-' :: cs => (true, cs)
    | '+' :: cs => (false, cs)
    | cs => (false, cs)
  let digits := body.takeWhile (·.isDigit)
  let v := if neg then -digitsValue 0 digits else digitsValue 0 digits
  if digits.isEmpty ∨ v < lo ∨ hi < v then none
  else some (v, body.dropWhile (·.isDigit))

/-- `std::stoi`; what follows the number is ignored. -/
def stoi (s : String) : Option ℤ := (stoInteger (-2 ^ 31) (2 ^ 31 - 1) s).map Prod.fst

/-- `std::stoll` on the whole text. -/
def stollExact (s : String) : Option ℤ :=
  match stoInteger (-2 ^ 63) (2 ^ 63 - 1) s with
  | some (v, []) => some v
  | _ => none

/-! ### Reading numerals -/

open Decimals

lemma digitsValue_natCast {ds : List Char} (h : AllDigits ds) (n : ℕ) :
    digitsValue n ds = (ofDigitChars 10 ds n : ℕ) := by
  induction ds generalizing n with
  | nil => rfl
  | cons c ds ih =>
      have hc := digit_bounds (h c mem_cons_self)
      have hds : AllDigits ds := fun x hx => h x (mem_cons_of_mem c hx)
      have hfirst : (n : ℤ) * 10 + digitValue c = ((10 * n + (c.toNat - 48) : ℕ) : ℤ) := by
        unfold digitValue
        omega
      rw [ofDigitChars_cons]
      show digitsValue ((n : ℤ) * 10 + digitValue c) ds = _
      rw [hfirst]
      exact ih hds _

/-- Digits are read as the number they are. -/
lemma digitsValue_eq {ds : List Char} (h : AllDigits ds) : digitsValue 0 ds = value ds :=
  digitsValue_natCast h 0

/-- The sign of a text that begins with a digit is none. -/
lemma unsigned_of_isDigit {c : Char} (hc : c.isDigit = true) :
    isSpace c = false ∧ c ≠ '-' ∧ c ≠ '+' := by
  have hbounds := digit_bounds hc
  refine ⟨?_, ?_, ?_⟩
  · have hne : ∀ d : Char, d.toNat < 48 → c ≠ d := by
      rintro d hd rfl
      omega
    simp [isSpace, hne ' ' (by decide), hne '\t' (by decide), hne '\n' (by decide),
      hne '\r' (by decide)]
    omega
  · rintro rfl
    exact absurd hbounds (by decide)
  · rintro rfl
    exact absurd hbounds (by decide)

/-- What is written as an integer of the type is read as it. -/
lemma stoInteger_toString {lo hi i : ℤ} (hlo : lo ≤ i) (hhi : i ≤ hi) :
    stoInteger lo hi (toString i) = some (i, []) := by
  have hdigits : ∀ n : ℕ, AllDigits (toDigits 10 n) := allDigits_toDigits
  have htake : ∀ n : ℕ, (toDigits 10 n).takeWhile (·.isDigit) = toDigits 10 n := fun n =>
    takeWhile_eq_self_iff.mpr (hdigits n)
  have hdrop : ∀ n : ℕ, (toDigits 10 n).dropWhile (·.isDigit) = [] := fun n =>
    dropWhile_eq_nil_iff.mpr (hdigits n)
  have hne : ∀ n : ℕ, (toDigits 10 n).isEmpty = false := fun n =>
    isEmpty_eq_false_iff.mpr toDigits_ne_nil
  have hin : ¬(false = true ∨ i < lo ∨ hi < i) := by
    rintro (h | h | h)
    · cases h
    · omega
    · omega
  unfold stoInteger
  cases i with
  | ofNat n =>
      have htext : (toString (Int.ofNat n)).toList = toDigits 10 n := toList_natCast n
      obtain ⟨c, cs, hcs⟩ := exists_cons_of_ne_nil (toDigits_ne_nil (b := 10) (n := n))
      obtain ⟨hspace, hminus, hplus⟩ :=
        unsigned_of_isDigit (hdigits n c (hcs ▸ mem_cons_self))
      rw [htext, hcs, dropWhile_cons_of_neg (by simp [hspace])]
      split
      next neg body heq =>
      split at heq
      · next h => exact absurd (List.cons.inj h).1 hminus
      · next h => exact absurd (List.cons.inj h).1 hplus
      · cases heq
        rw [← hcs]
        simp only [htake, hdrop, hne, digitsValue_eq (hdigits n), value_toDigits]
        exact if_neg hin
  | negSucc n =>
      rw [toList_negSucc, dropWhile_cons_of_neg (by decide)]
      simp only [htake, hdrop, hne, digitsValue_eq (hdigits _), value_toDigits]
      exact if_neg hin

lemma stoi_toString {i : ℤ} (hlo : -2 ^ 31 ≤ i) (hhi : i ≤ 2 ^ 31 - 1) :
    stoi (toString i) = some i := by
  unfold stoi
  rw [stoInteger_toString hlo hhi]
  rfl

end Text

end CErp
