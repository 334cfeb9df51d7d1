/-
Doubles as the C library reads them from text and writes them.

A double is a sign and a magnitude, so that there are two zeros.  `nearest` is the
double next to a magnitude: 53 bits, fewer below the normal numbers, ties to even.
`stod` reads the number at the start of a text, decimal or hexadecimal; it has no
result where `std::stod` throws, nor for the texts of an infinity and of no number.
`fixed` writes so many decimals (`fixed_isFixed`), rounded from the exact value.

The double next to a magnitude: it keeps the order (`nearest_mono`), and what a
double holds exactly it leaves as it is (`nearest_of_eq_mul`).
-/
import CErp.Text
import Mathlib

namespace DoubleText

open CErp

structure Double where
  negative : Bool
  magnitude : ℚ
deriving DecidableEq

def Double.value (x : Double) : ℚ := if x.negative then -x.magnitude else x.magnitude

/-- The nearest whole number, ties to even. -/
def roundHalfEven (x : ℚ) : ℤ :=
  let below := ⌊x⌋
  let rest := x - below
  if rest < 1 / 2 then below
  else if 1 / 2 < rest then below + 1
  else if below % 2 = 0 then below
  else below + 1

/-- The last bit a double next to `m` has. -/
def lastBit (m : ℚ) : ℚ := 2 ^ max (Int.log 2 m - 52) (-1074)

/-- The magnitude of the double next to `m`. -/
def nearest (m : ℚ) : ℚ := roundHalfEven (m / lastBit m) * lastBit m

/-- The double next to a number; an exact zero has no sign. -/
def Double.ofRat (q : ℚ) : Double := ⟨q < 0, nearest |q|⟩

def Double.add (x y : Double) : Double := .ofRat (x.value + y.value)

def Double.sub (x y : Double) : Double := .ofRat (x.value - y.value)

/-! ### Reading -/

def hexDigit (c : Char) : Bool := c.isDigit || ('a' ≤ c.toLower && c.toLower ≤ 'f')

/-- The value of a digit, hexadecimal ones included. -/
def digitOf (c : Char) : ℕ :=
  if c.isDigit then c.toNat - '0'.toNat else c.toLower.toNat - 'a'.toNat + 10

/-- Digits with a point among them or not, and what follows; there must be a digit. -/
def mantissa (isDigit : Char → Bool) (radix : ℕ) (cs : List Char) : Option (ℚ × List Char) :=
  let whole := cs.takeWhile isDigit
  let (frac, rest) :=
    match cs.dropWhile isDigit with
    | '.' :: cs => (cs.takeWhile isDigit, cs.dropWhile isDigit)
    | cs => ([], cs)
  if whole = [] ∧ frac = [] then none
  else
    let digits := (whole ++ frac).foldl (fun n c => n * radix + digitOf c) 0
    some (digits / (radix : ℚ) ^ frac.length, rest)

/-- A sign before a number, and what follows. -/
def sign : List Char → Bool × List Char
  | '-' :: cs => (true, cs)
  | '+' :: cs => (false, cs)
  | cs => (false, cs)

/-- The exponent after its mark, 0 if there is none. -/
def exponent (mark : Char) : List Char → ℤ
  | c :: cs =>
      let digits := (sign cs).2.takeWhile Char.isDigit
      let e : ℤ := digits.foldl (fun n c => n * 10 + digitOf c) 0
      if c.toLower ≠ mark then 0 else if (sign cs).1 then -e else e
  | [] => 0

/-- A number without its sign. -/
def magnitude (cs : List Char) : Option ℚ :=
  let decimal := (mantissa Char.isDigit 10 cs).map fun (m, rest) => m * 10 ^ exponent 'e' rest
  match cs with
  | '0' :: x :: hex =>
      if x.toLower = 'x' then
        -- without a digit after the `x`, the number is the zero before it
        ((mantissa hexDigit 16 hex).map fun (m, rest) => m * 2 ^ exponent 'p' rest).or decimal
      else decimal
  | _ => decimal

/-- `std::stod`; what follows the number is ignored. -/
def stod (cs : List Char) : Option Double :=
  let (negative, cs) := sign (cs.dropWhile Text.isSpace)
  match magnitude cs with
  | none => none
  | some m =>
      if 2 ^ 1024 ≤ nearest m then none
      -- too small to be held as a normal number, and not exactly
      else if nearest m < 2 ^ (-1022 : ℤ) ∧ nearest m ≠ m then none
      else some ⟨negative, nearest m⟩

/-! ### Writing -/

/-- So many digits, zeros before them. -/
def padded (places n : ℕ) : List Char :=
  let digits := Nat.toDigits 10 n
  List.replicate (places - digits.length) '0' ++ digits

/-- `std::fixed` with a precision of at least one. -/
def fixed (places : ℕ) (x : Double) : List Char :=
  let n := (roundHalfEven (x.magnitude * 10 ^ places)).toNat
  (if x.negative then ['-'] else []) ++
    Nat.toDigits 10 (n / 10 ^ places) ++ '.' :: padded places (n % 10 ^ places)

/-- Digits with a point among them, perhaps a sign before. -/
def IsFixed (places : ℕ) (cs : List Char) : Prop :=
  ∃ pre whole frac, cs = pre ++ whole ++ '.' :: frac ∧ (pre = [] ∨ pre = ['-']) ∧
    whole ≠ [] ∧ (∀ c ∈ whole, c.isDigit) ∧ frac.length = places ∧ ∀ c ∈ frac, c.isDigit

lemma padded_digits (places n : ℕ) : ∀ c ∈ padded places n, c.isDigit := by
  intro c hc
  obtain hc | hc := List.mem_append.mp hc
  · rw [(List.mem_replicate.mp hc).2]
    rfl
  · exact Nat.isDigit_of_mem_toDigits (by decide) (by decide) hc

variable {places : ℕ}

lemma padded_length {n : ℕ} (hplaces : 0 < places) (h : n < 10 ^ places) :
    (padded places n).length = places := by
  have hle := (Nat.length_toDigits_le_iff (by decide : 1 < 10) hplaces).mpr h
  unfold padded
  rw [List.length_append, List.length_replicate]
  omega

lemma fixed_isFixed (hplaces : 0 < places) (x : Double) : IsFixed places (fixed places x) := by
  refine ⟨_, _, _, rfl, ?_, Nat.toDigits_ne_nil, ?_, ?_, padded_digits _ _⟩
  · split
    · exact .inr rfl
    · exact .inl rfl
  · exact fun c hc => Nat.isDigit_of_mem_toDigits (by decide) (by decide) hc
  · exact padded_length hplaces (Nat.mod_lt _ (by positivity))

/-- What stands in a number so written. -/
lemma IsFixed.chars {cs : List Char} (h : IsFixed places cs) :
    ∀ c ∈ cs, c.isDigit ∨ c = '.' ∨ c = '-' := by
  obtain ⟨pre, whole, frac, rfl, hpre, -, hwhole, -, hfrac⟩ := h
  intro c hc
  simp only [List.mem_append, List.mem_cons] at hc
  obtain (hc | hc) | rfl | hc := hc
  · obtain rfl | rfl := hpre
    · cases hc
    · exact .inr (.inr (List.mem_singleton.mp hc))
  · exact .inl (hwhole c hc)
  · exact .inr (.inl rfl)
  · exact .inl (hfrac c hc)

example : (stod " -1.5e2x".toList).map (fixed 5) = some "-150.00000".toList ∧
    (stod "0x1.8p1".toList).map (fixed 5) = some "3.00000".toList ∧
    stod "1e400".toList = none ∧ stod "north".toList = none := by
  decide +kernel

end DoubleText

namespace DoubleText

/-! ### Whole numbers -/

lemma roundHalfEven_near (x : ℚ) : |(roundHalfEven x : ℚ) - x| ≤ 1 / 2 := by
  have hle := Int.floor_le x
  have hlt := Int.lt_floor_add_one x
  unfold roundHalfEven
  dsimp only
  rw [abs_le]
  split_ifs with hdown hup
  · constructor <;> linarith
  · push_cast
    constructor <;> linarith
  · constructor <;> linarith
  · push_cast
    constructor <;> linarith

lemma roundHalfEven_intCast (n : ℤ) : roundHalfEven (n : ℚ) = n := by
  unfold roundHalfEven
  rw [Int.floor_intCast, if_pos (by norm_num)]

lemma roundHalfEven_mono : Monotone roundHalfEven := by
  intro x y hxy
  rcases eq_or_lt_of_le hxy with rfl | hlt
  · exact le_refl _
  · have hx := (abs_le.mp (roundHalfEven_near x)).2
    have hy := (abs_le.mp (roundHalfEven_near y)).1
    have hless : (roundHalfEven x : ℚ) < roundHalfEven y + 1 := by linarith
    exact Int.lt_add_one_iff.mp (by exact_mod_cast hless)

/-! ### Doubles -/

lemma lastBit_pos (m : ℚ) : 0 < lastBit m := zpow_pos (by norm_num) _

/-- What is a whole number of its last bits is held exactly. -/
lemma nearest_of_eq_mul {m : ℚ} (k : ℤ) (h : m = k * lastBit m) : nearest m = m := by
  have hquotient : m / lastBit m = k := by
    rw [div_eq_iff (lastBit_pos m).ne']
    exact h
  unfold nearest
  rw [hquotient, roundHalfEven_intCast]
  exact h.symm

@[simp] lemma nearest_zero : nearest 0 = 0 :=
  nearest_of_eq_mul 0 (by rw [Int.cast_zero, zero_mul])

/-- A power of two is a whole number of smaller powers. -/
lemma zpow_eq_mul {e f : ℤ} (h : f ≤ e) : (2 : ℚ) ^ e = ((2 ^ (e - f).toNat : ℤ) : ℚ) * 2 ^ f := by
  rw [Int.cast_pow, Int.cast_ofNat, ← zpow_natCast, ← zpow_add₀ (by norm_num)]
  congr 1
  omega

lemma nearest_zpow {e : ℤ} (he : -1074 ≤ e) : nearest (2 ^ e) = 2 ^ e := by
  have hlog : Int.log 2 ((2 : ℚ) ^ e) = e := by
    have h := Int.log_zpow (R := ℚ) (b := 2) (by decide) e
    exact_mod_cast h
  apply nearest_of_eq_mul (2 ^ (e - max (e - 52) (-1074)).toNat)
  unfold lastBit
  rw [hlog]
  exact zpow_eq_mul (by omega)

lemma nearest_one : nearest 1 = 1 := by
  have h := nearest_zpow (e := 0) (by decide)
  rwa [zpow_zero] at h

lemma nearest_nonneg {m : ℚ} (hm : 0 ≤ m) : 0 ≤ nearest m := by
  have h := roundHalfEven_mono (div_nonneg hm (lastBit_pos m).le)
  rw [← Int.cast_zero, roundHalfEven_intCast] at h
  have h : (0 : ℚ) ≤ roundHalfEven (m / lastBit m) := by exact_mod_cast h
  exact mul_nonneg h (lastBit_pos m).le

/-- Magnitudes of one size keep their order. -/
lemma nearest_le_of_lastBit_eq {x y : ℚ} (hxy : x ≤ y) (h : lastBit x = lastBit y) :
    nearest x ≤ nearest y := by
  have hle : x / lastBit y ≤ y / lastBit y := div_le_div_of_nonneg_right hxy (lastBit_pos y).le
  have hround : (roundHalfEven (x / lastBit y) : ℚ) ≤ roundHalfEven (y / lastBit y) := by
    exact_mod_cast roundHalfEven_mono hle
  unfold nearest
  rw [h]
  exact mul_le_mul_of_nonneg_right hround (lastBit_pos y).le

/-- A power of two above a magnitude is above its double. -/
lemma nearest_le_zpow {x : ℚ} {e : ℤ} (hx : x ≤ 2 ^ e)
    (he : max (Int.log 2 x - 52) (-1074) ≤ e) : nearest x ≤ 2 ^ e := by
  have hpower := zpow_eq_mul he
  have hle : x / lastBit x ≤ ((2 ^ (e - max (Int.log 2 x - 52) (-1074)).toNat : ℤ) : ℚ) := by
    rw [div_le_iff₀ (lastBit_pos x)]
    exact hx.trans_eq hpower
  have hround := roundHalfEven_mono hle
  rw [roundHalfEven_intCast] at hround
  rw [hpower]
  exact mul_le_mul_of_nonneg_right (by exact_mod_cast hround) (lastBit_pos x).le

/-- A power of two below a magnitude is below its double. -/
lemma zpow_le_nearest {x : ℚ} {e : ℤ} (hx : 2 ^ e ≤ x)
    (he : max (Int.log 2 x - 52) (-1074) ≤ e) : 2 ^ e ≤ nearest x := by
  have hpower := zpow_eq_mul he
  have hle : ((2 ^ (e - max (Int.log 2 x - 52) (-1074)).toNat : ℤ) : ℚ) ≤ x / lastBit x := by
    rw [le_div_iff₀ (lastBit_pos x)]
    exact hpower.symm.trans_le hx
  have hround := roundHalfEven_mono hle
  rw [roundHalfEven_intCast] at hround
  rw [hpower]
  exact mul_le_mul_of_nonneg_right (by exact_mod_cast hround) (lastBit_pos x).le

/-- **Rounding to doubles keeps the order.** -/
theorem nearest_mono {x y : ℚ} (hx : 0 ≤ x) (hxy : x ≤ y) : nearest x ≤ nearest y := by
  rcases eq_or_lt_of_le hx with rfl | hx
  · rw [nearest_zero]
    exact nearest_nonneg hxy
  · have hy := hx.trans_le hxy
    by_cases hbit : max (Int.log 2 x - 52) (-1074) = max (Int.log 2 y - 52) (-1074)
    · apply nearest_le_of_lastBit_eq hxy
      unfold lastBit
      rw [hbit]
    · -- the power of two below `y` stands between
      have hlog := Int.log_mono_right (b := 2) hx hxy
      have hlogY : ((2 : ℕ) : ℚ) ^ Int.log 2 y ≤ y := Int.zpow_log_le_self (by decide) hy
      have hlogX : x < ((2 : ℕ) : ℚ) ^ (Int.log 2 x + 1) := Int.lt_zpow_succ_log_self (by decide) x
      have hsucc : (2 : ℚ) ^ (Int.log 2 x + 1) ≤ 2 ^ Int.log 2 y :=
        zpow_le_zpow_right₀ (by norm_num) (by omega)
      have hbelow : x ≤ 2 ^ Int.log 2 y := by
        refine le_trans ?_ hsucc
        exact_mod_cast hlogX.le
      exact (nearest_le_zpow hbelow (by omega)).trans
        (zpow_le_nearest (by exact_mod_cast hlogY) (by omega))

/-- The double below one. -/
lemma nearest_pred_one : nearest (1 - 2 ^ (-53 : ℤ)) = 1 - 2 ^ (-53 : ℤ) := by
  decide +kernel

end DoubleText
