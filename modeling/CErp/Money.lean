/-
Exact fixed-point money: amounts are integers of micro-units (scale 6), one
major unit being `ONE` of them.  Products are taken exactly, rounded half away
from zero back to scale 6, and refused when they leave the 64-bit range; JSON
carries major units as doubles, and `fromJson` and `toJson` are the only places
where an amount meets floating point.

An amount is written here by its micro-units; the currency tag of the source's
class is `Money.currencyId`, checked by the operations that mix two amounts.
-/
import CErp.Json
import CErp.Outcome

namespace CErp

open Text Outcome

/-- An amount of micro-units in a currency (0 is the base). -/
structure Money where
  micros : ℤ
  currencyId : ℤ := 0
  deriving DecidableEq

namespace Money

/-! ### Scale and range -/

def SCALE : ℕ := 6

def ONE : ℤ := 1000000

def int64Max : ℤ := 2 ^ 63 - 1

def int64Min : ℤ := -2 ^ 63

def clampToInt64 (v : ℤ) (what : String) : Except String ℤ :=
  if v > int64Max ∨ v < int64Min then
    .error ("Money: " ++ what ++ " overflowed the representable range")
  else .ok v

/-- Divide, rounding half away from zero. -/
def divRoundHalfAway (num den : ℤ) : ℤ :=
  let q : ℤ := ((num.natAbs + den.natAbs / 2) / den.natAbs : ℕ)
  if (num < 0) ≠ (den < 0) then -q else q

/-! ### Text and JSON -/

/-- The digits before the point: their value, whether there was one, and the
rest. -/
def parseWhole (whole : ℤ) (sawDigit : Bool) : List Char → Except String (ℤ × Bool × List Char)
  | [] => .ok (whole, sawDigit, [])
  | c :: cs =>
      if c.isDigit then
        if whole > (int64Max - 9) / 10 then .error "Money: value too large"
        else parseWhole (whole * 10 + digitValue c) true cs
      else .ok (whole, sawDigit, c :: cs)

/-- The digits after the point: their value at scale 6, whether there was one,
and the rest.  Digits beyond the scale are discarded. -/
def parseFrac (frac : ℤ) (digits : ℕ) (sawDigit : Bool) : List Char → ℤ × Bool × List Char
  | [] => (frac * 10 ^ (SCALE - digits), sawDigit, [])
  | c :: cs =>
      if c.isDigit then
        if digits < SCALE then parseFrac (frac * 10 + digitValue c) (digits + 1) true cs
        else parseFrac frac digits true cs
      else (frac * 10 ^ (SCALE - digits), sawDigit, c :: cs)

/-- The sign of a number and what follows it. -/
def parseSign : List Char → Bool × List Char
  | '+' :: cs => (false, cs)
  | '-' :: cs => (true, cs)
  | cs => (false, cs)

/-- A decimal text, in micro-units. -/
def parse (text : String) : Except String Money :=
  match trimSpaces text.toList with
  | [] => .ok { micros := 0 }
  | cs =>
      let (neg, body) := parseSign cs
      if body.isEmpty then .error "Money: malformed number"
      else
        match parseWhole 0 false body with
        | .error e => .error e
        | .ok (whole, saw, rest) =>
            let (frac, saw, rest) :=
              match rest with
              | '.' :: rest => parseFrac 0 0 saw rest
              | rest => (0, saw, rest)
            if !saw || !rest.isEmpty then
              .error ("Money: malformed number '" ++ String.ofList body ++ "'")
            else
              (clampToInt64 (whole * ONE + frac) "parsed value").map fun v =>
                { micros := if neg then -v else v }

/-- A JSON number of major units, rounded to scale 6. -/
def fromJson (major : Float) : Except String Money :=
  let scaled := major * 1000000.0
  if -9.2e18 ≤ scaled ∧ scaled ≤ 9.2e18 then
    .ok { micros := Json.truncFloat (if scaled < 0 then scaled - 0.5 else scaled + 0.5) }
  else .error "Money::fromJson: value out of range"

/-- The major units JSON carries. -/
def toJson (m : Money) : Float := Float.ofInt m.micros / 1000000.0

/-! ### Arithmetic -/

def requireSameCurrency (a b : Money) (op : String) : Except String Unit :=
  if a.currencyId ≠ b.currencyId then
    .error ("Money: cannot " ++ op ++ " amounts in different currencies (" ++
      toString a.currencyId ++ " vs " ++ toString b.currencyId ++
      "). Convert to a common currency first.")
  else .ok ()

def add (a b : Money) : Except String Money := do
  requireSameCurrency a b "add"
  let v ← clampToInt64 (a.micros + b.micros) "sum"
  return { a with micros := v }

def sub (a b : Money) : Except String Money := do
  requireSameCurrency a b "subtract"
  let v ← clampToInt64 (a.micros - b.micros) "difference"
  return { a with micros := v }

/-- Price times quantity, both at scale 6. -/
def mulQty (price qty : Money) : Except String Money := do
  let v ← clampToInt64 (divRoundHalfAway (price.micros * qty.micros) ONE) "product"
  return { price with micros := v }

/-- A percentage; 8 % is the amount 8. -/
def percent (a pct : Money) : Except String Money := do
  let v ← clampToInt64 (divRoundHalfAway (a.micros * pct.micros) (ONE * 100)) "percentage"
  return { a with micros := v }

/-- Round to `dp` decimal places, half away from zero. -/
def roundTo (a : Money) (dp : ℤ) : Except String Money :=
  if dp ≥ SCALE then .ok a
  else
    let factor : ℤ := 10 ^ (SCALE - dp.toNat)
    (clampToInt64 (divRoundHalfAway a.micros factor * factor) "rounded value").map fun v =>
      { a with micros := v }

/-- Convert at a rate of base units per 1 of this currency. -/
def convertTo (a : Money) (toCurrencyId rate : ℤ) : Except String Money :=
  (clampToInt64 (divRoundHalfAway (a.micros * rate) ONE) "converted amount").map fun v =>
    ⟨v, toCurrencyId⟩

/-- The rate implied by receiving `received` for this amount. -/
def impliedRate (a received : Money) : Except String ℤ :=
  if a.micros = 0 then .error "Money::impliedRate: source amount is zero"
  else clampToInt64 (divRoundHalfAway (received.micros * ONE) a.micros) "implied rate"

/-! ### What a successful operation gives -/

lemma clampToInt64_ok_iff {v w : ℤ} {what : String} :
    clampToInt64 v what = .ok w ↔ int64Min ≤ v ∧ v ≤ int64Max ∧ v = w := by
  unfold clampToInt64
  split
  · next h =>
      constructor
      · intro hw
        cases hw
      · rintro ⟨hmin, hmax, -⟩
        omega
  · next h =>
      rw [Except.ok.injEq]
      constructor
      · rintro rfl
        omega
      · exact fun hw => hw.2.2

lemma add_micros {a b c : Money} (h : a.add b = .ok c) : c.micros = a.micros + b.micros := by
  obtain ⟨-, -, h⟩ := bind_ok_iff.mp h
  obtain ⟨v, hv, h⟩ := bind_ok_iff.mp h
  obtain ⟨-, -, rfl⟩ := clampToInt64_ok_iff.mp hv
  cases h
  rfl

lemma sub_micros {a b c : Money} (h : a.sub b = .ok c) : c.micros = a.micros - b.micros := by
  obtain ⟨-, -, h⟩ := bind_ok_iff.mp h
  obtain ⟨v, hv, h⟩ := bind_ok_iff.mp h
  obtain ⟨-, -, rfl⟩ := clampToInt64_ok_iff.mp hv
  cases h
  rfl

end Money

/-! ### Doubles -/

/-- The doubles that amounts pass through: at the JSON boundary they carry
major units, and some columns are read as doubles and bound as doubles. -/
class JsonDouble (D : Type) where
  toJson : Money → D
  fromJson : D → Except String Money
  ofInt : ℤ → D
  bindInt : D → Except String ℤ
  zero : D
  lt : D → D → Bool
  le : D → D → Bool

namespace JsonDouble

/-- An amount after it went out to JSON and came back. -/
def throughJson (D : Type) [JsonDouble D] (m : Money) : Except String Money :=
  fromJson (toJson (D := D) m)

/-- The doubles of the program.  What a BIGINT column makes of one that is
bound to it is the database's. -/
@[reducible] def native (bindInt : Float → Except String ℤ) : JsonDouble Float where
  toJson := Money.toJson
  fromJson := Money.fromJson
  ofInt := Float.ofInt
  bindInt := bindInt
  zero := 0.0
  lt a b := a < b
  le a b := a ≤ b

/-- Doubles as long as every amount is a whole number of micro-units that they
hold exactly: a double is named by that number. -/
@[reducible] def wholeMicros : JsonDouble ℤ where
  toJson m := m.micros
  fromJson d := .ok { micros := d }
  ofInt i := i
  bindInt := .ok
  zero := 0
  lt a b := a < b
  le a b := a ≤ b

end JsonDouble

end CErp
