/-
Document numbering: a sequence gives out consecutive numbers under a prefix,
and starts over with a new period where its policy says so.
-/
import CErp.Table
import CErp.Text

namespace CErp

/-- A moment, as the allocator reads it (UTC): the digits of the year, its
last two, the month and the day. -/
structure Clock where
  year : String
  shortYear : String
  month : String
  day : String
  deriving DecidableEq

inductive ResetPolicy where
  | never
  | yearly
  | monthly
  deriving DecidableEq

/-- A row of `ir_sequence`; no company means all of them. -/
structure Sequence where
  code : String
  companyId : Option ℤ := none
  pre : String := ""
  suffix : String := ""
  padding : ℕ := 5
  numberNext : ℤ := 1
  numberIncrement : ℤ := 1
  resetPolicy : ResetPolicy := .never
  lastResetPeriod : String := ""
  active : Bool := true
  deriving DecidableEq

namespace IrSequence

/-- The key of the current period, empty where the policy has none. -/
def periodKey (now : Clock) : ResetPolicy → String
  | .never => ""
  | .yearly => now.year
  | .monthly => now.year ++ "-" ++ now.month

/-- A text with every occurrence of a placeholder replaced. -/
def replaceToken (token value : List Char) : ℕ → List Char → List Char
  | 0, cs => cs
  | _ + 1, [] => []
  | fuel + 1, c :: cs =>
      if token.isPrefixOf (c :: cs) then
        value ++ replaceToken token value fuel ((c :: cs).drop token.length)
      else c :: replaceToken token value fuel cs

/-- The placeholders of a prefix or suffix filled in. -/
def expand (now : Clock) (s : String) : String :=
  let sub (cs : List Char) (token value : String) : List Char :=
    replaceToken token.toList value.toList cs.length cs
  String.ofList (sub (sub (sub (sub s.toList "%(year)s" now.year) "%(y)s" now.shortYear)
    "%(month)s" now.month) "%(day)s" now.day)

/-- A number with zeros in front. -/
def padded (padding : ℕ) (number : ℤ) : String :=
  let digits := toString number
  String.ofList (List.replicate (padding - digits.length) '0') ++ digits

def format (now : Clock) (s : Sequence) (number : ℤ) : String :=
  expand now s.pre ++ padded s.padding number ++ expand now s.suffix

/-- The active sequence under a code: the company's own, or the one for all. -/
def find (sequences : Table Sequence) (code : String) (companyId : ℤ) : Option (ℤ × Sequence) :=
  let company := if companyId > 0 then some companyId else none
  let under (c : Option ℤ) :=
    sequences.rows.find? fun r => r.2.code == code && r.2.companyId == c && r.2.active
  (under company).or (under none)

/-- The number a sequence gives next: 1 when a new period has begun. -/
def nextNumber (now : Clock) (s : Sequence) : ℤ :=
  let period := periodKey now s.resetPolicy
  if period ≠ "" ∧ period ≠ s.lastResetPeriod then 1 else s.numberNext

/-- The row after a number was taken. -/
def advance (now : Clock) (s : Sequence) : Sequence :=
  { s with
    numberNext := nextNumber now s + s.numberIncrement
    lastResetPeriod := periodKey now s.resetPolicy }

/-- The next number under a code, taken.  The clock is read twice: for the
period, and later once more for the text. -/
def nextByCodeAt (now later : Clock) (sequences : Table Sequence) (code : String)
    (companyId : ℤ) : Except String (String × Table Sequence) :=
  match find sequences code companyId with
  | none => .error ("No active sequence configured for '" ++ code ++ "'.")
  | some (id, s) =>
      .ok (format later s (nextNumber now s), sequences.modify id fun s => advance now s)

/-- The next number under a code, taken while the clock stands still. -/
def nextByCode (now : Clock) (sequences : Table Sequence) (code : String) (companyId : ℤ) :
    Except String (String × Table Sequence) :=
  nextByCodeAt now now sequences code companyId

/-- A yearly sequence over a prefix, created where the code has none. -/
def ensureYearly (sequences : Table Sequence) (code pre : String) : Table Sequence :=
  if sequences.rows.any fun r => r.2.code == code && r.2.companyId == none then sequences
  else sequences.insert { code := code, pre := pre, padding := 4, resetPolicy := .yearly }

end IrSequence

end CErp
