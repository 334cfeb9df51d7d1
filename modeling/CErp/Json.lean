/-
JSON values, with the operations of the JSON library that the server calls on
them: the kind tests, `empty`, `get` at the types used, `push_back`, `dump`,
and the access to an object's members.

Integers are unbounded here; the places of the code where a 64-bit value is
narrowed to an `int` go through `toInt32`.  Doubles are `Float`.  Their decimal
texts, the one written and the ones read, are the library's own affair and
enter as the parameter `FloatText`; nothing below depends on them.
-/
import CErp.Text

namespace CErp

open List String

/-- A JSON value.  An object is its members in key order. -/
inductive Json where
  | null
  | bool (b : Bool)
  | num (i : ℤ)
  | float (x : Float)
  | str (s : String)
  | arr (items : List Json)
  | obj (fields : List (String × Json))
  deriving Inhabited

/-- The text a double is dumped as, and the double a whole text is read as
(`std::stod`). -/
class FloatText where
  dumpFloat : Float → String
  stod : String → Option Float

namespace Json

/-! ### Kinds -/

def isNull : Json → Bool
  | null => true
  | _ => false

def isBoolean : Json → Bool
  | bool _ => true
  | _ => false

def isNumberInteger : Json → Bool
  | num _ => true
  | _ => false

def isNumber : Json → Bool
  | num _ => true
  | float _ => true
  | _ => false

def isString : Json → Bool
  | str _ => true
  | _ => false

def isArray : Json → Bool
  | arr _ => true
  | _ => false

def isObject : Json → Bool
  | obj _ => true
  | _ => false

/-- The name the library's error texts give a value's kind. -/
def typeName : Json → String
  | null => "null"
  | bool _ => "boolean"
  | num _ => "number"
  | float _ => "number"
  | str _ => "string"
  | arr _ => "array"
  | obj _ => "object"

/-- `empty()`: a scalar is never empty, `null` always is. -/
def isEmpty : Json → Bool
  | null => true
  | arr items => items.isEmpty
  | obj fields => fields.isEmpty
  | _ => false

/-- The elements an iteration visits. -/
def items : Json → List Json
  | arr items => items
  | obj fields => fields.map Prod.snd
  | null => []
  | j => [j]

/-- `get<std::string>()`. -/
def getString : Json → Except String String
  | str s => .ok s
  | j => .error ("[json.exception.type_error.302] type must be string, but is " ++ j.typeName)

/-- The text of a string, and the empty text for any other kind. -/
def text : Json → String
  | str s => s
  | _ => ""

/-- `push_back`: `null` becomes an array first; other kinds refuse. -/
def pushBack (j x : Json) : Except String Json :=
  match j with
  | null => .ok (arr [x])
  | arr items => .ok (arr (items ++ [x]))
  | j => .error ("[json.exception.type_error.308] cannot use push_back() with " ++ j.typeName)

lemma pushBack_arr (items : List Json) (x : Json) :
    (arr items).pushBack x = .ok (arr (items ++ [x])) := rfl

/-- Pushing a list of values one by one onto an array appends it. -/
lemma foldlM_pushBack_arr (xs ys : List Json) :
    ys.foldlM pushBack (arr xs) = .ok (arr (xs ++ ys)) := by
  induction ys generalizing xs with
  | nil => rw [append_nil]; rfl
  | cons y ys ih =>
      rw [foldlM_cons, pushBack_arr]
      refine (ih (xs ++ [y])).trans ?_
      rw [List.append_assoc, singleton_append]

/-! ### Numbers -/

/-- The value a 64-bit integer keeps when it is narrowed to an `int`. -/
def toInt32 (i : ℤ) : ℤ := i.bmod (2 ^ 32)

/-- A double converted to an integer type: the fraction is dropped.  The
conversion is undefined in the source beyond the integer type's range. -/
def truncFloat (x : Float) : ℤ :=
  if x < 0 then -((-x).toUInt64.toNat : ℤ) else (x.toUInt64.toNat : ℤ)

/-- The texts of doubles without a fraction. -/
@[reducible] def wholeFloatText : FloatText where
  dumpFloat x := toString (truncFloat x) ++ ".0"
  stod s := (Text.stollExact s).map Float.ofInt

/-- `get<int>()`. -/
def getInt : Json → Except String ℤ
  | num i => .ok (toInt32 i)
  | float x => .ok (truncFloat x)
  | bool b => .ok (if b then 1 else 0)
  | j => .error ("[json.exception.type_error.302] type must be number, but is " ++ j.typeName)

/-! ### Members of an object -/

/-- `contains` and `[]` of an object: the member under a key, if there is one. -/
def find? (j : Json) (key : String) : Option Json :=
  match j with
  | obj fields => fields.lookup key
  | _ => none

/-! ### Text -/

/-- The digits of a `\u` escape of a control character. -/
def hexEscape (c : Char) : String :=
  "\\u00" ++ ofList [Nat.digitChar (c.toNat / 16), Nat.digitChar (c.toNat % 16)]

/-- One character of a quoted string. -/
def escapeChar (c : Char) : String :=
  if c = '"' then "\\\""
  else if c = '\\' then "\\\\"
  else if c = '\n' then "\\n"
  else if c = '\r' then "\\r"
  else if c = '\t' then "\\t"
  else if c.toNat = 8 then "\\b"
  else if c.toNat = 12 then "\\f"
  else if c.toNat < 32 then hexEscape c
  else singleton c

def quote (s : String) : String :=
  "\"" ++ join (s.toList.map escapeChar) ++ "\""

variable [FloatText]

mutual

/-- `dump()`: the compact text of a value. -/
def dump : Json → String
  | null => "null"
  | bool true => "true"
  | bool false => "false"
  | num i => toString i
  | float x => FloatText.dumpFloat x
  | str s => quote s
  | arr items => "[" ++ ",".intercalate (dumpItems items) ++ "]"
  | obj fields => "\x7b" ++ ",".intercalate (dumpFields fields) ++ "\x7d"

def dumpItems : List Json → List String
  | [] => []
  | x :: xs => dump x :: dumpItems xs

def dumpFields : List (String × Json) → List String
  | [] => []
  | (key, x) :: fields => (quote key ++ ":" ++ dump x) :: dumpFields fields

end

end Json

end CErp
