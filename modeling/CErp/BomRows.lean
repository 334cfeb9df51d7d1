/-
The rows a bill of materials is imported from: objects with the row fields, or
a text of separated columns whose header names them.

The header is matched against one table of spellings; a caller may give the
columns instead.  A column that says which parts are left off is read the other
way round.
-/
import CErp.Designators
import CErp.Json
import CErp.Outcome

namespace CErp

open Outcome

namespace BomImport

open Designators

/-! ### The fields of a request -/

/-- The integer under a key: a number, the first element of an array, or the
number a text starts with. -/
def jint (v : Json) (k : String) (dflt : ℤ) : ℤ :=
  match v.find? k with
  | some (.num i) => Json.toInt32 i
  | some (.arr (.num i :: _)) => Json.toInt32 i
  | some (.str s) => (Text.stoi s).getD dflt
  | _ => dflt

def jstr (v : Json) (k : String) : String :=
  match v.find? k with
  | some (.str s) => s
  | _ => ""

def jbool? (v : Json) (k : String) : Option Bool :=
  match v.find? k with
  | some (.bool b) => some b
  | _ => none

/-- A row of the bill as the importer passes it on. -/
structure BomRow where
  designators : String
  quantity : ℤ
  mpn : String
  manufacturer : String
  value : String
  footprint : String
  description : String
  fitted : Option Bool := none
  designatorList : List (List Char) := []

/-- What is read of a row that arrives as an object. -/
def BomRow.ofJson (r : Json) : BomRow where
  designators := jstr r "designators"
  quantity := jint r "quantity" 0
  mpn := jstr r "mpn"
  manufacturer := jstr r "manufacturer"
  value := jstr r "value"
  footprint := jstr r "footprint"
  description := jstr r "description"
  fitted := jbool? r "fitted"

/-! ### Columns -/

/-- The fields of one line, `cur` read of the current one, within quotes or
outside of them. -/
def csvFields : Bool → List Char → List Char → List (List Char)
  | true, cur, '"' :: '"' :: cs => csvFields true (cur ++ ['"']) cs
  | true, cur, '"' :: cs => csvFields false cur cs
  | true, cur, c :: cs => csvFields true (cur ++ [c]) cs
  | false, cur, c :: cs =>
      if c = '"' then csvFields true cur cs
      else if c = ',' ∨ c = ';' ∨ c = '\t' then cur :: csvFields false [] cs
      else csvFields false (cur ++ [c]) cs
  | _, cur, [] => [cur]

def csvLine (line : List Char) : List (List Char) := csvFields false [] line

inductive RowField where
  | designators
  | quantity
  | mpn
  | manufacturer
  | value
  | footprint
  | description
  | fitted
  | notFitted
deriving DecidableEq

/-- The spellings of the column heads. -/
def aliasTable : List (RowField × List String) :=
  [(.designators, ["designator", "designators", "reference", "references", "refdes",
      "ref", "refs", "part reference", "part references", "parts", "part",
      "location", "locations"]),
    (.quantity, ["quantity", "qty", "count", "amount", "qty per board",
      "quantity per unit", "qnty"]),
    (.mpn, ["mpn", "manufacturer part number", "manufacturer part no",
      "manufacturer part", "mfr part number", "mfr. part #", "mfr part #",
      "mfg part #", "mfg part number", "part number", "part num",
      "supplier part number", "vendor part number", "orderable part number",
      "lcsc part #", "lcsc part number", "jlcpcb part #",
      "jlcpcb part number"]),
    (.manufacturer, ["manufacturer", "mfr", "mfg", "brand", "maker", "manufacturer name",
      "mfr name"]),
    (.value, ["value", "val", "comment", "comments", "component value"]),
    (.footprint, ["footprint", "package", "pattern", "case", "pcb footprint",
      "package/case", "footprint name"]),
    (.description, ["description", "desc", "note", "notes", "remarks", "libref",
      "device", "part type", "designitemid", "datasheet"]),
    (.fitted, ["fitted", "populate", "populated", "assemble", "install"]),
    (.notFitted, ["dnp", "do not populate", "do not place", "do not fit", "nofit",
      "no fit", "dni", "exclude from bom", "not fitted"])]

/-- The column of each field, negative where there is none. -/
structure Mapping where
  designators : ℤ := -1
  quantity : ℤ := -1
  mpn : ℤ := -1
  manufacturer : ℤ := -1
  value : ℤ := -1
  footprint : ℤ := -1
  description : ℤ := -1
  fitted : ℤ := -1
  fittedNegated : Bool := false

/-- The first column wins. -/
def firstColumn (old i : ℤ) : ℤ := if old < 0 then i else old

def Mapping.take (m : Mapping) (i : ℤ) : RowField → Mapping
  | .designators => { m with designators := firstColumn m.designators i }
  | .quantity => { m with quantity := firstColumn m.quantity i }
  | .mpn => { m with mpn := firstColumn m.mpn i }
  | .manufacturer => { m with manufacturer := firstColumn m.manufacturer i }
  | .value => { m with value := firstColumn m.value i }
  | .footprint => { m with footprint := firstColumn m.footprint i }
  | .description => { m with description := firstColumn m.description i }
  | .fitted => if m.fitted < 0 then { m with fitted := i, fittedNegated := false } else m
  | .notFitted => if m.fitted < 0 then { m with fitted := i, fittedNegated := true } else m

/-- The field a column head names. -/
def headField (head : List Char) : Option RowField :=
  let h := String.ofList (lower (trim head))
  if h = "" then none else (aliasTable.find? fun g => g.2.contains h).map Prod.fst

def mapHeaders (hdr : List (List Char)) : Mapping :=
  hdr.zipIdx.foldl (fun m column =>
    ((headField column.1).map (m.take column.2)).getD m) {}

/-- The columns a caller gives. -/
def givenMapping (mp : Json) : Mapping :=
  let g (k : String) : ℤ :=
    match mp.find? k with
    | some (.num i) => Json.toInt32 i
    | _ => -1
  let fitted := if g "fitted" < 0 then g "dnp" else g "fitted"
  { designators := g "designators", quantity := g "quantity", mpn := g "mpn",
    manufacturer := g "manufacturer", value := g "value", footprint := g "footprint",
    description := g "description", fitted := fitted,
    fittedNegated := (jbool? mp "fitted_negated").getD (g "fitted" < 0 && 0 ≤ fitted) }

/-- Anything that is not plainly a no is a yes. -/
def cellIsAffirmative (raw : List Char) : Bool :=
  !(["", "0", "false", "no", "n", "-"].contains (String.ofList (lower (trim raw))))

/-! ### Rows -/

/-- The cell of a column, empty where the line has none. -/
def cell (c : List (List Char)) (idx : ℤ) : List Char :=
  if 0 ≤ idx then trim (c.getD idx.toNat []) else []

def rowOfCells (m : Mapping) (c : List (List Char)) : BomRow where
  designators := String.ofList (cell c m.designators)
  quantity := (Text.stoi (String.ofList (cell c m.quantity))).getD 0
  mpn := String.ofList (cell c m.mpn)
  manufacturer := String.ofList (cell c m.manufacturer)
  value := String.ofList (cell c m.value)
  footprint := String.ofList (cell c m.footprint)
  description := String.ofList (cell c m.description)
  fitted :=
    -- an empty cell says nothing
    if 0 ≤ m.fitted ∧ cell c m.fitted ≠ [] then
      some (if m.fittedNegated then !cellIsAffirmative (cell c m.fitted)
        else cellIsAffirmative (cell c m.fitted))
    else none

/-- A line that names no part is left out. -/
def BomRow.isBlank (row : BomRow) : Bool :=
  row.designators == "" && row.mpn == "" && row.value == ""

/-- The columns of a text, and the lines below them. -/
def columnsOf (v : Json) (lines : List (List Char)) : Except String (Mapping × List (List Char)) :=
  match v.find? "mapping" with
  | some (.obj fields) =>
      .ok (givenMapping (.obj fields),
        if jbool? v "skip_header" = some true then lines.drop 1 else lines)
  | _ => do
      let m := mapHeaders (csvLine (lines.headD []))
      require (¬ (m.designators < 0 ∧ m.mpn < 0 ∧ m.value < 0))
        ("The header row was not recognised. Supply a mapping, or send " ++
          "normalised rows — call describe for the column vocabulary.")
      pure (m, lines.drop 1)

def textRows (v : Json) : Except String (List BomRow) := do
  let text := (jstr v "text").toList
  require (trim text ≠ []) "Nothing to parse — give text or rows."
  let lines := (text.splitOn '\n').filter fun line => trim line ≠ []
  require (lines ≠ []) "Nothing to parse."
  let (m, below) ← columnsOf v lines
  pure ((below.map fun line => rowOfCells m (csvLine line)).filter fun row => !row.isBlank)

/-- The rows of a request: given as objects, or read from its text. -/
def requestRows (v : Json) : Except String (List BomRow) :=
  match v.find? "rows" with
  | some (.arr items) => .ok ((items.filter Json.isObject).map BomRow.ofJson)
  | _ => textRows v

end BomImport

end CErp
