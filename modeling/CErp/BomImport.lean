/-
The import of a bill of materials: `parse` stages rows, `set_line` corrects one
of them, `commit` turns what is staged into lines of the bill.

The importer resolves candidates from the catalogue and a person commits.  What
`parse` checks over the whole board, `set_line` checks for its own line only,
and `commit` looks at nothing but the severity.  Manufacturing reads a line's
quantity relative to the bill's own, both in micro-units.
-/
import CErp.BomRows
import CErp.Money
import CErp.Table
import Mathlib.Data.List.Sort

namespace CErp

open Outcome String

namespace BomImport

open Designators

/-! ### Rows -/

/-- A row of `product_product`, as the resolution reads it. -/
structure PartProduct where
  name : String
  defaultCode : Option String := none
  active : Bool := true
  footprintId : Option ℤ := none
deriving DecidableEq

structure ManufacturerInfo where
  productId : ℤ
  partNumber : Option String
deriving DecidableEq

structure PartParameter where
  productId : ℤ
  valueText : Option String
deriving DecidableEq

/-- The parts there are. -/
structure Catalogue where
  products : Table PartProduct
  manufacturerInfos : Table ManufacturerInfo := .empty
  footprints : Table String := .empty
  parameters : Table PartParameter := .empty

inductive Severity where
  | ok
  | warning
  | error
deriving DecidableEq

structure Candidate where
  id : ℤ
  name : String
  code : String
deriving DecidableEq

/-- A row of `mrp_bom_import_line`. -/
structure ImportLine where
  bomId : ℤ
  sequence : ℤ
  designators : String
  quantity : ℤ
  mpn : String
  manufacturer : String
  valueText : String
  footprint : String
  description : String
  productId : Option ℤ
  severity : Severity
  issues : List String
  candidates : List Candidate
  fitted : Bool
deriving DecidableEq

/-- A row of `mrp_bom`: how many micro-units of the product it makes. -/
structure Bom where
  productQty : ℤ
deriving DecidableEq

/-- A row of `mrp_bom_line`. -/
structure BomLine where
  bomId : ℤ
  productId : Option ℤ
  productQty : ℤ
  productUomId : ℤ
  sequence : ℤ
  referenceDesignators : String
  note : String
  fitted : Bool
deriving DecidableEq

structure BomDb where
  catalogue : Catalogue
  boms : Table Bom
  bomLines : Table BomLine
  importLines : Table ImportLine
  uoms : List ℤ := [1]

/-! ### Resolution -/

/-- What is found out about a row. -/
structure Resolved where
  productId : ℤ := 0
  severity : Severity := .ok
  issues : List String := []
  candidates : List Candidate := []

/-- `NULLIF(product, 0)`. -/
def nullIfZero (productId : ℤ) : Option ℤ := if productId = 0 then none else some productId

section Resolve

-- the database's `lower()`
variable (dbLower : String → String) (cat : Catalogue)

def candidate (id : ℤ) (p : PartProduct) : Candidate := ⟨id, p.name, p.defaultCode.getD ""⟩

/-- The active parts that carry the number, once for each entry. -/
def byPartNumber (mpn : String) : List Candidate :=
  (cat.manufacturerInfos.rows.filterMap fun mi =>
    if mi.2.partNumber.map dbLower = some (dbLower mpn) then
      ((cat.products.get? mi.2.productId).filter (·.active)).map (candidate mi.2.productId)
    else none).take 10

def noSpaces (s : String) : String := ofList (s.toList.filter (· ≠ ' '))

/-- The active parts with the footprint and a parameter of the value. -/
def byValue (value footprint : String) : List Candidate :=
  ((cat.products.rows.filter fun p => p.2.active &&
    (p.2.footprintId.bind cat.footprints.get?).any (dbLower · == dbLower footprint) &&
    cat.parameters.rows.any fun pa => pa.2.productId == p.1 &&
      dbLower (noSpaces (pa.2.valueText.getD "")) == dbLower (noSpaces value)).map
    fun p => candidate p.1 p.2).take 10

/-- No part was found. -/
def unresolved (mpn value footprint : String) : Resolved where
  severity := .error
  issues :=
    if mpn = "" ∧ (value = "" ∨ footprint = "") then
      ["Not enough to identify a part: give an MPN, or a value and a footprint."]
    else ["No part in the catalogue matches this line."]

/-- By value and footprint, where both are given. -/
def resolveByValue (mpn value footprint : String) : Resolved :=
  if value ≠ "" ∧ footprint ≠ "" then
    match byValue dbLower cat value footprint with
    | [] => unresolved mpn value footprint
    | [c] =>
        if mpn ≠ "" then
          { productId := c.id, severity := .warning, candidates := [c],
            issues := ["Matched on value and footprint; the MPN was not found."] }
        else { productId := c.id, candidates := [c] }
    | cs =>
        { severity := .warning, candidates := cs,
          issues := ["Several parts share this value and footprint — pick one."] }
  else unresolved mpn value footprint

def trimmed (s : String) : String := ofList (trim s.toList)

/-- The number first, because it is exact. -/
def resolveRow (row : BomRow) : Resolved :=
  let mpn := trimmed row.mpn
  let value := trimmed row.value
  let footprint := trimmed row.footprint
  if mpn = "" then resolveByValue dbLower cat mpn value footprint
  else
    match byPartNumber dbLower cat mpn with
    | [] => resolveByValue dbLower cat mpn value footprint
    | [c] => { productId := c.id, candidates := [c] }
    | cs =>
        { severity := .warning, candidates := cs,
          issues := ["More than one part carries this MPN — pick one."] }

end Resolve

/-- The checks that do not depend on the catalogue; the row gets the expanded
designators and the quantity they imply. -/
def validateRow (row : BomRow) : BomRow × Resolved :=
  let des := splitDesignators row.designators.toList
  let qty : ℤ := if des ≠ [] ∧ row.quantity ≤ 0 then des.length else row.quantity
  let issues :=
    (if qty ≤ 0 then ["Quantity must be greater than zero."] else []) ++
    (if des ≠ [] ∧ 0 < qty ∧ des.length ≠ qty then
      ["There are " ++ toString des.length ++ " designators but a quantity of " ++
        toString qty ++ "."]
    else [])
  ({ row with
      quantity := qty
      designatorList := des
      designators := if des = [] then row.designators else ofList (joined des) },
    { severity := if issues = [] then .ok else .error, issues := issues })

/-- The worse of what the row's checks and the catalogue say, and the
catalogue's product. -/
def Resolved.merge (r rr : Resolved) : Resolved where
  productId := rr.productId
  severity :=
    if rr.severity = .error then .error
    else if rr.severity = .warning ∧ r.severity = .ok then .warning else r.severity
  issues := r.issues ++ rr.issues
  candidates := rr.candidates

/-! ### Staging -/

/-- What the loop over the rows has: the designators seen on the board, the next
sequence number, and the lines staged so far. -/
structure Staging where
  seen : List (List Char) := []
  seq : ℤ := 10
  lines : Table ImportLine

/-- Count the designators of a row until one was seen before: that one, if any,
and what is seen then. -/
def countDesignators (seen : List (List Char)) :
    List (List Char) → Option (List Char) × List (List Char)
  | [] => (none, seen)
  | d :: des => if lower d ∈ seen then (some d, seen) else countDesignators (lower d :: seen) des

/-- A designator may appear once across the whole board. -/
def Resolved.repeats (r : Resolved) : Option (List Char) → Resolved
  | none => r
  | some d =>
      { r with
        severity := .error
        issues := r.issues ++ ["Designator " ++ ofList d ++ " appears more than once."] }

def stagedLine (bomId seq : ℤ) (row : BomRow) (r : Resolved) (fitted : Bool) : ImportLine where
  bomId := bomId
  sequence := seq
  designators := row.designators
  quantity := row.quantity
  mpn := row.mpn
  manufacturer := row.manufacturer
  valueText := row.value
  footprint := row.footprint
  description := row.description
  productId := nullIfZero r.productId
  severity := r.severity
  issues := r.issues
  candidates := r.candidates
  fitted := fitted

/-- What `parse` finds out about a row: its own checks, the catalogue where
these pass, and the designators seen before it. -/
def parsedRow (dbLower : String → String) (cat : Catalogue) (seen : List (List Char))
    (row : BomRow) : Resolved :=
  let r := (validateRow row).2
  let r := if r.severity ≠ .error then r.merge (resolveRow dbLower cat (validateRow row).1) else r
  r.repeats (countDesignators seen (validateRow row).1.designatorList).1

/-- One turn of `parse`'s loop. -/
def stageRow (dbLower : String → String) (cat : Catalogue) (bomId : ℤ) (st : Staging)
    (row : BomRow) : Staging where
  seen := (countDesignators st.seen (validateRow row).1.designatorList).2
  seq := st.seq + 10
  lines := st.lines.insert (stagedLine bomId st.seq (validateRow row).1
    (parsedRow dbLower cat st.seen row) (row.fitted.getD true))

/-! ### Corrections -/

/-- The row `set_line` checks: what the request gives, else what is staged. -/
def correctedRow (v : Json) (l : ImportLine) : BomRow :=
  let text (k old : String) : String := if (v.find? k).isSome then jstr v k else old
  { designators := text "designators" l.designators
    quantity := if (v.find? "quantity").isSome then jint v "quantity" 0 else l.quantity
    mpn := text "mpn" l.mpn
    manufacturer := text "manufacturer" l.manufacturer
    value := text "value" l.valueText
    footprint := text "footprint" l.footprint
    description := text "description" l.description }

/-- A product that was chosen is taken as given; zero takes the choice back. -/
def choose (cat : Catalogue) (r : Resolved) (chosen : ℤ) : Except String Resolved := do
  require (0 < chosen → (cat.products.get? chosen).any (·.active)) "No such product."
  pure (if chosen = 0 ∧ r.severity ≠ .error then
    { r with
      productId := chosen
      severity := .error
      issues := r.issues ++ ["No part chosen for this line."] }
    else { r with productId := chosen })

/-- The product of a corrected line: the one chosen, else what the catalogue
says. -/
def resolveCorrected (dbLower : String → String) (cat : Catalogue) (v : Json) (row : BomRow)
    (r : Resolved) : Except String Resolved :=
  if 0 ≤ jint v "product_id" (-1) then choose cat r (jint v "product_id" (-1))
  else .ok (r.merge (resolveRow dbLower cat row))

def correctedLine (dbLower : String → String) (cat : Catalogue) (v : Json) (l : ImportLine) :
    Except String ImportLine := do
  let row := correctedRow v l
  let r ← resolveCorrected dbLower cat v (validateRow row).1 (validateRow row).2
  pure (stagedLine l.bomId l.sequence (validateRow row).1 r ((jbool? v "fitted").getD l.fitted))

/-! ### Calls -/

namespace BomDb

variable (dbLower : String → String) (db : BomDb)

def isOf (bomId : ℤ) (l : ImportLine) : Bool := l.bomId == bomId

/-- `DELETE FROM mrp_bom_import_line WHERE bom_id = …`. -/
def unstaged (bomId : ℤ) : Table ImportLine := db.importLines.delete fun _ l => isOf bomId l

def handleParse (v : Json) : Except String BomDb := do
  let bomId := jint v "bom_id" 0
  require (0 < bomId) "bom_id is required."
  require ((db.boms.get? bomId).isSome) "No such BOM."
  let rows ← requestRows v
  require (rows ≠ []) "No usable rows were found."
  let st := rows.foldl (stageRow dbLower db.catalogue bomId) { lines := db.unstaged bomId }
  pure { db with importLines := st.lines }

def handleSetLine (v : Json) : Except String BomDb := do
  let id := jint v "id" 0
  require (0 < id) "id is required."
  match db.importLines.get? id with
  | none => .error "No such staged line."
  | some l => do
      let l' ← correctedLine dbLower db.catalogue v l
      pure { db with importLines := db.importLines.modify id fun _ => l' }

/-- `ORDER BY sequence, id`. -/
def InOrder (a b : ℤ × ImportLine) : Prop :=
  a.2.sequence < b.2.sequence ∨ (a.2.sequence = b.2.sequence ∧ a.1 ≤ b.1)

instance : DecidableRel InOrder := fun a b =>
  inferInstanceAs (Decidable (a.2.sequence < b.2.sequence ∨
    (a.2.sequence = b.2.sequence ∧ a.1 ≤ b.1)))

/-- What is staged for a bill. -/
def staged (bomId : ℤ) : List ImportLine :=
  ((db.importLines.rows.filter fun r => isOf bomId r.2).insertionSort InOrder).map Prod.snd

/-- The line of the bill a staged line is written as. -/
def bomLine (bomId uom : ℤ) (l : ImportLine) : BomLine where
  bomId := bomId
  productId := l.productId
  productQty := l.quantity
  productUomId := uom
  sequence := l.sequence
  referenceDesignators := l.designators
  note := l.description
  fitted := l.fitted

/-- Everything is replaced unless the request says otherwise. -/
def replaces (v : Json) : Bool := (jbool? v "replace").getD true

def handleCommit (v : Json) : Except String BomDb := do
  let bomId := jint v "bom_id" 0
  require (0 < bomId) "bom_id is required."
  let errs := (db.importLines.rows.filter fun r =>
    isOf bomId r.2 && r.2.severity == .error).length
  require (errs = 0)
    (toString errs ++ " line(s) still have errors. Fix or remove them before importing.")
  -- lines without a product are not selected
  let rows := (db.staged bomId).filter (·.productId.isSome)
  require (rows ≠ []) "There is nothing staged to import."
  let kept := if replaces v then db.bomLines.delete fun _ l => l.bomId == bomId else db.bomLines
  let uom := db.uoms.min?.getD 1
  pure { db with
    bomLines := (rows.map (bomLine bomId uom)).foldl Table.insert kept
    importLines := db.unstaged bomId }

def handleDiscard (v : Json) : Except String BomDb := do
  let bomId := jint v "bom_id" 0
  require (0 < bomId) "bom_id is required."
  pure { db with importLines := db.unstaged bomId }

/-- Parts come and go between the calls: a product that is deleted leaves the
staged lines without one. -/
def newCatalogue (cat : Catalogue) : BomDb :=
  { db with
    catalogue := cat
    importLines := db.importLines.update fun _ l =>
      { l with productId := l.productId.filter fun p => (cat.products.get? p).isSome } }

end BomDb

/-- What happens between a bill's first import and its last. -/
inductive BomCall where
  | parse (v : Json)
  | setLine (v : Json)
  | discard (v : Json)
  | commit (v : Json)
  | newCatalogue (cat : Catalogue)

namespace BomDb

variable (dbLower : String → String)

/-- A call that fails changes nothing. -/
def step (db : BomDb) : BomCall → Option BomDb
  | .parse v => some ((db.handleParse dbLower v).toOption.getD db)
  | .setLine v => some ((db.handleSetLine dbLower v).toOption.getD db)
  | .discard v => some ((db.handleDiscard v).toOption.getD db)
  | .commit v => some ((db.handleCommit v).toOption.getD db)
  | .newCatalogue cat => some (db.newCatalogue cat)

/-! ### Manufacturing -/

/-- How many micro-units a bill makes, as the receipt of a subcontractor and a
production order read it. -/
def makes (db : BomDb) (bomId : ℤ) : ℤ :=
  let bomQty := ((db.boms.get? bomId).map (·.productQty)).getD 1000000
  if bomQty ≤ 0 then 1000000 else bomQty

/-- `(product_qty::numeric * made / bomQty)::bigint`: what of a component goes
into so many micro-units of the product. -/
def component (db : BomDb) (l : BomLine) (made : ℤ) : ℤ :=
  Money.divRoundHalfAway (l.productQty * made) (db.makes l.bomId)

end BomDb

end BomImport

end CErp
