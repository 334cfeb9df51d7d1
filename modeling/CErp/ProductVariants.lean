/-
Product templates, the attribute lines they vary on, and the generation of their
variants.

A variant's combination is the set of its rows in `product_variant_combination`;
generation matches variants by its text.  A line that is removed takes its values
with it, and these the rows that name them.  The query over the variants groups
them in an order of its own, which comes with the event; ids, amounts in micros
and the items of a line are as they were read from the call.
-/
import CErp.NumberLists
import CErp.Outcome
import CErp.Runs
import CErp.Table
import Mathlib.Algebra.BigOperators.Group.Finset.Basic
import Mathlib.Data.List.AList

namespace CErp

namespace ProductVariants

/-! ### Rows -/

/-- The columns a variant takes over from its template. -/
structure ProductInfo where
  defaultCode : Option String
  description : Option String
  type : String
  categId : Option ℤ
  uomId : Option ℤ
  uomPoId : Option ℤ
  standardPrice : ℤ
  tracking : String
  invoicePolicy : String
  purchaseMethod : String
  incomeAccountId : Option ℤ
  expenseAccountId : Option ℤ
  saleOk : Bool
  purchaseOk : Bool
  companyId : Option ℤ
deriving DecidableEq

/-- A row of `product_template`. -/
structure Template where
  name : String
  listPrice : ℤ
  info : ProductInfo
deriving DecidableEq

/-- A row of `product_template_attribute_line`. -/
structure Line where
  tmplId : ℤ
  attributeId : ℤ
  sequence : ℤ := 10
deriving DecidableEq

/-- A row of `product_attribute_value`. -/
structure AttributeValue where
  name : String
  sequence : ℤ
deriving DecidableEq

/-- A row of `product_template_attribute_value`. -/
structure Ptav where
  lineId : ℤ
  valueId : ℤ
  priceExtra : ℤ
  active : Bool := true
deriving DecidableEq

/-- A row of `product_product`. -/
structure Product where
  name : String
  listPrice : ℤ
  tmplId : Option ℤ
  active : Bool
  info : ProductInfo
deriving DecidableEq

structure VariantDb where
  attributes : List ℤ
  values : ℤ → Option AttributeValue
  templates : ℤ → Option Template
  lines : Table Line
  ptavs : Table Ptav
  products : Table Product
  /-- The rows `(product_id, ptav_id)`. -/
  combinations : List (ℤ × ℤ)

namespace VariantDb

variable (db : VariantDb)

/-- The ids of a template's variants. -/
def variants (tmpl : ℤ) : List ℤ :=
  (db.products.rows.filter fun r => r.2.tmplId == some tmpl).map Prod.fst

/-- The values a variant stands for. -/
def ptavsOf (pid : ℤ) : List ℤ := (db.combinations.filter fun r => r.1 == pid).map Prod.snd

def combination (pid : ℤ) : Finset ℤ := (db.ptavsOf pid).toFinset

/-- `WHERE product_tmpl_id=$1 AND attribute_id=$2`. -/
def findLine (tmpl attr : ℤ) : Option ℤ :=
  (db.lines.rows.find? fun r => r.2.tmplId == tmpl && r.2.attributeId == attr).map Prod.fst

/-- `WHERE line_id=$1 AND value_id=$2`. -/
def findPtav (lineId valueId : ℤ) : Option ℤ :=
  (db.ptavs.rows.find? fun r => r.2.lineId == lineId && r.2.valueId == valueId).map Prod.fst

end VariantDb

/-! ### Attribute lines -/

/-- What `set_attribute_line` reads: the template, the attribute, and for each item
its value and extra. -/
structure LineRequest where
  tmpl : ℤ
  attr : ℤ
  items : List (ℤ × ℤ)

/-- One item of the values: the value is put in or revived, and kept. -/
def setValue (lineId : ℤ) (s : VariantDb × List ℤ) (item : ℤ × ℤ) :
    Except String (VariantDb × List ℤ) :=
  if item.1 ≤ 0 then .ok s
  else match s.1.findPtav lineId item.1 with
    | none =>
        if (s.1.values item.1).isSome then
          .ok ({ s.1 with ptavs := s.1.ptavs.insert ⟨lineId, item.1, item.2, true⟩ },
            s.2 ++ [s.1.ptavs.nextId])
        else .error "violates foreign key constraint on product_attribute_value"
    | some id =>
        .ok ({ s.1 with ptavs := s.1.ptavs.modify id fun v =>
          { v with priceExtra := item.2, active := true } }, s.2 ++ [id])

/-- The values of a line that are not kept are deactivated, not deleted. -/
def dropOthers (db : VariantDb) (lineId : ℤ) (keep : List ℤ) : VariantDb :=
  let others := fun (id : ℤ) (v : Ptav) => v.lineId == lineId && !keep.contains id
  { db with ptavs := db.ptavs.updateWhere others fun v => { v with active := false } }

/-- The values of a line: the items are put in, and the others are dropped. -/
def setValues (db : VariantDb) (lineId : ℤ) (items : List (ℤ × ℤ)) : Except String VariantDb := do
  let s ← items.foldlM (setValue lineId) (db, [])
  return dropOthers s.1 lineId s.2

def handleSetLine (db : VariantDb) (r : LineRequest) : Except String VariantDb :=
  if r.tmpl ≤ 0 ∨ r.attr ≤ 0 then .error "A template and an attribute are required."
  else match db.findLine r.tmpl r.attr with
    | some lineId => setValues db lineId r.items
    | none =>
        if (db.templates r.tmpl).isSome ∧ r.attr ∈ db.attributes then
          setValues { db with lines := db.lines.insert ⟨r.tmpl, r.attr, 10⟩ } db.lines.nextId r.items
        else .error "violates foreign key constraint on product_template_attribute_line"

/-- The row names a value of the line. -/
def VariantDb.names (db : VariantDb) (lineId : ℤ) (r : ℤ × ℤ) : Bool :=
  (db.ptavs.get? r.2).any fun v => v.lineId == lineId

/-- The line goes, with its values and the rows that name them. -/
def handleRemoveLine (db : VariantDb) (lineId : ℤ) : Except String VariantDb :=
  if lineId ≤ 0 then .error "A line id is required."
  else .ok { db with
    lines := db.lines.delete fun id _ => id == lineId
    ptavs := db.ptavs.delete fun _ v => v.lineId == lineId
    combinations := db.combinations.filter fun r => !db.names lineId r }

/-! ### Generation -/

/-- A value of an axis. -/
structure Val where
  ptav : ℤ
  name : String
  extra : ℤ
deriving DecidableEq

/-- `ORDER BY sequence, id`. -/
def inOrder (a b : ℤ × ℤ) : Prop := a.1 < b.1 ∨ (a.1 = b.1 ∧ a.2 ≤ b.2)

instance (a b : ℤ × ℤ) : Decidable (inOrder a b) := inferInstanceAs (Decidable (_ ∨ _))

/-- The active values of a line, each with its attribute value. -/
def activeValues (db : VariantDb) (lineId : ℤ) : List (ℤ × Ptav × AttributeValue) :=
  ((db.ptavs.rows.filter fun r => r.2.lineId == lineId && r.2.active).filterMap fun r =>
    (db.values r.2.valueId).map fun v => (r.1, r.2, v)).insertionSort fun a b =>
      inOrder (a.2.2.sequence, a.2.1.valueId) (b.2.2.sequence, b.2.1.valueId)

def axis (db : VariantDb) (lineId : ℤ) : List Val :=
  (activeValues db lineId).map fun a => ⟨a.1, a.2.2.name, a.2.1.priceExtra⟩

/-- The lines of a template. -/
def linesOf (db : VariantDb) (tmpl : ℤ) : List ℤ :=
  ((db.lines.rows.filter fun r => r.2.tmplId == tmpl).insertionSort fun a b =>
    inOrder (a.2.sequence, a.1) (b.2.sequence, b.1)).map Prod.fst

/-- An attribute with no values is skipped. -/
def axes (db : VariantDb) (tmpl : ℤ) : List (List Val) :=
  ((linesOf db tmpl).map (axis db)).filter fun vals => !vals.isEmpty

/-- The cartesian product; without an axis, one empty combination. -/
def combos {α : Type*} (axes : List (List α)) : List (List α) :=
  axes.foldl (fun combos axis => combos.flatMap fun sofar => axis.map fun v => sofar ++ [v]) [[]]

def idsOf (combo : List Val) : List ℤ := combo.map Val.ptav

def extraOf (combo : List Val) : ℤ := (combo.map Val.extra).sum

/-- `suffix.empty() ? baseName : baseName + " (" + suffix + ")"`. -/
def variantName (baseName : String) (combo : List Val) : String :=
  let suffix := ", ".intercalate (combo.map Val.name)
  if suffix.isEmpty then baseName else baseName ++ " (" ++ suffix ++ ")"

/-- The text a variant's combination is matched by. -/
def keyOf (db : VariantDb) (pid : ℤ) : String := NumberLists.setText (db.ptavsOf pid)

/-- `existing`: of several variants with one key the last row stays. -/
def existing (db : VariantDb) (order : List ℤ) : AList fun _ : String => ℤ :=
  order.foldl (fun m pid => m.insert (keyOf db pid) pid) ∅

structure Making where
  db : VariantDb
  live : List ℤ := []
  created : ℕ := 0
  kept : ℕ := 0

/-- `ON CONFLICT DO NOTHING`. -/
def addRow (pid : ℤ) (rows : List (ℤ × ℤ)) (ptav : ℤ) : List (ℤ × ℤ) :=
  if (pid, ptav) ∈ rows then rows else rows ++ [(pid, ptav)]

/-- One combination: its variant is kept, or made. -/
def makeVariant (tmpl : ℤ) (t : Template) (existing : AList fun _ : String => ℤ) (m : Making)
    (combo : List Val) : Making :=
  let ids := (idsOf combo).insertionSort (· ≤ ·)
  match existing.lookup (NumberLists.listText ids) with
  | some pid =>
      { m with
        db := { m.db with products := m.db.products.modify pid fun p =>
          { p with listPrice := t.listPrice + extraOf combo, active := true } }
        live := m.live ++ [pid]
        kept := m.kept + 1 }
  | none =>
      let pid := m.db.products.nextId
      { m with
        db := { m.db with
          products := m.db.products.insert {
            name := variantName t.name combo
            listPrice := t.listPrice + extraOf combo
            tmplId := some tmpl
            active := true
            info := t.info }
          combinations := ids.foldl (addRow pid) m.db.combinations }
        live := m.live ++ [pid]
        created := m.created + 1 }

/-- `UPDATE product_product SET active=FALSE WHERE id=$1`. -/
def archive (db : VariantDb) (pid : ℤ) : VariantDb :=
  { db with products := db.products.modify pid fun p => { p with active := false } }

/-- The answer. -/
structure Generated where
  created : ℕ
  kept : ℕ
  archived : ℕ
  variants : ℕ
deriving DecidableEq

def handleGenerate (db : VariantDb) (tmpl : ℤ) (order : List ℤ) :
    Except String (VariantDb × Generated) :=
  if tmpl ≤ 0 then .error "A product template is required."
  else match db.templates tmpl with
    | none => .error "No such product template."
    | some t =>
        let cs := combos (axes db tmpl)
        let ex := existing db order
        let m := cs.foldl (makeVariant tmpl t ex) { db := db }
        let gone := (ex.entries.map Sigma.snd).filter fun pid => !m.live.contains pid
        .ok (gone.foldl archive m.db, ⟨m.created, m.kept, gone.length, cs.length⟩)

/-! ### Events -/

inductive Event where
  | setLine (r : LineRequest)
  | removeLine (lineId : ℤ)
  /-- With the order the query gives the variants in. -/
  | generate (tmpl : ℤ) (order : List ℤ)

/-- What a call leaves; a refused one leaves the tables as they were. -/
def step (db : VariantDb) : Event → Option VariantDb
  | .setLine r =>
      match handleSetLine db r with
      | .ok db' => some db'
      | .error _ => some db
  | .removeLine lineId =>
      match handleRemoveLine db lineId with
      | .ok db' => some db'
      | .error _ => some db
  | .generate tmpl order =>
      if order.Perm (db.variants tmpl) then
        match handleGenerate db tmpl order with
        | .ok (db', _) => some db'
        | .error _ => some db
      else none

/-! ### What variants are for -/

/-- A choice of one active value for each attribute line that has any. -/
structure Chosen (db : VariantDb) (tmpl : ℤ) (s : Finset ℤ) : Prop where
  active : ∀ v ∈ s, ∃ pt l, db.ptavs.get? v = some pt ∧ pt.active = true ∧
    db.lines.get? pt.lineId = some l ∧ l.tmplId = tmpl
  one : ∀ lineId l, db.lines.get? lineId = some l → l.tmplId = tmpl →
    (∃ v pt, db.ptavs.get? v = some pt ∧ pt.lineId = lineId ∧ pt.active = true) →
    ∃! v, v ∈ s ∧ ∃ pt, db.ptavs.get? v = some pt ∧ pt.lineId = lineId

/-- An active variant of the template for a combination. -/
def IsVariant (db : VariantDb) (tmpl : ℤ) (s : Finset ℤ) (pid : ℤ) : Prop :=
  (∃ p, db.products.get? pid = some p ∧ p.tmplId = some tmpl ∧ p.active = true) ∧
    db.combination pid = s

/-- The template's list price and the extras of the values. -/
def priceOf (db : VariantDb) (t : Template) (s : Finset ℤ) : ℤ :=
  t.listPrice + ∑ v ∈ s, ((db.ptavs.get? v).map Ptav.priceExtra).getD 0

/-- The active variants are the combinations, one each, at their prices. -/
structure Exact (db : VariantDb) (tmpl : ℤ) (t : Template) : Prop where
  every : ∀ s, Chosen db tmpl s → ∃! pid, IsVariant db tmpl s pid
  only : ∀ pid s, IsVariant db tmpl s pid → Chosen db tmpl s
  price : ∀ pid s, IsVariant db tmpl s pid →
    (db.products.get? pid).map Product.listPrice = some (priceOf db t s)

/-- The line has a value that a variant stands for. -/
def Used (db : VariantDb) (lineId : ℤ) : Prop := ∃ r ∈ db.combinations, db.names lineId r = true

instance (db : VariantDb) (lineId : ℤ) : Decidable (Used db lineId) :=
  inferInstanceAs (Decidable (∃ r ∈ db.combinations, _))

/-- No line is removed that a variant stands for. -/
def Spares (db : VariantDb) : Event → Prop
  | .removeLine lineId => ¬ Used db lineId
  | _ => True

end ProductVariants

end CErp
