/-
The search path every model shares, and the arguments a remote search carries.

`foundRows` are the rows the merged domain and the company clause select;
`searchRead` pages them and turns each into a record.  `searchRead_single`
says that a page of one row can be made of any found row, and
`searchRead_found` that a page holds nothing else.
-/
import CErp.BaseModel
import CErp.RecordRules
import CErp.SessionManager

namespace CErp

open Sql Text Outcome List Json

/-! ### The arguments of a remote search -/

namespace CallKwArgs

/-- `args[0]` as a domain. -/
def domain (c : CallKwArgs) : Json :=
  match c.args with
  | .arr (d :: _) => d
  | _ => .arr []

/-- A keyword argument under a key, or a default. -/
def kwValue {α : Type} (c : CallKwArgs) (key : String) (get : Json → Except String α)
    (default : α) : Except String α :=
  match c.kwargs with
  | .obj fields =>
      match fields.lookup key with
      | some v => get v
      | none => .ok default
  | j => .error ("[json.exception.type_error.306] cannot use value() with " ++ j.typeName)

def limit (c : CallKwArgs) : Except String ℤ := c.kwValue "limit" getInt 0

def offset (c : CallKwArgs) : Except String ℤ := c.kwValue "offset" getInt 0

/-- `kwargs["fields"]`, empty where it is no array. -/
def fields (c : CallKwArgs) : Except String (List String) :=
  match c.kwargs.find? "fields" with
  | some (.arr items) => items.mapM getString
  | _ => .ok []

def isWordChar (c : Char) : Bool := c.isAlphanum || c == '_'

/-- What follows a keyword, in any case; the text itself where it is not
there, or is only the start of a longer word. -/
def afterWord (word : String) (cs : List Char) : List Char :=
  let rest := cs.drop word.length
  if (cs.take word.length).map Char.toUpper = word.toList ∧ !(rest.head?.any isWordChar) then rest
  else cs

/-- The terms of an order clause: a column, and a direction if there is one. -/
def orderTerms : ℕ → List Char → Bool
  | 0, cs => cs.isEmpty
  | _ + 1, [] => true
  | fuel + 1, cs =>
      match cs.dropWhile isBlank with
      | c :: body =>
          if c.isAlpha || c == '_' then
            let tail := (body.dropWhile isWordChar).dropWhile isBlank
            let afterAsc := afterWord "ASC" tail
            let rest := (if afterAsc = tail then afterWord "DESC" tail else afterAsc)
            match rest.dropWhile isBlank with
            | [] => true
            | ',' :: more => orderTerms fuel more
            | _ => false
          else false
      | [] => false

/-- `kwargs["order"]`, refused unless it is a list of columns with directions. -/
def order (c : CallKwArgs) : Except String String := do
  let raw ← c.kwValue "order" getString ""
  require (raw = "" ∨ orderTerms raw.length raw.toList) ("Invalid order clause: " ++ raw)
  return raw

end CallKwArgs

/-! ### Models and their tables -/

/-- What the database brings to a SELECT besides: the columns the table really
has, those of 64 bits, and the order of a result. -/
structure ReadSchema extends Schema where
  hasColumn : String → Bool
  bigint : String → Bool
  bigint_id : bigint "id" = false
  orderBy : String → List (ℤ × Row) → Except String (List (ℤ × Row))
  orderBy_perm : ∀ {order rows sorted}, orderBy order rows = .ok sorted → sorted.Perm rows
  orderBy_id : ∀ rows, ∃ sorted, orderBy "id ASC" rows = .ok sorted

/-- A model as the server has it. -/
structure ServedModel where
  derived : Derived
  schema : ReadSchema
  interp : Interp (ℤ × Row)

/-- A model's table.  Its identifiers are 32-bit serials. -/
structure SerialTable extends Table Row where
  serial : ∀ r ∈ rows, 0 < r.1 ∧ r.1 < 2 ^ 31

/-- Serials bound the number of rows. -/
lemma SerialTable.length_lt (t : SerialTable) : t.rows.length < 2 ^ 31 := by
  have hsub : (t.rows.map Prod.fst).toFinset ⊆ Finset.Ioo 0 (2 ^ 31 : ℤ) := by
    intro i hi
    obtain ⟨r, hr, rfl⟩ := mem_map.mp (mem_toFinset.mp hi)
    exact Finset.mem_Ioo.mpr (t.serial r hr)
  have hcard := Finset.card_le_card hsub
  rw [toFinset_card_of_nodup t.nodup, length_map, Int.card_Ioo] at hcard
  omega

variable [FloatText]

/-! ### Rows as records -/

/-- The value of a column. -/
def cell (r : ℤ × Row) (col : String) : SqlValue :=
  if col = "id" then .int r.1
  else if col = "company_id" then
    match r.2.companyId with
    | some c => .int c
    | none => .null
  else r.2.cells col

/-- A column's value as JSON; 64-bit columns of scaled fields are micro-units. -/
def cellJson (m : ServedModel) (col : String) : SqlValue → Json
  | .null => .null
  | .bool b => .bool b
  | .int i =>
      if m.schema.bigint col && m.derived.registry.isScaled col then
        .float (Money.toJson { micros := i })
      else .num i
  | .double x => .float x
  | .text s => .str s

/-- One row of a result, under the names of its columns. -/
def record (m : ServedModel) (cols : List String) (r : ℤ × Row) : Values :=
  cols.map fun col => (col, cellJson m col (cell r col))

omit [FloatText] in
lemma record_lookup (m : ServedModel) {cols : List String} (r : ℤ × Row) {col : String}
    (h : col ∈ cols) : (record m cols r).lookup col = some (cellJson m col (cell r col)) := by
  induction cols with
  | nil => cases h
  | cons c cols ih =>
      show lookup col ((c, cellJson m c (cell r c)) :: record m cols r) = _
      rw [lookup_cons]
      rcases e : col == c with - | -
      · -- the first column is another one
        have hne : col ≠ c := beq_eq_false_iff_ne.mp e
        show lookup col (record m cols r) = _
        exact ih ((mem_cons.mp h).resolve_left hne)
      · rw [beq_iff_eq.mp e]

/-! ### Searching -/

/-- The column an order term names. -/
def orderColumn (token : List Char) : Option String :=
  match token.dropWhile isBlank with
  | [] => none
  | cs => some (String.ofList (cs.takeWhile fun c => !isBlank c))

/-- Every column of an order clause is registered. -/
def validateOrder (reg : FieldRegistry) (order : String) : Except String Unit :=
  match ((splitCommas order).filterMap orderColumn).find? fun col => !(col == "id" || reg.has col)
  with
  | some col => .error ("Unknown order field: " ++ col)
  | none => .ok ()

/-- The columns of a SELECT; names no field is registered under are dropped. -/
def buildSelectCols (reg : FieldRegistry) (fields : List String) : List String :=
  match fields with
  | [] => reg.storedColumnNames
  | _ => "id" :: fields.filter fun f => f != "id" && reg.has f

def kMaxPageSize : ℤ := 1000

/-- The rows a search is about: the domain merged with the rules, and the
company clause. -/
def foundRows (m : ServedModel) (engine : Option RuleEngine) (c : Caller) (rows : List (ℤ × Row))
    (domainJson : Json) : Except String (List (ℤ × Row)) := do
  let merged ← mergeRuleDomain engine m.derived.modelName c.ctx domainJson .read
  let domain ← domainFromJson merged
  let (cond, params) ← domain.toCond (some m.derived.registry.storedColumnNames) ""
  return rows.filter fun r =>
    passes m.interp (some (cond, params)) r && companyVisible m.schema.toSchema c r.2

/-- LIMIT and OFFSET of a result. -/
def page (limit offset : ℤ) (rows : List (ℤ × Row)) : List (ℤ × Row) :=
  (rows.drop offset.toNat).take
    (if limit ≤ 0 ∨ limit > kMaxPageSize then kMaxPageSize else limit).toNat

/-- `BaseModel::searchRead`. -/
def searchRead (m : ServedModel) (engine : Option RuleEngine) (c : Caller) (rows : List (ℤ × Row))
    (domainJson : Json) (fields : List String) (limit offset : ℤ) (order : String) :
    Except String (List Values) := do
  validateOrder m.derived.registry order
  let found ← foundRows m engine c rows domainJson
  let cols := buildSelectCols m.derived.registry fields
  require (cols.all m.schema.hasColumn = true) "ERROR:  column does not exist"
  let sorted ← m.schema.orderBy order found
  return (page limit offset sorted).map (record m cols)

/-- `BaseModel::searchCount`. -/
def searchCount (m : ServedModel) (engine : Option RuleEngine) (c : Caller) (rows : List (ℤ × Row))
    (domainJson : Json) : Except String ℕ :=
  (foundRows m engine c rows domainJson).map length

/-! ### Rows by id -/

/-- The rows a statement on some ids is about: the rule on its own, and the
company clause. -/
def addressedRows (m : ServedModel) (engine : Option RuleEngine) (op : RuleOp) (c : Caller)
    (rows : List (ℤ × Row)) (ids : List ℤ) : Except String (List (ℤ × Row)) := do
  let clause ← ruleClause engine m.derived op c
  return rows.filter fun r =>
    ids.contains r.1 && passes m.interp clause r && companyVisible m.schema.toSchema c r.2

/-- `BaseModel::read`. -/
def readByIds (m : ServedModel) (engine : Option RuleEngine) (c : Caller) (rows : List (ℤ × Row))
    (ids : List ℤ) (fields : List String) : Except String (List Values) := do
  if ids.isEmpty then return []
  else
    let cols := buildSelectCols m.derived.registry fields
    let addressed ← addressedRows m engine .read c rows ids
    require (cols.all m.schema.hasColumn = true) "ERROR:  column does not exist"
    return addressed.map (record m cols)

/-- `BaseModel::unlink`: the table after the DELETE. -/
def unlink (m : ServedModel) (engine : Option RuleEngine) (c : Caller) (t : Table Row)
    (ids : List ℤ) : Except String (Table Row) := do
  if ids.isEmpty then return t
  else
    let clause ← ruleClause engine m.derived .unlink c
    let t' := t.delete fun id row =>
      ids.contains id && passes m.interp clause (id, row) &&
        companyVisible m.schema.toSchema c row
    m.schema.constraints t'
    return t'

/-! ### What a search returns -/

section

variable {m : ServedModel} {engine : Option RuleEngine} {c : Caller} {rows found : List (ℤ × Row)}
variable {domainJson : Json} {fields : List String} {limit offset : ℤ} {order : String}

lemma foundRows_sublist (h : foundRows m engine c rows domainJson = .ok found) :
    found.Sublist rows := by
  obtain ⟨merged, -, h⟩ := bind_ok_iff.mp h
  obtain ⟨domain, -, h⟩ := bind_ok_iff.mp h
  obtain ⟨⟨cond, params⟩, -, h⟩ := bind_ok_iff.mp h
  rw [← pure_ok_iff.mp h]
  exact filter_sublist

lemma foundRows_subset (h : foundRows m engine c rows domainJson = .ok found) :
    ∀ r ∈ found, r ∈ rows := fun _ hr => (foundRows_sublist h).subset hr

lemma foundRows_length_le (h : foundRows m engine c rows domainJson = .ok found) :
    found.length ≤ rows.length := (foundRows_sublist h).length_le

/-- The rows of an answered search are those that satisfy the merged domain. -/
lemma foundRows_ok (h : foundRows m engine c rows domainJson = .ok found) :
    ∃ merged dom, mergeRuleDomain engine m.derived.modelName c.ctx domainJson .read = .ok merged ∧
      domainFromJson merged = .ok dom ∧
      dom.root.compiles (some m.derived.registry.storedColumnNames) = true ∧
      ∃ p : ℤ × Row → Bool, found = rows.filter p ∧ ∀ r, p r = true ↔
        dom.Satisfies (some m.derived.registry.storedColumnNames) m.interp r ∧
          companyVisible m.schema.toSchema c r.2 = true := by
  obtain ⟨merged, hmerged, h⟩ := bind_ok_iff.mp h
  obtain ⟨dom, hdom, h⟩ := bind_ok_iff.mp h
  obtain ⟨⟨cond, params⟩, hcond, h⟩ := bind_ok_iff.mp h
  refine ⟨merged, dom, hmerged, hdom, (dom.toCond_isOk _).mp ⟨cond, params, hcond⟩, _,
    (pure_ok_iff.mp h).symm, ?_⟩
  intro r
  rw [dom.satisfies_of_toCond _ m.interp r hcond, Bool.and_eq_true_iff]
  exact and_congr_left fun _ => beq_iff_eq

lemma foundRows_of_compiles {merged : Json} {dom : Domain}
    (hmerged : mergeRuleDomain engine m.derived.modelName c.ctx domainJson .read = .ok merged)
    (hdom : domainFromJson merged = .ok dom)
    (h : dom.root.compiles (some m.derived.registry.storedColumnNames) = true)
    (rows : List (ℤ × Row)) : ∃ found, foundRows m engine c rows domainJson = .ok found := by
  obtain ⟨cond, params, hcond⟩ := (dom.toCond_isOk _).mpr h
  exact ⟨_, bind_ok_iff.mpr ⟨merged, hmerged, bind_ok_iff.mpr ⟨dom, hdom,
    bind_ok_iff.mpr ⟨(cond, params), hcond, rfl⟩⟩⟩⟩

/-- **An answered search.**  The order is one of registered fields, the columns
exist, and the records are a page of the found rows in that order. -/
theorem searchRead_ok_iff {records : List Values} :
    searchRead m engine c rows domainJson fields limit offset order = .ok records ↔
      validateOrder m.derived.registry order = .ok () ∧
      (buildSelectCols m.derived.registry fields).all m.schema.hasColumn = true ∧
      ∃ found sorted, foundRows m engine c rows domainJson = .ok found ∧
        m.schema.orderBy order found = .ok sorted ∧
        records = (page limit offset sorted).map
          (record m (buildSelectCols m.derived.registry fields)) := by
  constructor
  · intro h
    obtain ⟨⟨⟩, horder, h⟩ := bind_ok_iff.mp h
    obtain ⟨found, hfound, h⟩ := bind_ok_iff.mp h
    obtain ⟨u, hcols, h⟩ := bind_ok_iff.mp h
    obtain ⟨sorted, hsorted, h⟩ := bind_ok_iff.mp h
    exact ⟨horder, require_ok_iff.mp hcols, found, sorted, hfound, hsorted, (pure_ok_iff.mp h).symm⟩
  · rintro ⟨horder, hcols, found, sorted, hfound, hsorted, rfl⟩
    refine bind_ok_iff.mpr ⟨(), horder, ?_⟩
    refine bind_ok_iff.mpr ⟨found, hfound, ?_⟩
    refine bind_ok_iff.mpr ⟨(), require_ok_iff.mpr hcols, ?_⟩
    exact bind_ok_iff.mpr ⟨sorted, hsorted, rfl⟩

omit [FloatText] in
lemma id_mem_buildSelectCols (reg : FieldRegistry) (fields : List String) :
    "id" ∈ buildSelectCols reg fields := by
  rcases fields with - | ⟨f, fields⟩
  · exact mem_cons_self
  · exact mem_cons_self

omit [FloatText] in
/-- A requested field that is registered is selected. -/
lemma mem_buildSelectCols {reg : FieldRegistry} {fields : List String} {f : String}
    (hmem : f ∈ fields) (hf : f = "id" ∨ reg.has f = true) : f ∈ buildSelectCols reg fields := by
  rcases fields with - | ⟨g, fields⟩
  · cases hmem
  · show f ∈ "id" :: filter _ _
    rcases hf with rfl | hf
    · exact mem_cons_self
    · rcases e : f == "id" with - | -
      · have hkeep : (f != "id" && reg.has f) = true := by simp [bne, e, hf]
        exact mem_cons_of_mem _ (mem_filter.mpr ⟨hmem, hkeep⟩)
      · rw [beq_iff_eq.mp e]
        exact mem_cons_self

/-- A page holds records of found rows. -/
lemma searchRead_found {records : List Values} {rec : Values}
    (h : searchRead m engine c rows domainJson fields limit offset order = .ok records)
    (hrec : rec ∈ records) :
    ∃ found, foundRows m engine c rows domainJson = .ok found ∧
      ∃ r ∈ found, rec = record m (buildSelectCols m.derived.registry fields) r := by
  obtain ⟨-, -, found, sorted, hfound, hsorted, rfl⟩ := searchRead_ok_iff.mp h
  obtain ⟨r, hr, rfl⟩ := mem_map.mp hrec
  have hmem : r ∈ sorted := mem_of_mem_drop (mem_of_mem_take hr)
  exact ⟨found, hfound, r, (m.schema.orderBy_perm hsorted).mem_iff.mp hmem, rfl⟩

/-- Any found row is the only row of some page. -/
lemma searchRead_single {r : ℤ × Row}
    (horder : validateOrder m.derived.registry order = .ok ())
    (hcols : (buildSelectCols m.derived.registry fields).all m.schema.hasColumn = true)
    (hfound : foundRows m engine c rows domainJson = .ok found) (hr : r ∈ found)
    {sorted : List (ℤ × Row)} (hsorted : m.schema.orderBy order found = .ok sorted) :
    ∃ k < rows.length, searchRead m engine c rows domainJson fields 1 (k : ℤ) order =
        .ok [record m (buildSelectCols m.derived.registry fields) r] := by
  have hperm := m.schema.orderBy_perm hsorted
  obtain ⟨k, hk, hget⟩ := mem_iff_getElem.mp (hperm.mem_iff.mpr hr)
  have hlen : sorted.length ≤ rows.length := hperm.length_eq ▸ foundRows_length_le hfound
  have hpage : page 1 (k : ℤ) sorted = [r] := by
    show (sorted.drop k).take 1 = [r]
    rw [drop_eq_getElem_cons hk, hget]
    rfl
  refine ⟨k, by omega, searchRead_ok_iff.mpr ⟨horder, hcols, found, sorted, hfound, hsorted, ?_⟩⟩
  rw [hpage]
  rfl

end

end CErp
