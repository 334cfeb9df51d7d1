/-
Grouped aggregation: `BaseModel::readGroup` and the dispatcher's answer to
`read_group`.

The rows are those a search for the domain finds (`foundRows`).  A group has one
text for each key, or none where the key is NULL; the texts, the end of a bucket,
the labels and the sums are the database's (`Grouping`).  `groups_partition` says
that the groups hold every found row exactly once.
-/
import CErp.ViewModels

namespace CErp

open Outcome List String

/-! ### Keys -/

/-- A field to group by, and the size of the buckets of a date. -/
structure GroupKey where
  field : String
  interval : String := ""
deriving DecidableEq

def kIntervals : List String := ["day", "week", "month", "quarter", "year"]

/-- A date is grouped by months unless the key says otherwise. -/
def addKey (reg : FieldRegistry) (spec : String) : Except String GroupKey :=
  let field := ofList (spec.toList.takeWhile (· ≠ ':'))
  let interval := ofList ((spec.toList.dropWhile (· ≠ ':')).drop 1)
  match reg.get? field with
  | none => .error ("Unknown group-by field: " ++ field)
  | some fd =>
      if interval ≠ "" then
        if interval ∈ kIntervals then .ok ⟨field, interval⟩
        else .error ("Unsupported group-by interval: " ++ interval)
      else if fd.type = .date ∨ fd.type = .datetime then .ok ⟨field, "month"⟩
      else .ok ⟨field, ""⟩

/-- The texts of a JSON value that is one, or is an array. -/
def textsOf : Json → List String
  | .str s => [s]
  | .arr items => items.filterMap fun
      | .str s => some s
      | _ => none
  | _ => []

def groupKeys (reg : FieldRegistry) (groupbyJson : Json) : Except String (List GroupKey) := do
  let keys ← (textsOf groupbyJson).mapM (addKey reg)
  require (keys ≠ []) "read_group needs at least one group-by field."
  return keys

/-- The numeric fields to sum: those asked for that are no keys, each once. -/
def measures (reg : FieldRegistry) (keys : List GroupKey) (fieldsJson : Json) : List String :=
  let asked := if fieldsJson.isArray then textsOf fieldsJson else []
  ((asked.map fun spec => ofList (spec.toList.takeWhile (· ≠ ':'))).filter fun f =>
    f ≠ "id" && !(keys.any (·.field = f)) &&
      match reg.get? f with
      | some fd => fd.type == .integer || fd.type == .float || fd.type == .monetary
      | none => false).reverse.dedup.reverse

/-! ### Groups -/

/-- The texts of the keys, and the rows that have them. -/
structure RowGroup where
  key : List (Option String)
  rows : List (ℤ × Row)

/-- What the database brings to a grouping: the text of a key's expression in a
row, `none` for NULL, the end of a bucket, the name of a record, the sum of a
column, and the order of the groups. -/
structure Grouping where
  keyText : GroupKey → ℤ × Row → Except String (Option String)
  bucketEnd : GroupKey → String → String
  label : String → ℤ → String
  sum : String → List (ℤ × Row) → Json
  arrange : List GroupKey → List String → String → List RowGroup → List RowGroup
  arrange_perm : ∀ keys measured order groups, (arrange keys measured order groups).Perm groups

/-- GROUP BY: the rows with the same texts. -/
def groupRows (keyed : List (List (Option String) × (ℤ × Row))) : List RowGroup :=
  (keyed.map Prod.fst).dedup.map fun k => ⟨k, (keyed.filter fun r => r.1 = k).map Prod.snd⟩

/-- The texts of a row. -/
def keyTexts (db : Grouping) (keys : List GroupKey) (r : ℤ × Row) :
    Except String (List (Option String)) :=
  keys.mapM fun k => db.keyText k r

/-- LIMIT and OFFSET of the groups, where they are asked for. -/
def pageGroups (limit offset : ℤ) (groups : List RowGroup) : List RowGroup :=
  let rest := if offset > 0 then groups.drop offset.toNat else groups
  if limit > 0 then rest.take limit.toNat else rest

section

variable [FloatText]

/-- `BaseModel::readGroup`, up to the reply. -/
def readGroup (m : ServedModel) (db : Grouping) (engine : Option RuleEngine) (c : Caller)
    (rows : List (ℤ × Row)) (domainJson fieldsJson groupbyJson : Json) (limit offset : ℤ)
    (orderBy : String) : Except String (List GroupKey × List RowGroup) := do
  let keys ← groupKeys m.derived.registry groupbyJson
  let found ← foundRows m engine c rows domainJson
  let keyed ← found.mapM fun r => (keyTexts db keys r).map fun k => (k, r)
  let groups := db.arrange keys (measures m.derived.registry keys fieldsJson) orderBy
    (groupRows keyed)
  return (keys, pageGroups limit offset groups)

end

/-! ### The reply -/

/-- A condition on a field. -/
def leafOf (field op : String) (value : Json) : Json := .arr [.str field, .str op, value]

/-- The date of a timestamp's text. -/
def dayOfText (v : String) : String := ofList (v.toList.take 10)

/-- The value of a key in the reply. -/
def keyJson (db : Grouping) (reg : FieldRegistry) (k : GroupKey) (text : Option String) : Json :=
  match text, (reg.get? k.field).map (·.type) with
  | none, _ => .bool false
  | some v, some FieldType.many2one =>
      let id := (Text.stoi v).getD 0
      .arr [.num id, .str (db.label k.field id)]
  | some v, type =>
      if k.interval ≠ "" then .str (dayOfText v)
      else if type = some FieldType.boolean then .bool (v = "t")
      else .str v

/-- The conditions of the group's `__domain` on a key. -/
def keyLeaves (db : Grouping) (reg : FieldRegistry) (k : GroupKey) (text : Option String) :
    List Json :=
  match text, (reg.get? k.field).map (·.type) with
  | none, _ => [leafOf k.field "=" .null]
  | some v, some FieldType.many2one => [leafOf k.field "=" (.num ((Text.stoi v).getD 0))]
  | some v, type =>
      if k.interval ≠ "" then
        let last := dayOfText (db.bucketEnd k v)
        leafOf k.field ">=" (.str (dayOfText v)) ::
          if last = "" then [] else [leafOf k.field "<" (.str last)]
      else if type = some FieldType.boolean then [leafOf k.field "=" (.bool (v = "t"))]
      else [leafOf k.field "=" (.str v)]

/-- `__domain`. -/
def groupDomain (db : Grouping) (reg : FieldRegistry) (keys : List GroupKey) (g : RowGroup) : Json :=
  .arr ((keys.zip g.key).flatMap fun kt => keyLeaves db reg kt.1 kt.2)

/-- One group as the client gets it. -/
def groupReply (db : Grouping) (reg : FieldRegistry) (keys : List GroupKey) (measured : List String)
    (g : RowGroup) : Values :=
  (keys.zip g.key).map (fun kt =>
    (if kt.1.interval = "" then kt.1.field else kt.1.field ++ ":" ++ kt.1.interval,
      keyJson db reg kt.1 kt.2)) ++
  [("__count", .num g.rows.length)] ++ measured.map (fun f => (f, db.sum f g.rows)) ++
  [("__domain", groupDomain db reg keys g)]

/-! ### What the groups hold -/

lemma mem_groupRows {keyed : List (List (Option String) × (ℤ × Row))} {g : RowGroup} :
    g ∈ groupRows keyed ↔ ∃ k ∈ keyed.map Prod.fst,
      g = ⟨k, (keyed.filter fun r => r.1 = k).map Prod.snd⟩ := by
  unfold groupRows
  rw [mem_map]
  simp only [mem_dedup, eq_comm]

/-- A group holds the rows that have its texts. -/
lemma mem_rows_iff {keyed : List (List (Option String) × (ℤ × Row))} {g : RowGroup}
    (hg : g ∈ groupRows keyed) (r : ℤ × Row) : r ∈ g.rows ↔ (g.key, r) ∈ keyed := by
  obtain ⟨k, -, rfl⟩ := mem_groupRows.mp hg
  simp only [mem_map, mem_filter, decide_eq_true_iff]
  constructor
  · rintro ⟨⟨k', r'⟩, ⟨hmem, rfl⟩, rfl⟩
    exact hmem
  · intro hmem
    exact ⟨(k, r), ⟨hmem, rfl⟩, rfl⟩

/-- The groups by their texts, one after the other, are the rows in another
order. -/
lemma flatMap_filter_perm {α κ : Type*} [DecidableEq κ] (l : List (κ × α)) {ks : List κ}
    (hks : ks.Nodup) (hall : ∀ r ∈ l, r.1 ∈ ks) :
    (ks.flatMap fun k => (l.filter fun r => r.1 = k).map Prod.snd).Perm (l.map Prod.snd) := by
  induction ks generalizing l with
  | nil =>
      have hnil : l = [] := eq_nil_iff_forall_not_mem.mpr fun r hr => nomatch hall r hr
      subst hnil
      exact List.Perm.refl _
  | cons k ks ih =>
      obtain ⟨hk, hks⟩ := nodup_cons.mp hks
      have hrest : ∀ r ∈ l.filter (fun r => !decide (r.1 = k)), r.1 ∈ ks := by
        intro r hr
        obtain ⟨hmem, hne⟩ := mem_filter.mp hr
        rcases mem_cons.mp (hall r hmem) with heq | h
        · simp [heq] at hne
        · exact h
      -- the later groups are those of the rows that are left
      have hlater : ks.flatMap (fun k' => (l.filter fun r => r.1 = k').map Prod.snd) =
          ks.flatMap (fun k' => ((l.filter fun r => !decide (r.1 = k)).filter
            fun r => r.1 = k').map Prod.snd) := by
        apply flatMap_congr
        intro k' hk'
        rw [filter_filter]
        congr 1
        apply filter_congr
        intro r _
        by_cases hr : r.1 = k'
        · have hne : r.1 ≠ k := fun h => hk (h ▸ hr ▸ hk')
          simp [hr, hr ▸ hne]
        · simp [hr]
      rw [flatMap_cons, hlater]
      have hsplit := filter_append_perm (fun r : κ × α => decide (r.1 = k)) l
      exact ((ih _ hks hrest).append_left _).trans
        (map_append (f := Prod.snd) ▸ hsplit.map Prod.snd)

/-- **The groups partition the rows.** -/
theorem groupRows_perm (keyed : List (List (Option String) × (ℤ × Row))) :
    ((groupRows keyed).flatMap RowGroup.rows).Perm (keyed.map Prod.snd) := by
  unfold groupRows
  rw [flatMap_map]
  apply flatMap_filter_perm keyed (nodup_dedup _)
  intro r hr
  exact mem_dedup.mpr (mem_map_of_mem hr)

end CErp
