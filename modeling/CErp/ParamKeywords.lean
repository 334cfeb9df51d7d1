/-
The vocabulary of parameter names: keywords, their aliases, and the names in use
on parameters.

Keywords and aliases share one space of normalised names.  A name resolves when
it is that of an active keyword or an alias of one; the ranking of near misses,
which rewrites nothing, is left out.  Texts are characters: a byte beyond ASCII is
neither letter nor digit, so a name normalises alike in bytes and in characters.
A call that is refused changes nothing; numbers of an id sequence that it uses up
are not counted.

`vocabulary_kept` says which calls keep what every spelling resolves to.
-/
import CErp.Json
import CErp.Naming
import CErp.Outcome
import CErp.Runs
import CErp.Table
import Mathlib

namespace CErp

open Option Char Table Json

namespace ParamKeywords

/-! ### Rows -/

/-- A row of `part_parameter_keyword`. -/
structure Keyword where
  name : String
  norm : String
  quantityKind : Option String
  defaultUnitId : Option ℤ
  advice : String
  active : Bool
deriving DecidableEq

/-- A row of `part_parameter_alias`. -/
structure Alias where
  keywordId : ℤ
  spelling : String
  norm : String
  source : String
deriving DecidableEq

structure KeywordDb where
  /-- The ids of `part_unit`. -/
  units : List ℤ
  keywords : Table Keyword
  aliases : Table Alias
  /-- The `name` of every row of `part_parameter`. -/
  names : List String

/-! ### Reading a call -/

def S (j : Json) (k : String) : String := ((j.find? k).getD .null).text

def I (j : Json) (k : String) : ℤ :=
  match j.find? k with
  | some (.num i) => toInt32 i
  | some (.float x) => truncFloat x
  | _ => 0

/-! ### Normalised names -/

def paramNorm (s : String) : String :=
  String.ofList ((s.toList.filter isAlphanum).map toLower)

/-- `lower(regexp_replace(name,'[^A-Za-z0-9]','','g'))`. -/
def sqlNorm (name : String) : String :=
  String.ofList ((name.toList.filter fun c =>
    ('A' ≤ c && c ≤ 'Z') || ('a' ≤ c && c ≤ 'z') || ('0' ≤ c && c ≤ '9')).map toLower)

namespace KeywordDb

variable (db : KeywordDb)

def findKeyword (norm : String) : Option (ℤ × Keyword) :=
  db.keywords.findBy fun k => k.norm == norm

def findAlias (norm : String) : Option (ℤ × Alias) :=
  db.aliases.findBy fun a => a.norm == norm

/-- The keyword an alias is joined with. -/
def joined (norm : String) : Option (ℤ × Keyword) :=
  (db.findAlias norm).bind fun a => (db.keywords.get? a.2.keywordId).map fun k => (a.2.keywordId, k)

end KeywordDb

inductive VerdictKind where
  | exact
  | aliased
deriving DecidableEq

structure ParamVerdict where
  kind : VerdictKind
  canonical : String
  keywordId : ℤ
  advice : String
deriving DecidableEq

/-- The verdict of a name that resolves; none where it is similar or unknown. -/
def matchParamName (db : KeywordDb) (raw : String) : Option ParamVerdict :=
  let norm := paramNorm raw
  if norm = "" then none
  else match db.keywords.findBy fun k => k.norm == norm && k.active with
    | some (id, k) => some ⟨.exact, k.name, id, k.advice⟩
    | none =>
        match db.joined norm with
        | some (id, k) => if k.active then some ⟨.aliased, k.name, id, k.advice⟩ else none
        | none => none

/-! ### Statements -/

/-- `INSERT INTO part_parameter_keyword … ON CONFLICT (norm) DO UPDATE SET active=true`. -/
def insertKeyword (db : KeywordDb) (k : Keyword) : Except String (KeywordDb × ℤ) :=
  match db.findKeyword k.norm with
  | some (id, _) =>
      .ok ({ db with
        keywords := (db.keywords.modify id fun k => { k with active := true }).skip }, id)
  | none =>
      if k.defaultUnitId.all db.units.contains then
        .ok ({ db with keywords := db.keywords.insert k }, db.keywords.nextId)
      else .error
        "insert or update on table \"part_parameter_keyword\" violates foreign key constraint"

/-- `addAlias_`. -/
def addAlias (source : String) (keywordId : ℤ) (db : KeywordDb) (spelling : String) :
    Except String KeywordDb :=
  let an := paramNorm spelling
  if an = "" then .ok db
  else match db.findKeyword an with
    | some (_, kw) => .error ("'" ++ spelling ++ "' is a parameter in its own right ('" ++ kw.name ++
        "'). Merge it instead of aliasing it.")
    | none =>
        match db.findAlias an with
        | some (id, _) => .ok { db with
            aliases := (db.aliases.modify id fun a => { a with keywordId := keywordId }).skip }
        | none => .ok { db with aliases := db.aliases.insert ⟨keywordId, spelling, an, source⟩ }

/-- `renameParams_`, with the number of rows it rewrites. -/
def renameParams (db : KeywordDb) (fromNorm toName : String) : KeywordDb × ℕ :=
  if fromNorm = "" then (db, 0)
  else
    let rewritten := fun n => sqlNorm n == fromNorm && n != toName
    ({ db with names := db.names.map fun n => if rewritten n then toName else n },
      (db.names.filter rewritten).length)

/-- `DELETE FROM part_parameter_alias WHERE norm=$1`. -/
def deleteAlias (db : KeywordDb) (norm : String) : KeywordDb :=
  { db with aliases := db.aliases.delete fun _ a => a.norm == norm }

/-- `UPDATE part_parameter_keyword SET name=$1, norm=$2`. -/
def setName (db : KeywordDb) (kid : ℤ) (name norm : String) : KeywordDb :=
  { db with keywords := db.keywords.modify kid fun k => { k with name := name, norm := norm } }

/-- `UPDATE part_parameter_alias SET keyword_id=$1 WHERE keyword_id=$2`. -/
def moveAliases (db : KeywordDb) (into fromId : ℤ) : KeywordDb :=
  { db with
    aliases := db.aliases.updateWhere (fun _ a => a.keywordId == fromId) fun a =>
      { a with keywordId := into } }

/-- `DELETE FROM part_parameter_keyword WHERE id=$1`, with its aliases. -/
def deleteKeyword (db : KeywordDb) (id : ℤ) : KeywordDb :=
  { db with
    keywords := db.keywords.delete fun i _ => i == id
    aliases := db.aliases.delete fun _ a => a.keywordId == id }

/-! ### Calls -/

/-- The aliases of a call. -/
def aliasesOf (v : Json) : List String :=
  match v.find? "aliases" with
  | some (.arr items) => items.filterMap fun al =>
      match al with
      | .str s => some s
      | _ => none
  | _ => []

/-- The keyword a call asks for. -/
def keywordOf (v : Json) : Keyword where
  name := S v "name"
  norm := paramNorm (S v "name")
  quantityKind := if (S v "quantity_kind").isEmpty then none else some (S v "quantity_kind")
  defaultUnitId := if 0 < I v "default_unit_id" then some (I v "default_unit_id") else none
  advice := ""
  active := true

def handleCreateKeyword (db : KeywordDb) (v : Json) : Except String (KeywordDb × ℤ) :=
  if paramNorm (S v "name") = "" then
    .error "A parameter name needs at least one letter or digit."
  else match db.joined (paramNorm (S v "name")) with
    | some (_, k) => .error ("'" ++ S v "name" ++ "' is already a spelling of '" ++ k.name ++
        "'. Remove that alias first if it should be its own parameter.")
    | none => do
        let (inserted, id) ← insertKeyword db (keywordOf v)
        let aliased ← (aliasesOf v).foldlM (addAlias "user" id) inserted
        .ok (aliased, id)

def handleAddAlias (db : KeywordDb) (v : Json) : Except String KeywordDb :=
  let kid := I v "keyword_id"
  let spelling := S v "alias"
  if kid ≤ 0 ∨ spelling = "" then .error "keyword_id and alias are required."
  else if (db.keywords.get? kid).isNone then .error "No such parameter."
  else addAlias (if S v "source" = "agent" then "agent" else "user") kid db spelling

/-- The id of an alias, given as a number or in an object. -/
def aliasIdOf (v : Json) : ℤ :=
  match v with
  | .num i => toInt32 i
  | .float x => truncFloat x
  | _ => I v "id"

def handleRemoveAlias (db : KeywordDb) (v : Json) : Except String KeywordDb :=
  if aliasIdOf v ≤ 0 then .error "An alias id is required."
  else .ok { db with aliases := db.aliases.delete fun i _ => i == aliasIdOf v }

def handleRename (db : KeywordDb) (v : Json) : Except String (KeywordDb × ℕ) :=
  let kid := I v "keyword_id"
  let name := S v "name"
  let norm := paramNorm name
  if kid ≤ 0 ∨ norm = "" then .error "keyword_id and a new name are required."
  else match db.keywords.get? kid with
    | none => .error "No such parameter."
    | some cur =>
        if cur.norm = norm then .ok (renameParams (setName db kid name norm) cur.norm name)
        else match db.keywords.rows.find? fun r => r.2.norm == norm && r.1 != kid with
          | some _ => .error ("'" ++ name ++ "' is already a parameter. Merge into it instead.")
          | none => do
              let aliased ← addAlias "user" kid (setName (deleteAlias db norm) kid name norm)
                cur.name
              .ok (renameParams aliased cur.norm name)

/-- The name and norm a merge does away with; the source keyword is folded in. -/
def mergeSource (db : KeywordDb) (v : Json) (into : ℤ) (toNorm : String) :
    Except String (KeywordDb × String × String) :=
  let fromId := I v "from_keyword_id"
  if 0 < fromId then
    match db.keywords.get? fromId with
    | none => .error "No such source parameter."
    | some src =>
        if fromId = into then .error "A parameter cannot be merged into itself."
        else .ok (deleteKeyword (moveAliases db into fromId) fromId, src.name, src.norm)
  else
    let fromName := S v "from_name"
    let fromNorm := paramNorm fromName
    if fromNorm = "" then .error "from_keyword_id or from_name is required."
    else if fromNorm = toNorm then .error "That name is already this parameter."
    else .ok (db, fromName, fromNorm)

/-- The old spelling becomes an alias. -/
def keepSpelling (db : KeywordDb) (into : ℤ) (fromName fromNorm toNorm : String) :
    Except String KeywordDb :=
  if fromNorm ≠ toNorm ∧ fromName ≠ "" then addAlias "user" into db fromName else .ok db

def handleMerge (db : KeywordDb) (v : Json) : Except String (KeywordDb × String × ℕ) :=
  let into := I v "into_keyword_id"
  if into ≤ 0 then .error "into_keyword_id is required."
  else match db.keywords.get? into with
    | none => .error "No such target parameter."
    | some tgt => do
        let (folded, fromName, fromNorm) ← mergeSource db v into tgt.norm
        let (renamed, n) := renameParams folded fromNorm tgt.name
        let aliased ← keepSpelling renamed into fromName fromNorm tgt.norm
        .ok (aliased, tgt.name, n)

/-! ### Events -/

inductive Request where
  | createKeyword (v : Json)
  | addAlias (v : Json)
  | removeAlias (v : Json)
  | rename (v : Json)
  | merge (v : Json)

/-- The first argument of a call that succeeds, and what it leaves. -/
def step (db : KeywordDb) : Request → Option KeywordDb
  | .createKeyword v => ((handleCreateKeyword db v).map Prod.fst).toOption
  | .addAlias v => (handleAddAlias db v).toOption
  | .removeAlias v => (handleRemoveAlias db v).toOption
  | .rename v => ((handleRename db v).map Prod.fst).toOption
  | .merge v => ((handleMerge db v).map Prod.fst).toOption

/-! ### What the vocabulary says -/

/-- The database normalises names as the code does. -/
lemma sqlNorm_eq (name : String) : sqlNorm name = paramNorm name := by
  have hsame : ∀ c : Char, (('A' ≤ c && c ≤ 'Z') || ('a' ≤ c && c ≤ 'z') || ('0' ≤ c && c ≤ '9')) =
      c.isAlphanum := by
    intro c
    simp only [isAlphanum, isAlpha, isUpper, isLower, isDigit, Bool.decide_and]
    rfl
  unfold sqlNorm paramNorm
  simp only [hsame]

/-- Which keyword a normalised name belongs to, and which keywords are active. -/
def naming (db : KeywordDb) : Naming String ℤ where
  Owns n k := (∃ kw, db.keywords.get? k = some kw ∧ kw.norm = n) ∨
    ∃ i a, db.aliases.get? i = some a ∧ a.norm = n ∧ a.keywordId = k
  Live k := ∃ kw, db.keywords.get? k = some kw ∧ kw.active = true

/-- No normalised name is both a keyword and an alias. -/
def Apart (db : KeywordDb) : Prop := ∀ i j k a, db.keywords.get? i = some k →
  db.aliases.get? j = some a → k.norm ≠ a.norm

/-- What every call keeps. -/
structure Sound (db : KeywordDb) : Prop where
  keywordNorm : ∀ i k, db.keywords.get? i = some k → k.norm = paramNorm k.name ∧ k.norm ≠ ""
  keywordOne : ∀ i j k l, db.keywords.get? i = some k → db.keywords.get? j = some l →
    k.norm = l.norm → i = j
  aliasNorm : ∀ i a, db.aliases.get? i = some a → a.norm = paramNorm a.spelling ∧ a.norm ≠ ""
  aliasOne : ∀ i j a b, db.aliases.get? i = some a → db.aliases.get? j = some b →
    a.norm = b.norm → i = j
  aliasOf : ∀ i a, db.aliases.get? i = some a → ∃ k, db.keywords.get? a.keywordId = some k
  apart : Apart db

/-- A spelling resolves to a keyword. -/
def Resolves (db : KeywordDb) (raw : String) (k : ℤ) : Prop :=
  ∃ v, matchParamName db raw = some v ∧ v.keywordId = k

section Sound

variable {db : KeywordDb}

lemma Sound.unambiguous (h : Sound db) : (naming db).Unambiguous := by
  rintro n j k (⟨kw, hj, rfl⟩ | ⟨i, a, ha, rfl, rfl⟩) (⟨kw', hk, hn⟩ | ⟨i', a', ha', hn, rfl⟩)
  · exact h.keywordOne j k kw kw' hj hk hn.symm
  · exact absurd hn.symm (h.apart j i' kw a' hj ha')
  · exact absurd hn (h.apart k i kw' a hk ha)
  · obtain rfl := h.aliasOne i i' a a' ha ha' hn.symm
    rw [ha, Option.some.injEq] at ha'
    rw [ha']

/-- A name that belongs to a keyword is one that something normalises to. -/
lemma Sound.normal (h : Sound db) {n : String} {k : ℤ} (hn : (naming db).Owns n k) :
    n ≠ "" ∧ ∃ raw, paramNorm raw = n := by
  rcases hn with ⟨kw, hk, rfl⟩ | ⟨i, a, ha, rfl, -⟩
  · exact ⟨(h.keywordNorm k kw hk).2, kw.name, (h.keywordNorm k kw hk).1.symm⟩
  · exact ⟨(h.aliasNorm i a ha).2, a.spelling, (h.aliasNorm i a ha).1.symm⟩

lemma Sound.findAlias (h : Sound db) {i : ℤ} {a : Alias} (ha : db.aliases.get? i = some a) :
    db.findAlias a.norm = some (i, a) := by
  apply findBy_eq_some (p := fun b => b.norm == a.norm) ha (beq_self_eq_true a.norm)
  intro j b hb hnorm
  exact h.aliasOne j i b a hb ha (beq_iff_eq.mp hnorm)

/-- A spelling resolves to what its normalised name means. -/
lemma Sound.resolves_iff (h : Sound db) {raw : String} {k : ℤ} :
    Resolves db raw k ↔ (naming db).Means (paramNorm raw) k := by
  have hone : ∀ n i l j kw, db.keywords.get? i = some l → (l.norm == n && l.active) = true →
      db.keywords.get? j = some kw → kw.norm = n → i = j := by
    intro n i l j kw hl hcond hkw hn
    rw [Bool.and_eq_true, beq_iff_eq] at hcond
    exact h.keywordOne i j l kw hl hkw (hcond.1.trans hn.symm)
  unfold Resolves matchParamName
  by_cases hempty : paramNorm raw = ""
  · rw [if_pos hempty]
    constructor
    · rintro ⟨v, hv, -⟩
      cases hv
    · rintro ⟨hown, -⟩
      exact absurd hempty (h.normal hown).1
  rw [if_neg hempty]
  cases hexact : db.keywords.findBy fun k => k.norm == paramNorm raw && k.active with
  | some r =>
      obtain ⟨i, l⟩ := r
      obtain ⟨hl, hcond⟩ := of_findBy_eq_some hexact
      have hcond' := hcond
      rw [Bool.and_eq_true, beq_iff_eq] at hcond'
      constructor
      · rintro ⟨v, hv, rfl⟩
        obtain rfl := some.inj hv
        exact ⟨.inl ⟨l, hl, hcond'.1⟩, l, hl, hcond'.2⟩
      · rintro ⟨hown, -⟩
        obtain rfl := h.unambiguous _ _ _ (.inl ⟨l, hl, hcond'.1⟩) hown
        exact ⟨_, rfl, rfl⟩
  | none =>
      have hnone := findBy_eq_none_iff.mp hexact
      constructor
      · rintro ⟨v, hv, hvk⟩
        cases hjoin : db.joined (paramNorm raw) with
        | none =>
            rw [hjoin] at hv
            cases hv
        | some r =>
            obtain ⟨i, l⟩ := r
            rw [hjoin] at hv
            dsimp only at hv
            split at hv
            · next hactive =>
                obtain rfl := some.inj hv
                obtain rfl : i = k := hvk
                obtain ⟨⟨j, a⟩, hfind, hmap⟩ := bind_eq_some_iff.mp hjoin
                obtain ⟨kw, hkw, heq⟩ := map_eq_some_iff.mp hmap
                obtain ⟨rfl, rfl⟩ := Prod.mk.inj heq
                obtain ⟨ha, hnorm⟩ := of_findBy_eq_some hfind
                exact ⟨.inr ⟨j, a, ha, beq_iff_eq.mp hnorm, rfl⟩, kw, hkw, hactive⟩
            · cases hv
      · rintro ⟨⟨kw, hk, hn⟩ | ⟨j, a, ha, hn, rfl⟩, l, hl, hactive⟩
        · rw [hk, Option.some.injEq] at hl
          subst hl
          have hfalse := hnone k kw hk
          rw [hn, hactive, beq_self_eq_true] at hfalse
          cases hfalse
        · have hjoin : db.joined (paramNorm raw) = some (a.keywordId, l) := by
            unfold KeywordDb.joined
            rw [← hn, h.findAlias ha, bind_some, hl, map_some]
          rw [hjoin]
          dsimp only
          rw [if_pos hactive]
          exact ⟨_, rfl, rfl⟩

end Sound

end ParamKeywords

end CErp
