/-
Category paths of part lookups: `describe` publishes a path for each category,
and a proposal names its category by one.

The path is read back by the text behind its last `/`, and the first category
with that name is taken (`published_path_iff`).
-/
import CErp.CategoryTree
import CErp.ParamKeywords

namespace CErp

open List RecursiveQuery String

namespace PartLookup

open CategoryTree
open ParamKeywords (S)

/-! ### The paths published -/

/-- The children of a category, with their paths. -/
def childPaths (db : CategoryDb) (t : ℤ × String) : List (ℤ × String) :=
  (db.categories.rows.filter fun r => r.2.parentId == some t.1).map fun r =>
    (r.1, t.2 ++ " / " ++ r.2.name)

/-- The `categories` of `describe`, in the order of a collation. -/
def describeCategories (collate : String → String → Bool) (db : CategoryDb) :
    Option (List (ℤ × String)) :=
  (run (childPaths db) db.rounds
    ((db.categories.rows.filter fun r => r.2.parentId == none).map fun r => (r.1, r.2.name))).map
    fun rows => rows.mergeSort fun r r' => collate r.2 r'.2

/-! ### The category of a proposal -/

inductive Level where
  | info
  | warning
  | error
deriving DecidableEq

structure Issue where
  field : String
  level : Level
  message : String
deriving DecidableEq

/-- The part of a path behind its last `/`, without the blanks in front. -/
def leafOf (path : String) : String :=
  ofList ((path.toList.rtakeWhile (· ≠ '/')).dropWhile (· = ' '))

/-- `validate_`'s category, and what it finds wrong; `scan` is the table as the
database reads it. -/
def validateCategory (scan : List (ℤ × Category)) (v : Json) : ℤ × List Issue :=
  match v.find? "category_id" with
  | some (.num i) =>
      let categId := Json.toInt32 i
      if scan.any fun r => r.1 == categId then (categId, [])
      else (0, [⟨"category_id", .error, "No category with id " ++ toString categId⟩])
  | _ =>
      let path := S v "category_path"
      if path ≠ "" then
        match scan.find? fun r => r.2.name == leafOf path with
        | none => (0, [⟨"category_path", .warning,
            "Unknown category '" ++ path ++ "' — pick one on review"⟩])
        | some r => (r.1, [])
      else (0, [⟨"category", .warning, "No category proposed"⟩])

/-- The proposal is given the category, and no issue. -/
def ResolvesTo (scan : List (ℤ × Category)) (v : Json) (id : ℤ) : Prop :=
  validateCategory scan v = (id, [])

/-- The category's name has no `/` and no blank in front, and no category that is
read before it has the same name. -/
def FirstOfName (scan : List (ℤ × Category)) (id : ℤ) : Prop :=
  ∃ c before after, scan = before ++ (id, c) :: after ∧ '/' ∉ c.name.toList ∧
    c.name.toList.head? ≠ some ' ' ∧ ∀ r ∈ before, r.2.name ≠ c.name

/-- The proposal's own `category_id` is that category, or it has none and the path
names the category. -/
def ComesBack (scan : List (ℤ × Category)) (v : Json) (id : ℤ) : Prop :=
  match v.find? "category_id" with
  | some (.num i) => Json.toInt32 i = id
  | _ => S v "category_path" ≠ "" ∧ FirstOfName scan id

/-! ### Paths -/

/-- A path ends in the name. -/
def EndsIn (path name : String) : Prop := path = name ∨ ∃ parent, path = parent ++ " / " ++ name

variable {path name : String}

lemma slash_notMem_leafOf : '/' ∉ (leafOf path).toList := by
  unfold leafOf
  rw [toList_ofList]
  intro hmem
  have hkept := mem_rtakeWhile_imp ((dropWhile_sublist _).mem hmem)
  exact of_decide_eq_true hkept rfl

lemma head_leafOf : (leafOf path).toList.head? ≠ some ' ' := by
  unfold leafOf
  rw [toList_ofList]
  intro hhead
  have hnot := head?_dropWhile_not (· = ' ') (path.toList.rtakeWhile (· ≠ '/'))
  rw [hhead] at hnot
  exact absurd hnot (by decide)

/-- A path reads back as the name it ends in exactly when the name has no `/` and
no blank in front. -/
lemma leafOf_eq_iff (h : EndsIn path name) :
    leafOf path = name ↔ '/' ∉ name.toList ∧ name.toList.head? ≠ some ' ' := by
  constructor
  · rintro rfl
    exact ⟨slash_notMem_leafOf, head_leafOf⟩
  · rintro ⟨hslash, hblank⟩
    have hplain : ∀ c ∈ name.toList, decide (c ≠ '/') = true :=
      fun c hc => decide_eq_true fun heq => hslash (heq ▸ hc)
    have hdrop : name.toList.dropWhile (· = ' ') = name.toList := by
      rcases hname : name.toList with - | ⟨c, cs⟩
      · rfl
      · rw [hname] at hblank
        exact dropWhile_cons_of_neg fun heq => hblank (by rw [of_decide_eq_true heq]; rfl)
    unfold leafOf
    rw [ofList_eq]
    rcases h with rfl | ⟨parent, rfl⟩
    · rw [rtakeWhile_eq_self_iff.mpr hplain, hdrop]
    · have hlast : (parent ++ " / " ++ name).toList =
          parent.toList ++ [' ', '/'] ++ (' ' :: name.toList) := by
        rw [toList_append, toList_append, List.append_assoc, List.append_assoc]
        rfl
      have htake : (parent ++ " / " ++ name).toList.rtakeWhile (· ≠ '/') = ' ' :: name.toList := by
        rw [hlast, rtakeWhile, reverse_append, takeWhile_append_of_pos]
        · rw [reverse_append, reverse_append]
          simp
        · intro c hc
          rcases mem_cons.mp (mem_reverse.mp hc) with rfl | hc
          · rfl
          · exact hplain c hc
      rw [htake, dropWhile_cons_of_pos (by decide), hdrop]

variable {db : CategoryDb} {id : ℤ} {rows : List (ℤ × String)}

/-- What is published: rows, each with a path that ends in its name. -/
lemma endsIn_of_mem (h : run (childPaths db) db.rounds
      ((db.categories.rows.filter fun r => r.2.parentId == none).map fun r => (r.1, r.2.name)) =
      some rows) (hmem : (id, path) ∈ rows) :
    ∃ c, (id, c) ∈ db.categories.rows ∧ EndsIn path c.name := by
  refine forall_of_run (p := fun t : ℤ × String =>
    ∃ c, (t.1, c) ∈ db.categories.rows ∧ EndsIn t.2 c.name) h ?_ ?_ (id, path) hmem
  · intro t ht
    obtain ⟨r, hr, rfl⟩ := mem_map.mp ht
    exact ⟨r.2, (mem_filter.mp hr).1, .inl rfl⟩
  · intro t _ t' ht'
    obtain ⟨r, hr, rfl⟩ := mem_map.mp ht'
    exact ⟨r.2, (mem_filter.mp hr).1, .inr ⟨t.2, rfl⟩⟩

lemma describeCategories_returns (h : Acyclic (Up db))
    (collate : String → String → Bool) : ∃ rows, describeCategories collate db = some rows := by
  obtain ⟨ids, hids⟩ := run_childrenOf h
    (((db.categories.rows.filter fun r => r.2.parentId == none).map fun r => (r.1, r.2.name)).map
      Prod.fst)
  have hchildren : ∀ t, db.childrenOf t.1 = (childPaths db t).map Prod.fst := by
    intro t
    unfold childPaths CategoryDb.childrenOf
    rw [List.map_map]
    rfl
  rw [run_map hchildren] at hids
  obtain ⟨rows, hrows, -⟩ := Option.map_eq_some_iff.mp hids
  unfold describeCategories
  rw [hrows]
  exact ⟨_, rfl⟩

/-! ### The round trip -/

variable {scan : List (ℤ × Category)} {v : Json}

/-- The category read first for the text of a path. -/
lemma find_leafOf_iff {c : Category} (hscan : (scan.map Prod.fst).Nodup) (hc : (id, c) ∈ scan)
    (h : EndsIn path c.name) :
    (∃ c', scan.find? (fun r => r.2.name == leafOf path) = some (id, c')) ↔
      FirstOfName scan id := by
  have hone : ∀ c', (id, c') ∈ scan → c' = c := by
    intro c' hc'
    have heq := inj_on_of_nodup_map hscan hc' hc rfl
    exact congrArg Prod.snd heq
  constructor
  · rintro ⟨c', hfind⟩
    obtain rfl := hone c' (mem_of_find?_eq_some hfind)
    obtain ⟨hname, before, after, hsplit, hbefore⟩ := find?_eq_some_iff_append.mp hfind
    have hleaf : leafOf path = c'.name := (eq_of_beq hname).symm
    obtain ⟨hslash, hblank⟩ := (leafOf_eq_iff h).mp hleaf
    refine ⟨c', before, after, hsplit, hslash, hblank, ?_⟩
    intro r hr heq
    have hr := hbefore r hr
    rw [heq, ← hleaf, beq_self_eq_true] at hr
    cases hr
  · rintro ⟨c', before, after, hsplit, hslash, hblank, hbefore⟩
    obtain rfl := hone c' (by rw [hsplit]; exact mem_append_right _ (mem_cons_self ..))
    have hleaf := (leafOf_eq_iff h).mpr ⟨hslash, hblank⟩
    refine ⟨c', find?_eq_some_iff_append.mpr ⟨?_, before, after, hsplit, ?_⟩⟩
    · exact beq_iff_eq.mpr hleaf.symm
    · intro r hr
      rw [hleaf, Bool.not_eq_true', beq_eq_false_iff_ne]
      exact hbefore r hr

/-- **A published path comes back** exactly where the proposal has no
`category_id` of its own and the path names the category, or where that is the
category it has. -/
theorem published_path_iff (hforest : Acyclic (Up db))
    (collate : String → String → Bool) (hscan : scan.Perm db.categories.rows) :
    ∃ rows, describeCategories collate db = some rows ∧
      ∀ id path, (id, path) ∈ rows → ∀ v, S v "category_path" = path →
        (ResolvesTo scan v id ↔ ComesBack scan v id) := by
  obtain ⟨sorted, hsorted⟩ := describeCategories_returns hforest collate
  refine ⟨sorted, hsorted, ?_⟩
  rintro id path hmem v rfl
  obtain ⟨rows, hrows, rfl⟩ := Option.map_eq_some_iff.mp hsorted
  obtain ⟨c, hc, hends⟩ := endsIn_of_mem hrows (mem_mergeSort.mp hmem)
  have hc := hscan.mem_iff.mpr hc
  have hnodup : (scan.map Prod.fst).Nodup := (hscan.map _).nodup_iff.mpr db.categories.nodup
  have hfound := find_leafOf_iff hnodup hc hends
  unfold ResolvesTo validateCategory ComesBack
  split
  · next i =>
      dsimp only
      constructor
      · intro h
        split at h
        · exact (Prod.mk.inj h).1
        · cases (Prod.mk.inj h).2
      · intro h
        rw [h, if_pos]
        exact List.any_eq_true.mpr ⟨(id, c), hc, beq_self_eq_true id⟩
  · dsimp only
    by_cases hempty : S v "category_path" = ""
    · rw [if_neg (not_not.mpr hempty)]
      constructor
      · intro h
        cases (Prod.mk.inj h).2
      · exact fun h => absurd hempty h.1
    · rw [if_pos hempty, and_iff_right hempty, ← hfound]
      split
      · next hnone =>
          constructor
          · intro h
            cases (Prod.mk.inj h).2
          · rintro ⟨c', h⟩
            cases hnone.symm.trans h
      · next r hfind =>
          constructor
          · intro h
            refine ⟨r.2, hfind.trans ?_⟩
            rw [← (Prod.mk.inj h).1]
          · rintro ⟨c', h⟩
            rw [Option.some.inj (hfind.symm.trans h)]

/-! ### A name used twice -/

/-- Chips, and below it another category named Chips. -/
def twoChips : CategoryDb where
  categories := (Table.empty.insert ⟨"Chips", none, true⟩).insert ⟨"Chips", some 1, true⟩
  products := []

lemma twoChips_forest : Acyclic (Up twoChips) := by
  have hup : ∀ {a b : ℤ}, Up twoChips a b → b < a := by
    rintro a b ⟨c, hc, hparent⟩
    rcases mem_cons.mp (Table.get?_eq_some_iff.mp hc) with heq | hmem
    · cases heq
      cases hparent
    · obtain heq := mem_singleton.mp hmem
      cases heq
      cases hparent
      decide
  intro a ha
  have hlt : ∀ {b}, Relation.TransGen (Up twoChips) a b → b < a := by
    intro b hb
    induction hb with
    | single h => exact hup h
    | tail _ h ih => exact (hup h).trans ih
  exact lt_irrefl a (hlt ha)

/-- A proposal with nothing but a path. -/
def pathOnly (path : String) : Json := .obj [("category_path", .str path)]

lemma describe_twoChips : describeCategories (fun _ _ => true) twoChips =
    some ([(1, "Chips"), (2, "Chips / Chips")].mergeSort fun _ _ => true) := rfl

/-- The path of the upper category comes back. -/
theorem chips_path_kept : ResolvesTo twoChips.categories.rows (pathOnly "Chips") 1 := by
  obtain ⟨rows, hrows, hall⟩ :=
    published_path_iff twoChips_forest (fun _ _ => true) (List.Perm.refl _)
  obtain rfl := Option.mem_unique describe_twoChips hrows
  refine (hall 1 "Chips" (mem_mergeSort.mpr (by decide)) _ rfl).mpr ⟨by decide, ?_⟩
  refine ⟨⟨"Chips", none, true⟩, [], _, rfl, by decide, by decide, ?_⟩
  intro r hr
  cases hr

/-- The path of the lower category brings the upper one back. -/
theorem chips_path_lost :
    ¬ ∀ (db : CategoryDb) (collate : String → String → Bool) (scan : List (ℤ × Category)),
      Acyclic (Up db) → scan.Perm db.categories.rows →
      ∃ rows, describeCategories collate db = some rows ∧
        ∀ id path, (id, path) ∈ rows → ∀ v, S v "category_path" = path → ResolvesTo scan v id := by
  intro h
  obtain ⟨rows, hrows, hall⟩ := h twoChips (fun _ _ => true) _ twoChips_forest (List.Perm.refl _)
  obtain rfl := Option.mem_unique describe_twoChips hrows
  have hlost := hall 2 "Chips / Chips" (mem_mergeSort.mpr (by decide))
    (pathOnly "Chips / Chips") rfl
  have hfound : validateCategory twoChips.categories.rows (pathOnly "Chips / Chips") = (1, []) := by
    decide +kernel
  exact absurd (Prod.mk.inj (hfound.symm.trans hlost)).1 (by decide)

end PartLookup

end CErp
