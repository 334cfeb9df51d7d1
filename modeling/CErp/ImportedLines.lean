/-
What a committed import leaves in the bill of materials.

An import is faithful (`Faithful`) when each staged line has become one line of
the bill, with a product, as many designators as its quantity, and that quantity
of the component in every unit made; and when no designator is in the bill
twice, upper and lower case alike.

* `step_checked`: no call stages a line without an error whose designators do
  not match its quantity;
* `faithful_iff`: the commit at the end of any run is faithful exactly when
  every staged line has a product, the staged lines repeat no designator, and
  the bill makes a single micro-unit, the unit its lines are written in.
-/
import CErp.BomImport
import CErp.Rounding
import CErp.Runs

namespace CErp

open Outcome List String Runs Table

namespace BomImport

open Designators

/-- The designators a line carries. -/
def designatorsOf (text : String) : List (List Char) := listed text.toList

/-! ### Checked lines -/

/-- A line that is not in error has a quantity, and as many designators. -/
def Checked (l : ImportLine) : Prop :=
  l.severity ≠ .error → 0 < l.quantity ∧ (designatorsOf l.designators ≠ [] →
      ((designatorsOf l.designators).length : ℤ) = l.quantity)

/-- The row is stored with the designators that were counted. -/
lemma validateRow_designators (row : BomRow) :
    designatorsOf (validateRow row).1.designators = splitDesignators row.designators.toList ∧
      (validateRow row).1.designatorList = splitDesignators row.designators.toList := by
  refine ⟨?_, rfl⟩
  unfold validateRow designatorsOf
  dsimp only
  split
  · next hnone => rw [hnone, (splitDesignators_eq_nil_iff _).mp hnone]
  · rw [toList_ofList, listed_joined fun d hd => splitDesignators_isEntry hd]

lemma validateRow_ok {row : BomRow} (h : (validateRow row).2.severity ≠ .error) :
    0 < (validateRow row).1.quantity ∧ (designatorsOf (validateRow row).1.designators ≠ [] →
        ((designatorsOf (validateRow row).1.designators).length : ℤ) =
          (validateRow row).1.quantity) := by
  rw [(validateRow_designators row).1]
  unfold validateRow at h ⊢
  dsimp only at h ⊢
  generalize splitDesignators row.designators.toList = des at h ⊢
  generalize (if des ≠ [] ∧ row.quantity ≤ 0 then (des.length : ℤ) else row.quantity) = qty at h ⊢
  have hissues := not_not.mp fun hne => h (if_neg hne)
  obtain ⟨hqty, hcount⟩ := append_eq_nil_iff.mp hissues
  have hpos : 0 < qty := by
    by_contra hle
    rw [if_pos (by omega)] at hqty
    cases hqty
  refine ⟨hpos, fun hdes => ?_⟩
  by_contra hne
  rw [if_pos ⟨hdes, hpos, hne⟩] at hcount
  cases hcount

/-- What the catalogue says takes no error back. -/
lemma merge_error {r rr : Resolved} (h : (r.merge rr).severity ≠ .error) :
    r.severity ≠ .error := by
  intro herror
  refine h ?_
  unfold Resolved.merge
  simp [herror]

lemma repeats_error {r : Resolved} {twice : Option (List Char)}
    (h : (r.repeats twice).severity ≠ .error) : r.severity ≠ .error ∧ twice = none := by
  cases twice with
  | none => exact ⟨h, rfl⟩
  | some d => exact absurd rfl h

lemma choose_error {cat : Catalogue} {r r' : Resolved} {chosen : ℤ}
    (hok : choose cat r chosen = .ok r') (h : r'.severity ≠ .error) : r.severity ≠ .error := by
  obtain ⟨⟨⟩, -, hok⟩ := bind_ok_iff.mp hok
  cases hok
  split_ifs at h
  · exact absurd rfl h
  · exact h

/-- A line staged of a row that was validated. -/
lemma stagedLine_checked {bomId seq : ℤ} {row : BomRow} {r : Resolved} {fitted : Bool}
    (h : r.severity ≠ .error → (validateRow row).2.severity ≠ .error) :
    Checked (stagedLine bomId seq (validateRow row).1 r fitted) :=
  fun hr => validateRow_ok (h hr)

namespace BomDb

variable {dbLower : String → String} {db db' : BomDb}

/-- Every staged line is checked. -/
def Checked (db : BomDb) : Prop := ∀ r ∈ db.importLines.rows, BomImport.Checked r.2

lemma Checked.unstaged (h : db.Checked) (bomId : ℤ) :
    ∀ r ∈ (db.unstaged bomId).rows, BomImport.Checked r.2 :=
  fun r hr => h r (mem_of_mem_filter hr)

/-- The line `parse` stages for a row. -/
lemma stageRow_lines (dbLower : String → String) (cat : Catalogue) (bomId : ℤ) (st : Staging)
    (row : BomRow) : ∃ l : ImportLine,
      (stageRow dbLower cat bomId st row).lines = st.lines.insert l ∧ l.bomId = bomId ∧
      designatorsOf l.designators = splitDesignators row.designators.toList ∧
      (l.severity ≠ .error → (validateRow row).2.severity ≠ .error ∧
        (countDesignators st.seen (splitDesignators row.designators.toList)).1 = none) ∧
      BomImport.Checked l := by
  obtain ⟨hstored, hlist⟩ := validateRow_designators row
  have hvalid : (parsedRow dbLower cat st.seen row).severity ≠ .error →
      (validateRow row).2.severity ≠ .error ∧
      (countDesignators st.seen (splitDesignators row.designators.toList)).1 = none := by
    intro h
    obtain ⟨herror, hnone⟩ := repeats_error h
    refine ⟨?_, hlist ▸ hnone⟩
    split_ifs at herror with hr
    · exact merge_error herror
    · exact herror
  exact ⟨stagedLine bomId st.seq (validateRow row).1 (parsedRow dbLower cat st.seen row)
    (row.fitted.getD true), rfl, rfl, hstored, hvalid, stagedLine_checked fun h => (hvalid h).1⟩

lemma stageRows_checked (cat : Catalogue) (bomId : ℤ) (rows : List BomRow) (st : Staging)
    (h : ∀ r ∈ st.lines.rows, BomImport.Checked r.2) :
    ∀ r ∈ (rows.foldl (stageRow dbLower cat bomId) st).lines.rows, BomImport.Checked r.2 := by
  induction rows generalizing st with
  | nil => exact h
  | cons row rows ih =>
      refine ih _ fun r hr => ?_
      obtain ⟨l, hlines, -, -, -, hl⟩ := stageRow_lines dbLower cat bomId st row
      rw [hlines, Table.mem_insert_iff] at hr
      rcases hr with hr | rfl
      · exact h r hr
      · exact hl

lemma handleParse_checked {v : Json} (h : db.Checked) (hok : db.handleParse dbLower v = .ok db') :
    db'.Checked := by
  obtain ⟨⟨⟩, -, hok⟩ := bind_ok_iff.mp hok
  obtain ⟨⟨⟩, -, hok⟩ := bind_ok_iff.mp hok
  obtain ⟨rows, -, hok⟩ := bind_ok_iff.mp hok
  obtain ⟨⟨⟩, -, hok⟩ := bind_ok_iff.mp hok
  cases hok
  exact stageRows_checked db.catalogue _ rows _ (h.unstaged _)

lemma correctedLine_checked {cat : Catalogue} {v : Json} {l l' : ImportLine}
    (hok : correctedLine dbLower cat v l = .ok l') : BomImport.Checked l' := by
  obtain ⟨r, hr, hok⟩ := bind_ok_iff.mp hok
  cases hok
  -- the row was validated, whoever chose its product
  refine stagedLine_checked fun herror => ?_
  unfold resolveCorrected at hr
  split_ifs at hr
  · exact choose_error hr herror
  · rw [← Except.ok.inj hr] at herror
    exact merge_error herror

lemma handleSetLine_checked {v : Json} (h : db.Checked)
    (hok : db.handleSetLine dbLower v = .ok db') : db'.Checked := by
  obtain ⟨⟨⟩, -, hok⟩ := bind_ok_iff.mp hok
  cases hl : db.importLines.get? (jint v "id" 0) with
  | none =>
      rw [hl] at hok
      cases hok
  | some l =>
      rw [hl] at hok
      obtain ⟨l', hl', hok⟩ := bind_ok_iff.mp hok
      cases hok
      rintro ⟨id, new⟩ hrow
      rw [modify_eq_update, mem_update_iff] at hrow
      obtain ⟨old, hold, hnew⟩ := hrow
      dsimp only at hnew ⊢
      rw [← hnew]
      split_ifs
      · exact correctedLine_checked hl'
      · exact h _ hold

lemma newCatalogue_checked (h : db.Checked) (cat : Catalogue) : (db.newCatalogue cat).Checked := by
  rintro ⟨id, new⟩ hr
  obtain ⟨l, hl, (rfl : { l with productId := _ } = new)⟩ := mem_update_iff.mp hr
  exact h (id, l) hl

/-- **One call.** -/
theorem step_checked {c : BomCall} (h : db.Checked) (hs : db.step dbLower c = some db') :
    db'.Checked := by
  -- a call that fails leaves what was there
  have hcall : ∀ r : Except String BomDb, (∀ db', r = .ok db' → db'.Checked) →
      (r.toOption.getD db).Checked := by
    intro r hr
    cases r with
    | error e => exact h
    | ok db' => exact hr db' rfl
  cases c with
  | parse v =>
      cases hs
      exact hcall _ fun _ hok => handleParse_checked h hok
  | setLine v =>
      cases hs
      exact hcall _ fun _ hok => handleSetLine_checked h hok
  | discard v =>
      cases hs
      refine hcall _ fun db' hok => ?_
      obtain ⟨⟨⟩, -, hok⟩ := bind_ok_iff.mp hok
      cases hok
      exact h.unstaged _
  | commit v =>
      cases hs
      refine hcall _ fun db' hok => ?_
      obtain ⟨⟨⟩, -, hok⟩ := bind_ok_iff.mp hok
      obtain ⟨⟨⟩, -, hok⟩ := bind_ok_iff.mp hok
      obtain ⟨⟨⟩, -, hok⟩ := bind_ok_iff.mp hok
      cases hok
      exact h.unstaged _
  | newCatalogue cat =>
      cases hs
      exact newCatalogue_checked h cat

end BomDb

/-! ### Repeated designators -/

/-- The keys of the designators the lines carry. -/
def keys (ls : List ImportLine) : List (List Char) :=
  ls.flatMap fun l => (designatorsOf l.designators).map lower

/-- No line is in error. -/
def NoError (ls : List ImportLine) : Prop := ∀ l ∈ ls, l.severity ≠ .error

/-- The lines staged for a bill, in order of their identifiers. -/
def linesOf (t : Table ImportLine) (bomId : ℤ) : List ImportLine :=
  (t.rows.map Prod.snd).filter (BomDb.isOf bomId)

namespace BomDb

variable {dbLower : String → String} {db db' : BomDb}

lemma staged_perm (db : BomDb) (bomId : ℤ) :
    Perm (db.staged bomId) (linesOf db.importLines bomId) := by
  unfold staged linesOf
  rw [filter_map]
  exact (perm_insertionSort InOrder _).map Prod.snd

/-! ### Committed lines -/

/-- The lines of a bill. -/
def linesOfBom (db : BomDb) (bomId : ℤ) : List BomLine :=
  (db.bomLines.rows.map Prod.snd).filter (·.bomId == bomId)

/-- What a staged line must have become. -/
structure Carried (db : BomDb) (s : ImportLine) (l : BomLine) : Prop where
  product : ∃ p, s.productId = some p ∧ l.productId = some p
  designators : designatorsOf l.referenceDesignators = designatorsOf s.designators
  counted : designatorsOf l.referenceDesignators ≠ [] →
    ((designatorsOf l.referenceDesignators).length : ℤ) = s.quantity
  required : ∀ made, db.component l made = s.quantity * made

lemma Carried.chosen {s : ImportLine} {l : BomLine} (h : Carried db s l) :
    s.productId ≠ none := by
  obtain ⟨p, hp, -⟩ := h.product
  simp [hp]

/-- **A faithful import**: the bill has the staged lines and no others, and no
designator twice. -/
structure Faithful (db db' : BomDb) (bomId : ℤ) : Prop where
  carried : Forall₂ (Carried db') (db.staged bomId) (db'.linesOfBom bomId)
  distinct : ((db'.linesOfBom bomId).flatMap fun l =>
    (designatorsOf l.referenceDesignators).map lower).Nodup

/-- **What an import needs**: a product for every staged line, no designator
staged twice, and a bill that makes one micro-unit. -/
structure Ready (db : BomDb) (bomId : ℤ) : Prop where
  chosen : ∀ l ∈ db.staged bomId, l.productId ≠ none
  distinct : (keys (db.staged bomId)).Nodup
  makes : db.makes bomId = 1

instance (db : BomDb) (bomId : ℤ) : Decidable (Ready db bomId) :=
  decidable_of_iff ((∀ l ∈ db.staged bomId, l.productId ≠ none) ∧
      (keys (db.staged bomId)).Nodup ∧ db.makes bomId = 1)
    ⟨fun h => ⟨h.1, h.2.1, h.2.2⟩, fun h => ⟨h.chosen, h.distinct, h.makes⟩⟩

lemma rows_foldl_insert (ls : List BomLine) (t : Table BomLine) :
    (ls.foldl Table.insert t).rows.map Prod.snd = t.rows.map Prod.snd ++ ls := by
  induction ls generalizing t with
  | nil => simp
  | cons l ls ih =>
      rw [foldl_cons, ih]
      simp [Table.insert]

lemma linesOfBom_replaced (t : Table BomLine) (bomId uom : ℤ) (ls : List ImportLine) :
    ((((ls.map (bomLine bomId uom)).foldl Table.insert
      (t.delete fun _ l => l.bomId == bomId)).rows.map Prod.snd).filter (·.bomId == bomId)) =
      ls.map (bomLine bomId uom) := by
  have hold : (((t.delete fun _ l => l.bomId == bomId).rows.map Prod.snd).filter
      (·.bomId == bomId)) = [] := by
    rw [filter_eq_nil_iff]
    intro l hl
    obtain ⟨r, hr, rfl⟩ := mem_map.mp hl
    simpa using (mem_filter.mp hr).2
  have hnew : (ls.map (bomLine bomId uom)).filter (·.bomId == bomId) =
      ls.map (bomLine bomId uom) := by
    rw [filter_eq_self]
    intro l hl
    obtain ⟨s, -, rfl⟩ := mem_map.mp hl
    exact beq_self_eq_true bomId
  rw [rows_foldl_insert, filter_append, hold, hnew, nil_append]

/-- What a commit that replaces the bill has found, and what it leaves. -/
lemma handleCommit_ok {v : Json} (hreplace : replaces v = true)
    (hok : db.handleCommit v = .ok db') :
    NoError (db.staged (jint v "bom_id" 0)) ∧
      (db.staged (jint v "bom_id" 0)).filter (·.productId.isSome) ≠ [] ∧ db'.boms = db.boms ∧
      ∃ uom, db'.linesOfBom (jint v "bom_id" 0) =
        ((db.staged (jint v "bom_id" 0)).filter (·.productId.isSome)).map
          (bomLine (jint v "bom_id" 0) uom) := by
  obtain ⟨⟨⟩, -, hok⟩ := bind_ok_iff.mp hok
  obtain ⟨⟨⟩, herrs, hok⟩ := bind_ok_iff.mp hok
  obtain ⟨⟨⟩, hrows, hok⟩ := bind_ok_iff.mp hok
  rw [hreplace, if_pos rfl] at hok
  cases hok
  refine ⟨?_, require_ok_iff.mp hrows, rfl, _, linesOfBom_replaced _ _ _ _⟩
  intro l hl herror
  have hnone := eq_nil_of_length_eq_zero (require_ok_iff.mp herrs)
  obtain ⟨hmem, hbom⟩ := mem_filter.mp ((staged_perm db _).mem_iff.mp hl)
  obtain ⟨r, hr, rfl⟩ := mem_map.mp hmem
  refine filter_eq_nil_iff.mp hnone r hr ?_
  simp [hbom, herror]

lemma component_bomLine (db : BomDb) (bomId uom : ℤ) (s : ImportLine) (made : ℤ) :
    db.component (bomLine bomId uom s) made =
      Money.divRoundHalfAway (s.quantity * made) (db.makes bomId) := rfl

/-- A line goes into the product in its quantity only where the bill makes one
micro-unit. -/
lemma component_eq_iff {db : BomDb} {bomId uom : ℤ} {s : ImportLine} (hpos : 0 < s.quantity) :
    (∀ made, db.component (bomLine bomId uom s) made = s.quantity * made) ↔ db.makes bomId = 1 := by
  have hmakes : 0 < db.makes bomId := by
    unfold makes
    dsimp only
    split
    · decide
    · omega
  constructor
  · intro h
    -- what the bill itself makes needs the line's quantity
    have hown := h (db.makes bomId)
    rw [component_bomLine, Money.divRoundHalfAway_mul _ hmakes] at hown
    exact mul_left_cancel₀ hpos.ne' (hown.symm.trans (mul_one _).symm)
  · intro h made
    rw [component_bomLine, h]
    simpa using Money.divRoundHalfAway_mul (s.quantity * made) Int.one_pos

/-- **Commits.**  Of what any run has staged, a commit that replaces the bill is
a faithful import exactly when the staging is ready for it. -/
theorem faithful_iff (dbLower : String → String) {db₀ db db' : BomDb}
    (hempty : db₀.importLines.rows = [])
    (hrun : Reaches (step dbLower) (fun _ _ => True) db₀ db) {v : Json}
    (hreplace : replaces v = true) (hok : db.handleCommit v = .ok db') :
    Faithful db db' (jint v "bom_id" 0) ↔ Ready db (jint v "bom_id" 0) := by
  have hchecked : db.Checked := by
    refine hrun.invariant (fun _ _ _ h _ hs => step_checked h hs) ?_
    intro r hr
    rw [hempty] at hr
    cases hr
  obtain ⟨hno, hsome, hboms, uom, hlines⟩ := handleCommit_ok hreplace hok
  generalize jint v "bom_id" 0 = bomId at hno hsome hlines ⊢
  have hgood : ∀ s ∈ db.staged bomId, 0 < s.quantity ∧ (designatorsOf s.designators ≠ [] →
      ((designatorsOf s.designators).length : ℤ) = s.quantity) := by
    intro s hs
    obtain ⟨r, hr, rfl⟩ := mem_map.mp
      (mem_filter.mp ((staged_perm db bomId).mem_iff.mp hs)).1
    exact hchecked r hr (hno _ hs)
  have hmakes : db'.makes bomId = db.makes bomId := by
    unfold makes
    rw [hboms]
  -- with a product for every line, no line is left out
  have hall : (∀ s ∈ db.staged bomId, s.productId ≠ none) →
      db'.linesOfBom bomId = (db.staged bomId).map (bomLine bomId uom) := by
    intro h
    rw [hlines, filter_eq_self.mpr fun s hs => Option.isSome_iff_ne_none.mpr (h s hs)]
  have hkeys : ∀ ls : List ImportLine, ((ls.map (bomLine bomId uom)).flatMap fun l =>
      (designatorsOf l.referenceDesignators).map lower) = keys ls := by
    intro ls
    rw [flatMap_map]
    rfl
  constructor
  · rintro ⟨hcarried, hdistinct⟩
    have hchosen : ∀ s ∈ db.staged bomId, s.productId ≠ none :=
      ((forall₂_and_left _ _).mp (hcarried.imp fun s l hl => ⟨hl.chosen, hl⟩)).1
    rw [hall hchosen] at hcarried hdistinct
    refine ⟨hchosen, hkeys _ ▸ hdistinct, ?_⟩
    obtain ⟨s, hs⟩ := exists_mem_of_ne_nil _ hsome
    have hs := (mem_filter.mp hs).1
    rw [forall₂_map_right_iff, forall₂_same] at hcarried
    exact hmakes ▸ (component_eq_iff (hgood s hs).1).mp (hcarried s hs).required
  · rintro ⟨hchosen, hdistinct, hone⟩
    have hall := hall hchosen
    refine ⟨?_, by rw [hall, hkeys]; exact hdistinct⟩
    rw [hall, forall₂_map_right_iff, forall₂_same]
    intro s hs
    obtain ⟨hpos, hcounted⟩ := hgood s hs
    obtain ⟨p, hp⟩ := Option.ne_none_iff_exists'.mp (hchosen s hs)
    exact ⟨⟨p, hp, hp⟩, rfl, hcounted, (component_eq_iff hpos).mpr (hmakes.trans hone)⟩

/-- Two resistors and a capacitor; one number stands for both resistors. -/
def parts : Catalogue where
  products := ((empty.insert ⟨"10k", none, true, none⟩).insert
    ⟨"10k 1%", none, true, none⟩).insert ⟨"100n", none, true, none⟩
  manufacturerInfos := ((empty.insert ⟨1, some "RC0603"⟩).insert
    ⟨2, some "RC0603"⟩).insert ⟨3, some "CL10B"⟩

/-- A bill, and nothing staged. -/
def board (productQty : ℤ) : BomDb where
  catalogue := parts
  boms := empty.insert ⟨productQty⟩
  bomLines := .empty
  importLines := .empty

def partRow (designators mpn : String) : Json :=
  .obj [("designators", .str designators), ("mpn", .str mpn)]

def parseRows (rows : List Json) : BomCall :=
  .parse (.obj [("bom_id", .num 1), ("rows", .arr rows)])

def commitRequest : Json := .obj [("bom_id", .num 1)]

/-- A run on the board, and the commit after it. -/
def imports (productQty : ℤ) (calls : List BomCall) : Option (BomDb × BomDb) :=
  (execute (step toLower) (fun _ _ => True) calls (board productQty)).bind fun db =>
    (db.handleCommit commitRequest).toOption.map fun db' => (db, db')

lemma reaches_of_imports {productQty : ℤ} {calls : List BomCall} {r : BomDb × BomDb}
    (h : imports productQty calls = some r) :
    Reaches (step toLower) (fun _ _ => True) (board productQty) r.1 ∧
      r.1.handleCommit commitRequest = .ok r.2 := by
  obtain ⟨db, hdb, hmap⟩ := Option.bind_eq_some_iff.mp h
  obtain ⟨db', hok, rfl⟩ := Option.map_eq_some_iff.mp hmap
  exact ⟨reaches_of_execute hdb, toOption_eq_some_iff.mp hok⟩

theorem faithful_iff_capacitors : ∃ db db', Reaches (step toLower) (fun _ _ => True) (board 1) db ∧
      db.handleCommit commitRequest = .ok db' ∧ Faithful db db' 1 := by
  have hrun : ((imports 1 [parseRows [partRow "C1-C3" "CL10B"]]).any fun r =>
      decide (Ready r.1 1)) = true := by
    decide +kernel
  obtain ⟨⟨db, db'⟩, hr, hready⟩ := (Option.any_eq_true _ _).mp hrun
  have hready : Ready db 1 := of_decide_eq_true hready
  obtain ⟨hreach, hok⟩ := reaches_of_imports hr
  have hreplace : replaces commitRequest = true := by decide
  have hiff := faithful_iff toLower rfl hreach hreplace hok
  rw [show jint commitRequest "bom_id" 0 = 1 by decide] at hiff
  exact ⟨db, db', hreach, hok, hiff.mpr hready⟩

/-- A commit that succeeds on a board made in whole units: of three staged lines
the one with two candidates is dropped, a corrected line has brought back a
designator, and a whole unit takes a millionth of each part placed on it. -/
theorem import_not_faithful : ∃ db db',
    Reaches (step toLower) (fun _ _ => True) (board 1000000) db ∧
      db.handleCommit commitRequest = .ok db' ∧ replaces commitRequest = true ∧
      ¬ Faithful db db' 1 ∧ (db.staged 1).length = 3 ∧ (db'.linesOfBom 1).length = 2 ∧
      ((db'.linesOfBom 1).map (·.referenceDesignators)) = ["C1", "c1"] ∧
      ((db'.linesOfBom 1).map fun l => db'.component l 1000000) = [1, 1] := by
  have hrun : ((imports 1000000 [parseRows [partRow "C1" "CL10B", partRow "R1" "RC0603",
        partRow "C2" "CL10B"],
      .setLine (.obj [("id", .num 3), ("designators", .str "c1")])]).any fun r =>
      decide ((r.1.staged 1).length = 3 ∧ (r.2.linesOfBom 1).length = 2 ∧
        ((r.2.linesOfBom 1).map (·.referenceDesignators)) = ["C1", "c1"] ∧
        ((r.2.linesOfBom 1).map fun l => r.2.component l 1000000) = [1, 1])) = true := by
    decide +kernel
  obtain ⟨⟨db, db'⟩, hr, hfacts⟩ := (Option.any_eq_true _ _).mp hrun
  have hfacts := of_decide_eq_true hfacts
  obtain ⟨hreach, hok⟩ := reaches_of_imports hr
  refine ⟨db, db', hreach, hok, rfl, ?_, hfacts⟩
  intro h
  have hlength := h.carried.length_eq
  rw [hfacts.1, hfacts.2.1] at hlength
  cases hlength

end BomDb

end BomImport

end CErp
