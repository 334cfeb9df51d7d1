/-
When a page is rendered, and its elements nest.

Only a table can go wrong, in two ways.  Asked for its head by something that is no
truth value, the renderer throws.  And it always closes the body of the table, but
opens it behind the head: without a head, or without a row to make one of, the end
tag closes nothing (`tableOf_broken`).  A page without such a table is rendered, and
without raw markup and forms its elements nest (`renders_iff`).
-/
import CErp.FairBlocks
import CErp.Outcome

namespace CErp

open Outcome List

namespace WebsiteRender

open Markup DoubleText

/-! ### Own pieces are plain -/

lemma plainName_of_ownTags : ∀ t ∈ ownTags, PlainName t := by
  simp [ownTags, PlainName, stopsName]

lemma unquoted_of_ownAttrs : ∀ name ∈ ownAttrs, '"' ∉ name ∧ '>' ∉ name := by
  simp [ownAttrs]

lemma Own.plain {p : Piece} (h : Own p) : p.Plain := by
  cases p with
  | text cs => exact notMem_of_escaped (by decide) (by decide) h
  | endTag t => exact plainName_of_ownTags t h
  | startTag t attrs selfClose =>
      obtain ⟨ht, hattrs, -⟩ := h
      refine ⟨plainName_of_ownTags t ht, fun a ha => ?_⟩
      obtain ⟨hname, hvalue⟩ := hattrs a ha
      exact ⟨unquoted_of_ownAttrs a.name hname, notMem_of_escaped (by decide) (by decide) hvalue⟩

/-! ### Tables -/

/-- The elements of tables, none of them a frame or void. -/
lemma tableTags_own : ∀ t ∈ ["table", "thead", "tbody", "tr"],
    t.toList ∈ ownTags ∧ isVoid t.toList = false ∧ t.toList ≠ tagIframe := by
  simp [ownTags, isVoid, voidTags, tagIframe]

lemma start_own {t : String} {attrs : List Attr} (ht : t ∈ ["table", "thead", "tbody", "tr"])
    (hattrs : ∀ a ∈ attrs, OwnAttr a) : Own (start t attrs) := by
  obtain ⟨hown, -, hframe⟩ := tableTags_own t ht
  exact ⟨hown, hattrs, fun h => absurd h hframe⟩

lemma stop_own {t : String} (ht : t ∈ ["table", "thead", "tbody", "tr"]) : Own (stop t) :=
  (tableTags_own t ht).1

lemma cell_fair (th : Bool) (c : Json) : Fair (cell th c) := by
  cases th with
  | true => exact .bare (by simp [elements]) (.say _)
  | false => exact .bare (by simp [elements]) (.say _)

lemma cells_fair (th : Bool) (cells : List Json) : Fair (cells.flatMap (cell th)) :=
  .flatMap fun c _ => cell_fair th c

/-- A row that is not the head. -/
lemma tableRow_fair (cells : List Json) : Fair (tableRow false cells) := by
  obtain ⟨hown, hvoid, hframe⟩ := tableTags_own "tr" (by simp)
  exact .around hown hvoid ownAttrs_nil (fun h => absurd h hframe) (cells_fair false cells)

lemma tableRow_own (th : Bool) (cells : List Json) : ∀ p ∈ tableRow th cells, Own p := by
  cases th with
  | false => exact (tableRow_fair cells).own
  | true =>
      intro p hp
      simp only [tableRow, if_true, mem_append, mem_cons, not_mem_nil, or_false]
        at hp
      obtain ((rfl | rfl) | hp) | rfl | rfl | rfl := hp
      · exact start_own (by simp) ownAttrs_nil
      · exact start_own (by simp) ownAttrs_nil
      · exact (cells_fair true cells).own p hp
      · exact stop_own (by simp)
      · exact stop_own (by simp)
      · exact start_own (by simp) ownAttrs_nil

/-- The head leaves the body open. -/
lemma tableRow_head (cells : List Json) (st : List (List Char)) :
    ((tableRow true cells).flatMap Piece.tags).foldlM (close isVoid) st =
      some ("tbody".toList :: st) := by
  have hrow : Balanced isVoid (start "tr" [] :: (cells.flatMap (cell true) ++ [stop "tr"])) :=
    .element (tableTags_own "tr" (by simp)).2.1 [] false (cells_fair true cells).balanced
  have hhead : Balanced isVoid (start "thead" [] ::
      ((start "tr" [] :: (cells.flatMap (cell true) ++ [stop "tr"])) ++ [stop "thead"])) :=
    .element (tableTags_own "thead" (by simp)).2.1 [] false hrow
  have hpieces : tableRow true cells = (start "thead" [] ::
      ((start "tr" [] :: (cells.flatMap (cell true) ++ [stop "tr"])) ++ [stop "thead"])) ++
        [start "tbody" []] := by
    simp [tableRow]
  have hopen : close isVoid st (.opening "tbody".toList) = some ("tbody".toList :: st) := by
    rw [close, if_neg (by rw [(tableTags_own "tbody" (by simp)).2.1]; exact Bool.false_ne_true)]
  rw [hpieces, flatMap_append, foldlM_append, hhead st, Option.bind_eq_bind, Option.bind_some]
  change (close isVoid st (.opening "tbody".toList)).bind _ = _
  rw [hopen]
  rfl

/-- A row of a table has cells. -/
def isRow (r : Json) : Bool := (array? r "cells").isSome

lemma tableRows_own (head first : Bool) (rows : List Json) :
    ∀ p ∈ tableRows head first rows, Own p := by
  induction rows generalizing first with
  | nil => exact fun _ hp => absurd hp not_mem_nil
  | cons r rows ih =>
      intro p hp
      rw [tableRows] at hp
      split at hp
      · obtain hp | hp := mem_append.mp hp
        · exact tableRow_own _ _ p hp
        · exact ih _ p hp
      · exact ih _ p hp

/-- Rows none of which is the head. -/
lemma tableRows_balanced {head first : Bool} (h : (first && head) = false) (rows : List Json) :
    Balanced isVoid (tableRows head first rows) := by
  induction rows generalizing first with
  | nil => exact Balanced.nil
  | cons r rows ih =>
      rw [tableRows]
      split
      · rw [h]
        exact (tableRow_fair _).balanced.append (ih (Bool.false_and head))
      · exact ih h

/-- The rows of a table with a head leave its body open, if there are any. -/
lemma tableRows_head (rows : List Json) (st : List (List Char)) :
    ((tableRows true true rows).flatMap Piece.tags).foldlM (close isVoid) st =
      some (if rows.any isRow then "tbody".toList :: st else st) := by
  induction rows with
  | nil => rfl
  | cons r rows ih =>
      rw [tableRows, any_cons, isRow]
      split
      · next cells hcells =>
          rw [hcells, Option.isSome_some, Bool.true_or, if_pos rfl, Bool.and_true,
            flatMap_append, foldlM_append, tableRow_head, Option.bind_eq_bind,
            Option.bind_some]
          exact tableRows_balanced (Bool.false_and true) rows _
      · next hnone =>
          rw [hnone, Option.isSome_none, Bool.false_or]
          exact ih

/-- What comes after the rows of a table. -/
def tableEnd : List Piece := [stop "tbody", stop "table", stop "div"]

lemma tableEnd_closes (st : List (List Char)) :
    (tableEnd.flatMap Piece.tags).foldlM (close isVoid)
      ("tbody".toList :: "table".toList :: "div".toList :: st) = some st := by
  have hclose : ∀ (t : String) (st : List (List Char)),
      close isVoid (t.toList :: st) (.closing t.toList) = some st := fun _ _ => if_pos rfl
  have htags : tableEnd.flatMap Piece.tags = [.closing "tbody".toList, .closing "table".toList,
      .closing "div".toList] := rfl
  simp only [htags, foldlM_cons, hclose, Option.bind_eq_bind, Option.bind_some, foldlM_nil]
  rfl

/-- Where no body is open, closing it fails. -/
lemma tableEnd_fails (st : List (List Char)) :
    (tableEnd.flatMap Piece.tags).foldlM (close isVoid) ("table".toList :: st) = none := by
  have hne : "tbody".toList ≠ "table".toList := by simp
  have htags : tableEnd.flatMap Piece.tags = .closing "tbody".toList ::
      [.closing "table".toList, .closing "div".toList] := rfl
  have hfails : close isVoid ("table".toList :: st) (.closing "tbody".toList) = none := by
    rw [close, if_neg hne]
  rw [htags, foldlM_cons, hfails]
  rfl

/-- A table around its rows. -/
lemma tableOf_tags (head : Bool) (rows : List Json) (st : List (List Char)) :
    ((tableOf head rows).flatMap Piece.tags).foldlM (close isVoid) st =
      (((tableRows head true rows).flatMap Piece.tags).foldlM (close isVoid)
        ("table".toList :: "div".toList :: st)).bind
          ((tableEnd.flatMap Piece.tags).foldlM (close isVoid)) := by
  have hopen : ∀ (t : String) (st : List (List Char)), isVoid t.toList = false →
      close isVoid st (.opening t.toList) = some (t.toList :: st) := by
    intro t st ht
    rw [close, if_neg (by rw [ht]; exact Bool.false_ne_true)]
  have hpieces : (tableOf head rows).flatMap Piece.tags = .opening "div".toList ::
      .opening "table".toList ::
        ((tableRows head true rows).flatMap Piece.tags ++ tableEnd.flatMap Piece.tags) := by
    simp [tableOf, tableEnd, start, Piece.tags]
  rw [hpieces, foldlM_cons, hopen _ _ (elements_own "div" (by simp [elements])).2.1,
    Option.bind_eq_bind, Option.bind_some, foldlM_cons,
    hopen _ _ (tableTags_own "table" (by simp)).2.1, Option.bind_eq_bind, Option.bind_some,
    foldlM_append]
  rfl

lemma tableOf_balanced {rows : List Json} (h : rows.any isRow = true) :
    Balanced isVoid (tableOf true rows) := by
  intro st
  rw [tableOf_tags, tableRows_head, if_pos h, Option.bind_some]
  exact tableEnd_closes st

/-- **A table without a head, or without rows, is broken.** -/
theorem tableOf_broken {head : Bool} {rows : List Json} (h : (head && rows.any isRow) = false) :
    Broken isVoid (tableOf head rows) := by
  intro st
  rw [tableOf_tags]
  cases head with
  | false =>
      rw [tableRows_balanced (Bool.and_false true) rows, Option.bind_some]
      exact tableEnd_fails _
  | true =>
      rw [Bool.true_and] at h
      rw [tableRows_head, h, if_neg nofun, Option.bind_some]
      exact tableEnd_fails _

lemma tableOf_own (head : Bool) (rows : List Json) : ∀ p ∈ tableOf head rows, Own p := by
  have hdiv := elements_own "div" (by simp [elements])
  intro p hp
  simp only [tableOf, mem_cons, mem_append, not_mem_nil, or_false] at hp
  obtain rfl | rfl | hp | rfl | rfl | rfl := hp
  · exact ⟨hdiv.1, clsOnly_own (by simp [classes]), fun h => absurd h hdiv.2.2⟩
  · exact start_own (by simp) (clsOnly_own (by simp [classes]))
  · exact tableRows_own _ _ _ p hp
  · exact stop_own (by simp)
  · exact stop_own (by simp)
  · exact hdiv.1

/-! ### Blocks -/

/-- A table with something in it. -/
def IsTable (b : Json) (rows : List Json) : Prop :=
  isType b "table" = true ∧ array? b "items" = some rows ∧ rows ≠ []

/-- Whether there is a head is left open or said by a truth value. -/
def HeadReadable (b : Json) : Prop := ∀ j, b.find? "header" = some j → j.isBoolean = true

/-- The head is not denied, and one of the rows has cells. -/
def HasHead (b : Json) (rows : List Json) : Prop :=
  b.find? "header" ≠ some (.bool false) ∧ rows.any isRow = true

lemma hasHead_ok_iff {b : Json} : (∃ head, hasHead b = .ok head) ↔ HeadReadable b := by
  unfold hasHead HeadReadable
  cases hfind : b.find? "header" with
  | none => simp
  | some j =>
      cases j with
      | bool head => simp [Json.isBoolean]
      | null => simp [Json.isBoolean]
      | num i => simp [Json.isBoolean]
      | float x => simp [Json.isBoolean]
      | str s => simp [Json.isBoolean]
      | arr items => simp [Json.isBoolean]
      | obj fields => simp [Json.isBoolean]

lemma hasHead_eq {b : Json} {head : Bool} (h : hasHead b = .ok head) :
    head = true ↔ b.find? "header" ≠ some (.bool false) := by
  unfold hasHead at h
  split at h
  · next hnone =>
      cases h
      simp [hnone]
  · next value hbool =>
      cases h
      simp [hbool]
  · cases h

variable {resolver : FormResolver}

/-- The block throws only where it is a table whose head cannot be read. -/
lemma block_ok_iff {b : Json} : (∃ ps, block resolver b = .ok ps) ↔
    ∀ rows, IsTable b rows → HeadReadable b := by
  unfold block IsTable
  cases htype : isType b "table" with
  | false =>
      rw [if_neg nofun]
      refine ⟨fun _ rows h => ?_, fun _ => ?_⟩
      · cases h.1
      · split
        · exact ⟨_, rfl⟩
        · split
          · exact ⟨_, rfl⟩
          · split
            · exact ⟨_, rfl⟩
            · exact ⟨_, rfl⟩
  | true =>
      rw [if_pos rfl]
      unfold table
      cases hitems : array? b "items" with
      | none => simp
      | some rows =>
          cases rows with
          | nil => simp
          | cons r rows =>
              rw [← hasHead_ok_iff]
              dsimp only [isEmpty_cons]
              rw [if_neg nofun]
              constructor
              · rintro ⟨ps, hps⟩ _ -
                obtain ⟨head, hhead, -⟩ := map_ok_iff.mp hps
                exact ⟨head, hhead⟩
              · intro h
                obtain ⟨head, hhead⟩ := h _ ⟨rfl, rfl, nofun⟩
                exact ⟨_, map_ok_iff.mpr ⟨head, hhead, rfl⟩⟩

/-- Neither raw markup nor a form. -/
def IsText (b : Json) : Prop := isType b "html" = false ∧ isType b "form" = false

/-- What a block writes, if it is not raw markup or a form. -/
lemma block_spec {b : Json} {ps : List Piece} (htext : IsText b)
    (h : block resolver b = .ok ps) : (∀ p ∈ ps, Own p) ∧
      ((∀ rows, IsTable b rows → HasHead b rows) ∧ Balanced isVoid ps ∨
        (∃ rows, IsTable b rows ∧ ¬HasHead b rows) ∧ Broken isVoid ps) := by
  have hfair : (∀ rows, ¬IsTable b rows) → Fair ps → (∀ p ∈ ps, Own p) ∧
      ((∀ rows, IsTable b rows → HasHead b rows) ∧ Balanced isVoid ps ∨
        (∃ rows, IsTable b rows ∧ ¬HasHead b rows) ∧ Broken isVoid ps) := fun hno hps =>
    ⟨hps.own, .inl ⟨fun rows hrows => absurd hrows (hno rows), hps.balanced⟩⟩
  unfold block at h
  rw [htext.1, htext.2] at h
  cases htype : isType b "table" with
  | false =>
      have hno : ∀ rows, ¬IsTable b rows := by
        rintro rows ⟨htable, -⟩
        rw [htype] at htable
        cases htable
      rw [htype, if_neg nofun, if_neg nofun, if_neg nofun] at h
      refine hfair hno ?_
      split at h
      · next r hr =>
          obtain rfl := Except.ok.inj h
          exact textBlocks_fair r (mem_of_find?_eq_some hr) b
      · obtain rfl := Except.ok.inj h
        exact .nil
  | true =>
      rw [htype, if_pos rfl] at h
      unfold table at h
      split at h
      · next rows hrows =>
          split at h
          · next hempty =>
              obtain rfl := Except.ok.inj h
              refine hfair ?_ .nil
              rintro rows' ⟨-, hrows', hne⟩
              rw [hrows] at hrows'
              obtain rfl := Option.some.inj hrows'
              exact hne (List.isEmpty_iff.mp hempty)
          · next hne =>
              obtain ⟨head, hhead, rfl⟩ := map_ok_iff.mp h
              have hiff := hasHead_eq hhead
              have hsame : ∀ rows', IsTable b rows' → rows' = rows := by
                rintro rows' ⟨-, hrows', -⟩
                rw [hrows] at hrows'
                exact (Option.some.inj hrows').symm
              refine ⟨tableOf_own head rows, ?_⟩
              cases hwhole : head && rows.any isRow with
              | true =>
                  obtain ⟨rfl, hany⟩ := (Bool.and_eq_true _ _).mp hwhole
                  refine .inl ⟨fun rows' hrows' => ?_, tableOf_balanced hany⟩
                  rw [hsame rows' hrows']
                  exact ⟨hiff.mp rfl, hany⟩
              | false =>
                  refine .inr ⟨⟨rows, ⟨htype, hrows, ?_⟩, ?_⟩, tableOf_broken hwhole⟩
                  · exact fun hnil => hne (List.isEmpty_iff.mpr hnil)
                  · rintro ⟨hhas, hany⟩
                    rw [hiff.mpr hhas, hany] at hwhole
                    cases hwhole
      · next hnone =>
          obtain rfl := Except.ok.inj h
          refine hfair ?_ .nil
          rintro rows ⟨-, hrows, -⟩
          rw [hnone] at hrows
          cases hrows

/-! ### Pages -/

/-- No block of the page is raw markup or a form. -/
def TextOnly (page : Json) : Prop := ∀ b ∈ blocksOf page, IsText b

/-- The page is rendered, and a page of texts so that its elements nest. -/
def Renders (page : Json) (resolver : FormResolver) : Prop :=
  ∃ out, blocks page resolver = .ok out ∧ (TextOnly page → Nested isVoid out)

/-- What the tables of a page have to be like. -/
def TablesFit (page : Json) : Prop :=
  ∀ b ∈ blocksOf page, ∀ rows, IsTable b rows → HeadReadable b ∧ (TextOnly page → HasHead b rows)

/-- A page of parts that are balanced, but for those with a table that is broken. -/
lemma parts_nested_iff {bs : List Json} {pss : List (List Piece)}
    (h : List.Forall₂ (fun b ps => block resolver b = .ok ps) bs pss)
    (htext : ∀ b ∈ bs, IsText b) : Nested isVoid (html pss.flatten) ↔
      ∀ b ∈ bs, ∀ rows, IsTable b rows → HasHead b rows := by
  have hparts : (∀ p ∈ pss.flatten, Own p) ∧
      ((∀ b ∈ bs, ∀ rows, IsTable b rows → HasHead b rows) ∧ Balanced isVoid pss.flatten ∨
        (∃ b ∈ bs, ∃ rows, IsTable b rows ∧ ¬HasHead b rows) ∧ Broken isVoid pss.flatten) := by
    induction h with
    | nil =>
        exact ⟨fun _ hp => absurd hp not_mem_nil,
          .inl ⟨fun _ hb => absurd hb not_mem_nil, Balanced.nil⟩⟩
    | @cons b ps bs pss hb _ ih =>
        obtain ⟨hown, hpart⟩ := block_spec (htext b mem_cons_self) hb
        obtain ⟨hrest, hparts⟩ := ih fun c hc => htext c (mem_cons_of_mem b hc)
        rw [flatten_cons]
        refine ⟨fun p hp => ?_, ?_⟩
        · obtain hp | hp := mem_append.mp hp
          · exact hown p hp
          · exact hrest p hp
        · obtain ⟨hfits, hbalanced⟩ | ⟨hmiss, hbroken⟩ := hpart
          · obtain ⟨hfits', hbalanced'⟩ | ⟨⟨c, hc, hmiss'⟩, hbroken'⟩ := hparts
            · exact .inl ⟨forall_mem_cons.mpr ⟨hfits, hfits'⟩, hbalanced.append hbalanced'⟩
            · exact .inr ⟨⟨c, mem_cons_of_mem b hc, hmiss'⟩, hbalanced.broken hbroken'⟩
          · exact .inr ⟨⟨b, mem_cons_self, hmiss⟩, hbroken.append _⟩
  obtain ⟨hown, hparts⟩ := hparts
  have hplain : ∀ p ∈ pss.flatten, p.Plain := fun p hp => (hown p hp).plain
  obtain ⟨hfits, hbalanced⟩ | ⟨⟨b, hb, rows, hrows, hmiss⟩, hbroken⟩ := hparts
  · exact ⟨fun _ => hfits, fun _ => hbalanced.nested hplain⟩
  · exact ⟨fun hnested => absurd hnested (hbroken.not_nested hplain),
      fun hall => absurd (hall b hb rows hrows) hmiss⟩

/-- **Exactly the pages whose tables fit are rendered as they should.** -/
theorem renders_iff (page : Json) (resolver : FormResolver) :
    Renders page resolver ↔ TablesFit page := by
  have hok : (∃ pss, (blocksOf page).mapM (block resolver) = .ok pss) ↔
      ∀ b ∈ blocksOf page, ∀ rows, IsTable b rows → HeadReadable b := by
    rw [exists_mapM_ok_iff]
    exact forall₂_congr fun b _ => block_ok_iff
  constructor
  · rintro ⟨out, hout, hnested⟩ b hb rows hrows
    obtain ⟨pss, hpss, rfl⟩ := map_ok_iff.mp hout
    refine ⟨hok.mp ⟨pss, hpss⟩ b hb rows hrows, fun htext => ?_⟩
    exact (parts_nested_iff (mapM_ok_iff.mp hpss) htext).mp (hnested htext) b hb rows hrows
  · intro h
    obtain ⟨pss, hpss⟩ := hok.mpr fun b hb rows hrows => (h b hb rows hrows).1
    refine ⟨_, map_ok_iff.mpr ⟨pss, hpss, rfl⟩, fun htext => ?_⟩
    exact (parts_nested_iff (mapM_ok_iff.mp hpss) htext).mpr
      fun b hb rows hrows => (h b hb rows hrows).2 htext

/-- A page with a table that has no head, and one with a table whose head is asked
for in words. -/
def headlessTable (header : Json) : Json :=
  .arr [.obj [("header", header), ("items", .arr [.obj [("cells", .arr [.str "Size"])]]),
    ("type", .str "table")]]

theorem tables_unfit : ¬Renders (headlessTable (.bool false)) none ∧
    ¬Renders (headlessTable (.str "yes")) none := by
  constructor
  · rintro ⟨out, hout, hnested⟩
    have htext : TextOnly (headlessTable (.bool false)) := by
      intro b hb
      obtain rfl := mem_singleton.mp hb
      exact ⟨by decide, by decide⟩
    have hrun : ((blocks (headlessTable (.bool false)) none).toOption.any fun out =>
        decide (¬Nested isVoid out)) = true := by
      decide
    rw [hout] at hrun
    exact of_decide_eq_true hrun (hnested htext)
  · rintro ⟨out, hout, -⟩
    have hrun : (blocks (headlessTable (.str "yes")) none).isOk = false := by decide
    rw [hout] at hrun
    cases hrun

end WebsiteRender

end CErp
