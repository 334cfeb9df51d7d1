/-
The renderer of documents.

`render` copies the body of a block once for each line, writes values over the
holes, one name after the other, and takes out what still stands between double
braces.  A text that earlier values are part of is searched again for the next
name; as long as it is readable, what is found is a hole of the template
(`replaceAll_text`, `replaceEntries_text`), and the block is cut out where it
stands (`expandLines_text`).

When a document says what its values say.

`filled` is the document as it is meant: the body once for each line, every hole
that has a value filled with it, the others left standing for nothing.  The
renderer ends with a sweep over what stands between double braces, wherever the
braces come from.  It writes the document that is meant exactly if no double
brace of the template's own text or of a value is closed behind
(`render_filled_iff`): a value that writes a hole is read as one
(`value_reread`).
-/
import CErp.HoleTexts
import CErp.WebsiteRender

namespace CErp

namespace TemplateRenderer

open HoleTexts
open WebsiteRender (find)

/-! ### The source -/

lemma find_nil {pat : List Char} (h : pat ≠ []) : find pat [] = none := if_neg h

/-- `replaceAll`: the search goes on behind the value. -/
def replaceAll (pat value str : List Char) : List Char :=
  if _h : pat = [] then str
  else
    match _hfind : find pat str with
    | none => str
    | some pos =>
        str.take pos ++ value ++ replaceAll pat value (str.drop (pos + pat.length))
termination_by str.length
decreasing_by
  have hstr : 0 < str.length := by
    cases str with
    | nil => rw [find_nil _h] at _hfind; cases _hfind
    | cons c cs => exact Nat.succ_pos _
  have hpat := List.length_pos_of_ne_nil _h
  rw [List.length_drop]
  omega

def eachStart : List Char := "\x7b\x7b#each lines\x7d\x7d".toList
def eachEnd : List Char := "\x7b\x7b/each\x7d\x7d".toList

/-- A `std::map`, as its entries in the order of the keys. -/
abbrev Entries := List (List Char × List Char)

/-- The values of a map, one name after the other. -/
def replaceEntries (entries : Entries) (str : List Char) : List Char :=
  entries.foldl (fun str kv => replaceAll (token kv.1) kv.2 str) str

/-- The block, once for each line. -/
def expandLines (tmpl : List Char) (lines : List Entries) : List Char :=
  match find eachStart tmpl, find eachEnd tmpl with
  | some sPos, some ePos =>
      let body := tmpl.drop (sPos + eachStart.length)
      -- where the end stands first the count wraps around, and all is taken
      let loopTpl := if sPos + eachStart.length ≤ ePos
        then body.take (ePos - (sPos + eachStart.length)) else body
      tmpl.take sPos ++ lines.flatMap (fun line => replaceEntries line loopTpl) ++
        tmpl.drop (ePos + eachEnd.length)
  | _, _ => tmpl

def closer : List Char := ['\x7d', '\x7d']

/-- What is left between double braces is taken out. -/
def blank : List Char → List Char
  | [] => []
  | c :: cs =>
      if c = '\x7b' ∧ cs.head? = some '\x7b' then
        match find closer cs.tail with
        | some pos => blank (cs.tail.drop (pos + 2))
        | none => c :: blank cs
      else c :: blank cs
termination_by cs => cs.length
decreasing_by
  · rw [List.length_drop, List.length_tail, List.length_cons]
    omega
  · exact Nat.lt_succ_self _
  · exact Nat.lt_succ_self _

def render (tmpl : List Char) (vars : Entries) (lines : List Entries) : List Char :=
  blank (replaceEntries vars (expandLines tmpl lines))

/-! ### Searching -/

variable {pat value cs rest : List Char}

lemma find_isPrefix (h : pat <+: cs) : find pat cs = some 0 := by
  cases cs with
  | nil =>
      rw [List.prefix_nil] at h
      exact if_pos h
  | cons c cs => exact if_pos (List.isPrefixOf_iff_prefix.mpr h)

lemma find_cons (h : ¬pat <+: c :: cs) : find pat (c :: cs) = (find pat cs).map (· + 1) :=
  if_neg fun hc => h (List.isPrefixOf_iff_prefix.mp hc)

lemma find_skips (h : Skips pat cs rest) :
    find pat (cs ++ rest) = (find pat rest).map (· + cs.length) := by
  induction cs with
  | nil =>
      rw [List.nil_append]
      rcases find pat rest with - | pos <;> rfl
  | cons c cs ih =>
      rw [List.cons_append, find_cons h.1, ih h.2]
      rcases find pat rest with - | pos <;> rfl

lemma find_eq_none_iff (hne : pat ≠ []) : find pat cs = none ↔ ¬pat <:+: cs := by
  induction cs with
  | nil =>
      rw [find_nil hne, List.infix_nil]
      exact ⟨fun _ => hne, fun _ => rfl⟩
  | cons c cs ih =>
      rw [List.infix_cons_iff, not_or]
      by_cases hfound : pat <+: c :: cs
      · rw [find_isPrefix hfound]
        exact ⟨nofun, fun h => absurd hfound h.1⟩
      · rw [find_cons hfound, Option.map_eq_none_iff, ih]
        exact ⟨fun h => ⟨hfound, h⟩, fun h => h.2⟩

/-! ### Replacing -/

lemma replaceAll_of_find (hne : pat ≠ []) (value cs : List Char) : replaceAll pat value cs =
    match find pat cs with
    | none => cs
    | some pos => cs.take pos ++ value ++ replaceAll pat value (cs.drop (pos + pat.length)) := by
  rw [replaceAll, dif_neg hne]
  split <;> next h => rw [h]

lemma replaceAll_nil (hne : pat ≠ []) (value : List Char) : replaceAll pat value [] = [] := by
  rw [replaceAll_of_find hne, find_nil hne]

/-- What the search passes stays. -/
lemma replaceAll_skips (hne : pat ≠ []) (h : Skips pat cs rest) :
    replaceAll pat value (cs ++ rest) = cs ++ replaceAll pat value rest := by
  rw [replaceAll_of_find hne, replaceAll_of_find hne value rest, find_skips h]
  rcases find pat rest with - | pos
  · rfl
  · dsimp only [Option.map_some]
    have hdrop : pos + cs.length + pat.length = cs.length + (pos + pat.length) := by omega
    rw [hdrop, ← List.drop_drop, List.drop_left, Nat.add_comm pos, List.take_length_add_append,
      List.append_assoc, List.append_assoc, List.append_assoc]

lemma replaceAll_found (hne : pat ≠ []) (value rest : List Char) :
    replaceAll pat value (pat ++ rest) = value ++ replaceAll pat value rest := by
  rw [replaceAll_of_find hne, find_isPrefix (List.prefix_append pat rest)]
  dsimp only
  rw [List.take_zero, List.nil_append, Nat.zero_add, List.drop_left]

lemma token_ne_nil (name : List Char) : token name ≠ [] := List.cons_ne_nil _ _

/-- One name and its value. -/
def only (k : Name) (v : List Char) (j : Name) : Option (List Char) :=
  if j = k then some v else none

/-- **One name is replaced where its holes stand.** -/
theorem replaceAll_text {ps : List Piece} (h : Readable ps) (k : Name) (v : List Char) :
    replaceAll (token k.chars) v (text ps) = text (fill (only k v) ps) := by
  induction ps with
  | nil => exact replaceAll_nil (token_ne_nil _) v
  | cons p ps ih =>
      have hrest := ih h.of_cons
      have hpass : ∀ q : Piece, p = q → .hole k ≠ q → replaceAll (token k.chars) v (text (q :: ps)) =
          q.text ++ text (fill (only k v) ps) := by
        rintro q rfl hq
        have hskips : Skips (token k.chars) (text [p]) (text ps) :=
          skips_text h (List.mem_singleton.not.mpr hq)
        have htext : text (p :: ps) = text [p] ++ text ps := text_append [p] ps
        rw [htext, replaceAll_skips (token_ne_nil _) hskips, hrest]
        show [p].flatMap Piece.text ++ _ = _
        rw [List.flatMap_singleton]
      cases p with
      | lit c => exact hpass (.lit c) rfl nofun
      | hole j =>
          rw [fill]
          unfold only
          by_cases hj : j = k
          · subst hj
            rw [if_pos rfl]
            show replaceAll _ v (token j.chars ++ text ps) = text (lits v ++ fill (only j v) ps)
            rw [replaceAll_found (token_ne_nil _), hrest, text_append, text_lits]
          · rw [if_neg hj]
            exact hpass (.hole j) rfl fun heq => hj (Piece.hole.inj heq).symm

/-- Values under names. -/
abbrev Values := List (Name × List Char)

def entries (m : Values) : Entries := m.map fun kv => (kv.1.chars, kv.2)

/-- **A map is replaced where the holes of its names stand**, if what comes of it
can be read. -/
theorem replaceEntries_text (m : Values) {ps : List Piece}
    (h : Readable (fill (fun k => m.lookup k) ps)) :
    replaceEntries (entries m) (text ps) = text (fill (fun k => m.lookup k) ps) := by
  induction m generalizing ps with
  | nil =>
      show text ps = text (fill (fun _ => none) ps)
      rw [fill_none]
  | cons kv m ih =>
      obtain ⟨k, v⟩ := kv
      have hlookup : (fun j => List.lookup j ((k, v) :: m)) =
          fun j => (only k v j).or (m.lookup j) := by
        funext j
        unfold only
        rw [List.lookup_cons]
        by_cases hj : j = k
        · rw [if_pos hj, beq_iff_eq.mpr hj, Option.some_or]
        · rw [if_neg hj, beq_eq_false_iff_ne.mpr hj, Option.none_or]
      rw [hlookup, ← fill_fill] at h ⊢
      have hone := replaceAll_text h.of_fill.of_fill k v
      rw [← ih h, ← hone]
      rfl

end TemplateRenderer

end CErp

namespace CErp

namespace TemplateRenderer

open HoleTexts
open WebsiteRender (find)

/-! ### The sweep -/

/-- A brace, another behind it, and two that close somewhere behind both. -/
def Opens (c : Char) (cs : List Char) : Prop :=
  c = '\x7b' ∧ cs.head? = some '\x7b' ∧ closer <:+: cs.tail

instance (c : Char) (cs : List Char) : Decidable (Opens c cs) :=
  inferInstanceAs (Decidable (_ ∧ _ ∧ _))

/-- No character opens what is closed behind; holes may stand. -/
def Unbroken : List Piece → Prop
  | [] => True
  | .lit c :: ps => ¬Opens c (text ps) ∧ Unbroken ps
  | .hole _ :: ps => Unbroken ps

lemma closer_ne_nil : closer ≠ [] := List.cons_ne_nil _ _

variable {cs : List Char}

lemma blank_cons {c : Char} (h : ¬Opens c cs) : blank (c :: cs) = c :: blank cs := by
  rw [blank]
  by_cases hopen : c = '\x7b' ∧ cs.head? = some '\x7b'
  · have hnone : find closer cs.tail = none :=
      (find_eq_none_iff closer_ne_nil).mpr fun hclose => h ⟨hopen.1, hopen.2, hclose⟩
    rw [if_pos hopen, hnone]
  · rw [if_neg hopen]

lemma blank_opens {pos : ℕ} (h : find closer cs = some pos) :
    blank ('\x7b' :: '\x7b' :: cs) = blank (cs.drop (pos + 2)) := by
  rw [blank, if_pos ⟨rfl, rfl⟩, List.tail_cons, h]

lemma find_closer_hole (k : Name) (rest : List Char) :
    find closer (k.chars ++ '\x7d' :: '\x7d' :: rest) = some k.chars.length := by
  have hskips : Skips closer k.chars ('\x7d' :: '\x7d' :: rest) :=
    skips_of_notMem (fun hmem => (k.braceFree _ hmem).2 rfl) _
  have hclose : closer <+: '\x7d' :: '\x7d' :: rest := ⟨rest, rfl⟩
  rw [find_skips hskips, find_isPrefix hclose, Option.map_some, Nat.zero_add]

lemma drop_hole (k : Name) (rest : List Char) :
    (k.chars ++ '\x7d' :: '\x7d' :: rest).drop (k.chars.length + 2) = rest := by
  rw [← List.drop_drop, List.drop_left]
  rfl

lemma blank_hole (k : Name) (ps : List Piece) :
    blank (text (.hole k :: ps)) = blank (text ps) := by
  rw [text_hole, blank_opens (find_closer_hole k (text ps)), drop_hole]

/-- Two closing braces end at the end of a piece. -/
lemma exists_behind {ps : List Piece} {pos : ℕ} (h : find closer (text ps) = some pos) :
    ∃ a b, ps = a ++ b ∧ text b = (text ps).drop (pos + 2) := by
  induction ps generalizing pos with
  | nil => cases h
  | cons p ps ih =>
      cases p with
      | lit c =>
          rw [text_lit] at h ⊢
          by_cases hfound : closer <+: c :: text ps
          · rw [find_isPrefix hfound] at h
            cases h
            obtain ⟨rfl, hsecond⟩ := List.cons_prefix_cons.mp hfound
            obtain ⟨b, rfl⟩ := lits_of_isPrefix (List.forall_mem_singleton.mpr (by decide)) hsecond
            exact ⟨[.lit '\x7d', .lit '\x7d'], b, rfl, rfl⟩
          · rw [find_cons hfound] at h
            obtain ⟨pos, hpos, rfl⟩ := Option.map_eq_some_iff.mp h
            obtain ⟨a, b, rfl, htext⟩ := ih hpos
            exact ⟨.lit c :: a, b, rfl, htext⟩
      | hole k =>
          have hskips : Skips closer ['\x7b', '\x7b'] (k.chars ++ '\x7d' :: '\x7d' :: text ps) :=
            skips_of_notMem (by decide) _
          have hfind := find_skips hskips
          rw [find_closer_hole] at hfind
          rw [text_hole] at h ⊢
          cases h.symm.trans hfind
          refine ⟨[.hole k], ps, rfl, ?_⟩
          show _ = (k.chars ++ '\x7d' :: '\x7d' :: text ps).drop (k.chars.length + 2)
          rw [drop_hole]

/-- Where the sweep opens at a character, it goes on behind a later piece. -/
lemma blank_lit_opens {c : Char} {ps : List Piece} (h : Opens c (text ps)) :
    ∃ a b, ps = a ++ b ∧ blank (text (.lit c :: ps)) = blank (text b) := by
  obtain ⟨rfl, hhead, hclose⟩ := h
  cases ps with
  | nil => cases hhead
  | cons p ps =>
      cases p with
      | hole k =>
          have hskips : Skips closer ['\x7b'] (k.chars ++ '\x7d' :: '\x7d' :: text ps) :=
            skips_of_notMem (by decide) _
          have hfind : find closer ('\x7b' :: (k.chars ++ '\x7d' :: '\x7d' :: text ps)) =
              some (k.chars.length + 1) :=
            (find_skips hskips).trans (congrArg _ (find_closer_hole k (text ps)))
          refine ⟨[.hole k], ps, rfl, ?_⟩
          rw [text_lit, text_hole, blank_opens hfind]
          exact congrArg blank (drop_hole k (text ps))
      | lit d =>
          obtain rfl : d = '\x7b' := Option.some.inj hhead
          obtain ⟨pos, hpos⟩ := Option.ne_none_iff_exists'.mp fun hnone =>
            (find_eq_none_iff closer_ne_nil).mp hnone hclose
          have hbehind : find closer (text ps) = some pos := hpos
          obtain ⟨a, b, rfl, htext⟩ := exists_behind hbehind
          refine ⟨.lit '\x7b' :: a, b, rfl, ?_⟩
          rw [text_lit, text_lit, blank_opens hbehind, htext]

/-- The sweep takes the holes at least. -/
lemma blank_length_le (ps : List Piece) : (blank (text ps)).length ≤ (plain ps).length := by
  induction hn : ps.length using Nat.strongRecOn generalizing ps with
  | _ n ih =>
      subst hn
      cases ps with
      | nil =>
          show (blank []).length ≤ 0
          rw [blank]
          exact Nat.le_refl 0
      | cons p ps =>
          cases p with
          | hole k =>
              rw [blank_hole]
              exact ih _ (Nat.lt_succ_self _) ps rfl
          | lit c =>
              have hplain : (plain (.lit c :: ps)).length = (plain ps).length + 1 := rfl
              by_cases hopens : Opens c (text ps)
              · obtain ⟨a, b, rfl, hblank⟩ := blank_lit_opens hopens
                have hlen : b.length < (Piece.lit c :: (a ++ b)).length := by
                  rw [List.length_cons, List.length_append]
                  omega
                have hb := ih _ hlen b rfl
                rw [hblank, hplain, plain_append, List.length_append]
                omega
              · rw [text_lit, blank_cons hopens, hplain, List.length_cons]
                exact Nat.succ_le_succ (ih _ (Nat.lt_succ_self _) ps rfl)

/-- **The sweep takes the holes and nothing else** exactly if nothing else opens. -/
theorem blank_text_iff (ps : List Piece) : blank (text ps) = plain ps ↔ Unbroken ps := by
  induction ps with
  | nil =>
      show blank [] = [] ↔ True
      rw [blank]
      exact ⟨fun _ => trivial, fun _ => rfl⟩
  | cons p ps ih =>
      cases p with
      | hole k =>
          rw [blank_hole]
          exact ih
      | lit c =>
          by_cases hopens : Opens c (text ps)
          · -- what opens takes its own brace along
            have hne : blank (text (.lit c :: ps)) ≠ plain (.lit c :: ps) := by
              intro heq
              obtain ⟨a, b, rfl, hblank⟩ := blank_lit_opens hopens
              have hlength := blank_length_le b
              rw [← hblank, heq] at hlength
              have hplain : (plain (.lit c :: (a ++ b))).length =
                  (plain a).length + (plain b).length + 1 := by
                show (plain (a ++ b)).length + 1 = _
                rw [plain_append, List.length_append]
              omega
            exact ⟨fun heq => absurd heq hne, fun h => absurd hopens h.1⟩
          · rw [text_lit, blank_cons hopens]
            show c :: blank (text ps) = c :: plain ps ↔ ¬Opens c (text ps) ∧ Unbroken ps
            rw [List.cons.injEq, ih]
            exact ⟨fun h => ⟨hopens, h.2⟩, fun h => ⟨rfl, h.2⟩⟩

/-- What spells a hole opens. -/
lemma Unbroken.readable {ps : List Piece} (h : Unbroken ps) : Readable ps := by
  rintro a k b rfl
  induction a with
  | nil =>
      refine h.1 ⟨rfl, rfl, ?_⟩
      show closer <:+: (text (lits ('\x7b' :: (k.chars ++ closer)) ++ b)).tail
      rw [text_append, text_lits]
      exact ⟨k.chars, text b, rfl⟩
  | cons p a ih =>
      cases p with
      | lit c => exact ih h.2
      | hole j => exact ih h

/-! ### The sweep is done once -/

lemma blank_eq_self (h : ¬closer <:+: cs) : blank cs = cs := by
  induction cs with
  | nil => rw [blank]
  | cons c cs ih =>
      have hrest : ¬closer <:+: cs := fun hin => h (hin.trans (List.suffix_cons c cs).isInfix)
      have hopens : ¬Opens c cs := fun hopens =>
        hrest (hopens.2.2.trans (List.tail_suffix cs).isInfix)
      rw [blank_cons hopens, ih hrest]

/-- Nothing comes to open by the sweep. -/
lemma opens_blank {c : Char} (h : ¬Opens c cs) : ¬Opens c (blank cs) := by
  rintro ⟨rfl, hhead, hclose⟩
  cases cs with
  | nil =>
      rw [blank] at hhead
      cases hhead
  | cons d cs =>
      by_cases hd : d = '\x7b'
      · subst hd
        have hcs : ¬closer <:+: cs := fun hin => h ⟨rfl, rfl, hin⟩
        have hwhole : ¬closer <:+: '\x7b' :: cs := by
          rw [List.infix_cons_iff, not_or]
          exact ⟨fun hp => absurd (List.cons_prefix_cons.mp hp).1 (by decide), hcs⟩
        rw [blank_eq_self hwhole] at hclose
        exact hcs hclose
      · rw [blank_cons fun hopens => hd hopens.1] at hhead
        exact hd (Option.some.inj hhead)

lemma blank_blank (cs : List Char) : blank (blank cs) = blank cs := by
  induction cs using blank.induct with
  | case1 => rw [blank, blank]
  | case2 c cs hopen pos hpos ih =>
      have hblank : blank (c :: cs) = blank (cs.tail.drop (pos + 2)) := by
        rw [blank, if_pos hopen, hpos]
      rw [hblank, ih]
  | case3 c cs hopen hnone ih =>
      have hopens : ¬Opens c cs := fun h =>
        (find_eq_none_iff closer_ne_nil).mp hnone h.2.2
      rw [blank_cons hopens, blank_cons (opens_blank hopens), ih]
  | case4 c cs hopen ih =>
      have hopens : ¬Opens c cs := fun h => hopen ⟨h.1, h.2.1⟩
      rw [blank_cons hopens, blank_cons (opens_blank hopens), ih]

/-! ### Documents -/

def eachName : Name := ⟨"#each lines".toList, braceFree_of_all rfl⟩
def endName : Name := ⟨"/each".toList, braceFree_of_all rfl⟩

/-- The body of a block, and what stands behind it. -/
structure Block where
  body : List Piece
  after : List Piece

/-- A template, taken apart. -/
structure Parts where
  before : List Piece
  block : Option Block

def Block.pieces (b : Block) : List Piece :=
  .hole eachName :: (b.body ++ .hole endName :: b.after)

def Parts.pieces (d : Parts) : List Piece := d.before ++ (d.block.map Block.pieces).getD []

/-- A block is from the first opening marker to the first closing one; without a
block one of the two is missing. -/
def Parts.Marked (d : Parts) : Prop :=
  match d.block with
  | none => ¬(.hole eachName ∈ d.before ∧ .hole endName ∈ d.before)
  | some b => .hole eachName ∉ d.before ∧ .hole endName ∉ d.before ∧ .hole endName ∉ b.body

/-- A template with at most one block, as it is read. -/
structure Document extends Parts where
  readable : Readable toParts.pieces
  marked : toParts.Marked

/-- The body for each line, with the line's values. -/
def Block.copies (b : Block) (lines : List Values) : List Piece :=
  lines.flatMap fun line => fill (fun k => line.lookup k) b.body

/-- The block copied. -/
def Parts.expanded (d : Parts) (lines : List Values) : List Piece :=
  d.before ++ (d.block.map fun b => b.copies lines ++ b.after).getD []

/-- What the document is to say: the line's value in the body, otherwise the
variable's, otherwise nothing. -/
def Parts.filled (d : Parts) (vars : Values) (lines : List Values) : List Piece :=
  fill (fun k => vars.lookup k) d.before ++ (d.block.map fun b =>
    lines.flatMap (fun line => fill (fun k => (line.lookup k).or (vars.lookup k)) b.body) ++
      fill (fun k => vars.lookup k) b.after).getD []

lemma fill_expanded (d : Parts) (vars : Values) (lines : List Values) :
    fill (fun k => vars.lookup k) (d.expanded lines) = d.filled vars lines := by
  unfold Parts.expanded Parts.filled
  rw [fill_append]
  rcases d.block with - | b
  · rfl
  · show _ ++ fill _ (b.copies lines ++ b.after) = _ ++ _
    rw [fill_append]
    have hcopies : fill (fun k => vars.lookup k) (b.copies lines) =
        lines.flatMap fun line => fill (fun k => (line.lookup k).or (vars.lookup k)) b.body := by
      unfold Block.copies
      induction lines with
      | nil => rfl
      | cons line lines ih => rw [List.flatMap_cons, List.flatMap_cons, fill_append, fill_fill, ih]
    rw [hcopies]
    rfl

/-! ### The block -/

lemma find_hole {k : Name} {ps qs : List Piece} (h : Readable (ps ++ .hole k :: qs))
    (hk : .hole k ∉ ps) :
    find (token k.chars) (text (ps ++ .hole k :: qs)) = some (text ps).length := by
  have hstands : token k.chars <+: text (.hole k :: qs) := ⟨text qs, rfl⟩
  rw [text_append, find_skips (skips_text h hk), find_isPrefix hstands, Option.map_some,
    Nat.zero_add]

lemma find_no_hole {k : Name} {ps : List Piece} (h : Readable ps) (hk : .hole k ∉ ps) :
    find (token k.chars) (text ps) = none := by
  have hread : Readable (ps ++ []) := by rwa [List.append_nil]
  have hskips := skips_text hread hk
  have hfind := find_skips hskips
  rw [show text [] = [] from rfl, List.append_nil, find_nil (token_ne_nil _)] at hfind
  exact hfind

lemma readable_copy {b : Block} {lines : List Values} {line : Values} (h : line ∈ lines)
    {ps qs : List Piece} (hread : Readable (ps ++ (b.copies lines ++ qs))) :
    Readable (fill (fun k => line.lookup k) b.body) := by
  obtain ⟨l₁, l₂, rfl⟩ := List.append_of_mem h
  have hsplit : b.copies (l₁ ++ line :: l₂) =
      b.copies l₁ ++ fill (fun k => line.lookup k) b.body ++ b.copies l₂ := by
    unfold Block.copies
    rw [List.flatMap_append, List.flatMap_cons, List.append_assoc]
  rw [hsplit, ← List.append_assoc] at hread
  exact hread.of_append.of_append

/-- The copies of the block, as the renderer writes them. -/
lemma copies_text {b : Block} {lines : List Values}
    (h : ∀ line ∈ lines, Readable (fill (fun k => line.lookup k) b.body)) :
    (lines.map entries).flatMap (fun line => replaceEntries line (text b.body)) =
      text (b.copies lines) := by
  unfold Block.copies
  induction lines with
  | nil => rfl
  | cons line lines ih =>
      rw [List.forall_mem_cons] at h
      rw [List.map_cons, List.flatMap_cons, List.flatMap_cons, text_append, ih h.2,
        replaceEntries_text line h.1]

/-- **The block is cut out where it stands.** -/
theorem expandLines_text (d : Document) (lines : List Values)
    (h : Readable (d.expanded lines)) :
    expandLines (text d.pieces) (lines.map entries) = text (d.expanded lines) := by
  obtain ⟨⟨before, block⟩, hread, hmarked⟩ := d
  cases block with
  | none =>
      have hpieces : (Parts.mk before none).pieces = before := List.append_nil before
      have hexpanded : (Parts.mk before none).expanded lines = before := List.append_nil before
      rw [hpieces] at hread
      show expandLines (text (Parts.mk before none).pieces) _ = _
      rw [hpieces, hexpanded]
      unfold expandLines
      by_cases heach : .hole eachName ∈ before
      · have hend : find eachEnd (text before) = none :=
          find_no_hole (k := endName) hread fun hend => hmarked ⟨heach, hend⟩
        rw [hend]
        split
        · next heq => cases heq
        · rfl
      · have hnone : find eachStart (text before) = none :=
          find_no_hole (k := eachName) hread heach
        rw [hnone]
  | some b =>
      obtain ⟨heach, hend, hbody⟩ := hmarked
      obtain ⟨body, after⟩ := b
      have hpieces : (Parts.mk before (some ⟨body, after⟩)).pieces =
          before ++ .hole eachName :: (body ++ .hole endName :: after) := rfl
      have hpieces' : before ++ .hole eachName :: (body ++ .hole endName :: after) =
          (before ++ .hole eachName :: body) ++ .hole endName :: after := by
        rw [List.append_assoc, List.cons_append]
      rw [hpieces] at hread
      have hstart : find eachStart (text (before ++ .hole eachName ::
          (body ++ .hole endName :: after))) = some (text before).length :=
        find_hole hread heach
      have hclose : find eachEnd (text (before ++ .hole eachName ::
          (body ++ .hole endName :: after))) =
            some (text (before ++ .hole eachName :: body)).length := by
        rw [hpieces'] at hread ⊢
        refine find_hole hread ?_
        rw [List.mem_append, List.mem_cons, not_or, not_or]
        exact ⟨hend, fun heq => absurd (Piece.hole.inj heq) (by decide), hbody⟩
      have hcopies : ∀ line ∈ lines, Readable (fill (fun k => line.lookup k) body) :=
        fun line hline => readable_copy (b := ⟨body, after⟩) hline h
      have hlength : (text (before ++ .hole eachName :: body)).length =
          (text before).length + eachStart.length + (text body).length := by
        rw [text_append, List.length_append, Nat.add_assoc]
        exact congrArg _ List.length_append
      have htext : text (before ++ .hole eachName :: (body ++ .hole endName :: after)) =
          text before ++ (eachStart ++ (text body ++ (eachEnd ++ text after))) := by
        rw [text_append]
        refine congrArg (text before ++ ·) ?_
        show token eachName.chars ++ text (body ++ .hole endName :: after) = _
        rw [text_append]
        rfl
      show expandLines (text (Parts.mk before (some ⟨body, after⟩)).pieces) _ = _
      rw [hpieces]
      unfold expandLines
      rw [hstart, hclose]
      dsimp only
      rw [hlength, if_pos (Nat.le_add_right _ _), Nat.add_sub_cancel_left, htext, List.take_left,
        ← List.drop_drop, List.drop_left, List.drop_left, List.take_left,
        copies_text (b := ⟨body, after⟩) hcopies, Nat.add_assoc _ _ eachEnd.length,
        Nat.add_assoc (text before).length, ← List.drop_drop, List.drop_left, ← List.drop_drop,
        List.drop_left, ← List.drop_drop, List.drop_left, List.drop_left]
      show _ = text (before ++ (Block.copies ⟨body, after⟩ lines ++ after))
      rw [text_append, text_append, List.append_assoc]

/-- **A document says what its values say** exactly if none of its characters
opens what is closed behind. -/
theorem render_filled_iff (d : Document) (vars : Values) (lines : List Values) :
    render (text d.pieces) (entries vars) (lines.map entries) = plain (d.filled vars lines) ↔
      Unbroken (d.filled vars lines) := by
  by_cases hread : Readable (d.filled vars lines)
  · rw [← fill_expanded] at hread
    unfold render
    rw [expandLines_text d lines hread.of_fill, replaceEntries_text vars hread, fill_expanded]
    exact blank_text_iff _
  · refine ⟨fun heq => ?_, fun h => absurd h.readable hread⟩
    -- a hole that a value spells does not outlive the sweep
    have htwice : blank (plain (d.filled vars lines)) = plain (d.filled vars lines) := by
      rw [← heq]
      exact blank_blank _
    have hlits : Unbroken (lits (plain (d.filled vars lines))) := by
      rw [← blank_text_iff, text_lits, plain_lits]
      exact htwice
    simp only [Readable, ne_eq, not_forall, not_not] at hread
    obtain ⟨a, k, b, hspelt⟩ := hread
    refine absurd ?_ (hlits.readable (lits (plain a)) k (lits (plain b)))
    rw [hspelt, plain_append, plain_append, plain_lits]
    unfold lits
    rw [List.map_append, List.map_append]

/-- **A template is read in one way, and its document says what its values say**
exactly if none of its characters opens what is closed behind. -/
theorem documents_rendered (tmpl : List Char) (vars : Values) (lines : List Values) :
    (∃! ps, Readable ps ∧ text ps = tmpl) ∧ ∀ d : Document, text d.pieces = tmpl →
        (render tmpl (entries vars) (lines.map entries) = plain (d.filled vars lines) ↔
          Unbroken (d.filled vars lines)) := by
  refine ⟨existsUnique_readable tmpl, ?_⟩
  rintro d rfl
  exact render_filled_iff d vars lines

/-! ### A product named after a placeholder -/

def productName : Name := ⟨"product_name".toList, braceFree_of_all rfl⟩
def docNumber : Name := ⟨"doc_number".toList, braceFree_of_all rfl⟩

/-- A line is its product's name. -/
def lineNames : Document where
  before := []
  block := some ⟨[.hole productName], []⟩
  readable := ((readable_nil.hole endName).hole productName).hole eachName
  marked := by
    refine ⟨List.not_mem_nil, List.not_mem_nil, ?_⟩
    rw [List.mem_singleton]
    exact fun heq => absurd (Piece.hole.inj heq) (by decide)

/-- The name of a product writes a hole, and the number of the document is
written into it. -/
theorem value_reread : render (text lineNames.pieces) (entries [(docNumber, "INV/1".toList)])
        ([[(productName, token docNumber.chars)]].map entries) ≠
      plain (lineNames.filled [(docNumber, "INV/1".toList)]
        [[(productName, token docNumber.chars)]]) := by
  intro heq
  have hunbroken := (render_filled_iff _ _ _).mp heq
  exact hunbroken.readable [] docNumber [] rfl

end TemplateRenderer

end CErp
