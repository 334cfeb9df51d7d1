/-
The tags of a text of markup, and whether they nest.

`tags` reads a text from its beginning: a `<` begins a tag, the next `>` outside of
double quotes ends it, and a tag that is not ended is none.  The text of pieces that
are plain has just their tags (`tags_html`).

`close` keeps the elements that are open, the innermost first.  A text is `Nested`
when each end tag closes the innermost element and none is open at the end; `void`
says which elements have no end tag.  Pieces that leave open what was open,
whatever that is, are `Balanced`, and these go into each other as elements do; what
is `Broken` no pieces around it mend.
-/
import CErp.Markup

namespace Markup

open List

inductive Tag
  | opening (t : List Char)
  | closing (t : List Char)
deriving DecidableEq

/-! ### Reading tags -/

def nameOf (cs : List Char) : List Char := cs.takeWhile fun c => ¬stopsName c

/-- The tag whose text between the brackets is this. -/
def tagOf : List Char → Tag
  | '/' :: cs => .closing (nameOf cs)
  | cs => .opening (nameOf cs)

/-- The tags of a text, from within one of which so much has been read and whether
that ends in quotes, or from without. -/
def scan : Option (List Char × Bool) → List Char → List Tag
  | _, [] => []
  | none, c :: cs => if c = '<' then scan (some ([], false)) cs else scan none cs
  | some (inner, quoted), c :: cs =>
      if c = '"' then scan (some (inner ++ [c], !quoted)) cs
      else if c = '>' ∧ ¬quoted then tagOf inner :: scan none cs
      else scan (some (inner ++ [c], quoted)) cs

def tags (cs : List Char) : List Tag := scan none cs

lemma scan_text {cs : List Char} (h : '<' ∉ cs) (rest : List Char) :
    scan none (cs ++ rest) = scan none rest := by
  induction cs with
  | nil => rfl
  | cons c cs ih =>
      rw [mem_cons, not_or] at h
      rw [cons_append, scan, if_neg (Ne.symm h.1)]
      exact ih h.2

lemma scan_unquoted {cs : List Char} (h : '"' ∉ cs ∧ '>' ∉ cs) (inner rest : List Char) :
    scan (some (inner, false)) (cs ++ rest) = scan (some (inner ++ cs, false)) rest := by
  induction cs generalizing inner with
  | nil => rw [append_nil, nil_append]
  | cons c cs ih =>
      simp only [mem_cons, not_or] at h
      obtain ⟨⟨hquote, hquotes⟩, hend, hends⟩ := h
      rw [cons_append, scan, if_neg (Ne.symm hquote), if_neg fun hc => hend hc.1.symm,
        ih ⟨hquotes, hends⟩, append_assoc, singleton_append]

lemma scan_quoted {cs : List Char} (h : '"' ∉ cs) (inner rest : List Char) :
    scan (some (inner, true)) (cs ++ rest) = scan (some (inner ++ cs, true)) rest := by
  induction cs generalizing inner with
  | nil => rw [append_nil, nil_append]
  | cons c cs ih =>
      rw [mem_cons, not_or] at h
      rw [cons_append, scan, if_neg (Ne.symm h.1), if_neg fun hc => hc.2 rfl, ih h.2,
        append_assoc, singleton_append]

/-! ### Plain pieces -/

/-- A name that is read as it is written. -/
def PlainName (t : List Char) : Prop := t ≠ [] ∧ ∀ c ∈ t, ¬stopsName c ∧ c ≠ '"'

instance (t : List Char) : Decidable (PlainName t) := inferInstanceAs (Decidable (_ ∧ _))

def Attr.Plain (a : Attr) : Prop := ('"' ∉ a.name ∧ '>' ∉ a.name) ∧ '"' ∉ a.value

instance (a : Attr) : Decidable a.Plain := inferInstanceAs (Decidable (_ ∧ _))

namespace Piece

/-- A piece that is read as it is written. -/
def Plain : Piece → Prop
  | text cs => '<' ∉ cs
  | endTag t => PlainName t
  | startTag t attrs _ => PlainName t ∧ ∀ a ∈ attrs, a.Plain

def tags : Piece → List Tag
  | text _ => []
  | endTag t => [.closing t]
  | startTag t _ _ => [.opening t]

end Piece

lemma PlainName.unquoted {t : List Char} (h : PlainName t) : '"' ∉ t ∧ '>' ∉ t :=
  ⟨fun hc => (h.2 _ hc).2 rfl, fun hc => (h.2 _ hc).1 (.inr (.inr rfl))⟩

lemma nameOf_append {t rest : List Char} (ht : ∀ c ∈ t, ¬stopsName c)
    (hrest : ∀ c ∈ rest.head?, stopsName c) : nameOf (t ++ rest) = t := by
  have hname : ∀ c ∈ t, (decide ¬stopsName c) = true := fun c hc => decide_eq_true (ht c hc)
  unfold nameOf
  rw [takeWhile_append_of_pos hname]
  cases rest with
  | nil => rw [takeWhile_nil, append_nil]
  | cons c rest =>
      rw [takeWhile_cons_of_neg, append_nil]
      simpa using hrest c rfl

lemma scan_attrs {attrs : List Attr} (h : ∀ a ∈ attrs, a.Plain) (inner rest : List Char) :
    scan (some (inner, false)) (attrsText attrs ++ rest) =
      scan (some (inner ++ attrsText attrs, false)) rest := by
  induction attrs generalizing inner with
  | nil =>
      change scan _ ([] ++ rest) = scan (some (inner ++ [], false)) rest
      rw [append_nil, nil_append]
  | cons a attrs ih =>
      obtain ⟨⟨hquote, hend⟩, hvalue⟩ := h a mem_cons_self
      have hrest := ih (fun b hb => h b (mem_cons_of_mem a hb))
      have hname : '"' ∉ ' ' :: (a.name ++ ['=']) ∧ '>' ∉ ' ' :: (a.name ++ ['=']) := by
        simp [hquote, hend]
      have htext : attrsText (a :: attrs) ++ rest =
          (' ' :: (a.name ++ ['='])) ++ ('"' :: (a.value ++ '"' :: (attrsText attrs ++ rest))) := by
        simp [attrsText, Attr.text]
      rw [htext, scan_unquoted hname, scan, if_pos rfl, Bool.not_false, scan_quoted hvalue, scan,
        if_pos rfl, Bool.not_true, hrest]
      simp [attrsText, Attr.text]

lemma Piece.Plain.scan {p : Piece} (h : p.Plain) (rest : List Char) :
    Markup.scan none (p.html ++ rest) = p.tags ++ Markup.scan none rest := by
  cases p with
  | text cs => exact scan_text h rest
  | endTag t =>
      have htext : (Piece.endTag t).html ++ rest = '<' :: (('/' :: t) ++ '>' :: rest) := by
        simp [Piece.html]
      have hinner : '"' ∉ '/' :: t ∧ '>' ∉ '/' :: t := by
        obtain ⟨hquote, hend⟩ := h.unquoted
        simp [hquote, hend]
      have hname : tagOf ('/' :: t) = .closing t := by
        have hstop : nameOf (t ++ []) = t := nameOf_append (fun c hc => (h.2 c hc).1) nofun
        rw [append_nil] at hstop
        exact congrArg Tag.closing hstop
      rw [htext, Markup.scan, if_pos rfl, scan_unquoted hinner, Markup.scan, if_neg nofun,
        if_pos ⟨rfl, nofun⟩, nil_append, hname]
      rfl
  | startTag t attrs selfClose =>
      obtain ⟨ht, hattrs⟩ := h
      have htext : (Piece.startTag t attrs selfClose).html ++ rest =
          '<' :: (t ++ (attrsText attrs ++ (ending selfClose ++ rest))) := by
        simp [Piece.html, Markup.startTag]
      have hname : ∀ tail, (∀ c ∈ tail.head?, stopsName c) → tagOf (t ++ tail) = .opening t := by
        intro tail htail
        have hstop := nameOf_append (fun c hc => (ht.2 c hc).1) htail
        obtain ⟨hne, hchars⟩ := ht
        cases t with
        | nil => exact absurd rfl hne
        | cons c t =>
            have hslash : c ≠ '/' := fun hc => (hchars c mem_cons_self).1 (.inr (.inl hc))
            unfold tagOf
            split
            · next heq => exact absurd (cons_eq_cons.mp heq).1 hslash
            · exact congrArg Tag.opening hstop
      have hhead : ∀ c ∈ (attrsText attrs ++ (if selfClose then ['/'] else [])).head?,
          stopsName c := by
        cases attrs with
        | nil =>
            cases selfClose with
            | true => simp [attrsText, stopsName]
            | false => simp [attrsText]
        | cons a attrs => simp [attrsText, Attr.text, stopsName]
      rw [htext, Markup.scan, if_pos rfl, scan_unquoted ht.unquoted, scan_attrs hattrs, nil_append]
      have hend : Markup.scan (some (t ++ attrsText attrs, false)) (ending selfClose ++ rest) =
          tagOf (t ++ (attrsText attrs ++ (if selfClose then ['/'] else []))) ::
            Markup.scan none rest := by
        cases selfClose with
        | true =>
            have hslash : '"' ∉ ['/'] ∧ '>' ∉ ['/'] := by decide
            change Markup.scan _ (['/'] ++ '>' :: rest) = _
            rw [scan_unquoted hslash, Markup.scan, if_neg nofun, if_pos ⟨rfl, nofun⟩, if_pos rfl,
              append_assoc]
        | false =>
            change Markup.scan _ ('>' :: rest) = _
            rw [Markup.scan, if_neg nofun, if_pos ⟨rfl, nofun⟩, if_neg nofun, append_nil]
      rw [hend, hname _ hhead]
      rfl

variable {ps : List Piece}

/-- **Plain pieces are read as they are written.** -/
theorem tags_html (h : ∀ p ∈ ps, p.Plain) : tags (html ps) = ps.flatMap Piece.tags := by
  unfold tags
  induction ps with
  | nil => rfl
  | cons p ps ih =>
      rw [html_cons, (h p mem_cons_self).scan, flatMap_cons,
        ih fun q hq => h q (mem_cons_of_mem p hq)]

/-! ### Nesting -/

section Nesting

variable (void : List Char → Bool)

/-- One tag, with the open elements. -/
def close (st : List (List Char)) : Tag → Option (List (List Char))
  | .opening t => if void t then some st else some (t :: st)
  | .closing t =>
      match st with
      | [] => none
      | u :: st => if t = u then some st else none

/-- Every end tag closes the innermost open element, and all are closed. -/
def Nested (cs : List Char) : Prop := (tags cs).foldlM (close void) [] = some []

instance (cs : List Char) : Decidable (Nested void cs) := inferInstanceAs (Decidable (_ = _))

/-- The pieces leave open what was open. -/
def Balanced (ps : List Piece) : Prop :=
  ∀ st, (ps.flatMap Piece.tags).foldlM (close void) st = some st

/-- The pieces close what is not open, wherever they stand. -/
def Broken (ps : List Piece) : Prop :=
  ∀ st, (ps.flatMap Piece.tags).foldlM (close void) st = none

variable {void}

lemma Balanced.nil : Balanced void [] := fun _ => rfl

lemma Balanced.append {ps qs : List Piece} (hp : Balanced void ps) (hq : Balanced void qs) :
    Balanced void (ps ++ qs) := by
  intro st
  rw [flatMap_append, foldlM_append, hp st]
  exact hq st

lemma Balanced.flatMap {α : Type*} {f : α → List Piece} {xs : List α}
    (h : ∀ x ∈ xs, Balanced void (f x)) : Balanced void (xs.flatMap f) := by
  induction xs with
  | nil => exact Balanced.nil
  | cons x xs ih =>
      rw [flatMap_cons]
      exact (h x mem_cons_self).append (ih fun y hy => h y (mem_cons_of_mem x hy))

lemma Balanced.text (cs : List Char) : Balanced void [.text cs] := fun _ => rfl

lemma Balanced.alone {t : List Char} (ht : void t = true) (attrs : List Attr) (b : Bool) :
    Balanced void [.startTag t attrs b] := by
  intro st
  change (close void st (.opening t)).bind _ = _
  rw [close, if_pos ht]
  rfl

lemma Balanced.element {t : List Char} (ht : void t = false) (attrs : List Attr) (b : Bool)
    {body : List Piece} (h : Balanced void body) :
    Balanced void (.startTag t attrs b :: (body ++ [.endTag t])) := by
  intro st
  have hopen : close void st (.opening t) = some (t :: st) := by
    rw [close, if_neg (by simp [ht])]
  have hclose : close void (t :: st) (.closing t) = some st := if_pos rfl
  have htags : (Piece.startTag t attrs b :: (body ++ [.endTag t])).flatMap Piece.tags =
      .opening t :: (body.flatMap Piece.tags ++ [.closing t]) := by
    simp [Piece.tags]
  rw [htags, foldlM_cons, hopen, Option.bind_eq_bind, Option.bind_some, foldlM_append,
    h (t :: st), Option.bind_eq_bind, Option.bind_some, foldlM_cons, hclose]
  rfl

lemma Balanced.broken {qs : List Piece} (hp : Balanced void ps) (hq : Broken void qs) :
    Broken void (ps ++ qs) := by
  intro st
  rw [flatMap_append, foldlM_append, hp st]
  exact hq st

lemma Broken.append {ps : List Piece} (hp : Broken void ps) (qs : List Piece) :
    Broken void (ps ++ qs) := by
  intro st
  rw [flatMap_append, foldlM_append, hp st]
  rfl

lemma Broken.not_nested (hplain : ∀ p ∈ ps, p.Plain) (h : Broken void ps) :
    ¬Nested void (html ps) := by
  unfold Nested
  rw [tags_html hplain, h []]
  nofun

lemma Balanced.nested (hplain : ∀ p ∈ ps, p.Plain) (h : Balanced void ps) :
    Nested void (html ps) := by
  unfold Nested
  rw [tags_html hplain]
  exact h []

end Nesting

end Markup
