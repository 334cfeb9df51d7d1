/-
Markup as text: pieces of plain text, end tags, and start tags with quoted
attributes.

A list of pieces is written one after the other.  When no name, value or plain
text holds a `<`, every `<` of the whole is the first character of one of its
tags (`tag_of_lt`).  When names stop where a name has to stop and values hold no
quote, what follows a `<` is read in one way only (`startTag_inj`).  Values are
written with the five entities, and `unescape` takes these back.

An address is read as a browser reads it: what it cleans away before it looks for
the scheme (`cleaned`), and the scheme (`scheme?`).
-/
import Mathlib.Data.List.Basic

namespace Markup

open List

/-- An attribute of a start tag, its value as it stands between the quotes. -/
structure Attr where
  name : List Char
  value : List Char
deriving DecidableEq

def Attr.text (a : Attr) : List Char := ' ' :: (a.name ++ '=' :: '"' :: (a.value ++ ['"']))

def attrsText (attrs : List Attr) : List Char := attrs.flatMap Attr.text

/-- The end of a start tag. -/
def ending (selfClose : Bool) : List Char := if selfClose then ['/', '>'] else ['>']

def startTag (t : List Char) (attrs : List Attr) (selfClose : Bool) : List Char :=
  t ++ (attrsText attrs ++ ending selfClose)

inductive Piece
  | text (cs : List Char)
  | endTag (t : List Char)
  | startTag (t : List Char) (attrs : List Attr) (selfClose : Bool)
deriving DecidableEq

namespace Piece

def html : Piece → List Char
  | text cs => cs
  | endTag t => '<' :: '/' :: (t ++ ['>'])
  | startTag t attrs selfClose => '<' :: Markup.startTag t attrs selfClose

/-- No `<` but the one a tag begins with. -/
def Clean : Piece → Prop
  | text cs => '<' ∉ cs
  | endTag t => '<' ∉ t
  | startTag t attrs _ => '<' ∉ t ∧ ∀ a ∈ attrs, '<' ∉ a.name ∧ '<' ∉ a.value

end Piece

/-- The pieces, one after the other. -/
def html (ps : List Piece) : List Char := ps.flatMap Piece.html

@[simp] lemma html_cons (p : Piece) (ps : List Piece) : html (p :: ps) = p.html ++ html ps := rfl

lemma html_append (ps qs : List Piece) : html (ps ++ qs) = html ps ++ html qs :=
  flatMap_append

/-! ### Where tags begin -/

variable {attrs : List Attr}

lemma lt_notMem_attrsText (h : ∀ a ∈ attrs, '<' ∉ a.name ∧ '<' ∉ a.value) :
    '<' ∉ attrsText attrs := by
  intro hmem
  obtain ⟨a, ha, hin⟩ := mem_flatMap.mp hmem
  obtain ⟨hname, hvalue⟩ := h a ha
  simp [Attr.text, hname, hvalue] at hin

lemma lt_notMem_ending (selfClose : Bool) : '<' ∉ ending selfClose := by
  cases selfClose <;> decide

variable {post pre : List Char}

/-- A clean piece with a `<` in it begins with that one. -/
lemma Piece.Clean.head {p : Piece} (h : p.Clean) (e : p.html = pre ++ '<' :: post) :
    pre = [] := by
  cases p with
  | text cs =>
      refine absurd ?_ h
      change cs = _ at e
      simp [e]
  | endTag t =>
      cases pre with
      | nil => rfl
      | cons x pre =>
          obtain ⟨-, e⟩ := cons_eq_cons.mp e
          have hmem : '<' ∈ '/' :: (t ++ ['>']) := by simp [e]
          change '<' ∉ t at h
          simp [h] at hmem
  | startTag t attrs selfClose =>
      cases pre with
      | nil => rfl
      | cons x pre =>
          obtain ⟨-, e⟩ := cons_eq_cons.mp e
          have hmem : '<' ∈ Markup.startTag t attrs selfClose := by simp [e]
          obtain ⟨ht, hattrs⟩ := h
          simp [Markup.startTag, ht, lt_notMem_attrsText hattrs, lt_notMem_ending] at hmem

/-- Every character of the whole stands in one of the pieces. -/
lemma piece_of_mem {ps : List Piece} {c : Char} (e : html ps = pre ++ c :: post) :
    ∃ l p r a b, ps = l ++ p :: r ∧
      p.html = a ++ c :: b ∧ pre = html l ++ a ∧ post = b ++ html r := by
  induction ps generalizing pre with
  | nil => simp [html] at e
  | cons p ps ih =>
      have later : ∀ as, html ps = as ++ c :: post → pre = p.html ++ as →
          ∃ l q r a b, p :: ps = l ++ q :: r ∧ q.html = a ++ c :: b ∧ pre = html l ++ a ∧
            post = b ++ html r := by
        intro as e hpre
        obtain ⟨l, q, r, a, b, hps, hq, has, hpost⟩ := ih e
        refine ⟨p :: l, q, r, a, b, by rw [hps, cons_append], hq, ?_, hpost⟩
        rw [hpre, has, html_cons, append_assoc]
      rw [html_cons] at e
      obtain ⟨as, hpre, e⟩ | ⟨bs, e, e'⟩ := append_eq_append_iff.mp e
      · exact later as e hpre
      · cases bs with
        | nil =>
            rw [nil_append] at e'
            rw [append_nil] at e
            exact later [] e'.symm (by rw [e, append_nil])
        | cons b bs =>
            obtain ⟨rfl, epost⟩ := cons_eq_cons.mp e'
            exact ⟨[], p, ps, pre, bs, rfl, e, rfl, epost⟩

/-- Every `<` begins a tag, one of the pieces. -/
lemma tag_of_lt {ps : List Piece} (h : ∀ p ∈ ps, p.Clean) (e : html ps = pre ++ '<' :: post) :
    ∃ p ∈ ps, ∃ body rest, p.html = '<' :: body ∧ post = body ++ rest := by
  obtain ⟨l, p, r, a, b, rfl, hp, -, rfl⟩ := piece_of_mem e
  have hmem : p ∈ l ++ p :: r := by simp
  obtain rfl := (h p hmem).head hp
  exact ⟨p, hmem, b, html r, hp, rfl⟩

/-! ### Reading a start tag -/

/-- Two texts that go on to the same whole, and stop where a text like them has
to stop, are the same. -/
lemma split_unique {α : Type*} {P : α → Prop} {a b x y : List α} (ha : ∀ c ∈ a, P c)
    (hb : ∀ c ∈ b, P c) (hx : ∀ c ∈ x.head?, ¬P c) (hy : ∀ c ∈ y.head?, ¬P c)
    (e : a ++ x = b ++ y) : a = b ∧ x = y := by
  induction a generalizing b with
  | nil =>
      cases b with
      | nil => exact ⟨rfl, e⟩
      | cons c b =>
          change x = c :: (b ++ y) at e
          exact absurd (hb c mem_cons_self) (hx c (by simp [e]))
  | cons c a ih =>
      cases b with
      | nil =>
          change c :: (a ++ x) = y at e
          exact absurd (ha c mem_cons_self) (hy c (by simp [← e]))
      | cons d b =>
          rw [cons_append, cons_append] at e
          obtain ⟨rfl, etail⟩ := cons_eq_cons.mp e
          obtain ⟨rfl, hxy⟩ := ih (fun c hc => ha c (mem_cons_of_mem _ hc))
            (fun c hc => hb c (mem_cons_of_mem _ hc)) etail
          exact ⟨rfl, hxy⟩

/-- The same where both stop at the first `c`. -/
lemma split_at {α : Type*} {c : α} {a b x y : List α} (ha : c ∉ a) (hb : c ∉ b)
    (e : a ++ c :: x = b ++ c :: y) : a = b ∧ x = y := by
  have h := @split_unique α (· ≠ c) a b (c :: x) (c :: y) (fun d hd => ne_of_mem_of_not_mem hd ha)
    (fun d hd => ne_of_mem_of_not_mem hd hb) (by simp) (by simp) e
  exact ⟨h.1, (cons_eq_cons.mp h.2).2⟩

/-- What may not stand in the name of a tag. -/
def stopsName (c : Char) : Prop := c = ' ' ∨ c = '/' ∨ c = '>'

instance : DecidablePred stopsName := fun _ => inferInstanceAs (Decidable (_ ∨ _ ∨ _))

/-- The name of an attribute has no `=`, its value no quote. -/
def Attr.Readable (a : Attr) : Prop := '=' ∉ a.name ∧ '"' ∉ a.value

instance (a : Attr) : Decidable a.Readable := inferInstanceAs (Decidable (_ ∧ _))

lemma attrsText_ending_inj {attrs' : List Attr} {b b' : Bool} {rest rest' : List Char}
    (h : ∀ a ∈ attrs, a.Readable) (h' : ∀ a ∈ attrs', a.Readable)
    (e : attrsText attrs ++ ending b ++ rest = attrsText attrs' ++ ending b' ++ rest') :
    attrs = attrs' := by
  -- after the last attribute stands no space, before every one a space
  have hspace : ∀ (b : Bool) (rest cs : List Char), ending b ++ rest ≠ ' ' :: cs := by
    intro b rest cs
    cases b <;> simp [ending]
  induction attrs generalizing attrs' with
  | nil =>
      cases attrs' with
      | nil => rfl
      | cons a' attrs' =>
          refine absurd e ?_
          simp only [attrsText, flatMap_nil, nil_append, flatMap_cons, Attr.text, cons_append]
          exact hspace _ _ _
  | cons a attrs ih =>
      cases attrs' with
      | nil =>
          refine absurd e.symm ?_
          simp only [attrsText, flatMap_nil, nil_append, flatMap_cons, Attr.text, cons_append]
          exact hspace _ _ _
      | cons a' attrs' =>
          obtain ⟨hname, hvalue⟩ := h a mem_cons_self
          obtain ⟨hname', hvalue'⟩ := h' a' mem_cons_self
          simp only [attrsText, flatMap_cons, Attr.text, cons_append,
            append_assoc, List.cons.injEq, true_and] at e
          obtain ⟨en, e⟩ := split_at hname hname' e
          obtain ⟨ev, e⟩ := split_at hvalue hvalue' (cons_eq_cons.mp e).2
          have erest := ih (fun c hc => h c (mem_cons_of_mem _ hc))
            (fun c hc => h' c (mem_cons_of_mem _ hc))
            (by simpa only [attrsText, append_assoc, nil_append] using e)
          cases a
          cases a'
          cases en
          cases ev
          rw [erest]

lemma stopsName_head (attrs : List Attr) (b : Bool) (rest : List Char) :
    ∀ c ∈ (attrsText attrs ++ ending b ++ rest).head?, stopsName c := by
  intro c hc
  cases attrs with
  | nil =>
      cases b
      · obtain rfl : '>' = c := by simpa [attrsText, ending] using hc
        exact .inr (.inr rfl)
      · obtain rfl : '/' = c := by simpa [attrsText, ending] using hc
        exact .inr (.inl rfl)
  | cons a attrs =>
      obtain rfl : ' ' = c := by simpa [attrsText, Attr.text] using hc
      exact .inl rfl

/-- A start tag is read in one way. -/
lemma startTag_inj {t t' : List Char} {attrs' : List Attr} {b b' : Bool}
    {rest rest' : List Char} (ht : ∀ c ∈ t, ¬stopsName c) (ht' : ∀ c ∈ t', ¬stopsName c)
    (h : ∀ a ∈ attrs, a.Readable) (h' : ∀ a ∈ attrs', a.Readable)
    (e : startTag t attrs b ++ rest = startTag t' attrs' b' ++ rest') :
    t = t' ∧ attrs = attrs' := by
  rw [startTag, startTag, append_assoc, append_assoc t'] at e
  obtain ⟨rfl, eattrs⟩ := split_unique ht ht'
    (fun c hc => not_not.mpr (stopsName_head attrs b rest c hc))
    (fun c hc => not_not.mpr (stopsName_head attrs' b' rest' c hc)) e
  exact ⟨rfl, attrsText_ending_inj h h' eattrs⟩

/-- The value of an attribute: of two with one name a browser takes the first. -/
def effective (name : List Char) (attrs : List Attr) : Option (List Char) :=
  (attrs.find? (·.name = name)).map Attr.value

lemma effective_append {name : List Char} (h : name ∉ attrs.map Attr.name) (attrs' : List Attr) :
    effective name (attrs ++ attrs') = effective name attrs' := by
  have hnone : attrs.find? (·.name = name) = none := by
    rw [find?_eq_none]
    intro a ha hname
    exact h (mem_map.mpr ⟨a, ha, of_decide_eq_true hname⟩)
  rw [effective, find?_append, hnone, Option.none_or, effective]

/-! ### Entities -/

/-- The text with the five entities taken back. -/
def unescape : List Char → List Char
  | '&' :: 'a' :: 'm' :: 'p' :: ';' :: cs => '&' :: unescape cs
  | '&' :: 'l' :: 't' :: ';' :: cs => '<' :: unescape cs
  | '&' :: 'g' :: 't' :: ';' :: cs => '>' :: unescape cs
  | '&' :: 'q' :: 'u' :: 'o' :: 't' :: ';' :: cs => '"' :: unescape cs
  | '&' :: '#' :: '3' :: '9' :: ';' :: cs => Char.ofNat 39 :: unescape cs
  | c :: cs => c :: unescape cs
  | [] => []

lemma unescape_cons {c : Char} (hc : c ≠ '&') (cs : List Char) :
    unescape (c :: cs) = c :: unescape cs := by
  rw [unescape]
  all_goals
    intros
    simp_all

/-! ### Addresses -/

/-- A text without the characters of a kind at both its ends. -/
def strip (p : Char → Bool) (s : List Char) : List Char :=
  ((s.dropWhile p).reverse.dropWhile p).reverse

/-- A space or a control character before it. -/
def isBlankOrControl (c : Char) : Bool := c.toNat ≤ 0x20

def isTabOrNewline (c : Char) : Bool := c = '\t' || c = '\n' || c = '\r'

/-- An address before it is read. -/
def cleaned (u : List Char) : List Char := (strip isBlankOrControl u).filter (!isTabOrNewline ·)

/-- What stands before the first colon, if no slash stands before that. -/
def scheme? (u : List Char) : Option (List Char) :=
  let before := (cleaned u).takeWhile (· != ':')
  if ':' ∈ cleaned u ∧ '/' ∉ before then some (before.map Char.toLower) else none

section Strip

variable {p q : Char → Bool}

lemma dropWhile_eq_of_le {s : List Char} (hpq : ∀ c, p c → q c)
    (h : ∀ c ∈ (s.dropWhile p).head?, q c = false) : s.dropWhile q = s.dropWhile p := by
  induction s with
  | nil => rfl
  | cons c s ih =>
      by_cases hc : p c
      · rw [dropWhile_cons_of_pos hc] at h ⊢
        rw [dropWhile_cons_of_pos (hpq c hc)]
        exact ih h
      · rw [dropWhile_cons_of_neg hc] at h ⊢
        rw [dropWhile_cons_of_neg]
        rw [h c rfl]
        exact Bool.false_ne_true

lemma head_dropWhile {s : List Char} {c : Char} (hc : c ∈ (s.dropWhile p).head?) :
    p c = false := by
  induction s with
  | nil => cases hc
  | cons d s ih =>
      by_cases hd : p d
      · rw [dropWhile_cons_of_pos hd] at hc
        exact ih hc
      · rw [dropWhile_cons_of_neg hd] at hc
        obtain rfl : d = c := by simpa using hc
        simpa using hd

/-- The first character that is left at the front is left at the end as well. -/
lemma mem_strip_of_head {s : List Char} {c : Char} (hc : c ∈ (s.dropWhile p).head?) :
    c ∈ strip p s := by
  have hp := head_dropWhile hc
  rw [strip]
  cases hd : s.dropWhile p with
  | nil =>
      rw [hd] at hc
      cases hc
  | cons d ds =>
      rw [hd] at hc
      obtain rfl : d = c := by simpa using hc
      rw [reverse_cons, dropWhile_append]
      split_ifs with hnil
      · simp [hp]
      · simp

/-- Stripping more characters takes no more off a text that has none of them
left. -/
lemma strip_eq_of_le {s : List Char} (hpq : ∀ c, p c → q c)
    (h : ∀ c ∈ strip p s, q c → p c) : strip q s = strip p s := by
  have hout : ∀ {c}, c ∈ strip p s → p c = false → q c = false := by
    intro c hc hp
    by_contra hq
    have htrue := h c hc (by simpa using hq)
    rw [hp] at htrue
    cases htrue
  have hfront : s.dropWhile q = s.dropWhile p :=
    dropWhile_eq_of_le hpq fun c hc => hout (mem_strip_of_head hc) (head_dropWhile hc)
  rw [strip, hfront, strip]
  congr 1
  refine dropWhile_eq_of_le hpq fun c hc => hout ?_ (head_dropWhile hc)
  rw [strip, mem_reverse]
  exact mem_of_mem_head? hc

end Strip

end Markup
