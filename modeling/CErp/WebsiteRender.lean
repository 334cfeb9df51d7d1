/-
The sanitiser of the one raw markup block of a page (`WebsiteRender`).

A text is its list of bytes, a byte above the ASCII ones a character that is
neither a letter nor white space.  `turn` is one turn of the loop over the markup:
what it came to and where the next one starts.  `turns` is the loop, which gives
`none` when it has not come to the end of the text in the turns it is allowed.
Both loops end: a turn leaves less than it found (`turns_ends`).  What is written is
a list of pieces (`sanitize_eq_html`), and of the tags that come through every one is
on the list (`turns_scanned`).
-/
import CErp.Markup
import CErp.Text

namespace CErp

open List Option Char Text

namespace WebsiteRender

open Markup

/-- `std::tolower` of every byte. -/
def lower (s : List Char) : List Char := s.map toLower

/-- The white space that `trim` takes off. -/
def isTrimmed (c : Char) : Bool := c = ' ' || c = '\t' || c = '\r' || c = '\n'

def trim (s : List Char) : List Char :=
  ((s.dropWhile isTrimmed).reverse.dropWhile isTrimmed).reverse

/-- The elements a page author may use. -/
def allowedTags : List (List Char) :=
  ["p", "br", "hr", "span", "div", "section", "h1", "h2", "h3", "h4", "h5", "h6",
   "strong", "b", "em", "i", "u", "s", "small", "sub", "sup", "mark",
   "ul", "ol", "li", "dl", "dt", "dd",
   "blockquote", "pre", "code",
   "a", "img", "figure", "figcaption",
   "table", "thead", "tbody", "tfoot", "tr", "th", "td", "caption"].map String.toList

def tagA : List Char := "a".toList
def tagImg : List Char := "img".toList

/-- The attributes of an element. -/
def allowedAttrs (tag : List Char) : List (List Char) :=
  if tag = tagA then ["class", "title", "id", "href", "target", "rel"].map String.toList
  else if tag = tagImg then
    ["class", "title", "id", "src", "alt", "width", "height", "loading"].map String.toList
  else if tag = "td".toList ∨ tag = "th".toList then
    ["class", "title", "id", "colspan", "rowspan"].map String.toList
  else ["class", "title", "id"].map String.toList

def voidTags : List (List Char) := ["br", "hr", "img"].map String.toList

/-- The elements whose content goes with them. -/
def dropContentTags : List (List Char) :=
  ["script", "style", "textarea", "title", "noscript", "template",
   "iframe", "object", "embed", "applet", "frame", "frameset", "svg", "math"].map String.toList

/-- The schemes of a link. -/
def safeSchemes : List (List Char) := ["http", "https", "mailto", "tel"].map String.toList

/-- The images that may stand in the address itself. -/
def dataImages : List (List Char) :=
  ["data:image/png", "data:image/jpeg", "data:image/gif", "data:image/webp"].map String.toList

def isControl (c : Char) : Bool := c.toNat < 0x20 || c.toNat = 0x7f

/-- Whether a URL has no scheme or an allowed one. -/
def safeUrl (raw : List Char) (isImage : Bool) : Bool :=
  let u := trim raw
  if u = [] then false
  else if u.any isControl then false
  else if ':' ∉ u then true
  -- a path with a colon later
  else if '/' ∈ u.takeWhile (· != ':') then true
  else
    let scheme := lower (u.takeWhile (· != ':'))
    if scheme ∈ safeSchemes then true
    else if isImage ∧ scheme = "data".toList then
      dataImages.any fun image => image.isPrefixOf (lower (u.take 32))
    else false

/-- The entity a character is written as. -/
def escChar (c : Char) : List Char :=
  if c = '&' then "&amp;".toList
  else if c = '<' then "&lt;".toList
  else if c = '>' then "&gt;".toList
  else if c = '"' then "&quot;".toList
  else if c = ofNat 39 then "&#39;".toList
  else [c]

/-- A value for element text or a quoted attribute. -/
def esc (s : List Char) : List Char := s.flatMap escChar

/-! ### The scanner -/

/-- `std::string::find`: how far on the first occurrence of a text is. -/
def find (pat : List Char) : List Char → Option ℕ
  | [] => if pat = [] then some 0 else none
  | c :: cs =>
      if pat.isPrefixOf (c :: cs) then some 0 else (find pat cs).map (· + 1)

/-- What stands after the next `>`; nothing without one. -/
def afterGt (cs : List Char) : List Char :=
  match find ['>'] cs with
  | some k => cs.drop (k + 1)
  | none => []

/-- A value, quoted or not, and what follows it. -/
def readValue (p : List Char) : List Char × List Char :=
  match p.dropWhile isSpace with
  | [] => ([], [])
  | q :: p =>
      if q = '"' ∨ q = ofNat 39 then
        (p.takeWhile (· != q), (p.dropWhile (· != q)).drop 1)
      else
        ((q :: p).takeWhile (!isSpace ·), (q :: p).dropWhile (!isSpace ·))

def isAttrName (c : Char) : Bool := c != '=' && !isSpace c

/-- An attribute as its author wrote it, the name in lower case, and what follows
it.  The text starts at the name. -/
def readAttr (cs : List Char) : Attr × List Char :=
  let aname := lower (cs.takeWhile isAttrName)
  match (cs.dropWhile isAttrName).dropWhile isSpace with
  | '=' :: p => (⟨aname, (readValue p).1⟩, (readValue p).2)
  | p => (⟨aname, []⟩, p)

/-- The loop over the attributes of a tag. -/
def readAttrs (fuel : ℕ) (inner : List Char) : Option (List Attr) :=
  match inner.dropWhile isSpace with
  | [] => some []
  | c :: cs =>
      match fuel with
      | 0 => none
      | fuel + 1 =>
          (readAttrs fuel (readAttr (c :: cs)).2).map ((readAttr (c :: cs)).1 :: ·)

/-- What one turn of the loop came to. -/
inductive Turn
  | text (c : Char)
  /-- A `<` with no `>` after it. -/
  | stray
  /-- A comment, a container with its content, an unknown element. -/
  | dropped
  | close (tag : List Char)
  | element (tag : List Char) (attrs : List Attr) (selfClose : Bool)
deriving DecidableEq

/-- What follows the end tag of a container; nothing without one. -/
def afterContainer (tag cs : List Char) : List Char :=
  match find ('<' :: '/' :: tag) (lower cs) with
  | some k => afterGt (cs.drop k)
  | none => []

/-- What a tag comes to and where to go on, from its name and attributes.  `none`
where the loop over the attributes has not ended. -/
def turnElement (closing selfClose : Bool) (inner after : List Char) : Option (Turn × List Char) :=
  let isName := fun c => !isSpace c
  let tag := lower (inner.takeWhile isName)
  if ¬closing ∧ tag ∈ dropContentTags then some (.dropped, afterContainer tag after)
  else if tag ∉ allowedTags then some (.dropped, after)
  else if closing then some (.close tag, after)
  else
    (readAttrs inner.length (inner.dropWhile isName)).map
      fun attrs => (.element tag attrs selfClose, after)

/-- A tag, from what stands between its brackets. -/
def turnTag (inner after : List Char) : Option (Turn × List Char) :=
  let closing : Bool := inner.head? = some '/'
  let inner := if closing then inner.tail else inner
  let selfClose : Bool := inner.getLast? = some '/'
  let inner := if selfClose then inner.dropLast else inner
  turnElement closing selfClose inner after

/-- One turn of the loop, at the character `c`. -/
def turn (c : Char) (cs : List Char) : Option (Turn × List Char) :=
  if c ≠ '<' then some (.text c, cs)
  else if "!--".toList.isPrefixOf cs then
    match find "-->".toList (cs.drop 3) with
    | some k => some (.dropped, (cs.drop 3).drop (k + 3))
    | none => some (.dropped, [])
  else if ['!'].isPrefixOf cs ∨ ['?'].isPrefixOf cs then some (.dropped, afterGt cs)
  else
    match find ['>'] cs with
    | none => some (.stray, cs)
    | some gt => turnTag (cs.take gt) (cs.drop (gt + 1))

/-- The loop over the markup. -/
def turns : ℕ → List Char → Option (List Turn)
  | _, [] => some []
  | 0, _ :: _ => none
  | fuel + 1, c :: cs =>
      (turn c cs).bind fun (t, rest) => (turns fuel rest).map (t :: ·)

/-! ### What is written -/

/-- Whether an attribute is written again. -/
def keeps (tag : List Char) (a : Attr) : Bool :=
  a.name ≠ [] ∧ ¬['o', 'n'].isPrefixOf a.name ∧ a.name ∈ allowedAttrs tag ∧
    ¬((a.name = "href".toList ∨ a.name = "src".toList) ∧ ¬safeUrl a.value (tag = tagImg))

/-- The attribute that every link gets. -/
def detachedRel : Attr := ⟨"rel".toList, "noopener nofollow ugc".toList⟩

/-- The attributes of an element as they are written. -/
def rebuiltAttrs (tag : List Char) (attrs : List Attr) : List Attr :=
  (attrs.filter (keeps tag)).map (fun a => ⟨a.name, esc a.value⟩) ++
    if tag = tagA then [detachedRel] else []

namespace Turn

/-- What a turn appends to the output. -/
def write : Turn → List Char
  | text c => if c = '&' then "&amp;".toList else if c = '>' then "&gt;".toList else [c]
  | stray => "&lt;".toList
  | dropped => []
  | close tag => if tag ∉ voidTags then '<' :: '/' :: (tag ++ ['>']) else []
  | element tag attrs selfClose =>
      '<' :: (tag ++ (attrsText (rebuiltAttrs tag attrs) ++
        if tag ∈ voidTags ∨ selfClose then ['/', '>'] else ['>']))

end Turn

/-- The sanitiser; `none` where a loop has not ended within as many turns as the
text has characters. -/
def sanitize (html : List Char) : Option (List Char) :=
  (turns html.length html).map fun ts => ts.flatMap Turn.write

/-! ### The loops end -/

lemma length_dropWhile_le (p : Char → Bool) (cs : List Char) :
    (cs.dropWhile p).length ≤ cs.length :=
  (dropWhile_suffix p).length_le

lemma afterGt_length (cs : List Char) : (afterGt cs).length ≤ cs.length := by
  unfold afterGt
  split <;> simp

lemma afterContainer_length (tag cs : List Char) :
    (afterContainer tag cs).length ≤ cs.length := by
  unfold afterContainer
  split
  · exact (afterGt_length _).trans (by simp)
  · simp

lemma readValue_length (p : List Char) : (readValue p).2.length ≤ p.length := by
  have hle := length_dropWhile_le isSpace p
  unfold readValue
  split
  · simp
  case h_2 q rest hp =>
      rw [hp] at hle
      split_ifs
      · have hquote := length_dropWhile_le (· != q) rest
        simp only [length_drop, length_cons] at hle ⊢
        omega
      · exact (length_dropWhile_le _ _).trans hle

/-- Reading an attribute leaves less than there was: its name has a character, or
it starts with `=`. -/
lemma readAttr_length {c : Char} (hc : isSpace c = false) (cs : List Char) :
    (readAttr (c :: cs)).2.length ≤ cs.length := by
  by_cases hname : isAttrName c
  · have hle := (length_dropWhile_le isSpace _).trans (length_dropWhile_le isAttrName cs)
    rw [readAttr, dropWhile_cons_of_pos hname]
    split
    case h_1 p hp =>
      rw [hp, length_cons] at hle
      exact (readValue_length p).trans (by omega)
    case h_2 => exact hle
  · obtain rfl : c = '=' := by simpa [isAttrName, hc] using hname
    rw [readAttr, dropWhile_cons_of_neg hname, dropWhile_cons_of_neg (by simp [hc])]
    exact readValue_length cs

lemma readAttrs_ends {fuel : ℕ} {inner : List Char} (h : inner.length ≤ fuel) :
    ∃ attrs, readAttrs fuel inner = some attrs := by
  induction fuel generalizing inner with
  | zero =>
      obtain rfl := length_eq_zero_iff.mp (Nat.le_zero.mp h)
      exact ⟨[], rfl⟩
  | succ fuel ih =>
      have hle := length_dropWhile_le isSpace inner
      cases hp : inner.dropWhile isSpace with
      | nil => exact ⟨[], by simp only [readAttrs, hp]⟩
      | cons c cs =>
          have hc : isSpace c = false := @head_dropWhile _ inner c (by rw [hp]; rfl)
          have hrest := readAttr_length hc cs
          rw [hp, length_cons] at hle
          obtain ⟨attrs, hattrs⟩ := @ih (readAttr (c :: cs)).2 (by omega)
          exact ⟨(readAttr (c :: cs)).1 :: attrs, by simp only [readAttrs, hp, hattrs]; rfl⟩

lemma turnElement_ends (closing selfClose : Bool) (inner after : List Char) :
    ∃ t rest, turnElement closing selfClose inner after = some (t, rest) ∧
      rest.length ≤ after.length := by
  unfold turnElement
  simp only
  split_ifs
  · exact ⟨_, _, rfl, afterContainer_length _ _⟩
  · exact ⟨_, _, rfl, le_rfl⟩
  · obtain ⟨attrs, hattrs⟩ := readAttrs_ends (length_dropWhile_le (!isSpace ·) inner)
    exact ⟨_, _, by rw [hattrs]; rfl, le_rfl⟩
  · exact ⟨_, _, rfl, le_rfl⟩

/-- Every turn is over, and the next one starts further on. -/
lemma turn_ends (c : Char) (cs : List Char) :
    ∃ t rest, turn c cs = some (t, rest) ∧ rest.length ≤ cs.length := by
  unfold turn
  split_ifs
  · exact ⟨_, _, rfl, le_rfl⟩
  · split
    · exact ⟨_, _, rfl, by simp⟩
    · exact ⟨_, _, rfl, by simp⟩
  · exact ⟨_, _, rfl, afterGt_length cs⟩
  · split
    · exact ⟨_, _, rfl, le_rfl⟩
    case h_2 gt _ =>
      obtain ⟨t, rest, hturn, hrest⟩ := turnElement_ends _ _ _ (cs.drop (gt + 1))
      exact ⟨t, rest, hturn, hrest.trans (by simp)⟩

variable {html : List Char}

lemma turns_ends {fuel : ℕ} (h : html.length ≤ fuel) : ∃ ts, turns fuel html = some ts := by
  induction fuel generalizing html with
  | zero =>
      obtain rfl := length_eq_zero_iff.mp (Nat.le_zero.mp h)
      exact ⟨[], rfl⟩
  | succ fuel ih =>
      cases html with
      | nil => exact ⟨[], rfl⟩
      | cons c cs =>
          obtain ⟨t, rest, hturn, hrest⟩ := turn_ends c cs
          rw [length_cons] at h
          obtain ⟨ts, hts⟩ := @ih rest (by omega)
          exact ⟨t :: ts, by simp only [turns, hturn, bind_some, hts]; rfl⟩

/-! ### What comes through -/

lemma isAlphanum_of_allowedTags : ∀ tag ∈ allowedTags, ∀ c ∈ tag, c.isAlphanum := by
  have h : allowedTags.all (fun tag => tag.all isAlphanum) = true := by decide
  simpa only [List.all_eq_true] using h

lemma isAlpha_of_allowedAttrs (tag : List Char) :
    ∀ name ∈ allowedAttrs tag, ∀ c ∈ name, c.isAlpha := by
  have h : (allowedAttrs tag).all (fun name => name.all isAlpha) = true := by
    unfold allowedAttrs
    split_ifs <;> decide
  simpa only [List.all_eq_true] using h

namespace Turn

/-- A character of the text is no `<`, and a tag that is kept is an allowed one. -/
def Scanned : Turn → Prop
  | text c => c ≠ '<'
  | stray => True
  | dropped => True
  | close tag => tag ∈ allowedTags
  | element tag _ _ => tag ∈ allowedTags

end Turn

lemma turnElement_scanned {closing selfClose : Bool} {inner after rest : List Char}
    {t : Turn} (h : turnElement closing selfClose inner after = some (t, rest)) :
    t.Scanned := by
  unfold turnElement at h
  simp only at h
  split_ifs at h with _ htag
  · cases h
    trivial
  · cases h
    exact htag
  · obtain ⟨attrs, -, ht⟩ := map_eq_some_iff.mp h
    cases ht
    exact htag
  · cases h
    trivial

lemma turn_scanned {c : Char} {cs rest : List Char} {t : Turn}
    (h : turn c cs = some (t, rest)) : t.Scanned := by
  unfold turn at h
  split_ifs at h with hc
  · cases h
    exact hc
  · split at h
    all_goals
      cases h
      trivial
  · cases h
    trivial
  · split at h
    · cases h
      trivial
    · exact turnElement_scanned h

lemma turns_scanned {fuel : ℕ} {ts : List Turn} (h : turns fuel html = some ts) :
    ∀ t ∈ ts, t.Scanned := by
  induction fuel generalizing html ts with
  | zero =>
      cases html with
      | nil =>
          cases h
          simp
      | cons c cs => cases h
  | succ fuel ih =>
      cases html with
      | nil =>
          cases h
          simp
      | cons c cs =>
          obtain ⟨⟨t, rest⟩, hturn, h⟩ := bind_eq_some_iff.mp h
          obtain ⟨ts', hts, rfl⟩ := map_eq_some_iff.mp h
          intro u hu
          rcases mem_cons.mp hu with rfl | hu
          · exact turn_scanned hturn
          · exact ih hts u hu

/-! ### The output as pieces -/

namespace Turn

def piece : Turn → Piece
  | text c => .text (text c).write
  | stray => .text stray.write
  | dropped => .text []
  | close tag => if tag ∉ voidTags then .endTag tag else .text []
  | element tag attrs selfClose =>
      .startTag tag (rebuiltAttrs tag attrs) (tag ∈ voidTags ∨ selfClose)

lemma html_piece (t : Turn) : t.piece.html = t.write := by
  cases t with
  | text c => rfl
  | stray => rfl
  | dropped => rfl
  | close tag =>
      simp only [piece, write]
      split_ifs <;> rfl
  | element tag attrs selfClose =>
      simp only [piece, write, Piece.html, startTag, ending, decide_eq_true_eq]

end Turn

lemma sanitize_eq_html {ts : List Turn} (h : turns html.length html = some ts) :
    sanitize html = some (Markup.html (ts.map Turn.piece)) := by
  rw [sanitize, h, map_some, Markup.html, flatMap_map]
  simp only [Turn.html_piece]

end WebsiteRender

end CErp
