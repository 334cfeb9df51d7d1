/-
What the renderer writes of its own.

`Own` says it of one piece: the tag and its attributes are on the renderer's lists,
a frame shows one of three services, and every value and text is `escaped`.  What a
block writes is `Fair`: its pieces are the renderer's own and its elements balanced.
Elements, lists and links of fair parts are fair.
-/
import CErp.Nesting
import CErp.PageBlocks

namespace CErp

open List

namespace WebsiteRender

open Markup DoubleText

/-! ### Escaped text -/

/-- What may follow an ampersand. -/
def entities : List (List Char) :=
  ["amp;", "lt;", "gt;", "quot;", "#39;", "mdash;"].map String.toList

def inText : List Char := ['<', '>']

def inValue : List Char := ['<', '>', '"']

/-- No special character, and no ampersand but that of an entity. -/
def escaped (special : List Char) : List Char → Bool
  | [] => true
  | c :: cs =>
      (if c = '&' then entities.any (·.isPrefixOf cs) else c ∉ special) && escaped special cs

variable {special : List Char}

variable {cs : List Char}

lemma escaped_cons {c : Char} : escaped special (c :: cs) = true ↔
    (if c = '&' then ∃ e ∈ entities, e <+: cs else c ∉ special) ∧ escaped special cs = true := by
  rw [escaped, Bool.and_eq_true]
  split
  · rw [List.any_eq_true]
    simp only [List.isPrefixOf_iff_prefix]
  · rw [decide_eq_true_iff]

lemma escaped_append {ds : List Char} (hc : escaped special cs = true)
    (hd : escaped special ds = true) : escaped special (cs ++ ds) = true := by
  induction cs with
  | nil => exact hd
  | cons c cs ih =>
      obtain ⟨hhead, htail⟩ := escaped_cons.mp hc
      refine escaped_cons.mpr ⟨?_, ih htail⟩
      split
      · next hamp =>
          rw [if_pos hamp] at hhead
          obtain ⟨e, he, hpre⟩ := hhead
          exact ⟨e, he, hpre.trans (prefix_append cs ds)⟩
      · next hamp =>
          rw [if_neg hamp] at hhead
          exact hhead

lemma escaped_mono {special' : List Char} (hsub : special ⊆ special')
    (h : escaped special' cs = true) : escaped special cs = true := by
  induction cs with
  | nil => rfl
  | cons c cs ih =>
      obtain ⟨hhead, htail⟩ := escaped_cons.mp h
      refine escaped_cons.mpr ⟨?_, ih htail⟩
      split
      · next hamp =>
          rw [if_pos hamp] at hhead
          exact hhead
      · next hamp =>
          rw [if_neg hamp] at hhead
          exact fun hc => hhead (hsub hc)

lemma notMem_of_escaped {c : Char} (hc : c ∈ special) (hamp : c ≠ '&')
    (h : escaped special cs = true) : c ∉ cs := by
  induction cs with
  | nil => exact not_mem_nil
  | cons d cs ih =>
      obtain ⟨hhead, htail⟩ := escaped_cons.mp h
      rw [mem_cons, not_or]
      refine ⟨?_, ih htail⟩
      rintro rfl
      rw [if_neg hamp] at hhead
      exact hhead hc

lemma escaped_escChar (d : Char) : escaped inValue (escChar d) = true := by
  unfold escChar
  split_ifs with hamp hlt hgt hquot hapos
  iterate 5 rfl
  refine escaped_cons.mpr ⟨?_, rfl⟩
  rw [if_neg hamp]
  simp [inValue, hlt, hgt, hquot]

lemma escaped_esc (s : List Char) : escaped inValue (esc s) = true := by
  induction s with
  | nil => rfl
  | cons d s ih => exact escaped_append (escaped_escChar d) ih

/-- A value may be a text. -/
lemma escaped_inText (h : escaped inValue cs = true) :
    escaped inText cs = true := escaped_mono (by decide) h

/-! ### Own pieces -/

def tagIframe : List Char := "iframe".toList

def nameSrc : List Char := "src".toList

/-- The elements the renderer writes. -/
def ownTags : List (List Char) :=
  ["h1", "h2", "h3", "p", "br", "hr", "a", "img", "figure", "figcaption", "div", "section",
   "span", "ul", "ol", "li", "details", "summary", "iframe", "video", "blockquote", "footer",
   "dl", "dt", "dd", "aside", "table", "thead", "tbody", "tr", "th", "td"].map String.toList

/-- The attributes the renderer writes, those with another before them as they are
written. -/
def ownAttrs : List (List Char) :=
  ["class", "src", "alt", "loading", "href", "rel", "target", "title", "referrerpolicy",
   "sandbox", "style", "allow", "allowfullscreen sandbox", "controls preload",
   "playsinline poster", "playsinline src"].map String.toList

structure OwnAttr (a : Attr) : Prop where
  name : a.name ∈ ownAttrs
  value : escaped inValue a.value = true

instance (a : Attr) : Decidable (OwnAttr a) :=
  decidable_of_iff (a.name ∈ ownAttrs ∧ escaped inValue a.value = true)
    ⟨fun h => ⟨h.1, h.2⟩, fun h => ⟨h.name, h.value⟩⟩

/-- The address of a video by its id, or that of a map by its numbers. -/
def VettedSource (src : List Char) : Prop :=
  (∃ (p : Provider) (id : List Char), src = p.embedUrl ++ id ∧ ∀ c ∈ id, isIdChar c = true) ∨
    ∃ box point, src = "https://www.openstreetmap.org/export/embed.html?bbox=".toList ++
        commaList box ++ "&amp;layer=mapnik&amp;marker=".toList ++ commaList point ∧
      (box.length = 4 ∧ ∀ n ∈ box, IsFixed 5 n) ∧ point.length = 2 ∧ ∀ n ∈ point, IsFixed 5 n

/-- A frame for one of the services, and for nothing else. -/
def VettedFrame (attrs : List Attr) : Prop :=
  ∃ src, effective nameSrc attrs = some src ∧ VettedSource src

def Own : Piece → Prop
  | .text cs => escaped inText cs = true
  | .endTag t => t ∈ ownTags
  | .startTag t attrs _ =>
      t ∈ ownTags ∧ (∀ a ∈ attrs, OwnAttr a) ∧ (t = tagIframe → VettedFrame attrs)

def isVoid (t : List Char) : Bool := t ∈ voidTags

/-- What a block should write. -/
structure Fair (ps : List Piece) : Prop where
  own : ∀ p ∈ ps, Own p
  balanced : Balanced isVoid ps

/-- The elements the renderer writes with an end tag, but for frames. -/
def elements : List String :=
  ["h1", "h2", "h3", "p", "a", "figure", "figcaption", "div", "section", "span", "ul", "ol", "li",
   "details", "summary", "video", "blockquote", "footer", "dl", "dt", "dd", "aside", "th", "td"]

lemma elements_own : ∀ t ∈ elements,
    t.toList ∈ ownTags ∧ isVoid t.toList = false ∧ t.toList ≠ tagIframe := by
  simp [elements, ownTags, isVoid, voidTags, tagIframe]

/-- Those without an end tag. -/
def voidElements : List String := ["br", "hr", "img"]

lemma voidElements_own : ∀ t ∈ voidElements,
    t.toList ∈ ownTags ∧ isVoid t.toList = true ∧ t.toList ≠ tagIframe := by
  simp [voidElements, ownTags, isVoid, voidTags, tagIframe]

/-- The classes the renderer gives. -/
def classes : List String :=
  ["w-btn", "w-btn-ghost", "w-btn-wrap", "w-col", "w-col-h", "w-cols", "w-cta", "w-cta-h",
   "w-cta-s", "w-cta-t", "w-faq", "w-faq-i", "w-fig", "w-gal", "w-gal-i", "w-h", "w-hero",
   "w-hero-cta", "w-hero-eyebrow", "w-hero-h", "w-hero-sub", "w-hr", "w-map", "w-map-link", "w-p",
   "w-plan", "w-plan is-feat", "w-plan-badge", "w-plan-cta", "w-plan-feats", "w-plan-name",
   "w-plan-per", "w-plan-price", "w-plan-size", "w-plans", "w-quote", "w-quote-role",
   "w-quote-who", "w-raw", "w-ref", "w-ref-logo", "w-ref-name", "w-ref-note", "w-refs", "w-sp-l",
   "w-sp-m", "w-sp-s", "w-stat", "w-stat-l", "w-stat-v", "w-stats", "w-step", "w-step-h",
   "w-steps", "w-table", "w-table-wrap", "w-video", "w-video-el", "w-video-frame"]

lemma classes_own : ∀ v ∈ classes, OwnAttr (cls v) := by
  have hname : "class".toList ∈ ownAttrs := by simp [ownAttrs]
  have hvalues : ∀ v ∈ classes, escaped inValue v.toList = true := by
    simp [classes, escaped, inValue]
  exact fun v hv => ⟨hname, hvalues v hv⟩

/-- The other attributes whose value is the renderer's own. -/
def fixedAttrs : List (String × String) :=
  [("loading", "lazy"), ("rel", "noopener"), ("rel", "noopener noreferrer"), ("target", "_blank"),
   ("title", "Map"), ("referrerpolicy", "no-referrer"),
   ("sandbox", "allow-scripts allow-same-origin"), ("style", "border:0;width:100%;height:340px"),
   ("allow", "accelerometer; clipboard-write; encrypted-media; picture-in-picture")]

lemma fixedAttrs_own : ∀ a ∈ fixedAttrs, OwnAttr (attr a.1 a.2) := by
  have hall : ∀ a ∈ fixedAttrs, a.1.toList ∈ ownAttrs ∧ escaped inValue a.2.toList = true := by
    simp [fixedAttrs, ownAttrs, escaped, inValue]
  exact fun a ha => ⟨(hall a ha).1, (hall a ha).2⟩

/-- The attributes an author's text is shown in. -/
def shownNames : List String :=
  ["src", "alt", "href", "title", "playsinline src", "playsinline poster"]

lemma shownNames_own : ∀ name ∈ shownNames, name.toList ∈ ownAttrs := by
  simp [shownNames, ownAttrs]

/-- Those with a flag before them and a value of the renderer's own. -/
lemma flagged_own : OwnAttr (flagged "controls" (attr "preload" "metadata")) ∧
    OwnAttr (flagged "allowfullscreen"
      (attr "sandbox" "allow-scripts allow-same-origin allow-presentation allow-popups")) := by
  refine ⟨⟨?_, ?_⟩, ?_, ?_⟩
  all_goals simp [flagged, attr, ownAttrs, escaped, inValue]

variable {attrs : List Attr}

lemma ownAttrs_cons {a : Attr} (ha : OwnAttr a) (hattrs : ∀ b ∈ attrs, OwnAttr b) :
    ∀ b ∈ a :: attrs, OwnAttr b :=
  forall_mem_cons.mpr ⟨ha, hattrs⟩

lemma ownAttrs_nil : ∀ a ∈ ([] : List Attr), OwnAttr a := fun _ ha => absurd ha not_mem_nil

lemma shown_own {name : String} (h : name ∈ shownNames) (s : List Char) :
    OwnAttr (shown name s) := ⟨shownNames_own name h, escaped_esc s⟩

lemma attr_own {name value : String} (h : (name, value) ∈ fixedAttrs) :
    OwnAttr (attr name value) := fixedAttrs_own (name, value) h

variable {v : String}

lemma cls_own (h : v ∈ classes) : OwnAttr (cls v) := classes_own v h

lemma clsOnly_own (h : v ∈ classes) : ∀ a ∈ [cls v], OwnAttr a :=
  ownAttrs_cons (cls_own h) ownAttrs_nil

/-! ### Fair parts -/

namespace Fair

lemma nil : Fair [] := ⟨fun _ hp => absurd hp not_mem_nil, Balanced.nil⟩

lemma append {ps qs : List Piece} (hp : Fair ps) (hq : Fair qs) : Fair (ps ++ qs) := by
  refine ⟨fun p hmem => ?_, hp.balanced.append hq.balanced⟩
  obtain hmem | hmem := mem_append.mp hmem
  · exact hp.own p hmem
  · exact hq.own p hmem

lemma cons {p : Piece} {ps : List Piece} (hp : Fair [p]) (hps : Fair ps) : Fair (p :: ps) :=
  hp.append hps

lemma flatMap {α : Type*} {f : α → List Piece} {xs : List α} (h : ∀ x ∈ xs, Fair (f x)) :
    Fair (xs.flatMap f) := by
  refine ⟨fun p hp => ?_, Balanced.flatMap fun x hx => (h x hx).balanced⟩
  obtain ⟨x, hx, hp⟩ := mem_flatMap.mp hp
  exact (h x hx).own p hp

lemma say (s : List Char) : Fair [WebsiteRender.say s] := by
  refine ⟨fun p hp => ?_, Balanced.text _⟩
  rw [mem_singleton.mp hp]
  exact escaped_inText (escaped_esc s)

lemma alone {t : String} {attrs : List Attr} (ht : t ∈ voidElements)
    (hattrs : ∀ a ∈ attrs, OwnAttr a) : Fair [WebsiteRender.alone t attrs] := by
  obtain ⟨hown, hvoid, hframe⟩ := voidElements_own t ht
  refine ⟨fun p hp => ?_, Balanced.alone hvoid attrs true⟩
  rw [mem_singleton.mp hp]
  exact ⟨hown, hattrs, fun h => absurd h hframe⟩

variable {body : List Piece}

/-- An element whose name need not be a fixed one. -/
lemma around {t : List Char} (ht : t ∈ ownTags) (hvoid : isVoid t = false)
    (hattrs : ∀ a ∈ attrs, OwnAttr a) (hframe : t = tagIframe → VettedFrame attrs) (h : Fair body) :
    Fair (.startTag t attrs false :: (body ++ [.endTag t])) := by
  refine ⟨fun p hp => ?_, Balanced.element hvoid attrs false h.balanced⟩
  obtain rfl | hp := mem_cons.mp hp
  · exact ⟨ht, hattrs, hframe⟩
  · obtain hp | hp := mem_append.mp hp
    · exact h.own p hp
    · rw [mem_singleton.mp hp]
      exact ht

variable {t : String}

lemma element (ht : t ∈ elements) (hattrs : ∀ a ∈ attrs, OwnAttr a) (h : Fair body) :
    Fair (WebsiteRender.element t attrs body) := by
  obtain ⟨hown, hvoid, hframe⟩ := elements_own t ht
  exact around hown hvoid hattrs (fun h => absurd h hframe) h

lemma bare (ht : t ∈ elements) (h : Fair body) :
    Fair (WebsiteRender.element t [] body) := element ht ownAttrs_nil h

lemma styled (ht : t ∈ elements) (hv : v ∈ classes) (h : Fair body) :
    Fair (WebsiteRender.element t [cls v] body) := element ht (clsOnly_own hv) h

lemma frame (hattrs : ∀ a ∈ attrs, OwnAttr a) (h : VettedFrame attrs) :
    Fair (WebsiteRender.element "iframe" attrs []) :=
  around (by simp [ownTags]) (by simp [isVoid, voidTags]) hattrs (fun _ => h) nil

lemma saying (ht : t ∈ elements) (hv : v ∈ classes) (s : List Char) :
    Fair (WebsiteRender.saying t [cls v] s) := by
  unfold WebsiteRender.saying
  split
  · exact nil
  · exact styled ht hv (say s)

lemma link (hv : v ∈ classes) (text href : List Char) :
    Fair (WebsiteRender.link [cls v] text href) := by
  unfold WebsiteRender.link
  split
  · exact element (by simp [elements])
      (ownAttrs_cons (cls_own hv) (ownAttrs_cons (shown_own (by simp [shownNames]) href) ownAttrs_nil)) (say text)
  · exact nil

lemma listed {item : Json → List Piece} (ht : t ∈ elements) (hv : v ∈ classes)
    (hitem : ∀ c, Fair (item c)) (b : Json) : Fair (WebsiteRender.listed t [cls v] item b) := by
  unfold WebsiteRender.listed
  split
  · exact styled ht hv (flatMap fun c _ => hitem c)
  · exact nil

lemma listedSome {item : Json → List Piece} (ht : t ∈ elements) (hv : v ∈ classes)
    (hitem : ∀ c, Fair (item c)) (b : Json) : Fair (WebsiteRender.listedSome t [cls v] item b) := by
  unfold WebsiteRender.listedSome
  split
  · split
    · exact nil
    · exact styled ht hv (flatMap fun c _ => hitem c)
  · exact nil

end Fair

end WebsiteRender

end CErp
