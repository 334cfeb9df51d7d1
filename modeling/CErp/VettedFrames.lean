/-
What stands on a page besides text.

Every piece of a page is vetted, or it is what the caller has made of a form.  A
piece is vetted when its tag is one of the renderer's or one that the sanitiser lets
through, its text and its values are escaped, and if it is a frame, it shows one of
three services.  Read as text, the page has a vetted tag at every `<` that is not in
a form, and every frame in it is vetted (`frames_vetted`).
-/
import CErp.NestedPages
import CErp.SafeMarkup

namespace CErp

open Outcome List

namespace WebsiteRender

open Markup DoubleText

/-! ### Vetted pieces -/

/-- What may not stand in the name of an attribute. -/
def inName : List Char := ['<', '>', '=', '"']

structure VettedAttr (a : Attr) : Prop where
  name : ∀ c ∈ inName, c ∉ a.name
  value : escaped inValue a.value = true

/-- The tags of a page. -/
def pageTags : List (List Char) := ownTags ++ allowedTags

def VettedPiece : Piece → Prop
  | .text cs => escaped inText cs = true
  | .endTag t => t ∈ pageTags
  | .startTag t attrs _ =>
      t ∈ pageTags ∧ (∀ a ∈ attrs, VettedAttr a) ∧ (t = tagIframe → VettedFrame attrs)

lemma names_clean : (∀ t ∈ pageTags, ∀ c ∈ t, ¬stopsName c ∧ c ≠ '<') ∧
    ∀ name ∈ ownAttrs, ∀ c ∈ inName, c ∉ name := by
  constructor
  · simp [pageTags, ownTags, allowedTags, stopsName]
  · simp [ownAttrs, inName]

lemma VettedPiece.clean {p : Piece} (h : VettedPiece p) : p.Clean := by
  have htag : ∀ t ∈ pageTags, '<' ∉ t := fun t ht hc => (names_clean.1 t ht _ hc).2 rfl
  cases p with
  | text cs => exact notMem_of_escaped (by decide) (by decide) h
  | endTag t => exact htag t h
  | startTag t attrs selfClose =>
      obtain ⟨ht, hattrs, -⟩ := h
      refine ⟨htag t ht, fun a ha => ⟨(hattrs a ha).name '<' (by decide), ?_⟩⟩
      exact notMem_of_escaped (by decide) (by decide) (hattrs a ha).value

lemma Own.vetted {p : Piece} (h : Own p) : VettedPiece p := by
  cases p with
  | text cs => exact h
  | endTag t => exact mem_append_left _ h
  | startTag t attrs selfClose =>
      obtain ⟨ht, hattrs, hframe⟩ := h
      refine ⟨mem_append_left _ ht, fun a ha => ?_, hframe⟩
      exact ⟨names_clean.2 a.name (hattrs a ha).name, (hattrs a ha).value⟩

/-- An attribute the sanitiser writes. -/
lemma rebuiltAttrs_vetted (tag : List Char) (attrs : List Attr) :
    ∀ a ∈ rebuiltAttrs tag attrs, VettedAttr a := by
  intro a ha
  have hsafe := rebuiltAttrs_safe tag attrs a ha
  refine ⟨fun c hc hmem => ?_, ?_⟩
  · have halpha := isAlpha_of_allowedAttrs tag a.name hsafe.allowed c hmem
    have hnone : ∀ c ∈ inName, c.isAlpha = false := by
      simp [inName, Char.isAlpha, Char.isUpper, Char.isLower]
    rw [hnone c hc] at halpha
    cases halpha
  · obtain hkept | hrel := mem_append.mp ha
    · obtain ⟨b, -, rfl⟩ := mem_map.mp hkept
      exact escaped_esc b.value
    · split at hrel
      · rw [mem_singleton.mp hrel]
        rfl
      · cases hrel

lemma tagIframe_notMem : tagIframe ∉ allowedTags := by simp [tagIframe, allowedTags]

/-- A piece the sanitiser writes. -/
lemma Turn.Scanned.vetted {t : Turn} (h : t.Scanned) : VettedPiece t.piece := by
  cases t with
  | text c =>
      change escaped inText (if c = '&' then _ else if c = '>' then _ else _) = true
      split_ifs with hamp hgt
      · rfl
      · rfl
      · refine escaped_cons.mpr ⟨?_, rfl⟩
        rw [if_neg hamp]
        simp [inText, hgt, show c ≠ '<' from h]
  | stray => exact (by rfl : escaped inText "&lt;".toList = true)
  | dropped => rfl
  | close tag =>
      rw [piece]
      split_ifs
      · rfl
      · exact mem_append_right _ h
  | element tag attrs selfClose =>
      refine ⟨mem_append_right _ h, rebuiltAttrs_vetted tag attrs, ?_⟩
      rintro rfl
      exact absurd h tagIframe_notMem

lemma sanitized_vetted (s : List Char) : ∀ p ∈ sanitized s, VettedPiece p := by
  obtain ⟨ts, hts⟩ := turns_ends (le_refl s.length)
  intro p hp
  rw [sanitized, hts, Option.getD_some] at hp
  obtain ⟨t, ht, rfl⟩ := mem_map.mp hp
  exact (turns_scanned hts t ht).vetted

/-! ### Pages -/

/-- What the caller makes of a form. -/
def IsForm (resolver : FormResolver) (cs : List Char) : Prop :=
  ∃ render, resolver = some render ∧ ∃ slug, cs = render slug

variable {resolver : FormResolver}

lemma block_vetted {b : Json} {ps : List Piece} (h : block resolver b = .ok ps) :
    ∀ p ∈ ps, VettedPiece p ∨ ∃ cs, p = .text cs ∧ IsForm resolver cs := by
  cases hform : isType b "form" with
  | true =>
      have hne : isType b "table" = false := by
        unfold isType at hform ⊢
        rw [of_decide_eq_true hform]
        simp
      unfold block at h
      rw [hne, hform, if_neg nofun, if_pos rfl] at h
      obtain rfl := Except.ok.inj h
      unfold form
      intro p hp
      split at hp
      · next render =>
          split at hp
          · cases hp
          · rw [mem_singleton.mp hp]
            exact .inr ⟨_, rfl, render, rfl, _, rfl⟩
      · cases hp
  | false =>
      refine fun p hp => .inl ?_
      cases hhtml : isType b "html" with
      | false => exact ((block_spec ⟨hhtml, hform⟩ h).1 p hp).vetted
      | true =>
          have hne : isType b "table" = false := by
            unfold isType at hhtml ⊢
            rw [of_decide_eq_true hhtml]
            simp
          unfold block at h
          rw [hne, hform, hhtml, if_neg nofun, if_neg nofun, if_pos rfl] at h
          obtain rfl := Except.ok.inj h
          have hdiv := elements_own "div" (by simp [elements])
          obtain rfl | hp := mem_cons.mp hp
          · refine Own.vetted ⟨hdiv.1, clsOnly_own (by simp [classes]), ?_⟩
            exact fun heq => absurd heq hdiv.2.2
          · obtain hp | hp := mem_append.mp hp
            · exact sanitized_vetted _ p hp
            · rw [mem_singleton.mp hp]
              exact Own.vetted hdiv.1

/-! ### The text of a page -/

/-- What may follow a `<`. -/
def VettedTag (post : List Char) : Prop :=
  ∃ tag ∈ pageTags, ∃ rest, post = '/' :: (tag ++ '>' :: rest) ∨
    ∃ attrs selfClose, (∀ a ∈ attrs, VettedAttr a) ∧ (tag = tagIframe → VettedFrame attrs) ∧
      post = tag ++ (attrsText attrs ++ ending selfClose) ++ rest

/-- A `<` in the middle of a form. -/
def InForm (resolver : FormResolver) (pre post : List Char) : Prop :=
  ∃ a b before after, IsForm resolver (a ++ '<' :: b) ∧ pre = before ++ a ∧ post = b ++ after

/-- No frame begins in the text, whole or cut off at its end. -/
def NoFrame (cs : List Char) : Prop :=
  ∀ pre post, cs = pre ++ '<' :: post → ¬tagIframe <+: lower post ∧ ¬lower post <+: tagIframe

/-- A text has only so many ends to look at. -/
instance (cs : List Char) : Decidable (NoFrame cs) :=
  decidable_of_iff (∀ t ∈ cs.tails, t.head? = some '<' →
      ¬tagIframe <+: lower t.tail ∧ ¬lower t.tail <+: tagIframe) <| by
    constructor
    · rintro h pre post rfl
      exact h ('<' :: post) ((mem_tails _ _).mpr (suffix_append pre _)) rfl
    · intro h t ht hhead
      obtain ⟨pre, hpre⟩ := (mem_tails _ _).mp ht
      cases t with
      | nil => cases hhead
      | cons c t =>
          obtain rfl := Option.some.inj hhead
          exact h pre t hpre.symm

structure VettedPage (resolver : FormResolver) (out : List Char) : Prop where
  /-- Every `<` begins a tag of the renderer's or the sanitiser's. -/
  tags : ∀ pre post, out = pre ++ '<' :: post → VettedTag post ∨ InForm resolver pre post
  /-- Every frame shows what it is vetted for. -/
  frames : ∀ pre name post, out = pre ++ '<' :: (name ++ post) → lower name = tagIframe →
    ∃ attrs selfClose rest, post = attrsText attrs ++ ending selfClose ++ rest ∧
      (∀ a ∈ attrs, VettedAttr a) ∧ VettedFrame attrs
  /-- Texts and values are escaped. -/
  escaped : ∃ ps, out = html ps ∧ ∀ p ∈ ps, VettedPiece p ∨ ∃ cs, p = .text cs ∧ IsForm resolver cs

lemma VettedPiece.tag {p : Piece} (h : VettedPiece p) {body : List Char}
    (e : p.html = '<' :: body) (rest : List Char) : VettedTag (body ++ rest) := by
  have hclean := h.clean
  cases p with
  | text cs =>
      change '<' ∉ cs at hclean
      change cs = '<' :: body at e
      simp [e] at hclean
  | endTag t =>
      obtain ⟨-, rfl⟩ := cons_eq_cons.mp e
      exact ⟨t, h, rest, .inl (by simp)⟩
  | startTag t attrs selfClose =>
      obtain ⟨-, rfl⟩ := cons_eq_cons.mp e
      obtain ⟨ht, hattrs, hframe⟩ := h
      exact ⟨t, ht, rest, .inr ⟨attrs, selfClose, hattrs, hframe, rfl⟩⟩

lemma pageTags_iframe : ∀ t ∈ pageTags, tagIframe <+: lower t → t = tagIframe := by
  decide

/-- Where a tag is vetted and a frame begins, the frame is vetted. -/
lemma VettedTag.frame {name post : List Char} (h : VettedTag (name ++ post))
    (hname : lower name = tagIframe) : ∃ attrs selfClose rest,
      post = attrsText attrs ++ ending selfClose ++ rest ∧ (∀ a ∈ attrs, VettedAttr a) ∧
        VettedFrame attrs := by
  have hchars : ∀ c ∈ name, ¬stopsName c := by
    intro c hc hstop
    have hlow : c.toLower ∈ tagIframe := by
      rw [← hname]
      exact mem_map_of_mem hc
    have hletter : ∀ d ∈ tagIframe, ¬stopsName d := by simp [tagIframe, stopsName]
    refine hletter _ hlow ?_
    obtain rfl | rfl | rfl := hstop
    all_goals decide
  obtain ⟨tag, htag, rest, heq | ⟨attrs, selfClose, hattrs, hframe, heq⟩⟩ := h
  · cases name with
    | nil => cases hname
    | cons c name =>
        obtain ⟨rfl, -⟩ := cons_eq_cons.mp heq
        exact absurd (.inr (.inl rfl)) (hchars '/' mem_cons_self)
  · rw [append_assoc] at heq
    have hstops : ∀ c ∈ (attrsText attrs ++ ending selfClose ++ rest).head?, stopsName c :=
      stopsName_head attrs selfClose rest
    -- the name of the tag goes on at least as far as the name of the frame
    obtain ⟨more, hmore, hpost⟩ : ∃ more, tag = name ++ more ∧
        post = more ++ (attrsText attrs ++ ending selfClose ++ rest) := by
      obtain ⟨more, h₁, h₂⟩ | ⟨more, h₁, h₂⟩ := append_eq_append_iff.mp heq
      · exact ⟨more, h₁, h₂⟩
      · cases more with
        | nil => exact ⟨[], by simpa using h₁.symm, by simpa using h₂.symm⟩
        | cons c more =>
            have hstop := hstops c (by rw [h₂]; rfl)
            exact absurd hstop (hchars c (by simp [h₁]))
    have hlow : tagIframe <+: lower tag := by
      rw [hmore, lower, map_append, ← hname]
      exact prefix_append _ _
    have hiframe := pageTags_iframe tag htag hlow
    have hnone : more = [] := by
      have hlength := congrArg List.length hmore
      have hsame := congrArg List.length hname
      rw [hiframe, length_append] at hlength
      rw [lower, length_map] at hsame
      exact length_eq_zero_iff.mp (by omega)
    rw [hnone, nil_append] at hpost
    exact ⟨attrs, selfClose, rest, hpost, hattrs, hframe hiframe⟩

/-- No frame begins in a form. -/
lemma InForm.no_frame {pre name post : List Char}
    (hforms : ∀ render, resolver = some render → ∀ slug, NoFrame (render slug))
    (h : InForm resolver pre (name ++ post)) : lower name ≠ tagIframe := by
  intro hname
  obtain ⟨a, b, before, after, ⟨render, hrender, slug, hslug⟩, -, heq⟩ := h
  obtain ⟨hwhole, hcut⟩ := hforms render hrender slug a b hslug.symm
  obtain ⟨more, h₁, -⟩ | ⟨more, h₁, -⟩ := append_eq_append_iff.mp heq
  · refine hwhole ?_
    rw [h₁, lower, map_append, ← hname]
    exact prefix_append _ _
  · refine hcut ?_
    rw [← hname, h₁, lower, lower, map_append]
    exact prefix_append _ _

/-- **Only vetted frames reach a page.** -/
theorem frames_vetted {page : Json} {out : List Char}
    (hforms : ∀ render, resolver = some render → ∀ slug, NoFrame (render slug))
    (hout : blocks page resolver = .ok out) : VettedPage resolver out := by
  obtain ⟨pss, hpss, rfl⟩ := map_ok_iff.mp hout
  have hpieces : ∀ p ∈ pss.flatten, VettedPiece p ∨ ∃ cs, p = .text cs ∧ IsForm resolver cs := by
    intro p hp
    obtain ⟨ps, hps, hp⟩ := mem_flatten.mp hp
    obtain ⟨b, -, hb⟩ := exists_of_mem_mapM hpss hps
    exact block_vetted hb p hp
  have htags : ∀ pre post, html pss.flatten = pre ++ '<' :: post →
      VettedTag post ∨ InForm resolver pre post := by
    intro pre post e
    obtain ⟨before, p, after, a, b, hp, hhtml, rfl, rfl⟩ := piece_of_mem e
    obtain hvetted | ⟨cs, rfl, hform⟩ := hpieces p (by rw [hp]; simp)
    · obtain rfl := hvetted.clean.head hhtml
      exact .inl (hvetted.tag hhtml _)
    · change cs = _ at hhtml
      rw [hhtml] at hform
      exact .inr ⟨a, b, _, _, hform, rfl, rfl⟩
  refine ⟨htags, fun pre name post e hname => ?_, _, rfl, hpieces⟩
  obtain htag | hform := htags pre _ e
  · exact htag.frame hname
  · exact absurd hname (hform.no_frame hforms)

/-- A form above a video and a text about frames. -/
def contactPage : Json :=
  .arr [.obj [("slug", .str "contact"), ("type", .str "form")],
    .obj [("src", .str "https://youtu.be/abc_1"), ("type", .str "video")],
    .obj [("text", .str "<iframe>"), ("type", .str "text")]]

def contactForm (_ : List Char) : List Char := "<form><input name=email></form>".toList

theorem frames_vetted_contactPage : ∃ out, blocks contactPage (some contactForm) = .ok out ∧
    VettedPage (some contactForm) out := by
  have hrun : (blocks contactPage (some contactForm)).isOk = true := by decide
  obtain ⟨out, hout⟩ := exists_ok hrun
  refine ⟨out, hout, frames_vetted ?_ hout⟩
  intro render hrender slug
  obtain rfl := Option.some.inj hrender
  exact (by decide : NoFrame "<form><input name=email></form>".toList)

end WebsiteRender

end CErp
