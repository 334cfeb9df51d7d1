/-
What the sanitiser lets through is safe wherever it is cut.

`SafeMarkup` is a grammar of the output: whatever follows a `<` in it is an end tag or
a start tag on the list, with attributes on the list whose values cannot close the
quote, and addresses whose scheme, as a browser reads it, is an allowed one.  A URL
that the sanitiser accepts is read by a browser as the sanitiser reads it
(`cleaned_eq_trim`).
-/
import CErp.WebsiteRender

namespace CErp

open List

namespace WebsiteRender

open Markup

/-! ### Safe markup -/

/-- The address in an attribute of `tag` has no scheme, an allowed one, or is an
image. -/
def SafeAddress (tag address : List Char) : Prop :=
  ∀ scheme, scheme? address = some scheme → scheme ∈ safeSchemes ∨
      tag = tagImg ∧ scheme = "data".toList ∧
        ∃ image ∈ dataImages, image <+: lower (cleaned address)

structure SafeAttr (tag : List Char) (a : Attr) : Prop where
  allowed : a.name ∈ allowedAttrs tag
  noHandler : ¬['o', 'n'] <+: a.name
  value : ∀ c ∈ a.value, c ≠ '<' ∧ c ≠ '>' ∧ c ≠ '"'
  address : a.name = "href".toList ∨ a.name = "src".toList → SafeAddress tag (unescape a.value)

/-- What may follow a `<`. -/
def SafeTag (post : List Char) : Prop :=
  ∃ tag ∈ allowedTags, ∃ rest, post = '/' :: (tag ++ '>' :: rest) ∨
      ∃ attrs selfClose, (∀ a ∈ attrs, SafeAttr tag a) ∧
        post = tag ++ (attrsText attrs ++ ending selfClose) ++ rest

/-- Wherever there is a `<`, a safe tag begins. -/
def SafeMarkup (out : List Char) : Prop :=
  ∀ pre post, out = pre ++ '<' :: post → SafeTag post

/-! ### Values -/

lemma safe_of_all {text : List Char}
    (h : text.all (fun c => c != '<' && (c != '>' && c != '"')) = true) :
    ∀ c ∈ text, c ≠ '<' ∧ c ≠ '>' ∧ c ≠ '"' := by
  simpa only [List.all_eq_true, Bool.and_eq_true, bne_iff_ne] using h

lemma escChar_safe (d : Char) : ∀ c ∈ escChar d, c ≠ '<' ∧ c ≠ '>' ∧ c ≠ '"' := by
  unfold escChar
  split_ifs with hamp hlt hgt hquot hapos
  iterate 5 exact safe_of_all (by decide)
  intro c hc
  obtain rfl := mem_singleton.mp hc
  exact ⟨hlt, hgt, hquot⟩

lemma esc_safe (s : List Char) : ∀ c ∈ esc s, c ≠ '<' ∧ c ≠ '>' ∧ c ≠ '"' := by
  intro c hc
  obtain ⟨d, -, hc⟩ := mem_flatMap.mp hc
  exact escChar_safe d c hc

lemma unescape_esc (s : List Char) : unescape (esc s) = s := by
  induction s with
  | nil => rfl
  | cons d s ih =>
      rw [esc, flatMap_cons, escChar]
      split_ifs with hamp hlt hgt hquot hapos
      · rw [hamp]
        exact congrArg _ ih
      · rw [hlt]
        exact congrArg _ ih
      · rw [hgt]
        exact congrArg _ ih
      · rw [hquot]
        exact congrArg _ ih
      · rw [hapos]
        exact congrArg _ ih
      · rw [singleton_append, unescape_cons hamp]
        exact congrArg _ ih

/-! ### Addresses -/

lemma not_control {c : Char} (h : isControl c = false) : 0x20 ≤ c.toNat := by
  simp only [isControl, Bool.or_eq_false_iff, decide_eq_false_iff_not, Nat.not_lt] at h
  exact h.1

/-- Without control characters an address is read as `trim` leaves it. -/
lemma cleaned_eq_trim {raw : List Char} (h : ∀ c ∈ trim raw, isControl c = false) :
    cleaned raw = trim raw := by
  have hstrip : strip isBlankOrControl raw = trim raw := by
    refine @strip_eq_of_le isTrimmed _ _ ?_ ?_
    · intro c hc
      simp only [isTrimmed, Bool.or_eq_true, decide_eq_true_eq] at hc
      rcases hc with ((rfl | rfl) | rfl) | rfl <;> rfl
    · intro c hc hblank
      have hle := not_control (h c hc)
      have hge : c.toNat ≤ 0x20 := of_decide_eq_true hblank
      obtain rfl : c = ' ' := Char.toNat_inj.mp (le_antisymm hge hle)
      rfl
  rw [cleaned, hstrip, filter_eq_self]
  intro c hc
  have hle := not_control (h c hc)
  rw [Bool.not_eq_true', isTabOrNewline, Bool.or_eq_false_iff, Bool.or_eq_false_iff]
  refine ⟨⟨?_, ?_⟩, ?_⟩
  all_goals
    rw [decide_eq_false_iff_not]
    rintro rfl
    revert hle
    decide

lemma isPrefixOf_take {pat s : List Char} {n : ℕ} (h : pat.isPrefixOf (s.take n)) : pat <+: s :=
  (List.isPrefixOf_iff_prefix.mp h).trans (List.take_prefix n s)

variable {tag : List Char}

/-- An address that is accepted is safe as a browser reads it. -/
lemma safeAddress_of_safeUrl {raw : List Char} (h : safeUrl raw (tag = tagImg) = true) :
    SafeAddress tag raw := by
  intro scheme hscheme
  unfold safeUrl at h
  simp only at h
  split_ifs at h with hempty hcontrol hcolon hslash hsafe hdata
  all_goals
    have hclean : cleaned raw = trim raw := cleaned_eq_trim (by simpa using hcontrol)
    simp only [scheme?, hclean, Option.ite_none_right_eq_some, Option.some.injEq] at hscheme
    obtain ⟨⟨hc, hs⟩, rfl⟩ := hscheme
  · exact absurd hslash hs
  · exact .inl hsafe
  · refine .inr ⟨by simpa using hdata.1, hdata.2, ?_⟩
    obtain ⟨image, himage, hpre⟩ := List.any_eq_true.mp h
    refine ⟨image, himage, ?_⟩
    rw [hclean]
    exact isPrefixOf_take (by simpa only [lower, map_take] using hpre)
  · exact absurd hc hcolon

/-! ### Attributes -/

lemma detachedRel_safe : SafeAttr tagA detachedRel where
  allowed := by decide
  noHandler := by decide
  value := safe_of_all (by decide)
  address := by
    intro h
    refine absurd h ?_
    decide

lemma safeAttr_of_keeps {a : Attr} (h : keeps tag a = true) :
    SafeAttr tag ⟨a.name, esc a.value⟩ := by
  obtain ⟨-, hhandler, hallowed, hurl⟩ := of_decide_eq_true h
  refine ⟨hallowed, ?_, esc_safe a.value, ?_⟩
  · rw [← List.isPrefixOf_iff_prefix]
    exact hhandler
  · intro haddress
    have hsafe : safeUrl a.value (tag = tagImg) = true := by
      by_contra hnot
      exact hurl ⟨haddress, hnot⟩
    rw [unescape_esc]
    exact safeAddress_of_safeUrl hsafe

lemma rebuiltAttrs_safe (tag : List Char) (attrs : List Attr) :
    ∀ a ∈ rebuiltAttrs tag attrs, SafeAttr tag a := by
  intro a ha
  rcases mem_append.mp ha with hkept | hrel
  · obtain ⟨b, hb, rfl⟩ := mem_map.mp hkept
    exact safeAttr_of_keeps (mem_filter.mp hb).2
  · split_ifs at hrel with htag
    · obtain rfl := mem_singleton.mp hrel
      rw [htag]
      exact detachedRel_safe
    · cases hrel

/-! ### Pieces -/

lemma lt_notMem_of_allowedTags (h : tag ∈ allowedTags) : '<' ∉ tag :=
  fun hc => absurd (isAlphanum_of_allowedTags tag h _ hc) (by decide)

lemma SafeAttr.lt_notMem {a : Attr} (h : SafeAttr tag a) : '<' ∉ a.name ∧ '<' ∉ a.value :=
  ⟨fun hc => absurd (isAlpha_of_allowedAttrs tag _ h.allowed _ hc) (by decide),
    fun hc => (h.value _ hc).1 rfl⟩

lemma SafeAttr.readable {a : Attr} (h : SafeAttr tag a) : a.Readable :=
  ⟨fun hc => absurd (isAlpha_of_allowedAttrs tag _ h.allowed _ hc) (by decide),
    fun hc => (h.value _ hc).2.2 rfl⟩

namespace Turn

lemma Scanned.clean {t : Turn} (h : t.Scanned) : t.piece.Clean := by
  cases t with
  | text c =>
      change '<' ∉ if c = '&' then _ else _
      split_ifs
      · decide
      · decide
      · simpa using Ne.symm h
  | stray =>
      change '<' ∉ write stray
      decide
  | dropped => exact not_mem_nil
  | close tag =>
      rw [piece]
      split_ifs
      · exact not_mem_nil
      · exact lt_notMem_of_allowedTags h
  | element tag attrs selfClose =>
      exact ⟨lt_notMem_of_allowedTags h, fun a ha => (rebuiltAttrs_safe tag attrs a ha).lt_notMem⟩

lemma pieces_clean {ts : List Turn} (h : ∀ t ∈ ts, t.Scanned) : ∀ p ∈ ts.map piece, p.Clean := by
  intro p hp
  obtain ⟨t, ht, rfl⟩ := mem_map.mp hp
  exact (h t ht).clean

/-- A piece that begins with a `<` is a safe tag. -/
lemma Scanned.safeTag {t : Turn} (h : t.Scanned) {body : List Char}
    (e : t.piece.html = '<' :: body) (rest : List Char) : SafeTag (body ++ rest) := by
  have hclean := h.clean
  cases t with
  | text c =>
      -- a piece of text has no `<`
      change '<' ∉ (text c).piece.html at hclean
      simp [e] at hclean
  | stray => cases e
  | dropped => cases e
  | close tag =>
      rw [piece] at e
      split_ifs at e
      · cases e
      · obtain ⟨-, rfl⟩ := cons_eq_cons.mp e
        exact ⟨tag, h, rest, .inl (by simp)⟩
  | element tag attrs selfClose =>
      obtain ⟨-, rfl⟩ := cons_eq_cons.mp e
      exact ⟨tag, h, rest, .inr ⟨_, _, rebuiltAttrs_safe tag attrs, rfl⟩⟩

end Turn

/-- **The sanitiser's output is safe**, and the sanitiser ends: both loops are over
within as many turns as the text has characters, and whatever follows a `<` of the
output is a safe tag. -/
theorem sanitize_safe (html : List Char) : ∃ out, sanitize html = some out ∧ SafeMarkup out := by
  obtain ⟨ts, hts⟩ := turns_ends (le_refl html.length)
  have hscanned := turns_scanned hts
  refine ⟨_, sanitize_eq_html hts, fun pre post e => ?_⟩
  obtain ⟨p, hp, body, rest, hbody, rfl⟩ := tag_of_lt (Turn.pieces_clean hscanned) e
  obtain ⟨t, ht, rfl⟩ := mem_map.mp hp
  exact (hscanned t ht).safeTag hbody rest

end WebsiteRender

end CErp
