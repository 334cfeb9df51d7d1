/-
When the links of the sanitiser's output are detached from the page.

Every link gets `rel="noopener nofollow ugc"`, behind the attributes its author
gave it; and `rel` is one of those the author may give.  A browser takes the first of
two attributes of one name, so the links are detached exactly when no author of one
gave `rel` or the same attribute twice (`links_detached_iff`).
-/
import CErp.SafeMarkup
import Mathlib.Data.List.Nodup

namespace CErp

open List

namespace WebsiteRender

open Markup

def nameRel : List Char := "rel".toList

/-- A link without a way back to the page it was opened from. -/
structure Detached (attrs : List Attr) : Prop where
  once : (attrs.map Attr.name).Nodup
  noopener : ∃ rel, effective nameRel attrs = some rel ∧
    "noopener".toList ∈ (lower (unescape rel)).splitOn ' '

/-- Every link of a text, wherever it stands, is detached. -/
def LinksDetached (out : List Char) : Prop :=
  ∀ pre attrs selfClose rest, out = pre ++ '<' :: (startTag tagA attrs selfClose ++ rest) →
    (∀ a ∈ attrs, a.Readable) → Detached attrs

/-- The names of the attributes of a link that are written again. -/
def keptNames (attrs : List Attr) : List (List Char) :=
  (attrs.filter (keeps tagA)).map Attr.name

/-- What the author of a link may do: no attribute twice, and no `rel`. -/
structure Undisturbed (attrs : List Attr) : Prop where
  once : (keptNames attrs).Nodup
  noRel : nameRel ∉ keptNames attrs

lemma rebuiltAttrs_names (attrs : List Attr) :
    (rebuiltAttrs tagA attrs).map Attr.name = keptNames attrs ++ [nameRel] := by
  rw [rebuiltAttrs, if_pos rfl, map_append, map_map]
  rfl

lemma rebuiltAttrs_detached_iff (attrs : List Attr) :
    Detached (rebuiltAttrs tagA attrs) ↔ Undisturbed attrs := by
  have hnodup : ((rebuiltAttrs tagA attrs).map Attr.name).Nodup ↔
      nameRel ∉ keptNames attrs ∧ (keptNames attrs).Nodup := by
    rw [rebuiltAttrs_names, nodup_append_comm, singleton_append, nodup_cons]
  constructor
  · intro h
    obtain ⟨hrel, honce⟩ := hnodup.mp h.once
    exact ⟨honce, hrel⟩
  · intro h
    refine ⟨hnodup.mpr ⟨h.noRel, h.once⟩, detachedRel.value, ?_, by decide⟩
    have hnames : ((attrs.filter (keeps tagA)).map
        fun a => (⟨a.name, esc a.value⟩ : Attr)).map Attr.name = keptNames attrs := by
      rw [map_map]
      rfl
    rw [rebuiltAttrs, effective_append]
    · rfl
    · rw [hnames]
      exact h.noRel

/-! ### From the output back to the scanner -/

lemma not_stopsName_of_allowedTags {tag : List Char} (h : tag ∈ allowedTags) :
    ∀ c ∈ tag, ¬stopsName c := by
  intro c hc hstop
  have halpha := isAlphanum_of_allowedTags tag h c hc
  rcases hstop with rfl | rfl | rfl
  all_goals exact absurd halpha (by decide)

lemma tagA_allowed : tagA ∈ allowedTags := by decide

/-- A link in what a turn wrote is the one the turn came to. -/
lemma element_of_link {t : Turn} (h : t.Scanned) {attrs : List Attr} {selfClose : Bool}
    {body rest rest' : List Char} (hattrs : ∀ a ∈ attrs, a.Readable)
    (hbody : t.piece.html = '<' :: body)
    (e : startTag tagA attrs selfClose ++ rest = body ++ rest') :
    ∃ given b, t = .element tagA given b ∧ attrs = rebuiltAttrs tagA given := by
  cases t with
  | text c =>
      have hclean : '<' ∉ (Turn.text c).piece.html := h.clean
      simp [hbody] at hclean
  | stray => cases hbody
  | dropped => cases hbody
  | close tag =>
      rw [Turn.piece] at hbody
      split_ifs at hbody
      · cases hbody
      · obtain ⟨-, rfl⟩ := cons_eq_cons.mp hbody
        obtain ⟨hslash, -⟩ := cons_eq_cons.mp e
        exact absurd hslash (by decide)
  | element tag given b =>
      obtain ⟨-, rfl⟩ := cons_eq_cons.mp hbody
      obtain ⟨rfl, rfl⟩ := startTag_inj (not_stopsName_of_allowedTags tagA_allowed)
        (not_stopsName_of_allowedTags h) hattrs
        (fun a ha => (rebuiltAttrs_safe tag given a ha).readable) e
      exact ⟨given, b, rfl, rfl⟩

/-- What a turn writes stands in the output. -/
lemma html_split {ts : List Turn} {t : Turn} (ht : t ∈ ts) :
    ∃ pre rest, Markup.html (ts.map Turn.piece) = pre ++ (t.piece.html ++ rest) := by
  obtain ⟨before, after, rfl⟩ := append_of_mem ht
  refine ⟨Markup.html (before.map Turn.piece), Markup.html (after.map Turn.piece), ?_⟩
  rw [map_append, html_append, map_cons, html_cons]

/-- **Links are detached unless their author interferes**: all links of the output are
detached exactly when every link the scanner comes to has no attribute twice and no
`rel` among those that are written again. -/
theorem links_detached_iff (html : List Char) :
    ∃ ts out, turns html.length html = some ts ∧ sanitize html = some out ∧ (LinksDetached out ↔
        ∀ attrs selfClose, .element tagA attrs selfClose ∈ ts → Undisturbed attrs) := by
  obtain ⟨ts, hts⟩ := turns_ends (le_refl html.length)
  have hscanned := turns_scanned hts
  refine ⟨ts, _, hts, sanitize_eq_html hts, ?_, ?_⟩
  · intro h attrs selfClose hmem
    rw [← rebuiltAttrs_detached_iff]
    obtain ⟨pre, rest, e⟩ := html_split hmem
    exact h pre _ _ rest e fun a ha => (rebuiltAttrs_safe tagA attrs a ha).readable
  · intro h pre attrs selfClose rest e hattrs
    obtain ⟨p, hp, body, rest', hbody, epost⟩ := tag_of_lt (Turn.pieces_clean hscanned) e
    obtain ⟨t, ht, rfl⟩ := mem_map.mp hp
    obtain ⟨given, b, rfl, rfl⟩ := element_of_link (hscanned t ht) hattrs hbody epost
    exact (rebuiltAttrs_detached_iff given).mpr (h given b ht)

/-- A link with a `rel` of its author opens with a way back. -/
theorem links_not_detached_of_opener :
    ∃ out, sanitize "<a href=\"/x\" target=\"_blank\" rel=\"opener\">".toList = some out ∧
      ¬LinksDetached out := by
  refine ⟨"<a href=\"/x\" target=\"_blank\" rel=\"opener\"".toList ++
    " rel=\"noopener nofollow ugc\">".toList, by decide, fun h => ?_⟩
  have hdetached := h [] [⟨"href".toList, "/x".toList⟩, ⟨"target".toList, "_blank".toList⟩,
    ⟨nameRel, "opener".toList⟩, detachedRel] false [] (by decide) (by decide)
  obtain ⟨rel, hrel, hnoopener⟩ := hdetached.noopener
  obtain rfl := Option.some.inj hrel
  revert hnoopener
  decide

end WebsiteRender

end CErp
