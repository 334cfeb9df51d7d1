/-
Every block made of an author's texts is fair, whatever JSON it is.

The frames among them show what they are vetted for: the address of a video is made
of an id (`parseVideo_id`), that of a map of numbers (`mapUrl_vetted`).
-/
import CErp.OwnMarkup

namespace CErp

open List

namespace WebsiteRender

open Markup DoubleText

/-! ### Blocks -/

variable (b : Json)

lemma heading_fair : Fair (heading b) := by
  have hlevel : level b ∈ ["1".toList, "2".toList, "3".toList] := by
    unfold level
    split
    · assumption
    · decide
  have hown : ∀ l ∈ ["1".toList, "2".toList, "3".toList],
      ('h' :: l) ∈ ownTags ∧ isVoid ('h' :: l) = false ∧ ('h' :: l) ≠ tagIframe := by
    simp [ownTags, isVoid, voidTags, tagIframe]
  obtain ⟨ht, hvoid, hframe⟩ := hown _ hlevel
  exact .around ht hvoid (clsOnly_own (by simp [classes])) (fun h => absurd h hframe) (.say _)

lemma flush_fair {para : List Piece} (h : Fair para) : Fair (flush para) := by
  unfold flush
  split
  · exact .nil
  · exact .styled (by simp [elements]) (by simp [classes]) h

lemma paragraphs_fair (lines : List (List Char)) :
    ∀ {para : List Piece}, Fair para → Fair (paragraphs lines para) := by
  induction lines with
  | nil =>
      intro para h
      exact flush_fair h
  | cons line lines ih =>
      intro para h
      rw [paragraphs]
      split
      · exact (flush_fair h).append (ih .nil)
      · refine ih ((h.append ?_).append (.say _))
        split
        · exact .nil
        · exact .alone (by simp [voidElements]) ownAttrs_nil

lemma text_fair : Fair (text b) := paragraphs_fair _ .nil

lemma caption_fair : Fair (caption b) := by
  unfold caption saying
  split
  · exact .nil
  · exact .bare (by simp [elements]) (.say _)

lemma picture_fair {attrs : List Attr} (hattrs : ∀ a ∈ attrs, OwnAttr a) (src alt : List Char) :
    Fair [alone "img" (attrs ++ [shown "src" src, shown "alt" alt, attr "loading" "lazy"])] := by
  refine .alone (by simp [voidElements]) fun a ha => ?_
  obtain ha | ha := mem_append.mp ha
  · exact hattrs a ha
  · exact ownAttrs_cons (shown_own (by simp [shownNames]) src)
      (ownAttrs_cons (shown_own (by simp [shownNames]) alt)
        (ownAttrs_cons (attr_own (by simp [fixedAttrs])) ownAttrs_nil)) a ha

lemma image_fair : Fair (image b) := by
  unfold image
  dsimp only
  split
  · exact .styled (by simp [elements]) (by simp [classes])
      (.cons (picture_fair ownAttrs_nil _ _) (caption_fair b))
  · exact .nil

lemma button_fair : Fair (button b) := by
  unfold button
  dsimp only
  split
  · refine .styled (by simp [elements]) (by simp [classes]) (.element (by simp [elements]) ?_ (.say _))
    exact ownAttrs_cons (cls_own (by simp [classes]))
      (ownAttrs_cons (shown_own (by simp [shownNames]) _)
        (ownAttrs_cons (attr_own (by simp [fixedAttrs])) ownAttrs_nil))
  · exact .nil

lemma divider_fair : Fair (divider b) :=
  .alone (by simp [voidElements]) (clsOnly_own (by simp [classes]))

variable (c : Json)

lemma column_fair : Fair (column c) :=
  .styled (by simp [elements]) (by simp [classes])
    ((Fair.saying (by simp [elements]) (by simp [classes]) _).append
      (.saying (by simp [elements]) (by simp [classes]) _))

lemma columns_fair : Fair (columns b) :=
  .listed (by simp [elements]) (by simp [classes]) column_fair b

lemma hero_fair : Fair (hero b) := by
  refine .styled (by simp [elements]) (by simp [classes]) (.append (.append (.append ?_ ?_) ?_) ?_)
  · exact .saying (by simp [elements]) (by simp [classes]) _
  · exact .styled (by simp [elements]) (by simp [classes]) (.say _)
  · exact .saying (by simp [elements]) (by simp [classes]) _
  · split
    · exact .styled (by simp [elements]) (by simp [classes])
        ((Fair.link (by simp [classes]) _ _).append (.link (by simp [classes]) _ _))
    · exact .nil

lemma feature_fair (f : Json) : Fair (feature f) := by
  unfold feature
  split
  · exact .bare (by simp [elements]) (.say _)
  · exact .nil

lemma plan_fair : Fair (plan c) := by
  refine .element (by simp [elements]) ?_
    (.append (.append (.append (.append (.append ?_ ?_) ?_) ?_) ?_) ?_)
  · split
    · exact clsOnly_own (by simp [classes])
    · exact clsOnly_own (by simp [classes])
  · exact .saying (by simp [elements]) (by simp [classes]) _
  · exact .styled (by simp [elements]) (by simp [classes]) (.say _)
  · exact .saying (by simp [elements]) (by simp [classes]) _
  · split
    · exact .nil
    · exact .styled (by simp [elements]) (by simp [classes])
        (.cons (.say _) (.saying (by simp [elements]) (by simp [classes]) _))
  · split
    · exact .styled (by simp [elements]) (by simp [classes]) (.flatMap fun f _ => feature_fair f)
    · exact .nil
  · split
    · exact .styled (by simp [elements]) (by simp [classes]) (.link (by simp [classes]) _ _)
    · exact .nil

lemma pricing_fair : Fair (pricing b) :=
  .listed (by simp [elements]) (by simp [classes]) plan_fair b

lemma stepItem_fair : Fair (stepItem c) :=
  .styled (by simp [elements]) (by simp [classes])
    ((Fair.styled (by simp [elements]) (by simp [classes]) (.say _)).append
      (.saying (by simp [elements]) (by simp [classes]) _))

lemma steps_fair : Fair (steps b) :=
  .listed (by simp [elements]) (by simp [classes]) stepItem_fair b

lemma question_fair : Fair (question c) := by
  unfold question
  split
  · exact .nil
  · exact .styled (by simp [elements]) (by simp [classes])
      ((Fair.bare (by simp [elements]) (.say _)).append
        (.styled (by simp [elements]) (by simp [classes]) (.say _)))

lemma faq_fair : Fair (faq b) :=
  .listed (by simp [elements]) (by simp [classes]) question_fair b

lemma reference_fair : Fair (reference c) := by
  unfold reference
  dsimp only
  split
  · exact .nil
  · refine .styled (by simp [elements]) (by simp [classes]) (.append (.append ?_ ?_) ?_)
    · split
      · exact picture_fair (clsOnly_own (by simp [classes])) _ _
      · exact .nil
    · exact .styled (by simp [elements]) (by simp [classes]) (.say _)
    · exact .saying (by simp [elements]) (by simp [classes]) _

lemma references_fair : Fair (references b) :=
  .listed (by simp [elements]) (by simp [classes]) reference_fair b

/-! ### Frames -/

lemma esc_append (s s' : List Char) : esc (s ++ s') = esc s ++ esc s' := flatMap_append

/-- A text without special characters is its own escape. -/
lemma esc_eq_self {s : List Char} (h : ∀ c ∈ s, escChar c = [c]) : esc s = s := by
  induction s with
  | nil => rfl
  | cons c s ih =>
      rw [esc, flatMap_cons, h c mem_cons_self, singleton_append]
      exact congrArg _ (ih fun d hd => h d (mem_cons_of_mem c hd))

lemma escChar_of_ne {c : Char} (h : c ≠ '&' ∧ c ≠ '<' ∧ c ≠ '>' ∧ c ≠ '"' ∧ c ≠ Char.ofNat 39) :
    escChar c = [c] := by
  unfold escChar
  rw [if_neg h.1, if_neg h.2.1, if_neg h.2.2.1, if_neg h.2.2.2.1, if_neg h.2.2.2.2]

lemma escChar_of_isIdChar {c : Char} (h : isIdChar c = true) : escChar c = [c] := by
  refine escChar_of_ne ⟨?_, ?_, ?_, ?_, ?_⟩
  all_goals
    rintro rfl
    revert h
    decide

lemma escChar_of_fixed {c : Char} (h : c.isDigit ∨ c = '.' ∨ c = '-' ∨ c = ',') :
    escChar c = [c] := by
  refine escChar_of_ne ⟨?_, ?_, ?_, ?_, ?_⟩
  all_goals
    rintro rfl
    revert h
    decide

lemma esc_commaList {ns : List (List Char)} (h : ∀ n ∈ ns, IsFixed 5 n) :
    esc (commaList ns) = commaList ns := by
  refine esc_eq_self fun c hc => escChar_of_fixed ?_
  unfold commaList at hc
  induction ns with
  | nil => cases hc
  | cons n ns ih =>
      cases ns with
      | nil =>
          have hmem : c ∈ n := by simpa using hc
          exact (h n mem_cons_self).chars c hmem |>.imp_right (Or.imp_right .inl)
      | cons m ns =>
          rw [intercalate_cons_cons] at hc
          simp only [mem_append, mem_singleton] at hc
          obtain (hc | hc) | hc := hc
          · exact ((h n mem_cons_self).chars c hc).imp_right (Or.imp_right .inl)
          · exact .inr (.inr (.inr hc))
          · exact ih (fun k hk => h k (mem_cons_of_mem n hk)) hc

lemma esc_embed {box point : List (List Char)} (hbox : ∀ n ∈ box, IsFixed 5 n)
    (hpoint : ∀ n ∈ point, IsFixed 5 n) :
    esc ("https://www.openstreetmap.org/export/embed.html?bbox=".toList ++ commaList box ++
        "&layer=mapnik&marker=".toList ++ commaList point) =
      "https://www.openstreetmap.org/export/embed.html?bbox=".toList ++ commaList box ++
        "&amp;layer=mapnik&amp;marker=".toList ++ commaList point := by
  have hpath : esc "https://www.openstreetmap.org/export/embed.html?bbox=".toList =
      "https://www.openstreetmap.org/export/embed.html?bbox=".toList := by rfl
  have hmarker : esc "&layer=mapnik&marker=".toList =
      "&amp;layer=mapnik&amp;marker=".toList := by rfl
  rw [esc_append, esc_append, esc_append, hpath, hmarker, esc_commaList hbox, esc_commaList hpoint]

lemma mapUrl_vetted (lat lon : Double) : VettedSource (esc (mapUrl lat lon)) := by
  have hfixed : ∀ x, IsFixed 5 (fixed 5 x) := fun x => fixed_isFixed (by decide) x
  have hbox : ∀ n ∈ [fixed 5 (lon.sub margin), fixed 5 (lat.sub margin), fixed 5 (lon.add margin),
      fixed 5 (lat.add margin)], IsFixed 5 n := by
    simp only [mem_cons, not_mem_nil, or_false, forall_eq_or_imp, forall_eq, hfixed, and_self]
  have hpoint : ∀ n ∈ [fixed 5 lat, fixed 5 lon], IsFixed 5 n := by
    simp only [mem_cons, not_mem_nil, or_false, forall_eq_or_imp, forall_eq, hfixed, and_self]
  exact .inr ⟨_, _, esc_embed hbox hpoint, ⟨by rfl, hbox⟩, by rfl, hpoint⟩

lemma hrefName_own : "href".toList ∈ ownAttrs := shownNames_own _ (by simp [shownNames])

lemma blankTarget_own : ∀ a ∈ blankTarget, OwnAttr a :=
  ownAttrs_cons (attr_own (by simp [fixedAttrs]))
    (ownAttrs_cons (attr_own (by simp [fixedAttrs])) ownAttrs_nil)

lemma mapFrame_fair (lat lon : Double) (label : List Char) : Fair (mapFrame lat lon label) := by
  refine .styled (by simp [elements]) (by simp [classes]) (.append (.frame ?_ ?_) ?_)
  · refine ownAttrs_cons (shown_own (by simp [shownNames]) _) (ownAttrs_cons ?_ (ownAttrs_cons ?_
      (ownAttrs_cons ?_ (ownAttrs_cons ?_ (ownAttrs_cons ?_ ownAttrs_nil)))))
    all_goals exact attr_own (by simp [fixedAttrs])
  · exact ⟨_, rfl, mapUrl_vetted lat lon⟩
  · refine .styled (by simp [elements]) (by simp [classes]) (.element (by simp [elements]) ?_ (.say _))
    refine ownAttrs_cons ⟨hrefName_own, ?_⟩ blankTarget_own
    refine escaped_append (escaped_append (escaped_append ?_ (escaped_esc _)) ?_) (escaped_esc _)
    · rfl
    · rfl

lemma mapLink_fair (q label : List Char) : Fair (mapLink q label) := by
  refine .styled (by simp [elements]) (by simp [classes]) (.element (by simp [elements]) ?_ ?_)
  · refine ownAttrs_cons (cls_own (by simp [classes]))
      (ownAttrs_cons ⟨hrefName_own, ?_⟩ blankTarget_own)
    exact escaped_append (by rfl) (escaped_esc _)
  · have hdash : Fair [.text " &mdash; ".toList] := by
      refine ⟨fun p hp => ?_, Balanced.text _⟩
      rw [mem_singleton.mp hp]
      exact (by rfl : escaped inText " &mdash; ".toList = true)
    exact .cons (.say _) (.cons hdash (.say _))

lemma map_fair : Fair (map b) := by
  unfold map
  dsimp only
  split
  · exact mapFrame_fair _ _ _
  · split
    · exact mapLink_fair _ _
    · exact .nil

/-! ### Videos -/

lemma isIdChar_of_idOk {id : List Char} {maxLen : ℕ} {digitsOnly : Bool}
    (h : idOk id maxLen digitsOnly = true) : ∀ c ∈ id, isIdChar c = true := by
  obtain ⟨-, -, hall⟩ := of_decide_eq_true h
  intro c hc
  have hchar := List.all_eq_true.mp hall c hc
  cases digitsOnly with
  | true =>
      have hdigit : c.isDigit = true := hchar
      unfold isIdChar Char.isAlphanum
      rw [hdigit, Bool.or_true, Bool.true_or, Bool.true_or]
  | false => exact hchar

lemma parseVideo_id {url : List Char} {v : VideoRef} (h : parseVideo url = some v) :
    ∀ c ∈ v.id, isIdChar c = true := by
  unfold parseVideo at h
  dsimp only at h
  split_ifs at h with _ _ hyoutube _ hvimeo
  · obtain rfl := Option.some.inj h
    exact isIdChar_of_idOk hyoutube
  · obtain rfl := Option.some.inj h
    exact isIdChar_of_idOk hvimeo

lemma videoEmbedUrl_vetted {v : VideoRef} (h : ∀ c ∈ v.id, isIdChar c = true) :
    VettedSource (esc (videoEmbedUrl v)) := by
  refine .inl ⟨v.provider, v.id, ?_, h⟩
  have hprovider : ∀ p : Provider, esc p.embedUrl = p.embedUrl := by
    intro p
    cases p with
    | youtube => rfl
    | vimeo => rfl
  rw [videoEmbedUrl, esc_append, hprovider, esc_eq_self fun c hc => escChar_of_isIdChar (h c hc)]

lemma videoFrame_fair {v : VideoRef} (h : ∀ c ∈ v.id, isIdChar c = true) (cap : List Char) :
    Fair (videoFrame v cap) := by
  refine .styled (by simp [elements]) (by simp [classes]) (.frame ?_ ?_)
  · refine ownAttrs_cons (shown_own (by simp [shownNames]) _)
      (ownAttrs_cons (shown_own (by simp [shownNames]) _) (ownAttrs_cons ?_ (ownAttrs_cons ?_
        (ownAttrs_cons ?_ (ownAttrs_cons flagged_own.2 ownAttrs_nil)))))
    all_goals exact attr_own (by simp [fixedAttrs])
  · exact ⟨_, rfl, videoEmbedUrl_vetted h⟩

/-- A name with a flag before it is one of those that show an author's text. -/
lemma playsinline_own {name : String} (h : "playsinline " ++ name ∈ shownNames)
    (s : List Char) : OwnAttr (flagged "playsinline" (shown name s)) := by
  refine ⟨?_, escaped_esc s⟩
  have hname := shownNames_own _ h
  rw [String.toList_append] at hname
  exact hname

lemma videoFile_fair (src poster : List Char) : Fair (videoFile src poster) := by
  refine .element (by simp [elements])
    (ownAttrs_cons (cls_own (by simp [classes])) (ownAttrs_cons flagged_own.1 ?_)) .nil
  split
  · exact ownAttrs_cons (playsinline_own (by simp [shownNames]) _)
      (ownAttrs_cons (shown_own (by simp [shownNames]) _) ownAttrs_nil)
  · exact ownAttrs_cons (playsinline_own (by simp [shownNames]) _) ownAttrs_nil

lemma video_fair : Fair (video b) := by
  unfold video
  dsimp only
  split
  · next v hv =>
      exact .styled (by simp [elements]) (by simp [classes])
        ((videoFrame_fair (parseVideo_id hv) _).append (caption_fair b))
  · split
    · exact .styled (by simp [elements]) (by simp [classes])
        ((videoFile_fair _ _).append (caption_fair b))
    · exact .nil

/-! ### The other blocks -/

lemma galleryItem_fair (g : Json) : Fair (galleryItem g) := by
  unfold galleryItem
  dsimp only
  split
  · exact .styled (by simp [elements]) (by simp [classes])
      (.cons (picture_fair ownAttrs_nil _ _) (caption_fair g))
  · exact .nil

lemma gallery_fair : Fair (gallery b) :=
  .listedSome (by simp [elements]) (by simp [classes]) galleryItem_fair b

lemma quote_fair : Fair (quote b) := by
  unfold quote
  split
  · exact .nil
  · refine .styled (by simp [elements]) (by simp [classes]) (.append ?_ ?_)
    · exact .bare (by simp [elements]) (.say _)
    · split
      · exact .bare (by simp [elements])
          ((Fair.styled (by simp [elements]) (by simp [classes]) (.say _)).append
            (.saying (by simp [elements]) (by simp [classes]) _))
      · exact .nil

lemma stat_fair (s : Json) : Fair (stat s) :=
  .styled (by simp [elements]) (by simp [classes])
    ((Fair.styled (by simp [elements]) (by simp [classes]) (.say _)).append
      (.styled (by simp [elements]) (by simp [classes]) (.say _)))

lemma stats_fair : Fair (stats b) :=
  .listedSome (by simp [elements]) (by simp [classes]) stat_fair b

lemma cta_fair : Fair (cta b) := by
  unfold cta
  split
  · exact .nil
  · refine .styled (by simp [elements]) (by simp [classes])
      (.append (.styled (by simp [elements]) (by simp [classes]) (.append ?_ ?_)) ?_)
    · exact .styled (by simp [elements]) (by simp [classes]) (.say _)
    · exact .saying (by simp [elements]) (by simp [classes]) _
    · exact .link (by simp [classes]) _ _

lemma spacer_fair : Fair (spacer b) := by
  refine .element (by simp [elements]) ?_ .nil
  split
  · exact clsOnly_own (by simp [classes])
  · split
    · exact clsOnly_own (by simp [classes])
    · exact clsOnly_own (by simp [classes])

/-- **All blocks of texts are fair**, whatever JSON they are. -/
theorem textBlocks_fair : ∀ r ∈ textBlocks, ∀ b, Fair (r.2 b) := by
  simp only [textBlocks, mem_cons, not_mem_nil, or_false, forall_eq_or_imp, forall_eq]
  exact ⟨heading_fair, text_fair, image_fair, button_fair, divider_fair, columns_fair, hero_fair,
    pricing_fair, steps_fair, faq_fair, references_fair, map_fair, video_fair, gallery_fair,
    quote_fair, stats_fair, cta_fair, spacer_fair⟩

end WebsiteRender

end CErp
