/-
The texts of numbers: what a prefix or suffix becomes when its placeholders
are filled in, and what can be read back from a formatted number.

Every placeholder begins with `%` and has no other `%` and no digit in it, and
every value is a run of digits.  So a text may be cut before a placeholder or a
digit and filled in piece by piece (`fill_cut`), and filled in at two moments
it has the same characters up to digits (`fill_alike`): it has the same length,
and a placeholder's value stands at the same place (`expandChars_split`).
-/
import CErp.IrSequence
import Mathlib.Data.List.Infix

namespace CErp

open List Nat

namespace IrSequence

/-! ### Filling in one placeholder -/

/-- The shape of a placeholder. -/
structure IsPlaceholder (token : List Char) : Prop where
  eq_cons : ∃ rest, token = '%' :: rest ∧ '%' ∉ rest
  any_digit : token.any Char.isDigit = false

lemma IsPlaceholder.no_digit {token : List Char} (h : IsPlaceholder token) :
    ∀ c ∈ token, c.isDigit = false := by
  intro c hc
  have hany := any_eq_false.mp h.any_digit c hc
  simpa using hany

lemma IsPlaceholder.ne_nil {token : List Char} (h : IsPlaceholder token) : token ≠ [] := by
  obtain ⟨rest, rfl, -⟩ := h.eq_cons
  exact cons_ne_nil _ _

/-- A text with every occurrence of a token replaced. -/
def fill (token value cs : List Char) : List Char := replaceToken token value cs.length cs

variable {cs : List Char}

section Fill

variable {token value : List Char}

/-- There is always fuel enough. -/
lemma replaceToken_of_length_le (hne : token ≠ []) {fuel : ℕ} (h : cs.length ≤ fuel) :
    replaceToken token value fuel cs = fill token value cs := by
  have hlen : 0 < token.length := length_pos_of_ne_nil hne
  -- more fuel than characters changes nothing
  suffices haux : ∀ (n : ℕ) (ds : List Char) (f g : ℕ), ds.length ≤ n → ds.length ≤ f →
      ds.length ≤ g → replaceToken token value f ds = replaceToken token value g ds by
    exact haux cs.length cs fuel cs.length le_rfl h le_rfl
  intro n
  induction n with
  | zero =>
      intro ds f g hn _ _
      obtain rfl : ds = [] := length_eq_zero_iff.mp (le_zero.mp hn)
      cases f <;> cases g <;> rfl
  | succ n ih =>
      intro ds f g hn hf hg
      rcases ds with - | ⟨c, ds⟩
      · cases f <;> cases g <;> rfl
      · obtain ⟨f, rfl⟩ : ∃ k, f = k + 1 := ⟨f - 1, by rw [length_cons] at hf; omega⟩
        obtain ⟨g, rfl⟩ : ∃ k, g = k + 1 := ⟨g - 1, by rw [length_cons] at hg; omega⟩
        simp only [length_cons] at hn hf hg
        rw [replaceToken, replaceToken]
        split
        · have hdrop : ((c :: ds).drop token.length).length ≤ ds.length := by
            rw [length_drop, length_cons]
            omega
          rw [ih _ f g (by omega) (by omega) (by omega)]
        · rw [ih ds f g (by omega) (by omega) (by omega)]

@[simp] lemma fill_nil : fill token value [] = [] := rfl

variable {c : Char}

lemma fill_cons_of_not_prefix (h : ¬ token <+: c :: cs) :
    fill token value (c :: cs) = c :: fill token value cs := by
  have hfalse : ¬ token.isPrefixOf (c :: cs) = true := by rwa [List.isPrefixOf_iff_prefix]
  rw [fill, length_cons, replaceToken, if_neg hfalse]
  rfl

lemma fill_token (hne : token ≠ []) (cs : List Char) :
    fill token value (token ++ cs) = value ++ fill token value cs := by
  rcases e : token ++ cs with - | ⟨c, ds⟩
  · exact absurd (append_eq_nil_iff.mp e).1 hne
  · have htrue : token.isPrefixOf (c :: ds) = true := by
      rw [List.isPrefixOf_iff_prefix, ← e]
      exact prefix_append _ _
    have hdrop : (c :: ds).drop token.length = cs := by
      rw [← e, drop_left]
    rw [fill, length_cons, replaceToken, if_pos htrue, hdrop]
    congr 1
    apply replaceToken_of_length_le hne
    have hlen := congrArg length e
    have hpos : 0 < token.length := length_pos_of_ne_nil hne
    rw [length_append, length_cons] at hlen
    omega

/-- An occurrence does not reach over a character it can only begin with. -/
lemma prefix_of_prefix_cut {x b : List Char} (hx : x ≠ []) (hc : c ∉ token.tail)
    (h : token <+: x ++ c :: b) : token <+: x := by
  rcases Nat.lt_or_ge x.length token.length with hlt | hge
  · exfalso
    have hcut : x ++ [c] <+: token := by
      refine prefix_of_prefix_length_le ?_ h ?_
      · exact ⟨b, by simp⟩
      · rw [length_append, length_singleton]
        exact hlt
    obtain ⟨rest, rfl⟩ := hcut
    rcases x with - | ⟨d, x⟩
    · exact hx rfl
    · apply hc
      simp
  · exact prefix_of_prefix_length_le h (prefix_append _ _) hge

/-- **Cutting a text.** -/
theorem fill_cut (hne : token ≠ []) (hc : c ∉ token.tail) (a b : List Char) :
    fill token value (a ++ c :: b) = fill token value a ++ fill token value (c :: b) := by
  -- by the length of what stands before the cut
  induction hn : a.length using Nat.strong_induction_on generalizing a with
  | _ n ih =>
      rcases a with - | ⟨d, a⟩
      · rfl
      by_cases hpre : token <+: d :: a
      · obtain ⟨a', ha'⟩ := hpre
        have hshort : a'.length < n := by
          have hlen := congrArg length ha'
          have hpos : 0 < token.length := length_pos_of_ne_nil hne
          rw [length_append] at hlen
          omega
        rw [← ha', append_assoc, fill_token hne, fill_token hne, append_assoc,
          ih a'.length hshort a' rfl]
      · have hnot : ¬ token <+: d :: (a ++ c :: b) := by
          intro h
          exact hpre (prefix_of_prefix_cut (cons_ne_nil d a) hc h)
        have hshort : a.length < n := by
          rw [← hn]
          exact lt_succ_self _
        rw [cons_append, fill_cons_of_not_prefix hnot, fill_cons_of_not_prefix hpre,
          ih a.length hshort a rfl]
        rfl

variable (htoken : IsPlaceholder token)
include htoken

lemma IsPlaceholder.percent_not_mem : '%' ∉ token.tail := by
  obtain ⟨rest, rfl, hrest⟩ := htoken.eq_cons
  exact hrest

lemma IsPlaceholder.digit_not_mem (hc : c.isDigit = true) : c ∉ token.tail := by
  intro hmem
  rw [htoken.no_digit c (mem_of_mem_tail hmem)] at hc
  cases hc

/-- What has no `%` is left as it is. -/
lemma fill_append_of_no_percent {y : List Char} (hy : '%' ∉ y) (b : List Char) :
    fill token value (y ++ b) = y ++ fill token value b := by
  induction y with
  | nil => rfl
  | cons c y ih =>
      have hnot : ¬ token <+: c :: (y ++ b) := by
        intro h
        obtain ⟨rest, rfl, -⟩ := htoken.eq_cons
        rw [cons_prefix_cons] at h
        exact hy (h.1 ▸ mem_cons_self)
      rw [cons_append, fill_cons_of_not_prefix hnot, ih (fun h => hy (mem_cons_of_mem c h))]
      rfl

/-- A run of digits stays where it is. -/
lemma fill_digits {y : List Char} (hne : y ≠ []) (hy : ∀ c ∈ y, c.isDigit = true)
    (a b : List Char) :
    fill token value (a ++ y ++ b) = fill token value a ++ y ++ fill token value b := by
  have hpercent : '%' ∉ y := by
    intro h
    exact absurd (hy _ h) (by decide)
  rcases y with - | ⟨c, y⟩
  · exact absurd rfl hne
  rw [append_assoc, cons_append, fill_cut htoken.ne_nil
    (htoken.digit_not_mem (hy c mem_cons_self)), ← cons_append,
    fill_append_of_no_percent htoken hpercent, append_assoc]

/-- The token itself becomes its value. -/
lemma fill_own (a b : List Char) :
    fill token value (a ++ token ++ b) = fill token value a ++ value ++ fill token value b := by
  have hown : fill token value (token ++ b) = value ++ fill token value b :=
    fill_token htoken.ne_nil b
  obtain ⟨rest, heq, -⟩ := htoken.eq_cons
  have hcut : fill token value (a ++ '%' :: (rest ++ b)) =
      fill token value a ++ fill token value ('%' :: (rest ++ b)) :=
    fill_cut htoken.ne_nil htoken.percent_not_mem a (rest ++ b)
  rw [← cons_append, ← heq] at hcut
  rw [append_assoc, hcut, hown, append_assoc]

/-- A last character that is in no placeholder stays where it is. -/
lemma fill_snoc (hc : c ∉ token.tail) (hne : c ≠ '%') (a : List Char) :
    fill token value (a ++ [c]) = fill token value a ++ [c] := by
  have hlast : fill token value ([c] ++ []) = [c] ++ fill token value [] :=
    fill_append_of_no_percent htoken (by simpa using hne.symm) []
  rw [fill_cut htoken.ne_nil hc]
  show _ ++ fill token value ([c] ++ []) = _
  rw [hlast]
  rfl

/-- Another token is left as it is. -/
lemma fill_other {other : List Char} (hother : IsPlaceholder other)
    (hdiff : ∀ b, token.isPrefixOf (other ++ b) = false) (a b : List Char) :
    fill token value (a ++ other ++ b) = fill token value a ++ other ++ fill token value b := by
  obtain ⟨rest, rfl, hrest⟩ := hother.eq_cons
  have hnot : ¬ token <+: '%' :: (rest ++ b) := by
    rw [← List.isPrefixOf_iff_prefix, ← cons_append, hdiff b]
    decide
  rw [append_assoc, cons_append, fill_cut htoken.ne_nil htoken.percent_not_mem,
    fill_cons_of_not_prefix hnot, fill_append_of_no_percent htoken hrest, append_assoc]
  rfl

end Fill

/-! ### The same text up to digits -/

/-- Two texts with the same characters but for digits at the same places. -/
def Alike : List Char → List Char → Prop :=
  Forall₂ fun c c' => c = c' ∨ (c.isDigit = true ∧ c'.isDigit = true)

lemma Alike.refl (cs : List Char) : Alike cs cs := by
  apply forall₂_same.mpr
  intro c _
  exact .inl rfl

variable {cs' : List Char}

lemma Alike.length_eq (h : Alike cs cs') : cs.length = cs'.length :=
  Forall₂.length_eq h

lemma Alike.append {as as' bs bs' : List Char} (ha : Alike as as') (hb : Alike bs bs') :
    Alike (as ++ bs) (as' ++ bs') :=
  rel_append ha hb

lemma alike_of_digits (hlen : cs.length = cs'.length) (h : ∀ c ∈ cs, c.isDigit = true)
    (h' : ∀ c ∈ cs', c.isDigit = true) : Alike cs cs' := by
  apply forall₂_iff_zip.mpr
  refine ⟨hlen, fun {c c'} hc => .inr ⟨h c ?_, h' c' ?_⟩⟩
  · exact (of_mem_zip hc).1
  · exact (of_mem_zip hc).2

/-- A token has no digits, so it is found in both or in neither. -/
lemma Alike.isPrefixOf {token : List Char} (htoken : ∀ c ∈ token, c.isDigit = false)
    (h : Alike cs cs') : token.isPrefixOf cs = token.isPrefixOf cs' := by
  induction token generalizing cs cs' with
  | nil => rfl
  | cons t token ih =>
      obtain ⟨ht, hrest⟩ := forall_mem_cons.mp htoken
      rcases h with - | ⟨hc, hcs⟩
      · rfl
      · next c c' cs cs' =>
          rw [isPrefixOf_cons_cons, isPrefixOf_cons_cons, ih hrest hcs]
          rcases hc with rfl | ⟨hd, hd'⟩
          · rfl
          · have hne : (t == c) = false := by
              rw [beq_eq_false_iff_ne]
              rintro rfl
              rw [ht] at hd
              cases hd
            have hne' : (t == c') = false := by
              rw [beq_eq_false_iff_ne]
              rintro rfl
              rw [ht] at hd'
              cases hd'
            rw [hne, hne']

lemma fill_alike {token value value' : List Char} (htoken : IsPlaceholder token)
    (hvalue : Alike value value') (h : Alike cs cs') :
    Alike (fill token value cs) (fill token value' cs') := by
  unfold fill
  rw [← h.length_eq]
  generalize cs.length = fuel
  induction fuel generalizing cs cs' with
  | zero => exact h
  | succ fuel ih =>
      have hfound := h.isPrefixOf htoken.no_digit
      rcases h with - | ⟨hc, hcs⟩
      · exact Forall₂.nil
      · rw [replaceToken, replaceToken, ← hfound]
        split
        · exact hvalue.append (ih (forall₂_drop _ (Forall₂.cons hc hcs)))
        · exact Forall₂.cons hc (ih hcs)

/-! ### Filling in all placeholders -/

def yearToken : List Char := ['%', '(', 'y', 'e', 'a', 'r', ')', 's']
def shortYearToken : List Char := ['%', '(', 'y', ')', 's']
def monthToken : List Char := ['%', '(', 'm', 'o', 'n', 't', 'h', ')', 's']
def dayToken : List Char := ['%', '(', 'd', 'a', 'y', ')', 's']

lemma isPlaceholder_year : IsPlaceholder yearToken :=
  ⟨⟨_, rfl, by decide⟩, rfl⟩

lemma isPlaceholder_shortYear : IsPlaceholder shortYearToken :=
  ⟨⟨_, rfl, by decide⟩, rfl⟩

lemma isPlaceholder_month : IsPlaceholder monthToken :=
  ⟨⟨_, rfl, by decide⟩, rfl⟩

lemma isPlaceholder_day : IsPlaceholder dayToken :=
  ⟨⟨_, rfl, by decide⟩, rfl⟩

/-- `expand` on characters. -/
def expandChars (now : Clock) (cs : List Char) : List Char :=
  fill dayToken now.day.toList (fill monthToken now.month.toList
    (fill shortYearToken now.shortYear.toList (fill yearToken now.year.toList cs)))

lemma toList_expand (now : Clock) (s : String) :
    (expand now s).toList = expandChars now s.toList := by
  rw [expand, String.toList_ofList]
  simp only [String.reduceToList]
  rfl

/-- A moment whose year, month and day are digits. -/
structure Numeric (now : Clock) : Prop where
  year : now.year.toList ≠ [] ∧ ∀ c ∈ now.year.toList, c.isDigit = true
  shortYear : now.shortYear.toList.length = 2 ∧ ∀ c ∈ now.shortYear.toList, c.isDigit = true
  month : now.month.toList.length = 2 ∧ ∀ c ∈ now.month.toList, c.isDigit = true
  day : now.day.toList.length = 2 ∧ ∀ c ∈ now.day.toList, c.isDigit = true

section Expand

variable {now later : Clock}

lemma expandChars_alike (h : Numeric now) (h' : Numeric later)
    (hwidth : now.year.toList.length = later.year.toList.length) (cs : List Char) :
    Alike (expandChars now cs) (expandChars later cs) := by
  apply fill_alike isPlaceholder_day
    (alike_of_digits (h.day.1.trans h'.day.1.symm) h.day.2 h'.day.2)
  apply fill_alike isPlaceholder_month
    (alike_of_digits (h.month.1.trans h'.month.1.symm) h.month.2 h'.month.2)
  apply fill_alike isPlaceholder_shortYear
    (alike_of_digits (h.shortYear.1.trans h'.shortYear.1.symm) h.shortYear.2 h'.shortYear.2)
  apply fill_alike isPlaceholder_year (alike_of_digits hwidth h.year.2 h'.year.2)
  exact Alike.refl cs

lemma expandChars_year (h : Numeric now) (a b : List Char) :
    expandChars now (a ++ yearToken ++ b) =
      expandChars now a ++ now.year.toList ++ expandChars now b := by
  unfold expandChars
  rw [fill_own isPlaceholder_year, fill_digits isPlaceholder_shortYear h.year.1 h.year.2,
    fill_digits isPlaceholder_month h.year.1 h.year.2,
    fill_digits isPlaceholder_day h.year.1 h.year.2]

lemma expandChars_month (h : Numeric now) (a b : List Char) :
    expandChars now (a ++ monthToken ++ b) =
      expandChars now a ++ now.month.toList ++ expandChars now b := by
  have hne : now.month.toList ≠ [] := by
    intro hnil
    have hlen := h.month.1
    rw [hnil] at hlen
    cases hlen
  unfold expandChars
  rw [fill_other isPlaceholder_year isPlaceholder_month (fun _ => rfl),
    fill_other isPlaceholder_shortYear isPlaceholder_month (fun _ => rfl),
    fill_own isPlaceholder_month, fill_digits isPlaceholder_day hne h.month.2]

lemma expandChars_slash (now : Clock) (cs : List Char) :
    expandChars now (cs ++ ['/']) = expandChars now cs ++ ['/'] := by
  unfold expandChars
  rw [fill_snoc isPlaceholder_year (by decide) (by decide),
    fill_snoc isPlaceholder_shortYear (by decide) (by decide),
    fill_snoc isPlaceholder_month (by decide) (by decide),
    fill_snoc isPlaceholder_day (by decide) (by decide)]

/-- Two texts that a prefix or suffix becomes show the same year and month,
where they show one. -/
lemma eq_of_expand_eq (h : Numeric now) (h' : Numeric later)
    (hwidth : now.year.toList.length = later.year.toList.length) {s : String}
    (heq : expand now s = expand later s) :
    (yearToken <:+: s.toList → now.year = later.year) ∧
      (monthToken <:+: s.toList → now.month = later.month) := by
  have hchars : expandChars now s.toList = expandChars later s.toList := by
    rw [← toList_expand, ← toList_expand, heq]
  have hlen : ∀ cs, (expandChars now cs).length = (expandChars later cs).length :=
    fun cs => (expandChars_alike h h' hwidth cs).length_eq
  constructor
  · rintro ⟨a, b, hab⟩
    rw [← hab, expandChars_year h, expandChars_year h', append_assoc, append_assoc] at hchars
    obtain ⟨-, hrest⟩ := append_inj hchars (hlen a)
    obtain ⟨hyear, -⟩ := append_inj hrest hwidth
    exact String.toList_inj.mp hyear
  · rintro ⟨a, b, hab⟩
    rw [← hab, expandChars_month h, expandChars_month h', append_assoc, append_assoc] at hchars
    obtain ⟨-, hrest⟩ := append_inj hchars (hlen a)
    obtain ⟨hmonth, -⟩ := append_inj hrest (h.month.1.trans h'.month.1.symm)
    exact String.toList_inj.mp hmonth

end Expand

/-! ### Numbers -/

lemma toList_padded (padding : ℕ) {n : ℤ} (hn : 0 ≤ n) : (padded padding n).toList =
      replicate (padding - (toString n).length) '0' ++ toDigits 10 n.toNat := by
  obtain ⟨k, rfl⟩ := Int.eq_ofNat_of_zero_le hn
  rw [padded, String.toList_append, String.toList_ofList]
  congr 1
  show (toString k).toList = _
  rw [toString_eq_repr, toList_repr]
  rfl

/-- A padded number can be read back: the zeros in front do not count. -/
lemma padded_injective (padding : ℕ) {n m : ℤ} (hn : 0 ≤ n) (hm : 0 ≤ m)
    (h : padded padding n = padded padding m) : n = m := by
  have hread : ∀ {k : ℤ}, 0 ≤ k → ofDigitChars 10 (padded padding k).toList 0 = k.toNat := by
    intro k hk
    rw [toList_padded padding hk, ofDigitChars_append, ofDigitChars_replicate_zero,
      Nat.mul_zero, ofDigitChars_toDigits]
    all_goals omega
  have heq : n.toNat = m.toNat := by
    rw [← hread hn, ← hread hm, h]
  omega

/-- **Reading a formatted number.**  Two equal texts have the same number, and
their prefixes and suffixes became the same. -/
theorem format_eq {now later : Clock} (h : Numeric now) (h' : Numeric later)
    (hwidth : now.year.toList.length = later.year.toList.length) {s s' : Sequence}
    (hpre : s.pre = s'.pre) (hsuffix : s.suffix = s'.suffix) (hpadding : s.padding = s'.padding)
    {n m : ℤ} (hn : 0 ≤ n) (hm : 0 ≤ m) (heq : format now s n = format later s' m) :
    n = m ∧ expand now s.pre = expand later s.pre ∧ expand now s.suffix = expand later s.suffix := by
  have hlen : ∀ t : String, (expand now t).toList.length = (expand later t).toList.length := by
    intro t
    rw [toList_expand, toList_expand]
    exact (expandChars_alike h h' hwidth t.toList).length_eq
  have hchars := congrArg String.toList heq
  rw [format, format, ← hpre, ← hsuffix, ← hpadding] at hchars
  simp only [String.toList_append, append_assoc] at hchars
  obtain ⟨hfirst, hrest⟩ := append_inj hchars (hlen s.pre)
  obtain ⟨hnum, hlast⟩ := append_inj' hrest (hlen s.suffix)
  exact ⟨padded_injective s.padding hn hm (String.toList_inj.mp hnum),
    String.toList_inj.mp hfirst, String.toList_inj.mp hlast⟩

end IrSequence

end CErp
