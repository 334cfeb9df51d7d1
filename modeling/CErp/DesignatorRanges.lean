/-
What the expansion of a range does to the text it is stored as.

A range is read from its two ends, so a prefix with a dash in it can make an
expanded designator look like a range of its own: `R1-R1..R1-R3` stands for
`R1-R1`, `R1-R2` and `R1-R3`, and the second of these for `R1` and `R2`
(`ReadsAgain`).

* `stable_iff`: the expanded text keeps its list when no entry is such a range;
* `expands_iff`: the forms of a range that are expanded as they are written.
-/
import CErp.DesignatorLoops
import Mathlib.Data.List.Infix

namespace CErp

open List Option

namespace Designators

open Decimals

/-- The expanded text is expanded to the list it was written from. -/
def Stable (s : List Char) : Prop := ∃ out, Yields s out ∧ Yields (joined out) out

/-- The common prefix of a range is a prefix and a number, a dash, and the same
prefix once more; the range has a number that a range from that number meets. -/
def ReadsAgain (t : List Char) : Prop :=
  ∃ pre na nb p d, rangeOf? t = some (pre, na, nb) ∧ '-' ∈ pre ∧
    numbered (trim (pre.takeWhile (· ≠ '-'))) = some (p, d) ∧
    (pre.dropWhile (· ≠ '-')).tail.dropWhile isTrimmed = p ∧ d ≤ nb ∧ na < d + 512

/-! ### Ends of a text -/

section Ends

variable {α : Type*} {p : α → Bool} {s t : List α}

lemma rdropWhile_append_of_all (h : ∀ c ∈ t, p c = true) :
    (s ++ t).rdropWhile p = s.rdropWhile p := by
  unfold rdropWhile
  rw [reverse_append, dropWhile_append_of_pos fun c hc => h c (mem_reverse.mp hc)]

lemma rtakeWhile_append_of_all (h : ∀ c ∈ t, p c = true) :
    (s ++ t).rtakeWhile p = s.rtakeWhile p ++ t := by
  unfold rtakeWhile
  rw [reverse_append, takeWhile_append_of_pos fun c hc => h c (mem_reverse.mp hc),
    reverse_append, reverse_reverse]

lemma dropWhile_append_of_head (h : ∀ c ∈ t.head?, p c = false) :
    (s ++ t).dropWhile p = s.dropWhile p ++ t := by
  have ht : t.dropWhile p = t := by
    cases t with
    | nil => rfl
    | cons c t => exact dropWhile_cons_of_neg (by simp [h c rfl])
  induction s with
  | nil => exact ht
  | cons c s ih =>
      rw [cons_append, dropWhile_cons, dropWhile_cons]
      split
      · exact ih
      · rfl

/-- What is taken off the front leaves a text that has none of it. -/
lemma infix_dropWhile {w : List α} (hw : ∀ c ∈ w, p c = false) (h : w <:+: s) :
    w <:+: s.dropWhile p := by
  induction s with
  | nil => exact h
  | cons c s ih =>
      rw [dropWhile_cons]
      split
      · next hc =>
          rcases infix_cons_iff.mp h with hpre | hin
          · cases w with
            | nil => exact nil_infix
            | cons d w =>
                obtain ⟨rfl, -⟩ := cons_prefix_cons.mp hpre
                rw [hw d mem_cons_self] at hc
                cases hc
          · exact ih hin
      · exact h

lemma infix_rdropWhile {w : List α} (hw : ∀ c ∈ w, p c = false) (h : w <:+: s) :
    w <:+: s.rdropWhile p := by
  have hrev : w.reverse <:+: s.reverse.dropWhile p :=
    infix_dropWhile (fun c hc => hw c (mem_reverse.mp hc)) (List.reverse_infix.mpr h)
  have hback := List.reverse_infix.mpr hrev
  rw [reverse_reverse] at hback
  exact hback

end Ends

/-- The characters a range is split at. -/
structure IsMark (w : List Char) : Prop where
  untrimmed : ∀ c ∈ w, isTrimmed c = false
  undigit : ∀ c ∈ w, c.isDigit = false

lemma isMark_dots : IsMark ['.', '.'] where
  untrimmed := by
    rw [forall_mem_cons, forall_mem_singleton]
    exact ⟨rfl, rfl⟩
  undigit := by
    rw [forall_mem_cons, forall_mem_singleton]
    exact ⟨rfl, rfl⟩

lemma isMark_dash : IsMark ['-'] where
  untrimmed := by
    rw [forall_mem_singleton]
    rfl
  undigit := by
    rw [forall_mem_singleton]
    rfl

variable {s : List Char}

lemma IsMark.trim {w : List Char} (hw : IsMark w) (h : w <:+: s) : w <:+: Designators.trim s :=
  infix_rdropWhile hw.untrimmed (infix_dropWhile hw.untrimmed h)

lemma infix_of_trim (s : List Char) : trim s <:+: s :=
  (List.rdropWhile_prefix _ _).isInfix.trans (dropWhile_suffix _).isInfix

variable {ds : List Char}

/-- A number at the end keeps what is before it. -/
lemma trim_append_digits (hne : ds ≠ []) (hds : AllDigits ds) :
    trim (s ++ ds) = s.dropWhile isTrimmed ++ ds := by
  have hhead : ∀ c ∈ ds.head?, isTrimmed c = false := fun c hc =>
    (digit_kept (hds c (mem_of_mem_head? hc))).2
  unfold trim
  rw [dropWhile_append_of_head hhead, rdropWhile_eq_self_iff]
  intro hnil
  rw [getLast_append_of_ne_nil hnil hne]
  exact Bool.not_eq_true _ ▸ (digit_kept (hds _ (getLast_mem hne))).2

/-! ### Dots -/

lemma findDots_eq_none_iff (s : List Char) : findDots s = none ↔ ¬ ['.', '.'] <:+: s := by
  induction s with
  | nil => simp [findDots]
  | cons c s ih =>
      rw [infix_cons_iff]
      unfold findDots
      split
      · next rest heq =>
          rw [heq]
          simp
      · next c' rest hnot heq =>
          cases heq
          have hpre : ¬ ['.', '.'] <+: c :: s := by
            rintro ⟨rest, hrest⟩
            obtain ⟨hc, hs⟩ := List.cons.inj hrest
            exact hnot rest hc.symm hs.symm
          rw [map_eq_none_iff, ih, not_or]
          exact ⟨fun h => ⟨hpre, h⟩, fun h => h.2⟩
      · next heq => cases heq

/-- What stands before the first dots has none. -/
lemma findDots_fst {a b : List Char} (h : findDots s = some (a, b)) : ¬ ['.', '.'] <:+: a := by
  induction s generalizing a with
  | nil => cases h
  | cons c s ih =>
      unfold findDots at h
      split at h
      · cases h
        simp
      · next c' rest hnot heq =>
          cases heq
          obtain ⟨⟨a', b'⟩, hfound, hends⟩ := map_eq_some_iff.mp h
          cases hends
          rw [infix_cons_iff, not_or]
          refine ⟨?_, ih hfound⟩
          rintro ⟨rest, hrest⟩
          obtain ⟨hc, hs⟩ := List.cons.inj hrest
          refine hnot (rest ++ '.' :: '.' :: b') hc.symm ?_
          have hs : a' = '.' :: rest := hs.symm
          rw [findDots_eq hfound, hs]
          rfl
      · next heq => cases heq

lemma findDots_append {a b : List Char} (h : findDots s = some (a, b)) (rest : List Char) :
    findDots (s ++ rest) = some (a, b ++ rest) := by
  induction s generalizing a with
  | nil => cases h
  | cons c s ih =>
      unfold findDots at h
      split at h
      · next rest' heq =>
          cases h
          rw [heq]
          rfl
      · next c' rest' hnot heq =>
          cases heq
          obtain ⟨⟨a', b'⟩, hfound, hends⟩ := map_eq_some_iff.mp h
          cases hends
          rw [cons_append]
          unfold findDots
          split
          · next rest'' heq =>
              -- the second dot would be in the text already
              cases s with
              | nil => cases hfound
              | cons d s =>
                  cases heq
                  exact absurd rfl (hnot s rfl)
          · next c'' rest'' _ heq =>
              cases heq
              rw [ih hfound]
              rfl
          · next heq => cases heq
      · next heq => cases heq

/-- The first dots of a text with dots put in. -/
lemma findDots_dots {u : List Char} (hu : ¬ ['.', '.'] <:+: u) (hlast : u.getLast? ≠ some '.')
    (v : List Char) : findDots (u ++ '.' :: '.' :: v) = some (u, v) := by
  induction u with
  | nil => rfl
  | cons c u ih =>
      rw [infix_cons_iff, not_or] at hu
      have hlast' : u.getLast? ≠ some '.' := by
        cases u with
        | nil => simp
        | cons d u => simpa using hlast
      rw [cons_append]
      unfold findDots
      split
      · next rest heq =>
          cases u with
          | nil =>
              cases heq
              exact absurd rfl hlast
          | cons d u =>
              cases heq
              exact absurd ⟨u, rfl⟩ hu.1
      · next c' rest _ heq =>
          cases heq
          rw [ih hu.2 hlast']
          rfl
      · next heq => cases heq

/-! ### Numbers -/

/-- The number at the end of a text, and the digits of the text before it that
are read with it. -/
lemma numbered_append (hne : ds ≠ []) (hds : AllDigits ds) :
    numbered (s ++ ds) = if 2 ^ 63 ≤ value (s.rtakeWhile (·.isDigit) ++ ds) then none
      else some (s.rdropWhile (·.isDigit), value (s.rtakeWhile (·.isDigit) ++ ds)) := by
  have hall : AllDigits (s.rtakeWhile (·.isDigit) ++ ds) := by
    intro c hc
    rcases mem_append.mp hc with hc | hc
    · exact mem_rtakeWhile_imp hc
    · exact hds c hc
  have hnil : s.rtakeWhile (·.isDigit) ++ ds ≠ [] := append_ne_nil_of_right_ne_nil _ hne
  unfold numbered
  dsimp only
  rw [rtakeWhile_append_of_all hds, rdropWhile_append_of_all hds, Text.digitsValue_eq hall,
    Int.toNat_natCast]
  simp only [hnil, false_or]

variable {pre : List Char}

/-- The prefix of a number does not end in a digit. -/
lemma prefix_of_numbered {n : ℕ} (h : numbered s = some (pre, n)) :
    pre.rtakeWhile (·.isDigit) = [] ∧ pre <+: s := by
  rw [numbered_eq h]
  exact ⟨by rw [rtakeWhile_eq_nil_iff]; exact rdropWhile_last_not _ _, List.rdropWhile_prefix _ _⟩

variable {t : List Char}

/-- A mark that only the second end has keeps the ends apart. -/
lemma rangeOf?_eq_none {a b w : List Char} (hends : rangeEnds t = some (trim a, trim b))
    (hw : IsMark w) (ha : ¬ w <:+: a) (hb : w <:+: b) : rangeOf? t = none := by
  unfold rangeOf?
  rw [hends]
  dsimp only
  split
  · next pa na pb nb hna hnb =>
      refine if_neg ?_
      rintro ⟨rfl, -⟩
      have hpa : pa <:+: a := (prefix_of_numbered hna).2.isInfix.trans (infix_of_trim a)
      rw [numbered_eq hnb] at hpa
      exact ha ((infix_rdropWhile hw.undigit (hw.trim hb)).trans hpa)
  · rfl

/-! ### Stability -/

/-- The ends of a text whose only possible separator is a dash. -/
lemma rangeEnds_dash (hdots : ¬ ['.', '.'] <:+: t) : rangeEnds t =
      if t.takeWhile (· ≠ '-') = [] ∨ (t.dropWhile (· ≠ '-')).tail = [] then none
      else some (trim (t.takeWhile (· ≠ '-')), trim (t.dropWhile (· ≠ '-')).tail) := by
  unfold rangeEnds
  rw [(findDots_eq_none_iff t).mpr hdots]
  rfl

lemma takeWhile_dash_of_not_mem (h : '-' ∉ s) (t : List Char) :
    (s ++ t).takeWhile (· ≠ '-') = s ++ t.takeWhile (· ≠ '-') ∧
      (s ++ t).dropWhile (· ≠ '-') = t.dropWhile (· ≠ '-') := by
  have hall : ∀ c ∈ s, (decide (c ≠ '-')) = true := by
    intro c hc
    refine decide_eq_true ?_
    rintro rfl
    exact h hc
  exact ⟨takeWhile_append_of_pos hall, dropWhile_append_of_pos hall⟩

/-- A text with a dash, taken apart at the first one. -/
lemma exists_first_dash (h : '-' ∈ s) :
    ∃ x y, s = x ++ '-' :: y ∧ '-' ∉ x ∧ s.takeWhile (· ≠ '-') = x ∧
      (s.dropWhile (· ≠ '-')).tail = y := by
  obtain ⟨x, y, rfl, hx⟩ := eq_append_cons_of_mem h
  obtain ⟨htake, hdrop⟩ := takeWhile_dash_of_not_mem hx ('-' :: y)
  refine ⟨x, y, rfl, hx, ?_, ?_⟩
  · rw [htake]
    exact append_nil x
  · rw [hdrop]
    rfl

lemma toString_toList (n : ℕ) : (toString n).toList = Nat.toDigits 10 n := by
  rw [Nat.toString_eq_repr, Nat.toList_repr]

/-- A mark in a text with digits at its end is in the text before them. -/
lemma dots_of_append_digits (hds : AllDigits ds) (h : ['.', '.'] <:+: s ++ ds) :
    ['.', '.'] <:+: s := by
  have hstrip : ['.', '.'] <:+: (s ++ ds).rdropWhile (·.isDigit) :=
    infix_rdropWhile isMark_dots.undigit h
  rw [rdropWhile_append_of_all hds] at hstrip
  exact hstrip.trans (List.rdropWhile_prefix _ _).isInfix

lemma dots_of_append_cons {c : Char} (hc : c ≠ '.') (h : ['.', '.'] <:+: s ++ c :: t) :
    ['.', '.'] <:+: s ∨ ['.', '.'] <:+: t := by
  induction s with
  | nil =>
      rcases infix_cons_iff.mp h with hpre | hin
      · exact absurd (cons_prefix_cons.mp hpre).1.symm hc
      · exact .inr hin
  | cons a s ih =>
      rcases infix_cons_iff.mp h with hpre | hin
      · obtain ⟨rfl, hrest⟩ := cons_prefix_cons.mp hpre
        cases s with
        | nil => exact absurd (cons_prefix_cons.mp hrest).1.symm hc
        | cons b s =>
            obtain ⟨rfl, -⟩ := cons_prefix_cons.mp hrest
            exact .inl ⟨[], s, rfl⟩
      · exact (ih hin).imp_left infix_cons

lemma rdropWhile_of_rtakeWhile_nil (h : s.rtakeWhile (·.isDigit) = []) :
    s.rdropWhile (·.isDigit) = s := by
  have hsplit := rdropWhile_append_rtakeWhile (l := s) (p := (·.isDigit))
  rw [h, append_nil] at hsplit
  exact hsplit

/-- When a prefix and a number look like a range. -/
lemma rangeOf?_numbered_iff {n : ℕ} (hdots : ¬ ['.', '.'] <:+: pre)
    (hend : pre.rtakeWhile (·.isDigit) = []) (hn : n < 2 ^ 63) :
    (∃ r, rangeOf? (pre ++ (toString n).toList) = some r) ↔ '-' ∈ pre ∧
      ∃ p d, numbered (trim (pre.takeWhile (· ≠ '-'))) = some (p, d) ∧
        (pre.dropWhile (· ≠ '-')).tail.dropWhile isTrimmed = p ∧ d ≤ n ∧ n < d + 512 := by
  have hds := allDigits_toDigits n
  have hne : Nat.toDigits 10 n ≠ [] := Nat.toDigits_ne_nil
  have hnodots : ¬ ['.', '.'] <:+: pre ++ Nat.toDigits 10 n := fun h =>
    hdots (dots_of_append_digits hds h)
  rw [toString_toList]
  by_cases hdash : '-' ∈ pre
  · obtain ⟨x, y, rfl, hx, htake, htail⟩ := exists_first_dash hdash
    have htake' : ((x ++ '-' :: y) ++ Nat.toDigits 10 n).takeWhile (· ≠ '-') = x := by
      rw [append_assoc, (takeWhile_dash_of_not_mem hx _).1]
      exact append_nil x
    have htail' : (((x ++ '-' :: y) ++ Nat.toDigits 10 n).dropWhile (· ≠ '-')).tail =
        y ++ Nat.toDigits 10 n := by
      rw [append_assoc, (takeWhile_dash_of_not_mem hx _).2]
      rfl
    -- what the trimmed second end is read as
    have hy : (y.dropWhile isTrimmed).rtakeWhile (·.isDigit) = [] := by
      rw [rtakeWhile_eq_nil_iff] at hend ⊢
      intro hnil
      obtain ⟨pre', hpre'⟩ := dropWhile_suffix isTrimmed (l := y)
      have hy : y ≠ [] := by
        rintro rfl
        exact hnil rfl
      have hlast : (x ++ '-' :: y).getLast (by simp) = (y.dropWhile isTrimmed).getLast hnil := by
        rw [getLast_append_of_ne_nil (by simp) (by simp), getLast_cons hy]
        have hsplit : y.getLast hy = (pre' ++ y.dropWhile isTrimmed).getLast (by simp [hnil]) := by
          congr 1
          exact hpre'.symm
        rw [hsplit, getLast_append_of_ne_nil _ hnil]
      rw [← hlast]
      exact hend (by simp)
    have hsnd : numbered (trim (y ++ Nat.toDigits 10 n)) = some (y.dropWhile isTrimmed, n) := by
      rw [trim_append_digits hne hds, numbered_append hne hds, hy, nil_append,
        value_toDigits, if_neg (Nat.not_le.mpr hn), rdropWhile_of_rtakeWhile_nil hy]
    have hempty : y ++ Nat.toDigits 10 n ≠ [] := append_ne_nil_of_right_ne_nil _ hne
    rw [htake, htail]
    unfold rangeOf?
    rw [rangeEnds_dash hnodots, htake', htail']
    simp only [hempty, or_false]
    by_cases hx0 : x = []
    · subst hx0
      have hnum : numbered (trim []) = none := by decide
      simp [hnum]
    · rw [if_neg hx0]
      dsimp only
      rw [hsnd]
      rcases hfst : numbered (trim x) with - | ⟨p, d⟩
      · simp
      · dsimp only
        constructor
        · rintro ⟨r, hr⟩
          split at hr
          · next hcond => exact ⟨hdash, p, d, rfl, hcond.1.symm, hcond.2.1, by omega⟩
          · cases hr
        · rintro ⟨-, p', d', heq, hp, hle, hlt⟩
          cases heq
          exact ⟨_, if_pos ⟨hp.symm, hle, by omega⟩⟩
  · -- no separator at all
    have hnotin : '-' ∉ pre ++ Nat.toDigits 10 n := by
      intro h
      rcases mem_append.mp h with h | h
      · exact hdash h
      · exact absurd (hds _ h) (by decide)
    have hdrop := (takeWhile_dash_of_not_mem hnotin []).2
    rw [append_nil] at hdrop
    have hends : rangeEnds (pre ++ Nat.toDigits 10 n) = none := by
      rw [rangeEnds_dash hnodots, hdrop]
      exact if_pos (.inr rfl)
    constructor
    · rintro ⟨r, hr⟩
      unfold rangeOf? at hr
      rw [hends] at hr
      cases hr
    · rintro ⟨h, -⟩
      exact absurd h hdash

/-- The prefix of a range. -/
lemma rangeOf?_common {na nb : ℕ} (h : rangeOf? t = some (pre, na, nb)) :
    ¬ ['.', '.'] <:+: pre ∧ pre.rtakeWhile (·.isDigit) = [] := by
  obtain ⟨-, -, -, a, b, hends, hna, -⟩ := rangeOf?_spec h
  obtain ⟨hdigits, hpre⟩ := prefix_of_numbered hna
  refine ⟨?_, hdigits⟩
  intro hdots
  have ha : ['.', '.'] <:+: a := hdots.trans hpre.isInfix
  unfold rangeEnds at hends
  dsimp only at hends
  split at hends
  · cases hends
  · cases hends
    rcases hfound : findDots t with - | ⟨u, v⟩
    · rw [hfound] at ha
      have hsub := (ha.trans (infix_of_trim _)).trans (List.takeWhile_prefix _).isInfix
      exact (findDots_eq_none_iff t).mp hfound hsub
    · rw [hfound] at ha
      exact findDots_fst hfound (ha.trans (infix_of_trim _))

lemma numbered_spec {n : ℕ} (h : numbered s = some (pre, n)) :
    ∃ ds, s = pre ++ ds ∧ ds ≠ [] ∧ AllDigits ds ∧ value ds = n := by
  have hall : AllDigits (s.rtakeWhile (·.isDigit)) := fun c hc => mem_rtakeWhile_imp hc
  refine ⟨s.rtakeWhile (·.isDigit), ?_, ?_, hall, ?_⟩
  · rw [numbered_eq h]
    exact (rdropWhile_append_rtakeWhile (l := s)).symm
  · unfold numbered at h
    dsimp only at h
    split at h
    · cases h
    · next hnot => exact fun hnil => hnot (.inl hnil)
  · unfold numbered at h
    dsimp only at h
    split at h
    · cases h
    · cases h
      rw [Text.digitsValue_eq hall, Int.toNat_natCast]

/-- The first designator of a range is shorter than the range. -/
lemma length_first_lt {na nb : ℕ} (h : rangeOf? t = some (pre, na, nb)) :
    (pre ++ (toString na).toList).length < t.length := by
  obtain ⟨-, -, -, a, b, hends, hna, -⟩ := rangeOf?_spec h
  obtain ⟨ds, rfl, hne, hds, hvalue⟩ := numbered_spec hna
  have hshort : (pre ++ (toString na).toList).length ≤ (pre ++ ds).length := by
    rw [toString_toList, ← hvalue, length_append, length_append]
    exact Nat.add_le_add_left (length_toDigits_value_le hds hne) _
  refine lt_of_le_of_lt hshort ?_
  -- the first end is a part of the text, and there is a separator besides
  unfold rangeEnds at hends
  dsimp only at hends
  split at hends
  · cases hends
  · next hnot =>
      obtain ⟨ha, -⟩ := Prod.mk.inj (some.inj hends)
      rw [← ha]
      refine lt_of_le_of_lt (infix_of_trim _).length_le ?_
      rcases hfound : findDots t with - | ⟨u, v⟩
      · rw [hfound] at hnot
        have hlen := congrArg length (takeWhile_append_dropWhile (p := (· ≠ '-')) (l := t))
        have hrest : 0 < (t.dropWhile (· ≠ '-')).length := by
          rw [length_pos_iff]
          intro hnil
          exact hnot (.inr (congrArg tail hnil))
        rw [length_append] at hlen
        exact Nat.lt_of_lt_of_eq (Nat.lt_add_of_pos_right hrest) hlen
      · rw [findDots_eq hfound, length_append]
        exact Nat.lt_add_of_pos_right (Nat.succ_pos _)

lemma expand_of_none {d : List Char} (h : rangeOf? d = none) : expand d = [d] := by
  unfold expand
  rw [range?_eq, h]
  rfl

lemma expand_of_some {d : List Char} {na nb : ℕ} (h : rangeOf? d = some (pre, na, nb)) :
    expand d = (range' na (nb - na + 1)).map fun n => pre ++ (toString n).toList := by
  unfold expand
  rw [range?_eq, h]
  rfl

/-- An entry is expanded to itself exactly when it is no range. -/
lemma expand_eq_self_iff {d : List Char} : expand d = [d] ↔ rangeOf? d = none := by
  rcases hrange : rangeOf? d with - | ⟨pre, na, nb⟩
  · exact iff_of_true (expand_of_none hrange) rfl
  · refine iff_of_false ?_ (some_ne_none _)
    intro h
    rw [expand_of_some hrange, range'_succ, map_cons, List.cons.injEq] at h
    exact absurd (congrArg length h.1) (ne_of_lt (length_first_lt hrange))

/-- Entries that are expanded to themselves one by one. -/
lemma flatMap_expand_eq_self_iff {des : List (List Char)} :
    des.flatMap expand = des ↔ ∀ d ∈ des, expand d = [d] := by
  have hge : ∀ des : List (List Char), des.length ≤ (des.flatMap expand).length := by
    intro des
    induction des with
    | nil => exact le_rfl
    | cons d des ih =>
        rw [flatMap_cons, length_append, length_cons, Nat.add_comm]
        exact Nat.add_le_add (length_pos_iff.mpr (expand_ne_nil d)) ih
  constructor
  · intro h
    induction des with
    | nil => simp
    | cons d des ih =>
        rw [flatMap_cons] at h
        -- each entry takes at least its own place, so no entry takes more
        have hlen := congrArg length h
        rw [length_append, length_cons] at hlen
        have hrest := hge des
        have hone : 0 < (expand d).length := length_pos_iff.mpr (expand_ne_nil d)
        obtain ⟨e, he⟩ := length_eq_one_iff.mp (show (expand d).length = 1 by omega)
        rw [he, singleton_append, List.cons.injEq] at h
        rw [forall_mem_cons, he, h.1]
        exact ⟨rfl, ih h.2⟩
  · intro h
    induction des with
    | nil => rfl
    | cons d des ih =>
        rw [forall_mem_cons] at h
        rw [flatMap_cons, h.1, ih h.2]
        rfl

/-- The designators of a range that does not read again are no ranges. -/
lemma readsAgain_iff :
    ReadsAgain t ↔ ∃ d ∈ expand t, ∃ r, rangeOf? t ≠ none ∧ rangeOf? d = some r := by
  rcases hrange : rangeOf? t with - | ⟨pre, na, nb⟩
  · simp [ReadsAgain, hrange]
  · obtain ⟨hle, -, hlt, -⟩ := rangeOf?_spec hrange
    obtain ⟨hdots, hend⟩ := rangeOf?_common hrange
    rw [expand_of_some hrange]
    constructor
    · rintro ⟨pre', na', nb', p, d, heq, hdash, hnum, htail, hd, hdn⟩
      rw [hrange] at heq
      cases heq
      -- the larger of the two first numbers is in the range
      have hmem : max na d ∈ range' na (nb - na + 1) := by
        rw [mem_range'_1]
        omega
      refine ⟨_, List.mem_map_of_mem hmem, ?_⟩
      obtain ⟨r, hr⟩ := (rangeOf?_numbered_iff hdots hend (n := max na d) (by omega)).mpr
        ⟨hdash, p, d, hnum, htail, by omega, by omega⟩
      exact ⟨r, some_ne_none _, hr⟩
    · rintro ⟨e, he, r, -, hr⟩
      obtain ⟨n, hn, rfl⟩ := List.mem_map.mp he
      rw [mem_range'_1] at hn
      obtain ⟨hdash, p, d, hnum, htail, hd, hdn⟩ :=
        (rangeOf?_numbered_iff hdots hend (n := n) (by omega)).mp ⟨r, hr⟩
      exact ⟨pre, na, nb, p, d, hrange, hdash, hnum, htail, by omega, by omega⟩

/-- **When an expanded text keeps its list.** -/
theorem stable_iff (s : List Char) :
    Stable s ↔ ∀ t ∈ listed s, ¬ EndsAtLast t ∧ ¬ ReadsAgain t := by
  have hjoined : listed (joined (splitDesignators s)) = splitDesignators s :=
    listed_joined fun d hd => splitDesignators_isEntry hd
  -- one expansion after the other
  have hstable : Stable s ↔ (∀ t ∈ listed s, ¬ EndsAtLast t) ∧
      ∀ d ∈ splitDesignators s, rangeOf? d = none := by
    unfold Stable
    simp only [yields_iff]
    constructor
    · rintro ⟨out, ⟨rfl, hends⟩, hagain, -⟩
      refine ⟨hends, ?_⟩
      have hself : (splitDesignators s).flatMap expand = splitDesignators s := by
        have hsplit : splitDesignators (joined (splitDesignators s)) =
            (listed (joined (splitDesignators s))).flatMap expand := rfl
        rw [hjoined] at hsplit
        rw [← hsplit]
        exact hagain.symm
      exact fun d hd => expand_eq_self_iff.mp (flatMap_expand_eq_self_iff.mp hself d hd)
    · rintro ⟨hends, hnone⟩
      refine ⟨_, ⟨rfl, hends⟩, ?_, ?_⟩
      · have hself := flatMap_expand_eq_self_iff.mpr fun d hd => expand_eq_self_iff.mpr (hnone d hd)
        show splitDesignators s = (listed (joined (splitDesignators s))).flatMap expand
        rw [hjoined]
        exact hself.symm
      · rw [hjoined]
        rintro d hd ⟨pa, na, hrange⟩
        rw [hnone d hd] at hrange
        cases hrange
  rw [hstable, forall₂_and]
  refine and_congr_right fun _ => ?_
  constructor
  · rintro h t ht hagain
    obtain ⟨d, hd, r, -, hr⟩ := readsAgain_iff.mp hagain
    rw [h d (mem_flatMap.mpr ⟨t, ht, hd⟩)] at hr
    cases hr
  · intro h d hd
    obtain ⟨t, ht, hdt⟩ := mem_flatMap.mp hd
    rcases hrange : rangeOf? t with - | r
    · rw [expand_of_none hrange, mem_singleton] at hdt
      rw [hdt]
      exact hrange
    · by_contra hsome
      obtain ⟨r', hr'⟩ := ne_none_iff_exists'.mp hsome
      refine h t ht (readsAgain_iff.mpr ⟨d, hdt, r', ?_, hr'⟩)
      rw [hrange]
      exact some_ne_none r

/-! ### Ranges as they are written -/

/-- What stands between the two ends. -/
inductive RangeSign where
  | dash
  | dots
deriving DecidableEq

def RangeSign.text : RangeSign → List Char
  | .dash => ['-']
  | .dots => ['.', '.']

/-- A prefix and a first and a last number, fewer than 512 apart. -/
structure RangeToken where
  sign : RangeSign
  pre : List Char
  first : List Char
  last : List Char
  unbroken : ∀ c ∈ pre, isSeparator c = false
  first_ne : first ≠ []
  first_digits : AllDigits first
  last_ne : last ≠ []
  last_digits : AllDigits last
  le : value first ≤ value last
  lt : value last < value first + 512

namespace RangeToken

variable (r : RangeToken)

/-- `pre first - pre last`. -/
def text : List Char := r.pre ++ r.first ++ (r.sign.text ++ (r.pre ++ r.last))

/-- The prefix without the quotes before it. -/
def name : List Char := r.pre.dropWhile isTrimmed

/-- One designator for each number. -/
def designators : List (List Char) :=
  (range' (value r.first) (value r.last - value r.first + 1)).map fun n =>
    r.name ++ (toString n).toList

/-- The digits the prefix ends in, which are read with the numbers. -/
def lead : List Char := r.name.rtakeWhile (·.isDigit)

/-- The form is one the expansion reads: no second sign in the prefix, numbers
below the last `long`, and digits at the end of the prefix only where they go
before numbers of one length. -/
structure Plain : Prop where
  dots : ¬ ['.', '.'] <:+: r.pre
  dash : r.sign = .dash → '-' ∉ r.pre
  bound : value (r.lead ++ r.last) + 1 < 2 ^ 63
  fold : r.lead = [] ∨ (r.lead.head? ≠ some '0' ∧ r.first.length = r.last.length ∧
    Nat.toDigits 10 (value r.first) = r.first ∧ Nat.toDigits 10 (value r.last) = r.last)

variable {r}

/-- The text as an entry. -/
def entry (r : RangeToken) : List Char := r.name ++ r.first ++ (r.sign.text ++ (r.pre ++ r.last))

lemma trim_text : trim r.text = r.entry := by
  have hsplit : r.text = (r.pre ++ r.first ++ (r.sign.text ++ r.pre)) ++ r.last := by
    simp [text]
  have hhead : ∀ c ∈ (r.first ++ (r.sign.text ++ r.pre)).head?, isTrimmed c = false := by
    intro c hc
    rw [head?_append_of_ne_nil _ r.first_ne] at hc
    exact (digit_kept (r.first_digits c (mem_of_mem_head? hc))).2
  rw [hsplit, trim_append_digits r.last_ne r.last_digits, append_assoc,
    dropWhile_append_of_head hhead]
  simp [entry, name]

lemma listed_text : listed r.text = [r.entry] := by
  have hsep : ∀ c ∈ r.text, isSeparator c = false := by
    intro c hc
    simp only [text, mem_append] at hc
    rcases hc with (hc | hc) | hc | hc | hc
    · exact r.unbroken c hc
    · exact (digit_kept (r.first_digits c hc)).1
    · cases hsign : r.sign with
      | dash =>
          rw [hsign] at hc
          obtain rfl := mem_singleton.mp hc
          rfl
      | dots =>
          rw [hsign] at hc
          obtain rfl : c = '.' := by simpa [RangeSign.text] using hc
          rfl
    · exact r.unbroken c hc
    · exact (digit_kept (r.last_digits c hc)).1
  have hne : r.entry ≠ [] := by
    unfold entry
    simp [r.first_ne]
  unfold listed
  rw [splitOnP_eq_singleton hsep, map_singleton, trim_text, filter_singleton]
  simp [hne]

/-- A mark in the prefix is in the name. -/
lemma mark_name {w : List Char} (hw : IsMark w) (h : w <:+: r.pre) : w <:+: r.name :=
  infix_dropWhile hw.untrimmed h

/-- What is read of an entry of a plain form. -/
lemma rangeOf?_entry (hdots : ¬ ['.', '.'] <:+: r.pre) (hdash : r.sign = .dash → '-' ∉ r.pre) :
    rangeOf? r.entry = if value (r.lead ++ r.first) < 2 ^ 63 ∧ value (r.lead ++ r.last) < 2 ^ 63 ∧
        value (r.lead ++ r.first) ≤ value (r.lead ++ r.last) ∧
        value (r.lead ++ r.last) - value (r.lead ++ r.first) < 512 then
      some (r.name.rdropWhile (·.isDigit), value (r.lead ++ r.first), value (r.lead ++ r.last))
    else none := by
  have hname : ¬ ['.', '.'] <:+: r.name := fun h =>
    hdots (h.trans (dropWhile_suffix _).isInfix)
  have hfst : trim (r.name ++ r.first) = r.name ++ r.first := by
    rw [trim_append_digits r.first_ne r.first_digits]
    unfold name
    rw [dropWhile_idempotent]
  have hsnd : trim (r.pre ++ r.last) = r.name ++ r.last :=
    trim_append_digits r.last_ne r.last_digits
  have hends : rangeEnds r.entry = some (r.name ++ r.first, r.name ++ r.last) := by
    have hne₁ : r.name ++ r.first ≠ [] := append_ne_nil_of_right_ne_nil _ r.first_ne
    have hne₂ : r.pre ++ r.last ≠ [] := append_ne_nil_of_right_ne_nil _ r.last_ne
    have hdots₁ : ¬ ['.', '.'] <:+: r.name ++ r.first := fun h =>
      hname (dots_of_append_digits r.first_digits h)
    cases hsign : r.sign with
    | dots =>
        have hlast : (r.name ++ r.first).getLast? ≠ some '.' := by
          rw [getLast?_append_of_ne_nil _ r.first_ne]
          intro h
          exact absurd (r.first_digits _ (mem_of_mem_getLast? h)) (by decide)
        have hentry : r.entry = (r.name ++ r.first) ++ '.' :: '.' :: (r.pre ++ r.last) := by
          simp [entry, hsign, RangeSign.text]
        unfold rangeEnds
        rw [hentry, findDots_dots hdots₁ hlast]
        dsimp only [getD_some]
        rw [if_neg (by simp [hne₁, hne₂]), hfst, hsnd]
    | dash =>
        have hentry : r.entry = (r.name ++ r.first) ++ '-' :: (r.pre ++ r.last) := by
          simp [entry, hsign, RangeSign.text]
        have hnot : '-' ∉ r.name ++ r.first := by
          intro h
          rcases mem_append.mp h with h | h
          · exact hdash hsign ((dropWhile_suffix _).subset h)
          · exact absurd (r.first_digits _ h) (by decide)
        have hdots₂ : ¬ ['.', '.'] <:+: r.pre ++ r.last := fun h =>
          hdots (dots_of_append_digits r.last_digits h)
        have hdotsAll : ¬ ['.', '.'] <:+: (r.name ++ r.first) ++ '-' :: (r.pre ++ r.last) := by
          intro h
          rcases dots_of_append_cons (by decide) h with h | h
          · exact hdots₁ h
          · exact hdots₂ h
        rw [hentry, rangeEnds_dash hdotsAll, (takeWhile_dash_of_not_mem hnot _).1,
          (takeWhile_dash_of_not_mem hnot _).2]
        have htake : r.name ++ r.first ++ takeWhile (· ≠ '-') ('-' :: (r.pre ++ r.last)) =
            r.name ++ r.first := append_nil _
        have hdrop : (dropWhile (· ≠ '-') ('-' :: (r.pre ++ r.last))).tail =
            r.pre ++ r.last := rfl
        rw [htake, hdrop, if_neg (by simp [hne₁, hne₂]), hfst, hsnd]
  have hna : numbered (r.name ++ r.first) = if 2 ^ 63 ≤ value (r.lead ++ r.first) then none
      else some (r.name.rdropWhile (·.isDigit), value (r.lead ++ r.first)) :=
    numbered_append r.first_ne r.first_digits
  have hnb : numbered (r.name ++ r.last) = if 2 ^ 63 ≤ value (r.lead ++ r.last) then none
      else some (r.name.rdropWhile (·.isDigit), value (r.lead ++ r.last)) :=
    numbered_append r.last_ne r.last_digits
  unfold rangeOf?
  rw [hends]
  dsimp only
  rw [hna, hnb]
  by_cases ha : 2 ^ 63 ≤ value (r.lead ++ r.first)
  · rw [if_pos ha]
    exact (if_neg fun h => absurd h.1 (Nat.not_lt.mpr ha)).symm
  · rw [if_neg ha]
    by_cases hb : 2 ^ 63 ≤ value (r.lead ++ r.last)
    · rw [if_pos hb]
      exact (if_neg fun h => absurd h.2.1 (Nat.not_lt.mpr hb)).symm
    · rw [if_neg hb]
      simp only [Nat.not_le.mp ha, Nat.not_le.mp hb, true_and]

/-- A second sign in the prefix keeps the ends apart. -/
lemma rangeOf?_entry_of_mark (h : ['.', '.'] <:+: r.pre ∨ (r.sign = .dash ∧ '-' ∈ r.pre)) :
    rangeOf? r.entry = none := by
  by_cases hdots : ['.', '.'] <:+: r.pre
  · -- split at the dots of the first prefix, with those of the second behind
    obtain ⟨⟨a, b⟩, hfound⟩ : ∃ ends, findDots r.name = some ends := by
      rw [← ne_none_iff_exists', Ne, findDots_eq_none_iff, not_not]
      exact mark_name isMark_dots hdots
    have hentry := findDots_append hfound (r.first ++ (r.sign.text ++ (r.pre ++ r.last)))
    rw [← append_assoc] at hentry
    rcases hends : rangeEnds r.entry with - | ⟨a', b'⟩
    · unfold rangeOf?
      rw [hends]
    · refine rangeOf?_eq_none (w := ['.', '.']) (a := a)
        (b := b ++ (r.first ++ (r.sign.text ++ (r.pre ++ r.last)))) ?_ isMark_dots
        (findDots_fst hfound) ?_
      · have hcopy := hends
        unfold rangeEnds at hcopy
        rw [show findDots r.entry = _ from hentry] at hcopy
        dsimp only [getD_some] at hcopy
        split at hcopy
        · cases hcopy
        · rw [hends, ← hcopy]
      · obtain ⟨u, v, huv⟩ := hdots
        exact ⟨b ++ (r.first ++ (r.sign.text ++ u)), v ++ r.last, by simp [← huv]⟩
  · obtain ⟨hsign, hdash⟩ := h.resolve_left hdots
    have hentry : r.entry = (r.name ++ r.first) ++ '-' :: (r.pre ++ r.last) := by
      simp [entry, hsign, RangeSign.text]
    have hnodots : ¬ ['.', '.'] <:+: r.entry := by
      rw [hentry]
      intro hin
      rcases dots_of_append_cons (by decide) hin with hin | hin
      · exact hdots ((dots_of_append_digits r.first_digits hin).trans (dropWhile_suffix _).isInfix)
      · exact hdots (dots_of_append_digits r.last_digits hin)
    have hname : '-' ∈ r.name := (singleton_infix_iff _ _).mp
      (mark_name isMark_dash ((singleton_infix_iff _ _).mpr hdash))
    obtain ⟨x, y, hxy, hx, -, -⟩ := exists_first_dash hname
    have hend := rangeEnds_dash hnodots
    have hsplit : r.entry = x ++ '-' :: (y ++ r.first ++ '-' :: (r.pre ++ r.last)) := by
      simp [hentry, hxy]
    have htake : r.entry.takeWhile (· ≠ '-') = x := by
      rw [hsplit, (takeWhile_dash_of_not_mem hx _).1]
      exact append_nil x
    have hdrop : (r.entry.dropWhile (· ≠ '-')).tail = y ++ r.first ++ '-' :: (r.pre ++ r.last) := by
      rw [hsplit, (takeWhile_dash_of_not_mem hx _).2]
      rfl
    rw [htake, hdrop] at hend
    split at hend
    · unfold rangeOf?
      rw [hend]
    · exact rangeOf?_eq_none hend isMark_dash (fun h => hx ((singleton_infix_iff _ _).mp h))
        ((singleton_infix_iff _ _).mpr (by simp))

/-! ### Which ranges are expanded as they are written -/

lemma lead_digits : AllDigits r.lead := fun _ hc => mem_rtakeWhile_imp hc

lemma name_eq : r.name = r.name.rdropWhile (·.isDigit) ++ r.lead :=
  (rdropWhile_append_rtakeWhile (l := r.name)).symm

/-- Digits that go before a number. -/
lemma toDigits_lead {n : ℕ} (hlead : r.lead ≠ []) (hhead : r.lead.head? ≠ some '0')
    (hds : Nat.toDigits 10 n = ds) :
    Nat.toDigits 10 (value r.lead * 10 ^ ds.length + n) = r.lead ++ ds := by
  have hall : AllDigits (r.lead ++ ds) := by
    intro c hc
    rcases mem_append.mp hc with hc | hc
    · exact lead_digits c hc
    · exact allDigits_toDigits n c (hds ▸ hc)
  have hvalue : value (r.lead ++ ds) = value r.lead * 10 ^ ds.length + n := by
    rw [value_append, ← hds, value_toDigits]
  rw [← hvalue]
  refine toDigits_value hall ?_ (append_ne_nil_of_left_ne_nil hlead _)
  rw [head?_append_of_ne_nil _ hlead]
  exact hhead

/-- A plain form is read as it is written. -/
lemma Plain.expand (h : r.Plain) : expand r.entry = r.designators ∧ ¬ EndsAtLast r.entry := by
  have hle := r.le
  have hlt := r.lt
  -- the numbers the form is read as, and how each of them is written
  obtain ⟨c, hfirst, hlast, hwritten⟩ : ∃ c, value (r.lead ++ r.first) = c + value r.first ∧
      value (r.lead ++ r.last) = c + value r.last ∧ ∀ n, value r.first ≤ n → n ≤ value r.last →
        Nat.toDigits 10 (c + n) = r.lead ++ Nat.toDigits 10 n := by
    rcases h.fold with hnil | ⟨hhead, hlen, hfst, hlst⟩
    · refine ⟨0, ?_, ?_, ?_⟩
      · rw [hnil, nil_append, Nat.zero_add]
      · rw [hnil, nil_append, Nat.zero_add]
      · intro n _ _
        rw [hnil, nil_append, Nat.zero_add]
    · by_cases hnil : r.lead = []
      · exact ⟨0, by rw [hnil, nil_append, Nat.zero_add],
          by rw [hnil, nil_append, Nat.zero_add],
          fun n _ _ => by rw [hnil, nil_append, Nat.zero_add]⟩
      · refine ⟨value r.lead * 10 ^ r.last.length, ?_, value_append _ _, ?_⟩
        · rw [value_append, hlen]
        · intro n hn hn'
          have hsame := toDigits_length_between hn hn' (by rw [hfst, hlst, hlen])
          rw [hlst] at hsame
          rw [← hsame]
          exact toDigits_lead hnil hhead rfl
  have hbound := h.bound
  rw [hlast] at hbound
  have hrange : rangeOf? r.entry =
      some (r.name.rdropWhile (·.isDigit), c + value r.first, c + value r.last) := by
    rw [rangeOf?_entry h.dots h.dash, hfirst, hlast]
    exact if_pos ⟨by omega, by omega, by omega, by omega⟩
  constructor
  · have hlen : c + value r.last - (c + value r.first) + 1 = value r.last - value r.first + 1 := by
      omega
    rw [expand_of_some hrange, hlen, ← map_add_range', List.map_map]
    apply map_congr_left
    intro n hn
    rw [mem_range'_1] at hn
    rw [Function.comp_apply, toString_toList, toString_toList, hwritten n hn.1 (by omega),
      ← append_assoc, ← name_eq]
  · rintro ⟨pa, na, hends⟩
    rw [hrange, Option.some.injEq, Prod.mk.injEq, Prod.mk.injEq] at hends
    omega

/-- A range that is expanded as it is written has a plain form. -/
lemma plain_of_expand (h : Designators.expand r.entry = r.designators)
    (hends : ¬ EndsAtLast r.entry) : r.Plain := by
  have hle := r.le
  have hlt := r.lt
  have hsome : rangeOf? r.entry ≠ none := by
    intro hnone
    rw [expand_of_none hnone] at h
    have hone := congrArg length h
    unfold designators at h hone
    rw [length_map, length_range', length_singleton] at hone
    rw [← hone, range'_succ, range'_zero, map_singleton, List.cons.injEq] at h
    have hlen := congrArg length h.1
    have hshort := length_toDigits_value_le r.first_digits r.first_ne
    have hlast := length_pos_iff.mpr r.last_ne
    rw [toString_toList] at hlen
    simp only [entry, length_append] at hlen
    omega
  have hdots : ¬ ['.', '.'] <:+: r.pre := fun hin => hsome (rangeOf?_entry_of_mark (.inl hin))
  have hdash : r.sign = .dash → '-' ∉ r.pre := fun hsign hin =>
    hsome (rangeOf?_entry_of_mark (.inr ⟨hsign, hin⟩))
  have hread := rangeOf?_entry hdots hdash
  split at hread
  · next hcond =>
      obtain ⟨ha, hb, hab, hbound⟩ := hcond
      have hnotlast : value (r.lead ++ r.last) ≠ 2 ^ 63 - 1 := by
        intro heq
        exact hends ⟨_, _, heq ▸ hread⟩
      refine ⟨hdots, hdash, by omega, ?_⟩
      by_cases hnil : r.lead = []
      · exact .inl hnil
      · right
        rw [expand_of_some hread] at h
        unfold designators at h
        have hlen := congrArg length h
        rw [length_map, length_map, length_range', length_range'] at hlen
        -- the designators agree one by one
        have hat : ∀ i, i ≤ value r.last - value r.first →
            Nat.toDigits 10 (value (r.lead ++ r.first) + i) =
              r.lead ++ Nat.toDigits 10 (value r.first + i) := by
          intro i hi
          have hi' := congrArg (fun l => l[i]?) h
          simp only [getElem?_map] at hi'
          rw [getElem?_range' (by omega), getElem?_range' (by omega)] at hi'
          simp only [map_some, Option.some.injEq, toString_toList, Nat.one_mul] at hi'
          refine (append_right_inj (r.name.rdropWhile (·.isDigit))).mp ?_
          rw [← append_assoc, ← name_eq]
          exact hi'
        have hzero := hat 0 (Nat.zero_le _)
        have hend := hat (value r.last - value r.first) le_rfl
        rw [Nat.add_zero, Nat.add_zero] at hzero
        rw [show value (r.lead ++ r.first) + (value r.last - value r.first) =
            value (r.lead ++ r.last) by omega,
          show value r.first + (value r.last - value r.first) = value r.last by omega] at hend
        -- what is written has the value that was read
        have hpow : ∀ {ds : List Char} {n : ℕ}, value ds = n →
            Nat.toDigits 10 (value (r.lead ++ ds)) = r.lead ++ Nat.toDigits 10 n →
              value r.lead * 10 ^ ds.length = value r.lead * 10 ^ (Nat.toDigits 10 n).length := by
          intro ds n hds heq
          have hv := congrArg value heq
          rw [value_toDigits, value_append, value_append, value_toDigits, hds] at hv
          exact Nat.add_right_cancel hv
        have hleadpos : 0 < value r.lead := by
          rw [Nat.pos_iff_ne_zero]
          intro hzero'
          rw [value_append, hzero', Nat.zero_mul, Nat.zero_add] at hzero
          have hl := congrArg length hzero
          rw [length_append] at hl
          exact hnil (length_eq_zero_iff.mp (by omega))
        have hsame : ∀ {j k : ℕ}, value r.lead * 10 ^ j = value r.lead * 10 ^ k → j = k :=
          fun heq => Nat.pow_right_injective (by decide) (Nat.eq_of_mul_eq_mul_left hleadpos heq)
        have hfst := hsame (hpow rfl hzero)
        have hlst := hsame (hpow rfl hend)
        refine ⟨?_, ?_, ?_, ?_⟩
        · have hpos : 0 < value (r.lead ++ r.first) := by
            rw [value_append]
            exact Nat.add_pos_left (Nat.mul_pos hleadpos (Nat.pow_pos (by decide))) _
          have hhead := toDigits_head hpos
          rw [hzero, head?_append_of_ne_nil _ hnil] at hhead
          exact hhead
        · have hdiff := value_append r.lead r.first
          have hdiff' := value_append r.lead r.last
          exact hsame (by omega)
        · exact (eq_of_value_eq r.first_digits (allDigits_toDigits _) hfst
            (value_toDigits _).symm).symm
        · exact (eq_of_value_eq r.last_digits (allDigits_toDigits _) hlst
            (value_toDigits _).symm).symm
  · exact absurd hread hsome

/-- **Which ranges are expanded as they are written.** -/
theorem expands_iff (r : RangeToken) : Yields r.text r.designators ↔ r.Plain := by
  rw [yields_iff, splitDesignators, listed_text, flatMap_singleton, forall_mem_singleton]
  constructor
  · rintro ⟨h, hends⟩
    exact plain_of_expand h.symm hends
  · intro h
    exact ⟨h.expand.1.symm, h.expand.2⟩

end RangeToken

/-- **An expanded text keeps its list exactly when no entry ends at the largest
`long` or reads again; a range is expanded to one designator for each number
exactly when its form is plain.** -/
theorem designators_stable_iff (s : List Char) (r : RangeToken) :
    (Stable s ↔ ∀ t ∈ listed s, ¬ EndsAtLast t ∧ ¬ ReadsAgain t) ∧
      (Yields r.text r.designators ↔ r.Plain) :=
  ⟨stable_iff s, r.expands_iff⟩

/-- Three designators, of which two stand for more when they are read again. -/
theorem nested_range_unstable : ¬ Stable "R1-R1..R1-R3".toList := by
  rw [stable_iff]
  intro h
  refine (h "R1-R1..R1-R3".toList (by decide)).2
    ⟨"R1-R".toList, 1, 3, ['R'], 1, by decide, by decide, by decide, by decide, by decide,
      by decide⟩

end Designators

end CErp
