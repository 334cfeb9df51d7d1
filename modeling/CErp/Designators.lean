/-
Reference designators as a bill of materials writes them: a text of entries
such as `C1,C2 C5`, where an entry may be a range, `R1-R4` or `R1..R4`.

`splitDesignators` is the list a text stands for, the ranges expanded;
`listed` is the list of the text's own entries.  `joined` writes a list back
with commas.

* `listed_joined`: a list of designators that was written back is listed as it
  was, so an expanded text needs no second expansion;
* `splitDesignators_eq_nil_iff`: the expansion loses no entry.
-/
import CErp.Text
import Mathlib.Data.List.DropRight

namespace CErp

open List Nat

namespace Designators

/-- What stands between two entries. -/
def isSeparator (c : Char) : Bool :=
  c = ',' || c = ';' || c = ' ' || c = '\t' || c = '\n' || c = '\r'

/-- What `trim` takes off. -/
def isTrimmed (c : Char) : Bool :=
  c = ' ' || c = '\t' || c = '\r' || c = '\n' || c = '"' || c = '\''

def trim (s : List Char) : List Char := (s.dropWhile isTrimmed).rdropWhile isTrimmed

/-- The text before the first `..` and the text after it. -/
def findDots : List Char → Option (List Char × List Char)
  | '.' :: '.' :: rest => some ([], rest)
  | c :: rest => (findDots rest).map fun ends => (c :: ends.1, ends.2)
  | [] => none

/-- The two ends of what may be a range: split at `..`, and at the first dash
where there are no dots. -/
def rangeEnds (t : List Char) : Option (List Char × List Char) :=
  let ends := (findDots t).getD (t.takeWhile (· ≠ '-'), (t.dropWhile (· ≠ '-')).tail)
  if ends.1 = [] ∨ ends.2 = [] then none else some (trim ends.1, trim ends.2)

/-- A prefix and the number after it, within a `long`. -/
def numbered (s : List Char) : Option (List Char × ℕ) :=
  let digits := s.rtakeWhile (·.isDigit)
  let num := (Text.digitsValue 0 digits).toNat
  if digits = [] ∨ 2 ^ 63 ≤ num then none else some (s.rdropWhile (·.isDigit), num)

/-- The designators of a range: both ends share the prefix, and their numbers
are in order and fewer than 512 apart. -/
def range? (t : List Char) : Option (List (List Char)) :=
  match rangeEnds t with
  | none => none
  | some (a, b) =>
      match numbered a, numbered b with
      | some (pa, na), some (pb, nb) =>
          if pa = pb ∧ na ≤ nb ∧ nb - na < 512 then
            some ((List.range' na (nb - na + 1)).map fun n => pa ++ (toString n).toList)
          else none
      | _, _ => none

/-- The entries of a text. -/
def listed (s : List Char) : List (List Char) :=
  ((s.splitOnP isSeparator).map trim).filter (· ≠ [])

/-- The designators an entry stands for. -/
def expand (t : List Char) : List (List Char) := (range? t).getD [t]

def splitDesignators (s : List Char) : List (List Char) := (listed s).flatMap expand

/-- The key two spellings of one designator share. -/
def lower (s : List Char) : List Char := s.map Char.toLower

/-- The designators with a comma between them. -/
def joined (des : List (List Char)) : List Char := [','].intercalate des

/-! ### Entries -/

/-- A text that is an entry by itself. -/
structure IsEntry (t : List Char) : Prop where
  nonempty : t ≠ []
  unbroken : ∀ c ∈ t, isSeparator c = false
  trimmed : trim t = t

/-- Neither end of the text is taken off. -/
lemma trim_eq_self {s : List Char} (hhead : ∀ c ∈ s.head?, isTrimmed c = false)
    (hlast : ∀ c ∈ s.getLast?, isTrimmed c = false) : trim s = s := by
  have hdrop : s.dropWhile isTrimmed = s := by
    cases s with
    | nil => rfl
    | cons c s => exact dropWhile_cons_of_neg (by simp [hhead c rfl])
  unfold trim
  rw [hdrop, rdropWhile_eq_self_iff]
  intro hs
  simp [hlast _ (getLast?_eq_some_getLast hs)]

variable (s : List Char)

lemma trim_getLast? : ∀ c ∈ (trim s).getLast?, isTrimmed c = false := by
  intro c hc
  have hs : trim s ≠ [] := by
    intro h
    rw [h] at hc
    cases hc
  have hnot := rdropWhile_last_not isTrimmed (s.dropWhile isTrimmed) hs
  rw [getLast?_eq_some_getLast hs, Option.mem_some_iff] at hc
  exact hc ▸ eq_false_of_ne_true hnot

lemma trim_head? : ∀ c ∈ (trim s).head?, isTrimmed c = false := by
  intro c hc
  have hpre : trim s <+: s.dropWhile isTrimmed := List.rdropWhile_prefix _ _
  obtain ⟨rest, hrest⟩ := hpre
  have hhead : (s.dropWhile isTrimmed).head? = some c := by
    rw [← hrest, head?_append, Option.mem_def.mp hc, Option.some_or]
  have hnot := head?_dropWhile_not isTrimmed s
  rw [hhead] at hnot
  exact hnot

lemma trim_trim : trim (trim s) = trim s :=
  trim_eq_self (trim_head? s) (trim_getLast? s)

lemma trim_subset : trim s ⊆ s := fun _ hc =>
  (dropWhile_sublist _).subset ((List.rdropWhile_prefix _ _).subset hc)

/-- The text between two separators holds none. -/
lemma splitOnP_unbroken (p : Char → Bool) (s : List Char) :
    ∀ t ∈ s.splitOnP p, ∀ c ∈ t, p c = false := by
  induction s with
  | nil => simp
  | cons a s ih =>
      intro t ht c hc
      rw [splitOnP_cons_eq_if_modifyHead] at ht
      by_cases ha : p a = true
      · rw [if_pos ha, mem_cons] at ht
        rcases ht with rfl | ht
        · cases hc
        · exact ih t ht c hc
      · rw [if_neg ha] at ht
        obtain ⟨u, us, hsplit⟩ := exists_cons_of_ne_nil (splitOnP_ne_nil p s)
        rw [hsplit, modifyHead_cons, mem_cons] at ht
        rcases ht with rfl | ht
        · rcases mem_cons.mp hc with rfl | hc
          · exact eq_false_of_ne_true ha
          · exact ih u (by simp [hsplit]) c hc
        · exact ih t (by simp [hsplit, ht]) c hc

lemma listed_isEntry {s t : List Char} (ht : t ∈ listed s) : IsEntry t := by
  obtain ⟨hmem, hne⟩ := mem_filter.mp ht
  obtain ⟨u, hu, rfl⟩ := mem_map.mp hmem
  exact ⟨by simpa using hne,
    fun c hc => splitOnP_unbroken isSeparator s u hu c (trim_subset u hc), trim_trim u⟩

/-! ### Ranges -/

lemma findDots_eq {t a b : List Char} (h : findDots t = some (a, b)) :
    t = a ++ '.' :: '.' :: b := by
  induction t generalizing a with
  | nil => cases h
  | cons c t ih =>
      unfold findDots at h
      split at h
      · next rest heq =>
          cases h
          exact heq
      · next c' rest hnot heq =>
          cases heq
          obtain ⟨⟨a', b'⟩, hfound, hends⟩ := Option.map_eq_some_iff.mp h
          cases hends
          rw [ih hfound, cons_append]
      · next heq => cases heq

/-- The ends of a range are trimmed parts of it. -/
lemma rangeEnds_fst {t a b : List Char} (h : rangeEnds t = some (a, b)) : a ⊆ t ∧ trim a = a := by
  unfold rangeEnds at h
  dsimp only at h
  split at h
  · cases h
  · cases h
    refine ⟨List.Subset.trans (trim_subset _) ?_, trim_trim _⟩
    cases hdots : findDots t with
    | none => exact (takeWhile_sublist _).subset
    | some ends =>
        intro c hc
        rw [findDots_eq hdots]
        exact mem_append_left _ hc

lemma numbered_eq {s pre : List Char} {num : ℕ} (h : numbered s = some (pre, num)) :
    pre = s.rdropWhile (·.isDigit) := by
  unfold numbered at h
  dsimp only at h
  split at h
  · cases h
  · cases h
    rfl

lemma digit_kept {c : Char} (h : c.isDigit = true) :
    isSeparator c = false ∧ isTrimmed c = false := by
  have hne : ∀ d : Char, d.isDigit = false → c ≠ d := by
    rintro d hd rfl
    rw [h] at hd
    cases hd
  simp [isSeparator, isTrimmed, hne]

/-- The digits of a number, a text that is not empty. -/
lemma toString_digits (n : ℕ) :
    (toString n).toList ≠ [] ∧ ∀ c ∈ (toString n).toList, c.isDigit = true := by
  rw [toString_eq_repr, toList_repr]
  exact ⟨toDigits_ne_nil, fun c hc =>
    isDigit_of_mem_toDigits (by decide) (by decide) hc⟩

/-- A trimmed text without separators stays an entry under a number. -/
lemma isEntry_numbered {a pre : List Char} (n : ℕ) (hpre : pre <+: a) (hclean : trim a = a)
    (hunbroken : ∀ c ∈ a, isSeparator c = false) : IsEntry (pre ++ (toString n).toList) := by
  obtain ⟨hne, hdigits⟩ := toString_digits n
  refine ⟨by simp, ?_, trim_eq_self ?_ ?_⟩
  · intro c hc
    rcases mem_append.mp hc with hc | hc
    · exact hunbroken c (hpre.subset hc)
    · exact (digit_kept (hdigits c hc)).1
  · intro c hc
    obtain ⟨rest, hrest⟩ := hpre
    cases pre with
    | nil => exact (digit_kept (hdigits c (mem_of_mem_head? hc))).2
    | cons d pre =>
        refine trim_head? a c ?_
        rw [hclean, ← hrest]
        exact hc
  · intro c hc
    rw [getLast?_append_of_ne_nil _ hne] at hc
    exact (digit_kept (hdigits c (mem_of_mem_getLast? hc))).2

lemma expand_isEntry {t d : List Char} (ht : IsEntry t) (hd : d ∈ expand t) : IsEntry d := by
  unfold expand range? at hd
  cases hends : rangeEnds t with
  | none =>
      rw [hends] at hd
      exact mem_singleton.mp hd ▸ ht
  | some ends =>
      obtain ⟨a, b⟩ := ends
      obtain ⟨hsub, hclean⟩ := rangeEnds_fst hends
      rw [hends] at hd
      dsimp only at hd
      split at hd
      · next pa na pb nb hna hnb =>
          split_ifs at hd
          · obtain ⟨n, -, rfl⟩ := mem_map.mp hd
            refine isEntry_numbered n ?_ hclean fun c hc => ht.unbroken c (hsub hc)
            exact numbered_eq hna ▸ List.rdropWhile_prefix _ _
          · exact mem_singleton.mp hd ▸ ht
      · exact mem_singleton.mp hd ▸ ht

lemma expand_ne_nil (t : List Char) : expand t ≠ [] := by
  unfold expand range?
  split
  · simp
  · split
    · split_ifs
      · simp
      · simp
    · simp

lemma splitDesignators_isEntry {s d : List Char} (hd : d ∈ splitDesignators s) : IsEntry d := by
  obtain ⟨t, ht, hdt⟩ := mem_flatMap.mp hd
  exact expand_isEntry (listed_isEntry ht) hdt

/-- The expansion loses no entry. -/
lemma splitDesignators_eq_nil_iff : splitDesignators s = [] ↔ listed s = [] := by
  unfold splitDesignators
  rw [flatMap_eq_nil_iff]
  constructor
  · intro h
    exact eq_nil_iff_forall_not_mem.mpr fun t ht => expand_ne_nil t (h t ht)
  · intro h t ht
    rw [h] at ht
    cases ht

/-! ### Writing back -/

/-- Splitting what was joined. -/
lemma splitOnP_joined {des : List (List Char)} (hne : des ≠ [])
    (h : ∀ d ∈ des, ∀ c ∈ d, isSeparator c = false) :
    (joined des).splitOnP isSeparator = des := by
  induction des with
  | nil => exact absurd rfl hne
  | cons d des ih =>
      have hd := h d mem_cons_self
      cases des with
      | nil =>
          show (joined [d]).splitOnP isSeparator = [d]
          rw [show joined [d] = d by simp [joined]]
          exact splitOnP_eq_singleton hd
      | cons e des =>
          have hjoin : joined (d :: e :: des) = d ++ ',' :: joined (e :: des) := by
            simp [joined, intercalate_cons_cons]
          rw [hjoin, splitOnP_append_cons_of_forall_mem hd ',' (by decide),
            ih (by simp) fun x hx => h x (mem_cons_of_mem _ hx)]

/-- **An expanded text is listed as it was expanded.** -/
theorem listed_joined {des : List (List Char)} (h : ∀ d ∈ des, IsEntry d) :
    listed (joined des) = des := by
  by_cases hne : des = []
  · subst hne
    rfl
  · unfold listed
    rw [splitOnP_joined hne fun d hd => (h d hd).unbroken]
    have htrim : des.map trim = des :=
      (map_congr_left fun d hd => (h d hd).trimmed).trans (map_id des)
    rw [htrim, filter_eq_self]
    intro d hd
    simp [(h d hd).nonempty]

end Designators

end CErp
