/-
Component values as they are written down: `4.7k`, `4k7`, `10 uF`.

Without white space, a text is a number, a prefix letter and the rest.  A number
without a point goes on in the digits behind the letter (`parse_prefix`), one with
a point does not (`parse_point`), whatever comes then.  Hence the spellings agree
(`si_spellings_agree`); and a token behind white space is read on only by a value
that has neither a point nor a suffix.
-/
import CErp.MoneyText

namespace CErp

open Char Text List

namespace SiValues

open Decimals DoubleText

/-! ### Parsing -/

/-- `kPrefix`. -/
def kPrefix : Char → Option ℚ
  | 'p' => some 1e-12
  | 'n' => some 1e-9
  | 'u' => some 1e-6
  | 'm' => some 1e-3
  | 'k' => some 1e3
  | 'K' => some 1e3
  | 'M' => some 1e6
  | 'G' => some 1e9
  | 'T' => some 1e12
  | 'R' => some 1
  | 'V' => some 1
  | _ => none

/-- The micro sign is read as `u`. -/
def micro (c : Char) : Char := if c = '\u00b5' then 'u' else c

/-- `std::stod`, as exact decimals. -/
def exactStod (cs : List Char) : Option ℚ :=
  let (negative, cs) := sign (cs.dropWhile isSpace)
  (magnitude cs).map fun m => if negative then -m else m

/-- A prefix letter is one behind these. -/
def isPart (c : Char) : Bool := c.isDigit || c == '.'

/-- The text up to the first prefix letter, its multiplier, and the rest. -/
def findPrefix : List Char → Option (List Char × ℚ × List Char)
  | a :: c :: cs =>
      match isPart a, kPrefix c with
      | true, some m => some ([a], m, cs)
      | _, _ => (findPrefix (c :: cs)).map fun found => (a :: found.1, found.2)
  | _ => none

/-- The text that is scanned. -/
def scanned (text : List Char) : List Char :=
  (text.filter fun c => !isSpace c).map micro

/-- The number, with the multiplier applied, and the multiplier. -/
def parseSiValue (text : List Char) : Option (ℚ × ℚ) :=
  if scanned text = [] then none
  else match findPrefix (scanned text) with
    | none => (exactStod (scanned text)).map fun v => (v, 1)
    | some (head, m, rest) =>
        let tail := rest.takeWhile isDigit
        (exactStod head).bind fun whole =>
          (if tail ≠ [] ∧ '.' ∉ head then exactStod (head ++ '.' :: tail) else some whole).map
            fun v => (v * m, m)

/-! ### What is written -/

/-- The number `w.f`. -/
def written (w f : List Char) : ℚ := value (w ++ f) / 10 ^ f.length

/-- Apart from white space, the text is this. -/
def Spells (text spelled : List Char) : Prop :=
  (text.filter fun c => !isSpace c) = spelled

/-- Text that goes on with neither a digit nor a point. -/
def IsSuffix (s : List Char) : Prop := ∀ c ∈ s.head?, isPart c = false

/-! ### Characters -/

section Characters

variable {c : Char}

lemma not_part_of_prefix {m : ℚ} (h : kPrefix c = some m) : isPart c = false := by
  unfold kPrefix at h
  split at h
  case h_12 => cases h
  all_goals rfl

lemma micro_part (h : isPart c = true) : micro c = c := by
  unfold micro
  rw [if_neg]
  rintro rfl
  exact absurd h (by decide)

lemma micro_micro : micro (micro c) = micro c := by
  unfold micro
  split
  · rfl
  · rfl

lemma isSpace_micro : isSpace (micro c) = isSpace c := by
  unfold micro
  split
  · next h =>
      rw [h]
      decide
  · rfl

lemma isPart_micro : isPart (micro c) = isPart c := by
  unfold micro
  split
  · next h =>
      rw [h]
      decide
  · rfl

end Characters

variable {w f : List Char}

/-- The digits of `w`, and those of `f` behind a point if there is one. -/
inductive IsHead (w f : List Char) : List Char → Prop where
  | whole (h : f = []) : IsHead w f w
  | point : IsHead w f (w ++ '.' :: f)

/-! ### Numbers -/

lemma foldl_digitOf {ds : List Char} (h : AllDigits ds) (n : ℕ) :
    ds.foldl (fun n c => n * 10 + digitOf c) n = Nat.ofDigitChars 10 ds n := by
  induction ds generalizing n with
  | nil => rfl
  | cons c ds ih =>
      have hc : digitOf c = c.toNat - '0'.toNat := if_pos (h c mem_cons_self)
      rw [foldl_cons, hc, ih fun d hd => h d (mem_cons_of_mem c hd), Nat.mul_comm]
      rfl

variable {head : List Char}

lemma mantissa_head (hw : AllDigits w) (hne : w ≠ []) (hf : AllDigits f)
    (hhead : IsHead w f head) : mantissa isDigit 10 head = some (written w f, []) := by
  have hnot : ∀ ds, ¬ (w = [] ∧ ds = ([] : List Char)) := fun _ h => hne h.1
  have hvalue : (w ++ f).foldl (fun n c => n * 10 + digitOf c) 0 = value (w ++ f) :=
    foldl_digitOf (fun c hc => (mem_append.mp hc).elim (hw c) (hf c)) 0
  have hall : ∀ {ds : List Char}, AllDigits ds →
      ds.takeWhile isDigit = ds ∧ ds.dropWhile isDigit = [] := fun h =>
    ⟨takeWhile_eq_self_iff.mpr h, dropWhile_eq_nil_iff.mpr h⟩
  unfold mantissa written
  cases hhead with
  | whole h =>
      subst h
      rw [(hall hw).1, (hall hw).2, ← hvalue]
      exact if_neg (hnot [])
  | point =>
      rw [takeWhile_append_of_pos hw, dropWhile_append_of_pos hw,
        takeWhile_cons_of_neg (by decide), dropWhile_cons_of_neg (by decide),
        append_nil]
      simp only [(hall hf).1, (hall hf).2, if_neg (hnot f), hvalue]
      rfl

lemma head_parts (hw : AllDigits w) (hf : AllDigits f) (hhead : IsHead w f head) :
    ∀ c ∈ head, isPart c = true := by
  have hdigits : ∀ {ds : List Char}, AllDigits ds → ∀ c ∈ ds, isPart c = true := fun h c hc => by
    unfold isPart
    rw [h c hc, Bool.true_or]
  intro c hc
  cases hhead with
  | whole => exact hdigits hw c hc
  | point =>
      rcases mem_append.mp hc with hc | hc
      · exact hdigits hw c hc
      · rcases mem_cons.mp hc with rfl | hc
        · rfl
        · exact hdigits hf c hc

lemma toLower_ne_x {c : Char} (h : isPart c = true) : c.toLower ≠ 'x' := by
  have hsmall : c.toNat ≤ 57 := by
    rcases Bool.or_eq_true_iff.mp h with h | h
    · exact (digit_bounds h).2
    · rw [eq_of_beq h]
      decide
  have hkept : c.toLower = c := by
    unfold toLower
    rw [dif_neg]
    rintro ⟨hge, -⟩
    exact absurd (UInt32.le_iff_toNat_le.mp hge) (by
      show ¬ 65 ≤ c.toNat
      omega)
  rw [hkept]
  rintro rfl
  exact absurd hsmall (by decide)

/-- A number is read as it is written. -/
lemma exactStod_head (hw : AllDigits w) (hne : w ≠ []) (hf : AllDigits f)
    (hhead : IsHead w f head) : exactStod head = some (written w f) := by
  have hparts := head_parts hw hf hhead
  have hdecimal : (mantissa isDigit 10 head).map
      (fun m => m.1 * 10 ^ exponent 'e' m.2) = some (written w f) := by
    rw [mantissa_head hw hne hf hhead, Option.map_some]
    exact congrArg some (mul_one _)
  have hmagnitude : magnitude head = some (written w f) := by
    unfold magnitude
    split
    · next x hex =>
        rw [if_neg (toLower_ne_x (hparts x (by simp)))]
        exact hdecimal
    · exact hdecimal
  obtain ⟨a, w', rfl⟩ := exists_cons_of_ne_nil hne
  obtain ⟨tail, rfl⟩ : ∃ tail, head = a :: tail := by
    cases hhead with
    | whole => exact ⟨w', rfl⟩
    | point => exact ⟨w' ++ '.' :: f, rfl⟩
  have ha := digit_bounds (hw a mem_cons_self)
  have hspace := Money.isSpace_of_isDigit (hw a mem_cons_self)
  have hsign : sign (a :: tail) = (false, a :: tail) := by
    unfold sign
    split
    · next heq =>
        cases heq
        exact absurd ha (by decide)
    · next heq =>
        cases heq
        exact absurd ha (by decide)
    · rfl
  unfold exactStod
  rw [dropWhile_cons_of_neg (by rw [hspace]; exact Bool.false_ne_true), hsign]
  dsimp only
  rw [hmagnitude]
  rfl

/-- The first prefix letter behind a number. -/
lemma findPrefix_head (hne : head ≠ []) (h : ∀ c ∈ head, isPart c = true) {c : Char} {m : ℚ}
    (hc : kPrefix c = some m) (rest : List Char) :
    findPrefix (head ++ c :: rest) = some (head, m, rest) := by
  induction head with
  | nil => exact absurd rfl hne
  | cons a head ih =>
      have ha := h a mem_cons_self
      cases head with
      | nil => simp only [singleton_append, findPrefix, ha, hc]
      | cons b head =>
          have hb : kPrefix b = none := by
            rcases hb : kPrefix b with - | n
            · rfl
            · have hpart := h b (mem_cons_of_mem a mem_cons_self)
              rw [ not_part_of_prefix hb] at hpart
              cases hpart
          have hrest := ih (cons_ne_nil b head) fun d hd => h d (mem_cons_of_mem a hd)
          rw [cons_append] at hrest
          rw [cons_append, cons_append, findPrefix, hrest, ha, hb]
          rfl

/-! ### The spellings -/

variable {text rest : List Char} {c : Char} {m : ℚ}

/-- What is scanned of a number, a prefix letter and a rest. -/
lemma scanned_head (h : ∀ d ∈ head, isPart d = true) (htext : Spells text (head ++ c :: rest)) :
    scanned text = head ++ micro c :: rest.map micro := by
  have hmap : head.map micro = head :=
    (map_congr_left fun d hd => micro_part (h d hd)).trans (map_id _)
  unfold scanned
  rw [htext, map_append, map_cons, hmap]

/-- Digits are read as they are. -/
lemma takeWhile_micro (cs : List Char) :
    (cs.map micro).takeWhile isDigit = cs.takeWhile isDigit := by
  induction cs with
  | nil => rfl
  | cons d cs ih =>
      rw [map_cons, takeWhile_cons, takeWhile_cons, ih]
      by_cases hd : d = '\u00b5'
      · rw [hd]
        rfl
      · rw [show micro d = d from if_neg hd]

/-- What is parsed, from the number in front of the letter. -/
lemma parse_head (hw : AllDigits w) (hne : w ≠ []) (hf : AllDigits f) (hhead : IsHead w f head)
    (hc : kPrefix (micro c) = some m) (htext : Spells text (head ++ c :: rest)) :
    parseSiValue text = (if rest.takeWhile isDigit ≠ [] ∧ '.' ∉ head then
        exactStod (head ++ '.' :: rest.takeWhile isDigit) else some (written w f)).map
          fun v => (v * m, m) := by
  have hparts := head_parts hw hf hhead
  have hhead_ne : head ≠ [] := by
    cases hhead with
    | whole => exact hne
    | point => simp
  unfold parseSiValue
  rw [scanned_head hparts htext, if_neg (by simp), findPrefix_head hhead_ne hparts hc]
  dsimp only
  rw [exactStod_head hw hne hf hhead, takeWhile_micro, Option.bind_some]

/-- **A number with a point** ends at the letter. -/
theorem parse_point (hw : AllDigits w) (hne : w ≠ []) (hf : AllDigits f)
    (hc : kPrefix (micro c) = some m) (htext : Spells text (w ++ '.' :: f ++ c :: rest)) :
    parseSiValue text = some (written w f * m, m) := by
  rw [parse_head hw hne hf .point hc htext, if_neg]
  · rfl
  · rintro ⟨-, hpoint⟩
    exact hpoint (mem_append_right w mem_cons_self)

/-- **A number without a point** goes on in the digits behind the letter. -/
theorem parse_prefix (hw : AllDigits w) (hne : w ≠ []) (hc : kPrefix (micro c) = some m)
    (htext : Spells text (w ++ c :: rest)) :
    parseSiValue text = some (written w (rest.takeWhile isDigit) * m, m) := by
  have hnil : AllDigits [] := fun d hd => absurd hd not_mem_nil
  have htail : AllDigits (rest.takeWhile isDigit) := fun d hd => mem_takeWhile_imp hd
  rw [parse_head hw hne hnil (.whole rfl) hc htext]
  split
  · rw [exactStod_head hw hne htail .point]
    rfl
  · next hnone =>
      rw [not_and, not_not] at hnone
      have hempty : rest.takeWhile isDigit = [] := by
        by_contra htaken
        have hpoint := hw '.' (hnone htaken)
        exact absurd hpoint (by decide)
      rw [hempty]
      rfl

lemma parse_micro (text : List Char) : parseSiValue (text.map micro) = parseSiValue text := by
  have hscanned : scanned (text.map micro) = scanned text := by
    unfold scanned
    rw [filter_map, map_map]
    have hspace : ((fun c => !isSpace c) ∘ micro) = fun c => !isSpace c :=
      funext fun c => congrArg not isSpace_micro
    rw [hspace]
    exact map_congr_left fun c _ => micro_micro
  unfold parseSiValue
  rw [hscanned]

/-- **The spellings agree**: with a point and the letter behind, or with the letter
for the point, whatever the white space and the suffix.  What follows the value is
not read, unless it is digits behind a value with neither a point nor a suffix. -/
theorem si_spellings_agree (hw : AllDigits w) (hne : w ≠ []) (hf : AllDigits f)
    (hc : kPrefix (micro c) = some m) {suffix : List Char} (hsuffix : IsSuffix suffix) :
    (∀ text, Spells text (w ++ '.' :: f ++ c :: suffix) →
      parseSiValue text = some (written w f * m, m)) ∧
    (∀ text, Spells text (w ++ c :: (f ++ suffix)) →
      parseSiValue text = some (written w f * m, m)) ∧
    (∀ text, Spells text (w ++ c :: suffix) → parseSiValue text = some (written w [] * m, m)) ∧
    (∀ text, parseSiValue (text.map micro) = parseSiValue text) ∧
    ∀ value more, (Spells value (w ++ '.' :: f ++ c :: suffix) →
        parseSiValue (value ++ more) = parseSiValue value) ∧
      (Spells value (w ++ c :: (f ++ suffix)) → parseSiValue (value ++ more) =
        if suffix = [] then
          some (written w (f ++ (more.filter fun c => !isSpace c).takeWhile isDigit) * m, m)
        else parseSiValue value) := by
  have hdigits : ∀ {ds : List Char}, AllDigits ds → ∀ rest,
      (ds ++ rest).takeWhile isDigit = ds ++ rest.takeWhile isDigit :=
    fun h rest => List.takeWhile_append_of_pos h
  have hstop : ∀ rest, suffix ≠ [] → (suffix ++ rest).takeWhile isDigit = [] := by
    intro rest hs
    obtain ⟨d, ds, rfl⟩ := List.exists_cons_of_ne_nil hs
    exact List.takeWhile_cons_of_neg (fun hd => by
      have hpart := hsuffix d rfl
      unfold isPart at hpart
      rw [hd, Bool.true_or] at hpart
      cases hpart)
  have hend : suffix.takeWhile isDigit = [] := by
    by_cases hs : suffix = []
    · rw [hs]
      rfl
    · have htaken := hstop [] hs
      rwa [List.append_nil] at htaken
  have hplain : ∀ text, Spells text (w ++ c :: (f ++ suffix)) →
      parseSiValue text = some (written w f * m, m) := by
    intro text htext
    rw [ parse_prefix hw hne hc htext, hdigits hf, hend, List.append_nil]
  refine ⟨fun text htext => parse_point hw hne hf hc htext, hplain, ?_, parse_micro, ?_⟩
  · intro text htext
    rw [ parse_prefix hw hne hc htext, hend]
  · intro value more
    have hmore : ∀ {spelled}, Spells value spelled →
        Spells (value ++ more) (spelled ++ more.filter fun c => !isSpace c) := by
      intro spelled h
      unfold Spells
      rw [List.filter_append, h]
    constructor
    · intro h
      have hall := hmore h
      rw [List.append_assoc, List.cons_append] at hall
      rw [parse_point hw hne hf hc hall, parse_point hw hne hf hc h]
    · intro h
      have hall := hmore h
      rw [List.append_assoc, List.cons_append, List.append_assoc] at hall
      rw [ parse_prefix hw hne hc hall, hdigits hf]
      split
      · next hs =>
          rw [hs]
          rfl
      · next hs =>
          rw [hstop _ hs, List.append_nil, hplain value h]

/-- `4.7kΩ` and `4k7 Ω`. -/
theorem si_spellings_agree_ohm : parseSiValue "4.7kΩ".toList = some (4700, 1000) ∧
      parseSiValue "4k7 Ω".toList = some (4700, 1000) := by
  have hvalue : (written ['4'] ['7'] * 1e3, 1e3) = ((4700, 1000) : ℚ × ℚ) := by
    decide +kernel
  have hw : AllDigits ['4'] := by
    intro d hd
    rw [List.mem_singleton.mp hd]
    rfl
  have hf : AllDigits ['7'] := by
    intro d hd
    rw [List.mem_singleton.mp hd]
    rfl
  have hsuffix : IsSuffix ['Ω'] := by
    rintro d ⟨⟩
    rfl
  obtain ⟨hpoint, hletter, -⟩ := si_spellings_agree hw (by simp) hf (c := 'k') rfl hsuffix
  rw [← hvalue]
  exact ⟨hpoint _ rfl, hletter _ rfl⟩

/-- `4k 10` is read as 4.10 k. -/
theorem four_k_ten :
    ¬ ∀ (w f suffix value token : List Char) (c : Char) (m : ℚ), AllDigits w → w ≠ [] →
      AllDigits f → kPrefix (micro c) = some m → IsSuffix suffix →
      Spells value (w ++ c :: (f ++ suffix)) → (∃ d ∈ token.head?, d.isDigit = true) →
      parseSiValue (value ++ ' ' :: token) ≠
        some (written w (f ++ token.takeWhile isDigit) * m, m) := by
  intro h
  refine h ['4'] [] [] ['4', 'k'] ['1', '0'] 'k' 1e3 ?_ (by simp) ?_ rfl ?_ rfl ⟨'1', rfl, rfl⟩ ?_
  · intro d hd
    rw [List.mem_singleton.mp hd]
    rfl
  · intro d hd
    cases hd
  · rintro d ⟨⟩
  · decide +kernel

end SiValues

end CErp
