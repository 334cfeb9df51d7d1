/-
The texts of an amount: the decimal one that `toString` writes and `parse` reads,
and the micro-units that a BIGINT column is read from.

A `Numeral` is a text that is a number to `parse`; `parse_text` says what it is
read as, and `parse_numeral` that nothing else is accepted.  `money_text_codec`
puts both directions together.
-/
import CErp.DoubleText
import CErp.Rounding

namespace CErp

open Text Decimals List Option Char Int Nat DoubleText Outcome

namespace Money

/-! ### Writing -/

/-- The text with `dp` decimals. -/
def toString (m : Money) (dp : ℤ) : Except String String := do
  let dp : ℤ := if dp < 0 then 0 else dp
  let dp : ℤ := if dp > SCALE then SCALE else dp
  let r ← m.roundTo dp
  let mag := r.micros.natAbs
  let whole := mag / 1000000
  let frac := mag % 1000000
  let point := if dp > 0 then '.' :: (padded SCALE frac).take dp.toNat else []
  return String.ofList
    ((if r.micros < 0 then ['-'] else []) ++ toDigits 10 whole ++ point)

/-! ### Reading micro-units -/

/-- The digits of a BIGINT that are left to read. -/
def readDigits (text : String) (v : ℤ) : List Char → Except String ℤ
  | [] => .ok v
  | c :: cs =>
      if !c.isDigit then .error ("Money::fromDb: not an integer: '" ++ text ++ "'")
      else if v > (int64Max - 9) / 10 then .error "Money::fromDb: value out of range"
      else readDigits text (v * 10 + digitValue c) cs

def fromDb (bigintText : String) : Except String Money :=
  let (neg, digits) := parseSign bigintText.toList
  (readDigits bigintText 0 digits).map fun v => { micros := if neg then -v else v }

/-! ### Numerals -/

inductive Sign where
  | none
  | plus
  | minus
deriving DecidableEq

def Sign.text : Sign → List Char
  | none => []
  | plus => ['+']
  | minus => ['-']

def Sign.apply : Sign → ℤ → ℤ
  | minus, v => -v
  | _, v => v

/-- A decimal numeral with white space around it. -/
structure Numeral where
  lead : List Char
  sign : Sign
  whole : List Char
  /-- The digits after the point, where there is one. -/
  frac : Option (List Char)
  trail : List Char
  lead_spaces : ∀ c ∈ lead, isSpace c = true
  trail_spaces : ∀ c ∈ trail, isSpace c = true
  whole_digits : AllDigits whole
  frac_digits : AllDigits (frac.getD [])
  some_digit : whole ≠ [] ∨ frac.getD [] ≠ []

namespace Numeral

variable (n : Numeral)

/-- The point and the digits after it. -/
def fracText : List Char :=
  match n.frac with
  | some ds => '.' :: ds
  | none => []

/-- What stands between the white space. -/
def body : List Char := n.sign.text ++ n.whole ++ n.fracText

def text : List Char := n.lead ++ n.body ++ n.trail

/-- The magnitude in micro-units; further decimals are dropped. -/
def magnitude : ℕ := value n.whole * 10 ^ SCALE + fraction SCALE (n.frac.getD [])

/-- The value in micro-units. -/
def micros : ℤ := n.sign.apply n.magnitude

end Numeral

/-! ### Digits -/

lemma digitValue_of_isDigit {c : Char} (h : c.isDigit = true) :
    digitValue c = ((c.toNat - 48 : ℕ) : ℤ) := by
  obtain ⟨hlow, -⟩ := digit_bounds h
  unfold digitValue
  omega

/-- The digits of the whole part, as far as they go. -/
lemma parseWhole_ok {w v : ℤ} {saw sw : Bool} {cs rest : List Char}
    (h : parseWhole w saw cs = .ok (v, sw, rest)) :
    v = w * 10 ^ (cs.takeWhile isDigit).length + value (cs.takeWhile isDigit) ∧
      sw = (saw || !(cs.takeWhile isDigit).isEmpty) ∧ rest = cs.dropWhile isDigit := by
  induction cs generalizing w saw with
  | nil =>
      cases h
      refine ⟨?_, ?_, rfl⟩
      · simp [value_nil]
      · simp
  | cons c cs ih =>
      unfold parseWhole at h
      by_cases hc : c.isDigit = true
      · rw [if_pos hc] at h
        split at h
        · cases h
        · obtain ⟨hv, hsw, hrest⟩ := ih h
          rw [takeWhile_cons_of_pos hc, dropWhile_cons_of_pos hc]
          refine ⟨?_, ?_, hrest⟩
          · rw [hv, value_cons, digitValue_of_isDigit hc, length_cons]
            push_cast
            ring
          · rw [hsw]
            simp
      · rw [if_neg hc] at h
        cases h
        rw [takeWhile_cons_of_neg hc, dropWhile_cons_of_neg hc]
        refine ⟨?_, ?_, rfl⟩
        · simp [value_nil]
        · simp

/-- Digits whose value is in range are read. -/
lemma parseWhole_digits (saw : Bool) {w : ℤ} {cs : List Char} (hw : 0 ≤ w)
    (hfits : w * 10 ^ (cs.takeWhile isDigit).length + value (cs.takeWhile isDigit) ≤ int64Max - 9) :
    ∃ r, parseWhole w saw cs = .ok r := by
  induction cs generalizing w saw with
  | nil => exact ⟨_, rfl⟩
  | cons c cs ih =>
      unfold parseWhole
      by_cases hc : c.isDigit = true
      · have hdigit := digitValue_of_isDigit hc
        rw [takeWhile_cons_of_pos hc, value_cons, length_cons] at hfits
        have hnext : (w * 10 + digitValue c) * 10 ^ (cs.takeWhile isDigit).length +
            value (cs.takeWhile isDigit) ≤ int64Max - 9 := by
          rw [hdigit]
          push_cast at hfits
          rw [pow_succ] at hfits
          linarith
        -- what is read so far is no more than a tenth of the whole
        have hpow : (1 : ℤ) ≤ 10 ^ (cs.takeWhile isDigit).length := by
          exact_mod_cast one_le_pow _ _ (by decide)
        have htenth : w * 10 ≤ int64Max - 9 := by
          nlinarith [natCast_nonneg (value (cs.takeWhile isDigit)), natCast_nonneg (c.toNat - 48)]
        rw [if_pos hc, if_neg (by omega)]
        exact ih true (by omega) hnext
      · rw [if_neg hc]
        exact ⟨_, rfl⟩

/-- The digits after the point. -/
lemma parseFrac_eq (f : ℤ) {k : ℕ} (hk : k ≤ SCALE) (saw : Bool) (cs : List Char) :
    parseFrac f k saw cs = (f * 10 ^ (SCALE - k) + fraction (SCALE - k) (cs.takeWhile isDigit),
        saw || !(cs.takeWhile isDigit).isEmpty, cs.dropWhile isDigit) := by
  induction cs generalizing f k saw with
  | nil => simp [parseFrac, fraction_nil]
  | cons c cs ih =>
      unfold parseFrac
      by_cases hc : c.isDigit = true
      · rw [if_pos hc, takeWhile_cons_of_pos hc, dropWhile_cons_of_pos hc]
        have hall : AllDigits (c :: cs.takeWhile isDigit) := by
          intro x hx
          rcases mem_cons.mp hx with rfl | hx
          · exact hc
          · exact mem_takeWhile_imp hx
        by_cases hlt : k < SCALE
        · obtain ⟨j, hj⟩ : ∃ j, SCALE - k = j + 1 := ⟨SCALE - k - 1, by omega⟩
          have hj' : SCALE - (k + 1) = j := by omega
          rw [if_pos hlt, ih _ hlt, hj, hj', fraction_succ_cons, digitValue_of_isDigit hc]
          simp only [Bool.true_or, isEmpty_cons, Bool.not_false, Bool.or_true, Prod.mk.injEq,
            and_true]
          push_cast
          ring
        · have hzero : SCALE - k = 0 := by omega
          rw [if_neg hlt, ih _ hk, hzero, fraction_zero hall,
            fraction_zero fun x hx => hall x (mem_cons_of_mem c hx)]
          simp
      · rw [if_neg hc, takeWhile_cons_of_neg hc, dropWhile_cons_of_neg hc]
        simp [fraction_nil]

/-! ### White space -/

lemma trimSpaces_eq_nil_iff {cs : List Char} : trimSpaces cs = [] ↔ ∀ c ∈ cs, isSpace c = true := by
  show (cs.dropWhile isSpace).rdropWhile isSpace = [] ↔ _
  rw [rdropWhile_eq_nil_iff]
  constructor
  · intro h
    rw [← takeWhile_append_dropWhile (p := isSpace) (l := cs)]
    intro c hc
    rcases mem_append.mp hc with hc | hc
    · exact mem_takeWhile_imp hc
    · exact h c hc
  · exact fun h c hc => h c ((dropWhile_sublist _).subset hc)

/-- What is trimmed off is white space. -/
lemma trimSpaces_split (cs : List Char) : ∃ lead trail, (∀ c ∈ lead, isSpace c = true) ∧
    (∀ c ∈ trail, isSpace c = true) ∧ cs = lead ++ trimSpaces cs ++ trail := by
  refine ⟨cs.takeWhile isSpace, (cs.dropWhile isSpace).rtakeWhile isSpace,
    fun c hc => mem_takeWhile_imp hc, fun c hc => mem_rtakeWhile_imp hc, ?_⟩
  show cs = cs.takeWhile isSpace ++ (cs.dropWhile isSpace).rdropWhile isSpace ++ _
  rw [append_assoc, rdropWhile_append_rtakeWhile, takeWhile_append_dropWhile]

lemma trimSpaces_around {lead body trail : List Char} (hlead : ∀ c ∈ lead, isSpace c = true)
    (htrail : ∀ c ∈ trail, isSpace c = true) (hbody : ∀ c ∈ body, isSpace c = false)
    (hne : body ≠ []) : trimSpaces (lead ++ body ++ trail) = body := by
  show ((lead ++ body ++ trail).dropWhile isSpace).rdropWhile isSpace = body
  have hdrop : (lead ++ body ++ trail).dropWhile isSpace = body ++ trail := by
    rw [append_assoc, dropWhile_append_of_pos hlead]
    cases body with
    | nil => exact absurd rfl hne
    | cons c body =>
        rw [cons_append, dropWhile_cons_of_neg]
        rw [hbody c mem_cons_self]
        decide
  rw [hdrop]
  have hself : body.rdropWhile isSpace = body := by
    rw [rdropWhile_eq_self_iff]
    intro hl hlast
    rw [hbody _ (getLast_mem hl)] at hlast
    cases hlast
  show ((body ++ trail).reverse.dropWhile isSpace).reverse = body
  rw [reverse_append, dropWhile_append_of_pos fun c hc => htrail c (mem_reverse.mp hc)]
  exact hself

/-! ### Reading -/

lemma isSpace_of_isDigit {c : Char} (h : c.isDigit = true) : isSpace c = false := by
  obtain ⟨hlow, hhigh⟩ := digit_bounds h
  unfold isSpace
  simp only [Bool.or_eq_false_iff, decide_eq_false_iff_not]
  refine ⟨⟨⟨⟨⟨?_, ?_⟩, ?_⟩, ?_⟩, ?_⟩, ?_⟩
  all_goals first
    | (rintro rfl; revert hlow; decide)
    | omega

variable (n : Numeral)

lemma Numeral.body_chars : ∀ c ∈ n.body, isSpace c = false := by
  intro c hc
  unfold Numeral.body Numeral.fracText at hc
  rw [mem_append, mem_append] at hc
  rcases hc with (hc | hc) | hc
  · cases hsign : n.sign <;> rw [hsign] at hc <;> simp [Sign.text] at hc <;> subst hc <;> decide
  · exact isSpace_of_isDigit (n.whole_digits c hc)
  · cases hfrac : n.frac with
    | none =>
        rw [hfrac] at hc
        cases hc
    | some ds =>
        rw [hfrac] at hc
        rcases mem_cons.mp hc with rfl | hc
        · decide
        · have hdigits := n.frac_digits
          rw [hfrac] at hdigits
          exact isSpace_of_isDigit (hdigits c hc)

/-- What follows the sign does not begin with one. -/
lemma Numeral.unsigned : ∀ c ∈ (n.whole ++ n.fracText).head?, c ≠ '+' ∧ c ≠ '-' := by
  intro c hc
  have hdigit : c.isDigit = true ∨ c = '.' := by
    have hmem := mem_of_mem_head? hc
    unfold Numeral.fracText at hmem
    rcases mem_append.mp hmem with hmem | hmem
    · exact .inl (n.whole_digits c hmem)
    · cases hfrac : n.frac with
      | none =>
          rw [hfrac] at hmem
          cases hmem
      | some ds =>
          rw [hfrac] at hmem
          rcases mem_cons.mp hmem with hpoint | hmem
          · exact .inr hpoint
          · have hdigits := n.frac_digits
            rw [hfrac] at hdigits
            exact .inl (hdigits c hmem)
  constructor
  · rintro rfl
    exact absurd hdigit (by decide)
  · rintro rfl
    exact absurd hdigit (by decide)

lemma parseSign_text (σ : Sign) {b : List Char} (hb : ∀ c ∈ b.head?, c ≠ '+' ∧ c ≠ '-') :
    parseSign (σ.text ++ b) = (decide (σ = .minus), b) := by
  cases σ with
  | plus => rfl
  | minus => rfl
  | none =>
      cases b with
      | nil => rfl
      | cons c b =>
          obtain ⟨hplus, hminus⟩ := hb c rfl
          show parseSign (c :: b) = (false, c :: b)
          unfold parseSign
          split
          · next heq => exact absurd (List.cons.inj heq).1 hplus
          · next heq => exact absurd (List.cons.inj heq).1 hminus
          · rfl

lemma parseSign_split (cs : List Char) : ∃ σ : Sign, cs = σ.text ++ (parseSign cs).2 := by
  unfold parseSign
  split
  · exact ⟨.plus, rfl⟩
  · exact ⟨.minus, rfl⟩
  · exact ⟨.none, rfl⟩

/-- Digits before something that is none. -/
lemma digits_before {ds rest : List Char} (hds : AllDigits ds)
    (hrest : ∀ c ∈ rest.head?, c.isDigit = false) :
    (ds ++ rest).takeWhile isDigit = ds ∧ (ds ++ rest).dropWhile isDigit = rest := by
  rw [takeWhile_append_of_pos hds, dropWhile_append_of_pos hds]
  cases rest with
  | nil => exact ⟨append_nil ds, rfl⟩
  | cons c rest =>
      have hc : ¬ c.isDigit = true := by
        rw [hrest c rfl]
        decide
      rw [takeWhile_cons_of_neg hc, dropWhile_cons_of_neg hc]
      exact ⟨append_nil ds, rfl⟩

/-- The number that follows the sign. -/
def parseNumber (neg : Bool) (body : List Char) : Except String Money :=
  match parseWhole 0 false body with
  | .error e => .error e
  | .ok (whole, saw, rest) =>
      let (frac, saw, rest) :=
        match rest with
        | '.' :: rest => parseFrac 0 0 saw rest
        | rest => (0, saw, rest)
      if !saw || !rest.isEmpty then .error ("Money: malformed number '" ++ String.ofList body ++ "'")
      else (clampToInt64 (whole * ONE + frac) "parsed value").map fun v =>
        { micros := if neg then -v else v }

lemma parse_eq (s : String) : parse s = match trimSpaces s.toList with
      | [] => .ok { micros := 0 }
      | cs => if (parseSign cs).2.isEmpty then .error "Money: malformed number"
          else parseNumber (parseSign cs).1 (parseSign cs).2 := rfl

variable {m : Money}

/-- What is read as a number is digits, a point and digits. -/
lemma parseNumber_ok {neg : Bool} {b : List Char} (h : parseNumber neg b = .ok m) :
    ∃ whole frac, AllDigits whole ∧ AllDigits (Option.getD frac []) ∧
      (whole ≠ [] ∨ Option.getD frac [] ≠ []) ∧
      b = whole ++ (frac.map fun ds => '.' :: ds).getD [] := by
  unfold parseNumber at h
  split at h
  · cases h
  next v sw rest hwhole =>
  obtain ⟨-, hsw, hrest⟩ := parseWhole_ok hwhole
  have hdigits : AllDigits (b.takeWhile isDigit) := fun c hc => mem_takeWhile_imp hc
  have hb : b = b.takeWhile isDigit ++ rest := by
    rw [hrest, takeWhile_append_dropWhile]
  split at h
  next f sw' rest' hfrac =>
  split at h
  · cases h
  next hgood =>
  rw [Bool.not_eq_true, Bool.or_eq_false_iff, Bool.not_eq_false', Bool.not_eq_false',
    List.isEmpty_iff] at hgood
  obtain ⟨hsaw, rfl⟩ := hgood
  split at hfrac
  · -- a point
    next ds =>
      rw [parseFrac_eq 0 (Nat.zero_le SCALE), Prod.mk.injEq, Prod.mk.injEq] at hfrac
      obtain ⟨-, hsw', hend⟩ := hfrac
      have hall : ds.takeWhile isDigit = ds := by
        have hsplit := takeWhile_append_dropWhile (p := isDigit) (l := ds)
        rw [hend, append_nil] at hsplit
        exact hsplit
      rw [hall] at hsw'
      refine ⟨b.takeWhile isDigit, some ds, hdigits, ?_, ?_, hb⟩
      · rw [getD_some, ← hall]
        exact fun c hc => mem_takeWhile_imp hc
      · by_cases hnone : b.takeWhile isDigit = []
        · right
          intro hnil
          rw [getD_some] at hnil
          rw [hsaw, hsw, hnone, hnil] at hsw'
          exact absurd hsw' (by decide)
        · exact .inl hnone
  · obtain ⟨-, rfl, rfl⟩ := hfrac
    refine ⟨b.takeWhile isDigit, none, hdigits, ?_, ?_, ?_⟩
    · intro c hc
      cases hc
    · left
      intro hnil
      rw [hnil] at hsw
      rw [hsw] at hsaw
      cases hsaw
    · exact hb

/-- Digits, a point and digits are read as their value, where it is in range. -/
lemma parseNumber_eq {neg : Bool} :
    parseNumber neg (n.whole ++ n.fracText) = .ok m ↔ (n.magnitude : ℤ) ≤ int64Max ∧
      m = { micros := if neg then -(n.magnitude : ℤ) else n.magnitude } := by
  have hhead : ∀ c ∈ n.fracText.head?, c.isDigit = false := by
    intro c hc
    unfold Numeral.fracText at hc
    split at hc
    · obtain rfl := some.inj hc
      rfl
    · cases hc
  obtain ⟨htake, hdrop⟩ := digits_before n.whole_digits hhead
  have hwhole : ∀ {v sw rest}, parseWhole 0 false (n.whole ++ n.fracText) = .ok (v, sw, rest) →
      v = value n.whole ∧ sw = !n.whole.isEmpty ∧ rest = n.fracText := by
    intro v sw rest h
    obtain ⟨hv, hsw, hrest⟩ := parseWhole_ok h
    rw [htake] at hv hsw
    rw [hdrop] at hrest
    rw [zero_mul, zero_add] at hv
    exact ⟨hv, hsw, hrest⟩
  have hrest : ∀ sw, (match n.fracText with
      | '.' :: rest => parseFrac 0 0 sw rest
      | rest => (0, sw, rest)) =
        ((fraction SCALE (n.frac.getD []) : ℤ), sw || !(n.frac.getD []).isEmpty, []) := by
    intro sw
    unfold Numeral.fracText
    cases hfrac : n.frac with
    | none =>
        rw [getD_none, fraction_nil]
        simp
    | some ds =>
        have hds := n.frac_digits
        rw [hfrac] at hds
        have hall : ds.takeWhile isDigit = ds ∧ ds.dropWhile isDigit = [] := by
          have h : (ds ++ []).takeWhile isDigit = ds ∧ (ds ++ []).dropWhile isDigit = [] :=
            digits_before hds (by simp)
          rwa [append_nil] at h
        show parseFrac 0 0 sw ds = _
        rw [parseFrac_eq 0 (Nat.zero_le SCALE), hall.1, hall.2]
        simp
  have hsome : (!n.whole.isEmpty || !(n.frac.getD []).isEmpty) = true := by
    rw [Bool.or_eq_true, Bool.not_eq_true', Bool.not_eq_true', isEmpty_eq_false_iff,
      isEmpty_eq_false_iff]
    exact n.some_digit
  have hmagnitude : (n.magnitude : ℤ) = value n.whole * ONE + fraction SCALE (n.frac.getD []) := by
    unfold Numeral.magnitude ONE SCALE
    push_cast
    rfl
  unfold parseNumber
  cases hcase : parseWhole 0 false (n.whole ++ n.fracText) with
  | error e =>
      -- too large already before the point
      constructor
      · intro h
        cases h
      · rintro ⟨hmax, -⟩
        have hfits : (0 : ℤ) * 10 ^ ((n.whole ++ n.fracText).takeWhile isDigit).length +
            value ((n.whole ++ n.fracText).takeWhile isDigit) ≤ int64Max - 9 := by
          rw [htake, zero_mul, zero_add]
          unfold ONE at hmagnitude
          unfold int64Max at hmax ⊢
          omega
        obtain ⟨r, hr⟩ := parseWhole_digits false le_rfl hfits
        rw [hcase] at hr
        cases hr
  | ok r =>
      obtain ⟨v, sw, rest⟩ := r
      obtain ⟨rfl, rfl, rfl⟩ := hwhole hcase
      dsimp only
      rw [hrest]
      rw [hsome, if_neg (by simp), ← hmagnitude, map_ok_iff]
      constructor
      · rintro ⟨w, hw, rfl⟩
        obtain ⟨-, hmax, rfl⟩ := clampToInt64_ok_iff.mp hw
        exact ⟨hmax, rfl⟩
      · rintro ⟨hmax, rfl⟩
        refine ⟨n.magnitude, clampToInt64_ok_iff.mpr ⟨?_, hmax, rfl⟩, rfl⟩
        unfold int64Min
        omega

/-- **A numeral is read as its value, where that is in range.** -/
theorem parse_text :
    parse (String.ofList n.text) = .ok m ↔ (n.magnitude : ℤ) ≤ int64Max ∧ m = { micros := n.micros } := by
  have hrest : n.whole ++ n.fracText ≠ [] := by
    rcases n.some_digit with hwhole | hfrac
    · exact append_ne_nil_of_left_ne_nil hwhole _
    · apply append_ne_nil_of_right_ne_nil
      unfold Numeral.fracText
      split
      · exact cons_ne_nil _ _
      · next hnone =>
          rw [hnone] at hfrac
          exact absurd rfl hfrac
  have hbody : n.body ≠ [] := by
    unfold Numeral.body
    rw [append_assoc]
    exact append_ne_nil_of_right_ne_nil _ hrest
  have hsign : parseSign n.body = (decide (n.sign = .minus), n.whole ++ n.fracText) := by
    unfold Numeral.body
    rw [append_assoc]
    exact parseSign_text n.sign n.unsigned
  rw [parse_eq, String.toList_ofList]
  unfold Numeral.text
  rw [trimSpaces_around n.lead_spaces n.trail_spaces n.body_chars hbody]
  split
  · next hnil => exact absurd hnil hbody
  · rw [hsign, if_neg (by simpa using hrest), parseNumber_eq]
    unfold Numeral.micros Sign.apply
    cases n.sign <;> simp

/-- Nothing but white space and numerals is accepted. -/
lemma parse_numeral {s : String} (h : parse s = .ok m) :
    ((∀ c ∈ s.toList, isSpace c = true) ∧ m = { micros := 0 }) ∨
      ∃ n : Numeral, s.toList = n.text := by
  obtain ⟨lead, trail, hlead, htrail, hsplit⟩ := trimSpaces_split s.toList
  rw [parse_eq] at h
  split at h
  · next hnil => exact .inl ⟨trimSpaces_eq_nil_iff.mp hnil, (Except.ok.inj h).symm⟩
  · right
    split at h
    · cases h
    obtain ⟨σ, hσ⟩ := parseSign_split (trimSpaces s.toList)
    obtain ⟨whole, frac, hwhole, hfrac, hsome, hbody⟩ := parseNumber_ok h
    refine ⟨⟨lead, σ, whole, frac, trail, hlead, htrail, hwhole, hfrac, hsome⟩, ?_⟩
    unfold Numeral.text Numeral.body Numeral.fracText
    rw [append_assoc σ.text]
    conv_lhs => rw [hsplit, hσ, hbody]
    cases frac with
    | none => rfl
    | some ds => rfl

/-! ### Writing and reading back -/

lemma value_padded (places n : ℕ) : value (padded places n) = n := by
  unfold padded
  rw [value_append, value_toDigits]
  have hzeros : ∀ k, value (replicate k '0') = 0 := by
    intro k
    induction k with
    | zero => rfl
    | succ k ih =>
        rw [replicate_succ, value_cons, ih]
        show 0 * 10 ^ (replicate k '0').length + 0 = 0
        rw [Nat.zero_mul]
  rw [hzeros, Nat.zero_mul, Nat.zero_add]

/-- An amount in the range of the wire can be rounded. -/
lemma roundTo_exists (hm : |m.micros| ≤ 92 * 10 ^ 17) {dp : ℤ} (h0 : 0 ≤ dp) :
    ∃ r, m.roundTo dp = .ok r ∧ |r.micros| ≤ int64Max ∧
      ((10 ^ (SCALE - dp.toNat) : ℕ) : ℤ) ∣ r.micros := by
  rw [abs_le] at hm
  unfold roundTo
  by_cases hdp : dp ≥ SCALE
  · have hexp : SCALE - dp.toNat = 0 := by omega
    rw [if_pos hdp, hexp, pow_zero, Nat.cast_one]
    refine ⟨m, rfl, ?_, one_dvd _⟩
    rw [abs_le]
    unfold int64Max
    omega
  · rw [if_neg hdp]
    dsimp only
    have hfactor : (0 : ℤ) < 10 ^ (SCALE - dp.toNat) := Int.pow_pos (by decide)
    have hsmall : (10 : ℤ) ^ (SCALE - dp.toNat) ≤ 10 ^ 6 :=
      pow_le_pow_right₀ (by decide) (sub_le _ _)
    obtain ⟨hhigh, hlow⟩ := divRoundHalfAway_bounds m.micros hfactor
    generalize hv : divRoundHalfAway m.micros (10 ^ (SCALE - dp.toNat)) *
      10 ^ (SCALE - dp.toNat) = v at hhigh hlow
    have hmin : int64Min ≤ v := by
      unfold int64Min
      omega
    have hmax : v ≤ int64Max := by
      unfold int64Max
      omega
    refine ⟨{ m with micros := v }, ?_, ?_, ?_⟩
    · rw [map_ok_iff]
      exact ⟨v, clampToInt64_ok_iff.mpr ⟨hmin, hmax, rfl⟩, rfl⟩
    · rw [abs_le]
      dsimp only
      unfold int64Max at *
      omega
    · dsimp only
      rw [← hv]
      push_cast
      exact dvd_mul_left _ _

/-- The numeral an amount of so many decimals is written as. -/
def written (v : ℤ) (places : ℕ) : Numeral where
  lead := []
  sign := if v < 0 then .minus else .none
  whole := toDigits 10 (v.natAbs / 1000000)
  frac :=
    if 0 < places then some ((padded SCALE (v.natAbs % 1000000)).take places) else none
  trail := []
  lead_spaces := by simp
  trail_spaces := by simp
  whole_digits := allDigits_toDigits _
  frac_digits := by
    split
    · exact fun c hc => padded_digits _ _ c (mem_of_mem_take hc)
    · exact fun c hc => nomatch hc
  some_digit := .inl toDigits_ne_nil

/-- An amount without further decimals is written in full. -/
lemma micros_written {v : ℤ} {places : ℕ} (hplaces : places ≤ SCALE)
    (hdvd : ((10 ^ (SCALE - places) : ℕ) : ℤ) ∣ v) :
    ((written v places).magnitude : ℤ) = |v| ∧ (written v places).micros = v := by
  have hnat : 10 ^ (SCALE - places) ∣ v.natAbs := natCast_dvd.mp hdvd
  have hmag : (written v places).magnitude = v.natAbs := by
    have hmod : 10 ^ (SCALE - places) ∣ v.natAbs % 1000000 := by
      have hunit : 10 ^ (SCALE - places) ∣ 1000000 :=
        Nat.pow_dvd_pow 10 (sub_le SCALE places)
      exact (dvd_mod_iff hunit).mpr hnat
    have hfraction : fraction SCALE ((written v places).frac.getD []) = v.natAbs % 1000000 := by
      unfold written
      dsimp only
      split
      · have hlen : (padded SCALE (v.natAbs % 1000000)).length = SCALE :=
          padded_length (by decide) (mod_lt _ (by decide))
        have hvalue := value_padded SCALE (v.natAbs % 1000000)
        rw [getD_some, fraction_take (padded_digits _ _) hlen hplaces
          (by rwa [hvalue]), hvalue]
      · next hzero =>
          obtain rfl : places = 0 := by omega
          rw [getD_none, fraction_nil]
          exact (eq_zero_of_dvd_of_lt hmod (mod_lt _ (by decide))).symm
    unfold Numeral.magnitude
    rw [hfraction]
    show value (toDigits 10 (v.natAbs / 1000000)) * 1000000 + _ = _
    rw [value_toDigits, Nat.mul_comm, div_add_mod]
  refine ⟨by rw [hmag, abs_eq_natAbs], ?_⟩
  unfold Numeral.micros
  rw [hmag]
  show Sign.apply (if v < 0 then .minus else .none) _ = v
  split
  · show -(v.natAbs : ℤ) = v
    omega
  · show (v.natAbs : ℤ) = v
    omega

lemma text_written (v : ℤ) (places : ℕ) : (written v places).text =
    (if v < 0 then ['-'] else []) ++ toDigits 10 (v.natAbs / 1000000) ++
      if 0 < places then '.' :: (padded SCALE (v.natAbs % 1000000)).take places
      else [] := by
  unfold Numeral.text Numeral.body Numeral.fracText written
  rw [nil_append, append_nil]
  congr 1
  · congr 1
    split
    · rfl
    · rfl
  · by_cases hplaces : 0 < places
    · simp only [if_pos hplaces]
    · simp only [if_neg hplaces]

lemma parse_toString (hm : |m.micros| ≤ 92 * 10 ^ 17) {dp : ℤ} (h0 : 0 ≤ dp) (h6 : dp ≤ 6) :
    ∃ t r, m.toString dp = .ok t ∧ m.roundTo dp = .ok r ∧ parse t = .ok { micros := r.micros } := by
  obtain ⟨r, hr, hrange, hdvd⟩ := roundTo_exists hm h0
  have hplaces : dp.toNat ≤ SCALE := by
    unfold SCALE
    omega
  obtain ⟨hmag, hmicros⟩ := micros_written hplaces hdvd
  refine ⟨String.ofList (written r.micros dp.toNat).text, r, ?_, hr, ?_⟩
  · unfold toString
    rw [if_neg (by omega)]
    dsimp only
    rw [if_neg (by unfold SCALE; omega), hr]
    show Except.ok _ = Except.ok _
    have hpoint : dp > 0 ↔ 0 < dp.toNat := by omega
    rw [text_written]
    simp only [hpoint]
  · rw [parse_text, hmag, hmicros]
    exact ⟨hrange, rfl⟩

/-! ### Micro-units -/

lemma readDigits_eq (text : String) {v : ℤ} {ds : List Char} (hv : 0 ≤ v) (hds : AllDigits ds)
    (hfits : v * 10 ^ ds.length + value ds ≤ int64Max - 9) :
    readDigits text v ds = .ok (v * 10 ^ ds.length + value ds) := by
  induction ds generalizing v with
  | nil => simp [readDigits, value_nil]
  | cons c ds ih =>
      have hc := hds c mem_cons_self
      have hdigit := digitValue_of_isDigit hc
      have hshift : v * 10 ^ (c :: ds).length + value (c :: ds) =
          (v * 10 + digitValue c) * 10 ^ ds.length + value ds := by
        rw [value_cons, length_cons, hdigit]
        push_cast
        ring
      rw [hshift] at hfits ⊢
      have hpow : (1 : ℤ) ≤ 10 ^ ds.length := by exact_mod_cast one_le_pow _ _ (by decide)
      have htenth : v * 10 ≤ int64Max - 9 := by
        nlinarith [natCast_nonneg (value ds), natCast_nonneg (c.toNat - 48)]
      unfold readDigits
      rw [hc, Bool.not_true, if_neg (by decide), if_neg (by omega)]
      exact ih (by omega) (fun x hx => hds x (mem_cons_of_mem c hx)) hfits

lemma toList_int (v : ℤ) : (ToString.toString v).toList =
    (if v < 0 then Sign.minus else Sign.none).text ++ toDigits 10 v.natAbs := by
  cases v with
  | ofNat n =>
      have hpos : ¬ Int.ofNat n < 0 := not_lt.mpr (natCast_nonneg n)
      rw [if_neg hpos]
      exact toList_natCast n
  | negSucc n =>
      rw [if_pos (negSucc_lt_zero n)]
      exact toList_negSucc n

lemma fromDb_toString {v : ℤ} (hv : |v| ≤ 92 * 10 ^ 17) :
    fromDb (ToString.toString v) = .ok { micros := v } := by
  have hdigits : ∀ c ∈ (toDigits 10 v.natAbs).head?, c ≠ '+' ∧ c ≠ '-' := by
    intro c hc
    have hdigit := allDigits_toDigits _ c (mem_of_mem_head? hc)
    constructor
    · rintro rfl
      exact absurd hdigit (by decide)
    · rintro rfl
      exact absurd hdigit (by decide)
  have hread := readDigits_eq (ToString.toString v) le_rfl (allDigits_toDigits v.natAbs) (by
    rw [zero_mul, zero_add, value_toDigits]
    rw [abs_eq_natAbs] at hv
    unfold int64Max
    omega)
  unfold fromDb
  rw [toList_int, parseSign_text _ hdigits]
  dsimp only
  rw [hread, zero_mul, zero_add, value_toDigits]
  show Except.ok _ = Except.ok _
  by_cases hneg : v < 0
  · rw [if_pos hneg]
    show Except.ok (Money.mk (-(v.natAbs : ℤ)) 0) = _
    congr 2
    omega
  · rw [if_neg hneg]
    show Except.ok (Money.mk (v.natAbs : ℤ) 0) = _
    congr 2
    omega

/-- **The texts of money.**  What is written is read back as it was rounded, a
BIGINT as it was, and what is accepted is white space or a numeral in range. -/
theorem money_text_codec : (∀ (m : Money) (dp : ℤ), |m.micros| ≤ 92 * 10 ^ 17 → 0 ≤ dp → dp ≤ 6 →
      ∃ t r, m.toString dp = .ok t ∧ m.roundTo dp = .ok r ∧ parse t = .ok { micros := r.micros }) ∧
    (∀ v : ℤ, |v| ≤ 92 * 10 ^ 17 → fromDb (ToString.toString v) = .ok { micros := v }) ∧
    ∀ (s : String) (m : Money), parse s = .ok m ↔
      ((∀ c ∈ s.toList, isSpace c = true) ∧ m = { micros := 0 }) ∨
        ∃ n : Numeral, s.toList = n.text ∧ (n.magnitude : ℤ) ≤ int64Max ∧
          m = { micros := n.micros } := by
  refine ⟨fun m dp hm h0 h6 => parse_toString hm h0 h6, fun v hv => fromDb_toString hv, ?_⟩
  intro s m
  constructor
  · intro h
    rcases parse_numeral h with hspaces | ⟨n, hn⟩
    · exact .inl hspaces
    · rw [← String.ofList_toList (s := s), hn, parse_text] at h
      exact .inr ⟨n, hn, h⟩
  · rintro (⟨hspaces, rfl⟩ | ⟨n, hn, hm⟩)
    · rw [parse_eq, trimSpaces_eq_nil_iff.mpr hspaces]
    · rw [← String.ofList_toList (s := s), hn]
      exact (parse_text n).mpr hm

end Money

end CErp
