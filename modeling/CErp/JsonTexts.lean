/-
JSON texts, and a scanner that counts their braces.

`IsValue` is the grammar of a value with the white space a writer may put
between its parts; strings may hold any character, behind a backslash too.  The
scanner knows nothing of it but strings and braces: it counts, and closes at the
brace that takes the count back to nothing.

* `Silent`: the scanner reads a text without closing;
* `silent_value`: it reads a value so, and is as deep afterwards as before;
* `closing_object`: an object closes at its last brace;
* `silent_of_prefix`: cut off before, it does not close and is left open.
-/
import Mathlib.Algebra.Order.Ring.Int
import Mathlib.Data.List.Basic

namespace JsonTexts

open List

/-! ### The scanner -/

structure Scan where
  depth : ℤ := 0
  inString : Bool := false
  escaped : Bool := false
  deriving DecidableEq

namespace Scan

/-- The brace that takes the count back to nothing. -/
def Closes (st : Scan) (c : Char) : Prop := st.inString = false ∧ c = '\x7d' ∧ st.depth - 1 = 0

instance (st : Scan) (c : Char) : Decidable (st.Closes c) :=
  inferInstanceAs (Decidable (_ ∧ _ ∧ _))

/-- One character. -/
def next (st : Scan) (c : Char) : Scan :=
  if st.inString then
    if st.escaped then { st with escaped := false }
    else if c = '\\' then { st with escaped := true }
    else if c = '"' then { st with inString := false }
    else st
  else if c = '"' then { st with inString := true }
  else if c = '\x7b' then { st with depth := st.depth + 1 }
  else if c = '\x7d' then { st with depth := st.depth - 1 }
  else st

end Scan

/-- The text up to the closing brace, and the text behind it. -/
def closing (st : Scan) : List Char → Option (List Char × List Char)
  | [] => none
  | c :: cs =>
      if st.Closes c then some ([c], cs)
      else (closing (st.next c) cs).map fun p => (c :: p.1, p.2)

/-- The scanner reads a text without closing. -/
def Silent : Scan → List Char → Scan → Prop
  | st, [], st' => st = st'
  | st, c :: cs, st' => ¬st.Closes c ∧ Silent (st.next c) cs st'

lemma Silent.append {st st₁ st₂ : Scan} {cs ds : List Char} (h : Silent st cs st₁)
    (h' : Silent st₁ ds st₂) : Silent st (cs ++ ds) st₂ := by
  induction cs generalizing st with
  | nil =>
      cases h
      exact h'
  | cons c cs ih => exact ⟨h.1, ih h.2⟩

variable {cs : List Char}

variable {st st' : Scan}

lemma Silent.of_append {ds : List Char} (h : Silent st (cs ++ ds) st') :
    ∃ m, Silent st cs m ∧ Silent m ds st' := by
  induction cs generalizing st with
  | nil => exact ⟨st, rfl, h⟩
  | cons c cs ih =>
      obtain ⟨m, hm, hrest⟩ := ih h.2
      exact ⟨m, ⟨h.1, hm⟩, hrest⟩

lemma closing_silent (h : Silent st cs st') (rest : List Char) :
    closing st (cs ++ rest) = (closing st' rest).map fun p => (cs ++ p.1, p.2) := by
  induction cs generalizing st with
  | nil =>
      cases h
      rw [nil_append]
      rcases closing st' rest with - | ⟨o, r⟩ <;> rfl
  | cons c cs ih =>
      rw [cons_append, closing, if_neg h.1, ih h.2]
      rcases closing st' rest with - | ⟨o, r⟩ <;> rfl

/-- Left open: the text ends before the brace that closes. -/
lemma closing_eq_none (h : Silent st cs st') : closing st cs = none := by
  have hscan := closing_silent h []
  rw [append_nil] at hscan
  exact hscan

lemma foldl_next (h : Silent st cs st') : cs.foldl Scan.next st = st' := by
  induction cs generalizing st with
  | nil => exact h
  | cons c cs ih => exact ih h.2

/-- Who does not close stays deep. -/
lemma Silent.depth_pos (h : Silent st cs st') (hst : 0 < st.depth) : 0 < st'.depth := by
  induction cs generalizing st with
  | nil =>
      cases h
      exact hst
  | cons c cs ih =>
      refine ih h.2 ?_
      have hopen := h.1
      unfold Scan.next
      split_ifs with hin hesc hback hquote hquote hbrace hclose
      · exact hst
      · exact hst
      · exact hst
      · exact hst
      · exact hst
      · show 0 < st.depth + 1
        omega
      · have hne : st.depth - 1 ≠ 0 := fun hzero =>
          hopen ⟨Bool.not_eq_true _ ▸ hin, hclose, hzero⟩
        show 0 < st.depth - 1
        omega
      · exact hst

/-! ### The grammar -/

/-- What stands between the quotes of a string. -/
inductive IsStringBody : List Char → Prop
  | nil : IsStringBody []
  | plain {c : Char} {cs : List Char} (hquote : c ≠ '"') (hback : c ≠ '\\') (h : IsStringBody cs) :
      IsStringBody (c :: cs)
  | escape {c : Char} {cs : List Char} (h : IsStringBody cs) : IsStringBody ('\\' :: c :: cs)

def stringText (body : List Char) : List Char := '"' :: (body ++ ['"'])

def IsSpace (w : List Char) : Prop := ∀ c ∈ w, c = ' ' ∨ c = '\n' ∨ c = '\r' ∨ c = '\t'

/-- A number, or one of the three names, as far as its characters tell. -/
def IsScalar (t : List Char) : Prop := ∀ c ∈ t, c.isAlphanum = true ∨ c = '-' ∨ c = '+' ∨ c = '.'

/-- A member of an object: space, a key, space, and a value. -/
structure Member where
  before : List Char
  key : List Char
  after : List Char
  value : List Char

def Member.text (m : Member) : List Char :=
  m.before ++ stringText m.key ++ m.after ++ ':' :: m.value

def objectText (w : List Char) (ms : List Member) : List Char :=
  '\x7b' :: (w ++ [','].intercalate (ms.map Member.text) ++ ['\x7d'])

def arrayText (w : List Char) (ts : List (List Char)) : List Char :=
  '[' :: (w ++ [','].intercalate ts ++ [']'])

def Member.IsKeyed (m : Member) : Prop :=
  IsSpace m.before ∧ IsStringBody m.key ∧ IsSpace m.after

/-- The texts of values. -/
inductive IsValue : List Char → Prop
  | scalar {t : List Char} (h : IsScalar t) : IsValue t
  | string {body : List Char} (h : IsStringBody body) : IsValue (stringText body)
  | padded {w t w' : List Char} (hw : IsSpace w) (h : IsValue t) (hw' : IsSpace w') :
      IsValue (w ++ t ++ w')
  | array {w : List Char} {ts : List (List Char)} (hw : IsSpace w) (h : ∀ t ∈ ts, IsValue t) :
      IsValue (arrayText w ts)
  | object {w : List Char} {ms : List Member} (hw : IsSpace w) (hkeys : ∀ m ∈ ms, m.IsKeyed)
      (h : ∀ m ∈ ms, IsValue m.value) : IsValue (objectText w ms)

/-- The texts of objects, from brace to brace. -/
def IsObject (t : List Char) : Prop :=
  ∃ w ms, t = objectText w ms ∧ IsSpace w ∧ (∀ m ∈ ms, m.IsKeyed) ∧ ∀ m ∈ ms, IsValue m.value

lemma IsStringBody.append {cs ds : List Char} (h : IsStringBody cs) (h' : IsStringBody ds) :
    IsStringBody (cs ++ ds) := by
  induction h with
  | nil => exact h'
  | plain hquote hback _ ih => exact .plain hquote hback ih
  | escape _ ih => exact .escape ih

/-! ### The scanner on the grammar -/

/-- Between strings, somewhere within an object. -/
def within (d : ℤ) : Scan := ⟨d, false, false⟩

/-- A text without quotes and braces. -/
lemma silent_plain (h : ∀ c ∈ cs, c ≠ '"' ∧ c ≠ '\x7b' ∧ c ≠ '\x7d') (d : ℤ) :
    Silent (within d) cs (within d) := by
  induction cs with
  | nil => rfl
  | cons c cs ih =>
      rw [forall_mem_cons] at h
      obtain ⟨⟨hquote, hopen, hclose⟩, hrest⟩ := h
      have hnext : (within d).next c = within d := by
        have hout : ¬(within d).inString = true := Bool.false_ne_true
        unfold Scan.next
        rw [if_neg hout, if_neg hquote, if_neg hopen, if_neg hclose]
      refine ⟨fun hc => hclose hc.2.1, ?_⟩
      rw [hnext]
      exact ih hrest

lemma silent_char {c : Char} (hquote : c ≠ '"') (hopen : c ≠ '\x7b') (hclose : c ≠ '\x7d')
    (d : ℤ) : Silent (within d) [c] (within d) :=
  silent_plain (forall_mem_singleton.mpr ⟨hquote, hopen, hclose⟩) d

lemma silent_space {w : List Char} (h : IsSpace w) (d : ℤ) : Silent (within d) w (within d) := by
  apply silent_plain
  intro c hc
  rcases h c hc with rfl | rfl | rfl | rfl <;> decide

variable {t : List Char}

lemma silent_scalar (h : IsScalar t) (d : ℤ) : Silent (within d) t (within d) := by
  apply silent_plain
  intro c hc
  rcases h c hc with hc | rfl | rfl | rfl
  · refine ⟨?_, ?_, ?_⟩ <;>
    · rintro rfl
      exact absurd hc (by decide)
  · decide
  · decide
  · decide

lemma silent_body {body : List Char} (h : IsStringBody body) (d : ℤ) :
    Silent ⟨d, true, false⟩ body ⟨d, true, false⟩ := by
  have hopen : ∀ (escaped : Bool) (c : Char), ¬(⟨d, true, escaped⟩ : Scan).Closes c :=
    fun _ _ hc => nomatch hc.1
  induction h with
  | nil => rfl
  | @plain c cs hquote hback _ ih =>
      refine ⟨hopen _ _, ?_⟩
      have hnext : (⟨d, true, false⟩ : Scan).next c = ⟨d, true, false⟩ := by
        unfold Scan.next
        rw [if_pos rfl, if_neg Bool.false_ne_true, if_neg hback, if_neg hquote]
      rw [hnext]
      exact ih
  | escape _ ih => exact ⟨hopen _ _, hopen _ _, ih⟩

lemma silent_string {body : List Char} (h : IsStringBody body) (d : ℤ) :
    Silent (within d) (stringText body) (within d) := by
  have hquote : Silent ⟨d, true, false⟩ ['"'] (within d) := ⟨fun hc => (nomatch hc.1), rfl⟩
  exact ⟨fun hc => absurd hc.2.1 (by decide), (silent_body h d).append hquote⟩

lemma silent_intercalate {ts : List (List Char)} {d : ℤ}
    (h : ∀ t ∈ ts, Silent (within d) t (within d)) :
    Silent (within d) ([','].intercalate ts) (within d) := by
  induction ts with
  | nil => rfl
  | cons t ts ih =>
      rw [forall_mem_cons] at h
      cases ts with
      | nil =>
          rw [intercalate_singleton]
          exact h.1
      | cons t' ts =>
          have hcomma : Silent (within d) [','] (within d) :=
            silent_char (by decide) (by decide) (by decide) d
          rw [intercalate_cons_cons]
          exact (h.1.append hcomma).append (ih h.2)

lemma silent_member {m : Member} {d : ℤ} (hkey : m.IsKeyed)
    (h : Silent (within d) m.value (within d)) : Silent (within d) m.text (within d) := by
  have hcolon : Silent (within d) [':'] (within d) :=
    silent_char (by decide) (by decide) (by decide) d
  exact (((silent_space hkey.1 d).append (silent_string hkey.2.1 d)).append
    (silent_space hkey.2.2 d)).append (hcolon.append h)

/-- The inside of an object. -/
lemma silent_members {w : List Char} {ms : List Member} {d : ℤ} (hw : IsSpace w)
    (hkeys : ∀ m ∈ ms, m.IsKeyed) (h : ∀ m ∈ ms, Silent (within d) m.value (within d)) :
    Silent (within d) (w ++ [','].intercalate (ms.map Member.text)) (within d) := by
  refine (silent_space hw d).append (silent_intercalate ?_)
  rw [forall_mem_map]
  exact fun m hm => silent_member (hkeys m hm) (h m hm)

/-- **A value within an object does not close it.** -/
theorem silent_value (h : IsValue t) {d : ℤ} (hd : 0 < d) : Silent (within d) t (within d) := by
  induction h generalizing d with
  | scalar h => exact silent_scalar h d
  | string h => exact silent_string h d
  | padded hw _ hw' ih => exact ((silent_space hw d).append (ih hd)).append (silent_space hw' d)
  | array hw _ ih =>
      have hopen : Silent (within d) ['['] (within d) :=
        silent_char (by decide) (by decide) (by decide) d
      have hclose : Silent (within d) [']'] (within d) :=
        silent_char (by decide) (by decide) (by decide) d
      exact hopen.append (((silent_space hw d).append
        (silent_intercalate fun t ht => ih t ht hd)).append hclose)
  | object hw hkeys _ ih =>
      -- inside the braces the scanner is one level deeper, so the last brace closes nothing
      have hopen : Silent (within d) ['\x7b'] (within (d + 1)) :=
        ⟨fun hc => absurd hc.2.1 (by decide), rfl⟩
      have hclose : Silent (within (d + 1)) ['\x7d'] (within d) := by
        refine ⟨?_, ?_⟩
        · rintro ⟨-, -, hzero⟩
          have hd' : d + 1 - 1 = 0 := hzero
          omega
        · show (⟨d + 1 - 1, false, false⟩ : Scan) = ⟨d, false, false⟩
          rw [Int.add_sub_cancel]
      exact hopen.append ((silent_members hw hkeys fun m hm => ih m hm (by omega)).append hclose)

/-- Between the braces of an object the scanner is at depth one. -/
lemma exists_inside (h : IsObject t) :
    ∃ inside, t = '\x7b' :: (inside ++ ['\x7d']) ∧ Silent (within 1) inside (within 1) := by
  obtain ⟨w, ms, rfl, hw, hkeys, hvalues⟩ := h
  exact ⟨_, rfl, silent_members hw hkeys fun m hm => silent_value (hvalues m hm) one_pos⟩

/-- **An object closes at its last brace.** -/
theorem closing_object (h : IsObject t) (rest : List Char) :
    closing {} (t ++ rest) = some (t, rest) := by
  obtain ⟨inside, rfl, hinside⟩ := exists_inside h
  have hopen : Silent {} ('\x7b' :: inside) (within 1) :=
    ⟨fun hc => absurd hc.2.1 (by decide), hinside⟩
  have hclose : closing (within 1) ('\x7d' :: rest) = some (['\x7d'], rest) := by
    rw [closing, if_pos ⟨rfl, rfl, by decide⟩]
  have hscan := closing_silent hopen ('\x7d' :: rest)
  rw [hclose] at hscan
  rw [cons_append, append_assoc]
  exact hscan

/-- **An object that is cut off is left open.** -/
theorem silent_of_prefix {p : List Char} (h : IsObject t) (hp : p <+: t) (hne : p ≠ t)
    (hopen : p ≠ []) : ∃ st, Silent {} p st ∧ 0 < st.depth := by
  obtain ⟨inside, rfl, hinside⟩ := exists_inside h
  obtain ⟨c, p', rfl⟩ := exists_cons_of_ne_nil hopen
  obtain ⟨rfl, hp'⟩ := cons_prefix_cons.mp hp
  have hin : p' <+: inside := by
    rcases prefix_concat_iff.mp hp' with heq | hin
    · exact absurd (by rw [heq]) hne
    · exact hin
  obtain ⟨q, rfl⟩ := hin
  obtain ⟨st, hst, -⟩ := hinside.of_append
  exact ⟨st, ⟨fun hc => absurd hc.2.1 (by decide), hst⟩, hst.depth_pos one_pos⟩

end JsonTexts
