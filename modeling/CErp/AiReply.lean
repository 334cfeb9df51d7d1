/-
Reading JSON out of a model's answer.

A reply is prose with objects in it.  The scanner of `JsonTexts` finds where an
object ends, and the text is parsed from brace to brace; the parser itself is a
parameter.  `extractFrom` takes the objects of a reply in their order, as many
as are asked for (`extractFrom_parts`), and of an object that is cut off nothing
(`extractJsonObjects_cutOff`).

What `dump` writes is JSON, and a reply that carries it is read back.

The compact text of a value belongs to the grammar of `JsonTexts`: strings leave
no quote and no backslash bare (`isStringBody_escapes`), numbers are of digits
and signs.  So the objects of a reply are found from brace to brace, up to the
number asked for (`reply_objects`); one more is left unread
(`ninth_object_unread`).
-/
import CErp.Json
import CErp.JsonTexts

namespace CErp

namespace AiReply

open JsonTexts

variable (parse : List Char → Option Json)

/-- The text from the first opening brace on. -/
def fromBrace (cs : List Char) : List Char := cs.dropWhile (· != '\x7b')

/-- `extractJsonObject`: the first complete object, or null. -/
def extractJsonObject (text : List Char) : Json :=
  match closing {} (fromBrace text) with
  | none => .null
  | some (object, _) => (parse object).getD .null

lemma closing_length {st : Scan} {cs o r : List Char} (h : closing st cs = some (o, r)) :
    r.length < cs.length := by
  induction cs generalizing st o with
  | nil => cases h
  | cons c cs ih =>
      unfold closing at h
      split at h
      · cases h
        exact Nat.lt_succ_self _
      · obtain ⟨⟨o', r'⟩, hp, heq⟩ := Option.map_eq_some_iff.mp h
        cases heq
        exact (ih hp).trans (Nat.lt_succ_self _)

/-- The loop of `extractJsonObjects` on what is left of the text. -/
def extractFrom (maxObjects : ℕ) (out : List Json) (cs : List Char) : List Json :=
  if out.length < maxObjects then
    match _h : closing {} (fromBrace cs) with
    | none => out
    | some (object, rest) =>
        let out := match parse object with
          | none => out
          | some j => out ++ [j]
        extractFrom maxObjects out rest
  else out
termination_by cs.length
decreasing_by
  exact Nat.lt_of_lt_of_le (closing_length _h) (List.dropWhile_suffix _).length_le

/-- How many objects are asked for where the caller does not say. -/
def defaultMaxObjects : ℕ := 8

/-- `extractJsonObjects`. -/
def extractJsonObjects (text : List Char) (maxObjects : ℕ) : List Json :=
  extractFrom parse maxObjects [] text

/-- `looksTruncated`. -/
def looksTruncated (text : List Char) : Bool :=
  match fromBrace text with
  | [] => false
  | rest =>
      if (closing {} rest).isSome then false
      else
        let st := rest.foldl Scan.next {}
        decide (0 < st.depth) || st.inString

/-! ### Replies -/

/-- An object of a reply, and the prose before it. -/
structure Part where
  prose : List Char
  text : List Char
  value : Json

def Part.written (p : Part) : List Char := p.prose ++ p.text

/-- Prose opens no brace, and the text is one of the value. -/
def Part.Holds (p : Part) : Prop :=
  '\x7b' ∉ p.prose ∧ IsObject p.text ∧ parse p.text = some p.value

def reply (parts : List Part) (tail : List Char) : List Char := parts.flatMap Part.written ++ tail

/-- Prose is skipped. -/
lemma fromBrace_prose {prose : List Char} (h : '\x7b' ∉ prose) (cs : List Char) :
    fromBrace (prose ++ cs) = fromBrace cs := by
  apply List.dropWhile_append_of_pos
  intro c hc
  have hne : c ≠ '\x7b' := fun heq => h (heq ▸ hc)
  simpa using hne

lemma fromBrace_of_noBrace {cs : List Char} (h : '\x7b' ∉ cs) : fromBrace cs = [] := by
  have hskip := fromBrace_prose h []
  rw [List.append_nil] at hskip
  exact hskip

lemma fromBrace_object {t : List Char} (h : IsObject t) (cs : List Char) :
    fromBrace (t ++ cs) = t ++ cs := by
  obtain ⟨w, ms, rfl, -⟩ := h
  rfl

/-- The scanner finds the end of the first object. -/
lemma closing_part {p : Part} (h : p.Holds parse) (rest : List Char) :
    closing {} (fromBrace (p.written ++ rest)) = some (p.text, rest) := by
  unfold Part.written
  rw [List.append_assoc, fromBrace_prose h.1, fromBrace_object h.2.1]
  exact closing_object h.2.1 rest

/-- **The objects of a reply are read in their order**, as many as are asked for. -/
theorem extractFrom_parts {parts : List Part} (h : ∀ p ∈ parts, p.Holds parse) (tail : List Char)
    (htail : closing {} (fromBrace tail) = none) (maxObjects : ℕ) (out : List Json) :
    extractFrom parse maxObjects out (reply parts tail) =
      out ++ (parts.map Part.value).take (maxObjects - out.length) := by
  induction parts generalizing out with
  | nil =>
      rw [reply, List.flatMap_nil, List.nil_append, List.map_nil, List.take_nil, List.append_nil]
      unfold extractFrom
      split
      · split
        · rfl
        · next hclosing =>
            rw [htail] at hclosing
            cases hclosing
      · rfl
  | cons p parts ih =>
      rw [List.forall_mem_cons] at h
      have hscan := closing_part parse h.1 (reply parts tail)
      have hreply : reply (p :: parts) tail = p.written ++ reply parts tail := by
        rw [reply, List.flatMap_cons, List.append_assoc]
        rfl
      rw [hreply, extractFrom]
      split
      · next hroom =>
          have hleft : maxObjects - out.length = (maxObjects - (out.length + 1)) + 1 := by omega
          split
          · next hclosing =>
              rw [hscan] at hclosing
              cases hclosing
          · next object rest hclosing =>
              rw [hscan] at hclosing
              cases hclosing
              rw [h.1.2.2]
              rw [ih h.2, hleft, List.map_cons, List.take_succ_cons, List.length_append,
                List.length_singleton, List.append_assoc]
              rfl
      · next hfull =>
          have hnone : maxObjects - out.length = 0 := by omega
          rw [hnone, List.take_zero, List.append_nil]

/-! ### Cut off -/

/-- A reply that breaks off within its first object. -/
structure Broken where
  prose : List Char
  text : List Char
  object : List Char
  proseOpens : '\x7b' ∉ prose
  isObject : IsObject object
  isPrefix : text <+: object
  cut : text ≠ object
  opens : text ≠ []

def Broken.written (b : Broken) : List Char := b.prose ++ b.text

variable (b : Broken)

/-- What the scanner reads of it begins with the brace. -/
lemma Broken.fromBrace_written : fromBrace b.written = b.text := by
  have hopens := b.opens
  have hprefix := b.isPrefix
  obtain ⟨w, ms, heq, -⟩ := b.isObject
  unfold Broken.written
  rw [fromBrace_prose b.proseOpens]
  generalize b.text = text at hopens hprefix
  obtain ⟨c, cs, rfl⟩ := List.exists_cons_of_ne_nil hopens
  rw [heq] at hprefix
  obtain ⟨rfl, -⟩ := List.cons_prefix_cons.mp hprefix
  rfl

/-- It never closes. -/
lemma Broken.closing_written : closing {} (fromBrace b.written) = none := by
  obtain ⟨st, hst, -⟩ := silent_of_prefix b.isObject b.isPrefix b.cut b.opens
  rw [b.fromBrace_written]
  exact closing_eq_none hst

/-- **Of an object that is cut off nothing is read.** -/
theorem extractJsonObjects_cutOff (maxObjects : ℕ) :
    extractJsonObjects parse b.written maxObjects = [] := by
  have hnone := extractFrom_parts parse (List.forall_mem_nil _) b.written b.closing_written
    maxObjects []
  rw [List.map_nil, List.take_nil] at hnone
  exact hnone

lemma looksTruncated_cutOff : looksTruncated b.written = true := by
  obtain ⟨st, hst, hdeep⟩ := silent_of_prefix b.isObject b.isPrefix b.cut b.opens
  have hopens := b.opens
  unfold looksTruncated
  rw [b.fromBrace_written]
  generalize b.text = text at hst hopens
  cases text with
  | nil => exact absurd rfl hopens
  | cons c cs =>
      dsimp only
      rw [closing_eq_none hst, foldl_next hst, Option.isSome_none, if_neg Bool.false_ne_true,
        decide_eq_true hdeep, Bool.true_or]

end AiReply

end CErp

namespace CErp

open JsonTexts AiReply

namespace Json

/-! ### Strings -/

lemma isStringBody_pair (c : Char) : IsStringBody ['\\', c] := .escape .nil

lemma hexDigit_plain {n : ℕ} (h : n < 16) : n.digitChar ≠ '"' ∧ n.digitChar ≠ '\\' := by
  revert h
  revert n
  decide

lemma isStringBody_hexEscape {c : Char} (h : c.toNat < 32) :
    IsStringBody (hexEscape c).toList := by
  obtain ⟨hquote, hback⟩ := hexDigit_plain (n := c.toNat / 16) (by omega)
  obtain ⟨hquote', hback'⟩ := hexDigit_plain (n := c.toNat % 16) (by omega)
  have hdigits : IsStringBody [(c.toNat / 16).digitChar, (c.toNat % 16).digitChar] :=
    .plain hquote hback (.plain hquote' hback' .nil)
  have htext : (hexEscape c).toList =
      '\\' :: 'u' :: '0' :: '0' :: [(c.toNat / 16).digitChar, (c.toNat % 16).digitChar] := by
    unfold hexEscape
    rw [String.toList_append, String.toList_ofList, String.toList_ofList]
    rfl
  rw [htext]
  exact .escape (.plain (by decide) (by decide) (.plain (by decide) (by decide) hdigits))

lemma isStringBody_escapeChar (c : Char) : IsStringBody (escapeChar c).toList := by
  unfold escapeChar
  split_ifs with hquote hback hline hreturn htab hbell hfeed hcontrol
  · exact isStringBody_pair _
  · exact isStringBody_pair _
  · exact isStringBody_pair _
  · exact isStringBody_pair _
  · exact isStringBody_pair _
  · exact isStringBody_pair _
  · exact isStringBody_pair _
  · exact isStringBody_hexEscape hcontrol
  · rw [String.toList_singleton]
    exact .plain hquote hback .nil

/-- The text between the quotes. -/
def escapes (s : String) : List Char := (String.join (s.toList.map escapeChar)).toList

lemma isStringBody_escapes (s : String) : IsStringBody (escapes s) := by
  unfold escapes
  rw [String.toList_join, List.flatMap_map]
  induction s.toList with
  | nil => exact .nil
  | cons c cs ih =>
      rw [List.flatMap_cons]
      exact (isStringBody_escapeChar c).append ih

lemma toList_quote (s : String) : (quote s).toList = stringText (escapes s) := by
  unfold quote
  rw [String.toList_append, String.toList_append]
  rfl

/-! ### Values -/

lemma isScalar_toString (i : ℤ) : IsScalar (toString i).toList := by
  intro c hc
  rcases Decimals.mem_toString hc with hdigit | rfl
  · unfold Char.isAlphanum
    rw [hdigit, Bool.or_true]
    exact .inl rfl
  · exact .inr (.inl rfl)

lemma isScalar_of_all {t : List Char} (h : t.all Char.isAlphanum = true) : IsScalar t :=
  fun c hc => .inl (List.all_eq_true.mp h c hc)

variable [FloatText]

/-- A member as it is written. -/
def member (f : String × Json) : Member := ⟨[], escapes f.1, [], (dump f.2).toList⟩

lemma isKeyed_member (f : String × Json) : (member f).IsKeyed :=
  ⟨List.forall_mem_nil _, isStringBody_escapes _, List.forall_mem_nil _⟩

lemma toList_dumpItems (items : List Json) :
    (dumpItems items).map String.toList = items.map fun j => (dump j).toList := by
  induction items with
  | nil => rfl
  | cons j items ih => rw [dumpItems, List.map_cons, List.map_cons, ih]

variable (fields : List (String × Json))

lemma toList_dumpFields :
    (dumpFields fields).map String.toList = (fields.map member).map Member.text := by
  induction fields with
  | nil => rfl
  | cons f fields ih =>
      obtain ⟨key, j⟩ := f
      rw [dumpFields, List.map_cons, List.map_cons, List.map_cons, ih, String.toList_append,
        String.toList_append, toList_quote]
      unfold Member.text member
      rw [List.nil_append, List.append_nil, List.append_assoc]
      rfl

lemma toList_dump_arr (items : List Json) :
    (dump (.arr items)).toList = arrayText [] (items.map fun j => (dump j).toList) := by
  rw [dump, String.toList_append, String.toList_append, String.toList_intercalate, toList_dumpItems]
  rfl

lemma toList_dump_obj : (dump (.obj fields)).toList = objectText [] (fields.map member) := by
  rw [dump, String.toList_append, String.toList_append, String.toList_intercalate,
    toList_dumpFields]
  rfl

/-- A double is dumped as a number, or as a name. -/
def ScalarFloats : Prop := ∀ x, IsScalar (FloatText.dumpFloat x).toList

mutual

/-- The text of a value is a value's. -/
lemma isValue_dump (hfloat : ScalarFloats) : (j : Json) → IsValue (dump j).toList
  | null => .scalar (isScalar_of_all (t := "null".toList) rfl)
  | bool true => .scalar (isScalar_of_all (t := "true".toList) rfl)
  | bool false => .scalar (isScalar_of_all (t := "false".toList) rfl)
  | num i => .scalar (isScalar_toString i)
  | float x => .scalar (hfloat x)
  | str s => by
      rw [dump, toList_quote]
      exact .string (isStringBody_escapes s)
  | arr items => by
      rw [toList_dump_arr]
      refine .array (List.forall_mem_nil _) ?_
      rw [List.forall_mem_map]
      exact isValue_items hfloat items
  | obj fields => by
      rw [toList_dump_obj]
      refine .object (List.forall_mem_nil _) ?_ ?_
      · rw [List.forall_mem_map]
        exact fun f _ => isKeyed_member f
      · rw [List.forall_mem_map]
        exact isValue_fields hfloat fields

lemma isValue_items (hfloat : ScalarFloats) : (items : List Json) → ∀ j ∈ items, IsValue (dump j).toList
  | [] => List.forall_mem_nil _
  | j :: items => List.forall_mem_cons.mpr ⟨isValue_dump hfloat j, isValue_items hfloat items⟩

lemma isValue_fields (hfloat : ScalarFloats) : (fields : List (String × Json)) →
    ∀ f ∈ fields, IsValue (member f).value
  | [] => List.forall_mem_nil _
  | (_, j) :: fields => List.forall_mem_cons.mpr ⟨isValue_dump hfloat j, isValue_fields hfloat fields⟩

end

/-- **The text of an object is an object's**, from brace to brace. -/
theorem isObject_dump (hfloat : ScalarFloats) (fields : List (String × Json)) :
    IsObject (dump (.obj fields)).toList := by
  refine ⟨[], fields.map member, toList_dump_obj fields, List.forall_mem_nil _, ?_, ?_⟩
  · rw [List.forall_mem_map]
    exact fun f _ => isKeyed_member f
  · rw [List.forall_mem_map]
    exact isValue_fields hfloat fields

end Json

section Replies

variable (parse : List Char → Option Json)

/-- **Replies are read object by object.**  Prose without an opening brace between
the objects is skipped; the objects come in the order written, up to the number
asked for.  Of a reply that breaks off within its first object nothing is read,
and it looks cut off.  What `dump` writes is such an object. -/
theorem reply_objects : (∀ (parts : List Part) (tail : List Char) (maxObjects : ℕ),
        (∀ p ∈ parts, p.Holds parse) → '\x7b' ∉ tail →
        extractJsonObjects parse (reply parts tail) maxObjects =
          (parts.map Part.value).take maxObjects) ∧
      (∀ (b : Broken) (maxObjects : ℕ),
        extractJsonObjects parse b.written maxObjects = [] ∧ looksTruncated b.written = true) ∧
      (∀ [FloatText], Json.ScalarFloats → ∀ fields, IsObject (Json.dump (.obj fields)).toList) := by
  refine ⟨?_, ?_, ?_⟩
  · intro parts tail maxObjects hparts htail
    apply extractFrom_parts parse hparts
    rw [fromBrace_of_noBrace htail]
    rfl
  · exact fun b maxObjects => ⟨extractJsonObjects_cutOff parse b maxObjects, looksTruncated_cutOff b⟩
  · intro _ hfloat fields
    exact Json.isObject_dump hfloat fields

end Replies

/-! ### The ninth object -/

/-- Nothing but empty objects is parsed. -/
def parseEmpty (text : List Char) : Option Json :=
  if text = ['\x7b', '\x7d'] then some (.obj []) else none

def emptyPart : Part := ⟨[], ['\x7b', '\x7d'], .obj []⟩

lemma emptyPart_holds : emptyPart.Holds parseEmpty :=
  ⟨List.not_mem_nil, ⟨[], [], rfl, List.forall_mem_nil _, List.forall_mem_nil _,
    List.forall_mem_nil _⟩, rfl⟩

/-- Nine objects are written, and eight are read. -/
theorem ninth_object_unread : (∀ p ∈ List.replicate 9 emptyPart, p.Holds parseEmpty) ∧
      extractJsonObjects parseEmpty (reply (List.replicate 9 emptyPart) []) defaultMaxObjects ≠
        (List.replicate 9 emptyPart).map Part.value := by
  have hparts : ∀ p ∈ List.replicate 9 emptyPart, p.Holds parseEmpty := by
    intro p hp
    rw [List.eq_of_mem_replicate hp]
    exact emptyPart_holds
  refine ⟨hparts, fun h => ?_⟩
  have hread := extractFrom_parts parseEmpty hparts [] rfl defaultMaxObjects []
  have hlength := congrArg List.length (hread.symm.trans h)
  exact absurd hlength (by decide)

end CErp
