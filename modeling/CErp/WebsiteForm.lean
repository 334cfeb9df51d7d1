/-
The public route a website form is submitted to.

A value is its bytes: a text is cut at a number of bytes, which need not be the
end of a character, and a text that is not UTF-8 cannot be written as JSON.
Whether the limiter lets the caller through and what the JSON library makes of
the body come with the request; a number is an integer or a finite double.

`proper_iff` says when what is stored is what was declared.
-/
import CErp.DoubleText

namespace CErp

open List Char

namespace WebsiteForm

/-! ### Forms and requests -/

/-- A row of `website_form_field`. -/
structure FormField where
  name : String
  label : String
  fieldType : String
  required : Bool
deriving DecidableEq

/-- A form with its fields in order, no two of one name; a NULL text is empty. -/
structure Form where
  title : String
  successMessage : String
  targetModel : String
  active : Bool
  fields : List FormField
  distinct : (fields.map FormField.name).Nodup

/-- A member of the body; null, arrays and objects are all one. -/
inductive FormValue where
  | str (s : String)
  | int (i : ℤ)
  | float (x : DoubleText.Double)
  | bool (b : Bool)
  | other
deriving DecidableEq

/-- What the JSON library makes of a body. -/
inductive Body where
  | malformed
  | scalarOrArray
  | object (fields : List (String × FormValue))

structure FormRequest where
  allowed : Bool
  slug : String
  size : ℕ
  body : Body

/-- The tables: the forms by slug, and whether there is a project. -/
structure FormDb where
  forms : String → Option Form
  hasProject : Bool

def kMaxFieldLen : ℕ := 4000

def kMaxTotalLen : ℕ := 20000

/-- `R::isValidSlug`. -/
def isValidSlug (slug : String) : Bool :=
  let cs := slug.toList
  !(cs.isEmpty || decide (120 < cs.length)) &&
    !(cs.head? == some '/' || cs.getLast? == some '/') &&
    !decide (['.', '.'] <:+: cs) && !decide (['/', '/'] <:+: cs) &&
    cs.all fun c => ('a' ≤ c && c ≤ 'z') || c.isDigit || c == '-' || c == '/'

/-! ### Values -/

/-- The text of a scalar. -/
def coerce : Option FormValue → String
  | some (.str s) => s
  | some (.int i) => toString (i.bmod (2 ^ 64))
  | some (.float x) => String.ofList (DoubleText.fixed 6 x)
  | some (.bool b) => if b then "yes" else ""
  | some .other => ""
  | none => ""

/-- `if (val.size() > kMaxFieldLen) val = val.substr(0, kMaxFieldLen);` -/
def cut (s : String) : ByteArray :=
  if s.toByteArray.size > kMaxFieldLen then s.toByteArray.extract 0 kMaxFieldLen else s.toByteArray

def isDigitByte (c : UInt8) : Bool := 48 ≤ c && c ≤ 57

def isSignByte (c : UInt8) : Bool := c == 45 || c == 43

/-- `.` -/
def dot : UInt8 := 46

/-- The loop of the numeric check, at its first byte or later: every byte is let
through, and a digit was seen. -/
def numericLoop : Bool → Bool → List UInt8 → Bool
  | _, seenDigit, [] => seenDigit
  | first, seenDigit, c :: cs =>
      if isDigitByte c then numericLoop false true cs
      else if isSignByte c && first then numericLoop false seenDigit cs
      else if c == dot then numericLoop false seenDigit cs
      else false

def isNumeric (val : ByteArray) : Bool := numericLoop true false val.data.toList

/-- The value of a field, after the check of a number. -/
def fieldValue (body : List (String × FormValue)) (fl : FormField) : ByteArray :=
  let val := cut (coerce (body.lookup fl.name))
  if fl.fieldType = "number" ∧ ¬ val.isEmpty ∧ ¬ isNumeric val then ByteArray.empty else val

/-! ### The route -/

/-- What the loop over the fields collects. -/
structure Collected where
  data : List (String × ByteArray) := []
  missing : List String := []
  total : ℕ := 0

/-- `data[nm] = val;`, the members in the order of their names. -/
def setMember (nm : String) (val : ByteArray) :
    List (String × ByteArray) → List (String × ByteArray)
  | [] => [(nm, val)]
  | m :: ms =>
      if m.1 = nm then (nm, val) :: ms
      else if nm < m.1 then (nm, val) :: m :: ms
      else m :: setMember nm val ms

def collectField (body : List (String × FormValue)) (c : Collected) (fl : FormField) : Collected :=
  let val := fieldValue body fl
  { data := if val.isEmpty then c.data else setMember fl.name val c.data
    missing := if fl.required && val.isEmpty then
      c.missing ++ [if fl.label.isEmpty then fl.name else fl.label] else c.missing
    total := c.total + (cut (coerce (body.lookup fl.name))).size }

def collect (fields : List FormField) (body : List (String × FormValue)) : Collected :=
  fields.foldl (collectField body) {}

/-- The task a submission is routed to. -/
structure FormTask where
  name : String
  description : ByteArray

/-- What becomes of a request. -/
inductive Outcome where
  /-- Refused with a status and an error text. -/
  | refused (status : ℕ) (error : String)
  /-- Answered as if it had been stored. -/
  | discarded
  | stored (data : List (String × ByteArray)) (task : Option FormTask) (message : String)
  /-- An exception on the way. -/
  | failed (error : String)

/-- A line for each member. -/
def summary (data : List (String × ByteArray)) : ByteArray :=
  data.foldl (fun s m => (if s.isEmpty then s else s ++ "\n".toByteArray) ++
    m.1.toByteArray ++ ": ".toByteArray ++ m.2) ByteArray.empty

/-- `data.dump()`, as far as it throws: the bytes of every value must be UTF-8. -/
def dumpable (data : List (String × ByteArray)) : Bool := data.all fun m => m.2.validateUTF8

/-- The body has the field no person fills. -/
def honeypot (body : List (String × FormValue)) : Bool :=
  match body.lookup "website" with
  | some (.str s) => !s.isEmpty
  | _ => false

/-- The submission of a body to a form. -/
def submitTo (db : FormDb) (f : Form) (body : List (String × FormValue)) : Outcome :=
  if honeypot body then .discarded
  else
    let c := collect f.fields body
    if c.total > kMaxTotalLen then .refused 400 "That submission is too large."
    else if c.missing ≠ [] then
      .refused 400 ("Please complete: " ++ ", ".intercalate c.missing)
    else if c.data = [] then .refused 400 "Nothing was submitted."
    else if dumpable c.data then
      .stored c.data
        (if f.targetModel = "project.task" ∧ db.hasProject then
          some ⟨"Website: " ++ f.title, summary c.data⟩ else none)
        (if f.successMessage.isEmpty then "Thank you — we have received your message."
          else f.successMessage)
    else .failed "[json.exception.type_error.316] invalid UTF-8 byte"

/-- `POST /site/form/<slug>`. -/
def submit (db : FormDb) (r : FormRequest) : Outcome :=
  if !r.allowed then .refused 429 "Too many submissions. Please try again shortly."
  else if !isValidSlug r.slug then .refused 404 "Unknown form"
  else if r.size > kMaxTotalLen then .refused 400 "That submission is too large."
  else match r.body with
    | .malformed => .refused 400 "Invalid submission"
    | .scalarOrArray => .refused 400 "Invalid submission"
    | .object body =>
        match (db.forms r.slug).filter (·.active) with
        | none => .refused 404 "Unknown form"
        | some f => submitTo db f body

/-! ### What is declared -/

/-- An optional sign, and digits with at most one point among them. -/
def IsNumeral (bs : List UInt8) : Prop :=
  ∃ sign body, bs = sign ++ body ∧ (sign = [] ∨ ∃ c, isSignByte c = true ∧ sign = [c]) ∧
    (∀ c ∈ body, isDigitByte c = true ∨ c = dot) ∧ (∃ c ∈ body, isDigitByte c = true) ∧
    bs.count dot ≤ 1

/-- What may be stored of a form: declared names with values, every required
field among them, texts that are UTF-8 and numbers that are numerals. -/
structure Declared (f : Form) (data : List (String × ByteArray)) : Prop where
  names : ∀ m ∈ data, m.1 ∈ f.fields.map FormField.name ∧ m.2.isEmpty = false
  required : ∀ fl ∈ f.fields, fl.required = true → fl.name ∈ data.map Prod.fst
  utf8 : ∀ m ∈ data, m.2.IsValidUTF8
  numbers : ∀ fl ∈ f.fields, fl.fieldType = "number" →
    ∀ m ∈ data, m.1 = fl.name → IsNumeral m.2.data.toList

/-- What a request may come to. -/
def Proper (db : FormDb) (r : FormRequest) : Prop :=
  match submit db r with
  | .refused _ _ => True
  | .discarded => True
  | .stored data _ _ => ∃ f, db.forms r.slug = some f ∧ Declared f data
  | .failed _ => False

/-- The text the body has for a field, as it is cut. -/
def textOf (body : List (String × FormValue)) (fl : FormField) : ByteArray :=
  cut (coerce (body.lookup fl.name))

/-- The body gives the field a text, which passes the check of a number. -/
def Given (body : List (String × FormValue)) (fl : FormField) : Prop :=
  (textOf body fl).isEmpty = false ∧ (fl.fieldType = "number" → isNumeric (textOf body fl) = true)

/-- The route gets as far as writing the data. -/
structure Accepted (db : FormDb) (r : FormRequest) (f : Form)
    (body : List (String × FormValue)) : Prop where
  allowed : r.allowed = true
  slug : isValidSlug r.slug = true
  size : r.size ≤ kMaxTotalLen
  parsed : r.body = .object body
  form : db.forms r.slug = some f
  active : f.active = true
  person : honeypot body = false
  total : (f.fields.map fun fl => (textOf body fl).size).sum ≤ kMaxTotalLen
  complete : ∀ fl ∈ f.fields, fl.required = true → Given body fl
  something : ∃ fl ∈ f.fields, Given body fl

/-- The text is too long and is cut inside a character. -/
def CutsCharacter (s : String) : Prop :=
  kMaxFieldLen < s.toByteArray.size ∧ ¬ String.Pos.Raw.IsValid s ⟨kMaxFieldLen⟩

/-- No text is cut inside a character, and no number has two points. -/
def Clean (f : Form) (body : List (String × FormValue)) : Prop :=
  ∀ fl ∈ f.fields, (fl.fieldType ≠ "number" → ¬ CutsCharacter (coerce (body.lookup fl.name))) ∧
    (fl.fieldType = "number" → isNumeric (textOf body fl) = true →
      (textOf body fl).data.toList.count dot ≤ 1)

/-! ### Bytes -/

lemma numericLoop_later_iff (seen : Bool) (bs : List UInt8) : numericLoop false seen bs = true ↔
    (∀ c ∈ bs, isDigitByte c = true ∨ c = dot) ∧ (seen = true ∨ ∃ c ∈ bs, isDigitByte c = true) := by
  induction bs generalizing seen with
  | nil => simp [numericLoop]
  | cons c cs ih =>
      unfold numericLoop
      split
      · next hc =>
          rw [ih, forall_mem_cons]
          constructor
          · rintro ⟨hall, -⟩
            exact ⟨⟨.inl hc, hall⟩, .inr ⟨c, mem_cons_self, hc⟩⟩
          · rintro ⟨⟨-, hall⟩, -⟩
            exact ⟨hall, .inl rfl⟩
      · next hc =>
          rw [Bool.and_false, if_neg Bool.false_ne_true]
          split
          · next hdot =>
              have hc' : isDigitByte c = false := eq_false_of_ne_true hc
              rw [ih, forall_mem_cons, exists_mem_cons_iff, hc']
              simp [beq_iff_eq.mp hdot]
          · next hdot =>
              refine iff_of_false Bool.false_ne_true ?_
              rintro ⟨hall, -⟩
              rcases hall c mem_cons_self with h | h
              · exact hc h
              · exact hdot (beq_iff_eq.mpr h)

/-- What the numeric check lets through. -/
lemma numericLoop_iff (bs : List UInt8) : numericLoop true false bs = true ↔
    ∃ sign body, bs = sign ++ body ∧ (sign = [] ∨ ∃ c, isSignByte c = true ∧ sign = [c]) ∧
      (∀ c ∈ body, isDigitByte c = true ∨ c = dot) ∧ ∃ c ∈ body, isDigitByte c = true := by
  have hdotDigit : isDigitByte dot = false := by decide
  have hdotSign : isSignByte dot = false := by decide
  have hsign : ∀ c, isSignByte c = true → isDigitByte c = false := by
    intro c hc
    unfold isSignByte at hc
    rw [Bool.or_eq_true, beq_iff_eq, beq_iff_eq] at hc
    rcases hc with rfl | rfl
    · decide
    · decide
  -- a body without a sign goes on as one after a sign does
  have hbody : ∀ body : List UInt8, (∀ c ∈ body, isDigitByte c = true ∨ c = dot) →
      numericLoop true false body = numericLoop false false body := by
    intro body hall
    cases body with
    | nil => rfl
    | cons c cs =>
        unfold numericLoop
        rcases hall c mem_cons_self with hc | rfl
        · rw [if_pos hc, if_pos hc]
        · rw [hdotSign, Bool.false_and, Bool.false_and]
  constructor
  · intro h
    cases bs with
    | nil => cases h
    | cons c cs =>
        unfold numericLoop at h
        split at h
        · next hc =>
            refine ⟨[], c :: cs, rfl, .inl rfl, ?_, c, mem_cons_self, hc⟩
            rw [forall_mem_cons]
            exact ⟨.inl hc, ((numericLoop_later_iff true cs).mp h).1⟩
        · split at h
          · next hs =>
              obtain ⟨hall, hdigit⟩ := (numericLoop_later_iff false cs).mp h
              rw [Bool.and_true] at hs
              exact ⟨[c], cs, rfl, .inr ⟨c, hs, rfl⟩, hall, hdigit.resolve_left Bool.false_ne_true⟩
          · split at h
            · next hdot =>
                obtain ⟨hall, hdigit⟩ := (numericLoop_later_iff false cs).mp h
                refine ⟨[], c :: cs, rfl, .inl rfl, ?_, ?_⟩
                · rw [forall_mem_cons]
                  exact ⟨.inr (beq_iff_eq.mp hdot), hall⟩
                · obtain ⟨d, hd, hd'⟩ := hdigit.resolve_left Bool.false_ne_true
                  exact ⟨d, mem_cons_of_mem c hd, hd'⟩
            · cases h
  · rintro ⟨sign, body, rfl, rfl | ⟨c, hc, rfl⟩, hall, hdigit⟩
    · rw [nil_append, hbody body hall, numericLoop_later_iff]
      exact ⟨hall, .inr hdigit⟩
    · rw [singleton_append]
      unfold numericLoop
      rw [hsign c hc, hc, if_neg Bool.false_ne_true, Bool.and_true, if_pos rfl,
        numericLoop_later_iff]
      exact ⟨hall, .inr hdigit⟩

/-- Bytes below 128 are characters. -/
lemma isValidUTF8_of_ascii {b : ByteArray} (h : ∀ c ∈ b.data.toList, c < 128) :
    b.IsValidUTF8 := by
  suffices hlist : ∀ l : List UInt8, (∀ c ∈ l, c < 128) →
      (ByteArray.mk l.toArray).IsValidUTF8 from hlist b.data.toList h
  intro l hl
  induction l using List.reverseRecOn with
  | nil => exact ByteArray.isValidUTF8_empty
  | append_singleton l c ih =>
      rw [forall_mem_append, forall_mem_singleton] at hl
      have hpush : ByteArray.mk (l ++ [c]).toArray = (ByteArray.mk l.toArray).push c := by
        rw [ByteArray.push, ← push_toArray]
      have hbyte : c = (ofUInt8 c).val.toUInt8 := by simp [ofUInt8]
      have hsize : (ofUInt8 c).utf8Size = 1 := by
        have hlt : c < 128 := hl.2
        rw [utf8Size_eq_one_iff]
        rw [UInt32.le_iff_toNat_le]
        simp [ofUInt8, UInt8.lt_iff_toNat_lt] at *
        omega
      rw [hpush, hbyte]
      exact (ih hl.1).push hsize

lemma isNumeric_utf8 {b : ByteArray} (h : isNumeric b = true) : b.IsValidUTF8 := by
  obtain ⟨sign, body, hbytes, hsign, hall, -⟩ := (numericLoop_iff _).mp h
  apply isValidUTF8_of_ascii
  rw [hbytes, forall_mem_append]
  constructor
  · rcases hsign with rfl | ⟨c, hc, rfl⟩
    · simp
    · rw [forall_mem_singleton]
      unfold isSignByte at hc
      rw [Bool.or_eq_true, beq_iff_eq, beq_iff_eq] at hc
      rcases hc with rfl | rfl
      · decide
      · decide
  · intro c hc
    rcases hall c hc with hdigit | rfl
    · unfold isDigitByte at hdigit
      rw [Bool.and_eq_true, decide_eq_true_iff, decide_eq_true_iff] at hdigit
      exact UInt8.lt_of_le_of_lt hdigit.2 (by decide)
    · decide

lemma isNumeral_iff (b : ByteArray) :
    IsNumeral b.data.toList ↔ isNumeric b = true ∧ b.data.toList.count dot ≤ 1 := by
  unfold isNumeric
  rw [numericLoop_iff]
  constructor
  · rintro ⟨sign, body, hbytes, hsign, hall, hdigit, hcount⟩
    exact ⟨⟨sign, body, hbytes, hsign, hall, hdigit⟩, hcount⟩
  · rintro ⟨⟨sign, body, hbytes, hsign, hall, hdigit⟩, hcount⟩
    exact ⟨sign, body, hbytes, hsign, hall, hdigit, hcount⟩

/-- A text is cut to UTF-8 exactly when no character is cut. -/
lemma cut_utf8_iff (s : String) : (cut s).IsValidUTF8 ↔ ¬ CutsCharacter s := by
  unfold cut CutsCharacter
  split
  · next hlong =>
      rw [not_and, not_not, String.Pos.Raw.isValid_iff_isValidUTF8_extract_zero]
      constructor
      · intro hvalid _
        refine ⟨?_, hvalid⟩
        rw [String.Pos.Raw.le_iff]
        exact le_of_lt hlong
      · intro h
        exact (h hlong).2
  · next hshort => exact iff_of_true s.isValidUTF8 fun h => hshort h.1

/-! ### What is collected -/

lemma setMember_perm {nm : String} {data : List (String × ByteArray)} (val : ByteArray)
    (h : nm ∉ data.map Prod.fst) : (setMember nm val data).Perm ((nm, val) :: data) := by
  induction data with
  | nil => exact List.Perm.refl _
  | cons m ms ih =>
      rw [map_cons, mem_cons, not_or] at h
      unfold setMember
      rw [if_neg (Ne.symm h.1)]
      split
      · exact List.Perm.refl _
      · exact ((ih h.2).cons m).trans (List.Perm.swap _ _ _)

variable (fields : List FormField)

lemma collect_append (fl : FormField) (body : List (String × FormValue)) :
    collect (fields ++ [fl]) body = collectField body (collect fields body) fl := by
  unfold collect
  rw [foldl_append, foldl_cons, foldl_nil]

/-- The members are the declared fields that have a value. -/
lemma mem_collect_iff {fields : List FormField} (hd : (fields.map FormField.name).Nodup)
    (body : List (String × FormValue)) (m : String × ByteArray) :
    m ∈ (collect fields body).data ↔
      ∃ fl ∈ fields, m = (fl.name, fieldValue body fl) ∧ (fieldValue body fl).isEmpty = false := by
  induction fields using List.reverseRecOn generalizing m with
  | nil => simp [collect]
  | append_singleton fields fl ih =>
      rw [map_append, map_singleton, nodup_append] at hd
      obtain ⟨hfields, -, hfresh⟩ := hd
      have hnew : fl.name ∉ (collect fields body).data.map Prod.fst := by
        intro hmem
        obtain ⟨m', hm', heq⟩ := mem_map.mp hmem
        obtain ⟨fl', hfl', rfl, -⟩ := (ih hfields m').mp hm'
        exact hfresh fl'.name (mem_map_of_mem hfl') fl.name (mem_singleton_self _) heq
      rw [collect_append, collectField]
      cases hval : (fieldValue body fl).isEmpty with
      | true =>
          rw [if_pos rfl, ih hfields]
          constructor
          · rintro ⟨fl', hfl', h⟩
            exact ⟨fl', mem_append_left [fl] hfl', h⟩
          · rintro ⟨fl', hfl', h, hne⟩
            rw [mem_append, mem_singleton] at hfl'
            rcases hfl' with hfl' | rfl
            · exact ⟨fl', hfl', h, hne⟩
            · rw [hval] at hne
              cases hne
      | false =>
          rw [if_neg Bool.false_ne_true, (setMember_perm _ hnew).mem_iff, mem_cons, ih hfields]
          constructor
          · rintro (h | ⟨fl', hfl', h⟩)
            · exact ⟨fl, mem_append_right fields (mem_singleton_self fl), h, hval⟩
            · exact ⟨fl', mem_append_left [fl] hfl', h⟩
          · rintro ⟨fl', hfl', h⟩
            rw [mem_append, mem_singleton] at hfl'
            rcases hfl' with hfl' | rfl
            · exact .inr ⟨fl', hfl', h⟩
            · exact .inl h.1

lemma total_collect (body : List (String × FormValue)) :
    (collect fields body).total = (fields.map fun fl => (textOf body fl).size).sum := by
  induction fields using List.reverseRecOn with
  | nil => rfl
  | append_singleton fields fl ih =>
      rw [collect_append, collectField, ih, map_append, sum_append, map_singleton,
        List.sum_singleton, textOf]

lemma isEmpty_eq_false_of_isNumeric {b : ByteArray} (h : isNumeric b = true) :
    b.isEmpty = false := by
  cases hb : b.isEmpty with
  | false => rfl
  | true =>
      have hempty : b = ByteArray.empty := ByteArray.size_eq_zero_iff.mp (beq_iff_eq.mp hb)
      rw [hempty] at h
      cases h

variable (body : List (String × FormValue))

lemma given_iff (fl : FormField) : Given body fl ↔ (fieldValue body fl).isEmpty = false := by
  unfold Given fieldValue
  change _ ↔ (if fl.fieldType = "number" ∧ ¬ (textOf body fl).isEmpty = true ∧
    ¬ isNumeric (textOf body fl) = true then ByteArray.empty else textOf body fl).isEmpty = false
  split
  · next h =>
      refine iff_of_false (fun hg => h.2.2 (hg.2 h.1)) fun hne => ?_
      cases hne
  · next h =>
      constructor
      · exact And.left
      · intro hne
        refine ⟨hne, fun hty => ?_⟩
        by_contra hnum
        refine h ⟨hty, ?_, hnum⟩
        rw [hne]
        exact Bool.false_ne_true

/-- Nothing is missing when every required field is given. -/
lemma missing_eq_nil_iff (body : List (String × FormValue)) :
    (collect fields body).missing = [] ↔ ∀ fl ∈ fields, fl.required = true → Given body fl := by
  induction fields using List.reverseRecOn with
  | nil => simp [collect]
  | append_singleton fields fl ih =>
      rw [collect_append, collectField, forall_mem_append, forall_mem_singleton, ← ih, given_iff]
      cases fl.required with
      | false => simp
      | true => cases (fieldValue body fl).isEmpty <;> simp

lemma data_ne_nil_iff {fields : List FormField} (hd : (fields.map FormField.name).Nodup)
    (body : List (String × FormValue)) :
    (collect fields body).data ≠ [] ↔ ∃ fl ∈ fields, Given body fl := by
  constructor
  · intro h
    obtain ⟨m, hm⟩ := exists_mem_of_ne_nil _ h
    obtain ⟨fl, hfl, -, hne⟩ := (mem_collect_iff hd body m).mp hm
    exact ⟨fl, hfl, (given_iff body fl).mpr hne⟩
  · rintro ⟨fl, hfl, hg⟩
    exact ne_nil_of_mem
      ((mem_collect_iff hd body (fl.name, _)).mpr ⟨fl, hfl, rfl, (given_iff body fl).mp hg⟩)

/-! ### Values that may be stored -/

/-- A value that is stored is UTF-8 and a numeral where it must be, exactly when
the text of the field is clean. -/
lemma fieldValue_sound_iff (fl : FormField) :
    ((fieldValue body fl).isEmpty = false → (fieldValue body fl).IsValidUTF8 ∧
        (fl.fieldType = "number" → IsNumeral (fieldValue body fl).data.toList)) ↔
      (fl.fieldType ≠ "number" → ¬ CutsCharacter (coerce (body.lookup fl.name))) ∧
      (fl.fieldType = "number" → isNumeric (textOf body fl) = true →
        (textOf body fl).data.toList.count dot ≤ 1) := by
  unfold fieldValue textOf
  by_cases hty : fl.fieldType = "number"
  · simp only [hty, true_and, ne_eq, not_true_eq_false, false_implies, forall_const]
    cases hnum : isNumeric (cut (coerce (body.lookup fl.name))) with
    | true =>
        have hne := isEmpty_eq_false_of_isNumeric hnum
        rw [if_neg (fun h => h.2 rfl), isNumeral_iff, hnum, hne]
        simp [isNumeric_utf8 hnum]
    | false =>
        -- prose is dropped, so nothing is stored
        refine iff_of_true ?_ fun h => absurd h Bool.false_ne_true
        split
        · intro h
          cases h
        · next h =>
            intro hne
            refine absurd ⟨?_, Bool.false_ne_true⟩ h
            rw [hne]
            exact Bool.false_ne_true
  · rw [if_neg fun h => hty h.1]
    simp only [hty, ne_eq, not_false_eq_true, true_implies, false_implies, and_true]
    rw [← cut_utf8_iff]
    constructor
    · intro h
      cases hval : (cut (coerce (body.lookup fl.name))).isEmpty with
      | false => exact h hval
      | true =>
          rw [ByteArray.size_eq_zero_iff.mp (beq_iff_eq.mp hval)]
          exact ByteArray.isValidUTF8_empty
    · intro h _
      exact h

/-- What is collected can be written and is what was declared, exactly when the
body is clean. -/
lemma declared_iff (f : Form) (body : List (String × FormValue))
    (hc : ∀ fl ∈ f.fields, fl.required = true → Given body fl) :
    (dumpable (collect f.fields body).data = true ∧ Declared f (collect f.fields body).data) ↔
      Clean f body := by
  have hmem := mem_collect_iff f.distinct body
  constructor
  · rintro ⟨-, hdecl⟩ fl hfl
    rw [← fieldValue_sound_iff]
    intro hne
    have hm := (hmem (fl.name, fieldValue body fl)).mpr ⟨fl, hfl, rfl, hne⟩
    exact ⟨hdecl.utf8 _ hm, fun hty => hdecl.numbers fl hfl hty _ hm rfl⟩
  · intro hclean
    have hsound : ∀ fl ∈ f.fields, _ := fun fl hfl =>
      (fieldValue_sound_iff body fl).mpr (hclean fl hfl)
    have hutf8 : ∀ m ∈ (collect f.fields body).data, m.2.IsValidUTF8 := by
      intro m hm
      obtain ⟨fl, hfl, rfl, hne⟩ := (hmem m).mp hm
      exact (hsound fl hfl hne).1
    refine ⟨?_, ⟨?_, ?_, hutf8, ?_⟩⟩
    · unfold dumpable
      rw [List.all_eq_true]
      intro m hm
      exact ByteArray.validateUTF8_eq_true_iff.mpr (hutf8 m hm)
    · intro m hm
      obtain ⟨fl, hfl, rfl, hne⟩ := (hmem m).mp hm
      exact ⟨mem_map_of_mem hfl, hne⟩
    · intro fl hfl hreq
      exact mem_map_of_mem (f := Prod.fst)
        ((hmem (fl.name, fieldValue body fl)).mpr ⟨fl, hfl, rfl, (given_iff body fl).mp (hc fl hfl hreq)⟩)
    · intro fl hfl hty m hm hname
      obtain ⟨fl', hfl', rfl, hne⟩ := (hmem m).mp hm
      -- names are not repeated, so the two fields are one
      have heq : fl' = fl := inj_on_of_nodup_map f.distinct hfl' hfl hname
      rw [heq] at hne ⊢
      exact (hsound fl hfl hne).2 hty

/-! ### The route -/

lemma submit_of_accepted {db : FormDb} {r : FormRequest} {f : Form}
    {body : List (String × FormValue)} (h : Accepted db r f body) :
    (dumpable (collect f.fields body).data = true ∧ ∃ task message,
        submit db r = .stored (collect f.fields body).data task message) ∨
      (dumpable (collect f.fields body).data = false ∧ ∃ error, submit db r = .failed error) := by
  have hsubmit : submit db r = submitTo db f body := by
    unfold submit
    rw [h.allowed, h.slug, if_neg (not_lt.mpr h.size), h.parsed, h.form]
    simp [Option.filter, h.active]
  rw [hsubmit, submitTo, h.person, if_neg Bool.false_ne_true]
  dsimp only
  rw [total_collect, if_neg (not_lt.mpr h.total),
    if_neg (not_not.mpr ((missing_eq_nil_iff f.fields body).mpr h.complete)),
    if_neg ((data_ne_nil_iff f.distinct body).mpr h.something)]
  cases dumpable (collect f.fields body).data with
  | true => exact .inl ⟨rfl, _, _, if_pos rfl⟩
  | false => exact .inr ⟨rfl, _, if_neg Bool.false_ne_true⟩

/-- A request that does not get so far stores nothing. -/
lemma submit_or_accepted (db : FormDb) (r : FormRequest) :
    (∃ f body, Accepted db r f body) ∨ (∃ status error, submit db r = .refused status error) ∨
      submit db r = .discarded := by
  unfold submit
  split
  · exact .inr (.inl ⟨_, _, rfl⟩)
  next hallowed =>
  split
  · exact .inr (.inl ⟨_, _, rfl⟩)
  next hslug =>
  split
  · exact .inr (.inl ⟨_, _, rfl⟩)
  next hsize =>
  split
  · exact .inr (.inl ⟨_, _, rfl⟩)
  · exact .inr (.inl ⟨_, _, rfl⟩)
  next body hparsed =>
  split
  · exact .inr (.inl ⟨_, _, rfl⟩)
  next f hform =>
  obtain ⟨hf, hactive⟩ := Option.filter_eq_some_iff.mp hform
  unfold submitTo
  split
  · exact .inr (.inr rfl)
  next hperson =>
  dsimp only
  split
  · exact .inr (.inl ⟨_, _, rfl⟩)
  next htotal =>
  split
  · exact .inr (.inl ⟨_, _, rfl⟩)
  next hcomplete =>
  split
  · exact .inr (.inl ⟨_, _, rfl⟩)
  next hsome =>
  rw [total_collect] at htotal
  exact .inl ⟨f, body, by simpa using hallowed, by simpa using hslug, not_lt.mp hsize, hparsed,
    hf, hactive, eq_false_of_ne_true hperson, not_lt.mp htotal,
    (missing_eq_nil_iff f.fields body).mp (not_not.mp hcomplete),
    (data_ne_nil_iff f.distinct body).mp hsome⟩

/-- A submission is refused or stored as it was declared exactly when what is
stored has no text cut inside a character and no number with two points. -/
theorem proper_iff (db : FormDb) (r : FormRequest) :
    Proper db r ↔ ∀ f body, Accepted db r f body → Clean f body := by
  unfold Proper
  constructor
  · intro hproper f body hacc
    rw [← declared_iff f body hacc.complete]
    rcases submit_of_accepted hacc with ⟨hdump, task, message, hs⟩ | ⟨-, error, hs⟩
    · rw [hs] at hproper
      obtain ⟨f', hf', hdecl⟩ := hproper
      rw [hacc.form, Option.some.injEq] at hf'
      exact ⟨hdump, hf' ▸ hdecl⟩
    · rw [hs] at hproper
      exact hproper.elim
  · intro hclean
    rcases submit_or_accepted db r with ⟨f, body, hacc⟩ | ⟨status, error, hs⟩ | hs
    · obtain ⟨hdump, hdecl⟩ := (declared_iff f body hacc.complete).mpr (hclean f body hacc)
      rcases submit_of_accepted hacc with ⟨-, task, message, hs⟩ | ⟨hdump', -⟩
      · rw [hs]
        exact ⟨f, hacc.form, hdecl⟩
      · rw [hdump] at hdump'
        cases hdump'
    · rw [hs]
      trivial
    · rw [hs]
      trivial

/-! ### A number with two points -/

def callbackForm : Form where
  title := "Call me back"
  successMessage := ""
  targetModel := ""
  active := true
  fields := [⟨"qty", "Quantity", "number", true⟩]
  distinct := nodup_singleton _

def callbackDb : FormDb := ⟨fun slug => if slug = "callback" then some callbackForm else none, false⟩

/-- `{"qty":"1.2.3"}`, fifteen bytes. -/
def twoPoints : FormRequest := ⟨true, "callback", 15, .object [("qty", .str "1.2.3")]⟩

/-- A number with two points is stored. -/
theorem two_points_stored : ¬ Proper callbackDb twoPoints := by
  have hdata : (collect callbackForm.fields [("qty", .str "1.2.3")]).data =
      [("qty", "1.2.3".toByteArray)] := by decide
  have hacc : Accepted callbackDb twoPoints callbackForm [("qty", .str "1.2.3")] :=
    { allowed := rfl
      slug := by decide
      size := by decide
      parsed := rfl
      form := rfl
      active := rfl
      person := by decide
      total := by decide
      complete := (missing_eq_nil_iff _ _).mp (by decide)
      something := by
        rw [← data_ne_nil_iff callbackForm.distinct, hdata]
        exact cons_ne_nil _ _ }
  unfold Proper
  intro hproper
  rcases submit_of_accepted hacc with ⟨-, task, message, hs⟩ | ⟨-, error, hs⟩
  · rw [hs, hdata] at hproper
    obtain ⟨f, hf, hdecl⟩ := hproper
    obtain rfl : callbackForm = f := Option.some.inj hf
    have hnum := hdecl.numbers _ (mem_singleton_self _) rfl _ (mem_singleton_self _) rfl
    have hcount := ((isNumeral_iff _).mp hnum).2
    revert hcount
    decide
  · rw [hs] at hproper
    exact hproper

end WebsiteForm

end CErp
