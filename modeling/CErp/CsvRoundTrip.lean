/-
What `buildCsv` writes, `parseCsv` reads back.

Outside of quotes the parser takes a text apart at commas and line ends, so the
writer quotes a field that has one; within quotes the parser reads every
character as it stands but a doubled quote, and CRLF as LF.  `crlfAsLf` is all
that a field loses (`csv_round_trip`).  The loop of the parser takes at most a
turn for each character.
-/
import CErp.Csv
import CErp.CountedLoop

namespace CErp

open List String

namespace Csv

open Loops

/-! ### The loop -/

/-- One turn of the parser's loop on what is left of the text. -/
def turn : Bool × Reading × List Char → Option (Bool × Reading × List Char)
  | (_, _, []) => none
  | (true, st, c :: cs) =>
      if c = '"' then
        if cs.head? = some '"' then some (true, st.push '"', cs.tail) else some (false, st, cs)
      else if c = '\r' ∧ cs.head? = some '\n' then some (true, st.push '\n', cs.tail)
      else some (true, st.push c, cs)
  | (false, st, c :: cs) =>
      if c = '"' then some (true, st, cs)
      else if c = ',' then some (false, st.endField, cs)
      else if c = '\n' ∨ c = '\r' ∧ cs.head? = some '\n' then
        some (false, st.endRecord, if c = '\r' then cs.tail else cs)
      else if c = '\r' then some (false, st.endRecord, cs)
      else some (false, st.push c, cs)

/-- Every turn reads a character at least. -/
lemma turn_reads {s s' : Bool × Reading × List Char} (h : turn s = some s') :
    s'.2.2.length < s.2.2.length := by
  obtain ⟨quoted, st, cs⟩ := s
  rcases cs with - | ⟨c, cs⟩
  · cases quoted <;> cases h
  have htail : cs.tail.length < (c :: cs).length := by
    rw [length_tail, length_cons]
    omega
  have hrest : cs.length < (c :: cs).length := by
    rw [length_cons]
    omega
  cases quoted with
  | true =>
      simp only [turn] at h
      split_ifs at h
      all_goals cases h
      · exact htail
      · exact hrest
      · exact htail
      · exact hrest
  | false =>
      simp only [turn] at h
      split_ifs at h
      all_goals cases h
      · exact hrest
      · exact hrest
      · exact htail
      · exact hrest
      · exact hrest
      · exact hrest

/-! ### One character -/

variable {cs : List Char}

variable {st : Reading}

lemma parseFrom_quote_end (h : cs.head? ≠ some '"') :
    parseFrom true st ('"' :: cs) = parseFrom false st cs := by
  rw [parseFrom]
  rintro cs' rfl
  exact h rfl

lemma parseFrom_quoted {c : Char} (hquote : c ≠ '"')
    (hcrlf : ¬(c = '\r' ∧ cs.head? = some '\n')) :
    parseFrom true st (c :: cs) = parseFrom true (st.push c) cs := by
  rw [parseFrom]
  · intro _ hc _
    exact hquote hc
  · exact hquote
  · rintro cs' hc rfl
    exact hcrlf ⟨hc, rfl⟩

lemma parseFrom_cr (hlf : cs.head? ≠ some '\n') :
    parseFrom false st ('\r' :: cs) = parseFrom false st.endRecord cs := by
  rw [parseFrom]
  rintro cs' rfl
  exact hlf rfl

lemma parseFrom_plain {c : Char} (h : c ≠ '"' ∧ c ≠ ',' ∧ c ≠ '\n' ∧ c ≠ '\r') :
    parseFrom false st (c :: cs) = parseFrom false (st.push c) cs := by
  rw [parseFrom]
  · exact h.1
  · exact h.2.1
  · exact h.2.2.1
  · intro _ hc _
    exact h.2.2.2 hc
  · exact h.2.2.2

/-- A turn is the next step of `parseFrom`. -/
lemma parseFrom_turn {s s' : Bool × Reading × List Char} (h : turn s = some s') :
    parseFrom s'.1 s'.2.1 s'.2.2 = parseFrom s.1 s.2.1 s.2.2 := by
  obtain ⟨quoted, st, cs⟩ := s
  rcases cs with - | ⟨c, cs⟩
  · cases quoted <;> cases h
  cases quoted with
  | true =>
      simp only [turn] at h
      split_ifs at h with hquote hdouble hcrlf
      all_goals cases h
      · subst hquote
        obtain ⟨cs', rfl⟩ := head?_eq_some_iff.mp hdouble
        rfl
      · subst hquote
        exact (parseFrom_quote_end hdouble).symm
      · obtain ⟨rfl, hlf⟩ := hcrlf
        obtain ⟨cs', rfl⟩ := head?_eq_some_iff.mp hlf
        rfl
      · exact (parseFrom_quoted hquote hcrlf).symm
  | false =>
      simp only [turn] at h
      split_ifs at h with hquote hcomma hend hcr hcr
      all_goals cases h
      · subst hquote
        rfl
      · subst hcomma
        rfl
      · subst hcr
        have hlf := (hend.resolve_left (by decide)).2
        obtain ⟨cs', rfl⟩ := head?_eq_some_iff.mp hlf
        rfl
      · obtain rfl := hend.resolve_right fun hcrlf => hcr hcrlf.1
        rfl
      · subst hcr
        refine (parseFrom_cr ?_).symm
        intro hlf
        exact hend (.inr ⟨rfl, hlf⟩)
      · have hlf : c ≠ '\n' := fun hc => hend (.inl hc)
        exact (parseFrom_plain ⟨hquote, hcomma, hlf, hcr⟩).symm

/-- **The loop ends**, at most a turn for each character, with what `parseFrom` says. -/
theorem loop_parses (text : String) :
    ∃ s, loop turn (text.length + 1) (false, {}, text.toList) = some s ∧ turn s = none ∧
      s.2.1.flush = parseCsv text := by
  obtain ⟨s, hloop, hend⟩ := loop_ends (fun s : Bool × Reading × List Char => s.2.2.length)
    (fun s s' h => turn_reads h) (s := (false, {}, text.toList)) (Nat.lt_succ_self _)
  refine ⟨s, hloop, hend, ?_⟩
  have hsame := loop_keeps (fun s : Bool × Reading × List Char => parseFrom s.1 s.2.1 s.2.2)
    (fun s s' h => parseFrom_turn h) hloop
  obtain ⟨quoted, st, cs⟩ := s
  have hnil : cs = [] := by
    rcases cs with - | ⟨c, cs⟩
    · rfl
    · cases quoted <;> simp only [turn] at hend <;> split_ifs at hend
  subst hnil
  have hst : parseFrom quoted st [] = st := by cases quoted <;> rfl
  rw [hst] at hsame
  unfold parseCsv
  rw [← hsame]

/-! ### Reading back what was written -/

/-- CRLF as LF. -/
def crlfChars : List Char → List Char
  | '\r' :: '\n' :: cs => '\n' :: crlfChars cs
  | c :: cs => c :: crlfChars cs
  | [] => []

def crlfAsLf (field : String) : String := ofList (crlfChars field.toList)

/-- The characters a field is quoted for. -/
def special (c : Char) : Bool := c == ',' || c == '"' || c == '\r' || c == '\n'

def pushAll (st : Reading) (cs : List Char) : Reading := { st with field := st.field ++ cs }

@[simp] lemma pushAll_nil (st : Reading) : pushAll st [] = st := by
  unfold pushAll
  rw [append_nil]

lemma pushAll_cons (st : Reading) (c : Char) (cs : List Char) :
    pushAll st (c :: cs) = pushAll (st.push c) cs := by
  unfold pushAll Reading.push
  rw [List.append_assoc]
  rfl

/-- What is written within quotes. -/
def escaped (cs : List Char) : List Char := cs.flatMap fun c => if c = '"' then ['"', '"'] else [c]

lemma escaped_cons (c : Char) (cs : List Char) :
    escaped (c :: cs) = (if c = '"' then ['"', '"'] else [c]) ++ escaped cs := rfl

variable {rest : List Char}

/-- A line feed is not written where none stands. -/
lemma head?_escaped (h : cs.head? ≠ some '\n') :
    (escaped cs ++ '"' :: rest).head? ≠ some '\n' := by
  rcases cs with - | ⟨c, cs⟩
  · show some '"' ≠ some '\n'
    decide
  · rw [escaped_cons]
    split
    · show some '"' ≠ some '\n'
      decide
    · intro hhead
      exact h hhead

/-- Within quotes everything is read as it stands but CRLF. -/
lemma parseFrom_escaped (cs : List Char) (hrest : rest.head? ≠ some '"') (st : Reading) :
    parseFrom true st (escaped cs ++ '"' :: rest) =
      parseFrom false (pushAll st (crlfChars cs)) rest := by
  induction cs using crlfChars.induct generalizing st with
  | case1 cs ih =>
      rw [crlfChars, pushAll_cons, ← ih]
      rfl
  | case2 c cs hcrlf ih =>
      rw [crlfChars, pushAll_cons, ← ih, escaped_cons]
      · by_cases hquote : c = '"'
        · rw [if_pos hquote, hquote]
          rfl
        · rw [if_neg hquote, List.append_assoc, singleton_append]
          refine parseFrom_quoted hquote ?_
          rintro ⟨hcr, hlf⟩
          refine head?_escaped ?_ hlf
          intro hhead
          obtain ⟨cs', rfl⟩ := head?_eq_some_iff.mp hhead
          exact hcrlf cs' hcr rfl
      · exact hcrlf
  | case3 =>
      rw [crlfChars, pushAll_nil]
      exact parseFrom_quote_end hrest

lemma parseFrom_unquoted (h : ∀ c ∈ cs, special c = false) (rest : List Char) (st : Reading) :
    parseFrom false st (cs ++ rest) = parseFrom false (pushAll st cs) rest := by
  induction cs generalizing st with
  | nil => rw [pushAll_nil, nil_append]
  | cons c cs ih =>
      rw [forall_mem_cons] at h
      have hplain : c ≠ '"' ∧ c ≠ ',' ∧ c ≠ '\n' ∧ c ≠ '\r' := by
        have hc := h.1
        unfold special at hc
        simp only [Bool.or_eq_false_iff, beq_eq_false_iff_ne] at hc
        exact ⟨hc.1.1.2, hc.1.1.1, hc.2, hc.1.2⟩
      rw [cons_append, parseFrom_plain hplain, pushAll_cons, ih h.2]

lemma crlfChars_plain (h : '\r' ∉ cs) : crlfChars cs = cs := by
  induction cs with
  | nil => rfl
  | cons c cs ih =>
      have hrest := ih fun hmem => h (mem_cons_of_mem c hmem)
      rw [crlfChars, hrest]
      intro cs' hc _
      exact h (hc ▸ mem_cons_self)

variable (field : String)

lemma needsQuote_eq : needsQuote field = field.toList.any special := rfl

/-- A field is read back wherever it stands. -/
lemma parseFrom_fieldText (hrest : rest.head? ≠ some '"') (st : Reading) :
    parseFrom false st ((fieldText field).toList ++ rest) =
      parseFrom false (pushAll st (crlfChars field.toList)) rest := by
  unfold fieldText
  split
  · have htext : ("\"" ++ ofList (escapeField field) ++ "\"").toList ++ rest =
        '"' :: (escaped field.toList ++ '"' :: rest) := by
      simp only [toList_append, toList_ofList, List.append_assoc]
      rfl
    rw [htext]
    exact parseFrom_escaped _ hrest st
  · next hplain =>
      rw [needsQuote_eq, Bool.not_eq_true, any_eq_false] at hplain
      have hspecial : ∀ c ∈ field.toList, special c = false := fun c hc =>
        Bool.not_eq_true _ ▸ hplain c hc
      have hcr : '\r' ∉ field.toList := fun hmem => absurd (hspecial _ hmem) (by decide)
      rw [parseFrom_unquoted hspecial, crlfChars_plain hcr]

/-- The fields of a record, its end behind them. -/
lemma parseFrom_record (fields : List String) (rest : List Char) (done : List (List String))
    (before : List String) :
    parseFrom false ⟨done, before, []⟩
        ((",".intercalate ((field :: fields).map fieldText)).toList ++ '\r' :: '\n' :: rest) =
      parseFrom false ⟨done ++ [before ++ (field :: fields).map crlfAsLf], [], []⟩ rest := by
  induction fields generalizing field before with
  | nil =>
      rw [map_singleton, String.intercalate_singleton]
      rw [parseFrom_fieldText field (by
        show some '\r' ≠ some '"'
        decide)]
      rfl
  | cons next fields ih =>
      rw [map_cons, map_cons, String.intercalate_cons_cons, toList_append,
        toList_append, List.append_assoc, List.append_assoc]
      rw [parseFrom_fieldText field (by
        show some ',' ≠ some '"'
        decide)]
      have hrest := ih next (before ++ [crlfAsLf field])
      rw [List.append_assoc] at hrest
      exact hrest

/-- The text of a record. -/
def recordText (row : List String) : String := ",".intercalate (row.map fieldText) ++ "\r\n"

lemma parseFrom_records {rows : List (List String)} (h : ∀ row ∈ rows, row ≠ [])
    (done : List (List String)) :
    parseFrom false ⟨done, [], []⟩ (rows.flatMap fun row => (recordText row).toList) =
      ⟨done ++ rows.map fun row => row.map crlfAsLf, [], []⟩ := by
  induction rows generalizing done with
  | nil =>
      rw [flatMap_nil, map_nil, append_nil]
      rfl
  | cons row rows ih =>
      rw [forall_mem_cons] at h
      rcases row with - | ⟨field, fields⟩
      · exact absurd rfl h.1
      · rw [flatMap_cons, recordText, toList_append, List.append_assoc]
        have hread := parseFrom_record field fields
          (rows.flatMap fun row => (recordText row).toList) done []
        rw [ih h.2, List.append_assoc] at hread
        exact hread

lemma toList_buildCsv (rows : List (List String)) :
    (buildCsv rows).toList = rows.flatMap fun row => (recordText row).toList := by
  show (join (rows.map recordText)).toList = _
  rw [toList_join, flatMap_map]

end Csv

/-- **A table is read back as it was written**, CRLF in a field as LF, and the
parser ends on every text. -/
theorem csv_round_trip : (∀ rows : List (List String), (∀ row ∈ rows, row ≠ []) →
      parseCsv (buildCsv rows) = rows.map fun row => row.map Csv.crlfAsLf) ∧
    ∀ text : String, ∃ s, Loops.loop Csv.turn (text.length + 1) (false, {}, text.toList) = some s ∧
      Csv.turn s = none ∧ s.2.1.flush = parseCsv text := by
  refine ⟨?_, Csv.loop_parses⟩
  intro rows h
  have hread := Csv.parseFrom_records h []
  unfold parseCsv
  rw [Csv.toList_buildCsv]
  show (Csv.parseFrom false ⟨[], [], []⟩ _).flush = _
  rw [hread]
  rfl

example : parseCsv (buildCsv [["a,\r\nb", ""], [""]]) = [["a,\nb", ""], [""]] := by decide

end CErp
