/-
How a database reads the text of a condition.

`lex` cuts a text into tokens, `parse` reads them with the binding strengths of
SQL: `OR` is weaker than `AND`, `AND` than `NOT`, and `NOT` than a predicate on a
column.  What is read is an expression of its own, so whether an appended condition
restricts the whole text or only a part of it is a question `read` answers.

`Lexes` and `ReadsAs` say what a text and its tokens come to whatever follows them,
so that texts are put together rule by rule.
-/
import CErp.Sql

namespace Sql

open List

/-! ### Tokens -/

inductive Tok
  /-- A keyword, a name or a number. -/
  | word (cs : List Char)
  | op (cs : List Char)
  /-- A placeholder, by its digits. -/
  | arg (ds : List Char)
  | sym (c : Char)
deriving DecidableEq

def isWordChar (c : Char) : Bool := c.isAlphanum || c == '_'

def isOpChar (c : Char) : Bool := c == '=' || c == '<' || c == '>' || c == '!'

/-- A character that is a token of its own. -/
def isSymbol (c : Char) : Bool := !isWordChar c && !isOpChar c && c != '$'

/-- A character before the tokens that follow it. -/
def glue (c : Char) (ts : List Tok) : List Tok :=
  if isWordChar c then
    match ts with
    | .word cs :: ts => .word (c :: cs) :: ts
    | ts => .word [c] :: ts
  else if isOpChar c then
    match ts with
    | .op cs :: ts => .op (c :: cs) :: ts
    | ts => .op [c] :: ts
  else if c = '$' then
    match ts with
    | .word cs :: ts => .arg cs :: ts
    | ts => .sym c :: ts
  else .sym c :: ts

def noSpace (ts : List Tok) : List Tok := ts.filter (· ≠ .sym ' ')

/-- The tokens of a text. -/
def lex (cs : List Char) : List Tok := noSpace (cs.foldr glue [])

/-! ### Expressions -/

/-- What a text is read as. -/
inductive Expr
  | cond (c : Cond)
  /-- A column against a number in the text itself. -/
  | compareText (col op value : String)
  | and (a b : Expr)
  | or (a b : Expr)
  | not (a : Expr)

def Expr.eval {Row : Type*} (I : Interp Row) (params : List String) (row : Row) : Expr → Truth
  | cond c => c.eval I params row
  | compareText col op value => I.compare col op value row
  | and a b => (a.eval I params row).and (b.eval I params row)
  | or a b => (a.eval I params row).or (b.eval I params row)
  | not a => (a.eval I params row).not

/-! ### Reading -/

/-- A word that is the keyword `k`, in any case. -/
def isKeyword (k : String) (w : List Char) : Bool := w.map Char.toUpper == k.toList

/-- The words that name no column. -/
def reserved : List String :=
  ["ALL", "ANALYSE", "ANALYZE", "AND", "ANY", "ARRAY", "AS", "ASC", "ASYMMETRIC", "BOTH",
   "CASE", "CAST", "CHECK", "COLLATE", "COLUMN", "CONSTRAINT", "CREATE", "CURRENT_CATALOG",
   "CURRENT_DATE", "CURRENT_ROLE", "CURRENT_TIME", "CURRENT_TIMESTAMP", "CURRENT_USER",
   "DEFAULT", "DEFERRABLE", "DESC", "DISTINCT", "DO", "ELSE", "END", "EXCEPT", "FALSE",
   "FETCH", "FOR", "FOREIGN", "FROM", "GRANT", "GROUP", "HAVING", "ILIKE", "IN", "INITIALLY",
   "INTERSECT", "INTO", "IS", "LATERAL", "LEADING", "LIKE", "LIMIT", "LOCALTIME",
   "LOCALTIMESTAMP", "NOT", "NULL", "OFFSET", "ON", "ONLY", "OR", "ORDER", "PLACING",
   "PRIMARY", "REFERENCES", "RETURNING", "SELECT", "SESSION_USER", "SOME", "SYMMETRIC",
   "SYSTEM_USER", "TABLE", "THEN", "TO", "TRAILING", "TRUE", "UNION", "UNIQUE", "USER",
   "USING", "VARIADIC", "WHEN", "WHERE", "WINDOW", "WITH"]

/-- The name of a column, written without quotes. -/
def isName (w : List Char) : Bool :=
  w.all isWordChar && w.head?.any (!·.isDigit) && !reserved.any fun k => isKeyword k w

/-- The number of a placeholder. -/
def number (ds : List Char) : Option ℕ :=
  if ds ≠ [] ∧ ds.all Char.isDigit then some (Nat.ofDigitChars 10 ds 0) else none

/-- The placeholders of an `IN`, up to the bracket. -/
def parseArgs : List Tok → Option (List ℕ × List Tok)
  | .arg ds :: .sym ',' :: ts =>
      (number ds).bind fun n => (parseArgs ts).map fun (ns, ts) => (n :: ns, ts)
  | .arg ds :: .sym ')' :: ts => (number ds).map fun n => ([n], ts)
  | _ => none

/-- A comparison by a word, with or without `NOT`. -/
def parseWordOp (col : String) (negated : Bool) (w : List Char) (ts : List Tok) :
    Option (Expr × List Tok) :=
  let spelled := fun op => if negated then "NOT " ++ op else op
  if isKeyword "IN" w then
    match ts with
    | .sym '(' :: ts =>
        (parseArgs ts).map fun (ns, ts) =>
          (.cond (if negated then .isNotIn col ns else .isIn col ns), ts)
    | _ => none
  else if isKeyword "LIKE" w ∨ isKeyword "ILIKE" w then
    match ts with
    | .arg ds :: ts =>
        (number ds).map fun n =>
          (.cond (.compare col (spelled (if isKeyword "LIKE" w then "LIKE" else "ILIKE")) n), ts)
    | _ => none
  else none

/-- What follows `IS`. -/
def parseIs (col : String) : List Tok → Option (Expr × List Tok)
  | .word w :: ts =>
      if isKeyword "NULL" w then some (.cond (.isNull col), ts)
      else if isKeyword "NOT" w then
        match ts with
        | .word w' :: ts =>
            if isKeyword "NULL" w' then some (.cond (.isNotNull col), ts) else none
        | _ => none
      else none
  | _ => none

/-- What follows `= ANY`: a placeholder for an array of integers. -/
def parseAny (col : String) : List Tok → Option (Expr × List Tok)
  | .sym '(' :: .arg ds :: .sym ':' :: .sym ':' :: .word t :: .sym '[' :: .sym ']' ::
      .sym ')' :: ts =>
      if isKeyword "INT" t then
        (number ds).map fun n => (.cond (.compare col "= ANY" n), ts)
      else none
  | _ => none

/-- What is said of a column. -/
def parsePredicate (col : String) : List Tok → Option (Expr × List Tok)
  | .op o :: .arg ds :: ts =>
      (number ds).map fun n => (.cond (.compare col (String.ofList o) n), ts)
  | .op o :: .word w :: ts =>
      if w.all Char.isDigit then
        some (.compareText col (String.ofList o) (String.ofList w), ts)
      else if o = ['='] ∧ isKeyword "ANY" w then parseAny col ts
      else none
  | .word w :: ts =>
      if isKeyword "IS" w then parseIs col ts
      else if isKeyword "NOT" w then
        match ts with
        | .word w' :: ts => parseWordOp col true w' ts
        | _ => none
      else parseWordOp col false w ts
  | _ => none

/-- The levels of an expression, the weakest operator first. -/
inductive Level
  | or
  | and
  | not
  | primary

/-- An expression of a level at the start of the tokens, and what follows it. -/
@[simp] def parse : ℕ → Level → List Tok → Option (Expr × List Tok)
  | 0, _, _ => none
  | fuel + 1, .or, ts =>
      (parse fuel .and ts).bind fun (a, ts) =>
        match ts with
        | .word w :: ts' =>
            if isKeyword "OR" w then
              (parse fuel .or ts').map fun (b, ts'') => (.or a b, ts'')
            else some (a, ts)
        | _ => some (a, ts)
  | fuel + 1, .and, ts =>
      (parse fuel .not ts).bind fun (a, ts) =>
        match ts with
        | .word w :: ts' =>
            if isKeyword "AND" w then
              (parse fuel .and ts').map fun (b, ts'') => (.and a b, ts'')
            else some (a, ts)
        | _ => some (a, ts)
  | fuel + 1, .not, ts =>
      match ts with
      | .word w :: ts' =>
          if isKeyword "NOT" w then (parse fuel .not ts').map fun (a, ts'') => (.not a, ts'')
          else parse fuel .primary ts
      | _ => parse fuel .primary ts
  | fuel + 1, .primary, ts =>
      match ts with
      | .sym '(' :: ts =>
          (parse fuel .or ts).bind fun (a, ts) =>
            match ts with
            | .sym ')' :: ts => some (a, ts)
            | _ => none
      | .word w :: ts =>
          if isKeyword "TRUE" w then some (.cond (.lit true), ts)
          else if isKeyword "FALSE" w then some (.cond (.lit false), ts)
          else if isName w then parsePredicate (String.ofList w) ts
          else none
      | _ => none

/-- What a text is read as, if it is a condition. -/
def read (text : String) : Option Expr :=
  let ts := lex text.toList
  match parse (4 * ts.length + 4) .or ts with
  | some (e, []) => some e
  | _ => none

/-! ### Cutting texts -/

/-- No word or operator begins the tokens, so that none before them goes on. -/
def Apart : List Tok → Prop
  | .word _ :: _ => False
  | .op _ :: _ => False
  | _ => True

/-- The tokens of a text, whatever tokens it is put before. -/
def Lexes (cs : List Char) (ts : List Tok) : Prop :=
  ∀ after, Apart after → noSpace (cs.foldr glue after) = ts ++ noSpace after

/-- A text before which a word or an operator ends. -/
def Starts (cs : List Char) : Prop := ∀ c ∈ cs.head?, isSymbol c = true

lemma glue_symbol {c : Char} (hc : isSymbol c = true) (ts : List Tok) :
    glue c ts = .sym c :: ts := by
  simp only [isSymbol, Bool.and_eq_true, Bool.not_eq_true', bne_iff_ne] at hc
  simp [glue, hc]

variable {after : List Tok}

lemma Starts.apart {cs : List Char} (h : Starts cs) (hafter : Apart after) :
    Apart (cs.foldr glue after) := by
  cases cs with
  | nil => exact hafter
  | cons c cs =>
      rw [foldr_cons, glue_symbol (h c rfl)]
      trivial

lemma Lexes.nil : Lexes [] [] := fun _ _ => rfl

lemma Lexes.append {a b : List Char} {ta tb : List Tok} (ha : Lexes a ta) (hb : Lexes b tb)
    (hstart : Starts b) : Lexes (a ++ b) (ta ++ tb) := by
  intro after hafter
  rw [foldr_append, ha _ (hstart.apart hafter), hb after hafter, append_assoc]

variable {ts : List Tok}

lemma Lexes.space {cs : List Char} (h : Lexes cs ts) : Lexes (' ' :: cs) ts := by
  intro after hafter
  rw [foldr_cons, glue_symbol rfl, ← h after hafter]
  rfl

lemma Lexes.sym {c : Char} {cs : List Char} (hc : isSymbol c = true) (hspace : c ≠ ' ')
    (h : Lexes cs ts) : Lexes (c :: cs) (.sym c :: ts) := by
  intro after hafter
  rw [foldr_cons, glue_symbol hc, cons_append, ← h after hafter, noSpace, filter_cons_of_pos]
  · rfl
  · simpa using hspace

lemma foldr_word {w : List Char} (hne : w ≠ []) (hw : w.all isWordChar = true)
    (hafter : Apart after) : w.foldr glue after = .word w :: after := by
  induction w with
  | nil => exact absurd rfl hne
  | cons c w ih =>
      obtain ⟨hc, hw⟩ := Bool.and_eq_true_iff.mp hw
      cases w with
      | nil =>
          rw [foldr_cons, foldr_nil, glue, if_pos hc]
          all_goals
            rintro cs ts rfl
            exact hafter
      | cons d w =>
          rw [foldr_cons, ih (cons_ne_nil d w) hw, glue, if_pos hc]

lemma Lexes.word {w cs : List Char} {ts : List Tok} (hne : w ≠ [])
    (hw : w.all isWordChar = true) (h : Lexes cs ts) (hstart : Starts cs) :
    Lexes (w ++ cs) (.word w :: ts) := by
  refine @Lexes.append w cs [.word w] ts ?_ h hstart
  intro after hafter
  rw [foldr_word hne hw hafter]
  rfl

lemma foldr_op {o : List Char} (hne : o ≠ []) (ho : o.all isOpChar = true)
    (hafter : Apart after) : o.foldr glue after = .op o :: after := by
  have hword : ∀ c, isOpChar c = true → isWordChar c = false := by
    intro c hc
    simp only [isOpChar, Bool.or_eq_true, beq_iff_eq] at hc
    rcases hc with ((rfl | rfl) | rfl) | rfl <;> rfl
  induction o with
  | nil => exact absurd rfl hne
  | cons c o ih =>
      obtain ⟨hc, ho⟩ := Bool.and_eq_true_iff.mp ho
      cases o with
      | nil =>
          rw [foldr_cons, foldr_nil, glue, hword c hc, if_neg Bool.false_ne_true, if_pos hc]
          all_goals
            rintro cs ts rfl
            exact hafter
      | cons d o =>
          rw [foldr_cons, ih (cons_ne_nil d o) ho, glue, hword c hc,
            if_neg Bool.false_ne_true, if_pos hc]

lemma Lexes.op {o cs : List Char} {ts : List Tok} (hne : o ≠ []) (ho : o.all isOpChar = true)
    (h : Lexes cs ts) (hstart : Starts cs) : Lexes (o ++ cs) (.op o :: ts) := by
  refine @Lexes.append o cs [.op o] ts ?_ h hstart
  intro after hafter
  rw [foldr_op hne ho hafter]
  rfl

lemma Lexes.arg {ds cs : List Char} {ts : List Tok} (hne : ds ≠ [])
    (hds : ds.all isWordChar = true) (h : Lexes cs ts) (hstart : Starts cs) :
    Lexes ('$' :: (ds ++ cs)) (.arg ds :: ts) := by
  refine @Lexes.append ('$' :: ds) cs [.arg ds] ts ?_ h hstart
  intro after hafter
  rw [foldr_cons, foldr_word hne hds hafter]
  rfl

lemma starts_cons {c : Char} (hc : isSymbol c = true) (cs : List Char) : Starts (c :: cs) := by
  intro d hd
  obtain rfl := Option.mem_some_iff.mp hd
  exact hc

lemma starts_nil : Starts [] := fun _ h => nomatch h

/-! ### Reading tokens -/

def Level.rank : Level → ℕ
  | primary => 0
  | not => 1
  | and => 2
  | or => 3

/-- No operator of the level follows. -/
def Stops : Level → List Tok → Prop
  | .or, ts => ∀ w ∈ ts.head?, ∀ cs, w = .word cs →
      isKeyword "AND" cs = false ∧ isKeyword "OR" cs = false
  | .and, ts => ∀ w ∈ ts.head?, ∀ cs, w = .word cs → isKeyword "AND" cs = false
  | _, _ => True

/-- The tokens are an expression of the level, whatever follows them that does not
go on with it. -/
def ReadsAs (lvl : Level) (ts : List Tok) (e : Expr) : Prop :=
  ts ≠ [] ∧ ∀ fuel rest, 4 * ts.length + lvl.rank ≤ fuel + 3 → Stops lvl rest →
    parse fuel lvl (ts ++ rest) = some (e, rest)

variable {e : Expr}

lemma ReadsAs.succ {lvl : Level} (hne : ts ≠ [])
    (h : ∀ fuel rest, 4 * ts.length + lvl.rank ≤ fuel + 4 → Stops lvl rest →
      parse (fuel + 1) lvl (ts ++ rest) = some (e, rest)) : ReadsAs lvl ts e := by
  refine ⟨hne, fun fuel rest hfuel hstop => ?_⟩
  have hpos := length_pos_iff.mpr hne
  obtain ⟨fuel, rfl⟩ : ∃ n, fuel = n + 1 := ⟨fuel - 1, by omega⟩
  exact h fuel rest hfuel hstop

lemma ReadsAs.and_of_not (h : ReadsAs .not ts e) : ReadsAs .and ts e := by
  refine ReadsAs.succ h.1 fun fuel rest hfuel hstop => ?_
  rw [parse, h.2 fuel rest (by simp only [Level.rank] at hfuel ⊢; omega) trivial, Option.bind_some]
  cases rest with
  | nil => rfl
  | cons t rest =>
      cases t with
      | word w => simp only [hstop _ rfl w rfl, Bool.false_eq_true, if_false]
      | _ => rfl

lemma ReadsAs.or_of_and (h : ReadsAs .and ts e) : ReadsAs .or ts e := by
  refine ReadsAs.succ h.1 fun fuel rest hfuel hstop => ?_
  have hand : Stops .and rest := fun w hw cs hcs => (hstop w hw cs hcs).1
  rw [parse, h.2 fuel rest (by simp only [Level.rank] at hfuel ⊢; omega) hand, Option.bind_some]
  cases rest with
  | nil => rfl
  | cons t rest =>
      cases t with
      | word w => simp only [(hstop _ rfl w rfl).2, Bool.false_eq_true, if_false]
      | _ => rfl

lemma ReadsAs.and {ta tb : List Tok} {a b : Expr} (ha : ReadsAs .not ta a)
    (hb : ReadsAs .and tb b) : ReadsAs .and (ta ++ .word "AND".toList :: tb) (.and a b) := by
  refine ReadsAs.succ (by simp) fun fuel rest hfuel hstop => ?_
  simp only [length_append, length_cons, Level.rank] at hfuel
  rw [parse, append_assoc, ha.2 fuel _ (by simp only [Level.rank]; omega) trivial, Option.bind_some]
  have hkey : isKeyword "AND" "AND".toList = true := by decide
  simp only [cons_append, hkey, if_true]
  rw [hb.2 fuel rest (by simp only [Level.rank]; omega) hstop]
  rfl

lemma ReadsAs.or {ta tb : List Tok} {a b : Expr} (ha : ReadsAs .and ta a)
    (hb : ReadsAs .or tb b) : ReadsAs .or (ta ++ .word "OR".toList :: tb) (.or a b) := by
  refine ReadsAs.succ (by simp) fun fuel rest hfuel hstop => ?_
  simp only [length_append, length_cons, Level.rank] at hfuel
  have hkey : isKeyword "OR" "OR".toList = true := by decide
  have hstops : Stops .and (.word "OR".toList :: tb ++ rest) := by
    intro w hw cs hcs
    obtain rfl := Option.mem_some_iff.mp hw
    cases hcs
    decide
  rw [parse, append_assoc, ha.2 fuel _ (by simp only [Level.rank]; omega) hstops, Option.bind_some]
  simp only [cons_append, hkey, if_true]
  rw [hb.2 fuel rest (by simp only [Level.rank]; omega) hstop]
  rfl

lemma ReadsAs.negation (h : ReadsAs .not ts e) :
    ReadsAs .not (.word "NOT".toList :: ts) (.not e) := by
  refine ReadsAs.succ (by simp) fun fuel rest hfuel _ => ?_
  simp only [length_cons, Level.rank] at hfuel
  have hkey : isKeyword "NOT" "NOT".toList = true := by decide
  rw [cons_append, parse]
  simp only [hkey, if_true]
  rw [h.2 fuel rest (by simp only [Level.rank]; omega) trivial]
  rfl

lemma ReadsAs.paren (h : ReadsAs .or ts e) : ReadsAs .not (.sym '(' :: (ts ++ [.sym ')'])) e := by
  refine ReadsAs.succ (by simp) fun fuel rest hfuel _ => ?_
  simp only [length_cons, length_append, length_nil, Level.rank] at hfuel
  have hstops : Stops .or (.sym ')' :: rest) := by
    intro w hw cs hcs
    obtain rfl := Option.mem_some_iff.mp hw
    cases hcs
  obtain ⟨fuel, rfl⟩ : ∃ n, fuel = n + 1 := ⟨fuel - 1, by omega⟩
  have hinner := h.2 fuel (.sym ')' :: rest) (by simp only [Level.rank]; omega) hstops
  rw [cons_append, append_assoc, singleton_append, parse]
  · rw [parse, hinner]
    rfl
  · intro w ts' h
    cases h

end Sql
