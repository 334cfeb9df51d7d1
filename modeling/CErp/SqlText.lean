/-
The text of a condition is read as that condition.

A `Clause` is a text that is read as one whole wherever it stands between
connectives.  Clauses put together with ` AND ` are read as the conjunction of what
they say (`read_clauses`), and so are those in brackets; the text of a condition is a
clause, whatever its shape (`cond_clause`).

The placeholders of a clause as a scanner finds them in its text: a dollar sign
with digits behind it is a placeholder, every other character is plain.

Scanning one text behind another finds the placeholders of both, as long as the
second does not begin with a digit (`clauseChars_append`).  The placeholders of
a condition's text are the condition's own, in their order (`args_text`).
-/
import CErp.SqlReader
import Mathlib.Data.List.TakeWhile

namespace Sql

/-- A text that is read as one whole, and as what. -/
def Clause (s : String) (e : Expr) : Prop :=
  ∃ ts, Lexes s.toList ts ∧ ReadsAs .not ts e

/-! ### Predicates -/

lemma not_keyword_of_isName {w : List Char} (h : isName w = true) {k : String}
    (hk : k ∈ reserved) : isKeyword k w = false := by
  simp only [isName, Bool.and_eq_true, Bool.not_eq_true', List.any_eq_false] at h
  simpa using h.2 k hk

lemma isName_words {w : List Char} (h : isName w = true) : w ≠ [] ∧ w.all isWordChar = true := by
  simp only [isName, Bool.and_eq_true] at h
  refine ⟨?_, h.1.1⟩
  rintro rfl
  exact absurd h.1.2 (by decide)

variable {ts : List Tok}

/-- A name and what is said of it. -/
lemma ReadsAs.predicate {col : String} (hcol : isName col.toList = true) {e : Expr}
    (h : ∀ rest, parsePredicate col (ts ++ rest) = some (e, rest)) :
    ReadsAs .not (.word col.toList :: ts) e := by
  refine ReadsAs.succ (by simp) fun fuel rest hfuel _ => ?_
  simp only [List.length_cons, Level.rank] at hfuel
  obtain ⟨fuel, rfl⟩ : ∃ n, fuel = n + 1 := ⟨fuel - 1, by omega⟩
  rw [List.cons_append, parse, not_keyword_of_isName hcol (by decide), if_neg Bool.false_ne_true,
    parse, not_keyword_of_isName hcol (by decide), if_neg Bool.false_ne_true,
    not_keyword_of_isName hcol (by decide), if_neg Bool.false_ne_true, if_pos hcol,
    String.ofList_toList]
  exact h rest

lemma ReadsAs.lit (b : Bool) :
    ReadsAs .not [.word (if b then "TRUE" else "FALSE").toList] (.cond (.lit b)) := by
  refine ReadsAs.succ (by simp) fun fuel rest hfuel _ => ?_
  simp only [List.length_cons, List.length_nil, Level.rank] at hfuel
  obtain ⟨fuel, rfl⟩ : ∃ n, fuel = n + 1 := ⟨fuel - 1, by omega⟩
  cases b <;> rfl

/-! ### Placeholders -/

lemma digits_ne_nil (n : ℕ) : Nat.toDigits 10 n ≠ [] := Nat.toDigits_ne_nil

lemma digits_isDigit (n : ℕ) : (Nat.toDigits 10 n).all Char.isDigit = true := by
  rw [List.all_eq_true]
  exact fun c hc => Nat.isDigit_of_mem_toDigits (by decide) (by decide) hc

lemma digits_words (n : ℕ) : (Nat.toDigits 10 n).all isWordChar = true := by
  rw [List.all_eq_true]
  intro c hc
  have hdigit := List.all_eq_true.mp (digits_isDigit n) c hc
  simp [isWordChar, Char.isAlphanum, hdigit]

@[simp] lemma number_digits (n : ℕ) : number (Nat.toDigits 10 n) = some n := by
  rw [number, if_pos ⟨digits_ne_nil n, digits_isDigit n⟩, Nat.ofDigitChars_ten_toDigits]

lemma placeholder_toList (n : ℕ) : (placeholder n).toList = '$' :: Nat.toDigits 10 n := by
  rw [placeholder, String.toList_append]
  simp

lemma Lexes.placeholder (n : ℕ) {cs : List Char} (h : Lexes cs ts) (hstart : Starts cs) :
    Lexes ((placeholder n).toList ++ cs) (.arg (Nat.toDigits 10 n) :: ts) := by
  rw [placeholder_toList, List.cons_append]
  exact h.arg (digits_ne_nil n) (digits_words n) hstart

/-- Words with a space before each. -/
lemma Lexes.words {ws : List (List Char)} (hws : ∀ w ∈ ws, w ≠ [] ∧ w.all isWordChar = true)
    {cs : List Char} {ts : List Tok} (h : Lexes cs ts) (hstart : Starts cs) :
    Lexes (ws.flatMap (' ' :: ·) ++ cs) (ws.map .word ++ ts) := by
  induction ws with
  | nil => exact h
  | cons w ws ih =>
      obtain ⟨hne, hw⟩ := hws w List.mem_cons_self
      rw [List.flatMap_cons, List.cons_append, List.cons_append, List.append_assoc]
      refine (Lexes.word hne hw (ih fun v hv => hws v (List.mem_cons_of_mem w hv)) ?_).space
      cases ws with
      | nil => exact hstart
      | cons v ws => exact starts_cons rfl _

/-! ### Lists of placeholders -/

def argToks : List ℕ → List Tok
  | [] => [.sym ')']
  | [n] => [.arg (Nat.toDigits 10 n), .sym ')']
  | n :: m :: ns => .arg (Nat.toDigits 10 n) :: .sym ',' :: argToks (m :: ns)

lemma lexes_args (args : List ℕ) :
    Lexes (",".toList.intercalate (args.map fun n => (placeholder n).toList) ++ [')'])
      (argToks args) := by
  have hclose : Lexes [')'] [.sym ')'] := Lexes.nil.sym rfl (by decide)
  induction args with
  | nil => exact hclose
  | cons n args ih =>
      cases args with
      | nil =>
          rw [List.map_singleton, List.intercalate_singleton]
          exact hclose.placeholder n (starts_cons rfl _)
      | cons m args =>
          rw [List.map_cons, List.map_cons, List.intercalate_cons_cons, List.append_assoc,
            List.append_assoc]
          exact Lexes.placeholder n (ih.sym rfl (by decide)) (starts_cons rfl _)

lemma parseArgs_argToks {args : List ℕ} (hne : args ≠ []) (rest : List Tok) :
    parseArgs (argToks args ++ rest) = some (args, rest) := by
  induction args with
  | nil => exact absurd rfl hne
  | cons n args ih =>
      cases args with
      | nil =>
          rw [argToks, List.cons_append, List.singleton_append, parseArgs, number_digits]
          rfl
      | cons m args =>
          rw [argToks, List.cons_append, List.cons_append, parseArgs, number_digits,
            Option.bind_some, ih (List.cons_ne_nil m args)]
          rfl

/-! ### Conditions -/

/-- The comparisons written with characters of their own. -/
def symbolOps : List String := ["=", "!=", "<", "<=", ">", ">="]

/-- The comparisons written as words. -/
def wordOps : List String := ["LIKE", "ILIKE", "NOT LIKE", "NOT ILIKE"]

mutual

/-- Columns are names, operators known, and lists and connectives not empty. -/
def Cond.Good : Cond → Prop
  | .lit _ => True
  | .isNull col => isName col.toList
  | .isNotNull col => isName col.toList
  | .compare col op _ => isName col.toList ∧ (op ∈ symbolOps ∨ op ∈ wordOps)
  | .isIn col args => isName col.toList ∧ args ≠ []
  | .isNotIn col args => isName col.toList ∧ args ≠ []
  | .and cs => cs ≠ [] ∧ Cond.AllGood cs
  | .or cs => cs ≠ [] ∧ Cond.AllGood cs
  | .not c => c.Good

def Cond.AllGood : List Cond → Prop
  | [] => True
  | c :: cs => c.Good ∧ Cond.AllGood cs

end

section Predicates

variable {col : String} (hcol : isName col.toList = true)

include hcol

/-- A column and a predicate after it. -/
lemma clause_of_predicate {text : String} (ts : List Tok) {e : Expr}
    (hlex : Lexes text.toList ts) (hstart : Starts text.toList)
    (h : ∀ rest, parsePredicate col (ts ++ rest) = some (e, rest)) :
    Clause (col ++ text) e := by
  obtain ⟨hne, hw⟩ := isName_words hcol
  refine ⟨.word col.toList :: ts, ?_, ReadsAs.predicate hcol h⟩
  rw [String.toList_append]
  exact hlex.word hne hw hstart

lemma clause_isNull : Clause (col ++ " IS NULL") (.cond (.isNull col)) := by
  refine clause_of_predicate hcol [.word "IS".toList, .word "NULL".toList] ?_
    (starts_cons rfl _) fun _ => rfl
  exact @Lexes.words ["IS".toList, "NULL".toList] (by decide) [] [] Lexes.nil starts_nil

lemma clause_isNotNull : Clause (col ++ " IS NOT NULL") (.cond (.isNotNull col)) := by
  refine clause_of_predicate hcol
    [.word "IS".toList, .word "NOT".toList, .word "NULL".toList] ?_
    (starts_cons rfl _) fun _ => rfl
  exact @Lexes.words ["IS".toList, "NOT".toList, "NULL".toList] (by decide) [] []
    Lexes.nil starts_nil

omit hcol in
lemma spaced_toList (op text : String) :
    (" " ++ op ++ " " ++ text).toList = ' ' :: (op.toList ++ ' ' :: text.toList) := by
  simp only [String.toList_append, List.append_assoc]
  rfl

lemma clause_symbolOp {op : String} (hop : op ∈ symbolOps) (n : ℕ) :
    Clause (col ++ (" " ++ op ++ " " ++ placeholder n)) (.cond (.compare col op n)) := by
  have hchars : ∀ op ∈ symbolOps, op.toList ≠ [] ∧ op.toList.all isOpChar = true := by
    decide
  refine clause_of_predicate hcol [.op op.toList, .arg (Nat.toDigits 10 n)] ?_ ?_ ?_
  · have harg := Lexes.placeholder n Lexes.nil starts_nil
    rw [List.append_nil] at harg
    rw [spaced_toList]
    exact (Lexes.op (hchars op hop).1 (hchars op hop).2 harg.space (starts_cons rfl _)).space
  · rw [spaced_toList]
    exact starts_cons rfl _
  · intro rest
    rw [List.cons_append, List.singleton_append, parsePredicate, number_digits,
      String.ofList_toList]
    rfl

/-- The words of an operator that is written as words. -/
def opWords (op : String) : List (List Char) :=
  if op = "LIKE" then ["LIKE".toList]
  else if op = "ILIKE" then ["ILIKE".toList]
  else if op = "NOT LIKE" then ["NOT".toList, "LIKE".toList]
  else ["NOT".toList, "ILIKE".toList]

lemma clause_wordOp {op : String} (hop : op ∈ wordOps) (n : ℕ) :
    Clause (col ++ (" " ++ op ++ " " ++ placeholder n)) (.cond (.compare col op n)) := by
  have hwords : ∀ op ∈ wordOps, ' ' :: op.toList = (opWords op).flatMap (' ' :: ·) ∧
      ∀ w ∈ opWords op, w ≠ [] ∧ w.all isWordChar = true := by
    decide
  obtain ⟨htext, hw⟩ := hwords op hop
  have harg := Lexes.placeholder n Lexes.nil starts_nil
  rw [List.append_nil] at harg
  refine clause_of_predicate hcol
    ((opWords op).map .word ++ [.arg (Nat.toDigits 10 n)]) ?_ ?_ ?_
  · rw [spaced_toList, ← List.cons_append, htext]
    exact Lexes.words hw harg.space (starts_cons rfl _)
  · rw [spaced_toList]
    exact starts_cons rfl _
  · intro rest
    have hnumber := number_digits n
    simp only [wordOps, List.mem_cons, List.not_mem_nil, or_false] at hop
    rcases hop with rfl | rfl | rfl | rfl
    all_goals
      change Option.map _ (number (Nat.toDigits 10 n)) = _
      rw [hnumber]
      rfl

/-- A list of placeholders after the words `w` and `ws`. -/
lemma clause_list {args : List ℕ} {text : String} {w : List Char} {ws : List (List Char)}
    (htext : text.toList = (w :: ws).flatMap (' ' :: ·) ++ [' '])
    (hws : ∀ v ∈ w :: ws, v ≠ [] ∧ v.all isWordChar = true) {e : Expr}
    (h : ∀ rest, parsePredicate col
      ((w :: ws).map .word ++ .sym '(' :: (argToks args ++ rest)) = some (e, rest)) :
    Clause (col ++ (text ++ listText args)) e := by
  have hlist : (listText args).toList =
      '(' :: (",".toList.intercalate (args.map fun n => (placeholder n).toList) ++ [')']) := by
    simp only [listText, String.toList_append, String.toList_intercalate, List.map_map]
    rfl
  refine clause_of_predicate hcol ((w :: ws).map .word ++ .sym '(' :: argToks args) ?_ ?_ ?_
  · rw [String.toList_append, htext, hlist, List.append_assoc]
    exact Lexes.words hws ((lexes_args args).sym rfl (by decide)).space (starts_cons rfl _)
  · rw [String.toList_append, htext]
    exact starts_cons rfl _
  · intro rest
    rw [List.append_assoc, List.cons_append]
    exact h rest

lemma clause_isIn {args : List ℕ} (hne : args ≠ []) :
    Clause (col ++ (" IN " ++ listText args)) (.cond (.isIn col args)) := by
  refine @clause_list _ hcol args " IN " "IN".toList [] (by decide) (by decide) _
    fun rest => ?_
  change Option.map _ (parseArgs (argToks args ++ rest)) = _
  rw [parseArgs_argToks hne]
  rfl

lemma clause_isNotIn {args : List ℕ} (hne : args ≠ []) :
    Clause (col ++ (" NOT IN " ++ listText args)) (.cond (.isNotIn col args)) := by
  refine @clause_list _ hcol args " NOT IN " "NOT".toList ["IN".toList] (by decide)
    (by decide) _ fun rest => ?_
  change Option.map _ (parseArgs (argToks args ++ rest)) = _
  rw [parseArgs_argToks hne]
  rfl

end Predicates

/-! ### Clauses together -/

/-- Clauses with a connective between them. -/
lemma lexes_joined {sep : List Char} (k : List Char) (hsep : sep = ' ' :: (k ++ [' ']))
    (hk : k ≠ [] ∧ k.all isWordChar = true) {cs cs' : List Char} {ts' : List Tok}
    (h : Lexes cs ts) (h' : Lexes cs' ts') : Lexes (cs ++ sep ++ cs') (ts ++ .word k :: ts') := by
  rw [hsep, List.append_assoc, List.cons_append, List.append_assoc, List.singleton_append]
  exact h.append (Lexes.word hk.1 hk.2 h'.space (starts_cons rfl _)).space (starts_cons rfl _)

/-- A chain of `AND`. -/
def andAll (e : Expr) : List Expr → Expr
  | [] => e
  | e' :: es => .and e (andAll e' es)

/-- A chain of `OR`. -/
def orAll (e : Expr) : List Expr → Expr
  | [] => e
  | e' :: es => .or e (orAll e' es)

section Chains

variable {s : String} {e : Expr} {ss : List String} {es : List Expr}

lemma reads_and_chain (h : Clause s e) (hs : List.Forall₂ Clause ss es) :
    ∃ ts, Lexes (" AND ".toList.intercalate ((s :: ss).map String.toList)) ts ∧
      ReadsAs .and ts (andAll e es) := by
  induction hs generalizing s e with
  | nil =>
      obtain ⟨ts, hlex, hread⟩ := h
      exact ⟨ts, by simpa using hlex, hread.and_of_not⟩
  | cons h' _ ih =>
      obtain ⟨ts, hlex, hread⟩ := h
      obtain ⟨ts', hlex', hread'⟩ := ih h'
      refine ⟨_, ?_, hread.and hread'⟩
      rw [List.map_cons, List.map_cons, List.intercalate_cons_cons]
      exact lexes_joined "AND".toList rfl (by decide) hlex hlex'

lemma reads_or_chain (h : Clause s e) (hs : List.Forall₂ Clause ss es) :
    ∃ ts, Lexes (" OR ".toList.intercalate ((s :: ss).map String.toList)) ts ∧
      ReadsAs .or ts (orAll e es) := by
  induction hs generalizing s e with
  | nil =>
      obtain ⟨ts, hlex, hread⟩ := h
      exact ⟨ts, by simpa using hlex, hread.and_of_not.or_of_and⟩
  | cons h' _ ih =>
      obtain ⟨ts, hlex, hread⟩ := h
      obtain ⟨ts', hlex', hread'⟩ := ih h'
      refine ⟨_, ?_, hread.and_of_not.or hread'⟩
      rw [List.map_cons, List.map_cons, List.intercalate_cons_cons]
      exact lexes_joined "OR".toList rfl (by decide) hlex hlex'

/-- A text in brackets is a clause. -/
lemma clause_paren {text : String} (hlex : Lexes text.toList ts) (hread : ReadsAs .or ts e) :
    Clause ("(" ++ text ++ ")") e := by
  refine ⟨.sym '(' :: (ts ++ [.sym ')']), ?_, hread.paren⟩
  have hclose : Lexes [')'] [.sym ')'] := Lexes.nil.sym rfl (by decide)
  rw [String.toList_append, String.toList_append, List.append_assoc]
  exact (hlex.append hclose (starts_cons rfl _)).sym rfl (by decide)

lemma clause_and (h : Clause s e) (hs : List.Forall₂ Clause ss es) :
    Clause ("(" ++ " AND ".intercalate (s :: ss) ++ ")") (andAll e es) := by
  obtain ⟨ts, hlex, hread⟩ := reads_and_chain h hs
  exact clause_paren (by rw [String.toList_intercalate]; exact hlex) hread.or_of_and

lemma clause_or (h : Clause s e) (hs : List.Forall₂ Clause ss es) :
    Clause ("(" ++ " OR ".intercalate (s :: ss) ++ ")") (orAll e es) := by
  obtain ⟨ts, hlex, hread⟩ := reads_or_chain h hs
  exact clause_paren (by rw [String.toList_intercalate]; exact hlex) hread

lemma clause_not (h : Clause s e) : Clause ("(NOT " ++ s ++ ")") (.not e) := by
  obtain ⟨ts, hlex, hread⟩ := h
  have hnot : Lexes ("NOT " ++ s).toList (.word "NOT".toList :: ts) := by
    rw [String.toList_append]
    exact @Lexes.word "NOT".toList _ _ (by decide) (by decide) hlex.space
      (starts_cons rfl _)
  have htext : "(NOT " ++ s ++ ")" = "(" ++ ("NOT " ++ s) ++ ")" := by
    rw [← String.append_assoc]
    rfl
  rw [htext]
  exact clause_paren hnot hread.negation.and_of_not.or_of_and

/-- **Clauses put together with ` AND ` are read as their conjunction.** -/
theorem read_clauses (h : Clause s e) (hs : List.Forall₂ Clause ss es) :
    read (" AND ".intercalate (s :: ss)) = some (andAll e es) := by
  obtain ⟨ts, hlex, hread⟩ := reads_and_chain h hs
  have htoks : lex (" AND ".intercalate (s :: ss)).toList = ts := by
    rw [lex, String.toList_intercalate, hlex [] trivial]
    exact List.append_nil ts
  have hparse := hread.or_of_and.2 (4 * ts.length + 4) [] (by simp only [Level.rank]; omega)
    (fun _ h => nomatch h)
  rw [List.append_nil] at hparse
  rw [read]
  simp only [htoks, hparse]

end Chains

/-! ### The text of a condition -/

lemma clause_lit (b : Bool) : Clause (if b then "TRUE" else "FALSE") (.cond (.lit b)) := by
  refine ⟨_, ?_, ReadsAs.lit b⟩
  have hwords : ∀ b : Bool, (if b then "TRUE" else "FALSE" : String).toList ≠ [] ∧
      (if b then "TRUE" else "FALSE" : String).toList.all isWordChar = true := by
    decide
  have h := Lexes.word (hwords b).1 (hwords b).2 Lexes.nil starts_nil
  rwa [List.append_nil] at h

section Meaning

variable {Row : Type*} (I : Interp Row) (params : List String) (row : Row)

@[simp] lemma andAll_eval (e : Expr) (es : List Expr) : (andAll e es).eval I params row =
      Truth.all ((e :: es).map fun e => e.eval I params row) := by
  induction es generalizing e with
  | nil => cases h : e.eval I params row <;> simp [andAll, h, Truth.all, Truth.and]
  | cons e' es ih =>
      rw [andAll, Expr.eval, ih]
      rfl

@[simp] lemma orAll_eval (e : Expr) (es : List Expr) : (orAll e es).eval I params row =
      Truth.any ((e :: es).map fun e => e.eval I params row) := by
  induction es generalizing e with
  | nil => cases h : e.eval I params row <;> simp [orAll, h, Truth.any, Truth.or]
  | cons e' es ih =>
      rw [orAll, Expr.eval, ih]
      rfl

end Meaning

/-- What is read says of every row what the condition says. -/
def Means (Row : Type*) (e : Expr) (c : Cond) : Prop :=
  ∀ (I : Interp Row) params row, e.eval I params row = c.eval I params row

mutual

/-- **The text of a condition is a clause, and is read as the condition.** -/
theorem cond_clause (Row : Type*) (c : Cond) (h : c.Good) :
    ∃ e, Clause c.text e ∧ Means Row e c := by
  match c with
  | .lit true => exact ⟨_, clause_lit true, fun _ _ _ => rfl⟩
  | .lit false => exact ⟨_, clause_lit false, fun _ _ _ => rfl⟩
  | .isNull col => exact ⟨_, clause_isNull h, fun _ _ _ => rfl⟩
  | .isNotNull col => exact ⟨_, clause_isNotNull h, fun _ _ _ => rfl⟩
  | .compare col op n =>
      refine ⟨.cond (.compare col op n), ?_, fun _ _ _ => rfl⟩
      have htext : (Cond.compare col op n).text = col ++ (" " ++ op ++ " " ++ placeholder n) := by
        simp only [Cond.text, String.append_assoc]
      rw [htext]
      obtain ⟨hcol, hop | hop⟩ := h
      · exact clause_symbolOp hcol hop n
      · exact clause_wordOp hcol hop n
  | .isIn col args =>
      refine ⟨.cond (.isIn col args), ?_, fun _ _ _ => rfl⟩
      rw [Cond.text, String.append_assoc]
      exact clause_isIn h.1 h.2
  | .isNotIn col args =>
      refine ⟨.cond (.isNotIn col args), ?_, fun _ _ _ => rfl⟩
      rw [Cond.text, String.append_assoc]
      exact clause_isNotIn h.1 h.2
  | .and [] => exact absurd rfl h.1
  | .and (c :: cs) =>
      obtain ⟨e, hc, he⟩ := cond_clause Row c h.2.1
      obtain ⟨es, hcs, hes⟩ := conds_clauses Row cs h.2.2
      refine ⟨andAll e es, clause_and hc hcs, fun I params row => ?_⟩
      rw [andAll_eval, List.map_cons, he, hes, Cond.eval, Cond.evals]
  | .or [] => exact absurd rfl h.1
  | .or (c :: cs) =>
      obtain ⟨e, hc, he⟩ := cond_clause Row c h.2.1
      obtain ⟨es, hcs, hes⟩ := conds_clauses Row cs h.2.2
      refine ⟨orAll e es, clause_or hc hcs, fun I params row => ?_⟩
      rw [orAll_eval, List.map_cons, he, hes, Cond.eval, Cond.evals]
  | .not c =>
      obtain ⟨e, hc, he⟩ := cond_clause Row c h
      refine ⟨.not e, clause_not hc, fun I params row => ?_⟩
      rw [Expr.eval, he, Cond.eval]

lemma conds_clauses (Row : Type*) (cs : List Cond) (h : Cond.AllGood cs) :
    ∃ es, List.Forall₂ Clause (Cond.texts cs) es ∧ ∀ (I : Interp Row) params row,
      (es.map fun e => e.eval I params row) = Cond.evals I params row cs := by
  match cs with
  | [] => exact ⟨[], .nil, fun _ _ _ => rfl⟩
  | c :: cs =>
      obtain ⟨e, hc, he⟩ := cond_clause Row c h.1
      obtain ⟨es, hcs, hes⟩ := conds_clauses Row cs h.2
      refine ⟨e :: es, .cons hc hcs, fun I params row => ?_⟩
      rw [List.map_cons, he, hes, Cond.evals]

end

end Sql

namespace Sql

inductive ClauseChar where
  | plain (c : Char)
  | arg (n : ℕ)
  deriving DecidableEq

def ClauseChar.arg? : ClauseChar → Option ℕ
  | .plain _ => none
  | .arg n => some n

/-- A placeholder begins here. -/
def ArgBegins (c : Char) (cs : List Char) : Prop := c = '$' ∧ cs.head?.any Char.isDigit

instance (c : Char) (cs : List Char) : Decidable (ArgBegins c cs) :=
  inferInstanceAs (Decidable (c = '$' ∧ _))

/-- A text, its placeholders read as numbers. -/
def clauseChars : List Char → List ClauseChar
  | [] => []
  | c :: cs =>
      if ArgBegins c cs then
        .arg (Nat.ofDigitChars 10 (cs.takeWhile Char.isDigit) 0) ::
          clauseChars (cs.dropWhile Char.isDigit)
      else .plain c :: clauseChars cs
termination_by cs => cs.length
decreasing_by
  · exact Nat.lt_succ_of_le (List.dropWhile_suffix _).length_le
  · exact Nat.lt_succ_self _

/-- The numbers of the placeholders in a text, in their order. -/
def args (cs : List Char) : List ℕ := (clauseChars cs).filterMap ClauseChar.arg?

/-! ### Texts one behind the other -/

/-- No digit stands at the beginning. -/
def DigitFree (cs : List Char) : Prop := cs.head?.any Char.isDigit = false

lemma digitFree_dropWhile (cs : List Char) : DigitFree (cs.dropWhile Char.isDigit) := by
  unfold DigitFree
  rcases h : cs.dropWhile Char.isDigit with - | ⟨c, rest⟩
  · rfl
  · have hne : cs.dropWhile Char.isDigit ≠ [] := by
      rw [h]
      exact List.cons_ne_nil _ _
    have hc := List.head_dropWhile_not Char.isDigit hne
    simp only [h, List.head_cons] at hc
    simpa using hc

variable {rest : List Char}

/-- Digits end where a text without a digit in front begins. -/
lemma takeWhile_append_digitFree (cs : List Char) (h : DigitFree rest) :
    (cs ++ rest).takeWhile Char.isDigit = cs.takeWhile Char.isDigit ∧
      (cs ++ rest).dropWhile Char.isDigit = cs.dropWhile Char.isDigit ++ rest := by
  induction cs with
  | nil =>
      cases rest with
      | nil => exact ⟨rfl, rfl⟩
      | cons c rest =>
          have hc : ¬c.isDigit = true := by simpa [DigitFree] using h
          exact ⟨List.takeWhile_cons_of_neg hc, List.dropWhile_cons_of_neg hc⟩
  | cons c cs ih =>
      by_cases hc : c.isDigit = true
      · rw [List.cons_append, List.takeWhile_cons_of_pos hc, List.takeWhile_cons_of_pos hc,
          List.dropWhile_cons_of_pos hc, List.dropWhile_cons_of_pos hc, ih.1, ih.2]
        exact ⟨rfl, rfl⟩
      · rw [List.cons_append, List.takeWhile_cons_of_neg hc, List.takeWhile_cons_of_neg hc,
          List.dropWhile_cons_of_neg hc, List.dropWhile_cons_of_neg hc]
        exact ⟨rfl, rfl⟩

lemma argBegins_append {c : Char} {cs : List Char} (h : DigitFree rest) :
    ArgBegins c (cs ++ rest) ↔ ArgBegins c cs := by
  unfold ArgBegins
  cases cs with
  | nil =>
      rw [List.nil_append, h]
      rfl
  | cons d cs => rfl

lemma clauseChars_append {cs : List Char} (h : DigitFree rest) :
    clauseChars (cs ++ rest) = clauseChars cs ++ clauseChars rest := by
  induction cs using clauseChars.induct with
  | case1 => rw [clauseChars, List.nil_append, List.nil_append]
  | case2 c cs hbegins ih =>
      obtain ⟨htake, hdrop⟩ := takeWhile_append_digitFree cs h
      rw [List.cons_append, clauseChars, if_pos ((argBegins_append h).mpr hbegins), htake, hdrop,
        ih, clauseChars, if_pos hbegins, List.cons_append]
  | case3 c cs hbegins ih =>
      rw [List.cons_append, clauseChars, if_neg (fun hb => hbegins ((argBegins_append h).mp hb)),
        ih, clauseChars, if_neg hbegins, List.cons_append]

lemma args_append {cs : List Char} (h : DigitFree rest) :
    args (cs ++ rest) = args cs ++ args rest := by
  unfold args
  rw [clauseChars_append h, List.filterMap_append]

lemma clauseChars_plain {cs : List Char} (h : '$' ∉ cs) : clauseChars cs = cs.map .plain := by
  induction cs with
  | nil => rw [clauseChars, List.map_nil]
  | cons c cs ih =>
      have hbegins : ¬ArgBegins c cs := by
        rintro ⟨rfl, -⟩
        exact h List.mem_cons_self
      rw [clauseChars, if_neg hbegins, ih fun hmem => h (List.mem_cons_of_mem c hmem),
        List.map_cons]

lemma args_plain {cs : List Char} (h : '$' ∉ cs) : args cs = [] := by
  unfold args
  rw [clauseChars_plain h, List.filterMap_map]
  exact List.filterMap_eq_nil_iff.mpr fun _ _ => rfl

lemma clauseChars_arg (n : ℕ) : clauseChars ('$' :: Nat.toDigits 10 n) = [.arg n] := by
  have hdigits := List.all_eq_true.mp (digits_isDigit n)
  have hbegins : ArgBegins '$' (Nat.toDigits 10 n) := by
    refine ⟨rfl, ?_⟩
    cases hd : Nat.toDigits 10 n with
    | nil => exact absurd hd (digits_ne_nil n)
    | cons c cs =>
        rw [hd] at hdigits
        exact hdigits c List.mem_cons_self
  have htake : (Nat.toDigits 10 n).takeWhile Char.isDigit = Nat.toDigits 10 n :=
    List.takeWhile_eq_self_iff.mpr hdigits
  have hdrop : (Nat.toDigits 10 n).dropWhile Char.isDigit = [] :=
    List.dropWhile_eq_nil_iff.mpr hdigits
  rw [clauseChars, if_pos hbegins, htake, hdrop, clauseChars, Nat.ofDigitChars_ten_toDigits]

lemma args_placeholder (n : ℕ) : args (placeholder n).toList = [n] := by
  unfold args
  rw [placeholder_toList, clauseChars_arg]
  rfl

/-! ### The placeholders of a condition -/

mutual

/-- The parameters of a condition, in their order. -/
def Cond.args : Cond → List ℕ
  | .lit _ | .isNull _ | .isNotNull _ => []
  | .compare _ _ arg => [arg]
  | .isIn _ args | .isNotIn _ args => args
  | .and cs | .or cs => Cond.allArgs cs
  | .not c => c.args

def Cond.allArgs : List Cond → List ℕ
  | [] => []
  | c :: cs => c.args ++ Cond.allArgs cs

/-- The columns a condition tests. -/
def Cond.columns : Cond → List String
  | .lit _ => []
  | .isNull col | .isNotNull col | .compare col _ _ | .isIn col _ | .isNotIn col _ => [col]
  | .and cs | .or cs => Cond.allColumns cs
  | .not c => c.columns

def Cond.allColumns : List Cond → List String
  | [] => []
  | c :: cs => c.columns ++ Cond.allColumns cs

/-- The operators a condition compares with. -/
def Cond.operators : Cond → List String
  | .lit _ | .isNull _ | .isNotNull _ | .isIn _ _ | .isNotIn _ _ => []
  | .compare _ op _ => [op]
  | .and cs | .or cs => Cond.allOperators cs
  | .not c => c.operators

def Cond.allOperators : List Cond → List String
  | [] => []
  | c :: cs => c.operators ++ Cond.allOperators cs

end

lemma args_plain_append {s t : String} (h : '$' ∉ s.toList) :
    args (s ++ t).toList = args t.toList := by
  rw [String.toList_append]
  generalize s.toList = cs at h ⊢
  induction cs with
  | nil => rfl
  | cons c cs ih =>
      have hbegins : ¬ArgBegins c (cs ++ t.toList) := by
        rintro ⟨rfl, -⟩
        exact h List.mem_cons_self
      have hrest := ih fun hmem => h (List.mem_cons_of_mem c hmem)
      unfold args at hrest ⊢
      rw [List.cons_append, clauseChars, if_neg hbegins, List.filterMap_cons, hrest]
      rfl

lemma args_append_plain {s t : String} (ht : '$' ∉ t.toList) (hstart : DigitFree t.toList) :
    args (s ++ t).toList = args s.toList := by
  rw [String.toList_append, args_append hstart, args_plain ht, List.append_nil]

lemma args_intercalate {sep : String} (hsep : '$' ∉ sep.toList) (hstart : ∀ t : String,
    DigitFree (sep ++ t).toList) (ss : List String) :
    args (sep.intercalate ss).toList = ss.flatMap fun s => args s.toList := by
  induction ss with
  | nil => exact args_plain List.not_mem_nil
  | cons s ss ih =>
      cases ss with
      | nil =>
          rw [String.intercalate_singleton, List.flatMap_cons, List.flatMap_nil, List.append_nil]
      | cons s' ss =>
          rw [String.intercalate_cons_cons, String.append_assoc, String.toList_append,
            args_append (hstart _), args_plain_append hsep, ih]
          rfl

lemma args_paren (s : String) : args ("(" ++ s ++ ")").toList = args s.toList := by
  rw [args_append_plain (t := ")") (by decide) rfl, args_plain_append (by decide)]

lemma args_listText (ns : List ℕ) : args (listText ns).toList = ns := by
  unfold listText
  rw [args_paren, args_intercalate (by decide) fun t => by rw [String.toList_append]; rfl,
    List.flatMap_map]
  simp only [args_placeholder, List.flatMap_singleton']

mutual

/-- **The placeholders in a condition's text are the condition's.** -/
theorem args_text (c : Cond) (h : ∀ s ∈ c.columns ++ c.operators, '$' ∉ s.toList) :
    args c.text.toList = c.args := by
  match c with
  | .lit true => exact args_plain (by decide)
  | .lit false => exact args_plain (by decide)
  | .isNull col =>
      have hcol := h col (by simp [Cond.columns])
      exact (args_append_plain (t := " IS NULL") (by decide) rfl).trans (args_plain hcol)
  | .isNotNull col =>
      have hcol := h col (by simp [Cond.columns])
      exact (args_append_plain (t := " IS NOT NULL") (by decide) rfl).trans (args_plain hcol)
  | .compare col op n =>
      have hcol := h col (by simp [Cond.columns])
      have hop := h op (by simp [Cond.operators])
      simp only [Cond.text, String.append_assoc]
      rw [args_plain_append hcol, args_plain_append (by decide), args_plain_append hop,
        args_plain_append (by decide), args_placeholder]
      rfl
  | .isIn col ns =>
      have hcol := h col (by simp [Cond.columns])
      simp only [Cond.text, String.append_assoc]
      rw [args_plain_append hcol, args_plain_append (by decide), args_listText]
      rfl
  | .isNotIn col ns =>
      have hcol := h col (by simp [Cond.columns])
      simp only [Cond.text, String.append_assoc]
      rw [args_plain_append hcol, args_plain_append (by decide), args_listText]
      rfl
  | .and cs =>
      have hcs := args_texts cs h
      simp only [Cond.text]
      rw [args_paren, args_intercalate (by decide) fun t => by rw [String.toList_append]; rfl, hcs]
      rfl
  | .or cs =>
      have hcs := args_texts cs h
      simp only [Cond.text]
      rw [args_paren, args_intercalate (by decide) fun t => by rw [String.toList_append]; rfl, hcs]
      rfl
  | .not c =>
      simp only [Cond.text]
      rw [args_append_plain (t := ")") (by decide) rfl, args_plain_append (by decide)]
      exact args_text c h

lemma args_texts (cs : List Cond)
    (h : ∀ s ∈ Cond.allColumns cs ++ Cond.allOperators cs, '$' ∉ s.toList) :
    ((Cond.texts cs).flatMap fun s => args s.toList) = Cond.allArgs cs := by
  match cs with
  | [] => rfl
  | c :: cs =>
      have hc := args_text c fun s hs => h s (by
        simp only [Cond.allColumns, Cond.allOperators, List.mem_append] at hs ⊢
        tauto)
      have hcs := args_texts cs fun s hs => h s (by
        simp only [Cond.allColumns, Cond.allOperators, List.mem_append] at hs ⊢
        tauto)
      rw [Cond.texts, List.flatMap_cons, hc, hcs]
      rfl

end

end Sql
