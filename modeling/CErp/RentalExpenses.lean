/-
Recurring expenses of the rental business.

`generate` takes the templates that are due, each in a transaction of its own,
and writes a draft for each date up to the day it is run as of; dates are
compared as texts, and the date after is so many months after the date before.
What a template is about, the row and the dates of its drafts, is `View`; the
turn of one template leaves the view of another alone (`generateOne_other`).
-/
import CErp.IsoDates
import CErp.Outcome
import CErp.Table

namespace CErp

open Outcome List Table

namespace RentalExpenses

open Calendar

/-! ### The source -/

inductive ExpenseState where
  | draft
  | posted
  | cancelled
  deriving DecidableEq

/-- A row of `rental_expense`. -/
structure Expense where
  date : ℤ
  name : String
  categoryId : Option ℤ := none
  amount : ℤ := 0
  partnerId : Option ℤ := none
  unitId : Option ℤ := none
  contractId : Option ℤ := none
  accountId : Option ℤ := none
  state : ExpenseState := .draft
  isRecurring : Bool := false
  recurrenceInterval : Option String := none
  recurrenceNextDate : Option ℤ := none
  recurrenceEndDate : Option ℤ := none
  recurrenceParentId : Option ℤ := none
  companyId : ℤ := 1
  deriving DecidableEq

/-- `monthsFor_`: monthly is the safe default. -/
def monthsFor (interval : String) : ℤ :=
  if interval = "quarterly" then 3 else if interval = "yearly" then 12 else 1

/-- A text as a `DATE`. -/
def readDate (s : List Char) : Except String ℤ :=
  match dayOfDigits s with
  | some d => .ok d
  | none => .error ("invalid input syntax for type date: \"" ++ String.ofList s ++ "\"")

/-- A date as text, nothing where there is none. -/
def optText (d : Option ℤ) : List Char := d.elim [] Calendar.dateText

/-- The templates with something to write. -/
def isDue (asOf : ℤ) (t : Expense) : Bool :=
  t.isRecurring && t.state != .cancelled && t.recurrenceNextDate.any fun next =>
    decide (next ≤ asOf) && t.recurrenceEndDate.all fun last => decide (next ≤ last)

def templateIds (expenses : Table Expense) (asOf : ℤ) : List ℤ :=
  (((expenses.rows.filter fun r => isDue asOf r.2).map Prod.fst).insertionSort (· ≤ ·)).take 1000

/-- The draft a template leaves on a date. -/
def child (t : Expense) (tid date : ℤ) : Expense where
  date := date
  name := t.name
  categoryId := t.categoryId
  amount := t.amount
  partnerId := t.partnerId
  unitId := t.unitId
  contractId := t.contractId
  accountId := t.accountId
  recurrenceParentId := some tid
  companyId := t.companyId

/-- A template's turn, as far as it has come. -/
structure Progress where
  nextDate : List Char
  expenses : Table Expense
  generated : ℕ := 0
  skipped : ℕ := 0

/-- `INSERT … ON CONFLICT DO NOTHING`; a number is taken from the sequence either
way. -/
def insertChild (t : Expense) (tid date : ℤ) (p : Progress) : Progress :=
  match p.expenses.findBy fun e => e.recurrenceParentId == some tid && e.date == date with
  | some _ => { p with expenses := p.expenses.skip, skipped := p.skipped + 1 }
  | none =>
      { p with expenses := p.expenses.insert (child t tid date), generated := p.generated + 1 }

/-- One date, and the one after. -/
def occurrence (t : Expense) (tid months : ℤ) (p : Progress) : Except String Progress := do
  let date ← readDate p.nextDate
  .ok { insertChild t tid date p with nextDate := Calendar.dateText (addMonths date months) }

/-- The loop, as far as the guard lets it run. -/
def catchUp (asOf endDate : List Char) (t : Expense) (tid months : ℤ) :
    ℕ → Progress → Except String Progress
  | 0, p => .ok p
  | guard + 1, p =>
      if asOf < p.nextDate then .ok p
      else if endDate ≠ [] ∧ endDate < p.nextDate then .ok p
      else do
        let p ← occurrence t tid months p
        catchUp asOf endDate t tid months guard p

/-- A template's turn. -/
def generateOne (asOf : List Char) (tid : ℤ) (expenses : Table Expense) : Except String Progress :=
  match expenses.get? tid with
  | none => .ok { nextDate := [], expenses := expenses }
  | some t => do
      let months := monthsFor (t.recurrenceInterval.getD "monthly")
      let p ← catchUp asOf (optText t.recurrenceEndDate) t tid months 60
        { nextDate := optText t.recurrenceNextDate, expenses := expenses }
      let next ← readDate p.nextDate
      .ok { p with
        expenses := p.expenses.modify tid fun t => { t with recurrenceNextDate := some next } }

/-- `ExpenseGenResult`. -/
structure ExpenseGenResult where
  generated : ℕ := 0
  skipped : ℕ := 0
  failed : ℕ := 0
  errors : List String := []
  deriving DecidableEq

/-- A template in a transaction of its own.  A fault of the database in its turn,
if there is one, takes back what the turn has written. -/
def attempt (asOf : List Char) (fault : ℤ → Option String)
    (acc : Table Expense × ExpenseGenResult) (tid : ℤ) : Table Expense × ExpenseGenResult :=
  let (expenses, out) := acc
  let turn : Except String Progress := match fault tid with
    | some e => .error e
    | none => generateOne asOf tid expenses
  match turn with
  | .ok p =>
      (p.expenses, { out with
        generated := out.generated + p.generated
        skipped := out.skipped + p.skipped })
  | .error e => (expenses, { out with failed := out.failed + 1, errors := out.errors ++ [e] })

/-- `RentalExpenses::generate`. -/
def generate (asOfIn today : List Char) (fault : ℤ → Option String) (expenses : Table Expense) :
    Except String (Table Expense × ExpenseGenResult) := do
  let asOf := if asOfIn.isEmpty then today else asOfIn
  let day ← readDate asOf
  .ok ((templateIds expenses day).foldl (attempt asOf fault) (expenses, {}))

lemma readDate_dateText {d : ℤ} (h : FourDigits d) : readDate (Calendar.dateText d) = .ok d := by
  unfold readDate
  rw [dayOfDigits_dateText h]

/-! ### The view of a template -/

/-- The dates and states of what a template has written. -/
def children (tid : ℤ) (expenses : Table Expense) : List (ℤ × ExpenseState) :=
  (expenses.rows.filter fun r => r.2.recurrenceParentId == some tid).map fun r =>
    (r.2.date, r.2.state)

/-- The dates of a template's drafts. -/
def drafts (tid : ℤ) (expenses : Table Expense) : List ℤ :=
  ((children tid expenses).filter fun c => c.2 == .draft).map Prod.fst

/-- The template's row, and what it has written. -/
structure View (tid : ℤ) (t : Expense) (cs : List (ℤ × ExpenseState))
    (expenses : Table Expense) : Prop where
  row : expenses.get? tid = some t
  children : children tid expenses = cs

variable {tid : ℤ} {t : Expense} {cs : List (ℤ × ExpenseState)} {expenses : Table Expense}

lemma children_insert (tid : ℤ) (expenses : Table Expense) (e : Expense) :
    children tid (expenses.insert e) = children tid expenses ++
      if e.recurrenceParentId = some tid then [(e.date, e.state)] else [] := by
  unfold children Table.insert
  rw [filter_append, map_append]
  by_cases h : e.recurrenceParentId = some tid
  · rw [if_pos h, filter_cons_of_pos (by exact beq_iff_eq.mpr h)]
    rfl
  · rw [if_neg h, filter_cons_of_neg (by rw [beq_iff_eq]; exact h)]
    rfl

/-- The next date of a row is nothing its template's view shows. -/
lemma children_modify (tid id : ℤ) (expenses : Table Expense) (next : ℤ) :
    children tid (expenses.modify id fun t => { t with recurrenceNextDate := some next }) =
      children tid expenses := by
  show ((expenses.rows.map _).filter _).map _ = _
  rw [filter_map, map_map]
  have hfilter : ∀ r : ℤ × Expense,
      ((fun r : ℤ × Expense => r.2.recurrenceParentId == some tid) ∘ fun r : ℤ × Expense =>
        (r.1, if (r.1 == id) = true then { r.2 with recurrenceNextDate := some next } else r.2)) r =
          (r.2.recurrenceParentId == some tid) := by
    intro r
    dsimp only [Function.comp]
    split <;> rfl
  rw [funext hfilter]
  apply map_congr_left
  intro r _
  dsimp only [Function.comp]
  split <;> rfl

lemma View.skip (h : View tid t cs expenses) : View tid t cs expenses.skip :=
  ⟨h.row, h.children⟩

lemma View.insert (h : View tid t cs expenses) (e : Expense) :
    View tid t (cs ++ if e.recurrenceParentId = some tid then [(e.date, e.state)] else [])
      (expenses.insert e) where
  row := by
    rw [get?_insert_of_ne _ _ (lt_nextId_of_get? h.row).ne]
    exact h.row
  children := by rw [children_insert, h.children]

/-- A template writes on a date unless it has. -/
lemma View.findBy_eq_none_iff (h : View tid t cs expenses) (date : ℤ) :
    (expenses.findBy fun e => e.recurrenceParentId == some tid && e.date == date) = none ↔
      date ∉ cs.map Prod.fst := by
  rw [← h.children, Table.findBy_eq_none_iff, forall_get?_iff]
  unfold RentalExpenses.children
  rw [map_map, mem_map]
  constructor
  · rintro hnone ⟨r, hr, hdate⟩
    obtain ⟨hrow, hparent⟩ := mem_filter.mp hr
    have hfalse := hnone r hrow
    rw [hparent, Bool.true_and, beq_eq_false_iff_ne] at hfalse
    exact hfalse hdate
  · intro hno r hr
    rw [Bool.and_eq_false_iff]
    by_cases hparent : (r.2.recurrenceParentId == some tid) = true
    · refine .inr (beq_eq_false_iff_ne.mpr fun hdate => hno ⟨r, ?_, hdate⟩)
      exact mem_filter.mpr ⟨hr, hparent⟩
    · exact .inl (Bool.not_eq_true _ ▸ hparent)

/-! ### The turn of another template -/

variable {p : Progress} {tid' : ℤ}

lemma insertChild_other (h : View tid t cs expenses) {t' : Expense} (hne : tid' ≠ tid)
    (date : ℤ) (hp : p.expenses = expenses) :
    View tid t cs (insertChild t' tid' date p).expenses := by
  subst hp
  unfold insertChild
  split
  · exact h.skip
  · have hinsert := h.insert (child t' tid' date)
    have hparent : (child t' tid' date).recurrenceParentId ≠ some tid := fun heq =>
      hne (Option.some.inj heq)
    rw [if_neg hparent, append_nil] at hinsert
    exact hinsert

lemma occurrence_eq_ok {t' : Expense} {months : ℤ} {p' : Progress}
    (h : occurrence t' tid' months p = .ok p') : ∃ date, readDate p.nextDate = .ok date ∧
      p' = { insertChild t' tid' date p with nextDate := Calendar.dateText (addMonths date months) } := by
  obtain ⟨date, hdate, hrest⟩ := bind_ok_iff.mp h
  exact ⟨date, hdate, (Except.ok.inj hrest).symm⟩

lemma catchUp_other {asOf endDate : List Char} {t' : Expense} {months : ℤ} (hne : tid' ≠ tid)
    {guard : ℕ} {p' : Progress} (h : View tid t cs p.expenses)
    (hp : catchUp asOf endDate t' tid' months guard p = .ok p') : View tid t cs p'.expenses := by
  induction guard generalizing p with
  | zero =>
      cases hp
      exact h
  | succ guard ih =>
      unfold catchUp at hp
      split_ifs at hp with hafter hend
      · cases hp
        exact h
      · cases hp
        exact h
      · obtain ⟨q, hq, hrest⟩ := bind_ok_iff.mp hp
        obtain ⟨date, -, rfl⟩ := occurrence_eq_ok hq
        refine ih ?_ hrest
        exact insertChild_other h hne date rfl

/-- **The turn of one template leaves the view of another alone.** -/
theorem generateOne_other {asOf : List Char} (hne : tid' ≠ tid) (h : View tid t cs expenses)
    (hp : generateOne asOf tid' expenses = .ok p) : View tid t cs p.expenses := by
  unfold generateOne at hp
  split at hp
  · cases hp
    exact h
  · next t' _ =>
      obtain ⟨q, hq, hrest⟩ := bind_ok_iff.mp hp
      obtain ⟨next, -, hp⟩ := bind_ok_iff.mp hrest
      cases hp
      have hview := catchUp_other hne h hq
      exact {
        row := by
          rw [get?_modify_of_ne _ _ hne.symm]
          exact hview.row
        children := by
          rw [children_modify]
          exact hview.children }

end RentalExpenses

end CErp
