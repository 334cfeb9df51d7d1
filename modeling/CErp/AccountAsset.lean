/-
Assets: the straight-line schedule an asset gets when it is confirmed, the
depreciation run with an entry for every line that is due and not posted yet,
and closing an asset by hand.
-/
import CErp.AccountDb

namespace CErp

open Outcome AccountDb

namespace AccountAsset

/-- The lines of the schedule that are due, in their order. -/
def dueLines (a : Asset) (asOf : String) : List (ℤ × DepreciationLine) :=
  (a.schedule.rows.filter fun r =>
    !r.2.posted && r.2.depreciationDate.any fun d => decide (d ≤ asOf)).insertionSort
      fun x y => x.2.sequence ≤ y.2.sequence

/-- The legs of one entry: the expense is debited, the depreciation credited. -/
def legs (a : Asset) (expenseId depreciationId amount : ℤ) : List MoveLine :=
  let line (acc debit credit : ℤ) : MoveLine :=
    { accountId := acc
      companyId := some a.companyId
      name := "Depreciation — " ++ a.name
      debit := debit
      credit := credit }
  [line expenseId amount 0, line depreciationId 0 amount]

/-- The accounts and the journal an asset is depreciated with. -/
structure Accounts where
  journalId : ℤ
  jcode : String
  expenseId : ℤ
  depreciationId : ℤ

def accounts (db : AccountDb) (a : Asset) : Except String Accounts := do
  let journalId := a.journalId.getD 0
  let expenseId := a.accountExpenseId.getD 0
  let depreciationId := a.accountDepreciationId.getD 0
  require (journalId ≠ 0 ∧ expenseId ≠ 0 ∧ depreciationId ≠ 0)
    "Set the journal, expense and depreciation accounts on the asset first."
  match db.journals.get? journalId with
  | none => .error "Row number out of range."
  | some j => return ⟨journalId, j.code, expenseId, depreciationId⟩

/-- The entry of one line of the schedule, without its lines. -/
def entry (a : Asset) (acc : Accounts) (l : DepreciationLine) (name : String) : Move where
  name := name
  moveType := .entry
  state := .posted
  date := l.depreciationDate.getD ""
  journalId := acc.journalId
  companyId := a.companyId
  amountTotal := l.amount

/-- The schedule with one line posted. -/
def markPosted (lineId moveId : ℤ) (a : Asset) : Asset :=
  { a with
    schedule := a.schedule.modify lineId fun l => { l with posted := true, moveId := some moveId } }

/-- Posting one line of the schedule. -/
def postLine (now : Moment) (id : ℤ) (a : Asset) (acc : Accounts) (db : AccountDb)
    (line : ℤ × DepreciationLine) : Except String AccountDb := do
  let (name, db) ← db.nextNumber now (journalSeries acc.jcode)
  let moveId := db.moves.nextId
  let db ← db.postEntry (entry a acc line.2 name)
    (legs a acc.expenseId acc.depreciationId line.2.amount)
  return { db with assets := db.assets.modify id (markPosted line.1 moveId) }

/-- The book value, and the state once nothing is left to post. -/
def refresh (a : Asset) : Asset :=
  { a with
    valueResidual := a.value - a.schedule.sumOver fun _ l => if l.posted then l.amount else 0
    state := if a.schedule.rows.all fun r => r.2.posted then .close else a.state }

/-- The date up to which lines are due. -/
def asOfDate (now : Moment) (asOf : String) : Except String String :=
  if asOf = "" then .ok now.currentDate else now.dateInput asOf

/-- Depreciating one asset. -/
def depreciateOne (now : Moment) (asOf : String) (db : AccountDb) (id : ℤ) :
    Except String AccountDb :=
  match db.assets.get? id with
  | none => .ok db
  | some a => do
      let acc ← accounts db a
      let due ← asOfDate now asOf
      let db ← (dueLines a due).foldlM (postLine now id a acc) (db.ensureJournalSequence acc.jcode)
      return { db with assets := db.assets.modify id refresh }

/-- `AccountAssetViewModel::handleDepreciate`. -/
def depreciate (now : Moment) (asOf : String) (db : AccountDb) (ids : List ℤ) :
    Except String AccountDb :=
  ids.foldlM (depreciateOne now asOf) db

/-! ### action_confirm and action_close -/

/-- A column of the asset, or that of its type where it has none. -/
def inherited (own fromType : Option ℤ) : Option ℤ := (own.filter (· ≠ 0)).or fromType

/-- The accounts and the journal an asset inherits from its type. -/
def inherit (y : AssetType) (a : Asset) : Asset :=
  { a with
    accountAssetId := inherited a.accountAssetId y.accountAssetId
    accountDepreciationId := inherited a.accountDepreciationId y.accountDepreciationId
    accountExpenseId := inherited a.accountExpenseId y.accountExpenseId
    journalId := inherited a.journalId y.journalId }

def withType (db : AccountDb) (a : Asset) : Asset :=
  let assetTypeId := a.assetTypeId.getD 0
  if assetTypeId > 0 then
    match db.assetTypes.get? assetTypeId with
    | none => a
    | some y => inherit y a
  else a

/-- The lines that stay when those that are not posted are deleted. -/
def postedLines (a : Asset) : Table DepreciationLine := a.schedule.delete fun _ l => !l.posted

/-- What the loop that builds a schedule reads. -/
structure Plan where
  already : ℤ
  postedCount : ℤ
  remaining : ℤ
  left : ℤ

def plan (a : Asset) : Plan :=
  let already := (postedLines a).sumOver fun _ l => if l.posted then l.amount else 0
  let postedCount : ℤ := ((postedLines a).rows.filter fun r => r.2.posted).length
  { already := already
    postedCount := postedCount
    remaining := a.value - already
    left := (if a.number < 1 then 1 else a.number) - postedCount }

namespace Plan

def per (p : Plan) : ℤ := p.remaining.tdiv p.left

/-- The amount of one line; the last one absorbs the rounding. -/
def amount (p : Plan) (k : ℕ) : ℤ :=
  if (k : ℤ) = p.left - 1 then p.remaining - p.per * (p.left - 1) else p.per

end Plan

section Confirm

-- what the database makes of a date some months later
variable (addMonths : String → ℤ → Except String String)

/-- One line of the schedule, after the lines so far and what they come to. -/
def addScheduleLine (now : Moment) (a : Asset) (p : Plan) (built : Table DepreciationLine × ℤ)
    (k : ℕ) : Except String (Table DepreciationLine × ℤ) := do
  let cumulative := built.2 + p.amount k
  let sequence := p.postedCount + k + 1
  let date ← addMonths (a.acquisitionDate.getD now.currentDate) (sequence * a.periodMonths)
  return (built.1.insert
    { sequence := sequence
      depreciationDate := some date
      amount := p.amount k
      remainingValue := a.value - cumulative
      depreciatedValue := cumulative }, cumulative)

/-- Confirming one asset. -/
def confirmOne (now : Moment) (db : AccountDb) (id : ℤ) : Except String AccountDb :=
  match db.assets.get? id with
  | none => .error "Asset not found"
  | some a => do
      require (a.state = .draft) "Only a draft asset can be confirmed."
      require (a.value > 0) "Set a gross value greater than zero first."
      let p := plan a
      if p.left < 1 then
        return { db with
          assets := db.assets.modify id fun _ =>
            { withType db a with schedule := postedLines a, state := .opened } }
      else do
        let built ← (List.range p.left.toNat).foldlM (addScheduleLine addMonths now a p)
          (postedLines a, p.already)
        return { db with
          assets := db.assets.modify id fun _ =>
            { withType db a with
              schedule := built.1, state := .opened, valueResidual := a.value - p.already } }

/-- `AccountAssetViewModel::handleConfirm`. -/
def confirm (now : Moment) (db : AccountDb) (ids : List ℤ) : Except String AccountDb :=
  ids.foldlM (confirmOne addMonths now) db

end Confirm

/-- `handleClose`. -/
def close (db : AccountDb) (ids : List ℤ) : AccountDb :=
  { db with
    assets := db.assets.updateWhere (fun id _ => ids.contains id) fun a => { a with state := .close } }

/-! ### What depreciating does -/

lemma postLine_ok {now : Moment} {id : ℤ} {a : Asset} {acc : Accounts} {db db' : AccountDb}
    {line : ℤ × DepreciationLine} (h : postLine now id a acc db line = .ok db') :
    ∃ name sequences db₁ assets, db.nextNumber now (journalSeries acc.jcode) =
        .ok (name, { db with sequences := sequences }) ∧
      ({ db with sequences := sequences } : AccountDb).postEntry (entry a acc line.2 name)
        (legs a acc.expenseId acc.depreciationId line.2.amount) = .ok db₁ ∧
      db' = { db₁ with assets := assets } := by
  obtain ⟨⟨name, db₀⟩, hname, h⟩ := bind_ok_iff.mp h
  obtain ⟨sequences, -, rfl⟩ := nextNumber_ok hname
  obtain ⟨db₁, hentry, h⟩ := bind_ok_iff.mp h
  cases h
  exact ⟨name, sequences, db₁, _, hname, hentry, rfl⟩

lemma depreciateOne_ok {now : Moment} {asOf : String} {db db' : AccountDb} {id : ℤ}
    (h : depreciateOne now asOf db id = .ok db') :
    (db.assets.get? id = none ∧ db' = db) ∨ ∃ a acc due db₁ assets,
        db.assets.get? id = some a ∧ accounts db a = .ok acc ∧
        asOfDate now asOf = .ok due ∧
        (dueLines a due).foldlM (postLine now id a acc) (db.ensureJournalSequence acc.jcode) =
          .ok db₁ ∧
        db' = { db₁ with assets := assets } := by
  unfold depreciateOne at h
  rcases e : db.assets.get? id with - | a
  · rw [e] at h
    cases h
    exact .inl ⟨rfl, rfl⟩
  rw [e] at h
  obtain ⟨acc, hacc, h⟩ := bind_ok_iff.mp h
  obtain ⟨due, hdue, h⟩ := bind_ok_iff.mp h
  obtain ⟨db₁, hlines, h⟩ := bind_ok_iff.mp h
  cases h
  exact .inr ⟨a, acc, due, db₁, _, rfl, hacc, hdue, hlines, rfl⟩

end AccountAsset

end CErp
