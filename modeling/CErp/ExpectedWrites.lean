/-
Writes that expect the date the record was read with.

A client reads a set of records and writes some of them later, with the write
date it read in `__expected_write_date`.  `committed` is `BaseModel::write` with
its transaction: the date is one more condition of the UPDATE, and whether it
was a conflict is judged from the number of rows after the commit.

The date is one for the whole list.  A write that returns true has updated
every record it lists, each as the client read it, exactly when the date singles
out all of them or none (`all_written_iff`).  A list that was changed in part is
written in part, and the call says it succeeded.
-/
import CErp.CompanyWrites
import CErp.Runs
import CErp.Versions

namespace CErp

open Outcome Table Option String Runs Json

section Writes

variable [FloatText]

/-! ### The call and its transaction -/

/-- `BaseModel::write` up to the check of the affected rows: the table as
committed, and whether the call goes on to throw the conflict. -/
def committed (D : Derived) (db : Schema) (engine : Option RuleEngine) (I : Sql.Interp (ℤ × Row))
    (c : Caller) (t : Table Row) (ids : List ℤ) (values : Values) :
    Except String (Table Row × Bool) := do
  let coerced := coerceNumericStrings D.registry values
  let expectedWd := expectedWriteDate coerced
  let vals := coerced.erase "__expected_write_date"
  rejectUnknownFields D vals
  if ids.isEmpty || vals.isEmpty then return (t, false)
  else
    let sets ← setColumns D vals
    let stamped ← stampedColumns D db sets
    if stamped.isEmpty then return (t, false)
    else
      let clause ← ruleClause engine D .write c
      let company ← assignedCompany db sets
      let hit := touched db I c ids expectedWd clause
      let t' := t.updateWhere hit (assignRow company stamped)
      db.constraints t'
      return (t', expectedWd != "" && !t.rows.any fun r => hit r.1 r.2)

omit [FloatText] in
/-- An UPDATE that selects no row changes nothing. -/
lemma updateWhere_of_none {α : Type} {t : Table α} {p : ℤ → α → Bool} (f : α → α)
    (h : ∀ r ∈ t.rows, p r.1 r.2 = false) : t.updateWhere p f = t := by
  apply update_eq_self
  intro r hr
  rw [h r hr]
  rfl

variable {c : Caller} {ids : List ℤ} {t' : Table Row} {values : Values}

/-- **Inversion of `committed`.**  Nothing was to be set, or the rows the
condition selects carry the date of the write. -/
theorem committed_ok {D : Derived} {db : Schema} {I : Sql.Interp (ℤ × Row)} {t : Table Row}
    {conflict : Bool} (htracks : D.registry.has "write_date" = true)
    (h : committed D db none I c t ids values = .ok (t', conflict)) :
    let coerced := coerceNumericStrings D.registry values
    let hit := touched db I c ids (expectedWriteDate coerced) none
    (t' = t ∧ conflict = false ∧ (ids = [] ∨ coerced.erase "__expected_write_date" = [])) ∨
      (coerced.erase "__expected_write_date" ≠ [] ∧ (conflict = true ↔
          expectedWriteDate coerced ≠ "" ∧ ∀ r ∈ t.rows, hit r.1 r.2 = false) ∧
        ∃ f : Row → Row, t' = t.updateWhere hit f ∧ ∀ row, (f row).cells "write_date" = db.now) := by
  obtain ⟨⟨⟩, -, h⟩ := bind_ok_iff.mp h
  split at h
  · next hempty =>
      obtain ⟨rfl, rfl⟩ := Prod.mk.inj (pure_ok_iff.mp h)
      refine .inl ⟨rfl, rfl, ?_⟩
      rcases Bool.or_eq_true_iff.mp hempty with hids | hvals
      · exact .inl (List.isEmpty_iff.mp hids)
      · exact .inr (List.isEmpty_iff.mp hvals)
  next hempty =>
  obtain ⟨sets, -, h⟩ := bind_ok_iff.mp h
  obtain ⟨stamped, hstamped, h⟩ := bind_ok_iff.mp h
  have hdate := stampedColumns_date htracks hstamped
  split at h
  · next hnil =>
      rw [List.isEmpty_iff.mp hnil] at hdate
      cases hdate
  obtain ⟨clause, hclause, h⟩ := bind_ok_iff.mp h
  obtain ⟨company, -, h⟩ := bind_ok_iff.mp h
  obtain ⟨⟨⟩, -, h⟩ := bind_ok_iff.mp h
  cases hclause
  obtain ⟨rfl, rfl⟩ := Prod.mk.inj (pure_ok_iff.mp h)
  refine .inr ⟨?_, by simp, assignRow company stamped, rfl, ?_⟩
  · intro hvals
    rw [hvals] at hempty
    simp at hempty
  · intro row
    show (stamped.lookup "write_date").getD _ = _
    rw [hdate]
    rfl

/-! ### Timestamps -/

/-- What the database does with the timestamps of its transactions: each is
shown as a text of its own, and compared with one as a timestamp. -/
structure Timestamps (db : Schema) where
  shown : ℕ → String
  shown_ne : ∀ n, shown n ≠ ""
  same_iff : ∀ m n, db.sameTimestamp (.text (shown m)) (shown n) = true ↔ m = n
  null_ne : ∀ s, db.sameTimestamp .null s = false

section Run

variable (D : Derived) (db : Schema) (I : Sql.Interp (ℤ × Row)) (tx : Timestamps db)

/-- The database in a transaction. -/
def Timestamps.within (n : ℕ) : Schema := { db with now := .text (tx.shown n) }

/-- A record last written in a transaction. -/
def DatedAt (row : Row) (n : ℕ) : Prop := row.cells "write_date" = .text (tx.shown n)

omit [FloatText] in
lemma datedAt_unique (row : Row) (m n : ℕ) (hm : DatedAt db tx row m) (hn : DatedAt db tx row n) :
    m = n := by
  have htext : SqlValue.text (tx.shown m) = .text (tx.shown n) := hm.symm.trans hn
  apply (tx.same_iff m n).mp
  rw [htext]
  exact (tx.same_iff n n).mpr rfl

/-- The text of the write date a client reads of a record; none where the date
is NULL. -/
def readDate (row : Row) : String :=
  match row.cells "write_date" with
  | .text s => s
  | _ => ""

/-! ### Clients -/

/-- The table, the number of the last transaction, and what each client read of
the records, in which transaction. -/
structure Clients where
  table : Table Row
  clock : ℕ
  copies : ℕ → ℤ → Option Row
  readAt : ℕ → ℕ

/-- The records as a client reads them now. -/
def Clients.read (w : Clients) (client : ℕ) (ids : List ℤ) : Clients :=
  { w with
    copies := Function.update w.copies client
      fun id => if id ∈ ids then w.table.get? id else none
    readAt := Function.update w.readAt client w.clock }

/-- A client reads a set of records, or writes some of those it read. -/
inductive ClientEvent where
  | read (client : ℕ) (ids : List ℤ)
  | write (client : ℕ) (c : Caller) (ids : List ℤ) (values : Values)

/-- What a write gives in the next transaction. -/
def answer (w : Clients) (c : Caller) (ids : List ℤ) (values : Values) :
    Except String (Table Row × Bool) :=
  committed D (tx.within db (w.clock + 1)) none I c w.table ids values

def clientStep (w : Clients) : ClientEvent → Option Clients
  | .read client ids => some (w.read client ids)
  | .write _ c ids values =>
      let table := match answer D db I tx w c ids values with
        | .ok (t', _) => t'
        | .error _ => w.table
      some { w with table := table, clock := w.clock + 1 }

/-- A write lists records the client read, and expects the date it read of one
of them. -/
def Quotes (w : Clients) : ClientEvent → Prop
  | .read _ _ => True
  | .write client _ ids values =>
      (∀ id ∈ ids, (w.copies client id).isSome) ∧
        (ids ≠ [] → ∃ id ∈ ids, ∃ row, w.copies client id = some row ∧
          expectedWriteDate (coerceNumericStrings D.registry values) = readDate row)

/-- Before any client has read: every date is NULL or a transaction's. -/
structure Untouched (w : Clients) : Prop where
  dated : ∀ id row, w.table.get? id = some row →
    row.cells "write_date" = .null ∨ ∃ n ≤ w.clock, DatedAt db tx row n
  unread : ∀ client id, w.copies client id = none

variable {D db I tx}

/-! ### What a run keeps -/

/-- The table against the copies: what was written since a copy was taken is
dated after it. -/
structure Tracked (db : Schema) (tx : Timestamps db) (w : Clients) : Prop where
  dated : ∀ id row, w.table.get? id = some row →
    row.cells "write_date" = .null ∨ ∃ n ≤ w.clock, DatedAt db tx row n
  past : ∀ client id, (w.copies client id).isSome → w.readAt client ≤ w.clock
  copied : ∀ client id row, w.copies client id = some row →
    row.cells "write_date" = .null ∨ ∃ n ≤ w.readAt client, DatedAt db tx row n
  since : ∀ client, Versions.Since (DatedAt db tx) (w.readAt client) (w.copies client) w.table.get?

variable {w : Clients}

omit [FloatText] in
lemma Untouched.tracked (h : Untouched db tx w) : Tracked db tx w where
  dated := h.dated
  past client id hsome := by
    rw [h.unread] at hsome
    cases hsome
  copied client id row hrow := by
    rw [h.unread] at hrow
    cases hrow
  since client := by
    intro id row hrow
    rw [h.unread] at hrow
    cases hrow

/-- What a write changes it dates. -/
lemma answer_dates (htracks : D.registry.has "write_date" = true) {conflict : Bool}
    (h : answer D db I tx w c ids values = .ok (t', conflict)) :
    ∀ id row, t'.get? id = some row →
      w.table.get? id = some row ∨ DatedAt db tx row (w.clock + 1) := by
  intro id row hrow
  rcases committed_ok htracks h with ⟨rfl, -, -⟩ | ⟨-, -, f, rfl, hdate⟩
  · exact .inl hrow
  · rw [get?_updateWhere, map_eq_some_iff] at hrow
    obtain ⟨old, hold, rfl⟩ := hrow
    split
    · exact .inr (hdate old)
    · exact .inl hold

lemma tracked_step (htracks : D.registry.has "write_date" = true) {w' : Clients}
    {e : ClientEvent} (h : Tracked db tx w) (hstep : clientStep D db I tx w e = some w') :
    Tracked db tx w' := by
  cases e with
  | read client ids =>
      cases hstep
      have hcopy : ∀ id row, (if id ∈ ids then w.table.get? id else none) = some row →
          w.table.get? id = some row := by
        intro id row hrow
        split at hrow
        · exact hrow
        · cases hrow
      refine ⟨h.dated, ?_, ?_, ?_⟩
      · intro client' id hsome
        rcases eq_or_ne client' client with rfl | hne
        · simp only [Clients.read, Function.update_self]
          exact le_refl _
        · simp only [Clients.read, Function.update_of_ne hne] at hsome ⊢
          exact h.past client' id hsome
      · intro client' id row hrow
        rcases eq_or_ne client' client with rfl | hne
        · simp only [Clients.read, Function.update_self] at hrow ⊢
          exact h.dated id row (hcopy id row hrow)
        · simp only [Clients.read, Function.update_of_ne hne] at hrow ⊢
          exact h.copied client' id row hrow
      · intro client'
        rcases eq_or_ne client' client with rfl | hne
        · simp only [Clients.read, Function.update_self]
          exact Versions.Since.taken hcopy
        · simp only [Clients.read, Function.update_of_ne hne]
          exact h.since client'
  | write client c ids values =>
      cases hstep
      -- whatever the call gives, the rows are as they were or dated by it
      have hrows : ∀ id row, (match answer D db I tx w c ids values with
            | .ok (t', _) => t'
            | .error _ => w.table).get? id = some row →
          w.table.get? id = some row ∨ DatedAt db tx row (w.clock + 1) := by
        rcases hanswer : answer D db I tx w c ids values with what | ⟨t', conflict⟩
        · exact fun id row hrow => .inl hrow
        · exact answer_dates htracks hanswer
      refine ⟨?_, ?_, h.copied, ?_⟩
      · intro id row hrow
        rcases hrows id row hrow with hold | hnew
        · refine (h.dated id row hold).imp_right ?_
          rintro ⟨n, hn, hdated⟩
          exact ⟨n, Nat.le_succ_of_le hn, hdated⟩
        · exact .inr ⟨w.clock + 1, le_refl _, hnew⟩
      · exact fun client' id hsome => Nat.le_succ_of_le (h.past client' id hsome)
      · intro client' id row hrow
        have hlt : w.readAt client' < w.clock + 1 := by
          have hsome : (w.copies client' id).isSome = true := by
            rw [hrow]
            rfl
          have := h.past client' id hsome
          omega
        exact (h.since client').change hlt hrows id row hrow

/-- **What a run keeps.** -/
theorem tracked_of_reaches (htracks : D.registry.has "write_date" = true) {w₀ : Clients}
    (h₀ : Untouched db tx w₀) (hrun : Reaches (clientStep D db I tx) (Quotes D) w₀ w) :
    Tracked db tx w :=
  hrun.invariant (fun _ _ _ hw _ hstep => tracked_step htracks hw hstep) h₀.tracked

/-! ### What a write gives -/

/-- Every listed record was as the client read it, and was written. -/
def AllWritten (db : Schema) (tx : Timestamps db) (w : Clients) (t' : Table Row) (client : ℕ)
    (ids : List ℤ) : Prop :=
  ∀ id ∈ ids, (∃ row, w.copies client id = some row ∧ w.table.get? id = some row) ∧
    ∃ row', t'.get? id = some row' ∧ DatedAt db tx row' (w.clock + 1)

variable (D db I tx)

/-- The UPDATE selects a record: it is there, of the date the call expects, and
of a company the caller sees. -/
def Selected (w : Clients) (c : Caller) (ids : List ℤ) (values : Values) (id : ℤ) : Prop :=
  ∃ row, w.table.get? id = some row ∧ touched (tx.within db (w.clock + 1)) I c ids
      (expectedWriteDate (coerceNumericStrings D.registry values)) none id row = true

/-- The values name something to set, and of the listed records either all are
selected or none; without a date to expect, all are, as they were read. -/
def AllOrNone (w : Clients) (client : ℕ) (c : Caller) (ids : List ℤ) (values : Values) : Prop :=
  ids = [] ∨ ((coerceNumericStrings D.registry values).erase "__expected_write_date" ≠ [] ∧
      if expectedWriteDate (coerceNumericStrings D.registry values) = "" then
        ∀ id ∈ ids, Selected D db I tx w c ids values id ∧ w.table.get? id = w.copies client id
      else
        (∀ id ∈ ids, Selected D db I tx w c ids values id) ∨
          ∀ id ∈ ids, ¬ Selected D db I tx w c ids values id)

variable {D db I tx}

variable {id : ℤ} {row : Row}

omit [FloatText] in
/-- No date is of a transaction to come. -/
lemma not_dated_next (h : Tracked db tx w) (hrow : w.table.get? id = some row) :
    ¬ DatedAt db tx row (w.clock + 1) := by
  intro hdated
  rcases h.dated id row hrow with hnull | ⟨n, hn, hdated'⟩
  · unfold DatedAt at hdated
    rw [hnull] at hdated
    cases hdated
  · have := datedAt_unique db tx row _ _ hdated hdated'
    omega

/-- What was written is what the UPDATE selects. -/
lemma selected_of_dated {f : Row → Row} (h : Tracked db tx w) {row' : Row}
    (hrow : w.table.get? id = some row)
    (hrow' : (w.table.updateWhere (touched (tx.within db (w.clock + 1)) I c ids
      (expectedWriteDate (coerceNumericStrings D.registry values)) none) f).get? id = some row')
    (hdated : DatedAt db tx row' (w.clock + 1)) : Selected D db I tx w c ids values id := by
  refine ⟨row, hrow, ?_⟩
  by_contra hnot
  rw [get?_updateWhere, hrow, map_some, if_neg hnot] at hrow'
  cases hrow'
  exact not_dated_next h hrow hdated

omit [FloatText] in
lemma readDate_cases {time : ℕ}
    (h : row.cells "write_date" = .null ∨ ∃ n ≤ time, DatedAt db tx row n) :
    readDate row = "" ∨ ∃ n ≤ time, readDate row = tx.shown n := by
  unfold readDate
  rcases h with hnull | ⟨n, hn, hdated⟩
  · rw [hnull]
    exact .inl rfl
  · rw [hdated]
    exact .inr ⟨n, hn, rfl⟩

omit [FloatText] in
lemma mem_of_touched {db : Schema} {I : Sql.Interp (ℤ × Row)} {expectedWd : String}
    {clause : Option (Sql.Cond × List String)}
    (h : touched db I c ids expectedWd clause id row = true) : id ∈ ids := by
  unfold touched at h
  simp only [Bool.and_eq_true, List.contains_iff_mem] at h
  exact h.1.1.1

variable {client : ℕ}

/-- A record of the date the client read is as the client read it. -/
lemma copy_of_selected (h : Tracked db tx w) (hquotes : Quotes D w (.write client c ids values))
    (hwd : expectedWriteDate (coerceNumericStrings D.registry values) ≠ "") (hid : id ∈ ids)
    (hselected : Selected D db I tx w c ids values id) : w.table.get? id = w.copies client id := by
  obtain ⟨hread, hquoted⟩ := hquotes
  obtain ⟨_, -, quoted, hcopy, hdate⟩ := hquoted (List.ne_nil_of_mem hid)
  obtain ⟨row, hrow, hhit⟩ := hselected
  obtain ⟨copy, hid'⟩ := isSome_iff_exists.mp (hread id hid)
  -- the date is that of a transaction the client's read came after
  obtain hnone | ⟨n, hn, hshown⟩ := readDate_cases (h.copied client _ quoted hcopy)
  · rw [hdate, hnone] at hwd
    exact absurd rfl hwd
  rw [hdate, hshown] at hhit hwd
  unfold touched at hhit
  simp only [Bool.and_eq_true, Bool.or_eq_true, beq_iff_eq] at hhit
  obtain ⟨⟨⟨-, hsame⟩, -⟩, -⟩ := hhit
  replace hsame : db.sameTimestamp (row.cells "write_date") (tx.shown n) = true :=
    hsame.resolve_left hwd
  rcases h.dated id row hrow with hnull | ⟨m, -, hdated⟩
  · rw [hnull, tx.null_ne] at hsame
    cases hsame
  · rw [hdated, tx.same_iff] at hsame
    subst hsame
    rw [hrow, hid', (h.since client).unchanged (datedAt_unique db tx) hid' hrow hdated hn]

/-- A conflict is thrown after a commit of nothing. -/
lemma conflict_commits_nothing (htracks : D.registry.has "write_date" = true)
    (h : answer D db I tx w c ids values = .ok (t', true)) : t' = w.table := by
  rcases committed_ok htracks h with ⟨-, hfalse, -⟩ | ⟨-, hconflict, f, rfl, -⟩
  · cases hfalse
  · exact updateWhere_of_none f (hconflict.mp rfl).2

lemma allOrNone_of_allWritten (htracks : D.registry.has "write_date" = true)
    (h : Tracked db tx w) (hanswer : answer D db I tx w c ids values = .ok (t', false))
    (hwritten : AllWritten db tx w t' client ids) : AllOrNone D db I tx w client c ids values := by
  rcases committed_ok htracks hanswer with ⟨rfl, -, hids | hvals⟩ | ⟨hvals, -, f, rfl, -⟩
  · exact .inl hids
  · -- nothing was set, so nothing is dated by the write
    left
    rw [List.eq_nil_iff_forall_not_mem]
    intro id hid
    obtain ⟨-, row', hrow', hdated⟩ := hwritten id hid
    exact not_dated_next h hrow' hdated
  · have hselected : ∀ id ∈ ids, Selected D db I tx w c ids values id := by
      intro id hid
      obtain ⟨⟨row, -, hrow⟩, row', hrow', hdated⟩ := hwritten id hid
      exact selected_of_dated h hrow hrow' hdated
    refine .inr ⟨hvals, ?_⟩
    split
    · intro id hid
      obtain ⟨⟨row, hcopy, hrow⟩, -⟩ := hwritten id hid
      exact ⟨hselected id hid, hrow.trans hcopy.symm⟩
    · exact .inl hselected

lemma allWritten_of_allOrNone (htracks : D.registry.has "write_date" = true)
    (h : Tracked db tx w) (hquotes : Quotes D w (.write client c ids values))
    (hanswer : answer D db I tx w c ids values = .ok (t', false))
    (hall : AllOrNone D db I tx w client c ids values) : AllWritten db tx w t' client ids := by
  obtain rfl | ⟨hvals, hall⟩ := hall
  · intro id hid
    cases hid
  rcases committed_ok htracks hanswer with ⟨-, -, rfl | hnil⟩ | ⟨-, hconflict, f, rfl, hdate⟩
  · intro id hid
    cases hid
  · exact absurd hnil hvals
  -- a selected record that is as it was copied is kept
  have hone : ∀ id, Selected D db I tx w c ids values id → w.table.get? id = w.copies client id →
      (∃ row, w.copies client id = some row ∧ w.table.get? id = some row) ∧
        ∃ row', (w.table.updateWhere (touched (tx.within db (w.clock + 1)) I c ids
          (expectedWriteDate (coerceNumericStrings D.registry values)) none) f).get? id = some row' ∧
          DatedAt db tx row' (w.clock + 1) := by
    rintro id ⟨row, hrow, hhit⟩ hcopy
    refine ⟨⟨row, hcopy ▸ hrow, hrow⟩, f row, ?_, hdate row⟩
    rw [get?_updateWhere, hrow, map_some, if_pos hhit]
  intro id hid
  split at hall
  · exact hone id (hall id hid).1 (hall id hid).2
  · next hwd =>
      obtain hall | hnone := hall
      · exact hone id (hall id hid) (copy_of_selected h hquotes hwd hid (hall id hid))
      · -- no row was affected, so the call would have thrown
        exfalso
        apply Bool.false_ne_true
        apply hconflict.mpr
        refine ⟨hwd, fun r hr => ?_⟩
        rw [Bool.eq_false_iff]
        intro hhit
        exact hnone r.1 (mem_of_touched hhit) ⟨r.2, get?_eq_some_iff.mpr hr, hhit⟩

/-- **All or none.**  A write that throws leaves every record alone, and one
that returns true has written every record it lists, each as the client read
it, exactly when the date it expects singles out all of them or none. -/
theorem all_written_iff (htracks : D.registry.has "write_date" = true) {w₀ w : Clients}
    (h₀ : Untouched db tx w₀) (hrun : Reaches (clientStep D db I tx) (Quotes D) w₀ w)
    {client : ℕ} {c : Caller} {ids : List ℤ} {values : Values}
    (hquotes : Quotes D w (.write client c ids values)) :
    (∀ w', clientStep D db I tx w (.write client c ids values) = some w' →
      (∀ t', answer D db I tx w c ids values ≠ .ok (t', false)) → w'.table = w.table) ∧
    ∀ t', answer D db I tx w c ids values = .ok (t', false) →
      (AllWritten db tx w t' client ids ↔ AllOrNone D db I tx w client c ids values) := by
  have h := tracked_of_reaches htracks h₀ hrun
  constructor
  · intro w' hstep hthrows
    cases hstep
    rcases hanswer : answer D db I tx w c ids values with what | ⟨t', - | -⟩
    · rfl
    · exact absurd hanswer (hthrows t')
    · exact conflict_commits_nothing htracks hanswer
  · intro t' hanswer
    constructor
    · exact allOrNone_of_allWritten htracks h hanswer
    · exact allWritten_of_allOrNone htracks h hquotes hanswer

end Run

end Writes

/-! ### Two notes -/

/-- A model with a name and a write date. -/
def notes : Derived where
  modelName := "note"
  tableName := "note"
  registry :=
    { fields := [{ name := "name" }, { name := "write_date", type := .datetime }]
      identifiers := by decide
      nodup := by decide }
  members := id
  validate _ := []

/-- A database that counts its transactions, and shows a number as so many
strokes. -/
def strokes : Schema :=
  { departmentSchema with
    sameTimestamp := fun v s =>
      match v with
      | .text t => t == s
      | _ => false }

def strokeStamps : Timestamps strokes where
  shown n := ofList (List.replicate (n + 1) '|')
  shown_ne n := by
    intro h
    have hlist := congrArg String.toList h
    rw [toList_ofList] at hlist
    cases hlist
  same_iff m n := by
    show (ofList _ == ofList _) = true ↔ m = n
    rw [beq_iff_eq]
    constructor
    · intro h
      have hlength := congrArg (fun s => s.toList.length) h
      simpa using hlength
    · rintro rfl
      rfl
  null_ne _ := rfl

/-- Two notes of one date. -/
def twoNotes : Clients where
  table := (Table.empty.insert ⟨none, fun _ => .text "|"⟩).insert ⟨none, fun _ => .text "|"⟩
  clock := 0
  copies _ _ := none
  readAt _ := 0

lemma twoNotes_untouched : Untouched strokes strokeStamps twoNotes where
  dated id row hrow := by
    have hmem := get?_eq_some_iff.mp hrow
    simp only [twoNotes, mem_insert_iff, Table.empty, List.not_mem_nil, false_or,
      Prod.mk.injEq] at hmem
    obtain ⟨-, rfl⟩ | ⟨-, rfl⟩ := hmem
    · exact .inr ⟨0, le_refl _, rfl⟩
    · exact .inr ⟨0, le_refl _, rfl⟩
  unread _ _ := rfl

/-- A name, and the date the notes were read with. -/
def rename (name : String) : Values :=
  [("name", .str name), ("__expected_write_date", .str "|")]

/-- A note renamed by the client that read it. -/
theorem all_written_iff_oneNote :
    let w := twoNotes.read 0 [1, 2]
    ∃ t', @answer wholeFloatText notes strokes noInterp strokeStamps w (clerk.caller {}) [1]
        (rename "a") = .ok (t', false) ∧
      (AllWritten strokes strokeStamps w t' 0 [1] ↔
        @AllOrNone wholeFloatText notes strokes noInterp strokeStamps w 0 (clerk.caller {}) [1]
          (rename "a")) := by
  let _ := wholeFloatText
  intro w
  have hrun : Reaches (clientStep notes strokes noInterp strokeStamps) (Quotes notes)
      twoNotes w := Relation.ReflTransGen.single ⟨.read 0 [1, 2], trivial, rfl⟩
  have hquotes : Quotes notes w (.write 0 (clerk.caller {}) [1] (rename "a")) :=
    ⟨by decide, fun _ => ⟨1, by decide, _, rfl, rfl⟩⟩
  have hok : ((answer notes strokes noInterp strokeStamps w (clerk.caller {}) [1]
      (rename "a")).toOption.map Prod.snd) = some false := by decide
  obtain ⟨⟨t', conflict⟩, hanswer, rfl⟩ := map_eq_some_iff.mp hok
  rw [Outcome.toOption_eq_some_iff] at hanswer
  exact ⟨t', hanswer, (all_written_iff rfl twoNotes_untouched hrun hquotes).2 t' hanswer⟩

/-- Both notes read by two clients, the second note renamed by one of them. -/
def oneRenamed : Clients :=
  (@clientStep wholeFloatText notes strokes noInterp strokeStamps
    ((twoNotes.read 0 [1, 2]).read 1 [1, 2])
    (.write 1 (clerk.caller {}) [2] (rename "b"))).getD twoNotes

lemma oneRenamed_step : @clientStep wholeFloatText notes strokes noInterp strokeStamps
      ((twoNotes.read 0 [1, 2]).read 1 [1, 2])
      (.write 1 (clerk.caller {}) [2] (rename "b")) = some oneRenamed := by
  rw [oneRenamed]
  rfl

/-- Two clients read both notes, one of them renames the second note.  The other
one renames both: the call returns true, and the second note is not written. -/
theorem list_written_in_part :
    ¬ ∀ (_ : FloatText) (D : Derived) (db : Schema) (I : Sql.Interp (ℤ × Row))
      (tx : Timestamps db) (w₀ w : Clients) (client : ℕ) (c : Caller) (ids : List ℤ)
      (values : Values) (t' : Table Row), D.registry.has "write_date" = true →
      Untouched db tx w₀ → Reaches (clientStep D db I tx) (Quotes D) w₀ w →
      Quotes D w (.write client c ids values) →
      answer D db I tx w c ids values = .ok (t', false) → AllWritten db tx w t' client ids := by
  intro h
  let _ := wholeFloatText
  have hread : Reaches (clientStep notes strokes noInterp strokeStamps) (Quotes notes)
      twoNotes ((twoNotes.read 0 [1, 2]).read 1 [1, 2]) :=
    (Relation.ReflTransGen.single ⟨.read 0 [1, 2], trivial, rfl⟩).tail
      ⟨.read 1 [1, 2], trivial, rfl⟩
  have hrun : Reaches (clientStep notes strokes noInterp strokeStamps) (Quotes notes)
      twoNotes oneRenamed :=
    hread.tail ⟨.write 1 (clerk.caller {}) [2] (rename "b"),
      ⟨by decide, fun _ => ⟨2, by decide, _, rfl, rfl⟩⟩, oneRenamed_step⟩
  have hok : ((answer notes strokes noInterp strokeStamps oneRenamed (clerk.caller {}) [1, 2]
      (rename "a")).toOption.map Prod.snd) = some false := by decide
  obtain ⟨⟨t', conflict⟩, hanswer, rfl⟩ := map_eq_some_iff.mp hok
  rw [Outcome.toOption_eq_some_iff] at hanswer
  obtain ⟨⟨row, hcopy, hnow⟩, -⟩ := h wholeFloatText notes strokes noInterp strokeStamps
    twoNotes oneRenamed 0 (clerk.caller {}) [1, 2] (rename "a") t' rfl twoNotes_untouched hrun
    ⟨by decide, fun _ => ⟨1, by decide, _, rfl, rfl⟩⟩ hanswer 2 (by decide)
  -- the second note is not the one the client read
  have hold : (some row).map (fun r => r.cells "name") = some (.text "|") := hcopy ▸ rfl
  have hnew : (some row).map (fun r => r.cells "name") = some (.text "b") := hnow ▸ rfl
  have htext : some (SqlValue.text "|") = some (.text "b") := hold.symm.trans hnew
  exact absurd (SqlValue.text.inj (some.inj htext)) (by decide)

end CErp
