/-
What a recurring expense comes to over many runs.

A run goes on where the last one stopped, so after any runs a template has one
draft for each date it has passed, however the runs were split (`Counts`,
`run_counts`).  The dates passed are those of the steps from date to date.  They
are the dates counted from the first one exactly if no date that a shorter month
has moved falls within the runs (`recurring_expenses_iff`); a template of the
31st has lost its day after February (`rent_drifts`).
-/
import CErp.RentalExpenses
import CErp.Runs

namespace CErp

open Outcome List

namespace RentalExpenses

open Calendar

/-- A run as of a day, and the faults of the database in it. -/
structure DatedRun where
  day : ℤ
  asOfIn : List Char
  today : List Char
  isDay : (if asOfIn.isEmpty then today else asOfIn) = Calendar.dateText day
  fault : ℤ → Option String

def DatedRun.apply (expenses : Table Expense) (r : DatedRun) : Except String (Table Expense) :=
  (generate r.asOfIn r.today r.fault expenses).map Prod.fst

def Expense.months (t : Expense) : ℤ := monthsFor (t.recurrenceInterval.getD "monthly")

lemma Expense.one_le_months (t : Expense) : 1 ≤ t.months := by
  unfold Expense.months monthsFor
  split_ifs <;> decide

/-- No later than the end date, if there is one. -/
def WithinEnd (t : Expense) (x : ℤ) : Prop := ∀ last ∈ t.recurrenceEndDate, x ≤ last

def Expense.withNext (t : Expense) (next : ℤ) : Expense := { t with recurrenceNextDate := some next }

/-- A draft for each of the first steps. -/
def occurrences (d m : ℤ) (n : ℕ) : List (ℤ × ExpenseState) :=
  (range n).map fun i => (stepped d m i, .draft)

/-- The dates that come up in a run are written with four digits for the year. -/
structure Legible (t : Expense) (day : ℤ) : Prop where
  year : 1 ≤ writtenYear day
  next : writtenYear (addMonths day t.months) ≤ 9999
  last : ∀ last ∈ t.recurrenceEndDate, FourDigits last

/-- **What holds between runs**: the template has passed so many steps, none of
them after the day, and has a draft for each. -/
structure Passed (tid : ℤ) (t : Expense) (d day : ℤ) (expenses : Table Expense) (n : ℕ) : Prop where
  view : View tid (t.withNext (stepped d t.months n)) (occurrences d t.months n) expenses
  legible : FourDigits (stepped d t.months n)
  within : ∀ i < n, stepped d t.months i ≤ day ∧ WithinEnd t (stepped d t.months i)

def Counts (tid : ℤ) (t : Expense) (d day : ℤ) (expenses : Table Expense) : Prop :=
  ∃ n, Passed tid t d day expenses n

variable {tid : ℤ} {t : Expense} {d day : ℤ} {expenses : Table Expense}

lemma occurrences_succ (d m : ℤ) (n : ℕ) :
    occurrences d m (n + 1) = occurrences d m n ++ [(stepped d m n, .draft)] := by
  unfold occurrences
  rw [range_succ, map_append]
  rfl

lemma stepped_notMem {m : ℤ} (hm : 1 ≤ m) (n : ℕ) :
    stepped d m n ∉ (occurrences d m n).map Prod.fst := by
  unfold occurrences
  rw [map_map, mem_map]
  rintro ⟨i, hi, heq⟩
  exact absurd ((stepped_strictMono hm).injective heq) (mem_range.mp hi).ne

/-! ### One template's turn -/

lemma Legible.fourDigits (h : Legible t day) : FourDigits day := by
  refine ⟨h.year, ?_⟩
  have hnext := h.next
  have hmonths := t.one_le_months
  unfold writtenYear yearOf at *
  rw [monthOf_addMonths] at hnext
  omega

/-- The step after a date within the run is legible. -/
lemma Legible.succ (h : Legible t day) {n : ℕ} (hn : FourDigits (stepped d t.months n))
    (hday : stepped d t.months n ≤ day) : FourDigits (stepped d t.months (n + 1)) := by
  have hmono := (stepped_strictMono t.one_le_months (d := d) (Nat.lt_succ_self n)).le
  refine ⟨hn.1.trans (writtenYear_mono hmono), ?_⟩
  have hnext := h.next
  have hmonth := monthOf_mono hday
  unfold writtenYear yearOf at hnext ⊢
  rw [stepped, monthOf_addMonths]
  rw [monthOf_addMonths] at hnext
  omega

lemma insertChild_view {row : Expense} {cs : List (ℤ × ExpenseState)} {date : ℤ} {p : Progress}
    (h : View tid row cs p.expenses) (hnew : date ∉ cs.map Prod.fst) :
    View tid row (cs ++ [(date, .draft)]) (insertChild row tid date p).expenses := by
  unfold insertChild
  rw [(h.findBy_eq_none_iff date).mpr hnew]
  have hinsert := h.insert (child row tid date)
  have hparent : (child row tid date).recurrenceParentId = some tid := rfl
  rw [if_pos hparent] at hinsert
  exact hinsert

/-- The dates the loop passes are within the run. -/
lemma not_after {last : Option ℤ} (hlast : ∀ e ∈ last, FourDigits e) {x : ℤ} (hx : FourDigits x)
    (h : ¬(optText last ≠ [] ∧ optText last < Calendar.dateText x)) : ∀ e ∈ last, x ≤ e := by
  rintro e he
  obtain rfl : last = some e := he
  refine Int.not_lt.mp fun hlt => h ⟨dateText_ne_nil e, ?_⟩
  exact (dateText_lt_iff (hlast e rfl) hx).mpr hlt

lemma catchUp_passes (row : Expense) (hday : Legible t day) {guard n : ℕ} {p p' : Progress}
    (hnext : p.nextDate = Calendar.dateText (stepped d t.months n))
    (hview : View tid row (occurrences d t.months n) p.expenses)
    (hlegible : FourDigits (stepped d t.months n))
    (hwithin : ∀ i < n, stepped d t.months i ≤ day ∧ WithinEnd t (stepped d t.months i))
    (h : catchUp (Calendar.dateText day) (optText t.recurrenceEndDate) row tid t.months guard p = .ok p') :
    ∃ n', p'.nextDate = Calendar.dateText (stepped d t.months n') ∧
      View tid row (occurrences d t.months n') p'.expenses ∧ FourDigits (stepped d t.months n') ∧
          ∀ i < n', stepped d t.months i ≤ day ∧ WithinEnd t (stepped d t.months i) := by
  induction guard generalizing p n with
  | zero =>
      cases h
      exact ⟨n, hnext, hview, hlegible, hwithin⟩
  | succ guard ih =>
      unfold catchUp at h
      rw [hnext] at h
      split_ifs at h with hafter hlast
      · cases h
        exact ⟨n, hnext, hview, hlegible, hwithin⟩
      · cases h
        exact ⟨n, hnext, hview, hlegible, hwithin⟩
      · obtain ⟨q, hq, hrest⟩ := bind_ok_iff.mp h
        obtain ⟨date, hdate, rfl⟩ := occurrence_eq_ok hq
        rw [hnext, readDate_dateText hlegible] at hdate
        cases hdate
        rw [dateText_lt_iff hday.fourDigits hlegible, Int.not_lt] at hafter
        refine ih (n := n + 1) rfl ?_ (hday.succ hlegible hafter) ?_ hrest
        · rw [occurrences_succ]
          exact insertChild_view hview (stepped_notMem t.one_le_months n)
        · intro i hi
          rcases Nat.lt_succ_iff_lt_or_eq.mp hi with hlt | rfl
          · exact hwithin i hlt
          · exact ⟨hafter, not_after hday.last hlegible hlast⟩

/-- **A template's turn passes dates that are due, and no others.** -/
theorem generateOne_passes (hday : Legible t day) {n : ℕ} (h : Passed tid t d day expenses n)
    {p : Progress} (hp : generateOne (Calendar.dateText day) tid expenses = .ok p) :
    Counts tid t d day p.expenses := by
  unfold generateOne at hp
  rw [h.view.row] at hp
  obtain ⟨q, hq, hrest⟩ := bind_ok_iff.mp hp
  obtain ⟨next, hread, hp⟩ := bind_ok_iff.mp hrest
  obtain ⟨n', hnext, hview, hlegible, hwithin⟩ :=
    catchUp_passes (t.withNext _) hday rfl h.view h.legible h.within hq
  rw [hnext, readDate_dateText hlegible] at hread
  cases hread
  cases hp
  refine ⟨n', ⟨?_, ?_⟩, hlegible, hwithin⟩
  · rw [Table.get?_modify_self, hview.row]
    rfl
  · rw [children_modify]
    exact hview.children

/-! ### Runs -/

lemma attempt_counts (hday : Legible t day) (fault : ℤ → Option String)
    {acc : Table Expense × ExpenseGenResult} (h : Counts tid t d day acc.1) (tid' : ℤ) :
    Counts tid t d day (attempt (Calendar.dateText day) fault acc tid').1 := by
  obtain ⟨expenses, out⟩ := acc
  unfold attempt
  rcases fault tid' with - | e
  · dsimp only
    split
    · next p hp =>
        obtain ⟨n, hn⟩ := h
        by_cases htid : tid' = tid
        · subst htid
          exact generateOne_passes hday hn hp
        · exact ⟨n, generateOne_other htid hn.view hp, hn.legible, hn.within⟩
    · exact h
  · exact h

lemma Counts.later {day' : ℤ} (h : Counts tid t d day expenses) (hle : day ≤ day') :
    Counts tid t d day' expenses := by
  obtain ⟨n, hn⟩ := h
  exact ⟨n, hn.view, hn.legible, fun i hi => ⟨(hn.within i hi).1.trans hle, (hn.within i hi).2⟩⟩

lemma foldl_attempt_counts (hday : Legible t day) (fault : ℤ → Option String) (ids : List ℤ)
    {acc : Table Expense × ExpenseGenResult} (h : Counts tid t d day acc.1) :
    Counts tid t d day (ids.foldl (attempt (Calendar.dateText day) fault) acc).1 := by
  induction ids generalizing acc with
  | nil => exact h
  | cons tid' ids ih => exact ih (attempt_counts hday fault h tid')

/-- What one run keeps. -/
lemma apply_counts {r : DatedRun} (hday : Legible t r.day) {expenses' : Table Expense}
    (h : Counts tid t d r.day expenses) (hr : r.apply expenses = .ok expenses') :
    Counts tid t d r.day expenses' := by
  obtain ⟨acc, hacc, rfl⟩ := map_ok_iff.mp hr
  obtain ⟨day, -, hgenerate⟩ := bind_ok_iff.mp hacc
  cases hgenerate
  rw [r.isDay]
  exact foldl_attempt_counts hday r.fault _ h

/-- **What all runs keep.** -/
theorem run_counts {runs : List DatedRun} (hdays : ∀ r ∈ runs, Legible t r.day)
    (hsorted : runs.Pairwise fun r r' => r.day ≤ r'.day) {expenses' : Table Expense}
    (h : ∀ day, Counts tid t d day expenses) (hrun : runs.foldlM DatedRun.apply expenses = .ok expenses')
    {last : DatedRun} (hlast : last ∈ runs.getLast?) : Counts tid t d last.day expenses' := by
  -- what a run starts from is as of the run before, and none is before the first
  have hall : ∀ (runs : List DatedRun) (expenses : Table Expense),
      (∀ r ∈ runs, Legible t r.day) → (runs.Pairwise fun r r' => r.day ≤ r'.day) →
        (∀ r ∈ runs, Counts tid t d r.day expenses) →
          runs.foldlM DatedRun.apply expenses = .ok expenses' →
            ∀ last ∈ runs.getLast?, Counts tid t d last.day expenses' := by
    intro runs
    induction runs with
    | nil => exact fun _ _ _ _ _ _ hlast => nomatch hlast
    | cons r runs ih =>
        intro expenses hdays hsorted hcounts hrun last hlast
        obtain ⟨m, hm, hrest⟩ := Runs.foldlM_cons_ok.mp hrun
        rw [forall_mem_cons] at hdays hcounts
        rw [pairwise_cons] at hsorted
        have hfirst := apply_counts hdays.1 hcounts.1 hm
        cases runs with
        | nil =>
            cases hlast
            cases hrest
            exact hfirst
        | cons r' runs =>
            exact ih m hdays.2 hsorted.2 (fun r' hr' => hfirst.later (hsorted.1 r' hr')) hrest last
              hlast
  exact hall runs expenses hdays hsorted (fun r _ => h r.day) hrun last hlast

/-! ### The drafts -/

lemma drafts_eq {m : ℤ} {n : ℕ} (h : children tid expenses = occurrences d m n) :
    drafts tid expenses = (range n).map (stepped d m) := by
  unfold drafts
  rw [h]
  unfold occurrences
  rw [filter_eq_self.mpr, map_map]
  · rfl
  · intro c hc
    obtain ⟨i, -, rfl⟩ := mem_map.mp hc
    rfl

/-- A template whose next date is behind the day has a draft for each step up to
it. -/
lemma drafts_of_counts (h : Counts tid t d day expenses)
    (hpast : ∀ row next, expenses.get? tid = some row → row.recurrenceNextDate = some next →
      day < next) :
    (drafts tid expenses).Nodup ∧ ∀ x, x ∈ drafts tid expenses ↔
      ∃ k, stepped d t.months k = x ∧ x ≤ day ∧ WithinEnd t x := by
  obtain ⟨n, hn⟩ := h
  have hnext := hpast _ _ hn.view.row rfl
  have hmono := stepped_strictMono t.one_le_months (d := d)
  rw [drafts_eq hn.view.children]
  refine ⟨nodup_range.map hmono.injective, fun x => ?_⟩
  rw [mem_map]
  constructor
  · rintro ⟨i, hi, rfl⟩
    exact ⟨i, rfl, hn.within i (mem_range.mp hi)⟩
  · rintro ⟨k, rfl, hday, -⟩
    refine ⟨k, mem_range.mpr ?_, rfl⟩
    by_contra hle
    exact absurd (hmono.monotone (Nat.not_lt.mp hle)) (Int.not_le.mpr (hday.trans_lt hnext))

/-- The drafts are one for each date counted from the first. -/
def OnePerDate (tid : ℤ) (t : Expense) (d day : ℤ) (expenses : Table Expense) : Prop :=
  (drafts tid expenses).Nodup ∧ ∀ x, x ∈ drafts tid expenses ↔
    ∃ k, anchored d t.months k = x ∧ x ≤ day ∧ WithinEnd t x

/-- No date that a shorter month has moved falls within the runs. -/
def KeepsItsDay (t : Expense) (d day : ℤ) : Prop :=
  ∀ j k, CutsDown d t.months j k →
    ¬(dayIn (stepMonth d t.months k) (daysIn (stepMonth d t.months j)) ≤ day ∧
      WithinEnd t (dayIn (stepMonth d t.months k) (daysIn (stepMonth d t.months j))))

lemma onePerDate_iff (h : Counts tid t d day expenses)
    (hpast : ∀ row next, expenses.get? tid = some row → row.recurrenceNextDate = some next →
      day < next) : OnePerDate tid t d day expenses ↔ KeepsItsDay t d day := by
  obtain ⟨hnodup, hmem⟩ := drafts_of_counts h hpast
  unfold OnePerDate KeepsItsDay
  rw [← steps_agree_iff t.one_le_months (L := fun x => x ≤ day ∧ WithinEnd t x)
    fun x y hxy hy => ⟨hxy.trans hy.1, fun last hlast => hxy.trans (hy.2 last hlast)⟩]
  constructor
  · rintro ⟨-, hanchored⟩ x
    rw [← hmem, hanchored]
  · intro hagree
    refine ⟨hnodup, fun x => ?_⟩
    rw [hmem]
    exact hagree x

/-- **A recurring expense has one draft for each date counted from the first**, in
whatever runs, exactly if no date that a shorter month has moved falls within
them. -/
theorem recurring_expenses_iff {runs : List DatedRun} {last : DatedRun} {expenses' : Table Expense}
    (hrow : expenses.get? tid = some t) (hfirst : t.recurrenceNextDate = some d)
    (hfresh : children tid expenses = []) (hd : FourDigits d)
    (hdays : ∀ r ∈ runs, Legible t r.day) (hsorted : runs.Pairwise fun r r' => r.day ≤ r'.day)
    (hrun : runs.foldlM DatedRun.apply expenses = .ok expenses') (hlast : last ∈ runs.getLast?)
    (hpast : ∀ row next, expenses'.get? tid = some row → row.recurrenceNextDate = some next →
      last.day < next) :
    OnePerDate tid t d last.day expenses' ↔ KeepsItsDay t d last.day := by
  have hnone : ∀ day, Counts tid t d day expenses := by
    intro day
    have hself : t.withNext d = t := by
      unfold Expense.withNext
      rw [← hfirst]
    refine ⟨0, ⟨?_, hfresh⟩, hd, fun i hi => absurd hi (Nat.not_lt_zero i)⟩
    rw [hrow]
    exact congrArg some hself.symm
  exact onePerDate_iff (run_counts hdays hsorted hnone hrun hlast) hpast

/-! ### The fifteenth, and the thirty-first -/

def monthlyRent (d : ℤ) : Expense where
  date := d
  name := "Rent"
  amount := 1200000000
  isRecurring := true
  recurrenceInterval := some "monthly"
  recurrenceNextDate := some d

def oneTemplate (d : ℤ) : Table Expense := Table.empty.insert (monthlyRent d)

/-- A run by hand, as of a day, without a fault. -/
def runAsOf (day : ℤ) : DatedRun where
  day := day
  asOfIn := Calendar.dateText day
  today := []
  isDay := if_neg fun hnil => dateText_ne_nil day (List.isEmpty_iff.mp hnil)
  fault := fun _ => none

/-- What a run leaves: the drafts, and the next date. -/
def outcomeOf (expenses : Table Expense) (runs : List DatedRun) : Option (List ℤ × Option ℤ) :=
  (runs.foldlM DatedRun.apply expenses).toOption.map fun x =>
    (drafts 1 x, (x.get? 1).bind Expense.recurrenceNextDate)

lemma exists_of_outcomeOf {runs : List DatedRun} {ds : List ℤ} {next : ℤ}
    (h : outcomeOf expenses runs = some (ds, some next)) :
    ∃ expenses', runs.foldlM DatedRun.apply expenses = .ok expenses' ∧ drafts 1 expenses' = ds ∧
      ∀ row date, expenses'.get? 1 = some row → row.recurrenceNextDate = some date → date = next := by
  obtain ⟨expenses', hrun, heq⟩ := Option.map_eq_some_iff.mp h
  obtain ⟨hds, hnext⟩ := Prod.mk.inj heq
  refine ⟨expenses', ?_, hds, ?_⟩
  · cases hresult : runs.foldlM DatedRun.apply expenses with
    | error e =>
        rw [hresult] at hrun
        cases hrun
    | ok x =>
        rw [hresult] at hrun
        cases hrun
        rfl
  · intro row date hrow hdate
    rw [hrow, Option.bind_some, hdate] at hnext
    exact Option.some.inj hnext

theorem recurring_expenses_fifteenth :
    ∃ expenses', [runAsOf (ofDate 2026 2 20)].foldlM DatedRun.apply (oneTemplate (ofDate 2026 1 15)) =
        .ok expenses' ∧
      (OnePerDate 1 (monthlyRent (ofDate 2026 1 15)) (ofDate 2026 1 15) (ofDate 2026 2 20) expenses' ↔
        KeepsItsDay (monthlyRent (ofDate 2026 1 15)) (ofDate 2026 1 15) (ofDate 2026 2 20)) := by
  have hrun : outcomeOf (oneTemplate (ofDate 2026 1 15)) [runAsOf (ofDate 2026 2 20)] =
      some ([ofDate 2026 1 15, ofDate 2026 2 15], some (ofDate 2026 3 15)) := by decide +kernel
  obtain ⟨expenses', hok, -, hnext⟩ := exists_of_outcomeOf hrun
  have hrow : (oneTemplate (ofDate 2026 1 15)).get? 1 = some (monthlyRent (ofDate 2026 1 15)) := rfl
  have hdays : ∀ r ∈ [runAsOf (ofDate 2026 2 20)], Legible (monthlyRent (ofDate 2026 1 15)) r.day := by
    rw [forall_mem_singleton]
    exact ⟨by decide +kernel, by decide +kernel, nofun⟩
  have hlast : runAsOf (ofDate 2026 2 20) ∈ [runAsOf (ofDate 2026 2 20)].getLast? := rfl
  have hpast : ∀ row next, expenses'.get? 1 = some row → row.recurrenceNextDate = some next →
      (runAsOf (ofDate 2026 2 20)).day < next := by
    intro row next hrow hdate
    rw [hnext row next hrow hdate]
    decide +kernel
  have hiff := recurring_expenses_iff hrow rfl rfl (by decide +kernel) hdays
    (pairwise_singleton _ _) hok hlast hpast
  exact ⟨expenses', hok, hiff⟩

/-- The rent of the 31st is moved to the 28th by February, and has no draft on 31
March. -/
theorem rent_drifts :
    ∃ expenses', [runAsOf (ofDate 2026 3 31)].foldlM DatedRun.apply (oneTemplate (ofDate 2026 1 31)) =
        .ok expenses' ∧
      (∀ row next, expenses'.get? 1 = some row → row.recurrenceNextDate = some next →
        ofDate 2026 3 31 < next) ∧
      ¬OnePerDate 1 (monthlyRent (ofDate 2026 1 31)) (ofDate 2026 1 31) (ofDate 2026 3 31)
        expenses' := by
  have hrun : outcomeOf (oneTemplate (ofDate 2026 1 31)) [runAsOf (ofDate 2026 3 31)] =
      some ([ofDate 2026 1 31, ofDate 2026 2 28, ofDate 2026 3 28], some (ofDate 2026 4 28)) := by
    decide +kernel
  obtain ⟨expenses', hok, hdrafts, hnext⟩ := exists_of_outcomeOf hrun
  refine ⟨expenses', hok, ?_, ?_⟩
  · intro row next hrow hdate
    rw [hnext row next hrow hdate]
    decide +kernel
  · rintro ⟨-, hmem⟩
    have hthirtyFirst : ofDate 2026 3 31 ∈ drafts 1 expenses' := by
      rw [hmem]
      exact ⟨2, by decide +kernel, le_rfl, nofun⟩
    rw [hdrafts] at hthirtyFirst
    exact absurd hthirtyFirst (by decide +kernel)

end RentalExpenses

end CErp
