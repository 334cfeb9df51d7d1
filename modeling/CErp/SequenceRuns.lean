/-
Runs of allocators on one sequence.

The row lock makes transactions that take numbers follow one another, and what
a transaction takes is lost with it.  `serve` runs them in the order of the
lock; `issue` is what the transactions that commit are given.  Within a period
these are consecutive numbers (`issue_consecutive`).

The period of a number and the year of its text come from two readings of the
clock.  Where both fall in one period the texts are distinct as well.
-/
import CErp.SequenceText

namespace CErp

open List Int Table

/-! ### Dates -/

/-- A reading of the clock, down to the day. -/
structure Date where
  year : ℕ
  month : ℕ
  day : ℕ
  month_le : month ≤ 12
  day_le : day ≤ 31
  deriving DecidableEq

variable {d e : Date}

namespace Date

/-- The fields as `strftime` writes them. -/
def clock (d : Date) : Clock where
  year := toString d.year
  shortYear := IrSequence.padded 2 (d.year % 100 : ℕ)
  month := IrSequence.padded 2 d.month
  day := IrSequence.padded 2 d.day

/-- No earlier than. -/
def le (d e : Date) : Prop :=
  d.year < e.year ∨ (d.year = e.year ∧ (d.month < e.month ∨ (d.month = e.month ∧ d.day ≤ e.day)))

instance (d e : Date) : Decidable (d.le e) := by
  unfold le
  infer_instance

lemma toList_two {n : ℕ} (h : n ≤ 99) : (IrSequence.padded 2 n).toList.length = 2 ∧
    ∀ c ∈ (IrSequence.padded 2 n).toList, c.isDigit = true := by
  have hlist := IrSequence.toList_padded 2 (natCast_nonneg n)
  rw [toNat_natCast] at hlist
  have hdigits : (toString (n : ℤ)).length = (Nat.toDigits 10 n).length := by
    show (toString n).length = _
    rw [Nat.toString_eq_repr, ← Nat.toList_repr, String.length_toList]
  have hle : (Nat.toDigits 10 n).length ≤ 2 :=
    (Nat.length_toDigits_le_iff (by decide) (by decide)).mpr (by omega)
  rw [hlist]
  constructor
  · rw [length_append, length_replicate, hdigits]
    omega
  · intro c hc
    rcases mem_append.mp hc with hzero | hdigit
    · rw [eq_of_mem_replicate hzero]
      decide
    · exact Nat.isDigit_of_mem_toDigits (by decide) (by decide) hdigit

lemma numeric_clock (d : Date) : IrSequence.Numeric d.clock where
  year := by
    show (toString d.year).toList ≠ [] ∧ ∀ c ∈ (toString d.year).toList, _
    rw [Nat.toString_eq_repr, Nat.toList_repr]
    refine ⟨ne_nil_of_length_pos Nat.length_toDigits_pos, ?_⟩
    intro c hc
    exact Nat.isDigit_of_mem_toDigits (by decide) (by decide) hc
  shortYear := toList_two (by omega)
  month := toList_two (d.month_le.trans (by decide))
  day := toList_two (d.day_le.trans (by decide))

/-- The year can be read back. -/
lemma year_eq_of_clock (h : d.clock.year = e.clock.year) : d.year = e.year := by
  have h : toString d.year = toString e.year := h
  have hdigits := congrArg String.toList h
  rw [Nat.toString_eq_repr, Nat.toString_eq_repr, Nat.toList_repr, Nat.toList_repr] at hdigits
  have hread := congrArg (fun cs => Nat.ofDigitChars 10 cs 0) hdigits
  simpa using hread

lemma month_eq_of_clock (h : d.clock.month = e.clock.month) : d.month = e.month := by
  have hread := IrSequence.padded_injective 2 (natCast_nonneg _) (natCast_nonneg _) h
  exact_mod_cast hread

end Date

namespace IrSequence

/-- What the key of a period says of a date. -/
lemma periodKey_eq_iff {policy : ResetPolicy} :
    periodKey d.clock policy = periodKey e.clock policy ↔
      (policy ≠ .never → d.year = e.year) ∧ (policy = .monthly → d.month = e.month) := by
  have hyear : d.clock.year = e.clock.year ↔ d.year = e.year :=
    ⟨Date.year_eq_of_clock, fun h => congrArg toString h⟩
  have hmonth : d.clock.month = e.clock.month ↔ d.month = e.month :=
    ⟨Date.month_eq_of_clock, fun h => congrArg (fun n : ℕ => padded 2 n) h⟩
  cases policy with
  | never => simp [periodKey]
  | yearly => simp [periodKey, hyear]
  | monthly =>
      simp only [periodKey, ne_eq, reduceCtorEq, not_false_eq_true, true_implies]
      rw [← hyear, ← hmonth]
      constructor
      · intro h
        have hchars := congrArg String.toList h
        rw [String.toList_append, String.toList_append, String.toList_append,
          String.toList_append, append_assoc, append_assoc] at hchars
        -- the month has two digits in both, so the year is what stands before it
        have hlen : ("-".toList ++ d.clock.month.toList).length =
            ("-".toList ++ e.clock.month.toList).length := by
          rw [length_append, length_append, d.numeric_clock.month.1, e.numeric_clock.month.1]
        obtain ⟨hy, hm⟩ := append_inj' hchars hlen
        exact ⟨String.toList_inj.mp hy, String.toList_inj.mp (append_cancel_left hm)⟩
      · rintro ⟨hy, hm⟩
        rw [hy, hm]

/-- A period does not return. -/
lemma periodKey_between {policy : ResetPolicy} {f : Date} (hde : d.le e) (hef : e.le f)
    (h : periodKey f.clock policy = periodKey d.clock policy) :
    periodKey e.clock policy = periodKey d.clock policy := by
  rw [periodKey_eq_iff] at h ⊢
  unfold Date.le at hde hef
  constructor
  · intro hne
    have hy := h.1 hne
    omega
  · intro hm
    have hy := h.1 (by rw [hm]; decide)
    have hmonth := h.2 hm
    omega

/-! ### Allocators -/

/-- A number that was given out: the period it counts in, and its text. -/
structure Taken where
  period : String
  number : ℤ
  text : String
  deriving DecidableEq

/-- One call of `nextByCode`, between two readings of the clock. -/
def take (code : String) (companyId : ℤ) (sequences : Table Sequence) (r : Date × Date) :
    Except String (Taken × Table Sequence) :=
  match find sequences code companyId with
  | none => .error ("No active sequence configured for '" ++ code ++ "'.")
  | some (_, s) => do
      let (text, sequences) ← nextByCodeAt r.1.clock r.2.clock sequences code companyId
      return (⟨periodKey r.1.clock s.resetPolicy, nextNumber r.1.clock s, text⟩, sequences)

def takeAll (code : String) (companyId : ℤ) (sequences : Table Sequence) :
    List (Date × Date) → Except String (List Taken × Table Sequence)
  | [] => .ok ([], sequences)
  | r :: rs => do
      let (t, sequences) ← take code companyId sequences r
      let (ts, sequences) ← takeAll code companyId sequences rs
      return (t :: ts, sequences)

/-- A transaction that takes some numbers, each between two readings of the
clock, and commits or rolls back. -/
structure Allocator where
  readings : List (Date × Date)
  commits : Bool

/-- The numbers a transaction leaves given out, and the tables after it. -/
def Allocator.run (code : String) (companyId : ℤ) (sequences : Table Sequence) (a : Allocator) :
    Except String (List Taken × Table Sequence) := do
  let (ts, sequences') ← takeAll code companyId sequences a.readings
  return if a.commits then (ts, sequences') else ([], sequences)

/-- Transactions in the order in which they hold the row. -/
def serve (code : String) (companyId : ℤ) (sequences : Table Sequence) :
    List Allocator → Except String (List Taken × Table Sequence)
  | [] => .ok ([], sequences)
  | a :: as => do
      let (ts, sequences) ← a.run code companyId sequences
      let (ts', sequences) ← serve code companyId sequences as
      return (ts ++ ts', sequences)

/-- The readings of the transactions that commit. -/
def committed (as : List Allocator) : List (Date × Date) :=
  (as.filter (·.commits)).flatMap Allocator.readings

/-- All readings of the clock, in order. -/
def clockReadings (as : List Allocator) : List Date :=
  as.flatMap fun a => a.readings.flatMap fun r => [r.1, r.2]

/-! ### The numbers of one row -/

/-- The row after some numbers were taken. -/
def after (s : Sequence) (rs : List (Date × Date)) : Sequence :=
  rs.foldl (fun s r => advance r.1.clock s) s

/-- The numbers a row gives out. -/
def issue (s : Sequence) : List (Date × Date) → List Taken
  | [] => []
  | r :: rs =>
      ⟨periodKey r.1.clock s.resetPolicy, nextNumber r.1.clock s,
        format r.2.clock s (nextNumber r.1.clock s)⟩ :: issue (advance r.1.clock s) rs

lemma issue_append (s : Sequence) (rs rs' : List (Date × Date)) :
    issue s (rs ++ rs') = issue s rs ++ issue (after s rs) rs' := by
  induction rs generalizing s with
  | nil => rfl
  | cons r rs ih =>
      rw [cons_append, issue, issue, ih]
      rfl

lemma after_append (s : Sequence) (rs rs' : List (Date × Date)) :
    after s (rs ++ rs') = after (after s rs) rs' := foldl_append

variable {code : String} {companyId id : ℤ}

/-- A row that is found is found again once a number was taken from it. -/
lemma find_advance {sequences : Table Sequence} {s : Sequence}
    (h : find sequences code companyId = some (id, s)) (now : Clock) :
    find (sequences.modify id fun s => advance now s) code companyId =
      some (id, advance now s) := by
  let change (r : ℤ × Sequence) : ℤ × Sequence :=
    (r.1, if r.1 == id then advance now r.2 else r.2)
  -- taking a number changes nothing that the search looks at
  have hsame : ∀ c, ((fun r : ℤ × Sequence => r.2.code == code && r.2.companyId == c && r.2.active) ∘
      change) = fun r => r.2.code == code && r.2.companyId == c && r.2.active := by
    intro c
    funext r
    show ((change r).2.code == code && (change r).2.companyId == c && (change r).2.active) = _
    simp only [change]
    split <;> rfl
  have hrows : (sequences.modify id fun s => advance now s).rows = sequences.rows.map change := rfl
  have hfind : ∀ c, (sequences.modify id fun s => advance now s).rows.find?
      (fun r => r.2.code == code && r.2.companyId == c && r.2.active) =
        (sequences.rows.find? fun r => r.2.code == code && r.2.companyId == c && r.2.active).map
          change := by
    intro c
    rw [hrows, find?_map, hsame]
  unfold find at h ⊢
  simp only [hfind]
  rw [← Option.map_or, h]
  show some (id, if id == id then advance now s else s) = _
  simp

lemma take_eq {sequences : Table Sequence} {s : Sequence}
    (h : find sequences code companyId = some (id, s)) (r : Date × Date) :
    take code companyId sequences r = .ok
      (⟨periodKey r.1.clock s.resetPolicy, nextNumber r.1.clock s,
        format r.2.clock s (nextNumber r.1.clock s)⟩,
        sequences.modify id fun s => advance r.1.clock s) := by
  unfold take nextByCodeAt
  rw [h]
  rfl

lemma takeAll_eq {sequences : Table Sequence} {s : Sequence}
    (h : find sequences code companyId = some (id, s)) (rs : List (Date × Date)) :
    ∃ sequences', takeAll code companyId sequences rs = .ok (issue s rs, sequences') ∧
      find sequences' code companyId = some (id, after s rs) := by
  induction rs generalizing sequences s with
  | nil => exact ⟨sequences, rfl, h⟩
  | cons r rs ih =>
      obtain ⟨sequences', hrun, hfind⟩ := ih (find_advance h r.1.clock)
      refine ⟨sequences', ?_, hfind⟩
      rw [takeAll, take_eq h]
      show (takeAll code companyId _ rs >>= _) = _
      rw [hrun]
      rfl

/-- **What is committed**: the numbers of the row, as if the transactions that
roll back had not been. -/
theorem serve_eq {sequences : Table Sequence} {s : Sequence}
    (h : find sequences code companyId = some (id, s)) (as : List Allocator) :
    ∃ sequences', serve code companyId sequences as = .ok (issue s (committed as), sequences') ∧
      find sequences' code companyId = some (id, after s (committed as)) := by
  induction as generalizing sequences s with
  | nil => exact ⟨sequences, rfl, h⟩
  | cons a as ih =>
      obtain ⟨sequences', hrun, hfind⟩ := takeAll_eq h a.readings
      rcases e : a.commits with - | -
      · -- the row is as it was
        obtain ⟨sequences'', hserve, hfind'⟩ := ih h
        have hcommitted : committed (a :: as) = committed as := by
          simp [committed, e]
        refine ⟨sequences'', ?_, hcommitted ▸ hfind'⟩
        rw [serve, Allocator.run, hrun, hcommitted]
        show ((if a.commits then (issue s a.readings, sequences') else ([], sequences)) |> fun x =>
          (serve code companyId x.2 as >>= fun y => .ok (x.1 ++ y.1, y.2))) = _
        rw [e]
        show (serve code companyId sequences as >>= _) = _
        rw [hserve]
        rfl
      · obtain ⟨sequences'', hserve, hfind'⟩ := ih hfind
        have hcommitted : committed (a :: as) = a.readings ++ committed as := by
          simp [committed, e]
        refine ⟨sequences'', ?_, ?_⟩
        · rw [serve, Allocator.run, hrun, hcommitted, issue_append]
          show ((if a.commits then (issue s a.readings, sequences') else ([], sequences)) |> fun x =>
            (serve code companyId x.2 as >>= fun y => .ok (x.1 ++ y.1, y.2))) = _
          rw [e]
          show (serve code companyId sequences' as >>= _) = _
          rw [hserve]
          rfl
        · rw [hcommitted, after_append]
          exact hfind'

/-! ### Consecutive numbers -/

/-- Some consecutive numbers. -/
def consecutive (start : ℤ) (count : ℕ) : List ℤ :=
  (List.range count).map fun k : ℕ => start + (k : ℤ)

lemma consecutive_succ (start : ℤ) (count : ℕ) :
    consecutive start (count + 1) = start :: consecutive (start + 1) count := by
  unfold consecutive
  rw [range_succ_eq_map, map_cons, map_map]
  congr 1
  · simp
  · apply map_congr_left
    intro k _
    show start + ((k + 1 : ℕ) : ℤ) = start + 1 + k
    push_cast
    ring

lemma consecutive_nodup (start : ℤ) (count : ℕ) : (consecutive start count).Nodup := by
  refine Nodup.map ?_ nodup_range
  intro j k hjk
  have h : start + (j : ℤ) = start + k := hjk
  omega

/-- The numbers given out in a period. -/
def numbersOf (period : String) (ts : List Taken) : List ℤ :=
  (ts.filter fun t => t.period == period).map Taken.number

/-- Where a period starts. -/
def startOf (s : Sequence) (period : String) : ℤ :=
  if period = s.lastResetPeriod then s.numberNext else 1

variable {rs : List (Date × Date)}

lemma mem_issue {s : Sequence} {t : Taken} (h : t ∈ issue s rs) :
    ∃ r ∈ rs, t.period = periodKey r.1.clock s.resetPolicy ∧ t.text = format r.2.clock s t.number := by
  induction rs generalizing s with
  | nil => cases h
  | cons r rs ih =>
      rcases mem_cons.mp h with rfl | hrest
      · exact ⟨r, mem_cons_self, rfl, rfl⟩
      · obtain ⟨r', hr', hperiod, htext⟩ := ih hrest
        exact ⟨r', mem_cons_of_mem r hr', hperiod, htext⟩

/-- The next number is the one after the last of its period. -/
lemma nextNumber_eq {s : Sequence} {prev : Date}
    (hlast : s.lastResetPeriod = periodKey prev.clock s.resetPolicy) :
    nextNumber d.clock s = startOf s (periodKey d.clock s.resetPolicy) := by
  by_cases hsame : periodKey d.clock s.resetPolicy = s.lastResetPeriod
  · rw [nextNumber, if_neg (fun h => h.2 hsame), startOf, if_pos hsame]
  · have hne : periodKey d.clock s.resetPolicy ≠ "" := by
      intro hempty
      -- only the policy without periods has an empty key, and then they are all the same
      apply hsame
      rw [hlast, periodKey_eq_iff]
      have hchars := congrArg String.toList hempty
      rcases e : s.resetPolicy with - | - | -
      · simp
      · rw [e] at hchars
        exact absurd hchars d.numeric_clock.year.1
      · rw [e] at hchars
        have hyear : (d.clock.year ++ "-" ++ d.clock.month).toList = [] := hchars
        simp at hyear
    rw [nextNumber, if_pos ⟨hne, hsame⟩, startOf, if_neg hsame]

/-- **Within a period the numbers are consecutive**, from the number the row
stands at in its own period and from 1 in every later one. -/
theorem issue_consecutive {s : Sequence} {prev : Date} (hinc : s.numberIncrement = 1)
    (hlast : s.lastResetPeriod = periodKey prev.clock s.resetPolicy)
    (hclock : (prev :: rs.map Prod.fst).Pairwise Date.le) (period : String) :
    ∃ count, numbersOf period (issue s rs) = consecutive (startOf s period) count := by
  induction rs generalizing s prev with
  | nil => exact ⟨0, rfl⟩
  | cons r rs ih =>
      obtain ⟨hprev, hrest⟩ := pairwise_cons.mp hclock
      obtain ⟨count, hcount⟩ := ih (s := advance r.1.clock s) hinc rfl hrest
      have hnext := nextNumber_eq (d := r.1) hlast
      have hstart : startOf (advance r.1.clock s) period =
          if period = periodKey r.1.clock s.resetPolicy then
            startOf s (periodKey r.1.clock s.resetPolicy) + 1 else 1 := by
        rw [startOf, ← hnext, ← hinc]
        rfl
      by_cases hp : periodKey r.1.clock s.resetPolicy = period
      · -- the number is the first of the rest
        refine ⟨count + 1, ?_⟩
        rw [if_pos hp.symm, hp] at hstart
        rw [consecutive_succ, ← hstart, ← hcount, numbersOf, issue,
          filter_cons_of_pos (by simpa using hp), map_cons, hnext, hp]
        rfl
      · have htail : numbersOf period (issue s (r :: rs)) =
            numbersOf period (issue (advance r.1.clock s) rs) := by
          rw [numbersOf, issue, filter_cons_of_neg (by simpa using hp)]
          rfl
        rw [htail]
        by_cases hold : period = s.lastResetPeriod
        · -- the row's own period is over
          refine ⟨0, map_eq_nil_iff.mpr (filter_eq_nil_iff.mpr ?_)⟩
          intro t ht hperiod
          obtain ⟨r', hr', hkey, -⟩ := mem_issue ht
          have hback : periodKey r'.1.clock s.resetPolicy = periodKey prev.clock s.resetPolicy := by
            rw [← hlast, ← hold, ← of_decide_eq_true hperiod]
            exact hkey.symm
          apply hp
          rw [hold, hlast]
          exact periodKey_between (hprev r.1 (by simp))
            ((pairwise_cons.mp hrest).1 r'.1 (mem_map_of_mem hr')) hback
        · refine ⟨count, ?_⟩
          rw [hcount, hstart, if_neg (Ne.symm hp), startOf, if_neg hold]

/-! ### Distinct texts -/

lemma le_of_mem_consecutive {start n : ℤ} {count : ℕ} (h : n ∈ consecutive start count) :
    start ≤ n := by
  obtain ⟨k, -, rfl⟩ := mem_map.mp h
  show start ≤ start + (k : ℤ)
  omega

/-- Numbers that differ within every period. -/
lemma pairwise_of_numbersOf {ts : List Taken} (h : ∀ period, (numbersOf period ts).Nodup) :
    ts.Pairwise fun t u => t.period = u.period → t.number ≠ u.number := by
  induction ts with
  | nil => exact List.Pairwise.nil
  | cons t ts ih =>
      have hsub : ∀ period, Sublist (numbersOf period ts) (numbersOf period (t :: ts)) :=
        fun period => ((sublist_cons_self t ts).filter _).map _
      refine pairwise_cons.mpr ⟨?_, ih fun period => (h period).sublist (hsub period)⟩
      intro u hu hperiod hnumber
      have hmem : t.number ∈ numbersOf t.period ts := by
        rw [hnumber]
        exact mem_map_of_mem (mem_filter.mpr ⟨hu, by simp [hperiod]⟩)
      have hnodup := h t.period
      rw [numbersOf, filter_cons_of_pos (by simp), map_cons, nodup_cons] at hnodup
      exact hnodup.1 hmem

/-- A token stands in the prefix or in the suffix. -/
def Sequence.shows (s : Sequence) (token : List Char) : Prop :=
  token <:+: s.pre.toList ∨ token <:+: s.suffix.toList

/-- The texts show the year, and the month where the sequence starts over with
every month. -/
def ShowsPeriod (s : Sequence) : Prop :=
  (s.resetPolicy ≠ .never → Sequence.shows s yearToken) ∧
    (s.resetPolicy = .monthly → Sequence.shows s monthToken)

/-- The period and the text of a number are of one period, and the year of the
text has as many digits as at the start. -/
def ReadsOnePeriod (policy : ResetPolicy) (start : Date) (r : Date × Date) : Prop :=
  periodKey r.1.clock policy = periodKey r.2.clock policy ∧
    r.2.clock.year.toList.length = start.clock.year.toList.length

/-- Texts that are equal show the same period. -/
lemma period_of_text {s : Sequence} (hshows : ShowsPeriod s)
    (hwidth : d.clock.year.toList.length = e.clock.year.toList.length) {n m : ℤ} (hn : 0 ≤ n)
    (hm : 0 ≤ m) (h : format d.clock s n = format e.clock s m) :
    n = m ∧ periodKey d.clock s.resetPolicy = periodKey e.clock s.resetPolicy := by
  obtain ⟨hnumber, hpre, hsuffix⟩ :=
    format_eq d.numeric_clock e.numeric_clock hwidth rfl rfl rfl hn hm h
  obtain ⟨hpreYear, hpreMonth⟩ := eq_of_expand_eq d.numeric_clock e.numeric_clock hwidth hpre
  obtain ⟨hsufYear, hsufMonth⟩ := eq_of_expand_eq d.numeric_clock e.numeric_clock hwidth hsuffix
  refine ⟨hnumber, periodKey_eq_iff.mpr ⟨fun hp => ?_, fun hp => ?_⟩⟩
  · exact Date.year_eq_of_clock ((hshows.1 hp).elim hpreYear hsufYear)
  · exact Date.month_eq_of_clock ((hshows.2 hp).elim hpreMonth hsufMonth)

lemma issue_texts_nodup {s : Sequence} {start : Date} (hnext : 0 < s.numberNext)
    (hshows : ShowsPeriod s) (hnumbers : ∀ period, ∃ count,
      numbersOf period (issue s rs) = consecutive (startOf s period) count)
    (hone : ∀ r ∈ rs, ReadsOnePeriod s.resetPolicy start r) :
    ((issue s rs).map Taken.text).Nodup := by
  have hpos : ∀ t ∈ issue s rs, 0 ≤ t.number := by
    intro t ht
    obtain ⟨count, hcount⟩ := hnumbers t.period
    have hmem : t.number ∈ numbersOf t.period (issue s rs) :=
      mem_map_of_mem (mem_filter.mpr ⟨ht, by simp⟩)
    rw [hcount] at hmem
    have hstart : 0 < startOf s t.period := by
      unfold startOf
      split
      · exact hnext
      · decide
    exact hstart.le.trans (le_of_mem_consecutive hmem)
  have hpairs := pairwise_of_numbersOf fun period => by
    obtain ⟨count, hcount⟩ := hnumbers period
    rw [hcount]
    exact consecutive_nodup _ _
  apply pairwise_map.mpr
  refine hpairs.imp_of_mem ?_
  intro t u ht hu hdistinct htext
  obtain ⟨r, hr, hperiod, hformat⟩ := mem_issue ht
  obtain ⟨r', hr', hperiod', hformat'⟩ := mem_issue hu
  obtain ⟨hsame, hwidth⟩ := hone r hr
  obtain ⟨hsame', hwidth'⟩ := hone r' hr'
  rw [hformat, hformat'] at htext
  obtain ⟨hnumber, hkey⟩ :=
    period_of_text hshows (hwidth.trans hwidth'.symm) (hpos t ht) (hpos u hu) htext
  refine hdistinct ?_ hnumber
  rw [hperiod, hperiod', hsame, hsame', hkey]

/-- The first readings of what is committed are readings of the clock. -/
lemma committed_sublist (as : List Allocator) :
    Sublist ((committed as).map Prod.fst) (clockReadings as) := by
  induction as with
  | nil => exact Sublist.refl _
  | cons a as ih =>
      have hown : Sublist (a.readings.map Prod.fst)
          (a.readings.flatMap fun r => [r.1, r.2]) := by
        induction a.readings with
        | nil => exact Sublist.refl _
        | cons r rs ih => exact (ih.cons r.2).cons_cons r.1
      rcases e : a.commits with - | -
      · have hcommitted : committed (a :: as) = committed as := by
          simp [committed, e]
        rw [hcommitted]
        exact ih.trans (sublist_append_right _ _)
      · have hcommitted : committed (a :: as) = a.readings ++ committed as := by
          simp [committed, e]
        rw [hcommitted, map_append]
        exact hown.append ih

/-- **Numbering.**  Whatever the order in which transactions take numbers from
a row, and whichever of them roll back: the committed numbers of each period
are consecutive, and their texts are distinct when each is of the period it
counts in. -/
theorem sequence_gapless_distinct (sequences : Table Sequence) (code : String)
    (companyId id : ℤ) (s : Sequence) (start : Date) (as : List Allocator)
    (hfind : find sequences code companyId = some (id, s)) (hinc : s.numberIncrement = 1)
    (hnext : 0 < s.numberNext) (hlast : s.lastResetPeriod = periodKey start.clock s.resetPolicy)
    (hclock : (start :: clockReadings as).Pairwise Date.le) (hshows : ShowsPeriod s) :
    ∃ ts sequences', serve code companyId sequences as = .ok (ts, sequences') ∧
      (∀ period, ∃ count, numbersOf period ts = consecutive (startOf s period) count) ∧
      ((∀ r ∈ committed as, ReadsOnePeriod s.resetPolicy start r) → (ts.map Taken.text).Nodup) := by
  obtain ⟨sequences', hserve, -⟩ := serve_eq hfind as
  have hfirst : (start :: (committed as).map Prod.fst).Pairwise Date.le :=
    hclock.sublist ((committed_sublist as).cons_cons start)
  have hnumbers := issue_consecutive hinc hlast hfirst
  exact ⟨_, sequences', hserve, hnumbers, issue_texts_nodup hnext hshows hnumbers⟩

/-! ### The turn of a year -/

/-- The sale order sequence at the end of 2026. -/
def saleOrders : Sequence where
  code := "sale.order"
  pre := "SO/%(year)s/"
  padding := 4
  resetPolicy := .yearly
  lastResetPeriod := "2026"

def newYearsEve : Date := ⟨2026, 12, 31, by decide, by decide⟩

def newYear : Date := ⟨2027, 1, 1, by decide, by decide⟩

lemma saleOrders_shows : ShowsPeriod saleOrders :=
  ⟨fun _ => .inl ⟨"SO/".toList, "/".toList, by decide⟩, fun h => by cases h⟩

/-- Two numbers on each side of the turn of the year, and one rolled back. -/
theorem sequence_gapless_distinct_newYear :
    ∃ ts sequences', serve "sale.order" 0 (empty.insert saleOrders)
        [⟨[(newYearsEve, newYearsEve), (newYearsEve, newYearsEve)], true⟩,
          ⟨[(newYearsEve, newYearsEve)], false⟩, ⟨[(newYear, newYear)], true⟩] =
        .ok (ts, sequences') ∧
      (∀ period, ∃ count, numbersOf period ts = consecutive (startOf saleOrders period) count) ∧
      (ts.map Taken.text).Nodup := by
  obtain ⟨ts, sequences', hserve, hnumbers, htexts⟩ :=
    sequence_gapless_distinct (empty.insert saleOrders) "sale.order" 0 1 saleOrders newYearsEve
      [⟨[(newYearsEve, newYearsEve), (newYearsEve, newYearsEve)], true⟩,
        ⟨[(newYearsEve, newYearsEve)], false⟩, ⟨[(newYear, newYear)], true⟩]
      rfl rfl (by decide) (by decide) (by decide) saleOrders_shows
  refine ⟨ts, sequences', hserve, hnumbers, htexts ?_⟩
  unfold ReadsOnePeriod
  decide

/-- A number of 2026 whose text is filled in at midnight reads as the first one
of 2027. -/
theorem sequence_text_twice :
    ¬ ∀ (sequences : Table Sequence) (code : String) (companyId id : ℤ) (s : Sequence)
      (start : Date) (as : List Allocator),
      find sequences code companyId = some (id, s) → s.numberIncrement = 1 → 0 < s.numberNext →
      s.lastResetPeriod = periodKey start.clock s.resetPolicy →
      (start :: clockReadings as).Pairwise Date.le → ShowsPeriod s →
      ∃ ts sequences', serve code companyId sequences as = .ok (ts, sequences') ∧
        (∀ period, ∃ count, numbersOf period ts = consecutive (startOf s period) count) ∧
        (ts.map Taken.text).Nodup := by
  intro h
  obtain ⟨ts, sequences', hserve, -, hnodup⟩ :=
    h (empty.insert saleOrders) "sale.order" 0 1 saleOrders newYearsEve
      [⟨[(newYearsEve, newYear)], true⟩, ⟨[(newYear, newYear)], true⟩]
      rfl rfl (by decide) (by decide) (by decide) saleOrders_shows
  have hfound : find (empty.insert saleOrders) "sale.order" 0 = some (1, saleOrders) := rfl
  obtain ⟨sequences'', hserve', -⟩ := serve_eq hfound
    [⟨[(newYearsEve, newYear)], true⟩, ⟨[(newYear, newYear)], true⟩]
  rw [hserve'] at hserve
  cases hserve
  exact absurd hnodup (by decide)

end IrSequence

end CErp
