/-
The migration that creates `ir_sequence`: every database sequence it replaces
becomes a row that stands at the number after the last one issued.

The rows have no period yet, so for a row that starts over with a period the
first allocation is a rollover, and the number it stands at is never given out.
-/
import CErp.SequenceRuns

namespace CErp

open List Table

namespace IrSequence

/-- A row the migration seeds, and the database sequence it replaces. -/
structure SeedRow where
  code : String
  pre : String
  padding : ℕ
  resetPolicy : ResetPolicy
  oldSequence : String

/-- The row, with the last value of the old sequence where it has one. -/
def SeedRow.row (v : SeedRow) (lastValue : Option ℤ) : Sequence where
  code := v.code
  pre := v.pre
  padding := v.padding
  resetPolicy := v.resetPolicy
  numberNext := (lastValue.map (· + 1)).getD 1

/-- INSERT of every row whose code is not there. -/
def migrate (rows : List SeedRow) (lastValue : String → Option ℤ) (sequences : Table Sequence) :
    Table Sequence :=
  rows.foldl (fun sequences v =>
    if sequences.rows.any fun r => r.2.code == v.code then sequences
    else sequences.insert (v.row (lastValue v.oldSequence))) sequences

/-- Migration 980. -/
def createIrSequence : (String → Option ℤ) → Table Sequence → Table Sequence :=
  migrate
    [⟨"sale.order", "SO/%(year)s/", 4, .yearly, "sale_order_seq"⟩,
      ⟨"purchase.order", "PO/%(year)s/", 4, .yearly, "purchase_order_seq"⟩,
      ⟨"stock.picking.in", "WH/IN/%(year)s/", 4, .yearly, "stock_in_seq"⟩,
      ⟨"stock.picking.out", "WH/OUT/%(year)s/", 4, .yearly, "stock_out_seq"⟩,
      ⟨"stock.picking.int", "WH/INT/%(year)s/", 4, .yearly, "stock_int_seq"⟩]

/-! ### The seeded row -/

/-- One row has the code. -/
def OnlyRow (sequences : Table Sequence) (s : Sequence) : Prop :=
  ∃ id, (id, s) ∈ sequences.rows ∧ ∀ r ∈ sequences.rows, r.2.code = s.code → r = (id, s)

variable {sequences : Table Sequence}

variable {s : Sequence}

lemma OnlyRow.insert {s' : Sequence} (h : OnlyRow sequences s) (hcode : s'.code ≠ s.code) :
    OnlyRow (sequences.insert s') s := by
  obtain ⟨id, hmem, honly⟩ := h
  refine ⟨id, Table.mem_insert_iff.mpr (.inl hmem), ?_⟩
  intro r hr hsame
  rcases Table.mem_insert_iff.mp hr with hold | rfl
  · exact honly r hold hsame
  · exact absurd hsame hcode

lemma onlyRow_insert (h : ∀ r ∈ sequences.rows, r.2.code ≠ s.code) :
    OnlyRow (sequences.insert s) s := by
  refine ⟨sequences.nextId, Table.mem_insert_iff.mpr (.inr rfl), ?_⟩
  intro r hr hsame
  rcases Table.mem_insert_iff.mp hr with hold | rfl
  · exact absurd hsame (h r hold)
  · rfl

/-- A row for all companies that is the only one under its code is found for
every company. -/
lemma OnlyRow.find (h : OnlyRow sequences s) (hcompany : s.companyId = none)
    (hactive : s.active = true) (companyId : ℤ) :
    ∃ id, IrSequence.find sequences s.code companyId = some (id, s) := by
  obtain ⟨id, hmem, honly⟩ := h
  refine ⟨id, ?_⟩
  have hall : ∀ c r, (sequences.rows.find? fun r =>
      r.2.code == s.code && r.2.companyId == c && r.2.active) = some r → r = (id, s) := by
    intro c r hr
    have hp := find?_some hr
    simp only [Bool.and_eq_true, beq_iff_eq] at hp
    exact honly r (mem_of_find?_eq_some hr) hp.1.1
  have hnone : (sequences.rows.find? fun r =>
      r.2.code == s.code && r.2.companyId == none && r.2.active) = some (id, s) := by
    rcases e : sequences.rows.find? fun r =>
        r.2.code == s.code && r.2.companyId == none && r.2.active with - | r
    · have hnot := find?_eq_none.mp e (id, s) hmem
      simp [hcompany, hactive] at hnot
    · rw [e, hall none r e]
  unfold IrSequence.find
  simp only [hnone]
  rcases e : sequences.rows.find? fun r => r.2.code == s.code &&
      r.2.companyId == (if companyId > 0 then some companyId else none) && r.2.active with - | r
  · rw [e]
    rfl
  · rw [e, hall _ r e]
    rfl

lemma migrate_keeps {rows : List SeedRow} {lastValue : String → Option ℤ}
    (h : OnlyRow sequences s) (hrows : ∀ v ∈ rows, v.code ≠ s.code) :
    OnlyRow (migrate rows lastValue sequences) s := by
  induction rows generalizing sequences with
  | nil => exact h
  | cons v rows ih =>
      obtain ⟨hv, hrest⟩ := forall_mem_cons.mp hrows
      show OnlyRow (migrate rows lastValue (if _ then sequences else _)) s
      split
      · exact ih h hrest
      · exact ih (h.insert hv) hrest

/-- Every row that is not there is seeded. -/
lemma migrate_seeds {rows : List SeedRow} (lastValue : String → Option ℤ)
    (hcodes : (rows.map SeedRow.code).Nodup) {v : SeedRow} (hv : v ∈ rows)
    (hnew : ∀ r ∈ sequences.rows, r.2.code ≠ v.code) :
    OnlyRow (migrate rows lastValue sequences) (v.row (lastValue v.oldSequence)) := by
  induction rows generalizing sequences with
  | nil => cases hv
  | cons w rows ih =>
      obtain ⟨hw, hrest⟩ := nodup_cons.mp hcodes
      rcases mem_cons.mp hv with rfl | htail
      · have hnone : (sequences.rows.any fun r => r.2.code == v.code) = false := by
          rw [any_eq_false]
          intro r hr
          simpa using hnew r hr
        show OnlyRow (migrate rows lastValue (if _ then sequences else _)) _
        rw [hnone]
        apply migrate_keeps (onlyRow_insert hnew)
        intro x hx hsame
        have hcode : x.code = v.code := hsame
        exact hw (hcode ▸ mem_map_of_mem hx)
      · have hne : w.code ≠ v.code := by
          intro hsame
          exact hw (hsame ▸ mem_map_of_mem htail)
        show OnlyRow (migrate rows lastValue (if _ then sequences else _)) _
        split
        · exact ih hrest htail hnew
        · apply ih hrest htail
          intro r hr
          rcases Table.mem_insert_iff.mp hr with hold | rfl
          · exact hnew r hold
          · exact hne

/-! ### Continuing the old series -/

/-- A row that never starts over gives out no number below the one it stands
at, and no row gives out a number below 1. -/
lemma le_of_mem_issue {rs : List (Date × Date)} {bound : ℤ} (hinc : s.numberIncrement = 1)
    (hnext : bound ≤ s.numberNext) (hbound : s.resetPolicy = .never ∨ bound ≤ 1) :
    ∀ t ∈ issue s rs, bound ≤ t.number := by
  induction rs generalizing s with
  | nil => simp [issue]
  | cons r rs ih =>
      have hnumber : bound ≤ nextNumber r.1.clock s := by
        unfold nextNumber
        rcases hbound with hnever | hone
        · rw [hnever]
          exact hnext
        · dsimp only
          split
          · exact hone
          · exact hnext
      refine forall_mem_cons.mpr ⟨hnumber, ih hinc ?_ hbound⟩
      show bound ≤ nextNumber r.1.clock s + s.numberIncrement
      omega

/-- Every number given out under a code in the period the migration ran in is
above the last one issued before, whatever the run. -/
def ContinuesSeries (sequences : Table Sequence) (code : String) (policy : ResetPolicy)
    (last : ℕ) : Prop :=
  ∀ (companyId : ℤ) (start : Date) (as : List Allocator) (ts : List Taken)
    (sequences' : Table Sequence), (start :: clockReadings as).Pairwise Date.le →
    (∀ d ∈ clockReadings as, periodKey d.clock policy = periodKey start.clock policy) →
    serve code companyId sequences as = .ok (ts, sequences') → ∀ t ∈ ts, last < t.number

/-- **Migrated sequences.**  A row the migration seeds continues the old series
through the period exactly when it never starts over or there is no old
series. -/
theorem migrated_continues_iff (rows : List SeedRow) (hcodes : (rows.map SeedRow.code).Nodup)
    (v : SeedRow) (hv : v ∈ rows) (sequences : Table Sequence)
    (hnew : ∀ r ∈ sequences.rows, r.2.code ≠ v.code) (lastValue : String → Option ℤ) (last : ℕ)
    (hlast : lastValue v.oldSequence = some (last : ℤ)) :
    ContinuesSeries (migrate rows lastValue sequences) v.code v.resetPolicy last ↔
      v.resetPolicy = .never ∨ last = 0 := by
  have honly := migrate_seeds lastValue hcodes hv hnew
  have hrow : (v.row (lastValue v.oldSequence)).numberNext = last + 1 := by
    rw [hlast]
    rfl
  constructor
  · intro hcontinues
    by_contra hnot
    obtain ⟨hpolicy, hsome⟩ := not_or.mp hnot
    -- the first allocation after the migration is a rollover
    obtain ⟨id, hfind⟩ := honly.find rfl rfl 0
    obtain ⟨sequences', hserve, -⟩ := serve_eq hfind [⟨[(newYear, newYear)], true⟩]
    have hnumber : nextNumber newYear.clock (v.row (lastValue v.oldSequence)) = 1 := by
      have hne : periodKey newYear.clock v.resetPolicy ≠ "" := by
        rcases e : v.resetPolicy with - | - | -
        · exact absurd e hpolicy
        · decide
        · decide
      exact if_pos ⟨hne, hne⟩
    have hlt := hcontinues 0 newYear [⟨[(newYear, newYear)], true⟩] _ sequences' (by decide)
      (by simp [clockReadings]) hserve _ mem_cons_self
    have hone : (last : ℤ) < nextNumber newYear.clock (v.row (lastValue v.oldSequence)) := hlt
    rw [hnumber] at hone
    omega
  · rintro hok companyId start as ts sequences' - - hserve t ht
    obtain ⟨id, hfind⟩ := honly.find rfl rfl companyId
    obtain ⟨sequences'', hserve', -⟩ := serve_eq hfind as
    rw [show (v.row (lastValue v.oldSequence)).code = v.code from rfl] at hserve'
    rw [hserve'] at hserve
    cases hserve
    have hbound : (last : ℤ) + 1 ≤ t.number := by
      refine le_of_mem_issue rfl hrow.ge ?_ t ht
      rcases hok with hnever | hzero
      · exact .inl hnever
      · exact .inr (by omega)
    omega

/-! ### Sale orders restart -/

/-- 41 sale orders were numbered before the migration, and none of the others. -/
def fortyOne (oldSequence : String) : Option ℤ :=
  if oldSequence = "sale_order_seq" then some 41 else some 0

/-- A sequence that never starts over, seeded at 42. -/
theorem migrated_continues_never :
    ContinuesSeries (migrate [⟨"sale.order", "SO", 6, .never, "sale_order_seq"⟩] fortyOne empty)
      "sale.order" .never 41 :=
  (migrated_continues_iff [⟨"sale.order", "SO", 6, .never, "sale_order_seq"⟩] (by decide)
    ⟨"sale.order", "SO", 6, .never, "sale_order_seq"⟩ (by simp) empty
    (by simp [empty]) fortyOne 41 rfl).mpr (.inl rfl)

/-- The first sale order after the migration is number 1 again. -/
theorem migrated_sale_orders_restart :
    ¬ ∀ (lastValue : String → Option ℤ) (last : ℕ), lastValue "sale_order_seq" = some (last : ℤ) →
      ContinuesSeries (createIrSequence lastValue empty) "sale.order" .yearly last := by
  intro h
  have hserve : (serve "sale.order" 0 (createIrSequence fortyOne empty)
      [⟨[(newYear, newYear)], true⟩]).map Prod.fst = .ok [⟨"2027", 1, "SO/2027/0001"⟩] := by
    decide
  rcases e : serve "sale.order" 0 (createIrSequence fortyOne empty)
    [⟨[(newYear, newYear)], true⟩] with err | ⟨ts, sequences'⟩
  · rw [e] at hserve
    cases hserve
  · rw [e] at hserve
    cases hserve
    have hlt := h fortyOne 41 rfl 0 newYear [⟨[(newYear, newYear)], true⟩] _ sequences' (by decide)
      (by simp [clockReadings]) e _ mem_cons_self
    exact absurd hlt (by decide)

end IrSequence

end CErp
