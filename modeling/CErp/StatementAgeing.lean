/-
The ageing of a statement against what was outstanding on its date.

An invoice with a due date or an invoice date is in one bucket, that of the days it is
overdue (`takes_iff`), so the buckets add up to the residuals of the invoices looked at
(`aging_sum`).  Residuals are those of today: what has been allocated after the date is
missing from them, and `ages_right_iff` says when that makes no difference.
-/
import CErp.StatementComposes

namespace CErp

open Outcome Table Option

namespace PortalStatement

open DatedEntries

variable {db : StatementDb} {partnerId : ℤ}

/-! ### Buckets -/

/-- The bucket of a number of days overdue. -/
def Bucket.ofDays (days : ℤ) : Bucket :=
  if days ≤ 0 then .current
  else if days ≤ 30 then .d1_30
  else if days ≤ 60 then .d31_60
  else if days ≤ 90 then .d61_90
  else .d90_plus

variable {m : StatementMove}

/-- **A bucket takes what is overdue by its days.** -/
theorem takes_iff {ref : ℤ} {b : Bucket} :
    b.takes ref m = true ↔ ∃ d ∈ dueOn m, Bucket.ofDays (ref - d) = b := by
  rcases hdue : dueOn m with - | d
  · cases b <;> simp [Bucket.takes, hdue]
  · have hofDays : (∃ d' ∈ (some d : Option ℤ), Bucket.ofDays (ref - d') = b) ↔
        Bucket.ofDays (ref - d) = b := by
      simp
    rw [hofDays]
    unfold Bucket.ofDays
    cases b
    all_goals
      simp only [Bucket.takes, hdue, any_some, decide_eq_true_eq]
      split_ifs
      all_goals
        simp only [iff_true, iff_false]
        omega

/-- An invoice is in one bucket when something says when it is due. -/
lemma exists_unique_bucket {ref : ℤ} :
    (∃! b : Bucket, b.takes ref m = true) ↔ (dueOn m).isSome = true := by
  constructor
  · rintro ⟨b, hb, -⟩
    obtain ⟨d, hd, -⟩ := takes_iff.mp hb
    exact isSome_iff_exists.mpr ⟨d, hd⟩
  · intro h
    obtain ⟨d, hd⟩ := isSome_iff_exists.mp h
    refine ⟨Bucket.ofDays (ref - d), takes_iff.mpr ⟨d, hd, rfl⟩, ?_⟩
    intro b hb
    obtain ⟨d', hd', rfl⟩ := takes_iff.mp hb
    rw [hd] at hd'
    cases hd'
    rfl

/-! ### What the buckets add up to -/

/-- The residuals of the invoices looked at that something says when due. -/
def agedResidual (db : StatementDb) (partnerId : ℤ) (dateTo : Option ℤ) : ℤ :=
  db.moves.sumOver fun _ m =>
    if isAged partnerId dateTo m = true ∧ (dueOn m).isSome = true then m.amountResidual else 0

lemma aging_sum {dateTo : Option ℤ} {a : Aging} (h : aging db partnerId dateTo = .ok a) :
    a.sum = agedResidual db partnerId dateTo := by
  obtain ⟨current, h₁, h⟩ := bind_ok_iff.mp h
  obtain ⟨d1_30, h₂, h⟩ := bind_ok_iff.mp h
  obtain ⟨d31_60, h₃, h⟩ := bind_ok_iff.mp h
  obtain ⟨d61_90, h₄, h⟩ := bind_ok_iff.mp h
  obtain ⟨d90_plus, h₅, h⟩ := bind_ok_iff.mp h
  cases h
  unfold Aging.sum
  rw [← (bigint_ok_iff.mp h₁).2, ← (bigint_ok_iff.mp h₂).2, ← (bigint_ok_iff.mp h₃).2,
    ← (bigint_ok_iff.mp h₄).2, ← (bigint_ok_iff.mp h₅).2]
  unfold bucketSum
  rw [← sumOver_add, ← sumOver_add, ← sumOver_add, ← sumOver_add]
  apply sumOver_congr
  rintro ⟨id, m⟩ -
  generalize dateTo.getD db.currentDate = ref
  rcases hdue : dueOn m with - | d
  · have hnone : ∀ b : Bucket, b.takes ref m = false := by
      intro b
      rw [Bool.eq_false_iff]
      intro hb
      obtain ⟨d, hd, -⟩ := takes_iff.mp hb
      rw [hdue] at hd
      cases hd
    simp [hnone]
  · -- one of the five takes it
    have htakes : ∀ b : Bucket, b.takes ref m = decide (Bucket.ofDays (ref - d) = b) := by
      intro b
      rw [Bool.eq_iff_iff, takes_iff, decide_eq_true_iff, hdue]
      simp
    simp only [htakes]
    cases Bucket.ofDays (ref - d) <;> simp

/-! ### What was outstanding -/

/-- An invoice of the partner that is dated up to a date. -/
def isDated (partnerId last : ℤ) (m : StatementMove) : Bool :=
  isInvoice partnerId m && upTo StatementMove.invoiceDate (some last) m

/-- What has been allocated to a move on days a condition selects. -/
def allocated (db : StatementDb) (moveId : ℤ) (on : ℤ → Prop) [DecidablePred on] : ℤ :=
  db.allocations.sumOver fun _ r => if r.moveId = moveId ∧ on r.date then r.amount else 0

/-- What an invoice still owed on a date. -/
def owedAt (db : StatementDb) (last id : ℤ) (m : StatementMove) : ℤ :=
  m.amountTotal - allocated db id fun d => d ≤ last

/-- `PaymentAllocation::residualOf`. -/
def residualOf (db : StatementDb) (id : ℤ) (m : StatementMove) : ℤ :=
  m.amountTotal - allocated db id fun _ => True

/-- A quantity over the partner's invoices dated up to a date. -/
def overDated (db : StatementDb) (partnerId last : ℤ) (f : ℤ → StatementMove → ℤ) : ℤ :=
  db.moves.sumOver fun id m => if isDated partnerId last m then f id m else 0

/-- The buckets add up to what was owed on the statement's date, or to the amount due
when it has none, and each invoice looked at is in one of them. -/
def AgesRight (db : StatementDb) (partnerId : ℤ) (s : Statement) : Prop :=
  (match s.dateTo with
    | some last => s.aging.sum = overDated db partnerId last (owedAt db last)
    | none => s.aging.sum = s.amountDue) ∧
  ∀ r ∈ db.moves.rows, isAged partnerId s.dateTo r.2 = true →
    ∃! b : Bucket, b.takes (s.dateTo.getD db.currentDate) r.2 = true

lemma owedAt_eq (db : StatementDb) (last id : ℤ) (m : StatementMove) :
    owedAt db last id m = residualOf db id m + allocated db id (last < ·) := by
  have hsplit : (allocated db id fun _ => True) =
      (allocated db id fun d => d ≤ last) + allocated db id (last < ·) := by
    unfold allocated
    rw [← sumOver_add]
    apply sumOver_congr
    intro r _
    rcases le_or_gt r.2.date last with hle | hgt
    · simp [hle, not_lt.mpr hle]
    · simp [hgt, not_le.mpr hgt]
  unfold owedAt residualOf
  omega

lemma overDated_add (db : StatementDb) (partnerId last : ℤ) (f g : ℤ → StatementMove → ℤ) :
    overDated db partnerId last (fun id m => f id m + g id m) =
      overDated db partnerId last f + overDated db partnerId last g := by
  unfold overDated
  rw [← sumOver_add]
  apply sumOver_congr
  intro r _
  split
  · rfl
  · rfl

/-- An invoice that is dated has a day to be due. -/
lemma dueOn_of_isDated {last : ℤ} (h : isDated partnerId last m = true) :
    (dueOn m).isSome = true := by
  have hdate := (Bool.and_eq_true_iff.mp h).2
  rcases hinvoice : m.invoiceDate with - | d
  · simp [upTo, hinvoice] at hdate
  · unfold dueOn
    rw [hinvoice]
    cases m.dueDate with
    | none => rfl
    | some _ => rfl

lemma isAged_some {last : ℤ} :
    isAged partnerId (some last) m = (isDated partnerId last m && m.amountResidual != 0) := by
  unfold isAged isDated
  rw [Bool.and_assoc, Bool.and_assoc, Bool.and_comm (m.amountResidual != 0)]

/-- With a date, the buckets add up to the residuals of the invoices dated up to it. -/
lemma agedResidual_some (last : ℤ) : agedResidual db partnerId (some last) =
    overDated db partnerId last fun _ m => m.amountResidual := by
  apply sumOver_congr
  rintro ⟨id, m⟩ -
  rw [isAged_some]
  by_cases hdated : isDated partnerId last m = true
  · by_cases hzero : m.amountResidual = 0
    · simp [hzero]
    · simp [hdated, hzero, dueOn_of_isDated hdated]
  · simp [hdated]

/-- Without a date they add up to the amount due when every residual has a day. -/
lemma agedResidual_none (h : ∀ r ∈ db.moves.rows, isAged partnerId none r.2 = true →
    (dueOn r.2).isSome = true) : agedResidual db partnerId none =
      db.moves.sumOver fun _ m => if isInvoice partnerId m then m.amountResidual else 0 := by
  apply sumOver_congr
  intro r hr
  have hdue := h r hr
  have hall : upTo StatementMove.invoiceDate none r.2 = true := rfl
  unfold isAged at hdue ⊢
  rw [hall, Bool.and_true] at hdue ⊢
  by_cases hinvoice : isInvoice partnerId r.2 = true
  · by_cases hzero : r.2.amountResidual = 0
    · simp [hzero]
    · have haged : (isInvoice partnerId r.2 && r.2.amountResidual != 0) = true := by
        simp [hinvoice, hzero]
      rw [if_pos ⟨haged, hdue haged⟩, if_pos hinvoice]
  · simp [hinvoice]

/-! ### When the ageing is that of the date -/

/-- What is allocated after the date is what the residuals have above those that are
derived; without a date, every residual has a day to be due. -/
def ResidualsOfDate (db : StatementDb) (partnerId : ℤ) : Option ℤ → Prop
  | some last =>
      overDated db partnerId last (fun id _ => allocated db id (last < ·)) =
        overDated db partnerId last fun id m => m.amountResidual - residualOf db id m
  | none => ∀ r ∈ db.moves.rows, isAged partnerId none r.2 = true → (dueOn r.2).isSome = true

lemma build_aging {dateInput : String → Except String ℤ} {dateFrom dateTo : String}
    {s : Statement} (h : build db partnerId dateInput dateFrom dateTo = .ok s) :
    readDate dateInput dateTo = .ok s.dateTo ∧ aging db partnerId s.dateTo = .ok s.aging ∧
      s.amountDue =
        db.moves.sumOver fun _ m => if isInvoice partnerId m then m.amountResidual else 0 := by
  obtain ⟨first, -, h⟩ := bind_ok_iff.mp h
  obtain ⟨last, hlast, h⟩ := bind_ok_iff.mp h
  obtain ⟨opening, -, h⟩ := bind_ok_iff.mp h
  obtain ⟨a, ha, h⟩ := bind_ok_iff.mp h
  obtain ⟨due, hdue, h⟩ := bind_ok_iff.mp h
  cases h
  exact ⟨hlast, ha, (bigint_ok_iff.mp hdue).2.symm⟩

/-- **The ageing is that of the statement's date exactly when nothing has been allocated
since that residuals do not have.** -/
theorem ages_right_iff {dateInput : String → Except String ℤ} {dateFrom dateTo : String}
    {s : Statement} (h : build db partnerId dateInput dateFrom dateTo = .ok s) :
    AgesRight db partnerId s ↔ ResidualsOfDate db partnerId s.dateTo := by
  obtain ⟨-, haging, hdue⟩ := build_aging h
  have hsum := aging_sum haging
  unfold AgesRight
  simp only [exists_unique_bucket]
  rcases hdate : s.dateTo with - | last
  · rw [hdate] at hsum
    constructor
    · exact fun hright => hright.2
    · intro hdays
      refine ⟨?_, hdays⟩
      rw [hsum, hdue]
      exact agedResidual_none hdays
  · rw [hdate] at hsum
    have howed : overDated db partnerId last (owedAt db last) =
        overDated db partnerId last (residualOf db) +
          overDated db partnerId last fun id _ => allocated db id (last < ·) := by
      rw [← overDated_add]
      congr 1
      funext id m
      exact owedAt_eq db last id m
    have hresidual : overDated db partnerId last (fun _ m => m.amountResidual) =
        overDated db partnerId last (fun id m => m.amountResidual - residualOf db id m) +
          overDated db partnerId last (residualOf db) := by
      rw [← overDated_add]
      congr 1
      funext id m
      omega
    have hbuckets : s.aging.sum = overDated db partnerId last fun _ m => m.amountResidual := by
      rw [hsum, agedResidual_some]
    have hdays : ∀ r ∈ db.moves.rows, isAged partnerId (some last) r.2 = true →
        (dueOn r.2).isSome = true := by
      intro r _ haged
      rw [isAged_some] at haged
      exact dueOn_of_isDated (Bool.and_eq_true_iff.mp haged).1
    show (s.aging.sum = _ ∧ _) ↔ overDated _ _ _ _ = overDated _ _ _ _
    rw [hbuckets, howed, hresidual]
    constructor
    · rintro ⟨heq, -⟩
      omega
    · intro heq
      exact ⟨by omega, hdays⟩

/-- What is paid in February is missing from the ageing of January. -/
theorem january_not_outstanding : ∃ s,
    build halfPaid 1 dayOf "" "2026-01-31" = .ok s ∧ s.aging.sum = 50000000 ∧
      overDated halfPaid 1 20484 (owedAt halfPaid 20484) = 100000000 ∧
      ¬ AgesRight halfPaid 1 s := by
  have hrun : ((build halfPaid 1 dayOf "" "2026-01-31").toOption.any fun s =>
      decide (s.dateTo = some 20484 ∧ s.aging.sum = 50000000)) = true := by
    decide
  obtain ⟨s, hs, hsum⟩ := (any_eq_true _ _).mp hrun
  obtain ⟨hdate, hsum⟩ := of_decide_eq_true hsum
  have howed : overDated halfPaid 1 20484 (owedAt halfPaid 20484) = 100000000 := by
    decide
  refine ⟨s, toOption_eq_some_iff.mp hs, hsum, howed, ?_⟩
  rintro ⟨hright, -⟩
  rw [hdate] at hright
  have hwrong : s.aging.sum = 100000000 := hright.trans howed
  rw [hsum] at hwrong
  exact absurd hwrong (by decide)

/-- A statement of February has everything. -/
theorem ages_right_february : ∃ s,
    build halfPaid 1 dayOf "" "2026-02-28" = .ok s ∧ AgesRight halfPaid 1 s := by
  have hrun : ((build halfPaid 1 dayOf "" "2026-02-28").toOption.any fun s =>
      decide (s.dateTo = some 20512)) = true := by
    decide
  obtain ⟨s, hs, hdate⟩ := (any_eq_true _ _).mp hrun
  have hbuild := toOption_eq_some_iff.mp hs
  refine ⟨s, hbuild, (ages_right_iff hbuild).mpr ?_⟩
  rw [of_decide_eq_true hdate]
  show overDated _ _ _ _ = overDated _ _ _ _
  decide

end PortalStatement

end CErp
