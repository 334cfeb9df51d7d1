/-
What the transaction of a group can fail with, apart from a duplicate link.

None of it is taken for a duplicate: `isDuplicate` looks for two texts that both
have a `k` in them, and the few messages with a `k` are neither.
-/
import CErp.BilledGroups

namespace CErp

open Outcome Money TaxEngine ContractLine List

namespace RentalBilling

/-- A failure that is not taken for a duplicate. -/
def Quiet (what : String) : Prop := isDuplicate what = false

instance (what : String) : Decidable (Quiet what) := by
  unfold Quiet
  infer_instance

/-- A text without a `k` is no duplicate. -/
lemma quiet_of_notMem {what : String} (h : 'k' ∉ what.toList) : Quiet what := by
  have hin : ∀ text : String, 'k' ∈ text.toList → isIn text what = false := by
    intro text htext
    unfold isIn
    rw [decide_eq_false_iff_not]
    intro hpart
    exact h (hpart.subset htext)
  unfold Quiet isDuplicate
  rw [hin _ (by decide), hin _ (by decide)]
  rfl

/-- The names of the constraints have a `k` in them, and are no duplicate either. -/
lemma constraint_quiet {what : String}
    (h : what ∈ [AccountDb.foreignKeyViolation, "rental_contract_line_anchor_chk",
      "rental_cl_billing_months_chk", "rental_line_billing_interval_chk",
      "rental_contract_line_contract_id_fkey", "rental_contract_line_unit_id_fkey"]) :
    Quiet what := by
  revert what
  decide +kernel

lemma notMem_toString (n : ℤ) : 'k' ∉ (toString n).toList := by
  intro h
  exact absurd (Decimals.mem_toString h) (by decide)

/-! ### Amounts -/

lemma clampToInt64_quiet (v : ℤ) {what : String}
    (h : Quiet ("Money: " ++ what ++ " overflowed the representable range")) :
    FailsOnly Quiet (clampToInt64 v what) := by
  unfold clampToInt64
  split
  · exact failsOnly_error h
  · exact failsOnly_ok v

variable (a b : Money)

lemma requireSameCurrency_quiet {op : String} (h : 'k' ∉ op.toList) :
    FailsOnly Quiet (requireSameCurrency a b op) := by
  unfold requireSameCurrency
  split
  · apply failsOnly_error
    apply quiet_of_notMem
    simp only [String.toList_append, mem_append, not_or]
    refine ⟨⟨⟨⟨⟨⟨?_, h⟩, ?_⟩, notMem_toString _⟩, ?_⟩, notMem_toString _⟩, ?_⟩
    all_goals decide
  · exact failsOnly_ok ()

lemma add_quiet : FailsOnly Quiet (a.add b) :=
  failsOnly_bind (requireSameCurrency_quiet a b (by decide)) fun _ =>
    failsOnly_bind (clampToInt64_quiet _ (quiet_of_notMem (by decide))) fun _ => failsOnly_ok _

lemma sub_quiet : FailsOnly Quiet (a.sub b) :=
  failsOnly_bind (requireSameCurrency_quiet a b (by decide)) fun _ =>
    failsOnly_bind (clampToInt64_quiet _ (quiet_of_notMem (by decide))) fun _ => failsOnly_ok _

lemma mulQty_quiet : FailsOnly Quiet (a.mulQty b) :=
  failsOnly_bind (clampToInt64_quiet _ (quiet_of_notMem (by decide))) fun _ => failsOnly_ok _

lemma percent_quiet : FailsOnly Quiet (a.percent b) :=
  failsOnly_bind (clampToInt64_quiet _ (quiet_of_notMem (by decide))) fun _ => failsOnly_ok _

lemma roundTo_quiet (a : Money) (dp : ℤ) : FailsOnly Quiet (a.roundTo dp) := by
  unfold roundTo
  split
  · exact failsOnly_ok a
  · exact failsOnly_map _ (clampToInt64_quiet _ (quiet_of_notMem (by decide)))

/-! ### Taxes -/

variable (ccy : ℤ)

lemma fixedCharge_quiet (t : TaxDef) (quantity : Money) :
    FailsOnly Quiet (fixedCharge ccy t quantity) :=
  failsOnly_map _ (mulQty_quiet _ _)

variable (price quantity discount : Money)

lemma grossAmount_quiet (dp : ℤ) : FailsOnly Quiet (grossAmount price quantity discount dp) := by
  apply failsOnly_bind (mulQty_quiet price quantity)
  intro gross
  split
  · exact failsOnly_bind (percent_quiet _ _) fun off =>
      failsOnly_bind (sub_quiet _ _) fun net => roundTo_quiet net dp
  · exact roundTo_quiet gross dp

lemma includedSums_quiet (quantity : Money) (ts : List TaxDef) (rates charges : Money) :
    FailsOnly Quiet (includedSums ccy quantity ts rates charges) := by
  induction ts generalizing rates charges with
  | nil => exact failsOnly_ok _
  | cons t ts ih =>
      unfold includedSums
      split
      · exact failsOnly_bind (add_quiet _ _) fun rates => ih rates charges
      · exact failsOnly_bind (fixedCharge_quiet _ _ _) fun charge =>
          failsOnly_bind (add_quiet _ _) fun charges => ih rates charges

lemma inclusiveBase_quiet (gross rates charges : Money) (dp : ℤ) :
    FailsOnly Quiet (inclusiveBase ccy gross rates charges dp) := by
  apply failsOnly_bind (sub_quiet gross charges)
  intro rest
  split
  · exact failsOnly_bind (add_quiet _ _) fun divisor =>
      failsOnly_bind (mulQty_quiet _ _) fun numerator => roundTo_quiet _ dp
  · exact failsOnly_ok rest

lemma inclusiveShare_quiet (quantity rates tax : Money) (dp : ℤ) (t : TaxDef) :
    FailsOnly Quiet (inclusiveShare ccy quantity rates tax dp t) := by
  unfold inclusiveShare
  split
  · exact failsOnly_bind (fixedCharge_quiet _ _ _) fun charge => roundTo_quiet charge dp
  split
  · exact roundTo_quiet _ dp
  · exact failsOnly_ok _

lemma inclusiveComponents_quiet (quantity rates tax base : Money) (dp : ℤ) (ts : List TaxDef)
    (allocated : Money) :
    FailsOnly Quiet (inclusiveComponents ccy quantity rates tax base dp ts allocated) := by
  induction ts generalizing allocated with
  | nil => exact failsOnly_ok []
  | cons t ts ih =>
      rcases ts with - | ⟨t', ts⟩
      · exact failsOnly_bind (sub_quiet _ _) fun share =>
          failsOnly_bind (add_quiet _ _) fun _ => failsOnly_ok _
      · exact failsOnly_bind (inclusiveShare_quiet _ _ _ _ _ _) fun share =>
          failsOnly_bind (add_quiet _ _) fun allocated =>
            failsOnly_bind (ih allocated) fun rest => failsOnly_ok _

lemma exclusiveComponent_quiet (quantity base : Money) (dp : ℤ) (t : TaxDef) :
    FailsOnly Quiet (exclusiveComponent ccy quantity base dp t) := by
  unfold exclusiveComponent
  split
  · exact failsOnly_bind (fixedCharge_quiet _ _ _) fun amt =>
      failsOnly_bind (roundTo_quiet amt dp) fun _ => failsOnly_ok _
  · exact failsOnly_bind (percent_quiet _ _) fun amt =>
      failsOnly_bind (roundTo_quiet amt dp) fun _ => failsOnly_ok _

lemma compute_quiet (taxes : List TaxDef) (dp : ℤ) :
    FailsOnly Quiet (compute price quantity discount taxes dp) := by
  have hsum : ∀ {ccy : ℤ} {components : List TaxComponent},
      FailsOnly Quiet (sumAmounts ccy components) := by
    intro ccy components
    exact failsOnly_foldlM _ _ fun total c => add_quiet total c.amount
  have hend : ∀ {ccy : ℤ} {base : Money} {components : List TaxComponent}, FailsOnly Quiet (do
        let totalTax ← sumAmounts ccy components
        let totalIncluded ← base.add totalTax
        return (⟨base, totalTax, totalIncluded, components⟩ : TaxComputation)) := by
    intro ccy base components
    exact failsOnly_bind hsum fun total => failsOnly_bind (add_quiet _ _) fun _ => failsOnly_ok _
  apply failsOnly_bind (grossAmount_quiet _ _ _ _)
  intro gross
  split
  · exact failsOnly_ok _
  apply failsOnly_bind (includedSums_quiet _ _ _ _ _)
  rintro ⟨rates, charges⟩
  dsimp only
  split
  · refine failsOnly_bind (p := Quiet) (failsOnly_ok gross) fun base => ?_
    refine failsOnly_bind (p := Quiet) (failsOnly_ok _) fun tax => ?_
    exact failsOnly_bind (inclusiveComponents_quiet _ _ _ _ _ _ _ _) fun inclusive =>
      failsOnly_bind (failsOnly_mapM _ fun t => exclusiveComponent_quiet _ _ _ _ t) fun exclusive =>
        hend
  · apply failsOnly_bind (inclusiveBase_quiet _ _ _ _ _)
    intro base
    apply failsOnly_bind (sub_quiet _ _)
    intro tax
    exact failsOnly_bind (inclusiveComponents_quiet _ _ _ _ _ _ _ _) fun inclusive =>
      failsOnly_bind (failsOnly_mapM _ fun t => exclusiveComponent_quiet _ _ _ _ t) fun exclusive =>
        hend

/-! ### The steps of a group -/

section Bill

variable (D : Type) [JsonDouble D]

/-- What is wrong with a number of JSON is not taken for a duplicate. -/
def QuietDoubles : Prop := ∀ d : D, FailsOnly Quiet (JsonDouble.fromJson d)

variable {D}

lemma lineSubtotal_quiet (hquiet : QuietDoubles D) (db : AccountDb) (l : DueLine) :
    FailsOnly Quiet (lineSubtotal D db l) :=
  failsOnly_bind (hquiet _) fun _ => failsOnly_bind (hquiet _) fun _ =>
    failsOnly_bind (hquiet _) fun _ => failsOnly_bind (compute_quiet _ _ _ _ _) fun _ =>
      failsOnly_bind (hquiet _) fun _ => failsOnly_ok _

variable (db : AccountDb)

omit [JsonDouble D] in
lemma addLine_quiet (moveId : ℤ) (l : MoveLine) : FailsOnly Quiet (db.addLine moveId l) :=
  failsOnly_bind (failsOnly_require (constraint_quiet (by simp))) fun _ => failsOnly_ok _

lemma addLineTaxes_quiet (byTax : List (ℤ × ℤ)) (l : DueLine) :
    FailsOnly Quiet (addLineTaxes db byTax l) := by
  unfold addLineTaxes
  split
  · exact failsOnly_ok byTax
  · exact failsOnly_bind (compute_quiet _ _ _ _ _) fun res => failsOnly_ok _

lemma insertTax_quiet (g : DueGroup) (moveId : ℤ) (s : AccountDb × ℤ) (t : ℤ × ℤ) :
    FailsOnly Quiet (insertTax g moveId s t) := by
  unfold insertTax
  split
  · exact failsOnly_ok s
  split
  · exact failsOnly_ok s
  split
  · exact failsOnly_ok s
  · exact failsOnly_bind (addLine_quiet _ _ _) fun account => failsOnly_ok _

lemma header_quiet (g : DueGroup) : FailsOnly Quiet (header db g) := by
  have horThrow : ∀ {what : String} (o : Option ℤ), Quiet what → FailsOnly Quiet (orThrow what o) := by
    intro what o h
    cases o with
    | none => exact failsOnly_error h
    | some a => exact failsOnly_ok a
  have hjournal : FailsOnly Quiet (journalOf db g) := by
    unfold journalOf
    split
    · exact horThrow _ (quiet_of_notMem (by decide))
    · exact failsOnly_ok _
  exact failsOnly_bind hjournal fun journalId =>
    failsOnly_bind (horThrow _ (quiet_of_notMem (by decide))) fun arAccount =>
      failsOnly_bind (horThrow _ (quiet_of_notMem (by decide))) fun revAccount => failsOnly_ok _

/-! ### Lines that cannot be written -/

lemma partnerMatches_quiet (contracts : Table RentalContract) (l : ContractLine) :
    FailsOnly Quiet (partnerMatches contracts l) := by
  unfold partnerMatches
  split
  · apply failsOnly_require
    apply quiet_of_notMem
    simp only [String.toList_append, mem_append, not_or]
    refine ⟨⟨⟨⟨?_, notMem_toString _⟩, ?_⟩, notMem_toString _⟩, ?_⟩
    all_goals decide
  · exact failsOnly_ok ()

lemma checks_quiet (db : RentalDb) (l : ContractLine) : FailsOnly Quiet (checks db l) :=
  failsOnly_bind (failsOnly_require (quiet_of_notMem (by decide))) fun _ =>
    failsOnly_bind (failsOnly_require (constraint_quiet (by simp))) fun _ =>
      failsOnly_bind (failsOnly_require (constraint_quiet (by simp))) fun _ =>
        failsOnly_bind (failsOnly_require (constraint_quiet (by simp))) fun _ =>
          failsOnly_bind (failsOnly_require (constraint_quiet (by simp))) fun _ =>
            failsOnly_require (constraint_quiet (by simp))

/-- A line that its triggers and its constraints let be written. -/
def Movable (db : RentalDb) (id : ℤ) : Prop :=
  ∀ row ∈ db.lines.get? id, (partnerMatches db.contracts row).isOk = true ∧
      (checks db (row.inheritPartner db.contracts)).isOk = true

instance (db : RentalDb) (id : ℤ) : Decidable (Movable db id) := by
  unfold Movable
  infer_instance

/-- A line moves on to its next period when it can be written. -/
lemma advance_cases (now : RentalNow) (db : RentalDb) (g : DueGroup) (l : DueLine) :
    (Movable db l.id ∧ ∃ db', advance now db g l = .ok db') ∨
      (¬ Movable db l.id ∧ ∃ what, advance now db g l = .error what ∧ Quiet what) := by
  unfold advance Movable
  rcases e : db.lines.get? l.id with - | row
  · left
    exact ⟨fun row hrow => (nomatch hrow), db, rfl⟩
  -- the columns that are set are none that the triggers and the constraints look at
  have hchecks : ∀ next through, checks db
      (inheritPartner db.contracts
        { row with nextPeriodStart := next, invoicedThrough := through }) =
      checks db (row.inheritPartner db.contracts) := by
    intro next through
    unfold inheritPartner
    split
    · rfl
    · rfl
  have hrow : ∀ next through, RentalDb.updateRow now db
      [.nextPeriodStart next, .invoicedThrough through] l.id row = (do
        partnerMatches db.contracts row
        checks db (row.inheritPartner db.contracts)
        return inheritPartner db.contracts
          { row with nextPeriodStart := next, invoicedThrough := through }) := by
    intro next through
    rw [← hchecks next through]
    rfl
  dsimp only
  unfold RentalDb.updateLines RentalDb.updateOne
  rw [foldlM_cons]
  rw [e]
  dsimp only
  rw [hrow]
  rcases hmatches : partnerMatches db.contracts row with what | u
  · right
    refine ⟨?_, what, rfl, partnerMatches_quiet _ _ what hmatches⟩
    intro h
    have hok := (h row rfl).1
    rw [hmatches] at hok
    cases hok
  rcases hcheck : checks db (row.inheritPartner db.contracts) with what | u
  · right
    refine ⟨?_, what, rfl, checks_quiet _ _ what hcheck⟩
    intro h
    have hok := (h row rfl).2
    rw [hcheck] at hok
    cases hok
  · left
    refine ⟨?_, _, rfl⟩
    intro row' hrow'
    cases hrow'
    rw [hmatches, hcheck]
    exact ⟨rfl, rfl⟩

end Bill

end RentalBilling

end CErp
