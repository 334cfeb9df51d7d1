/-
The figures of a taxed line: which of them are rounded to the document's
precision, and what they keep of the quoted price.

Every step of the computation rounds, but one.  Where the inclusive taxes have
no rate, the untaxed amount is the gross amount less the fixed charges, and these
come from a product at full scale: `figures_rounded_iff` says that this is the
only way for a figure to miss the precision.

`quoted_price_kept` is about the quoted price.  The inclusive tax is derived by
subtraction, so the gross amount comes back whatever was rounded; the untaxed
amount is the exact quotient rounded once; and no total depends on the order of
the taxes.
-/
import CErp.TaxAccuracy
import Mathlib.Algebra.BigOperators.Ring.Finset

namespace CErp

open Outcome List Money

namespace TaxEngine

/-- The charges of the inclusive taxes that are no percentages, added up. -/
def includedCharge (quantity : Money) (taxes : List TaxDef) : ℤ :=
  ((inclusiveTaxes taxes).map (chargeOf quantity)).sum

/-- The components of the inclusive taxes come first. -/
def inclusivePart (taxes : List TaxDef) (c : TaxComputation) : List TaxComponent :=
  c.components.take (inclusiveTaxes taxes).length

def exclusivePart (taxes : List TaxDef) (c : TaxComputation) : List TaxComponent :=
  c.components.drop (inclusiveTaxes taxes).length

def amountsOf (components : List TaxComponent) : ℤ := (components.map (·.amount.micros)).sum

/-- Every figure of a line is a whole number of the precision's steps. -/
structure Rounded (dp : ℤ) (c : TaxComputation) : Prop where
  baseExcluded : Money.step dp ∣ c.baseExcluded.micros
  components : ∀ x ∈ c.components, Money.step dp ∣ x.amount.micros
  totalTax : Money.step dp ∣ c.totalTax.micros
  totalIncluded : Money.step dp ∣ c.totalIncluded.micros

/-- A line keeps the price it was quoted at. -/
structure KeepsPrice (quantity : Money) (taxes : List TaxDef) (dp : ℤ) (gross : Money)
    (c : TaxComputation) : Prop where
  ofTaxes : c.components.map (·.taxId) = (inOrder taxes).map (·.id)
  quoted : c.totalIncluded.micros - amountsOf (exclusivePart taxes c) = gross.micros
  shared : amountsOf (inclusivePart taxes c) = gross.micros - c.baseExcluded.micros
  untaxed : includedRate taxes ≠ 0 → c.baseExcluded.micros =
    Money.rounded dp ((gross.micros - includedCharge quantity taxes) * 100 /
      (100 + includedRate taxes / 1000000))

/-! ### What every part is a multiple of -/

lemma grossAmount_dvd {priceUnit quantity discountPct gross : Money} {dp : ℤ}
    (h : grossAmount priceUnit quantity discountPct dp = .ok gross) :
    Money.step dp ∣ gross.micros := by
  obtain ⟨whole, -, h⟩ := bind_ok_iff.mp h
  split at h
  · obtain ⟨off, -, h⟩ := bind_ok_iff.mp h
    obtain ⟨net, -, h⟩ := bind_ok_iff.mp h
    exact step_dvd_of_roundTo h
  · exact step_dvd_of_roundTo h

variable {base : Money}

lemma inclusiveBase_dvd {ccy : ℤ} {gross rateSum fixedSum : Money} {dp : ℤ}
    (h : inclusiveBase ccy gross rateSum fixedSum dp = .ok base) (hne : rateSum.micros ≠ 0) :
    Money.step dp ∣ base.micros := by
  obtain ⟨grossForPct, -, h⟩ := bind_ok_iff.mp h
  rw [if_pos hne] at h
  obtain ⟨divisor, -, h⟩ := bind_ok_iff.mp h
  obtain ⟨numerator, -, h⟩ := bind_ok_iff.mp h
  exact step_dvd_of_roundTo h

/-- Without a rate nothing rounds what the fixed charges leave. -/
lemma inclusiveBase_of_no_rate {ccy : ℤ} {gross rateSum fixedSum : Money} {dp : ℤ}
    (h : inclusiveBase ccy gross rateSum fixedSum dp = .ok base) (hzero : rateSum.micros = 0) :
    base.micros = gross.micros - fixedSum.micros := by
  obtain ⟨grossForPct, hsub, h⟩ := bind_ok_iff.mp h
  rw [if_neg (not_not.mpr hzero)] at h
  cases h
  exact sub_micros hsub

lemma inclusiveShare_dvd {ccy : ℤ} {quantity rateSum includedTax share : Money} {dp : ℤ}
    {t : TaxDef} (h : inclusiveShare ccy quantity rateSum includedTax dp t = .ok share) :
    Money.step dp ∣ share.micros := by
  unfold inclusiveShare at h
  split at h
  · obtain ⟨charge, -, h⟩ := bind_ok_iff.mp h
    exact step_dvd_of_roundTo h
  · split at h
    · exact step_dvd_of_roundTo h
    · cases h
      exact dvd_zero _

variable {comps : List TaxComponent} {ts : List TaxDef}

/-- The last share is a multiple with the others when the inclusive tax is. -/
lemma inclusiveComponents_dvd {ccy : ℤ} {quantity rateSum includedTax : Money} {dp : ℤ}
    {allocated : Money}
    (h : inclusiveComponents ccy quantity rateSum includedTax base dp ts allocated = .ok comps)
    (htax : Money.step dp ∣ includedTax.micros) (hallocated : Money.step dp ∣ allocated.micros) :
    ∀ x ∈ comps, Money.step dp ∣ x.amount.micros := by
  induction ts generalizing allocated comps with
  | nil =>
      cases h
      intro x hx
      cases hx
  | cons t ts ih =>
      rcases ts with - | ⟨t', ts⟩
      · obtain ⟨share, hshare, h⟩ := bind_ok_iff.mp h
        obtain ⟨_, -, h⟩ := bind_ok_iff.mp h
        cases h
        rw [forall_mem_singleton]
        show Money.step dp ∣ share.micros
        rw [sub_micros hshare]
        exact dvd_sub htax hallocated
      · obtain ⟨share, hshare, h⟩ := bind_ok_iff.mp h
        obtain ⟨allocated', hadd, h⟩ := bind_ok_iff.mp h
        obtain ⟨rest, hrest, h⟩ := bind_ok_iff.mp h
        cases h
        have hown := inclusiveShare_dvd hshare
        rw [forall_mem_cons]
        refine ⟨hown, ih hrest ?_⟩
        rw [add_micros hadd]
        exact dvd_add hallocated hown

lemma exclusiveComponent_dvd {ccy : ℤ} {quantity : Money} {dp : ℤ}
    (h : ts.mapM (exclusiveComponent ccy quantity base dp) = .ok comps) :
    ∀ x ∈ comps, Money.step dp ∣ x.amount.micros := by
  have hall := mapM_ok_iff.mp h
  clear h
  induction hall with
  | nil =>
      intro x hx
      cases hx
  | cons hc _ ih =>
      obtain ⟨amt, rounded, -, hrounded, rfl⟩ := exclusiveComponent_ok hc
      rw [forall_mem_cons]
      exact ⟨step_dvd_of_roundTo hrounded, ih⟩

lemma dvd_amountsOf {d : ℤ} {components : List TaxComponent}
    (h : ∀ x ∈ components, d ∣ x.amount.micros) : d ∣ amountsOf components := by
  apply dvd_sum
  intro a ha
  obtain ⟨x, hx, rfl⟩ := mem_map.mp ha
  exact h x hx

/-! ### The precision of the figures -/

section Parts

variable {ccy dp : ℤ} {quantity gross rateSum fixedSum includedTax : Money} {taxes : List TaxDef}
variable {c : TaxComputation} {inclusive exclusive : List TaxComponent}

lemma Parts.rate_eq
    (parts : Parts ccy quantity dp taxes gross c rateSum fixedSum includedTax inclusive exclusive) :
    rateSum.micros = includedRate taxes := by
  rw [(includedSums_ok parts.sums).1]
  exact Int.zero_add _

lemma Parts.charge_eq
    (parts : Parts ccy quantity dp taxes gross c rateSum fixedSum includedTax inclusive exclusive) :
    fixedSum.micros = includedCharge quantity taxes := by
  rw [(includedSums_ok parts.sums).2]
  exact Int.zero_add _

/-- All figures are rounded as soon as the untaxed amount is. -/
lemma Parts.rounded
    (parts : Parts ccy quantity dp taxes gross c rateSum fixedSum includedTax inclusive exclusive)
    (hgross : Money.step dp ∣ gross.micros) (hbase : Money.step dp ∣ c.baseExcluded.micros) :
    Rounded dp c := by
  have hinclusive : ∀ x ∈ inclusive, Money.step dp ∣ x.amount.micros := by
    by_cases hnone : inclusiveTaxes taxes = []
    · have hshares := parts.shares
      rw [hnone] at hshares
      cases hshares
      intro x hx
      cases hx
    · obtain ⟨-, htax⟩ := parts.base hnone
      refine inclusiveComponents_dvd parts.shares ?_ (dvd_zero _)
      rw [sub_micros htax]
      exact dvd_sub hgross hbase
  have hcomponents : ∀ x ∈ c.components, Money.step dp ∣ x.amount.micros := by
    rw [parts.components]
    intro x hx
    rcases mem_append.mp hx with hx | hx
    · exact hinclusive x hx
    · exact exclusiveComponent_dvd parts.onTop x hx
  have htotal : Money.step dp ∣ c.totalTax.micros := by
    rw [parts.totalTax]
    exact dvd_amountsOf hcomponents
  refine ⟨hbase, hcomponents, htotal, ?_⟩
  rw [parts.totalIncluded]
  exact dvd_add hbase htotal

end Parts

/-- **The figures are rounded** to the precision exactly when no tax is
inclusive, or the inclusive percentages have a rate, or the inclusive charges are
a multiple of the precision's step themselves. -/
theorem figures_rounded_iff {priceUnit quantity discountPct : Money} {taxes : List TaxDef} {dp : ℤ}
    {c : TaxComputation} (h : compute priceUnit quantity discountPct taxes dp = .ok c) :
    Rounded dp c ↔ inclusiveTaxes taxes = [] ∨ includedRate taxes ≠ 0 ∨
      Money.step dp ∣ includedCharge quantity taxes := by
  obtain ⟨gross, hgross, rateSum, fixedSum, includedTax, inclusive, exclusive, parts⟩ :=
    compute_parts h
  have hgross := grossAmount_dvd hgross
  have hrate := parts.rate_eq
  by_cases hnone : inclusiveTaxes taxes = []
  · have hbase := parts.unshared hnone
    exact ⟨fun _ => .inl hnone, fun _ => parts.rounded hgross (by rw [hbase]; exact hgross)⟩
  obtain ⟨hbase, -⟩ := parts.base hnone
  by_cases hzero : includedRate taxes = 0
  · have hleft := inclusiveBase_of_no_rate hbase (hrate.trans hzero)
    rw [parts.charge_eq] at hleft
    constructor
    · intro hrounded
      have hdvd := hrounded.baseExcluded
      rw [hleft] at hdvd
      exact .inr (.inr ((dvd_sub_right hgross).mp hdvd))
    · rintro (hempty | hsome | hdvd)
      · exact absurd hempty hnone
      · exact absurd hzero hsome
      · apply parts.rounded hgross
        rw [hleft]
        exact dvd_sub hgross hdvd
  · have hdvd := inclusiveBase_dvd hbase (by rw [hrate]; exact hzero)
    exact ⟨fun _ => .inr (.inl hzero), fun _ => parts.rounded hgross hdvd⟩

/-- A fee of 0.333333 a unit, included in the price. -/
def includedFee : TaxDef :=
  { id := 1, rate := ⟨333333, 0⟩, amountType := .fixed, priceInclude := true }

/-- 100.00 with such a fee has an untaxed amount of 99.666667. -/
theorem included_fee_unrounded :
    ∃ c, compute ⟨100000000, 0⟩ ⟨1000000, 0⟩ ⟨0, 0⟩ [includedFee] 2 = .ok c ∧
      ¬ Rounded 2 c ∧ ¬ Money.step 2 ∣ c.baseExcluded.micros ∧
        ∃ x ∈ c.components, ¬ Money.step 2 ∣ x.amount.micros := by
  refine ⟨⟨⟨99666667, 0⟩, ⟨333333, 0⟩, ⟨100000000, 0⟩, [⟨1, "", ⟨99666667, 0⟩, ⟨333333, 0⟩⟩]⟩,
    by decide, ?_, by decide, _, mem_singleton_self _, by decide⟩
  intro h
  exact absurd h.baseExcluded (by decide)

/-- 115.00 with 10 % and a fee of 5.00 included: the rate rounds the figures. -/
theorem figures_rounded_tenAndFee :
    ∃ c, compute ⟨115000000, 0⟩ ⟨1000000, 0⟩ ⟨0, 0⟩ tenAndFee 2 = .ok c ∧ Rounded 2 c := by
  obtain ⟨c, hc⟩ := exists_ok
    (show (compute ⟨115000000, 0⟩ ⟨1000000, 0⟩ ⟨0, 0⟩ tenAndFee 2).isOk = true by decide)
  exact ⟨c, hc, (figures_rounded_iff hc).mpr (.inr (.inl (by decide)))⟩

/-! ### The quoted price -/

/-- The sums of the inclusive taxes are dimensionless and of the line's
currency. -/
lemma includedSums_currency {ccy : ℤ} {quantity : Money}
    {rateSum fixedSum rateSum' fixedSum' : Money}
    (h : includedSums ccy quantity ts rateSum fixedSum = .ok (rateSum', fixedSum')) :
    rateSum'.currencyId = rateSum.currencyId ∧ fixedSum'.currencyId = fixedSum.currencyId := by
  induction ts generalizing rateSum fixedSum with
  | nil =>
      cases h
      exact ⟨rfl, rfl⟩
  | cons t ts ih =>
      unfold includedSums at h
      split at h
      · obtain ⟨r, hr, h⟩ := bind_ok_iff.mp h
        obtain ⟨hrates, hcharges⟩ := ih h
        rw [add_ok hr] at hrates
        exact ⟨hrates, hcharges⟩
      · obtain ⟨charge, -, h⟩ := bind_ok_iff.mp h
        obtain ⟨f, hf, h⟩ := bind_ok_iff.mp h
        obtain ⟨hrates, hcharges⟩ := ih h
        rw [add_ok hf] at hcharges
        exact ⟨hrates, hcharges⟩

/-- The untaxed amount is the exact quotient, rounded once. -/
lemma inclusiveBase_rounded {ccy : ℤ} {gross rateSum fixedSum : Money} {dp : ℤ}
    (h : inclusiveBase ccy gross rateSum fixedSum dp = .ok base) (hne : rateSum.micros ≠ 0)
    (hrate : 0 ≤ rateSum.micros) (hdp : ¬ dp ≥ SCALE) :
    base.micros = Money.rounded dp ((gross.micros - fixedSum.micros) * 100 /
      (100 + rateSum.micros / 1000000)) := by
  obtain ⟨grossForPct, hsub, h⟩ := bind_ok_iff.mp h
  rw [if_pos hne] at h
  obtain ⟨divisor, hdivisor, h⟩ := bind_ok_iff.mp h
  obtain ⟨numerator, hnumerator, h⟩ := bind_ok_iff.mp h
  obtain ⟨rate, hrate⟩ : ∃ rate : ℕ, rateSum.micros = rate := Int.eq_ofNat_of_zero_le hrate
  obtain ⟨hmin, hmax⟩ := sub_range hsub
  have hden : (0 : ℤ) < 100000000 + rate := by omega
  obtain ⟨hlow, hhigh⟩ := @tdiv_range grossForPct.micros 100000000 (100000000 + rate) hmin hmax
    (by decide) (by omega) hden
  rw [inclusiveQuotient hdivisor hnumerator, hrate] at h
  have hbase := @roundTo_tdiv _ _ _ (grossForPct.micros * 100000000) (100000000 + rate)
    (by omega) (money_micros hlow hhigh) hdp h
  rw [hbase, hrate, sub_micros hsub]
  congr 1
  push_cast
  field_simp
  ring

/-- What a tax adds on top of a base it can be computed on. -/
def amountOnTop (ccy : ℤ) (quantity base : Money) (dp : ℤ) (t : TaxDef) : ℤ :=
  match exclusiveComponent ccy quantity base dp t with
  | .ok x => x.amount.micros
  | .error _ => 0

lemma exclusive_amounts {ccy : ℤ} {quantity : Money} {dp : ℤ}
    (h : ts.mapM (exclusiveComponent ccy quantity base dp) = .ok comps) :
    amountsOf comps = (ts.map (amountOnTop ccy quantity base dp)).sum ∧
      comps.map (·.taxId) = ts.map (·.id) := by
  have hall := mapM_ok_iff.mp h
  clear h
  induction hall with
  | nil => exact ⟨rfl, rfl⟩
  | @cons t x ts comps hx _ ih =>
      obtain ⟨hsum, hids⟩ := ih
      have hid : x.taxId = t.id := by
        obtain ⟨_, _, -, -, rfl⟩ := exclusiveComponent_ok hx
        rfl
      have hamount : amountOnTop ccy quantity base dp t = x.amount.micros := by
        rw [amountOnTop, hx]
      unfold amountsOf at *
      rw [map_cons, map_cons, sum_cons, sum_cons, hsum, hamount, map_cons, map_cons, hids, hid]
      exact ⟨rfl, rfl⟩

section Parts

variable {ccy dp : ℤ} {quantity gross rateSum fixedSum includedTax : Money} {taxes : List TaxDef}
variable {c : TaxComputation} {inclusive exclusive : List TaxComponent}

/-- The shares of the inclusive taxes add up to what the price holds of tax. -/
lemma Parts.shares_sum
    (parts : Parts ccy quantity dp taxes gross c rateSum fixedSum includedTax inclusive exclusive)
    (hsome : inclusiveTaxes taxes ≠ []) :
    amountsOf inclusive = gross.micros - c.baseExcluded.micros := by
  obtain ⟨hshared, -⟩ := inclusiveComponents_ok hsome parts.shares
  have hsum := hshared.sum_eq
  have hcast : (inclusive.map fun x => (x.amount.micros : ℚ)) =
      (inclusive.map (·.amount.micros)).map (Int.cast : ℤ → ℚ) := by
    rw [map_map]
    rfl
  rw [hcast, ← Int.cast_list_sum] at hsum
  have hsum : amountsOf inclusive = includedTax.micros - 0 := by exact_mod_cast hsum
  rw [hsum, Int.sub_zero, sub_micros (parts.base hsome).2]

lemma Parts.inclusive_ids
    (parts : Parts ccy quantity dp taxes gross c rateSum fixedSum includedTax inclusive exclusive) :
    inclusive.map (·.taxId) = (inclusiveTaxes taxes).map (·.id) := by
  by_cases hnone : inclusiveTaxes taxes = []
  · have hshares := parts.shares
    rw [hnone] at hshares ⊢
    cases hshares
    rfl
  · have hids := (inclusiveComponents_ok hnone parts.shares).2
    clear parts hnone
    generalize inclusiveTaxes taxes = ts at hids
    induction hids with
    | nil => rfl
    | cons hid _ ih => rw [map_cons, map_cons, hid, ih]

lemma Parts.parts_eq
    (parts : Parts ccy quantity dp taxes gross c rateSum fixedSum includedTax inclusive exclusive) :
    inclusivePart taxes c = inclusive ∧ exclusivePart taxes c = exclusive := by
  have hlength : inclusive.length = (inclusiveTaxes taxes).length := by
    have hids := congrArg length parts.inclusive_ids
    rwa [length_map, length_map] at hids
  unfold inclusivePart exclusivePart
  rw [parts.components, ← hlength, take_left, drop_left]
  exact ⟨rfl, rfl⟩

lemma Parts.keepsPrice
    (parts : Parts ccy quantity dp taxes gross c rateSum fixedSum includedTax inclusive exclusive)
    (hrates : ∀ t ∈ taxes, 0 ≤ t.rate.micros) (hdp : ¬ dp ≥ SCALE)
    (hsome : inclusiveTaxes taxes ≠ []) : KeepsPrice quantity taxes dp gross c := by
  obtain ⟨hinclusive, hexclusive⟩ := parts.parts_eq
  have hshared := parts.shares_sum hsome
  refine ⟨?_, ?_, ?_, ?_⟩
  · rw [parts.components, map_append, parts.inclusive_ids, (exclusive_amounts parts.onTop).2,
      ← map_append]
    rfl
  · have hall : (c.components.map (·.amount.micros)).sum = amountsOf inclusive + amountsOf exclusive := by
      rw [parts.components, map_append, sum_append]
      rfl
    rw [parts.totalIncluded, parts.totalTax, hall, hshared, hexclusive]
    show c.baseExcluded.micros + (gross.micros - c.baseExcluded.micros + amountsOf exclusive) -
      amountsOf exclusive = gross.micros
    omega
  · rw [hinclusive, hshared]
  · intro hne
    have hbase := (parts.base hsome).1
    rw [← parts.rate_eq] at hne ⊢
    rw [← parts.charge_eq]
    refine inclusiveBase_rounded hbase hne ?_ hdp
    rw [parts.rate_eq]
    apply sum_nonneg
    intro x hx
    obtain ⟨t, ht, rfl⟩ := mem_map.mp hx
    exact rateOf_nonneg (hrates t (mem_inclusiveTaxes ht))

end Parts

variable {taxes : List TaxDef}

/-- The taxes of a permuted list are the same ones, kind by kind. -/
lemma filter_sorted_perm {taxes' : List TaxDef} (hperm : taxes.Perm taxes') (p : TaxDef → Bool) :
    ((taxes.insertionSort fun a b => a.sequence ≤ b.sequence).filter p).Perm
      ((taxes'.insertionSort fun a b => a.sequence ≤ b.sequence).filter p) := by
  apply Perm.filter
  have hsorted := perm_insertionSort (fun a b : TaxDef => a.sequence ≤ b.sequence) taxes
  have hsorted' := perm_insertionSort (fun a b : TaxDef => a.sequence ≤ b.sequence) taxes'
  exact (hsorted.trans hperm).trans hsorted'.symm

lemma inclusiveTaxes_ne_nil_iff :
    inclusiveTaxes taxes ≠ [] ↔ ∃ t ∈ taxes, t.priceInclude = true := by
  rw [ne_eq, inclusiveTaxes, filter_eq_nil_iff]
  simp [(perm_insertionSort _ taxes).mem_iff]

/-- No total of a line depends on the order of its taxes. -/
lemma Parts.order_free {ccy dp : ℤ} {quantity gross : Money} {taxes' : List TaxDef}
    {c c' : TaxComputation} {rateSum fixedSum includedTax rateSum' fixedSum' includedTax' : Money}
    {inclusive exclusive inclusive' exclusive' : List TaxComponent}
    (parts : Parts ccy quantity dp taxes gross c rateSum fixedSum includedTax inclusive exclusive)
    (parts' : Parts ccy quantity dp taxes' gross c' rateSum' fixedSum' includedTax' inclusive'
      exclusive')
    (hperm : taxes.Perm taxes') (hsome : inclusiveTaxes taxes ≠ []) :
    c'.baseExcluded = c.baseExcluded ∧ c'.totalTax = c.totalTax ∧
      c'.totalIncluded = c.totalIncluded := by
  have hincluded : (inclusiveTaxes taxes).Perm (inclusiveTaxes taxes') := filter_sorted_perm hperm _
  have hsome' : inclusiveTaxes taxes' ≠ [] := by
    intro hnone
    rw [hnone] at hincluded
    exact hsome hincluded.eq_nil
  -- the sums over the inclusive taxes are the same amounts
  have hrate : rateSum' = rateSum := by
    have hvalue : rateSum'.micros = rateSum.micros := by
      rw [parts.rate_eq, parts'.rate_eq]
      exact (hincluded.map rateOf).sum_eq.symm
    have hccy := (includedSums_currency parts'.sums).1.trans (includedSums_currency parts.sums).1.symm
    cases rateSum
    cases rateSum'
    cases hvalue
    cases hccy
    rfl
  have hfixed : fixedSum' = fixedSum := by
    have hvalue : fixedSum'.micros = fixedSum.micros := by
      rw [parts.charge_eq, parts'.charge_eq]
      exact (hincluded.map (chargeOf quantity)).sum_eq.symm
    have hccy := (includedSums_currency parts'.sums).2.trans (includedSums_currency parts.sums).2.symm
    cases fixedSum
    cases fixedSum'
    cases hvalue
    cases hccy
    rfl
  have hbase : c'.baseExcluded = c.baseExcluded := by
    have heq := (parts'.base hsome').1
    rw [hrate, hfixed, (parts.base hsome).1] at heq
    exact (Except.ok.inj heq).symm
  have hshared := parts.shares_sum hsome
  have hshared' := parts'.shares_sum hsome'
  have hontop := (exclusive_amounts parts.onTop).1
  have hontop' := (exclusive_amounts parts'.onTop).1
  rw [hbase] at hshared' hontop'
  have hexclusive : amountsOf exclusive' = amountsOf exclusive := by
    rw [hontop, hontop']
    exact ((filter_sorted_perm hperm fun t => !t.priceInclude).map _).sum_eq.symm
  have htotal : c'.totalTax = c.totalTax := by
    rw [parts.totalTax, parts'.totalTax, parts.components, parts'.components, map_append,
      map_append, sum_append, sum_append]
    unfold amountsOf at *
    rw [hshared, hshared', hexclusive]
  refine ⟨hbase, htotal, ?_⟩
  rw [parts.totalIncluded, parts'.totalIncluded, hbase, htotal]

/-- **The quoted price is kept.**  What the exclusive taxes did not add is the
gross amount, the inclusive taxes share what the untaxed amount leaves of it, the
untaxed amount is the exact one rounded once, and the totals are the same in
whatever order the taxes are given. -/
theorem quoted_price_kept {priceUnit quantity discountPct : Money} {taxes : List TaxDef} {dp : ℤ}
    {c : TaxComputation} (h : compute priceUnit quantity discountPct taxes dp = .ok c)
    (hrates : ∀ t ∈ taxes, 0 ≤ t.rate.micros) (hdp : dp ≤ 5)
    (hsome : ∃ t ∈ taxes, t.priceInclude = true) :
    (∃ gross, grossAmount priceUnit quantity discountPct dp = .ok gross ∧
      KeepsPrice quantity taxes dp gross c) ∧
    ∀ taxes' c', taxes.Perm taxes' → compute priceUnit quantity discountPct taxes' dp = .ok c' →
      c'.baseExcluded = c.baseExcluded ∧ c'.totalTax = c.totalTax ∧
        c'.totalIncluded = c.totalIncluded := by
  obtain ⟨gross, hgross, rateSum, fixedSum, includedTax, inclusive, exclusive, parts⟩ :=
    compute_parts h
  have hsome := inclusiveTaxes_ne_nil_iff.mpr hsome
  have hdp : ¬ dp ≥ SCALE := by
    unfold SCALE
    omega
  refine ⟨⟨gross, hgross, parts.keepsPrice hrates hdp hsome⟩, ?_⟩
  intro taxes' c' hperm h'
  obtain ⟨gross', hgross', rateSum', fixedSum', includedTax', inclusive', exclusive', parts'⟩ :=
    compute_parts h'
  obtain rfl : gross' = gross := Except.ok.inj (hgross'.symm.trans hgross)
  exact parts.order_free parts' hperm hsome

/-- 115.00 with 10 %, a fee of 5.00 included and a levy on top, in two orders. -/
theorem quoted_price_kept_tenAndFee :
    ∃ c c', compute ⟨115000000, 0⟩ ⟨1000000, 0⟩ ⟨0, 0⟩ (levy :: tenAndFee) 2 = .ok c ∧
      compute ⟨115000000, 0⟩ ⟨1000000, 0⟩ ⟨0, 0⟩ (tenAndFee ++ [levy]) 2 = .ok c' ∧
      KeepsPrice ⟨1000000, 0⟩ (levy :: tenAndFee) 2 ⟨115000000, 0⟩ c ∧
      c'.baseExcluded = c.baseExcluded ∧ c'.totalTax = c.totalTax ∧
        c'.totalIncluded = c.totalIncluded := by
  obtain ⟨c, hc⟩ := exists_ok
    (show (compute ⟨115000000, 0⟩ ⟨1000000, 0⟩ ⟨0, 0⟩ (levy :: tenAndFee) 2).isOk = true by decide)
  obtain ⟨c', hc'⟩ := exists_ok
    (show (compute ⟨115000000, 0⟩ ⟨1000000, 0⟩ ⟨0, 0⟩ (tenAndFee ++ [levy]) 2).isOk = true by decide)
  obtain ⟨⟨gross, hgross, hkeeps⟩, horder⟩ := quoted_price_kept hc (by decide) (by decide) (by decide)
  have hvalue : grossAmount ⟨115000000, 0⟩ ⟨1000000, 0⟩ ⟨0, 0⟩ 2 = .ok ⟨115000000, 0⟩ := by decide
  obtain rfl : gross = ⟨115000000, 0⟩ := Except.ok.inj (hgross.symm.trans hvalue)
  exact ⟨c, c', hc, hc', hkeeps, horder _ c' (by decide) hc'⟩

end TaxEngine

end CErp
