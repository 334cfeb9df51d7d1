/-
How far the tax of a component is from the tax's own charge.

A fixed tax charges its rate a unit, a percentage its share of the untaxed
amount.  The inclusive taxes divide what is left of the gross amount, so the
rounding of the untaxed amount and of every other component ends in the last
one.  `tax_components_agree` bounds it: by a rounding step for each tax, and for
a percentage by as much of a step again as the inclusive rates add to the price.

The shares of the percentages are taken of the whole inclusive tax, fixed
charges included.  `FixedApart` keeps to the lists where that is no difference.
-/
import CErp.LastRemainder
import CErp.Rounding
import CErp.TaxEngine

namespace CErp

open LastRemainder Outcome List Money

namespace TaxEngine

/-! ### What a tax charges -/

/-- The taxes of a list in the order of their components. -/
def inOrder (taxes : List TaxDef) : List TaxDef :=
  let sorted := taxes.insertionSort fun a b => a.sequence ≤ b.sequence
  sorted.filter (·.priceInclude) ++ sorted.filter fun t => !t.priceInclude

/-- The inclusive taxes of a list, in their order. -/
def inclusiveTaxes (taxes : List TaxDef) : List TaxDef :=
  (taxes.insertionSort fun a b => a.sequence ≤ b.sequence).filter (·.priceInclude)

/-- The rate of a percentage. -/
def rateOf (t : TaxDef) : ℤ := if t.amountType = .percent then t.rate.micros else 0

/-- The charge of a fixed tax, in whole micro-units. -/
def chargeOf (quantity : Money) (t : TaxDef) : ℤ :=
  if t.amountType = .percent then 0
  else divRoundHalfAway (t.rate.micros * quantity.micros) ONE

/-- The inclusive rates of a list, added up. -/
def includedRate (taxes : List TaxDef) : ℤ := ((inclusiveTaxes taxes).map rateOf).sum

/-- A component agrees with its tax: it is within `n` rounding steps of a fixed
tax's charge, and within `n` steps and the given part of one of a percentage's. -/
def Agrees (quantity base : Money) (dp : ℤ) (n : ℕ) (rate : ℤ) (t : TaxDef) (c : TaxComponent) :
    Prop :=
  c.taxId = t.id ∧ (t.amountType = .fixed →
      |(c.amount.micros : ℚ) - t.rate.micros * quantity.micros / 1000000| ≤ n * Money.step dp) ∧
    (t.amountType = .percent → |(c.amount.micros : ℚ) - base.micros * t.rate.micros / 100000000| ≤
        (n + rate / 100000000) * Money.step dp)

/-- The fixed inclusive taxes charge nothing, or no percentage before the last
inclusive tax has a rate. -/
def FixedApart (quantity : Money) (taxes : List TaxDef) : Prop :=
  (∀ t ∈ inclusiveTaxes taxes, chargeOf quantity t = 0) ∨
    ∀ t ∈ (inclusiveTaxes taxes).dropLast, rateOf t = 0

/-! ### What the parts of the computation give -/

variable {ccy : ℤ}

/-- Narrowing keeps what is no larger than an amount. -/
lemma money_micros {v : ℤ} (hmin : int64Min ≤ v) (hmax : v ≤ int64Max) :
    (money ccy v).micros = v := by
  unfold int64Min at hmin
  unfold int64Max at hmax
  apply Int.bmod_eq_of_le
  · omega
  · omega

variable {quantity : Money} {t : TaxDef}

lemma fixedCharge_ok {m : Money} (h : fixedCharge ccy t quantity = .ok m) :
    m.micros = divRoundHalfAway (t.rate.micros * quantity.micros) ONE := by
  obtain ⟨v, hv, rfl⟩ := map_ok_iff.mp h
  obtain ⟨hmin, hmax, hvalue⟩ := mulQty_ok hv
  rw [money_micros hmin hmax, hvalue]

variable {rateSum : Money}

lemma includedSums_ok {ts : List TaxDef} {fixedSum rateSum' fixedSum' : Money}
    (h : includedSums ccy quantity ts rateSum fixedSum = .ok (rateSum', fixedSum')) :
    rateSum'.micros = rateSum.micros + (ts.map rateOf).sum ∧
      fixedSum'.micros = fixedSum.micros + (ts.map (chargeOf quantity)).sum := by
  induction ts generalizing rateSum fixedSum with
  | nil =>
      cases h
      simp
  | cons t ts ih =>
      rw [map_cons, map_cons, sum_cons, sum_cons]
      unfold includedSums at h
      split at h
      · next hpercent =>
          obtain ⟨r, hr, h⟩ := bind_ok_iff.mp h
          obtain ⟨hrates, hcharges⟩ := ih h
          rw [hrates, hcharges, add_micros hr, rateOf, chargeOf, if_pos hpercent, if_pos hpercent]
          omega
      · next hfixed =>
          obtain ⟨charge, hcharge, h⟩ := bind_ok_iff.mp h
          obtain ⟨f, hf, h⟩ := bind_ok_iff.mp h
          obtain ⟨hrates, hcharges⟩ := ih h
          rw [hrates, hcharges, add_micros hf, fixedCharge_ok hcharge, rateOf, chargeOf,
            if_neg hfixed, if_neg hfixed]
          omega

/-- A quotient of an amount by no less than its factor is within its range. -/
lemma tdiv_range {v num den : ℤ} (hmin : int64Min ≤ v) (hmax : v ≤ int64Max)
    (hnum : 0 ≤ num) (hle : num ≤ den) (hden : 0 < den) :
    int64Min ≤ (v * num).tdiv den ∧ (v * num).tdiv den ≤ int64Max := by
  obtain ⟨hhigh, hlow⟩ := tdiv_bounds (v * num) hden
  have hmin0 : int64Min ≤ 0 := by decide
  have hmax0 : 0 ≤ int64Max := by decide
  rcases le_total 0 v with hv | hv
  · have hprod : 0 ≤ v * num := Int.mul_nonneg hv hnum
    have hself : v * num ≤ v * den := Int.mul_le_mul_of_nonneg_left hle hv
    have hbelow : -1 * den < (v * num).tdiv den * den := by omega
    have habove : (v * num).tdiv den * den < (v + 1) * den := by
      rw [Int.add_mul, Int.one_mul]
      omega
    have hnonneg := Int.lt_of_mul_lt_mul_right hbelow hden.le
    have hself := Int.lt_of_mul_lt_mul_right habove hden.le
    omega
  · have hprod : v * num ≤ 0 := Int.mul_nonpos_of_nonpos_of_nonneg hv hnum
    have hself : v * den ≤ v * num := Int.mul_le_mul_of_nonpos_left hv hle
    have hbelow : (v - 1) * den < (v * num).tdiv den * den := by
      rw [Int.sub_mul, Int.one_mul]
      omega
    have habove : (v * num).tdiv den * den < 1 * den := by omega
    have hself := Int.lt_of_mul_lt_mul_right hbelow hden.le
    have hnonpos := Int.lt_of_mul_lt_mul_right habove hden.le
    omega

/-- The quotient the base is: the factor 100 cancels in it. -/
lemma inclusiveQuotient {grossForPct divisor numerator : Money}
    (hdivisor : ({ micros := 100 * ONE } : Money).add rateSum = .ok divisor)
    (hnumerator : grossForPct.mulQty { micros := 100 * ONE } = .ok numerator) :
    (numerator.micros * ONE).tdiv divisor.micros =
      (grossForPct.micros * 100000000).tdiv (100000000 + rateSum.micros) := by
  have hdivisor : divisor.micros = 100000000 + rateSum.micros := add_micros hdivisor
  obtain ⟨-, -, hnumerator⟩ := mulQty_ok hnumerator
  have hnumerator : numerator.micros = grossForPct.micros * 100 := by
    rw [hnumerator, ← @divRoundHalfAway_mul (grossForPct.micros * 100) ONE (by decide)]
    congr 1
    ring
  rw [hdivisor, hnumerator, ONE]
  congr 1
  ring

variable {base : Money} {dp : ℤ}

/-- The base is within a step of the price without its percentages. -/
lemma inclusiveBase_ok {gross fixedSum : Money}
    (h : inclusiveBase ccy gross rateSum fixedSum dp = .ok base) (hrate : 0 ≤ rateSum.micros) :
    |(base.micros : ℚ) - ((gross.micros - fixedSum.micros : ℤ) : ℚ) * 100000000 /
        (100000000 + rateSum.micros)| ≤ Money.step dp ∧
      (rateSum.micros = 0 → base.micros = gross.micros - fixedSum.micros) := by
  obtain ⟨grossForPct, hsub, h⟩ := bind_ok_iff.mp h
  have hgross := sub_micros hsub
  split at h
  · next hne =>
      obtain ⟨divisor, hdivisor, h⟩ := bind_ok_iff.mp h
      obtain ⟨numerator, hnumerator, h⟩ := bind_ok_iff.mp h
      obtain ⟨hmin, hmax⟩ := sub_range hsub
      have hden : 0 < 100000000 + rateSum.micros := by omega
      obtain ⟨hlow, hhigh⟩ := @tdiv_range grossForPct.micros 100000000 (100000000 + rateSum.micros)
        hmin hmax (by decide) (by omega) hden
      rw [inclusiveQuotient hdivisor hnumerator] at h
      have hnear := roundTo_tdiv_near hden (money_micros hlow hhigh) h
      rw [hgross] at hnear
      push_cast at hnear ⊢
      exact ⟨hnear, fun hzero => absurd hzero hne⟩
  · next hzero =>
      cases h
      have hzero : rateSum.micros = 0 := not_not.mp hzero
      refine ⟨?_, fun _ => hgross⟩
      rw [hzero, hgross]
      have hstep : (0 : ℚ) < Money.step dp := by exact_mod_cast step_pos dp
      simp [hstep.le]

/-! ### Inclusive taxes -/

/-- A share that is not the last is within a step of the tax's charge, taken of
the whole inclusive tax. -/
lemma inclusiveShare_near {includedTax share : Money}
    (h : inclusiveShare ccy quantity rateSum includedTax dp t = .ok share)
    (hkind : t.amountType = .percent ∨ t.amountType = .fixed) (hrate : 0 ≤ rateOf t)
    (hle : rateOf t ≤ rateSum.micros) (hmin : int64Min ≤ includedTax.micros)
    (hmax : includedTax.micros ≤ int64Max) :
    |(share.micros : ℚ) -
      (chargeOf quantity t + includedTax.micros * rateOf t / rateSum.micros)| ≤ Money.step dp := by
  have hstep : (0 : ℚ) < Money.step dp := by exact_mod_cast step_pos dp
  unfold inclusiveShare at h
  rcases hkind with hpercent | hfixed
  · have hrateOf : rateOf t = t.rate.micros := if_pos hpercent
    have hchargeOf : chargeOf quantity t = 0 := if_pos hpercent
    rw [if_neg (by rw [hpercent]; decide)] at h
    rw [hrateOf] at hrate hle
    rw [hrateOf, hchargeOf]
    push_cast
    rw [zero_add]
    split at h
    · next hne =>
        have hden : 0 < rateSum.micros := by omega
        obtain ⟨hlow, hhigh⟩ := tdiv_range hmin hmax hrate hle hden
        have hnear := roundTo_tdiv_near hden (money_micros hlow hhigh) h
        push_cast at hnear
        exact hnear
    · next hzero =>
        cases h
        rw [not_not.mp hzero]
        simp [hstep.le]
  · have hrateOf : rateOf t = 0 := if_neg (by rw [hfixed]; decide)
    rw [if_pos hfixed] at h
    obtain ⟨charge, hcharge, h⟩ := bind_ok_iff.mp h
    have hchargeOf : chargeOf quantity t = charge.micros := by
      rw [fixedCharge_ok hcharge]
      exact if_neg (by rw [hfixed]; decide)
    have hnear := roundTo_near h
    rw [hrateOf, hchargeOf]
    push_cast
    rw [mul_zero, zero_div, add_zero]
    linarith

/-- The components are shares of the inclusive tax, the last one the
remainder. -/
lemma inclusiveComponents_ok {includedTax : Money} {ts : List TaxDef} {allocated : Money}
    {comps : List TaxComponent} (hne : ts ≠ [])
    (h : inclusiveComponents ccy quantity rateSum includedTax base dp ts allocated = .ok comps) :
    Shared (fun t s => ∃ m, inclusiveShare ccy quantity rateSum includedTax dp t = .ok m ∧
        s = (m.micros : ℚ))
      (includedTax.micros - allocated.micros : ℚ) ts (comps.map fun c => (c.amount.micros : ℚ)) ∧
    Forall₂ (fun t c => c.taxId = t.id) ts comps := by
  induction ts generalizing allocated comps with
  | nil => exact absurd rfl hne
  | cons t ts ih =>
      rcases ts with - | ⟨t', ts⟩
      · obtain ⟨share, hshare, h⟩ := bind_ok_iff.mp h
        obtain ⟨_, -, h⟩ := bind_ok_iff.mp h
        cases h
        have hvalue := sub_micros hshare
        refine ⟨?_, .cons rfl .nil⟩
        show Shared _ _ [t] [(share.micros : ℚ)]
        rw [hvalue]
        push_cast
        exact .last t _
      · obtain ⟨share, hshare, h⟩ := bind_ok_iff.mp h
        obtain ⟨allocated', hadd, h⟩ := bind_ok_iff.mp h
        obtain ⟨rest, hrest, h⟩ := bind_ok_iff.mp h
        cases h
        obtain ⟨hshared, hids⟩ := ih (cons_ne_nil _ _) hrest
        refine ⟨.cons (cons_ne_nil _ _) ⟨share, hshare, rfl⟩ ?_, .cons rfl hids⟩
        rw [add_micros hadd] at hshared
        push_cast at hshared
        rwa [← sub_sub] at hshared

/-- What a tax is due of an inclusive tax whose fixed charges are paid first. -/
def dueOf (quantity : Money) (rate percentTax : ℚ) (t : TaxDef) : ℚ :=
  chargeOf quantity t + percentTax * rateOf t / rate

lemma sum_dueOf (quantity : Money) (rate percentTax : ℚ) (ts : List TaxDef) :
    (ts.map (dueOf quantity rate percentTax)).sum =
      ((ts.map (chargeOf quantity)).sum : ℤ) + percentTax * ((ts.map rateOf).sum : ℤ) / rate := by
  induction ts with
  | nil => simp
  | cons t ts ih =>
      simp only [map_cons, sum_cons, ih, dueOf]
      push_cast
      ring

lemma rateOf_nonneg (h : 0 ≤ t.rate.micros) : 0 ≤ rateOf t := by
  unfold rateOf
  split
  · exact h
  · exact le_rfl

/-- **The inclusive components.**  Every one of them is within a step for each
other one of what it is due. -/
theorem inclusive_near {gross fixedSum includedTax : Money} {taxes : List TaxDef}
    {comps : List TaxComponent} (hne : inclusiveTaxes taxes ≠ [])
    (hkinds : ∀ t ∈ inclusiveTaxes taxes, t.amountType = .percent ∨ t.amountType = .fixed)
    (hrates : ∀ t ∈ inclusiveTaxes taxes, 0 ≤ t.rate.micros) (hapart : FixedApart quantity taxes)
    (hsums : includedSums ccy quantity (inclusiveTaxes taxes) { micros := 0 } ⟨0, ccy⟩ =
      .ok (rateSum, fixedSum))
    (hbase : rateSum.micros = 0 → base.micros = gross.micros - fixedSum.micros)
    (htax : gross.sub base = .ok includedTax)
    (hcomps : inclusiveComponents ccy quantity rateSum includedTax base dp (inclusiveTaxes taxes)
      ⟨0, ccy⟩ = .ok comps) :
    Forall₂ (fun t c => |(c.amount.micros : ℚ) -
        dueOf quantity rateSum.micros (includedTax.micros - fixedSum.micros) t| ≤
          ((inclusiveTaxes taxes).length - 1) • (Money.step dp : ℚ)) (inclusiveTaxes taxes) comps := by
  obtain ⟨hrate, hfixed⟩ := includedSums_ok hsums
  obtain ⟨hmin, hmax⟩ := sub_range htax
  have hvalue := sub_micros htax
  simp only [zero_add] at hrate hfixed
  have hrateOf : ∀ t ∈ inclusiveTaxes taxes, 0 ≤ rateOf t ∧ rateOf t ≤ rateSum.micros := by
    intro t ht
    refine ⟨rateOf_nonneg (hrates t ht), ?_⟩
    rw [hrate]
    apply single_le_sum _ _ (mem_map_of_mem ht)
    intro x hx
    obtain ⟨t', ht', rfl⟩ := mem_map.mp hx
    exact rateOf_nonneg (hrates t' ht')
  obtain ⟨hshared, -⟩ := inclusiveComponents_ok hne hcomps
  have hnear := hshared.near
    (q := dueOf quantity rateSum.micros (includedTax.micros - fixedSum.micros))
    (u := (Money.step dp : ℚ)) (d := 0) ?_ ?_
  · rw [forall₂_map_right_iff] at hnear
    simpa only [zero_add] using hnear
  · -- a share before the last is taken of the percentages' own tax, or it is no percentage's
    rintro t ht s ⟨m, hm, rfl⟩
    have hmem := mem_of_mem_dropLast ht
    have hshare := inclusiveShare_near hm (hkinds t hmem) (hrateOf t hmem).1 (hrateOf t hmem).2 hmin
      hmax
    have hsame : (fixedSum.micros : ℚ) * rateOf t = 0 := by
      rcases hapart with hcharges | hlast
      · have hzero : fixedSum.micros = 0 := by
          rw [hfixed]
          apply sum_eq_zero
          intro x hx
          obtain ⟨t', ht', rfl⟩ := mem_map.mp hx
          exact hcharges t' ht'
        rw [hzero]
        push_cast
        ring
      · rw [hlast t ht]
        push_cast
        ring
    rw [dueOf, sub_mul, hsame, sub_zero]
    exact hshare
  · rw [sum_dueOf, ← hrate, ← hfixed]
    show |(includedTax.micros : ℚ) - (0 : ℤ) - _| ≤ 0
    push_cast
    rw [sub_zero, abs_nonpos_iff]
    by_cases hzero : rateSum.micros = 0
    · have hdue : includedTax.micros = fixedSum.micros := by
        rw [hvalue, hbase hzero]
        ring
      rw [hzero, hdue]
      simp
    · have hne' : (rateSum.micros : ℚ) ≠ 0 := by exact_mod_cast hzero
      rw [mul_div_assoc, div_self hne']
      ring

/-- What a percentage is due is its part of the base, but for the rounding of the
base. -/
lemma dueOf_percent_near {quantity : Money} {t : TaxDef} {rate base net step : ℚ}
    (hpercent : t.amountType = .percent) (hrate : (0 : ℚ) ≤ t.rate.micros)
    (hle : (t.rate.micros : ℚ) ≤ rate) (hstep : 0 ≤ step)
    (hbase : |base - net * 100000000 / (100000000 + rate)| ≤ step) :
    |dueOf quantity rate (net - base) t - base * t.rate.micros / 100000000| ≤
      (1 + rate / 100000000) * step := by
  have hrateOf : rateOf t = t.rate.micros := if_pos hpercent
  have hchargeOf : chargeOf quantity t = 0 := if_pos hpercent
  have hrate0 : 0 ≤ rate := hrate.trans hle
  rw [dueOf, hrateOf, hchargeOf]
  push_cast
  rw [zero_add]
  rcases hrate0.eq_or_lt with hzero | hpos
  · -- no rate at all
    have hnone : (t.rate.micros : ℚ) = 0 := le_antisymm (hzero ▸ hle) hrate
    rw [hnone, ← hzero]
    simpa using hstep
  · have hden : (0 : ℚ) < 100000000 + rate := by linarith
    have hshare : (t.rate.micros : ℚ) / rate ≤ 1 := (div_le_one hpos).mpr hle
    have hshare0 : (0 : ℚ) ≤ t.rate.micros / rate := div_nonneg hrate hrate0
    have hgrow : (0 : ℚ) ≤ 1 + rate / 100000000 := by positivity
    have hsplit : (net - base) * t.rate.micros / rate - base * t.rate.micros / 100000000 =
        -(base - net * 100000000 / (100000000 + rate)) * (1 + rate / 100000000) *
          (t.rate.micros / rate) := by
      field_simp
      ring
    rw [hsplit, abs_mul, abs_mul, abs_neg, abs_of_nonneg hgrow, abs_of_nonneg hshare0]
    calc |base - net * 100000000 / (100000000 + rate)| * (1 + rate / 100000000) *
          (t.rate.micros / rate)
        ≤ step * (1 + rate / 100000000) * 1 := by gcongr
      _ = (1 + rate / 100000000) * step := by ring

/-- What a fixed tax is due is its charge in whole micro-units. -/
lemma dueOf_fixed_near {quantity : Money} {t : TaxDef} {rate percentTax : ℚ}
    (hfixed : t.amountType = .fixed) :
    |dueOf quantity rate percentTax t - t.rate.micros * quantity.micros / 1000000| ≤ 1 / 2 := by
  have hrateOf : rateOf t = 0 := if_neg (by rw [hfixed]; decide)
  have hchargeOf : chargeOf quantity t = divRoundHalfAway (t.rate.micros * quantity.micros) ONE :=
    if_neg (by rw [hfixed]; decide)
  have hnear := divRoundHalfAway_near (t.rate.micros * quantity.micros)
    (show 0 < ONE by decide)
  rw [dueOf, hrateOf, hchargeOf]
  rw [ONE] at hnear ⊢
  push_cast at hnear ⊢
  rw [mul_zero, zero_div, add_zero]
  exact hnear

/-! ### Exclusive taxes -/

lemma exclusiveComponent_ok {c : TaxComponent}
    (h : exclusiveComponent ccy quantity base dp t = .ok c) :
    ∃ amt rounded, ((t.amountType = .fixed ∧ fixedCharge ccy t quantity = .ok amt) ∨
        (t.amountType ≠ .fixed ∧ base.percent t.rate = .ok amt)) ∧
      amt.roundTo dp = .ok rounded ∧ c = ⟨t.id, t.name, base, rounded⟩ := by
  unfold exclusiveComponent at h
  split at h
  · next hfixed =>
      obtain ⟨amt, hamt, h⟩ := bind_ok_iff.mp h
      obtain ⟨rounded, hrounded, h⟩ := bind_ok_iff.mp h
      cases h
      exact ⟨amt, rounded, .inl ⟨hfixed, hamt⟩, hrounded, rfl⟩
  · next hpercent =>
      obtain ⟨amt, hamt, h⟩ := bind_ok_iff.mp h
      obtain ⟨rounded, hrounded, h⟩ := bind_ok_iff.mp h
      cases h
      exact ⟨amt, rounded, .inr ⟨hpercent, hamt⟩, hrounded, rfl⟩

/-- A component on top of the base is rounded twice, to a micro-unit and to a
step. -/
lemma exclusiveComponent_agrees {rate : ℤ} {c : TaxComponent} {n : ℕ} (hn : 1 ≤ n)
    (hrate : 0 ≤ rate) (h : exclusiveComponent ccy quantity base dp t = .ok c) :
    Agrees quantity base dp n rate t c := by
  have hstep : (1 : ℚ) ≤ Money.step dp := by exact_mod_cast step_pos dp
  have hn : (1 : ℚ) ≤ n := by exact_mod_cast hn
  have hsteps : (Money.step dp : ℚ) ≤ n * Money.step dp := le_mul_of_one_le_left (by linarith) hn
  obtain ⟨amt, rounded, hamt, hrounded, rfl⟩ := exclusiveComponent_ok h
  have hround := roundTo_near hrounded
  refine ⟨rfl, ?_, ?_⟩
  · intro hfixed
    rcases hamt with ⟨-, hcharge⟩ | ⟨hother, -⟩
    · have hnear := divRoundHalfAway_near (t.rate.micros * quantity.micros)
        (show 0 < ONE by decide)
      rw [← fixedCharge_ok hcharge, ONE] at hnear
      push_cast at hnear
      calc |(rounded.micros : ℚ) - t.rate.micros * quantity.micros / 1000000|
          ≤ |(rounded.micros : ℚ) - amt.micros| +
              |(amt.micros : ℚ) - t.rate.micros * quantity.micros / 1000000| := abs_sub_le _ _ _
        _ ≤ n * Money.step dp := by linarith
    · exact absurd hfixed hother
  · intro hpercent
    rcases hamt with ⟨hfixed, -⟩ | ⟨-, hcharge⟩
    · rw [hpercent] at hfixed
      cases hfixed
    · have hnear := divRoundHalfAway_near (base.micros * t.rate.micros)
        (show 0 < ONE * 100 by decide)
      rw [← percent_ok hcharge, ONE] at hnear
      norm_num at hnear
      have hmore : (0 : ℚ) ≤ rate / 100000000 * Money.step dp := by
        have : (0 : ℚ) ≤ rate := by exact_mod_cast hrate
        positivity
      calc |(rounded.micros : ℚ) - base.micros * t.rate.micros / 100000000|
          ≤ |(rounded.micros : ℚ) - amt.micros| +
              |(amt.micros : ℚ) - base.micros * t.rate.micros / 100000000| := abs_sub_le _ _ _
        _ ≤ (n + rate / 100000000) * Money.step dp := by
            rw [add_mul]
            linarith

lemma exclusive_agree {ccy : ℤ} {quantity base : Money} {dp rate : ℤ} {ts : List TaxDef}
    {comps : List TaxComponent} {n : ℕ} (hn : ts ≠ [] → 1 ≤ n) (hrate : 0 ≤ rate)
    (h : ts.mapM (exclusiveComponent ccy quantity base dp) = .ok comps) :
    Forall₂ (Agrees quantity base dp n rate) ts comps := by
  induction ts generalizing comps with
  | nil =>
      cases h
      exact .nil
  | cons t ts ih =>
      rw [mapM_cons] at h
      obtain ⟨c, hc, h⟩ := bind_ok_iff.mp h
      obtain ⟨cs, hcs, h⟩ := bind_ok_iff.mp h
      cases h
      have hn : 1 ≤ n := hn (cons_ne_nil _ _)
      exact .cons (exclusiveComponent_agrees hn hrate hc) (ih (fun _ => hn) hcs)

/-! ### The computation -/

/-- What `compute` puts together from the gross amount `gross`. -/
structure Parts (ccy : ℤ) (quantity : Money) (dp : ℤ) (taxes : List TaxDef) (gross : Money)
    (c : TaxComputation) (rateSum fixedSum includedTax : Money)
    (inclusive exclusive : List TaxComponent) : Prop where
  sums : includedSums ccy quantity (inclusiveTaxes taxes) { micros := 0 } ⟨0, ccy⟩ =
    .ok (rateSum, fixedSum)
  unshared : inclusiveTaxes taxes = [] → c.baseExcluded = gross
  base : inclusiveTaxes taxes ≠ [] →
    inclusiveBase ccy gross rateSum fixedSum dp = .ok c.baseExcluded ∧
      gross.sub c.baseExcluded = .ok includedTax
  shares : inclusiveComponents ccy quantity rateSum includedTax c.baseExcluded dp
    (inclusiveTaxes taxes) ⟨0, ccy⟩ = .ok inclusive
  onTop : ((taxes.insertionSort fun a b => a.sequence ≤ b.sequence).filter
    fun t => !t.priceInclude).mapM (exclusiveComponent ccy quantity c.baseExcluded dp) = .ok exclusive
  components : c.components = inclusive ++ exclusive
  totalTax : c.totalTax = ⟨(c.components.map (·.amount.micros)).sum, ccy⟩
  totalIncluded : c.totalIncluded =
    ⟨c.baseExcluded.micros + c.totalTax.micros, c.baseExcluded.currencyId⟩

lemma add_ok {a b c : Money} (h : a.add b = .ok c) : c = ⟨a.micros + b.micros, a.currencyId⟩ := by
  obtain ⟨-, -, h⟩ := bind_ok_iff.mp h
  obtain ⟨v, hv, h⟩ := bind_ok_iff.mp h
  obtain ⟨-, -, rfl⟩ := clampToInt64_ok_iff.mp hv
  cases h
  rfl

/-- Adding the amounts up from any total. -/
lemma foldlM_amounts {components : List TaxComponent} {m total : Money}
    (h : components.foldlM (fun total c => total.add c.amount) m = .ok total) :
    total = ⟨m.micros + (components.map (·.amount.micros)).sum, m.currencyId⟩ := by
  induction components generalizing m with
  | nil =>
      cases h
      simp
  | cons c cs ih =>
      rw [foldlM_cons] at h
      obtain ⟨m', hm', h⟩ := bind_ok_iff.mp h
      rw [ih h, add_ok hm', map_cons, sum_cons, Int.add_assoc]

lemma sumAmounts_ok {components : List TaxComponent} {total : Money}
    (h : sumAmounts ccy components = .ok total) :
    total = ⟨(components.map (·.amount.micros)).sum, ccy⟩ := by
  rw [foldlM_amounts h, Int.zero_add]

lemma compute_parts {priceUnit discountPct : Money} {taxesIn : List TaxDef} {c : TaxComputation}
    (h : compute priceUnit quantity discountPct taxesIn dp = .ok c) :
    ∃ gross, grossAmount priceUnit quantity discountPct dp = .ok gross ∧
      ∃ rateSum fixedSum includedTax inclusive exclusive,
        Parts priceUnit.currencyId quantity dp taxesIn gross c rateSum fixedSum includedTax inclusive
          exclusive := by
  obtain ⟨gross, hgross, h⟩ := bind_ok_iff.mp h
  refine ⟨gross, hgross, ?_⟩
  split at h
  · next hempty =>
      cases h
      obtain rfl := List.isEmpty_iff.mp hempty
      refine ⟨{ micros := 0 }, ⟨0, priceUnit.currencyId⟩, gross, [], [], ?_⟩
      exact
        { sums := rfl
          unshared := fun _ => rfl
          base := fun hsome => absurd rfl hsome
          shares := rfl
          onTop := rfl
          components := rfl
          totalTax := rfl
          totalIncluded := by rw [Int.add_zero] }
  obtain ⟨⟨rateSum, fixedSum⟩, hsums, h⟩ := bind_ok_iff.mp h
  dsimp only at h
  split at h
  · next hnone =>
      have hnone : inclusiveTaxes taxesIn = [] := List.isEmpty_iff.mp hnone
      obtain ⟨base, hbase, h⟩ := bind_ok_iff.mp h
      obtain ⟨includedTax, -, h⟩ := bind_ok_iff.mp h
      obtain ⟨inclusive, hinclusive, h⟩ := bind_ok_iff.mp h
      obtain ⟨exclusive, hexclusive, h⟩ := bind_ok_iff.mp h
      obtain ⟨totalTax, htotal, h⟩ := bind_ok_iff.mp h
      obtain ⟨totalIncluded, hincluded, h⟩ := bind_ok_iff.mp h
      cases hbase
      cases h
      refine ⟨rateSum, fixedSum, includedTax, inclusive, exclusive, ?_⟩
      exact
        { sums := hsums
          unshared := fun _ => rfl
          base := fun hsome => absurd hnone hsome
          shares := hinclusive
          onTop := hexclusive
          components := rfl
          totalTax := sumAmounts_ok htotal
          totalIncluded := add_ok hincluded }
  · next hsome =>
      obtain ⟨base, hbase, h⟩ := bind_ok_iff.mp h
      obtain ⟨includedTax, htax, h⟩ := bind_ok_iff.mp h
      obtain ⟨inclusive, hinclusive, h⟩ := bind_ok_iff.mp h
      obtain ⟨exclusive, hexclusive, h⟩ := bind_ok_iff.mp h
      obtain ⟨totalTax, htotal, h⟩ := bind_ok_iff.mp h
      obtain ⟨totalIncluded, hincluded, h⟩ := bind_ok_iff.mp h
      cases h
      refine ⟨rateSum, fixedSum, includedTax, inclusive, exclusive, ?_⟩
      exact
        { sums := hsums
          unshared := fun hnone => absurd (List.isEmpty_iff.mpr hnone) hsome
          base := fun _ => ⟨hbase, htax⟩
          shares := hinclusive
          onTop := hexclusive
          components := rfl
          totalTax := sumAmounts_ok htotal
          totalIncluded := add_ok hincluded }

/-- A share near what is due is near the tax's own charge. -/
lemma agrees_of_due {rate : ℤ} {m n : ℕ} {c : TaxComponent} {net : ℚ} (hid : c.taxId = t.id)
    (hm : 1 ≤ m) (hmn : m ≤ n) (hown : 0 ≤ t.rate.micros)
    (hle : t.amountType = .percent → t.rate.micros ≤ rate)
    (hbase : |(base.micros : ℚ) - net * 100000000 / (100000000 + rate)| ≤ Money.step dp)
    (hdue : |(c.amount.micros : ℚ) - dueOf quantity rate (net - base.micros) t| ≤
      (m - 1) • (Money.step dp : ℚ)) : Agrees quantity base dp n rate t c := by
  have hstep : (1 : ℚ) ≤ Money.step dp := by exact_mod_cast step_pos dp
  have hothers : (m - 1) • (Money.step dp : ℚ) = m * Money.step dp - Money.step dp := by
    rw [nsmul_eq_mul, Nat.cast_sub hm]
    ring
  have hcount : (m : ℚ) * Money.step dp ≤ n * Money.step dp := by
    have : (m : ℚ) ≤ n := by exact_mod_cast hmn
    gcongr
  rw [hothers] at hdue
  refine ⟨hid, ?_, ?_⟩
  · intro hfixed
    have hnear := @dueOf_fixed_near quantity t rate (net - base.micros) hfixed
    calc |(c.amount.micros : ℚ) - t.rate.micros * quantity.micros / 1000000|
        ≤ |(c.amount.micros : ℚ) - dueOf quantity rate (net - base.micros) t| +
            |dueOf quantity rate (net - base.micros) t -
              t.rate.micros * quantity.micros / 1000000| := abs_sub_le _ _ _
      _ ≤ n * Money.step dp := by linarith
  · intro hpercent
    have hle : (t.rate.micros : ℚ) ≤ rate := by exact_mod_cast hle hpercent
    have hnear := @dueOf_percent_near quantity t rate base.micros net (Money.step dp) hpercent
      (by exact_mod_cast hown) hle (by linarith) hbase
    calc |(c.amount.micros : ℚ) - base.micros * t.rate.micros / 100000000|
        ≤ |(c.amount.micros : ℚ) - dueOf quantity rate (net - base.micros) t| +
            |dueOf quantity rate (net - base.micros) t -
              base.micros * t.rate.micros / 100000000| := abs_sub_le _ _ _
      _ ≤ (n + rate / 100000000) * Money.step dp := by
          rw [add_mul] at hnear ⊢
          linarith

lemma mem_inclusiveTaxes {taxes : List TaxDef} (h : t ∈ inclusiveTaxes taxes) : t ∈ taxes :=
  (perm_insertionSort _ taxes).mem_iff.mp (mem_filter.mp h).1

lemma length_inclusiveTaxes_le (taxes : List TaxDef) :
    (inclusiveTaxes taxes).length ≤ taxes.length :=
  (length_filter_le _ _).trans (perm_insertionSort _ taxes).length_eq.le

/-- **Every component agrees with its tax.**  Where the fixed inclusive charges
stand apart from the shares of the percentages, a component is within a rounding
step for each tax of the list of a fixed tax's charge; of a percentage's part of
the untaxed amount it is within that and the part of a step the inclusive rates
make of it.  What the last inclusive tax absorbs is no more. -/
theorem tax_components_agree {priceUnit quantity discountPct : Money} {taxes : List TaxDef} {dp : ℤ}
    {c : TaxComputation} (h : compute priceUnit quantity discountPct taxes dp = .ok c)
    (hkinds : ∀ t ∈ taxes, t.amountType = .percent ∨ t.amountType = .fixed)
    (hrates : ∀ t ∈ taxes, 0 ≤ t.rate.micros) (hapart : FixedApart quantity taxes) :
    List.Forall₂ (Agrees quantity c.baseExcluded dp taxes.length (includedRate taxes))
      (inOrder taxes) c.components := by
  obtain ⟨gross, -, rateSum, fixedSum, includedTax, inclusive, exclusive, parts⟩ := compute_parts h
  have hrate0 : 0 ≤ includedRate taxes := by
    apply sum_nonneg
    intro x hx
    obtain ⟨t, ht, rfl⟩ := mem_map.mp hx
    exact rateOf_nonneg (hrates t (mem_inclusiveTaxes ht))
  have hrate : rateSum.micros = includedRate taxes := by
    rw [(includedSums_ok parts.sums).1]
    exact zero_add _
  rw [parts.components]
  refine rel_append ?_ (exclusive_agree ?_ hrate0 parts.onTop)
  · by_cases hne : inclusiveTaxes taxes = []
    · have hinclusive := parts.shares
      rw [hne] at hinclusive
      cases hinclusive
      show List.Forall₂ _ (inclusiveTaxes taxes) []
      rw [hne]
      exact .nil
    obtain ⟨hbase, htax⟩ := parts.base hne
    obtain ⟨hnear, hexact⟩ := inclusiveBase_ok hbase (by rw [hrate]; exact hrate0)
    have hdue := inclusive_near hne (fun t ht => hkinds t (mem_inclusiveTaxes ht))
      (fun t ht => hrates t (mem_inclusiveTaxes ht)) hapart parts.sums hexact htax
      parts.shares
    have hids := (inclusiveComponents_ok hne parts.shares).2
    have hmembers := (forall₂_and_left _ _).mpr ⟨fun t ht => ht, hids⟩
    have hall := List.Forall₂.mp (fun _ _ h₁ h₂ => And.intro h₁ h₂) hdue hmembers
    refine hall.imp ?_
    rintro t comp ⟨hdue, ht, hid⟩
    have hlength : 1 ≤ (inclusiveTaxes taxes).length := length_pos_iff.mpr hne
    have hnet : (includedTax.micros : ℚ) - fixedSum.micros =
        ((gross.micros - fixedSum.micros : ℤ) : ℚ) - c.baseExcluded.micros := by
      rw [sub_micros htax]
      push_cast
      ring
    rw [hnet, hrate] at hdue
    rw [hrate] at hnear
    refine agrees_of_due hid hlength (length_inclusiveTaxes_le taxes)
      (hrates t (mem_inclusiveTaxes ht)) ?_ hnear hdue
    intro hpercent
    have hrateOf : rateOf t = t.rate.micros := if_pos hpercent
    rw [← hrateOf]
    apply single_le_sum _ _ (mem_map_of_mem ht)
    intro x hx
    obtain ⟨t', ht', rfl⟩ := mem_map.mp hx
    exact rateOf_nonneg (hrates t' (mem_inclusiveTaxes ht'))
  · intro hsome
    obtain ⟨t, ts, hts⟩ := exists_cons_of_ne_nil hsome
    have ht : t ∈ taxes := by
      apply (perm_insertionSort (fun a b : TaxDef => a.sequence ≤ b.sequence) taxes).mem_iff.mp
      have hmem := @List.mem_cons_self _ t ts
      rw [← hts] at hmem
      exact (mem_filter.mp hmem).1
    exact length_pos_of_mem ht

/-- 6 % and 4 % included in the price. -/
def sixAndFour : List TaxDef :=
  [{ id := 1, rate := ⟨6000000, 0⟩, priceInclude := true, sequence := 1 },
    { id := 2, rate := ⟨4000000, 0⟩, priceInclude := true, sequence := 2 }]

/-- A levy of 0.50 a unit on top. -/
def levy : TaxDef := { id := 3, rate := ⟨500000, 0⟩, amountType := .fixed }

/-- 110.00 with 6 % and 4 % included and a levy on top. -/
theorem tax_components_agree_levy :
    ∃ c, compute ⟨110000000, 0⟩ ⟨1000000, 0⟩ ⟨0, 0⟩ (levy :: sixAndFour) 2 = .ok c ∧
      List.Forall₂ (Agrees ⟨1000000, 0⟩ c.baseExcluded 2 3 (includedRate (levy :: sixAndFour)))
        (inOrder (levy :: sixAndFour)) c.components := by
  obtain ⟨c, hc⟩ := exists_ok
    (show (compute ⟨110000000, 0⟩ ⟨1000000, 0⟩ ⟨0, 0⟩ (levy :: sixAndFour) 2).isOk = true by
      decide)
  have happly := tax_components_agree hc (by decide) (by decide)
  exact ⟨c, hc, happly (.inl (by decide))⟩

/-- 300 % included in the price. -/
def threefold : TaxDef := { id := 1, rate := ⟨300000000, 0⟩, priceInclude := true }

/-- 10 % and then a fee of 5.00 a unit, both included in the price. -/
def tenAndFee : List TaxDef :=
  [{ id := 1, rate := ⟨10000000, 0⟩, priceInclude := true, sequence := 1 },
    { id := 2, rate := ⟨5000000, 0⟩, amountType := .fixed, priceInclude := true, sequence := 2 }]

/-- Steps for each tax alone are too few: 0.02 with 300 % included has an
untaxed amount of 0.01 and a tax of 0.01, two steps from 0.03.  Nor do they bound
a percentage mixed with a fee: of 115.00 with 10 % and a fee of 5.00 included the
percentage takes 15.00 and leaves the fee nothing. -/
theorem steps_alone_too_few : (∃ c, compute ⟨20000, 0⟩ ⟨1000000, 0⟩ ⟨0, 0⟩ [threefold] 2 = .ok c ∧
      ¬ List.Forall₂ (Agrees ⟨1000000, 0⟩ c.baseExcluded 2 1 0) [threefold] c.components) ∧
    ∃ c, compute ⟨115000000, 0⟩ ⟨1000000, 0⟩ ⟨0, 0⟩ tenAndFee 2 = .ok c ∧
      ¬ List.Forall₂ (Agrees ⟨1000000, 0⟩ c.baseExcluded 2 2 0) (inOrder tenAndFee) c.components := by
  constructor
  · refine ⟨⟨⟨10000, 0⟩, ⟨10000, 0⟩, ⟨20000, 0⟩, [⟨1, "", ⟨10000, 0⟩, ⟨10000, 0⟩⟩]⟩,
      by decide, ?_⟩
    intro h
    obtain ⟨-, -, hpercent⟩ := (forall₂_cons.mp h).1
    exact absurd (hpercent rfl) (by decide +kernel)
  · refine ⟨⟨⟨100000000, 0⟩, ⟨15000000, 0⟩, ⟨115000000, 0⟩,
      [⟨1, "", ⟨100000000, 0⟩, ⟨15000000, 0⟩⟩, ⟨2, "", ⟨100000000, 0⟩, ⟨0, 0⟩⟩]⟩,
      by decide, ?_⟩
    have horder : inOrder tenAndFee = tenAndFee := by decide
    rw [horder]
    intro h
    obtain ⟨-, -, hpercent⟩ := (forall₂_cons.mp h).1
    exact absurd (hpercent rfl) (by decide +kernel)

end TaxEngine

end CErp
