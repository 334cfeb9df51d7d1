/-
The projected income of the cash-flow forecast, and the periods it stands for.

The forecast counts a tenancy in the months that are a multiple of its
`billing_months` after the month it is billed from next; billing goes from period
to period by `rental_next_period`, with the interval and the unit of the line or
of its contract.  `Keeps` says when the two come to the same months, unit by unit:
by months and years it compares the two intervals and the last month, by days and
weeks it follows the days from month to month.  `forecast_agrees_iff` proves it
exact; `inherited_quarter_overcounted` is a line that follows a quarterly contract.
-/
import CErp.PeriodTiling
import CErp.Steps

namespace CErp

open Calendar RentalBilling List

namespace RentalForecast

/-! ### The forecast -/

/-- The months of a forecast, from the month of a date on. -/
def horizon (today : ℤ) (start : Option ℤ) (months : ℤ) : List ℤ :=
  (range (max 1 (min 36 months)).toNat).map fun i : ℕ =>
    monthOf (start.getD today) + (i : ℤ)

/-- A line is counted in a month. -/
def countsIn (l : ContractLine) (month : ℤ) : Bool :=
  l.state == .active && l.billingMode == .recurring &&
    l.nextPeriodStart.any fun p =>
      (l.dateEnd.all fun e => decide (monthStart month ≤ e)) &&
        decide (month - monthOf p ≥ 0) &&
        decide ((month - monthOf p) % max l.billingMonths 1 = 0)

/-- The price of a line after its discount, no less than nothing. -/
def netPrice (l : ContractLine) : ℤ :=
  max (l.unitPrice - (l.unitPrice * l.discountPct).tdiv 100000000) 0

/-- The income of a month that is not invoiced yet. -/
def projectedIncome (db : RentalDb) (month : ℤ) : ℤ :=
  ((db.lines.rows.filter fun r => countsIn r.2 month).map fun r => netPrice r.2).sum

/-- The projected income of each month of a forecast. -/
def projection (db : RentalDb) (today : ℤ) (start : Option ℤ) (months : ℤ) : List (ℤ × ℤ) :=
  (horizon today start months).map fun month => (month, projectedIncome db month)

/-! ### The periods -/

/-- The start of the period that is billed after some others. -/
def periodAfter (p anchor interval : ℤ) (unit : BillingUnit) (k : ℕ) : ℤ :=
  Nat.iterate (fun d => rentalNextPeriod d anchor interval unit) k p

/-- Billing a line period after period starts one in a month, by the end of the
line. -/
def StartsIn (db : RentalDb) (l : ContractLine) (month : ℤ) : Prop :=
  ∃ p ∈ l.nextPeriodStart, ∃ k, monthOf (periodAfter p l.billingAnchorDay (resolvedInterval db l)
        (resolvedUnit db l) k) = month ∧
      ∀ e ∈ l.dateEnd, periodAfter p l.billingAnchorDay (resolvedInterval db l)
        (resolvedUnit db l) k ≤ e

/-- In every forecast a line is counted in the months in which billing starts a
period. -/
def Agrees (db : RentalDb) (l : ContractLine) : Prop :=
  ∀ today start months, ∀ month ∈ horizon today start months,
    (countsIn l month = true ↔ StartsIn db l month)

lemma periodAfter_succ (p anchor interval : ℤ) (unit : BillingUnit) (k : ℕ) :
    periodAfter p anchor interval unit (k + 1) =
      rentalNextPeriod (periodAfter p anchor interval unit k) anchor interval unit :=
  Function.iterate_succ_apply' _ _ _

lemma periodAfter_strictMono (p anchor interval : ℤ) (unit : BillingUnit) :
    StrictMono (periodAfter p anchor interval unit) := by
  apply strictMono_nat_of_lt_succ
  intro k
  rw [periodAfter_succ]
  exact lt_rentalNextPeriod _ _ _ _

/-- Months and years lead to the anchor day of every so many months. -/
lemma periodAfter_months {p anchor interval n : ℤ} {unit : BillingUnit}
    (hnext : ∀ d, rentalNextPeriod d anchor interval unit =
      dayIn (monthOf d + n) (max 1 (min 31 anchor))) (k : ℕ) :
    monthOf (periodAfter p anchor interval unit k) = monthOf p + k * n ∧
      (1 ≤ k → periodAfter p anchor interval unit k =
        dayIn (monthOf p + k * n) (max 1 (min 31 anchor))) := by
  induction k with
  | zero =>
      refine ⟨?_, fun h => absurd h (by omega)⟩
      show monthOf p = _
      simp
  | succ k ih =>
      have hday : periodAfter p anchor interval unit (k + 1) =
          dayIn (monthOf p + (k + 1 : ℕ) * n) (max 1 (min 31 anchor)) := by
        rw [periodAfter_succ, hnext, ih.1]
        congr 1
        push_cast
        ring
      refine ⟨?_, fun _ => hday⟩
      rw [hday]
      exact monthOf_dayIn _ (by omega)

/-- Days and weeks are counted. -/
lemma periodAfter_days {p anchor interval n : ℤ} {unit : BillingUnit}
    (hnext : ∀ d, rentalNextPeriod d anchor interval unit = d + n) (k : ℕ) :
    periodAfter p anchor interval unit k = p + k * n := by
  induction k with
  | zero =>
      show p = _
      simp
  | succ k ih =>
      rw [periodAfter_succ, hnext, ih]
      push_cast
      ring

/-! ### When the two agree -/

/-- A walk by months from a date, each to a day of the month, meets the months
that are multiples of `b` further on: without an end the two intervals are the
same; with one, the line ends before its month, or the first period starts by the
end and either there is no second one, and no second month to count, or the
intervals are the same and a period of the last month starts by the end. -/
def KeepsMonths (p day n b : ℤ) (dateEnd : Option ℤ) : Prop :=
  match dateEnd with
  | none => n = b
  | some e =>
      monthOf e < monthOf p ∨ (p ≤ e ∧
          if dayIn (monthOf p + n) day ≤ e then
            n = b ∧ (n ∣ monthOf e - monthOf p → dayIn (monthOf e) day ≤ e)
          else monthOf e < monthOf p + b)

/-- The condition of a line, by the unit it is billed in. -/
def Keeps (p anchor interval : ℤ) (unit : BillingUnit) (b : ℤ) (dateEnd : Option ℤ) : Prop :=
  let n := max 1 interval
  let day := max 1 (min 31 anchor)
  match unit with
  | .day => Steps.ByStep (fun k => p + k * n) monthOf b dateEnd
  | .week => Steps.ByStep (fun k => p + k * (n * 7)) monthOf b dateEnd
  | .month => KeepsMonths p day n b dateEnd
  | .year => KeepsMonths p day (n * 12) b dateEnd

lemma monthOf_far (o : ℤ) : ∃ d, o < monthOf d := by
  refine ⟨monthStart (o + 1), ?_⟩
  rw [monthOf_monthStart]
  omega

section MonthWalk

/-! A walk by months: from `p` on to a day of every `n`-th month. -/

variable {s : ℕ → ℤ} {p day n b : ℤ}

/-- When a walk does not stop before the last month of its course. -/
lemma month_walk_last {e : ℤ}
    (hmonth : ∀ k : ℕ, monthOf (s k) = monthOf p + k * n)
    (hlater : ∀ k : ℕ, 1 ≤ k → s k = dayIn (monthOf p + k * n) day)
    (hfirst : s 1 ≤ e) (hn : 1 ≤ n) :
    (∀ k, s k ≤ e → e < s (k + 1) → monthOf e < monthOf (s k) + n) ↔ (n ∣ monthOf e - monthOf p →
        dayIn (monthOf e) day ≤ e) := by
  have hstep : ∀ k, monthOf (s (k + 1)) = monthOf (s k) + n := by
    intro k
    rw [hmonth, hmonth]
    push_cast
    ring
  constructor
  · rintro hstops ⟨j, hj⟩
    -- the last month is that of the `j`-th day
    have hle := monthOf_mono hfirst
    rw [hmonth 1] at hle
    have hj1 : 1 ≤ j := by
      by_contra hnot
      have hmul : n * j ≤ n * 0 := Int.mul_le_mul_of_nonneg_left (by omega) (by omega)
      push_cast at hle
      omega
    obtain ⟨i, hi⟩ := Int.eq_ofNat_of_zero_le (show 0 ≤ j - 1 by omega)
    obtain rfl : j = (i + 1 : ℕ) := by
      push_cast
      omega
    have hthere : monthOf (s (i + 1)) = monthOf e := by
      rw [hmonth, mul_comm]
      omega
    have hday : s (i + 1) = dayIn (monthOf e) day := by
      rw [hlater (i + 1) (by omega), ← hmonth, hthere]
    rw [← hday]
    by_contra hafter
    have hbefore : s i ≤ e := by
      by_contra hnot
      have hle' := monthOf_mono (not_le.mp hnot).le
      have hup := hstep i
      omega
    have hlt := hstops i hbefore (not_le.mp hafter)
    have hup := hstep i
    omega
  · intro hlast k hk hlt
    by_contra hnot
    have hle := monthOf_mono hlt.le
    have hthere : monthOf (s (k + 1)) = monthOf e := by
      have hup := hstep k
      omega
    have hday : s (k + 1) = dayIn (monthOf e) day := by
      rw [hlater (k + 1) (by omega), ← hmonth, hthere]
    have hdvd : n ∣ monthOf e - monthOf p := by
      rw [← hthere, hmonth, add_sub_cancel_left]
      exact Dvd.intro_left _ rfl
    have hin := hlast hdvd
    omega

/-- A walk by months goes by `b` when it keeps the months. -/
lemma byStep_months_iff {dateEnd : Option ℤ} (hn : 1 ≤ n) (hs : StrictMono s) (h0 : s 0 = p)
    (hmonth : ∀ k : ℕ, monthOf (s k) = monthOf p + k * n)
    (hlater : ∀ k : ℕ, 1 ≤ k → s k = dayIn (monthOf p + k * n) day) :
    Steps.ByStep s monthOf b dateEnd ↔ KeepsMonths p day n b dateEnd := by
  have hstep : ∀ k, monthOf (s (k + 1)) = monthOf (s k) + n := by
    intro k
    rw [hmonth, hmonth]
    push_cast
    ring
  have hfirst : s 1 = dayIn (monthOf p + n) day := by
    rw [hlater 1 le_rfl]
    congr 1
    push_cast
    ring
  have hsame : ∀ {k}, monthOf (s (k + 1)) = monthOf (s k) ∨
      monthOf (s (k + 1)) = monthOf (s k) + b → n = b := by
    intro k hgo
    have hup := hstep k
    omega
  rcases dateEnd with - | e
  · show _ ↔ n = b
    constructor
    · intro h
      exact hsame (h.goes 0 (fun x hx => (nomatch hx)))
    · rintro rfl
      refine ⟨fun x hx => (nomatch hx), ?_, fun x hx => (nomatch hx)⟩
      intro k _
      exact .inr (hstep k)
  show _ ↔ _ ∨ p ≤ e ∧ if dayIn (monthOf p + n) day ≤ e then _ else _
  rw [← hfirst]
  constructor
  · intro h
    rcases lt_or_ge (monthOf e) (monthOf p) with hbefore | hfrom
    · exact .inl hbefore
    refine .inr ⟨?_, ?_⟩
    · rw [← h0]
      exact h.starts e rfl (by rwa [h0])
    by_cases hone : s 1 ≤ e
    · rw [if_pos hone]
      have hnb : n = b := hsame (h.goes 0 (by rintro x ⟨⟩; exact hone))
      refine ⟨hnb, (month_walk_last hmonth hlater hone hn).mp ?_⟩
      intro k hk hlt
      rw [hnb]
      exact h.stops e rfl k hk hlt
    · rw [if_neg hone]
      have hin : s 0 ≤ e := by
        rw [h0, ← h0]
        exact h.starts e rfl (by rwa [h0])
      have hlt := h.stops e rfl 0 hin (not_le.mp hone)
      rwa [h0] at hlt
  · rintro (hbefore | ⟨hin, hkeeps⟩)
    · -- nothing is billed, nor counted
      have hpast : ∀ k, ¬ s k ≤ e := by
        intro k hk
        have hle := monthOf_mono ((hs.monotone (Nat.zero_le k)).trans hk)
        rw [h0] at hle
        omega
      refine ⟨?_, fun k hk => absurd (hk e rfl) (hpast _), ?_⟩
      · rintro x ⟨⟩ hle
        rw [h0] at hle
        omega
      · rintro x ⟨⟩ k hk
        exact absurd hk (hpast k)
    · have hstarts : ∀ x ∈ some e, monthOf (s 0) ≤ monthOf x → s 0 ≤ x := by
        rintro x ⟨⟩ -
        rwa [h0]
      by_cases hone : s 1 ≤ e
      · rw [if_pos hone] at hkeeps
        obtain ⟨rfl, hlast⟩ := hkeeps
        refine ⟨hstarts, fun k _ => .inr (hstep k), ?_⟩
        rintro x ⟨⟩
        exact (month_walk_last hmonth hlater hone hn).mpr hlast
      · rw [if_neg hone] at hkeeps
        -- there is no second period
        have honly : ∀ k, s k ≤ e → k = 0 := by
          intro k hk
          by_contra hpos
          have hle := hs.monotone (show 1 ≤ k by omega)
          omega
        refine ⟨hstarts, ?_, ?_⟩
        · intro k hk
          exact absurd (honly _ (hk e rfl)) (by omega)
        · rintro x ⟨⟩ k hk -
          rw [honly k hk, h0]
          exact hkeeps

end MonthWalk

lemma byStep_iff_keeps (p anchor interval : ℤ) (unit : BillingUnit) (b : ℤ)
    (dateEnd : Option ℤ) :
    Steps.ByStep (periodAfter p anchor interval unit) monthOf b dateEnd ↔
      Keeps p anchor interval unit b dateEnd := by
  have hs := periodAfter_strictMono p anchor interval unit
  -- by months and years the periods are a walk by months
  have hmonths : ∀ {n}, 1 ≤ n → (∀ d, rentalNextPeriod d anchor interval unit =
        dayIn (monthOf d + n) (max 1 (min 31 anchor))) →
      (Steps.ByStep (periodAfter p anchor interval unit) monthOf b dateEnd ↔
        KeepsMonths p (max 1 (min 31 anchor)) n b dateEnd) := by
    intro n hn hnext
    exact byStep_months_iff hn hs rfl (fun k => (periodAfter_months hnext k).1)
      fun k hk => (periodAfter_months hnext k).2 hk
  -- by days and weeks they are counted
  have hdays : ∀ {n}, (∀ d, rentalNextPeriod d anchor interval unit = d + n) →
      (Steps.ByStep (periodAfter p anchor interval unit) monthOf b dateEnd ↔
        Steps.ByStep (fun k : ℕ => p + k * n) monthOf b dateEnd) := by
    intro n hnext
    have heq : periodAfter p anchor interval unit = fun k : ℕ => p + k * n := by
      funext k
      exact periodAfter_days hnext k
    rw [heq]
  cases unit with
  | day => exact hdays fun d => rfl
  | week => exact hdays fun d => rfl
  | month => exact hmonths (le_max_left 1 interval) fun d => rfl
  | year => exact hmonths (by omega) fun d => rfl

/-- Every month is in a forecast. -/
lemma agrees_iff (db : RentalDb) (l : ContractLine) :
    Agrees db l ↔ ∀ month, countsIn l month = true ↔ StartsIn db l month := by
  constructor
  · intro h month
    apply h 0 (some (monthStart month)) 1 month
    refine mem_map.mpr ⟨0, mem_range.mpr ?_, ?_⟩
    · decide
    show monthOf (monthStart month) + ((0 : ℕ) : ℤ) = month
    rw [monthOf_monthStart, Nat.cast_zero, add_zero]
  · intro h _ _ _ month _
    exact h month

lemma countsIn_iff {l : ContractLine} (hactive : l.state = .active)
    (hrecurring : l.billingMode = .recurring) (month : ℤ) :
    countsIn l month = true ↔ ∃ p ∈ l.nextPeriodStart,
      Steps.Every monthOf (max l.billingMonths 1) l.dateEnd (monthOf p)
        month := by
  have hcount : countsIn l month = true ↔ ∃ p ∈ l.nextPeriodStart,
      (∀ e ∈ l.dateEnd, monthStart month ≤ e) ∧ month - monthOf p ≥ 0 ∧
        (month - monthOf p) % max l.billingMonths 1 = 0 := by
    simp [countsIn, hactive, hrecurring, Option.any_eq_true, Option.all_eq_true, and_assoc]
  rw [hcount]
  refine exists_congr fun p => and_congr_right fun _ => ?_
  constructor
  · rintro ⟨hend, hfrom, hmod⟩
    exact ⟨hfrom, Int.dvd_of_emod_eq_zero hmod, fun e he =>
      le_monthOf_iff.mpr (hend e he)⟩
  · rintro ⟨hfrom, hdvd, hend⟩
    exact ⟨fun e he => le_monthOf_iff.mp (hend e he), hfrom, Int.emod_eq_zero_of_dvd hdvd⟩

/-- **A line is counted in the months it is billed in exactly when its billing
keeps to its `billing_months`.** -/
theorem forecast_agrees_iff (db : RentalDb) (l : ContractLine) (hactive : l.state = .active)
    (hrecurring : l.billingMode = .recurring) :
    Agrees db l ↔ ∀ p ∈ l.nextPeriodStart, Keeps p l.billingAnchorDay (resolvedInterval db l)
        (resolvedUnit db l) (max l.billingMonths 1) l.dateEnd := by
  rw [agrees_iff]
  rcases hnext : l.nextPeriodStart with - | p
  · -- no period is due, and the line is not counted
    refine iff_of_true (fun month => ?_) fun p hp => (nomatch hp)
    rw [countsIn_iff hactive hrecurring, StartsIn, hnext]
    simp
  · have hcounted : ∀ month, countsIn l month = true ↔
        Steps.Every monthOf (max l.billingMonths 1) l.dateEnd (monthOf p)
          month := by
      intro month
      rw [countsIn_iff hactive hrecurring, hnext]
      simp
    have hstarts : ∀ month, StartsIn db l month ↔
        Steps.Visits (periodAfter p l.billingAnchorDay (resolvedInterval db l)
          (resolvedUnit db l)) monthOf l.dateEnd month := by
      intro month
      rw [StartsIn, hnext]
      simp [Steps.Visits]
    rw [forall_congr' fun month => iff_congr (hcounted month) (hstarts month)]
    refine (Steps.visits_iff_every (periodAfter_strictMono _ _ _ _) monthOf_mono
      monthOf_far (le_max_right _ 1)).trans ?_
    rw [byStep_iff_keeps]
    constructor
    · rintro hkeeps x ⟨⟩
      exact hkeeps
    · intro h
      exact h p rfl

/-- A let by whole months is forecast as it is billed. -/
theorem forecast_agrees_iff_twoLets : Agrees twoLets monthlyLet :=
  (forecast_agrees_iff twoLets monthlyLet rfl rfl).mpr (by
    rintro p ⟨⟩
    rfl)

/-- A let that follows a quarterly contract. -/
def followedQuarter : RentalDb where
  account := landlordBooks
  contracts := Table.empty.insert
    (derivePeriod { name := "Shop", partnerId := 7, billingPeriod := .quarterly })
  lines := Table.empty.insert { monthlyLet with contractId := some 1 }

/-- The let is billed from February on every third month, and counted in every
month. -/
theorem inherited_quarter_overcounted :
    ¬ ∀ (db : RentalDb) (l : ContractLine), l.state = .active → l.billingMode = .recurring →
      Agrees db l := by
  intro h
  let l : ContractLine := { monthlyLet with contractId := some 1 }
  have hagrees := h followedQuarter l rfl rfl
  rw [agrees_iff] at hagrees
  have hmarch : countsIn l (monthOf (ofDate 2026 3 1)) = true := by decide
  obtain ⟨p, hp, k, hmonth, -⟩ := (hagrees _).mp hmarch
  obtain rfl : ofDate 2026 2 1 = p := Option.some.inj hp
  have hthree : monthOf (periodAfter (ofDate 2026 2 1) 1 3 .month k) =
      monthOf (ofDate 2026 2 1) + k * 3 :=
    (periodAfter_months (fun d => rfl) k).1
  have heq := hthree.symm.trans hmonth
  have hfeb : monthOf (ofDate 2026 3 1) = monthOf (ofDate 2026 2 1) + 1 := by decide
  omega

end RentalForecast

end CErp
