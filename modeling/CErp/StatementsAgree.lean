/-
Whether the financial statements agree with each other.

The statements cut and scope by the date and company of a line, and a move
balances over all its lines: the trial balance and the balance sheet are even as
far as the lines they leave out of moves they take others of are
(`LeftOutEven`).  The profit and loss asks for five types, the balance sheet for
the start of a type: they agree as far as the accounts of other such types are
even (`UnlistedEven`).  The general ledger closes with the trial balance always.
-/
import CErp.FinancialReports

namespace CErp

open List Table

namespace FinancialReports

open DatedEntries

/-! ### Books -/

/-- Income or expense, by the start of the type. -/
def isEarning (t : String) : Bool := Text.hasPrefix "income" t || Text.hasPrefix "expense" t

def isClassified (t : String) : Bool :=
  Text.hasPrefix "asset" t || Text.hasPrefix "liability" t || Text.hasPrefix "equity" t ||
    isEarning t

/-- A chart of accounts of the five classes, and posted moves that balance. -/
structure Books extends Ledger where
  classified : ∀ a ∈ accounts.rows, isClassified a.2.accountType = true
  balanced : ∀ m ∈ moves.rows, m.2.state = .posted →
    total Item.amount (lines.rows.filter fun r => r.2.moveId = m.1) = 0

/-- The dates of a report. -/
structure Period where
  dateFrom : ℤ
  dateTo : ℤ
  le : dateFrom ≤ dateTo

variable (b : Books) (companyId : ℤ)

/-- The closing balance of an account, zero where the ledger omits it. -/
def closingBalance (date_from date_to accountId : ℤ) : ℤ :=
  (((generalLedger b.toLedger companyId date_from date_to).find? (·.accountId == accountId)).map
    LedgerAccount.closing).getD 0

/-- The balance of an account in the trial balance, zero where it is omitted. -/
def trialBalanceOf (date_to accountId : ℤ) : ℤ :=
  (((trialBalance b.toLedger companyId date_to).lines.find? (·.accountId == accountId)).map
    fun x => x.debit - x.credit).getD 0

/-- What the statements promise each other. -/
structure Agree (w : Period) : Prop where
  trial : (trialBalance b.toLedger companyId w.dateTo).debit =
    (trialBalance b.toLedger companyId w.dateTo).credit
  sheet : (balanceSheet b.toLedger companyId w.dateTo).totalAssets =
    (balanceSheet b.toLedger companyId w.dateTo).totalLiabilitiesEquity
  profit : (profitLoss b.toLedger companyId w.dateFrom w.dateTo).netProfit =
    (balanceSheet b.toLedger companyId w.dateTo).currentYearEarnings -
      (balanceSheet b.toLedger companyId (w.dateFrom - 1)).currentYearEarnings
  ledger : ∀ id, closingBalance b companyId w.dateFrom w.dateTo id = trialBalanceOf b companyId w.dateTo id

/-- A line that a report up to a date counts. -/
def isCounted (date_to : ℤ) (r : Item) : Bool :=
  inCompany companyId r.2.companyId && isPosted b.toLedger companyId r.2.moveId &&
    upTo Item.date (some date_to) r

/-- A posted move of which some lines are counted. -/
def isTouched (date_to : ℤ) (moveId : ℤ) : Bool :=
  b.lines.rows.any fun r => r.2.moveId == moveId && isCounted b companyId date_to r

/-- The lines of touched moves that are not counted, for their date or their
company, balance. -/
def LeftOutEven (date_to : ℤ) : Prop :=
  total Item.amount (b.lines.rows.filter fun r =>
    isTouched b companyId date_to r.2.moveId && !isCounted b companyId date_to r) = 0

/-- The accounts of income and expense types other than the five that profit and
loss asks for have nothing in the period, all in all. -/
def UnlistedEven (w : Period) : Prop :=
  ((b.accounts.rows.filter fun a =>
      isEarning a.2.accountType && !decide (a.2.accountType ∈ profitTypes)).map fun a =>
    total Item.amount (linesOf b.toLedger companyId (between w.dateFrom w.dateTo) a.1)).sum = 0

instance (date_to : ℤ) : Decidable (LeftOutEven b companyId date_to) :=
  inferInstanceAs (Decidable (_ = _))

instance (w : Period) : Decidable (UnlistedEven b companyId w) :=
  inferInstanceAs (Decidable (_ = _))

variable {b companyId}

/-! ### Sums over the accounts -/

/-- Debits less credits. -/
lemma debits_sub_credits (l : List Item) : debits l - credits l = total Item.amount l := by
  induction l with
  | nil => rfl
  | cons r l ih =>
      unfold debits credits total at ih ⊢
      rw [map_cons, map_cons, map_cons, sum_cons, sum_cons, sum_cons, ← ih, Item.amount]
      ring

/-- The accounts' lines are the lines. -/
lemma sum_linesOf (b : Ledger) (companyId : ℤ) (p : Item → Bool) (f : Item → ℤ) :
    (b.accounts.rows.map fun a => total f (linesOf b companyId p a.1)).sum =
      total f ((aml b companyId).filter fun r => isPosted b companyId r.2.moveId && p r) := by
  rw [← total_fibers (fun r : Item => r.2.accountId) b.accounts.nodup ?_, map_map]
  · rfl
  · intro r hr
    exact b.account_there r (mem_of_mem_filter (mem_of_mem_filter hr))

lemma foldl_add_eq_sum {α : Type*} (f : α → ℤ) (l : List α) (z : ℤ) :
    l.foldl (fun s x => s + f x) z = z + (l.map f).sum := by
  induction l generalizing z with
  | nil => exact (add_zero z).symm
  | cons x l ih => rw [foldl_cons, ih, map_cons, sum_cons, add_assoc]

/-- Rows that an inner join leaves out add nothing. -/
lemma sum_joined (b : Ledger) (companyId : ℤ) (p : Item → Bool)
    (accounts : List (ℤ × ChartAccount)) (f : ChartAccount → List Item → ℤ)
    (hf : ∀ a, f a [] = 0) :
    ((joined b companyId p accounts).map fun x => f x.1 x.2).sum =
      (accounts.map fun a => f a.2 (linesOf b companyId p a.1)).sum := by
  unfold joined
  induction accounts with
  | nil => rfl
  | cons a as ih =>
      rw [map_cons, map_cons, sum_cons, filter_cons]
      split
      · rw [map_cons, sum_cons, ih]
      · next h =>
          have hnil : linesOf b companyId p a.1 = [] := by simpa using h
          rw [hnil, hf, zero_add, ih]

/-! ### The trial balance -/

lemma trialLine_sum (b : Ledger) (companyId date_to : ℤ) (f : TrialLine → ℤ)
    (g : List Item → ℤ) (hf : ∀ id label l, f ⟨id, label, debits l, credits l⟩ = g l)
    (hg : ∀ l, debits l = 0 → credits l = 0 → g l = 0) (accounts : List (ℤ × ChartAccount)) :
    ((accounts.filterMap (trialLine? b companyId date_to)).map f).sum = (accounts.map fun a =>
        g (linesOf b companyId (upTo Item.date (some date_to)) a.1)).sum := by
  induction accounts with
  | nil => rfl
  | cons a as ih =>
      rw [map_cons, sum_cons, filterMap_cons]
      split
      · next h =>
          -- an account without sums is left out
          unfold trialLine? at h
          dsimp only at h
          split at h
          · cases h
          · next hzero =>
              rw [not_or, not_not, not_not] at hzero
              rw [hg _ hzero.1 hzero.2, zero_add, ih]
      · next x h =>
          unfold trialLine? at h
          dsimp only at h
          split at h
          · cases h
            rw [map_cons, sum_cons, hf, ih]
          · cases h

lemma sum_byCode (b : Ledger) (g : ℤ × ChartAccount → ℤ) :
    ((byCode b).map g).sum = (b.accounts.rows.map g).sum :=
  ((perm_insertionSort _ b.accounts.rows).map g).sum_eq

lemma sum_byType (b : Ledger) (g : ℤ × ChartAccount → ℤ) :
    ((byType b).map g).sum = (b.accounts.rows.map g).sum :=
  ((perm_insertionSort _ b.accounts.rows).map g).sum_eq

/-- What the trial balance is off by. -/
lemma trialBalance_diff (b : Ledger) (companyId date_to : ℤ) :
    (trialBalance b companyId date_to).debit - (trialBalance b companyId date_to).credit =
      total Item.amount ((aml b companyId).filter fun r =>
        isPosted b companyId r.2.moveId && upTo Item.date (some date_to) r) := by
  have hd := trialLine_sum b companyId date_to TrialLine.debit debits (fun _ _ _ => rfl)
    (fun _ h _ => h) (byCode b)
  have hc := trialLine_sum b companyId date_to TrialLine.credit credits (fun _ _ _ => rfl)
    (fun _ _ h => h) (byCode b)
  rw [sum_byCode] at hd hc
  have hdebit : (trialBalance b companyId date_to).debit = _ :=
    ((foldl_add_eq_sum _ _ 0).trans (zero_add _)).trans hd
  have hcredit : (trialBalance b companyId date_to).credit = _ :=
    ((foldl_add_eq_sum _ _ 0).trans (zero_add _)).trans hc
  have hsum : ∀ f : Item → ℤ, (b.accounts.rows.map fun a =>
      total f (linesOf b companyId (upTo Item.date (some date_to)) a.1)).sum = _ :=
    sum_linesOf b companyId _
  rw [hdebit, hcredit]
  unfold debits credits
  rw [hsum, hsum]
  exact debits_sub_credits _

/-! ### The balance sheet and the profit and loss -/

/-- A text does not start in two ways of which neither starts with the other. -/
lemma hasPrefix_exclusive {pre other t : String} (h : Text.hasPrefix pre t = true)
    (hpre : ¬ pre.toList <+: other.toList) (hother : ¬ other.toList <+: pre.toList) :
    Text.hasPrefix other t = false := by
  unfold Text.hasPrefix at h ⊢
  rw [List.isPrefixOf_iff_prefix] at h
  by_contra hboth
  rw [Bool.not_eq_false, List.isPrefixOf_iff_prefix] at hboth
  exact (List.prefix_or_prefix_of_prefix h hboth).elim hpre hother

lemma isEarning_only {t : String} (h : isEarning t = true) : Text.hasPrefix "asset" t = false ∧
    Text.hasPrefix "liability" t = false ∧ Text.hasPrefix "equity" t = false := by
  unfold isEarning at h
  rw [Bool.or_eq_true] at h
  rcases h with h | h
  · exact ⟨hasPrefix_exclusive h (by decide) (by decide),
      hasPrefix_exclusive h (by decide) (by decide), hasPrefix_exclusive h (by decide) (by decide)⟩
  · exact ⟨hasPrefix_exclusive h (by decide) (by decide),
      hasPrefix_exclusive h (by decide) (by decide), hasPrefix_exclusive h (by decide) (by decide)⟩

/-- What the balance sheet is off by. -/
def BalanceSheet.diff (s : BalanceSheet) : ℤ := s.totalAssets - s.totalLiabilitiesEquity

variable (s : BalanceSheet)

lemma BalanceSheet.diff_add {a : ChartAccount} (dr : ℤ) (h : isClassified a.accountType = true) :
    (s.add a dr (-dr)).diff = s.diff + dr := by
  unfold BalanceSheet.add BalanceSheet.diff BalanceSheet.totalAssets
    BalanceSheet.totalLiabilitiesEquity
  unfold isClassified isEarning at h
  split
  · dsimp only
    ring
  · next h₁ =>
      split
      · dsimp only
        ring
      · next h₂ =>
          split
          · dsimp only
            ring
          · next h₃ =>
              split
              · dsimp only
                ring
              · next h₄ =>
                  simp only [Bool.or_eq_true] at h
                  exact absurd h (by tauto)

lemma BalanceSheet.earnings_add (a : ChartAccount) (dr cr : ℤ) :
    (s.add a dr cr).earnings = s.earnings + if isEarning a.accountType = true then cr else 0 := by
  by_cases h : isEarning a.accountType = true
  · obtain ⟨h₁, h₂, h₃⟩ := isEarning_only h
    have h₄ : Text.hasPrefix "income" a.accountType = true ∨
        Text.hasPrefix "expense" a.accountType = true := by
      rw [← Bool.or_eq_true]
      exact h
    unfold BalanceSheet.add
    rw [h₁, h₂, h₃, if_neg Bool.false_ne_true, if_neg Bool.false_ne_true,
      if_neg Bool.false_ne_true, if_pos h₄, if_pos h]
  · have h₄ : ¬ (Text.hasPrefix "income" a.accountType = true ∨
        Text.hasPrefix "expense" a.accountType = true) := by
      rw [← Bool.or_eq_true]
      exact h
    unfold BalanceSheet.add
    rw [if_neg h, add_zero]
    split
    · rfl
    · split
      · rfl
      · split
        · rfl
        · rfl

lemma sheet_foldl_diff {rows : List (ChartAccount × List Item)}
    (h : ∀ x ∈ rows, isClassified x.1.accountType = true) :
    (rows.foldl (fun s x => s.add x.1 (debits x.2 - credits x.2) (credits x.2 - debits x.2)) s).diff =
      s.diff + (rows.map fun x => total Item.amount x.2).sum := by
  induction rows generalizing s with
  | nil => exact (add_zero _).symm
  | cons x rows ih =>
      rw [forall_mem_cons] at h
      rw [foldl_cons, ih _ h.2, ← neg_sub (debits x.2), s.diff_add _ h.1, debits_sub_credits,
        map_cons, sum_cons, add_assoc]

variable (rows : List (ChartAccount × List Item))

lemma sheet_foldl_earnings (s : BalanceSheet) :
    (rows.foldl (fun s x => s.add x.1 (debits x.2 - credits x.2) (credits x.2 - debits x.2)) s).earnings =
      s.earnings + (rows.map fun x =>
        if isEarning x.1.accountType = true then - total Item.amount x.2 else 0).sum := by
  induction rows generalizing s with
  | nil => exact (add_zero _).symm
  | cons x rows ih =>
      rw [foldl_cons, ih, s.earnings_add, ← neg_sub (debits x.2), debits_sub_credits,
        map_cons, sum_cons, add_assoc]

/-- What the balance sheet is off by. -/
lemma balanceSheet_diff (b : Books) (companyId date_to : ℤ) :
    (balanceSheet b.toLedger companyId date_to).diff =
      total Item.amount ((aml b.toLedger companyId).filter fun r =>
        isPosted b.toLedger companyId r.2.moveId && upTo Item.date (some date_to) r) := by
  unfold balanceSheet
  rw [sheet_foldl_diff]
  · rw [sum_joined _ _ _ _ (fun _ l => total Item.amount l) (fun _ => rfl), sum_byType]
    exact (zero_add _).trans (sum_linesOf b.toLedger companyId _ Item.amount)
  · intro x hx
    obtain ⟨a, ha, rfl⟩ := mem_map.mp (mem_of_mem_filter hx)
    exact b.classified a ((perm_insertionSort _ _).mem_iff.mp ha)

lemma currentYearEarnings_eq (b : Ledger) (companyId date_to : ℤ) :
    (balanceSheet b companyId date_to).currentYearEarnings =
      (b.accounts.rows.map fun a => if isEarning a.2.accountType = true then
        - total Item.amount (linesOf b companyId (upTo Item.date (some date_to)) a.1) else 0).sum := by
  unfold BalanceSheet.currentYearEarnings balanceSheet
  rw [sheet_foldl_earnings,
    sum_joined _ _ _ _ (fun a l => if isEarning a.accountType = true then - total Item.amount l else 0)
      (fun _ => by rw [total, map_nil, sum_nil, neg_zero, ite_self]), sum_byType]
  exact zero_add _

lemma profit_foldl (s : ProfitLoss) :
    (rows.foldl (fun s x => s.add x.1 (credits x.2 - debits x.2)) s).netProfit =
      s.netProfit + (rows.map fun x => - total Item.amount x.2).sum := by
  induction rows generalizing s with
  | nil => exact (add_zero _).symm
  | cons x rows ih =>
      have hadd : (s.add x.1 (credits x.2 - debits x.2)).netProfit =
          s.netProfit + - total Item.amount x.2 := by
        rw [← debits_sub_credits]
        unfold ProfitLoss.add ProfitLoss.netProfit
        split
        · dsimp only
          ring
        · dsimp only
          ring
      rw [foldl_cons, ih, hadd, map_cons, sum_cons, add_assoc]

lemma netProfit_eq (b : Ledger) (companyId date_from date_to : ℤ) :
    (profitLoss b companyId date_from date_to).netProfit =
      (b.accounts.rows.map fun a => if a.2.accountType ∈ profitTypes then
        - total Item.amount (linesOf b companyId (between date_from date_to) a.1) else 0).sum := by
  unfold profitLoss
  rw [profit_foldl, sum_joined _ _ _ _ (fun _ l => - total Item.amount l) (fun _ => neg_zero),
    ← sum_byType]
  refine (zero_add _).trans ?_
  -- accounts the query does not ask for add nothing
  generalize byType b = accounts
  induction accounts with
  | nil => rfl
  | cons a as ih =>
      rw [filter_cons, map_cons, sum_cons]
      by_cases h : a.2.accountType ∈ profitTypes
      · rw [if_pos (decide_eq_true h), if_pos h, map_cons, sum_cons, ih]
      · rw [if_neg (by simpa using h), if_neg h, zero_add, ih]

lemma listed_isEarning {t : String} (h : t ∈ profitTypes) : isEarning t = true := by
  unfold profitTypes at h
  simp only [mem_cons, not_mem_nil, or_false] at h
  rcases h with rfl | rfl | rfl | rfl | rfl
  all_goals decide

/-- What the lines of an account come to up to the end of a period, and what
they came to the day before it. -/
lemma total_linesOf_period (b : Ledger) (companyId : ℤ) (w : Period) (id : ℤ) :
    total Item.amount (linesOf b companyId (upTo Item.date (some w.dateTo)) id) =
      total Item.amount (linesOf b companyId (before Item.date (some w.dateFrom)) id) +
        total Item.amount (linesOf b companyId (between w.dateFrom w.dateTo) id) := by
  have hlines : ∀ p : Item → Bool, linesOf b companyId p id = (((aml b companyId).filter fun r =>
      isPosted b companyId r.2.moveId).filter fun r => r.2.accountId = id).filter p := by
    intro p
    unfold linesOf
    rw [filter_filter, filter_filter, filter_filter]
    apply filter_congr
    intro r _
    rw [Bool.and_comm (p r), Bool.and_assoc, Bool.and_comm (isPosted b companyId r.2.moveId)]
  have hfirst : ∀ s ∈ some w.dateFrom, s ≤ w.dateTo := by
    intro s hs
    cases hs
    exact w.le
  rw [hlines, hlines, hlines]
  exact total_upTo hfirst _

lemma upTo_pred (date_from : ℤ) :
    upTo Item.date (some (date_from - 1)) = before Item.date (some date_from) := by
  funext r
  unfold upTo before
  rw [Option.all_some, Option.any_some]
  congr 1
  funext d
  rw [decide_eq_decide]
  exact Int.le_sub_one_iff

/-- When the profit of a period is what the balance sheet makes of it. -/
lemma profit_iff (b : Books) (companyId : ℤ) (w : Period) :
    ((profitLoss b.toLedger companyId w.dateFrom w.dateTo).netProfit =
      (balanceSheet b.toLedger companyId w.dateTo).currentYearEarnings -
        (balanceSheet b.toLedger companyId (w.dateFrom - 1)).currentYearEarnings) ↔
      UnlistedEven b companyId w := by
  rw [netProfit_eq, currentYearEarnings_eq, currentYearEarnings_eq, upTo_pred]
  unfold UnlistedEven
  have hsplit : ∀ accounts : List (ℤ × ChartAccount),
      (accounts.map fun a => if isEarning a.2.accountType = true then
          - total Item.amount (linesOf b.toLedger companyId (upTo Item.date (some w.dateTo)) a.1)
            else 0).sum -
        (accounts.map fun a => if isEarning a.2.accountType = true then
          - total Item.amount (linesOf b.toLedger companyId (before Item.date (some w.dateFrom)) a.1)
            else 0).sum =
      (accounts.map fun a => if a.2.accountType ∈ profitTypes then
          - total Item.amount (linesOf b.toLedger companyId (between w.dateFrom w.dateTo) a.1)
            else 0).sum -
        ((accounts.filter fun a =>
            isEarning a.2.accountType && !decide (a.2.accountType ∈ profitTypes)).map fun a =>
          total Item.amount (linesOf b.toLedger companyId (between w.dateFrom w.dateTo) a.1)).sum := by
    intro accounts
    induction accounts with
    | nil => rfl
    | cons a as ih =>
        have hperiod := total_linesOf_period b.toLedger companyId w a.1
        rw [map_cons, map_cons, map_cons, sum_cons, sum_cons, sum_cons, filter_cons]
        by_cases hlisted : a.2.accountType ∈ profitTypes
        · rw [if_pos (listed_isEarning hlisted), if_pos (listed_isEarning hlisted),
            if_pos hlisted, if_neg (by simp [hlisted])]
          linarith only [hperiod, ih]
        · by_cases hearning : isEarning a.2.accountType = true
          · rw [if_pos hearning, if_pos hearning, if_neg hlisted, if_pos (by simp [hearning, hlisted]),
              map_cons, sum_cons]
            linarith only [hperiod, ih]
          · rw [if_neg hearning, if_neg hearning, if_neg hlisted, if_neg (by simp [hearning])]
            linarith only [ih]
  rw [hsplit]
  constructor
  · intro h
    linarith only [h]
  · intro h
    rw [h]
    ring

/-! ### What is left out -/

lemma isPosted_balanced (b : Books) {companyId id : ℤ}
    (h : isPosted b.toLedger companyId id = true) :
    total Item.amount (b.lines.rows.filter fun r => r.2.moveId = id) = 0 := by
  unfold isPosted am at h
  rcases hm : b.moves.get? id with - | m
  · rw [hm] at h
    cases h
  · rw [hm, Option.filter_some] at h
    split at h
    · refine b.balanced (id, m) (get?_eq_some_iff.mp hm) ?_
      exact beq_iff_eq.mp h
    · cases h

lemma isTouched_posted {b : Books} {companyId date_to id : ℤ}
    (h : isTouched b companyId date_to id = true) : isPosted b.toLedger companyId id = true := by
  obtain ⟨r, -, hr⟩ := any_eq_true.mp h
  rw [Bool.and_eq_true, beq_iff_eq] at hr
  obtain ⟨rfl, hcounted⟩ := hr
  unfold isCounted at hcounted
  rw [Bool.and_eq_true, Bool.and_eq_true] at hcounted
  exact hcounted.1.2

/-- What is counted is what is left out of the same moves, the other way round. -/
lemma total_counted (b : Books) (companyId date_to : ℤ) :
    total Item.amount ((aml b.toLedger companyId).filter fun r =>
        isPosted b.toLedger companyId r.2.moveId && upTo Item.date (some date_to) r) =
      - total Item.amount (b.lines.rows.filter fun r =>
        isTouched b companyId date_to r.2.moveId && !isCounted b companyId date_to r) := by
  have hcounted : (aml b.toLedger companyId).filter (fun r =>
      isPosted b.toLedger companyId r.2.moveId && upTo Item.date (some date_to) r) =
        b.lines.rows.filter (isCounted b companyId date_to) := by
    unfold aml
    rw [filter_filter]
    apply filter_congr
    intro r _
    unfold isCounted
    rw [Bool.and_comm, Bool.and_assoc]
  -- the lines of a touched move are counted or left out
  have hsplit : b.lines.rows.filter (fun r => isTouched b companyId date_to r.2.moveId) =
      b.lines.rows.filter fun r => isCounted b companyId date_to r ||
        (isTouched b companyId date_to r.2.moveId && !isCounted b companyId date_to r) := by
    apply filter_congr
    intro r hr
    by_cases hc : isCounted b companyId date_to r = true
    · have ht : isTouched b companyId date_to r.2.moveId = true :=
        any_eq_true.mpr ⟨r, hr, by rw [hc, beq_self_eq_true]; rfl⟩
      rw [ht, hc]
      rfl
    · rw [Bool.not_eq_true] at hc
      rw [hc, Bool.not_false, Bool.and_true, Bool.false_or]
  have htouched : total Item.amount
      (b.lines.rows.filter fun r => isTouched b companyId date_to r.2.moveId) = 0 := by
    rw [← total_fibers (fun r : Item => r.2.moveId)
      (b.moves.nodup.filter (isTouched b companyId date_to))]
    · apply sum_eq_zero
      intro x hx
      obtain ⟨id, hid, rfl⟩ := mem_map.mp hx
      have hid := (mem_filter.mp hid).2
      have hlines : (b.lines.rows.filter fun r => isTouched b companyId date_to r.2.moveId).filter
          (fun r => r.2.moveId = id) = b.lines.rows.filter fun r => r.2.moveId = id := by
        rw [filter_filter]
        apply filter_congr
        intro r _
        by_cases hr : r.2.moveId = id
        · rw [hr, hid, Bool.and_true]
        · simp [hr]
      rw [hlines]
      exact isPosted_balanced b (isTouched_posted hid)
    · intro r hr
      obtain ⟨hmem, ht⟩ := mem_filter.mp hr
      exact mem_filter.mpr ⟨b.move_there r hmem, ht⟩
  rw [hsplit, total_filter_or fun r hr => by rw [hr, Bool.not_true, Bool.and_false]] at htouched
  rw [hcounted]
  exact eq_neg_of_add_eq_zero_left htouched

/-! ### The general ledger -/

variable {a : ℤ × ChartAccount}

/-- What is found under an account's id is what that account has. -/
lemma find?_filterMap {β : Type*} (f : ℤ × ChartAccount → Option β) (key : β → ℤ)
    (hkey : ∀ a x, f a = some x → key x = a.1) {accounts : List (ℤ × ChartAccount)}
    (hnodup : (accounts.map Prod.fst).Nodup) (ha : a ∈ accounts) :
    (accounts.filterMap f).find? (fun x => key x == a.1) = f a := by
  induction accounts with
  | nil => cases ha
  | cons c cs ih =>
      rw [map_cons, nodup_cons] at hnodup
      rw [filterMap_cons]
      rcases mem_cons.mp ha with rfl | ha
      · rcases hf : f a with - | x
        · -- the account has nothing, and no other has its id
          rw [find?_eq_none]
          intro x hx hkeyx
          obtain ⟨c, hc, hfc⟩ := mem_filterMap.mp hx
          refine hnodup.1 (mem_map.mpr ⟨c, hc, ?_⟩)
          rw [← hkey c x hfc]
          exact beq_iff_eq.mp hkeyx
        · dsimp only
          rw [find?_cons, hkey a x hf, beq_self_eq_true]
      · have hne : c.1 ≠ a.1 := fun h => hnodup.1 (h ▸ mem_map_of_mem ha)
        rcases hf : f c with - | x
        · exact ih hnodup.2 ha
        · dsimp only
          rw [find?_cons, hkey c x hf, beq_false_of_ne hne]
          exact ih hnodup.2 ha

lemma find?_filterMap_none {β : Type*} (f : ℤ × ChartAccount → Option β) (key : β → ℤ)
    (hkey : ∀ a x, f a = some x → key x = a.1) {accounts : List (ℤ × ChartAccount)} {id : ℤ}
    (hid : id ∉ accounts.map Prod.fst) :
    (accounts.filterMap f).find? (fun x => key x == id) = none := by
  rw [find?_eq_none]
  intro x hx hkeyx
  obtain ⟨c, hc, hfc⟩ := mem_filterMap.mp hx
  refine hid (mem_map.mpr ⟨c, hc, ?_⟩)
  rw [← hkey c x hfc]
  exact beq_iff_eq.mp hkeyx

lemma byCode_perm (b : Ledger) : (byCode b).Perm b.accounts.rows := perm_insertionSort _ _

lemma byCode_nodup (b : Ledger) : ((byCode b).map Prod.fst).Nodup :=
  ((byCode_perm b).map Prod.fst).nodup_iff.mpr b.accounts.nodup

lemma trialLine?_id {b : Ledger} {companyId date_to : ℤ} {x : TrialLine}
    (h : trialLine? b companyId date_to a = some x) : x.accountId = a.1 := by
  unfold trialLine? at h
  dsimp only at h
  split at h
  · cases h
    rfl
  · cases h

lemma ledgerAccount?_id {b : Ledger} {companyId date_from date_to : ℤ} {x : LedgerAccount}
    (h : ledgerAccount? b companyId date_from date_to a = some x) : x.accountId = a.1 := by
  unfold ledgerAccount? at h
  dsimp only at h
  split at h
  · cases h
  · cases h
    rfl

/-- The balance of an account in the trial balance is what its lines come to. -/
lemma trialBalanceOf_eq (b : Books) (companyId date_to : ℤ) (ha : a ∈ b.accounts.rows) :
    trialBalanceOf b companyId date_to a.1 =
      total Item.amount (linesOf b.toLedger companyId (upTo Item.date (some date_to)) a.1) := by
  unfold trialBalanceOf trialBalance
  rw [find?_filterMap _ TrialLine.accountId (fun _ _ => trialLine?_id) (byCode_nodup b.toLedger)
    ((byCode_perm b.toLedger).mem_iff.mpr ha), ← debits_sub_credits]
  unfold trialLine?
  dsimp only
  split
  · rfl
  · next hzero =>
      rw [not_or, not_not, not_not] at hzero
      rw [hzero.1, hzero.2]
      rfl

/-- The general ledger closes with what the lines of an account come to. -/
lemma closingBalance_eq (b : Books) (companyId : ℤ) (w : Period) (ha : a ∈ b.accounts.rows) :
    closingBalance b companyId w.dateFrom w.dateTo a.1 =
      total Item.amount (linesOf b.toLedger companyId (upTo Item.date (some w.dateTo)) a.1) := by
  have hperiod := total_linesOf_period b.toLedger companyId w a.1
  unfold closingBalance generalLedger
  by_cases hnone : linesOf b.toLedger companyId (upTo Item.date (some w.dateTo)) a.1 = []
  · -- the account is not among those the ledger goes through
    have hout : a.1 ∉ ((byCode b.toLedger).filter fun a =>
        linesOf b.toLedger companyId (upTo Item.date (some w.dateTo)) a.1 ≠ []).map Prod.fst := by
      intro hin
      obtain ⟨c, hc, hid⟩ := mem_map.mp hin
      have hlines := (mem_filter.mp hc).2
      rw [hid, decide_eq_true_iff] at hlines
      exact hlines hnone
    rw [find?_filterMap_none _ LedgerAccount.accountId (fun _ _ => ledgerAccount?_id) hout, hnone]
    rfl
  · have hin : a ∈ (byCode b.toLedger).filter fun a =>
        linesOf b.toLedger companyId (upTo Item.date (some w.dateTo)) a.1 ≠ [] :=
      mem_filter.mpr ⟨(byCode_perm b.toLedger).mem_iff.mpr ha, decide_eq_true hnone⟩
    rw [find?_filterMap _ LedgerAccount.accountId (fun _ _ => ledgerAccount?_id)
      ((byCode_nodup b.toLedger).sublist (filter_sublist.map _)) hin, hperiod]
    have hsorted : total Item.amount
        ((linesOf b.toLedger companyId (between w.dateFrom w.dateTo) a.1).insertionSort
          fun r s => r.key ≤ s.key) =
        total Item.amount (linesOf b.toLedger companyId (between w.dateFrom w.dateTo) a.1) :=
      total_perm (perm_insertionSort _ _)
    unfold ledgerAccount?
    dsimp only
    split
    · next hempty =>
        -- nothing in the period and nothing before it
        rw [hempty.1] at hsorted
        rw [hempty.2, ← hsorted]
        rfl
    · rw [Option.map_some, Option.getD_some, foldl_add_eq_sum]
      exact congrArg (total Item.amount
        (linesOf b.toLedger companyId (before Item.date (some w.dateFrom)) a.1) + ·) hsorted

lemma ledger_agrees (b : Books) (companyId : ℤ) (w : Period) (id : ℤ) :
    closingBalance b companyId w.dateFrom w.dateTo id = trialBalanceOf b companyId w.dateTo id := by
  by_cases hid : id ∈ b.accounts.rows.map Prod.fst
  · obtain ⟨a, ha, rfl⟩ := mem_map.mp hid
    rw [closingBalance_eq b companyId w ha, trialBalanceOf_eq b companyId w.dateTo ha]
  · have hcode : id ∉ (byCode b.toLedger).map Prod.fst := fun h =>
      hid (((byCode_perm b.toLedger).map Prod.fst).mem_iff.mp h)
    have hfilter : id ∉ ((byCode b.toLedger).filter fun a =>
        linesOf b.toLedger companyId (upTo Item.date (some w.dateTo)) a.1 ≠ []).map Prod.fst :=
      fun h => hcode ((filter_sublist.map _).subset h)
    unfold closingBalance trialBalanceOf generalLedger trialBalance
    rw [find?_filterMap_none _ LedgerAccount.accountId (fun _ _ => ledgerAccount?_id) hfilter,
      find?_filterMap_none _ TrialLine.accountId (fun _ _ => trialLine?_id) hcode]
    rfl

/-! ### Agreement -/

/-- **The statements agree exactly when the lines left out of touched moves
balance, and the accounts of unlisted income and expense types have nothing in
the period.** -/
theorem statements_agree_iff (b : Books) (companyId : ℤ) (w : Period) :
    Agree b companyId w ↔ LeftOutEven b companyId w.dateTo ∧ UnlistedEven b companyId w := by
  have htrial := trialBalance_diff b.toLedger companyId w.dateTo
  have hsheet := balanceSheet_diff b companyId w.dateTo
  rw [total_counted] at htrial hsheet
  unfold BalanceSheet.diff at hsheet
  constructor
  · intro h
    refine ⟨?_, (profit_iff b companyId w).mp h.profit⟩
    have htotals := h.trial
    unfold LeftOutEven
    linarith only [htrial, htotals]
  · rintro ⟨hleft, hunlisted⟩
    unfold LeftOutEven at hleft
    rw [hleft, neg_zero] at htrial hsheet
    exact ⟨sub_eq_zero.mp htrial, sub_eq_zero.mp hsheet, (profit_iff b companyId w).mpr hunlisted,
      ledger_agrees b companyId w⟩

/-- A sale on account, of which one line has no date. -/
def undatedSale : Books where
  accounts := ((empty.insert ⟨"1100", "Receivable", "asset_receivable"⟩).insert
    ⟨"4000", "Sales", "income"⟩)
  moves := empty.insert ⟨1, .posted⟩
  lines := ((empty.insert ⟨1, 1, some 1, some 20, 100, 0⟩).insert
    ⟨1, 2, some 1, none, 0, 100⟩)
  account_there := by decide
  move_there := by decide
  classified := by decide
  balanced := by decide

theorem undated_sale_disagrees : ¬ Agree undatedSale 1 ⟨1, 31, by decide⟩ := by
  rw [statements_agree_iff]
  decide

end FinancialReports

end CErp
