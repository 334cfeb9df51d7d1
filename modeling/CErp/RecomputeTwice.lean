/-
Recomputing a document again, and its balance.

What recomputing writes on the counterparty's side, and the generated lines it
writes, it does not read.  A recomputed document is therefore left as it is, but
for the numbers of the generated lines: `IsRecomputed` says what such a document
looks like, `recomputeOne_again` that it stays so.

`recompute_totals_iff` weighs what the lines of the counterparty are set to against
what the other lines and the taxes come to.
-/
import CErp.InvoiceAgreement
import CErp.TaxAccuracy

namespace CErp

open Outcome List AccountDb Runs TaxEngine

namespace AccountMove

open OrderInvoices

/-! ### Documents but for the numbers of generated lines -/

/-- A line without its number, if it is generated. -/
def unnumbered (l : MoveLine) : MoveLine := { l with id := if isTaxLine l then 0 else l.id }

def Move.unnumbered (m : Move) : Move := { m with lines := m.lines.map AccountMove.unnumbered }

lemma unnumbered_of_kept {l : MoveLine} (h : isTaxLine l = false) : unnumbered l = l := by
  rw [unnumbered, h]
  rfl

lemma keptLines_unnumbered (m : Move) : keptLines (Move.unnumbered m) = keptLines m := by
  unfold keptLines Move.unnumbered
  induction m.lines with
  | nil => rfl
  | cons l ls ih =>
      have hsame : isTaxLine (AccountMove.unnumbered l) = isTaxLine l := rfl
      rw [map_cons, filter_cons, filter_cons, hsame, ih]
      cases hl : isTaxLine l with
      | false => rw [unnumbered_of_kept hl]
      | true => rfl

lemma isTaxLine_matchCounterparty (t : MoveType) (total : ℤ) (l : MoveLine) :
    isTaxLine (matchCounterparty t total l) = isTaxLine l := by
  unfold matchCounterparty
  split <;> split <;> rfl

/-- The side a line's product is booked on, and the counterparty's side. -/
def own (t : MoveType) (l : MoveLine) : ℤ := if t.productLinesAreCredit then l.credit else l.debit

def opposite (t : MoveType) (l : MoveLine) : ℤ :=
  if t.productLinesAreCredit then l.debit else l.credit

lemma matchCounterparty_of_nonpos {t : MoveType} {l : MoveLine} (h : opposite t l ≤ 0) (total : ℤ) :
    matchCounterparty t total l = l := by
  unfold opposite at h
  unfold matchCounterparty
  split at h
  · next hside => rw [if_pos hside, if_neg (by omega)]
  · next hside => rw [if_neg hside, if_neg (by omega)]

lemma own_matchCounterparty (t : MoveType) (total : ℤ) (l : MoveLine) :
    own t (matchCounterparty t total l) = own t l := by
  unfold own matchCounterparty
  cases t.productLinesAreCredit
  · simp only [Bool.false_eq_true, if_false]
    split <;> rfl
  · simp only [if_true]
    split <;> rfl

lemma opposite_matchCounterparty (t : MoveType) (total : ℤ) (l : MoveLine) :
    opposite t (matchCounterparty t total l) = if 0 < opposite t l then total else opposite t l := by
  unfold opposite matchCounterparty
  cases t.productLinesAreCredit
  · simp only [Bool.false_eq_true, if_false]
    split <;> rfl
  · simp only [if_true]
    split <;> rfl

/-- Matching twice is matching once. -/
lemma matchCounterparty_idem (t : MoveType) (total : ℤ) (l : MoveLine) :
    matchCounterparty t total (matchCounterparty t total l) = matchCounterparty t total l := by
  cases hside : t.productLinesAreCredit with
  | false =>
      by_cases hcredit : 0 < l.credit
      · simp [matchCounterparty, hside, hcredit]
      · simp [matchCounterparty, hside, hcredit]
  | true =>
      by_cases hdebit : 0 < l.debit
      · simp [matchCounterparty, hside, hdebit]
      · simp [matchCounterparty, hside, hdebit]

/-- Generated lines have nothing on the counterparty's side. -/
lemma newTaxLines_generated (db : AccountDb) (m : Move) (totals : TaxTotals) (n : ℤ) :
    ∀ l ∈ numbered n (newTaxLines db m totals), isTaxLine l = true ∧ opposite m.moveType l = 0 := by
  refine forall_mem_numbered (fun _ _ h => h) n ?_
  intro l hl
  obtain ⟨t, -, ht⟩ := mem_filterMap.mp hl
  unfold taxLine at ht
  split at ht
  · cases ht
  · obtain ⟨acctId, -, rfl⟩ := Option.map_eq_some_iff.mp ht
    refine ⟨rfl, ?_⟩
    unfold opposite
    split <;> rfl

/-- The lines of a recomputed document: those that are kept, matched, and the
generated ones. -/
lemma recomputed_lines (db : AccountDb) (m : Move) (totals : TaxTotals) (n : ℤ) :
    (recomputed m totals n (newTaxLines db m totals)).lines =
      (keptLines m).map (matchCounterparty m.moveType
        (untaxedAmount m + totals.grandTotal.micros)) ++
        numbered n (newTaxLines db m totals) := by
  unfold recomputed
  dsimp only
  rw [map_append]
  congr 1
  refine (map_congr_left ?_).trans (map_id _)
  intro l hl
  exact matchCounterparty_of_nonpos (newTaxLines_generated db m totals n l hl).2.le _

lemma map_unnumbered_newTaxLines (db : AccountDb) (m : Move) (totals : TaxTotals) (n n' : ℤ) :
    (numbered n (newTaxLines db m totals)).map unnumbered =
      (numbered n' (newTaxLines db m totals)).map unnumbered := by
  have hzero : ∀ k, (numbered k (newTaxLines db m totals)).map unnumbered =
      (newTaxLines db m totals).map fun l => { l with id := 0 } := by
    intro k
    refine Eq.trans ?_ (map_numbered (fun l => { l with id := 0 }) (fun _ _ => rfl) k _)
    apply map_congr_left
    intro l hl
    rw [unnumbered, (newTaxLines_generated db m totals k l hl).1]
    rfl
  rw [hzero, hzero]

/-! ### What recomputing reads -/

/-- Tables with the same taxes, accounts and decimals. -/
structure SameBooks (db s : AccountDb) : Prop where
  taxes : s.taxes = db.taxes
  accounts : s.accounts = db.accounts
  accountDigits : s.accountDigits = db.accountDigits

lemma SameBooks.refl (db : AccountDb) : SameBooks db db := ⟨rfl, rfl, rfl⟩

lemma SameBooks.trans {a b c : AccountDb} (hab : SameBooks a b) (hbc : SameBooks b c) :
    SameBooks a c :=
  ⟨hbc.taxes.trans hab.taxes, hbc.accounts.trans hab.accounts,
    hbc.accountDigits.trans hab.accountDigits⟩

/-- A document with the kept lines of another, matched to some total. -/
structure MatchOf (m m' : Move) (total : ℤ) : Prop where
  moveType : m'.moveType = m.moveType
  companyId : m'.companyId = m.companyId
  linePrecision : m'.linePrecision = m.linePrecision
  lines : keptLines m' = (keptLines m).map (matchCounterparty m.moveType total)

section Matched

variable (D : Type) [JsonDouble D] {db s : AccountDb} {m m' : Move} {total : ℤ}

lemma productLines_eq (m : Move) :
    m.lines.filter isProductLine = (keptLines m).filter isProductLine := by
  rw [keptLines, filter_filter]
  apply filter_congr
  intro l _
  unfold isProductLine isTaxLine
  cases l.taxLineId <;> simp

/-- The taxes of a document are those of the books. -/
lemma taxTotals_books (hbooks : SameBooks db s) (m : Move) :
    taxTotals D s m = taxTotals D db m := by
  have hprecision : linePrecision s m = linePrecision db m := by
    unfold linePrecision
    rw [hbooks.accountDigits]
  have hline : addLineTaxes D s = addLineTaxes D db := by
    funext dp totals l
    unfold addLineTaxes loadTaxes
    rw [hbooks.taxes]
  unfold taxTotals
  rw [hprecision, hline]

lemma newTaxLines_books (hbooks : SameBooks db s) (m : Move) (totals : TaxTotals) :
    newTaxLines s m totals = newTaxLines db m totals := by
  unfold newTaxLines
  rw [taxLine_congr m hbooks.taxes hbooks.accounts]

/-- The taxes of a matched document are those of the other. -/
lemma taxTotals_match (h : MatchOf m m' total) : taxTotals D db m' = taxTotals D db m := by
  have hprecision : linePrecision db m' = linePrecision db m := by
    unfold linePrecision
    rw [h.linePrecision]
  have hproduct : ∀ l, isProductLine (matchCounterparty m.moveType total l) = isProductLine l := by
    intro l
    unfold matchCounterparty
    split <;> split <;> rfl
  have hline : ∀ dp totals l, addLineTaxes D db dp totals (matchCounterparty m.moveType total l) =
      addLineTaxes D db dp totals l := by
    intro dp totals l
    unfold addLineTaxes matchCounterparty
    split <;> split <;> rfl
  unfold taxTotals
  rw [hprecision, productLines_eq, productLines_eq, h.lines, filter_map, foldlM_map]
  congr 1
  · funext totals l
    exact hline _ totals l
  · exact filter_congr fun l _ => hproduct l

lemma untaxedAmount_kept (m : Move) : untaxedAmount m =
    ((keptLines m).map (counted m.moveType.productLinesAreCredit)).sum := by
  rw [OrderInvoices.untaxedAmount_eq]
  unfold keptLines
  induction m.lines with
  | nil => rfl
  | cons l ls ih =>
      rw [map_cons, sum_cons, filter_cons, ih]
      cases hl : isTaxLine l with
      | false => rfl
      | true =>
          have hnone : counted m.moveType.productLinesAreCredit l = 0 := by
            unfold isTaxLine at hl
            unfold counted isProductLine
            rw [if_neg (by cases hid : l.taxLineId <;> simp_all)]
          rw [hnone, zero_add]
          rfl

/-- The untaxed amount is read off the other side. -/
lemma untaxedAmount_match (h : MatchOf m m' total) : untaxedAmount m' = untaxedAmount m := by
  rw [untaxedAmount_kept, untaxedAmount_kept, h.lines, h.moveType, map_map]
  congr 1
  apply map_congr_left
  intro l _
  have hown := own_matchCounterparty m.moveType total l
  unfold own at hown
  have hproduct : isProductLine (matchCounterparty m.moveType total l) = isProductLine l := by
    unfold matchCounterparty
    split <;> split <;> rfl
  rw [Function.comp_apply, counted, hproduct, hown]
  rfl

lemma newTaxLines_match (h : MatchOf m m' total) (totals : TaxTotals) :
    newTaxLines db m' totals = newTaxLines db m totals := by
  unfold newTaxLines
  congr 1
  funext t
  unfold taxLine
  rw [h.moveType, h.companyId]

end Matched

/-! ### Recomputed documents -/

variable {totals : TaxTotals}

section Recomputed

variable (D : Type) [JsonDouble D] {db s s' : AccountDb} {m m₁ : Move} {i : ℤ} {ids : List ℤ}

/-- A document as recomputing another leaves it, but for the numbers of generated
lines. -/
def IsRecomputed (db : AccountDb) (m m₁ : Move) : Prop :=
  ∃ totals, taxTotals D db m = .ok totals ∧
    (∀ l ∈ newTaxLines db m totals, (db.accounts.get? l.accountId).isSome = true) ∧
    Move.unnumbered m₁ = Move.unnumbered (recomputed m totals 0 (newTaxLines db m totals))

lemma unnumbered_recomputed (db : AccountDb) (m : Move) (totals : TaxTotals) (n n' : ℤ) :
    Move.unnumbered (recomputed m totals n (newTaxLines db m totals)) =
      Move.unnumbered (recomputed m totals n' (newTaxLines db m totals)) := by
  have hlines : ∀ k, Move.unnumbered (recomputed m totals k (newTaxLines db m totals)) =
      { recomputed m totals 0 (newTaxLines db m totals) with
        lines := (recomputed m totals k (newTaxLines db m totals)).lines.map unnumbered } :=
    fun _ => rfl
  rw [hlines, hlines, recomputed_lines, recomputed_lines, map_append, map_append,
    map_unnumbered_newTaxLines db m totals n n']

/-- Recomputing reads of a recomputed document what it read of the other. -/
lemma matchOf_recomputed {n : ℤ}
    (h : Move.unnumbered m₁ = Move.unnumbered (recomputed m totals n (newTaxLines db m totals))) :
    MatchOf m m₁ (untaxedAmount m + totals.grandTotal.micros) where
  moveType := (congrArg Move.moveType h :)
  companyId := (congrArg Move.companyId h :)
  linePrecision := (congrArg Move.linePrecision h :)
  lines := by
    rw [← keptLines_unnumbered m₁, h, keptLines_unnumbered, keptLines, recomputed_lines,
      filter_append]
    have hkept : ∀ l ∈ (keptLines m).map (matchCounterparty m.moveType
        (untaxedAmount m + totals.grandTotal.micros)), (!isTaxLine l) = true := by
      intro l hl
      obtain ⟨l', hl', rfl⟩ := mem_map.mp hl
      rw [isTaxLine_matchCounterparty]
      exact (mem_filter.mp hl').2
    have hgenerated : (numbered n (newTaxLines db m totals)).filter
        (fun l => !isTaxLine l) = [] := by
      apply filter_eq_nil_iff.mpr
      intro l hl
      rw [(newTaxLines_generated db m totals n l hl).1]
      decide
    rw [filter_eq_self.mpr hkept, hgenerated, append_nil]

/-- **A recomputed document is left as it is.** -/
theorem recomputeOne_again (hbooks : SameBooks db s) (hget : s.moves.get? i = some m₁)
    (h : IsRecomputed D db m m₁) : ∃ s', recomputeOne D s i = .ok s' ∧
      ∃ m₂, s'.moves.get? i = some m₂ ∧ Move.unnumbered m₂ = Move.unnumbered m₁ := by
  obtain ⟨totals, htotals, haccounts, hsame⟩ := h
  have hmatch := matchOf_recomputed hsame
  have htotals₁ : taxTotals D s m₁ = .ok totals := by
    rw [taxTotals_books D hbooks, taxTotals_match D hmatch, htotals]
  have hnew : newTaxLines s m₁ totals = newTaxLines db m totals := by
    rw [newTaxLines_books hbooks, newTaxLines_match hmatch]
  obtain ⟨s', hrun⟩ := recomputeOne_isOk hget htotals₁ (by
    rw [hnew, hbooks.accounts]
    exact haccounts)
  obtain ⟨totals', htotals', -, hafter⟩ := recomputeOne_ok hget hrun
  rw [htotals₁] at htotals'
  cases htotals'
  refine ⟨s', hrun, _, hafter, ?_⟩
  rw [unnumbered_recomputed s m₁ totals _ 0, hsame]
  have huntaxed := untaxedAmount_match hmatch
  have hlines : (recomputed m₁ totals 0 (newTaxLines s m₁ totals)).lines =
      (recomputed m totals 0 (newTaxLines db m totals)).lines := by
    rw [recomputed_lines, recomputed_lines, hmatch.lines, hmatch.moveType, huntaxed, hnew, map_map]
    congr 1
    apply map_congr_left
    intro l _
    exact matchCounterparty_idem _ _ l
  have hheader : Move.unnumbered (recomputed m₁ totals 0 (newTaxLines s m₁ totals)) =
      { Move.unnumbered m₁ with
        amountUntaxed := untaxedAmount m₁
        amountTax := totals.grandTotal.micros
        amountTotal := untaxedAmount m₁ + totals.grandTotal.micros
        amountResidual := if (Move.unnumbered m₁).paymentState = .paid then 0
          else untaxedAmount m₁ + totals.grandTotal.micros
        lines := (recomputed m₁ totals 0 (newTaxLines s m₁ totals)).lines.map unnumbered } := rfl
  rw [hheader, hsame, huntaxed, hlines]
  rfl

/-- Recomputing changes neither the books nor the other documents. -/
lemma recomputeOne_frame (h : recomputeOne D s i = .ok s') :
    SameBooks s s' ∧ ∀ j, j ≠ i → s'.moves.get? j = s.moves.get? j := by
  refine ⟨?_, (recomputeOne_rest h).2⟩
  unfold recomputeOne at h
  split at h
  · cases h
    exact .refl s
  next m hm =>
  rw [recomputeTaxLines_eq hm] at h
  obtain ⟨⟨db₁, tax⟩, htax, h⟩ := bind_ok_iff.mp h
  cases h
  obtain ⟨totals, -, htax⟩ := bind_ok_iff.mp htax
  obtain ⟨db₂, hlines, htax⟩ := bind_ok_iff.mp htax
  cases htax
  obtain ⟨⟨moves, n, heq⟩, -⟩ := addLines_ok hlines
  rw [heq]
  exact ⟨rfl, rfl, rfl⟩

/-- Recomputing a document, for the first time or again. -/
lemma recomputeOne_recomputed (hbooks : SameBooks db s) (hget : s.moves.get? i = some m₁)
    (hm : m₁ = m ∨ IsRecomputed D db m m₁) (h : recomputeOne D s i = .ok s') :
    ∃ m₂, s'.moves.get? i = some m₂ ∧ IsRecomputed D db m m₂ := by
  rcases hm with rfl | hagain
  · obtain ⟨totals, htotals, haccounts, hafter⟩ := recomputeOne_ok hget h
    rw [newTaxLines_books hbooks, hbooks.accounts] at haccounts
    rw [newTaxLines_books hbooks] at hafter
    rw [taxTotals_books D hbooks] at htotals
    exact ⟨_, hafter, totals, htotals, haccounts, unnumbered_recomputed db m₁ totals _ 0⟩
  · obtain ⟨s₁, hrun, m₂, hafter, hsame⟩ := recomputeOne_again D hbooks hget hagain
    rw [h] at hrun
    cases hrun
    obtain ⟨totals, htotals, haccounts, heq⟩ := hagain
    exact ⟨m₂, hafter, totals, htotals, haccounts, hsame.trans heq⟩

/-- A recomputed document stays one. -/
lemma recomputeTotals_stays (hbooks : SameBooks db s) (hget : s.moves.get? i = some m₁)
    (hm : IsRecomputed D db m m₁) (h : recomputeTotals D s ids = .ok s') :
    ∃ m₂, s'.moves.get? i = some m₂ ∧ IsRecomputed D db m m₂ := by
  have hstays : SameBooks db s' ∧ ∃ m₂, s'.moves.get? i = some m₂ ∧ IsRecomputed D db m m₂ := by
    refine foldlM_keeps
      (fun s => SameBooks db s ∧ ∃ m₂, s.moves.get? i = some m₂ ∧ IsRecomputed D db m m₂) ?_ h
      ⟨hbooks, m₁, hget, hm⟩
    rintro s j s' ⟨hbooks, m₂, hget, hm⟩ hone
    obtain ⟨hsame, hothers⟩ := recomputeOne_frame D hone
    refine ⟨hbooks.trans hsame, ?_⟩
    by_cases hj : i = j
    · subst hj
      exact recomputeOne_recomputed D hbooks hget (.inr hm) hone
    · exact ⟨m₂, (hothers i hj).trans hget, hm⟩
  exact hstays.2

/-- Every document of a call is recomputed. -/
lemma recomputeTotals_recomputed (hbooks : SameBooks db s) (hget : s.moves.get? i = some m)
    (hi : i ∈ ids) (h : recomputeTotals D s ids = .ok s') :
    ∃ m', s'.moves.get? i = some m' ∧ IsRecomputed D db m m' := by
  induction ids generalizing s with
  | nil => cases hi
  | cons j ids ih =>
      obtain ⟨s₁, hone, hrest⟩ := foldlM_cons_ok.mp h
      obtain ⟨hsame, hothers⟩ := recomputeOne_frame D hone
      by_cases hj : i = j
      · subst hj
        obtain ⟨m₁, hget₁, hm₁⟩ := recomputeOne_recomputed D hbooks hget (.inl rfl) hone
        exact recomputeTotals_stays D (hbooks.trans hsame) hget₁ hm₁ hrest
      · exact ih (hbooks.trans hsame) ((hothers i hj).trans hget)
          ((mem_cons.mp hi).resolve_left hj) hrest

/-- Recomputing recomputed documents succeeds and leaves every document as it is. -/
lemma recomputeTotals_again (hbooks : SameBooks db s)
    (h : ∀ i ∈ ids, ∀ m₁, s.moves.get? i = some m₁ → ∃ m, IsRecomputed D db m m₁) :
    ∃ s', recomputeTotals D s ids = .ok s' ∧
      ∀ i, (s'.moves.get? i).map Move.unnumbered = (s.moves.get? i).map Move.unnumbered := by
  induction ids generalizing s with
  | nil => exact ⟨s, rfl, fun _ => rfl⟩
  | cons j ids ih =>
      -- the first document keeps what it shows, the others keep all
      obtain ⟨s₁, hone, hkeeps⟩ : ∃ s₁, recomputeOne D s j = .ok s₁ ∧
          ∀ i, (s₁.moves.get? i).map Move.unnumbered = (s.moves.get? i).map Move.unnumbered := by
        rcases hget : s.moves.get? j with - | m₁
        · refine ⟨s, ?_, fun _ => rfl⟩
          unfold recomputeOne
          rw [hget]
        · obtain ⟨m, hm⟩ := h j mem_cons_self m₁ hget
          obtain ⟨s₁, hone, m₂, hget₂, hsame⟩ := recomputeOne_again D hbooks hget hm
          refine ⟨s₁, hone, ?_⟩
          intro i
          by_cases hi : i = j
          · rw [hi, hget₂, hget, Option.map_some, Option.map_some, hsame]
          · rw [(recomputeOne_frame D hone).2 i hi]
      have hbooks₁ := hbooks.trans (recomputeOne_frame D hone).1
      obtain ⟨s', hrest, hkeeps'⟩ := ih hbooks₁ (by
        intro i hi m₁ hget
        have hshown := hkeeps i
        rw [hget, Option.map_some] at hshown
        obtain ⟨m₀, hget₀, hsame⟩ := Option.map_eq_some_iff.mp hshown.symm
        obtain ⟨m, totals, htotals, haccounts, heq⟩ := h i (mem_cons_of_mem j hi) m₀ hget₀
        exact ⟨m, totals, htotals, haccounts, hsame.symm.trans heq⟩)
      refine ⟨s', foldlM_cons_ok.mpr ⟨s₁, hone, hrest⟩, ?_⟩
      intro i
      rw [hkeeps', hkeeps]

end Recomputed

/-! ### The balance of a recomputed document -/

lemma addTax_total {c : TaxComponent} {ts ts' : List TaxTotal} (h : addTax c ts = .ok ts') :
    (ts'.map (·.amount.micros)).sum = (ts.map (·.amount.micros)).sum + c.amount.micros := by
  induction ts generalizing ts' with
  | nil =>
      obtain ⟨amount, hamount, h⟩ := bind_ok_iff.mp h
      cases h
      have hsum : amount.micros = 0 + c.amount.micros := by rw [add_ok hamount]
      simp [hsum]
  | cons t ts ih =>
      unfold addTax at h
      split at h
      · obtain ⟨amount, hamount, h⟩ := bind_ok_iff.mp h
        cases h
        have hsum : amount.micros = 0 + c.amount.micros := by rw [add_ok hamount]
        simp only [map_cons, sum_cons, hsum]
        ring
      · split at h
        · obtain ⟨amount, hamount, h⟩ := bind_ok_iff.mp h
          cases h
          have hsum : amount.micros = t.amount.micros + c.amount.micros := by rw [add_ok hamount]
          simp only [map_cons, sum_cons, hsum]
          ring
        · obtain ⟨ts₁, hrest, rfl⟩ := map_ok_iff.mp h
          rw [map_cons, sum_cons, ih hrest, map_cons, sum_cons, add_assoc]

/-- The totals by tax add up to the total over all taxes. -/
def Adds (totals : TaxTotals) : Prop :=
  (totals.byTax.map (·.amount.micros)).sum = totals.grandTotal.micros

lemma taxTotals_adds (D : Type) [JsonDouble D] {db : AccountDb} {m : Move}
    (h : taxTotals D db m = .ok totals) : Adds totals := by
  refine foldlM_keeps Adds ?_ h rfl
  intro totals l totals' hadds hline
  unfold addLineTaxes at hline
  dsimp only at hline
  split at hline
  · cases hline
    exact hadds
  obtain ⟨price, -, hline⟩ := bind_ok_iff.mp hline
  obtain ⟨quantity, -, hline⟩ := bind_ok_iff.mp hline
  obtain ⟨res, -, hline⟩ := bind_ok_iff.mp hline
  refine foldlM_keeps Adds ?_ hline hadds
  intro totals c totals' hadds hone
  obtain ⟨byTax, hbyTax, hone⟩ := bind_ok_iff.mp hone
  obtain ⟨grandTotal, hgrand, hone⟩ := bind_ok_iff.mp hone
  cases hone
  have hsum : grandTotal.micros = totals.grandTotal.micros + c.amount.micros := by rw [add_ok hgrand]
  unfold Adds at *
  rw [addTax_total hbyTax, hadds, hsum]

/-- The number of lines the counterparty has. -/
def counterparties (m : Move) : ℤ :=
  ((keptLines m).map fun l => if 0 < opposite m.moveType l then 1 else 0).sum

/-- What counts in the balance, and neither in the untaxed amount nor as the
counterparty's. -/
def uncounted (m : Move) : ℤ :=
  ((keptLines m).map fun l => own m.moveType l - counted m.moveType.productLinesAreCredit l -
    if 0 < opposite m.moveType l then 0 else opposite m.moveType l).sum

/-- The tax that has no account to go to. -/
def unpostedTax (db : AccountDb) (m : Move) (totals : TaxTotals) : ℤ :=
  (totals.byTax.map fun t => if (taxLine db m t).isNone then t.amount.micros else 0).sum

lemma balanced_iff_sides (t : MoveType) (ls : List MoveLine) :
    linesBalance ls = 0 ↔ (ls.map (own t)).sum = (ls.map (opposite t)).sum := by
  have hbalance : linesBalance ls = if t.productLinesAreCredit then
      (ls.map (opposite t)).sum - (ls.map (own t)).sum
      else (ls.map (own t)).sum - (ls.map (opposite t)).sum := by
    induction ls with
    | nil => simp
    | cons l ls ih =>
        rw [linesBalance_cons, ih]
        simp only [map_cons, sum_cons]
        unfold own opposite
        split <;> ring
  rw [hbalance]
  split <;> omega

lemma own_newTaxLines (db : AccountDb) (m : Move) (totals : TaxTotals) :
    ((newTaxLines db m totals).map (own m.moveType)).sum =
      (totals.byTax.map (·.amount.micros)).sum - unpostedTax db m totals := by
  unfold newTaxLines unpostedTax
  induction totals.byTax with
  | nil => rfl
  | cons t ts ih =>
      rw [map_cons, sum_cons, map_cons, sum_cons]
      rcases hl : taxLine db m t with - | l
      · rw [filterMap_cons_none hl, ih]
        simp only [Option.isNone_none, if_true]
        ring
      · have hown : own m.moveType l = t.amount.micros := by
          unfold taxLine at hl
          split at hl
          · cases hl
          · obtain ⟨acctId, -, rfl⟩ := Option.map_eq_some_iff.mp hl
            unfold own
            split <;> rfl
        rw [filterMap_cons_some hl, map_cons, sum_cons, ih, hown]
        simp only [Option.isNone_some, Bool.false_eq_true, if_false]
        ring

/-- What the counterparty's lines are set to is what the document comes to. -/
def Settles (D : Type) [JsonDouble D] (db : AccountDb) (m : Move) : Prop :=
  ∃ totals, taxTotals D db m = .ok totals ∧
    (counterparties m - 1) * (untaxedAmount m + totals.grandTotal.micros) =
      uncounted m - unpostedTax db m totals

lemma balanced_recomputed {db : AccountDb} {m : Move} (hadds : Adds totals) (n : ℤ) :
    linesBalance (recomputed m totals n (newTaxLines db m totals)).lines = 0 ↔
      (counterparties m - 1) * (untaxedAmount m + totals.grandTotal.micros) =
        uncounted m - unpostedTax db m totals := by
  have hgenerated : ((numbered n (newTaxLines db m totals)).map
      (opposite m.moveType)).sum = 0 := by
    apply sum_eq_zero
    intro x hx
    obtain ⟨l, hl, rfl⟩ := mem_map.mp hx
    exact (newTaxLines_generated db m totals n l hl).2
  have hown := own_newTaxLines db m totals
  rw [hadds] at hown
  rw [balanced_iff_sides m.moveType, recomputed_lines, map_append, map_append,
    sum_append, sum_append, hgenerated,
    map_numbered (own m.moveType) (fun _ _ => rfl), hown, map_map, map_map]
  obtain ⟨total, htotal⟩ : ∃ total, total = untaxedAmount m + totals.grandTotal.micros := ⟨_, rfl⟩
  rw [← htotal]
  have hsides : ((keptLines m).map (own m.moveType ∘ matchCounterparty m.moveType total)).sum -
      ((keptLines m).map (opposite m.moveType ∘ matchCounterparty m.moveType total)).sum =
      untaxedAmount m + uncounted m - counterparties m * total := by
    rw [untaxedAmount_kept]
    unfold uncounted counterparties
    induction keptLines m with
    | nil => simp
    | cons l ls ih =>
        simp only [map_cons, sum_cons, Function.comp_apply, own_matchCounterparty,
          opposite_matchCounterparty] at ih ⊢
        split <;> linarith
  rw [sub_one_mul]
  constructor <;> intro h <;> linarith

lemma linesBalance_unnumbered (ls : List MoveLine) :
    linesBalance (ls.map unnumbered) = linesBalance ls := by
  rw [linesBalance, map_map]
  rfl

lemma balanced_iff_settles {D : Type} [JsonDouble D] {db : AccountDb} {m m' : Move}
    (h : IsRecomputed D db m m') : m'.Balanced ↔ Settles D db m := by
  obtain ⟨totals, htotals, -, hsame⟩ := h
  have hlines : m'.lines.map unnumbered =
      (recomputed m totals 0 (newTaxLines db m totals)).lines.map unnumbered :=
    congrArg Move.lines hsame
  unfold Move.Balanced
  rw [← linesBalance_unnumbered, hlines, linesBalance_unnumbered,
    balanced_recomputed (taxTotals_adds D htotals)]
  constructor
  · intro hbalanced
    exact ⟨totals, htotals, hbalanced⟩
  · rintro ⟨totals', htotals', hbalanced⟩
    rw [htotals] at htotals'
    cases htotals'
    exact hbalanced

/-- **Recomputing again changes nothing but the numbers of generated lines, and a
recomputed document balances if and only if what its counterparty's lines are set to
is what it comes to.** -/
theorem recompute_totals_iff (D : Type) [JsonDouble D] {db db' : AccountDb} {ids : List ℤ}
    (h : recomputeTotals D db ids = .ok db') :
    (∃ db'', recomputeTotals D db' ids = .ok db'' ∧
      ∀ i, (db''.moves.get? i).map Move.unnumbered = (db'.moves.get? i).map Move.unnumbered) ∧
    ∀ i ∈ ids, ∀ m, db.moves.get? i = some m →
      ∃ m', db'.moves.get? i = some m' ∧ (m'.Balanced ↔ Settles D db m) := by
  have hmissing : SameBooks db db' ∧ ∀ i, db.moves.get? i = none → db'.moves.get? i = none := by
    refine foldlM_keeps
      (fun s => SameBooks db s ∧ ∀ i, db.moves.get? i = none → s.moves.get? i = none) ?_ h
      ⟨.refl db, fun _ hi => hi⟩
    rintro s j s' ⟨hbooks, hnone⟩ hone
    obtain ⟨hsame, hothers⟩ := recomputeOne_frame D hone
    refine ⟨hbooks.trans hsame, ?_⟩
    intro i hi
    by_cases hj : i = j
    · subst hj
      unfold recomputeOne at hone
      rw [hnone i hi] at hone
      cases hone
      exact hnone i hi
    · rw [hothers i hj, hnone i hi]
  constructor
  · refine recomputeTotals_again D hmissing.1 ?_
    intro i hi m₁ hget
    rcases hm : db.moves.get? i with - | m
    · rw [hmissing.2 i hm] at hget
      cases hget
    · obtain ⟨m', hget', hrecomputed⟩ := recomputeTotals_recomputed D (.refl db) hm hi h
      rw [hget] at hget'
      cases hget'
      exact ⟨m, hrecomputed⟩
  · intro i hi m hm
    obtain ⟨m', hget', hrecomputed⟩ := recomputeTotals_recomputed D (.refl db) hm hi h
    exact ⟨m', hget', balanced_iff_settles hrecomputed⟩

/-- An invoice with one line of revenue and one receivable balances. -/
theorem recompute_totals_invoice : let _ := JsonDouble.wholeMicros
    ∃ db', recomputeTotals ℤ (oneInvoice [70000000]) [1] = .ok db' ∧
      ∃ m', db'.moves.get? 1 = some m' ∧ m'.Balanced := by
  intro _
  obtain ⟨db', hrun⟩ := exists_ok
    (show (recomputeTotals ℤ (oneInvoice [70000000]) [1]).isOk = true by decide)
  obtain ⟨m', hget, hbalanced⟩ := (recompute_totals_iff ℤ hrun).2 1 mem_cons_self _ rfl
  exact ⟨db', hrun, m', hget, hbalanced.mpr ⟨{}, rfl, by decide⟩⟩

/-- An invoice of 100.00 with a discount of 10.00 as a negative line, and a
receivable of 90.00. -/
def discountedInvoice : AccountDb :=
  { oneInvoice [] with
    moves := Table.empty.insert (invoiceOf [
      { id := 1, accountId := 2, credit := 100000000, priceUnit := 100000000, quantity := 1000000 },
      { id := 2, accountId := 2, credit := -10000000, priceUnit := -10000000, quantity := 1000000 },
      { id := 3, accountId := 1, debit := 90000000 }]) }

/-- **A discount puts a recomputed invoice out of balance.**  The negative line is
not read, and the receivable is set to 100.00. -/
theorem discount_unbalances : let _ := JsonDouble.wholeMicros
    (∃ m, discountedInvoice.moves.get? 1 = some m ∧ m.Balanced) ∧
      ∃ db', recomputeTotals ℤ discountedInvoice [1] = .ok db' ∧
        ∃ m', db'.moves.get? 1 = some m' ∧ linesBalance m'.lines = 10000000 ∧ ¬ m'.Balanced := by
  intro _
  refine ⟨⟨_, rfl, by rfl⟩, ?_⟩
  have hrun : (recomputeTotals ℤ discountedInvoice [1]).map
      (fun db' => (db'.moves.get? 1).map fun m' => linesBalance m'.lines) = .ok (some 10000000) := by
    decide
  obtain ⟨db', hrecompute, hbalance⟩ := map_ok_iff.mp hrun
  obtain ⟨m', hget, hlines⟩ := Option.map_eq_some_iff.mp hbalance
  refine ⟨db', hrecompute, m', hget, hlines, ?_⟩
  unfold Move.Balanced
  rw [hlines]
  decide

end AccountMove

end CErp
