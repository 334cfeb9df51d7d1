/-
Statements of two windows that meet are the statement of both.

Every closing balance is the partner's receivable balance up to the end date
(`closingBalance_eq`), so the second statement opens where the first one closes, and
its lines go on with the balances of the first.  A movement is before a window, in it
or neither, and once at most (`movements_once`).
-/
import CErp.PortalStatement

namespace CErp

open Outcome List Table

namespace PortalStatement

open DatedEntries

variable {db : StatementDb} {partnerId : ℤ}

/-- The receivable balance of a partner up to a date. -/
def balanceUpTo (db : StatementDb) (partnerId last : ℤ) : ℤ :=
  total Movement.amount
    ((receivables db partnerId).filter (upTo Movement.date (some last)))

/-- What is before a window. -/
def earlier (db : StatementDb) (partnerId : ℤ) (first : Option ℤ) : List Movement :=
  (receivables db partnerId).filter (before Movement.date first)

/-! ### The order of the movements -/

instance : IsTrans Movement Movement.le where
  trans _ _ _ hrs hst := le_trans (α := WithTop ℤ ×ₗ ℤ ×ₗ ℤ) hrs hst

instance : Std.Total Movement.le where
  total r s := le_total r.key s.key

lemma Movement.inOrder_of_le {r s : Movement} (h : r.le s) : InOrder Movement.date r s := by
  intro e he
  have hdate : r.dateKey ≤ s.dateKey := Prod.Lex.monotone_fst _ _ h
  have hs : s.dateKey = (e : WithTop ℤ) := by
    unfold dateKey
    rw [show s.line.date = some e from he]
  rcases hr : r.line.date with - | d
  · rw [hs, dateKey, hr, top_le_iff] at hdate
    exact absurd hdate (WithTop.coe_ne_top)
  · refine ⟨d, hr, ?_⟩
    rw [hs, dateKey, hr] at hdate
    exact WithTop.coe_le_coe.mp hdate

/-- The movements of a window are a part of all in order. -/
lemma movements_eq (dateFrom dateTo : Option ℤ) : movements db partnerId dateFrom dateTo =
      ((receivables db partnerId).insertionSort Movement.le).filter fun r =>
        since Movement.date dateFrom r && upTo Movement.date dateTo r :=
  insertionSort_filter _ _

variable {first : Option ℤ}

lemma movements_append {mid last : ℤ} (hfirst : ∀ s ∈ first, s ≤ mid) (hlast : mid < last) :
    movements db partnerId first (some last) = movements db partnerId first (some mid) ++
        movements db partnerId (some (mid + 1)) (some last) := by
  rw [movements_eq, movements_eq, movements_eq]
  refine filter_windows ?_ hfirst (fun d => Int.add_one_le_iff) hlast
  exact (pairwise_insertionSort Movement.le _).imp Movement.inOrder_of_le

lemma total_movements (dateFrom dateTo : Option ℤ) :
    total Movement.amount (movements db partnerId dateFrom dateTo) =
      total Movement.amount ((receivables db partnerId).filter fun r =>
        since Movement.date dateFrom r && upTo Movement.date dateTo r) :=
  total_perm (perm_insertionSort _ _)

/-! ### Once at most -/

lemma movement?_id {r : ℤ × LedgerLine} {m : Movement}
    (h : movement? db partnerId r = some m) : m.id = r.1 := by
  unfold movement? at h
  split at h
  · split_ifs at h
    cases h
    rfl
  · cases h

lemma receivables_nodup (db : StatementDb) (partnerId : ℤ) :
    ((receivables db partnerId).map Movement.id).Nodup := by
  refine db.lines.nodup.sublist ?_
  unfold receivables
  induction db.lines.rows with
  | nil => exact Sublist.slnil
  | cons r rows ih =>
      rw [filterMap_cons]
      split
      · exact ih.cons _
      · next m hm =>
          rw [map_cons, map_cons, movement?_id hm]
          exact ih.cons_cons _

/-- **No movement is counted twice**: those before a window and those in it are all up
to its end, each once. -/
theorem movements_once {last : ℤ} (hfirst : ∀ s ∈ first, s ≤ last) :
    ((earlier db partnerId first ++ movements db partnerId first (some last)).map
      Movement.id).Nodup ∧
      ∀ r, r ∈ earlier db partnerId first ++ movements db partnerId first (some last) ↔
        r ∈ receivables db partnerId ∧ upTo Movement.date (some last) r = true := by
  constructor
  · rw [map_append]
    refine Nodup.append ?_ ?_ ?_
    · exact (receivables_nodup db partnerId).sublist (filter_sublist.map _)
    · unfold movements
      rw [((perm_insertionSort Movement.le _).map Movement.id).nodup_iff]
      exact (receivables_nodup db partnerId).sublist (filter_sublist.map _)
    · intro id hid hid'
      obtain ⟨r, hr, rfl⟩ := mem_map.mp hid
      obtain ⟨s, hs, heq⟩ := mem_map.mp hid'
      obtain ⟨hr, hbefore⟩ := mem_filter.mp hr
      obtain ⟨hs, hin⟩ := mem_filter.mp ((perm_insertionSort _ _).mem_iff.mp hs)
      have hrs : s = r := inj_on_of_nodup_map (receivables_nodup db partnerId) hs hr heq
      rw [hrs, (upTo_split hfirst r).2 hbefore] at hin
      cases hin
  · intro r
    rw [mem_append, movements, (perm_insertionSort Movement.le _).mem_iff, earlier,
      mem_filter, mem_filter, ← and_or_left, ← Bool.or_eq_true,
      ← (upTo_split hfirst r).1]

/-! ### Statements -/

section Build

variable {dateInput : String → Except String ℤ} {dateFrom dateTo : String} {s : Statement}

/-- **Inversion of `build`**, but for the ageing. -/
theorem build_ok (h : build db partnerId dateInput dateFrom dateTo = .ok s) :
    ∃ first last, readDate dateInput dateFrom = .ok first ∧ readDate dateInput dateTo = .ok last ∧
      s.openingBalance = total Movement.amount (earlier db partnerId first) ∧
      s.lines = (runningFrom Movement.amount s.openingBalance
        (movements db partnerId first last)).map statementLine ∧
      s.closingBalance =
        s.openingBalance + total Movement.amount (movements db partnerId first last) := by
  obtain ⟨first, hfirst, h⟩ := bind_ok_iff.mp h
  obtain ⟨last, hlast, h⟩ := bind_ok_iff.mp h
  obtain ⟨opening, hopening, h⟩ := bind_ok_iff.mp h
  obtain ⟨aging, -, h⟩ := bind_ok_iff.mp h
  obtain ⟨due, -, h⟩ := bind_ok_iff.mp h
  cases h
  exact ⟨first, last, hfirst, hlast, (bigint_ok_iff.mp hopening).2.symm, rfl, rfl⟩

/-- **A statement closes with the balance up to its end date.** -/
theorem closingBalance_eq {last : ℤ} (hfirst : ∀ s ∈ first, s ≤ last)
    (hfrom : readDate dateInput dateFrom = .ok first)
    (hto : readDate dateInput dateTo = .ok (some last))
    (h : build db partnerId dateInput dateFrom dateTo = .ok s) :
    s.closingBalance = balanceUpTo db partnerId last := by
  obtain ⟨first', last', hfirst', hlast', hopening, -, hclosing⟩ := build_ok h
  rw [hfrom] at hfirst'
  rw [hto] at hlast'
  cases hfirst'
  cases hlast'
  rw [hclosing, hopening, total_movements, balanceUpTo, total_upTo hfirst, earlier]

end Build

/-- **Statements compose.** -/
theorem statements_compose (db : StatementDb) (partnerId : ℤ)
    (dateInput : String → Except String ℤ) {fromText midText nextText toText : String}
    {first : Option ℤ} {mid last : ℤ} {s₁ s₂ s : Statement}
    (hfrom : readDate dateInput fromText = .ok first)
    (hmid : readDate dateInput midText = .ok (some mid))
    (hnext : readDate dateInput nextText = .ok (some (mid + 1)))
    (hto : readDate dateInput toText = .ok (some last))
    (hfirst : ∀ d ∈ first, d ≤ mid) (hlast : mid < last)
    (h₁ : build db partnerId dateInput fromText midText = .ok s₁)
    (h₂ : build db partnerId dateInput nextText toText = .ok s₂)
    (h : build db partnerId dateInput fromText toText = .ok s) :
    s₁.closingBalance = s₂.openingBalance ∧ s.lines = s₁.lines ++ s₂.lines ∧
      s₁.closingBalance = balanceUpTo db partnerId mid ∧
      s₂.closingBalance = balanceUpTo db partnerId last ∧
      s.closingBalance = balanceUpTo db partnerId last ∧
      (first = none → s.openingBalance = 0) ∧
      (s.openingBalance = total Movement.amount (earlier db partnerId first) ∧
        s.lines = (runningFrom Movement.amount s.openingBalance
          (movements db partnerId first (some last))).map statementLine ∧
        ((earlier db partnerId first ++ movements db partnerId first (some last)).map
          Movement.id).Nodup) := by
  have hend : ∀ d ∈ first, d ≤ last := fun d hd => (hfirst d hd).trans hlast.le
  have hclose₁ := closingBalance_eq hfirst hfrom hmid h₁
  have hclose₂ := closingBalance_eq (by intro d hd; cases hd; exact hlast) hnext hto h₂
  have hclose := closingBalance_eq hend hfrom hto h
  obtain ⟨first₁, mid₁, hfirst₁, hmid₁, hopening₁, hlines₁, hclosing₁⟩ := build_ok h₁
  obtain ⟨next₂, last₂, hnext₂, hlast₂, hopening₂, hlines₂, -⟩ := build_ok h₂
  obtain ⟨first₃, last₃, hfirst₃, hlast₃, hopening, hlines, -⟩ := build_ok h
  rw [hfrom] at hfirst₁ hfirst₃
  rw [hmid] at hmid₁
  rw [hnext] at hnext₂
  rw [hto] at hlast₂ hlast₃
  cases hfirst₁
  cases hfirst₃
  cases hmid₁
  cases hnext₂
  cases hlast₂
  cases hlast₃
  -- what is before the second window is what is up to the end of the first
  have hopens : s₁.closingBalance = s₂.openingBalance := by
    rw [hclose₁, hopening₂, balanceUpTo, earlier]
    congr 2
    funext r
    rcases hr : r.date with - | d
    · simp [upTo, before, hr]
    · simp [upTo, before, hr]
  have hsame : s.openingBalance = s₁.openingBalance := hopening.trans hopening₁.symm
  refine ⟨hopens, ?_, hclose₁, hclose₂, hclose, ?_, hopening, hlines, (movements_once hend).1⟩
  · rw [hlines, hlines₁, hlines₂, movements_append hfirst hlast, runningFrom_append, map_append,
      hsame, ← hclosing₁, hopens]
  · intro hnone
    have hnothing : earlier db partnerId none = [] :=
      filter_eq_nil_iff.mpr fun _ _ => Bool.false_ne_true
    rw [hopening, hnone, hnothing]
    rfl

/-! ### January and February -/

/-- The days of a few texts. -/
def dayOf (s : String) : Except String ℤ :=
  if s = "2026-01-31" then .ok 20484
  else if s = "2026-02-01" then .ok 20485
  else if s = "2026-02-28" then .ok 20512
  else .error "invalid input syntax for type date"

/-- An invoice of January that is paid half in February. -/
def halfPaid : StatementDb where
  partners := empty.insert "Ann"
  accounts := empty.insert { code := "1100", accountType := .assetReceivable }
  moves := (empty.insert
      { name := "INV/1", moveType := .outInvoice, state := .posted, partnerId := some 1,
        invoiceDate := some 20470, amountTotal := 100000000, amountResidual := 50000000 }).insert
    { name := "BNK/1", moveType := .entry, state := .posted, partnerId := some 1 }
  lines := (empty.insert
      { moveId := 1, accountId := 1, partnerId := some 1, date := some 20470,
        debit := 100000000 }).insert
    { moveId := 2, accountId := 1, partnerId := some 1, date := some 20490, credit := 50000000 }
  allocations := empty.insert { moveId := 1, amount := 50000000, date := 20490 }
  currentDate := 20520

theorem statements_compose_halfPaid : ∃ s₁ s₂ s, build halfPaid 1 dayOf "" "2026-01-31" = .ok s₁ ∧
      build halfPaid 1 dayOf "2026-02-01" "2026-02-28" = .ok s₂ ∧
      build halfPaid 1 dayOf "" "2026-02-28" = .ok s ∧
      s₁.closingBalance = s₂.openingBalance ∧ s.lines = s₁.lines ++ s₂.lines ∧
      s.openingBalance = 0 := by
  have hbuilt : (build halfPaid 1 dayOf "" "2026-01-31").isOk = true ∧
      (build halfPaid 1 dayOf "2026-02-01" "2026-02-28").isOk = true ∧
      (build halfPaid 1 dayOf "" "2026-02-28").isOk = true := by
    decide
  obtain ⟨s₁, h₁⟩ := exists_ok hbuilt.1
  obtain ⟨s₂, h₂⟩ := exists_ok hbuilt.2.1
  obtain ⟨s, h⟩ := exists_ok hbuilt.2.2
  obtain ⟨hopens, hlines, -, -, -, hzero, -⟩ := statements_compose halfPaid 1 dayOf
    (show readDate dayOf "" = .ok none by decide)
    (show readDate dayOf "2026-01-31" = .ok (some 20484) by decide)
    (show readDate dayOf "2026-02-01" = .ok (some 20485) by decide)
    (show readDate dayOf "2026-02-28" = .ok (some 20512) by decide)
    (by intro d hd; cases hd) (by decide) h₁ h₂ h
  exact ⟨s₁, s₂, s, h₁, h₂, h, hopens, hlines, hzero rfl⟩

end PortalStatement

end CErp
