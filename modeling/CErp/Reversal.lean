/-
Credit notes: reversing an invoice or a bill.

A reversal copies every line of its source with debit and credit swapped, under
the document type that has its product lines on the other side.  Everything
`recompute_totals` looks at is therefore mirrored: what it reads of a product
line is copied, and the side it reads and the side it writes swap with the type.
`Mirror` says when one line is the other swapped; recomputing keeps lists of
lines mirrored, and that is all that is needed of it.
-/
import CErp.Documents

namespace CErp

open Outcome List Table AccountDb Option

namespace AccountMove

/-! ### action_reverse -/

/-- The type of a document's reversal. -/
def reverseType : MoveType → Option MoveType
  | .outInvoice => some .outRefund
  | .inInvoice => some .inRefund
  | _ => none

/-- `TRIM(BOTH ' ' FROM s)`. -/
def trimBlanks (s : String) : String :=
  String.ofList ((s.toList.dropWhile (· == ' ')).reverse.dropWhile (· == ' ')).reverse

/-- A line of a reversal: swapped, and telling what it reverses. -/
def reversedLine (srcName : String) (l : MoveLine) : MoveLine :=
  { l with
    debit := l.credit
    credit := l.debit
    name := if l.displayType = "" then trimBlanks (l.name ++ " (reverses " ++ srcName ++ ")")
      else l.name }

/-- A reversal without its lines. -/
def reversal (now : Moment) (revType : MoveType) (m : Move) : Move where
  moveType := revType
  date := now.currentDate
  journalId := m.journalId
  partnerId := m.partnerId
  companyId := m.companyId
  currencyId := m.currencyId
  amountUntaxed := m.amountUntaxed
  amountTax := m.amountTax
  amountTotal := m.amountTotal
  amountResidual := m.amountTotal
  linePrecision := m.linePrecision

/-- Reversing one document; the reversals made so far are carried along. -/
def actionReverseOne (now : Moment) (s : AccountDb × List ℤ) (id : ℤ) :
    Except String (AccountDb × List ℤ) :=
  match s.1.moves.get? id with
  | none => .error ("Move not found: " ++ toString id)
  | some m =>
      match reverseType m.moveType with
      | none => .error "Only a customer invoice or a vendor bill can be credited / refunded."
      | some revType => do
          require (m.state = .posted) "Post the invoice before creating a credit note."
          let newId := s.1.moves.nextId
          let db ← (s.1.insertMove (reversal now revType m)).addLines newId
            (m.lines.map (reversedLine m.name))
          return (db, s.2 ++ [newId])

/-- `handleActionReverse`; what it makes, in the order of the sources. -/
def actionReverse (now : Moment) (db : AccountDb) (ids : List ℤ) :
    Except String (AccountDb × List ℤ) :=
  ids.foldlM (actionReverseOne now) (db, [])

variable {id : ℤ}

variable {s s' : AccountDb × List ℤ}

/-- **What reversing one document does.** -/
theorem actionReverseOne_ok {now : Moment} (h : actionReverseOne now s id = .ok s') :
    ∃ m revType, s.1.moves.get? id = some m ∧ reverseType m.moveType = some revType ∧
      m.state = .posted ∧ s'.2 = s.2 ++ [s.1.moves.nextId] ∧
      (∃ moves n, s'.1 = { s.1 with moves := moves, nextLineId := n }) ∧
      ∀ i, s'.1.moves.get? i =
        if i = s.1.moves.nextId then
          some { reversal now revType m with
            lines := numbered s.1.nextLineId (m.lines.map (reversedLine m.name)) }
        else s.1.moves.get? i := by
  unfold actionReverseOne at h
  split at h
  · cases h
  next m hm =>
  split at h
  · cases h
  next revType hrev =>
  obtain ⟨_, hposted, h⟩ := bind_ok_iff.mp h
  obtain ⟨db, hlines, h⟩ := bind_ok_iff.mp h
  cases h
  obtain ⟨⟨moves, n, hrest⟩, hget⟩ := addLines_ok hlines
  refine ⟨m, revType, hm, hrev, require_ok_iff.mp hposted, rfl, ⟨moves, n, hrest⟩, ?_⟩
  intro i
  rw [hget, insertMove_moves]
  by_cases hi : i = s.1.moves.nextId
  · rw [hi, get?_insert_self]
    simp [reversal, insertMove]
  · rw [get?_insert_of_ne _ _ hi]
    simp [hi]

/-! ### Mirrored lines -/

/-- One line is the other with debit and credit swapped. -/
structure Mirror (l l' : MoveLine) : Prop where
  accountId : l'.accountId = l.accountId
  debit : l'.debit = l.credit
  credit : l'.credit = l.debit
  quantity : l'.quantity = l.quantity
  priceUnit : l'.priceUnit = l.priceUnit
  displayType : l'.displayType = l.displayType
  taxLineId : l'.taxLineId = l.taxLineId
  taxIds : l'.taxIds = l.taxIds

/-- Lists of lines, each the other swapped line by line. -/
abbrev Mirrored : List MoveLine → List MoveLine → Prop := Forall₂ Mirror

lemma mirror_reversedLine (srcName : String) (l : MoveLine) : Mirror l (reversedLine srcName l) :=
  ⟨rfl, rfl, rfl, rfl, rfl, rfl, rfl, rfl⟩

variable {ls ls' : List MoveLine}

/-- Renumbering does not show. -/
lemma mirrored_numbered (h : Mirrored ls ls') (n : ℤ) : Mirrored ls (numbered n ls') := by
  induction h generalizing n with
  | nil => exact .nil
  | cons hl _ ih => exact .cons ⟨hl.1, hl.2, hl.3, hl.4, hl.5, hl.6, hl.7, hl.8⟩ (ih (n + 1))

lemma numbered_mirrored (h : Mirrored ls ls') (n : ℤ) : Mirrored (numbered n ls) ls' := by
  induction h generalizing n with
  | nil => exact .nil
  | cons hl _ ih => exact .cons ⟨hl.1, hl.2, hl.3, hl.4, hl.5, hl.6, hl.7, hl.8⟩ (ih (n + 1))

lemma mirrored_map_reversedLine (srcName : String) (ls : List MoveLine) :
    Mirrored ls (ls.map (reversedLine srcName)) := by
  induction ls with
  | nil => exact .nil
  | cons l ls ih => exact .cons (mirror_reversedLine srcName l) ih

/-- What some lines come to on one account. -/
def netOn (account : ℤ) (ls : List MoveLine) : ℤ :=
  (ls.map fun l => if l.accountId = account then l.debit - l.credit else 0).sum

lemma netOn_mirrored (h : Mirrored ls ls') (account : ℤ) :
    netOn account ls + netOn account ls' = 0 := by
  unfold netOn
  induction h with
  | nil => rfl
  | cons hl _ ih =>
      rw [map_cons, map_cons, sum_cons, sum_cons, hl.accountId, hl.debit, hl.credit]
      split <;> omega

lemma linesBalance_mirrored (h : Mirrored ls ls') : linesBalance ls' = -linesBalance ls := by
  induction h with
  | nil => rfl
  | cons hl _ ih =>
      rw [linesBalance_cons, linesBalance_cons, hl.debit, hl.credit, ih]
      omega

/-- The account and the two sides of a line. -/
def sides (l : MoveLine) : ℤ × ℤ × ℤ := (l.accountId, l.debit, l.credit)

lemma map_sides_mirrored (h : Mirrored ls ls') :
    ls'.map sides = (ls.map sides).map fun s => (s.1, s.2.2, s.2.1) := by
  induction h with
  | nil => rfl
  | cons hl _ ih =>
      rw [map_cons, map_cons, map_cons, ih, sides, hl.accountId, hl.debit, hl.credit]
      rfl

/-! ### What recomputing does -/

/-- The line generated for one tax, where there is an account for it. -/
def taxLine (db : AccountDb) (m : Move) (t : TaxTotal) : Option MoveLine :=
  if t.amount.micros = 0 then none
  else
    let account := match db.taxes.get? t.taxId with
      | none => none
      | some tax => tax.accountId
    (account.or (db.accountOfCode "2200" m.companyId)).map fun acctId =>
      { accountId := acctId
        companyId := some m.companyId
        name := t.name
        taxLineId := some t.taxId
        debit := if m.moveType.productLinesAreCredit then 0 else t.amount.micros
        credit := if m.moveType.productLinesAreCredit then t.amount.micros else 0 }

lemma insertTaxLine_eq (id : ℤ) (m : Move) (db : AccountDb) (t : TaxTotal) :
    insertTaxLine id m db t = match taxLine db m t with
      | none => .ok db
      | some l => db.addLine id l := by
  unfold insertTaxLine taxLine
  split
  · rfl
  · dsimp only
    cases Option.or _ (db.accountOfCode "2200" m.companyId) <;> rfl

variable {db : AccountDb}

variable {db' : AccountDb}

lemma taxLine_congr (m : Move) (htaxes : db'.taxes = db.taxes)
    (haccounts : db'.accounts = db.accounts) : taxLine db' m = taxLine db m := by
  funext t
  unfold taxLine accountOfCode
  rw [htaxes, haccounts]

/-- The lines of the taxes are added one after the other. -/
lemma insertTaxLines_eq (id : ℤ) (m : Move) (ts : List TaxTotal) (db : AccountDb) :
    ts.foldlM (insertTaxLine id m) db = db.addLines id (ts.filterMap (taxLine db m)) := by
  induction ts generalizing db with
  | nil => rfl
  | cons t ts ih =>
      rw [foldlM_cons, insertTaxLine_eq]
      rcases hl : taxLine db m t with - | l
      · rw [filterMap_cons_none hl]
        exact ih db
      · rw [filterMap_cons_some hl, addLines, foldlM_cons]
        rcases hadd : db.addLine id l with e | db₁
        · simp only [hadd]
          rfl
        · have hsame : taxLine db₁ m = taxLine db m := by
            rw [addLine_ok hadd]
            exact taxLine_congr m rfl rfl
          simp only [hadd]
          show ts.foldlM _ db₁ = _
          rw [ih, hsame]
          rfl

/-- Lines can be added when their accounts exist. -/
lemma addLines_isOk {db : AccountDb} {id : ℤ} {ls : List MoveLine}
    (h : ∀ l ∈ ls, (db.accounts.get? l.accountId).isSome = true) :
    ∃ db', db.addLines id ls = .ok db' := by
  induction ls generalizing db with
  | nil => exact ⟨db, rfl⟩
  | cons l ls ih =>
      rw [forall_mem_cons] at h
      have hadd : ∃ db₁, db.addLine id l = .ok db₁ := by
        unfold addLine
        rw [(require_ok_iff (u := ())).mpr h.1]
        exact ⟨_, rfl⟩
      obtain ⟨db₁, hadd⟩ := hadd
      have haccounts : db₁.accounts = db.accounts := by
        rw [addLine_ok hadd]
        rfl
      have hls : ∀ l ∈ ls, (db₁.accounts.get? l.accountId).isSome = true := by
        rw [haccounts]
        exact h.2
      obtain ⟨db', hrest⟩ := ih hls
      refine ⟨db', ?_⟩
      show (l :: ls).foldlM _ db = _
      rw [foldlM_cons]
      simp only [hadd]
      exact hrest

/-- Lines that were added have accounts. -/
lemma accounts_of_addLines (h : db.addLines id ls = .ok db') :
    ∀ l ∈ ls, (db.accounts.get? l.accountId).isSome = true := by
  induction ls generalizing db with
  | nil => exact fun _ hl => absurd hl not_mem_nil
  | cons l ls ih =>
      obtain ⟨db₁, hadd, hrest⟩ := bind_ok_iff.mp (by
        rwa [addLines, foldlM_cons] at h)
      rw [forall_mem_cons]
      obtain ⟨_, haccount, -⟩ := bind_ok_iff.mp hadd
      refine ⟨require_ok_iff.mp haccount, ?_⟩
      have haccounts : db₁.accounts = db.accounts := by
        rw [addLine_ok hadd]
        rfl
      rw [← haccounts]
      exact ih hrest

section Recompute

variable {D : Type} [JsonDouble D]

/-- The lines of a document that are not generated. -/
def keptLines (m : Move) : List MoveLine := m.lines.filter fun l => !isTaxLine l

/-- The lines generated for the taxes of a document. -/
def newTaxLines (db : AccountDb) (m : Move) (totals : TaxTotals) : List MoveLine :=
  totals.byTax.filterMap (taxLine db m)

/-- A document recomputed, its new lines numbered from `n` on. -/
def recomputed (m : Move) (totals : TaxTotals) (n : ℤ) (taxLines : List MoveLine) : Move :=
  let total := untaxedAmount m + totals.grandTotal.micros
  { m with
    amountUntaxed := untaxedAmount m
    amountTax := totals.grandTotal.micros
    amountTotal := total
    amountResidual := if m.paymentState = .paid then 0 else total
    lines := (keptLines m ++ numbered n taxLines).map (matchCounterparty m.moveType total) }

/-- The generated lines are no product lines. -/
lemma taxTotals_deleteTaxLines (db : AccountDb) (id : ℤ) (m : Move) :
    taxTotals D (deleteTaxLines db id) { m with lines := keptLines m } = taxTotals D db m := by
  have hproduct : (keptLines m).filter isProductLine = m.lines.filter isProductLine := by
    rw [keptLines, List.filter_filter]
    apply filter_congr
    intro l _
    unfold isProductLine isTaxLine
    cases l.taxLineId <;> simp
  show ((keptLines m).filter isProductLine).foldlM _ _ = _
  rw [hproduct]
  rfl

lemma recomputeTaxLines_eq {m : Move} (hm : db.moves.get? id = some m) :
    recomputeTaxLines D db id = do
      let totals ← taxTotals D db m
      let db' ← (deleteTaxLines db id).addLines id (newTaxLines db m totals)
      return (db', totals.grandTotal.micros) := by
  have hget : (deleteTaxLines db id).moves.get? id = some { m with lines := keptLines m } := by
    show (db.moves.modify id _).get? id = _
    rw [get?_modify_self, hm]
    rfl
  unfold recomputeTaxLines
  dsimp only
  rw [hget]
  dsimp only
  rw [taxTotals_deleteTaxLines]
  simp only [insertTaxLines_eq]
  rfl

/-- **What recomputing a document does.** -/
theorem recomputeOne_ok {m : Move} (hm : db.moves.get? id = some m)
    (h : recomputeOne D db id = .ok db') :
    ∃ totals, taxTotals D db m = .ok totals ∧
      (∀ l ∈ newTaxLines db m totals, (db.accounts.get? l.accountId).isSome = true) ∧
      db'.moves.get? id = some (recomputed m totals db.nextLineId (newTaxLines db m totals)) := by
  unfold recomputeOne at h
  rw [hm] at h
  rw [recomputeTaxLines_eq hm] at h
  obtain ⟨⟨db₁, tax⟩, htax, h⟩ := bind_ok_iff.mp h
  cases h
  obtain ⟨totals, htotals, htax⟩ := bind_ok_iff.mp htax
  obtain ⟨db₂, hlines, htax⟩ := bind_ok_iff.mp htax
  cases htax
  have haccounts : ∀ l ∈ newTaxLines db m totals,
      ((deleteTaxLines db id).accounts.get? l.accountId).isSome = true :=
    accounts_of_addLines hlines
  refine ⟨totals, htotals, haccounts, ?_⟩
  rw [modifyMove_moves, get?_modify_self, (addLines_ok hlines).2]
  show Option.map _ (Option.map _ ((db.moves.modify id _).get? id)) = _
  rw [get?_modify_self, hm]
  simp only [map_some, if_true]
  rfl

/-- Recomputing a document leaves the payments and the other moves as they
were. -/
lemma recomputeOne_rest (h : recomputeOne D db id = .ok db') :
    db'.payments = db.payments ∧ ∀ i, i ≠ id → db'.moves.get? i = db.moves.get? i := by
  rcases hm : db.moves.get? id with - | m
  · unfold recomputeOne at h
    rw [hm] at h
    cases h
    exact ⟨rfl, fun i _ => rfl⟩
  unfold recomputeOne at h
  rw [hm] at h
  rw [recomputeTaxLines_eq hm] at h
  obtain ⟨⟨db₁, tax⟩, htax, h⟩ := bind_ok_iff.mp h
  cases h
  obtain ⟨totals, -, htax⟩ := bind_ok_iff.mp htax
  obtain ⟨db₂, hlines, htax⟩ := bind_ok_iff.mp htax
  cases htax
  obtain ⟨⟨moves, n, heq⟩, hmoves⟩ := addLines_ok hlines
  refine ⟨?_, ?_⟩
  · rw [modifyMove_payments, heq]
    rfl
  · intro i hi
    rw [modifyMove_moves, get?_modify_of_ne _ _ hi, hmoves]
    show Option.map _ ((db.moves.modify id _).get? i) = _
    rw [get?_modify_of_ne _ _ hi]
    simp [hi]

/-- A document can be recomputed when its taxes can be computed and their
accounts exist. -/
lemma recomputeOne_isOk {m : Move} {totals : TaxTotals} (hm : db.moves.get? id = some m)
    (htotals : taxTotals D db m = .ok totals)
    (haccounts : ∀ l ∈ newTaxLines db m totals, (db.accounts.get? l.accountId).isSome = true) :
    ∃ db', recomputeOne D db id = .ok db' := by
  obtain ⟨db₁, hlines⟩ := @addLines_isOk (deleteTaxLines db id) id _ haccounts
  unfold recomputeOne
  rw [hm]
  rw [recomputeTaxLines_eq hm]
  exact ⟨_, bind_ok_iff.mpr ⟨(db₁, totals.grandTotal.micros), bind_ok_iff.mpr
    ⟨totals, htotals, bind_ok_iff.mpr ⟨db₁, hlines, rfl⟩⟩, rfl⟩⟩

end Recompute

/-! ### Recomputing mirrored documents -/

/-- One document has the lines of the other swapped, and its product lines on
the other side. -/
structure MirrorOf (m r : Move) : Prop where
  moveType : reverseType m.moveType = some r.moveType
  companyId : r.companyId = m.companyId
  linePrecision : r.linePrecision = m.linePrecision
  lines : Mirrored m.lines r.lines

lemma productLinesAreCredit_reverse {t t' : MoveType} (h : reverseType t = some t') :
    t'.productLinesAreCredit = !t.productLinesAreCredit := by
  cases t <;> cases h <;> rfl

section Mirror

variable {D : Type} [JsonDouble D] {m r : Move}

lemma isProductLine_mirror {l l' : MoveLine} (h : Mirror l l') :
    isProductLine l' = isProductLine l := by
  unfold isProductLine
  rw [h.displayType, h.taxLineId]

lemma isTaxLine_mirror {l l' : MoveLine} (h : Mirror l l') : isTaxLine l' = isTaxLine l := by
  unfold isTaxLine
  rw [h.taxLineId]

lemma filter_mirrored {p q : MoveLine → Bool} (hp : ∀ {l l'}, Mirror l l' → q l' = p l)
    (h : Mirrored ls ls') : Mirrored (ls.filter p) (ls'.filter q) := by
  induction h with
  | nil => exact .nil
  | cons hl _ ih =>
      rw [filter_cons, filter_cons, hp hl]
      split
      · exact .cons hl ih
      · exact ih

/-- The taxes are those of the same prices and quantities. -/
lemma taxTotals_mirror (h : MirrorOf m r) (db : AccountDb) :
    taxTotals D db r = taxTotals D db m := by
  have hprecision : linePrecision db r = linePrecision db m := by
    unfold linePrecision
    rw [h.linePrecision]
  unfold taxTotals
  rw [hprecision]
  generalize linePrecision db m = dp
  have hproduct := filter_mirrored isProductLine_mirror h.lines
  generalize m.lines.filter isProductLine = ls at hproduct ⊢
  generalize r.lines.filter isProductLine = ls' at hproduct ⊢
  generalize ({} : TaxTotals) = totals
  induction hproduct generalizing totals with
  | nil => rfl
  | @cons l l' _ _ hl _ ih =>
      have hline : addLineTaxes D db dp totals l' = addLineTaxes D db dp totals l := by
        unfold addLineTaxes
        rw [hl.taxIds, hl.priceUnit, hl.quantity]
      rw [foldlM_cons, foldlM_cons, hline]
      congr 1
      funext t
      exact ih t

lemma newTaxLines_mirrored (h : MirrorOf m r) (db : AccountDb) (totals : TaxTotals) :
    Mirrored (newTaxLines db m totals) (newTaxLines db r totals) := by
  unfold newTaxLines
  induction totals.byTax with
  | nil => exact .nil
  | cons t ts ih =>
      have hside := productLinesAreCredit_reverse h.moveType
      have hlines : taxLine db r t = (taxLine db m t).map fun l =>
          { l with debit := l.credit, credit := l.debit } := by
        unfold taxLine
        rw [h.companyId, hside]
        split
        · rfl
        · dsimp only
          rw [Option.map_map]
          congr 1
          funext acctId
          cases m.moveType.productLinesAreCredit <;> rfl
      rcases hl : taxLine db m t with - | l
      · rw [hl, map_none] at hlines
        rw [filterMap_cons_none hl, filterMap_cons_none hlines]
        exact ih
      · rw [hl, map_some] at hlines
        rw [filterMap_cons_some hl, filterMap_cons_some hlines]
        exact .cons ⟨rfl, rfl, rfl, rfl, rfl, rfl, rfl, rfl⟩ ih

/-- The side that is read swaps with the type. -/
lemma untaxedAmount_mirror (h : MirrorOf m r) : untaxedAmount r = untaxedAmount m := by
  have hside : ∀ {l l'}, Mirror l l' →
      (if r.moveType.productLinesAreCredit then l'.credit else l'.debit) =
        if m.moveType.productLinesAreCredit then l.credit else l.debit := by
    intro l l' hl
    rw [productLinesAreCredit_reverse h.moveType, hl.debit, hl.credit]
    cases m.moveType.productLinesAreCredit <;> rfl
  unfold untaxedAmount
  dsimp only
  have hlines := filter_mirrored (fun {l l'} hl => show
    (decide ((if r.moveType.productLinesAreCredit then l'.credit else l'.debit) > 0) &&
      isProductLine l') =
    (decide ((if m.moveType.productLinesAreCredit then l.credit else l.debit) > 0) &&
      isProductLine l) by
    simp only [hside hl, isProductLine_mirror hl]) h.lines
  generalize filter _ m.lines = ls at hlines ⊢
  generalize filter _ r.lines = ls' at hlines ⊢
  induction hlines with
  | nil => rfl
  | cons hl _ ih => rw [map_cons, map_cons, sum_cons, sum_cons, hside hl, ih]

/-- The side that is written swaps with the type. -/
lemma matchCounterparty_mirror (h : MirrorOf m r) (total : ℤ) {l l' : MoveLine} (hl : Mirror l l') :
    Mirror (matchCounterparty m.moveType total l) (matchCounterparty r.moveType total l') := by
  unfold matchCounterparty
  rw [productLinesAreCredit_reverse h.moveType]
  cases m.moveType.productLinesAreCredit
  · simp only [Bool.not_false, if_true, Bool.false_eq_true, if_false, hl.debit]
    split
    · exact ⟨hl.1, rfl, hl.3, hl.4, hl.5, hl.6, hl.7, hl.8⟩
    · exact hl
  · simp only [Bool.not_true, if_true, Bool.false_eq_true, if_false, hl.credit]
    split
    · exact ⟨hl.1, hl.2, rfl, hl.4, hl.5, hl.6, hl.7, hl.8⟩
    · exact hl

lemma map_mirrored {f g : MoveLine → MoveLine}
    (hf : ∀ {l l'}, Mirror l l' → Mirror (f l) (g l')) (h : Mirrored ls ls') :
    Mirrored (ls.map f) (ls'.map g) := by
  induction h with
  | nil => exact .nil
  | cons hl _ ih => exact .cons (hf hl) ih

lemma recomputed_mirrored (h : MirrorOf m r) (totals : TaxTotals) (n : ℤ)
    {taxLines taxLines' : List MoveLine} (htaxes : Mirrored taxLines taxLines') :
    Mirrored (recomputed m totals n taxLines).lines (recomputed r totals n taxLines').lines := by
  unfold recomputed
  rw [untaxedAmount_mirror h]
  apply map_mirrored fun hl => matchCounterparty_mirror h _ hl
  apply rel_append
  · exact filter_mirrored (fun hl => by rw [isTaxLine_mirror hl]) h.lines
  · exact numbered_mirrored (mirrored_numbered htaxes n) n

end Mirror

/-! ### Reversals -/

/-- The amounts on the header of a document. -/
def headerTotals (m : Move) : ℤ × ℤ × ℤ := (m.amountUntaxed, m.amountTax, m.amountTotal)

/-- A document and its reversal, as the tables hold them. -/
def Reverses (db : AccountDb) (id newId : ℤ) : Prop :=
  ∃ m r, db.moves.get? id = some m ∧ db.moves.get? newId = some r ∧ MirrorOf m r

lemma actionReverseOne_reverses {now : Moment} (h : actionReverseOne now s id = .ok s') :
    (∃ newId, s'.2 = s.2 ++ [newId] ∧ Reverses s'.1 id newId) ∧
      ∀ i m, s.1.moves.get? i = some m → s'.1.moves.get? i = some m := by
  obtain ⟨m, revType, hm, hrev, -, hnew, -, hget⟩ := actionReverseOne_ok h
  have hkeep : ∀ i m, s.1.moves.get? i = some m → s'.1.moves.get? i = some m := by
    intro i m' hm'
    have hlt := lt_nextId_of_get? hm'
    rw [hget, if_neg hlt.ne, hm']
  refine ⟨⟨_, hnew, m, _, hkeep id m hm, (hget _).trans (if_pos rfl), hrev, rfl, rfl, ?_⟩, hkeep⟩
  exact mirrored_numbered (mirrored_map_reversedLine m.name m.lines) _

/-- Reversing some documents one after the other: each has its reversal. -/
lemma actionReverse_reverses {now : Moment} {ids : List ℤ}
    (h : ids.foldlM (actionReverseOne now) s = .ok s') :
    (∃ created, s'.2 = s.2 ++ created ∧ Forall₂ (Reverses s'.1) ids created) ∧
      ∀ i m, s.1.moves.get? i = some m → s'.1.moves.get? i = some m := by
  induction ids generalizing s with
  | nil =>
      cases h
      exact ⟨⟨[], (append_nil _).symm, .nil⟩, fun _ _ hm => hm⟩
  | cons id ids ih =>
      obtain ⟨s₁, hone, hrest⟩ := Runs.foldlM_cons_ok.mp h
      obtain ⟨⟨newId, hnew, m, r, hm, hr, hmirror⟩, hkeep₁⟩ := actionReverseOne_reverses hone
      obtain ⟨⟨created, hcreated, hall⟩, hkeep⟩ := ih hrest
      refine ⟨⟨newId :: created, ?_, .cons ⟨m, r, hkeep _ _ hm, hkeep _ _ hr, hmirror⟩ hall⟩, ?_⟩
      · rw [hcreated, hnew, append_assoc]
        rfl
      · intro i m' hm'
        exact hkeep i m' (hkeep₁ i m' hm')

variable {D : Type} [JsonDouble D]

/-- **Recomputing a reversal mirrors recomputing its source.** -/
theorem recomputeOne_reverses {dbs : AccountDb} {newId : ℤ} {m r : Move}
    (hm : db.moves.get? id = some m) (hr : db.moves.get? newId = some r) (h : MirrorOf m r)
    (hrecompute : recomputeOne D db id = .ok dbs) :
    ∃ ms dbr mr, dbs.moves.get? id = some ms ∧ recomputeOne D db newId = .ok dbr ∧
      dbr.moves.get? newId = some mr ∧ headerTotals mr = headerTotals ms ∧
      Mirrored ms.lines mr.lines := by
  obtain ⟨totals, htotals, haccounts, hms⟩ := recomputeOne_ok hm hrecompute
  have htotals' : taxTotals D db r = .ok totals := by rw [taxTotals_mirror h, htotals]
  have htaxes := newTaxLines_mirrored h db totals
  have haccounts' : ∀ l ∈ newTaxLines db r totals, (db.accounts.get? l.accountId).isSome = true := by
    generalize newTaxLines db r totals = ls' at htaxes ⊢
    generalize newTaxLines db m totals = ls at htaxes haccounts
    induction htaxes with
    | nil => exact fun _ hl => absurd hl not_mem_nil
    | cons hl _ ih =>
        rw [forall_mem_cons] at haccounts ⊢
        rw [hl.accountId]
        exact ⟨haccounts.1, ih haccounts.2⟩
  obtain ⟨dbr, hrecompute'⟩ := recomputeOne_isOk hr htotals' haccounts'
  obtain ⟨totals', htotals'', -, hmr⟩ := recomputeOne_ok hr hrecompute'
  rw [htotals'] at htotals''
  cases htotals''
  refine ⟨_, dbr, _, hms, hrecompute', hmr, ?_, recomputed_mirrored h totals _ htaxes⟩
  unfold headerTotals recomputed
  rw [untaxedAmount_mirror h]

/-- **A reversal is the inverse of its source.**  Together they leave nothing on
any account, and one balances if and only if the other does.  Where recomputing
the source would give the totals on its header, recomputing the reversal gives
them too; where it would leave the debits and credits of the source's lines as
they are, it leaves those of the reversal's. -/
theorem reversal_inverse (D : Type) [JsonDouble D] {now : Moment} {db db' : AccountDb}
    {ids created : List ℤ} (h : actionReverse now db ids = .ok (db', created)) :
    List.Forall₂ (fun id newId => ∃ m r,
      db'.moves.get? id = some m ∧ db'.moves.get? newId = some r ∧
      (∀ account, netOn account m.lines + netOn account r.lines = 0) ∧
      (r.Balanced ↔ m.Balanced) ∧
      ∀ dbs ms, recomputeTotals D db' [id] = .ok dbs → dbs.moves.get? id = some ms →
        headerTotals ms = headerTotals m →
        ∃ dbr mr, recomputeTotals D db' [newId] = .ok dbr ∧ dbr.moves.get? newId = some mr ∧
          headerTotals mr = headerTotals m ∧
          ((ms.lines.map sides).Perm (m.lines.map sides) →
            (mr.lines.map sides).Perm (r.lines.map sides))) ids created := by
  have hsingle : ∀ id, recomputeTotals D db' [id] = recomputeOne D db' id := by
    intro id
    show [id].foldlM _ db' = _
    rw [foldlM_cons]
    rcases recomputeOne D db' id with e | db₁ <;> rfl
  obtain ⟨⟨_, hcreated, hall⟩, -⟩ := actionReverse_reverses h
  cases (hcreated.trans (nil_append _))
  refine hall.imp ?_
  rintro id newId ⟨m, r, hm, hr, hmirror⟩
  refine ⟨m, r, hm, hr, netOn_mirrored hmirror.lines, ?_, ?_⟩
  · unfold Move.Balanced
    rw [linesBalance_mirrored hmirror.lines, neg_eq_zero]
  · intro dbs ms hrecompute hms htotals
    rw [hsingle] at hrecompute
    obtain ⟨ms', dbr, mr, hms', hrecompute', hmr, hheader, hlines⟩ :=
      recomputeOne_reverses hm hr hmirror hrecompute
    rw [hms] at hms'
    cases hms'
    refine ⟨dbr, mr, (hsingle newId).trans hrecompute', hmr, hheader.trans htotals, ?_⟩
    intro hperm
    rw [map_sides_mirrored hlines, map_sides_mirrored hmirror.lines]
    exact hperm.map _

/-- The receivable and the revenue account. -/
def twoAccounts : Table Account :=
  (Table.empty.insert { code := "1200", accountType := .assetReceivable }).insert
    { code := "4000", accountType := .other }

/-- A posted invoice of 100.00 with some lines. -/
def invoiceOf (lines : List MoveLine) : Move where
  name := "INV000001"
  moveType := .outInvoice
  state := .posted
  date := "2026-01-15"
  journalId := 1
  amountUntaxed := 100000000
  amountTotal := 100000000
  amountResidual := 100000000
  lines := lines

/-- A revenue line of 100.00 and receivable lines of some amounts. -/
def invoiceLines (receivables : List ℤ) : List MoveLine :=
  { id := 1, accountId := 2, credit := 100000000, priceUnit := 100000000, quantity := 1000000 } ::
    receivables.map fun r => { id := 2, accountId := 1, debit := r }

/-- The tables with one invoice, its receivable in some parts. -/
def oneInvoice (receivables : List ℤ) : AccountDb where
  moves := Table.empty.insert (invoiceOf (invoiceLines receivables))
  nextLineId := 10
  accounts := twoAccounts

theorem reversal_inverse_invoice : let _ := JsonDouble.wholeMicros
    ∃ db', actionReverse february (oneInvoice [100000000]) [1] = .ok (db', [2]) ∧
      List.Forall₂ (fun id newId => ∃ m r,
        db'.moves.get? id = some m ∧ db'.moves.get? newId = some r ∧
        (∀ account, netOn account m.lines + netOn account r.lines = 0) ∧
        (r.Balanced ↔ m.Balanced) ∧
        ∀ dbs ms, recomputeTotals ℤ db' [id] = .ok dbs → dbs.moves.get? id = some ms →
          headerTotals ms = headerTotals m →
          ∃ dbr mr, recomputeTotals ℤ db' [newId] = .ok dbr ∧ dbr.moves.get? newId = some mr ∧
            headerTotals mr = headerTotals m ∧
            ((ms.lines.map sides).Perm (m.lines.map sides) →
              (mr.lines.map sides).Perm (r.lines.map sides))) [1] [2] := by
  intro _
  have hcreated : (actionReverse february (oneInvoice [100000000]) [1]).map Prod.snd = .ok [2] := by
    decide
  obtain ⟨⟨db', created⟩, hrun, rfl⟩ := map_ok_iff.mp hcreated
  exact ⟨db', hrun, reversal_inverse ℤ hrun⟩

/-- The header totals of a document, and the sides of its lines. -/
def shown (db : AccountDb) (id : ℤ) : List (ℤ × ℤ × ℤ) :=
  match db.moves.get? id with
  | none => []
  | some m => headerTotals m :: m.lines.map sides

/-- **The totals of the header are not enough.**  An invoice of 100.00 whose
receivable is in two parts of 60.00 and 40.00 has the totals recomputing gives
it.  Recomputing its reversal sets both parts to 100.00. -/
theorem parts_rewritten : let _ := JsonDouble.wholeMicros
    ∃ db' dbs dbr, actionReverse february (oneInvoice [60000000, 40000000]) [1] = .ok (db', [2]) ∧
      recomputeTotals ℤ db' [1] = .ok dbs ∧
      (shown dbs 1).head? = some (100000000, 0, 100000000) ∧
      shown db' 2 = [(100000000, 0, 100000000), (2, 100000000, 0), (1, 0, 60000000), (1, 0, 40000000)] ∧
      recomputeTotals ℤ db' [2] = .ok dbr ∧
      shown dbr 2 =
        [(100000000, 0, 100000000), (2, 100000000, 0), (1, 0, 100000000), (1, 0, 100000000)] := by
  intro _
  have hrun : (actionReverse february (oneInvoice [60000000, 40000000]) [1] >>= fun r =>
      recomputeTotals ℤ r.1 [1] >>= fun dbs => recomputeTotals ℤ r.1 [2] >>= fun dbr =>
        pure (r.2, [(shown dbs 1).head?.toList, shown r.1 2, shown dbr 2])) =
      .ok ([2], [[(100000000, 0, 100000000)],
        [(100000000, 0, 100000000), (2, 100000000, 0), (1, 0, 60000000), (1, 0, 40000000)],
        [(100000000, 0, 100000000), (2, 100000000, 0), (1, 0, 100000000), (1, 0, 100000000)]]) := by
    decide
  obtain ⟨⟨db', created⟩, hreverse, hrun⟩ := bind_ok_iff.mp hrun
  obtain ⟨dbs, hsource, hrun⟩ := bind_ok_iff.mp hrun
  obtain ⟨dbr, hreversal, hrun⟩ := bind_ok_iff.mp hrun
  have hvalues := pure_ok_iff.mp hrun
  simp only [Prod.mk.injEq, List.cons.injEq, and_true, toList_eq_singleton_iff] at hvalues
  obtain ⟨rfl, hheader, hbefore, hafter⟩ := hvalues
  exact ⟨db', dbs, dbr, hreverse, hsource, hheader, hbefore, hreversal, hafter⟩

end AccountMove

end CErp
