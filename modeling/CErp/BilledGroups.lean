/-
What a group that is billed leaves behind.

`Billed` lists it: the subtotals of its lines, the links, the advanced lines, and
the invoice with its revenue, tax and receivable lines.  `billGroup_ok` takes the
transaction of a group apart, and `run_ok` goes from the groups to a whole run:
each group is billed in the database the groups before it have left, or leaves it
as it was.
-/
import CErp.RentalBilling
import CErp.UnitStates

namespace CErp

open Outcome List Table AccountDb AccountMove

namespace RentalBilling

open Runs

/-! ### What is due -/

variable {db : RentalDb} {l : DueLine}

variable {asOf : ℤ}

lemma mem_allDue {contractId : ℤ} : l ∈ allDue db asOf contractId ↔
      ∃ r ∈ db.lines.rows, isDue db asOf contractId r.2 = true ∧ dueLine db r = l := by
  unfold allDue
  rw [mem_map]
  constructor
  · rintro ⟨r, hr, rfl⟩
    have hmem := (perm_insertionSort _ _).mem_iff.mp hr
    exact ⟨r, (mem_filter.mp hmem).1, (mem_filter.mp hmem).2, rfl⟩
  · rintro ⟨r, hr, hdue, rfl⟩
    exact ⟨r, (perm_insertionSort _ _).mem_iff.mpr (mem_filter.mpr ⟨hr, hdue⟩), rfl⟩

/-- A line that is due is what its row comes to. -/
lemma mem_dueLines {contractId : ℤ} (h : l ∈ dueLines db asOf contractId) :
    ∃ row, db.lines.get? l.id = some row ∧ isDue db asOf contractId row = true ∧
      dueLine db (l.id, row) = l := by
  obtain ⟨r, hr, hdue, rfl⟩ := mem_allDue.mp (mem_of_mem_take h)
  exact ⟨r.2, get?_eq_some_iff.mpr hr, hdue, rfl⟩

variable {g : DueGroup}

variable {ls : List DueLine}

lemma mem_group (h : g ∈ groupsOf ls) : l ∈ g.lines ↔ l ∈ ls ∧ l.key = g.key := by
  obtain ⟨key, -, rfl⟩ := mem_map.mp h
  show l ∈ ls.filter _ ↔ _
  rw [mem_filter, beq_iff_eq]

lemma group_sublist (h : g ∈ groupsOf ls) : g.lines.Sublist ls := by
  obtain ⟨key, -, rfl⟩ := mem_map.mp h
  exact filter_sublist

lemma exists_group (h : l ∈ ls) : ∃ g ∈ groupsOf ls, l ∈ g.lines := by
  have hkey : l.key ∈ (ls.map DueLine.key).dedup.insertionSort fun a b => a.le b = true := by
    rw [(perm_insertionSort _ _).mem_iff, mem_dedup]
    exact mem_map_of_mem h
  refine ⟨_, mem_map_of_mem hkey, ?_⟩
  exact mem_filter.mpr ⟨h, beq_self_eq_true _⟩

lemma groupsOf_nodup (ls : List DueLine) : ((groupsOf ls).map DueGroup.key).Nodup := by
  unfold groupsOf
  rw [map_map]
  show (map id _).Nodup
  rw [map_id]
  exact (perm_insertionSort _ _).nodup_iff.mpr (nodup_dedup _)

/-- A line is due in one group. -/
lemma groups_apart {db : RentalDb} {asOf contractId : ℤ} :
    (groupsOf (dueLines db asOf contractId)).Pairwise fun g g' =>
      List.Disjoint (g.lines.map DueLine.id) (g'.lines.map DueLine.id) := by
  have hkeys := pairwise_map.mp (groupsOf_nodup (dueLines db asOf contractId))
  refine hkeys.imp_of_mem ?_
  intro g g' hg hg' hne id hid hid'
  obtain ⟨l, hl, rfl⟩ := mem_map.mp hid
  obtain ⟨l', hl', heq⟩ := mem_map.mp hid'
  obtain ⟨hmem, hkey⟩ := (mem_group hg).mp hl
  obtain ⟨hmem', hkey'⟩ := (mem_group hg').mp hl'
  obtain ⟨row, hrow, -, hl⟩ := mem_dueLines hmem
  obtain ⟨row', hrow', -, hl'⟩ := mem_dueLines hmem'
  rw [heq, hrow] at hrow'
  cases hrow'
  apply hne
  rw [← hkey, ← hkey', ← hl, ← hl', heq]

/-- No line is due twice. -/
lemma allDue_nodup (db : RentalDb) (asOf contractId : ℤ) :
    ((allDue db asOf contractId).map DueLine.id).Nodup := by
  unfold allDue
  rw [map_map]
  have hperm := perm_insertionSort (fun r s => comesBefore r s = true)
    (db.lines.rows.filter fun r => isDue db asOf contractId r.2)
  apply ((hperm.map _).nodup_iff).mpr
  exact db.lines.nodup.sublist (filter_sublist.map _)

section Bill

variable {D : Type} [JsonDouble D]

/-! ### What the amounts depend on -/

/-- Two versions of the accounting with the same taxes, rounded alike. -/
def SameTaxes (a b : AccountDb) : Prop := a.taxes = b.taxes ∧ a.accountDigits = b.accountDigits

lemma SameTaxes.refl (a : AccountDb) : SameTaxes a a := ⟨rfl, rfl⟩

variable {a b : AccountDb}

lemma SameTaxes.trans {c : AccountDb} (hab : SameTaxes a b) (hbc : SameTaxes b c) :
    SameTaxes a c := ⟨hab.1.trans hbc.1, hab.2.trans hbc.2⟩

lemma loadTaxes_congr (h : SameTaxes a b) (taxIds : List ℤ) :
    loadTaxes a taxIds = loadTaxes b taxIds := by
  unfold loadTaxes
  rw [h.1]

lemma lineTaxes_congr (h : SameTaxes a b) (l : DueLine) : lineTaxes a l = lineTaxes b l := by
  unfold lineTaxes
  rw [loadTaxes_congr h, h.2]

lemma lineSubtotal_congr (h : SameTaxes a b) (l : DueLine) :
    lineSubtotal D a l = lineSubtotal D b l := by
  unfold lineSubtotal
  rw [loadTaxes_congr h, h.2]

lemma addLineTaxes_congr (h : SameTaxes a b) : addLineTaxes a = addLineTaxes b := by
  funext byTax l
  unfold addLineTaxes
  rw [loadTaxes_congr h, lineTaxes_congr h]

variable {moveId : ℤ}

lemma addLines_append {db db₁ db₂ : AccountDb} {ls ls' : List MoveLine}
    (h : db.addLines moveId ls = .ok db₁) (h' : db₁.addLines moveId ls' = .ok db₂) :
    db.addLines moveId (ls ++ ls') = .ok db₂ := by
  show (ls ++ ls').foldlM _ db = _
  rw [foldlM_append]
  exact bind_ok_iff.mpr ⟨db₁, h, h'⟩

lemma addLines_nextId {db db' : AccountDb} {ls : List MoveLine}
    (h : db.addLines moveId ls = .ok db') : db'.moves.nextId = db.moves.nextId := by
  have hrel := @foldlM_rel _ _ _ _ (fun a b : AccountDb => b.moves.nextId = a.moves.nextId)
    _ _ _ (fun _ => rfl) (fun hab hbc => hbc.trans hab) ?_ h
  · exact hrel
  intro s l s' hone
  rw [addLine_ok hone]
  rfl

lemma addLines_sameTaxes {db db' : AccountDb} {ls : List MoveLine}
    (h : db.addLines moveId ls = .ok db') : SameTaxes db db' := by
  obtain ⟨⟨_, _, rfl⟩, -⟩ := addLines_ok h
  exact ⟨rfl, rfl⟩

/-! ### Links -/

lemma isBilled_insert (links : Table InvoiceLink) (k : InvoiceLink) (lineId periodStart : ℤ) :
    isBilled (links.insert k) lineId periodStart = (isBilled links lineId periodStart ||
        (k.contractLineId == lineId && k.periodStart == periodStart)) := by
  show (links.rows ++ [(links.nextId, k)]).any _ = _
  rw [any_append, any_cons, any_nil, Bool.or_false]
  rfl

lemma insertLink_ok {links links' : Table InvoiceLink} {k : InvoiceLink}
    (h : insertLink links k = .ok links') :
    isBilled links k.contractLineId k.periodStart = false ∧ links' = links.insert k := by
  unfold insertLink at h
  split at h
  · cases h
  · next hnot =>
      cases h
      exact ⟨Bool.eq_false_iff.mpr hnot, rfl⟩

/-! ### Lines -/

/-- A line after a period was billed for it. -/
def advancedLine (contracts : Table RentalContract) (g : DueGroup) (l : DueLine)
    (row : ContractLine) : ContractLine :=
  ContractLine.inheritPartner contracts
    { row with nextPeriodStart := advanced l row, invoicedThrough := some g.periodEnd }

/-- A change of lines, and of the states of units, only. -/
structure LinesChanged (db db' : RentalDb) : Prop where
  account : db'.account = db.account
  contracts : db'.contracts = db.contracts
  links : db'.links = db.links
  units : ∀ u, (db'.units.get? u).isSome = (db.units.get? u).isSome

lemma LinesChanged.refl (db : RentalDb) : LinesChanged db db := ⟨rfl, rfl, rfl, fun _ => rfl⟩

lemma LinesChanged.trans {db₁ db₂ db₃ : RentalDb} (h₁₂ : LinesChanged db₁ db₂)
    (h₂₃ : LinesChanged db₂ db₃) : LinesChanged db₁ db₃ :=
  ⟨h₂₃.account.trans h₁₂.account, h₂₃.contracts.trans h₁₂.contracts, h₂₃.links.trans h₁₂.links,
    fun u => (h₂₃.units u).trans (h₁₂.units u)⟩

lemma deriveState_changed (db : RentalDb) (unit : Option ℤ) :
    LinesChanged db (db.deriveState unit) ∧ (db.deriveState unit).lines = db.lines := by
  have hunits : ∀ u, ((db.deriveState unit).units.get? u).isSome = (db.units.get? u).isSome := by
    intro u
    rw [units_deriveState, Option.isSome_map]
  cases unit with
  | none => exact ⟨.refl db, rfl⟩
  | some id => exact ⟨⟨rfl, rfl, rfl, hunits⟩, rfl⟩

lemma deriveStates_changed (db : RentalDb) (units : List (Option ℤ)) :
    LinesChanged db (db.deriveStates units) ∧ (db.deriveStates units).lines = db.lines := by
  induction units generalizing db with
  | nil => exact ⟨.refl db, rfl⟩
  | cons unit units ih =>
      obtain ⟨hone, hlines⟩ := deriveState_changed db unit
      obtain ⟨hrest, hlines'⟩ := ih (db.deriveState unit)
      exact ⟨hone.trans hrest, hlines'.trans hlines⟩

variable {now : RentalNow}

/-- The line whose period is billed moves on; the others stay. -/
lemma advance_ok {db' : RentalDb} (h : advance now db g l = .ok db') :
    LinesChanged db db' ∧ db'.lines = db.lines.modify l.id (advancedLine db.contracts g l) := by
  unfold advance at h
  rcases e : db.lines.get? l.id with - | row
  · rw [e] at h
    cases h
    exact ⟨.refl db, (modify_of_none _ e).symm⟩
  rw [e] at h
  obtain ⟨⟨db₁, units⟩, hrows, h⟩ := bind_ok_iff.mp h
  cases h
  obtain ⟨s, hone, hnil⟩ := foldlM_cons_ok.mp hrows
  cases hnil
  unfold RentalDb.updateOne at hone
  rw [e] at hone
  obtain ⟨row', hrow, hout⟩ := bind_ok_iff.mp hone
  cases hout
  obtain ⟨_, -, hrow⟩ := bind_ok_iff.mp hrow
  obtain ⟨_, -, hrow⟩ := bind_ok_iff.mp hrow
  obtain ⟨_, -, hrow⟩ := bind_ok_iff.mp hrow
  cases hrow
  have hwritten : ∀ db₁ units, LinesChanged db db₁ →
      db₁.lines = db.lines.modify l.id (fun _ => advancedLine db.contracts g l row) →
      LinesChanged db (db₁.deriveStates units) ∧
        (db₁.deriveStates units).lines = db.lines.modify l.id (advancedLine db.contracts g l) := by
    intro db₁ units hchanged hlines
    obtain ⟨hrest, hkept⟩ := deriveStates_changed db₁ units
    refine ⟨hchanged.trans hrest, (hkept.trans hlines).trans ?_⟩
    exact modify_congr e rfl
  exact hwritten _ _ ⟨rfl, rfl, rfl, fun _ => rfl⟩ rfl

/-! ### The lines of an invoice -/

lemma billLine_ok {hd : Header} {s s' : RentalDb × ℤ}
    (h : billLine D now hd g moveId s l = .ok s') :
    ∃ subtotal, lineSubtotal D s.1.account l = .ok subtotal ∧
      s.1.account.addLine moveId (revenueLine hd g l subtotal) = .ok s'.1.account ∧
      isBilled s.1.links l.id g.key.periodStart = false ∧
      s'.1.links = s.1.links.insert (linkOf g moveId l subtotal) ∧
      s'.1.contracts = s.1.contracts ∧
      (∀ u, (s'.1.units.get? u).isSome = (s.1.units.get? u).isSome) ∧
      s'.1.lines = s.1.lines.modify l.id (advancedLine s.1.contracts g l) ∧
      s'.2 = s.2 + subtotal := by
  obtain ⟨subtotal, hsubtotal, h⟩ := bind_ok_iff.mp h
  obtain ⟨account, haccount, h⟩ := bind_ok_iff.mp h
  obtain ⟨links, hlinks, h⟩ := bind_ok_iff.mp h
  obtain ⟨db', hadvance, h⟩ := bind_ok_iff.mp h
  cases h
  obtain ⟨hnew, rfl⟩ := insertLink_ok hlinks
  obtain ⟨hchanged, hlines⟩ := advance_ok hadvance
  refine ⟨subtotal, hsubtotal, ?_, hnew, hchanged.links, hchanged.contracts, hchanged.units, hlines,
    rfl⟩
  rw [haccount, hchanged.account]

/-- The lines of a group, each in its turn.  No line is there twice: its second
link would be a duplicate. -/
lemma billLines_ok {hd : Header} {s s' : RentalDb × ℤ}
    (h : ls.foldlM (billLine D now hd g moveId) s = .ok s') :
    ∃ subtotals : List ℤ,
      Forall₂ (fun l x => lineSubtotal D s.1.account l = .ok x) ls subtotals ∧
      s.1.account.addLines moveId (zipWith (revenueLine hd g) ls subtotals) =
        .ok s'.1.account ∧
      (ls.map DueLine.id).Nodup ∧
      (∀ l ∈ ls, isBilled s.1.links l.id g.key.periodStart = false) ∧
      s'.1.links = (zipWith (linkOf g moveId) ls subtotals).foldl Table.insert s.1.links ∧
      s'.1.contracts = s.1.contracts ∧
      (∀ u, (s'.1.units.get? u).isSome = (s.1.units.get? u).isSome) ∧
      s'.1.lines = s.1.lines.modifyAll (advancedLine s.1.contracts g) (ls.map fun l => (l.id, l)) ∧
      s'.2 = s.2 + subtotals.sum := by
  induction ls generalizing s with
  | nil =>
      cases h
      exact ⟨[], .nil, rfl, nodup_nil, by simp, rfl, rfl, fun _ => rfl, rfl, by simp⟩
  | cons l ls ih =>
      obtain ⟨m, hm, hrest⟩ := foldlM_cons_ok.mp h
      obtain ⟨x, hx, hadd, hnew, hlinks, hcontracts, hunits, hlines, hsum⟩ := billLine_ok hm
      obtain ⟨xs, hxs, hadds, hnodup, hnews, hlinks', hcontracts', hunits', hlines', hsum'⟩ := ih hrest
      have hone : s.1.account.addLines moveId [revenueLine hd g l x] = .ok m.1.account :=
        foldlM_cons_ok.mpr ⟨_, hadd, rfl⟩
      have hsame := addLines_sameTaxes hone
      have hnewer : ∀ l' ∈ ls, isBilled s.1.links l'.id g.key.periodStart = false ∧
          l.id ≠ l'.id := by
        intro l' hl'
        have hfalse := hnews l' hl'
        rw [hlinks, isBilled_insert, Bool.or_eq_false_iff] at hfalse
        refine ⟨hfalse.1, ?_⟩
        intro heq
        have hdup := hfalse.2
        simp [linkOf, heq] at hdup
      refine ⟨x :: xs, .cons hx ?_, ?_, ?_, ?_, ?_, hcontracts'.trans hcontracts,
        fun u => (hunits' u).trans (hunits u), ?_, ?_⟩
      · refine hxs.imp ?_
        intro l' x' hx'
        rwa [lineSubtotal_congr hsame]
      · exact addLines_append hone hadds
      · rw [map_cons, nodup_cons]
        refine ⟨?_, hnodup⟩
        intro hmem
        obtain ⟨l', hl', heq⟩ := mem_map.mp hmem
        exact (hnewer l' hl').2 heq.symm
      · intro l' hl'
        rcases mem_cons.mp hl' with rfl | hl'
        · exact hnew
        · exact (hnewer l' hl').1
      · rw [hlinks', hlinks]
        rfl
      · rw [hlines', hlines, hcontracts, map_cons, modifyAll_cons]
      · rw [hsum', hsum, sum_cons, add_assoc]

/-! ### The taxes of an invoice -/

/-- A tax there is, with an account in a company. -/
def Resolves (db : AccountDb) (companyId taxId : ℤ) : Prop :=
  ∃ tax, db.taxes.get? taxId = some tax ∧ (taxAccount db companyId tax).isSome

/-- The line of a tax is a credit of what it adds to the total, or there is
neither. -/
lemma insertTax_ok {s s' : AccountDb × ℤ} {t : ℤ × ℤ} (h : insertTax g moveId s t = .ok s') :
    ∃ ls, s.1.addLines moveId ls = .ok s'.1 ∧ linesBalance ls = s.2 - s'.2 ∧
      (Resolves s.1 g.key.companyId t.1 → s'.2 = s.2 + t.2) := by
  unfold insertTax at h
  split at h
  · next hzero =>
      cases h
      refine ⟨[], rfl, by simp, ?_⟩
      intro _
      omega
  rcases htax : s.1.taxes.get? t.1 with - | tax
  · rw [htax] at h
    cases h
    refine ⟨[], rfl, by simp, ?_⟩
    rintro ⟨tax, hsome, -⟩
    cases htax.symm.trans hsome
  rw [htax] at h
  dsimp only at h
  rcases hacct : taxAccount s.1 g.key.companyId tax with - | acct
  · rw [hacct] at h
    cases h
    refine ⟨[], rfl, by simp, ?_⟩
    rintro ⟨tax', hsome, hresolves⟩
    cases htax.symm.trans hsome
    rw [hacct] at hresolves
    cases hresolves
  · rw [hacct] at h
    obtain ⟨account, hadd, h⟩ := bind_ok_iff.mp h
    cases h
    refine ⟨[taxLine g acct tax t], foldlM_cons_ok.mpr ⟨_, hadd, rfl⟩, ?_, fun _ => rfl⟩
    show linesBalance [taxLine g acct tax t] = s.2 - (s.2 + t.2)
    simp [taxLine]

lemma insertTaxes_ok {byTax : List (ℤ × ℤ)} {s s' : AccountDb × ℤ}
    (h : byTax.foldlM (insertTax g moveId) s = .ok s') :
    ∃ ls, s.1.addLines moveId ls = .ok s'.1 ∧ linesBalance ls = s.2 - s'.2 ∧
      ((∀ t ∈ byTax, Resolves s.1 g.key.companyId t.1) →
        s'.2 = s.2 + (byTax.map Prod.snd).sum) := by
  induction byTax generalizing s with
  | nil =>
      cases h
      exact ⟨[], rfl, by simp, fun _ => by simp⟩
  | cons t ts ih =>
      obtain ⟨m, hm, hrest⟩ := foldlM_cons_ok.mp h
      obtain ⟨ls, hls, hbalance, hvalue⟩ := insertTax_ok hm
      obtain ⟨ls', hls', hbalance', hvalue'⟩ := ih hrest
      refine ⟨ls ++ ls', addLines_append hls hls', ?_, ?_⟩
      · rw [linesBalance_append, hbalance, hbalance']
        omega
      · intro hall
        rw [forall_mem_cons] at hall
        -- the accounts and the taxes are still the same
        have hlater : ∀ t ∈ ts, Resolves m.1 g.key.companyId t.1 := by
          obtain ⟨⟨moves, n, heq⟩, -⟩ := addLines_ok hls
          rw [heq]
          exact hall.2
        rw [hvalue' hlater, hvalue hall.1, map_cons, sum_cons, add_assoc]

/-! ### The transaction of a group -/

/-- The lines of an invoice. -/
def invoiceLines (hd : Header) (g : DueGroup) (subtotals : List ℤ) (taxes : List MoveLine)
    (tax : ℤ) : List MoveLine :=
  zipWith (revenueLine hd g) g.lines subtotals ++ taxes ++
    [receivableLine hd g (subtotals.sum + tax)]

/-- **What a group that is billed leaves behind.** -/
structure Billed (D : Type) [JsonDouble D] (asOf : ℤ) (db db' : RentalDb) (g : DueGroup)
    (subtotals : List ℤ) : Prop where
  nodup : (g.lines.map DueLine.id).Nodup
  unbilled : ∀ l ∈ g.lines, isBilled db.links l.id g.key.periodStart = false
  computed : Forall₂ (fun l x => lineSubtotal D db.account l = .ok x) g.lines subtotals
  links : db'.links =
    (zipWith (linkOf g db.account.moves.nextId) g.lines subtotals).foldl Table.insert db.links
  contracts : db'.contracts = db.contracts
  lines : db'.lines =
    db.lines.modifyAll (advancedLine db.contracts g) (g.lines.map fun l => (l.id, l))
  units : ∀ u, (db'.units.get? u).isSome = (db.units.get? u).isSome
  account : ∃ moves n, db'.account = { db.account with moves := moves, nextLineId := n }
  nextId : db'.account.moves.nextId = db.account.moves.nextId + 1
  others : ∀ i, i ≠ db.account.moves.nextId → db'.account.moves.get? i = db.account.moves.get? i
  invoice : ∃ hd byTax taxes tax, db'.account.moves.get? db.account.moves.nextId =
      some (withTotals subtotals.sum tax
        { draft asOf hd g with
          lines := numbered db.account.nextLineId
            (invoiceLines hd g subtotals taxes tax) }) ∧
    g.lines.foldlM (addLineTaxes db.account) [] = .ok byTax ∧
    linesBalance taxes = -tax ∧
    ((∀ t ∈ byTax, Resolves db.account g.key.companyId t.1) → tax = (byTax.map Prod.snd).sum)

lemma Billed.sameTaxes {db' : RentalDb} {xs : List ℤ} (h : Billed D asOf db db' g xs) :
    SameTaxes db.account db'.account := by
  obtain ⟨_, _, heq⟩ := h.account
  rw [heq]
  exact ⟨rfl, rfl⟩

lemma billGroup_ok {db' : RentalDb} (h : billGroup D now asOf db g = .ok (db', moveId)) :
    moveId = db.account.moves.nextId ∧ ∃ subtotals, Billed D asOf db db' g subtotals := by
  obtain ⟨hd, hheader, h⟩ := bind_ok_iff.mp h
  obtain ⟨⟨db₁, untaxed⟩, hlines, h⟩ := bind_ok_iff.mp h
  obtain ⟨byTax, hbyTax, h⟩ := bind_ok_iff.mp h
  obtain ⟨⟨account₁, tax⟩, htaxes, h⟩ := bind_ok_iff.mp h
  obtain ⟨account₂, hreceivable, h⟩ := bind_ok_iff.mp h
  cases h
  obtain ⟨xs, hxs, hadds, hnodup, hnew, hlinks, hcontracts, hunits, hrows, hsum⟩ :=
    billLines_ok hlines
  obtain ⟨taxes, haddTaxes, hbalance, hvalue⟩ := insertTaxes_ok htaxes
  have hlast : account₁.addLines db.account.moves.nextId
      [receivableLine hd g (untaxed + tax)] = .ok account₂ :=
    foldlM_cons_ok.mpr ⟨_, hreceivable, rfl⟩
  have hsum : untaxed = xs.sum := by simpa using hsum
  subst hsum
  have hall : (db.account.insertMove (draft asOf hd g)).addLines db.account.moves.nextId
      (invoiceLines hd g xs taxes tax) = .ok account₂ :=
    addLines_append (addLines_append hadds haddTaxes) hlast
  have hsame₁ : SameTaxes db.account db₁.account := (addLines_sameTaxes hadds).trans ⟨rfl, rfl⟩
  obtain ⟨⟨moves₁, n₁, heq₁⟩, -⟩ := addLines_ok hadds
  obtain ⟨⟨moves, n, heq⟩, hget⟩ := addLines_ok hall
  refine ⟨rfl, xs, ?_⟩
  refine ⟨hnodup, hnew, hxs, hlinks, hcontracts, hrows, hunits, ?_, ?_, ?_, ?_⟩
  · rw [heq]
    exact ⟨_, _, rfl⟩
  · exact addLines_nextId hall
  · intro i hi
    show (account₂.moves.modify _ _).get? i = _
    rw [get?_modify_of_ne _ _ hi, hget, insertMove_moves, get?_insert_of_ne _ _ hi]
    simp [hi]
  · refine ⟨hd, byTax, taxes, tax, ?_, ?_, ?_, ?_⟩
    · show (account₂.moves.modify _ _).get? _ = _
      rw [get?_modify_self, hget, insertMove_moves, get?_insert_self]
      simp [insertMove, draft]
    · rw [addLineTaxes_congr hsame₁]
      exact hbyTax
    · rw [hbalance]
      simp
    · intro hresolve
      have htax := hvalue (by rw [heq₁]; exact hresolve)
      simpa using htax

/-! ### The run -/

/-- Groups taken in turn: the databases between them, and what became of each.
A group that is not billed leaves the database as it was. -/
inductive InTurn (D : Type) [JsonDouble D] (now : RentalNow) (asOf : ℤ) :
    RentalDb → List (DueGroup × GroupOutcome) → RentalDb → Prop
  | nil (db : RentalDb) : InTurn D now asOf db [] db
  | billed {db db₁ db' : RentalDb} {g : DueGroup} {moveId : ℤ}
      {outs : List (DueGroup × GroupOutcome)} (h : billGroup D now asOf db g = .ok (db₁, moveId))
      (hrest : InTurn D now asOf db₁ outs db') :
      InTurn D now asOf db ((g, .billed moveId) :: outs) db'
  | undone {db db' : RentalDb} {g : DueGroup} {what : String}
      {outs : List (DueGroup × GroupOutcome)} (h : billGroup D now asOf db g = .error what)
      (hrest : InTurn D now asOf db outs db') :
      InTurn D now asOf db ((g, if isDuplicate what then .skipped else .failed what) :: outs) db'

lemma foldl_billOne (now : RentalNow) (asOf : ℤ) (gs : List DueGroup)
    (s : RentalDb × List (DueGroup × GroupOutcome)) :
    ∃ outs, gs.foldl (billOne D now asOf) s = ((gs.foldl (billOne D now asOf) s).1, s.2 ++ outs) ∧
      outs.map Prod.fst = gs ∧
      InTurn D now asOf s.1 outs (gs.foldl (billOne D now asOf) s).1 := by
  induction gs generalizing s with
  | nil => exact ⟨[], by simp, rfl, .nil _⟩
  | cons g gs ih =>
      rw [foldl_cons]
      obtain ⟨outs, heq, hgroups, hturn⟩ := ih (billOne D now asOf s g)
      unfold billOne at heq hturn ⊢
      rcases e : billGroup D now asOf s.1 g with what | ⟨db₁, moveId⟩
      · rw [e] at heq hturn
        refine ⟨_ :: outs, ?_, by rw [map_cons, hgroups], .undone e hturn⟩
        rw [heq, append_assoc]
        rfl
      · rw [e] at heq hturn
        refine ⟨_ :: outs, ?_, by rw [map_cons, hgroups], .billed e hturn⟩
        rw [heq, append_assoc]
        rfl

/-- **What a run does**: it takes the groups of what is due in turn. -/
theorem run_ok (now : RentalNow) (db : RentalDb) (asOf : Option ℤ) (contractId : ℤ) :
    (run D now db asOf contractId).2.map Prod.fst =
        groupsOf (dueLines db (asOf.getD now.today) contractId) ∧
      InTurn D now (asOf.getD now.today) db (run D now db asOf contractId).2
        (run D now db asOf contractId).1 := by
  obtain ⟨outs, heq, hgroups, hturn⟩ := @foldl_billOne D _ now (asOf.getD now.today)
    (groupsOf (dueLines db (asOf.getD now.today) contractId)) (db, [])
  have hrun : run D now db asOf contractId = ((run D now db asOf contractId).1, outs) := heq
  have houts : (run D now db asOf contractId).2 = outs := by rw [hrun]
  rw [houts]
  exact ⟨hgroups, hturn⟩

/-! ### The report -/

lemma length_foldl_insert {α : Type} (l : List α) (t : Table α) :
    (l.foldl Table.insert t).rows.length = t.rows.length + l.length := by
  induction l generalizing t with
  | nil => rfl
  | cons a l ih =>
      rw [foldl_cons, ih, length_cons]
      simp only [Table.insert, length_append, length_singleton]
      omega

/-- What a later report has more is what the later database has more. -/
structure Accounted (db : RentalDb) (out : BillingResult) (groups : ℕ) (db' : RentalDb)
    (out' : BillingResult) : Prop where
  groups : out'.invoicesCreated + out'.groupsSkipped + out'.groupsFailed =
    out.invoicesCreated + out.groupsSkipped + out.groupsFailed + groups
  moves : ∃ n : ℕ, out'.invoicesCreated = out.invoicesCreated + n ∧
    db'.account.moves.nextId = db.account.moves.nextId + n ∧
    out'.moveIds = out.moveIds ++ (range n).map fun k : ℕ => db.account.moves.nextId + (k : ℤ)
  others : ∀ i < db.account.moves.nextId, db'.account.moves.get? i = db.account.moves.get? i
  links : db'.links.rows.length + out.linesBilled = db.links.rows.length + out'.linesBilled
  errors : out'.errors.length + out.groupsFailed = out.errors.length + out'.groupsFailed

lemma InTurn.accounted {outs : List (DueGroup × GroupOutcome)} {db' : RentalDb}
    (h : InTurn D now asOf db outs db') (out : BillingResult) :
    Accounted db out outs.length db' (outs.foldl BillingResult.count out) := by
  induction h generalizing out with
  | nil db => exact ⟨rfl, ⟨0, rfl, by simp, by simp⟩, fun _ _ => rfl, rfl, rfl⟩
  | @billed db db₁ db' g moveId outs h hrest ih =>
      obtain ⟨rfl, subtotals, hbilled⟩ := billGroup_ok h
      have hlater := ih (out.count (g, .billed db.account.moves.nextId))
      have hnext := hbilled.nextId
      have hlinks : db₁.links.rows.length = db.links.rows.length + g.lines.length := by
        rw [hbilled.links, length_foldl_insert, length_zipWith, hbilled.computed.length_eq, min_self]
      obtain ⟨n, hn, hids, hmoves⟩ := hlater.moves
      constructor
      · have hgroups := hlater.groups
        rw [foldl_cons, length_cons]
        simp only [BillingResult.count] at hgroups ⊢
        omega
      · refine ⟨n + 1, ?_, ?_, ?_⟩
        · rw [foldl_cons, hn]
          simp only [BillingResult.count]
          omega
        · rw [hids, hnext]
          push_cast
          ring
        · rw [foldl_cons, hmoves, hnext, range_succ_eq_map, map_cons, map_map, Nat.cast_zero, add_zero]
          simp only [BillingResult.count, append_assoc, singleton_append]
          refine congrArg (fun ids => out.moveIds ++ _ :: ids) (map_congr_left fun k _ => ?_)
          rw [Function.comp_apply, Nat.succ_eq_add_one]
          push_cast
          ring
      · intro i hi
        rw [hlater.others i (by omega), hbilled.others i hi.ne]
      · have hsum := hlater.links
        rw [foldl_cons]
        simp only [BillingResult.count] at hsum ⊢
        omega
      · exact hlater.errors
  | @undone db db' g what outs h hrest ih =>
      rw [foldl_cons, length_cons]
      split
      · have hlater := ih (out.count (g, .skipped))
        exact ⟨by have := hlater.groups; simp only [BillingResult.count] at this ⊢; omega,
          hlater.moves, hlater.others, hlater.links, hlater.errors⟩
      · have hlater := ih (out.count (g, .failed what))
        refine ⟨?_, hlater.moves, hlater.others, hlater.links, ?_⟩
        · have hgroups := hlater.groups
          simp only [BillingResult.count] at hgroups ⊢
          omega
        · have herrors := hlater.errors
          simp only [BillingResult.count, length_append, length_singleton] at herrors ⊢
          omega

/-- **The report of a run agrees with the books**: every group is counted once, the
reported invoices are the new moves in their order, each billed line has one link
more, and no earlier move is touched. -/
theorem report_agrees (now : RentalNow) (db : RentalDb) (asOf : Option ℤ) (contractId : ℤ) :
    ∃ db' outs out, run D now db asOf contractId = (db', outs) ∧ resultOf outs = out ∧
      out.invoicesCreated + out.groupsSkipped + out.groupsFailed =
        (groupsOf (dueLines db (asOf.getD now.today) contractId)).length ∧
      out.moveIds =
        (range out.invoicesCreated).map (fun k : ℕ => db.account.moves.nextId + (k : ℤ)) ∧
      db'.account.moves.nextId = db.account.moves.nextId + out.invoicesCreated ∧
      (∀ i < db.account.moves.nextId, db'.account.moves.get? i = db.account.moves.get? i) ∧
      db'.links.rows.length = db.links.rows.length + out.linesBilled ∧
      out.errors.length = out.groupsFailed := by
  obtain ⟨hgroups, hturn⟩ := run_ok (D := D) now db asOf contractId
  have haccounted : Accounted db {} _ _ (resultOf (run D now db asOf contractId).2) :=
    hturn.accounted {}
  obtain ⟨n, hn, hids, hmoves⟩ := haccounted.moves
  obtain rfl : _ = n := hn.trans (Nat.zero_add n)
  refine ⟨_, (run D now db asOf contractId).2, _, rfl, rfl, ?_, hmoves, hids, haccounted.others,
    haccounted.links, ?_⟩
  · have hlength := congrArg length hgroups
    rw [length_map] at hlength
    exact haccounted.groups.trans ((Nat.zero_add _).trans hlength)
  · exact haccounted.errors.trans (Nat.zero_add _)

end Bill

end RentalBilling

end CErp
