/-
Which groups a billing run skips, and what is lost with them.

A group is skipped when a line of it that is billed already is reached
(`MeetsBilled`); it is rolled back as a whole, so a group that mixes billed and
unbilled lines takes the unbilled ones with it.  `nothing_dropped_iff` says exactly
when no due line is lost: no group is mixed, or it fails before it gets that far,
and what is beyond the limit of the query is billed already.
`mixed_group_dropped` is a group of two lets with one of them billed.
-/
import CErp.BillingFailures
import CErp.RentalInvoices

namespace CErp

open Outcome Outcome List AccountDb JsonDouble Table ContractLine

namespace RentalBilling

open Runs

/-! ### Where a group meets a billed line -/

section Bill

variable (D : Type) [JsonDouble D]

/-- The lines are taken in turn, each with amounts that can be computed, until one
is billed already; those before it can be written. -/
def MeetsBilled (db : RentalDb) (periodStart : ℤ) : List DueLine → Prop
  | [] => False
  | l :: ls =>
      (lineSubtotal D db.account l).isOk = true ∧ (isBilled db.links l.id periodStart = true ∨
          (Movable db l.id ∧ MeetsBilled db periodStart ls))

instance decidableMeetsBilled (db : RentalDb) (periodStart : ℤ) :
    (ls : List DueLine) → Decidable (MeetsBilled D db periodStart ls)
  | [] => instDecidableFalse
  | _ :: ls =>
      have := decidableMeetsBilled db periodStart ls
      inferInstanceAs (Decidable (_ ∧ _))

variable {D}

variable {db : RentalDb}

variable {ls : List DueLine}

lemma MeetsBilled.exists_billed {periodStart : ℤ} (h : MeetsBilled D db periodStart ls) :
    ∃ l ∈ ls, isBilled db.links l.id periodStart = true := by
  induction ls with
  | nil => exact absurd h id
  | cons l ls ih =>
      obtain ⟨-, hbilled | ⟨-, hrest⟩⟩ := h
      · exact ⟨l, mem_cons_self, hbilled⟩
      · obtain ⟨l', hl', hbilled⟩ := ih hrest
        exact ⟨l', mem_cons_of_mem _ hl', hbilled⟩

/-- Two databases offer some lines the same: the books but for entries, what is
billed of the lines, and whether they can be written. -/
structure SameOutlook (ids : List ℤ) (db db' : RentalDb) : Prop where
  books : ∃ moves n, db'.account = { db.account with moves := moves, nextLineId := n }
  billed : ∀ id ∈ ids, ∀ p, isBilled db'.links id p = isBilled db.links id p
  movable : ∀ id ∈ ids, (Movable db' id ↔ Movable db id)

lemma SameOutlook.refl (ids : List ℤ) (db : RentalDb) : SameOutlook ids db db :=
  ⟨⟨_, _, rfl⟩, fun _ _ _ => rfl, fun _ _ => Iff.rfl⟩

variable {ids : List ℤ}

lemma SameOutlook.trans {db₁ db₂ db₃ : RentalDb} (h₁₂ : SameOutlook ids db₁ db₂)
    (h₂₃ : SameOutlook ids db₂ db₃) : SameOutlook ids db₁ db₃ := by
  refine ⟨?_, ?_, ?_⟩
  · obtain ⟨_, _, heq⟩ := h₁₂.books
    obtain ⟨moves, n, heq'⟩ := h₂₃.books
    refine ⟨moves, n, ?_⟩
    rw [heq', heq]
  · intro id hid p
    rw [h₂₃.billed id hid p, h₁₂.billed id hid p]
  · intro id hid
    rw [h₂₃.movable id hid, h₁₂.movable id hid]

variable {db' : RentalDb}

lemma SameOutlook.mono {ids' : List ℤ} (h : SameOutlook ids db db')
    (hsub : ∀ id ∈ ids', id ∈ ids) : SameOutlook ids' db db' :=
  ⟨h.books, fun id hid => h.billed id (hsub id hid), fun id hid => h.movable id (hsub id hid)⟩

lemma meetsBilled_congr (periodStart : ℤ) (h : SameOutlook (ls.map DueLine.id) db db') :
    MeetsBilled D db' periodStart ls ↔ MeetsBilled D db periodStart ls := by
  induction ls with
  | nil => exact Iff.rfl
  | cons l ls ih =>
      have hrest := ih (h.mono fun id hid => mem_cons_of_mem _ hid)
      have hsame : SameTaxes db'.account db.account := by
        obtain ⟨_, _, heq⟩ := h.books
        rw [heq]
        exact ⟨rfl, rfl⟩
      have hid : l.id ∈ (l :: ls).map DueLine.id := mem_cons_self
      unfold MeetsBilled
      rw [lineSubtotal_congr hsame, h.billed l.id hid, h.movable l.id hid, hrest]

lemma header_congr (h : SameOutlook ids db db') (g : DueGroup) :
    header db'.account g = header db.account g := by
  obtain ⟨_, _, heq⟩ := h.books
  rw [heq]
  rfl

/-- Whether a line can be written depends on its row, and on the contracts and the
units there are. -/
lemma movable_congr {id : ℤ} (hcontracts : db'.contracts = db.contracts)
    (hunits : ∀ u, (db'.units.get? u).isSome = (db.units.get? u).isSome)
    (hline : db'.lines.get? id = db.lines.get? id) : Movable db' id ↔ Movable db id := by
  have hchecks : ∀ l, checks db' l = checks db l := by
    intro l
    unfold checks
    simp only [hcontracts, hunits]
  unfold Movable
  rw [hline, hcontracts]
  simp only [hchecks]

variable {g : DueGroup}

lemma isBilled_links {moveId id p : ℤ} {xs : List ℤ} {q : DueLine → ℤ → Prop}
    (h : Forall₂ q ls xs) (links : Table InvoiceLink) (hid : id ∉ ls.map DueLine.id) :
    isBilled ((zipWith (linkOf g moveId) ls xs).foldl Table.insert links) id p =
      isBilled links id p := by
  induction h generalizing links with
  | nil => rfl
  | @cons l x ls xs _ _ ih =>
      rw [map_cons, mem_cons, not_or] at hid
      rw [zipWith_cons_cons, foldl_cons, ih _ hid.2, isBilled_insert]
      have hne : ((linkOf g moveId l x).contractLineId == id) = false :=
        beq_eq_false_iff_ne.mpr (Ne.symm hid.1)
      rw [hne, Bool.false_and, Bool.or_false]

variable {asOf : ℤ}

/-- A group that is billed changes nothing for the lines of others. -/
lemma billed_outlook {xs : List ℤ} (h : Billed D asOf db db' g xs)
    (hids : List.Disjoint (g.lines.map DueLine.id) ids) : SameOutlook ids db db' := by
  refine ⟨h.account, ?_, ?_⟩
  · intro id hid p
    rw [h.links]
    exact isBilled_links h.computed _ fun hmem => hids hmem hid
  · intro id hid
    apply movable_congr h.contracts h.units
    rw [h.lines]
    apply get?_modifyAll_of_notMem
    rw [map_map]
    exact fun hmem => hids hmem hid

/-! ### When a group is skipped -/

/-- What becomes of one line. -/
lemma billLine_cases (hquiet : QuietDoubles D) (now : RentalNow) {hd : Header} (g : DueGroup)
    (moveId : ℤ) {s : RentalDb × ℤ} (l : DueLine)
    (hrev : (s.1.account.accounts.get? hd.revAccount).isSome = true) :
    (∃ what, billLine D now hd g moveId s l = .error what ∧ Quiet what ∧
        ¬ ((lineSubtotal D s.1.account l).isOk = true ∧
          (isBilled s.1.links l.id g.key.periodStart = true ∨ Movable s.1 l.id))) ∨
      (billLine D now hd g moveId s l = .error duplicateLink ∧
        (lineSubtotal D s.1.account l).isOk = true ∧
        isBilled s.1.links l.id g.key.periodStart = true) ∨
      ∃ s', billLine D now hd g moveId s l = .ok s' ∧ (lineSubtotal D s.1.account l).isOk = true ∧
        isBilled s.1.links l.id g.key.periodStart = false ∧ Movable s.1 l.id := by
  rcases hsubtotal : lineSubtotal D s.1.account l with what | x
  · left
    refine ⟨what, ?_, lineSubtotal_quiet hquiet _ _ what hsubtotal, ?_⟩
    · unfold billLine
      rw [hsubtotal]
      rfl
    · rintro ⟨hok, -⟩
      cases hok
  have hrequire : require (s.1.account.accounts.get? hd.revAccount).isSome
      foreignKeyViolation = .ok () := require_ok_iff.mpr hrev
  obtain ⟨account, hadd⟩ : ∃ account,
      s.1.account.addLine moveId (revenueLine hd g l x) = .ok account :=
    ⟨_, bind_ok_iff.mpr ⟨(), hrequire, rfl⟩⟩
  have hbill : billLine D now hd g moveId s l = (do
      let links ← insertLink s.1.links (linkOf g moveId l x)
      let db ← advance now { s.1 with account := account, links := links } g l
      return (db, s.2 + x)) := by
    unfold billLine
    rw [hsubtotal]
    show (s.1.account.addLine moveId (revenueLine hd g l x) >>= _) = _
    rw [hadd]
    rfl
  by_cases hbilled : isBilled s.1.links l.id g.key.periodStart = true
  · right
    left
    refine ⟨?_, rfl, hbilled⟩
    have hlink : insertLink s.1.links (linkOf g moveId l x) = .error duplicateLink := if_pos hbilled
    rw [hbill, hlink]
    rfl
  have hlink : insertLink s.1.links (linkOf g moveId l x) =
      .ok (s.1.links.insert (linkOf g moveId l x)) := if_neg hbilled
  have hmovable : Movable
      { s.1 with account := account, links := s.1.links.insert (linkOf g moveId l x) } l.id ↔
      Movable s.1 l.id := movable_congr rfl (fun _ => rfl) rfl
  rcases advance_cases now
      { s.1 with account := account, links := s.1.links.insert (linkOf g moveId l x) } g l with
    ⟨hmoves, db', hdb'⟩ | ⟨hstuck, what, hwhat, hquietly⟩
  · right
    right
    refine ⟨(db', s.2 + x), ?_, rfl, Bool.eq_false_iff.mpr hbilled, hmovable.mp hmoves⟩
    rw [hbill, hlink]
    show (advance now _ g l >>= _) = _
    rw [hdb']
    rfl
  · left
    refine ⟨what, ?_, hquietly, ?_⟩
    · rw [hbill, hlink]
      show (advance now _ g l >>= _) = _
      rw [hwhat]
      rfl
    · rintro ⟨-, hyes | hmoves⟩
      · exact hbilled hyes
      · exact hstuck (hmovable.mpr hmoves)

/-- A computation that fails with a duplicate. -/
def FailsTwice {α : Type} (x : Except String α) : Prop :=
  ∃ what, x = .error what ∧ isDuplicate what = true

lemma not_failsTwice {α : Type} {x : Except String α} (h : FailsOnly Quiet x) :
    ¬ FailsTwice x := by
  rintro ⟨what, hwhat, hduplicate⟩
  have hquiet : isDuplicate what = false := h what hwhat
  rw [hquiet] at hduplicate
  cases hduplicate

lemma failsTwice_bind {α β : Type} {x : Except String α} {f : α → Except String β}
    (hf : ∀ a, FailsOnly Quiet (f a)) : FailsTwice (x >>= f) ↔ FailsTwice x := by
  rcases x with what | a
  · have herror : ∀ {γ : Type}, FailsTwice (Except.error what : Except String γ) ↔
        isDuplicate what = true := by
      intro γ
      constructor
      · rintro ⟨_, hwhat, hduplicate⟩
        cases hwhat
        exact hduplicate
      · exact fun hduplicate => ⟨what, rfl, hduplicate⟩
    exact herror.trans herror.symm
  · apply iff_of_false
    · exact not_failsTwice (hf a)
    · exact not_failsTwice (failsOnly_ok a)

/-- **The lines of a group end in a duplicate when a billed one is met.** -/
theorem billLines_twice (hquiet : QuietDoubles D) (now : RentalNow) {hd : Header} (g : DueGroup)
    (moveId : ℤ) {s : RentalDb × ℤ} (hnodup : (ls.map DueLine.id).Nodup)
    (hrev : (s.1.account.accounts.get? hd.revAccount).isSome = true) :
    FailsTwice (ls.foldlM (billLine D now hd g moveId) s) ↔
      MeetsBilled D s.1 g.key.periodStart ls := by
  induction ls generalizing s with
  | nil =>
      apply iff_of_false
      · rintro ⟨what, hwhat, -⟩
        cases hwhat
      · exact id
  | cons l ls ih =>
      rw [map_cons, nodup_cons] at hnodup
      rw [foldlM_cons]
      rcases billLine_cases hquiet now g moveId l hrev with
        ⟨what, hwhat, hquietly, hnot⟩ | ⟨hwhat, hok, hbilled⟩ | ⟨s', hs', hok, hunbilled, hmoves⟩
      · rw [hwhat]
        apply iff_of_false
        · apply not_failsTwice
          exact failsOnly_error hquietly
        · rintro ⟨hok, hbilled | ⟨hmoves, -⟩⟩
          · exact hnot ⟨hok, .inl hbilled⟩
          · exact hnot ⟨hok, .inr hmoves⟩
      · rw [hwhat]
        apply iff_of_true
        · exact ⟨duplicateLink, rfl, by decide +kernel⟩
        · exact ⟨hok, .inl hbilled⟩
      · -- the lines that follow find what they would have found before
        rw [hs']
        show FailsTwice (ls.foldlM (billLine D now hd g moveId) s') ↔ _
        obtain ⟨x, hx, hadd, -, hlinks, hcontracts, hunits, hlines, -⟩ := billLine_ok hs'
        have haccount := addLine_ok hadd
        have houtlook : SameOutlook (ls.map DueLine.id) s.1 s'.1 := by
          refine ⟨⟨_, _, haccount⟩, ?_, ?_⟩
          · intro id hid p
            rw [hlinks, isBilled_insert]
            have hne : ((linkOf g moveId l x).contractLineId == id) = false := by
              rw [beq_eq_false_iff_ne]
              rintro rfl
              exact hnodup.1 hid
            rw [hne, Bool.false_and, Bool.or_false]
          · intro id hid
            apply movable_congr hcontracts hunits
            rw [hlines, get?_modify_of_ne]
            rintro rfl
            exact hnodup.1 hid
        have hrev' : (s'.1.account.accounts.get? hd.revAccount).isSome = true := by
          rw [haccount]
          exact hrev
        rw [ih hnodup.2 hrev', meetsBilled_congr _ houtlook]
        constructor
        · exact fun hmeets => ⟨hok, .inr ⟨hmoves, hmeets⟩⟩
        · rintro ⟨-, hbilled | ⟨-, hmeets⟩⟩
          · rw [hunbilled] at hbilled
            cases hbilled
          · exact hmeets

omit [JsonDouble D] in
lemma header_ok {db : AccountDb} {hd : Header} (h : header db g = .ok hd) :
    (db.accounts.get? hd.revAccount).isSome = true := by
  obtain ⟨journalId, -, h⟩ := bind_ok_iff.mp h
  obtain ⟨arAccount, -, h⟩ := bind_ok_iff.mp h
  obtain ⟨revAccount, hrev, hout⟩ := bind_ok_iff.mp h
  cases hout
  show (db.accounts.get? revAccount).isSome = true
  rcases hcode : db.accountOfCode "4000" g.key.companyId with - | a
  · rw [hcode] at hrev
    cases hrev
  rw [hcode] at hrev
  cases hrev
  obtain ⟨⟨i, account⟩, hfind, rfl⟩ := Option.map_eq_some_iff.mp hcode
  rw [get?_eq_some_iff.mpr (mem_of_find?_eq_some hfind)]
  rfl

/-- **When a group is skipped**: it has a journal and accounts, and it meets a line
that is billed. -/
theorem billGroup_twice (hquiet : QuietDoubles D) (now : RentalNow) (asOf : ℤ) (db : RentalDb)
    (hnodup : (g.lines.map DueLine.id).Nodup) :
    FailsTwice (billGroup D now asOf db g) ↔
      (header db.account g).isOk = true ∧ MeetsBilled D db g.key.periodStart g.lines := by
  unfold billGroup
  rcases hheader : header db.account g with what | hd
  · apply iff_of_false
    · apply not_failsTwice
      exact failsOnly_error (header_quiet _ _ what hheader)
    · rintro ⟨hok, -⟩
      cases hok
  have houtlook : SameOutlook (g.lines.map DueLine.id) db
      { db with account := db.account.insertMove (draft asOf hd g) } :=
    ⟨⟨_, _, rfl⟩, fun _ _ _ => rfl, fun id _ => movable_congr rfl (fun _ => rfl) rfl⟩
  have hlines := billLines_twice hquiet now g db.account.moves.nextId
    (s := ({ db with account := db.account.insertMove (draft asOf hd g) }, 0)) hnodup
    (header_ok hheader)
  rw [meetsBilled_congr _ houtlook] at hlines
  have hfirst : (header db.account g).isOk = true ∧ MeetsBilled D db g.key.periodStart g.lines ↔
      MeetsBilled D db g.key.periodStart g.lines := by
    rw [hheader]
    exact and_iff_right rfl
  rw [hheader] at hfirst
  rw [hfirst, ← hlines]
  show FailsTwice (g.lines.foldlM (billLine D now hd g db.account.moves.nextId) _ >>= _) ↔ _
  apply failsTwice_bind
  rintro ⟨db₁, untaxed⟩
  apply failsOnly_bind (failsOnly_foldlM _ _ fun byTax l => addLineTaxes_quiet _ byTax l)
  intro byTax
  apply failsOnly_bind (failsOnly_foldlM _ _ fun s t => insertTax_quiet g _ s t)
  rintro ⟨account, tax⟩
  exact failsOnly_bind (addLine_quiet _ _ _) fun account => failsOnly_ok _

/-! ### What becomes of the groups of a run -/

/-- There is a link of a line for its period, and the line of the invoice that
charges what the link says. -/
def Charged (db : RentalDb) (l : DueLine) : Prop :=
  ∃ r ∈ db.links.rows, r.2.contractLineId = l.id ∧ r.2.periodStart = l.periodStart ∧
    ∃ m hd g n, db.account.moves.get? r.2.moveId = some m ∧
      { revenueLine hd g l r.2.amount with id := n } ∈ m.lines

lemma mem_numbered {l : MoveLine} {ls : List MoveLine} (n : ℤ) (h : l ∈ ls) :
    ∃ n', { l with id := n' } ∈ numbered n ls := by
  induction ls generalizing n with
  | nil => cases h
  | cons l' ls ih =>
      rcases mem_cons.mp h with rfl | h
      · exact ⟨n, mem_cons_self⟩
      · obtain ⟨n', hn'⟩ := ih (n + 1) h
        exact ⟨n', mem_cons_of_mem _ hn'⟩

omit [JsonDouble D] in
lemma mem_rows_foldl_insert {α : Type*} {as : List α} {t : Table α} {r : ℤ × α}
    (h : r ∈ t.rows) : r ∈ (as.foldl Table.insert t).rows := by
  induction as generalizing t with
  | nil => exact h
  | cons a as ih => exact ih (Table.mem_insert_iff.mpr (.inl h))

omit [JsonDouble D] in
lemma exists_row_foldl_insert {α : Type*} {as : List α} {t : Table α} {a : α} (h : a ∈ as) :
    ∃ id, (id, a) ∈ (as.foldl Table.insert t).rows := by
  induction as generalizing t with
  | nil => cases h
  | cons b as ih =>
      rcases mem_cons.mp h with rfl | h
      · exact ⟨t.nextId, mem_rows_foldl_insert (t := t.insert a) (Table.mem_insert_iff.mpr (.inr rfl))⟩
      · exact ih h

omit [JsonDouble D] in
/-- An element of one list and its partner in the other. -/
lemma mem_zipWith_of_forall₂ {β γ δ ε : Type*} {p : β → γ → Prop} {as : List β} {bs : List γ}
    (h : Forall₂ p as bs) (f : β → γ → δ) (f' : β → γ → ε) {a : β} (ha : a ∈ as) :
    ∃ b, f a b ∈ zipWith f as bs ∧ f' a b ∈ zipWith f' as bs := by
  induction h with
  | nil => cases ha
  | @cons a' b as bs _ _ ih =>
      rcases mem_cons.mp ha with rfl | ha
      · exact ⟨b, mem_cons_self, mem_cons_self⟩
      · obtain ⟨b', hb, hb'⟩ := ih ha
        exact ⟨b', mem_cons_of_mem _ hb, mem_cons_of_mem _ hb'⟩

variable {l : DueLine}

lemma billed_charged {xs : List ℤ} (h : Billed D asOf db db' g xs) (hl : l ∈ g.lines) :
    ∃ r ∈ db'.links.rows, r.2.contractLineId = l.id ∧ r.2.periodStart = g.key.periodStart ∧
      r.2.moveId = db.account.moves.nextId ∧
      ∃ m hd n, db'.account.moves.get? r.2.moveId = some m ∧
        { revenueLine hd g l r.2.amount with id := n } ∈ m.lines := by
  obtain ⟨hd, byTax, taxes, tax, hinvoice, -⟩ := h.invoice
  obtain ⟨x, hlink, hrevenue⟩ := mem_zipWith_of_forall₂ h.computed
    (linkOf g db.account.moves.nextId) (revenueLine hd g) hl
  obtain ⟨id, hrow⟩ := exists_row_foldl_insert (t := db.links) hlink
  rw [← h.links] at hrow
  refine ⟨_, hrow, rfl, rfl, rfl, ?_⟩
  have hin : revenueLine hd g l x ∈ invoiceLines hd g xs taxes tax :=
    mem_append_left _ (mem_append_left _ hrevenue)
  obtain ⟨n, hn⟩ := mem_numbered db.account.nextLineId hin
  exact ⟨_, hd, n, hinvoice, hn⟩

variable {now : RentalNow} {outs : List (DueGroup × GroupOutcome)}

/-- Links stay. -/
lemma InTurn.links_kept (h : InTurn D now asOf db outs db') :
    ∀ r ∈ db.links.rows, r ∈ db'.links.rows := by
  induction h with
  | nil db => exact fun r hr => hr
  | billed h _ ih =>
      obtain ⟨-, xs, hbilled⟩ := billGroup_ok h
      intro r hr
      apply ih
      rw [hbilled.links]
      exact mem_rows_foldl_insert hr
  | undone _ _ ih => exact ih

/-- Groups change nothing for lines that are in none of them. -/
lemma InTurn.outlook (h : InTurn D now asOf db outs db')
    (hids : ∀ o ∈ outs, List.Disjoint (o.1.lines.map DueLine.id) ids) : SameOutlook ids db db' := by
  induction h with
  | nil db => exact .refl ids db
  | billed h _ ih =>
      obtain ⟨-, xs, hbilled⟩ := billGroup_ok h
      rw [forall_mem_cons] at hids
      exact (billed_outlook hbilled hids.1).trans (ih hids.2)
  | undone _ _ ih =>
      rw [forall_mem_cons] at hids
      exact ih hids.2

/-- **What becomes of each group** can be told before the run: it is skipped when
it meets a line that is billed, and charged for in full when it is billed. -/
theorem InTurn.outcomes {start : RentalDb} (hquiet : QuietDoubles D)
    (h : InTurn D now asOf db outs db') (hnodup : ∀ o ∈ outs, (o.1.lines.map DueLine.id).Nodup)
    (hapart : outs.Pairwise fun o o' =>
      List.Disjoint (o.1.lines.map DueLine.id) (o'.1.lines.map DueLine.id))
    (hkeys : ∀ o ∈ outs, ∀ l ∈ o.1.lines, l.key = o.1.key)
    (houtlook : ∀ o ∈ outs, SameOutlook (o.1.lines.map DueLine.id) start db) :
    ∀ o ∈ outs, (o.2 = .skipped ↔ (header start.account o.1).isOk = true ∧
        MeetsBilled D start o.1.key.periodStart o.1.lines) ∧
      ∀ moveId, o.2 = .billed moveId → ∀ l ∈ o.1.lines, Charged db' l := by
  have htwice : ∀ {db : RentalDb} {g : DueGroup}, (g.lines.map DueLine.id).Nodup →
      SameOutlook (g.lines.map DueLine.id) start db →
      (FailsTwice (billGroup D now asOf db g) ↔ (header start.account g).isOk = true ∧
        MeetsBilled D start g.key.periodStart g.lines) := by
    intro db g hg hlook
    rw [billGroup_twice hquiet now asOf db hg, header_congr hlook, meetsBilled_congr _ hlook]
  induction h with
  | nil db =>
      intro o ho
      cases ho
  | @billed db db₁ db' g moveId outs hone hrest ih =>
      obtain ⟨rfl, xs, hbilled⟩ := billGroup_ok hone
      rw [forall_mem_cons] at hnodup hkeys houtlook ⊢
      obtain ⟨hfirst, hlater⟩ := pairwise_cons.mp hapart
      refine ⟨⟨?_, ?_⟩, ?_⟩
      · rw [← htwice hnodup.1 houtlook.1, hone]
        apply iff_of_false
        · exact fun heq => nomatch heq
        · exact not_failsTwice (failsOnly_ok _)
      · intro moveId' _ l hl
        obtain ⟨r, hr, hid, hperiod, hmoveId, m, hd, n, hm, hline⟩ := billed_charged hbilled hl
        have hperiod : r.2.periodStart = l.periodStart :=
          hperiod.trans (congrArg GroupKey.periodStart (hkeys.1 l hl)).symm
        refine ⟨r, hrest.links_kept r hr, hid, hperiod, m, hd, g, n, ?_, hline⟩
        rw [(hrest.kept.2 r.2.moveId ?_).1]
        · exact hm
        · rw [hmoveId, hbilled.nextId]
          omega
      · apply ih hnodup.2 hlater hkeys.2
        intro o ho
        exact (houtlook.2 o ho).trans (billed_outlook hbilled (hfirst o ho))
  | @undone db db' g what outs hone hrest ih =>
      rw [forall_mem_cons] at hnodup hkeys houtlook ⊢
      obtain ⟨-, hlater⟩ := pairwise_cons.mp hapart
      refine ⟨⟨?_, ?_⟩, ih hnodup.2 hlater hkeys.2 houtlook.2⟩
      · rw [← htwice hnodup.1 houtlook.1, hone]
        split
        · next hduplicate => exact iff_of_true rfl ⟨what, rfl, hduplicate⟩
        · next hfailed =>
            apply iff_of_false
            · exact fun heq => nomatch heq
            · rintro ⟨_, heq, hduplicate⟩
              cases heq
              exact hfailed hduplicate
      · intro moveId heq
        split at heq
        · cases heq
        · cases heq

/-! ### Every run -/

/-- A group with a line that is billed and one that is not. -/
def Mixed (db : RentalDb) (g : DueGroup) : Prop :=
  (∃ l ∈ g.lines, isBilled db.links l.id g.key.periodStart = true) ∧
    ∃ l ∈ g.lines, isBilled db.links l.id g.key.periodStart = false

instance (db : RentalDb) (g : DueGroup) : Decidable (Mixed db g) := by
  unfold Mixed
  infer_instance

/-- A run drops nothing: a due line that was not billed is charged for or in a
group that is reported as failed, and a group that is skipped was billed before. -/
structure NothingDropped (D : Type) [JsonDouble D] (now : RentalNow) (db : RentalDb)
    (asOf : Option ℤ) (contractId : ℤ) : Prop where
  charged : ∀ l ∈ allDue db (asOf.getD now.today) contractId,
    isBilled db.links l.id l.periodStart = false → Charged (run D now db asOf contractId).1 l ∨
        ∃ g what, (g, .failed what) ∈ (run D now db asOf contractId).2 ∧ l ∈ g.lines
  skipped : ∀ g, (g, .skipped) ∈ (run D now db asOf contractId).2 →
    ∀ l ∈ g.lines, isBilled db.links l.id l.periodStart = true

omit [JsonDouble D] in
lemma isBilled_iff {links : Table InvoiceLink} {id p : ℤ} : isBilled links id p = true ↔
      ∃ r ∈ links.rows, r.2.contractLineId = id ∧ r.2.periodStart = p := by
  unfold isBilled
  rw [any_eq_true]
  simp only [Bool.and_eq_true, beq_iff_eq]

lemma mem_run_iff {now : RentalNow} {db : RentalDb} {asOf : Option ℤ} {contractId : ℤ}
    {g : DueGroup} : (∃ out, (g, out) ∈ (run D now db asOf contractId).2) ↔
      g ∈ groupsOf (dueLines db (asOf.getD now.today) contractId) := by
  obtain ⟨hgroups, -⟩ := @run_ok D _ now db asOf contractId
  rw [← hgroups]
  constructor
  · rintro ⟨out, hout⟩
    exact mem_map_of_mem (f := Prod.fst) hout
  · intro hg
    obtain ⟨⟨g', out⟩, hmem, rfl⟩ := mem_map.mp hg
    exact ⟨out, hmem⟩

variable {contractId : ℤ}

lemma periodStart_of_mem_groups (hg : g ∈ groupsOf (dueLines db asOf contractId))
    (hl : l ∈ g.lines) : l.periodStart = g.key.periodStart :=
  congrArg GroupKey.periodStart ((mem_group hg).mp hl).2

/-- In a run a group is skipped exactly when it meets a line that is billed, and the
lines of a group that is billed are charged. -/
lemma run_outcomes (hquiet : QuietDoubles D) (now : RentalNow) (db : RentalDb)
    (asOf : Option ℤ) (contractId : ℤ) :
    ∀ o ∈ (run D now db asOf contractId).2, (o.2 = .skipped ↔ (header db.account o.1).isOk = true ∧
        MeetsBilled D db o.1.key.periodStart o.1.lines) ∧
      ∀ moveId, o.2 = .billed moveId → ∀ l ∈ o.1.lines,
        Charged (run D now db asOf contractId).1 l := by
  obtain ⟨hgroups, hturn⟩ := @run_ok D _ now db asOf contractId
  have hof : ∀ o ∈ (run D now db asOf contractId).2,
      o.1 ∈ groupsOf (dueLines db (asOf.getD now.today) contractId) :=
    fun o ho => mem_run_iff.mp ⟨o.2, ho⟩
  have hnodup := allDue_nodup db (asOf.getD now.today) contractId
  apply hturn.outcomes hquiet
  · intro o ho
    exact hnodup.sublist (((group_sublist (hof o ho)).trans (take_sublist _ _)).map _)
  · have hapart := @groups_apart db (asOf.getD now.today) contractId
    rw [← hgroups] at hapart
    have hpairs := pairwise_map.mp hapart
    exact hpairs
  · exact fun o ho l hl => ((mem_group (hof o ho)).mp hl).2
  · exact fun o _ => .refl _ db

lemma allDue_eq (db : RentalDb) (asOf contractId : ℤ) :
    allDue db asOf contractId = dueLines db asOf contractId ++ (allDue db asOf contractId).drop 1000 :=
  (take_append_drop _ _).symm

/-- No group of a run has a line that is beyond the limit. -/
lemma not_mem_group_of_beyond {asOf : Option ℤ}
    (hl : l ∈ (allDue db (asOf.getD now.today) contractId).drop 1000)
    {o : DueGroup × GroupOutcome} (ho : o ∈ (run D now db asOf contractId).2) :
    l.id ∉ o.1.lines.map DueLine.id := by
  intro hmem
  have hnodup := allDue_nodup db (asOf.getD now.today) contractId
  rw [allDue_eq, map_append] at hnodup
  have hin := ((group_sublist (mem_run_iff.mp ⟨o.2, ho⟩)).map DueLine.id).subset hmem
  exact disjoint_of_nodup_append hnodup hin (mem_map_of_mem hl)

/-- A line beyond the limit that was not billed before is not charged for. -/
lemma not_charged_of_beyond {asOf : Option ℤ}
    (hl : l ∈ (allDue db (asOf.getD now.today) contractId).drop 1000)
    (hunbilled : isBilled db.links l.id l.periodStart = false) :
    ¬ Charged (run D now db asOf contractId).1 l := by
  rintro ⟨r, hr, hid, hperiod, -⟩
  have hlook : SameOutlook [l.id] db (run D now db asOf contractId).1 := by
    apply (@run_ok D _ now db asOf contractId).2.outlook
    intro o ho id hid hmem
    rw [mem_singleton.mp hmem] at hid
    exact not_mem_group_of_beyond hl ho hid
  have hnow : isBilled (run D now db asOf contractId).1.links l.id l.periodStart = true :=
    isBilled_iff.mpr ⟨r, hr, hid, hperiod⟩
  rw [hlook.billed l.id mem_cons_self, hunbilled] at hnow
  cases hnow

/-- **A run drops nothing exactly when** what is due beyond the limit is billed
already, and every group with billed and unbilled lines fails before it meets one
that is billed. -/
theorem nothing_dropped_iff (hquiet : QuietDoubles D) (now : RentalNow) (db : RentalDb)
    (asOf : Option ℤ) (contractId : ℤ) :
    NothingDropped D now db asOf contractId ↔
      (∀ l ∈ (allDue db (asOf.getD now.today) contractId).drop 1000,
        isBilled db.links l.id l.periodStart = true) ∧
      ∀ g ∈ groupsOf (dueLines db (asOf.getD now.today) contractId), Mixed db g →
        (header db.account g).isOk = false ∨ ¬ MeetsBilled D db g.key.periodStart g.lines := by
  have houtcomes := run_outcomes hquiet now db asOf contractId
  constructor
  · rintro ⟨hcharged, hskipped⟩
    refine ⟨?_, ?_⟩
    · intro l hl
      by_contra hnot
      have hunbilled : isBilled db.links l.id l.periodStart = false := Bool.eq_false_iff.mpr hnot
      rcases hcharged l (mem_of_mem_drop hl) hunbilled with hcharge | ⟨g, what, hg, hin⟩
      · exact not_charged_of_beyond hl hunbilled hcharge
      · exact not_mem_group_of_beyond hl hg (mem_map_of_mem hin)
    · rintro g hg ⟨-, l, hl, hunbilled⟩
      by_contra hmeets
      rw [not_or, not_not, Bool.not_eq_false] at hmeets
      obtain ⟨out, hout⟩ := (@mem_run_iff D _ now db asOf contractId g).mpr hg
      have hskip := (houtcomes _ hout).1.mpr hmeets
      dsimp only at hskip
      rw [hskip] at hout
      have hbilled := hskipped g hout l hl
      rw [periodStart_of_mem_groups hg hl, hunbilled] at hbilled
      cases hbilled
  · rintro ⟨hlimit, hmixed⟩
    have hskipped : ∀ g, (g, .skipped) ∈ (run D now db asOf contractId).2 →
        ∀ l ∈ g.lines, isBilled db.links l.id l.periodStart = true := by
      intro g hout l hl
      obtain ⟨hheader, hmeets⟩ := (houtcomes _ hout).1.mp rfl
      by_contra hnot
      have hg := mem_run_iff.mp ⟨_, hout⟩
      rw [periodStart_of_mem_groups hg hl] at hnot
      rcases hmixed g hg ⟨hmeets.exists_billed, l, hl, Bool.eq_false_iff.mpr hnot⟩ with
        hfails | hnever
      · rw [hfails] at hheader
        cases hheader
      · exact hnever hmeets
    refine ⟨?_, hskipped⟩
    intro l hl hunbilled
    rw [allDue_eq, mem_append] at hl
    rcases hl with hl | hl
    · obtain ⟨g, hg, hin⟩ := exists_group hl
      obtain ⟨out, hout⟩ := (@mem_run_iff D _ now db asOf contractId g).mpr hg
      cases out with
      | billed moveId => exact .inl ((houtcomes _ hout).2 moveId rfl l hin)
      | skipped =>
          rw [hskipped g hout l hin] at hunbilled
          cases hunbilled
      | failed what => exact .inr ⟨g, what, hout, hin⟩
    · rw [hlimit l hl] at hunbilled
      cases hunbilled

end Bill

lemma quiet_wholeMicros : @QuietDoubles ℤ wholeMicros := by
  intro d
  exact failsOnly_ok _

/-- Two lets of one customer, billed for the first time. -/
theorem nothing_dropped_twoLets : @NothingDropped ℤ wholeMicros rentalFebruary twoLets none 0 := by
  apply (@nothing_dropped_iff ℤ wholeMicros quiet_wholeMicros _ _ _ _).mpr
  exact ⟨by decide +kernel, by decide +kernel⟩

/-- A contract with a one-off let that is billed, and another one that was added
to it later. -/
def letAddedLater : RentalDb where
  account := landlordBooks
  contracts := empty.insert { name := "C-1", partnerId := 7 }
  lines :=
    let oneoff : ContractLine :=
      { monthlyLet with contractId := some 1, billingMode := .oneoff, nextPeriodStart := none }
    (empty.insert oneoff).insert oneoff
  links := empty.insert
    { moveId := 1
      contractId := some 1
      contractLineId := 1
      periodStart := Calendar.ofDate 2026 2 1
      periodEnd := Calendar.ofDate 2026 2 28
      amount := 100000000
      companyId := 1 }

/-- The let that was added is billed never: its group meets the one that is
billed, and is skipped. -/
theorem mixed_group_dropped :
    ¬ ∀ (_ : JsonDouble ℤ) (now : RentalNow) (db : RentalDb) (asOf : Option ℤ) (contractId : ℤ),
      NothingDropped ℤ now db asOf contractId := by
  intro h
  have hskipped : ((@run ℤ wholeMicros rentalFebruary letAddedLater none 1).2.any fun o =>
      o.2 == .skipped && o.1.lines.any fun l =>
        !isBilled letAddedLater.links l.id l.periodStart) = true := by
    decide +kernel
  obtain ⟨⟨g, out⟩, hmem, hout⟩ := List.any_eq_true.mp hskipped
  rw [Bool.and_eq_true, beq_iff_eq, List.any_eq_true] at hout
  obtain ⟨hskip, l, hl, hunbilled⟩ := hout
  dsimp only at hskip
  rw [hskip] at hmem
  have hbilled := @NothingDropped.skipped ℤ wholeMicros _ _ _ _
    (h wholeMicros rentalFebruary letAddedLater none 1) g hmem l hl
  rw [hbilled] at hunbilled
  cases hunbilled

end RentalBilling

end CErp
