/-
The periods that are billed for a tenancy, one after the other.

A period is recorded under the start its group is keyed on and the end its group
has; the line moves on from its own date by its own cadence.  `LeadsOn` says when
the two meet, so that the next period begins the day after this one ends
(`leadsOn_iff`), and `periods_tile` that they do over every sequence of runs in
which each group the line is due in leads on.  `quarter_skipped` is a line by
whole months at a quarterly cadence: a month is billed, and two are skipped.
-/
import CErp.RentalInvoices

namespace CErp

open List Calendar JsonDouble Table ContractLine

namespace RentalBilling

open Runs

/-! ### Periods -/

/-- Each period begins the day after the one before it ends. -/
def Tiles (ps : List (ℤ × ℤ)) : Prop := ps.IsChain fun p q => q.1 = p.2 + 1

lemma tiles_append_singleton {ps : List (ℤ × ℤ)} {p : ℤ × ℤ} :
    Tiles (ps ++ [p]) ↔ Tiles ps ∧ ∀ last ∈ ps.getLast?, p.1 = last.2 + 1 := by
  unfold Tiles
  rw [isChain_append]
  simp

/-- The periods recorded for a line, in the order they were recorded in. -/
def periodsOf (db : RentalDb) (id : ℤ) : List (ℤ × ℤ) :=
  ((db.links.rows.map Prod.snd).filter fun k => k.contractLineId == id).map fun k =>
    (k.periodStart, k.periodEnd)

/-- Every period is a day at least. -/
lemma lt_rentalNextPeriod (p anchor interval : ℤ) (unit : BillingUnit) :
    p < rentalNextPeriod p anchor interval unit := by
  have hmonth : ∀ months : ℤ, 1 ≤ months →
      p < dayIn (monthOf p + months) (max 1 (min 31 anchor)) := by
    intro months hmonths
    have hin := (monthOf_bounds p).2
    have hlater : monthStart (monthOf p + 1) ≤ monthStart (monthOf p + months) :=
      monthStart_strictMono.monotone (by omega)
    have hday := @monthStart_le_dayIn (monthOf p + months)
      (max 1 (min 31 anchor)) (by omega)
    omega
  cases unit with
  | day =>
      show p < p + max 1 interval
      omega
  | week =>
      show p < p + max 1 interval * 7
      omega
  | month => exact hmonth _ (by omega)
  | year => exact hmonth _ (by omega)

/-! ### Where a line is led -/

/-- A group leads a line on from a date when the period it is billed for ends
where the line's next one begins: a calendar month leads to the month the line's
cadence leads to; another period leads, by the cadence of the group's first line,
to the day the line's own cadence leads to, or to the first of that month when the
line is billed by whole months. -/
def LeadsOn (g : DueGroup) (l : DueLine) (start : ℤ) : Prop :=
  match g.lines with
  | [] => False
  | first :: _ =>
      let next := rentalNextPeriod start l.anchorDay l.interval l.unit
      let due := rentalNextPeriod g.key.periodStart first.anchorDay first.interval first.unit
      if g.wholeMonth then monthOf next = monthOf start + 1
      else if l.wholeMonth then monthStart (monthOf next) = due
      else next = due

instance (g : DueGroup) (l : DueLine) (start : ℤ) : Decidable (LeadsOn g l start) := by
  unfold LeadsOn
  split
  · exact instDecidableFalse
  · dsimp only
    infer_instance

/-- What is due of a line: its period, and how it is billed. -/
structure DueOf (db : RentalDb) (row : ContractLine) (l : DueLine) : Prop where
  start : l.periodStart = periodStart db row
  whole : l.wholeMonth = wholeMonth db row

variable {db db' : RentalDb} {row : ContractLine}

lemma wholeMonth_congr (h : db'.contracts = db.contracts) {row' : ContractLine}
    (hspan : row'.billingSpan = row.billingSpan) (hcontract : row'.contractId = row.contractId) :
    wholeMonth db' row' = wholeMonth db row := by
  unfold wholeMonth contractOf
  rw [hspan, hcontract, h]

lemma DueOf.congr {db db' : RentalDb} {row : ContractLine} {l : DueLine}
    (h : db'.contracts = db.contracts) (hl : DueOf db row l) : DueOf db' row l := by
  have hwhole : wholeMonth db' row = wholeMonth db row := wholeMonth_congr h rfl rfl
  refine ⟨?_, hl.whole.trans hwhole.symm⟩
  rw [hl.start, periodStart, periodStart, hwhole]

lemma inheritPartner_rest (contracts : Table RentalContract) (l : ContractLine) :
    ∃ partner, inheritPartner contracts l = { l with partnerId := partner } := by
  unfold inheritPartner
  split
  · exact ⟨_, rfl⟩
  · exact ⟨l.partnerId, rfl⟩

variable {g : DueGroup}

/-- **Where the next period begins.**  It is the day after this one ends exactly
when the group leads the line on. -/
theorem leadsOn_iff {l : DueLine} (hcontracts : db'.contracts = db.contracts) (hl : l ∈ g.lines)
    (hkey : l.key = g.key) (hdue : DueOf db row l) (hmode : row.billingMode = .recurring) :
    periodStart db' (advancedLine db.contracts g l row) = g.periodEnd + 1 ↔
      LeadsOn g l (billingStart row) := by
  obtain ⟨partner, hadvanced⟩ := inheritPartner_rest db.contracts
    { row with nextPeriodStart := advanced l row, invoicedThrough := some g.periodEnd }
  have hwhole : wholeMonth db' (advancedLine db.contracts g l row) = l.wholeMonth := by
    rw [hdue.whole, advancedLine, hadvanced]
    exact wholeMonth_congr hcontracts rfl rfl
  have hstart : billingStart (advancedLine db.contracts g l row) =
      rentalNextPeriod (billingStart row) l.anchorDay l.interval l.unit := by
    rw [advancedLine, hadvanced]
    show (advanced l row).getD row.dateStart = _
    rw [advanced, if_neg (by rw [hmode]; decide)]
    rfl
  have hperiod : g.key.periodStart = periodStart db row := by
    rw [← hdue.start, ← hkey]
    rfl
  obtain ⟨first, rest, hlines⟩ := exists_cons_of_ne_nil (ne_nil_of_mem hl)
  rw [periodStart, hwhole, hstart]
  unfold LeadsOn DueGroup.periodEnd
  rw [hlines]
  dsimp only
  by_cases hmonths : g.wholeMonth = true
  · -- every line is by whole months, and so is this one
    have hline : l.wholeMonth = true := all_eq_true.mp hmonths l hl
    have hfirst : g.key.periodStart = monthStart (monthOf (billingStart row)) := by
      rw [hperiod, periodStart, ← hdue.whole, hline, if_pos rfl]
    rw [if_pos hline, if_pos hmonths, if_pos hmonths, hfirst, addMonths_monthStart, sub_add_cancel]
    exact monthStart_strictMono.injective.eq_iff
  · rw [if_neg hmonths, if_neg hmonths, sub_add_cancel]
    split
    · rfl
    · rfl

/-! ### What a group adds -/

lemma rows_foldl_insert {α : Type*} (t : Table α) (as : List α) :
    (as.foldl Table.insert t).rows.map Prod.snd = t.rows.map Prod.snd ++ as := by
  induction as generalizing t with
  | nil => simp
  | cons a as ih =>
      rw [foldl_cons, ih]
      show (t.rows ++ [(t.nextId, a)]).map Prod.snd ++ as = _
      simp

variable {xs : List ℤ}

/-- The links of a group hold one period of each of its lines. -/
lemma periods_of_links {moveId id : ℤ} {ls : List DueLine} {p : DueLine → ℤ → Prop}
    (h : Forall₂ p ls xs) (hnodup : (ls.map DueLine.id).Nodup) :
    (((zipWith (linkOf g moveId) ls xs).filter fun k => k.contractLineId == id).map fun k =>
        (k.periodStart, k.periodEnd)) =
      if id ∈ ls.map DueLine.id then [(g.key.periodStart, g.periodEnd)] else [] := by
  induction h with
  | nil => simp
  | @cons l x ls xs _ _ ih =>
      rw [map_cons, nodup_cons] at hnodup
      have ih := ih hnodup.2
      rw [zipWith_cons_cons, filter_cons, map_cons]
      by_cases hid : l.id = id
      · subst hid
        rw [if_neg hnodup.1] at ih
        have heq : ((linkOf g moveId l x).contractLineId == l.id) = true := beq_self_eq_true l.id
        rw [if_pos mem_cons_self, if_pos heq, map_cons, ih]
        rfl
      · have hne : ¬ ((linkOf g moveId l x).contractLineId == id) = true := by
          rw [beq_iff_eq]
          exact hid
        rw [if_neg hne, ih]
        simp [Ne.symm hid]

section Bill

variable {D : Type} [JsonDouble D]

variable {asOf : ℤ}

lemma billed_periods (h : Billed D asOf db db' g xs) (id : ℤ) :
    periodsOf db' id = periodsOf db id ++
      if id ∈ g.lines.map DueLine.id then [(g.key.periodStart, g.periodEnd)] else [] := by
  unfold periodsOf
  rw [h.links, rows_foldl_insert, filter_append, map_append, periods_of_links h.computed h.nodup]

lemma billed_line_other (h : Billed D asOf db db' g xs) {id : ℤ}
    (hid : id ∉ g.lines.map DueLine.id) : db'.lines.get? id = db.lines.get? id := by
  rw [h.lines]
  apply get?_modifyAll_of_notMem
  rw [map_map]
  exact hid

lemma billed_line (h : Billed D asOf db db' g xs) {l : DueLine} (hl : l ∈ g.lines) :
    db'.lines.get? l.id = (db.lines.get? l.id).map (advancedLine db.contracts g l) := by
  rw [h.lines]
  apply get?_modifyAll_of_mem
  · rw [map_map]
    exact h.nodup
  · exact mem_map_of_mem (f := fun l : DueLine => (l.id, l)) hl

/-! ### Runs -/

/-- The periods of a recurring line tile its time up to the day it is billed from
next. -/
structure Tiled (db : RentalDb) (id : ℤ) (row : ContractLine) : Prop where
  held : db.lines.get? id = some row
  recurring : row.billingMode = .recurring
  tiles : Tiles (periodsOf db id)
  next : ∀ last ∈ (periodsOf db id).getLast?, periodStart db row = last.2 + 1

/-- A group that is billed leads a line on, if the line is in it. -/
def Fits (db : RentalDb) (id : ℤ) (row : ContractLine) (g : DueGroup) : Prop :=
  ∀ l ∈ g.lines, l.id = id → l.key = g.key ∧ DueOf db row l ∧ LeadsOn g l (billingStart row)

lemma billed_tiled {id : ℤ} (h : Billed D asOf db db' g xs) (htiled : Tiled db id row)
    (hfits : Fits db id row g) :
    (id ∉ g.lines.map DueLine.id ∧ Tiled db' id row) ∨
      (id ∈ g.lines.map DueLine.id ∧ ∃ row', Tiled db' id row') := by
  have hperiods := billed_periods h id
  by_cases hid : id ∈ g.lines.map DueLine.id
  · right
    refine ⟨hid, ?_⟩
    rw [if_pos hid] at hperiods
    obtain ⟨l, hl, rfl⟩ := mem_map.mp hid
    obtain ⟨hkey, hdue, hleads⟩ := hfits l hl rfl
    have hrow : db'.lines.get? l.id = some (advancedLine db.contracts g l row) := by
      rw [billed_line h hl, htiled.held]
      rfl
    obtain ⟨partner, hadvanced⟩ := inheritPartner_rest db.contracts
      { row with nextPeriodStart := advanced l row, invoicedThrough := some g.periodEnd }
    refine ⟨_, hrow, ?_, ?_, ?_⟩
    · rw [advancedLine, hadvanced]
      exact htiled.recurring
    · rw [hperiods, tiles_append_singleton]
      refine ⟨htiled.tiles, ?_⟩
      intro last hlast
      show g.key.periodStart = _
      rw [← htiled.next last hlast, ← hdue.start, ← hkey]
      rfl
    · intro last hlast
      rw [hperiods, getLast?_concat, Option.mem_some_iff] at hlast
      subst hlast
      exact (leadsOn_iff h.contracts hl hkey hdue htiled.recurring).mpr hleads
  · left
    rw [if_neg hid, append_nil] at hperiods
    refine ⟨hid, (billed_line_other h hid).trans htiled.held, htiled.recurring, ?_, ?_⟩
    · rw [hperiods]
      exact htiled.tiles
    · rw [hperiods]
      intro last hlast
      have hsame : periodStart db' row = periodStart db row := by
        unfold periodStart
        rw [wholeMonth_congr h.contracts rfl rfl]
      rw [hsame]
      exact htiled.next last hlast

/-- No two groups have a line in common. -/
def Apart (id : ℤ) (outs : List (DueGroup × GroupOutcome)) : Prop :=
  outs.Pairwise fun o o' => id ∈ o.1.lines.map DueLine.id → id ∉ o'.1.lines.map DueLine.id

lemma InTurn.tiled {now : RentalNow} {id : ℤ} {outs : List (DueGroup × GroupOutcome)}
    (h : InTurn D now asOf db outs db') (hapart : Apart id outs) (htiled : Tiled db id row)
    (hfits : ∀ o ∈ outs, Fits db id row o.1) : ∃ row', Tiled db' id row' := by
  induction h generalizing row with
  | nil db => exact ⟨row, htiled⟩
  | billed h _ ih =>
      obtain ⟨-, xs, hbilled⟩ := billGroup_ok h
      obtain ⟨hfirst, hlater⟩ := pairwise_cons.mp hapart
      rw [forall_mem_cons] at hfits
      rcases billed_tiled hbilled htiled hfits.1 with ⟨-, hsame⟩ | ⟨hin, row', hnext⟩
      · apply ih hlater hsame
        intro o ho l hl hid
        obtain ⟨hkey, hdue, hleads⟩ := hfits.2 o ho l hl hid
        exact ⟨hkey, hdue.congr hbilled.contracts, hleads⟩
      · -- the line has had its turn
        apply ih hlater hnext
        intro o ho l hl hid
        exact absurd (mem_map.mpr ⟨l, hl, hid⟩) (hfirst o ho hin)
  | undone _ _ ih =>
      obtain ⟨-, hlater⟩ := pairwise_cons.mp hapart
      rw [forall_mem_cons] at hfits
      exact ih hlater htiled hfits.2

end Bill

/-! ### Sequences of runs -/

/-- A call of `RentalBilling::run`. -/
structure BillingCall where
  now : RentalNow
  asOf : Option ℤ := none
  contractId : ℤ := 0

/-- The day a call bills as of. -/
def BillingCall.day (c : BillingCall) : ℤ := c.asOf.getD c.now.today

def billingStep (D : Type) [JsonDouble D] (db : RentalDb) (c : BillingCall) : Option RentalDb :=
  some (run D c.now db c.asOf c.contractId).1

/-- The group a line is due in, if it is due, leads it on. -/
def GroupLeadsOn (db : RentalDb) (c : BillingCall) (id : ℤ) : Prop :=
  ∀ g ∈ groupsOf (dueLines db c.day c.contractId), ∀ l ∈ g.lines, l.id = id →
    ∀ row ∈ db.lines.get? id, LeadsOn g l (billingStart row)

/-- **Billed periods tile.**  Over every sequence of runs whose groups lead the
line on, each period that is recorded for a recurring line begins the day after
the one before it ends. -/
theorem periods_tile {D : Type} [JsonDouble D] {db₀ db : RentalDb} {id : ℤ} {row : ContractLine}
    (hrow : db₀.lines.get? id = some row) (hmode : row.billingMode = .recurring)
    (hnone : ∀ r ∈ db₀.links.rows, r.2.contractLineId ≠ id)
    (hrun : Reaches (billingStep D) (fun db c => GroupLeadsOn db c id) db₀ db) :
    Tiles (periodsOf db id) := by
  have htiled : ∃ row', Tiled db id row' := by
    apply @Reaches.invariant _ _ _ _ (fun db => ∃ row', Tiled db id row') _ _ hrun
    · rintro db c db' ⟨row', htiled⟩ hleads hstep
      cases hstep
      obtain ⟨hgroups, hturn⟩ := @run_ok D _ c.now db c.asOf c.contractId
      have hof : ∀ o ∈ (run D c.now db c.asOf c.contractId).2,
          o.1 ∈ groupsOf (dueLines db c.day c.contractId) := by
        intro o ho
        have hmem := mem_map_of_mem (f := Prod.fst) ho
        rwa [hgroups] at hmem
      apply hturn.tiled _ htiled
      · intro o ho l hl hid
        obtain ⟨hmem, hkey⟩ := (mem_group (hof o ho)).mp hl
        obtain ⟨row'', hrow'', -, hdue⟩ := mem_dueLines hmem
        rw [hid, htiled.held] at hrow''
        cases hrow''
        refine ⟨hkey, ?_, hleads o.1 (hof o ho) l hl hid row' htiled.held⟩
        rw [← hdue]
        exact ⟨rfl, rfl⟩
      · have hapart := @groups_apart db c.day c.contractId
        have hday : c.asOf.getD c.now.today = c.day := rfl
        rw [hday] at hgroups
        rw [← hgroups] at hapart
        refine (pairwise_map.mp hapart).imp ?_
        intro o o' hdisjoint hin hin'
        exact hdisjoint hin hin'
    · have hempty : periodsOf db₀ id = [] := by
        unfold periodsOf
        rw [map_eq_nil_iff, filter_eq_nil_iff]
        intro k hk
        obtain ⟨r, hr, rfl⟩ := mem_map.mp hk
        rw [beq_iff_eq]
        exact hnone r hr
      refine ⟨row, hrow, hmode, ?_, ?_⟩
      · rw [hempty]
        exact .nil
      · rw [hempty]
        intro last hlast
        cases hlast
  obtain ⟨row', htiled⟩ := htiled
  exact htiled.tiles

instance (db : RentalDb) (c : BillingCall) (id : ℤ) : Decidable (GroupLeadsOn db c id) := by
  unfold GroupLeadsOn
  infer_instance

/-- Calls in February, March and April. -/
def springCalls : List BillingCall :=
  [{ now := rentalFebruary }, { now := { rentalFebruary with today := ofDate 2026 3 10 } },
    { now := { rentalFebruary with today := ofDate 2026 4 10 } }]

/-- Two lets of a customer by whole months, billed three times. -/
theorem periods_tile_twoLets : let _ := wholeMicros
    ∃ db, execute (billingStep ℤ) (fun db c => GroupLeadsOn db c 1) springCalls twoLets = some db ∧
      Tiles (periodsOf db 1) := by
  intro _
  obtain ⟨db, hexec⟩ : ∃ db, execute (billingStep ℤ) (fun db c => GroupLeadsOn db c 1) springCalls
      twoLets = some db := Option.isSome_iff_exists.mp (by decide)
  have hnone : ∀ r ∈ twoLets.links.rows, r.2.contractLineId ≠ 1 := by
    intro r hr
    cases hr
  exact ⟨db, hexec, periods_tile rfl rfl hnone (reaches_of_execute hexec)⟩

/-- A let by whole months every quarter. -/
def quarterLet : RentalDb where
  account := landlordBooks
  lines := empty.insert { monthlyLet with billingInterval := some 3 }

/-- The let is billed for February and then for May: March and April are billed
to nobody. -/
theorem quarter_skipped : ¬ ∀ (_ : JsonDouble ℤ) (db₀ db : RentalDb) (id : ℤ) (row : ContractLine),
      db₀.lines.get? id = some row → row.state = .active → row.billingMode = .recurring →
      (∀ r ∈ db₀.links.rows, r.2.contractLineId ≠ id) →
      Reaches (billingStep ℤ) (fun _ _ => True) db₀ db → Tiles (periodsOf db id) := by
  intro h
  let _ := wholeMicros
  let calls : List BillingCall :=
    [{ now := rentalFebruary }, { now := { rentalFebruary with today := ofDate 2026 5 10 } }]
  obtain ⟨db, hexec⟩ : ∃ db, execute (billingStep ℤ) (fun _ _ => True) calls quarterLet = some db :=
    Option.isSome_iff_exists.mp (by decide)
  have hperiods : (execute (billingStep ℤ) (fun _ _ => True) calls quarterLet).all (fun db =>
      periodsOf db 1 = [(ofDate 2026 2 1, ofDate 2026 2 28),
        (ofDate 2026 5 1, ofDate 2026 5 31)]) = true := by
    decide
  rw [hexec, Option.all_some, decide_eq_true_eq] at hperiods
  have hnone : ∀ r ∈ quarterLet.links.rows, r.2.contractLineId ≠ 1 := by
    intro r hr
    cases hr
  have htiles := h wholeMicros quarterLet db 1 _ rfl rfl rfl hnone
    (reaches_of_execute hexec)
  rw [hperiods] at htiles
  exact absurd (isChain_pair.mp htiles) (by decide)

end RentalBilling

end CErp
