/-
A unit is never let twice at once.

The overlap trigger compares the new version of a line with the other live lines
of its unit, so what was disjoint stays disjoint (`NoDoubleLet`).  It rejects
nothing else, as long as no range is the wrong way round: a range whose end is
before its start covers no day, but cannot be compared.  The check a booking
makes beforehand agrees with the trigger.
-/
import CErp.UnitStates

namespace CErp

open Runs RentalDb ContractLine Outcome Table Calendar Option JsonDouble

/-- The days a line covers; a line without an end covers all days from its start
on. -/
def ContractLine.days (l : ContractLine) : Set ℤ := Span.between l.dateStart l.dateEnd

/-- The end of a line is not before its start. -/
def ContractLine.InOrder (l : ContractLine) : Prop := ∀ e ∈ l.dateEnd, l.dateStart ≤ e

/-- Two live lines of a unit share no day. -/
def NoDoubleLet (lines : Table ContractLine) : Prop :=
  ∀ i j l k unit, lines.get? i = some l → lines.get? j = some k → i ≠ j →
    l.unitId = some unit → k.unitId = some unit → l.state.isLive = true → k.state.isLive = true →
    Disjoint l.days k.days

/-- A version of a line would share a day with another live line of its unit. -/
def Overlaps (lines : Table ContractLine) (id : ℤ) (l : ContractLine) : Prop :=
  l.state.isLive = true ∧ ∃ unit, l.unitId = some unit ∧
    ∃ other ∈ rivals lines id unit, ¬ Disjoint other.days l.days

/-! ### The trigger -/

variable {l : ContractLine}

lemma range_ok_iff {s : Span ℤ} :
    l.range = .ok s ↔ s.first = l.dateStart ∧ s.last = l.dateEnd := by
  unfold ContractLine.range dateRange
  split
  · constructor
    · intro h
      cases h
      exact ⟨rfl, rfl⟩
    · rintro ⟨hfirst, hlast⟩
      obtain ⟨first, last, ordered⟩ := s
      cases hfirst
      cases hlast
      rfl
  · next hnot =>
      constructor
      · intro h
        cases h
      · rintro ⟨hfirst, hlast⟩
        exfalso
        apply hnot
        rw [← hfirst, ← hlast]
        exact s.ordered

lemma range_isOk_iff : (∃ s, l.range = .ok s) ↔ l.InOrder := by
  constructor
  · rintro ⟨s, hs⟩
    obtain ⟨hfirst, hlast⟩ := range_ok_iff.mp hs
    unfold ContractLine.InOrder
    rw [← hfirst, ← hlast]
    exact s.ordered
  · intro h
    exact ⟨⟨l.dateStart, l.dateEnd, h⟩, range_ok_iff.mpr ⟨rfl, rfl⟩⟩

lemma elements_of_range {s : Span ℤ} (h : l.range = .ok s) : s.elements = l.days := by
  obtain ⟨hfirst, hlast⟩ := range_ok_iff.mp h
  rw [Span.elements, hfirst, hlast]
  rfl

variable {other : ContractLine}

/-- Two lines pass when both are in order and share no day. -/
lemma checkRival_ok_iff :
    checkRival l other = .ok () ↔ other.InOrder ∧ l.InOrder ∧ Disjoint other.days l.days := by
  constructor
  · intro h
    obtain ⟨held, hheld, h⟩ := bind_ok_iff.mp h
    obtain ⟨wanted, hwanted, h⟩ := bind_ok_iff.mp h
    have hnot := require_ok_iff.mp h
    refine ⟨range_isOk_iff.mp ⟨held, hheld⟩, range_isOk_iff.mp ⟨wanted, hwanted⟩, ?_⟩
    rw [← elements_of_range hheld, ← elements_of_range hwanted]
    exact Span.disjoint_of_not_overlaps hnot
  · rintro ⟨hother, hl, hdisjoint⟩
    obtain ⟨held, hheld⟩ := range_isOk_iff.mpr hother
    obtain ⟨wanted, hwanted⟩ := range_isOk_iff.mpr hl
    rw [← elements_of_range hheld, ← elements_of_range hwanted] at hdisjoint
    have hnot : held.overlaps wanted = false := by
      rw [← Bool.not_eq_true]
      intro hover
      exact Span.overlaps_iff.mp hover hdisjoint
    exact bind_ok_iff.mpr ⟨held, hheld, bind_ok_iff.mpr
      ⟨wanted, hwanted, require_ok_iff.mpr hnot⟩⟩

variable {id : ℤ} {lines : Table ContractLine}

variable {folds : Bool}

/-- **What the trigger lets pass.** -/
theorem checkOverlap_ok_iff {unit : ℤ} (hunit : l.unitId = some unit)
    (hlive : l.state.isLive = true) :
    checkOverlap folds lines id l = .ok () ↔
      (folds = true → l.InOrder) ∧ ∀ other ∈ rivals lines id unit,
        other.InOrder ∧ l.InOrder ∧ Disjoint other.days l.days := by
  unfold checkOverlap
  rw [hunit]
  dsimp only
  rw [if_pos hlive]
  have hrivals : (rivals lines id unit).forM (checkRival l) = .ok () ↔
      ∀ other ∈ rivals lines id unit, other.InOrder ∧ l.InOrder ∧ Disjoint other.days l.days := by
    rw [forM_ok_iff]
    exact forall₂_congr fun other _ => checkRival_ok_iff
  cases folds with
  | false =>
      rw [← hrivals]
      simp
  | true =>
      rw [← hrivals, ← range_isOk_iff]
      rcases l.range with e | s
      · constructor
        · intro h
          cases h
        · rintro ⟨hrange, -⟩
          obtain ⟨s, hs⟩ := hrange rfl
          cases hs
      · constructor
        · intro h
          exact ⟨fun _ => ⟨s, rfl⟩, h⟩
        · rintro ⟨-, h⟩
          exact h

/-- **A version whose dates are in order, on a unit whose lines are, is rejected
just when it overlaps another.** -/
theorem checkOverlap_error_iff (hl : l.InOrder)
    (hothers : ∀ unit, l.unitId = some unit → ∀ other ∈ rivals lines id unit, other.InOrder) :
    (∃ e, checkOverlap folds lines id l = .error e) ↔ Overlaps lines id l := by
  have herror : (∃ e, checkOverlap folds lines id l = .error e) ↔
      ¬ checkOverlap folds lines id l = .ok () := by
    rcases checkOverlap folds lines id l with e | ⟨⟩
    · simp
    · simp
  rw [herror]
  rcases hunit : l.unitId with - | unit
  · have hpass : checkOverlap folds lines id l = .ok () := by
      unfold checkOverlap
      rw [hunit]
    simp [hpass, Overlaps, hunit]
  by_cases hlive : l.state.isLive = true
  · rw [checkOverlap_ok_iff hunit hlive]
    constructor
    · intro hnot
      refine ⟨hlive, unit, hunit, ?_⟩
      by_contra hnone
      apply hnot
      refine ⟨fun _ => hl, fun other hother => ⟨hothers unit hunit other hother, hl, ?_⟩⟩
      by_contra hover
      exact hnone ⟨other, hother, hover⟩
    · rintro ⟨-, unit', hunit', other, hother, hover⟩ ⟨-, hall⟩
      rw [hunit, some_inj] at hunit'
      subst hunit'
      exact hover (hall other hother).2.2
  · have hpass : checkOverlap folds lines id l = .ok () := by
      unfold checkOverlap
      rw [hunit]
      exact if_neg hlive
    simp [hpass, Overlaps, hlive]

/-! ### Bookings -/

/-! ### Statements -/

lemma mem_rivals {unit : ℤ} :
    other ∈ rivals lines id unit ↔ ∃ j, lines.get? j = some other ∧ j ≠ id ∧
      other.unitId = some unit ∧ other.state.isLive = true := by
  unfold rivals
  rw [List.mem_map]
  constructor
  · rintro ⟨⟨j, other⟩, hr, rfl⟩
    obtain ⟨hmem, hcond⟩ := List.mem_filter.mp hr
    simp only [Bool.and_eq_true, beq_iff_eq, bne_iff_ne] at hcond
    exact ⟨j, get?_eq_some_iff.mpr hmem, hcond.1.2, hcond.1.1, hcond.2⟩
  · rintro ⟨j, hget, hj, hunit, hlive⟩
    refine ⟨(j, other), List.mem_filter.mpr ⟨get?_eq_some_iff.mp hget, ?_⟩, rfl⟩
    simp [hj, hunit, hlive]

/-- The same row, but for columns the trigger does not watch. -/
structure SameLet (l l' : ContractLine) : Prop where
  unitId : l'.unitId = l.unitId
  dateStart : l'.dateStart = l.dateStart
  dateEnd : l'.dateEnd = l.dateEnd
  state : l'.state = l.state

variable {l' : ContractLine}

lemma SameLet.days (h : SameLet l l') : l'.days = l.days := by
  unfold ContractLine.days
  rw [h.dateStart, h.dateEnd]

lemma SameLet.trans {l'' : ContractLine} (h : SameLet l l') (h' : SameLet l' l'') :
    SameLet l l'' :=
  ⟨h'.unitId.trans h.unitId, h'.dateStart.trans h.dateStart, h'.dateEnd.trans h.dateEnd,
    h'.state.trans h.state⟩

lemma sameLet_inheritPartner (contracts : Table RentalContract) (l : ContractLine) :
    SameLet l (l.inheritPartner contracts) := by
  unfold ContractLine.inheritPartner
  split
  · exact ⟨rfl, rfl, rfl, rfl⟩
  · exact ⟨rfl, rfl, rfl, rfl⟩

lemma sameLet_defaultNextPeriod (l : ContractLine) : SameLet l l.defaultNextPeriod := by
  unfold ContractLine.defaultNextPeriod
  split
  · exact ⟨rfl, rfl, rfl, rfl⟩
  · exact ⟨rfl, rfl, rfl, rfl⟩

lemma sameLet_set {c : LineColumn} (h : c.guarded = false) (l : ContractLine) :
    SameLet l (LineColumn.set l c) := by
  cases c with
  | unitId v => cases h
  | dateStart v => cases h
  | dateEnd v => cases h
  | state v => cases h
  | _ => exact ⟨rfl, rfl, rfl, rfl⟩

lemma sameLet_foldl_set {sets : List LineColumn} (h : sets.any LineColumn.guarded = false)
    (l : ContractLine) : SameLet l (sets.foldl LineColumn.set l) := by
  induction sets generalizing l with
  | nil => exact ⟨rfl, rfl, rfl, rfl⟩
  | cons c sets ih =>
      rw [List.any_cons, Bool.or_eq_false_iff] at h
      exact (sameLet_set h.1 l).trans (ih h.2 _)

/-- A version that passes is disjoint from the other live lines of its unit. -/
lemma disjoint_of_checkOverlap {unit : ℤ} (h : checkOverlap folds lines id l = .ok ())
    (hunit : l.unitId = some unit) (hlive : l.state.isLive = true) {j : ℤ}
    (hget : lines.get? j = some other) (hj : j ≠ id) (hother : other.unitId = some unit)
    (hotherLive : other.state.isLive = true) : Disjoint other.days l.days :=
  (((checkOverlap_ok_iff hunit hlive).mp h).2 other
    (mem_rivals.mpr ⟨j, hget, hj, hother, hotherLive⟩)).2.2

lemma NoDoubleLet.insert (h : NoDoubleLet lines)
    (hcheck : checkOverlap folds lines lines.nextId l = .ok ()) (hsame : SameLet l l') :
    NoDoubleLet (lines.insert l') := by
  have hnew : ∀ j k unit, lines.get? j = some k → l'.unitId = some unit → k.unitId = some unit →
      l'.state.isLive = true → k.state.isLive = true → Disjoint k.days l'.days := by
    intro j k unit hget hunit hk hlive hklive
    rw [hsame.days]
    rw [hsame.unitId] at hunit
    rw [hsame.state] at hlive
    have hj : j ≠ lines.nextId := ne_of_lt (lt_nextId_of_get? hget)
    exact disjoint_of_checkOverlap hcheck hunit hlive hget hj hk hklive
  intro i j a b unit ha hb hij haunit hbunit halive hblive
  rw [get?_insert] at ha hb
  by_cases hi : i = lines.nextId
  · rw [if_pos hi, some_inj] at ha
    subst ha
    have hj : j ≠ lines.nextId := fun heq => hij (hi.trans heq.symm)
    rw [if_neg hj] at hb
    exact (hnew j b unit hb haunit hbunit halive hblive).symm
  · rw [if_neg hi] at ha
    by_cases hj : j = lines.nextId
    · rw [if_pos hj, some_inj] at hb
      subst hb
      exact hnew i a unit ha hbunit haunit hblive halive
    · rw [if_neg hj] at hb
      exact h i j a b unit ha hb hij haunit hbunit halive hblive

/-- A row in a new version that is disjoint from the other live lines of its
unit. -/
lemma NoDoubleLet.modify (h : NoDoubleLet lines)
    (hnew : ∀ j k unit, lines.get? j = some k → j ≠ id → l.unitId = some unit →
      k.unitId = some unit → l.state.isLive = true → k.state.isLive = true → Disjoint k.days l.days) :
    NoDoubleLet (lines.modify id fun _ => l) := by
  intro i j a b unit ha hb hij haunit hbunit halive hblive
  rw [get?_modify] at ha hb
  obtain ⟨a₀, ha₀, ha⟩ := map_eq_some_iff.mp ha
  obtain ⟨b₀, hb₀, hb⟩ := map_eq_some_iff.mp hb
  by_cases hi : i = id
  · rw [if_pos hi] at ha
    subst ha
    have hj : j ≠ id := fun heq => hij (hi.trans heq.symm)
    rw [if_neg hj] at hb
    subst hb
    exact (hnew j b₀ unit hb₀ hj haunit hbunit halive hblive).symm
  · rw [if_neg hi] at ha
    subst ha
    by_cases hj : j = id
    · rw [if_pos hj] at hb
      subst hb
      exact hnew i a₀ unit ha₀ hi hbunit haunit hblive halive
    · rw [if_neg hj] at hb
      subst hb
      exact h i j a₀ b₀ unit ha₀ hb₀ hij haunit hbunit halive hblive

lemma updateOne_letOnce {now : RentalNow} {sets : List LineColumn}
    {s s' : RentalDb × List (Option ℤ)} (h0 : NoDoubleLet s.1.lines)
    (h : updateOne now sets s id = .ok s') : NoDoubleLet s'.1.lines := by
  unfold updateOne at h
  rcases e : s.1.lines.get? id with - | old
  · rw [e] at h
    cases h
    exact h0
  rw [e] at h
  obtain ⟨l', hrow, h⟩ := bind_ok_iff.mp h
  cases h
  obtain ⟨_, -, hrow⟩ := bind_ok_iff.mp hrow
  obtain ⟨_, hcheck, hrow⟩ := bind_ok_iff.mp hrow
  obtain ⟨_, -, hrow⟩ := bind_ok_iff.mp hrow
  have hsame := sameLet_inheritPartner s.1.contracts (sets.foldl LineColumn.set old)
  rw [pure_ok_iff.mp hrow] at hsame
  apply h0.modify
  intro j k unit hget hj hunit hk hlive hklive
  unfold checkUpdate at hcheck
  split at hcheck
  · -- the trigger has compared the new version
    rw [hsame.days]
    rw [hsame.unitId] at hunit
    rw [hsame.state] at hlive
    exact disjoint_of_checkOverlap hcheck hunit hlive hget hj hk hklive
  · next hguarded =>
      -- nothing it watches has changed
      have hkept := (sameLet_foldl_set (Bool.not_eq_true _ ▸ hguarded) old).trans hsame
      rw [hkept.days]
      rw [hkept.unitId] at hunit
      rw [hkept.state] at hlive
      exact h0 j id k old unit hget e hj hk hunit hklive hlive

lemma lines_deriveStates (units : List (Option ℤ)) (db : RentalDb) :
    (db.deriveStates units).lines = db.lines := by
  unfold RentalDb.deriveStates
  induction units generalizing db with
  | nil => rfl
  | cons unit units ih => rw [List.foldl_cons, ih, lines_deriveState]

lemma insertLine_letOnce {now : RentalNow} {db : RentalDb} {l : ContractLine} {out : RentalDb × ℤ}
    (h0 : NoDoubleLet db.lines) (h : db.insertLine now l = .ok out) : NoDoubleLet out.1.lines := by
  obtain ⟨l', hunit, hstart, hend, hstate, hcheck, rfl⟩ := insertLine_ok h
  show NoDoubleLet (RentalDb.deriveState _ _).lines
  rw [lines_deriveState]
  have hdefault := sameLet_defaultNextPeriod l
  exact h0.insert hcheck ⟨hunit.trans hdefault.unitId.symm, hstart.trans hdefault.dateStart.symm,
    hend.trans hdefault.dateEnd.symm, hstate.trans hdefault.state.symm⟩

section Runs

variable {D : Type} [JsonDouble D]

lemma rentalOp_letOnce {now : RentalNow} {db db' : RentalDb} {op : RentalOp D}
    (h0 : NoDoubleLet db.lines) (h : op.run now db = .ok db') : NoDoubleLet db'.lines := by
  cases op with
  | insertLine l =>
      obtain ⟨out, hout, rfl⟩ := map_ok_iff.mp h
      exact insertLine_letOnce h0 hout
  | updateLines ids sets =>
      obtain ⟨⟨db₁, units⟩, hrows, h⟩ := bind_ok_iff.mp h
      cases h
      rw [lines_deriveStates]
      exact foldlM_keeps (fun s : RentalDb × List (Option ℤ) => NoDoubleLet s.1.lines)
        (fun _ _ _ => updateOne_letOnce) hrows h0
  | deleteLines ids =>
      cases h
      unfold RentalDb.deleteLines
      rw [lines_deriveStates]
      intro i j l k unit hl hk
      rw [get?_eq_some_iff] at hl hk
      exact h0 i j l k unit (get?_eq_some_iff.mpr (List.mem_of_mem_filter hl))
        (get?_eq_some_iff.mpr (List.mem_of_mem_filter hk))
  | book req =>
      obtain ⟨out, hout, rfl⟩ := map_ok_iff.mp h
      obtain ⟨unit, dateStart, contracts, l, -, -, -, -, -, -, -, -, hinsert⟩ := book_ok hout
      exact @insertLine_letOnce now { db with contracts := contracts } l _ h0 hinsert
  | openMaintenance unitId =>
      cases h
      exact h0
  | closeMaintenance unitId =>
      cases h
      unfold RentalUnits.closeMaintenance
      split
      · exact h0
      · split
        · unfold RentalUnits.recompute
          split
          · exact h0
          · rw [lines_deriveState]
            exact h0
        · exact h0

/-- **A unit is never let twice at once.**  In every state a run reaches from a
database without lines, live lines of a unit share no day; and a version whose
dates are in order, on a unit whose live lines are, is rejected by the trigger
just when it overlaps one of them. -/
theorem unit_let_once (db db' : RentalDb) (h0 : db.lines.rows = [])
    (hrun : Reaches rentalStep (fun _ (_ : RentalNow × RentalOp D) => True) db db') :
    NoDoubleLet db'.lines ∧ ∀ folds id l, l.InOrder →
        (∀ unit, l.unitId = some unit → ∀ other ∈ rivals db'.lines id unit, other.InOrder) →
        ((∃ e, checkOverlap folds db'.lines id l = .error e) ↔ Overlaps db'.lines id l) := by
  constructor
  · refine @Reaches.invariant _ _ _ _ (fun db => NoDoubleLet db.lines) _ _ hrun ?_ ?_
    · rintro db₁ ⟨now, op⟩ db₂ h - hs
      exact rentalOp_letOnce h (rentalStep_eq_some_iff.mp hs)
    · intro i j l k unit hl
      have hmem := get?_eq_some_iff.mp hl
      rw [h0] at hmem
      cases hmem
  · intro folds id l hl hothers
    exact checkOverlap_error_iff hl hothers

end Runs

/-- The unit is let for the first third of February, then booked from the
eleventh on. -/
def firstThird : ContractLine := { februaryLet with dateEnd := some (ofDate 2026 2 10) }

def nextBooking : BookRequest ℤ where
  unitId := 1
  partnerId := 7
  dateStart := some (ofDate 2026 2 11)
  unitPrice := 100000000

theorem unit_let_once_booking : let _ := wholeMicros
    ∃ db', execute rentalStep (fun _ (_ : RentalNow × RentalOp ℤ) => True)
        [(rentalFebruary, .insertLine firstThird), (rentalFebruary, .book nextBooking)] oneUnit =
          some db' ∧
      NoDoubleLet db'.lines ∧
      ∀ folds id l, l.InOrder →
        (∀ unit, l.unitId = some unit → ∀ other ∈ rivals db'.lines id unit, other.InOrder) →
        ((∃ e, checkOverlap folds db'.lines id l = .error e) ↔ Overlaps db'.lines id l) := by
  intro _
  obtain ⟨db', hexec⟩ : ∃ db', execute rentalStep (fun _ (_ : RentalNow × RentalOp ℤ) => True)
      [(rentalFebruary, .insertLine firstThird), (rentalFebruary, .book nextBooking)] oneUnit =
        some db' := isSome_iff_exists.mp (by decide)
  exact ⟨db', hexec, unit_let_once _ _ rfl (reaches_of_execute hexec)⟩

/-- A line whose end is before its start covers no day, and is rejected all the
same on a unit that is let. -/
theorem inverted_line_rejected : ¬ ∀ (_ : JsonDouble ℤ) (db db' : RentalDb), db.lines.rows = [] →
      Reaches rentalStep (fun _ (_ : RentalNow × RentalOp ℤ) => True) db db' →
      NoDoubleLet db'.lines ∧ ∀ folds id l,
        (∃ e, checkOverlap folds db'.lines id l = .error e) → Overlaps db'.lines id l := by
  intro h
  let _ := wholeMicros
  let inverted : ContractLine :=
    { februaryLet with
      dateStart := ofDate 2026 3 10, dateEnd := some (ofDate 2026 3 1) }
  obtain ⟨db', hexec⟩ : ∃ db', execute rentalStep (fun _ (_ : RentalNow × RentalOp ℤ) => True)
      [(rentalFebruary, .insertLine firstThird)] oneUnit = some db' :=
    isSome_iff_exists.mp (by decide)
  have hrejected : ((execute rentalStep (fun _ (_ : RentalNow × RentalOp ℤ) => True)
      [(rentalFebruary, .insertLine firstThird)] oneUnit).all fun db =>
        !(checkOverlap false db.lines db.lines.nextId inverted).isOk) = true := by
    decide
  rw [hexec] at hrejected
  have herror : ∃ e, checkOverlap false db'.lines db'.lines.nextId inverted = .error e := by
    rcases hcheck : checkOverlap false db'.lines db'.lines.nextId inverted with e | u
    · exact ⟨e, rfl⟩
    · rw [all_some, hcheck] at hrejected
      cases hrejected
  obtain ⟨-, unit, -, other, -, hover⟩ :=
    (h wholeMicros _ db' rfl (reaches_of_execute hexec)).2 false _ inverted herror
  apply hover
  have hempty : inverted.days = ∅ := by
    rw [Set.eq_empty_iff_forall_notMem]
    rintro d ⟨hfirst, hlast⟩
    have hle := le_trans hfirst (hlast _ rfl)
    revert hle
    decide
  rw [hempty]
  exact Set.disjoint_empty _

end CErp
