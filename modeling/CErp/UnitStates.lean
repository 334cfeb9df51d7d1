/-
The derived state of a unit.

`StatesDerived` says that a unit in service shows what its lines say.  A
statement on lines changes what they say of the units its rows were and are on,
and derives those; opening maintenance takes a unit out of the invariant, and
closing it derives the unit anew, so that what happened meanwhile is caught up.
-/
import CErp.RentalLines
import CErp.Runs

namespace CErp

open Runs RentalDb Outcome List Table Option ContractLine

/-! ### What the lines say -/

variable {unit : ℤ}

variable {lines : Table ContractLine}

lemma hasLine_iff {state : LineState} : hasLine lines unit state = true ↔
      ∃ id l, lines.get? id = some l ∧ l.unitId = some unit ∧ l.state = state := by
  rw [hasLine, List.any_eq_true]
  constructor
  · rintro ⟨⟨id, l⟩, hmem, hl⟩
    simp only [Bool.and_eq_true, beq_iff_eq] at hl
    exact ⟨id, l, get?_eq_some_iff.mpr hmem, hl.1, hl.2⟩
  · rintro ⟨id, l, hget, hunit, hstate⟩
    refine ⟨(id, l), get?_eq_some_iff.mp hget, ?_⟩
    simp [hunit, hstate]

/-- Two versions of the lines say the same of a unit when they have the same
lines of it. -/
def SameLinesOf (unit : ℤ) (lines lines' : Table ContractLine) : Prop :=
  ∀ id l, l.unitId = some unit → (lines'.get? id = some l ↔ lines.get? id = some l)

lemma SameLinesOf.refl (unit : ℤ) (lines : Table ContractLine) : SameLinesOf unit lines lines :=
  fun _ _ _ => Iff.rfl

lemma SameLinesOf.trans {lines₁ lines₂ lines₃ : Table ContractLine}
    (h₁₂ : SameLinesOf unit lines₁ lines₂) (h₂₃ : SameLinesOf unit lines₂ lines₃) :
    SameLinesOf unit lines₁ lines₃ := by
  intro id l hl
  rw [h₂₃ id l hl, h₁₂ id l hl]

lemma occupancy_congr {lines' : Table ContractLine} (h : SameLinesOf unit lines lines') :
    occupancy lines' unit = occupancy lines unit := by
  have hhas : ∀ state, hasLine lines' unit state = hasLine lines unit state := by
    intro state
    rw [Bool.eq_iff_iff, hasLine_iff, hasLine_iff]
    constructor
    · rintro ⟨id, l, hget, hunit, hstate⟩
      exact ⟨id, l, (h id l hunit).mp hget, hunit, hstate⟩
    · rintro ⟨id, l, hget, hunit, hstate⟩
      exact ⟨id, l, (h id l hunit).mpr hget, hunit, hstate⟩
  rw [occupancy, occupancy, hhas, hhas]

lemma sameLinesOf_insert (lines : Table ContractLine) {l : ContractLine}
    (h : l.unitId ≠ some unit) : SameLinesOf unit lines (lines.insert l) := by
  intro id k hk
  rw [get?_insert]
  split
  · next hid =>
      subst hid
      rw [get?_nextId]
      constructor
      · intro heq
        rw [some_inj] at heq
        exact absurd (heq ▸ hk) h
      · intro heq
        cases heq
  · rfl

lemma sameLinesOf_modify {id : ℤ} {old new : ContractLine} (hold : lines.get? id = some old)
    (h : old.unitId ≠ some unit) (h' : new.unitId ≠ some unit) :
    SameLinesOf unit lines (lines.modify id fun _ => new) := by
  intro i k hk
  by_cases hi : i = id
  · subst hi
    rw [get?_modify_self, hold, map_some, some_inj, some_inj]
    constructor
    · intro heq
      exact absurd (heq ▸ hk) h'
    · intro heq
      exact absurd (heq ▸ hk) h
  · rw [get?_modify_of_ne _ _ hi]

/-! ### Deriving -/

/-- Every unit in service shows what its lines say. -/
def StatesDerived (db : RentalDb) : Prop :=
  ∀ id u, db.units.get? id = some u → u.state.outOfService = false → u.state = occupancy db.lines id

/-- The same, but for some units. -/
def DerivedExcept (units : List (Option ℤ)) (db : RentalDb) : Prop :=
  ∀ id u, db.units.get? id = some u → some id ∉ units → u.state.outOfService = false →
    u.state = occupancy db.lines id

@[simp] lemma lines_deriveState (db : RentalDb) (unit : Option ℤ) :
    (db.deriveState unit).lines = db.lines := by
  cases unit with
  | none => rfl
  | some id => rfl

lemma units_deriveState (db : RentalDb) (unit : Option ℤ) (id : ℤ) :
    (db.deriveState unit).units.get? id = (db.units.get? id).map fun u =>
      if unit = some id ∧ u.state.outOfService = false then
        { u with state := occupancy db.lines id }
      else u := by
  cases unit with
  | none =>
      show db.units.get? id = _
      simp
  | some i =>
      show (db.units.modify i _).get? id = _
      rw [get?_modify]
      congr 1
      funext u
      by_cases hid : id = i
      · subst hid
        by_cases hout : u.state.outOfService = true
        · simp [hout]
        · simp [hout]
      · have hne : ¬ some i = some id := fun heq => hid (some_inj.mp heq).symm
        simp [hid, hne]

variable {db : RentalDb}

/-- Deriving a unit takes it off the list of those that may be wrong. -/
lemma DerivedExcept.deriveState {unit : Option ℤ} {units : List (Option ℤ)}
    (h : DerivedExcept (unit :: units) db) : DerivedExcept units (db.deriveState unit) := by
  intro id u' hu' hnot hservice
  rw [units_deriveState] at hu'
  obtain ⟨u, hu, rfl⟩ := map_eq_some_iff.mp hu'
  rw [lines_deriveState]
  by_cases hcond : unit = some id ∧ u.state.outOfService = false
  · rw [if_pos hcond]
  · rw [if_neg hcond] at hservice ⊢
    apply h id u hu _ hservice
    rw [mem_cons, not_or]
    refine ⟨?_, hnot⟩
    intro heq
    exact hcond ⟨heq.symm, hservice⟩

lemma DerivedExcept.deriveStates {units : List (Option ℤ)} {db : RentalDb}
    (h : DerivedExcept units db) : StatesDerived (db.deriveStates units) := by
  induction units generalizing db with
  | nil => exact fun id u hu hservice => h id u hu not_mem_nil hservice
  | cons unit units ih => exact ih h.deriveState

lemma StatesDerived.except (h : StatesDerived db) (db' : RentalDb)
    (hunits : db'.units = db.units) {units : List (Option ℤ)}
    (hlines : ∀ id, some id ∉ units → SameLinesOf id db.lines db'.lines) :
    DerivedExcept units db' := by
  intro id u hu hnot hservice
  rw [hunits] at hu
  rw [occupancy_congr (hlines id hnot)]
  exact h id u hu hservice

/-! ### Statements -/

variable {now : RentalNow}

lemma insertLine_ok {l : ContractLine} {out : RentalDb × ℤ} (h : db.insertLine now l = .ok out) :
    ∃ l' : ContractLine,
      l'.unitId = l.unitId ∧ l'.dateStart = l.dateStart ∧ l'.dateEnd = l.dateEnd ∧
      l'.state = l.state ∧
      checkOverlap now.folds db.lines db.lines.nextId l.defaultNextPeriod = .ok () ∧
      out = (RentalDb.deriveState { db with lines := db.lines.insert l' } l'.unitId,
        db.lines.nextId) := by
  obtain ⟨_, -, h⟩ := bind_ok_iff.mp h
  obtain ⟨_, hcheck, h⟩ := bind_ok_iff.mp h
  obtain ⟨_, -, h⟩ := bind_ok_iff.mp h
  cases h
  refine ⟨_, ?_, ?_, ?_, ?_, hcheck, rfl⟩
  all_goals
    unfold inheritPartner defaultNextPeriod
    split <;> split <;> rfl

lemma insertLine_derived {now : RentalNow} {db : RentalDb} {l : ContractLine} {out : RentalDb × ℤ}
    (h0 : StatesDerived db) (h : db.insertLine now l = .ok out) : StatesDerived out.1 := by
  obtain ⟨l', -, -, -, -, -, rfl⟩ := insertLine_ok h
  have hexcept : DerivedExcept [l'.unitId] { db with lines := db.lines.insert l' } := by
    apply h0.except { db with lines := db.lines.insert l' } rfl
    intro id hnot
    apply sameLinesOf_insert
    intro heq
    exact hnot (mem_singleton.mpr heq.symm)
  exact hexcept.deriveStates

/-- **What the rows of an UPDATE do**: only the lines change, and those of units
that are not recorded do not. -/
theorem updateOne_ok {sets : List LineColumn} {s s' : RentalDb × List (Option ℤ)} {id : ℤ}
    (h : updateOne now sets s id = .ok s') :
    s'.1.units = s.1.units ∧ (∀ unit, unit ∈ s.2 → unit ∈ s'.2) ∧
      ∀ i, some i ∉ s'.2 → SameLinesOf i s.1.lines s'.1.lines := by
  unfold updateOne at h
  rcases e : s.1.lines.get? id with - | old
  · rw [e] at h
    cases h
    exact ⟨rfl, fun _ hmem => hmem, fun i _ => SameLinesOf.refl i _⟩
  rw [e] at h
  obtain ⟨l, -, h⟩ := bind_ok_iff.mp h
  cases h
  refine ⟨rfl, fun unit hmem => mem_append_left _ hmem, ?_⟩
  intro i hnot
  simp only [mem_append, mem_cons, not_mem_nil, or_false, not_or] at hnot
  exact sameLinesOf_modify e (fun heq => hnot.2.1 heq.symm) (fun heq => hnot.2.2 heq.symm)

variable {db' : RentalDb}

lemma updateLines_derived {ids : List ℤ} {sets : List LineColumn} (h0 : StatesDerived db)
    (h : db.updateLines now ids sets = .ok db') : StatesDerived db' := by
  obtain ⟨⟨db₁, units⟩, hrows, h⟩ := bind_ok_iff.mp h
  cases h
  have hsame : db₁.units = db.units ∧ ∀ i, some i ∉ units → SameLinesOf i db.lines db₁.lines := by
    have hrel := @foldlM_rel _ _ _ _ (fun (s s' : RentalDb × List (Option ℤ)) =>
      s'.1.units = s.1.units ∧ (∀ unit, unit ∈ s.2 → unit ∈ s'.2) ∧
        ∀ i, some i ∉ s'.2 → SameLinesOf i s.1.lines s'.1.lines) _ _ _
      (fun s => ⟨rfl, fun _ hmem => hmem, fun i _ => SameLinesOf.refl i _⟩) ?_
      (fun _ _ _ hone => updateOne_ok hone) hrows
    · exact ⟨hrel.1, hrel.2.2⟩
    · rintro a b c ⟨hu, hm, hl⟩ ⟨hu', hm', hl'⟩
      refine ⟨hu'.trans hu, fun unit hmem => hm' unit (hm unit hmem), ?_⟩
      intro i hnot
      exact (hl i fun hmem => hnot (hm' _ hmem)).trans (hl' i hnot)
  exact (h0.except db₁ hsame.1 hsame.2).deriveStates

lemma deleteLines_derived (h0 : StatesDerived db) (ids : List ℤ) :
    StatesDerived (db.deleteLines ids) := by
  apply DerivedExcept.deriveStates
  apply h0.except
    { db with
      lines := db.lines.delete fun id _ => ids.contains id
      links := db.links.delete fun _ k => ids.contains k.contractLineId } rfl
  intro i hnot id l hl
  show (db.lines.delete _).get? id = some l ↔ _
  rw [get?_eq_some_iff, get?_eq_some_iff]
  constructor
  · exact fun hmem => mem_of_mem_filter hmem
  · intro hmem
    refine mem_filter.mpr ⟨hmem, ?_⟩
    rw [Bool.not_eq_true', ← Bool.not_eq_true]
    intro hgone
    apply hnot
    exact List.mem_map.mpr ⟨(id, l), mem_filter.mpr ⟨hmem, hgone⟩, hl⟩

/-! ### Bookings and maintenance -/

section Book

variable {D : Type} [JsonDouble D]

variable {req : BookRequest D}

omit [JsonDouble D] in
lemma contract_ok {unit : RentalUnit} {dateStart id : ℤ}
    (h : RentalCalendar.contract db unit req dateStart = .ok (db', id)) :
    ∃ contracts, db' = { db with contracts := contracts } := by
  unfold RentalCalendar.contract at h
  split at h
  · split at h
    · cases h
    · obtain ⟨_, -, h⟩ := bind_ok_iff.mp h
      cases h
      exact ⟨_, rfl⟩
  · obtain ⟨_, -, h⟩ := bind_ok_iff.mp h
    cases h
    exact ⟨_, rfl⟩

/-- **What a booking does**: the unit was free in the period, and a line is
inserted for it. -/
theorem book_ok {out : Booking} (h : RentalCalendar.book now db req = .ok out) :
    ∃ unit dateStart contracts l, db.units.get? req.unitId = some unit ∧
      req.dateStart = some dateStart ∧ (∀ e ∈ req.dateEnd, dateStart ≤ e) ∧
      RentalCalendar.checkFree db unit req.unitId dateStart req.dateEnd = .ok () ∧
      l.unitId = some req.unitId ∧ l.dateStart = dateStart ∧ l.dateEnd = req.dateEnd ∧
      l.state.isLive = true ∧
      ({ db with contracts := contracts } : RentalDb).insertLine now l = .ok (out.db, out.lineId) := by
  obtain ⟨_, -, h⟩ := bind_ok_iff.mp h
  obtain ⟨_, -, h⟩ := bind_ok_iff.mp h
  rcases hstart : req.dateStart with - | dateStart
  · rw [hstart] at h
    cases h
  rw [hstart] at h
  obtain ⟨_, hordered, h⟩ := bind_ok_iff.mp h
  rcases hunit : (db.units.get? req.unitId).filter RentalUnit.active with - | unit
  · rw [hunit] at h
    cases h
  rw [hunit] at h
  obtain ⟨_, -, h⟩ := bind_ok_iff.mp h
  obtain ⟨_, -, h⟩ := bind_ok_iff.mp h
  obtain ⟨_, hfree, h⟩ := bind_ok_iff.mp h
  obtain ⟨unitPrice, -, h⟩ := bind_ok_iff.mp h
  obtain ⟨⟨db₁, contractId⟩, hcontract, h⟩ := bind_ok_iff.mp h
  obtain ⟨⟨db₂, lineId⟩, hinsert, hout⟩ := bind_ok_iff.mp h
  obtain ⟨contracts, rfl⟩ := contract_ok hcontract
  cases hout
  refine ⟨unit, dateStart, contracts, _, (filter_eq_some_iff.mp hunit).1, rfl,
    require_ok_iff.mp hordered, hfree, rfl, rfl, rfl, ?_, hinsert⟩
  split
  · rfl
  · rfl

lemma book_derived {out : Booking} (h0 : StatesDerived db)
    (h : RentalCalendar.book now db req = .ok out) : StatesDerived out.db := by
  obtain ⟨unit, dateStart, contracts, l, -, -, -, -, -, -, -, -, hinsert⟩ := book_ok h
  exact @insertLine_derived now { db with contracts := contracts } l _ h0 hinsert

end Book

lemma openMaintenance_derived (h0 : StatesDerived db) (unitId : ℤ) :
    StatesDerived (RentalUnits.openMaintenance db unitId) := by
  intro id u' hu' hservice
  have hget : (db.units.modify unitId fun u => { u with state := .maintenance }).get? id = some u' :=
    hu'
  rw [get?_modify] at hget
  obtain ⟨u, hu, rfl⟩ := map_eq_some_iff.mp hget
  split at hservice
  · cases hservice
  · next hid =>
      rw [if_neg hid]
      exact h0 id u hu hservice

/-- A unit that comes back is derived, whatever happened to its lines. -/
lemma closeMaintenance_derived (h0 : StatesDerived db)
    (hserial : ∀ id u, db.units.get? id = some u → 0 < id) (unitId : ℤ) :
    StatesDerived (RentalUnits.closeMaintenance db unitId) := by
  unfold RentalUnits.closeMaintenance
  rcases e : db.units.get? unitId with - | u
  · exact h0
  dsimp only
  split
  · have hpos := hserial unitId u e
    unfold RentalUnits.recompute
    rw [if_neg (not_le.mpr hpos)]
    apply @DerivedExcept.deriveStates [some unitId]
    intro id v' hv' hnot hservice
    have hget : (db.units.modify unitId fun u => { u with state := .available }).get? id = some v' :=
      hv'
    rw [get?_modify] at hget
    obtain ⟨v, hv, rfl⟩ := map_eq_some_iff.mp hget
    have hne : id ≠ unitId := by
      intro heq
      exact hnot (mem_singleton.mpr (congrArg some heq))
    rw [if_neg hne] at hservice ⊢
    exact h0 id v hv hservice
  · exact h0

/-! ### Runs -/

/-- The identifiers of the units stay as they are. -/
lemma isSome_units_deriveStates (units : List (Option ℤ)) (db : RentalDb) (id : ℤ) :
    ((db.deriveStates units).units.get? id).isSome = (db.units.get? id).isSome := by
  unfold RentalDb.deriveStates
  induction units generalizing db with
  | nil => rfl
  | cons unit units ih =>
      rw [foldl_cons, ih, units_deriveState, isSome_map]

section Runs

variable {D : Type} [JsonDouble D]

lemma isSome_units_insertLine {l : ContractLine} {out : RentalDb × ℤ}
    (h : db.insertLine now l = .ok out) (id : ℤ) :
    (out.1.units.get? id).isSome = (db.units.get? id).isSome := by
  obtain ⟨l', -, -, -, -, -, rfl⟩ := insertLine_ok h
  exact isSome_units_deriveStates [l'.unitId] _ id

lemma isSome_units_run {op : RentalOp D} (h : op.run now db = .ok db') (id : ℤ) :
    (db'.units.get? id).isSome = (db.units.get? id).isSome := by
  cases op with
  | insertLine l =>
      obtain ⟨out, hout, rfl⟩ := map_ok_iff.mp h
      exact isSome_units_insertLine hout id
  | updateLines ids sets =>
      obtain ⟨⟨db₁, units⟩, hrows, h⟩ := bind_ok_iff.mp h
      cases h
      rw [isSome_units_deriveStates]
      have hsame : db₁.units = db.units :=
        @foldlM_rel _ _ _ _ (fun (s s' : RentalDb × List (Option ℤ)) => s'.1.units = s.1.units) _ _ _
          (fun _ => rfl) (fun hab hbc => hbc.trans hab) (fun _ _ _ hone => (updateOne_ok hone).1) hrows
      rw [hsame]
  | deleteLines ids =>
      cases h
      exact isSome_units_deriveStates _ _ id
  | book req =>
      obtain ⟨out, hout, rfl⟩ := map_ok_iff.mp h
      obtain ⟨unit, dateStart, contracts, l, -, -, -, -, -, -, -, -, hinsert⟩ := book_ok hout
      exact isSome_units_insertLine hinsert id
  | openMaintenance unitId =>
      cases h
      show ((db.units.modify unitId _).get? id).isSome = _
      rw [get?_modify, isSome_map]
  | closeMaintenance unitId =>
      cases h
      unfold RentalUnits.closeMaintenance
      split
      · rfl
      · split
        · unfold RentalUnits.recompute
          split
          · show ((db.units.modify unitId _).get? id).isSome = _
            rw [get?_modify, isSome_map]
          · rw [units_deriveState, isSome_map]
            show ((db.units.modify unitId _).get? id).isSome = _
            rw [get?_modify, isSome_map]
        · rfl

/-- There are no lines yet: the units in service are available. -/
structure NothingLet (db : RentalDb) : Prop where
  serial : ∀ id u, db.units.get? id = some u → 0 < id
  lines : db.lines.rows = []
  available : ∀ id u, db.units.get? id = some u → u.state.outOfService = false →
    u.state = .available

lemma NothingLet.derived (h : NothingLet db) : StatesDerived db := by
  intro id u hu hservice
  rw [h.available id u hu hservice]
  unfold occupancy hasLine
  rw [h.lines]
  rfl

lemma rentalOp_derived {op : RentalOp D} (h0 : StatesDerived db)
    (hserial : ∀ id u, db.units.get? id = some u → 0 < id) (h : op.run now db = .ok db') :
    StatesDerived db' := by
  cases op with
  | insertLine l =>
      obtain ⟨out, hout, rfl⟩ := map_ok_iff.mp h
      exact insertLine_derived h0 hout
  | updateLines ids sets => exact updateLines_derived h0 h
  | deleteLines ids =>
      cases h
      exact deleteLines_derived h0 ids
  | book req =>
      obtain ⟨out, hout, rfl⟩ := map_ok_iff.mp h
      exact book_derived h0 hout
  | openMaintenance unitId =>
      cases h
      exact openMaintenance_derived h0 unitId
  | closeMaintenance unitId =>
      cases h
      exact closeMaintenance_derived h0 hserial unitId

/-- The state of a unit in service is that of its lines. -/
structure ShowsLines (db : RentalDb) (unit : ℤ) (state : UnitState) : Prop where
  occupied : state = .occupied ↔
    ∃ id l, db.lines.get? id = some l ∧ l.unitId = some unit ∧ l.state = .active
  reserved : state = .reserved ↔
    (∃ id l, db.lines.get? id = some l ∧ l.unitId = some unit ∧ l.state = .pending) ∧
      ¬ ∃ id l, db.lines.get? id = some l ∧ l.unitId = some unit ∧ l.state = .active
  available : state = .available ↔
    ¬ ∃ id l, db.lines.get? id = some l ∧ l.unitId = some unit ∧ l.state.isLive = true

lemma showsLines_occupancy (db : RentalDb) (unit : ℤ) :
    ShowsLines db unit (occupancy db.lines unit) := by
  have hlive : (∃ id l, db.lines.get? id = some l ∧ l.unitId = some unit ∧ l.state.isLive = true) ↔
      hasLine db.lines unit .active = true ∨ hasLine db.lines unit .pending = true := by
    rw [hasLine_iff, hasLine_iff]
    constructor
    · rintro ⟨id, l, hget, hunit, hl⟩
      rcases hs : l.state with - | - | - | -
      · exact .inr ⟨id, l, hget, hunit, hs⟩
      · exact .inl ⟨id, l, hget, hunit, hs⟩
      · rw [hs] at hl
        cases hl
      · rw [hs] at hl
        cases hl
    · rintro (⟨id, l, hget, hunit, hs⟩ | ⟨id, l, hget, hunit, hs⟩)
      · exact ⟨id, l, hget, hunit, by rw [hs]; rfl⟩
      · exact ⟨id, l, hget, hunit, by rw [hs]; rfl⟩
  constructor
  · rw [← hasLine_iff]
    unfold occupancy
    cases hasLine db.lines unit .active <;> cases hasLine db.lines unit .pending <;> decide
  · rw [← hasLine_iff, ← hasLine_iff]
    unfold occupancy
    cases hasLine db.lines unit .active <;> cases hasLine db.lines unit .pending <;> decide
  · rw [hlive]
    unfold occupancy
    cases hasLine db.lines unit .active <;> cases hasLine db.lines unit .pending <;> decide

/-- **Derived unit state.**  In every run, a unit that is not out of service
shows its lines. -/
theorem unit_states_derived (db db' : RentalDb) (h0 : NothingLet db)
    (hrun : Reaches rentalStep (fun _ (_ : RentalNow × RentalOp D) => True) db db') :
    ∀ id u, db'.units.get? id = some u → u.state ≠ .maintenance → u.state ≠ .retired →
      ShowsLines db' id u.state := by
  have hkept : StatesDerived db' ∧ ∀ id u, db'.units.get? id = some u → 0 < id := by
    refine @Reaches.invariant _ _ _ _ (fun db => StatesDerived db ∧
      ∀ id u, db.units.get? id = some u → 0 < id) _ _ hrun ?_ ⟨h0.derived, h0.serial⟩
    rintro db₁ ⟨now, op⟩ db₂ ⟨hderived, hserial⟩ - hs
    have hop := rentalStep_eq_some_iff.mp hs
    refine ⟨rentalOp_derived hderived hserial hop, ?_⟩
    intro id u hu
    have hsome := isSome_units_run hop id
    rw [hu, isSome_some] at hsome
    obtain ⟨v, hv⟩ := isSome_iff_exists.mp hsome.symm
    exact hserial id v hv
  intro id u hu hmaintenance hretired
  have hservice : u.state.outOfService = false := by
    rcases hs : u.state with - | - | - | - | -
    · rfl
    · rfl
    · rfl
    · exact absurd hs hmaintenance
    · exact absurd hs hretired
  rw [hkept.1 id u hu hservice]
  exact showsLines_occupancy db' id

end Runs

/-- A free unit. -/
def oneUnit : RentalDb where
  units := Table.empty.insert { code := "A-101" }

lemma oneUnit_nothingLet : NothingLet oneUnit := by
  have hunit : ∀ id u, oneUnit.units.get? id = some u → id = 1 ∧ u = { code := "A-101" } := by
    intro id u hu
    have hmem : (id, u) ∈ oneUnit.units.rows := get?_eq_some_iff.mp hu
    exact Prod.mk.inj (mem_singleton.mp hmem)
  refine ⟨?_, rfl, ?_⟩
  · intro id u hu
    rw [(hunit id u hu).1]
    decide
  · intro id u hu _
    rw [(hunit id u hu).2]

/-- The tenth of February. -/
def rentalFebruary : RentalNow where
  today := Calendar.ofDate 2026 2 10
  folds := true

/-- A let of the unit from the first of February on. -/
def februaryLet : ContractLine where
  unitId := some 1
  partnerId := some 7
  dateStart := Calendar.ofDate 2026 2 1
  state := .active

/-- The unit is let, and the let ends while the unit is in maintenance. -/
theorem unit_states_derived_oneUnit : let _ := JsonDouble.wholeMicros
    ∃ db', execute rentalStep (fun _ (_ : RentalNow × RentalOp ℤ) => True)
        [(rentalFebruary, .insertLine februaryLet), (rentalFebruary, .openMaintenance 1),
          (rentalFebruary, .updateLines [1] [.state .ended]),
          (rentalFebruary, .closeMaintenance 1)] oneUnit = some db' ∧
      ∀ id u, db'.units.get? id = some u → u.state ≠ .maintenance → u.state ≠ .retired →
        ShowsLines db' id u.state := by
  intro _
  obtain ⟨db', hexec⟩ : ∃ db', execute rentalStep (fun _ (_ : RentalNow × RentalOp ℤ) => True)
      [(rentalFebruary, .insertLine februaryLet), (rentalFebruary, .openMaintenance 1),
        (rentalFebruary, .updateLines [1] [.state .ended]),
        (rentalFebruary, .closeMaintenance 1)] oneUnit = some db' :=
    isSome_iff_exists.mp (by decide)
  exact ⟨db', hexec, unit_states_derived _ _ oneUnit_nothingLet (reaches_of_execute hexec)⟩

end CErp
