/-
Leave balances are respected.

No operation but an approval adds a validated leave or changes one (`NoNewer`), and an
approval looks at the dates and the balance first.  What is allocated only shrinks when
an allocation that counts is refused or written.  The two things that are not checked,
a write that sets the state of a leave and a change of what has been taken already, are
what `Respects` leaves out; along runs of the other calls balances are respected
(`balances_respected`).
-/
import CErp.HrLeave
import CErp.Runs
import Mathlib

namespace CErp

open Workflow Outcome List Table Runs

namespace LeaveDb

/-! ### What is kept -/

/-- The rows that count are validated; a leave's days are then more than none. -/
structure Sound (db : LeaveDb) : Prop where
  apart : ∀ r ∈ db.leaves.rows, ∀ s ∈ db.leaves.rows, r.1 ≠ s.1 → r.2.state = .validate →
    s.2.state = .validate → r.2.employeeId = s.2.employeeId →
    ¬ (r.2.dateFrom ≤ s.2.dateTo ∧ s.2.dateFrom ≤ r.2.dateTo)
  counted : ∀ r ∈ db.leaves.rows, r.2.state = .validate → 0 < r.2.numberOfDays
  covered : ∀ employeeId typeId, db.requiresAlloc typeId = true →
    takenIn db.leaves employeeId typeId ≤ allocatedIn db.allocations employeeId typeId

/-- Every validated leave is one of before. -/
def NoNewer (t t' : Table Leave) : Prop :=
  ∀ r ∈ t'.rows, r.2.state = .validate → r ∈ t.rows

/-- Every validated allocation is still there. -/
def AllKept (t t' : Table LeaveAllocation) : Prop :=
  ∀ r ∈ t.rows, r.2.state = .validate → r ∈ t'.rows

lemma NoNewer.refl (t : Table Leave) : NoNewer t t := fun _ hr _ => hr

lemma NoNewer.trans {t t' t'' : Table Leave} (h : NoNewer t t') (h' : NoNewer t' t'') :
    NoNewer t t'' := fun r hr hstate => h r (h' r hr hstate) hstate

lemma noNewer_insert {t : Table Leave} {l : Leave} (h : l.state ≠ .validate) :
    NoNewer t (t.insert l) := by
  intro r hr hstate
  rcases mem_insert_iff.mp hr with hr | rfl
  · exact hr
  · exact absurd hstate h

/-- A change after which the changed rows are not validated. -/
lemma noNewer_updateWhere {t : Table Leave} {p : ℤ → Leave → Bool} {f : Leave → Leave}
    (h : ∀ r ∈ t.rows, p r.1 r.2 = true → (f r.2).state ≠ .validate) :
    NoNewer t (t.updateWhere p f) := by
  rintro ⟨id, l'⟩ hr hstate
  obtain ⟨l, hl, (hl' : (if p id l = true then f l else l) = l')⟩ := mem_update_iff.mp hr
  split at hl'
  · next hp =>
      rw [← hl'] at hstate
      exact absurd hstate (h _ hl hp)
  · rw [← hl']
    exact hl

lemma allKept_insert (t : Table LeaveAllocation) (a : LeaveAllocation) : AllKept t (t.insert a) :=
  fun _ hr _ => mem_insert_iff.mpr (.inl hr)

variable {t : Table LeaveAllocation}

/-- A change of rows that are not validated. -/
lemma allKept_updateWhere {p : ℤ → LeaveAllocation → Bool}
    {f : LeaveAllocation → LeaveAllocation}
    (h : ∀ r ∈ t.rows, p r.1 r.2 = true → r.2.state ≠ .validate) :
    AllKept t (t.updateWhere p f) := by
  intro r hr hstate
  refine mem_update_iff.mpr ⟨r.2, hr, ?_⟩
  apply if_neg
  intro hp
  exact h r hr hp hstate

/-! ### Sums -/

lemma takenIn_le {t t' : Table Leave} (hcounted : ∀ r ∈ t.rows, r.2.state = .validate →
    0 < r.2.numberOfDays) (h : NoNewer t t') (employeeId typeId : ℤ) :
    takenIn t' employeeId typeId ≤ takenIn t employeeId typeId := by
  apply sumOver_le_of_subset
  · intro r hr
    unfold leaveDays
    split
    · next hcounts => exact (hcounted r hr hcounts.2.2).le
    · exact le_rfl
  · intro r hr hne
    unfold leaveDays at hne
    split at hne
    · next hcounts => exact h r hr hcounts.2.2
    · exact absurd rfl hne

lemma allocatedDays_nonneg {c : LeaveSettings} (h : AllocationConstraints c t)
    (employeeId typeId : ℤ) : ∀ r ∈ t.rows, 0 ≤ allocatedDays employeeId typeId r.2 := by
  intro r hr
  unfold allocatedDays
  split
  · exact h.days_chk r hr
  · exact le_rfl

lemma allocatedIn_le {c : LeaveSettings} {t' : Table LeaveAllocation}
    (hc : AllocationConstraints c t') (h : AllKept t t') (employeeId typeId : ℤ) :
    allocatedIn t employeeId typeId ≤ allocatedIn t' employeeId typeId := by
  apply sumOver_le_of_subset
  · exact allocatedDays_nonneg hc employeeId typeId
  · intro r hr hne
    unfold allocatedDays at hne
    split at hne
    · next hcounts => exact h r hr hcounts.2.2
    · exact absurd rfl hne

/-- The allocations leave every leave of a type that needs one within what is
allocated. -/
def Covers (db : LeaveDb) (t : Table LeaveAllocation) : Prop :=
  ∀ r ∈ db.leaves.rows, r.2.state = .validate → db.requiresAlloc r.2.leaveTypeId = true →
    takenIn db.leaves r.2.employeeId r.2.leaveTypeId ≤ allocatedIn t r.2.employeeId r.2.leaveTypeId

instance (db : LeaveDb) (t : Table LeaveAllocation) : Decidable (Covers db t) :=
  inferInstanceAs (Decidable (∀ r ∈ db.leaves.rows, _ → _ → _))

/-- Where no leave is validated, nothing is taken. -/
lemma Covers.all {db : LeaveDb} (h : Covers db t) (hc : AllocationConstraints db.settings t)
    (employeeId typeId : ℤ) (hrequires : db.requiresAlloc typeId = true) :
    takenIn db.leaves employeeId typeId ≤ allocatedIn t employeeId typeId := by
  by_cases hsome : ∃ r ∈ db.leaves.rows, r.2.state = .validate ∧ r.2.employeeId = employeeId ∧
      r.2.leaveTypeId = typeId
  · obtain ⟨r, hr, hstate, rfl, rfl⟩ := hsome
    exact h r hr hstate hrequires
  · have hnone : takenIn db.leaves employeeId typeId = 0 := by
      apply sum_eq_zero
      intro x hx
      obtain ⟨r, hr, rfl⟩ := mem_map.mp hx
      apply if_neg
      rintro ⟨hemployee, htype, hstate⟩
      exact hsome ⟨r, hr, hstate, hemployee, htype⟩
    rw [hnone]
    apply sum_nonneg
    intro x hx
    obtain ⟨r, hr, rfl⟩ := mem_map.mp hx
    exact allocatedDays_nonneg hc employeeId typeId r hr

/-! ### Commits -/

variable {db db' : LeaveDb}

lemma commitLeaves_ok {t : Table Leave} (h : db.commitLeaves t = .ok db') :
    db'.leaves = t ∧ db'.allocations = db.allocations ∧ db'.settings = db.settings := by
  unfold commitLeaves at h
  split at h
  · cases h
    exact ⟨rfl, rfl, rfl⟩
  · cases h

lemma commitAllocations_ok (h : db.commitAllocations t = .ok db') :
    db'.allocations = t ∧ db'.leaves = db.leaves ∧ db'.settings = db.settings := by
  unfold commitAllocations at h
  split at h
  · cases h
    exact ⟨rfl, rfl, rfl⟩
  · cases h

/-- What a call that approves nothing and takes no allocation back does. -/
structure Quiet (db db' : LeaveDb) : Prop where
  leaves : NoNewer db.leaves db'.leaves
  allocations : db'.allocations = db.allocations
  settings : db'.settings = db.settings

lemma Quiet.refl (db : LeaveDb) : Quiet db db := ⟨.refl _, rfl, rfl⟩

lemma Quiet.trans {db'' : LeaveDb} (h : Quiet db db') (h' : Quiet db' db'') : Quiet db db'' :=
  ⟨h.leaves.trans h'.leaves, h'.allocations.trans h.allocations, h'.settings.trans h.settings⟩

lemma quiet_of_commit {t : Table Leave} (h : db.commitLeaves t = .ok db')
    (ht : NoNewer db.leaves t) : Quiet db db' := by
  obtain ⟨hleaves, hallocations, hsettings⟩ := commitLeaves_ok h
  exact ⟨by rw [hleaves]; exact ht, hallocations, hsettings⟩

lemma requiresAlloc_congr (h : db'.settings = db.settings) (typeId : ℤ) :
    db'.requiresAlloc typeId = db.requiresAlloc typeId := by
  unfold requiresAlloc
  rw [h]

lemma Quiet.sound (hq : Quiet db db') (h : db.Sound) : db'.Sound where
  apart r hr s hs hne hstate hstate' :=
    h.apart r (hq.leaves r hr hstate) s (hq.leaves s hs hstate') hne hstate hstate'
  counted r hr hstate := h.counted r (hq.leaves r hr hstate) hstate
  covered employeeId typeId hrequires := by
    rw [requiresAlloc_congr hq.settings] at hrequires
    rw [hq.allocations]
    exact (takenIn_le h.counted hq.leaves employeeId typeId).trans
      (h.covered employeeId typeId hrequires)

/-- Other allocations that cover what is taken. -/
lemma sound_of_covers (h : db.Sound) (hok : db.commitAllocations t = .ok db')
    (hcovers : AllocationConstraints db.settings t → ∀ employeeId typeId,
      db.requiresAlloc typeId = true →
        takenIn db.leaves employeeId typeId ≤ allocatedIn t employeeId typeId) : db'.Sound := by
  obtain ⟨hallocations, hleaves, hsettings⟩ := commitAllocations_ok hok
  have hc := db'.allocation_constraints
  rw [hallocations, hsettings] at hc
  constructor
  · rw [hleaves]
    exact h.apart
  · rw [hleaves]
    exact h.counted
  · intro employeeId typeId hrequires
    rw [requiresAlloc_congr hsettings] at hrequires
    rw [hleaves, hallocations]
    exact hcovers hc employeeId typeId hrequires

lemma sound_of_allKept (h : db.Sound) (hok : db.commitAllocations t = .ok db')
    (hkept : AllKept db.allocations t) : db'.Sound := by
  apply sound_of_covers h hok
  intro hc employeeId typeId hrequires
  exact (h.covered employeeId typeId hrequires).trans (allocatedIn_le hc hkept employeeId typeId)

/-! ### Approvals -/

lemma not_clashes {t : Table Leave} {id : ℤ} {l : Leave} (h : clashes t id l = false) :
    ∀ r ∈ t.rows, r.2.employeeId = l.employeeId → r.1 ≠ id → r.2.state = .validate →
      ¬ (r.2.dateFrom ≤ l.dateTo ∧ l.dateFrom ≤ r.2.dateTo) := by
  intro r hr hemployee hne hstate hover
  have hnot := any_eq_false.mp h r hr
  apply hnot
  simp [hemployee, hne, hstate, hover.1, hover.2]

/-- **An approval looks first.** -/
theorem approveOne_sound {id : ℤ} (h : db.Sound) (hok : db.approveOne id = .ok db') :
    db'.Sound := by
  unfold approveOne at hok
  split at hok
  · cases hok
  · next l hl =>
      obtain ⟨⟨⟩, hconfirm, hok⟩ := bind_ok_iff.mp hok
      obtain ⟨⟨⟩, hdays, hok⟩ := bind_ok_iff.mp hok
      obtain ⟨⟨⟩, hclash, hok⟩ := bind_ok_iff.mp hok
      obtain ⟨⟨⟩, hbalance, hok⟩ := bind_ok_iff.mp hok
      have hconfirm := require_ok_iff.mp hconfirm
      have hdays := require_ok_iff.mp hdays
      have hclash := not_clashes (require_ok_iff.mp hclash)
      have hbalance := require_ok_iff.mp hbalance
      obtain ⟨hleaves, hallocations, hsettings⟩ := commitLeaves_ok hok
      -- a validated leave is the approved one or one of before
      have hrow : ∀ r ∈ db'.leaves.rows, r.2.state = .validate →
          r = (id, setState .validate l) ∨ r ∈ db.leaves.rows ∧ r.1 ≠ id := by
        rw [hleaves]
        rintro ⟨i, l'⟩ hr -
        obtain ⟨k, hk, (hl' : (if i == id then setState .validate k else k) = l')⟩ :=
          mem_update_iff.mp hr
        by_cases hi : i = id
        · subst hi
          rw [eq_of_mem hk (get?_eq_some_iff.mp hl), if_pos (beq_self_eq_true i)] at hl'
          exact .inl (Prod.ext rfl hl'.symm)
        · rw [if_neg (by simpa using hi)] at hl'
          rw [← hl']
          exact .inr ⟨hk, hi⟩
      constructor
      · intro r hr s hs hne hstate hstate' hemployee
        rcases hrow r hr hstate with rfl | ⟨hr, hrid⟩
        · rcases hrow s hs hstate' with rfl | ⟨hs, hsid⟩
          · exact absurd rfl hne
          · rw [and_comm]
            exact hclash s hs hemployee.symm hsid hstate'
        · rcases hrow s hs hstate' with rfl | ⟨hs, hsid⟩
          · exact hclash r hr hemployee hrid hstate
          · exact h.apart r hr s hs hne hstate hstate' hemployee
      · intro r hr hstate
        rcases hrow r hr hstate with rfl | ⟨hr, -⟩
        · exact hdays
        · exact h.counted r hr hstate
      · intro employeeId typeId hrequires
        rw [requiresAlloc_congr hsettings] at hrequires
        rw [hleaves, hallocations]
        have hsum : takenIn (db.leaves.modify id (setState .validate)) employeeId typeId =
            takenIn db.leaves employeeId typeId
              - leaveDays .validate employeeId typeId l
              + leaveDays .validate employeeId typeId (setState .validate l) :=
          sumOver_modify _ _ hl
        have hnone : leaveDays .validate employeeId typeId l = 0 := by
          apply if_neg
          rintro ⟨-, -, hvalidate⟩
          rw [hconfirm] at hvalidate
          cases hvalidate
        rw [hsum, hnone]
        have hbefore := h.covered employeeId typeId hrequires
        unfold leaveDays
        split
        · next hcounts =>
            obtain ⟨hemployee, htype, -⟩ := hcounts
            have hfits : l.numberOfDays ≤ allocatedIn db.allocations l.employeeId l.leaveTypeId -
                  takenIn db.leaves l.employeeId l.leaveTypeId :=
              hbalance (by rw [show l.leaveTypeId = typeId from htype]; exact hrequires)
            rw [show l.employeeId = employeeId from hemployee,
              show l.leaveTypeId = typeId from htype] at hfits
            show _ - 0 + l.numberOfDays ≤ _
            omega
        · omega

/-! ### The other calls -/

variable {ids : List ℤ}

lemma leaveStep_quiet {source : List LeaveState} {target : LeaveState} {refusal : String}
    (htarget : target ≠ .validate) (hok : db.leaveStep source target refusal ids = .ok db') :
    Quiet db db' := by
  obtain ⟨t, ht, hok⟩ := bind_ok_iff.mp hok
  obtain ⟨rfl, -⟩ := step_ok (fun _ => rfl) ht
  exact quiet_of_commit hok (noNewer_updateWhere fun _ _ _ => htarget)

lemma recount_quiet {connected : Bool}
    (h : ∀ r ∈ db.leaves.rows, ids.contains r.1 = true → r.2.state ≠ .validate) :
    Quiet db (db.recount ids connected) := by
  unfold recount
  split
  · split
    · exact .refl _
    · next hok => exact quiet_of_commit hok (noNewer_updateWhere h)
  · exact .refl _

lemma newRow_state {v : LeaveValues} {l : Leave} (h : v.newRow = .ok l) : l.state = .draft := by
  obtain ⟨-, -, h⟩ := bind_ok_iff.mp h
  obtain ⟨-, -, h⟩ := bind_ok_iff.mp h
  split at h
  · obtain ⟨-, -, h⟩ := bind_ok_iff.mp h
    cases h
    rfl
  · cases h

lemma handleCreateLeave_quiet (db : LeaveDb) (access : RowAccess Leave) (v : LeaveValues)
    (connected : Bool) : Quiet db (db.handleCreateLeave access v connected) := by
  unfold handleCreateLeave
  split
  · exact .refl _
  · next db₁ hok =>
      obtain ⟨l, hl, hok⟩ := bind_ok_iff.mp hok
      obtain ⟨-, -, hok⟩ := bind_ok_iff.mp hok
      have hdraft := newRow_state hl
      have hcreated : Quiet db db₁ :=
        quiet_of_commit hok (noNewer_insert (by rw [hdraft]; decide))
      refine hcreated.trans (recount_quiet ?_)
      -- the row that is counted is the new draft
      intro r hr hid
      rw [(commitLeaves_ok hok).1] at hr
      have hid : r.1 = db.leaves.nextId := by simpa using hid
      rcases mem_insert_iff.mp hr with hr | rfl
      · exact absurd (db.leaves.below r hr) (by omega)
      · rw [hdraft]
        decide

/-- A write of leaves that validates none. -/
lemma handleWriteLeave_quiet {access : RowAccess Leave} {v : LeaveValues} {connected : Bool}
    (h : v.state = some .validate → db.editable ids = true →
      LeaveConstraints db.settings (db.writtenLeaves access v ids) →
      ∀ r ∈ db.leaves.rows, hit access ids r.1 r.2 = false) :
    Quiet db (db.handleWriteLeave access v ids connected) := by
  unfold handleWriteLeave
  split
  · next heditable =>
      split
      · exact .refl _
      · next db₁ hok =>
          obtain ⟨hleaves, -, hsettings⟩ := commitLeaves_ok hok
          have hc := db₁.leave_constraints
          rw [hleaves, hsettings] at hc
          have hopen : ∀ r ∈ db.leaves.rows, ids.contains r.1 = true → r.2.state ≠ .validate := by
            intro r hr hid hstate
            have hall := List.all_eq_true.mp heditable r.1 (contains_iff_mem.mp hid)
            rw [show db.leaves.get? r.1 = some r.2 from get?_eq_some_iff.mpr hr] at hall
            simp [hstate] at hall
          have hassigned : ∀ r ∈ db.leaves.rows, hit access ids r.1 r.2 = true →
              (v.assign r.2).state ≠ .validate := by
            intro r hr hhit
            have hid := (Bool.and_eq_true_iff.mp hhit).1
            rcases hstate : v.state with - | state
            · unfold LeaveValues.assign
              rw [hstate]
              exact hopen r hr hid
            · unfold LeaveValues.assign
              rw [hstate]
              rintro (rfl : state = .validate)
              rw [h hstate heditable hc r hr] at hhit
              cases hhit
          have hwritten : Quiet db db₁ := quiet_of_commit hok (noNewer_updateWhere hassigned)
          refine hwritten.trans (recount_quiet ?_)
          intro r hr hid hstate
          exact hopen r (hwritten.leaves r hr hstate) hid hstate
  · exact .refl _

/-! ### Runs -/

/-- The condition on a call: no leave is validated by a write, and what a write or a
refusal takes back of the allocations has not been taken. -/
def Respects (db : LeaveDb) : LeaveCall → Prop
  | .createLeave _ _ _ => True
  | .writeLeave access v ids _ => v.state = some .validate → db.editable ids = true →
      LeaveConstraints db.settings (db.writtenLeaves access v ids) →
      ∀ r ∈ db.leaves.rows, hit access ids r.1 r.2 = false
  | .leave _ _ => True
  | .createAllocation _ _ => True
  | .writeAllocation access v ids =>
      AllocationConstraints db.settings (db.writtenAllocations access v ids) →
        Covers db (db.writtenAllocations access v ids)
  | .allocation action ids => action = .refuse →
      (∀ id ∈ ids, ∃ a ∈ db.allocations.get? id, a.state = .confirm ∨ a.state = .validate) →
        Covers db (db.allocations.updateWhere (fun id _ => ids.contains id)
          (setAllocationState .refuse))

instance (db : LeaveDb) (c : LeaveCall) : Decidable (Respects db c) := by
  cases c <;> unfold Respects <;> infer_instance

lemma allocationAction_sound {action : AllocationAction} (h : db.Sound)
    (hrespects : Respects db (.allocation action ids))
    (hok : db.allocationAction ids action = .ok db') : db'.Sound := by
  cases action with
  | confirm =>
      obtain ⟨t, ht, hok⟩ := bind_ok_iff.mp hok
      obtain ⟨rfl, hsource⟩ := step_ok (fun _ => rfl) ht
      refine sound_of_allKept h hok (allKept_updateWhere ?_)
      intro r hr hid hstate
      obtain ⟨a, ha, hdraft⟩ := hsource r.1 (contains_iff_mem.mp hid)
      rw [eq_of_mem hr (get?_eq_some_iff.mp ha)] at hstate
      rw [hstate] at hdraft
      simp at hdraft
  | approve =>
      obtain ⟨t, ht, hok⟩ := bind_ok_iff.mp hok
      obtain ⟨rfl, hsource⟩ := step_ok (fun _ => rfl) ht
      refine sound_of_allKept h hok (allKept_updateWhere ?_)
      intro r hr hid hstate
      obtain ⟨a, ha, hconfirm⟩ := hsource r.1 (contains_iff_mem.mp hid)
      rw [eq_of_mem hr (get?_eq_some_iff.mp ha)] at hstate
      rw [hstate] at hconfirm
      simp at hconfirm
  | refuse =>
      obtain ⟨t, ht, hok⟩ := bind_ok_iff.mp hok
      obtain ⟨rfl, hsource⟩ := step_ok (fun _ => rfl) ht
      apply sound_of_covers h hok
      intro hc
      refine (hrespects rfl ?_).all hc
      intro id hid
      obtain ⟨a, ha, hstate⟩ := hsource id hid
      exact ⟨a, ha, by simpa using hstate⟩

lemma leaveAction_sound {action : LeaveAction} (h : db.Sound)
    (hok : db.leaveAction ids action = .ok db') :
    db'.Sound ∧ (action ≠ .approve → NoNewer db.leaves db'.leaves) := by
  cases action with
  | confirm =>
      have hquiet : Quiet db db' := leaveStep_quiet (by decide) hok
      exact ⟨hquiet.sound h, fun _ => hquiet.leaves⟩
  | approve =>
      exact ⟨foldlM_keeps Sound (fun _ _ _ hs hone => approveOne_sound hs hone) hok h,
        fun hne => absurd rfl hne⟩
  | refuse =>
      have hquiet : Quiet db db' := leaveStep_quiet (by decide) hok
      exact ⟨hquiet.sound h, fun _ => hquiet.leaves⟩
  | cancel =>
      have hquiet : Quiet db db' := leaveStep_quiet (by decide) hok
      exact ⟨hquiet.sound h, fun _ => hquiet.leaves⟩
  | resetDraft =>
      have hquiet : Quiet db db' := leaveStep_quiet (by decide) hok
      exact ⟨hquiet.sound h, fun _ => hquiet.leaves⟩

/-- The allocation calls have no part in the leaves. -/
lemma allocationAction_leaves {action : AllocationAction}
    (hok : db.allocationAction ids action = .ok db') : db'.leaves = db.leaves := by
  cases action
  all_goals
    obtain ⟨t, -, hok⟩ := bind_ok_iff.mp hok
    exact (commitAllocations_ok hok).2.1

/-- Whether a call is an approval of leaves. -/
def approves : LeaveCall → Bool
  | .leave .approve _ => true
  | _ => false

/-- **One call.** -/
theorem run_sound {c : LeaveCall} (h : db.Sound) (hrespects : Respects db c) :
    (db.run c).Sound ∧ (approves c = false → NoNewer db.leaves (db.run c).leaves) := by
  -- a failed transaction leaves what was there
  have horSame : ∀ {r : Except String LeaveDb} {P : LeaveDb → Prop}, P db →
      (∀ db', r = .ok db' → P db') → P (db.orSame r) := by
    intro r P hsame hok
    cases r with
    | error e => exact hsame
    | ok db' => exact hok db' rfl
  cases c with
  | createLeave access v connected =>
      have hquiet := handleCreateLeave_quiet db access v connected
      exact ⟨hquiet.sound h, fun _ => hquiet.leaves⟩
  | writeLeave access v ids connected =>
      have hquiet : Quiet db (db.handleWriteLeave access v ids connected) :=
        handleWriteLeave_quiet hrespects
      exact ⟨hquiet.sound h, fun _ => hquiet.leaves⟩
  | leave action ids =>
      refine horSame (P := fun db' => db'.Sound ∧ (approves (.leave action ids) = false →
        NoNewer db.leaves db'.leaves)) ⟨h, fun _ => .refl _⟩ ?_
      intro db' hok
      obtain ⟨hsound, hnewer⟩ := leaveAction_sound h hok
      refine ⟨hsound, ?_⟩
      intro hnot
      apply hnewer
      rintro rfl
      cases hnot
  | createAllocation access v =>
      refine horSame (P := fun db' => db'.Sound ∧ (_ → NoNewer db.leaves db'.leaves))
        ⟨h, fun _ => .refl _⟩ ?_
      intro db' hok
      obtain ⟨a, -, hok⟩ := bind_ok_iff.mp hok
      obtain ⟨-, -, hok⟩ := bind_ok_iff.mp hok
      refine ⟨sound_of_allKept h hok (allKept_insert _ _), ?_⟩
      rw [(commitAllocations_ok hok).2.1]
      exact fun _ => .refl _
  | writeAllocation access v ids =>
      refine horSame (P := fun db' => db'.Sound ∧ (_ → NoNewer db.leaves db'.leaves))
        ⟨h, fun _ => .refl _⟩ ?_
      intro db' hok
      refine ⟨sound_of_covers h hok fun hc => (hrespects hc).all hc, ?_⟩
      rw [(commitAllocations_ok hok).2.1]
      exact fun _ => .refl _
  | allocation action ids =>
      refine horSame (P := fun db' => db'.Sound ∧ (_ → NoNewer db.leaves db'.leaves))
        ⟨h, fun _ => .refl _⟩ ?_
      intro db' hok
      refine ⟨allocationAction_sound h hrespects hok, ?_⟩
      rw [allocationAction_leaves hok]
      exact fun _ => .refl _

end LeaveDb

/-- The tables, and which validated leaves got there through an approval. -/
structure LeaveHistory where
  db : LeaveDb
  approved : ℤ → Bool

open LeaveDb

def isValidated (t : Table Leave) (id : ℤ) : Bool :=
  (t.get? id).any fun l => l.state == .validate

/-- A call; a leave that was not validated before gets there through this call. -/
def historyStep (s : LeaveHistory) (c : LeaveCall) : Option LeaveHistory :=
  some
    { db := s.db.run c
      approved := fun id => if isValidated s.db.leaves id then s.approved id else approves c }

/-- No employee is on leave twice, no more is taken than allocated where an allocation is
required, and whatever is validated was approved. -/
structure BalancesRespected (s : LeaveHistory) : Prop where
  disjoint : ∀ r ∈ s.db.leaves.rows, ∀ r' ∈ s.db.leaves.rows, r.1 ≠ r'.1 →
    r.2.state = .validate → r'.2.state = .validate → r.2.employeeId = r'.2.employeeId →
    Disjoint (Set.Icc r.2.dateFrom r.2.dateTo) (Set.Icc r'.2.dateFrom r'.2.dateTo)
  covered : ∀ employeeId typeId, s.db.requiresAlloc typeId = true →
    takenIn s.db.leaves employeeId typeId ≤ allocatedIn s.db.allocations employeeId typeId
  approved : ∀ r ∈ s.db.leaves.rows, r.2.state = .validate → s.approved r.1 = true

/-- No leave and no allocation yet. -/
def noLeave (c : LeaveSettings) : LeaveHistory where
  db :=
    { settings := c
      leaves := .empty
      allocations := .empty
      leave_constraints := by
        constructor
        all_goals
          intro r hr
          cases hr
      allocation_constraints := by
        constructor
        all_goals
          intro r hr
          cases hr }
  approved := fun _ => false

lemma noLeave_sound (c : LeaveSettings) : (noLeave c).db.Sound := by
  constructor
  · intro r hr
    cases hr
  · intro r hr
    cases hr
  · intro employeeId typeId _
    exact le_rfl

/-- **Over every run of calls that meet the condition, balances are respected.** -/
theorem balances_respected (c : LeaveSettings) {s : LeaveHistory}
    (hrun : Reaches historyStep (fun s call => Respects s.db call) (noLeave c) s) :
    BalancesRespected s := by
  have hkept : s.db.Sound ∧
      ∀ r ∈ s.db.leaves.rows, r.2.state = .validate → s.approved r.1 = true := by
    refine hrun.invariant (I := fun s => s.db.Sound ∧
      ∀ r ∈ s.db.leaves.rows, r.2.state = .validate → s.approved r.1 = true) ?_
      ⟨noLeave_sound c, fun r hr => by cases hr⟩
    rintro s call s' ⟨hsound, happroved⟩ hrespects hs
    cases hs
    obtain ⟨hsound', hnewer⟩ := run_sound hsound hrespects
    refine ⟨hsound', ?_⟩
    intro r hr hstate
    show (if isValidated s.db.leaves r.1 = true then s.approved r.1 else approves call) = true
    split
    · next hbefore =>
        obtain ⟨l, hl, hvalidate⟩ := (Option.any_eq_true _ _).mp hbefore
        exact happroved (r.1, l) (get?_eq_some_iff.mp hl) (beq_iff_eq.mp hvalidate)
    · next hnot =>
        by_contra hother
        -- an operation that approves nothing validates nothing
        have hold := hnewer (Bool.eq_false_of_not_eq_true hother) r hr hstate
        apply hnot
        rw [isValidated, get?_eq_some_iff.mpr hold]
        simp [hstate]
  constructor
  · intro r hr r' hr' hne hstate hstate' hemployee
    have hapart := hkept.1.apart r hr r' hr' hne hstate hstate' hemployee
    rw [Set.disjoint_left]
    rintro x ⟨hx, hx'⟩ ⟨hy, hy'⟩
    exact hapart ⟨hx.trans hy', hy.trans hx'⟩
  · exact hkept.1.covered
  · exact hkept.2

/-! ### A state that is written, and an allocation that is refused -/

/-- One employee and annual leave. -/
def annualLeave : LeaveSettings where
  employees := [1]
  types := Table.empty.insert { name := "Annual Leave" }

/-- A request for the working days of a week. -/
def weekOff : LeaveValues where
  employeeId := some 1
  leaveTypeId := some 1
  dateFrom := some 20458
  dateTo := some 20462

/-- Five days are allocated. -/
def fiveAllocated : List LeaveCall :=
  [.createAllocation {} { employeeId := some 1, leaveTypeId := some 1, numberOfDays := some 500 },
    .allocation .confirm [1], .allocation .approve [1]]

/-- A request whose state is written. -/
def stateWritten : List LeaveCall :=
  [.createLeave {} weekOff true, .writeLeave {} { state := some .validate } [1] true]

/-- The five days are taken, and then the allocation is refused. -/
def refusedAfterwards : List LeaveCall :=
  fiveAllocated ++ [.createLeave {} weekOff true, .leave .confirm [1], .leave .approve [1],
    .allocation .refuse [1]]

/-- The five days are taken, and cancelled before the allocation is refused. -/
def cancelledFirst : List LeaveCall :=
  fiveAllocated ++ [.createLeave {} weekOff true, .writeLeave {} { dateTo := some 20461 } [1] true,
    .leave .confirm [1], .leave .approve [1], .leave .cancel [1], .allocation .refuse [1]]

/-- A written state is no approval, and a refusal takes back what has been taken. -/
theorem balances_not_respected :
    (∃ s, execute historyStep (fun _ _ => True) stateWritten (noLeave annualLeave) = some s ∧
      ¬ BalancesRespected s) ∧
    ∃ s, execute historyStep (fun _ _ => True) refusedAfterwards (noLeave annualLeave) =
      some s ∧ ¬ BalancesRespected s := by
  constructor
  · have hrun : ((execute historyStep (fun _ _ => True) stateWritten
        (noLeave annualLeave)).any fun s => decide (¬ ∀ r ∈ s.db.leaves.rows,
          r.2.state = .validate → s.approved r.1 = true)) = true := by
      decide
    obtain ⟨s, hs, hnot⟩ := (Option.any_eq_true _ _).mp hrun
    exact ⟨s, hs, fun h => of_decide_eq_true hnot h.approved⟩
  · have hrun : ((execute historyStep (fun _ _ => True) refusedAfterwards
        (noLeave annualLeave)).any fun s => decide (s.db.requiresAlloc 1 = true ∧
          ¬ takenIn s.db.leaves 1 1 ≤ allocatedIn s.db.allocations 1 1)) = true := by
      decide
    obtain ⟨s, hs, hnot⟩ := (Option.any_eq_true _ _).mp hrun
    obtain ⟨hrequires, hmore⟩ := of_decide_eq_true hnot
    exact ⟨s, hs, fun h => hmore (h.covered 1 1 hrequires)⟩

theorem balances_respected_cancelledFirst : ∃ s,
    execute historyStep (fun s call => Respects s.db call) cancelledFirst
      (noLeave annualLeave) = some s ∧ BalancesRespected s := by
  have hrun : (execute historyStep (fun s call => Respects s.db call) cancelledFirst
      (noLeave annualLeave)).isSome = true := by
    decide
  obtain ⟨s, hs⟩ := Option.isSome_iff_exists.mp hrun
  exact ⟨s, hs, balances_respected annualLeave (reaches_of_execute hs)⟩

end CErp
