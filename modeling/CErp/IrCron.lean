/-
The scheduler: ticks, jobs and the guard against overlap.

A call is a tick on its way through the due rows of a tenant, or a `runNow`.
Both come to `executeJob_`, which looks at the guard and takes it in one locked
step, runs the job, writes the outcome to the row and gives the guard back.
`runNow` has looked at the guard before, in a locked step of its own, and what
`executeJob_` finds later is not told to it.

`step` is one step of one call; the calls are interleaved in any order.  The
database answers or fails, and a job returns or throws, as it likes.

* `Guarded`: every guard that is taken is taken by one call that is at work;
* `cron_guarded`: the guard in every run, and when `runNow` tells the truth.
-/
import CErp.Guards
import CErp.Runs
import CErp.Table

namespace CErp

open Guards Runs List Option Function

/-- A row of `ir_cron`; times are minutes. -/
structure CronRow where
  code : String
  active : Bool
  intervalMinutes : ℤ
  nextRun : ℤ
  lastRun : Option ℤ := none
  failureCount : ℤ := 0
  lastError : Option String := none
  deriving DecidableEq

namespace IrCron

/-- The next run is counted from now, so a job that is overdue runs once. -/
def markSuccess (now intervalMinutes : ℤ) (row : CronRow) : CronRow :=
  { row with
    lastRun := some now, nextRun := now + intervalMinutes, failureCount := 0, lastError := none }

/-- Minutes to wait after so many failures. -/
def backoff (failures : ℤ) : ℤ := min (60 * 8) (2 ^ (min failures 9).toNat)

def markFailure (now : ℤ) (error : String) (failures : ℤ) (row : CronRow) : CronRow :=
  { row with
    lastRun := some now
    nextRun := now + backoff failures
    failureCount := failures
    lastError := some (String.ofList (error.toList.take 500)) }

/-! ### Calls -/

inductive JobOutcome where
  | completed
  | failed (error : String)
  deriving DecidableEq

/-- How far a call is with its job.  From `reading` to `releasing` it holds the
guard. -/
inductive Phase where
  | checking
  | looking
  | claiming (id : ℤ)
  | reading (id : ℤ)
  | working (id intervalMinutes failures : ℤ)
  | recording (id intervalMinutes failures : ℤ) (outcome : JobOutcome)
  | releasing
  deriving DecidableEq

def Phase.atWork : Phase → Bool
  | checking | looking | claiming _ => false
  | reading _ | working .. | recording .. | releasing => true

inductive Entry where
  | tick
  | runNow
  deriving DecidableEq

/-- A call; `later` are the rows a tick has still to come to, and `executed`
says that the call has run the job. -/
structure Call where
  entry : Entry
  tenant : String
  code : String
  phase : Phase
  executed : Bool := false
  later : List (ℤ × String) := []
  deriving DecidableEq

/-- The guard is kept for each tenant. -/
def Call.guardKey (c : Call) : String := c.tenant ++ "|" ++ c.code

/-- What came of a job: whether the call executed it, and what the caller was
told, a tick having none. -/
structure Done where
  entry : Entry
  tenant : String
  code : String
  executed : Bool
  returned : Option Bool
  deriving DecidableEq

/-- The scheduler and the tenants' tables. -/
structure Cron where
  jobs : String → Bool
  running : List String
  warnedMissing : List String
  rows : String → Table CronRow
  calls : ℕ → Option Call
  log : List Done

def setCall (w : Cron) (th : ℕ) (c : Option Call) : Cron :=
  { w with calls := update w.calls th c }

/-- The next row of a tick. -/
def Call.next (c : Call) : Option Call :=
  match c.later with
  | [] => none
  | (id, code) :: later =>
      some { entry := c.entry, tenant := c.tenant, code := code, phase := .claiming id, later := later }

/-- The call is through with its job. -/
def finish (w : Cron) (th : ℕ) (c : Call) (value : Bool) : Cron :=
  { setCall w th c.next with
    log := ⟨c.entry, c.tenant, c.code, c.executed,
      if c.entry = .runNow then some value else none⟩ :: w.log }

/-! ### Steps -/

inductive Event where
  | registerJob (code : String)
  /-- A tick has read the schedule of a tenant. -/
  | tick (th : ℕ) (tenant : String) (now : ℤ) (due : List (ℤ × String))
  | runNow (th : ℕ) (tenant code : String)
  /-- The first look at the guard. -/
  | check (th : ℕ)
  /-- `runNow` looks its row up; `none` when there is none, or the query fails. -/
  | look (th : ℕ) (found : Option ℤ)
  | claim (th : ℕ)
  /-- The interval and the failures so far are read, if the database answers. -/
  | read (th : ℕ) (answers : Bool)
  | work (th : ℕ) (outcome : JobOutcome)
  /-- The outcome is written, if the database takes it. -/
  | record (th : ℕ) (now : ℤ) (stored : Bool)
  | release (th : ℕ)

/-- A row a tick may take up. -/
def isDue (rows : Table CronRow) (now : ℤ) (d : ℤ × String) : Bool :=
  match rows.get? d.1 with
  | some row => row.active && decide (row.nextRun ≤ now) && row.code == d.2
  | none => false

def checkOn (w : Cron) (th : ℕ) (c : Call) : Cron :=
  if c.guardKey ∈ w.running then finish w th c false
  else if !w.jobs c.code then finish w th c false
  else setCall w th (some { c with phase := .looking })

def lookOn (w : Cron) (th : ℕ) (c : Call) : Option ℤ → Option Cron
  | none => some (finish w th c false)
  | some id =>
      match (w.rows c.tenant).get? id with
      | some row =>
          if row.code = c.code then some (setCall w th (some { c with phase := .claiming id }))
          else none
      | none => none

/-- The overlap guard.  A caller that is turned away here is not told: `runNow`
answers `true` whatever `executeJob_` did. -/
def claimOn (w : Cron) (th : ℕ) (c : Call) (id : ℤ) : Cron :=
  if c.guardKey ∈ w.running then finish w th c true
  else if !w.jobs c.code then
    { finish w th c true with
      warnedMissing := if c.code ∈ w.warnedMissing then w.warnedMissing
        else c.code :: w.warnedMissing }
  else { setCall w th (some { c with phase := .reading id }) with running := c.guardKey :: w.running }

def readOn (w : Cron) (th : ℕ) (c : Call) (id : ℤ) (answers : Bool) : Cron :=
  match (w.rows c.tenant).get? id, answers with
  | some row, true =>
      setCall w th (some { c with phase := .working id row.intervalMinutes row.failureCount })
  | _, _ => setCall w th (some { c with phase := .working id 60 0 })

def recordRow (now intervalMinutes failures : ℤ) : JobOutcome → CronRow → CronRow
  | .completed => markSuccess now intervalMinutes
  | .failed error => markFailure now error (failures + 1)

def recordOn (w : Cron) (th : ℕ) (c : Call) (id intervalMinutes failures : ℤ)
    (outcome : JobOutcome) (now : ℤ) (stored : Bool) : Cron :=
  { setCall w th (some { c with phase := .releasing }) with
    rows := if stored then update w.rows c.tenant
        ((w.rows c.tenant).modify id (recordRow now intervalMinutes failures outcome))
      else w.rows }

def releaseOn (w : Cron) (th : ℕ) (c : Call) : Cron :=
  { finish w th c true with running := w.running.erase c.guardKey }

/-- One step of a call that is under way. -/
def stepCall (w : Cron) (th : ℕ) (c : Call) : Event → Option Cron
  | .check _ => if c.phase = .checking then some (checkOn w th c) else none
  | .look _ found => if c.phase = .looking then lookOn w th c found else none
  | .claim _ =>
      match c.phase with
      | .claiming id => some (claimOn w th c id)
      | _ => none
  | .read _ answers =>
      match c.phase with
      | .reading id => some (readOn w th c id answers)
      | _ => none
  | .work _ outcome =>
      match c.phase with
      | .working id intervalMinutes failures =>
          some (setCall w th (some { c with
            phase := .recording id intervalMinutes failures outcome, executed := true }))
      | _ => none
  | .record _ now stored =>
      match c.phase with
      | .recording id intervalMinutes failures outcome =>
          some (recordOn w th c id intervalMinutes failures outcome now stored)
      | _ => none
  | .release _ => if c.phase = .releasing then some (releaseOn w th c) else none
  | _ => none

/-- The call an event is a step of. -/
def Event.call : Event → ℕ
  | registerJob _ => 0
  | tick th _ _ _ | runNow th _ _ | check th | look th _ | claim th | read th _ | work th _
  | record th _ _ | release th => th

def step (w : Cron) (e : Event) : Option Cron :=
  match e, w.calls e.call with
  | .registerJob code, _ => some { w with jobs := update w.jobs code true }
  | .tick th tenant now due, none =>
      if due.all (isDue (w.rows tenant) now) then
        some (setCall w th (Call.next ⟨.tick, tenant, "", .releasing, false, due⟩))
      else none
  | .runNow th tenant code, none =>
      some (setCall w th (some ⟨.runNow, tenant, code, .checking, false, []⟩))
  | _, none => none
  | e, some c => stepCall w e.call c e

/-- The scheduler before its first tick. -/
def idle (jobs : String → Bool) (rows : String → Table CronRow) : Cron :=
  ⟨jobs, [], [], rows, fun _ => none, []⟩

/-! ### The guard -/

/-- The key a call holds while it is at work. -/
def heldKey : Option Call → Option String
  | some c => if c.phase.atWork then some c.guardKey else none
  | none => none

lemma heldKey_eq_some_iff {o : Option Call} {key : String} :
    heldKey o = some key ↔ ∃ c, o = some c ∧ c.phase.atWork = true ∧ c.guardKey = key := by
  rcases o with - | c
  · constructor
    · intro h
      cases h
    · rintro ⟨c, h, -⟩
      cases h
  · constructor
    · intro h
      by_cases hwork : c.phase.atWork = true
      · refine ⟨c, rfl, hwork, ?_⟩
        rw [heldKey, if_pos hwork] at h
        exact some.inj h
      · rw [heldKey, if_neg hwork] at h
        cases h
    · rintro ⟨c, ⟨⟩, hwork, rfl⟩
      exact if_pos hwork

/-- The guard tells which calls are at work. -/
def Guarded (w : Cron) : Prop := Exclusive w.running fun th => heldKey (w.calls th)

lemma heldKey_update (w : Cron) (th : ℕ) (o : Option Call) :
    (fun i => heldKey (update w.calls th o i)) =
      update (fun i => heldKey (w.calls i)) th (heldKey o) := by
  funext i
  by_cases hi : i = th
  · rw [hi, update_self, update_self]
  · rw [update_of_ne hi, update_of_ne hi]

/-- A call that goes on with the key it has, or with none. -/
lemma Guarded.setCall {w : Cron} (h : Guarded w) {th : ℕ} {o : Option Call}
    (hsame : heldKey o = heldKey (w.calls th)) : Guarded (setCall w th o) := by
  have hholds := heldKey_update w th o
  rw [hsame, update_eq_self] at hholds
  show Exclusive w.running fun i => heldKey (update w.calls th o i)
  rw [hholds]
  exact h

lemma heldKey_next (c : Call) : heldKey c.next = none := by
  unfold Call.next
  split
  · rfl
  · rfl

/-- A call that leaves before it has the guard. -/
lemma Guarded.finish {w : Cron} (h : Guarded w) {th : ℕ} {c : Call} (value : Bool)
    (hc : w.calls th = some c) (hidle : c.phase.atWork = false) : Guarded (finish w th c value) := by
  have hnone : heldKey (w.calls th) = none := by
    rw [hc, heldKey, hidle]
    rfl
  exact h.setCall ((heldKey_next c).trans hnone.symm)

lemma Guarded.claim {w : Cron} (h : Guarded w) {th : ℕ} {c : Call} {id : ℤ}
    (hc : w.calls th = some c) (hphase : c.phase = .claiming id) : Guarded (claimOn w th c id) := by
  have hidle : c.phase.atWork = false := by
    rw [hphase]
    rfl
  unfold claimOn
  split
  · exact h.finish true hc hidle
  · next hfree =>
      split
      · exact h.finish true hc hidle
      · have hnone : heldKey (w.calls th) = none := by
          rw [hc, heldKey, hidle]
          rfl
        show Exclusive (c.guardKey :: w.running) fun i => heldKey (update w.calls th _ i)
        rw [heldKey_update]
        exact Exclusive.take h hfree hnone

lemma Guarded.release {w : Cron} (h : Guarded w) {th : ℕ} {c : Call} (hc : w.calls th = some c)
    (hphase : c.phase = .releasing) : Guarded (releaseOn w th c) := by
  have hheld : heldKey (w.calls th) = some c.guardKey := by
    rw [hc, heldKey, hphase]
    rfl
  show Exclusive (w.running.erase c.guardKey) fun i => heldKey (update w.calls th _ i)
  rw [heldKey_update, heldKey_next]
  exact Exclusive.release h hheld

/-! ### What a step can be -/

/-- The steps there are, one case for each way a call can go on. -/
inductive Happens (w : Cron) : Event → Cron → Prop
  | registerJob {code} : Happens w (.registerJob code) { w with jobs := update w.jobs code true }
  | tick {th tenant now due} (idle : w.calls th = none) : Happens w (.tick th tenant now due)
        (setCall w th (Call.next ⟨.tick, tenant, "", .releasing, false, due⟩))
  | runNow {th tenant code} (idle : w.calls th = none) : Happens w (.runNow th tenant code)
        (setCall w th (some ⟨.runNow, tenant, code, .checking, false, []⟩))
  | check {th c} (busy : w.calls th = some c) (phase : c.phase = .checking) :
      Happens w (.check th) (checkOn w th c)
  | lost {th c} (busy : w.calls th = some c) (phase : c.phase = .looking) :
      Happens w (.look th none) (finish w th c false)
  | found {th c id} (busy : w.calls th = some c) (phase : c.phase = .looking) :
      Happens w (.look th (some id)) (setCall w th (some { c with phase := .claiming id }))
  | claim {th c id} (busy : w.calls th = some c) (phase : c.phase = .claiming id) :
      Happens w (.claim th) (claimOn w th c id)
  | read {th c id answers} (intervalMinutes failures : ℤ) (busy : w.calls th = some c)
      (phase : c.phase = .reading id) :
      Happens w (.read th answers)
        (setCall w th (some { c with phase := .working id intervalMinutes failures }))
  | work {th c id intervalMinutes failures outcome} (busy : w.calls th = some c)
      (phase : c.phase = .working id intervalMinutes failures) :
      Happens w (.work th outcome) (setCall w th (some { c with
        phase := .recording id intervalMinutes failures outcome, executed := true }))
  | record {th c id intervalMinutes failures outcome now stored} (busy : w.calls th = some c)
      (phase : c.phase = .recording id intervalMinutes failures outcome) :
      Happens w (.record th now stored)
        (recordOn w th c id intervalMinutes failures outcome now stored)
  | release {th c} (busy : w.calls th = some c) (phase : c.phase = .releasing) :
      Happens w (.release th) (releaseOn w th c)

lemma happens_of_stepCall {w w' : Cron} {e : Event} {c : Call} (hc : w.calls e.call = some c)
    (h : stepCall w e.call c e = some w') : Happens w e w' := by
  cases e with
  | registerJob code => cases h
  | tick th tenant now due => cases h
  | runNow th tenant code => cases h
  | check th =>
      obtain ⟨hphase, heq⟩ := ite_none_right_eq_some.mp h
      cases heq
      exact .check hc hphase
  | look th found =>
      obtain ⟨hphase, heq⟩ := ite_none_right_eq_some.mp h
      cases found with
      | none =>
          cases heq
          exact .lost hc hphase
      | some id =>
          simp only [lookOn] at heq
          split at heq
          · split at heq
            · cases heq
              exact .found hc hphase
            · cases heq
          · cases heq
  | claim th =>
      simp only [stepCall] at h
      split at h
      · next id hphase =>
          cases h
          exact .claim hc hphase
      · cases h
  | read th answers =>
      simp only [stepCall] at h
      split at h
      · next id hphase =>
          cases h
          unfold readOn
          split
          · exact .read _ _ hc hphase
          · exact .read _ _ hc hphase
      · cases h
  | work th outcome =>
      simp only [stepCall] at h
      split at h
      · next id intervalMinutes failures hphase =>
          cases h
          exact .work hc hphase
      · cases h
  | record th now stored =>
      simp only [stepCall] at h
      split at h
      · next id intervalMinutes failures outcome hphase =>
          cases h
          exact .record hc hphase
      · cases h
  | release th =>
      obtain ⟨hphase, heq⟩ := ite_none_right_eq_some.mp h
      cases heq
      exact .release hc hphase

lemma happens_of_step {w w' : Cron} {e : Event} (h : step w e = some w') : Happens w e w' := by
  unfold step at h
  split at h
  · cases h
    exact .registerJob
  · next hidle =>
      obtain ⟨-, heq⟩ := ite_none_right_eq_some.mp h
      cases heq
      exact .tick hidle
  · next hidle =>
      cases h
      exact .runNow hidle
  · cases h
  · next hc => exact happens_of_stepCall hc h

lemma Guarded.checkOn {w : Cron} (h : Guarded w) {th : ℕ} {c : Call} (hc : w.calls th = some c)
    (hphase : c.phase = .checking) : Guarded (checkOn w th c) := by
  have hidle : c.phase.atWork = false := by
    rw [hphase]
    rfl
  unfold IrCron.checkOn
  split
  · exact h.finish false hc hidle
  · split
    · exact h.finish false hc hidle
    · apply h.setCall
      rw [hc, heldKey, heldKey, hidle]
      rfl

/-- **The step of the guard.** -/
theorem Guarded.step {w w' : Cron} {e : Event} (h : Guarded w) (hstep : step w e = some w') :
    Guarded w' := by
  have hkeeps : ∀ {th c c'}, w.calls th = some c → c'.guardKey = c.guardKey →
      c'.phase.atWork = c.phase.atWork → Guarded (IrCron.setCall w th (some c')) := by
    intro th c c' hc hkey hwork
    apply h.setCall
    rw [hc, heldKey, heldKey, hkey, hwork]
  cases happens_of_step hstep with
  | registerJob => exact h
  | tick idle =>
      apply h.setCall
      rw [idle]
      exact heldKey_next _
  | runNow idle =>
      apply h.setCall
      rw [idle]
      rfl
  | check busy phase => exact h.checkOn busy phase
  | lost busy phase => exact h.finish false busy (by rw [phase]; rfl)
  | found busy phase => exact hkeeps busy rfl (by rw [phase]; rfl)
  | claim busy phase => exact h.claim busy phase
  | read intervalMinutes failures busy phase => exact hkeeps busy rfl (by rw [phase]; rfl)
  | work busy phase => exact hkeeps busy rfl (by rw [phase]; rfl)
  | @record th c id intervalMinutes failures outcome now stored busy phase =>
      exact @hkeeps th c { c with phase := .releasing } busy rfl (by rw [phase]; rfl)
  | release busy phase => exact h.release busy phase

/-! ### What `runNow` says -/

/-- A `runNow` that was answered `true` has run its job. -/
def TellsTruth (w : Cron) : Prop :=
  ∀ d ∈ w.log, d.entry = .runNow → d.returned = some true → d.executed = true

/-- A `runNow` that comes to the guard finds it free. -/
def ClaimsFree (w : Cron) (e : Event) : Prop :=
  ∀ th c id, e = .claim th → w.calls th = some c → c.entry = .runNow → c.phase = .claiming id →
    c.guardKey ∉ w.running

/-- What a call knows on its way: past its first look a `runNow` has a handler,
and a call has run the job when it is past it, not before. -/
structure Call.Sound (jobs : String → Bool) (c : Call) : Prop where
  single : c.entry = .runNow → c.later = []
  looking : c.entry = .runNow → c.phase = .looking → jobs c.code = true
  claiming : ∀ id, c.entry = .runNow → c.phase = .claiming id → jobs c.code = true
  fresh : c.phase.atWork = false → c.executed = false
  executed : c.phase = .releasing → c.executed = true
  recording : ∀ {id intervalMinutes failures outcome},
    c.phase = .recording id intervalMinutes failures outcome → c.executed = true

def AllSound (w : Cron) : Prop := ∀ th c, w.calls th = some c → c.Sound w.jobs

lemma AllSound.setCall {w : Cron} (h : AllSound w) {th : ℕ} {o : Option Call}
    (ho : ∀ c, o = some c → c.Sound w.jobs) : AllSound (setCall w th o) := by
  intro i c hc
  have hc : update w.calls th o i = some c := hc
  by_cases hi : i = th
  · rw [hi, update_self] at hc
    exact ho c hc
  · rw [update_of_ne hi] at hc
    exact h i c hc

/-- The next row of a tick is claimed unseen; a `runNow` has none. -/
lemma Call.next_sound {jobs : String → Bool} {c c' : Call}
    (hsingle : c.entry = .runNow → c.later = []) (h : c.next = some c') : c'.Sound jobs := by
  unfold Call.next at h
  split at h
  · cases h
  · next id code later hlater =>
      cases h
      have htick : c.entry ≠ .runNow := by
        intro hentry
        rw [hsingle hentry] at hlater
        cases hlater
      exact ⟨fun he => absurd he htick, fun he => absurd he htick, fun _ he => absurd he htick,
        fun _ => rfl, fun hp => (nomatch hp), fun hp => (nomatch hp)⟩

lemma AllSound.finish {w : Cron} (h : AllSound w) {th : ℕ} {c : Call} (value : Bool)
    (hc : w.calls th = some c) : AllSound (finish w th c value) :=
  h.setCall fun _ hnext => Call.next_sound (h th c hc).single hnext

/-- **The step of the calls.** -/
theorem AllSound.step {w w' : Cron} {e : Event} (h : AllSound w) (hstep : step w e = some w') :
    AllSound w' := by
  cases happens_of_step hstep with
  | @registerJob code =>
      intro th c hc
      have hsound := h th c hc
      have hmore : ∀ k, w.jobs k = true → update w.jobs code true k = true := by
        intro k hk
        by_cases hcode : k = code
        · rw [hcode, update_self]
        · rwa [update_of_ne hcode]
      exact ⟨hsound.single, fun he hp => hmore _ (hsound.looking he hp),
        fun id he hp => hmore _ (hsound.claiming id he hp), hsound.fresh, hsound.executed,
        hsound.recording⟩
  | tick idle =>
      apply h.setCall
      intro c hnext
      refine Call.next_sound ?_ hnext
      intro he
      cases he
  | runNow idle =>
      apply h.setCall
      rintro c ⟨⟩
      exact ⟨fun _ => rfl, fun _ hp => (nomatch hp), fun _ _ hp => (nomatch hp), fun _ => rfl,
        fun hp => (nomatch hp), fun hp => (nomatch hp)⟩
  | @check th c busy phase =>
      unfold checkOn
      split
      · exact h.finish false busy
      · split
        · exact h.finish false busy
        · next hjob =>
            apply h.setCall
            rintro c' ⟨⟩
            have hjob : w.jobs c.code = true := by simpa using hjob
            have hsound := h th c busy
            exact ⟨hsound.single, fun _ _ => hjob, fun _ _ hp => (nomatch hp),
              fun _ => hsound.fresh (by rw [phase]; rfl), fun hp => (nomatch hp),
              fun hp => (nomatch hp)⟩
  | lost busy phase => exact h.finish false busy
  | @found th c id busy phase =>
      apply h.setCall
      rintro c' ⟨⟩
      have hsound := h th c busy
      exact ⟨hsound.single, fun _ hp => (nomatch hp), fun _ he _ => hsound.looking he phase,
        fun _ => hsound.fresh (by rw [phase]; rfl), fun hp => (nomatch hp), fun hp => (nomatch hp)⟩
  | @claim th c id busy phase =>
      unfold claimOn
      split
      · exact h.finish true busy
      · split
        · exact h.finish true busy
        · refine @AllSound.setCall w h th _ ?_
          rintro c' ⟨⟩
          exact ⟨(h th c busy).single, fun _ hp => (nomatch hp), fun _ _ hp => (nomatch hp),
            fun hp => (nomatch hp), fun hp => (nomatch hp), fun hp => (nomatch hp)⟩
  | @read th c id answers intervalMinutes failures busy phase =>
      apply h.setCall
      rintro c' ⟨⟩
      exact ⟨(h th c busy).single, fun _ hp => (nomatch hp), fun _ _ hp => (nomatch hp),
        fun hp => (nomatch hp), fun hp => (nomatch hp), fun hp => (nomatch hp)⟩
  | @work th c id intervalMinutes failures outcome busy phase =>
      apply h.setCall
      rintro c' ⟨⟩
      exact ⟨(h th c busy).single, fun _ hp => (nomatch hp), fun _ _ hp => (nomatch hp),
        fun hp => (nomatch hp), fun hp => (nomatch hp), fun _ => rfl⟩
  | @record th c id intervalMinutes failures outcome now stored busy phase =>
      refine @AllSound.setCall w h th _ ?_
      rintro c' ⟨⟩
      have hsound := h th c busy
      exact ⟨hsound.single, fun _ hp => (nomatch hp), fun _ _ hp => (nomatch hp),
        fun hp => (nomatch hp), fun _ => hsound.recording phase, fun hp => (nomatch hp)⟩
  | release busy phase => exact h.finish true busy

lemma TellsTruth.finish {w : Cron} (h : TellsTruth w) (th : ℕ) {c : Call} {value : Bool}
    (hvalue : c.entry = .runNow → value = true → c.executed = true) :
    TellsTruth (finish w th c value) := by
  intro d hd hentry hreturned
  rcases mem_cons.mp hd with rfl | hold
  · have hentry : c.entry = .runNow := hentry
    have hreturned : (if c.entry = .runNow then some value else none) = some true := hreturned
    rw [if_pos hentry] at hreturned
    exact hvalue hentry (some.inj hreturned)
  · exact h d hold hentry hreturned

/-- **The step of what is told.**  `runNow` keeps to the truth as long as it
finds the guard free, and then only. -/
theorem TellsTruth.step_iff {w w' : Cron} {e : Event} (h : TellsTruth w) (hsound : AllSound w)
    (hstep : step w e = some w') : TellsTruth w' ↔ ClaimsFree w e := by
  have hother : (∀ th, e ≠ .claim th) → ClaimsFree w e :=
    fun hne th c id heq => absurd heq (hne th)
  cases happens_of_step hstep with
  | registerJob => exact iff_of_true h (hother fun th heq => nomatch heq)
  | tick idle => exact iff_of_true h (hother fun th heq => nomatch heq)
  | runNow idle => exact iff_of_true h (hother fun th heq => nomatch heq)
  | check busy phase =>
      refine iff_of_true ?_ (hother fun th heq => nomatch heq)
      unfold checkOn
      split
      · exact h.finish _ fun _ hvalue => nomatch hvalue
      · split
        · exact h.finish _ fun _ hvalue => nomatch hvalue
        · exact h
  | lost busy phase =>
      exact iff_of_true (h.finish _ fun _ hvalue => nomatch hvalue) (hother fun th heq => nomatch heq)
  | found busy phase => exact iff_of_true h (hother fun th heq => nomatch heq)
  | @claim th c id busy phase =>
      unfold claimOn
      split
      · next htaken =>
          rcases hentry : c.entry with - | -
          · -- a tick is told nothing
            refine iff_of_true (h.finish th fun he => ?_) ?_
            · rw [hentry] at he
              cases he
            · rintro th' c' id' ⟨⟩ hc' he
              rw [busy] at hc'
              cases hc'
              rw [hentry] at he
              cases he
          · refine iff_of_false ?_ ?_
            · intro htruth
              have hran := htruth _ mem_cons_self hentry (if_pos hentry)
              have hfresh := (hsound th c busy).fresh (by rw [phase]; rfl)
              rw [show c.executed = true from hran] at hfresh
              cases hfresh
            · intro hfree
              exact hfree th c id rfl busy hentry phase htaken
      · next hfree =>
          have hclaims : ClaimsFree w (.claim th) := by
            rintro th' c' id' ⟨⟩ hc' - -
            rw [busy] at hc'
            cases hc'
            exact hfree
          split
          · next hjob =>
              refine iff_of_true (@TellsTruth.finish w h th c true fun he => ?_) hclaims
              rw [(hsound th c busy).claiming id he phase] at hjob
              cases hjob
          · exact iff_of_true h hclaims
  | read intervalMinutes failures busy phase => exact iff_of_true h (hother fun th heq => nomatch heq)
  | work busy phase => exact iff_of_true h (hother fun th heq => nomatch heq)
  | record busy phase => exact iff_of_true h (hother fun th heq => nomatch heq)
  | @release th c busy phase =>
      refine iff_of_true ?_ (hother fun th heq => nomatch heq)
      exact h.finish th fun _ _ => (hsound th c busy).executed phase

/-! ### Runs -/

/-- Any step. -/
def Anyhow (_ : Cron) (_ : Event) : Prop := True

instance (w : Cron) (e : Event) : Decidable (Anyhow w e) := .isTrue trivial

lemma guarded_of_reaches {jobs : String → Bool} {rows : String → Table CronRow} {w : Cron}
    (h : Reaches step Anyhow (idle jobs rows) w) : Guarded w ∧ AllSound w := by
  refine @Reaches.invariant _ _ _ _ (fun w => Guarded w ∧ AllSound w) _ _ h ?_ ?_
  · rintro w e w' ⟨hguard, hsound⟩ - hstep
    exact ⟨hguard.step hstep, hsound.step hstep⟩
  · refine ⟨Exclusive.empty, ?_⟩
    intro th c hc
    cases hc

/-- A call at work can go on, whatever becomes of its job. -/
lemma step_of_atWork {w : Cron} {th : ℕ} {c : Call} (hc : w.calls th = some c)
    (hwork : c.phase.atWork = true) (outcome : JobOutcome) (now : ℤ) (answers : Bool) :
    ∃ e ∈ [Event.read th answers, .work th outcome, .record th now answers, .release th],
      (step w e).isSome = true := by
  rcases hphase : c.phase with - | - | id | id | ⟨id, interval, failures⟩ |
    ⟨id, interval, failures, result⟩ | -
  · rw [hphase] at hwork
    cases hwork
  · rw [hphase] at hwork
    cases hwork
  · rw [hphase] at hwork
    cases hwork
  · refine ⟨.read th answers, by simp, ?_⟩
    simp [step, Event.call, hc, stepCall, hphase]
  · refine ⟨.work th outcome, by simp, ?_⟩
    simp [step, Event.call, hc, stepCall, hphase]
  · refine ⟨.record th now answers, by simp, ?_⟩
    simp [step, Event.call, hc, stepCall, hphase]
  · refine ⟨.release th, by simp, ?_⟩
    simp [step, Event.call, hc, stepCall, hphase]

/-- What was told once stays told. -/
lemma log_suffix {w w' : Cron} {e : Event} (h : step w e = some w') : w.log <:+ w'.log := by
  have hfinish : ∀ {th c value}, w.log <:+ (finish w th c value).log := suffix_cons _ _
  cases happens_of_step h with
  | registerJob => exact suffix_rfl
  | tick idle => exact suffix_rfl
  | runNow idle => exact suffix_rfl
  | check busy phase =>
      unfold checkOn
      split
      · exact hfinish
      · split
        · exact hfinish
        · exact suffix_rfl
  | lost busy phase => exact hfinish
  | found busy phase => exact suffix_rfl
  | claim busy phase =>
      unfold claimOn
      split
      · exact hfinish
      · split
        · exact suffix_cons _ _
        · exact suffix_rfl
  | read intervalMinutes failures busy phase => exact suffix_rfl
  | work busy phase => exact suffix_rfl
  | record busy phase => exact suffix_rfl
  | release busy phase => exact suffix_cons _ _

lemma TellsTruth.of_suffix {w w' : Cron} (h : TellsTruth w') (hlog : w.log <:+ w'.log) :
    TellsTruth w := fun d hd => h d (hlog.subset hd)

/-- **The guard.**  In every state of every run at most one call is at work on a
job of a tenant, a guard is taken only while a call is at work under it, a call
at work can always go on, and when it is done its guard is free.  `runNow` tells
the truth in every run in which it finds the guard free when it comes to it; once
it does not, the truth is lost. -/
theorem cron_guarded (jobs : String → Bool) (rows : String → Table CronRow) :
    (∀ w, Reaches step Anyhow (idle jobs rows) w →
      (∀ th th' c c', w.calls th = some c → w.calls th' = some c' → c.phase.atWork = true →
        c'.phase.atWork = true → c.tenant = c'.tenant → c.code = c'.code → th = th') ∧
      (∀ key, key ∈ w.running ↔
        ∃ th c, w.calls th = some c ∧ c.phase.atWork = true ∧ c.guardKey = key) ∧
      (∀ th c, w.calls th = some c → c.phase.atWork = true → ∀ outcome now answers,
        ∃ e ∈ [Event.read th answers, .work th outcome, .record th now answers, .release th],
          (step w e).isSome = true) ∧
      ∀ th c w', w.calls th = some c → step w (.release th) = some w' → c.guardKey ∉ w'.running) ∧
    (∀ w, Reaches step ClaimsFree (idle jobs rows) w → TellsTruth w) ∧
    ∀ w, Reaches step Anyhow (idle jobs rows) w → ∀ e w', step w e = some w' → ¬ ClaimsFree w e →
      ∀ w'', Reaches step Anyhow w' w'' → ¬ TellsTruth w'' := by
  refine ⟨?_, ?_, ?_⟩
  · intro w hw
    obtain ⟨hguard, -⟩ := guarded_of_reaches hw
    refine ⟨?_, ?_, ?_, ?_⟩
    · intro th th' c c' hc hc' hwork hwork' htenant hcode
      have hkey : c'.guardKey = c.guardKey := by rw [Call.guardKey, Call.guardKey, htenant, hcode]
      refine @Exclusive.alone _ _ _ _ hguard _ _ c.guardKey ?_ ?_
      · exact heldKey_eq_some_iff.mpr ⟨c, hc, hwork, rfl⟩
      · exact heldKey_eq_some_iff.mpr ⟨c', hc', hwork', hkey⟩
    · intro key
      rw [hguard.taken_iff]
      exact exists_congr fun th => heldKey_eq_some_iff
    · intro th c hc hwork outcome now answers
      exact step_of_atWork hc hwork outcome now answers
    · intro th c w' hc hrelease
      cases happens_of_step hrelease with
      | release busy phase =>
          rw [hc] at busy
          cases busy
          exact hguard.free_of_release c.guardKey
  · intro w hw
    have hall : (Guarded w ∧ AllSound w) ∧ TellsTruth w := by
      refine @Reaches.invariant _ _ _ _ (fun w => (Guarded w ∧ AllSound w) ∧ TellsTruth w) _ _ hw
        ?_ ?_
      · rintro w e w' ⟨⟨hguard, hsound⟩, htruth⟩ hfree hstep
        exact ⟨⟨hguard.step hstep, hsound.step hstep⟩, (htruth.step_iff hsound hstep).mpr hfree⟩
      · refine ⟨guarded_of_reaches Relation.ReflTransGen.refl, ?_⟩
        intro d hd
        cases hd
    exact hall.2
  · intro w hw e w' hstep hbusy w'' hlater htruth
    have hlog : w'.log <:+ w''.log := by
      refine @Reaches.invariant _ _ _ _ (fun w'' => w'.log <:+ w''.log) _ _ hlater ?_ ?_
      · intro v e v' hv _ hv'
        exact hv.trans (log_suffix hv')
      · exact suffix_rfl
    have htruth' := htruth.of_suffix hlog
    have hbefore := htruth'.of_suffix (log_suffix hstep)
    exact hbusy ((hbefore.step_iff (guarded_of_reaches hw).2 hstep).mp htruth')

/-- One job of one tenant. -/
def billing : String → Table CronRow := fun _ =>
  Table.empty.insert { code := "rental.billing", active := true, intervalMinutes := 60, nextRun := 0 }

def billingJobs : String → Bool := fun code => code == "rental.billing"

/-- A tick runs the job, and `runNow` runs it again. -/
def billedTwice : List Event :=
  [.tick 0 "erp" 5 [(1, "rental.billing")], .claim 0, .read 0 true, .work 0 .completed,
    .record 0 6 true, .release 0, .runNow 1 "erp" "rental.billing", .check 1, .look 1 (some 1),
    .claim 1, .read 1 true, .work 1 (.failed "no journal"), .record 1 7 false, .release 1]

theorem cron_guarded_billedTwice : ∃ w, execute step Anyhow billedTwice (idle billingJobs billing) =
    some w ∧ ∀ key, key ∈ w.running ↔
      ∃ th c, w.calls th = some c ∧ c.phase.atWork = true ∧ c.guardKey = key := by
  refine ⟨_, rfl, ?_⟩
  obtain ⟨hall, -, -⟩ := cron_guarded billingJobs billing
  exact (hall _ (@reaches_of_execute _ _ step Anyhow _ billedTwice _ _ rfl)).2.1

/-- Two calls of `runNow` at once: both look before either takes the guard. -/
def runTwice : List Event :=
  [.runNow 0 "erp" "rental.billing", .runNow 1 "erp" "rental.billing", .check 0, .check 1,
    .look 0 (some 1), .look 1 (some 1), .claim 0, .claim 1]

/-- The second call is told `true` and has run nothing. -/
theorem runNow_true_unexecuted : ¬ ∀ (jobs : String → Bool) (rows : String → Table CronRow) (w : Cron),
    Reaches step Anyhow (idle jobs rows) w → TellsTruth w := by
  intro h
  have htruth := h billingJobs billing _ (@reaches_of_execute _ _ step Anyhow _ runTwice _ _ rfl)
  have hran := htruth ⟨.runNow, "erp", "rental.billing", false, some true⟩ mem_cons_self rfl rfl
  cases hran

end IrCron

end CErp
