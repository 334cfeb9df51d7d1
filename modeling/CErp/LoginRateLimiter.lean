/-
The limiter of failed logins, under requests that are handled at the same time.

`allow` looks at the entry of an address, the password is verified, and only then
`recordFailure` or `recordSuccess` writes the outcome down.  Each of the three is one
step, and steps of different requests come in any order.  `Address` has, of the
requests of one address, how many stand before each step, and when a verification
failed since the last success.

The entry counts from the moment it starts, and a request that was let in is not
counted until it is recorded.  As long as a request is let in only where there is room
for all that are on their way, and an entry starts again only when no failure it counts
is recent (`Heeds`), the entry and the requests on their way account for every recent
failure (`Accounted`) and no window has too many (`logins_bounded`).  Dropping an entry
of two windows ago forgets nothing (`Accounted.swept`).  The clock ticks in nanoseconds.
-/
import CErp.Runs
import CErp.SlidingWindow

namespace CErp

open SlidingWindow Function Runs List

/-! ### The limiter -/

namespace LoginRateLimiter

def kMaxAttempts : ℕ := 10

def kWindowSeconds : ℤ := 300

/-- `kWindowSeconds` in ticks. -/
def windowTicks : ℤ := kWindowSeconds * 1000000000

structure Entry where
  windowStart : ℤ
  count : ℕ := 0
deriving DecidableEq

def Entry.expired (e : Entry) (now : ℤ) : Bool := decide (now - e.windowStart ≥ windowTicks)

/-- The entry a clock reading leaves: an expired one starts again. -/
def Entry.renewed (e : Entry) (now : ℤ) : Entry := if e.expired now then ⟨now, 0⟩ else e

end LoginRateLimiter

structure LoginRateLimiter where
  table_ : String → Option LoginRateLimiter.Entry := fun _ => none
  lastPrune_ : ℤ

namespace LoginRateLimiter

def put (l : LoginRateLimiter) (ip : String) (e : Option Entry) : LoginRateLimiter :=
  { l with table_ := update l.table_ ip e }

/-- `table_[ip]`: a new entry starts when it is made. -/
def entry (l : LoginRateLimiter) (ip : String) (born : ℤ) : Entry := (l.table_ ip).getD ⟨born, 0⟩

def prune_ (l : LoginRateLimiter) (now : ℤ) : LoginRateLimiter :=
  { l with
    table_ := fun ip =>
      (l.table_ ip).filter fun e => !decide (now - e.windowStart > windowTicks * 2) }

/-- The limiter, pruned when a window has gone by since it last was. -/
def swept (l : LoginRateLimiter) (now : ℤ) : LoginRateLimiter :=
  if now - l.lastPrune_ ≥ windowTicks then { l.prune_ now with lastPrune_ := now } else l

def allow (l : LoginRateLimiter) (ip : String) (now born : ℤ) : Bool × LoginRateLimiter :=
  let l' := l.swept now
  let e := l'.entry ip born
  if e.count ≥ kMaxAttempts ∧ e.expired now = false then (false, l'.put ip e)
  else (true, l'.put ip (e.renewed now))

def recordFailure (l : LoginRateLimiter) (ip : String) (now born : ℤ) : LoginRateLimiter :=
  let e := (l.entry ip born).renewed now
  l.put ip (some { e with count := e.count + 1 })

def recordSuccess (l : LoginRateLimiter) (ip : String) : LoginRateLimiter := l.put ip none

end LoginRateLimiter

open LoginRateLimiter

/-! ### Requests on their way -/

/-- The requests of an address: how many were let in, how many of those have failed
and how many have succeeded without that being recorded, and when one failed since a
success was last recorded. -/
structure Address where
  letIn : ℕ := 0
  failing : ℕ := 0
  entering : ℕ := 0
  failed : List ℤ := []
deriving DecidableEq

structure LoginDesk where
  limiter : LoginRateLimiter
  addresses : String → Address := fun _ => {}
  clock : ℤ

/-- One step of a request, with what the clock says: `born` is when an entry is made. -/
inductive LoginStep where
  | allow (ip : String) (now born : ℤ)
  | verify (ip : String) (now : ℤ) (ok : Bool)
  | recordFailure (ip : String) (now born : ℤ)
  | recordSuccess (ip : String) (now : ℤ)
  -- let in, and answered before the password is looked at
  | turnAway (ip : String) (now : ℤ)
deriving DecidableEq

def LoginDesk.put (d : LoginDesk) (ip : String) (a : Address) : String → Address :=
  update d.addresses ip a

def deskStep (d : LoginDesk) : LoginStep → Option LoginDesk
  | .allow ip now born =>
      let a := d.addresses ip
      let answer := d.limiter.allow ip now born
      if d.clock ≤ now ∧ now ≤ born then
        some ⟨answer.2, d.put ip (if answer.1 then { a with letIn := a.letIn + 1 } else a), born⟩
      else none
  | .verify ip now ok =>
      let a := d.addresses ip
      if d.clock ≤ now ∧ 0 < a.letIn then
        let verified :=
          if ok then { a with letIn := a.letIn - 1, entering := a.entering + 1 }
          else { a with letIn := a.letIn - 1, failing := a.failing + 1, failed := now :: a.failed }
        some ⟨d.limiter, d.put ip verified, now⟩
      else none
  | .recordFailure ip now born =>
      let a := d.addresses ip
      if d.clock ≤ now ∧ now ≤ born ∧ 0 < a.failing then
        some ⟨d.limiter.recordFailure ip now born, d.put ip { a with failing := a.failing - 1 }, born⟩
      else none
  | .recordSuccess ip now =>
      let a := d.addresses ip
      if d.clock ≤ now ∧ 0 < a.entering then
        some ⟨d.limiter.recordSuccess ip,
          d.put ip { a with entering := a.entering - 1, failed := [] }, now⟩
      else none
  | .turnAway ip now =>
      let a := d.addresses ip
      if d.clock ≤ now ∧ 0 < a.letIn then
        some ⟨d.limiter, d.put ip { a with letIn := a.letIn - 1 }, now⟩
      else none

/-- No address has more than `kMaxAttempts` failed verifications within a window. -/
def LoginDesk.Bounded (d : LoginDesk) : Prop :=
  ∀ ip start, within windowTicks start (d.addresses ip).failed ≤ kMaxAttempts

/-- The recent failures of an address are all still to be recorded. -/
def Address.NoneCounted (a : Address) (now : ℤ) : Prop := recent windowTicks now a.failed ≤ a.failing

instance (a : Address) (now : ℤ) : Decidable (a.NoneCounted now) :=
  inferInstanceAs (Decidable (_ ≤ _))

/-- A request is let in only where there is room for it beside all on their way, and an
entry starts again only when no recent failure is among those it counted. -/
def Heeds (d : LoginDesk) : LoginStep → Prop
  | .allow ip now born =>
      let a := d.addresses ip
      let e := (d.limiter.swept now).entry ip born
      (d.limiter.allow ip now born).1 = true →
        (e.renewed now).count + a.letIn + a.failing < kMaxAttempts ∧
          (e.expired now = true → a.NoneCounted now)
  | .recordFailure ip now born =>
      (d.limiter.entry ip born).expired now = true → (d.addresses ip).NoneCounted now
  | _ => True

instance (d : LoginDesk) : (e : LoginStep) → Decidable (Heeds d e)
  | .allow _ _ _ => inferInstanceAs (Decidable (_ → _ ∧ (_ → _)))
  | .recordFailure _ _ _ => inferInstanceAs (Decidable (_ → _))
  | .verify _ _ _ => inferInstanceAs (Decidable True)
  | .recordSuccess _ _ => inferInstanceAs (Decidable True)
  | .turnAway _ _ => inferInstanceAs (Decidable True)

/-! ### What is accounted for -/

@[simp] lemma LoginDesk.put_self (d : LoginDesk) (ip : String) (a : Address) :
    d.put ip a ip = a := update_self ..

lemma LoginDesk.put_of_ne (d : LoginDesk) {ip other : String} (a : Address) (h : other ≠ ip) :
    d.put ip a other = d.addresses other := update_of_ne h ..

namespace LoginRateLimiter

@[simp] lemma put_self (l : LoginRateLimiter) (ip : String) (e : Option Entry) :
    (l.put ip e).table_ ip = e := update_self ..

lemma put_of_ne (l : LoginRateLimiter) {ip other : String} (e : Option Entry)
    (h : other ≠ ip) : (l.put ip e).table_ other = l.table_ other := update_of_ne h ..

lemma windowTicks_pos : 0 < windowTicks := by decide

lemma Entry.renewed_of_expired {e : Entry} {now : ℤ} (h : e.expired now = true) :
    e.renewed now = ⟨now, 0⟩ := if_pos h

lemma Entry.renewed_of_live {e : Entry} {now : ℤ} (h : ¬ e.expired now = true) :
    e.renewed now = e := if_neg h

end LoginRateLimiter

/-- The failures of an address against its entry: the recent ones are counted or still
to be recorded, the requests on their way fit in, and a failure later than the window
of the entry is still to be recorded. -/
structure Accounted (clock : ℤ) (a : Address) (o : Option Entry) : Prop where
  past : ∀ t ∈ a.failed, t ≤ clock
  recent : recent windowTicks clock a.failed ≤ o.elim 0 Entry.count + a.failing
  room : o.elim 0 Entry.count + a.letIn + a.failing ≤ kMaxAttempts
  late : ∀ e ∈ o, a.failed.countP (fun t => decide (e.windowStart + windowTicks ≤ t)) ≤ a.failing
  bounded : ∀ start, within windowTicks start a.failed ≤ kMaxAttempts

namespace Accounted

variable {clock now born : ℤ} {a : Address} {e : Entry} {o : Option Entry}

lemma later (h : Accounted clock a o) (hle : clock ≤ now) : Accounted now a o where
  past t ht := (h.past t ht).trans hle
  recent := (recent_le_of_le hle).trans h.recent
  room := h.room
  late := h.late
  bounded := h.bounded

/-- No failure is later than a window that starts now. -/
lemma none_late (h : Accounted clock a o) (hle : clock ≤ now) :
    a.failed.countP (fun t => decide (now + windowTicks ≤ t)) = 0 := by
  rw [countP_eq_zero]
  intro t ht hlate
  have hpast := h.past t ht
  have hwindow := windowTicks_pos
  have hge : now + windowTicks ≤ t := of_decide_eq_true hlate
  omega

/-- An entry that is dropped or starts again, where it counts no recent failure. -/
lemma forget (h : Accounted now a o) (hnone : a.NoneCounted now) : Accounted now a none where
  past := h.past
  recent := le_trans hnone (Nat.le_add_left _ _)
  room := by
    have hroom := h.room
    show 0 + a.letIn + a.failing ≤ kMaxAttempts
    omega
  late := by
    intro e he
    cases he
  bounded := h.bounded

/-- An entry that has just started counts nothing. -/
lemma start (h : Accounted clock a none) (hle : clock ≤ born) :
    Accounted clock a (some ⟨born, 0⟩) where
  past := h.past
  recent := h.recent
  room := h.room
  late := by
    intro e he
    cases he
    rw [h.none_late hle]
    exact Nat.zero_le _
  bounded := h.bounded

lemma getD (h : Accounted clock a o) (hle : clock ≤ born) :
    Accounted clock a (some (o.getD ⟨born, 0⟩)) := by
  cases o with
  | some e => exact h
  | none => exact h.start hle

lemma renewed (h : Accounted now a (some e)) (hnone : e.expired now = true → a.NoneCounted now) :
    Accounted now a (some (e.renewed now)) := by
  by_cases hexpired : e.expired now = true
  · rw [Entry.renewed_of_expired hexpired]
    exact (h.forget (hnone hexpired)).start le_rfl
  · rw [Entry.renewed_of_live hexpired]
    exact h

/-- A failure that is recent two windows after the start of the entry is later than
its window. -/
lemma noneCounted_of_old (h : Accounted now a (some e))
    (hold : now - e.windowStart > windowTicks * 2) : a.NoneCounted now := by
  refine le_trans ?_ (h.late e rfl)
  apply countP_mono_left
  intro t _ ht
  have hrecent : now - t < windowTicks := of_decide_eq_true ht
  exact decide_eq_true (by omega)

end Accounted

namespace Accounted

variable {clock now born : ℤ} {ip : String} {a a' : Address} {l : LoginRateLimiter}
variable {o : Option Entry} {e : Entry}

lemma swept (h : Accounted now a (l.table_ ip)) : Accounted now a ((l.swept now).table_ ip) := by
  unfold LoginRateLimiter.swept
  split
  · show Accounted now a ((l.table_ ip).filter _)
    rcases hentry : l.table_ ip with - | e
    · rw [hentry] at h
      exact h
    rw [hentry] at h
    rw [Option.filter_some]
    split
    · exact h
    · next hdropped =>
        have hold : now - e.windowStart > windowTicks * 2 := by
          by_contra hyoung
          exact hdropped (by rw [decide_eq_false hyoung]; rfl)
        exact h.forget (h.noneCounted_of_old hold)
  · exact h

/-- One request more on its way. -/
lemma grant (h : Accounted now a (some e)) (hroom : e.count + a.letIn + a.failing < kMaxAttempts) :
    Accounted now { a with letIn := a.letIn + 1 } (some e) where
  past := h.past
  recent := h.recent
  room := by
    show e.count + (a.letIn + 1) + a.failing ≤ kMaxAttempts
    omega
  late := h.late
  bounded := h.bounded

/-- One request less on its way, whatever comes of it short of a failure. -/
lemma release (h : Accounted now a o) (hle : a'.letIn ≤ a.letIn) (hfailing : a'.failing = a.failing)
    (hfailed : a'.failed = a.failed) : Accounted now a' o where
  past := hfailed ▸ h.past
  recent := hfailed ▸ hfailing ▸ h.recent
  room := by
    have hroom := h.room
    omega
  late := hfailed ▸ hfailing ▸ h.late
  bounded := hfailed ▸ h.bounded

/-- One of the requests on their way fails. -/
lemma fail (h : Accounted now a o) (hin : 0 < a.letIn) : Accounted now { a with
      letIn := a.letIn - 1, failing := a.failing + 1, failed := now :: a.failed } o := by
  have hroom := h.room
  have hrecent : SlidingWindow.recent windowTicks now (now :: a.failed) ≤
      o.elim 0 Entry.count + a.failing + 1 := by
    rw [recent_cons_self windowTicks_pos]
    exact Nat.succ_le_succ h.recent
  constructor
  · intro t ht
    rcases mem_cons.mp ht with rfl | hold
    · exact le_rfl
    · exact h.past t hold
  · exact hrecent
  · show _ + (a.letIn - 1) + (a.failing + 1) ≤ _
    omega
  · intro e he
    show countP _ (now :: a.failed) ≤ a.failing + 1
    rw [countP_cons]
    have hlate := h.late e he
    split <;> omega
  · exact within_cons_le h.bounded (hrecent.trans (by omega))

/-- A failure is recorded in an entry whose window is open. -/
lemma record (h : Accounted now a (some e)) (hlive : now < e.windowStart + windowTicks)
    (hfailing : 0 < a.failing) :
    Accounted now { a with failing := a.failing - 1 } (some { e with count := e.count + 1 }) where
  past := h.past
  recent := by
    have hrecent : SlidingWindow.recent windowTicks now a.failed ≤ e.count + a.failing := h.recent
    show SlidingWindow.recent windowTicks now a.failed ≤ e.count + 1 + (a.failing - 1)
    omega
  room := by
    have hroom : e.count + a.letIn + a.failing ≤ kMaxAttempts := h.room
    show e.count + 1 + a.letIn + (a.failing - 1) ≤ kMaxAttempts
    omega
  late := by
    intro e' he'
    cases he'
    -- every failure so far is within the window
    have hnone : a.failed.countP (fun t => decide (e.windowStart + windowTicks ≤ t)) = 0 := by
      rw [countP_eq_zero]
      intro t ht hlate
      have hpast := h.past t ht
      have hge : e.windowStart + windowTicks ≤ t := of_decide_eq_true hlate
      omega
    show countP _ a.failed ≤ a.failing - 1
    rw [hnone]
    exact Nat.zero_le _
  bounded := h.bounded

/-- Nothing has failed since a success. -/
lemma success (h : Accounted now a o) :
    Accounted now { a with entering := a.entering - 1, failed := [] } none where
  past := by
    intro t ht
    cases ht
  recent := Nat.zero_le _
  room := by
    have hroom := h.room
    show 0 + a.letIn + a.failing ≤ kMaxAttempts
    omega
  late := by
    intro e he
    cases he
  bounded _ := Nat.zero_le _

end Accounted

lemma LoginRateLimiter.Entry.renewed_live (e : Entry) (now : ℤ) :
    now < (e.renewed now).windowStart + windowTicks := by
  have hwindow := windowTicks_pos
  unfold renewed
  split
  · show now < now + windowTicks
    omega
  · next hlive =>
      have hopen : ¬ now - e.windowStart ≥ windowTicks := fun h => hlive (decide_eq_true h)
      omega

/-! ### One step -/

/-- Every address is accounted for. -/
def LoginDesk.Accounted (d : LoginDesk) : Prop :=
  ∀ ip, CErp.Accounted d.clock (d.addresses ip) (d.limiter.table_ ip)

/-- A step keeps an address accounted for, and what it leaves of the others. -/
lemma LoginDesk.accounted_put {d : LoginDesk} {l : LoginRateLimiter} {ip : String} {a : Address}
    {o : Option Entry} {now : ℤ} (hself : CErp.Accounted now a o)
    (hothers : ∀ other, other ≠ ip → CErp.Accounted now (d.addresses other) (l.table_ other)) :
    LoginDesk.Accounted ⟨l.put ip o, d.put ip a, now⟩ := by
  intro other
  show CErp.Accounted now (d.put ip a other) ((l.put ip o).table_ other)
  by_cases hip : other = ip
  · subst hip
    rw [LoginDesk.put_self, LoginRateLimiter.put_self]
    exact hself
  · rw [LoginDesk.put_of_ne _ _ hip, LoginRateLimiter.put_of_ne _ _ hip]
    exact hothers other hip

/-- The same for a step that leaves the limiter alone. -/
lemma LoginDesk.Accounted.put {d : LoginDesk} (h : d.Accounted) {ip : String} {a : Address}
    {now : ℤ} (hle : d.clock ≤ now) (hself : CErp.Accounted now a (d.limiter.table_ ip)) :
    LoginDesk.Accounted ⟨d.limiter, d.put ip a, now⟩ := by
  intro other
  show CErp.Accounted now (d.put ip a other) (d.limiter.table_ other)
  by_cases hip : other = ip
  · subst hip
    rw [LoginDesk.put_self]
    exact hself
  · rw [LoginDesk.put_of_ne _ _ hip]
    exact (h other).later hle

lemma deskStep_allow {d d' : LoginDesk} {ip : String} {now born : ℤ} (h : d.Accounted)
    (hheeds : Heeds d (.allow ip now born)) (hs : deskStep d (.allow ip now born) = some d') :
    d'.Accounted := by
  dsimp only [deskStep] at hs
  split at hs
  · next hclock =>
      cases hs
      obtain ⟨hasked, hborn⟩ := hclock
      have hswept : ∀ other, CErp.Accounted now (d.addresses other)
          ((d.limiter.swept now).table_ other) := fun other => ((h other).later hasked).swept
      have hentry : CErp.Accounted now (d.addresses ip)
          (some ((d.limiter.swept now).entry ip born)) := (hswept ip).getD hborn
      rcases hallow : d.limiter.allow ip now born with ⟨granted, l'⟩
      have hgranted : granted = true → _ := fun hg => hheeds (by rw [hallow]; exact hg)
      unfold LoginRateLimiter.allow at hallow
      dsimp only at hallow hgranted
      split at hallow
      · -- refused: the entry stays
        cases hallow
        exact LoginDesk.accounted_put (hentry.later hborn) fun other _ => (hswept other).later hborn
      · cases hallow
        obtain ⟨hroom, hnone⟩ := hgranted rfl
        exact LoginDesk.accounted_put (((hentry.renewed hnone).grant hroom).later hborn)
          fun other _ => (hswept other).later hborn
  · cases hs

lemma deskStep_recordFailure {d d' : LoginDesk} {ip : String} {now born : ℤ} (h : d.Accounted)
    (hheeds : Heeds d (.recordFailure ip now born))
    (hs : deskStep d (.recordFailure ip now born) = some d') : d'.Accounted := by
  dsimp only [deskStep] at hs
  split at hs
  · next hclock =>
      cases hs
      obtain ⟨hasked, hborn, hfailing⟩ := hclock
      have hentry : CErp.Accounted now (d.addresses ip) (some (d.limiter.entry ip born)) :=
        ((h ip).later hasked).getD hborn
      have hrecorded := (hentry.renewed hheeds).record (Entry.renewed_live _ _) hfailing
      exact LoginDesk.accounted_put (hrecorded.later hborn)
        fun other _ => (h other).later (hasked.trans hborn)
  · cases hs

/-- **One step of one request.** -/
theorem deskStep_accounted {d d' : LoginDesk} {e : LoginStep} (h : d.Accounted) (hheeds : Heeds d e)
    (hs : deskStep d e = some d') : d'.Accounted := by
  cases e with
  | allow ip now born => exact deskStep_allow h hheeds hs
  | verify ip now ok =>
      dsimp only [deskStep] at hs
      split at hs
      · next hclock =>
          cases hs
          have hnow := (h ip).later hclock.1
          cases ok with
          | true => exact h.put hclock.1 (hnow.release (Nat.sub_le _ _) rfl rfl)
          | false => exact h.put hclock.1 (hnow.fail hclock.2)
      · cases hs
  | recordFailure ip now born => exact deskStep_recordFailure h hheeds hs
  | recordSuccess ip now =>
      dsimp only [deskStep] at hs
      split at hs
      · next hclock =>
          cases hs
          exact LoginDesk.accounted_put ((h ip).later hclock.1).success
            fun other _ => (h other).later hclock.1
      · cases hs
  | turnAway ip now =>
      dsimp only [deskStep] at hs
      split at hs
      · next hclock =>
          cases hs
          exact h.put hclock.1 (((h ip).later hclock.1).release (Nat.sub_le _ _) rfl rfl)
      · cases hs

/-! ### Runs -/

/-- The server has just started. -/
def LoginDesk.started (clock : ℤ) : LoginDesk := ⟨⟨fun _ => none, clock⟩, fun _ => {}, clock⟩

lemma LoginDesk.started_accounted (clock : ℤ) : (LoginDesk.started clock).Accounted := by
  intro ip
  constructor
  · intro t ht
    cases ht
  · exact Nat.zero_le _
  · exact Nat.zero_le _
  · intro e he
    cases he
  · exact fun _ => Nat.zero_le _

/-- **Over every run in which a request is let in only where there is room for all on
their way, and no recent failure is forgotten, no address has more than `kMaxAttempts`
failed verifications within any window.** -/
theorem logins_bounded {clock : ℤ} {d : LoginDesk}
    (hrun : Reaches deskStep Heeds (LoginDesk.started clock) d) : d.Bounded := by
  have haccounted : d.Accounted :=
    hrun.invariant (fun _ _ _ hi hok hs => deskStep_accounted hi hok hs)
      (LoginDesk.started_accounted clock)
  exact fun ip => (haccounted ip).bounded

/-! ### Two requests at once, eleven at once, and the end of a window -/

/-- A second, in ticks. -/
def second (n : ℤ) : ℤ := n * 1000000000

/-- A login with a wrong password, handled within the second. -/
def wrongLogin (n : ℤ) : List LoginStep :=
  [.allow "10.0.0.9" (second n) (second n), .verify "10.0.0.9" (second n) false,
    .recordFailure "10.0.0.9" (second n) (second n)]

/-- Two wrong passwords at once, five minutes of nothing and one more. -/
def twoAtOnce : List LoginStep :=
  [.allow "10.0.0.9" 0 0, .allow "10.0.0.9" 0 0, .verify "10.0.0.9" 0 false,
    .verify "10.0.0.9" 0 false, .recordFailure "10.0.0.9" 0 0, .recordFailure "10.0.0.9" 0 0] ++
    wrongLogin 300

theorem logins_bounded_twoAtOnce : ∃ d,
    execute deskStep Heeds twoAtOnce (LoginDesk.started 0) = some d ∧ d.Bounded := by
  have hrun : (execute deskStep Heeds twoAtOnce (LoginDesk.started 0)).isSome = true := by
    decide
  obtain ⟨d, hd⟩ := Option.isSome_iff_exists.mp hrun
  exact ⟨d, hd, logins_bounded (reaches_of_execute hd)⟩

/-- Eleven requests are let in before the first of them fails. -/
def elevenAtOnce : List LoginStep :=
  replicate 11 (.allow "10.0.0.9" 0 0) ++ replicate 11 (.verify "10.0.0.9" 0 false)

/-- A wrong password, nine more when its window is about to end, and two when it has
ended. -/
def elevenAroundEnd : List LoginStep :=
  wrongLogin 0 ++ (range 9).flatMap (fun _ => wrongLogin 290) ++ wrongLogin 300 ++
    wrongLogin 301

lemma not_bounded_of_within {steps : List LoginStep} (start : ℤ)
    (h : (execute deskStep (fun _ _ => True) steps (LoginDesk.started 0)).any (fun d =>
      decide (kMaxAttempts < within windowTicks start (d.addresses "10.0.0.9").failed)) = true) :
    ∃ d, execute deskStep (fun _ _ => True) steps (LoginDesk.started 0) = some d ∧ ¬ d.Bounded := by
  obtain ⟨d, hd, hover⟩ := (Option.any_eq_true _ _).mp h
  exact ⟨d, hd, fun hbounded => absurd (hbounded "10.0.0.9" start) (of_decide_eq_true hover).not_ge⟩

/-- Requests at the same time, and the end of a window, let more than ten failures
through. -/
theorem more_logins_let_through :
    (∃ d, execute deskStep (fun _ _ => True) elevenAtOnce (LoginDesk.started 0) = some d ∧
      ¬ d.Bounded) ∧
    ∃ d, execute deskStep (fun _ _ => True) elevenAroundEnd (LoginDesk.started 0) = some d ∧
      ¬ d.Bounded := by
  constructor
  · apply not_bounded_of_within 0
    decide +kernel
  · apply not_bounded_of_within (second 2)
    decide +kernel

end CErp
