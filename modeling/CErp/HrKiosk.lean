/-
The clock-in tablet and its limiter of PIN guesses.

`PunchLimiter` counts the wrong PINs of an address from the moment its entry starts;
at `kMaxFailures` it refuses the address until `kWindowSeconds` have gone by since
then, and a right PIN erases the entry.  `punch` is the handler of
`/kiosk/api/punch`, up to the employee it finds.

The count is of a window that starts with the entry and not of the last
`kWindowSeconds`.  As long as no recent wrong PIN is forgotten (`Remembers`), the entry
counts at least the recent ones (`Counted`) and no window has too many
(`guesses_bounded`).  The clock ticks in nanoseconds.
-/
import CErp.Json
import CErp.Runs
import CErp.SlidingWindow

namespace CErp

open Function Runs List

namespace HrKiosk

open SlidingWindow

/-! ### The limiter -/

def kMaxFailures : ℕ := 8

def kWindowSeconds : ℤ := 180

/-- `kWindowSeconds` in ticks. -/
def windowTicks : ℤ := kWindowSeconds * 1000000000

/-- `PunchLimiter::E`. -/
structure Attempts where
  start : ℤ
  count : ℕ := 0
deriving DecidableEq

def Attempts.expired (e : Attempts) (now : ℤ) : Bool := decide (now - e.start ≥ windowTicks)

/-- The entry a clock reading leaves: an expired one starts again. -/
def Attempts.renewed (e : Attempts) (now : ℤ) : Attempts := if e.expired now then ⟨now, 0⟩ else e

structure PunchLimiter where
  t_ : String → Option Attempts := fun _ => none

namespace PunchLimiter

def put (l : PunchLimiter) (ip : String) (e : Option Attempts) : PunchLimiter :=
  ⟨update l.t_ ip e⟩

/-- `t_[ip]`: a new entry starts when it is made. -/
def entry (l : PunchLimiter) (ip : String) (born : ℤ) : Attempts := (l.t_ ip).getD ⟨born, 0⟩

def allow (l : PunchLimiter) (ip : String) (now born : ℤ) : Bool × PunchLimiter :=
  let e := l.entry ip born
  if e.count ≥ kMaxFailures ∧ e.expired now = false then (false, l.put ip e)
  else (true, l.put ip (e.renewed now))

def fail (l : PunchLimiter) (ip : String) (now born : ℤ) : PunchLimiter :=
  let e := (l.entry ip born).renewed now
  l.put ip (some { e with count := e.count + 1 })

def ok (l : PunchLimiter) (ip : String) : PunchLimiter := l.put ip none

end PunchLimiter

/-! ### A punch -/

/-- A row of `hr_employee`. -/
structure HrEmployee where
  id : ℤ
  name : String
  active : Bool := true
  pinHash : Option String := none
  companyId : Option ℤ := none
deriving DecidableEq

/-- A request: where it comes from, its body unless that is no JSON, the rows the
database has for it unless it cannot be read, and what the clock says at each look. -/
structure PunchRequest where
  ip : String
  body : Option Json
  employees : Option (List HrEmployee)
  asked : ℤ
  born : ℤ
  failed : ℤ

inductive PunchReply where
  | tooManyAttempts
  | invalidRequest
  | invalidPin
  | notRecognised
  | failure
  | recognised (employee : HrEmployee)
deriving DecidableEq

def PunchReply.status : PunchReply → ℕ
  | tooManyAttempts => 429
  | invalidRequest => 400
  | invalidPin => 401
  | notRecognised => 401
  | failure => 500
  | recognised _ => 200

/-- The response to a wrong PIN. -/
def PunchReply.wrong (r : PunchReply) : Bool := r.status == 401

/-- `body.value("pin", "")`. -/
def pinOf : Json → Except String String
  | .obj fields =>
      match fields.lookup "pin" with
      | none => .ok ""
      | some j => j.getString
  | j => .error ("[json.exception.type_error.306] cannot use value() with " ++ j.typeName)

section

-- `AuthService::verifyPassword`, of a PIN and a stored hash
variable (verifyPassword : String → String → Bool)

/-- The first active employee whose PIN it is. -/
def recognise (pin : String) (rows : List HrEmployee) : Option HrEmployee :=
  rows.find? fun r => r.active && r.pinHash.any (verifyPassword pin)

/-- The answer to a request that is not locked out. -/
def PunchRequest.reply (r : PunchRequest) : PunchReply :=
  match r.body with
  | none => .invalidRequest
  | some body =>
      match pinOf body with
      | .error _ => .failure
      | .ok pin =>
          if pin.utf8ByteSize < 4 ∨ pin.utf8ByteSize > 32 then .invalidPin
          else
            match r.employees with
            | none => .failure
            | some rows =>
                match recognise verifyPassword pin rows with
                | none => .notRecognised
                | some employee => .recognised employee

/-- The handler of `/kiosk/api/punch`, without the toggle that follows a PIN it knows. -/
def punch (l : PunchLimiter) (r : PunchRequest) : PunchReply × PunchLimiter :=
  match l.allow r.ip r.asked r.born with
  | (false, l') => (.tooManyAttempts, l')
  | (true, l') =>
      match r.reply verifyPassword with
      | .invalidPin => (.invalidPin, l'.fail r.ip r.failed r.failed)
      | .notRecognised => (.notRecognised, l'.fail r.ip r.failed r.failed)
      | .recognised employee => (.recognised employee, l'.ok r.ip)
      | other => (other, l')

/-! ### Runs -/

/-- The limiter, when each address was told that a PIN is wrong, and the last look at
the clock. -/
structure Kiosk where
  limiter : PunchLimiter := {}
  wrong : String → List ℤ := fun _ => []
  clock : ℤ

def kioskStep (k : Kiosk) (r : PunchRequest) : Option Kiosk :=
  if k.clock ≤ r.asked ∧ r.asked ≤ r.born ∧ r.born ≤ r.failed then
    let answer := punch verifyPassword k.limiter r
    some
      { limiter := answer.2
        wrong :=
          if answer.1.wrong then update k.wrong r.ip (r.failed :: k.wrong r.ip) else k.wrong
        clock := r.failed }
  else none

/-- No address is told more than `kMaxFailures` times within a window. -/
def Kiosk.Bounded (k : Kiosk) : Prop :=
  ∀ ip, AtMost kMaxFailures windowTicks (k.wrong ip)

/-- The request is not locked out and its PIN is wrong. -/
def Guesses (k : Kiosk) (r : PunchRequest) : Prop :=
  (k.limiter.allow r.ip r.asked r.born).1 = true ∧ (r.reply verifyPassword).wrong = true

/-- The request is not locked out and its PIN is right. -/
def Enters (k : Kiosk) (r : PunchRequest) : Prop :=
  (k.limiter.allow r.ip r.asked r.born).1 = true ∧ (r.reply verifyPassword).status = 200

/-- An entry starts again or is erased only when the address's wrong PINs are past. -/
structure Remembers (k : Kiosk) (r : PunchRequest) : Prop where
  asked : (k.limiter.entry r.ip r.born).expired r.asked = true →
    Past windowTicks r.asked (k.wrong r.ip)
  failed : Guesses verifyPassword k r →
    ((k.limiter.entry r.ip r.born).renewed r.asked).expired r.failed = true →
    Past windowTicks r.failed (k.wrong r.ip)
  entered : Enters verifyPassword k r → Past windowTicks r.asked (k.wrong r.ip)

instance (k : Kiosk) (r : PunchRequest) : Decidable (Guesses verifyPassword k r) :=
  inferInstanceAs (Decidable (_ ∧ _))

instance (k : Kiosk) (r : PunchRequest) : Decidable (Enters verifyPassword k r) :=
  inferInstanceAs (Decidable (_ ∧ _))

instance (k : Kiosk) (r : PunchRequest) : Decidable (Remembers verifyPassword k r) :=
  decidable_of_iff (_ ∧ _ ∧ _) ⟨fun h => ⟨h.1, h.2.1, h.2.2⟩, fun h => ⟨h.asked, h.failed, h.entered⟩⟩

/-! ### What a punch does to the entry of its address -/

lemma windowTicks_pos : 0 < windowTicks := by decide

lemma Attempts.renewed_of_expired {e : Attempts} {now : ℤ} (h : e.expired now = true) :
    e.renewed now = ⟨now, 0⟩ := if_pos h

lemma Attempts.renewed_of_live {e : Attempts} {now : ℤ} (h : ¬ e.expired now = true) :
    e.renewed now = e := if_neg h

lemma Attempts.renewed_count_le (e : Attempts) (now : ℤ) : (e.renewed now).count ≤ e.count := by
  unfold renewed
  split
  · exact Nat.zero_le _
  · exact le_rfl

variable {ip : String}

variable (l : PunchLimiter)

namespace PunchLimiter

@[simp] lemma put_t_ (ip : String) (e : Option Attempts) :
    (l.put ip e).t_ ip = e := update_self ..

lemma put_t_of_ne {other : String} (e : Option Attempts) (h : other ≠ ip) :
    (l.put ip e).t_ other = l.t_ other := update_of_ne h ..

@[simp] lemma put_entry (ip : String) (e : Attempts) (born : ℤ) :
    (l.put ip (some e)).entry ip born = e := by
  unfold entry
  rw [put_t_]
  rfl

/-- An address that is let in has an entry with room for one more. -/
lemma allow_ok {l l' : PunchLimiter} {now born : ℤ} (h : l.allow ip now born = (true, l')) :
    l' = l.put ip ((l.entry ip born).renewed now) ∧
      ((l.entry ip born).renewed now).count < kMaxFailures := by
  dsimp only [allow] at h
  split at h
  · cases h
  · next hroom =>
      cases h
      refine ⟨rfl, ?_⟩
      rcases not_and_or.mp hroom with hcount | hexpired
      · exact ((l.entry ip born).renewed_count_le now).trans_lt (Nat.lt_of_not_le hcount)
      · rw [Attempts.renewed_of_expired (Bool.of_not_eq_false hexpired)]
        exact Nat.succ_pos 7

lemma allow_refused {l l' : PunchLimiter} {now born : ℤ} (h : l.allow ip now born = (false, l')) :
    l' = l.put ip (l.entry ip born) := by
  dsimp only [allow] at h
  split at h
  · cases h
    rfl
  · cases h

end PunchLimiter

/-- Whether a request is told that its PIN is wrong, and the entry it leaves. -/
inductive Punched (k : Kiosk) (r : PunchRequest) : Bool → Option Attempts → Prop
  | refused : Punched k r false (k.limiter.entry r.ip r.born)
  | told : Guesses verifyPassword k r →
      ((k.limiter.entry r.ip r.born).renewed r.asked).count < kMaxFailures →
      Punched k r true (some
        { ((k.limiter.entry r.ip r.born).renewed r.asked).renewed r.failed with
          count := (((k.limiter.entry r.ip r.born).renewed r.asked).renewed r.failed).count + 1 })
  | entered : Enters verifyPassword k r → Punched k r false none
  | unread : Punched k r false ((k.limiter.entry r.ip r.born).renewed r.asked)

lemma punch_punched (k : Kiosk) (r : PunchRequest) :
    Punched verifyPassword k r (punch verifyPassword k.limiter r).1.wrong
      ((punch verifyPassword k.limiter r).2.t_ r.ip) := by
  unfold punch
  split
  · next l' hallow =>
      rw [PunchLimiter.allow_refused hallow, PunchLimiter.put_t_]
      exact .refused
  · next l' hallow =>
      obtain ⟨rfl, hroom⟩ := PunchLimiter.allow_ok hallow
      have hin : (k.limiter.allow r.ip r.asked r.born).1 = true := congrArg Prod.fst hallow
      have htold : (r.reply verifyPassword).wrong = true → Punched verifyPassword k r true
          (((k.limiter.put r.ip ((k.limiter.entry r.ip r.born).renewed r.asked)).fail r.ip
            r.failed r.failed).t_ r.ip) := by
        intro hwrong
        unfold PunchLimiter.fail
        rw [PunchLimiter.put_entry, PunchLimiter.put_t_]
        exact .told ⟨hin, hwrong⟩ hroom
      rcases hreply : r.reply verifyPassword with - | - | - | - | - | employee
      · rw [PunchLimiter.put_t_]
        exact .unread
      · rw [PunchLimiter.put_t_]
        exact .unread
      · exact htold (by rw [hreply]; rfl)
      · exact htold (by rw [hreply]; rfl)
      · rw [PunchLimiter.put_t_]
        exact .unread
      · unfold PunchLimiter.ok
        rw [PunchLimiter.put_t_]
        exact .entered ⟨hin, by rw [hreply]; rfl⟩

/-- The entries of other addresses stay. -/
lemma punch_other (r : PunchRequest) (h : ip ≠ r.ip) :
    (punch verifyPassword l r).2.t_ ip = l.t_ ip := by
  unfold punch
  split
  · next l' hallow =>
      rw [PunchLimiter.allow_refused hallow, PunchLimiter.put_t_of_ne _ _ h]
  · next l' hallow =>
      have hl' : l'.t_ ip = l.t_ ip := by
        rw [(PunchLimiter.allow_ok hallow).1, PunchLimiter.put_t_of_ne _ _ h]
      split
      · exact (PunchLimiter.put_t_of_ne _ _ h).trans hl'
      · exact (PunchLimiter.put_t_of_ne _ _ h).trans hl'
      · exact (PunchLimiter.put_t_of_ne _ _ h).trans hl'
      · exact hl'

/-! ### What an entry counts -/

variable {verifyPassword}

/-- The wrong PINs of an address against its entry, which counts the recent ones at
least. -/
structure Counted (clock : ℤ) (log : List ℤ) (e : Option Attempts) : Prop where
  past : ∀ t ∈ log, t ≤ clock
  full : ∀ a ∈ e, a.count ≤ kMaxFailures
  recent : recent windowTicks clock log ≤ e.elim 0 Attempts.count
  bounded : AtMost kMaxFailures windowTicks log

namespace Counted

variable {clock now : ℤ} {log : List ℤ} {e : Attempts} {o o' : Option Attempts}

lemma later (h : Counted clock log o) (hle : clock ≤ now) : Counted now log o where
  past t ht := (h.past t ht).trans hle
  full := h.full
  recent := (recent_le_of_le hle).trans h.recent
  bounded := h.bounded

lemma getD (h : Counted clock log o) (born : ℤ) :
    Counted clock log (some (o.getD ⟨born, 0⟩)) := by
  cases o with
  | some a => exact h
  | none =>
      refine ⟨h.past, ?_, h.recent, h.bounded⟩
      intro a ha
      cases ha
      exact Nat.zero_le _

/-- Where all is past, nothing has to be counted. -/
lemma forget (h : Counted now log o) (hpast : Past windowTicks now log)
    (hfull : ∀ a ∈ o', a.count ≤ kMaxFailures) : Counted now log o' where
  past := h.past
  full := hfull
  recent := by
    rw [recent_eq_zero_iff.mpr hpast]
    exact Nat.zero_le _
  bounded := h.bounded

lemma renewed (h : Counted now log (some e))
    (hpast : e.expired now = true → Past windowTicks now log) :
    Counted now log (some (e.renewed now)) := by
  by_cases hexpired : e.expired now = true
  · rw [Attempts.renewed_of_expired hexpired]
    apply h.forget (hpast hexpired)
    intro a ha
    cases ha
    exact Nat.zero_le _
  · rw [Attempts.renewed_of_live hexpired]
    exact h

lemma told (h : Counted now log (some e)) (hroom : e.count < kMaxFailures) :
    Counted now (now :: log) (some { e with count := e.count + 1 }) := by
  have hcounted : SlidingWindow.recent windowTicks now (now :: log) ≤ e.count + 1 := by
    rw [recent_cons_self windowTicks_pos]
    exact Nat.succ_le_succ h.recent
  constructor
  · intro t ht
    rcases mem_cons.mp ht with rfl | hold
    · exact le_rfl
    · exact h.past t hold
  · intro a ha
    cases ha
    exact hroom
  · exact hcounted
  · exact h.bounded.cons (hcounted.trans hroom) windowTicks_pos

end Counted

/-- Every address is counted. -/
def Kiosk.Counted (k : Kiosk) : Prop :=
  ∀ ip, HrKiosk.Counted k.clock (k.wrong ip) (k.limiter.t_ ip)

/-- **One request.** -/
theorem kioskStep_counted {k k' : Kiosk} {r : PunchRequest} (h : k.Counted)
    (hremembers : Remembers verifyPassword k r) (hs : kioskStep verifyPassword k r = some k') :
    k'.Counted := by
  unfold kioskStep at hs
  split at hs
  · next hclock =>
      cases hs
      obtain ⟨hasked, hborn, hfailed⟩ := hclock
      intro ip
      have hcase := punch_punched verifyPassword k r
      have hothers : ∀ other, other ≠ r.ip →
          (punch verifyPassword k.limiter r).2.t_ other = k.limiter.t_ other :=
        fun _ => punch_other verifyPassword k.limiter r
      generalize punch verifyPassword k.limiter r = answer at hcase hothers
      show HrKiosk.Counted r.failed ((if answer.1.wrong then _ else _ : String → List ℤ) ip) _
      by_cases hip : ip = r.ip
      · subst hip
        have hentry : HrKiosk.Counted r.asked (k.wrong r.ip) (k.limiter.entry r.ip r.born) :=
          ((h r.ip).later hasked).getD r.born
        have hrenewed := hentry.renewed hremembers.asked
        have hend : r.asked ≤ r.failed := hborn.trans hfailed
        generalize answer.1.wrong = told at hcase
        generalize answer.2.t_ r.ip = o at hcase
        cases hcase with
        | refused => exact hentry.later hend
        | told hguess hroom =>
            rw [if_pos rfl, update_self]
            apply ((hrenewed.later hend).renewed (hremembers.failed hguess)).told
            exact (Attempts.renewed_count_le _ _).trans_lt hroom
        | entered henter =>
            refine (hentry.forget (hremembers.entered henter) ?_).later hend
            intro a ha
            cases ha
        | unread => exact hrenewed.later hend
      · have hlog : (if answer.1.wrong then update k.wrong r.ip (r.failed :: k.wrong r.ip)
            else k.wrong) ip = k.wrong ip := by
          split
          · exact update_of_ne hip _ _
          · rfl
        rw [hlog, hothers ip hip]
        exact (h ip).later (hasked.trans (hborn.trans hfailed))
  · cases hs

/-- A limiter that has seen nothing. -/
def fresh (clock : ℤ) : Kiosk := { clock := clock }

lemma fresh_counted (clock : ℤ) : (fresh clock).Counted := by
  intro ip
  constructor
  · intro t ht
    cases ht
  · intro a ha
    cases ha
  · exact le_rfl
  · intro start hstart
    cases hstart

variable (verifyPassword)

/-- **Over every run in which no recent wrong PIN is forgotten, no address is told more
than `kMaxFailures` times within a window that starts at a wrong PIN.** -/
theorem guesses_bounded {clock : ℤ} {k : Kiosk}
    (hrun : Reaches (kioskStep verifyPassword) (Remembers verifyPassword) (fresh clock) k) :
    k.Bounded := by
  have hcounted : k.Counted :=
    hrun.invariant (fun _ _ _ hi hok hs => kioskStep_counted hi hok hs) (fresh_counted clock)
  exact fun ip => (hcounted ip).bounded

end

/-! ### A known PIN, and the end of a window -/

/-- Hashes that are the PINs themselves. -/
def samePin (pin hash : String) : Bool := pin == hash

/-- A punch at a second, where Ann has the PIN 2468. -/
def punchAt (pin : String) (second : ℤ) : PunchRequest :=
  { ip := "10.0.0.9"
    body := some (.obj [("pin", .str pin)])
    employees := some [{ id := 1, name := "Ann", pinHash := some "2468" }]
    asked := second * 1000000000
    born := second * 1000000000
    failed := second * 1000000000 }

/-- Seven guesses, the right PIN and seven guesses more, within a quarter of a minute. -/
def guessesAroundPin : List PunchRequest :=
  (range 7).map (fun i => punchAt "0000" i) ++ [punchAt "2468" 7] ++
    (range 7).map (fun i => punchAt "0000" (8 + i))

/-- A guess, seven more when its window is about to end, and eight when it has ended. -/
def guessesAroundEnd : List PunchRequest :=
  [punchAt "0000" 0] ++ (range 7).map (fun i => punchAt "0000" (170 + i)) ++
    (range 8).map (fun i => punchAt "0000" (180 + i))

/-- Seven guesses, three minutes of nothing and the right PIN. -/
def guessesForgotten : List PunchRequest :=
  (range 7).map (fun i => punchAt "0000" i) ++ [punchAt "2468" 200]

/-- A known PIN or the end of a window lets more than eight guesses through. -/
theorem more_guesses_let_through :
    (∃ k, execute (kioskStep samePin) (fun _ _ => True) guessesAroundPin (fresh 0) = some k ∧
      ¬ k.Bounded) ∧
    ∃ k, execute (kioskStep samePin) (fun _ _ => True) guessesAroundEnd (fresh 0) = some k ∧
      ¬ k.Bounded := by
  have hrun : ∀ requests ∈ [guessesAroundPin, guessesAroundEnd],
      ((execute (kioskStep samePin) (fun _ _ => True) requests (fresh 0)).any fun k =>
        decide (¬ AtMost kMaxFailures windowTicks (k.wrong "10.0.0.9"))) = true := by
    decide +kernel
  have hmore : ∀ requests ∈ [guessesAroundPin, guessesAroundEnd],
      ∃ k, execute (kioskStep samePin) (fun _ _ => True) requests (fresh 0) = some k ∧
        ¬ k.Bounded := by
    intro requests hmem
    obtain ⟨k, hk, hover⟩ := (Option.any_eq_true _ _).mp (hrun requests hmem)
    exact ⟨k, hk, fun hbounded => of_decide_eq_true hover (hbounded "10.0.0.9")⟩
  exact ⟨hmore _ (by simp), hmore _ (by simp)⟩

theorem guesses_bounded_forgotten : ∃ k,
    execute (kioskStep samePin) (Remembers samePin) guessesForgotten (fresh 0) = some k ∧
      k.Bounded := by
  have hrun : (execute (kioskStep samePin) (Remembers samePin) guessesForgotten
      (fresh 0)).isSome = true := by
    decide
  obtain ⟨k, hk⟩ := Option.isSome_iff_exists.mp hrun
  exact ⟨k, hk, guesses_bounded samePin (reaches_of_execute hk)⟩

end HrKiosk

end CErp
