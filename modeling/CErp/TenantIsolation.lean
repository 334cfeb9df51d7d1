/-
Every request is served by its session's own tenant: how far that goes.

`reaches_routed` describes the leases of every run exactly: a handler of a
remote call leases from the tenant the call was routed to, any other handler
from the default tenant.  So a session of another tenant is served from the
wrong database by every other route, and by the job threads its calls start.
`sessions_keep_tenant` is the extent to which the sessions are served by their
own tenants; that nothing stays selected needs no condition.
-/
import CErp.Tenants

namespace CErp

open Option Function Runs DbConnection List

/-! ### Where a call is routed -/

section Routing

variable (db : DbConnection) (req : HttpRequest) (call : CallKwArgs) (session : Session)

/-- A call goes to the default tenant or to a registered one that was named. -/
lemma resolveTenant_cases : resolveTenant db req call session = db.defaultTenant ∨
      (resolveTenant db req call session ≠ "" ∧
        db.hasTenant (resolveTenant db req call session) = true) := by
  have hor : ∀ t, (if t.isEmpty || !db.hasTenant t then db.defaultTenant else t) =
        db.defaultTenant ∨
      ((if t.isEmpty || !db.hasTenant t then db.defaultTenant else t) ≠ "" ∧
        db.hasTenant (if t.isEmpty || !db.hasTenant t then db.defaultTenant else t) = true) := by
    intro t
    split
    · exact .inl rfl
    · next h =>
        right
        simpa using h
  exact hor _

lemma poolKey_resolveTenant :
    db.poolKey (resolveTenant db req call session) = resolveTenant db req call session := by
  rcases resolveTenant_cases db req call session with h | ⟨hne, hreg⟩
  · rw [h]
    exact db.poolKey_default
  · exact (poolKey_eq_self_iff hne).mpr hreg

variable {db call}

/-- A database argument that is registered decides. -/
lemma resolveTenant_named {s : String} (hm : call.method = "authenticate")
    (harg : call.arg 0 = .str s) (hne : s ≠ "") (hreg : db.hasTenant s = true) :
    resolveTenant db req call session = s := by
  have hreq : requestedTenant db req call = s := by
    unfold requestedTenant
    rw [harg, show (Json.str s).text = s from rfl]
    -- neither the host nor the mail domain is asked
    have hknown : (s.isEmpty || !db.hasTenant s) = false := by simp [hne, hreg]
    simp only [hknown, Bool.false_and, Bool.false_eq_true, if_false]
    split <;> rfl
  unfold resolveTenant
  simp [hm, hreq, hne, hreg]

@[simp] lemma bindTenant_method (reqTenant : String) (call : CallKwArgs) :
    (bindTenant reqTenant call).method = call.method := by
  unfold bindTenant
  split
  · dsimp only
    split_ifs <;> rfl
  · rfl

/-- The echo of a login whose database argument did not decide: nothing, or the
configured name, or a name that is not registered.  Each leads to the default. -/
lemma poolKey_authenticateDb {req : HttpRequest} {session : Session}
    (hm : call.method = "authenticate")
    (hrt : resolveTenant db req call session = "") :
    db.poolKey (authenticateDb db.defaultTenant (bindTenant "" call)) = db.defaultTenant := by
  obtain ⟨model, method, args, kwargs⟩ := call
  subst hm
  cases args with
  | arr items =>
      cases items with
      | nil => simp [bindTenant, authenticateDb, CallKwArgs.arg]
      | cons a rest =>
          cases a with
          | str s =>
              by_cases hs : s = ""
              · simp [bindTenant, authenticateDb, CallKwArgs.arg, hs]
              have hecho : authenticateDb db.defaultTenant (bindTenant ""
                  ⟨model, "authenticate", .arr (.str s :: rest), kwargs⟩) = s := by
                simp [bindTenant, authenticateDb, CallKwArgs.arg, hs]
              rw [hecho]
              rcases hreg : db.hasTenant s with - | -
              · exact poolKey_of_unknown hreg
              · -- a registered name would have decided, and it is not empty
                have harg : CallKwArgs.arg ⟨model, "authenticate", .arr (.str s :: rest), kwargs⟩ 0 =
                    .str s := rfl
                have hdec := resolveTenant_named req session rfl harg hs hreg
                exact absurd (hdec.symm.trans hrt) hs
          | _ => simp [bindTenant, authenticateDb, CallKwArgs.arg]
  | _ => simp [bindTenant, authenticateDb, CallKwArgs.arg]

/-- The name a login binds the session to leads to the pool the call was routed
to. -/
lemma poolKey_boundDb (hm : call.method = "authenticate") :
    db.poolKey (boundDb (resolveTenant db req call session)
      (authenticateDb db.defaultTenant
        (bindTenant (resolveTenant db req call session) call))) =
      resolveTenant db req call session := by
  unfold boundDb
  split
  · next hempty =>
      have hrt : resolveTenant db req call session = "" := by simpa using hempty
      have hself := poolKey_resolveTenant db req call session
      rw [hrt] at hself ⊢
      rw [poolKey_authenticateDb hm hrt, ← hself, poolKey_empty]
  · exact poolKey_resolveTenant db req call session

end Routing

/-! ### What every run does -/

def Door.isCall : Door → Bool
  | .callKw _ => true
  | _ => false

/-- A remote call is being handled. -/
def Thread.onCall (t : Thread) : Bool := t.activity.any (·.door.isCall)

/-- The tenant a handler is served by. -/
def Activity.servedBy (defaultTenant : String) (a : Activity) : String :=
  match a.door with
  | .callKw _ => a.reqTenant
  | _ => defaultTenant

lemma servedBy_of_route {defaultTenant : String} {a : Activity}
    (h : ∀ call, a.door ≠ .callKw call) : a.servedBy defaultTenant = defaultTenant := by
  unfold Activity.servedBy
  split
  · next call hcall => exact absurd hcall (h call)
  · rfl

variable {call : CallKwArgs}

lemma servedBy_of_call {defaultTenant : String} {a : Activity} (h : a.door = .callKw call) :
    a.servedBy defaultTenant = a.reqTenant := by
  simp [Activity.servedBy, h]

/-- As long as it leases connections, a handler has the tenant selected that it
is served by; a login binds the session to that tenant. -/
structure Activity.Routed (db : DbConnection) (selected : String) (a : Activity) : Prop where
  pool : a.phase ≠ .closing → db.poolKey selected = a.servedBy db.defaultTenant
  bound : ∀ call, a.door = .callKw call → call.method = "authenticate" →
    db.poolKey (boundDb a.reqTenant (authenticateDb db.defaultTenant call)) = a.reqTenant
  login : ∀ sid found, a.phase = .authenticated sid found →
    (∃ call, a.door = .callKw call) ∧ db.poolKey (boundDb a.reqTenant found.db) = a.reqTenant

structure Thread.Routed (db : DbConnection) (t : Thread) : Prop where
  clean : t.onCall = false → t.selected = ""
  handler : ∀ a, t.activity = some a → a.Routed db t.selected
  held : ∀ lease ∈ t.held, db.hasTenant lease.tenant = true ∧ lease.conn.db = lease.tenant

structure World.Routed (w : World) : Prop where
  valid : w.db.Valid
  threads : ∀ th, (w.threads th).Routed w.db
  log : ∀ r ∈ w.log, r.lease.tenant = r.handler.servedBy w.db.defaultTenant ∧
    r.lease.conn.db = r.handler.servedBy w.db.defaultTenant

lemma Thread.Routed.congr {db db' : DbConnection} {t : Thread} (h : t.Routed db)
    (hsame : SameRoutes db db') : t.Routed db' := by
  refine ⟨h.clean, ?_, ?_⟩
  · intro a ha
    obtain ⟨hpool, hbound, hlogin⟩ := h.handler a ha
    constructor
    · rw [hsame.poolKey_eq, hsame.1]
      exact hpool
    · rw [hsame.poolKey_eq, hsame.1]
      exact hbound
    · rw [hsame.poolKey_eq]
      exact hlogin
  · rw [hsame.2]
    exact h.held

/-- One thread replaced by another that is as it should be. -/
lemma World.Routed.setThread {w : World} (h : w.Routed) {th : ℕ} {t : Thread}
    (ht : t.Routed w.db) : (w.setThread th t).Routed := by
  refine ⟨h.valid, ?_, h.log⟩
  intro th'
  show (update w.threads th t th').Routed w.db
  by_cases heq : th' = th
  · rw [heq, update_self]
    exact ht
  · rw [update_of_ne heq]
    exact h.threads th'

lemma World.Routed.withSessions {w : World} (h : w.Routed) (m : SessionManager) :
    World.Routed { w with sessions := m } := ⟨h.valid, h.threads, h.log⟩

/-! ### One event -/

variable {w' : World}

section Events

variable {w : World} {th : ℕ} {a : Activity}

/-- A thread with nothing to do has nothing selected. -/
lemma selected_of_idle (h : w.Routed) (hidle : (w.threads th).activity = none) :
    (w.threads th).selected = "" := by
  apply (h.threads th).clean
  simp [Thread.onCall, hidle]

lemma beginRpc_routed {req : HttpRequest} (h : w.Routed) : (beginRpc w th req call).Routed := by
  apply h.setThread
  constructor
  · intro hrpc
    cases hrpc
  · intro a ha
    cases ha
    constructor
    · intro _
      exact poolKey_resolveTenant _ _ _ _
    · intro call' hdoor hmethod
      cases hdoor
      have hm : call.method = "authenticate" := by
        rw [← hmethod]
        exact (bindTenant_method _ _).symm
      exact poolKey_boundDb _ _ hm
    · intro sid found hphase
      split at hphase <;> cases hphase
  · exact (h.threads th).held

lemma beginRoute_routed {req : HttpRequest} {door : Door} (h : w.Routed)
    (hidle : (w.threads th).activity = none) (hdoor : ∀ call, door ≠ .callKw call) :
    (beginRoute w th req door).Routed := by
  unfold beginRoute
  split
  · exact h
  · next session _ =>
      apply h.setThread
      have hempty := selected_of_idle h hidle
      constructor
      · intro _
        exact hempty
      · intro a ha
        cases ha
        constructor
        · intro _
          show w.db.poolKey (w.threads th).selected = _
          rw [hempty, poolKey_empty, servedBy_of_route hdoor]
        · intro call hcall
          exact absurd hcall (hdoor call)
        · intro sid found hphase
          cases hphase
      · exact (h.threads th).held

lemma acquireOn_routed (h : w.Routed) (hbusy : (w.threads th).activity = some a)
    (hleasing : a.phase ≠ .closing) (ha : acquireOn w th a = some w') : w'.Routed := by
  obtain ⟨⟨lease, db⟩, hacq, rfl⟩ := map_eq_some_iff.mp ha
  obtain ⟨htenant, hconn, hvalid, hsame⟩ := acquire_some h.valid hacq
  have hkey : w.db.poolKey (w.threads th).selected = a.servedBy w.db.defaultTenant :=
    ((h.threads th).handler a hbusy).pool hleasing
  refine ⟨hvalid, ?_, ?_⟩
  · intro th'
    -- the thread that leased holds one more connection, the others are as before
    show (update w.threads th _ th').Routed db
    by_cases heq : th' = th
    · rw [heq, update_self]
      have hthread := (h.threads th).congr hsame
      refine ⟨hthread.clean, hthread.handler, ?_⟩
      intro l hl
      rcases mem_cons.mp hl with rfl | hold
      · refine ⟨?_, hconn.trans htenant.symm⟩
        rw [hsame.2, htenant]
        exact w.db.hasTenant_poolKey _
      · exact hthread.held l hold
    · rw [update_of_ne heq]
      exact (h.threads th').congr hsame
  · intro r hr
    rw [hsame.1]
    rcases mem_append.mp hr with hold | hnew
    · exact h.log r hold
    · rw [mem_singleton.mp hnew]
      exact ⟨htenant.trans hkey, hconn.trans hkey⟩

lemma release_routed {lease : PooledConnection} {isOpen : Bool} (h : w.Routed)
    (hheld : lease ∈ (w.threads th).held) :
    World.Routed { w.setThread th
      { w.threads th with held := (w.threads th).held.erase lease } with
        db := w.db.release lease isOpen } := by
  obtain ⟨hreg, hown⟩ := (h.threads th).held lease hheld
  have hsame : SameRoutes w.db (w.db.release lease isOpen) :=
    release_sameRoutes
  have hthreads : ∀ th', ((w.setThread th { w.threads th with
      held := (w.threads th).held.erase lease }).threads th').Routed w.db := by
    apply (h.setThread _).threads
    refine ⟨(h.threads th).clean, (h.threads th).handler, ?_⟩
    intro l hl
    exact (h.threads th).held l (mem_of_mem_erase hl)
  exact ⟨release_valid h.valid hreg hown,
    fun th' => (hthreads th').congr hsame, h.log⟩

lemma authenticateOn_routed {newSid : String} {found : Session} (h : w.Routed)
    (hbusy : (w.threads th).activity = some a) (hdoor : a.door = .callKw call)
    (hrunning : a.phase = .running) (hmethod : call.method = "authenticate") :
    (authenticateOn w th a call newSid found).Routed := by
  obtain ⟨hpool, hbound, -⟩ := (h.threads th).handler a hbusy
  apply World.Routed.withSessions
  apply h.setThread
  constructor
  · intro hroute
    simp [Thread.onCall, Door.isCall, hdoor] at hroute
  · intro a' ha'
    cases ha'
    constructor
    · intro _
      exact hpool (by simp [hrunning])
    · exact hbound
    · intro sid user hphase
      cases hphase
      exact ⟨⟨call, hdoor⟩, hbound call hdoor hmethod⟩
  · exact (h.threads th).held

/-- What the end of a login does to the thread: nothing is leased any more, or
the tenant the session was bound to is selected. -/
lemma syncSessionOn_cases (w : World) (th : ℕ) (a : Activity)
    (activeSid newSid rotated : String) (found : Session) :
    ∃ m, syncSessionOn w th a activeSid found newSid rotated =
        { w.setThread th { w.threads th with activity := some { a with phase := .closing } } with
          sessions := m } ∨
      ∃ sid, syncSessionOn w th a activeSid found newSid rotated =
          { w.setThread th { w.threads th with
              selected := boundDb a.reqTenant found.db
              activity := some { a with phase := .loading sid } } with
            sessions := m } := by
  unfold syncSessionOn
  dsimp only
  split
  · exact ⟨_, .inl rfl⟩
  · next s hget =>
      obtain ⟨old, rfl⟩ := SessionManager.get_update_some hget
      exact ⟨_, .inr ⟨_, rfl⟩⟩

lemma syncSessionOn_routed {activeSid newSid rotated : String} {found : Session}
    (h : w.Routed) (hbusy : (w.threads th).activity = some a)
    (hwaiting : a.phase = .authenticated activeSid found) :
    (syncSessionOn w th a activeSid found newSid rotated).Routed := by
  obtain ⟨-, hbound, hlogin⟩ := (h.threads th).handler a hbusy
  obtain ⟨⟨call, hdoor⟩, hkey⟩ := hlogin _ _ hwaiting
  obtain ⟨m, hend | ⟨sid, hload⟩⟩ :=
    syncSessionOn_cases w th a activeSid newSid rotated found
  · rw [hend]
    apply World.Routed.withSessions
    apply h.setThread
    constructor
    · intro hroute
      simp [Thread.onCall, Door.isCall, hdoor] at hroute
    · intro a' ha'
      cases ha'
      refine ⟨fun hclosing => absurd rfl hclosing, hbound, ?_⟩
      intro sid user hphase
      cases hphase
    · exact (h.threads th).held
  · rw [hload]
    apply World.Routed.withSessions
    apply h.setThread
    constructor
    · intro hroute
      simp [Thread.onCall, Door.isCall, hdoor] at hroute
    · intro a' ha'
      cases ha'
      refine ⟨?_, hbound, ?_⟩
      · intro _
        -- the scope of the look-up selects what the session was bound to
        have hserved : ({ a with phase := .loading sid } : Activity).servedBy
            w.db.defaultTenant = a.reqTenant := servedBy_of_call hdoor
        exact hkey.trans hserved.symm
      · intro sid user hphase
        cases hphase
    · exact (h.threads th).held

lemma loaded_routed {sid : String} {companies : List ℤ} (h : w.Routed)
    (hbusy : (w.threads th).activity = some a) :
    World.Routed { w.setThread th { w.threads th with
        selected := "", activity := some { a with phase := .closing } } with
      sessions := w.sessions.update sid (·.loadAllowedCompanies companies) } := by
  obtain ⟨-, hbound, -⟩ := (h.threads th).handler a hbusy
  apply World.Routed.withSessions
  apply h.setThread
  refine ⟨fun _ => rfl, ?_, (h.threads th).held⟩
  intro a' ha'
  cases ha'
  refine ⟨fun hclosing => absurd rfl hclosing, hbound, ?_⟩
  intro sid user hphase
  cases hphase

lemma askAsync_routed {worker : ℕ} (h : w.Routed) :
    (w.setThread worker { activity := some ⟨.job, a.sid, a.session, "", .running⟩ }).Routed := by
  apply h.setThread
  refine ⟨fun _ => rfl, ?_, ?_⟩
  · intro a' ha'
    cases ha'
    constructor
    · intro _
      exact w.db.poolKey_empty
    · intro call hcall
      cases hcall
    · intro sid found hphase
      cases hphase
  · intro lease hlease
    cases hlease

lemma finishOn_routed (h : w.Routed) (hbusy : (w.threads th).activity = some a) :
    (finishOn w th a).Routed := by
  apply h.setThread
  constructor
  · intro _
    show (match a.door with | .callKw _ => "" | _ => (w.threads th).selected) = ""
    rcases hdoor : a.door with call | - | - | - | - | -
    · rfl
    -- the other handlers found nothing selected and leave nothing selected
    all_goals
      apply (h.threads th).clean
      simp [Thread.onCall, Door.isCall, hbusy, hdoor]
  · intro a' ha'
    cases ha'
  · exact (h.threads th).held

/-- **One event keeps the routing.** -/
theorem step_routed {e : Event} (h : w.Routed) (hs : step w e = some w') : w'.Routed := by
  cases happens_of_step hs with
  | beginRpc _ => exact beginRpc_routed h
  | beginRoute hidle hroute => exact beginRoute_routed h hidle hroute
  | acquire hbusy hleasing hlease => exact acquireOn_routed h hbusy hleasing hlease
  | release hheld => exact release_routed h hheld
  | authenticate hbusy hdoor hrunning hmethod =>
      exact authenticateOn_routed h hbusy hdoor hrunning hmethod
  | syncSession hbusy hwaiting => exact syncSessionOn_routed h hbusy hwaiting
  | loaded hbusy _ => exact loaded_routed h hbusy
  | askAsync _ _ _ _ => exact askAsync_routed h
  | finish hbusy => exact finishOn_routed h hbusy
  | switchCompany => exact h.withSessions _
  | drop => exact h.withSessions _

end Events

/-! ### Every run -/

lemma foldl_registerTenant_valid (tenants : List TenantConfig) {db : DbConnection}
    (h : db.Valid) :
    (tenants.foldl (fun db t => db.registerTenant t.cfg t.subdomain t.emailDomains) db).Valid := by
  induction tenants generalizing db with
  | nil => exact h
  | cons t ts ih => exact ih (registerTenant_valid h)

lemma boot_routed (cfg : DbConfig) (tenants : List TenantConfig) :
    (World.boot cfg tenants).Routed where
  valid := foldl_registerTenant_valid tenants (ofConfig_valid cfg)
  threads := by
    intro th
    refine ⟨fun _ => rfl, ?_, ?_⟩
    · intro a ha
      cases ha
    · intro lease hlease
      cases hlease
  log := by
    intro r hr
    cases hr

/-- The leases of every run come from where the handler is served. -/
lemma reaches_routed {cfg : DbConfig} {tenants : List TenantConfig} {ok : World → Event → Prop}
    {w : World} (h : Reaches step ok (World.boot cfg tenants) w) : w.Routed :=
  h.invariant (fun _ _ _ hw _ hs => step_routed hw hs) (boot_routed cfg tenants)

/-! ### Sessions and their tenants -/

/-- The name can be routed to. -/
def DbConnection.known (db : DbConnection) (name : String) : Bool :=
  !name.isEmpty && db.hasTenant name

/-- The tenants a login names, by its database argument, its host and its mail
domain. -/
def namedTenants (db : DbConnection) (req : HttpRequest) (call : CallKwArgs) : List String :=
  [(call.arg 0).text, db.resolveHost req.host, db.resolveEmailDomain (call.arg 1).text]

/-- A call that keeps a session's tenant: the session's database is registered,
or, for a login, it is the first known tenant the call names. -/
def CallKeepsTenant (db : DbConnection) (req : HttpRequest) (call : CallKwArgs)
    (session : Session) : Prop :=
  if call.method = "authenticate" then
    ((namedTenants db req call).find? db.known).getD db.defaultTenant = session.db
  else session.db = db.defaultTenant ∨ db.known session.db = true

instance (db : DbConnection) (req : HttpRequest) (call : CallKwArgs) (session : Session) :
    Decidable (CallKeepsTenant db req call session) := by
  unfold CallKeepsTenant
  infer_instance

/-- An event that keeps the tenant of the session it serves.  The routes beside
the remote-call one, and the jobs, keep the default tenant only. -/
def KeepsTenant (w : World) : Event → Prop
  | .begin _ req (.callKw call) =>
      ∀ s ∈ w.sessions.get (resolveSessionId w.sessions req call),
        s.isAuthenticated = true → CallKeepsTenant w.db req call s
  | .begin _ req _ => ∀ s ∈ getSession w.sessions req, s.db = w.db.defaultTenant
  | .askAsync th _ => ∀ a ∈ (w.threads th).activity, a.session.db = w.db.defaultTenant
  | _ => True

instance (w : World) : DecidablePred (KeepsTenant w)
  | .begin _ _ (.callKw _) => by unfold KeepsTenant; infer_instance
  | .begin _ _ .exportCsv => by unfold KeepsTenant; infer_instance
  | .begin _ _ .importCsv => by unfold KeepsTenant; infer_instance
  | .begin _ _ .upload => by unfold KeepsTenant; infer_instance
  | .begin _ _ .content => by unfold KeepsTenant; infer_instance
  | .begin _ _ .job => by unfold KeepsTenant; infer_instance
  | .askAsync _ _ => by unfold KeepsTenant; infer_instance
  | .acquire _ => .isTrue trivial
  | .release _ _ _ => .isTrue trivial
  | .authenticate _ _ _ => .isTrue trivial
  | .syncSession _ _ _ => .isTrue trivial
  | .loaded _ _ => .isTrue trivial
  | .finish _ => .isTrue trivial
  | .switchCompany _ _ => .isTrue trivial
  | .drop _ => .isTrue trivial

/-- The fallbacks of a login in a row are a search for the first known name,
when a fallback that gives a name gives a known one. -/
lemma fallbacks_eq_find? {known : String → Bool} {byHost byMail : String}
    (named fallback : String) (hhost : byHost ≠ "" → known byHost = true) (hmail : byMail ≠ "" → known byMail = true)
    (hempty : known "" = false) :
    let first := if !known named && !byHost.isEmpty then byHost else named
    let second := if !known first && !byMail.isEmpty then byMail else first
    (if known second then second else fallback) =
      ([named, byHost, byMail].find? known).getD fallback := by
  rcases hn : known named with - | -
  · by_cases hb : byHost = ""
    · by_cases hm : byMail = ""
      · simp [hn, hb, hm, hempty]
      · simp [hn, hb, hm, hempty, hmail hm]
    · simp [hn, hb, hhost hb]
  · simp [hn]

lemma resolveTenant_authenticate {db : DbConnection} (h : db.Valid) {req : HttpRequest}
    {session : Session} (hm : call.method = "authenticate") :
    resolveTenant db req call session =
      ((namedTenants db req call).find? db.known).getD db.defaultTenant := by
  have hunknown : ∀ s : String, (s.isEmpty || !db.hasTenant s) = !db.known s := by
    intro s
    simp [DbConnection.known]
  have hempty : db.known "" = false := by simp [DbConnection.known]
  have hhost : db.resolveHost req.host ≠ "" → db.known (db.resolveHost req.host) = true := by
    intro hne
    simp [DbConnection.known, hne, hasTenant_resolveHost h hne]
  have hmail : ∀ login, db.resolveEmailDomain login ≠ "" →
      db.known (db.resolveEmailDomain login) = true := by
    intro login hne
    simp [DbConnection.known, hne, hasTenant_resolveEmailDomain h hne]
  have hroute : resolveTenant db req call session =
      if db.known (requestedTenant db req call) then requestedTenant db req call
      else db.defaultTenant := by
    unfold resolveTenant
    simp only [hm, if_true, hunknown]
    rcases db.known (requestedTenant db req call) with - | - <;> simp
  rw [hroute]
  have hfirst := fallbacks_eq_find? (call.arg 0).text db.defaultTenant hhost
    (hmail (call.arg 1).text) hempty
  unfold namedTenants
  rw [← hfirst]
  unfold requestedTenant
  simp only [hunknown]
  rcases call.arg 1 with - | - | - | - | login | - | -
  case str => rfl
  -- no login to take a mail domain from
  all_goals simp [Json.text, resolveEmailDomain_empty]

/-- A call that keeps the session's tenant is routed to it. -/
lemma resolveTenant_eq_of_keeps {db : DbConnection} (h : db.Valid) {req : HttpRequest}
    {session : Session} (hauth : session.isAuthenticated = true)
    (hkeeps : CallKeepsTenant db req call session) :
    resolveTenant db req call session = session.db := by
  unfold CallKeepsTenant at hkeeps
  split at hkeeps
  · next hm =>
      rw [resolveTenant_authenticate h hm]
      exact hkeeps
  · next hm =>
      have hroute : resolveTenant db req call session =
          if session.db.isEmpty || !db.hasTenant session.db then db.defaultTenant
          else session.db := by
        simp [resolveTenant, hm, hauth]
      rw [hroute]
      rcases hkeeps with hdef | hknown
      · split
        · exact hdef.symm
        · rfl
      · have hne : (session.db.isEmpty || !db.hasTenant session.db) = false := by
          simpa [DbConnection.known] using hknown
        rw [hne, if_neg Bool.false_ne_true]

/-! ### Runs that keep the tenants -/

/-- The handler of a signed-in session is served by the session's tenant. -/
def Activity.Kept (defaultTenant : String) (a : Activity) : Prop :=
  a.session.isAuthenticated = true → a.servedBy defaultTenant = a.session.db

structure World.Kept (w : World) : Prop where
  threads : ∀ th a, (w.threads th).activity = some a → a.Kept w.db.defaultTenant
  log : ∀ r ∈ w.log, r.handler.Kept w.db.defaultTenant

section Kept

variable {w : World} {th : ℕ}

/-- What holds of every handler holds after a new one has taken one's place. -/
lemma forall_activity_update {threads : ℕ → Thread} {t : Thread} {P : Activity → Prop}
    (h : ∀ th a, (threads th).activity = some a → P a) (ht : ∀ a, t.activity = some a → P a)
    (th th' : ℕ) (a : Activity) (ha : (update threads th t th').activity = some a) :
    P a := by
  by_cases heq : th' = th
  · rw [heq, update_self] at ha
    exact ht a ha
  · rw [update_of_ne heq] at ha
    exact h th' a ha

lemma World.Kept.setThread {t : Thread} (h : w.Kept)
    (ht : ∀ a, t.activity = some a → a.Kept w.db.defaultTenant) : (w.setThread th t).Kept :=
  ⟨forall_activity_update h.threads ht th, h.log⟩

lemma World.Kept.withSessions (h : w.Kept) (m : SessionManager) :
    World.Kept { w with sessions := m } := ⟨h.threads, h.log⟩

lemma beginRpc_kept {req : HttpRequest} (h : w.Kept) (hv : w.db.Valid)
    (hk : KeepsTenant w (.begin th req (.callKw call))) : (beginRpc w th req call).Kept := by
  apply h.setThread
  intro a ha
  cases ha
  intro hauth
  show resolveTenant w.db req call _ = _
  rcases e : w.sessions.get (resolveSessionId w.sessions req call) with - | s
  · -- the anonymous session is not signed in
    simp [e, Session.isAuthenticated] at hauth
  · rw [e] at hauth
    exact resolveTenant_eq_of_keeps hv hauth (hk s e hauth)

lemma beginRoute_kept {req : HttpRequest} {door : Door} (h : w.Kept)
    (hdoor : ∀ call, door ≠ .callKw call) (hk : KeepsTenant w (.begin th req door)) :
    (beginRoute w th req door).Kept := by
  have hdefault : ∀ s ∈ getSession w.sessions req, s.db = w.db.defaultTenant := by
    rcases door with call | - | - | - | - | -
    · exact absurd rfl (hdoor call)
    all_goals exact hk
  unfold beginRoute
  split
  · exact h
  · next s hs =>
      apply h.setThread
      intro a ha
      cases ha
      intro _
      rw [servedBy_of_route hdoor]
      exact (hdefault s hs).symm

lemma acquireOn_kept {a : Activity} (h : w.Kept) (hv : w.db.Valid)
    (hbusy : (w.threads th).activity = some a) (ha : acquireOn w th a = some w') : w'.Kept := by
  obtain ⟨⟨lease, db⟩, hacq, rfl⟩ := map_eq_some_iff.mp ha
  obtain ⟨-, -, -, hsame⟩ := acquire_some hv hacq
  have hdef : db.defaultTenant = w.db.defaultTenant := hsame.1
  constructor
  · show ∀ th' a, (update w.threads th _ th').activity = some a → a.Kept db.defaultTenant
    rw [hdef]
    refine forall_activity_update h.threads ?_ th
    exact h.threads th
  · intro r hr
    show r.handler.Kept db.defaultTenant
    rw [hdef]
    rcases mem_append.mp hr with hold | hnew
    · exact h.log r hold
    · rw [mem_singleton.mp hnew]
      exact h.threads th a hbusy

/-- **One event that keeps the tenant of its session keeps all of them.** -/
theorem step_kept {e : Event} (h : w.Kept) (hr : w.Routed) (hk : KeepsTenant w e)
    (hs : step w e = some w') : w'.Kept := by
  -- a handler that only gets on with its work is served as before
  have hsame : ∀ {th a}, (w.threads th).activity = some a → ∀ phase a',
      some { a with phase := phase } = some a' → a'.Kept w.db.defaultTenant := by
    intro th a hbusy phase a' ha'
    cases ha'
    exact h.threads th a hbusy
  cases happens_of_step hs with
  | beginRpc _ => exact beginRpc_kept h hr.valid hk
  | beginRoute _ hroute => exact beginRoute_kept h hroute hk
  | acquire hbusy _ hlease => exact acquireOn_kept h hr.valid hbusy hlease
  | @release th lease isOpen _ =>
      refine ⟨forall_activity_update h.threads ?_ th, h.log⟩
      exact h.threads th
  | authenticate hbusy _ _ _ => exact (h.setThread (hsame hbusy _)).withSessions _
  | @syncSession th newSid rotated a activeSid found hbusy _ =>
      obtain ⟨m, hend | ⟨sid, hload⟩⟩ :=
        syncSessionOn_cases w th a activeSid newSid rotated found
      · rw [hend]
        exact (h.setThread (hsame hbusy _)).withSessions m
      · rw [hload]
        exact (h.setThread (hsame hbusy _)).withSessions m
  | loaded hbusy _ => exact (h.setThread (hsame hbusy _)).withSessions _
  | askAsync hbusy _ _ _ =>
      apply h.setThread
      intro a' ha' _
      cases ha'
      exact (hk _ hbusy).symm
  | finish _ =>
      apply h.setThread
      intro a' ha'
      cases ha'
  | switchCompany => exact h.withSessions _
  | drop => exact h.withSessions _

end Kept

/-- Every lease of a signed-in session is of its tenant's pool, and a connection
to its tenant's database. -/
def World.OwnLeases (w : World) : Prop :=
  ∀ r ∈ w.log, r.handler.session.isAuthenticated = true →
    r.lease.tenant = r.handler.session.db ∧ r.lease.conn.db = r.handler.session.db

lemma boot_kept (cfg : DbConfig) (tenants : List TenantConfig) :
    (World.boot cfg tenants).Kept where
  threads := by
    intro th a ha
    cases ha
  log := by
    intro r hr
    cases hr

lemma reaches_kept {cfg : DbConfig} {tenants : List TenantConfig} {w : World}
    (h : Reaches step KeepsTenant (World.boot cfg tenants) w) : w.Kept := by
  have hstep : ∀ s e s', s.Routed ∧ s.Kept → KeepsTenant s e → step s e = some s' →
      s'.Routed ∧ s'.Kept := by
    rintro s e s' ⟨hrouted, hkept⟩ hk hs
    exact ⟨step_routed hrouted hs, step_kept hkept hrouted hk hs⟩
  exact (h.invariant hstep ⟨boot_routed cfg tenants, boot_kept cfg tenants⟩).2

/-- **Every request is served by its session's own tenant**, in every run whose
events keep the tenants; and in every run whatsoever, a thread between two
requests has nothing selected. -/
theorem sessions_keep_tenant (cfg : DbConfig) (tenants : List TenantConfig) :
    (∀ w, Reaches step KeepsTenant (World.boot cfg tenants) w → w.OwnLeases) ∧
    ∀ w, Reaches step (fun _ _ => True) (World.boot cfg tenants) w →
      ∀ th, (w.threads th).activity = none → (w.threads th).selected = "" := by
  constructor
  · intro w h r hr hauth
    have hlease := (reaches_routed h).log r hr
    have hown := (reaches_kept h).log r hr hauth
    rw [← hown]
    exact hlease
  · intro w h th hidle
    exact selected_of_idle (reaches_routed h) hidle

/-! ### Two runs -/

/-- A default tenant and one more, with a connection each. -/
def mainAndAcme : World := .boot ⟨"main", 1⟩ [⟨⟨"acme", 1⟩, "acme", []⟩]

/-- A login at a tenant, on thread 0, by a user whose session ends up under the
id `s2`; the export of that session, on thread 1. -/
def loginThenExport (db : String) (serial : ℕ) : List Event :=
  let lease : PooledConnection := ⟨⟨serial, db⟩, db⟩
  [.begin 0 ⟨"", ""⟩ (.callKw ⟨"res.users", "authenticate",
      .arr [.str db, .str "ann", .str "secret"], .obj []⟩),
   .acquire 0, .release 0 lease true,
   .authenticate 0 "s0" { uid := 7, login := "ann", companyId := 1 },
   .syncSession 0 "s1" "s2",
   .acquire 0, .release 0 lease true,
   .loaded 0 [1], .finish 0,
   .begin 1 ⟨"s2", ""⟩ .exportCsv, .acquire 1]

/-- The tenants of the sessions and of their leases. -/
def World.leaseTenants (w : World) : List (Bool × String × String) :=
  w.log.map fun r => (r.handler.session.isAuthenticated, r.handler.session.db, r.lease.tenant)

/-- A user of the default tenant logs in and exports. -/
theorem sessions_keep_tenant_main :
    ∃ w, execute step KeepsTenant (loginThenExport "main" 0) mainAndAcme = some w ∧
      w.OwnLeases ∧ (w.threads 0).selected = "" ∧
      w.leaseTenants = [(false, "", "main"), (false, "", "main"), (true, "main", "main")] := by
  have hrun : ((execute step KeepsTenant (loginThenExport "main" 0) mainAndAcme).map
      fun w => (w.leaseTenants, (w.threads 0).activity.isNone)) =
      some ([(false, "", "main"), (false, "", "main"), (true, "main", "main")], true) := by
    decide
  obtain ⟨w, hw, hlog⟩ := map_eq_some_iff.mp hrun
  have hreach := reaches_of_execute hw
  obtain ⟨hown, hclean⟩ := sessions_keep_tenant ⟨"main", 1⟩ [⟨⟨"acme", 1⟩, "acme", []⟩]
  have hidle : (w.threads 0).activity = none := by
    rw [← isNone_iff_eq_none]
    exact congrArg Prod.snd hlog
  exact ⟨w, hw, hown w hreach, hclean w (hreach.mono fun _ _ _ => trivial) 0 hidle,
    congrArg Prod.fst hlog⟩

/-- A user of the other tenant logs in and exports: from the default one. -/
theorem export_served_by_main : ¬ ∀ (cfg : DbConfig) (tenants : List TenantConfig) (w : World),
      Reaches step (fun _ _ => True) (World.boot cfg tenants) w → w.OwnLeases := by
  intro hall
  have hrun : (execute step (fun _ _ => True) (loginThenExport "acme" 1) mainAndAcme).map
      World.leaseTenants =
      some [(false, "", "acme"), (false, "", "acme"), (true, "acme", "main")] := by
    decide
  obtain ⟨w, hw, hlog⟩ := map_eq_some_iff.mp hrun
  have hown := hall ⟨"main", 1⟩ [⟨⟨"acme", 1⟩, "acme", []⟩] w (reaches_of_execute hw)
  have hmem : (true, "acme", "main") ∈ w.leaseTenants := by
    rw [hlog]
    decide
  obtain ⟨r, hr, heq⟩ := List.mem_map.mp hmem
  simp only [Prod.mk.injEq] at heq
  obtain ⟨hauth, hdb, htenant⟩ := heq
  have hsame := (hown r hr hauth).1
  rw [hdb, htenant] at hsame
  exact absurd hsame (by decide)

end CErp
