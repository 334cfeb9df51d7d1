/-
Which tenant's database a request is served from.

The handlers run on worker threads.  A thread has at most one tenant selected
(`selected`, thread-local), and every connection a handler leases comes from
that tenant's pool, or from the default one when nothing is selected.  Only the
remote-call route selects a tenant, for the time of the call; the CSV routes,
the attachment routes and the job threads take what they find, and what they
find is always nothing (`idle_clean`).

`World` is the router, the session store, the threads and a record of the
leases given out; `step` is one event at one thread.  Any order of the events
of any number of threads is a run.
-/
import CErp.DbConnection
import CErp.Runs
import CErp.SessionManager

namespace CErp

/-! ### Choosing the tenant of a call -/

/-- The tenant an `authenticate` call asks for: the database argument, or else
where the Host header routes, or else where the login's mail domain routes. -/
def requestedTenant (db : DbConnection) (req : HttpRequest) (call : CallKwArgs) : String :=
  let named := (call.arg 0).text
  let byHost := db.resolveHost req.host
  let t := if (named.isEmpty || !db.hasTenant named) && !byHost.isEmpty then byHost else named
  match call.arg 1 with
  | .str login =>
      let byEmail := db.resolveEmailDomain login
      if (t.isEmpty || !db.hasTenant t) && !byEmail.isEmpty then byEmail else t
  | _ => t

/-- The tenant a call is served by. -/
def resolveTenant (db : DbConnection) (req : HttpRequest) (call : CallKwArgs)
    (session : Session) : String :=
  let t := if call.method = "authenticate" then requestedTenant db req call
    else if session.isAuthenticated then session.db else ""
  if t.isEmpty || !db.hasTenant t then db.defaultTenant else t

/-- An `authenticate` call without a database argument is given the tenant it
was routed to. -/
def bindTenant (reqTenant : String) (call : CallKwArgs) : CallKwArgs :=
  match call.args with
  | .arr (a :: rest) =>
      let named := match a with
        | .str s => !s.isEmpty
        | _ => false
      if call.method = "authenticate" ∧ named = false then
        { call with args := .arr (.str reqTenant :: rest) }
      else call
  | _ => call

/-- The database name `authenticate` writes into the session and echoes. -/
def authenticateDb (dbName : String) (call : CallKwArgs) : String :=
  match call.arg 0 with
  | .str s => s
  | _ => dbName

/-- The database name the session is bound to after a login. -/
def boundDb (reqTenant echoed : String) : String :=
  if reqTenant.isEmpty then echoed else reqTenant

def isPublicMethod (method : String) : Bool :=
  ["authenticate", "get_session_info", "logout", "list_db", "server_version"].contains method

/-- What `ask_async` demands before it starts a job. -/
def asksJob (session : Session) (call : CallKwArgs) : Bool :=
  call.model = "ir.ai.settings" && call.method = "ask_async" && session.isAdmin &&
    match (call.arg 0).find? "query" with
    | some (.str query) => !query.isEmpty && query.utf8ByteSize ≤ 2000
    | _ => false

/-! ### Threads -/

/-- The route a request came in by, or the thread of a job. -/
inductive Door where
  | callKw (call : CallKwArgs)
  | exportCsv
  | importCsv
  | upload
  | content
  | job

/-- How far a handler is.  `authenticated` and `loading` are the end of a
login: the user is found and written to the session, then the companies are
read in a scope of their own, which leaves nothing selected. -/
inductive Phase where
  | running
  | authenticated (activeSid : String) (found : Session)
  | loading (sid : String)
  | closing

/-- A handler at work.  `session` is the copy it took at the start. -/
structure Activity where
  door : Door
  sid : String
  session : Session
  reqTenant : String
  phase : Phase

structure Thread where
  selected : String := ""
  activity : Option Activity := none
  held : List PooledConnection := []

/-- A lease given out, and the handler it was given to. -/
structure Served where
  handler : Activity
  lease : PooledConnection

structure World where
  db : DbConnection
  sessions : SessionManager
  threads : ℕ → Thread
  log : List Served

namespace World

def setThread (w : World) (th : ℕ) (t : Thread) : World :=
  { w with threads := Function.update w.threads th t }

end World

/-- A tenant of the configuration. -/
structure TenantConfig where
  cfg : DbConfig
  subdomain : String
  emailDomains : List String

/-- The server before its first request: every configured tenant registered,
nobody logged in, no thread busy. -/
def World.boot (cfg : DbConfig) (tenants : List TenantConfig) : World where
  db := tenants.foldl (fun db t => db.registerTenant t.cfg t.subdomain t.emailDomains)
    (DbConnection.ofConfig cfg)
  sessions := .empty
  threads := fun _ => {}
  log := []

/-! ### Events -/

inductive Event where
  /-- A request arrives on an idle thread. -/
  | begin (th : ℕ) (req : HttpRequest) (door : Door)
  | acquire (th : ℕ)
  | release (th : ℕ) (lease : PooledConnection) (isOpen : Bool)
  /-- `authenticate` has found the user and writes the session. -/
  | authenticate (th : ℕ) (newSid : String) (found : Session)
  /-- The dispatcher binds the session to the tenant, under a new id. -/
  | syncSession (th : ℕ) (newSid rotated : String)
  /-- The companies are read, their scope ends. -/
  | loaded (th : ℕ) (companies : List ℤ)
  | askAsync (th worker : ℕ)
  | finish (th : ℕ)
  /-- The company switcher files a session of another tenant. -/
  | switchCompany (sid : String) (found : Session)
  | drop (sid : String)

/-- The session of a route other than the remote-call one: by cookie, and
signed in. -/
def getSession (m : SessionManager) (req : HttpRequest) : Option Session :=
  if req.cookie.isEmpty then none else (m.get req.cookie).filter Session.isAuthenticated

/-- The remote-call handler up to the view model: it selects the tenant. -/
def beginRpc (w : World) (th : ℕ) (req : HttpRequest) (call : CallKwArgs) : World :=
  let sid := resolveSessionId w.sessions req call
  let session := (w.sessions.get sid).getD {}
  let reqTenant := resolveTenant w.db req call session
  let phase := if isPublicMethod call.method || session.isAuthenticated
    then Phase.running else Phase.closing
  w.setThread th
    { w.threads th with
      selected := reqTenant
      activity := some ⟨.callKw (bindTenant reqTenant call), sid, session, reqTenant, phase⟩ }

/-- The handler of any other route: it selects nothing. -/
def beginRoute (w : World) (th : ℕ) (req : HttpRequest) (door : Door) : World :=
  match getSession w.sessions req with
  | none => w
  | some session =>
      w.setThread th
        { w.threads th with activity := some ⟨door, req.cookie, session, "", .running⟩ }

/-- A lease for the handler on a thread. -/
def acquireOn (w : World) (th : ℕ) (a : Activity) : Option World :=
  (w.db.acquire (w.threads th).selected).map fun (lease, db) =>
    { w with
      db := db
      threads := Function.update w.threads th
        { w.threads th with held := lease :: (w.threads th).held }
      log := w.log ++ [⟨a, lease⟩] }

/-- `authenticate` writes the user it found into the caller's session, or into
a new one. -/
def authenticateOn (w : World) (th : ℕ) (a : Activity) (call : CallKwArgs) (newSid : String)
    (found : Session) : World :=
  let db := authenticateDb w.db.defaultTenant call
  let user := { found with db := db }
  let activeSid := if a.sid.isEmpty then newSid else a.sid
  let sessions := if (w.sessions.get activeSid).isNone || a.sid.isEmpty
    then w.sessions.create newSid db else w.sessions
  { w.setThread th { w.threads th with
      activity := some { a with phase := .authenticated activeSid user } } with
    sessions := sessions.update activeSid fun s =>
      { user with allowedCompanyIds := s.allowedCompanyIds } }

/-- The dispatcher's part of a login: the session moves to a new id, is bound
to the tenant the call was routed to, and its companies are looked up there. -/
def syncSessionOn (w : World) (th : ℕ) (a : Activity) (activeSid : String) (found : Session)
    (newSid rotated : String) : World :=
  let (cookieSid, m) :=
    if activeSid.isEmpty || (w.sessions.get activeSid).isNone
    then (newSid, w.sessions.create newSid "") else (activeSid, w.sessions)
  let (sid', m) := m.rotate cookieSid rotated
  let cookieSid := if sid'.isEmpty then cookieSid else sid'
  let m := m.update cookieSid fun s =>
    { found with
      db := boundDb a.reqTenant found.db
      allowedCompanyIds := s.allowedCompanyIds }
  match m.get cookieSid with
  | none =>
      { w.setThread th { w.threads th with activity := some { a with phase := .closing } } with
        sessions := m }
  | some s =>
      { w.setThread th { w.threads th with
          selected := s.db
          activity := some { a with phase := .loading cookieSid } } with
        sessions := m }

/-- The handler returns.  The remote-call handler clears the selection, the
others leave it alone. -/
def finishOn (w : World) (th : ℕ) (a : Activity) : World :=
  let selected := match a.door with
    | .callKw _ => ""
    | _ => (w.threads th).selected
  w.setThread th { w.threads th with selected := selected, activity := none }

/-- One event. -/
def step (w : World) : Event → Option World
  | .begin th req door =>
      match (w.threads th).activity, door with
      | none, .callKw call => some (beginRpc w th req call)
      | none, .job => none
      | none, door => some (beginRoute w th req door)
      | some _, _ => none
  | .acquire th =>
      match (w.threads th).activity with
      | some a =>
          match a.phase with
          | .running => acquireOn w th a
          | .loading _ => acquireOn w th a
          | _ => none
      | none => none
  | .release th lease isOpen =>
      if lease ∈ (w.threads th).held then
        some { w.setThread th { w.threads th with held := (w.threads th).held.erase lease } with
          db := w.db.release lease isOpen }
      else none
  | .authenticate th newSid found =>
      match (w.threads th).activity with
      | some ⟨.callKw call, sid, session, reqTenant, .running⟩ =>
          if call.model = "res.users" ∧ call.method = "authenticate" ∧ found.isAuthenticated then
            some (authenticateOn w th ⟨.callKw call, sid, session, reqTenant, .running⟩ call
              newSid found)
          else none
      | _ => none
  | .syncSession th newSid rotated =>
      match (w.threads th).activity with
      | some a =>
          match a.phase with
          | .authenticated activeSid found =>
              some (syncSessionOn w th a activeSid found newSid rotated)
          | _ => none
      | none => none
  | .loaded th companies =>
      match (w.threads th).activity with
      | some a =>
          match a.phase with
          | .loading sid =>
              if (w.threads th).held = [] then
                some { w.setThread th { w.threads th with
                    selected := "", activity := some { a with phase := .closing } } with
                  sessions := w.sessions.update sid (·.loadAllowedCompanies companies) }
              else none
          | _ => none
      | none => none
  | .askAsync th worker =>
      match (w.threads th).activity, (w.threads worker).activity with
      | some ⟨.callKw call, sid, session, _, .running⟩, none =>
          -- a new thread, whose thread-local selection is empty
          if asksJob session call then
            some (w.setThread worker { activity := some ⟨.job, sid, session, "", .running⟩ })
          else none
      | _, _ => none
  | .finish th =>
      match (w.threads th).activity with
      | some a => if (w.threads th).held = [] then some (finishOn w th a) else none
      | none => none
  | .switchCompany sid found =>
      some { w with sessions := (w.sessions.create sid "").update sid fun _ => found }
  | .drop sid => some { w with sessions := w.sessions.drop sid }

/-! ### What an event can be -/

/-- The events that happen, one case for each way they can. -/
inductive Happens (w : World) : Event → World → Prop
  | beginRpc {th req call} (idle : (w.threads th).activity = none) :
      Happens w (.begin th req (.callKw call)) (beginRpc w th req call)
  | beginRoute {th req door} (idle : (w.threads th).activity = none)
      (route : ∀ call, door ≠ .callKw call) :
      Happens w (.begin th req door) (beginRoute w th req door)
  | acquire {th a w'} (busy : (w.threads th).activity = some a)
      (leasing : a.phase ≠ .closing) (lease : acquireOn w th a = some w') :
      Happens w (.acquire th) w'
  | release {th lease isOpen} (held : lease ∈ (w.threads th).held) :
      Happens w (.release th lease isOpen)
        { w.setThread th { w.threads th with held := (w.threads th).held.erase lease } with
          db := w.db.release lease isOpen }
  | authenticate {th newSid found a call} (busy : (w.threads th).activity = some a)
      (door : a.door = .callKw call) (running : a.phase = .running)
      (method : call.method = "authenticate") :
      Happens w (.authenticate th newSid found) (authenticateOn w th a call newSid found)
  | syncSession {th newSid rotated a activeSid found} (busy : (w.threads th).activity = some a)
      (waiting : a.phase = .authenticated activeSid found) :
      Happens w (.syncSession th newSid rotated)
        (syncSessionOn w th a activeSid found newSid rotated)
  | loaded {th companies a sid} (busy : (w.threads th).activity = some a)
      (loading : a.phase = .loading sid) :
      Happens w (.loaded th companies)
        { w.setThread th { w.threads th with
            selected := "", activity := some { a with phase := .closing } } with
          sessions := w.sessions.update sid (·.loadAllowedCompanies companies) }
  | askAsync {th worker a call} (busy : (w.threads th).activity = some a)
      (door : a.door = .callKw call) (idle : (w.threads worker).activity = none)
      (asks : asksJob a.session call = true) :
      Happens w (.askAsync th worker)
        (w.setThread worker { activity := some ⟨.job, a.sid, a.session, "", .running⟩ })
  | finish {th a} (busy : (w.threads th).activity = some a) :
      Happens w (.finish th) (finishOn w th a)
  | switchCompany {sid found} : Happens w (.switchCompany sid found)
        { w with sessions := (w.sessions.create sid "").update sid fun _ => found }
  | drop {sid} : Happens w (.drop sid) { w with sessions := w.sessions.drop sid }

lemma happens_of_step {w w' : World} {e : Event} (h : step w e = some w') : Happens w e w' := by
  cases e with
  | begin th req door =>
      rcases hidle : (w.threads th).activity with - | a
      · cases door with
        | callKw call =>
            simp only [step, hidle, Option.some.injEq] at h
            exact h ▸ .beginRpc hidle
        | job => simp [step, hidle] at h
        | _ =>
            simp only [step, hidle, Option.some.injEq] at h
            refine h ▸ .beginRoute hidle ?_
            intro call hdoor
            cases hdoor
      · simp [step, hidle] at h
  | acquire th =>
      rcases hbusy : (w.threads th).activity with - | a
      · simp [step, hbusy] at h
      · rcases hphase : a.phase with - | ⟨sid, found⟩ | sid | -
        · simp only [step, hbusy, hphase] at h
          exact .acquire hbusy (by simp [hphase]) h
        · simp [step, hbusy, hphase] at h
        · simp only [step, hbusy, hphase] at h
          exact .acquire hbusy (by simp [hphase]) h
        · simp [step, hbusy, hphase] at h
  | release th lease isOpen =>
      simp only [step] at h
      split at h
      · next hheld =>
          cases h
          exact .release hheld
      · cases h
  | authenticate th newSid found =>
      simp only [step] at h
      split at h
      · next call sid session reqTenant hbusy =>
          split at h
          · next hcall =>
              cases h
              exact .authenticate hbusy rfl rfl hcall.2.1
          · cases h
      · cases h
  | syncSession th newSid rotated =>
      rcases hbusy : (w.threads th).activity with - | a
      · simp [step, hbusy] at h
      · rcases hphase : a.phase with - | ⟨sid, found⟩ | sid | -
        case authenticated =>
          simp only [step, hbusy, hphase, Option.some.injEq] at h
          exact h ▸ .syncSession hbusy hphase
        all_goals simp [step, hbusy, hphase] at h
  | loaded th companies =>
      rcases hbusy : (w.threads th).activity with - | a
      · simp [step, hbusy] at h
      · rcases hphase : a.phase with - | ⟨sid, found⟩ | sid | -
        case loading =>
          simp only [step, hbusy, hphase] at h
          split at h
          · cases h
            exact .loaded hbusy hphase
          · cases h
        all_goals simp [step, hbusy, hphase] at h
  | askAsync th worker =>
      simp only [step] at h
      split at h
      · next call sid session reqTenant hbusy hidle =>
          split at h
          · next hasks =>
              cases h
              exact .askAsync hbusy rfl hidle hasks
          · cases h
      · cases h
  | finish th =>
      rcases hbusy : (w.threads th).activity with - | a
      · simp [step, hbusy] at h
      · simp only [step, hbusy] at h
        split at h
        · cases h
          exact .finish hbusy
        · cases h
  | switchCompany sid found =>
      cases h
      exact .switchCompany
  | drop sid =>
      cases h
      exact .drop

end CErp
