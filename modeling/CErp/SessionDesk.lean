/-
The requests that make a session somebody's: login, logout, the switch to a
company of another tenant, and the two that change the active company.

A session's fields are copied one by one in five places, each with a list of its
own.  The model keeps the lists: `fill` is the view model's, `sync` the
dispatcher's, `switchedSession` the switch's.  The databases, and whether they
answer, come from outside; `edit` is anything that happens to them in between.

`authenticate_sessions` and `step_sessions` say what each event can leave in the
store; `session_invariant` is the rule that carries this over a run.
-/
import CErp.ModelAccess
import CErp.Runs
import Mathlib.Data.List.Rotate

namespace CErp

open List Option Function

/-! ### The control plane -/

/-- A row of `mc_membership`. -/
structure Membership where
  identity : String
  tenantDb : String
  localLogin : String
  active : Bool := true
deriving DecidableEq

/-- `mc_membership`, one row for an identity in a tenant. -/
structure ControlPlane where
  rows : List Membership
  key : rows.Pairwise fun a b => (a.identity, a.tenantDb) ≠ (b.identity, b.tenantDb)

namespace ControlPlane

/-- An active row links the identity to the login in the tenant. -/
def Links (cp : ControlPlane) (identity tenantDb localLogin : String) : Prop :=
  (⟨identity, tenantDb, localLogin, true⟩ : Membership) ∈ cp.rows

/-- The identity of a login in a tenant.  Of several rows the database takes any,
here the one `choice` comes to. -/
def identityFor (cp : ControlPlane) (choice : ℕ) (tenantDb localLogin : String) : String :=
  if tenantDb = "" ∨ localLogin = "" then ""
  else
    (((cp.rows.filter fun m => m.tenantDb = tenantDb && m.localLogin = localLogin && m.active).rotate
      choice).head?.map (·.identity)).getD ""

/-- The login of an identity in a tenant. -/
def loginFor (cp : ControlPlane) (identity tenantDb : String) : String :=
  if identity = "" ∨ tenantDb = "" then ""
  else
    ((cp.rows.find? fun m => m.identity = identity && m.tenantDb = tenantDb && m.active).map
      (·.localLogin)).getD ""

lemma links_of_identityFor {cp : ControlPlane} {choice : ℕ} {t l : String}
    (h : cp.identityFor choice t l ≠ "") : t ≠ "" ∧ cp.Links (cp.identityFor choice t l) t l := by
  unfold identityFor at h ⊢
  split at h
  · exact absurd rfl h
  · next hne =>
      rw [if_neg hne]
      obtain ⟨ht, -⟩ := not_or.mp hne
      refine ⟨ht, ?_⟩
      rcases hhead : ((cp.rows.filter fun m => m.tenantDb = t && m.localLogin = l &&
          m.active).rotate choice).head? with - | m
      · rw [hhead] at h
        exact absurd rfl h
      · rw [hhead]
        show cp.Links m.identity t l
        have hmem : m ∈ cp.rows.filter fun m => m.tenantDb = t && m.localLogin = l && m.active :=
          mem_rotate.mp (mem_of_mem_head? (mem_def.mpr hhead))
        simp only [mem_filter, Bool.and_eq_true, decide_eq_true_eq] at hmem
        obtain ⟨hrow, ⟨rfl, rfl⟩, hactive⟩ := hmem
        show (⟨m.identity, m.tenantDb, m.localLogin, true⟩ : Membership) ∈ cp.rows
        rw [← hactive]
        exact hrow

lemma links_of_loginFor {cp : ControlPlane} {i t : String} (h : cp.loginFor i t ≠ "") :
    cp.Links i t (cp.loginFor i t) := by
  unfold loginFor at h ⊢
  split at h
  · exact absurd rfl h
  · next hne =>
      rw [if_neg hne]
      rcases hfind : cp.rows.find? fun m => m.identity = i && m.tenantDb = t && m.active with - | m
      · rw [hfind] at h
        exact absurd rfl h
      · rw [hfind]
        show cp.Links i t m.localLogin
        have hmem := mem_of_find?_eq_some hfind
        have hm := find?_some hfind
        simp only [Bool.and_eq_true, decide_eq_true_eq] at hm
        obtain ⟨⟨rfl, rfl⟩, hactive⟩ := hm
        show (⟨m.identity, m.tenantDb, m.localLogin, true⟩ : Membership) ∈ cp.rows
        rw [← hactive]
        exact hmem

end ControlPlane

/-! ### The users of a tenant -/

/-- What a login reads of a row of `res_users`: `accepts` are the passwords its
hash verifies. -/
structure TenantUser where
  id : ℤ
  login : String
  accepts : String → Bool
  active : Bool := true
  partnerId : Option ℤ := none
  companyId : Option ℤ := none
  groupIds : List ℤ := []

/-- A tenant's users, and the active companies `res_company_users_rel` gives each
(none before the table is there). -/
structure TenantDb where
  users : List TenantUser
  allowed : ℤ → List ℤ
  serial : ∀ u ∈ users, 0 < u.id
  companies : ∀ uid, ∀ c ∈ allowed uid, 0 < c

namespace TenantDb

/-- `AuthService::authenticate`. -/
def authenticate (db : TenantDb) (login password : String) : Option TenantUser :=
  (db.users.find? fun u => u.login = login).filter fun u => u.active && u.accepts password

/-- The user of `loadTenantUser_`. -/
def activeUser (db : TenantDb) (login : String) : Option TenantUser :=
  db.users.find? fun u => u.login = login && u.active

/-- `UPDATE res_users SET company_id`. -/
def setCompany (db : TenantDb) (uid company : ℤ) : TenantDb where
  users := db.users.map fun u => if u.id = uid then { u with companyId := some company } else u
  allowed := db.allowed
  serial := by
    intro u hu
    obtain ⟨v, hv, rfl⟩ := List.mem_map.mp hu
    have hid : 0 < v.id := db.serial v hv
    split <;> exact hid
  companies := db.companies

lemma authenticate_pos {db : TenantDb} {login password : String} {u : TenantUser}
    (h : db.authenticate login password = some u) : 0 < u.id := by
  obtain ⟨hfind, -⟩ := filter_eq_some_iff.mp h
  exact db.serial u (mem_of_find?_eq_some hfind)

lemma activeUser_login {db : TenantDb} {login : String} {u : TenantUser}
    (h : db.activeUser login = some u) : u.login = login ∧ 0 < u.id := by
  have hu := find?_some h
  simp only [Bool.and_eq_true, decide_eq_true_eq] at hu
  exact ⟨hu.1, db.serial u (mem_of_find?_eq_some h)⟩

end TenantDb

/-! ### Sessions -/

/-- A session with the identity it is known under across tenants. -/
structure BrowserSession extends Session where
  identity : String := ""
deriving DecidableEq

namespace BrowserSession

/-- What the control plane is asked about. -/
def knownAs (s : BrowserSession) : String := if s.identity = "" then s.login else s.identity

/-- The view model writes the user it authenticated into the session. -/
def fill (s : BrowserSession) (u : TenantUser) (login db : String) : BrowserSession :=
  { s with
    uid := u.id
    login := login
    db := db
    partnerId := u.partnerId.getD 0
    companyId := u.companyId.getD 0
    isAdmin := u.groupIds.contains Groups.BASE_ADMIN
    groupIds := u.groupIds }

/-- The dispatcher writes the view model's answer, where a record that is not
there is `false`. -/
def sync (s : BrowserSession) (u : TenantUser) (login db identity : String) : BrowserSession :=
  { s with
    uid := u.id
    login := login
    db := db
    identity := identity
    isAdmin := u.groupIds.contains Groups.BASE_ADMIN
    partnerId := if 0 < u.partnerId.getD 0 then u.partnerId.getD 0 else s.partnerId
    companyId := if 0 < u.companyId.getD 0 then u.companyId.getD 0 else s.companyId
    groupIds := u.groupIds }

/-- `loadAllowedCompanies_`, where the database answers. -/
def withCompanies (s : BrowserSession) (found : List ℤ) : BrowserSession :=
  { s with toSession := s.toSession.loadAllowedCompanies found }

end BrowserSession

/-- The tenants' databases and the sessions under their ids. -/
structure Desk where
  tenants : String → TenantDb
  sessions : String → Option BrowserSession

variable {s : BrowserSession} {sid : String} {w : Desk}

namespace Desk

/-- An anonymous session. -/
def create (w : Desk) (sid db : String) : Desk :=
  { w with sessions := Function.update w.sessions sid (some { db := db }) }

def update (w : Desk) (sid : String) (patch : BrowserSession → BrowserSession) : Desk :=
  { w with sessions := Function.update w.sessions sid ((w.sessions sid).map patch) }

def rotate (w : Desk) (oldId newId : String) : Desk :=
  { w with sessions :=
      Function.update (Function.update w.sessions oldId none) newId (w.sessions oldId) }

lemma create_sessions {id db : String} (h : (w.create id db).sessions sid = some s) :
    (sid = id ∧ s = { db := db }) ∨ (sid ≠ id ∧ w.sessions sid = some s) := by
  unfold create at h
  by_cases hsid : sid = id
  · subst hsid
    simp only [update_self, Option.some.injEq] at h
    exact .inl ⟨rfl, h.symm⟩
  · simp only [update_of_ne hsid] at h
    exact .inr ⟨hsid, h⟩

lemma update_sessions {id : String} {patch : BrowserSession → BrowserSession}
    (h : (w.update id patch).sessions sid = some s) :
    (sid = id ∧ ∃ old, w.sessions id = some old ∧ s = patch old) ∨
      (sid ≠ id ∧ w.sessions sid = some s) := by
  unfold update at h
  by_cases hsid : sid = id
  · subst hsid
    simp only [update_self, map_eq_some_iff] at h
    obtain ⟨old, hold, rfl⟩ := h
    exact .inl ⟨rfl, old, hold, rfl⟩
  · simp only [update_of_ne hsid] at h
    exact .inr ⟨hsid, h⟩

lemma rotate_sessions {old new : String} (h : (w.rotate old new).sessions sid = some s) :
    (sid = new ∧ w.sessions old = some s) ∨ (sid ≠ new ∧ sid ≠ old ∧ w.sessions sid = some s) := by
  unfold rotate at h
  by_cases hnew : sid = new
  · subst hnew
    simp only [update_self] at h
    exact .inl ⟨rfl, h⟩
  · simp only [update_of_ne hnew] at h
    by_cases hold : sid = old
    · subst hold
      simp only [update_self] at h
      cases h
    · simp only [update_of_ne hold] at h
      exact .inr ⟨hnew, hold, h⟩

end Desk

/-! ### Login -/

/-- An `authenticate` call: the session it comes with, the tenant it was routed
to, the database name it echoes, the ids drawn for it, and what answers. -/
structure LoginCall where
  sid : String := ""
  reqTenant : String
  echoed : String := ""
  login : String
  password : String
  newSid : String
  spareSid : String := ""
  dispatcherSid : String := ""
  rotatedSid : String
  choice : ℕ := 0
  controlAnswers : Bool := true
  companiesAnswer : Bool := true
deriving DecidableEq

namespace LoginCall

/-- The tenant the session is bound to. -/
def boundTo (c : LoginCall) : String := if c.reqTenant = "" then c.echoed else c.reqTenant

/-- The identity the session is given: the login where the control plane knows
none, `none` where it does not answer. -/
def sessionIdentity (c : LoginCall) (cp : Option ControlPlane) : Option String :=
  match cp with
  | none => some c.login
  | some cp =>
      if c.controlAnswers then
        let found := cp.identityFor c.choice c.reqTenant c.login
        some (if found = "" then c.login else found)
      else none

/-- The user a call authenticates. -/
def user (c : LoginCall) (w : Desk) : Option TenantUser :=
  if c.login = "" ∨ c.password = "" then none
  else (w.tenants c.reqTenant).authenticate c.login c.password

/-- The id the view model writes to. -/
def activeSid (c : LoginCall) : String := if c.sid = "" then c.newSid else c.sid

/-- The session a call starts from. -/
def start (c : LoginCall) (w : Desk) : BrowserSession :=
  if c.sid = "" then { db := c.echoed } else (w.sessions c.sid).getD { db := c.echoed }

end LoginCall

namespace Desk

/-- The session a login works on: one is created for a call that comes without,
and a spare one where the call's is gone. -/
def openSession (w : Desk) (c : LoginCall) : Desk :=
  if c.sid = "" then w.create c.newSid c.echoed
  else if (w.sessions c.sid).isSome then w
  else w.create c.spareSid c.echoed

/-- `AuthViewModel::handleAuthenticate`: the id of the session and the user. -/
def handleAuthenticate (w : Desk) (c : LoginCall) : Desk × Option (String × TenantUser) :=
  if c.login = "" ∨ c.password = "" then (w, none)
  else
    match c.user w with
    | none => (w.openSession c, none)
    | some u =>
        ((w.openSession c).update c.activeSid (·.fill u c.login c.echoed), some (c.activeSid, u))

/-- What the dispatcher makes of a session once the login is known. -/
def landed (w : Desk) (cp : Option ControlPlane) (c : LoginCall) (u : TenantUser)
    (s : BrowserSession) : BrowserSession :=
  match c.sessionIdentity cp with
  | none => s
  | some identity =>
      let s := s.sync u c.login c.boundTo identity
      if c.companiesAnswer then s.withCompanies ((w.tenants s.db).allowed s.uid) else s

/-- The end of `handleCallKw_` for `authenticate`. -/
def syncSession (w : Desk) (cp : Option ControlPlane) (c : LoginCall) (activeSid : String)
    (u : TenantUser) : Desk :=
  let known := (w.sessions activeSid).isSome
  let cookieSid := if known then activeSid else c.dispatcherSid
  let w := if known then w else w.create c.dispatcherSid ""
  (w.rotate cookieSid c.rotatedSid).update c.rotatedSid (w.landed cp c u)

def authenticate (w : Desk) (cp : Option ControlPlane) (c : LoginCall) : Desk :=
  match w.handleAuthenticate c with
  | (w, none) => w
  | (w, some (activeSid, u)) => w.syncSession cp c activeSid u

/-! ### The other requests -/

/-- `handleLogout`. -/
def logout (w : Desk) (sid : String) : Desk :=
  if sid = "" then w else w.update sid fun s => { s with uid := 0, login := "" }

/-- The session `handleSwitchCompany_` makes: the fields it copies of the user it
loads. -/
def switchedSession (w : Desk) (cp : Option ControlPlane) (cur : BrowserSession) (target : String) :
    Option BrowserSession :=
  match cp with
  | none => none
  | some cp =>
      if cur.isAuthenticated = false ∨ target = "" then none
      else
        let localLogin := cp.loginFor cur.knownAs target
        if localLogin = "" then none
        else
          ((w.tenants target).activeUser localLogin).map fun u =>
            let ns : BrowserSession :=
              (({} : BrowserSession).fill u u.login target).withCompanies
                ((w.tenants target).allowed u.id)
            { uid := ns.uid
              login := ns.login
              db := target
              identity := cur.knownAs
              partnerId := ns.partnerId
              companyId := ns.companyId
              isAdmin := ns.isAdmin
              groupIds := ns.groupIds }

/-- `handleSwitchCompany_`. -/
def switchCompany (w : Desk) (cp : Option ControlPlane) (sid target newSid : String) : Desk :=
  match w.switchedSession cp ((w.sessions sid).getD {}) target with
  | none => w
  | some ns => { w with sessions := Function.update w.sessions newSid (some ns) }

/-- The companies of a session, read again if the database answers. -/
def reloaded (w : Desk) (answers : Bool) (s : BrowserSession) : BrowserSession :=
  if answers then s.withCompanies ((w.tenants s.db).allowed s.uid) else s

/-- `handleMyCompanies_`. -/
def myCompanies (w : Desk) (sid : String) (answers : Bool) : Desk :=
  match w.sessions sid with
  | none => w
  | some cur =>
      if cur.isAuthenticated then
        let s := w.reloaded answers cur
        w.update sid fun t =>
          { t with allowedCompanyIds := s.allowedCompanyIds, companyId := s.companyId }
      else w

/-- `handleSetActiveCompany_`. -/
def setActiveCompany (w : Desk) (sid : String) (want : ℤ) (answers writes : Bool) : Desk :=
  match w.sessions sid with
  | none => w
  | some cur =>
      let s := w.reloaded answers cur
      if cur.isAuthenticated ∧ 0 < want ∧ s.allowedCompanyIds.contains want ∧ writes then
        let changed := (w.tenants s.db).setCompany s.uid want
        let w : Desk := { w with tenants := Function.update w.tenants s.db changed }
        w.update sid fun t =>
          { t with companyId := want, allowedCompanyIds := s.allowedCompanyIds }
      else w

end Desk

/-- A request, or what happens besides: a session expires or is evicted, the
databases change. -/
inductive DeskEvent where
  | authenticate (call : LoginCall)
  | logout (sid : String)
  | switchCompany (sid target newSid : String)
  | myCompanies (sid : String) (answers : Bool)
  | setActiveCompany (sid : String) (want : ℤ) (answers writes : Bool)
  | expire (sid : String)
  | edit (tenants : String → TenantDb)

namespace Desk

/-- One event. -/
def step (cp : Option ControlPlane) (w : Desk) : DeskEvent → Desk
  | .authenticate call => w.authenticate cp call
  | .logout sid => w.logout sid
  | .switchCompany sid target newSid => w.switchCompany cp sid target newSid
  | .myCompanies sid answers => w.myCompanies sid answers
  | .setActiveCompany sid want answers writes => w.setActiveCompany sid want answers writes
  | .expire sid => { w with sessions := Function.update w.sessions sid none }
  | .edit tenants => { w with tenants := tenants }

/-! ### What a login leaves -/

/-- A session that was there, or an anonymous one. -/
def Old (w : Desk) (s : BrowserSession) : Prop :=
  (∃ sid, w.sessions sid = some s) ∨ ∃ db, s = { db := db }

lemma old_of_create {id db : String} (h : (w.create id db).sessions sid = some s) : w.Old s := by
  obtain ⟨-, rfl⟩ | ⟨-, h⟩ := create_sessions h
  · exact .inr ⟨db, rfl⟩
  · exact .inl ⟨sid, h⟩

variable {c : LoginCall}

lemma openSession_old (h : (w.openSession c).sessions sid = some s) : w.Old s := by
  unfold openSession at h
  split_ifs at h
  · exact old_of_create h
  · exact .inl ⟨sid, h⟩
  · exact old_of_create h

lemma openSession_start (h : (w.openSession c).sessions c.activeSid = some s) :
    s = c.start w := by
  unfold openSession LoginCall.activeSid at h
  unfold LoginCall.start
  split_ifs at h ⊢ with hsid hfound
  · obtain ⟨-, rfl⟩ | ⟨hne, -⟩ := create_sessions h
    · rfl
    · exact absurd rfl hne
  · rw [h]
    rfl
  · rw [not_isSome_iff_eq_none.mp hfound]
    obtain ⟨-, rfl⟩ | ⟨-, h⟩ := create_sessions h
    · rfl
    · rw [h] at hfound
      exact absurd rfl hfound

lemma openSession_none (h : (w.openSession c).sessions c.activeSid = none) :
    c.sid ≠ "" ∧ w.sessions c.sid = none := by
  unfold openSession LoginCall.activeSid at h
  split_ifs at h with hsid hfound
  · simp [create] at h
  · rw [h] at hfound
    cases hfound
  · exact ⟨hsid, not_isSome_iff_eq_none.mp hfound⟩

/-- What a login that lets a user in makes of the session it starts from, or of
a new one where that one is gone. -/
def LetIn (w : Desk) (cp : Option ControlPlane) (c : LoginCall) (u : TenantUser)
    (s : BrowserSession) : Prop :=
  s = w.landed cp c u ((c.start w).fill u c.login c.echoed) ∨
    (c.sid ≠ "" ∧ w.sessions c.sid = none ∧ s = w.landed cp c u {})

variable {cp : Option ControlPlane}

lemma syncSession_sessions {a : String} {u : TenantUser}
    (h : (w.syncSession cp c a u).sessions sid = some s) :
    (sid ≠ a ∧ w.sessions sid = some s) ∨ (∃ t, w.sessions a = some t ∧ s = w.landed cp c u t) ∨
      (w.sessions a = none ∧ (s = w.landed cp c u {} ∨ s = {})) := by
  unfold syncSession at h
  rcases hknown : w.sessions a with - | t
  · rw [hknown] at h
    obtain ⟨-, old, hold, rfl⟩ | ⟨hne, h⟩ := update_sessions h
    · obtain ⟨-, hold⟩ | ⟨hne, -⟩ := rotate_sessions hold
      · obtain ⟨-, rfl⟩ | ⟨hne, -⟩ := create_sessions hold
        · exact .inr (.inr ⟨rfl, .inl rfl⟩)
        · exact absurd rfl hne
      · exact absurd rfl hne
    · obtain ⟨heq, -⟩ | ⟨-, -, h⟩ := rotate_sessions h
      · exact absurd heq hne
      · obtain ⟨-, rfl⟩ | ⟨-, h⟩ := create_sessions h
        · exact .inr (.inr ⟨rfl, .inr rfl⟩)
        · refine .inl ⟨?_, h⟩
          intro heq
          rw [heq, hknown] at h
          cases h
  · rw [hknown] at h
    obtain ⟨-, old, hold, rfl⟩ | ⟨hne, h⟩ := update_sessions h
    · obtain ⟨-, hold⟩ | ⟨hne, -⟩ := rotate_sessions hold
      · have hold : w.sessions a = some old := hold
        rw [hknown] at hold
        cases hold
        exact .inr (.inl ⟨t, rfl, rfl⟩)
      · exact absurd rfl hne
    · obtain ⟨heq, -⟩ | ⟨-, ha, h⟩ := rotate_sessions h
      · exact absurd heq hne
      · exact .inl ⟨ha, h⟩

/-- A session after a login is an old one, or the one of the user let in. -/
lemma authenticate_sessions (h : (w.authenticate cp c).sessions sid = some s) :
    w.Old s ∨ ∃ u, c.user w = some u ∧ w.LetIn cp c u s := by
  unfold authenticate handleAuthenticate at h
  by_cases hempty : c.login = "" ∨ c.password = ""
  · rw [if_pos hempty] at h
    exact .inl (.inl ⟨sid, h⟩)
  rw [if_neg hempty] at h
  rcases huser : c.user w with - | u
  · rw [huser] at h
    exact .inl (openSession_old h)
  rw [huser] at h
  have hlanded : ∀ t, ((w.openSession c).update c.activeSid (·.fill u c.login c.echoed)).landed cp c u t =
      w.landed cp c u t := by
    intro t
    unfold landed update openSession
    split_ifs <;> rfl
  obtain ⟨hne, h⟩ | ⟨t, ht, rfl⟩ | ⟨hnone, rfl | rfl⟩ := syncSession_sessions h
  · obtain ⟨heq, -⟩ | ⟨-, h⟩ := update_sessions h
    · exact absurd heq hne
    · exact .inl (openSession_old h)
  · obtain ⟨-, old, hold, rfl⟩ | ⟨hne, -⟩ := update_sessions ht
    · rw [hlanded, openSession_start hold]
      exact .inr ⟨u, rfl, .inl rfl⟩
    · exact absurd rfl hne
  · rw [hlanded]
    have hopen : (w.openSession c).sessions c.activeSid = none := by
      simpa [update] using hnone
    obtain ⟨hsid, hgone⟩ := openSession_none hopen
    exact .inr ⟨u, rfl, .inr ⟨hsid, hgone, rfl⟩⟩
  · exact .inl (.inr ⟨"", rfl⟩)

/-! ### What an event leaves -/

/-- The sessions an event makes. -/
def Made (w : Desk) (cp : Option ControlPlane) : DeskEvent → BrowserSession → Prop
  | .authenticate c, s => ∃ u, c.user w = some u ∧ w.LetIn cp c u s
  | .logout sid, s =>
      sid ≠ "" ∧ ∃ t, w.sessions sid = some t ∧ s = { t with uid := 0, login := "" }
  | .switchCompany sid target _, s =>
      w.switchedSession cp ((w.sessions sid).getD {}) target = some s
  | .myCompanies sid answers, s =>
      ∃ t, w.sessions sid = some t ∧ t.isAuthenticated = true ∧ s = { t with
        allowedCompanyIds := (w.reloaded answers t).allowedCompanyIds
        companyId := (w.reloaded answers t).companyId }
  | .setActiveCompany sid want answers _, s =>
      ∃ t, w.sessions sid = some t ∧ t.isAuthenticated = true ∧
        want ∈ (w.reloaded answers t).allowedCompanyIds ∧ s = { t with
          companyId := want
          allowedCompanyIds := (w.reloaded answers t).allowedCompanyIds }
  | .expire _, _ => False
  | .edit _, _ => False

/-- A session after an event is an old one or one the event makes. -/
lemma step_sessions {e : DeskEvent} (h : (w.step cp e).sessions sid = some s) :
    w.Old s ∨ w.Made cp e s := by
  rcases e with c | id | ⟨id, target, new⟩ | ⟨id, answers⟩ | ⟨id, want, answers, writes⟩ | id | tenants
  · exact authenticate_sessions h
  · unfold step logout at h
    dsimp only at h
    split at h
    · exact .inl (.inl ⟨sid, h⟩)
    · next hid =>
        obtain ⟨-, t, ht, rfl⟩ | ⟨-, h⟩ := update_sessions h
        · exact .inr ⟨hid, t, ht, rfl⟩
        · exact .inl (.inl ⟨sid, h⟩)
  · unfold step switchCompany at h
    dsimp only at h
    split at h
    · exact .inl (.inl ⟨sid, h⟩)
    · next ns hns =>
        by_cases hsid : sid = new
        · subst hsid
          simp only [update_self, Option.some.injEq] at h
          rw [← h]
          exact .inr hns
        · simp only [update_of_ne hsid] at h
          exact .inl (.inl ⟨sid, h⟩)
  · unfold step myCompanies at h
    dsimp only at h
    split at h
    · exact .inl (.inl ⟨sid, h⟩)
    · next cur hcur =>
        split at h
        · next hauth =>
            obtain ⟨-, t, ht, rfl⟩ | ⟨-, h⟩ := update_sessions h
            · obtain rfl := mem_unique ht hcur
              exact .inr ⟨t, ht, hauth, rfl⟩
            · exact .inl (.inl ⟨sid, h⟩)
        · exact .inl (.inl ⟨sid, h⟩)
  · unfold step setActiveCompany at h
    dsimp only at h
    split at h
    · exact .inl (.inl ⟨sid, h⟩)
    · next cur hcur =>
        split at h
        · next hmay =>
            obtain ⟨hauth, -, hwant, -⟩ := hmay
            obtain ⟨-, t, ht, rfl⟩ | ⟨-, h⟩ := update_sessions h
            · obtain rfl := mem_unique ht hcur
              exact .inr ⟨t, ht, hauth, contains_iff_mem.mp hwant, rfl⟩
            · exact .inl (.inl ⟨sid, h⟩)
        · exact .inl (.inl ⟨sid, h⟩)
  · unfold step at h
    by_cases hsid : sid = id
    · subst hsid
      simp only [update_self] at h
      cases h
    · simp only [update_of_ne hsid] at h
      exact .inl (.inl ⟨sid, h⟩)
  · exact .inl (.inl ⟨sid, h⟩)

/-! ### Runs -/

/-- The server before its first request. -/
def boot (tenants : String → TenantDb) : Desk := ⟨tenants, fun _ => none⟩

/-- **The rule for sessions.**  What anonymous sessions have, and each event that
meets a condition gives the sessions it makes, every session has. -/
theorem session_invariant {ok : Desk → DeskEvent → Prop} {P : BrowserSession → Prop}
    {tenants : String → TenantDb}
    (hrun : Runs.Reaches (fun w e => some (w.step cp e)) ok (boot tenants) w)
    (hnew : ∀ db, P { db := db })
    (hmade : ∀ w e s, (∀ sid s, w.sessions sid = some s → P s) → ok w e → w.Made cp e s → P s) :
    ∀ sid s, w.sessions sid = some s → P s := by
  have hstep : ∀ w e w', (∀ sid s, w.sessions sid = some s → P s) → ok w e →
      some (w.step cp e) = some w' → ∀ sid s, w'.sessions sid = some s → P s := by
    rintro w e w' hw hok ⟨⟩ sid s hs
    rcases step_sessions hs with (⟨sid', hs'⟩ | ⟨db, rfl⟩) | hs'
    · exact hw sid' s hs'
    · exact hnew db
    · exact hmade w e s hw hok hs'
  refine hrun.invariant (I := fun w => ∀ sid s, w.sessions sid = some s → P s) hstep ?_
  intro sid s hs
  cases hs

end Desk

end CErp
