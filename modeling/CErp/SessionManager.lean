/-
Browser sessions and the store they are kept in.

A session is found under a random id.  `create` files an anonymous session,
`update` patches one in place, `rotate` files it under a new id and forgets the
old one.  Ids, and the moments a session expires or is evicted, come from
outside.
-/
import CErp.Json
import CErp.UserContext

namespace CErp

/-- A browser session.  `db` is the database name of the tenant it belongs to,
`uid` 0 is anonymous. -/
structure Session where
  uid : ℤ := 0
  login : String := ""
  db : String := ""
  partnerId : ℤ := 0
  companyId : ℤ := 0
  isAdmin : Bool := false
  groupIds : List ℤ := []
  allowedCompanyIds : List ℤ := []
  deriving DecidableEq

namespace Session

def isAuthenticated (s : Session) : Bool := s.uid > 0

def hasGroup (s : Session) (gid : ℤ) : Bool := s.groupIds.contains gid

def hasAnyGroup (s : Session) (gids : List ℤ) : Bool := gids.any s.hasGroup

/-- The companies a session may act for, as read from its tenant's database:
the user's own company when there are none, and the active one replaced by the
first when it is not among them. -/
def loadAllowedCompanies (s : Session) (found : List ℤ) : Session :=
  let allowed := if found.isEmpty && s.companyId > 0 then [s.companyId] else found
  { s with
    allowedCompanyIds := allowed
    companyId := if allowed.contains s.companyId then s.companyId
      else allowed.headD s.companyId }

end Session

/-- The sessions under their ids. -/
structure SessionManager where
  store : String → Option Session

namespace SessionManager

def empty : SessionManager := ⟨fun _ => none⟩

def get (m : SessionManager) (sid : String) : Option Session := m.store sid

/-- A new anonymous session, under an id drawn for it. -/
def create (m : SessionManager) (id db : String) : SessionManager :=
  ⟨Function.update m.store id (some { db := db })⟩

def update (m : SessionManager) (sid : String) (patch : Session → Session) : SessionManager :=
  ⟨Function.update m.store sid ((m.store sid).map patch)⟩

/-- Destroyed, expired or evicted. -/
def drop (m : SessionManager) (sid : String) : SessionManager :=
  ⟨Function.update m.store sid none⟩

/-- The session under a new id; the empty text when there is none. -/
def rotate (m : SessionManager) (oldId newId : String) : String × SessionManager :=
  match m.store oldId with
  | none => ("", m)
  | some s => (newId, ⟨Function.update (Function.update m.store oldId none) newId (some s)⟩)

lemma get_update_some {m : SessionManager} {sid : String} {patch : Session → Session}
    {s : Session} (h : (m.update sid patch).get sid = some s) : ∃ old, patch old = s := by
  simp only [get, update, Function.update_self, Option.map_eq_some_iff] at h
  obtain ⟨old, -, hs⟩ := h
  exact ⟨old, hs⟩

end SessionManager

/-! ### Requests -/

/-- What a handler reads of an HTTP request besides its body: the session
cookie, empty if there is none, and the Host header. -/
structure HttpRequest where
  cookie : String
  host : String
  deriving DecidableEq

/-- A remote call. -/
structure CallKwArgs where
  model : String
  method : String
  args : Json
  kwargs : Json

namespace CallKwArgs

/-- A positional argument; `null` beyond the last. -/
def arg (c : CallKwArgs) (i : ℕ) : Json :=
  match c.args with
  | .arr items => items.getD i .null
  | _ => .null

/-- `context.session_id` of the keyword arguments. -/
def contextSid (c : CallKwArgs) : String :=
  match c.kwargs.find? "context" with
  | some ctx =>
      match ctx.find? "session_id" with
      | some (.str sid) => sid
      | _ => ""
  | none => ""

end CallKwArgs

/-- The id of an existing session: the cookie's, or the one the call's context
names; the empty text when neither is known. -/
def resolveSessionId (m : SessionManager) (req : HttpRequest) (call : CallKwArgs) : String :=
  if req.cookie ≠ "" ∧ (m.get req.cookie).isSome then req.cookie
  else if call.contextSid ≠ "" ∧ (m.get call.contextSid).isSome then call.contextSid
  else ""

end CErp
