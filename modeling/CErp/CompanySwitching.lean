/-
Whether a switch to a company of another tenant follows the memberships.

A switch asks the control plane for the login of the identity the session is
known under.  Where the control plane knows no identity for a login, the session
goes by the login itself, which may be spelled like somebody's identity; the
switch then follows that person's memberships.  `Vouched` says of a login that
this cannot happen, and `switching_follows_memberships` that it never does in a
run of such logins.
-/
import CErp.SessionDesk

namespace CErp

open Desk Option

variable {cp : ControlPlane}

namespace ControlPlane

/-- Some active row is the identity's. -/
def Knows (cp : ControlPlane) (identity : String) : Prop :=
  ∃ m ∈ cp.rows, m.active = true ∧ m.identity = identity

/-- Two logins are one person's: some identity has an active row for each. -/
def Shares (cp : ControlPlane) (tenant login tenant' login' : String) : Prop :=
  ∃ i, cp.Links i tenant login ∧ cp.Links i tenant' login'

lemma knows_of_links {i t l : String} (h : cp.Links i t l) : cp.Knows i := ⟨_, h, rfl, rfl⟩

end ControlPlane

/-- The control plane knows an identity for the login, or nobody by the name of
the login; where it does not answer, the name is the one the session had. -/
def Vouched (cp : ControlPlane) (w : Desk) (c : LoginCall) : Prop :=
  if c.controlAnswers then
    cp.identityFor c.choice c.reqTenant c.login ≠ "" ∨ ¬ cp.Knows c.login
  else
    let i := { c.start w with login := c.login }.knownAs
    cp.Links i c.echoed c.login ∨ ¬ cp.Knows i

/-- Every user that is let in is vouched for. -/
def KeepsIdentities (cp : ControlPlane) (w : Desk) : DeskEvent → Prop
  | .authenticate c => ∀ u, c.user w = some u → Vouched cp w c
  | _ => True

/-- The name a signed-in session is known under is linked to its login, or is
nobody's. -/
def Sound (cp : ControlPlane) (s : BrowserSession) : Prop :=
  0 < s.uid → cp.Links s.knownAs s.db s.login ∨ ¬ cp.Knows s.knownAs

lemma sound_new (db : String) : Sound cp { db := db } := by
  intro h
  cases h

/-- A session that is not signed in, or agrees in what is linked. -/
lemma sound_of_same {s t : BrowserSession} (hs : Sound cp s) (hid : t.identity = s.identity)
    (hdb : t.db = s.db) (hlogin : t.login = s.login) (huid : t.uid = s.uid) : Sound cp t := by
  intro hpos
  have hknown : t.knownAs = s.knownAs := by
    unfold BrowserSession.knownAs
    rw [hid, hlogin]
  rw [hknown, hdb, hlogin]
  exact hs (huid ▸ hpos)

/-! ### Switching -/

lemma switchedSession_some {w : Desk} {cur ns : BrowserSession} {target : String}
    (h : w.switchedSession (some cp) cur target = some ns) :
    cur.isAuthenticated = true ∧ cp.Links cur.knownAs target ns.login ∧ ns.db = target ∧
      ns.identity = cur.knownAs ∧ ns.identity ≠ "" := by
  unfold switchedSession at h
  dsimp only at h
  split at h
  · cases h
  next hmay =>
  split at h
  · cases h
  next hlogin =>
  obtain ⟨u, hu, rfl⟩ := map_eq_some_iff.mp h
  have hname : u.login = cp.loginFor cur.knownAs target := (TenantDb.activeUser_login hu).1
  refine ⟨by simpa using (not_or.mp hmay).1, ?_, rfl, rfl, ?_⟩
  · show cp.Links cur.knownAs target u.login
    rw [hname]
    exact ControlPlane.links_of_loginFor hlogin
  · -- the control plane gives the empty name no login
    intro hempty
    have hempty : cur.knownAs = "" := hempty
    exact hlogin (by unfold ControlPlane.loginFor; rw [if_pos (.inl hempty)])

/-- A switch from a sound session goes where its person is a member. -/
lemma shares_of_switched {w : Desk} {cur ns : BrowserSession} {target : String}
    (hs : Sound cp cur) (h : w.switchedSession (some cp) cur target = some ns) :
    cp.Shares cur.db cur.login target ns.login ∧ ns.db = target := by
  obtain ⟨hauth, hlinks, hdb, -, -⟩ := switchedSession_some h
  refine ⟨?_, hdb⟩
  rcases hs (of_decide_eq_true hauth) with hown | hnobody
  · exact ⟨_, hown, hlinks⟩
  · exact absurd (ControlPlane.knows_of_links hlinks) hnobody

/-! ### Logging in -/

/-- The session the dispatcher has written a login into. -/
lemma sound_sync {c : LoginCall} {u : TenantUser} (s : BrowserSession)
    (hv : cp.identityFor c.choice c.reqTenant c.login ≠ "" ∨ ¬ cp.Knows c.login) :
    Sound cp (s.sync u c.login c.boundTo
      (if cp.identityFor c.choice c.reqTenant c.login = "" then c.login
        else cp.identityFor c.choice c.reqTenant c.login)) := by
  intro _
  by_cases hfound : cp.identityFor c.choice c.reqTenant c.login = ""
  · -- known under the login
    rw [if_pos hfound]
    have hknown : (s.sync u c.login c.boundTo c.login).knownAs = c.login := ite_self _
    rw [hknown]
    exact .inr (hv.resolve_left (not_not.mpr hfound))
  · rw [if_neg hfound]
    obtain ⟨htenant, hlinks⟩ := ControlPlane.links_of_identityFor hfound
    generalize cp.identityFor c.choice c.reqTenant c.login = i at hfound hlinks
    have hknown : (s.sync u c.login c.boundTo i).knownAs = i := if_neg hfound
    have hbound : c.boundTo = c.reqTenant := if_neg htenant
    rw [hknown]
    exact .inl (hbound ▸ hlinks)

lemma sound_landed {w : Desk} {c : LoginCall} {u : TenantUser} (hv : Vouched cp w c)
    (s : BrowserSession) (hs : s = (c.start w).fill u c.login c.echoed ∨ s = {}) :
    Sound cp (w.landed (some cp) c u s) := by
  unfold Vouched at hv
  unfold landed LoginCall.sessionIdentity
  dsimp only
  by_cases hc : c.controlAnswers = true
  · rw [if_pos hc] at hv ⊢
    dsimp only
    have hsync := sound_sync (u := u) s hv
    split
    · exact sound_of_same hsync rfl rfl rfl rfl
    · exact hsync
  · rw [if_neg hc] at hv ⊢
    rcases hs with rfl | rfl
    · exact fun _ => hv
    · exact sound_new ""

/-! ### Over runs -/

lemma sound_made {w : Desk} {e : DeskEvent} {s : BrowserSession}
    (hw : ∀ sid s, w.sessions sid = some s → Sound cp s) (hkeeps : KeepsIdentities cp w e)
    (h : w.Made (some cp) e s) : Sound cp s := by
  rcases e with c | id | ⟨id, target, new⟩ | ⟨id, answers⟩ | ⟨id, want, answers, writes⟩ | id | tenants
  · obtain ⟨u, huser, rfl | ⟨-, -, rfl⟩⟩ := h
    · exact sound_landed (hkeeps u huser) _ (.inl rfl)
    · exact sound_landed (hkeeps u huser) _ (.inr rfl)
  · obtain ⟨-, t, -, rfl⟩ := h
    exact fun hpos => absurd hpos (Int.lt_irrefl 0)
  · obtain ⟨-, hlinks, hdb, hid, hne⟩ := switchedSession_some h
    intro _
    have hknown : s.knownAs = s.identity := if_neg hne
    rw [hknown, hdb, hid]
    exact .inl hlinks
  · obtain ⟨t, ht, -, rfl⟩ := h
    exact sound_of_same (hw id t ht) rfl rfl rfl rfl
  · obtain ⟨t, ht, -, -, rfl⟩ := h
    exact sound_of_same (hw id t ht) rfl rfl rfl rfl
  · exact h.elim
  · exact h.elim

/-- **Switching follows memberships.**  In a run of logins that are vouched for,
switches and anything else, a switch from a session makes one in the target
company only for a login that some identity shares with the session's. -/
theorem switching_follows_memberships (cp : ControlPlane) (tenants : String → TenantDb) (w : Desk)
    (hrun : Runs.Reaches (fun w e => some (w.step (some cp) e)) (KeepsIdentities cp) (boot tenants) w)
    (sid target : String) (cur ns : BrowserSession) (hcur : w.sessions sid = some cur)
    (hswitch : w.switchedSession (some cp) cur target = some ns) :
    cp.Shares cur.db cur.login target ns.login ∧ ns.db = target := by
  have hsound : ∀ sid s, w.sessions sid = some s → Sound cp s :=
    session_invariant hrun sound_new fun _ _ _ hw hkeeps h => sound_made hw hkeeps h
  exact shares_of_switched (hsound sid cur hcur) hswitch

/-! ### Two companies -/

/-- The chief runs both companies, under other logins. -/
def chiefs : ControlPlane where
  rows := [⟨"chief@corp", "north", "chief", true⟩, ⟨"chief@corp", "south", "admin", true⟩]
  key := by decide

/-- A tenant with one user. -/
def tenantOf (login : String) : TenantDb where
  users := [{ id := 1, login := login, accepts := fun p => p = "secret" }]
  allowed := fun _ => []
  serial := by simp
  companies := by simp

/-- In the north the login is the given one, elsewhere it is `admin`. -/
def twoTenants (login : String) : String → TenantDb :=
  fun t => if t = "north" then tenantOf login else tenantOf "admin"

def northLogin (login : String) : LoginCall where
  reqTenant := "north"
  login := login
  password := "secret"
  newSid := "s1"
  rotatedSid := "s2"

/-- Somebody logged in to the north. -/
def inNorth (login : String) : Desk :=
  (boot (twoTenants login)).step (some chiefs) (.authenticate (northLogin login))

/-- The session of the north, and what its switch to the south makes. -/
def toSouth (login : String) : Option (BrowserSession × BrowserSession) :=
  ((inNorth login).sessions "s2").bind fun cur =>
    ((inNorth login).switchedSession (some chiefs) cur "south").map fun ns => (cur, ns)

/-- The chief goes south as its administrator. -/
theorem switching_follows_memberships_chief :
    (toSouth "chief").map (fun p => (p.1.login, p.2.login)) = some ("chief", "admin") ∧
      chiefs.Shares "north" "chief" "south" "admin" := by
  have hs : (toSouth "chief").map (fun p => (p.1.db, p.1.login, p.2.login)) =
      some ("north", "chief", "admin") := by decide
  refine ⟨by decide, ?_⟩
  obtain ⟨⟨cur, ns⟩, hto, heq⟩ := map_eq_some_iff.mp hs
  obtain ⟨cur', hcur, hns⟩ := bind_eq_some_iff.mp hto
  obtain ⟨ns', hswitch, hpair⟩ := map_eq_some_iff.mp hns
  obtain ⟨rfl, rfl⟩ := Prod.mk.inj hpair
  obtain ⟨hdb, hlogins⟩ := Prod.mk.inj heq
  obtain ⟨hlogin, hlogin'⟩ := Prod.mk.inj hlogins
  have hvouched : KeepsIdentities chiefs (boot (twoTenants "chief"))
      (.authenticate (northLogin "chief")) := by
    intro u _
    exact .inl (by decide)
  have hshares := (switching_follows_memberships chiefs (twoTenants "chief") (inNorth "chief")
    (.single ⟨_, hvouched, rfl⟩) "s2" "south" cur' ns' hcur hswitch).1
  rw [hdb, hlogin, hlogin'] at hshares
  exact hshares

/-- Somebody of the north whose login is spelled like the chief's identity goes
south as its administrator. -/
theorem namesake_goes_south : ¬ ∀ (cp : ControlPlane) (tenants : String → TenantDb) (w : Desk),
      Runs.Reaches (fun w e => some (w.step (some cp) e)) (fun _ _ => True) (boot tenants) w →
      ∀ (sid target : String) (cur ns : BrowserSession), w.sessions sid = some cur →
        w.switchedSession (some cp) cur target = some ns →
        cp.Shares cur.db cur.login target ns.login ∧ ns.db = target := by
  intro h
  have hs : (toSouth "chief@corp").map (fun p => (p.1.db, p.1.login, p.2.login)) =
      some ("north", "chief@corp", "admin") := by decide
  obtain ⟨⟨cur, ns⟩, hto, heq⟩ := map_eq_some_iff.mp hs
  obtain ⟨cur', hcur, hns⟩ := bind_eq_some_iff.mp hto
  obtain ⟨ns', hswitch, hpair⟩ := map_eq_some_iff.mp hns
  obtain ⟨rfl, rfl⟩ := Prod.mk.inj hpair
  obtain ⟨hdb, hlogins⟩ := Prod.mk.inj heq
  obtain ⟨hlogin, -⟩ := Prod.mk.inj hlogins
  obtain ⟨⟨i, hlinks, -⟩, -⟩ := h chiefs (twoTenants "chief@corp") (inNorth "chief@corp")
    (.single ⟨_, trivial, rfl⟩) "s2" "south" cur' ns' hcur hswitch
  rw [hdb, hlogin] at hlinks
  have hno : ∀ m ∈ chiefs.rows, m.localLogin ≠ "chief@corp" := by decide
  exact hno _ hlinks rfl

end CErp
