/-
Whether a session's privileges are those of its user.

`Privileged` is kept by the requests that change the active company, whatever
they find.  It is lost where a list of copied fields leaves one out: the logout
clears the user and nothing else, the switch to another tenant leaves the
companies behind, and a login whose lookups fail keeps the companies of whoever
was there before.  `KeepsPrivileges` says when this does no harm.
-/
import CErp.SessionDesk

namespace CErp

open Desk Runs Groups List

/-- The privileges of a session are those of its user. -/
structure Privileged (s : BrowserSession) : Prop where
  anonymous : s.uid = 0 →
    s.isAdmin = false ∧ s.groupIds = [] ∧ s.companyId = 0 ∧ s.allowedCompanyIds = []
  admin : 0 < s.uid → (s.isAdmin = true ↔ BASE_ADMIN ∈ s.groupIds)
  company : 0 < s.uid → 0 < s.companyId → s.companyId ∈ s.allowedCompanyIds

/-- The lookups of a login are answered, or the user has no company, or it is
among those the session has already; a session that is logged out has nothing to
lose; a switch is to a user without companies. -/
def KeepsPrivileges (cp : Option ControlPlane) (w : Desk) : DeskEvent → Prop
  | .authenticate c => ∀ u, c.user w = some u →
      ((cp.isNone ∨ c.controlAnswers = true) ∧ c.companiesAnswer = true) ∨
        u.companyId.getD 0 ≤ 0 ∨ u.companyId.getD 0 ∈ (c.start w).allowedCompanyIds
  | .logout sid => sid ≠ "" → ∀ s, w.sessions sid = some s →
      s.isAdmin = false ∧ s.groupIds = [] ∧ s.companyId = 0 ∧ s.allowedCompanyIds = []
  | .switchCompany sid target _ => ∀ cur cp', w.sessions sid = some cur →
      cur.isAuthenticated = true → cp = some cp' → ∀ u,
        (w.tenants target).activeUser (cp'.loginFor cur.knownAs target) = some u →
          u.companyId.getD 0 ≤ 0 ∧ (w.tenants target).allowed u.id = []
  | _ => True

/-! ### One session -/

lemma privileged_new (db : String) : Privileged { db := db } where
  anonymous := fun _ => ⟨rfl, rfl, rfl, rfl⟩
  admin := fun h => absurd h (lt_irrefl (0 : ℤ))
  company := fun h => absurd h (lt_irrefl (0 : ℤ))

/-- The companies read, the active one is among them. -/
lemma companyId_mem_withCompanies (s : BrowserSession) (found : List ℤ)
    (h : 0 < (s.withCompanies found).companyId) :
    (s.withCompanies found).companyId ∈ (s.withCompanies found).allowedCompanyIds := by
  unfold BrowserSession.withCompanies Session.loadAllowedCompanies at h ⊢
  dsimp only at h ⊢
  generalize hallowed : (if found.isEmpty && decide (s.companyId > 0) then [s.companyId] else found) =
    allowed at h ⊢
  split at h
  · next hmem =>
      rw [if_pos hmem]
      exact contains_iff_mem.mp hmem
  · next hmem =>
      rw [if_neg hmem]
      rcases allowed with - | ⟨a, as⟩
      · -- nothing allowed means nothing found and no company
        split at hallowed
        · cases hallowed
        · next hcond =>
            subst hallowed
            have hpos : 0 < s.companyId := h
            exact absurd (by simp [hpos]) hcond
      · exact mem_cons_self

variable {s : BrowserSession}

lemma companyId_withCompanies_nil (h : s.companyId ≤ 0) :
    (s.withCompanies []).companyId = s.companyId := by
  unfold BrowserSession.withCompanies Session.loadAllowedCompanies
  have hno : decide (s.companyId > 0) = false := decide_eq_false (not_lt.mpr h)
  simp [hno]

/-- A signed-in session's flags are its user's. -/
lemma privileged_of (huid : 0 < s.uid)
    (hadmin : s.isAdmin = s.groupIds.contains BASE_ADMIN)
    (hcompany : 0 < s.companyId → s.companyId ∈ s.allowedCompanyIds) : Privileged s where
  anonymous := fun h => absurd h huid.ne'
  admin := fun _ => by rw [hadmin, contains_iff_mem]
  company := fun _ => hcompany

/-- The session the dispatcher has written a login into. -/
lemma privileged_sync (w : Desk) (c : LoginCall) {u : TenantUser} (identity : String)
    (hu : 0 < u.id) (hcompany : s.companyId = u.companyId.getD 0 ∨ s.companyId = 0)
    (hkeeps : c.companiesAnswer = true ∨ u.companyId.getD 0 ≤ 0 ∨
      u.companyId.getD 0 ∈ s.allowedCompanyIds) :
    Privileged (if c.companiesAnswer then
        (s.sync u c.login c.boundTo identity).withCompanies
          ((w.tenants (s.sync u c.login c.boundTo identity).db).allowed
            (s.sync u c.login c.boundTo identity).uid)
      else s.sync u c.login c.boundTo identity) := by
  by_cases hread : c.companiesAnswer = true
  · rw [if_pos hread]
    exact privileged_of hu rfl (companyId_mem_withCompanies _ _)
  · rw [if_neg hread]
    refine privileged_of hu rfl fun hpos => ?_
    have hsame : (s.sync u c.login c.boundTo identity).companyId =
        if 0 < u.companyId.getD 0 then u.companyId.getD 0 else s.companyId := rfl
    rw [hsame] at hpos ⊢
    have hown : 0 < u.companyId.getD 0 := by
      by_contra hnot
      rw [if_neg hnot] at hpos
      rcases hcompany with h | h
      · exact hnot (h ▸ hpos)
      · exact absurd h hpos.ne'
    rw [if_pos hown]
    rcases hkeeps with h | h | h
    · exact absurd h hread
    · exact absurd hown (not_lt.mpr h)
    · exact h

variable {cp : Option ControlPlane}

/-- The session a login ends with, from the one the view model filled. -/
lemma privileged_landed {w : Desk} {c : LoginCall} {u : TenantUser} (s : BrowserSession)
    (hu : 0 < u.id) (hkeeps : ((cp.isNone ∨ c.controlAnswers = true) ∧ c.companiesAnswer = true) ∨
      u.companyId.getD 0 ≤ 0 ∨ u.companyId.getD 0 ∈ s.allowedCompanyIds) :
    Privileged (w.landed cp c u (s.fill u c.login c.echoed)) := by
  unfold landed
  rcases hid : c.sessionIdentity cp with - | identity
  · -- the control plane does not answer: the view model's session stays as it is
    refine privileged_of hu rfl fun hpos => ?_
    rcases hkeeps with ⟨hcontrol, -⟩ | h | h
    · unfold LoginCall.sessionIdentity at hid
      rcases cp with - | cp
      · cases hid
      · rcases hcontrol with h | h
        · cases h
        · dsimp only at hid
          rw [if_pos h] at hid
          cases hid
    · exact absurd hpos (not_lt.mpr h)
    · exact h
  · refine privileged_sync w c identity hu (.inl rfl) ?_
    rcases hkeeps with ⟨-, h⟩ | h
    · exact .inl h
    · exact .inr h

lemma reloaded_company {w : Desk} {answers : Bool} (hs : Privileged s) (huid : 0 < s.uid)
    (h : 0 < (w.reloaded answers s).companyId) :
    (w.reloaded answers s).companyId ∈ (w.reloaded answers s).allowedCompanyIds := by
  unfold reloaded at h ⊢
  split at h
  · next ha =>
      rw [if_pos ha]
      exact companyId_mem_withCompanies _ _ h
  · next ha =>
      rw [if_neg ha]
      exact hs.company huid h

lemma isAdmin_eq (hs : Privileged s) (huid : 0 < s.uid) :
    s.isAdmin = s.groupIds.contains BASE_ADMIN := by
  rw [Bool.eq_iff_iff, hs.admin huid, contains_iff_mem]

/-- The session of a switch, which is left without companies. -/
lemma privileged_switched {w : Desk} {id target : String}
    (hkeeps : ∀ cur cp', w.sessions id = some cur →
      cur.isAuthenticated = true → cp = some cp' → ∀ u,
        (w.tenants target).activeUser (cp'.loginFor cur.knownAs target) = some u →
          u.companyId.getD 0 ≤ 0 ∧ (w.tenants target).allowed u.id = [])
    (h : w.switchedSession cp ((w.sessions id).getD {}) target = some s) : Privileged s := by
  unfold switchedSession at h
  rcases cp with - | cp
  · cases h
  dsimp only at h
  split at h
  · cases h
  next hmay =>
  obtain ⟨hauth, -⟩ := not_or.mp hmay
  split at h
  · cases h
  next hlogin =>
  obtain ⟨u, hu, rfl⟩ := Option.map_eq_some_iff.mp h
  rcases hcur : w.sessions id with - | cur
  · rw [hcur] at hauth
    exact absurd rfl hauth
  rw [hcur] at hauth hu
  obtain ⟨hcompany, hallowed⟩ := hkeeps cur cp hcur (Bool.not_eq_false _ ▸ hauth) rfl u hu
  refine privileged_of (TenantDb.activeUser_login hu).2 rfl fun hpos => ?_
  have hpos : 0 < ((({} : BrowserSession).fill u u.login target).withCompanies
      ((w.tenants target).allowed u.id)).companyId := hpos
  rw [hallowed, companyId_withCompanies_nil hcompany] at hpos
  exact absurd hpos (not_lt.mpr hcompany)

/-! ### Over runs -/

lemma privileged_made {w : Desk} {e : DeskEvent}
    (hw : ∀ sid s, w.sessions sid = some s → Privileged s) (hkeeps : KeepsPrivileges cp w e)
    (h : w.Made cp e s) : Privileged s := by
  rcases e with c | id | ⟨id, target, new⟩ | ⟨id, answers⟩ | ⟨id, want, answers, writes⟩ | id | tenants
  · obtain ⟨u, huser, hin⟩ := h
    have hpos : 0 < u.id := by
      unfold LoginCall.user at huser
      split at huser
      · cases huser
      · exact TenantDb.authenticate_pos huser
    rcases hin with rfl | ⟨hsid, hgone, rfl⟩
    · exact privileged_landed _ hpos (hkeeps u huser)
    · -- the session is gone: the dispatcher starts from a new one
      unfold landed
      rcases c.sessionIdentity cp with - | identity
      · exact privileged_new ""
      · refine privileged_sync w c identity hpos (.inr rfl) ?_
        have hstart : c.start w = { db := c.echoed } := by
          unfold LoginCall.start
          rw [if_neg hsid, hgone]
          rfl
        have h := hkeeps u huser
        rw [hstart] at h
        rcases h with ⟨-, h⟩ | h
        · exact .inl h
        · exact .inr h
  · obtain ⟨hid, t, ht, rfl⟩ := h
    obtain ⟨hadmin, hgroups, hcompany, hallowed⟩ := hkeeps hid t ht
    exact {
      anonymous := fun _ => ⟨hadmin, hgroups, hcompany, hallowed⟩
      admin := fun h => absurd h (lt_irrefl (0 : ℤ))
      company := fun h => absurd h (lt_irrefl (0 : ℤ)) }
  · exact privileged_switched hkeeps h
  · obtain ⟨t, ht, hauth, rfl⟩ := h
    have huid : 0 < t.uid := of_decide_eq_true hauth
    have hadmin : t.isAdmin = t.groupIds.contains BASE_ADMIN := isAdmin_eq (hw id t ht) huid
    exact privileged_of huid hadmin (reloaded_company (hw id t ht) huid)
  · obtain ⟨t, ht, hauth, hwant, rfl⟩ := h
    have huid : 0 < t.uid := of_decide_eq_true hauth
    have hadmin : t.isAdmin = t.groupIds.contains BASE_ADMIN := isAdmin_eq (hw id t ht) huid
    exact privileged_of huid hadmin fun _ => hwant
  · exact h.elim
  · exact h.elim

/-- **A session's privileges are those of its user**, in every state that is
reached by logins whose lookups are answered, logouts of sessions that carry
nothing, switches to users without companies and anything else. -/
theorem privileges_kept (cp : Option ControlPlane) (tenants : String → TenantDb) (w : Desk)
    (hrun : Reaches (fun w e => some (w.step cp e)) (KeepsPrivileges cp) (boot tenants) w) :
    ∀ sid s, w.sessions sid = some s → Privileged s :=
  session_invariant hrun privileged_new fun _ _ _ hw hkeeps h => privileged_made hw hkeeps h

/-! ### An administrator of two companies -/

/-- A tenant with one user, an administrator who may act for companies 1 and 2. -/
def soleTenant : TenantDb where
  users := [{
    id := 1
    login := "admin"
    accepts := fun p => p = "secret"
    companyId := some 1
    groupIds := [BASE_INTERNAL, BASE_ADMIN] }]
  allowed := fun uid => if uid = 1 then [1, 2] else []
  serial := by decide
  companies := by
    intro uid c hc
    split at hc
    · exact (by decide : ∀ c ∈ [(1 : ℤ), 2], 0 < c) c hc
    · cases hc

def adminLogin : LoginCall where
  reqTenant := "main"
  login := "admin"
  password := "secret"
  newSid := "s1"
  rotatedSid := "s2"

/-- The administrator logged in, under the id `s2`. -/
def afterLogin : Desk := (boot fun _ => soleTenant).step none (.authenticate adminLogin)

/-- After the switch to company 2. -/
theorem privileges_kept_adminLogin :
    ((afterLogin.step none (.setActiveCompany "s2" 2 true true)).sessions "s2").map
        (fun s => (s.uid, s.companyId)) = some (1, 2) ∧
      (((afterLogin.step none (.setActiveCompany "s2" 2 true true)).sessions "s2").elim False
        Privileged) := by
  have hrun : Reaches (fun w e => some (w.step none e)) (KeepsPrivileges none)
      (boot fun _ => soleTenant) (afterLogin.step none (.setActiveCompany "s2" 2 true true)) := by
    have hlogin : KeepsPrivileges none (boot fun _ => soleTenant) (.authenticate adminLogin) :=
      fun _ _ => .inl ⟨.inl rfl, rfl⟩
    exact .tail (.single ⟨_, hlogin, rfl⟩) ⟨.setActiveCompany "s2" 2 true true, trivial, rfl⟩
  have hs : ((afterLogin.step none (.setActiveCompany "s2" 2 true true)).sessions "s2").map
      (fun s => (s.uid, s.companyId)) = some (1, 2) := by decide
  refine ⟨hs, ?_⟩
  obtain ⟨s, hsome, -⟩ := Option.map_eq_some_iff.mp hs
  rw [hsome]
  exact privileges_kept none (fun _ => soleTenant) _ hrun "s2" s hsome

/-- Logged out, the session is nobody's and keeps the administrator's flag. -/
theorem flag_after_logout : ¬ ∀ (cp : Option ControlPlane) (tenants : String → TenantDb) (w : Desk),
      Reaches (fun w e => some (w.step cp e)) (fun _ _ => True) (boot tenants) w →
      ∀ sid s, w.sessions sid = some s → Privileged s := by
  intro h
  have hrun : Reaches (fun w e => some (w.step none e)) (fun _ _ => True)
      (boot fun _ => soleTenant) (afterLogin.step none (.logout "s2")) :=
    .tail (.single ⟨_, trivial, rfl⟩) ⟨.logout "s2", trivial, rfl⟩
  have hs : ((afterLogin.step none (.logout "s2")).sessions "s2").map
      (fun s => (s.uid, s.isAdmin)) = some (0, true) := by decide
  obtain ⟨s, hsome, heq⟩ := Option.map_eq_some_iff.mp hs
  obtain ⟨huid, hadmin⟩ := Prod.mk.inj heq
  have hcleared := (h none (fun _ => soleTenant) _ hrun "s2" s hsome).anonymous huid
  rw [hadmin] at hcleared
  cases hcleared.1

end CErp
