/-
Whether only administrators make administrators.

A session that is no administrator may manage users as a member of Settings /
Configuration, and may write its own record.  Its writes cannot reach groups and
passwords.  But a new user is given whatever groups the call names, a reset link
is minted for whomever it names, and the own record takes every registered field.
`Modest` says of a request that it makes no such use of these.
-/
import CErp.GroupReveals

namespace CErp

open Outcome Option Groups Table

variable [FloatText] (U : UsersModel) (engine : Option RuleEngine)

/-- A member of the administrators' group. -/
def UserBase.Administers (base : UserBase) (uid : ℤ) : Prop :=
  BASE_ADMIN ∈ base.groups uid

/-- The session of a request by a user. -/
def UserRequest.session : UserRequest → Option Session
  | .create s _ _ => some s
  | .write s _ _ => some s
  | .unlink s _ => some s
  | .generateResetLink s _ _ => some s
  | .resetPassword .. => none

/-- A request of a session that is no administrator. -/
def UserRequest.ByOthers (e : UserRequest) : Prop := ∃ s, e.session = some s ∧ s.isAdmin = false

/-- The administrators of one database are those of another, with the password
and the reset token they have there. -/
def NoEscalation (base base' : UserBase) : Prop :=
  ∀ uid row', base'.users.get? uid = some row' → base'.Administers uid →
    ∃ row, base.users.get? uid = some row ∧ base.Administers uid ∧
      row'.cells "password" = row.cells "password" ∧ U.partnerOf row' = U.partnerOf row ∧
      ∀ p, U.partnerOf row = some p → base'.signup p = base.signup p

/-- No administrator is demoted by the step. -/
def NoneDemoted (base base' : UserBase) : Prop :=
  ∀ uid row', base'.users.get? uid = some row' → base.Administers uid → base'.Administers uid

/-- The caller's own record keeps its partner, and its company unless the new one
is allowed. -/
def OwnRecordKept (s : Session) (base base' : UserBase) : Prop :=
  ∀ row row', base.users.get? s.uid = some row → base'.users.get? s.uid = some row' →
    U.partnerOf row' = U.partnerOf row ∧
      (row'.companyId = row.companyId ∨ ∃ c ∈ s.allowedCompanyIds, row'.companyId = some c)

/-- A user created is not put among the administrators; the own record is given
no other partner and no company beyond the allowed ones; a reset link is for a
user whose partner is no administrator's. -/
def Modest (w : UserWorld) : UserRequest → Prop
  | .create s call _ => requireUserManager s.userContext = .ok () → ∀ statements,
      groupStatements createCommand (((objectOr (call.arg 0)).lookup "groups_id").getD .null) =
        .ok statements → .add BASE_ADMIN ∉ statements
  | .write s call _ => ∀ row, w.base.users.get? s.uid = some row →
      mayWrite s call [s.uid] = .ok () →
        (∀ b, writtenColumn U (objectOr (call.arg 1)) "partner_id" = some b →
          (U.schema.integerInput b).toOption.join = U.partnerOf row) ∧
        ∀ b company, writtenColumn U (objectOr (call.arg 1)) "company_id" = some b →
          U.schema.integerInput b = .ok company →
            company = row.companyId ∨ ∃ c ∈ s.allowedCompanyIds, company = some c
  | .unlink .. => True
  | .generateResetLink s call _ => requireUserManager s.userContext = .ok () →
      ∀ uid ids row p, call.ids = .ok (uid :: ids) → w.base.users.get? uid = some row →
        U.partnerOf row = some p → ∀ admin row', w.base.users.get? admin = some row' →
          w.base.Administers admin → U.partnerOf row' ≠ some p
  | .resetPassword .. => True

/-! ### One request -/

omit [FloatText] in
lemma NoEscalation.refl (base : UserBase) : NoEscalation U base base :=
  fun _ row' hrow hadmin => ⟨row', hrow, hadmin, rfl, rfl, fun _ _ => rfl⟩

omit [FloatText] in
lemma NoEscalation.trans {U : UsersModel} {a b c : UserBase} (hab : NoEscalation U a b)
    (hbc : NoEscalation U b c) : NoEscalation U a c := by
  intro uid row'' hrow'' hadmin''
  obtain ⟨row', hrow', hadmin', hpass', hpartner', htoken'⟩ := hbc uid row'' hrow'' hadmin''
  obtain ⟨row, hrow, hadmin, hpass, hpartner, htoken⟩ := hab uid row' hrow' hadmin'
  refine ⟨row, hrow, hadmin, hpass'.trans hpass, hpartner'.trans hpartner, ?_⟩
  intro p hp
  exact (htoken' p (hpartner.trans hp)).trans (htoken p hp)

/-- What one request leaves of the administrators and of the caller's record. -/
structure Harmless (s : Session) (base base' : UserBase) : Prop where
  escalation : NoEscalation U base base'
  demotion : NoneDemoted base base'
  own : OwnRecordKept U s base base'

variable {U engine} {s : Session} {call : CallKwArgs} {base base' : UserBase}

omit [FloatText] in
lemma Harmless.refl (s : Session) (base : UserBase) : Harmless U s base base where
  escalation := .refl U base
  demotion := fun _ _ _ hadmin => hadmin
  own := by
    intro row row' hrow hrow'
    obtain rfl := mem_unique hrow hrow'
    exact ⟨rfl, .inl rfl⟩

omit [FloatText] in
lemma harmless_create {salt : String} {id : ℤ}
    (h : handleCreate U s call salt base = .ok (id, base'))
    (hmodest : requireUserManager s.userContext = .ok () → ∀ statements,
      groupStatements createCommand (((objectOr (call.arg 0)).lookup "groups_id").getD .null) =
        .ok statements → .add BASE_ADMIN ∉ statements) : Harmless U s base base' := by
  obtain ⟨hmanager, rfl, login, hash, active, share, statements, hstatements, husers, hsignup,
    hothers, hgids⟩ := handleCreate_ok h
  have hnot : ¬ base'.Administers base.users.nextId := fun hadmin =>
    hmodest hmanager statements hstatements (hgids _ hadmin)
  have hold : ∀ uid row, base'.users.get? uid = some row → uid ≠ base.users.nextId →
      base.users.get? uid = some row := by
    intro uid row hrow hne
    rw [husers, get?_insert, if_neg hne] at hrow
    exact hrow
  have hgroups : ∀ uid, uid ≠ base.users.nextId → (base'.Administers uid ↔ base.Administers uid) := by
    intro uid hne
    unfold UserBase.Administers
    rw [hothers uid hne]
  constructor
  · intro uid row' hrow' hadmin
    have hne : uid ≠ base.users.nextId := by
      rintro rfl
      exact hnot hadmin
    exact ⟨row', hold uid row' hrow' hne, (hgroups uid hne).mp hadmin, rfl, rfl,
      fun p _ => congrFun hsignup p⟩
  · intro uid row' hrow' hadmin
    by_cases hne : uid = base.users.nextId
    · subst hne
      unfold UserBase.Administers at hadmin
      rw [base.member _ (get?_nextId _)] at hadmin
      cases hadmin
    · exact (hgroups uid hne).mpr hadmin
  · intro row row' hrow hrow'
    have hne : s.uid ≠ base.users.nextId := (lt_nextId_of_get? hrow).ne
    obtain rfl := some.inj (hrow.symm.trans (hold _ row' hrow' hne))
    exact ⟨rfl, .inl rfl⟩

lemma harmless_write {salt : String} (hadmin : s.isAdmin = false)
    (hmodest : ∀ row, base.users.get? s.uid = some row → mayWrite s call [s.uid] = .ok () →
      (∀ b, writtenColumn U (objectOr (call.arg 1)) "partner_id" = some b →
        (U.schema.integerInput b).toOption.join = U.partnerOf row) ∧
      ∀ b company, writtenColumn U (objectOr (call.arg 1)) "company_id" = some b →
        U.schema.integerInput b = .ok company →
          company = row.companyId ∨ ∃ c ∈ s.allowedCompanyIds, company = some c) :
    Harmless U s base (handleWrite U engine s call salt base).1 := by
  obtain ⟨hgroups, hrows⟩ := handleWrite_own U engine call salt base hadmin
  have hsignup := handleWrite_signup U engine s call salt base
  generalize (handleWrite U engine s call salt base).1 = base' at hgroups hrows hsignup ⊢
  have hadministers : ∀ uid, base'.Administers uid ↔ base.Administers uid := by
    intro uid
    unfold UserBase.Administers
    rw [hgroups]
  -- the caller's own row is the one that may differ
  have hpartner : ∀ uid row row', base.users.get? uid = some row → uid = s.uid →
      mayWrite s call [s.uid] = .ok () → Assigned U (objectOr (call.arg 1)) row row' →
      U.partnerOf row' = U.partnerOf row := by
    rintro uid row row' hrow rfl hmay hassigned
    rcases hassigned.partner with hsame | ⟨b, hb, hnew⟩
    · exact hsame
    · exact hnew.trans ((hmodest row hrow hmay).1 b hb)
  constructor
  · intro uid row' hrow' hadmin'
    obtain ⟨row, hrow, rfl | ⟨huid, hmay, hassigned⟩⟩ := hrows uid row' hrow'
    · exact ⟨row', hrow, (hadministers uid).mp hadmin', rfl, rfl, fun p _ => congrFun hsignup p⟩
    · exact ⟨row, hrow, (hadministers uid).mp hadmin', hassigned.password,
        hpartner uid row row' hrow huid hmay hassigned, fun p _ => congrFun hsignup p⟩
  · exact fun uid _ _ hold => (hadministers uid).mpr hold
  · intro row row' hrow hrow'
    obtain ⟨row₀, hrow₀, hcases⟩ := hrows s.uid row' hrow'
    obtain rfl := mem_unique hrow hrow₀
    rcases hcases with rfl | ⟨huid, hmay, hassigned⟩
    · exact ⟨rfl, .inl rfl⟩
    · refine ⟨hpartner _ row row' hrow huid hmay hassigned, ?_⟩
      rcases hassigned.company with ⟨-, hsame⟩ | ⟨b, hb, hint⟩
      · exact .inl hsame
      · exact (hmodest row hrow hmay).2 b _ hb hint

lemma harmless_unlink (h : handleUnlink U engine s call base = .ok base') :
    Harmless U s base base' := by
  obtain ⟨hsignup, hrows, hgroups, hthere, hown⟩ := handleUnlink_ok h
  constructor
  · intro uid row' hrow' hadmin
    exact ⟨row', hrows uid row' hrow', hgroups uid _ hadmin, rfl, rfl,
      fun p _ => congrFun hsignup p⟩
  · intro uid row' hrow' hadmin
    unfold UserBase.Administers
    rw [hthere uid row' hrow']
    exact hadmin
  · intro row row' hrow hrow'
    rw [hown, hrow] at hrow'
    obtain rfl := some.inj hrow'
    exact ⟨rfl, .inl rfl⟩

omit [FloatText] in
lemma harmless_link {token : String} {now uid : ℤ}
    (h : handleGenerateResetLink U s call token now base = .ok (uid, base'))
    (hmodest : requireUserManager s.userContext = .ok () → ∀ uid ids row p,
      call.ids = .ok (uid :: ids) → base.users.get? uid = some row → U.partnerOf row = some p →
        ∀ admin row', base.users.get? admin = some row' → base.Administers admin →
          U.partnerOf row' ≠ some p) : Harmless U s base base' := by
  obtain ⟨hmanager, ids, row, p, hids, hrow, hp, rfl⟩ := handleGenerateResetLink_ok h
  have hothers := hmodest hmanager uid ids row p hids hrow hp
  constructor
  · intro admin row' hrow' hadmin
    refine ⟨row', hrow', hadmin, rfl, rfl, ?_⟩
    intro q hq
    have hne : q ≠ p := by
      rintro rfl
      exact hothers admin row' hrow' hadmin hq
    exact Function.update_of_ne hne _ _
  · exact fun _ _ _ hadmin => hadmin
  · exact (Harmless.refl s base).own

/-- What one request does. -/
lemma harmless_serve {w : UserWorld} {e : UserRequest} (hsession : e.session = some s)
    (hadmin : s.isAdmin = false) (hmodest : Modest U w e) :
    Harmless U s w.base (w.serve U engine e).base := by
  rcases e with ⟨s', call, salt⟩ | ⟨s', call, salt⟩ | ⟨s', call⟩ | ⟨s', call, token⟩ | ⟨login, token, pw, salt⟩
  · obtain rfl := some.inj hsession
    unfold UserWorld.serve
    dsimp only
    rcases hcreate : handleCreate U s' call salt w.base with m | ⟨id, base'⟩
    · exact .refl s' w.base
    · exact harmless_create hcreate hmodest
  · obtain rfl := some.inj hsession
    exact harmless_write hadmin hmodest
  · obtain rfl := some.inj hsession
    unfold UserWorld.serve
    dsimp only
    rcases hunlink : handleUnlink U engine s' call w.base with m | base'
    · exact .refl s' w.base
    · exact harmless_unlink hunlink
  · obtain rfl := some.inj hsession
    unfold UserWorld.serve
    dsimp only
    rcases hlink : handleGenerateResetLink U s' call token w.clock w.base with m | ⟨uid, base'⟩
    · exact .refl s' w.base
    · exact harmless_link hlink hmodest
  · cases hsession

/-! ### Over runs -/

/-- A request of a session that is no administrator, and modest at its moment. -/
def ModestStep (U : UsersModel) (w : UserWorld) (e : ℤ × UserRequest) : Prop :=
  e.2.ByOthers ∧ Modest U { w with clock := e.1 } e.2

lemma userStep_eq {w w' : UserWorld} {e : ℤ × UserRequest} (h : userStep U engine w e = some w') :
    w.clock ≤ e.1 ∧ ({ w with clock := e.1 } : UserWorld).serve U engine e.2 = w' := by
  unfold userStep at h
  split at h
  · next hclock => exact ⟨hclock, some.inj h⟩
  · cases h

/-- **Only administrators make administrators**, in every run of modest requests
of others: the administrators that there are at its end were there at its start,
with their passwords and reset tokens; and a further such request demotes none
and keeps the caller's own record. -/
theorem only_administrators_make_administrators (U : UsersModel) (engine : Option RuleEngine)
    (w₀ w : UserWorld) (hrun : Runs.Reaches (userStep U engine) (ModestStep U) w₀ w) :
    NoEscalation U w₀.base w.base ∧ ∀ e w', ModestStep U w e → userStep U engine w e = some w' →
      ∀ s, e.2.session = some s → Harmless U s w.base w'.base := by
  have hstep : ∀ w e w', ModestStep U w e → userStep U engine w e = some w' →
      ∀ s, e.2.session = some s → Harmless U s w.base w'.base := by
    rintro w e w' ⟨⟨s', hsession', hadmin⟩, hmodest⟩ hw s hsession
    obtain rfl := mem_unique hsession hsession'
    obtain ⟨-, rfl⟩ := userStep_eq hw
    exact harmless_serve (w := { w with clock := e.1 }) hsession hadmin hmodest
  refine ⟨?_, hstep w⟩
  refine hrun.invariant (I := fun w => NoEscalation U w₀.base w.base) ?_ (.refl U w₀.base)
  intro w e w' hw hok hs
  obtain ⟨s, hsession, -⟩ := hok.1
  exact hw.trans (hstep w e w' hok hs s hsession).escalation

/-! ### A manager of users -/

omit [FloatText] in
/-- The users with the texts as they are bound. -/
def usersModel : UsersModel where
  toServedModel := resUsersModel
  registered := rfl
  groupExists := fun gid => 0 < gid
  textInput
    | .text t => some t
    | _ => none
  textInput_text := fun _ => rfl
  hashPassword := fun salt pw => "$" ++ salt ++ "$" ++ pw

/-- The administrator and a member of Settings / Configuration. -/
def twoUsers : UserBase where
  users := usersTable.toTable
  groups := fun uid =>
    if uid = 1 then [BASE_INTERNAL, BASE_ADMIN]
    else if uid = 2 then [BASE_INTERNAL, SETTINGS_CONFIGURATION]
    else []
  signup := fun _ => {}
  member := by
    intro uid hnone
    split
    · next h =>
        subst h
        cases hnone
    · split
      · next h =>
          subst h
          cases hnone
      · rfl

/-- The session of the member. -/
def userManager : Session where
  uid := 2
  login := "sam"
  companyId := 1
  groupIds := [BASE_INTERNAL, SETTINGS_CONFIGURATION]
  allowedCompanyIds := [1]

/-- A new user of one group. -/
def createUserIn (gid : ℤ) : UserRequest :=
  .create userManager ⟨"res.users", "create", .arr [.obj [
    ("groups_id", .arr [.arr [.num 6, .num 0, .arr [.num gid]]]), ("login", .str "lee"),
    ("password", .str "open sesame")]], .obj []⟩ "salt"

def managedUsers : UserWorld := ⟨twoUsers, 0, [], []⟩

omit [FloatText] in
/-- The manager creates an internal user. -/
theorem only_administrators_make_administrators_internalUser :
    let _ := Json.wholeFloatText
    NoEscalation usersModel twoUsers
        (managedUsers.serve usersModel none (createUserIn BASE_INTERNAL)).base ∧
      (managedUsers.serve usersModel none (createUserIn BASE_INTERNAL)).base.groups 3 =
        [BASE_INTERNAL] := by
  let _ := Json.wholeFloatText
  have hmodest : ModestStep usersModel managedUsers (0, createUserIn BASE_INTERNAL) := by
    refine ⟨⟨userManager, rfl, rfl⟩, ?_⟩
    intro _ statements hstatements
    rw [← Except.ok.inj hstatements]
    decide
  exact ⟨(only_administrators_make_administrators usersModel none managedUsers _
    (.single ⟨_, hmodest, rfl⟩)).1, by decide⟩

omit [FloatText] in
/-- The manager creates an administrator. -/
theorem manager_makes_administrator :
    ¬ ∀ (text : FloatText) (U : UsersModel) (engine : Option RuleEngine) (w₀ w : UserWorld),
      Runs.Reaches (@userStep text U engine) (fun _ e => e.2.ByOthers) w₀ w →
      NoEscalation U w₀.base w.base ∧ ∀ e w', e.2.ByOthers → @userStep text U engine w e = some w' →
        ∀ s, e.2.session = some s → Harmless U s w.base w'.base := by
  intro h
  let _ := Json.wholeFloatText
  let w := managedUsers.serve usersModel none (createUserIn BASE_ADMIN)
  have hrun : Runs.Reaches (userStep usersModel none) (fun _ e => e.2.ByOthers) managedUsers w :=
    .single ⟨(0, createUserIn BASE_ADMIN), ⟨userManager, rfl, rfl⟩, rfl⟩
  have hadmin : BASE_ADMIN ∈ w.base.groups 3 := by decide
  have hthere : (w.base.users.get? 3).isSome = true := by decide
  obtain ⟨row', hrow'⟩ := isSome_iff_exists.mp hthere
  obtain ⟨row, hrow, -⟩ := (h _ usersModel none managedUsers w hrun).1 3 row' hrow' hadmin
  cases hrow

end CErp
