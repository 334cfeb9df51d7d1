/-
The handlers of `AuthViewModel` that change users, and the completion of a
password reset.

The database is the users' table, the groups of each user, and the reset token
on each partner.  `handleCreate` and `handleWrite` go around the model for what
it leaves out: the password and the groups.  `handleWrite` does so in
transactions of its own, which stay when the model's write fails afterwards.

The `*_ok` lemmas say what each handler leaves behind.
-/
import CErp.ViewModels

namespace CErp

open Outcome Outcome List Table Option Function Json

/-! ### The model -/

/-- `ResUsers::registerFields`. -/
def resUsersFields : List FieldDef :=
  [{ name := "login" }, { name := "partner_id", type := .many2one },
    { name := "company_id", type := .many2one },
    { name := "lang" },
    { name := "tz" },
    { name := "active", type := .boolean },
    { name := "share", type := .boolean }]

/-- The users as a model, with the groups there are, what a VARCHAR column makes
of a bound value, and the salted hash of a password. -/
structure UsersModel extends ServedModel where
  registered : derived.registry.fields = resUsersFields
  groupExists : ℤ → Bool
  textInput : SqlValue → Option String
  textInput_text : ∀ s, textInput (.text s) = some s
  hashPassword : String → String → String

namespace UsersModel

def loginOf (U : UsersModel) (row : Row) : Option String := U.textInput (row.cells "login")

def partnerOf (U : UsersModel) (row : Row) : Option ℤ :=
  (U.schema.integerInput (row.cells "partner_id")).toOption.join

end UsersModel

/-- `signup_token` and `signup_expiration` of a partner. -/
structure Signup where
  token : Option String := none
  expiration : Option ℤ := none
deriving DecidableEq

/-- The users, the groups of each (only those of a user that is there), and the
token on each partner. -/
structure UserBase where
  users : Table Row
  groups : ℤ → List ℤ
  signup : ℤ → Signup
  member : ∀ uid, users.get? uid = none → groups uid = []

/-! ### Arguments -/

/-- The first argument, where it is an array of ids. -/
def CallKwArgs.ids (call : CallKwArgs) : Except String (List ℤ) :=
  match call.arg 0 with
  | .arr items => items.mapM getInt
  | _ => .ok []

/-- An argument that is an object, or no values. -/
def objectOr (j : Json) : Values :=
  match j with
  | .obj fields => fields
  | _ => []

/-- `vals.value(key, std::string{})`. -/
def stringValue (vals : Values) (key : String) : Except String String :=
  match vals.lookup key with
  | none => .ok ""
  | some j => j.getString

/-- `vals.value(key, default)` of a boolean. -/
def boolValue (vals : Values) (key : String) (default : Bool) : Except String Bool :=
  match vals.lookup key with
  | none => .ok default
  | some (.bool b) => .ok b
  | some j => .error ("[json.exception.type_error.302] type must be boolean, but is " ++ j.typeName)

/-- `extractFk`: a positive id, given as a number or in front of a display
tuple. -/
def extractFk : Json → ℤ
  | .num i => if toInt32 i > 0 then toInt32 i else 0
  | .arr (.num i :: _) => if toInt32 i > 0 then toInt32 i else 0
  | _ => 0

/-- A parameter for an id that may be missing. -/
def fkParam (id : ℤ) : SqlValue := if 0 < id then .int id else .null

/-! ### Groups -/

/-- A statement on the groups of one user. -/
inductive GroupStatement where
  | clear
  | add (gid : ℤ)
  | drop (gid : ℤ)
deriving DecidableEq

namespace UserBase

def setGroups (base : UserBase) (uid : ℤ) (gids : List ℤ)
    (h : base.users.get? uid = none → gids = []) : UserBase where
  users := base.users
  groups := Function.update base.groups uid gids
  signup := base.signup
  member := by
    intro id hid
    by_cases heq : id = uid
    · subst heq
      rw [update_self]
      exact h hid
    · rw [update_of_ne heq]
      exact base.member id hid

/-- `UPDATE res_partner SET signup_token, signup_expiration`. -/
def setSignup (base : UserBase) (partner : ℤ) (signup : Signup) : UserBase :=
  { base with signup := Function.update base.signup partner signup }

end UserBase

/-- One statement; the foreign keys of `res_groups_users_rel` refuse a user or a
group that is not there. -/
def GroupStatement.run (U : UsersModel) (uid : ℤ) (base : UserBase) :
    GroupStatement → Except String UserBase
  | .clear => .ok (base.setGroups uid [] fun _ => rfl)
  | .add gid =>
      if h : (base.users.get? uid).isSome ∧ U.groupExists gid then
        .ok (base.setGroups uid
          (if gid ∈ base.groups uid then base.groups uid else base.groups uid ++ [gid])
          fun hnone => absurd h.1 (by rw [hnone]; exact Bool.false_ne_true))
      else .error "ERROR:  insert on table \"res_groups_users_rel\" violates foreign key constraint"
  | .drop gid =>
      .ok (base.setGroups uid ((base.groups uid).filter (· ≠ gid)) fun hnone => by
        rw [base.member uid hnone]
        rfl)

/-- The ids in the third element of a command. -/
def commandGids : List Json → Except String (List ℤ)
  | _ :: .arr gids :: _ => gids.mapM getInt
  | _ => .ok []

/-- A many2many command of `create`. -/
def createCommand : Json → Except String (List GroupStatement)
  | .arr (op :: rest) => do
      let op ← op.getInt
      if op = 6 then
        let gids ← commandGids rest
        return gids.map .add
      else if op = 4 then
        match rest with
        | gid :: _ => return [.add (← gid.getInt)]
        | [] => return []
      else return []
  | _ => .ok []

/-- A many2many command of `write`. -/
def writeCommand : Json → Except String (List GroupStatement)
  | .arr (op :: rest) => do
      let op ← op.getInt
      if op = 6 then
        let gids ← commandGids rest
        return .clear :: gids.map .add
      else if op = 4 then
        match rest with
        | gid :: _ => return [.add (← gid.getInt)]
        | [] => return []
      else if op = 3 then
        match rest with
        | gid :: _ => return [.drop (← gid.getInt)]
        | [] => return []
      else return []
  | _ => .ok []

/-- The statements of a list of commands; what is no array has none. -/
def groupStatements (command : Json → Except String (List GroupStatement)) (cmds : Json) :
    Except String (List GroupStatement) :=
  match cmds with
  | .arr items => (items.mapM command).map List.flatten
  | _ => .ok []

/-- The statements for one user, in one transaction. -/
def runStatements (U : UsersModel) (statements : List GroupStatement) (uid : ℤ) (base : UserBase) :
    Except String UserBase :=
  statements.foldlM (fun base statement => statement.run U uid base) base

/-! ### Handlers -/

/-- The model's write keeps the rows that there are. -/
lemma write_keepsRows [FloatText] {D : Derived} {db : Schema} {engine : Option RuleEngine}
    {I : Sql.Interp (ℤ × Row)} {c : Caller} {t t' : Table Row} {ids : List ℤ} {values : Values}
    (h : write D db engine I c t ids values = .ok t') (uid : ℤ) :
    t'.get? uid = none ↔ t.get? uid = none := by
  obtain ⟨-, ⟨rfl, -⟩ | ⟨sets, stamped, clause, company, -, -, -, -, rfl⟩⟩ := write_ok rfl rfl h
  · exact Iff.rfl
  · rw [get?_updateWhere, map_eq_none_iff]

section Handlers

variable [FloatText] (U : UsersModel) (engine : Option RuleEngine)

section

omit [FloatText]

/-- `requireAdmin_`. -/
def requireUserManager (ctx : UserContext) : Except String Unit :=
  require (ctx.isAdmin || ctx.hasGroup Groups.SETTINGS_CONFIGURATION)
    ("Access denied: user management requires Administrator or " ++
      "Settings / Configuration group")

/-- The row `handleCreate` inserts. -/
def newUserRow (login hash : String) (partner company : ℤ) (active share : Bool) : Row where
  companyId := if 0 < company then some company else none
  cells col :=
    ([("login", .text login), ("password", .text hash), ("partner_id", fkParam partner),
      ("company_id", fkParam company), ("lang", .text "en_US"), ("tz", .text "UTC"),
      ("active", .bool active), ("share", .bool share), ("create_date", U.schema.now),
      ("write_date", U.schema.now)].lookup col).getD .null

/-- The users with one more. -/
def UserBase.withUser (base : UserBase) (row : Row) : UserBase where
  users := base.users.insert row
  groups := base.groups
  signup := base.signup
  member := by
    intro uid hnone
    rw [get?_insert] at hnone
    split at hnone
    · cases hnone
    · exact base.member uid hnone

/-- `handleCreate`: the new user's id. -/
def handleCreate (s : Session) (call : CallKwArgs) (salt : String) (base : UserBase) :
    Except String (ℤ × UserBase) := do
  requireUserManager s.userContext
  let vals := objectOr (call.arg 0)
  let pw ← stringValue vals "password"
  let login ← stringValue vals "login"
  require (pw ≠ "") "password is required"
  require (login ≠ "") "login is required"
  let partnerId := ((vals.lookup "partner_id").map extractFk).getD 0
  let companyId := ((vals.lookup "company_id").map extractFk).getD 0
  let active ← boolValue vals "active" true
  let share ← boolValue vals "share" false
  let row := newUserRow U login (U.hashPassword salt pw) partnerId companyId active share
  U.schema.constraints (base.users.insert row)
  let newId := base.users.nextId
  let statements ← groupStatements createCommand ((vals.lookup "groups_id").getD .null)
  let base ← runStatements U statements newId (base.withUser row)
  return (newId, base)

/-- Who may write which users: an administrator any, anyone else their own
record, without the groups and the password. -/
def mayWrite (s : Session) (call : CallKwArgs) (ids : List ℤ) : Except String Unit :=
  if s.isAdmin then .ok ()
  else if ids ≠ [s.uid] then .error "Access denied: cannot modify other users"
  else if (objectOr (call.arg 1)).contains "groups_id" then
    .error "Access denied: cannot modify group memberships"
  else if (objectOr (call.arg 1)).contains "password" then
    .error "Access denied: use change_password to update your password"
  else .ok ()

/-- A row with another password. -/
def newPassword (hash : String) (row : Row) : Row where
  companyId := row.companyId
  cells := Function.update (Function.update row.cells "password" (.text hash)) "write_date"
    U.schema.now

/-- `UPDATE res_users SET password` of some users. -/
def UserBase.setPassword (base : UserBase) (ids : List ℤ) (hash : String) : UserBase where
  users := base.users.updateWhere (fun id _ => ids.contains id) (newPassword U hash)
  groups := base.groups
  signup := base.signup
  member := by
    intro uid hnone
    rw [get?_updateWhere, map_eq_none_iff] at hnone
    exact base.member uid hnone

/-- The password that a write sets: a text that is not empty, hashed unless it
looks like a hash. -/
def newHash (vals : Values) (salt : String) : Option String :=
  match vals.lookup "password" with
  | some (.str pw) =>
      if pw = "" then none
      else if pw.toList.head? = some '$' then some pw
      else some (U.hashPassword salt pw)
  | _ => none

/-- The values left for the model's own write. -/
def scalarValues (vals : Values) : Values :=
  vals.filter fun kv => kv.1 ≠ "id" &&
    !(kv.1 = "password" && ((vals.lookup "password").getD .null).isString) &&
    !(kv.1 = "groups_id" && ((vals.lookup "groups_id").getD .null).isArray)

/-- The statements on the groups of every user of a call. -/
def writeGroups (vals : Values) (ids : List ℤ) (base : UserBase) : Except String UserBase :=
  ids.foldlM (fun base uid => do
    let statements ← groupStatements writeCommand ((vals.lookup "groups_id").getD .null)
    runStatements U statements uid base) base

/-- The base after the model's own write. -/
def writeScalars (s : Session) (vals : Values) (ids : List ℤ) (base : UserBase) :
    Except String UserBase :=
  if (scalarValues vals).isEmpty then .ok base
  else
    match h : write U.derived U.schema.toSchema engine U.interp (s.caller false) base.users ids
        (scalarValues vals) with
    | .error e => .error e
    | .ok users => .ok
        { users := users
          groups := base.groups
          signup := base.signup
          member := fun uid hnone => base.member uid ((write_keepsRows h uid).mp hnone) }

/-- The base after the statement that sets the password. -/
def writePassword (vals : Values) (salt : String) (ids : List ℤ) (base : UserBase) : UserBase :=
  match newHash U vals salt with
  | some hash => base.setPassword U ids hash
  | none => base

/-- The groups, then the model's own write: what is committed, and whether it went
through to the end. -/
def writeRest (s : Session) (vals : Values) (ids : List ℤ) (base : UserBase) :
    UserBase × Except String Unit :=
  match writeGroups U vals ids base with
  | .error e => (base, .error e)
  | .ok base =>
      match writeScalars U engine s vals ids base with
      | .error e => (base, .error e)
      | .ok base => (base, .ok ())

/-- `handleWrite`. -/
def handleWrite (s : Session) (call : CallKwArgs) (salt : String) (base : UserBase) :
    UserBase × Except String Unit :=
  let vals := objectOr (call.arg 1)
  match call.ids with
  | .error e => (base, .error e)
  | .ok ids =>
      match mayWrite s call ids with
      | .error e => (base, .error e)
      | .ok () => writeRest U engine s vals ids (writePassword U vals salt ids base)

/-- `handleUnlink`; the groups of a user go with it. -/
def handleUnlink (s : Session) (call : CallKwArgs) (base : UserBase) : Except String UserBase := do
  requireUserManager s.userContext
  let ids ← call.ids
  require (s.uid ∉ ids) "Cannot delete your own user account"
  let users ← unlink U.toServedModel engine (s.caller false) base.users ids
  return {
    users := users
    groups := fun uid => if (users.get? uid).isSome then base.groups uid else []
    signup := base.signup
    member := fun uid hnone => by rw [hnone]; rfl }

/-- How long a reset link lives, in microseconds. -/
def resetLifetime : ℤ := 24 * 60 * 60 * 1000000

/-- `handleGenerateResetLink`, with the token drawn for it. -/
def handleGenerateResetLink (s : Session) (call : CallKwArgs) (token : String) (now : ℤ)
    (base : UserBase) : Except String (ℤ × UserBase) := do
  requireUserManager s.userContext
  let ids ← call.ids
  match ids with
  | [] => throw "action_generate_reset_link: no user id provided"
  | uid :: _ =>
      match base.users.get? uid with
      | none => throw "action_generate_reset_link: user not found"
      | some row =>
          match U.partnerOf row with
          | none => throw "This user has no contact record to attach a reset link to"
          | some partnerId =>
              let link : Signup := ⟨some token, some (now + resetLifetime)⟩
              return (uid, base.setSignup partnerId link)

/-- The user of a login. -/
def UserBase.findLogin (base : UserBase) (login : String) : Option (ℤ × Row) :=
  base.users.rows.find? fun r => U.loginOf r.2 = some login

/-- `completeReset_`: the user whose password is set. -/
def completeReset (login token newPassword salt : String) (now : ℤ) (base : UserBase) :
    Except String (ℤ × UserBase) :=
  match (base.findLogin U login).bind fun r => (U.partnerOf r.2).map fun p => (r.1, p) with
  | none => .error ("No user found for login: " ++ login)
  | some (uid, partner) =>
      let stored := (base.signup partner).token.getD ""
      if stored ≠ token ∨ stored = "" then .error "Invalid or expired reset token"
      else if (base.signup partner).expiration.any (· < now) then .error "Reset token has expired"
      else
        .ok (uid, (base.setPassword U [uid] (U.hashPassword salt newPassword)).setSignup partner {})

/-- `POST /web/reset_password` with all it asks for. -/
def resetPassword (login token password salt : String) (now : ℤ) (base : UserBase) :
    Except String (ℤ × UserBase) := do
  require (login ≠ "") "login is required"
  require (password ≠ "") "password is required"
  require (8 ≤ password.utf8ByteSize) "Password must be at least 8 characters"
  completeReset U login token password salt now base

end

/-! ### What the handlers leave behind -/

section Ok

variable {U engine} {s : Session} {call : CallKwArgs} {base base' : UserBase}

omit [FloatText] in
lemma GroupStatement.run_ok {uid : ℤ} {statement : GroupStatement}
    (h : statement.run U uid base = .ok base') :
    base'.users = base.users ∧ base'.signup = base.signup ∧
      (∀ id, id ≠ uid → base'.groups id = base.groups id) ∧
      ∀ gid ∈ base'.groups uid, gid ∈ base.groups uid ∨ statement = .add gid := by
  have hset : ∀ gids hgids, base' = base.setGroups uid gids hgids →
      (∀ gid ∈ gids, gid ∈ base.groups uid ∨ statement = .add gid) →
      base'.users = base.users ∧ base'.signup = base.signup ∧
        (∀ id, id ≠ uid → base'.groups id = base.groups id) ∧
        ∀ gid ∈ base'.groups uid, gid ∈ base.groups uid ∨ statement = .add gid := by
    rintro gids hgids rfl hall
    refine ⟨rfl, rfl, fun id hid => update_of_ne hid _ _, ?_⟩
    intro gid hgid
    have hgid : gid ∈ Function.update base.groups uid gids uid := hgid
    rw [update_self] at hgid
    exact hall gid hgid
  cases statement with
  | clear => exact hset _ _ (Except.ok.inj h).symm fun gid hgid => nomatch hgid
  | add new =>
      unfold GroupStatement.run at h
      dsimp only at h
      split at h
      · refine hset _ _ (Except.ok.inj h).symm ?_
        intro gid hgid
        split at hgid
        · exact .inl hgid
        · rcases mem_append.mp hgid with hold | hnew
          · exact .inl hold
          · rw [mem_singleton.mp hnew]
            exact .inr rfl
      · cases h
  | drop old =>
      exact hset _ _ (Except.ok.inj h).symm fun gid hgid => .inl (mem_of_mem_filter hgid)

variable {uid : ℤ}

omit [FloatText] in
lemma runStatements_ok {statements : List GroupStatement}
    (h : runStatements U statements uid base = .ok base') :
    base'.users = base.users ∧ base'.signup = base.signup ∧
      (∀ id, id ≠ uid → base'.groups id = base.groups id) ∧
      ∀ gid ∈ base'.groups uid, gid ∈ base.groups uid ∨ .add gid ∈ statements := by
  induction statements generalizing base with
  | nil =>
      cases h
      exact ⟨rfl, rfl, fun _ _ => rfl, fun _ => .inl⟩
  | cons statement statements ih =>
      obtain ⟨m, hm, hrest⟩ := Runs.foldlM_cons_ok.mp h
      obtain ⟨husers, hsignup, hothers, hgids⟩ := GroupStatement.run_ok hm
      obtain ⟨husers', hsignup', hothers', hgids'⟩ := ih hrest
      refine ⟨husers'.trans husers, hsignup'.trans hsignup,
        fun id hid => (hothers' id hid).trans (hothers id hid), ?_⟩
      intro gid hgid
      rcases hgids' gid hgid with hm' | hlater
      · rcases hgids gid hm' with hold | hnow
        · exact .inl hold
        · exact .inr (hnow ▸ mem_cons_self)
      · exact .inr (mem_cons_of_mem _ hlater)

omit [FloatText] in
/-- What `handleCreate` inserts and the groups it gives. -/
lemma handleCreate_ok {salt : String} {id : ℤ}
    (h : handleCreate U s call salt base = .ok (id, base')) :
    requireUserManager s.userContext = .ok () ∧ id = base.users.nextId ∧
      ∃ login hash active share statements,
        groupStatements createCommand (((objectOr (call.arg 0)).lookup "groups_id").getD .null) =
          .ok statements ∧
        base'.users = base.users.insert (newUserRow U login hash
          ((((objectOr (call.arg 0)).lookup "partner_id").map extractFk).getD 0)
          ((((objectOr (call.arg 0)).lookup "company_id").map extractFk).getD 0) active share) ∧
        base'.signup = base.signup ∧ (∀ uid, uid ≠ id → base'.groups uid = base.groups uid) ∧
        ∀ gid ∈ base'.groups id, .add gid ∈ statements := by
  obtain ⟨⟨⟩, hmanager, h⟩ := bind_ok_iff.mp h
  obtain ⟨pw, -, h⟩ := bind_ok_iff.mp h
  obtain ⟨login, -, h⟩ := bind_ok_iff.mp h
  obtain ⟨-, -, h⟩ := bind_ok_iff.mp h
  obtain ⟨-, -, h⟩ := bind_ok_iff.mp h
  obtain ⟨active, -, h⟩ := bind_ok_iff.mp h
  obtain ⟨share, -, h⟩ := bind_ok_iff.mp h
  obtain ⟨-, -, h⟩ := bind_ok_iff.mp h
  obtain ⟨statements, hstatements, h⟩ := bind_ok_iff.mp h
  obtain ⟨b, hb, h⟩ := bind_ok_iff.mp h
  obtain ⟨rfl, rfl⟩ := Prod.mk.inj (pure_ok_iff.mp h)
  obtain ⟨husers, hsignup, hothers, hgids⟩ := runStatements_ok hb
  refine ⟨hmanager, rfl, login, _, active, share, statements, hstatements, husers, hsignup,
    hothers, ?_⟩
  intro gid hgid
  -- the new user has no groups yet
  have hnone : base.groups base.users.nextId = [] := base.member _ (get?_nextId _)
  refine (hgids gid hgid).resolve_left fun hold => ?_
  have hold : gid ∈ base.groups base.users.nextId := hold
  rw [hnone] at hold
  cases hold

/-- The value the model's own write binds to a column. -/
def writtenColumn (U : UsersModel) (vals : Values) (col : String) : Option SqlValue :=
  (setColumns U.derived ((coerceNumericStrings U.derived.registry (scalarValues vals)).erase
    "__expected_write_date")).toOption.bind (·.lookup col)

/-- A row after the model's own write: the bound values, the company as the
database reads it. -/
structure Assigned (U : UsersModel) (vals : Values) (row row' : Row) : Prop where
  cells : ∀ col, col ≠ "write_date" →
    row'.cells col = (writtenColumn U vals col).getD (row.cells col)
  company : (writtenColumn U vals "company_id" = none ∧ row'.companyId = row.companyId) ∨
    ∃ b, writtenColumn U vals "company_id" = some b ∧ U.schema.integerInput b = .ok row'.companyId

variable {vals : Values}

lemma writeScalars_ok {ids : List ℤ} (h : writeScalars U engine s vals ids base = .ok base') :
    base'.groups = base.groups ∧ base'.signup = base.signup ∧
      ∀ uid row', base'.users.get? uid = some row' → ∃ row, base.users.get? uid = some row ∧
        (row' = row ∨ (uid ∈ ids ∧ Assigned U vals row row')) := by
  unfold writeScalars at h
  split at h
  · cases h
    exact ⟨rfl, rfl, fun _ row' hrow => ⟨row', hrow, .inl rfl⟩⟩
  split at h
  · cases h
  next users hwrite =>
  cases h
  refine ⟨rfl, rfl, ?_⟩
  intro uid row' hrow'
  obtain ⟨-, ⟨rfl, -⟩ | ⟨sets, stamped, clause, company, hsets, hstamped, -, hcompany, rfl⟩⟩ :=
    write_ok rfl rfl hwrite
  · exact ⟨row', hrow', .inl rfl⟩
  rw [get?_updateWhere] at hrow'
  obtain ⟨row, hrow, heq⟩ := map_eq_some_iff.mp hrow'
  refine ⟨row, hrow, ?_⟩
  split at heq
  · next hhit =>
      have hwritten : ∀ col, writtenColumn U vals col = sets.lookup col := by
        intro col
        unfold writtenColumn
        rw [hsets]
        rfl
      refine .inr ⟨?_, ?_⟩
      · unfold touched at hhit
        simp only [Bool.and_eq_true, contains_iff_mem] at hhit
        exact hhit.1.1.1
      · rw [← heq]
        constructor
        · intro col hcol
          rw [hwritten]
          show (stamped.lookup col).getD (row.cells col) = _
          rw [(stampedColumns_ok hstamped).1 col hcol]
        · rw [hwritten]
          unfold assignedCompany at hcompany
          rcases hb : sets.lookup "company_id" with - | b
          · rw [hb] at hcompany
            cases hcompany
            exact .inl ⟨rfl, rfl⟩
          · rw [hb] at hcompany
            obtain ⟨c, hc, rfl⟩ := map_ok_iff.mp hcompany
            exact .inr ⟨b, rfl, hc⟩
  · exact .inl heq.symm

/-- A column the model does not register is not written. -/
lemma writtenColumn_unregistered {col : String} (h : U.derived.registry.has col = false) :
    writtenColumn U vals col = none := by
  unfold writtenColumn setColumns
  generalize (coerceNumericStrings U.derived.registry (scalarValues vals)).erase
    "__expected_write_date" = kvs
  rcases hsets : bindColumns U.derived.registry (kvs.filter fun kv =>
      U.derived.registry.has kv.1) with e | sets
  · rfl
  · exact (bindColumns_lookup col hsets).2 (Values.lookup_filter_none kvs _ h)

omit [FloatText] in
lemma password_unregistered (U : UsersModel) : U.derived.registry.has "password" = false := by
  unfold FieldRegistry.has
  rw [U.registered]
  decide

variable {row' : Row}

/-- The model's own write leaves the password alone. -/
lemma Assigned.password {row : Row} (h : Assigned U vals row row') :
    row'.cells "password" = row.cells "password" := by
  rw [h.cells "password" (by decide), writtenColumn_unregistered (password_unregistered U)]
  rfl

/-- The partner a row has after the model's own write. -/
lemma Assigned.partner {row : Row} (h : Assigned U vals row row') :
    U.partnerOf row' = U.partnerOf row ∨ ∃ b, writtenColumn U vals "partner_id" = some b ∧
      U.partnerOf row' = (U.schema.integerInput b).toOption.join := by
  unfold UsersModel.partnerOf
  rw [h.cells "partner_id" (by decide)]
  rcases writtenColumn U vals "partner_id" with - | b
  · exact .inl rfl
  · exact .inr ⟨b, rfl, rfl⟩

section

omit [FloatText]

lemma partnerOf_newPassword (hash : String) (row : Row) :
    U.partnerOf (newPassword U hash row) = U.partnerOf row := by
  have hcell : (newPassword U hash row).cells "partner_id" = row.cells "partner_id" := by
    unfold newPassword
    dsimp only
    rw [update_of_ne (by decide), update_of_ne (by decide)]
  unfold UsersModel.partnerOf
  rw [hcell]

lemma setPassword_row {ids : List ℤ} {hash : String}
    (h : (base.setPassword U ids hash).users.get? uid = some row') :
    ∃ row, base.users.get? uid = some row ∧ U.partnerOf row' = U.partnerOf row ∧
      (uid ∉ ids → row' = row) := by
  unfold UserBase.setPassword at h
  rw [get?_updateWhere] at h
  obtain ⟨row, hrow, heq⟩ := map_eq_some_iff.mp h
  refine ⟨row, hrow, ?_⟩
  split at heq
  · next hmem =>
      rw [← heq]
      exact ⟨partnerOf_newPassword hash row,
        fun hnot => absurd (contains_iff_mem.mp hmem) hnot⟩
  · rw [← heq]
    exact ⟨rfl, fun _ => rfl⟩

lemma writeGroups_ok {ids : List ℤ} (h : writeGroups U vals ids base = .ok base') :
    base'.users = base.users ∧ base'.signup = base.signup := by
  have hrel : ∀ b uid b', (do
      let statements ← groupStatements writeCommand ((vals.lookup "groups_id").getD .null)
      runStatements U statements uid b) = .ok b' → b'.users = b.users ∧ b'.signup = b.signup := by
    intro b uid b' hb
    obtain ⟨statements, -, hb⟩ := bind_ok_iff.mp hb
    obtain ⟨husers, hsignup, -, -⟩ := runStatements_ok hb
    exact ⟨husers, hsignup⟩
  refine Runs.foldlM_rel (R := fun b b' => b'.users = b.users ∧ b'.signup = b.signup)
    (fun _ => ⟨rfl, rfl⟩) ?_ hrel h
  intro a b c hab hbc
  exact ⟨hbc.1.trans hab.1, hbc.2.trans hab.2⟩

/-- Without commands the groups stay as they are. -/
lemma writeGroups_none (U : UsersModel) (h : vals.lookup "groups_id" = none) (ids : List ℤ)
    (base : UserBase) : writeGroups U vals ids base = .ok base := by
  unfold writeGroups
  rw [h]
  induction ids with
  | nil => rfl
  | cons uid ids ih => exact ih

lemma writePassword_cases (U : UsersModel) (vals : Values) (salt : String) (ids : List ℤ)
    (base : UserBase) :
    (newHash U vals salt = none ∧ writePassword U vals salt ids base = base) ∨
      ∃ hash, writePassword U vals salt ids base = base.setPassword U ids hash := by
  unfold writePassword
  rcases newHash U vals salt with - | hash
  · exact .inl ⟨rfl, rfl⟩
  · exact .inr ⟨hash, rfl⟩

end

lemma writeRest_cases (U : UsersModel) (engine : Option RuleEngine) (s : Session) (vals : Values)
    (ids : List ℤ) (base : UserBase) :
    (writeRest U engine s vals ids base).1 = base ∨ ∃ b, writeGroups U vals ids base = .ok b ∧
      ((writeRest U engine s vals ids base).1 = b ∨
        writeScalars U engine s vals ids b = .ok (writeRest U engine s vals ids base).1) := by
  unfold writeRest
  rcases writeGroups U vals ids base with e | b
  · exact .inl rfl
  · refine .inr ⟨b, rfl, ?_⟩
    dsimp only
    rcases writeScalars U engine s vals ids b with e | b'
    · exact .inl rfl
    · exact .inr rfl

/-- How far a write gets. -/
lemma handleWrite_cases (U : UsersModel) (engine : Option RuleEngine) (s : Session)
    (call : CallKwArgs) (salt : String) (base : UserBase) :
    (handleWrite U engine s call salt base).1 = base ∨ ∃ ids,
      call.ids = .ok ids ∧ mayWrite s call ids = .ok () ∧
      (handleWrite U engine s call salt base).1 = (writeRest U engine s (objectOr (call.arg 1)) ids
          (writePassword U (objectOr (call.arg 1)) salt ids base)).1 := by
  unfold handleWrite
  rcases call.ids with e | ids
  · exact .inl rfl
  dsimp only
  rcases hmay : mayWrite s call ids with e | u
  · exact .inl rfl
  · exact .inr ⟨ids, rfl, hmay, rfl⟩

/-- The rows after the groups and the model's own write. -/
lemma writeRest_row {ids : List ℤ}
    (h : (writeRest U engine s vals ids base).1.users.get? uid = some row') :
    ∃ row, base.users.get? uid = some row ∧
      (row' = row ∨ (uid ∈ ids ∧ Assigned U vals row row')) := by
  obtain hsame | ⟨b, hgroups, hsame | hscalars⟩ :=
    writeRest_cases U engine s vals ids base
  · rw [hsame] at h
    exact ⟨row', h, .inl rfl⟩
  · rw [hsame, (writeGroups_ok hgroups).1] at h
    exact ⟨row', h, .inl rfl⟩
  · obtain ⟨row, hrow, hcases⟩ := (writeScalars_ok hscalars).2.2 uid row' h
    rw [(writeGroups_ok hgroups).1] at hrow
    exact ⟨row, hrow, hcases⟩

lemma writeRest_signup (U : UsersModel) (engine : Option RuleEngine) (s : Session) (vals : Values)
    (ids : List ℤ) (base : UserBase) :
    (writeRest U engine s vals ids base).1.signup = base.signup := by
  obtain hsame | ⟨b, hgroups, hsame | hscalars⟩ :=
    writeRest_cases U engine s vals ids base
  · rw [hsame]
  · rw [hsame, (writeGroups_ok hgroups).2]
  · rw [(writeScalars_ok hscalars).2.1, (writeGroups_ok hgroups).2]

lemma handleWrite_signup (U : UsersModel) (engine : Option RuleEngine) (s : Session)
    (call : CallKwArgs) (salt : String) (base : UserBase) :
    (handleWrite U engine s call salt base).1.signup = base.signup := by
  obtain h | ⟨ids, -, -, h⟩ :=
    handleWrite_cases U engine s call salt base
  · rw [h]
  rw [h, writeRest_signup]
  obtain ⟨-, h⟩ | ⟨hash, h⟩ := writePassword_cases U (objectOr (call.arg 1)) salt ids base
  · rw [h]
  · rw [h]
    rfl

/-- The partner a user has after a write. -/
lemma handleWrite_row {salt : String}
    (h : (handleWrite U engine s call salt base).1.users.get? uid = some row') :
    ∃ row, base.users.get? uid = some row ∧
      (U.partnerOf row' = U.partnerOf row ∨ ∃ ids b, call.ids = .ok ids ∧
        mayWrite s call ids = .ok () ∧ uid ∈ ids ∧
        writtenColumn U (objectOr (call.arg 1)) "partner_id" = some b ∧
        U.partnerOf row' = (U.schema.integerInput b).toOption.join) := by
  obtain hsame | ⟨ids, hids, hmay, hrest⟩ :=
    handleWrite_cases U engine s call salt base
  · rw [hsame] at h
    exact ⟨row', h, .inl rfl⟩
  rw [hrest] at h
  obtain ⟨r, hr, hassigned⟩ := writeRest_row h
  have hpassword : ∃ row, base.users.get? uid = some row ∧ U.partnerOf r = U.partnerOf row := by
    obtain ⟨-, hnone⟩ | ⟨hash, hset⟩ :=
      writePassword_cases U (objectOr (call.arg 1)) salt ids base
    · rw [hnone] at hr
      exact ⟨r, hr, rfl⟩
    · rw [hset] at hr
      obtain ⟨row, hrow, hpartner, -⟩ := setPassword_row hr
      exact ⟨row, hrow, hpartner⟩
  obtain ⟨row, hrow, hpartner⟩ := hpassword
  refine ⟨row, hrow, ?_⟩
  rcases hassigned with rfl | ⟨hmem, hassigned⟩
  · exact .inl hpartner
  · rcases hassigned.partner with hsame | ⟨v, hv, hnew⟩
    · exact .inl (hsame.trans hpartner)
    · exact .inr ⟨ids, v, hids, hmay, hmem, hv, hnew⟩

/-- A write by a session that is no administrator is the model's own, of the
caller's own record. -/
lemma handleWrite_own (U : UsersModel) (engine : Option RuleEngine) (call : CallKwArgs)
    (salt : String) (base : UserBase) (hadmin : s.isAdmin = false) :
    (handleWrite U engine s call salt base).1.groups = base.groups ∧
      ∀ uid row', (handleWrite U engine s call salt base).1.users.get? uid = some row' →
        ∃ row, base.users.get? uid = some row ∧
          (row' = row ∨ (uid = s.uid ∧ mayWrite s call [s.uid] = .ok () ∧
            Assigned U (objectOr (call.arg 1)) row row')) := by
  obtain hsame | ⟨ids, -, hmay, hrest⟩ :=
    handleWrite_cases U engine s call salt base
  · rw [hsame]
    exact ⟨rfl, fun uid row' h => ⟨row', h, .inl rfl⟩⟩
  have hgranted := hmay
  unfold mayWrite at hmay
  rw [hadmin] at hmay
  simp only [Bool.false_eq_true, if_false] at hmay
  split_ifs at hmay with hids hgroups hpassword
  have hids : ids = [s.uid] := not_not.mp hids
  have hnoHash : newHash U (objectOr (call.arg 1)) salt = none := by
    unfold newHash
    rw [not_isSome_iff_eq_none.mp hpassword]
  have hbase : writePassword U (objectOr (call.arg 1)) salt ids base = base := by
    unfold writePassword
    rw [hnoHash]
  have hnoGroups := writeGroups_none U (not_isSome_iff_eq_none.mp hgroups) ids base
  rw [hrest, hbase]
  constructor
  · obtain hsame | ⟨b, hb, hsame | hscalars⟩ :=
      writeRest_cases U engine s (objectOr (call.arg 1)) ids base
    · rw [hsame]
    · rw [hsame, Except.ok.inj (hb.symm.trans hnoGroups)]
    · rw [(writeScalars_ok hscalars).1, Except.ok.inj (hb.symm.trans hnoGroups)]
  · intro uid row' h
    obtain ⟨row, hrow, heq | ⟨hmem, hassigned⟩⟩ := writeRest_row h
    · exact ⟨row, hrow, .inl heq⟩
    · rw [hids] at hmem hgranted
      exact ⟨row, hrow, .inr ⟨mem_singleton.mp hmem, hgranted, hassigned⟩⟩

omit [FloatText] in
/-- The partner of a new user is the one its values name. -/
lemma partnerOf_newUserRow (login hash : String) (j : Json) (company : ℤ) (active share : Bool) :
    U.partnerOf (newUserRow U login hash (extractFk j) company active share) =
      if 0 < extractFk j then some (extractFk j) else none := by
  have hint : toInt32 (extractFk j) = extractFk j := by
    unfold extractFk
    split
    · split
      · exact Int.bmod_bmod
      · rfl
    · split
      · exact Int.bmod_bmod
      · rfl
    · rfl
  unfold UsersModel.partnerOf
  have hcell : (newUserRow U login hash (extractFk j) company active share).cells "partner_id" =
      fkParam (extractFk j) := rfl
  rw [hcell]
  unfold fkParam
  split
  · rw [U.schema.integerInput_int _ hint]
    rfl
  · rw [U.schema.integerInput_null]
    rfl

/-- A deletion leaves rows and groups alone that it does not delete, the
caller's own among them. -/
lemma handleUnlink_ok (h : handleUnlink U engine s call base = .ok base') :
    base'.signup = base.signup ∧
      (∀ uid row, base'.users.get? uid = some row → base.users.get? uid = some row) ∧
      (∀ uid, ∀ gid ∈ base'.groups uid, gid ∈ base.groups uid) ∧
      (∀ uid row, base'.users.get? uid = some row → base'.groups uid = base.groups uid) ∧
      base'.users.get? s.uid = base.users.get? s.uid := by
  obtain ⟨⟨⟩, -, h⟩ := bind_ok_iff.mp h
  obtain ⟨ids, -, h⟩ := bind_ok_iff.mp h
  obtain ⟨⟨⟩, hown, h⟩ := bind_ok_iff.mp h
  have hown : s.uid ∉ ids := require_ok_iff.mp hown
  obtain ⟨users, husers, h⟩ := bind_ok_iff.mp h
  obtain rfl := pure_ok_iff.mp h
  have hrows : ∀ uid, users.get? uid = base.users.get? uid ∨
      (users.get? uid = none ∧ uid ∈ ids) := by
    intro uid
    unfold unlink at husers
    split at husers
    · rw [pure_ok_iff.mp husers]
      exact .inl rfl
    · obtain ⟨clause, -, husers⟩ := bind_ok_iff.mp husers
      obtain ⟨⟨⟩, -, husers⟩ := bind_ok_iff.mp husers
      rw [← pure_ok_iff.mp husers, get?_delete]
      rcases base.users.get? uid with - | row
      · exact .inl rfl
      · by_cases hid : uid ∈ ids
        · rw [filter_some]
          split
          · exact .inl rfl
          · exact .inr ⟨rfl, hid⟩
        · have hno : ids.contains uid = false := by
            rw [← Bool.not_eq_true, contains_iff_mem]
            exact hid
          rw [filter_some, hno]
          exact .inl rfl
  refine ⟨rfl, ?_, ?_, ?_, ?_⟩
  · intro uid row hrow
    have hrow : users.get? uid = some row := hrow
    rcases hrows uid with hsame | ⟨hnone, -⟩
    · rw [← hsame]
      exact hrow
    · rw [hnone] at hrow
      cases hrow
  · intro uid gid hgid
    have hgid : gid ∈ if (users.get? uid).isSome then base.groups uid else [] := hgid
    split at hgid
    · exact hgid
    · cases hgid
  · intro uid row hrow
    have hrow : users.get? uid = some row := hrow
    show (if (users.get? uid).isSome then base.groups uid else []) = base.groups uid
    rw [hrow]
    rfl
  · exact (hrows s.uid).resolve_right fun hgone => hown hgone.2

omit [FloatText] in
/-- A reset link puts its token on the partner of its user. -/
lemma handleGenerateResetLink_ok {token : String} {now : ℤ}
    (h : handleGenerateResetLink U s call token now base = .ok (uid, base')) :
    requireUserManager s.userContext = .ok () ∧ ∃ ids row partner, call.ids = .ok (uid :: ids) ∧
      base.users.get? uid = some row ∧ U.partnerOf row = some partner ∧
      base' = base.setSignup partner ⟨some token, some (now + resetLifetime)⟩ := by
  obtain ⟨⟨⟩, hmanager, h⟩ := bind_ok_iff.mp h
  obtain ⟨ids, hids, h⟩ := bind_ok_iff.mp h
  rcases ids with - | ⟨id, ids⟩
  · cases h
  dsimp only at h
  rcases hrow : base.users.get? id with - | row
  · rw [hrow] at h
    cases h
  rw [hrow] at h
  dsimp only at h
  rcases hpartner : U.partnerOf row with - | partner
  · rw [hpartner] at h
    cases h
  rw [hpartner] at h
  obtain ⟨rfl, rfl⟩ := Prod.mk.inj (pure_ok_iff.mp h)
  exact ⟨hmanager, ids, row, partner, hids, hrow, hpartner, rfl⟩

omit [FloatText] in
/-- A reset that goes through found its token, in time, on the partner of the
login's user. -/
lemma completeReset_ok {login token password salt : String} {now : ℤ}
    (h : completeReset U login token password salt now base = .ok (uid, base')) :
    ∃ row partner, (uid, row) ∈ base.users.rows ∧ U.partnerOf row = some partner ∧
      (base.signup partner).token = some token ∧
      (base.signup partner).expiration.any (· < now) = false ∧
      base' = (base.setPassword U [uid] (U.hashPassword salt password)).setSignup partner {} := by
  unfold completeReset at h
  rcases hfind : base.findLogin U login with - | ⟨id, row⟩
  · rw [hfind] at h
    cases h
  rw [hfind, bind_some] at h
  rcases hpartner : U.partnerOf row with - | partner
  · rw [hpartner] at h
    cases h
  rw [hpartner, map_some] at h
  dsimp only at h
  split_ifs at h with htoken hexpired
  obtain ⟨rfl, rfl⟩ := Prod.mk.inj (Except.ok.inj h)
  obtain ⟨hsame, hempty⟩ := not_or.mp htoken
  refine ⟨row, partner, mem_of_find?_eq_some hfind, hpartner, ?_,
    Bool.eq_false_iff.mpr hexpired, rfl⟩
  rcases hstored : (base.signup partner).token with - | stored
  · rw [hstored] at hempty
    exact absurd rfl hempty
  · rw [hstored] at hsame
    exact congrArg some (not_not.mp hsame)

end Ok

/-! ### Runs -/

/-- A reset link: its token, the user it was minted for, and when. -/
structure Mint where
  token : String
  uid : ℤ
  time : ℤ
deriving DecidableEq

/-- The database, the clock, the links minted so far (the last one first) and
the tokens that were used. -/
structure UserWorld where
  base : UserBase
  clock : ℤ
  minted : List Mint := []
  spent : List String := []

/-- A request about users. -/
inductive UserRequest where
  | create (s : Session) (call : CallKwArgs) (salt : String)
  | write (s : Session) (call : CallKwArgs) (salt : String)
  | unlink (s : Session) (call : CallKwArgs)
  | generateResetLink (s : Session) (call : CallKwArgs) (token : String)
  | resetPassword (login token password salt : String)

/-- The world a request leaves; a refused one leaves it as it is. -/
def UserWorld.serve (w : UserWorld) : UserRequest → UserWorld
  | .create s call salt =>
      match handleCreate U s call salt w.base with
      | .ok (_, base) => { w with base := base }
      | .error _ => w
  | .write s call salt => { w with base := (handleWrite U engine s call salt w.base).1 }
  | .unlink s call =>
      match handleUnlink U engine s call w.base with
      | .ok base => { w with base := base }
      | .error _ => w
  | .generateResetLink s call token =>
      match handleGenerateResetLink U s call token w.clock w.base with
      | .ok (uid, base) => { w with base := base, minted := ⟨token, uid, w.clock⟩ :: w.minted }
      | .error _ => w
  | .resetPassword login token password salt =>
      match CErp.resetPassword U login token password salt w.clock w.base with
      | .ok (_, base) => { w with base := base, spent := token :: w.spent }
      | .error _ => w

/-- One request, at a moment that is not before the last. -/
def userStep (w : UserWorld) (e : ℤ × UserRequest) : Option UserWorld :=
  if w.clock ≤ e.1 then some (({ w with clock := e.1 } : UserWorld).serve U engine e.2) else none

end Handlers

end CErp
