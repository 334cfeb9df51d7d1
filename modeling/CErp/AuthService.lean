/-
Passwords: how they are stored, how a login checks them, and `change_password`.

PBKDF2 and base64 come from outside.  `PasswordScheme` is what they are read as:
a digest is a symbol that tells the password and the salt it was derived from,
and base64 gives back what it was given.  `verifyPassword` takes a stored text
apart at its dollar signs, whoever wrote it; what it accepts for the texts that
`hashPassword` writes is `verifyPassword_hashPassword`, and for texts of any
kind `verifyPassword_unique_iff`.
-/
import CErp.AuthViewModel

namespace CErp

open Outcome Outcome List String

/-! ### The scheme -/

/-- PBKDF2-SHA512 and base64 as the service calls them.  `derive` fails where
OpenSSL refuses its arguments; of no bytes there is one digest at most. -/
structure PasswordScheme where
  Bytes : Type
  decEq : DecidableEq Bytes
  size : Bytes → ℕ
  base64Encode : Bytes → String
  base64Decode : String → Bytes
  derive : String → Bytes → ℤ → ℕ → Option Bytes
  decode_encode : ∀ b, base64Decode (base64Encode b) = b
  alphabet : ∀ b, '$' ∉ (base64Encode b).toList
  size_derive : ∀ {pw salt rounds n b}, derive pw salt rounds n = some b → size b = n
  derive_injective : ∀ {pw pw' salt salt' rounds n b}, 0 < n →
    derive pw salt rounds n = some b → derive pw' salt' rounds n = some b → pw = pw' ∧ salt = salt'
  derive_nothing : ∀ pw pw' salt rounds, derive pw salt rounds 0 = derive pw' salt rounds 0

namespace PasswordScheme

variable (S : PasswordScheme)

instance : DecidableEq S.Bytes := S.decEq

def schemeMark : String := "$pbkdf2-sha512$"

def defaultRounds : ℤ := 600000

/-- `hashPassword`, with the salt drawn for it. -/
def hashPassword (salt : S.Bytes) (password : String) (rounds : ℤ) : Except String String :=
  match S.derive password salt rounds 64 with
  | none => .error "AuthService: PBKDF2 derivation failed"
  | some hash =>
      .ok (schemeMark ++ toString rounds ++ "$" ++ S.base64Encode salt ++ "$" ++
        S.base64Encode hash)

/-- The text before the first dollar sign, and the text behind it. -/
def cutDollar (cs : List Char) : Option (List Char × List Char) :=
  match cs.dropWhile (· ≠ '$') with
  | [] => none
  | _ :: rest => some (cs.takeWhile (· ≠ '$'), rest)

/-- Rounds, salt and hash of a stored text. -/
def splitStored (stored : String) : Option (String × String × String) :=
  if Text.hasPrefix schemeMark stored then do
    let (rounds, rest) ← cutDollar (stored.toList.drop schemeMark.length)
    let (salt, hash) ← cutDollar rest
    return (ofList rounds, ofList salt, ofList hash)
  else none

/-- `verifyPassword_`; `std::stoi` throws where the rounds are no number. -/
def verifyPassword (plaintext stored : String) : Except String Bool :=
  match splitStored stored with
  | none => .ok false
  | some (rounds, salt, hash) =>
      match Text.stoi rounds with
      | none => .error "stoi"
      | some rounds =>
          let expected := S.base64Decode hash
          match S.derive plaintext (S.base64Decode salt) rounds (S.size expected) with
          | none => .ok false
          | some derived => .ok (decide (derived = expected))

/-! ### What is accepted -/

lemma cutDollar_append {a : List Char} (h : '$' ∉ a) (b : List Char) :
    cutDollar (a ++ '$' :: b) = some (a, b) := by
  have hne : ∀ c ∈ a, decide (c ≠ '$') = true := by
    rintro c hc
    exact decide_eq_true fun heq => h (heq ▸ hc)
  unfold cutDollar
  rw [dropWhile_append_of_pos hne, takeWhile_append_of_pos hne,
    dropWhile_cons_of_neg (by decide), takeWhile_cons_of_neg (by decide), append_nil]

lemma no_dollar_toString (i : ℤ) : '$' ∉ (toString i).toList := by
  intro h
  rcases Decimals.mem_toString h with hdigit | hminus
  · exact absurd hdigit (by decide)
  · exact absurd hminus (by decide)

lemma splitStored_append {rounds salt : String} (hrounds : '$' ∉ rounds.toList)
    (hsalt : '$' ∉ salt.toList) (hash : String) :
    splitStored (schemeMark ++ rounds ++ "$" ++ salt ++ "$" ++ hash) =
      some (rounds, salt, hash) := by
  have htext : (schemeMark ++ rounds ++ "$" ++ salt ++ "$" ++ hash).toList =
      schemeMark.toList ++ (rounds.toList ++ '$' :: (salt.toList ++ '$' :: hash.toList)) := by
    simp [toList_append]
  have hmark : Text.hasPrefix schemeMark (schemeMark ++ rounds ++ "$" ++ salt ++ "$" ++ hash) =
      true := by
    unfold Text.hasPrefix
    rw [htext, List.isPrefixOf_iff_prefix]
    exact prefix_append _ _
  have hbody : (schemeMark ++ rounds ++ "$" ++ salt ++ "$" ++ hash).toList.drop schemeMark.length =
      rounds.toList ++ '$' :: (salt.toList ++ '$' :: hash.toList) := by
    rw [htext]
    exact drop_left
  unfold splitStored
  rw [if_pos hmark, hbody, cutDollar_append hrounds]
  show (cutDollar (salt.toList ++ '$' :: hash.toList)).bind _ = _
  rw [cutDollar_append hsalt]
  simp [ofList_toList]

/-- A text with rounds, a salt and a hash of at least one byte, in which the hash
is that of a password. -/
def HashOf (stored password : String) : Prop :=
  ∃ rounds salt hash n, splitStored stored = some (rounds, salt, hash) ∧
    Text.stoi rounds = some n ∧ 0 < S.size (S.base64Decode hash) ∧
    S.derive password (S.base64Decode salt) n (S.size (S.base64Decode hash)) =
      some (S.base64Decode hash)

variable {S}

lemma verifyPassword_iff {plaintext stored : String} :
    S.verifyPassword plaintext stored = .ok true ↔
      ∃ rounds salt hash n, splitStored stored = some (rounds, salt, hash) ∧
        Text.stoi rounds = some n ∧
        S.derive plaintext (S.base64Decode salt) n (S.size (S.base64Decode hash)) =
          some (S.base64Decode hash) := by
  unfold verifyPassword
  rcases splitStored stored with - | ⟨rounds, salt, hash⟩
  · constructor
    · intro h
      cases h
    · rintro ⟨_, _, _, _, h, -⟩
      cases h
  dsimp only
  rcases hstoi : Text.stoi rounds with - | n
  · constructor
    · intro h
      cases h
    · rintro ⟨_, _, _, _, h, hn, -⟩
      cases h
      rw [hstoi] at hn
      cases hn
  dsimp only
  rcases hderive : S.derive plaintext (S.base64Decode salt) n (S.size (S.base64Decode hash)) with
    - | derived
  · constructor
    · intro h
      cases h
    · rintro ⟨_, _, _, _, h, hn, hd⟩
      cases h
      rw [hstoi] at hn
      cases hn
      rw [hderive] at hd
      cases hd
  · constructor
    · intro h
      have hsame : derived = S.base64Decode hash := of_decide_eq_true (Except.ok.inj h)
      exact ⟨rounds, salt, hash, n, rfl, hstoi, by rw [hderive, hsame]⟩
    · rintro ⟨_, _, _, _, h, hn, hd⟩
      cases h
      rw [hstoi] at hn
      cases hn
      rw [hderive] at hd
      exact congrArg _ (decide_eq_true (Option.some.inj hd))

/-- The hash of a password is no other's. -/
lemma HashOf.verifyPassword_iff {stored p : String} (h : S.HashOf stored p) (q : String) :
    S.verifyPassword q stored = .ok true ↔ q = p := by
  obtain ⟨rounds, salt, hash, n, hsplit, hn, hsize, hderive⟩ := h
  rw [PasswordScheme.verifyPassword_iff]
  constructor
  · rintro ⟨rounds', salt', hash', n', hsplit', hn', hderive'⟩
    cases hsplit.symm.trans hsplit'
    cases hn.symm.trans hn'
    exact (S.derive_injective hsize hderive' hderive).1
  · rintro rfl
    exact ⟨rounds, salt, hash, n, hsplit, hn, hderive⟩

/-- **A stored text accepts one password, and only this one, exactly when it is
a hash of it.**  An empty hash is everybody's or nobody's. -/
theorem verifyPassword_unique_iff {stored p : String} :
    (∀ q, S.verifyPassword q stored = .ok true ↔ q = p) ↔ S.HashOf stored p := by
  refine ⟨fun h => ?_, HashOf.verifyPassword_iff⟩
  obtain ⟨rounds, salt, hash, n, hsplit, hn, hderive⟩ :=
    PasswordScheme.verifyPassword_iff.mp ((h p).mpr rfl)
  refine ⟨rounds, salt, hash, n, hsplit, hn, Nat.pos_of_ne_zero fun hzero => ?_, hderive⟩
  -- without a byte to compare, another password is accepted too
  have hother : S.verifyPassword (p ++ "x") stored = .ok true := by
    refine PasswordScheme.verifyPassword_iff.mpr ⟨rounds, salt, hash, n, hsplit, hn, ?_⟩
    rw [hzero] at hderive ⊢
    rw [S.derive_nothing (p ++ "x") p]
    exact hderive
  have hsame : p ++ "x" = p := (h (p ++ "x")).mp hother
  have hlen := congrArg String.length hsame
  rw [String.length_append] at hlen
  have hx : "x".length = 1 := rfl
  omega

/-- What `hashPassword` writes is a hash of its password. -/
lemma hashOf_hashPassword {salt : S.Bytes} {p stored : String} {rounds : ℤ}
    (hlo : -2 ^ 31 ≤ rounds) (hhi : rounds ≤ 2 ^ 31 - 1)
    (h : S.hashPassword salt p rounds = .ok stored) : S.HashOf stored p := by
  unfold hashPassword at h
  rcases hderive : S.derive p salt rounds 64 with - | hash
  · rw [hderive] at h
    cases h
  rw [hderive] at h
  obtain rfl := Except.ok.inj h
  have hsize : S.size hash = 64 := S.size_derive hderive
  refine ⟨toString rounds, S.base64Encode salt, S.base64Encode hash, rounds,
    splitStored_append (no_dollar_toString rounds) (S.alphabet salt) _,
    Text.stoi_toString hlo hhi, ?_, ?_⟩
  · rw [S.decode_encode, hsize]
    exact Nat.succ_pos 63
  · rw [S.decode_encode, S.decode_encode, hsize]
    exact hderive

end PasswordScheme

/-! ### The service -/

/-- The users, with the scheme their passwords are hashed by, the bytes each salt
stands for, and the text of a boolean column. -/
structure AuthModel extends UsersModel where
  scheme : PasswordScheme
  drawn : String → scheme.Bytes
  hashed : ∀ salt pw, scheme.hashPassword (drawn salt) pw PasswordScheme.defaultRounds =
    .ok (hashPassword salt pw)
  booleanText : SqlValue → String
  booleanText_bool : ∀ b, booleanText (.bool b) = if b then "t" else "f"
  booleanText_null : booleanText .null = ""
  dbName : String

/-- What a login writes into the session. -/
structure LoggedIn where
  uid : ℤ
  login : String
  db : String
  lang : String
  tz : String
deriving DecidableEq

namespace AuthModel

variable (A : AuthModel)

/-- The text of a column; of NULL it is empty. -/
def columnText (row : Row) (col : String) : String := (A.textInput (row.cells col)).getD ""

def isActive (row : Row) : Bool :=
  !(A.booleanText (row.cells "active") = "f" || A.booleanText (row.cells "active") = "false")

def loggedIn (uid : ℤ) (row : Row) (login dbName : String) : LoggedIn where
  uid := uid
  login := login
  db := dbName
  lang := (A.textInput (row.cells "lang")).getD "en_US"
  tz := (A.textInput (row.cells "tz")).getD "UTC"

/-- `AuthService::authenticate`. -/
def authenticate (base : UserBase) (login password dbName : String) :
    Except String (Option LoggedIn) :=
  match base.findLogin A.toUsersModel login with
  | none => .ok none
  | some (uid, row) =>
      if A.isActive row = false then .ok none
      else do
        if ← A.scheme.verifyPassword password (A.columnText row "password") then
          return some (A.loggedIn uid row login dbName)
        else return none

/-- A login with the password goes through. -/
def LogsIn (base : UserBase) (login password dbName : String) : Prop :=
  ∃ found, A.authenticate base login password dbName = .ok (some found)

variable {A}

lemma logsIn_iff {base : UserBase} {login password dbName : String} :
    A.LogsIn base login password dbName ↔ ∃ uid row,
      base.findLogin A.toUsersModel login = some (uid, row) ∧ A.isActive row = true ∧
        A.scheme.verifyPassword password (A.columnText row "password") = .ok true := by
  unfold LogsIn authenticate
  rcases base.findLogin A.toUsersModel login with - | ⟨uid, row⟩
  · constructor
    · rintro ⟨_, h⟩
      cases h
    · rintro ⟨_, _, h, -⟩
      cases h
  dsimp only
  constructor
  · rintro ⟨found, h⟩
    split at h
    · cases h
    · next hactive =>
        obtain ⟨accepted, hverify, h⟩ := bind_ok_iff.mp h
        cases accepted with
        | false => cases h
        | true => exact ⟨uid, row, rfl, Bool.of_not_eq_false hactive, hverify⟩
  · rintro ⟨_, _, heq, hactive, hverify⟩
    cases heq
    refine ⟨A.loggedIn uid row login dbName, ?_⟩
    rw [if_neg (by rw [hactive]; exact Bool.noConfusion), hverify]
    rfl

end AuthModel

/-! ### `change_password` -/

/-- `kwargs.value("context", {}).value("uid", 0)`. -/
def CallKwArgs.contextUid (call : CallKwArgs) : Except String ℤ :=
  match (call.kwargs.find? "context").getD (.obj []) with
  | .obj fields =>
      match fields.lookup "uid" with
      | none => .ok 0
      | some uid => uid.getInt
  | ctx => .error ("[json.exception.type_error.306] cannot use value() with " ++ ctx.typeName)

section ChangePassword

variable [FloatText] (A : AuthModel) (engine : Option RuleEngine)

/-- `handleChangePassword`: the users it leaves. -/
def handleChangePassword (s : Session) (call : CallKwArgs) (salt : String) (base : UserBase) :
    Except String (Table Row) := do
  let uid ← call.contextUid
  require (0 < uid) "Not authenticated"
  let oldPw := (call.arg 0).text
  let newPw := (call.arg 1).text
  require (oldPw ≠ "" ∧ newPw ≠ "") "Old and new passwords are required"
  require (8 ≤ newPw.utf8ByteSize) "New password must be at least 8 characters"
  let rows ← readByIds A.toServedModel engine (s.caller false) base.users.rows [uid]
    ["login", "password"]
  match rows with
  | [] => throw "User not found"
  | row :: _ =>
      let login ← stringValue row "login"
      match ← A.authenticate base login oldPw A.dbName with
      | none => throw "Current password is incorrect"
      | some _ =>
          write A.derived A.schema.toSchema engine A.interp (s.caller false) base.users [uid]
            [("password", .str (A.hashPassword salt newPw))]

variable {A engine}

/-- The model does not register the password, and refuses what it does not
register. -/
lemma write_password (c : Caller) (t : Table Row) (ids : List ℤ) (hash : String) :
    write A.derived A.schema.toSchema engine A.interp c t ids [("password", .str hash)] =
      .error ("Unknown field 'password' on " ++ A.derived.modelName) := by
  have hnone : A.derived.registry.get? "password" = none := by
    unfold FieldRegistry.get?
    rw [A.registered]
    decide
  have hcoerced : coerceNumericStrings A.derived.registry [("password", .str hash)] =
      [("password", .str hash)] := by
    show [("password", coerceNumericString _ "password" (.str hash))] = _
    unfold coerceNumericString
    rw [hnone]
  have hunknown : rejectUnknownFields A.derived [("password", .str hash)] =
      .error ("Unknown field 'password' on " ++ A.derived.modelName) := by
    unfold rejectUnknownFields
    have hkey : (!("password" == "id" || Text.hasPrefix "__" "password" ||
        A.derived.registry.has "password")) = true := by
      rw [password_unregistered A.toUsersModel]
      decide
    simp only [find?_cons, hkey]
    rfl
  unfold write
  rw [hcoerced]
  show rejectUnknownFields A.derived [("password", .str hash)] >>= _ = _
  rw [hunknown]
  rfl

/-- **A change of password never goes through.** -/
theorem handleChangePassword_error (s : Session) (call : CallKwArgs) (salt : String)
    (base : UserBase) (users : Table Row) :
    handleChangePassword A engine s call salt base ≠ .ok users := by
  intro h
  obtain ⟨uid, -, h⟩ := bind_ok_iff.mp h
  obtain ⟨⟨⟩, -, h⟩ := bind_ok_iff.mp h
  obtain ⟨⟨⟩, -, h⟩ := bind_ok_iff.mp h
  obtain ⟨⟨⟩, -, h⟩ := bind_ok_iff.mp h
  obtain ⟨rows, -, h⟩ := bind_ok_iff.mp h
  rcases rows with - | ⟨row, rows⟩
  · cases h
  obtain ⟨login, -, h⟩ := bind_ok_iff.mp h
  obtain ⟨found, -, h⟩ := bind_ok_iff.mp h
  cases found with
  | none => cases h
  | some found =>
      rw [write_password] at h
      cases h

/-- What a change gets that is right in everything. -/
lemma handleChangePassword_correct {s : Session} {call : CallKwArgs} {base : UserBase} {uid : ℤ}
    {row : Values} {rows : List Values} {login : String} (salt : String)
    (huid : call.contextUid = .ok uid) (hpos : 0 < uid) (hold : (call.arg 0).text ≠ "")
    (hnew : 8 ≤ (call.arg 1).text.utf8ByteSize)
    (hread : readByIds A.toServedModel engine (s.caller false) base.users.rows [uid]
      ["login", "password"] = .ok (row :: rows))
    (hlogin : stringValue row "login" = .ok login)
    (hcorrect : A.LogsIn base login (call.arg 0).text A.dbName) :
    handleChangePassword A engine s call salt base =
      .error ("Unknown field 'password' on " ++ A.derived.modelName) := by
  obtain ⟨found, hfound⟩ := hcorrect
  have hne : (call.arg 1).text ≠ "" := by
    intro hempty
    rw [hempty] at hnew
    exact absurd hnew (by decide)
  have next {α β : Type} {x : Except String α} {a : α} {f : α → Except String β}
      (h : x = .ok a) : x >>= f = f a := by
    rw [h]
    rfl
  unfold handleChangePassword
  rw [next huid, next ((require_ok_iff (u := ())).mpr hpos),
    next ((require_ok_iff (u := ())).mpr ⟨hold, hne⟩),
    next ((require_ok_iff (u := ())).mpr hnew), next hread]
  dsimp only
  rw [next hlogin, next hfound]
  exact write_password (s.caller false) base.users [uid] _

end ChangePassword

end CErp
