/-
A user's password, from the moment it is set to the next time it is.

Three writers leave a stored text behind: `handleCreate`, `handleWrite` and a
reset.  Numbers are not given twice, so nothing but another password changes
what is stored under one (`Keeps`), and a login checks what is stored.  A
password that looks like a hash is stored as it is by `handleWrite`; the others
are hashed.  `passwords_mean` says for which passwords the login then accepts
this password and no other.
-/
import CErp.AuthService
import CErp.Administrators

namespace CErp

open Outcome Table Function List

/-! ### What a password means -/

section Means

variable [FloatText]

/-- The request sets no password of the user. -/
def LeavesPassword (U : UsersModel) (uid : ℤ) (w : UserWorld) : UserRequest → Prop
  | .write s call salt => ∀ ids, call.ids = .ok ids → mayWrite s call ids = .ok () → uid ∈ ids →
      newHash U (objectOr (call.arg 1)) salt = none
  | .resetPassword login token password salt => ∀ base',
      CErp.resetPassword U login token password salt w.clock w.base ≠ .ok (uid, base')
  | _ => True

/-- Later worlds, in which the user has the password still. -/
def Later (U : UsersModel) (engine : Option RuleEngine) (uid : ℤ) : UserWorld → UserWorld → Prop :=
  Runs.Reaches (userStep U engine) fun w e => LeavesPassword U uid { w with clock := e.1 } e.2

variable (A : AuthModel) (engine : Option RuleEngine)

/-- A login finds the user, and the user is active. -/
def Active (w : UserWorld) (uid : ℤ) (login : String) : Prop :=
  ∃ row, w.base.findLogin A.toUsersModel login = some (uid, row) ∧ A.isActive row = true

/-- The password of the user is `p`: as long as no other is set, whenever the user
is active, a login with `p` goes through, and with nothing else. -/
def Means (w : UserWorld) (uid : ℤ) (p : String) : Prop :=
  ∀ w', Later A.toUsersModel engine uid w w' → ∀ login, Active A w' uid login →
    ∀ q dbName, A.LogsIn w'.base login q dbName ↔ q = p

end Means

/-! ### What is stored -/

/-- What is stored for the user, as long as there is one under the number. -/
structure Keeps (uid : ℤ) (stored : String) (base : UserBase) : Prop where
  given : uid < base.users.nextId
  stored : ∀ row, base.users.get? uid = some row → row.cells "password" = .text stored

variable {w : UserWorld}

section Stored

variable [FloatText] {U : UsersModel} {engine : Option RuleEngine} {s : Session}
  {call : CallKwArgs} {base base' : UserBase} {uid : ℤ} {salt stored : String}

omit [FloatText] in
/-- Changes of the users that leave the row under the number alone, or take it. -/
lemma Keeps.of_rows (h : Keeps uid stored base) (hnext : base.users.nextId ≤ base'.users.nextId)
    (hrows : ∀ row', base'.users.get? uid = some row' → ∃ row, base.users.get? uid = some row ∧
      row'.cells "password" = row.cells "password") : Keeps uid stored base' where
  given := h.given.trans_le hnext
  stored := by
    intro row' hrow'
    obtain ⟨row, hrow, hcell⟩ := hrows row' hrow'
    rw [hcell]
    exact h.stored row hrow

variable {ids : List ℤ}

section

omit [FloatText]

/-- The password after the statement that sets it. -/
lemma setPassword_cell {hash : String} {row' : Row}
    (h : (base.setPassword U ids hash).users.get? uid = some row') :
    ∃ row, base.users.get? uid = some row ∧
      row'.cells "password" = if uid ∈ ids then .text hash else row.cells "password" := by
  unfold UserBase.setPassword at h
  rw [get?_updateWhere] at h
  obtain ⟨row, hrow, heq⟩ := Option.map_eq_some_iff.mp h
  refine ⟨row, hrow, ?_⟩
  by_cases hmem : uid ∈ ids
  · rw [if_pos (contains_iff_mem.mpr hmem)] at heq
    rw [if_pos hmem, ← heq]
    unfold newPassword
    dsimp only
    rw [update_of_ne (by decide), update_self]
  · rw [if_neg fun hc => hmem (contains_iff_mem.mp hc)] at heq
    rw [if_neg hmem, heq]

lemma keeps_setPassword {hash : String} (hmem : uid ∈ ids) (huid : uid < base.users.nextId) :
    Keeps uid hash (base.setPassword U ids hash) where
  given := huid
  stored := by
    intro row' hrow'
    obtain ⟨row, -, hcell⟩ := setPassword_cell hrow'
    rw [hcell, if_pos hmem]

lemma Keeps.setPassword (h : Keeps uid stored base) (hmem : uid ∉ ids) (hash : String) :
    Keeps uid stored (base.setPassword U ids hash) := by
  refine h.of_rows le_rfl ?_
  intro row' hrow'
  obtain ⟨row, hrow, hcell⟩ := setPassword_cell hrow'
  rw [if_neg hmem] at hcell
  exact ⟨row, hrow, hcell⟩

end

lemma writeScalars_nextId {vals : Values}
    (h : writeScalars U engine s vals ids base = .ok base') :
    base'.users.nextId = base.users.nextId := by
  unfold writeScalars at h
  split at h
  · cases h
    rfl
  split at h
  · cases h
  next users hwrite =>
  cases h
  obtain ⟨-, ⟨rfl, -⟩ | ⟨_, _, _, _, -, -, -, -, rfl⟩⟩ := write_ok rfl rfl hwrite
  · rfl
  · rfl

/-- The groups and the model's own write leave the password alone. -/
lemma Keeps.writeRest (h : Keeps uid stored base) (vals : Values) (ids : List ℤ) :
    Keeps uid stored (writeRest U engine s vals ids base).1 := by
  refine h.of_rows (le_of_eq ?_) ?_
  · obtain hsame | ⟨b, hgroups, hsame | hscalars⟩ := writeRest_cases U engine s vals ids base
    · rw [hsame]
    · rw [hsame, (writeGroups_ok hgroups).1]
    · rw [← (writeGroups_ok hgroups).1]
      exact (writeScalars_nextId hscalars).symm
  · intro row' hrow'
    obtain ⟨row, hrow, rfl | ⟨-, hassigned⟩⟩ := writeRest_row hrow'
    · exact ⟨row', hrow, rfl⟩
    · exact ⟨row, hrow, hassigned.password⟩

/-- A write of other things, or of other users. -/
lemma Keeps.handleWrite (h : Keeps uid stored base)
    (hleft : ∀ ids, call.ids = .ok ids → mayWrite s call ids = .ok () → uid ∈ ids →
      newHash U (objectOr (call.arg 1)) salt = none) :
    Keeps uid stored (handleWrite U engine s call salt base).1 := by
  obtain hsame | ⟨ids, hids, hmay, hrest⟩ := handleWrite_cases U engine s call salt base
  · rw [hsame]
    exact h
  rw [hrest]
  refine Keeps.writeRest ?_ _ _
  unfold writePassword
  by_cases hmem : uid ∈ ids
  · rw [hleft ids hids hmay hmem]
    exact h
  · split
    · exact h.setPassword hmem _
    · exact h

/-- The administrator's write of a password. -/
lemma keeps_handleWrite (hadmin : s.isAdmin = true) (hids : call.ids = .ok ids)
    (hmem : uid ∈ ids) (huid : uid < base.users.nextId)
    (hset : newHash U (objectOr (call.arg 1)) salt = some stored) :
    Keeps uid stored (handleWrite U engine s call salt base).1 := by
  have hmay : mayWrite s call ids = .ok () := if_pos hadmin
  unfold CErp.handleWrite
  rw [hids]
  dsimp only
  rw [hmay]
  refine Keeps.writeRest ?_ _ _
  unfold writePassword
  rw [hset]
  exact keeps_setPassword hmem huid

omit [FloatText] in
lemma keeps_handleCreate {p : String}
    (h : handleCreate U s call salt base = .ok (uid, base'))
    (hp : stringValue (objectOr (call.arg 0)) "password" = .ok p) :
    Keeps uid (U.hashPassword salt p) base' := by
  obtain ⟨⟨⟩, -, h⟩ := bind_ok_iff.mp h
  obtain ⟨pw, hpw, h⟩ := bind_ok_iff.mp h
  obtain rfl := Except.ok.inj (hpw.symm.trans hp)
  obtain ⟨login, -, h⟩ := bind_ok_iff.mp h
  obtain ⟨-, -, h⟩ := bind_ok_iff.mp h
  obtain ⟨-, -, h⟩ := bind_ok_iff.mp h
  obtain ⟨active, -, h⟩ := bind_ok_iff.mp h
  obtain ⟨share, -, h⟩ := bind_ok_iff.mp h
  obtain ⟨-, -, h⟩ := bind_ok_iff.mp h
  obtain ⟨statements, -, h⟩ := bind_ok_iff.mp h
  obtain ⟨b, hb, h⟩ := bind_ok_iff.mp h
  obtain ⟨rfl, rfl⟩ := Prod.mk.inj (pure_ok_iff.mp h)
  have husers := (runStatements_ok hb).1
  constructor
  · rw [husers]
    exact lt_add_one base.users.nextId
  · intro row hrow
    rw [husers] at hrow
    obtain rfl := Option.some.inj ((get?_insert_self base.users _).symm.trans hrow)
    rfl

lemma handleUnlink_nextId (h : handleUnlink U engine s call base = .ok base') :
    base'.users.nextId = base.users.nextId := by
  obtain ⟨⟨⟩, -, h⟩ := bind_ok_iff.mp h
  obtain ⟨ids, -, h⟩ := bind_ok_iff.mp h
  obtain ⟨⟨⟩, -, h⟩ := bind_ok_iff.mp h
  obtain ⟨users, husers, h⟩ := bind_ok_iff.mp h
  obtain rfl := pure_ok_iff.mp h
  unfold unlink at husers
  split at husers
  · rw [← pure_ok_iff.mp husers]
  · obtain ⟨clause, -, husers⟩ := bind_ok_iff.mp husers
    obtain ⟨⟨⟩, -, husers⟩ := bind_ok_iff.mp husers
    rw [← pure_ok_iff.mp husers]
    rfl

omit [FloatText] in
lemma keeps_completeReset {login token p : String} {now : ℤ}
    (h : completeReset U login token p salt now base = .ok (uid, base')) :
    Keeps uid (U.hashPassword salt p) base' := by
  obtain ⟨row, partner, hmem, -, -, -, rfl⟩ := completeReset_ok h
  have hset : Keeps uid (U.hashPassword salt p)
      (base.setPassword U [uid] (U.hashPassword salt p)) :=
    keeps_setPassword (mem_singleton_self uid) (base.users.below _ hmem)
  exact ⟨hset.given, hset.stored⟩

/-! ### Runs -/

/-- One request that sets no password of the user. -/
lemma Keeps.serve (h : Keeps uid stored w.base) {request : UserRequest}
    (hleft : LeavesPassword U uid w request) :
    Keeps uid stored (w.serve U engine request).base := by
  cases request with
  | create s call salt =>
      unfold UserWorld.serve
      dsimp only
      split
      · next id base hok =>
          obtain ⟨-, -, _, _, _, _, _, -, husers, -⟩ := handleCreate_ok hok
          refine h.of_rows ?_ ?_
          · rw [husers]
            exact (lt_add_one w.base.users.nextId).le
          · intro row hrow
            rw [husers, get?_insert_of_ne _ _ h.given.ne] at hrow
            exact ⟨row, hrow, rfl⟩
      · exact h
  | write s call salt => exact h.handleWrite hleft
  | unlink s call =>
      unfold UserWorld.serve
      dsimp only
      split
      · next base hok =>
          refine h.of_rows (le_of_eq (handleUnlink_nextId hok).symm) ?_
          intro row hrow
          exact ⟨row, (handleUnlink_ok hok).2.1 uid row hrow, rfl⟩
      · exact h
  | generateResetLink s call token =>
      unfold UserWorld.serve
      dsimp only
      split
      · next id base hok =>
          obtain ⟨-, _, _, _, -, -, -, rfl⟩ := handleGenerateResetLink_ok hok
          exact ⟨h.given, h.stored⟩
      · exact h
  | resetPassword login token password salt =>
      unfold UserWorld.serve
      dsimp only
      split
      · next id base hok =>
          have hother : uid ∉ [id] := by
            intro hmem
            obtain rfl := mem_singleton.mp hmem
            exact hleft base hok
          obtain ⟨-, -, hok⟩ := bind_ok_iff.mp hok
          obtain ⟨-, -, hok⟩ := bind_ok_iff.mp hok
          obtain ⟨-, -, hok⟩ := bind_ok_iff.mp hok
          obtain ⟨_, _, -, -, -, -, rfl⟩ := completeReset_ok hok
          have hset := h.setPassword (U := U) hother (U.hashPassword salt password)
          exact ⟨hset.given, hset.stored⟩
      · exact h

/-- As long as no other is set, what is stored stays. -/
lemma Keeps.later {w' : UserWorld} (h : Keeps uid stored w.base)
    (hrun : Later U engine uid w w') : Keeps uid stored w'.base := by
  refine hrun.invariant (I := fun w => Keeps uid stored w.base) ?_ h
  intro w e w' hw hleft hstep
  unfold userStep at hstep
  split at hstep
  · rw [← Option.some.inj hstep]
    exact Keeps.serve (w := { w with clock := e.1 }) hw hleft
  · cases hstep

end Stored

/-! ### The logins -/

section Logins

variable [FloatText] {A : AuthModel} {engine : Option RuleEngine} {uid : ℤ}
  {stored p login : String}

omit [FloatText] in
/-- A login of an active user is the check of what is stored. -/
lemma Keeps.logsIn_iff (h : Keeps uid stored w.base) (hactive : Active A w uid login)
    (q dbName : String) :
    A.LogsIn w.base login q dbName ↔ A.scheme.verifyPassword q stored = .ok true := by
  obtain ⟨row, hfind, hrow⟩ := hactive
  have hcell := h.stored row (get?_eq_some_iff.mpr (mem_of_find?_eq_some hfind))
  have htext : A.columnText row "password" = stored := by
    unfold AuthModel.columnText
    rw [hcell, A.textInput_text]
    rfl
  rw [AuthModel.logsIn_iff]
  constructor
  · rintro ⟨_, _, hfind', -, hverify⟩
    cases hfind.symm.trans hfind'
    rw [← htext]
    exact hverify
  · intro hverify
    exact ⟨uid, row, hfind, hrow, by rw [htext]; exact hverify⟩

/-- A hash of a password means it. -/
lemma Keeps.means (h : Keeps uid stored w.base) (hhash : A.scheme.HashOf stored p) :
    Means A engine w uid p := by
  intro w' hrun login hactive q dbName
  rw [(h.later hrun).logsIn_iff hactive, hhash.verifyPassword_iff]

/-- A stored text that means a password is a hash of it. -/
lemma Keeps.hashOf_of_means {w' : UserWorld} (h : Keeps uid stored w.base)
    (hrun : Later A.toUsersModel engine uid w w') (hactive : Active A w' uid login)
    (hmeans : Means A engine w uid p) : A.scheme.HashOf stored p := by
  refine PasswordScheme.verifyPassword_unique_iff.mp fun q => ?_
  rw [← (h.later hrun).logsIn_iff hactive q "", hmeans w' hrun login hactive]

omit [FloatText] in
lemma hashOf_hashPassword (A : AuthModel) (salt p : String) :
    A.scheme.HashOf (A.hashPassword salt p) p :=
  PasswordScheme.hashOf_hashPassword (by decide) (by decide) (A.hashed salt p)

end Logins

/-! ### Setting a password -/

/-- **A password that is set is the password, unless a write takes it for a
hash.**  For every world: a user that is created and one whose password was
reset has the password given; one an administrator writes a password to has it
exactly when it does not begin with a dollar sign, or is a hash of itself; and
`change_password` is refused whatever it is given. -/
theorem passwords_mean [FloatText] (A : AuthModel) (engine : Option RuleEngine) (w : UserWorld)
    (uid : ℤ) (p : String) :
    (∀ s call salt base', handleCreate A.toUsersModel s call salt w.base = .ok (uid, base') →
      stringValue (objectOr (call.arg 0)) "password" = .ok p →
      Means A engine { w with base := base' } uid p) ∧
    (∀ s call salt ids, s.isAdmin = true → call.ids = .ok ids → uid ∈ ids →
      w.base.users.get? uid ≠ none →
      (objectOr (call.arg 1)).lookup "password" = some (.str p) → p ≠ "" →
      ∀ w₁, w₁ = w.serve A.toUsersModel engine (.write s call salt) →
      (∃ w' login, Later A.toUsersModel engine uid w₁ w' ∧ Active A w' uid login) →
      (Means A engine w₁ uid p ↔ p.toList.head? ≠ some '$' ∨ A.scheme.HashOf p p)) ∧
    (∀ login token salt now base',
      resetPassword A.toUsersModel login token p salt now w.base = .ok (uid, base') →
      Means A engine { w with base := base' } uid p) ∧
    ∀ s call salt base users, handleChangePassword A engine s call salt base ≠ .ok users := by
  refine ⟨?_, ?_, ?_, handleChangePassword_error⟩
  · intro s call salt base' hcreate hp
    have hkeeps := keeps_handleCreate hcreate hp
    exact Keeps.means (w := { w with base := base' }) hkeeps (hashOf_hashPassword A salt p)
  · rintro s call salt ids hadmin hids hmem huser hp hne w₁ rfl ⟨w', login, hrun, hactive⟩
    obtain ⟨row, hrow⟩ := Option.ne_none_iff_exists'.mp huser
    have hnew : newHash A.toUsersModel (objectOr (call.arg 1)) salt =
        if p.toList.head? = some '$' then some p else some (A.hashPassword salt p) := by
      unfold newHash
      rw [hp]
      exact if_neg hne
    by_cases hdollar : p.toList.head? = some '$'
    · -- stored as it is: the login takes it apart
      rw [if_pos hdollar] at hnew
      have hkeeps : Keeps uid p (w.serve A.toUsersModel engine (.write s call salt)).base :=
        keeps_handleWrite hadmin hids hmem (lt_nextId_of_get? hrow) hnew
      constructor
      · intro hmeans
        exact .inr (Keeps.hashOf_of_means hkeeps hrun hactive hmeans)
      · rintro (hplain | hself)
        · exact absurd hdollar hplain
        · exact Keeps.means hkeeps hself
    · rw [if_neg hdollar] at hnew
      have hkeeps : Keeps uid (A.hashPassword salt p)
          (w.serve A.toUsersModel engine (.write s call salt)).base :=
        keeps_handleWrite hadmin hids hmem (lt_nextId_of_get? hrow) hnew
      exact iff_of_true (Keeps.means hkeeps (hashOf_hashPassword A salt p)) (.inl hdollar)
  · intro login token salt now base' hreset
    obtain ⟨-, -, hreset⟩ := bind_ok_iff.mp hreset
    obtain ⟨-, -, hreset⟩ := bind_ok_iff.mp hreset
    obtain ⟨-, -, hreset⟩ := bind_ok_iff.mp hreset
    have hkeeps := keeps_completeReset hreset
    exact Keeps.means (w := { w with base := base' }) hkeeps (hashOf_hashPassword A salt p)

/-! ### A password that looks like a hash -/

/-- A scheme of symbols: a digest is the number of its password and salt beside
its size, and is written as a numeral. -/
def symbolicScheme : PasswordScheme where
  Bytes := ℕ × ℕ
  decEq := inferInstance
  size b := b.2
  base64Encode b := toString (Nat.pair b.1 b.2 : ℤ)
  base64Decode s := Nat.unpair (Decimals.value s.toList)
  derive pw salt _ n :=
    some (if n = 0 then (0, 0) else (Encodable.encode (pw.toList.map Char.toNat, salt), n))
  decode_encode := by
    intro b
    rw [Decimals.toList_natCast, Decimals.value_toDigits, Nat.unpair_pair]
  alphabet := fun b => PasswordScheme.no_dollar_toString _
  size_derive := by
    intro pw salt rounds n b h
    obtain rfl := Option.some.inj h
    split
    · next hzero => exact hzero.symm
    · rfl
  derive_injective := by
    intro pw pw' salt salt' rounds n b hn h h'
    have hsame := Option.some.inj (h.trans h'.symm)
    rw [if_neg hn.ne', if_neg hn.ne'] at hsame
    obtain ⟨hpw, hsalt⟩ := Prod.mk.inj (Encodable.encode_injective (Prod.mk.inj hsame).1)
    have hinj : Injective Char.toNat := fun _ _ h => Char.toNat_inj.mp h
    exact ⟨String.toList_inj.mp (hinj.list_map hpw), hsalt⟩
  derive_nothing := fun _ _ _ _ => rfl

def authModel : AuthModel where
  toUsersModel := { usersModel with
    hashPassword := fun salt pw => (symbolicScheme.hashPassword (salt.length, 16) pw
      PasswordScheme.defaultRounds).toOption.getD "" }
  scheme := symbolicScheme
  drawn := fun salt => (salt.length, 16)
  hashed := fun _ _ => rfl
  booleanText
    | .bool b => if b then "t" else "f"
    | _ => ""
  booleanText_bool := fun _ => rfl
  booleanText_null := rfl
  dbName := "erp"

/-- The administrator and `sam`. -/
def twoLogins : UserWorld where
  base := {
    users := (Table.empty.insert (newUserRow authModel.toUsersModel "admin"
      (authModel.hashPassword "salt" "letmein") 10 1 true false)).insert
      (newUserRow authModel.toUsersModel "sam" (authModel.hashPassword "salt" "open sesame") 11 1
        true false)
    groups := fun _ => []
    signup := fun _ => {}
    member := fun _ _ => rfl }
  clock := 0

/-- The administrator gives `sam` a password. -/
def givePassword (p : String) : UserRequest :=
  .write { uid := 1, login := "admin", isAdmin := true } ⟨"res.users", "write",
    .arr [.arr [.num 2], .obj [("password", .str p)]], .obj []⟩ "pepper"

/-- `sam`, who is user 2, changes a password. -/
def changeBySam (old new : String) : CallKwArgs :=
  ⟨"res.users", "change_password", .arr [.str old, .str new],
    .obj [("context", .obj [("uid", .num 2)])]⟩

/-- A password that begins with a dollar sign lets nobody in; and the change of a
correct password is refused. -/
theorem password_not_set :
    let _ := Json.wholeFloatText
    ¬ Means authModel none (twoLogins.serve authModel.toUsersModel none (givePassword "$ecret123"))
        2 "$ecret123" ∧
      authModel.LogsIn twoLogins.base "sam" "open sesame" "erp" ∧
      handleChangePassword authModel none userManager
          (changeBySam "open sesame" "new secret") "pepper" twoLogins.base =
        .error "Unknown field 'password' on res.users" := by
  let _ := Json.wholeFloatText
  have hlogin : authModel.LogsIn twoLogins.base "sam" "open sesame" "erp" := by
    refine AuthModel.logsIn_iff.mpr ⟨2, _, rfl, rfl, ?_⟩
    exact (hashOf_hashPassword authModel "salt" "open sesame").verifyPassword_iff _ |>.mpr rfl
  refine ⟨?_, hlogin, ?_⟩
  · intro h
    obtain ⟨found, hfound⟩ := (h _ .refl "sam" ⟨_, rfl, rfl⟩ "$ecret123" "erp").mpr rfl
    cases hfound
  · exact handleChangePassword_correct "pepper" (by rfl) (by decide) (by decide) (by decide)
      (by rfl) (by rfl) hlogin

end CErp
