/-
What a password reset link resets.

The token is kept on the partner and the password on the user, and which partner
a user has can be written.  `LinksSound` is the invariant: a token that has not
expired is the last one of every user that has its partner.  It is lost where a
link is minted for a user who shares a partner, or a user is given a partner that
carries somebody else's token; `LinkSafe` is the absence of both.
-/
import CErp.Administrators

namespace CErp

open Outcome List Function Table

variable [FloatText] (U : UsersModel) (engine : Option RuleEngine)

namespace UserWorld

/-- The last link minted for a user. -/
def lastMint (w : UserWorld) (uid : ℤ) : Option Mint := w.minted.find? fun m => m.uid = uid

/-- The partner carries a token that has not expired. -/
def Live (w : UserWorld) (partner : ℤ) : Prop :=
  (w.base.signup partner).token ≠ none ∧
    (w.base.signup partner).expiration.any (· < w.clock) = false

/-- A server on which no link was minted yet. -/
structure Fresh (w : UserWorld) : Prop where
  token : ∀ p, (w.base.signup p).token = none
  minted : w.minted = []
  spent : w.spent = []

end UserWorld

/-- A link is minted with a token that is new, for a user who has their partner
alone; a user is given a partner that carries no live token, or their own last
one. -/
def LinkSafe (w : UserWorld) : UserRequest → Prop
  | .create s call _ => requireUserManager s.userContext = .ok () → ∀ j,
      (objectOr (call.arg 0)).lookup "partner_id" = some j → 0 < extractFk j →
        ¬ w.Live (extractFk j)
  | .write s call _ => ∀ ids, call.ids = .ok ids → mayWrite s call ids = .ok () → ∀ uid ∈ ids,
      ∀ row b p, w.base.users.get? uid = some row →
        writtenColumn U (objectOr (call.arg 1)) "partner_id" = some b →
        (U.schema.integerInput b).toOption.join = some p → U.partnerOf row ≠ some p →
          ¬ w.Live p ∨ ∃ m, w.lastMint uid = some m ∧ (w.base.signup p).token = some m.token
  | .unlink .. => True
  | .generateResetLink s call token => requireUserManager s.userContext = .ok () →
      token ∉ w.minted.map (·.token) ∧ ∀ uid ids row p, call.ids = .ok (uid :: ids) →
        w.base.users.get? uid = some row → U.partnerOf row = some p →
          ∀ other row', w.base.users.get? other = some row' → U.partnerOf row' = some p → other = uid
  | .resetPassword .. => True

/-- Every token on a partner is one that was minted, and was not used; one that
has not expired is the last of every user that has the partner. -/
structure LinksSound (w : UserWorld) : Prop where
  stored : ∀ p token, (w.base.signup p).token = some token → ∃ m ∈ w.minted, m.token = token ∧
    (w.base.signup p).expiration = some (m.time + resetLifetime) ∧ token ∉ w.spent ∧
      (w.clock ≤ m.time + resetLifetime → ∀ uid row, w.base.users.get? uid = some row →
        U.partnerOf row = some p → w.lastMint uid = some m)
  distinct : ∀ p q token, (w.base.signup p).token = some token →
    (w.base.signup q).token = some token → p = q
  unique : (w.minted.map (·.token)).Nodup
  past : ∀ m ∈ w.minted, m.time ≤ w.clock
  spent : ∀ token ∈ w.spent, token ∈ w.minted.map (·.token)

/-- What a reset does: nothing where it is refused; else it changes one user, by
the last link minted for that user, which was not used before, within its time. -/
def ResetLawful (w : UserWorld) (login token password salt : String) : Prop :=
  (∀ e, resetPassword U login token password salt w.clock w.base = .error e →
    w.serve U engine (.resetPassword login token password salt) = w) ∧
  ∀ uid base', resetPassword U login token password salt w.clock w.base = .ok (uid, base') →
    ∃ m, w.lastMint uid = some m ∧ m.token = token ∧ token ∉ w.spent ∧
      m.time ≤ w.clock ∧ w.clock ≤ m.time + resetLifetime ∧
      (w.serve U engine (.resetPassword login token password salt)).spent = token :: w.spent ∧
      ∀ id, id ≠ uid → base'.users.get? id = w.base.users.get? id

/-! ### The invariant -/

variable {U engine} {w : UserWorld}

variable {base : UserBase} {token : String}

section

omit [FloatText]

lemma UserWorld.Fresh.sound (h : w.Fresh) : LinksSound U w where
  stored := by
    intro p token htoken
    rw [h.token p] at htoken
    cases htoken
  distinct := by
    intro p q token htoken
    rw [h.token p] at htoken
    cases htoken
  unique := by rw [h.minted]; exact nodup_nil
  past := by
    intro m hm
    rw [h.minted] at hm
    cases hm
  spent := by
    intro token htoken
    rw [h.spent] at htoken
    cases htoken

/-- Time goes by. -/
lemma LinksSound.later (h : LinksSound U w) {now : ℤ} (hnow : w.clock ≤ now) :
    LinksSound U { w with clock := now } where
  stored := by
    intro p token htoken
    obtain ⟨m, hm, hmtoken, hexp, hunspent, hlast⟩ := h.stored p token htoken
    exact ⟨m, hm, hmtoken, hexp, hunspent, fun hlive => hlast (le_trans hnow hlive)⟩
  distinct := h.distinct
  unique := h.unique
  past := fun m hm => le_trans (h.past m hm) hnow
  spent := h.spent

/-- A token on a partner is live until its time is over. -/
lemma live_of_stored {p : ℤ} {m : Mint} (htoken : (w.base.signup p).token = some token)
    (hexp : (w.base.signup p).expiration = some (m.time + resetLifetime))
    (hlive : w.clock ≤ m.time + resetLifetime) : w.Live p := by
  refine ⟨by rw [htoken]; exact Option.some_ne_none token, ?_⟩
  rw [hexp]
  exact decide_eq_false (not_lt.mpr hlive)

/-- Changes of the users that give nobody a partner with a live token of somebody
else. -/
lemma LinksSound.users (h : LinksSound U w) (hsignup : base.signup = w.base.signup)
    (hrows : ∀ uid row' p, base.users.get? uid = some row' → U.partnerOf row' = some p →
      (∃ row, w.base.users.get? uid = some row ∧ U.partnerOf row = some p) ∨ ¬ w.Live p ∨
        ∃ m, w.lastMint uid = some m ∧ (w.base.signup p).token = some m.token) :
    LinksSound U { w with base := base } where
  stored := by
    intro p token htoken
    have htoken : (w.base.signup p).token = some token := by rw [← hsignup]; exact htoken
    obtain ⟨m, hm, hmtoken, hexp, hunspent, hlast⟩ := h.stored p token htoken
    refine ⟨m, hm, hmtoken, by rw [hsignup]; exact hexp, hunspent, ?_⟩
    intro hlive uid row' hrow' hp
    rcases hrows uid row' p hrow' hp with ⟨row, hrow, hpartner⟩ | hdead | ⟨m', hm', htoken'⟩
    · exact hlast hlive uid row hrow hpartner
    · exact absurd (live_of_stored htoken hexp hlive) hdead
    · -- the user's last link is the one stored
      have hsame : m'.token = m.token := by
        rw [hmtoken]
        exact Option.some.inj (htoken'.symm.trans htoken)
      have hmem : m' ∈ w.minted := mem_of_find?_eq_some hm'
      rw [← inj_on_of_nodup_map h.unique hmem hm hsame]
      exact hm'
  distinct := by
    intro p q token hp hq
    have hp : (base.signup p).token = some token := hp
    have hq : (base.signup q).token = some token := hq
    rw [hsignup] at hp hq
    exact h.distinct p q token hp hq
  unique := h.unique
  past := h.past
  spent := h.spent

end

variable {call : CallKwArgs} {salt : String}

lemma sound_create {s : Session} {id : ℤ} (h : LinksSound U w)
    (hcreate : handleCreate U s call salt w.base = .ok (id, base))
    (hsafe : LinkSafe U w (.create s call salt)) : LinksSound U { w with base := base } := by
  obtain ⟨hmanager, -, login, hash, active, share, -, -, husers, hsignup, -, -⟩ :=
    handleCreate_ok hcreate
  refine h.users hsignup ?_
  intro uid row' p hrow' hp
  rw [husers, get?_insert] at hrow'
  split at hrow'
  · -- the new user
    refine .inr (.inl ?_)
    obtain rfl := Option.some.inj hrow'
    rcases hj : (objectOr (call.arg 0)).lookup "partner_id" with - | j
    · rw [hj] at hp
      have hnone := partnerOf_newUserRow (U := U) login hash .null
        ((((objectOr (call.arg 0)).lookup "company_id").map extractFk).getD 0) active share
      exact absurd (hp.symm.trans hnone) (Option.some_ne_none p)
    · rw [hj] at hp
      have hpartner := partnerOf_newUserRow (U := U) login hash j
        ((((objectOr (call.arg 0)).lookup "company_id").map extractFk).getD 0) active share
      have hp := hp.symm.trans hpartner
      split at hp
      · next hpos =>
          rw [Option.some.inj hp]
          exact hsafe hmanager j hj hpos
      · cases hp
  · exact .inl ⟨row', hrow', hp⟩

lemma sound_write {s : Session} (h : LinksSound U w) (hsafe : LinkSafe U w (.write s call salt)) :
    LinksSound U { w with base := (handleWrite U engine s call salt w.base).1 } := by
  refine h.users (handleWrite_signup U engine s call salt w.base) ?_
  intro uid row' p hrow' hp
  obtain ⟨row, hrow, hsame | ⟨ids, b, hids, hmay, hmem, hb, hnew⟩⟩ := handleWrite_row hrow'
  · exact .inl ⟨row, hrow, hsame.symm.trans hp⟩
  · by_cases hold : U.partnerOf row = some p
    · exact .inl ⟨row, hrow, hold⟩
    · exact .inr (hsafe ids hids hmay uid hmem row b p hrow hb (hnew.symm.trans hp) hold)

lemma sound_link {s : Session} {uid : ℤ} (h : LinksSound U w)
    (hlink : handleGenerateResetLink U s call token w.clock w.base = .ok (uid, base))
    (hsafe : LinkSafe U w (.generateResetLink s call token)) :
    LinksSound U { w with base := base, minted := ⟨token, uid, w.clock⟩ :: w.minted } := by
  obtain ⟨hmanager, ids, row, partner, hids, hrow, hpartner, rfl⟩ := handleGenerateResetLink_ok hlink
  obtain ⟨hnew, halone⟩ := hsafe hmanager
  have halone := halone uid ids row partner hids hrow hpartner
  have hself : (w.base.setSignup partner ⟨some token, some (w.clock + resetLifetime)⟩).signup partner =
      ⟨some token, some (w.clock + resetLifetime)⟩ := update_self ..
  have hothers : ∀ p, p ≠ partner →
      (w.base.setSignup partner ⟨some token, some (w.clock + resetLifetime)⟩).signup p =
        w.base.signup p := fun p hp => update_of_ne hp ..
  -- the tokens stored before were minted before
  have hminted : ∀ p t, (w.base.signup p).token = some t → t ≠ token := by
    rintro p t ht rfl
    obtain ⟨m, hm, rfl, -⟩ := h.stored p t ht
    exact hnew (mem_map_of_mem hm)
  constructor
  · intro p t ht
    by_cases hp : p = partner
    · subst hp
      rw [hself] at ht ⊢
      obtain rfl := Option.some.inj ht
      refine ⟨⟨token, uid, w.clock⟩, mem_cons_self, rfl, rfl, ?_, ?_⟩
      · exact fun hspent => hnew (h.spent _ hspent)
      · intro _ other row' hrow' hp
        obtain rfl := halone other row' hrow' hp
        exact find?_cons_of_pos (decide_eq_true rfl)
    · rw [hothers p hp] at ht ⊢
      obtain ⟨m, hm, hmtoken, hexp, hunspent, hlast⟩ := h.stored p t ht
      refine ⟨m, mem_cons_of_mem _ hm, hmtoken, hexp, hunspent, ?_⟩
      intro hlive other row' hrow' hp'
      have hne : uid ≠ other := by
        rintro rfl
        have hrow' : w.base.users.get? uid = some row' := hrow'
        rw [hrow] at hrow'
        obtain rfl := Option.some.inj hrow'
        exact hp (Option.some.inj (hp'.symm.trans hpartner))
      have hskip : ¬ decide (uid = other) = true := fun hd => hne (of_decide_eq_true hd)
      have hfind := find?_cons_of_neg (p := fun m : Mint => decide (m.uid = other))
        (a := ⟨token, uid, w.clock⟩) (l := w.minted) hskip
      exact hfind.trans (hlast hlive other row' hrow' hp')
  · intro p q t hp hq
    by_cases hpp : p = partner
    · by_cases hqq : q = partner
      · rw [hpp, hqq]
      · rw [hpp, hself] at hp
        rw [hothers q hqq] at hq
        exact absurd (Option.some.inj hp).symm (hminted q t hq)
    · rw [hothers p hpp] at hp
      by_cases hqq : q = partner
      · rw [hqq, hself] at hq
        exact absurd (Option.some.inj hq).symm (hminted p t hp)
      · rw [hothers q hqq] at hq
        exact h.distinct p q t hp hq
  · exact nodup_cons.mpr ⟨hnew, h.unique⟩
  · intro m hm
    rcases mem_cons.mp hm with rfl | hm
    · exact le_refl _
    · exact h.past m hm
  · exact fun t ht => mem_cons_of_mem _ (h.spent t ht)

omit [FloatText] in
lemma sound_reset {login password : String} {uid : ℤ} (h : LinksSound U w)
    (hreset : completeReset U login token password salt w.clock w.base = .ok (uid, base)) :
    LinksSound U { w with base := base, spent := token :: w.spent } := by
  obtain ⟨row, partner, -, -, htoken, -, rfl⟩ := completeReset_ok hreset
  obtain ⟨mint, hmint, hmtoken, -⟩ := h.stored partner token htoken
  have hself : (((w.base.setPassword U [uid] (U.hashPassword salt password)).setSignup partner
      {}).signup partner).token = none := by
    show (Function.update w.base.signup partner {} partner).token = none
    rw [update_self]
  have hothers : ∀ p, p ≠ partner → ((w.base.setPassword U [uid]
      (U.hashPassword salt password)).setSignup partner {}).signup p = w.base.signup p :=
    fun p hp => update_of_ne hp ..
  constructor
  · intro p t ht
    by_cases hp : p = partner
    · rw [hp, hself] at ht
      cases ht
    rw [hothers p hp] at ht ⊢
    obtain ⟨m, hm, hmt, hexp, hunspent, hlast⟩ := h.stored p t ht
    refine ⟨m, hm, hmt, hexp, ?_, ?_⟩
    · intro hspent
      rcases mem_cons.mp hspent with rfl | hspent
      · exact hp (h.distinct p partner t ht htoken)
      · exact hunspent hspent
    · intro hlive other row' hrow' hpartner
      obtain ⟨r, hr, hsame, -⟩ := setPassword_row hrow'
      exact hlast hlive other r hr (hsame.symm.trans hpartner)
  · intro p q t hp hq
    have hne : ∀ r, (((w.base.setPassword U [uid] (U.hashPassword salt password)).setSignup partner
        {}).signup r).token = some t → r ≠ partner := by
      rintro r hr rfl
      rw [hself] at hr
      cases hr
    have hpp := hne p hp
    have hqq := hne q hq
    rw [hothers p hpp] at hp
    rw [hothers q hqq] at hq
    exact h.distinct p q t hp hq
  · exact h.unique
  · exact h.past
  · intro t ht
    rcases mem_cons.mp ht with rfl | ht
    · exact mem_map.mpr ⟨mint, hmint, hmtoken⟩
    · exact h.spent t ht

omit [FloatText] in
lemma resetPassword_ok {login password : String} {now uid : ℤ} {base' : UserBase}
    (h : resetPassword U login token password salt now base = .ok (uid, base')) :
    completeReset U login token password salt now base = .ok (uid, base') := by
  obtain ⟨-, -, h⟩ := bind_ok_iff.mp h
  obtain ⟨-, -, h⟩ := bind_ok_iff.mp h
  obtain ⟨-, -, h⟩ := bind_ok_iff.mp h
  exact h

lemma sound_serve {e : UserRequest} (h : LinksSound U w) (hsafe : LinkSafe U w e) :
    LinksSound U (w.serve U engine e) := by
  unfold UserWorld.serve
  rcases e with ⟨s, call, salt⟩ | ⟨s, call, salt⟩ | ⟨s, call⟩ | ⟨s, call, token⟩ | ⟨login, token, pw, salt⟩
  · dsimp only
    rcases hcreate : handleCreate U s call salt w.base with m | ⟨id, base⟩
    · exact h
    · exact sound_create h hcreate hsafe
  · exact sound_write h hsafe
  · dsimp only
    rcases hunlink : handleUnlink U engine s call w.base with m | base
    · exact h
    · obtain ⟨hsignup, hrows, -⟩ := handleUnlink_ok hunlink
      exact h.users hsignup fun uid row' p hrow' hp => .inl ⟨row', hrows uid row' hrow', hp⟩
  · dsimp only
    rcases hlink : handleGenerateResetLink U s call token w.clock w.base with m | ⟨uid, base⟩
    · exact h
    · exact sound_link h hlink hsafe
  · dsimp only
    rcases hreset : resetPassword U login token pw salt w.clock w.base with m | ⟨uid, base⟩
    · exact h
    · exact sound_reset h (resetPassword_ok hreset)

/-- Where the links are sound, a reset is lawful. -/
lemma lawful_of_sound (h : LinksSound U w) (login token password salt : String) :
    ResetLawful U engine w login token password salt := by
  constructor
  · intro e he
    unfold UserWorld.serve
    dsimp only
    rw [he]
  · intro uid base' hreset
    obtain ⟨row, partner, hmem, hpartner, htoken, hexpired, rfl⟩ :=
      completeReset_ok (resetPassword_ok hreset)
    obtain ⟨m, hm, hmtoken, hexp, hunspent, hlast⟩ := h.stored partner token htoken
    have hlive : w.clock ≤ m.time + resetLifetime := by
      rw [hexp] at hexpired
      exact not_lt.mp (of_decide_eq_false hexpired)
    have hrow : w.base.users.get? uid = some row := get?_eq_some_iff.mpr hmem
    refine ⟨m, hlast hlive uid row hrow hpartner, hmtoken, hunspent, h.past m hm, hlive, ?_, ?_⟩
    · unfold UserWorld.serve
      dsimp only
      rw [hreset]
    · intro id hid
      show (w.base.users.updateWhere _ _).get? id = _
      have hno : [uid].contains id = false := by
        rw [← Bool.not_eq_true, contains_iff_mem, mem_singleton]
        exact hid
      rw [get?_updateWhere]
      rcases w.base.users.get? id with - | r
      · rfl
      · rw [Option.map_some, hno]
        rfl

/-- **A reset link resets one password, once, in time**, in every run of requests
that mint links for users who have their partner alone and give nobody a partner
with a live link of somebody else. -/
theorem resets_lawful (U : UsersModel) (engine : Option RuleEngine) (w₀ w : UserWorld)
    (hfresh : w₀.Fresh)
    (hrun : Runs.Reaches (userStep U engine) (fun w e => LinkSafe U { w with clock := e.1 } e.2) w₀ w)
    (now : ℤ) (hnow : w.clock ≤ now) (login token password salt : String) :
    ResetLawful U engine { w with clock := now } login token password salt := by
  have hsound : LinksSound U w := by
    refine hrun.invariant (I := LinksSound U) ?_ hfresh.sound
    intro w e w' hw hsafe hstep
    unfold userStep at hstep
    split at hstep
    · next hclock =>
        rw [← Option.some.inj hstep]
        exact sound_serve (hw.later hclock) hsafe
    · cases hstep
  exact lawful_of_sound (hsound.later hnow) login token password salt

/-! ### Users with a partner of their own, and not -/

section

omit [FloatText]

def loginRow (login : String) (partner : ℤ) : Row where
  companyId := some 1
  cells col :=
    if col = "login" then .text login else if col = "partner_id" then .int partner else .null

/-- The administrator, `sam` with partner 11 and `kim` with the given one. -/
def usersWith (partner : ℤ) : UserWorld where
  base := {
    users := ((empty.insert (loginRow "admin" 10)).insert (loginRow "sam" 11)).insert
      (loginRow "kim" partner)
    groups := fun uid => if uid = 1 then [Groups.BASE_INTERNAL, Groups.BASE_ADMIN] else []
    signup := fun _ => {}
    member := by
      intro uid hnone
      split
      · next h =>
          subst h
          cases hnone
      · rfl }
  clock := 0

lemma usersWith_fresh (partner : ℤ) : (usersWith partner).Fresh where
  token := fun _ => rfl
  minted := rfl
  spent := rfl

/-- The administrator mints a link for `sam`. -/
def linkForSam : UserRequest :=
  .generateResetLink { uid := 1, login := "admin", isAdmin := true }
    ⟨"res.users", "action_generate_reset_link", .arr [.arr [.num 2]], .obj []⟩ "5eed"

/-- `sam` resets the password in time. -/
theorem resets_lawful_sam :
    let _ := Json.wholeFloatText
    ((resetPassword usersModel "sam" "5eed" "open sesame" "salt" 1000
        ((usersWith 12).serve usersModel none linkForSam).base).toOption.map Prod.fst = some 2) ∧
      ResetLawful usersModel none
        { (usersWith 12).serve usersModel none linkForSam with clock := 1000 }
        "sam" "5eed" "open sesame" "salt" := by
  let _ := Json.wholeFloatText
  have hsafe : LinkSafe usersModel (usersWith 12) linkForSam := by
    intro _
    refine ⟨not_mem_nil, ?_⟩
    intro uid ids row p hids hrow hp other row' hrow' hp'
    obtain ⟨rfl, -⟩ := List.cons.inj (Except.ok.inj hids)
    obtain rfl := Option.some.inj hrow
    obtain rfl := Option.some.inj hp
    have hmem : (other, row') ∈ [(1, loginRow "admin" 10), (2, loginRow "sam" 11),
        (3, loginRow "kim" 12)] := get?_eq_some_iff.mp hrow'
    simp only [mem_cons, not_mem_nil, or_false, Prod.mk.injEq] at hmem
    rcases hmem with ⟨-, rfl⟩ | ⟨h, -⟩ | ⟨-, rfl⟩
    · exact absurd (Option.some.inj hp') (by decide)
    · exact h
    · exact absurd (Option.some.inj hp') (by decide)
  refine ⟨by decide, ?_⟩
  exact resets_lawful usersModel none (usersWith 12) _ (usersWith_fresh 12)
    (.single ⟨(0, linkForSam), hsafe, rfl⟩) 1000 (by decide) "sam" "5eed" "open sesame" "salt"

/-- With a shared partner, `kim` uses the link that was minted for `sam`. -/
theorem link_resets_other :
    ¬ ∀ (text : FloatText) (U : UsersModel) (engine : Option RuleEngine) (w₀ w : UserWorld),
      w₀.Fresh →
      Runs.Reaches (@userStep text U engine) (fun w e =>
        match e.2 with
        | .generateResetLink _ _ token => token ∉ w.minted.map (·.token)
        | _ => True) w₀ w →
      ∀ (now : ℤ), w.clock ≤ now → ∀ login token password salt,
        @ResetLawful text U engine { w with clock := now } login token password salt := by
  intro h
  let _ := Json.wholeFloatText
  let w := (usersWith 11).serve usersModel none linkForSam
  have hrun : Runs.Reaches (userStep usersModel none) (fun w e =>
      match e.2 with
      | .generateResetLink _ _ token => token ∉ w.minted.map (·.token)
      | _ => True) (usersWith 11) w :=
    .single ⟨(0, linkForSam), not_mem_nil, rfl⟩
  have hlawful := h _ usersModel none (usersWith 11) w (usersWith_fresh 11) hrun 0 (by decide) "kim"
    "5eed" "open sesame" "salt"
  have hreset : (resetPassword usersModel "kim" "5eed" "open sesame" "salt" 0
      w.base).toOption.map Prod.fst = some 3 := by decide
  obtain ⟨⟨uid, base'⟩, hok, huid⟩ := Option.map_eq_some_iff.mp hreset
  obtain rfl : uid = 3 := huid
  obtain ⟨m, hm, -⟩ := hlawful.2 3 base' (toOption_eq_some_iff.mp hok)
  have hnone : w.lastMint 3 = none := by decide
  have hm : w.lastMint 3 = some m := hm
  rw [hnone] at hm
  cases hm

end

end CErp
