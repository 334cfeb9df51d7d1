/-
The session store with its clock and its bound.

A session lives for `ttl` from its last access.  Expired sessions stay in the
map until they are swept out; `create` sweeps when the map is full, and if that
frees no place it gives up the oldest anonymous session, or the oldest of all
when none is anonymous.  Times are nanoseconds of the steady clock, and every
operation is handed the readings it takes.

A run takes the operations in any order.  The ids are drawn at random; `Drawn`
says that none is drawn twice, and that the map may change the order of its
sessions but not the sessions.

* `makeRoom_spares`: what an anonymous session saves;
* `create_size_le`: the bound, of any single `create`;
* `session_store_safe`: the bound, the preference and rotation, in every run.
-/
import CErp.KeyedEntries
import CErp.Runs
import CErp.SessionManager
import Mathlib.Data.List.MinMax

namespace CErp

open Runs List Option Function

/-- A session as it is filed.  `identity` is who the user is across tenants. -/
structure StoredSession where
  sessionId : String
  session : Session
  identity : String := ""
  createdAt : ℤ
  accessedAt : ℤ
  deriving DecidableEq

def StoredSession.isAuthenticated (s : StoredSession) : Bool := s.session.isAuthenticated

/-- The map of the sessions, in the order it is walked through. -/
structure SessionStore where
  ttl : ℤ
  maxSessions : ℕ
  store : AList fun _ : String => StoredSession

variable {ids : List String} {m' : SessionStore} {sid : String}

namespace SessionStore

/-- A minute. -/
def kTouchInterval : ℤ := 60000000000

def isExpired (m : SessionStore) (now : ℤ) (s : StoredSession) : Bool :=
  decide (m.ttl < now - s.accessedAt)

/-! ### Making room -/

/-- Sweep the expired sessions out; how many there were. -/
def evictExpired (m : SessionStore) (now : ℤ) : ℕ × SessionStore :=
  let kept := m.store.filter fun _ s => !m.isExpired now s
  (m.store.size - kept.size, { m with store := kept })

/-- The first of the sessions that were not used for the longest time. -/
def oldest (entries : List (Sigma fun _ : String => StoredSession)) :
    Option (Sigma fun _ : String => StoredSession) :=
  @List.argmin _ ℤ Int.instLinearOrder.toPreorder inferInstance
    (fun e => e.2.accessedAt) entries

/-- The one to go: an anonymous one if there are any. -/
def victim (m : SessionStore) : Option (Sigma fun _ : String => StoredSession) :=
  let oldestAnon := oldest (m.store.entries.filter fun e => !e.2.isAuthenticated)
  let oldestAny := oldest m.store.entries
  oldestAnon.or oldestAny

def evictOldestAnonymous (m : SessionStore) : SessionStore :=
  match m.victim with
  | some e => { m with store := m.store.erase e.1 }
  | none => m

/-- What `create` does before it files the new session. -/
def makeRoom (m : SessionStore) (now : ℤ) : SessionStore :=
  if m.maxSessions ≤ m.store.size then
    let m := (m.evictExpired now).2
    if m.maxSessions ≤ m.store.size then m.evictOldestAnonymous else m
  else m

/-! ### The operations -/

/-- A new anonymous session; `made` is read before the store is locked. -/
def create (m : SessionStore) (made now : ℤ) (id db : String) : SessionStore :=
  let m := m.makeRoom now
  { m with
    store := m.store.insert id
      { sessionId := id, session := { db := db }, createdAt := made, accessedAt := made } }

/-- The session under a new id; the empty text when there is none to move. -/
def rotate (m : SessionStore) (now moved : ℤ) (oldId newId : String) : String × SessionStore :=
  match m.store.lookup oldId with
  | none => ("", m)
  | some s =>
      if m.isExpired now s then ("", m)
      else
        (newId, { m with
          store := (m.store.erase oldId).insert newId
            { s with sessionId := newId, createdAt := moved, accessedAt := moved } })

/-- The second half of `get`: the access is noted. -/
def touch (m : SessionStore) (now : ℤ) (sid : String) : Option StoredSession × SessionStore :=
  match m.store.lookup sid with
  | none => (none, m)
  | some s =>
      if m.isExpired now s then (none, m)
      else
        let s := { s with accessedAt := now }
        (some s, { m with store := m.store.insert sid s })

/-- An access within the minute is not noted. -/
def get (m : SessionStore) (now : ℤ) (sid : String) : Option StoredSession × SessionStore :=
  match m.store.lookup sid with
  | none => (none, m)
  | some s =>
      if m.isExpired now s then (none, m)
      else if now - s.accessedAt < kTouchInterval then (some s, m)
      else m.touch now sid

def update (m : SessionStore) (now : ℤ) (sid : String) (patch : StoredSession → StoredSession) :
    Bool × SessionStore :=
  match m.store.lookup sid with
  | none => (false, m)
  | some s =>
      if m.isExpired now s then (false, m)
      else (true, { m with store := m.store.insert sid { patch s with accessedAt := now } })

def destroy (m : SessionStore) (sid : String) : SessionStore :=
  { m with store := m.store.erase sid }

/-! ### What making room costs -/

variable {m : SessionStore}

lemma victim_mem {e : Sigma fun _ : String => StoredSession} (h : m.victim = some e) :
    e ∈ m.store.entries := by
  rcases or_eq_some_iff.mp h with hanon | ⟨-, hany⟩
  · exact (mem_filter.mp (argmin_mem hanon)).1
  · exact argmin_mem hany

variable {s : StoredSession}

/-- As long as some session is anonymous, an anonymous one is given up. -/
lemma victim_anonymous {e : Sigma fun _ : String => StoredSession} (h : m.victim = some e)
    (hs : m.store.lookup sid = some s) (hanon : s.isAuthenticated = false) :
    e.2.isAuthenticated = false := by
  rcases or_eq_some_iff.mp h with hmin | ⟨hnone, -⟩
  · have hmem := (mem_filter.mp (argmin_mem hmin)).2
    simpa using hmem
  · have hmem : (⟨sid, s⟩ : Sigma fun _ : String => StoredSession) ∈
        m.store.entries.filter fun e => !e.2.isAuthenticated := by
      refine mem_filter.mpr ⟨AList.mem_lookup_iff.mp hs, ?_⟩
      show (!s.isAuthenticated) = true
      rw [hanon]
      rfl
    rw [argmin_eq_none.mp hnone] at hmem
    cases hmem

lemma lookup_of_mem {e : Sigma fun _ : String => StoredSession} (h : e ∈ m.store.entries) :
    m.store.lookup e.1 = some e.2 := AList.mem_lookup_iff.mpr h

/-- One session is given up, if there is one. -/
lemma evictOldestAnonymous_size (m : SessionStore) :
    m.evictOldestAnonymous.store.size = m.store.size - 1 := by
  unfold evictOldestAnonymous
  rcases h : m.victim with - | e
  · -- nobody is the oldest of no sessions
    have hnil := argmin_eq_none.mp (or_eq_none_iff.mp h).2
    show m.store.entries.length = m.store.entries.length - 1
    rw [hnil]
    rfl
  · have hsize := AList.size_erase (lookup_of_mem (victim_mem h))
    show (m.store.erase e.1).size = m.store.size - 1
    omega

variable (now : ℤ)

@[simp] lemma evictExpired_maxSessions : (m.evictExpired now).2.maxSessions = m.maxSessions := rfl

@[simp] lemma evictOldestAnonymous_maxSessions :
    m.evictOldestAnonymous.maxSessions = m.maxSessions := by
  unfold evictOldestAnonymous
  split
  · rfl
  · rfl

@[simp] lemma makeRoom_maxSessions : (m.makeRoom now).maxSessions = m.maxSessions := by
  unfold makeRoom
  split
  · dsimp only
    split
    · rw [evictOldestAnonymous_maxSessions, evictExpired_maxSessions]
    · rfl
  · rfl

/-- A store within its bound has a place free afterwards. -/
lemma makeRoom_size_lt (hcap : 1 ≤ m.maxSessions) (h : m.store.size ≤ m.maxSessions) :
    (m.makeRoom now).store.size < m.maxSessions := by
  unfold makeRoom
  by_cases hfull : m.maxSessions ≤ m.store.size
  · rw [if_pos hfull]
    have hle : (m.evictExpired now).2.store.size ≤ m.store.size := AList.filter_size_le _ _
    by_cases hstill : (m.evictExpired now).2.maxSessions ≤ (m.evictExpired now).2.store.size
    · rw [if_pos hstill, evictOldestAnonymous_size]
      rw [evictExpired_maxSessions] at hstill
      omega
    · rw [if_neg hstill]
      rw [evictExpired_maxSessions] at hstill
      omega
  · rw [if_neg hfull]
    omega

lemma lookup_evictExpired {now : ℤ} : (m.evictExpired now).2.store.lookup sid = some s ↔
      m.store.lookup sid = some s ∧ m.isExpired now s = false := by
  unfold evictExpired
  rw [AList.mem_lookup_filter, Bool.not_eq_true']

/-- **Anonymous sessions go first.**  While there is one, a live session of a
user is spared, expired anonymous ones counting too. -/
theorem makeRoom_spares {now : ℤ} (hsize : m.store.size ≤ m.maxSessions)
    (hs : m.store.lookup sid = some s) (hauth : s.isAuthenticated = true)
    (hlive : m.isExpired now s = false) {sid' : String} {s' : StoredSession}
    (hs' : m.store.lookup sid' = some s') (hanon : s'.isAuthenticated = false) :
    (m.makeRoom now).store.lookup sid = some s := by
  unfold makeRoom
  by_cases hfull : m.maxSessions ≤ m.store.size
  swap
  · rw [if_neg hfull]
    exact hs
  rw [if_pos hfull]
  have hkept : (m.evictExpired now).2.store.lookup sid = some s := lookup_evictExpired.mpr ⟨hs, hlive⟩
  by_cases hstill : (m.evictExpired now).2.maxSessions ≤ (m.evictExpired now).2.store.size
  swap
  · rw [if_neg hstill]
    exact hkept
  rw [if_pos hstill]
  -- the sweep freed no place, so the anonymous session is live too
  have hlive' : m.isExpired now s' = false := by
    by_contra hexp
    have hlt := @AList.filter_size_lt _ _ m.store (fun _ s => !m.isExpired now s) ⟨sid', s'⟩
      (AList.mem_lookup_iff.mp hs') (by simpa using hexp)
    have hsame : (m.evictExpired now).2.store.size < m.store.size := hlt
    rw [evictExpired_maxSessions] at hstill
    omega
  have hthere : (m.evictExpired now).2.store.lookup sid' = some s' :=
    lookup_evictExpired.mpr ⟨hs', hlive'⟩
  unfold evictOldestAnonymous
  rcases h : (m.evictExpired now).2.victim with - | e
  · exact hkept
  · show AList.lookup sid (AList.erase e.1 (m.evictExpired now).2.store) = some s
    rw [AList.lookup_erase_ne]
    · exact hkept
    · rintro rfl
      have hvictim := victim_anonymous h hthere hanon
      have hsame := lookup_of_mem (victim_mem h)
      rw [hkept] at hsame
      cases hsame
      rw [hauth] at hvictim
      cases hvictim

/-- **The bound.** -/
theorem create_size_le (made now : ℤ) (id db : String) (hcap : 1 ≤ m.maxSessions)
    (h : m.store.size ≤ m.maxSessions) :
    (m.create made now id db).store.size ≤ m.maxSessions := by
  have hroom := makeRoom_size_lt now hcap h
  have hinsert := (m.makeRoom now).store.size_insert_le id
    { sessionId := id, session := { db := db }, createdAt := made, accessedAt := made }
  exact hinsert.trans hroom

/-! ### The store as `SessionManager` sees it -/

/-- The sessions under their ids, without the times. -/
def toManager (m : SessionStore) : SessionManager :=
  ⟨fun sid => (m.store.lookup sid).map StoredSession.session⟩

lemma drop_foldl (manager : SessionManager) (sids : List String) :
    sids.foldl SessionManager.drop manager =
      ⟨fun sid => if sid ∈ sids then none else manager.store sid⟩ := by
  induction sids generalizing manager with
  | nil => rfl
  | cons k sids ih =>
      rw [foldl_cons, ih]
      congr 1
      funext sid
      by_cases hk : sid = k
      · rw [hk, if_pos mem_cons_self]
        show (if k ∈ sids then none else Function.update manager.store k none k) = none
        rw [update_self, ite_self]
      · simp [SessionManager.drop, hk]

/-- Where sessions only go, it is as if each that goes were dropped. -/
lemma toManager_of_dropped
    (h : ∀ sid, m'.store.lookup sid = m.store.lookup sid ∨ m'.store.lookup sid = none) :
    ∃ sids : List String, m'.toManager = sids.foldl SessionManager.drop m.toManager := by
  refine ⟨m.store.keys.filter fun sid => (m'.store.lookup sid).isNone, ?_⟩
  rw [drop_foldl]
  unfold toManager
  congr 1
  funext sid
  rcases h sid with hsame | hnone
  · split
    · next hmem =>
        have hgone := (mem_filter.mp hmem).2
        rw [isNone_iff_eq_none.mp hgone]
        rfl
    · rw [hsame]
  · rw [hnone]
    split
    · rfl
    · next hmem =>
        have habsent : m.store.lookup sid = none := by
          by_contra hthere
          apply hmem
          refine mem_filter.mpr ⟨?_, by rw [hnone]; rfl⟩
          exact AList.lookup_isSome.mp (isSome_iff_ne_none.mpr hthere)
        show none = (m.store.lookup sid).map _
        rw [habsent]
        rfl

lemma lookup_makeRoom (sid : String) : (m.makeRoom now).store.lookup sid = m.store.lookup sid ∨
      (m.makeRoom now).store.lookup sid = none := by
  have hswept : (m.evictExpired now).2.store.lookup sid = m.store.lookup sid ∨
      (m.evictExpired now).2.store.lookup sid = none := by
    rcases h : (m.evictExpired now).2.store.lookup sid with - | s
    · exact .inr rfl
    · exact .inl (lookup_evictExpired.mp h).1.symm
  unfold makeRoom
  split
  · dsimp only
    split
    · unfold evictOldestAnonymous
      split
      · next e _ =>
          by_cases he : sid = e.1
          · right
            rw [he]
            exact AList.lookup_erase _ _
          · show AList.lookup sid (AList.erase e.1 _) = _ ∨ AList.lookup sid (AList.erase e.1 _) = _
            rw [AList.lookup_erase_ne he]
            exact hswept
      · exact hswept
    · exact hswept
  · exact .inl rfl

/-- A `create` is a new session after some were dropped. -/
lemma toManager_create (made now : ℤ) (id db : String) :
    ∃ sids : List String, (m.create made now id db).toManager =
      (sids.foldl SessionManager.drop m.toManager).create id db := by
  obtain ⟨sids, hsids⟩ := toManager_of_dropped fun sid => m.lookup_makeRoom now sid
  refine ⟨sids, ?_⟩
  rw [← hsids]
  unfold create toManager SessionManager.create
  congr 1
  funext sid
  by_cases hid : sid = id
  · rw [hid, AList.lookup_insert, update_self]
    rfl
  · rw [AList.lookup_insert_ne hid, update_of_ne hid]

lemma toManager_rotate {now : ℤ} (moved : ℤ) {oldId : String} (newId : String)
    (hs : m.store.lookup oldId = some s) (hlive : m.isExpired now s = false) :
    (m.rotate now moved oldId newId).2.toManager = (m.toManager.rotate oldId newId).2 := by
  have hold : m.toManager.store oldId = some s.session := by
    show (m.store.lookup oldId).map _ = _
    rw [hs]
    rfl
  unfold rotate SessionManager.rotate
  rw [hs, hold]
  dsimp only
  rw [hlive, if_neg Bool.false_ne_true]
  unfold toManager
  congr 1
  funext sid
  by_cases hnew : sid = newId
  · rw [hnew, AList.lookup_insert, update_self]
    rfl
  · rw [AList.lookup_insert_ne hnew, update_of_ne hnew]
    by_cases hsid : sid = oldId
    · rw [hsid, AList.lookup_erase, update_self]
      rfl
    · rw [AList.lookup_erase_ne hsid, update_of_ne hsid]

/-- Noting an access changes no session. -/
lemma toManager_touch (sid : String) : (m.touch now sid).2.toManager = m.toManager := by
  unfold touch
  split
  · rfl
  · next s hs =>
      split
      · rfl
      · unfold toManager
        congr 1
        funext sid'
        by_cases hsid : sid' = sid
        · rw [hsid, AList.lookup_insert, hs]
          rfl
        · rw [AList.lookup_insert_ne hsid]

/-! ### One operation -/

lemma get_store (sid : String) :
    (m.get now sid).2 = m ∨ (m.get now sid).2 = (m.touch now sid).2 := by
  unfold get
  split
  · exact .inl rfl
  · split
    · exact .inl rfl
    · split
      · exact .inl rfl
      · exact .inr rfl

lemma get_of_absent (h : m.store.lookup sid = none) : (m.get now sid).1 = none := by
  unfold get
  rw [h]

lemma rotate_live {now : ℤ} (moved : ℤ) {oldId : String} (newId : String)
    (hs : m.store.lookup oldId = some s) (hlive : m.isExpired now s = false) :
    m.rotate now moved oldId newId = (newId, { m with
      store := (m.store.erase oldId).insert newId
        { s with sessionId := newId, createdAt := moved, accessedAt := moved } }) := by
  unfold rotate
  rw [hs]
  dsimp only
  rw [hlive, if_neg Bool.false_ne_true]

/-- What an operation other than `create` does to the map: a session goes, one
takes a new value, or one moves to another id. -/
inductive Changes (m : SessionStore) : List String → SessionStore → Prop
  | same (ids : List String) : Changes m ids m
  | swept (now : ℤ) : Changes m [] (m.evictExpired now).2
  | erased (sid : String) : Changes m [] (m.destroy sid)
  | patched (sid : String) {s : StoredSession} (s' : StoredSession)
      (hs : m.store.lookup sid = some s) : Changes m [] { m with store := m.store.insert sid s' }
  | moved (oldId newId : String) {s : StoredSession} (s' : StoredSession)
      (hs : m.store.lookup oldId = some s) :
      Changes m [newId] { m with store := (m.store.erase oldId).insert newId s' }

lemma rotate_changes (now moved : ℤ) (oldId newId : String) :
    Changes m [newId] (m.rotate now moved oldId newId).2 := by
  unfold rotate
  split
  · exact .same _
  · next s hs =>
      split
      · exact .same _
      · exact .moved oldId newId _ hs

lemma touch_changes (sid : String) : Changes m [] (m.touch now sid).2 := by
  unfold touch
  split
  · exact .same _
  · next s hs =>
      split
      · exact .same _
      · exact .patched sid _ hs

lemma get_changes (sid : String) : Changes m [] (m.get now sid).2 := by
  rcases m.get_store now sid with h | h
  · rw [h]
    exact .same _
  · rw [h]
    exact touch_changes now sid

lemma update_changes (sid : String) (patch : StoredSession → StoredSession) :
    Changes m [] (m.update now sid patch).2 := by
  unfold update
  split
  · exact .same _
  · next s hs =>
      split
      · exact .same _
      · exact .patched sid _ hs

lemma Changes.maxSessions (h : Changes m ids m') : m'.maxSessions = m.maxSessions := by
  cases h <;> rfl

lemma Changes.size_le (h : Changes m ids m') : m'.store.size ≤ m.store.size := by
  cases h with
  | same ids => exact le_rfl
  | swept now => exact AList.filter_size_le _ _
  | erased sid => exact AList.size_erase_le _ _
  | patched sid s' hs => exact (AList.size_insert_old s' hs).le
  | moved oldId newId s' hs =>
      have hgone := AList.size_erase hs
      have hnew := (m.store.erase oldId).size_insert_le newId s'
      exact hnew.trans hgone.le

/-- A session that is filed afterwards was filed before, or under a new id. -/
lemma Changes.mem (h : Changes m ids m') (hsid : sid ∈ m'.store) : sid ∈ m.store ∨ sid ∈ ids := by
  cases h with
  | same ids => exact .inl hsid
  | swept now =>
      obtain ⟨s, hs⟩ := isSome_iff_exists.mp (AList.lookup_isSome.mpr hsid)
      left
      rw [← AList.lookup_isSome, (lookup_evictExpired.mp hs).1]
      rfl
  | erased sid' => exact .inl (AList.mem_erase.mp hsid).2
  | patched sid' s' hs =>
      rcases AList.mem_insert _ |>.mp hsid with rfl | hmem
      · left
        rw [← AList.lookup_isSome, hs]
        rfl
      · exact .inl hmem
  | moved oldId newId s' hs =>
      rcases AList.mem_insert _ |>.mp hsid with rfl | hmem
      · exact .inr mem_cons_self
      · exact .inl (AList.mem_erase.mp hmem).2

end SessionStore

/-! ### Runs -/

/-- The operations, and the map changing its order. -/
inductive StoreOp where
  | create (made now : ℤ) (id db : String)
  | rotate (now moved : ℤ) (oldId newId : String)
  | get (now : ℤ) (sid : String)
  | touch (now : ℤ) (sid : String)
  | update (now : ℤ) (sid : String) (patch : StoredSession → StoredSession)
  | destroy (sid : String)
  | evictExpired (now : ℤ)
  | rehash (store : AList fun _ : String => StoredSession)

/-- The ids an operation draws. -/
def StoreOp.draws : StoreOp → List String
  | create _ _ id _ => [id]
  | rotate _ _ _ newId => [newId]
  | _ => []

def StoreOp.run (m : SessionStore) : StoreOp → SessionStore
  | create made now id db => m.create made now id db
  | rotate now moved oldId newId => (m.rotate now moved oldId newId).2
  | get now sid => (m.get now sid).2
  | touch now sid => (m.touch now sid).2
  | update now sid patch => (m.update now sid patch).2
  | destroy sid => m.destroy sid
  | evictExpired now => (m.evictExpired now).2
  | rehash store => { m with store := store }

/-- The store, and the ids drawn so far. -/
structure StoreRun where
  manager : SessionStore
  drawn : List String

def storeStep (s : StoreRun) (op : StoreOp) : Option StoreRun :=
  some ⟨op.run s.manager, op.draws ++ s.drawn⟩

/-- No id is drawn twice, and another order is an order of the same sessions. -/
def Drawn (s : StoreRun) : StoreOp → Prop
  | .create _ _ id _ => id ∉ s.drawn
  | .rotate _ _ _ newId => newId ∉ s.drawn
  | .rehash store => store.entries.Perm s.manager.store.entries
  | _ => True

instance (s : StoreRun) : (op : StoreOp) → Decidable (Drawn s op)
  | .create _ _ id _ => inferInstanceAs (Decidable (id ∉ s.drawn))
  | .rotate _ _ _ newId => inferInstanceAs (Decidable (newId ∉ s.drawn))
  | .rehash store => inferInstanceAs (Decidable (store.entries.Perm s.manager.store.entries))
  | .get _ _ => .isTrue trivial
  | .touch _ _ => .isTrue trivial
  | .update _ _ _ => .isTrue trivial
  | .destroy _ => .isTrue trivial
  | .evictExpired _ => .isTrue trivial

/-- A store without sessions. -/
def StoreRun.opened (ttl : ℤ) (cap : ℕ) : StoreRun := ⟨⟨ttl, cap, ∅⟩, []⟩

/-- Within the bound, and under ids that were drawn. -/
structure StoreRun.Bounded (cap : ℕ) (s : StoreRun) : Prop where
  bound : s.manager.maxSessions = cap
  size : s.manager.store.size ≤ cap
  drawn : ∀ sid, sid ∈ s.manager.store → sid ∈ s.drawn

lemma StoreRun.Bounded.changes {cap : ℕ} {s : StoreRun} (h : s.Bounded cap)
    (hchanges : s.manager.Changes ids m') : StoreRun.Bounded cap ⟨m', ids ++ s.drawn⟩ := by
  refine ⟨hchanges.maxSessions.trans h.bound, hchanges.size_le.trans h.size, ?_⟩
  intro sid hsid
  rcases hchanges.mem hsid with hold | hnew
  · exact mem_append_right _ (h.drawn sid hold)
  · exact mem_append_left _ hnew

lemma StoreRun.Bounded.create {cap : ℕ} {s : StoreRun} (h : s.Bounded cap) (hcap : 1 ≤ cap)
    (made now : ℤ) (id db : String) :
    StoreRun.Bounded cap ⟨s.manager.create made now id db, id :: s.drawn⟩ := by
  have hbound := h.bound
  refine ⟨?_, ?_, ?_⟩
  · exact (SessionStore.makeRoom_maxSessions now).trans hbound
  · have hsize := SessionStore.create_size_le made now id db (hbound ▸ hcap) (hbound ▸ h.size)
    rwa [hbound] at hsize
  · intro sid hsid
    rcases (AList.mem_insert _).mp hsid with rfl | hroom
    · exact mem_cons_self
    · apply mem_cons_of_mem
      apply h.drawn
      rw [← AList.lookup_isSome] at hroom ⊢
      rcases s.manager.lookup_makeRoom now sid with hsame | hnone
      · rwa [hsame] at hroom
      · rw [hnone] at hroom
        cases hroom

/-- **The step of the store.** -/
theorem StoreRun.Bounded.step {cap : ℕ} {s s' : StoreRun} {op : StoreOp} (h : s.Bounded cap)
    (hcap : 1 ≤ cap) (hdrawn : Drawn s op) (hstep : storeStep s op = some s') : s'.Bounded cap := by
  cases hstep
  cases op with
  | create made now id db => exact h.create hcap made now id db
  | rotate now moved oldId newId => exact h.changes (SessionStore.rotate_changes _ _ _ _)
  | get now sid => exact h.changes (SessionStore.get_changes _ _)
  | touch now sid => exact h.changes (SessionStore.touch_changes _ _)
  | update now sid patch => exact h.changes (SessionStore.update_changes _ _ _)
  | destroy sid => exact h.changes (.erased sid)
  | evictExpired now => exact h.changes (.swept now)
  | rehash store =>
      have hperm : store.entries.Perm s.manager.store.entries := hdrawn
      refine ⟨h.bound, ?_, ?_⟩
      · exact hperm.length_eq.le.trans h.size
      · intro sid hsid
        exact h.drawn sid ((AList.mem_of_perm hperm).mp hsid)

/-- An id that was drawn and is not filed any more stays so. -/
lemma storeStep_absent {s s' : StoreRun} {op : StoreOp} (hdrawn : Drawn s op)
    (hstep : storeStep s op = some s') (hsid : sid ∈ s.drawn) (habsent : sid ∉ s.manager.store) :
    sid ∈ s'.drawn ∧ sid ∉ s'.manager.store := by
  cases hstep
  refine ⟨mem_append_right _ hsid, ?_⟩
  have hchanges : ∀ {ids m'}, s.manager.Changes ids m' → (∀ id ∈ ids, id ∉ s.drawn) →
      sid ∉ m'.store := by
    intro ids m' hchange hnew hmem
    rcases hchange.mem hmem with hold | hid
    · exact habsent hold
    · exact hnew sid hid hsid
  cases op with
  | create made now id db =>
      intro hmem
      rcases (AList.mem_insert _).mp hmem with rfl | hroom
      · exact hdrawn hsid
      · rw [← AList.lookup_isSome] at hroom
        rw [← AList.lookup_eq_none] at habsent
        rcases s.manager.lookup_makeRoom now sid with hsame | hnone
        · rw [hsame, habsent] at hroom
          cases hroom
        · rw [hnone] at hroom
          cases hroom
  | rotate now moved oldId newId =>
      refine hchanges (SessionStore.rotate_changes _ _ _ _) ?_
      rintro id hid
      rw [mem_singleton.mp hid]
      exact hdrawn
  | get now sid' => exact hchanges (SessionStore.get_changes _ _) (fun _ h => nomatch h)
  | touch now sid' => exact hchanges (SessionStore.touch_changes _ _) (fun _ h => nomatch h)
  | update now sid' patch => exact hchanges (SessionStore.update_changes _ _ _) (fun _ h => nomatch h)
  | destroy sid' => exact hchanges (.erased sid') (fun _ h => nomatch h)
  | evictExpired now => exact hchanges (.swept now) (fun _ h => nomatch h)
  | rehash store =>
      intro hmem
      exact habsent ((AList.mem_of_perm hdrawn).mp hmem)

/-- **The store is safe.**  In every state a run reaches from an empty store, a
`create` leaves it within its bound and evicts no live session of a user while
an anonymous session is filed; and a live session that is rotated is under its
new id what it was, its old id never resolving again. -/
theorem session_store_safe {ttl : ℤ} {cap : ℕ} {s : StoreRun} (hcap : 1 ≤ cap)
    (hrun : Reaches storeStep Drawn (StoreRun.opened ttl cap) s) :
    (∀ made now id db, (s.manager.create made now id db).store.size ≤ cap) ∧
    (∀ made now id db, Drawn s (.create made now id db) → ∀ sid e sid' e',
      s.manager.store.lookup sid = some e → e.isAuthenticated = true →
      s.manager.isExpired now e = false →
      s.manager.store.lookup sid' = some e' → e'.isAuthenticated = false →
      (s.manager.create made now id db).store.lookup sid = some e) ∧
    ∀ now moved oldId newId, Drawn s (.rotate now moved oldId newId) → ∀ e,
      s.manager.store.lookup oldId = some e → s.manager.isExpired now e = false →
      ∃ m, s.manager.rotate now moved oldId newId = (newId, m) ∧ m.store.lookup newId =
          some { e with sessionId := newId, createdAt := moved, accessedAt := moved } ∧
        ∀ s', Reaches storeStep Drawn ⟨m, newId :: s.drawn⟩ s' →
          ∀ later, (s'.manager.get later oldId).1 = none := by
  have hbounded : s.Bounded cap := by
    refine hrun.invariant ?_ ?_
    · intro s op s' hs hdrawn hstep
      exact hs.step hcap hdrawn hstep
    · exact ⟨rfl, Nat.zero_le _, fun sid hsid => absurd hsid (AList.notMem_empty sid)⟩
  have hbound := hbounded.bound
  have hfiled : ∀ {sid e}, s.manager.store.lookup sid = some e → sid ∈ s.drawn := by
    intro sid e hsid
    apply hbounded.drawn
    rw [← AList.lookup_isSome, hsid]
    rfl
  refine ⟨?_, ?_, ?_⟩
  · intro made now id db
    exact (hbounded.create hcap made now id db).size
  · intro made now id db hfresh sid e sid' e' he hauth hlive he' hanon
    have hspared := SessionStore.makeRoom_spares (hbound ▸ hbounded.size) he hauth hlive he' hanon
    have hne : sid ≠ id := by
      rintro rfl
      exact hfresh (hfiled he)
    exact (AList.lookup_insert_ne hne).trans hspared
  · intro now moved oldId newId hfresh e he hlive
    have hne : oldId ≠ newId := by
      rintro rfl
      exact hfresh (hfiled he)
    refine ⟨_, SessionStore.rotate_live moved newId he hlive, AList.lookup_insert _, ?_⟩
    intro s' hlater later
    -- the old id was drawn before, and is filed no more
    have hinv : oldId ∈ s'.drawn ∧ oldId ∉ s'.manager.store := by
      refine @Reaches.invariant _ _ _ _ (fun s => oldId ∈ s.drawn ∧ oldId ∉ s.manager.store) _ _
        hlater ?_ ?_
      · rintro s op s' ⟨hdrawn, habsent⟩ hop hstep
        exact storeStep_absent hop hstep hdrawn habsent
      · refine ⟨mem_cons_of_mem _ (hfiled he), ?_⟩
        rw [← AList.lookup_eq_none]
        show AList.lookup oldId ((s.manager.store.erase oldId).insert newId _) = none
        rw [AList.lookup_insert_ne hne, AList.lookup_erase]
    exact SessionStore.get_of_absent later (AList.lookup_eq_none.mpr hinv.2)

/-- A store for two: a user signs in under a rotated id, a visitor arrives. -/
def visits : List StoreOp :=
  [.create 0 0 "a" "erp", .update 1 "a" (fun s => { s with session := { s.session with uid := 7 } }),
    .rotate 2 2 "a" "b", .create 3 3 "c" "erp"]

/-- The third session takes the visitor's place, not the user's. -/
theorem session_store_safe_visits : ∃ s, execute storeStep Drawn visits (.opened 100 2) = some s ∧
    (s.manager.create 4 4 "d" "erp").store.size ≤ 2 ∧
    ((s.manager.create 4 4 "d" "erp").store.lookup "b").map (·.session.uid) = some 7 := by
  refine ⟨_, rfl, ?_⟩
  have hrun := @reaches_of_execute _ _ storeStep Drawn _ visits (.opened 100 2) _ rfl
  obtain ⟨hsize, hspares, -⟩ := session_store_safe (by decide) hrun
  refine ⟨hsize 4 4 "d" "erp", ?_⟩
  rw [hspares 4 4 "d" "erp" (by decide) "b" _ "c" _ rfl rfl rfl rfl rfl]
  rfl

/-! ### The handlers' view -/

/-- What the manager of the handlers may do in one step: no session takes the
place of another. -/
inductive ManagerStep (m : SessionManager) : SessionManager → Prop
  | create (id db : String) (hfresh : m.get id = none) : ManagerStep m (m.create id db)
  | update (sid : String) (patch : Session → Session) : ManagerStep m (m.update sid patch)
  | drop (sid : String) : ManagerStep m (m.drop sid)
  | rotate (oldId newId : String) (hfresh : m.get newId = none) :
      ManagerStep m (m.rotate oldId newId).2

/-- The manager gets there in some steps. -/
abbrev ManagerRun : SessionManager → SessionManager → Prop := Relation.ReflTransGen ManagerStep

lemma managerRun_drops (sids : List String) (manager : SessionManager) :
    ManagerRun manager (sids.foldl SessionManager.drop manager) := by
  induction sids generalizing manager with
  | nil => exact .refl
  | cons sid sids ih => exact .head (.drop sid) (ih (manager.drop sid))

lemma managerRun_of_dropped {m m' : SessionStore}
    (h : ∀ sid, m'.store.lookup sid = m.store.lookup sid ∨ m'.store.lookup sid = none) :
    ManagerRun m.toManager m'.toManager := by
  obtain ⟨sids, hsids⟩ := SessionStore.toManager_of_dropped h
  rw [hsids]
  exact managerRun_drops sids m.toManager

lemma StoreRun.Bounded.unfiled {cap : ℕ} {s : StoreRun} (h : s.Bounded cap) {id : String}
    (hid : id ∉ s.drawn) : s.manager.toManager.get id = none := by
  show (s.manager.store.lookup id).map _ = none
  rw [AList.lookup_eq_none.mpr (mt (h.drawn id) hid)]
  rfl

/-- **The step of the refinement.** -/
theorem StoreRun.Bounded.refines {cap : ℕ} {s s' : StoreRun} {op : StoreOp} (h : s.Bounded cap)
    (hdrawn : Drawn s op) (hstep : storeStep s op = some s') :
    ManagerRun s.manager.toManager s'.manager.toManager := by
  cases hstep
  cases op with
  | create made now id db =>
      obtain ⟨sids, hsids⟩ := s.manager.toManager_create made now id db
      show ManagerRun _ (s.manager.create made now id db).toManager
      rw [hsids]
      refine .tail (managerRun_drops sids _) (.create id db ?_)
      rw [SessionStore.drop_foldl]
      show (if id ∈ sids then none else s.manager.toManager.get id) = none
      rw [h.unfiled hdrawn, ite_self]
  | rotate now moved oldId newId =>
      show ManagerRun _ (s.manager.rotate now moved oldId newId).2.toManager
      rcases hs : s.manager.store.lookup oldId with - | e
      · unfold SessionStore.rotate
        rw [hs]
      · rcases hexpired : s.manager.isExpired now e with - | -
        · rw [SessionStore.toManager_rotate moved newId hs hexpired]
          exact .single (.rotate oldId newId (h.unfiled hdrawn))
        · unfold SessionStore.rotate
          rw [hs]
          dsimp only
          rw [hexpired, if_pos rfl]
  | get now sid =>
      show ManagerRun _ (s.manager.get now sid).2.toManager
      rcases s.manager.get_store now sid with hsame | htouch
      · rw [hsame]
      · rw [htouch, SessionStore.toManager_touch]
  | touch now sid =>
      show ManagerRun _ (s.manager.touch now sid).2.toManager
      rw [SessionStore.toManager_touch]
  | update now sid patch =>
      show ManagerRun _ (s.manager.update now sid patch).2.toManager
      unfold SessionStore.update
      split
      · exact .refl
      · next e he =>
          split
          · exact .refl
          · convert Relation.ReflTransGen.single
              (ManagerStep.update sid fun _ => (patch e).session) using 1
            unfold SessionStore.toManager SessionManager.update
            congr 1
            funext sid'
            by_cases hsid : sid' = sid
            · dsimp only
              rw [hsid, AList.lookup_insert, update_self, he]
              rfl
            · rw [AList.lookup_insert_ne hsid, update_of_ne hsid]
  | destroy sid =>
      refine managerRun_of_dropped fun sid' => ?_
      by_cases hsid : sid' = sid
      · right
        rw [hsid]
        exact AList.lookup_erase _ _
      · exact .inl (AList.lookup_erase_ne hsid)
  | evictExpired now =>
      refine managerRun_of_dropped fun sid => ?_
      rcases hs : (s.manager.evictExpired now).2.store.lookup sid with - | e
      · exact .inr hs
      · exact .inl (hs.trans (SessionStore.lookup_evictExpired.mp hs).1.symm)
  | rehash store =>
      refine managerRun_of_dropped fun sid => .inl ?_
      exact AList.perm_lookup hdrawn

/-- **A run of the store is a run of the manager.**  Expiry and eviction are
drops; and what the store answers is the session that the manager has. -/
theorem store_refines_manager {ttl : ℤ} {cap : ℕ} {s : StoreRun} (hcap : 1 ≤ cap)
    (hrun : Reaches storeStep Drawn (StoreRun.opened ttl cap) s) :
    ManagerRun SessionManager.empty s.manager.toManager ∧
      ∀ now sid, ∀ e ∈ (s.manager.get now sid).1,
        s.manager.toManager.get sid = some e.session := by
  have hinv : s.Bounded cap ∧ ManagerRun SessionManager.empty s.manager.toManager := by
    refine hrun.invariant (I := fun s => s.Bounded cap ∧ ManagerRun _ s.manager.toManager)
      ?_ ?_
    · intro s op s' hs hdrawn hstep
      exact ⟨hs.1.step hcap hdrawn hstep, hs.2.trans (hs.1.refines hdrawn hstep)⟩
    · exact ⟨⟨rfl, Nat.zero_le _, fun sid hsid => absurd hsid (AList.notMem_empty sid)⟩, .refl⟩
  refine ⟨hinv.2, ?_⟩
  intro now sid e he
  show (s.manager.store.lookup sid).map _ = _
  unfold SessionStore.get at he
  split at he
  · cases he
  next e' he' =>
  rw [he']
  split at he
  · cases he
  split at he
  · cases he
    rfl
  · unfold SessionStore.touch at he
    rw [he'] at he
    dsimp only at he
    split at he
    · cases he
    · cases he
      rfl

/-- The user's session is the manager's, too. -/
theorem store_refines_manager_visits :
    ∃ s, execute storeStep Drawn visits (.opened 100 2) = some s ∧
      ManagerRun SessionManager.empty s.manager.toManager ∧
      (s.manager.toManager.get "b").map (·.uid) = some 7 := by
  refine ⟨_, rfl, ?_⟩
  have hrun := @reaches_of_execute _ _ storeStep Drawn _ visits (.opened 100 2) _ rfl
  obtain ⟨hmanager, hget⟩ := store_refines_manager (by decide) hrun
  refine ⟨hmanager, ?_⟩
  rw [hget 4 "b" _ rfl]
  rfl

end CErp
