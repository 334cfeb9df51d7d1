/-
The connection pools of the tenant databases and the choice between them.

A tenant is known by the name of its database.  Which pool `acquire` draws
from is decided by the text the calling thread has selected: nothing selected,
or a name nobody registered, means the default tenant (`poolKey`).  A lease
goes back to the pool it was drawn from.

`Valid` says that the pools hold connections to their own databases only, and
that whatever routes to a tenant names a registered one; every operation keeps
it (`registerTenant_valid`, `acquire_valid`, `release_valid`).
-/
import Mathlib.Tactic.Common

namespace CErp

open Option Function List

/-- What the pools need of a database's configuration. -/
structure DbConfig where
  name : String
  poolSize : ℕ
  deriving DecidableEq

/-- An open connection; `db` is the database of its connection string. -/
structure Connection where
  serial : ℕ
  db : String
  deriving DecidableEq

structure Tenant where
  cfg : DbConfig
  pool : List Connection
  deriving DecidableEq

/-- The router.  The default tenant is registered by the constructor and never
removed, so `acquire` always finds a pool. -/
structure DbConnection where
  tenants : String → Option Tenant
  subdomainIndex : String → Option String
  emailIndex : String → Option String
  defaultTenant : String
  nextSerial : ℕ
  hasDefault : (tenants defaultTenant).isSome = true

/-- A leased connection and the pool it was drawn from. -/
structure PooledConnection where
  conn : Connection
  tenant : String
  deriving DecidableEq

namespace DbConnection

/-! ### The registry -/

/-- `n` new connections. -/
def makeConnections (cfg : DbConfig) (serial n : ℕ) : List Connection :=
  (range n).map fun i => ⟨serial + i, cfg.name⟩

/-- Register (or update) a tenant: its pool is filled up to its size, and the
given subdomain and mail domains route to it. -/
def registerTenant (db : DbConnection) (cfg : DbConfig) (subdomain : String)
    (emailDomains : List String) : DbConnection :=
  -- `tenants_[cfg.name]`: the pool a registered tenant already has stays
  let old := ((db.tenants cfg.name).map Tenant.pool).getD []
  let missing := cfg.poolSize - old.length
  { tenants := update db.tenants cfg.name
      (some ⟨cfg, old ++ makeConnections cfg db.nextSerial missing⟩)
    subdomainIndex :=
      if subdomain.isEmpty then db.subdomainIndex
      else update db.subdomainIndex subdomain.toLower (some cfg.name)
    emailIndex := emailDomains.foldl
      (fun index d => update index d.toLower (some cfg.name)) db.emailIndex
    defaultTenant := db.defaultTenant
    nextSerial := db.nextSerial + missing
    hasDefault := by
      by_cases h : db.defaultTenant = cfg.name
      · simp [h]
      · rw [update_of_ne h]
        exact db.hasDefault }

/-- The router with its one default tenant. -/
def ofConfig (cfg : DbConfig) : DbConnection where
  tenants := fun key =>
    if key = cfg.name then some ⟨cfg, makeConnections cfg 0 cfg.poolSize⟩ else none
  subdomainIndex := fun _ => none
  emailIndex := fun _ => none
  defaultTenant := cfg.name
  nextSerial := cfg.poolSize
  hasDefault := by simp

def hasTenant (db : DbConnection) (key : String) : Bool := (db.tenants key).isSome

/-- The tenant of a Host header: the port is cut off and the first label looked
up; the empty text if nothing routes there. -/
def resolveHost (db : DbConnection) (host : String) : String :=
  let h := host.toList.takeWhile (· ≠ ':')
  let sub := (String.ofList (h.takeWhile (· ≠ '.'))).toLower
  (db.subdomainIndex sub).getD ""

/-- The tenant of a login that is a mail address, by its domain. -/
def resolveEmailDomain (db : DbConnection) (login : String) : String :=
  match login.toList.dropWhile (· ≠ '@') with
  | [] => ""
  | _ :: dom => (db.emailIndex (String.ofList dom).toLower).getD ""

lemma resolveEmailDomain_empty (db : DbConnection) : db.resolveEmailDomain "" = "" := rfl

/-! ### Leases -/

/-- The pool for what a thread has selected. -/
def poolKey (db : DbConnection) (selected : String) : String :=
  let key := if selected.isEmpty then db.defaultTenant else selected
  if db.hasTenant key then key else db.defaultTenant

/-- The tenant under a pool key. -/
def poolOf (db : DbConnection) (selected : String) : List Connection :=
  ((db.tenants (db.poolKey selected)).map Tenant.pool).getD []

/-- The pool of a tenant replaced. -/
def setPool (db : DbConnection) (key : String) (pool : List Connection) : DbConnection :=
  { db with
    tenants := update db.tenants key ((db.tenants key).map fun t => { t with pool := pool })
    hasDefault := by
      by_cases h : db.defaultTenant = key
      · rw [← h, update_self, isSome_map]
        exact db.hasDefault
      · rw [update_of_ne h]
        exact db.hasDefault }

/-- A connection of the selected tenant's pool, the one waiting longest; `none`
when the pool stays empty until the timeout. -/
def acquire (db : DbConnection) (selected : String) : Option (PooledConnection × DbConnection) :=
  match db.poolOf selected with
  | [] => none
  | conn :: rest =>
      some (⟨conn, db.poolKey selected⟩, db.setPool (db.poolKey selected) rest)

/-- The end of a lease: back to the pool it came from, or to the default one
should its tenant be gone; a connection that was lost is opened anew. -/
def release (db : DbConnection) (lease : PooledConnection) (isOpen : Bool) : DbConnection :=
  let key := if db.hasTenant lease.tenant then lease.tenant else db.defaultTenant
  let conn := if isOpen then lease.conn
    else ⟨db.nextSerial, ((db.tenants key).map fun t => t.cfg.name).getD ""⟩
  { db.setPool key (((db.tenants key).map Tenant.pool).getD [] ++ [conn]) with
    nextSerial := db.nextSerial + 1 }

/-! ### The pool a selection means -/

@[simp] lemma hasTenant_default (db : DbConnection) : db.hasTenant db.defaultTenant = true :=
  db.hasDefault

@[simp] lemma hasTenant_poolKey (db : DbConnection) (selected : String) :
    db.hasTenant (db.poolKey selected) = true := by
  -- whichever key it is, it is registered or it is the default one
  have hor : ∀ key, db.hasTenant (if db.hasTenant key then key else db.defaultTenant) = true := by
    intro key
    split
    · next hreg => exact hreg
    · exact db.hasTenant_default
  exact hor _

@[simp] lemma poolKey_empty (db : DbConnection) : db.poolKey "" = db.defaultTenant := by
  simp [poolKey]

@[simp] lemma poolKey_default (db : DbConnection) :
    db.poolKey db.defaultTenant = db.defaultTenant := by
  simp [poolKey]

variable {selected : String}

/-- A name nobody registered selects the default pool. -/
lemma poolKey_of_unknown {db : DbConnection} (h : db.hasTenant selected = false) :
    db.poolKey selected = db.defaultTenant := by
  unfold poolKey
  split
  · simp
  · simp [h]

/-- A registered name selects its own pool. -/
lemma poolKey_eq_self_iff {db : DbConnection} (hne : selected ≠ "") :
    db.poolKey selected = selected ↔ db.hasTenant selected = true := by
  have hkey : db.poolKey selected =
      if db.hasTenant selected then selected else db.defaultTenant := by
    simp [poolKey, hne]
  rw [hkey]
  constructor
  · intro h
    split at h
    · next hreg => exact hreg
    · rw [← h]
      exact db.hasTenant_default
  · intro hreg
    rw [if_pos hreg]

/-- The same names are registered, and the same one is the default. -/
def SameRoutes (db db' : DbConnection) : Prop :=
  db'.defaultTenant = db.defaultTenant ∧ db'.hasTenant = db.hasTenant

lemma SameRoutes.poolKey_eq {db db' : DbConnection} (h : SameRoutes db db') :
    db'.poolKey = db.poolKey := by
  funext selected
  unfold poolKey
  rw [h.1, h.2]

/-! ### Validity -/

/-- The pools hold connections to their own databases, and the indexes lead to
registered tenants. -/
structure Valid (db : DbConnection) : Prop where
  named : ∀ {key t}, db.tenants key = some t → t.cfg.name = key
  ownPools : ∀ {key t}, db.tenants key = some t → ∀ c ∈ t.pool, c.db = key
  subdomains : ∀ {sub key}, db.subdomainIndex sub = some key → db.hasTenant key = true
  emails : ∀ {dom key}, db.emailIndex dom = some key → db.hasTenant key = true

lemma hasTenant_resolveHost {db : DbConnection} (h : db.Valid) {host : String}
    (hne : db.resolveHost host ≠ "") : db.hasTenant (db.resolveHost host) = true := by
  unfold resolveHost at hne ⊢
  dsimp only at hne ⊢
  rcases e : db.subdomainIndex _ with - | key
  · rw [e] at hne
    exact absurd rfl hne
  · exact h.subdomains e

lemma hasTenant_resolveEmailDomain {db : DbConnection} (h : db.Valid) {login : String}
    (hne : db.resolveEmailDomain login ≠ "") :
    db.hasTenant (db.resolveEmailDomain login) = true := by
  unfold resolveEmailDomain at hne ⊢
  split at hne
  · exact absurd rfl hne
  · next dom _ =>
      rcases e : db.emailIndex _ with - | key
      · rw [e] at hne
        exact absurd rfl hne
      · exact h.emails e

lemma makeConnections_db {cfg : DbConfig} {serial n : ℕ} {c : Connection}
    (h : c ∈ makeConnections cfg serial n) : c.db = cfg.name := by
  obtain ⟨i, -, rfl⟩ := List.mem_map.mp h
  rfl

lemma ofConfig_valid (cfg : DbConfig) : (ofConfig cfg).Valid where
  named := by
    intro key t h
    simp only [ofConfig] at h
    split at h
    · next hkey =>
        cases h
        exact hkey.symm
    · cases h
  ownPools := by
    intro key t h c hc
    simp only [ofConfig] at h
    split at h
    · next hkey =>
        cases h
        rw [hkey]
        exact makeConnections_db hc
    · cases h
  subdomains := by
    intro sub key h
    cases h
  emails := by
    intro dom key h
    cases h

variable {key : String}

section Register

variable {db : DbConnection} {cfg : DbConfig} {subdomain : String} {emailDomains : List String}

lemma hasTenant_registerTenant :
    (db.registerTenant cfg subdomain emailDomains).hasTenant key = true ↔
      key = cfg.name ∨ db.hasTenant key = true := by
  unfold hasTenant registerTenant
  by_cases h : key = cfg.name
  · simp [h]
  · simp [h]

/-- What a chain of index entries for one tenant leads to. -/
lemma foldl_update_some {index : String → Option String} {ds : List String} {d name : String}
    (h : ds.foldl (fun (i : String → Option String) (e : String) =>
      update i e.toLower (some name)) index d = some key) : key = name ∨ index d = some key := by
  induction ds generalizing index with
  | nil => exact .inr h
  | cons e ds ih =>
      rcases ih h with hname | hidx
      · exact .inl hname
      · dsimp only at hidx
        by_cases hd : d = e.toLower
        · rw [hd, update_self] at hidx
          cases hidx
          exact .inl rfl
        · rw [update_of_ne hd] at hidx
          exact .inr hidx

lemma registerTenant_valid (h : db.Valid) :
    (db.registerTenant cfg subdomain emailDomains).Valid where
  named := by
    intro key t ht
    simp only [registerTenant] at ht
    by_cases hkey : key = cfg.name
    · rw [hkey, update_self] at ht
      cases ht
      exact hkey.symm
    · rw [update_of_ne hkey] at ht
      exact h.named ht
  ownPools := by
    intro key t ht c hc
    simp only [registerTenant] at ht
    by_cases hkey : key = cfg.name
    · rw [hkey, update_self] at ht
      cases ht
      rcases mem_append.mp hc with hold | hnew
      · -- a connection of the pool the tenant had before
        rcases e : db.tenants cfg.name with - | t'
        · simp [e] at hold
        · have hmem : c ∈ t'.pool := by simpa [e] using hold
          rw [hkey]
          exact h.ownPools e c hmem
      · rw [hkey]
        exact makeConnections_db hnew
    · rw [update_of_ne hkey] at ht
      exact h.ownPools ht c hc
  subdomains := by
    intro sub key hs
    apply hasTenant_registerTenant.mpr
    simp only [registerTenant] at hs
    split at hs
    · exact .inr (h.subdomains hs)
    · by_cases hsub : sub = subdomain.toLower
      · rw [hsub, update_self] at hs
        cases hs
        exact .inl rfl
      · rw [update_of_ne hsub] at hs
        exact .inr (h.subdomains hs)
  emails := by
    intro dom key he
    apply hasTenant_registerTenant.mpr
    rcases foldl_update_some he with hname | hidx
    · exact .inl hname
    · exact .inr (h.emails hidx)

end Register

section Pools

variable {db : DbConnection}

lemma hasTenant_setPool {key' : String} {pool : List Connection} :
    (db.setPool key pool).hasTenant key' = db.hasTenant key' := by
  unfold hasTenant setPool
  by_cases h : key' = key
  · simp [h]
  · simp [update_of_ne h]

lemma setPool_valid {pool : List Connection} (h : db.Valid) (hpool : ∀ c ∈ pool, c.db = key) :
    (db.setPool key pool).Valid where
  named := by
    intro key' t ht
    simp only [setPool] at ht
    by_cases hkey : key' = key
    · rw [hkey, update_self] at ht
      obtain ⟨t', ht', rfl⟩ := map_eq_some_iff.mp ht
      have hname := h.named ht'
      exact hname.trans hkey.symm
    · rw [update_of_ne hkey] at ht
      exact h.named ht
  ownPools := by
    intro key' t ht c hc
    simp only [setPool] at ht
    by_cases hkey : key' = key
    · rw [hkey, update_self] at ht
      obtain ⟨t', -, rfl⟩ := map_eq_some_iff.mp ht
      rw [hkey]
      exact hpool c hc
    · rw [update_of_ne hkey] at ht
      exact h.ownPools ht c hc
  subdomains := by
    intro sub key' hs
    rw [hasTenant_setPool]
    exact h.subdomains hs
  emails := by
    intro dom key' he
    rw [hasTenant_setPool]
    exact h.emails he

/-- The connections of the pool a key leads to. -/
lemma pool_own (h : db.Valid) {c : Connection}
    (hc : c ∈ ((db.tenants key).map Tenant.pool).getD []) : c.db = key := by
  rcases e : db.tenants key with - | t
  · simp [e] at hc
  · rw [e] at hc
    exact h.ownPools e c hc

variable {lease : PooledConnection}

/-- Everything a lease says: it is of the selected pool, and a connection to
that pool's database. -/
lemma acquire_some {db' : DbConnection} (h : db.Valid)
    (ha : db.acquire selected = some (lease, db')) :
    lease.tenant = db.poolKey selected ∧ lease.conn.db = db.poolKey selected ∧
      db'.Valid ∧ SameRoutes db db' := by
  unfold acquire at ha
  have hown : ∀ c ∈ db.poolOf selected, c.db = db.poolKey selected := fun c hc => pool_own h hc
  rcases e : db.poolOf selected with - | ⟨conn, rest⟩
  · rw [e] at ha
    cases ha
  · rw [e] at ha hown
    cases ha
    refine ⟨rfl, hown conn mem_cons_self, ?_, rfl, ?_⟩
    · apply setPool_valid h
      intro c hc
      exact hown c (mem_cons_of_mem conn hc)
    · funext key
      exact hasTenant_setPool

/-- A lease of a registered tenant goes back where it came from. -/
lemma release_valid {isOpen : Bool} (h : db.Valid) (hreg : db.hasTenant lease.tenant = true)
    (hown : lease.conn.db = lease.tenant) : (db.release lease isOpen).Valid := by
  have hpool : ∀ c ∈ ((db.tenants lease.tenant).map Tenant.pool).getD [] ++
      [if isOpen then lease.conn
        else ⟨db.nextSerial, ((db.tenants lease.tenant).map fun t => t.cfg.name).getD ""⟩],
      c.db = lease.tenant := by
    intro c hc
    rcases mem_append.mp hc with hold | hnew
    · exact pool_own h hold
    · rw [mem_singleton.mp hnew]
      split
      · exact hown
      · obtain ⟨t, ht⟩ := isSome_iff_exists.mp hreg
        simp [ht, h.named ht]
  have hset := setPool_valid h hpool
  unfold release
  rw [if_pos hreg]
  exact ⟨hset.named, hset.ownPools, hset.subdomains, hset.emails⟩

lemma release_sameRoutes {isOpen : Bool} : SameRoutes db (db.release lease isOpen) := by
  refine ⟨rfl, ?_⟩
  funext key
  exact hasTenant_setPool

end Pools

end DbConnection

end CErp
