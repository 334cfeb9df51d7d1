/-
Record rules of several tenants behind one cache.

`loadRules_` reads the rules of a model from the database of the tenant its thread
has selected and keeps them for a minute under the model's name alone.  A call of
`buildRuleDomain` looks into the cache first and reads and fills it afterwards, and
other threads may come in between.

Of an entry it is known which tenant it was read from (`CacheSound`).  A call is
answered by the rules of its own tenant exactly when that tenant's rules mean the
same to the user (`rules_of_own_tenant_iff`).
-/
import CErp.DbConnection
import CErp.RuleEngine
import CErp.Runs
import CErp.TtlCache

namespace CErp

open Option Function Runs

namespace RuleCache

/-! ### Calls -/

/-- A call of `buildRuleDomain`. -/
structure RuleCall where
  modelName : String
  op : RuleOp
  ctx : UserContext

/-- What is cached for a model.  `source` is the tenant whose table was read, none when
the table could not be read. -/
structure LoadedRules where
  rules : List IrRuleRecord
  source : Option String

/-- A request thread: the tenant it has selected, and the call that is reading rules. -/
structure RuleThread where
  selected : String := ""
  loading : Option RuleCall := none

structure RuleWorld where
  routes : DbConnection
  databases : String → RuleEngine
  cache : TtlCache String LoadedRules := .empty
  threads : ℕ → RuleThread := fun _ => {}

/-- The tenant that is current in a thread. -/
def RuleWorld.tenant (w : RuleWorld) (th : ℕ) : String := w.routes.poolKey (w.threads th).selected

/-- The domain some rules make for a call. -/
def RuleCall.domainBy (call : RuleCall) (rules : List IrRuleRecord) : Json :=
  RuleEngine.buildRuleDomain ⟨fun _ => rules⟩ call.modelName call.op call.ctx

/-- The domain of the rules of a tenant. -/
def RuleWorld.domainOf (w : RuleWorld) (tenant : String) (call : RuleCall) : Json :=
  (w.databases tenant).buildRuleDomain call.modelName call.op call.ctx

/-- The rules that are read: a table that cannot be read has none. -/
def RuleWorld.load (w : RuleWorld) (tenant : String) (reachable : Bool) (modelName : String) :
    LoadedRules :=
  if reachable then ⟨(w.databases tenant).loadRules modelName, some tenant⟩ else ⟨[], none⟩

/-! ### Steps -/

/-- `select` is `setCurrentTenant`; `ask` is a call up to its look into the cache, and
`load` what it does when nothing is found there. -/
inductive RuleEvent where
  | select (th : ℕ) (tenant : String)
  | ask (th : ℕ) (call : RuleCall) (now : ℤ)
  | load (th : ℕ) (now : ℤ) (reachable : Bool)

def RuleWorld.setThread (w : RuleWorld) (th : ℕ) (t : RuleThread) : RuleWorld :=
  { w with threads := update w.threads th t }

def ruleStep (w : RuleWorld) : RuleEvent → Option RuleWorld
  | .select th tenant =>
      match (w.threads th).loading with
      | some _ => none
      | none => some (w.setThread th { selected := tenant })
  | .ask th call now =>
      match (w.threads th).loading with
      | some _ => none
      | none =>
          if call.ctx.isAdmin then some w
          else
            match w.cache.get now call.modelName with
            | (some _, cache) => some { w with cache := cache }
            | (none, cache) =>
                some ({ w with cache := cache }.setThread th
                  { w.threads th with loading := some call })
  | .load th now reachable =>
      match (w.threads th).loading with
      | none => none
      | some call =>
          let loaded := w.load (w.tenant th) reachable call.modelName
          some ({ w with cache := w.cache.set now call.modelName loaded 60 }.setThread th
            { w.threads th with loading := none })

/-- What a call returns. -/
structure Answer where
  tenant : String
  call : RuleCall
  domain : Json

/-- The answer an event brings, if it brings one. -/
def answer (w : RuleWorld) : RuleEvent → Option Answer
  | .select _ _ => none
  | .ask th call now =>
      if call.ctx.isAdmin then some ⟨w.tenant th, call, .arr []⟩
      else (w.cache.get now call.modelName).1.map fun loaded =>
        ⟨w.tenant th, call, call.domainBy loaded.rules⟩
  | .load th _ reachable =>
      (w.threads th).loading.map fun call =>
        ⟨w.tenant th, call, call.domainBy (w.load (w.tenant th) reachable call.modelName).rules⟩

/-! ### Where cached rules come from -/

/-- The rules of a source. -/
def RuleWorld.rulesFrom (w : RuleWorld) (source : Option String) (modelName : String) :
    List IrRuleRecord :=
  match source with
  | none => []
  | some tenant => (w.databases tenant).loadRules modelName

/-- What is cached is what its source has; a call that is reading is no administrator's. -/
structure CacheSound (w : RuleWorld) : Prop where
  cached : ∀ modelName e, w.cache.entries modelName = some e →
    e.value.rules = w.rulesFrom e.value.source modelName
  loading : ∀ th call, (w.threads th).loading = some call → call.ctx.isAdmin = false

lemma load_rules (w : RuleWorld) (tenant : String) (reachable : Bool) (modelName : String) :
    (w.load tenant reachable modelName).rules =
      w.rulesFrom (w.load tenant reachable modelName).source modelName := by
  cases reachable <;> rfl

/-- The databases and the routes are never changed. -/
lemma ruleStep_fixed {w w' : RuleWorld} {e : RuleEvent} (h : ruleStep w e = some w') :
    w'.databases = w.databases ∧ w'.routes = w.routes := by
  unfold ruleStep at h
  split at h
  · split at h
    · cases h
    · cases h
      exact ⟨rfl, rfl⟩
  · split at h
    · cases h
    · split at h
      · cases h
        exact ⟨rfl, rfl⟩
      · split at h
        · cases h
          exact ⟨rfl, rfl⟩
        · cases h
          exact ⟨rfl, rfl⟩
  · split at h
    · cases h
    · cases h
      exact ⟨rfl, rfl⟩

section Sound

variable {w w' : RuleWorld}

lemma CacheSound.withCache {cache : TtlCache String LoadedRules} (h : CacheSound w)
    (hcache : ∀ modelName e, cache.entries modelName = some e →
      e.value.rules = w.rulesFrom e.value.source modelName) :
    CacheSound { w with cache := cache } := ⟨hcache, h.loading⟩

lemma CacheSound.setThread (h : CacheSound w) {th : ℕ} {t : RuleThread}
    (ht : ∀ call, t.loading = some call → call.ctx.isAdmin = false) :
    CacheSound (w.setThread th t) := by
  refine ⟨h.cached, ?_⟩
  intro th' call hcall
  change (update w.threads th t th').loading = some call at hcall
  by_cases hth : th' = th
  · rw [hth, update_self] at hcall
    exact ht call hcall
  · rw [update_of_ne hth] at hcall
    exact h.loading th' call hcall

lemma ruleStep_sound {e : RuleEvent} (h : CacheSound w) (hs : ruleStep w e = some w') :
    CacheSound w' := by
  cases e with
  | select th tenant =>
      simp only [ruleStep] at hs
      split at hs
      · cases hs
      · cases hs
        exact h.setThread fun _ hcall => absurd hcall (some_ne_none _).symm
  | ask th call now =>
      simp only [ruleStep] at hs
      split at hs
      · cases hs
      split at hs
      · cases hs
        exact h
      next hadmin =>
      have hread : ∀ modelName e, (w.cache.get now call.modelName).2.entries modelName = some e →
          e.value.rules = w.rulesFrom e.value.source modelName :=
        fun modelName e he => h.cached modelName e (TtlCache.entries_get he)
      split at hs
      · next hget =>
          cases hs
          rw [hget] at hread
          exact h.withCache hread
      · next hget =>
          cases hs
          rw [hget] at hread
          refine (h.withCache hread).setThread fun call' hcall => ?_
          cases hcall
          exact Bool.not_eq_true _ ▸ hadmin
  | load th now reachable =>
      simp only [ruleStep] at hs
      split at hs
      · cases hs
      next call hcall =>
      cases hs
      refine (h.withCache ?_).setThread fun _ hnone => absurd hnone (some_ne_none _).symm
      intro modelName e he
      rcases TtlCache.entries_set he with ⟨hmodel, hvalue⟩ | hold
      · rw [hvalue, hmodel]
        exact load_rules w _ _ _
      · exact h.cached modelName e hold

end Sound

/-! ### Isolation -/

/-- The world before the first call. -/
def start (routes : DbConnection) (databases : String → RuleEngine) : RuleWorld where
  routes := routes
  databases := databases

/-- A source whose rules make the domain that the rules of the thread's tenant make. -/
def SameDomain (w : RuleWorld) (th : ℕ) (call : RuleCall) (source : Option String) : Prop :=
  match source with
  | none => w.domainOf (w.tenant th) call = .arr []
  | some tenant => w.domainOf tenant call = w.domainOf (w.tenant th) call

/-- The caller is an administrator, or what the cache still holds for the model, or else the
table that is read, means the same as the rules of the caller's tenant. -/
def Isolated (w : RuleWorld) : RuleEvent → Prop
  | .select _ _ => True
  | .ask th call now => call.ctx.isAdmin = true ∨
      ∀ loaded, w.cache.live now call.modelName = some loaded → SameDomain w th call loaded.source
  | .load th _ reachable => ∀ call, (w.threads th).loading = some call →
      reachable = true ∨ SameDomain w th call none

lemma domainBy_rulesFrom (w : RuleWorld) (th : ℕ) (call : RuleCall) (source : Option String) :
    call.domainBy (w.rulesFrom source call.modelName) = w.domainOf (w.tenant th) call ↔
      SameDomain w th call source := by
  cases source with
  | none =>
      have hnone : call.domainBy [] = .arr [] := by
        unfold RuleCall.domainBy RuleEngine.buildRuleDomain
        split
        · rfl
        · rfl
      show call.domainBy [] = _ ↔ _ = Json.arr []
      rw [hnone]
      exact eq_comm
  | some tenant => exact Iff.rfl

/-- **A call is answered by the rules of its tenant exactly when it is isolated**, whatever
calls came before it. -/
theorem rules_of_own_tenant_iff {routes : DbConnection} {databases : String → RuleEngine}
    {w : RuleWorld} (hrun : Reaches ruleStep (fun _ _ => True) (start routes databases) w)
    {e : RuleEvent} {a : Answer} (ha : answer w e = some a) :
    a.domain = (databases a.tenant).buildRuleDomain a.call.modelName a.call.op a.call.ctx ↔
      Isolated w e := by
  obtain ⟨hsound, hfixed⟩ : CacheSound w ∧ w.databases = databases := by
    apply hrun.invariant _ ⟨⟨fun _ _ h => (nomatch h), fun _ _ h => (nomatch h)⟩, rfl⟩
    rintro w e w' ⟨hsound, hfixed⟩ - hs
    exact ⟨ruleStep_sound hsound hs, (ruleStep_fixed hs).1.trans hfixed⟩
  subst hfixed
  cases e with
  | select th tenant => cases ha
  | ask th call now =>
      simp only [answer] at ha
      split at ha
      · next hadmin =>
          cases ha
          refine iff_of_true ?_ (.inl hadmin)
          simp only [RuleEngine.buildRuleDomain, hadmin, if_true]
      · next hadmin =>
          rw [TtlCache.get_fst] at ha
          obtain ⟨loaded, hlive, rfl⟩ := map_eq_some_iff.mp ha
          obtain ⟨entry, hentry, rfl⟩ := TtlCache.live_eq_some hlive
          have hrules := hsound.cached _ _ hentry
          dsimp only
          rw [hrules]
          refine (domainBy_rulesFrom w th call entry.value.source).trans ?_
          constructor
          · intro hsame
            refine .inr fun loaded hloaded => ?_
            cases hlive.symm.trans hloaded
            exact hsame
          · rintro (htrue | hall)
            · exact absurd htrue hadmin
            · exact hall _ hlive
  | load th now reachable =>
      obtain ⟨call, hcall, rfl⟩ := map_eq_some_iff.mp ha
      dsimp only
      rw [load_rules]
      refine (domainBy_rulesFrom w th call _).trans ?_
      cases reachable with
      | true => exact iff_of_true rfl fun _ _ => .inl rfl
      | false =>
          constructor
          · intro hsame call' hcall'
            cases hcall.symm.trans hcall'
            exact .inr hsame
          · intro hall
            exact (hall call hcall).resolve_left Bool.false_ne_true

/-! ### Two tenants -/

/-- A user may read the rows assigned to them. -/
def ownRows : IrRuleRecord where
  domainForce := .arr [.arr [.str "user_id", .str "=", .str "user.id"]]
  permRead := true
  permWrite := true
  permCreate := true
  permUnlink := true
  globalRule := true
  active := true
  groupIds := []

def mainAndAcmeRoutes : DbConnection :=
  (DbConnection.ofConfig ⟨"main", 1⟩).registerTenant ⟨"acme", 1⟩ "acme" []

/-- The main tenant has a rule, the other one none. -/
def mainAndAcmeRules (tenant : String) : RuleEngine where
  loadRules _ := if tenant = "main" then [ownRows] else []

def readPartners : RuleCall := ⟨"res.partner", .read, { uid := 7 }⟩

/-- A call of the other tenant, and one of the main tenant a second later. -/
def acmeThenMain : List RuleEvent :=
  [.select 0 "acme", .ask 0 readPartners 0, .load 0 0 true, .select 1 "main"]

/-- The main tenant's call again. -/
def mainAsks : RuleEvent := .ask 1 readPartners 1000000000

theorem rules_of_own_tenant_iff_main :
    ∃ w a, Reaches ruleStep (fun _ _ => True) (start mainAndAcmeRoutes mainAndAcmeRules) w ∧
      answer w mainAsks = some a ∧
      (a.domain = (mainAndAcmeRules a.tenant).buildRuleDomain a.call.modelName a.call.op a.call.ctx ↔
        Isolated w mainAsks) := by
  have hsome : ((execute ruleStep (fun _ _ => True) acmeThenMain
      (start mainAndAcmeRoutes mainAndAcmeRules)).bind fun w => answer w mainAsks).isSome = true := by
    decide
  obtain ⟨a, ha⟩ := isSome_iff_exists.mp hsome
  obtain ⟨w, hw, ha⟩ := bind_eq_some_iff.mp ha
  have hrun := reaches_of_execute hw
  exact ⟨w, a, hrun, ha, rules_of_own_tenant_iff hrun ha⟩

/-- The main tenant is answered by the rules of the other one. -/
theorem main_answered_by_acme :
    ¬ ∀ (routes : DbConnection) (databases : String → RuleEngine) (w : RuleWorld) (e : RuleEvent)
      (a : Answer), Reaches ruleStep (fun _ _ => True) (start routes databases) w →
        answer w e = some a → a.domain =
            (databases a.tenant).buildRuleDomain a.call.modelName a.call.op a.call.ctx := by
  intro h
  have hlengths : (((execute ruleStep (fun _ _ => True) acmeThenMain
      (start mainAndAcmeRoutes mainAndAcmeRules)).bind fun w => answer w mainAsks).map fun a =>
        (a.tenant, a.domain.items.length, ((mainAndAcmeRules a.tenant).buildRuleDomain
          a.call.modelName a.call.op a.call.ctx).items.length)) = some ("main", 0, 1) := by
    decide
  obtain ⟨a, ha, hlengths⟩ := map_eq_some_iff.mp hlengths
  obtain ⟨w, hw, ha⟩ := bind_eq_some_iff.mp ha
  have hdomain := h _ _ w mainAsks a (reaches_of_execute hw) ha
  rw [← hdomain] at hlengths
  simp only [Prod.mk.injEq] at hlengths
  omega

end RuleCache

end CErp
