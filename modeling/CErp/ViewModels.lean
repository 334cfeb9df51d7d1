/-
The RPC door to a model: the dispatcher's checks, and the view model that
serves a search or a create.

View models differ in what they do with the session's context and with the
caller's domain and values.  `ReadHandler` and `CreateHandler` are the kinds
there are; `searchReadCall_ok` and `createCall_ok` say what a call that was
answered has passed.
-/
import CErp.ModelAccess
import CErp.ModelSearch
import CErp.Tenants

namespace CErp

open Outcome

variable [FloatText]

/-! ### The caller -/

/-- The context published for a call, and injected into its arguments. -/
def Session.userContext (s : Session) : UserContext where
  uid := s.uid
  companyId := s.companyId
  partnerId := s.partnerId
  groupIds := s.groupIds
  isAdmin := s.isAdmin
  allowedCompanyIds := s.allowedCompanyIds

/-- The caller a view model makes of a session: it hands the injected context
to the model or leaves the model's own anonymous. -/
def Session.caller (s : Session) (handsContext : Bool) : Caller where
  ctx := if handsContext then s.userContext else {}
  current := s.userContext

/-! ### View models -/

/-- An order the model's searches may ask for. -/
structure ReadOrder (m : ServedModel) where
  text : String
  valid : validateOrder m.derived.registry text = .ok ()
  sorts : ∀ rows, ∃ sorted, m.schema.orderBy text rows = .ok sorted

omit [FloatText] in
lemma validateOrder_id (reg : FieldRegistry) : validateOrder reg "id ASC" = .ok () := by
  have hcols : (Text.splitCommas "id ASC").filterMap orderColumn = ["id"] := by decide
  unfold validateOrder
  rw [hcols]
  rfl

def ReadOrder.byId (m : ServedModel) : ReadOrder m :=
  ⟨"id ASC", validateOrder_id m.derived.registry, m.schema.orderBy_id⟩

/-- What a search asks for where the call does not say. -/
structure ReadDefaults (m : ServedModel) where
  limit : ℤ := 80
  order : ReadOrder m
  honoursOrder : Bool

/-- How a view model answers `search_read`. -/
inductive ReadHandler (m : ServedModel) where
  /-- the method is not registered -/
  | none
  /-- the model's own search, under the session's context -/
  | model (defaults : ReadDefaults m)
  /-- the model's own search, under a context or for a domain of the view
  model's making -/
  | service (handsContext : Bool) (adapt : Json → Json) (defaults : ReadDefaults m)
  /-- a statement of the view model's own -/
  | statement (run : UserContext → CallKwArgs → Except String (List Values))

/-- How a view model answers `create`. -/
inductive CreateHandler where
  | none
  /-- the model's own create, under the session's context -/
  | model
  /-- the model's own create, for values of the view model's making -/
  | service (handsContext : Bool)
      (prepare : UserContext → Table Row → Values → Except String Values)
  /-- a statement of the view model's own -/
  | statement (insert : UserContext → Table Row → Values → Except String (Table Row))

/-- A view model, with the checks of its own that come first. -/
structure ViewModel (m : ServedModel) where
  readCheck : UserContext → Except String Unit := fun _ => .ok ()
  read : ReadHandler m
  createCheck : UserContext → Except String Unit := fun _ => .ok ()
  creation : CreateHandler

/-- `GenericViewModel`. -/
def genericViewModel (m : ServedModel) : ViewModel m where
  read := .model { order := .byId m, honoursOrder := true }
  creation := .model

/-- `AccountViewModel`: the caller's order is ignored. -/
def accountViewModel (m : ServedModel) : ViewModel m where
  read := .model { order := .byId m, honoursOrder := false }
  creation := .model

/-- `LookupViewModel`: read-only, and the model stays anonymous. -/
def lookupViewModel (m : ServedModel) : ViewModel m where
  read := .service false id { order := .byId m, honoursOrder := true }
  creation := .none

def unknownMethod (m : ServedModel) (method : String) : String :=
  "ViewModel '" ++ m.derived.modelName ++ "': unknown method '" ++ method ++ "'"

/-- The order a call asks for, where the view model listens. -/
def askedOrder {m : ServedModel} (d : ReadDefaults m) (call : CallKwArgs) : Except String String :=
  if d.honoursOrder then call.order else .ok ""

/-- The model's search with the arguments of a call. -/
def searchReadWith {m : ServedModel} (engine : Option RuleEngine) (c : Caller)
    (rows : List (ℤ × Row)) (d : ReadDefaults m) (domain : Json) (call : CallKwArgs) :
    Except String (List Values) := do
  let asked ← askedOrder d call
  let fields ← call.fields
  let limit ← call.limit
  let offset ← call.offset
  searchRead m engine c rows domain fields (if limit > 0 then limit else d.limit) offset
    (if asked = "" then d.order.text else asked)

/-- What a read handler does with a call. -/
def ReadHandler.answer {m : ServedModel} (engine : Option RuleEngine) (s : Session)
    (rows : List (ℤ × Row)) (call : CallKwArgs) : ReadHandler m → Except String (List Values)
  | .none => .error (unknownMethod m call.method)
  | .model d => searchReadWith engine (s.caller true) rows d call.domain call
  | .service hands adapt d =>
      searchReadWith engine (s.caller hands) rows d (adapt call.domain) call
  | .statement run => run s.userContext call

/-- What a create handler does with the values of a call. -/
def CreateHandler.answer (m : ServedModel) (s : Session) (t : Table Row) (method : String)
    (values : Values) : CreateHandler → Except String (Table Row)
  | .none => .error (unknownMethod m method)
  | .model => create m.derived m.schema.toSchema (s.caller true) t values
  | .service hands prepare => do
      let prepared ← prepare s.userContext t values
      create m.derived m.schema.toSchema (s.caller hands) t prepared
  | .statement insert => insert s.userContext t values

def ViewModel.handleSearchRead {m : ServedModel} (vm : ViewModel m) (engine : Option RuleEngine)
    (s : Session) (rows : List (ℤ × Row)) (call : CallKwArgs) : Except String (List Values) := do
  vm.readCheck s.userContext
  vm.read.answer engine s rows call

def ViewModel.handleCreate {m : ServedModel} (vm : ViewModel m) (s : Session) (t : Table Row)
    (call : CallKwArgs) : Except String (Table Row) := do
  vm.createCheck s.userContext
  match call.arg 0 with
  | .obj values => vm.creation.answer m s t call.method values
  | _ => throw "create: args[0] must be a dict"

/-! ### The dispatcher -/

/-- A model of the server with its table, and its view model if it has one. -/
structure Entry where
  model : ServedModel
  viewModel : Option (ViewModel model)
  table : SerialTable

/-- The registered models, and the rule engine once it is ready. -/
structure Server where
  entries : String → Option Entry
  engine : Option RuleEngine

def unknownModel (model : String) : String :=
  "The server has no model '" ++ model ++ "'. If a menu led here, this " ++
    "page is older than the server — reload it (Ctrl+Shift+R)."

/-- The checks of `handleCallKw_` before it calls the view model. -/
def admitCall (session : Session) (call : CallKwArgs) : Except String Unit :=
  if !isPublicMethod call.method && !session.isAuthenticated then
    .error "Please authenticate first."
  else if session.isAuthenticated then checkModelAccess call.model session
  else .ok ()

/-- The view model a call is for. -/
def viewModelFor (server : Server) (model : String) :
    Except String ((e : Entry) × ViewModel e.model) :=
  match server.entries model with
  | some ⟨m, some vm, t⟩ => .ok ⟨⟨m, some vm, t⟩, vm⟩
  | _ => .error (unknownModel model)

/-- `call_kw` of `search_read` or `web_search_read`. -/
def searchReadCall (server : Server) (session : Session) (call : CallKwArgs) :
    Except String (List Values) := do
  admitCall session call
  let ⟨e, vm⟩ ← viewModelFor server call.model
  vm.handleSearchRead server.engine session e.table.rows call

/-- `call_kw` of `create`, with the table as it is at the time. -/
def createCall (server : Server) (session : Session) (t : Table Row) (call : CallKwArgs) :
    Except String (Table Row) := do
  admitCall session call
  let ⟨_, vm⟩ ← viewModelFor server call.model
  vm.handleCreate session t call

/-! ### What an answered call has passed -/

omit [FloatText] in
lemma admitCall_ok_iff {session : Session} {call : CallKwArgs} {u : Unit}
    (hpriv : isPublicMethod call.method = false) :
    admitCall session call = .ok u ↔
      session.isAuthenticated = true ∧ mayAccess call.model session = true := by
  unfold admitCall
  rw [hpriv]
  rcases session.isAuthenticated with - | -
  · simp
  · simpa using checkModelAccess_ok_iff

variable {server : Server}

omit [FloatText] in
lemma viewModelFor_ok_iff {model : String} {e : Entry} {vm : ViewModel e.model} :
    viewModelFor server model = .ok ⟨e, vm⟩ ↔
      server.entries model = some e ∧ e.viewModel = some vm := by
  obtain ⟨m, vm?, t⟩ := e
  unfold viewModelFor
  rcases h : server.entries model with - | ⟨m', - | vm', t'⟩
  · simp
  · constructor
    · intro heq
      cases heq
    · rintro ⟨heq, hvm⟩
      cases heq
      cases hvm
  · constructor
    · intro heq
      cases heq
      exact ⟨rfl, rfl⟩
    · rintro ⟨heq, hvm⟩
      cases heq
      cases hvm
      rfl

/-- **An answered search.**  The session's call passes the access check, the
view model's own, and its handler answers. -/
theorem searchReadCall_ok_iff {s : Session} {call : CallKwArgs} {records : List Values}
    (hmethod : call.method = "search_read") :
    searchReadCall server s call = .ok records ↔
      s.isAuthenticated = true ∧ mayAccess call.model s = true ∧
      ∃ e vm, server.entries call.model = some e ∧ e.viewModel = some vm ∧
        vm.readCheck s.userContext = .ok () ∧
        vm.read.answer server.engine s e.table.rows call = .ok records := by
  have hpriv : isPublicMethod call.method = false := by
    rw [hmethod]
    decide
  unfold searchReadCall
  rw [bind_ok_iff]
  constructor
  · rintro ⟨u, hadmit, h⟩
    obtain ⟨hauth, haccess⟩ := (admitCall_ok_iff hpriv).mp hadmit
    obtain ⟨⟨e, vm⟩, hvm, h⟩ := bind_ok_iff.mp h
    obtain ⟨hentry, hvm⟩ := viewModelFor_ok_iff.mp hvm
    obtain ⟨⟨⟩, hcheck, h⟩ := bind_ok_iff.mp h
    exact ⟨hauth, haccess, e, vm, hentry, hvm, hcheck, h⟩
  · rintro ⟨hauth, haccess, e, vm, hentry, hvm, hcheck, h⟩
    refine ⟨(), (admitCall_ok_iff hpriv).mpr ⟨hauth, haccess⟩, ?_⟩
    refine bind_ok_iff.mpr ⟨⟨e, vm⟩, viewModelFor_ok_iff.mpr ⟨hentry, hvm⟩, ?_⟩
    exact bind_ok_iff.mpr ⟨(), hcheck, h⟩

/-- **An answered create.** -/
theorem createCall_ok_iff {s : Session} {t t' : Table Row} {model : String} {values : Values} :
    createCall server s t ⟨model, "create", .arr [.obj values], .obj []⟩ = .ok t' ↔
      s.isAuthenticated = true ∧ mayAccess model s = true ∧
      ∃ e vm, server.entries model = some e ∧ e.viewModel = some vm ∧
        vm.createCheck s.userContext = .ok () ∧
        vm.creation.answer e.model s t "create" values = .ok t' := by
  have hpriv : isPublicMethod "create" = false := by decide
  unfold createCall
  rw [bind_ok_iff]
  constructor
  · rintro ⟨u, hadmit, h⟩
    obtain ⟨hauth, haccess⟩ := (admitCall_ok_iff hpriv).mp hadmit
    obtain ⟨⟨e, vm⟩, hvm, h⟩ := bind_ok_iff.mp h
    obtain ⟨hentry, hvm⟩ := viewModelFor_ok_iff.mp hvm
    obtain ⟨⟨⟩, hcheck, h⟩ := bind_ok_iff.mp h
    exact ⟨hauth, haccess, e, vm, hentry, hvm, hcheck, h⟩
  · rintro ⟨hauth, haccess, e, vm, hentry, hvm, hcheck, h⟩
    refine ⟨(), (admitCall_ok_iff hpriv).mpr ⟨hauth, haccess⟩, ?_⟩
    refine bind_ok_iff.mpr ⟨⟨e, vm⟩, viewModelFor_ok_iff.mpr ⟨hentry, hvm⟩, ?_⟩
    exact bind_ok_iff.mpr ⟨(), hcheck, h⟩

end CErp
