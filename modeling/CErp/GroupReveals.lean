/-
What a `read_group` call reveals, against what `search_read` would return.

The dispatcher answers `read_group` from the model, under the session's context,
after the access check and without the view model.  So a restriction that lives in
the view model alone does not hold for the counts: they count only rows the
session's `search_read` could return exactly when the view model lets each row the
model finds through (`grouping_reveals_no_more_iff`).
-/
import CErp.AuthViewModel
import CErp.CsvGrants
import CErp.ReadGroup

namespace CErp

open Outcome List

/-- A server whose tables have their key, with its database's grouping of each
model. -/
structure GroupServer extends Server where
  grouping : ServedModel → Grouping
  idColumn : ∀ model e, entries model = some e → e.model.schema.hasColumn "id" = true

/-- An argument by its position, or by its name where that is null or an empty
array. -/
def pick (call : CallKwArgs) (argIdx : ℕ) (kw : String) : Json :=
  match call.arg argIdx with
  | .null => (call.kwargs.find? kw).getD .null
  | .arr [] => (call.kwargs.find? kw).getD (.arr [])
  | a => a

/-- The order a call asks for, under either name. -/
def groupOrder (call : CallKwArgs) : String :=
  match call.kwargs.find? "orderby", call.kwargs.find? "order" with
  | some (.str s), _ => s
  | _, some (.str s) => s
  | _, _ => ""

section Grant

variable [FloatText]

/-- `handleReadGroupGeneric_`. -/
def handleReadGroupGeneric (server : GroupServer) (session : Session) (call : CallKwArgs) :
    Except String (List GroupKey × List RowGroup) := do
  match server.entries call.model with
  | none => throw ("Unknown model: " ++ call.model)
  | some e =>
      let limit ← call.limit
      let offset ← call.offset
      readGroup e.model (server.grouping e.model) server.engine (session.caller true) e.table.rows
        (pick call 0 "domain") (pick call 1 "fields") (pick call 2 "groupby") limit offset
        (groupOrder call)

/-- `call_kw` of `read_group` or `web_read_group`. -/
def readGroupCall (server : GroupServer) (session : Session) (call : CallKwArgs) :
    Except String (List GroupKey × List RowGroup) := do
  admitCall session call
  handleReadGroupGeneric server session call

/-! ### What the two paths show -/

/-- Some `search_read` of the session for the domain returns the row. -/
def SearchReturns (server : Server) (s : Session) (model : String) (domain : Json) (r : ℤ × Row) :
    Prop :=
  ∃ call records, call.model = model ∧ call.method = "search_read" ∧ call.domain = domain ∧
    searchReadCall server s call = .ok records ∧ ∃ rec ∈ records, rec.lookup "id" = some (.num r.1)

/-- Every row that some `read_group` of the session for the domain counts is one
its `search_read` for the domain could return. -/
def RevealsNoMore (server : GroupServer) (s : Session) (model : String) (domain : Json) : Prop :=
  ∀ call keys groups, call.model = model → call.method = "read_group" →
    pick call 0 "domain" = domain → readGroupCall server s call = .ok (keys, groups) →
    ∀ g ∈ groups, ∀ r ∈ g.rows, SearchReturns server.toServer s model domain r

/-- The read handler of a view model finds a row for a domain: the model's own
search does where the model finds it, a search of the view model's making where
that finds it, a statement where it returns it. -/
def ReadHandler.Finds {m : ServedModel} (engine : Option RuleEngine) (s : Session) (model : String)
    (rows : List (ℤ × Row)) (domain : Json) (r : ℤ × Row) : ReadHandler m → Prop
  | .none => False
  | .model _ => True
  | .service hands adapt _ =>
      ∃ found, foundRows m engine (s.caller hands) rows (adapt domain) = .ok found ∧ r ∈ found
  | .statement run =>
      ∃ call records, call.model = model ∧ call.method = "search_read" ∧ call.domain = domain ∧
        run s.userContext call = .ok records ∧ ∃ rec ∈ records, rec.lookup "id" = some (.num r.1)

/-- Some groupby can be grouped by, for all of some rows. -/
def Groupable (m : ServedModel) (db : Grouping) (rows : List (ℤ × Row)) : Prop :=
  ∃ groupby keys, groupKeys m.derived.registry groupby = .ok keys ∧
    ∀ r ∈ rows, ∃ texts, keyTexts db keys r = .ok texts

/-- The view model of the entry admits the session and finds the row. -/
def ViewModelFinds (server : Server) (s : Session) (model : String) (e : Entry) (domain : Json)
    (r : ℤ × Row) : Prop :=
  ∃ vm, e.viewModel = some vm ∧ vm.readCheck s.userContext = .ok () ∧
    vm.read.Finds server.engine s model e.table.rows domain r

/-! ### One row on the two paths -/

/-- A row the model finds for the session can be returned by its `search_read`
exactly when the view model lets it through. -/
lemma searchReturns_iff {server : Server} {s : Session} {model : String} {e : Entry}
    {domain : Json} {found : List (ℤ × Row)} {r : ℤ × Row} (hs : s.isAuthenticated = true)
    (haccess : mayAccess model s = true) (hentry : server.entries model = some e)
    (hid : e.model.schema.hasColumn "id" = true)
    (hfound : foundRows e.model server.engine (s.caller true) e.table.rows domain = .ok found)
    (hr : r ∈ found) :
    SearchReturns server s model domain r ↔ ViewModelFinds server s model e domain r := by
  have hrec : (record e.model (buildSelectCols e.model.derived.registry ["id"]) r).lookup "id" =
      some (.num r.1) := by
    rw [record_lookup e.model r (id_mem_buildSelectCols _ _), cellJson_id]
  constructor
  · rintro ⟨call, records, rfl, hmethod, rfl, hcall, rec, hmem, hrid⟩
    obtain ⟨-, -, e', vm, hentry', hvm, hcheck, hanswer⟩ := (searchReadCall_ok_iff hmethod).mp hcall
    rw [hentry, Option.some.injEq] at hentry'
    subst hentry'
    refine ⟨vm, hvm, hcheck, ?_⟩
    rcases hread : vm.read with - | d | ⟨hands, adapt, d⟩ | run
    · rw [hread] at hanswer
      cases hanswer
    · trivial
    · rw [hread] at hanswer
      exact searchReadWith_found hanswer hmem (foundRows_subset hfound r hr) hrid
    · rw [hread] at hanswer
      exact ⟨call, records, rfl, hmethod, rfl, hanswer, rec, hmem, hrid⟩
  · rintro ⟨vm, hvm, hcheck, hfinds⟩
    have hcall : ∀ call records, call.model = model → call.method = "search_read" →
        vm.read.answer server.engine s e.table.rows call = .ok records →
        searchReadCall server s call = .ok records := by
      rintro call records rfl hmethod hanswer
      exact (searchReadCall_ok_iff hmethod).mpr
        ⟨hs, haccess, e, vm, hentry, hvm, hcheck, hanswer⟩
    rcases hread : vm.read with - | d | ⟨hands, adapt, d⟩ | run
    · rw [hread] at hfinds
      exact hfinds.elim
    · obtain ⟨k, hk⟩ := searchReadWith_fieldCall d model domain hfound hr hid hid
      refine ⟨fieldCall model domain "id" k, _, rfl, rfl, rfl, hcall _ _ rfl rfl ?_, _,
        mem_singleton_self _, hrec⟩
      rw [hread]
      exact hk
    · rw [hread] at hfinds
      obtain ⟨found', hfound', hr'⟩ := hfinds
      obtain ⟨k, hk⟩ := searchReadWith_fieldCall d model domain hfound' hr' hid hid
      refine ⟨fieldCall model domain "id" k, _, rfl, rfl, rfl, hcall _ _ rfl rfl ?_, _,
        mem_singleton_self _, hrec⟩
      rw [hread]
      exact hk
    · rw [hread] at hfinds
      obtain ⟨call, records, hmodel, hmethod, hdomain, hrun, rec, hmem, hrid⟩ := hfinds
      refine ⟨call, records, hmodel, hmethod, hdomain, hcall _ _ hmodel hmethod ?_, rec, hmem, hrid⟩
      rw [hread]
      exact hrun

/-! ### The rows that are counted -/

omit [FloatText] in
lemma mem_of_pageGroups {limit offset : ℤ} {groups : List RowGroup} {g : RowGroup}
    (h : g ∈ pageGroups limit offset groups) : g ∈ groups := by
  have hrest : ∀ rest : List RowGroup, g ∈ (if limit > 0 then rest.take limit.toNat else rest) →
      g ∈ rest := by
    intro rest h
    split at h
    · exact mem_of_mem_take h
    · exact h
  have h := hrest _ h
  split at h
  · exact mem_of_mem_drop h
  · exact h

/-- A counted row is one the model finds. -/
lemma found_of_counted {m : ServedModel} {db : Grouping} {engine : Option RuleEngine} {c : Caller}
    {rows : List (ℤ × Row)} {domainJson fieldsJson groupbyJson : Json} {limit offset : ℤ}
    {orderBy : String} {keys : List GroupKey} {groups : List RowGroup}
    (h : readGroup m db engine c rows domainJson fieldsJson groupbyJson limit offset orderBy =
      .ok (keys, groups)) :
    ∃ found, foundRows m engine c rows domainJson = .ok found ∧
      groupKeys m.derived.registry groupbyJson = .ok keys ∧
      (∀ r ∈ found, ∃ texts, keyTexts db keys r = .ok texts) ∧ ∀ g ∈ groups, ∀ r ∈ g.rows, r ∈ found := by
  obtain ⟨keys', hkeys, h⟩ := bind_ok_iff.mp h
  obtain ⟨found, hfound, h⟩ := bind_ok_iff.mp h
  obtain ⟨keyed, hkeyed, h⟩ := bind_ok_iff.mp h
  obtain ⟨rfl, rfl⟩ := Prod.mk.inj (pure_ok_iff.mp h)
  refine ⟨found, hfound, hkeys, ?_, ?_⟩
  · intro r hr
    obtain ⟨b, hb⟩ := exists_mapM_ok_iff.mp ⟨keyed, hkeyed⟩ r hr
    obtain ⟨texts, htexts, -⟩ := map_ok_iff.mp hb
    exact ⟨texts, htexts⟩
  · intro g hg r hr
    have hmem : g ∈ groupRows keyed := (db.arrange_perm _ _ _ _).mem_iff.mp (mem_of_pageGroups hg)
    obtain ⟨r', hr', hb⟩ := exists_of_mem_mapM hkeyed ((mem_rows_iff hmem r).mp hr)
    obtain ⟨texts, -, heq⟩ := map_ok_iff.mp hb
    rw [← (Prod.mk.inj heq).2]
    exact hr'

/-- The call that groups every row found for a domain. -/
def groupCall (model : String) (domain groupby : Json) : CallKwArgs :=
  ⟨model, "read_group", .arr [domain, .null, groupby], .obj []⟩

omit [FloatText] in
lemma pick_groupCall (model : String) (domain groupby : Json) :
    pick (groupCall model domain groupby) 0 "domain" = domain ∧
      pick (groupCall model domain groupby) 2 "groupby" = groupby := by
  constructor
  · show (match domain with
      | .null => _
      | .arr [] => _
      | a => a) = domain
    split <;> rfl
  · show (match groupby with
      | .null => _
      | .arr [] => _
      | a => a) = groupby
    split <;> rfl

/-- Where some groupby can be grouped by, each row the model finds is counted. -/
lemma counted_of_found {server : GroupServer} {s : Session} {model : String} {e : Entry}
    {domain : Json} {found : List (ℤ × Row)} (hs : s.isAuthenticated = true)
    (haccess : mayAccess model s = true) (hentry : server.entries model = some e)
    (hfound : foundRows e.model server.engine (s.caller true) e.table.rows domain = .ok found)
    (hgroupable : Groupable e.model (server.grouping e.model) found) {r : ℤ × Row}
    (hr : r ∈ found) :
    ∃ call keys groups, call.model = model ∧ call.method = "read_group" ∧
      pick call 0 "domain" = domain ∧ readGroupCall server s call = .ok (keys, groups) ∧
      ∃ g ∈ groups, r ∈ g.rows := by
  obtain ⟨groupby, keys, hkeys, htexts⟩ := hgroupable
  obtain ⟨hdomain, hby⟩ := pick_groupCall model domain groupby
  obtain ⟨keyed, hkeyed⟩ : ∃ keyed, (found.mapM fun r =>
      (keyTexts (server.grouping e.model) keys r).map fun k => (k, r)) = .ok keyed := by
    apply exists_mapM_ok_iff.mpr
    intro r hr
    obtain ⟨texts, h⟩ := htexts r hr
    exact ⟨(texts, r), map_ok_iff.mpr ⟨texts, h, rfl⟩⟩
  let fields := pick (groupCall model domain groupby) 1 "fields"
  let groups := (server.grouping e.model).arrange keys
    (measures e.model.derived.registry keys fields) "" (groupRows keyed)
  refine ⟨groupCall model domain groupby, keys, groups, rfl, rfl, hdomain, ?_, ?_⟩
  · have hpriv : isPublicMethod "read_group" = false := by decide
    refine bind_ok_iff.mpr ⟨(), (admitCall_ok_iff hpriv).mpr ⟨hs, haccess⟩, ?_⟩
    unfold handleReadGroupGeneric
    have hmodel : server.entries (groupCall model domain groupby).model = some e := hentry
    rw [hmodel]
    refine bind_ok_iff.mpr ⟨0, rfl, bind_ok_iff.mpr ⟨0, rfl, ?_⟩⟩
    rw [hdomain, hby]
    refine bind_ok_iff.mpr ⟨keys, hkeys, bind_ok_iff.mpr ⟨found, hfound, ?_⟩⟩
    exact bind_ok_iff.mpr ⟨keyed, hkeyed, rfl⟩
  · -- the groups hold every row
    have hrow : r ∈ keyed.map Prod.snd := by
      obtain ⟨b, hb, hmap⟩ := exists_mem_mapM hkeyed hr
      obtain ⟨texts, -, rfl⟩ := map_ok_iff.mp hmap
      exact mem_map.mpr ⟨_, hb, rfl⟩
    obtain ⟨g, hg, hmem⟩ := mem_flatMap.mp ((groupRows_perm keyed).mem_iff.mpr hrow)
    exact ⟨g, ((server.grouping e.model).arrange_perm _ _ _ _).mem_iff.mpr hg, hmem⟩

/-- **Grouping reveals nothing `search_read` would refuse**, for a model, a
session and a domain, exactly when the session may not call the model, or nothing
is found that could be grouped, or the view model admits the session and finds
each row the model finds. -/
theorem grouping_reveals_no_more_iff (server : GroupServer) (s : Session) (model : String)
    (domain : Json) :
    RevealsNoMore server s model domain ↔ (s.isAuthenticated = true → mayAccess model s = true →
        ∀ e found, server.entries model = some e →
          foundRows e.model server.engine (s.caller true) e.table.rows domain = .ok found →
          Groupable e.model (server.grouping e.model) found →
          ∀ r ∈ found, ViewModelFinds server.toServer s model e domain r) := by
  constructor
  · intro h hs haccess e found hentry hfound hgroupable r hr
    obtain ⟨call, keys, groups, hmodel, hmethod, hdomain, hcall, g, hg, hmem⟩ :=
      counted_of_found hs haccess hentry hfound hgroupable hr
    exact (searchReturns_iff hs haccess hentry (server.idColumn model e hentry) hfound hr).mp
      (h call keys groups hmodel hmethod hdomain hcall g hg r hmem)
  · rintro h call keys groups rfl hmethod rfl hcall g hg r hr
    have hpriv : isPublicMethod call.method = false := by
      rw [hmethod]
      decide
    obtain ⟨u, hadmit, hcall⟩ := bind_ok_iff.mp hcall
    obtain ⟨hs, haccess⟩ := (admitCall_ok_iff hpriv).mp hadmit
    unfold handleReadGroupGeneric at hcall
    rcases hentry : server.entries call.model with - | e
    · rw [hentry] at hcall
      cases hcall
    rw [hentry] at hcall
    obtain ⟨limit, -, hcall⟩ := bind_ok_iff.mp hcall
    obtain ⟨offset, -, hcall⟩ := bind_ok_iff.mp hcall
    obtain ⟨found, hfound, hkeys, htexts, hrows⟩ := found_of_counted hcall
    have hgroupable : Groupable e.model (server.grouping e.model) found :=
      ⟨_, keys, hkeys, htexts⟩
    have hmem := hrows g hg r hr
    exact (searchReturns_iff hs haccess hentry (server.idColumn _ e hentry) hfound hmem).mpr
      (h hs haccess e found hentry hfound hgroupable r hmem)

end Grant

/-! ### The users, to one who may not list them -/

/-- The users as a served model, with the columns as they are. -/
def resUsersModel : ServedModel where
  derived := {
    modelName := "res.users"
    tableName := "res_users"
    registry := {
      fields := resUsersFields
      identifiers := by decide
      nodup := by decide }
    members := id
    validate := fun _ => [] }
  schema := { accountMoveModel.schema with
    bigint := fun _ => false
    bigint_id := rfl }
  interp := ⟨fun _ _ => false, fun _ _ _ _ => .unknown⟩

/-- `AuthViewModel`, whose search hands no context on, with its statement that
creates a user. -/
def authViewModel (m : ServedModel)
    (insert : UserContext → Table Row → Values → Except String (Table Row)) : ViewModel m where
  readCheck := requireUserManager
  read := .service false id { order := .byId m, honoursOrder := false }
  createCheck := requireUserManager
  creation := .statement insert

/-- Two users of company 1. -/
def usersTable : SerialTable where
  rows := [
    (1, { companyId := some 1, cells := fun col => if col = "login" then .text "admin" else .null }),
    (2, { companyId := some 1, cells := fun col => if col = "login" then .text "sam" else .null })]
  nextId := 3
  below := by simp
  nodup := by simp
  serial := by simp

/-- A server with the users under their view model, where values without a
password create none and the groups are those of the texts in the rows. -/
def usersServer : GroupServer where
  entries model :=
    if model = "res.users" then
      some ⟨resUsersModel,
        some (authViewModel resUsersModel fun _ _ _ => .error "password is required"), usersTable⟩
    else none
  engine := none
  grouping := fun _ =>
    { keyText := fun k r =>
        match r.2.cells k.field with
        | .text t => .ok (some t)
        | _ => .ok none
      bucketEnd := fun _ t => t
      label := fun _ _ => ""
      sum := fun _ _ => .num 0
      arrange := fun _ _ _ groups => groups
      arrange_perm := fun _ _ _ groups => .refl groups }
  idColumn := by
    intro model e h
    split at h
    · rw [← Option.some.inj h]
      rfl
    · cases h

/-- `read_group` counts the users by login for an internal user whose
`search_read` on them is refused. -/
theorem users_counted :
    ¬ ∀ (text : FloatText) (server : GroupServer) (s : Session) (model : String) (domain : Json),
      s.isAuthenticated = true → @RevealsNoMore text server s model domain := by
  intro h
  let _ := Json.wholeFloatText
  have hreveals := h Json.wholeFloatText usersServer internalUser "res.users" .null (by decide)
  let call := groupCall "res.users" .null (.str "login")
  have hgroups : (readGroupCall usersServer internalUser call).toOption.map (fun p =>
      p.2.map fun g => g.rows.map Prod.fst) = some [[1], [2]] := by
    decide
  obtain ⟨⟨keys, groups⟩, hcall, heq⟩ := Option.map_eq_some_iff.mp hgroups
  obtain ⟨g, hg, hrows⟩ : ∃ g ∈ groups, g.rows.map Prod.fst = [1] :=
    mem_map.mp (heq ▸ mem_cons_self)
  obtain ⟨r, hr, -⟩ : ∃ r ∈ g.rows, r.1 = 1 :=
    mem_map.mp (hrows ▸ mem_singleton_self 1)
  obtain ⟨call', records, hmodel, hmethod, -, hread, -⟩ :=
    hreveals call keys groups rfl rfl rfl (Outcome.toOption_eq_some_iff.mp hcall) g hg r hr
  obtain ⟨-, -, e, vm, hentry, hvm, hcheck, -⟩ := (searchReadCall_ok_iff hmethod).mp hread
  rw [hmodel] at hentry
  obtain rfl := Option.some.inj hentry
  obtain rfl := Option.some.inj hvm
  have hdenied : (requireUserManager internalUser.userContext).isOk = false := by decide
  have hcheck : requireUserManager internalUser.userContext = .ok () := hcheck
  rw [hcheck] at hdenied
  cases hdenied

end CErp
