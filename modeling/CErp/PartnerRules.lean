/-
The record rules on contacts.

The view model of `res.partner` calls a service that makes the model anew for
every call and hands it no context.  The company clause falls back to the
context published for the request; the rules do not, so they are those of an
anonymous caller: no group rule applies, `user.id` is 0, and an administrator is
none.

`Reached` are the rows a call returns, counts or changes (`handle_shows`).  They
obey the rules of the session if and only if the anonymous caller's rules say as
much on the rows the session may see (`partner_rules_iff`).
-/
import CErp.RuleDomains
import CErp.ViewModels

namespace CErp

open Outcome List PrefixStack Table Json

/-! ### The model -/

def resPartnerRegistry : FieldRegistry where
  fields := [{ name := "name" }, { name := "company_name" }, { name := "email" },
    { name := "phone" },
    { name := "street" },
    { name := "city" },
    { name := "zip" },
    { name := "lang" },
    { name := "is_company", type := .boolean },
    { name := "parent_id", type := .many2one },
    { name := "company_id", type := .many2one },
    { name := "commercial_partner_id", type := .many2one },
    { name := "commercial_company_name" },
    { name := "display_name" },
    { name := "type" },
    { name := "street2" },
    { name := "country_id", type := .many2one },
    { name := "state_id", type := .many2one },
    { name := "customer_rank", type := .integer },
    { name := "vendor_rank", type := .integer },
    { name := "active", type := .boolean },
    { name := "is_contractor", type := .boolean },
    { name := "is_individual", type := .boolean },
    { name := "mobile" },
    { name := "website" },
    { name := "comment", type := .text },
    { name := "job_position" }]
  identifiers := by decide
  nodup := by decide

/-- A served model that is the one of contacts. -/
structure PartnerModel extends ServedModel where
  named : derived.modelName = "res.partner"
  registered : derived.registry = resPartnerRegistry

/-- The columns a domain on contacts may name. -/
def PartnerModel.columns (P : PartnerModel) : List String := P.derived.registry.storedColumnNames

lemma PartnerModel.active_mem (P : PartnerModel) : "active" ∈ P.columns := by
  unfold columns
  rw [P.registered]
  decide

section Service

variable [FloatText]

/-! ### The service -/

/-- `find` of a text in another. -/
def mentions (s pat : String) : Bool := s.toList.tails.any (pat.toList.isPrefixOf ·)

/-- `hideArchived_`: a domain that does not mention the flag leaves archived
contacts out. -/
def hideArchived (domain : Json) : Json :=
  if mentions (if domain.isNull then "" else domain.dump) "\"active\"" then domain
  else
    .arr ((if domain.isArray then domain.items else []) ++
      [.arr [.str "active", .str "=", .bool true]])

/-- An address field is given a value: no blank, and no `false`. -/
def givenAddress (vals : Values) (key : String) : Bool :=
  match vals.lookup key with
  | none => false
  | some .null => false
  | some (.bool b) => b
  | some (.str s) => s != ""
  | some _ => true

def givenId (vals : Values) (key : String) : Bool :=
  match vals.lookup key with
  | some (.num i) => toInt32 i > 0
  | _ => false

/-- The text of a column, empty where it is NULL. -/
def addressText (row : Row) (col : String) : String :=
  match row.cells col with
  | .text s => s
  | _ => ""

def addressId (row : Row) (col : String) : ℤ :=
  match row.cells col with
  | .int i => i
  | _ => 0

/-- The texts and ids a contact takes over from its company. -/
def inheritAddress (parent : Row) (vals : Values) : Values :=
  let texts := ["street", "street2", "city", "zip"]
  let ids := ["state_id", "country_id"]
  let withTexts := texts.foldl (fun vals key =>
    if addressText parent key != "" && !givenAddress vals key then
      vals.set key (.str (addressText parent key)) else vals) vals
  ids.foldl (fun vals key =>
    if addressId parent key > 0 && !givenId vals key then
      vals.set key (.num (addressId parent key)) else vals) withTexts

/-- `applyParentDefaults_`: under a company, the free company name is cleared and
a missing address is the company's. -/
def applyParentDefaults (t : Table Row) (vals : Values) : Values :=
  let pid := match vals.lookup "parent_id" with
    | some (.num i) => toInt32 i
    | some (.arr (.num i :: _)) => toInt32 i
    | _ => 0
  if pid ≤ 0 then vals
  else
    let named := vals.set "company_name" (.bool false)
    if ["street", "street2", "city", "zip", "state_id", "country_id"].all (givenAddress vals) then
      named
    else
      match t.get? pid with
      | none => named
      | some parent => inheritAddress parent named

/-- "label (count)", the last one after "and". -/
def blockerList : List (String × ℕ) → String
  | [] => ""
  | [(label, n)] => label ++ " (" ++ toString n ++ ")"
  | [(label, n), (label', n')] =>
      label ++ " (" ++ toString n ++ ") and " ++ label' ++ " (" ++ toString n' ++ ")"
  | (label, n) :: rest => label ++ " (" ++ toString n ++ "), " ++ blockerList rest

/-- What a call asks of the contacts. -/
inductive PartnerRequest where
  | searchRead (call : CallKwArgs)
  | searchCount (call : CallKwArgs)
  | read (ids : List ℤ) (fields : List String)
  | write (ids : List ℤ) (values : Values)
  | unlink (ids : List ℤ)

inductive PartnerReply where
  | records (recs : List Values)
  | count (n : ℕ)
  | table (t : Table Row)

/-- The operation whose rules apply. -/
def PartnerRequest.op : PartnerRequest → RuleOp
  | searchRead _ => .read
  | searchCount _ => .read
  | read _ _ => .read
  | write _ _ => .write
  | unlink _ => .unlink

variable (P : PartnerModel) (engine : Option RuleEngine) (s : Session)

/-- What a search of `PartnerViewModel` asks for where the call does not say. -/
def partnerDefaults : ReadDefaults P.toServedModel := { order := .byId _, honoursOrder := true }

/-- The handlers of `PartnerViewModel`, through the service: `dependencies` are
the documents that still use the contacts, with their numbers. -/
def PartnerRequest.handle (dependencies : List ℤ → List (String × ℕ)) (t : Table Row) :
    PartnerRequest → Except String PartnerReply
  | searchRead call =>
      (searchReadWith engine (s.caller false) t.rows (partnerDefaults P) (hideArchived call.domain)
        call).map .records
  | searchCount call =>
      (CErp.searchCount P.toServedModel engine (s.caller false) t.rows
        (hideArchived call.domain)).map .count
  | read ids fields =>
      (readByIds P.toServedModel engine (s.caller false) t.rows ids fields).map .records
  | write ids values =>
      (CErp.write P.derived P.schema.toSchema engine P.interp (s.caller false) t ids
        (applyParentDefaults t values)).map .table
  | unlink ids => do
      require (dependencies ids = [])
        ("This contact cannot be deleted — it is still used by " ++ blockerList (dependencies ids) ++
          ". Archive it instead — it will stop appearing in lists while its history stays intact.")
      (CErp.unlink P.toServedModel engine (s.caller false) t ids).map .table

/-! ### The rows a call reaches -/

/-- The rows the condition of the call's statement selects. -/
def PartnerRequest.reached (t : Table Row) : PartnerRequest → Except String (List (ℤ × Row))
  | searchRead call => foundRows P.toServedModel engine (s.caller false) t.rows
      (hideArchived call.domain)
  | searchCount call => foundRows P.toServedModel engine (s.caller false) t.rows
      (hideArchived call.domain)
  | read ids _ => addressedRows P.toServedModel engine .read (s.caller false) t.rows ids
  | write ids values => do
      let clause ← ruleClause engine P.derived .write (s.caller false)
      return t.rows.filter fun r => touched P.schema.toSchema P.interp (s.caller false) ids
        (expectedWriteDate (coerceNumericStrings P.derived.registry (applyParentDefaults t values)))
        clause r.1 r.2
  | unlink ids => addressedRows P.toServedModel engine .unlink (s.caller false) t.rows ids

/-- The row is one the call reaches. -/
def PartnerRequest.Reached (request : PartnerRequest) (t : Table Row) (r : ℤ × Row) : Prop :=
  ∃ reached, request.reached P engine s t = .ok reached ∧ r ∈ reached

/-- Every row the reply returns, counts or changes is one of them. -/
def PartnerReply.Shows (P : PartnerModel) (t : Table Row) (p : ℤ × Row → Prop) : PartnerReply → Prop
  | records recs => ∀ rec ∈ recs, ∃ r ∈ t.rows, p r ∧ ∃ cols, rec = record P.toServedModel cols r
  | count n => ∃ counted : List (ℤ × Row), counted.Sublist t.rows ∧ counted.length = n ∧
      ∀ r ∈ counted, p r
  | table t' => ∀ id row, t.get? id = some row → t'.get? id ≠ some row → p (id, row)

variable {P engine s}

variable {request : PartnerRequest}

/-- A reply shows rows the call reaches, and no others. -/
lemma handle_shows {dependencies : List ℤ → List (String × ℕ)} {t : Table Row}
    {reply : PartnerReply} (h : request.handle P engine s dependencies t = .ok reply) :
    reply.Shows P t (request.Reached P engine s t) := by
  cases request with
  | searchRead call =>
      obtain ⟨recs, hrecs, rfl⟩ := map_ok_iff.mp h
      obtain ⟨asked, -, hrecs⟩ := bind_ok_iff.mp hrecs
      obtain ⟨fields, -, hrecs⟩ := bind_ok_iff.mp hrecs
      obtain ⟨limit, -, hrecs⟩ := bind_ok_iff.mp hrecs
      obtain ⟨offset, -, hrecs⟩ := bind_ok_iff.mp hrecs
      intro rec hrec
      obtain ⟨found, hfound, r, hr, rfl⟩ := searchRead_found hrecs hrec
      exact ⟨r, foundRows_subset hfound r hr, ⟨found, hfound, hr⟩, _, rfl⟩
  | searchCount call =>
      obtain ⟨n, hn, rfl⟩ := map_ok_iff.mp h
      obtain ⟨found, hfound, rfl⟩ := map_ok_iff.mp hn
      exact ⟨found, foundRows_sublist hfound, rfl, fun r hr => ⟨found, hfound, hr⟩⟩
  | read ids fields =>
      obtain ⟨recs, hrecs, rfl⟩ := map_ok_iff.mp h
      intro rec hrec
      unfold readByIds at hrecs
      split at hrecs
      · cases hrecs
        cases hrec
      obtain ⟨addressed, haddressed, hrecs⟩ := bind_ok_iff.mp hrecs
      obtain ⟨-, -, hrecs⟩ := bind_ok_iff.mp hrecs
      obtain rfl := pure_ok_iff.mp hrecs
      obtain ⟨r, hr, rfl⟩ := mem_map.mp hrec
      have hmem : r ∈ t.rows := by
        obtain ⟨clause, -, hrows⟩ := bind_ok_iff.mp haddressed
        obtain rfl := pure_ok_iff.mp hrows
        exact mem_of_mem_filter hr
      exact ⟨r, hmem, ⟨addressed, haddressed, hr⟩, _, rfl⟩
  | write ids values =>
      obtain ⟨t', hwrite, rfl⟩ := map_ok_iff.mp h
      intro id row hrow hchanged
      obtain ⟨-, ⟨rfl, -⟩ | ⟨sets, stamped, clause, company, -, -, hclause, -, rfl⟩⟩ :=
        write_ok rfl rfl hwrite
      · exact absurd hrow hchanged
      refine ⟨_, bind_ok_iff.mpr ⟨clause, hclause, rfl⟩, mem_filter.mpr
        ⟨get?_eq_some_iff.mp hrow, ?_⟩⟩
      by_contra hnot
      apply hchanged
      rw [get?_updateWhere, hrow, Option.map_some, if_neg hnot]
  | unlink ids =>
      obtain ⟨-, -, h⟩ := bind_ok_iff.mp h
      obtain ⟨t', hunlink, rfl⟩ := map_ok_iff.mp h
      intro id row hrow hchanged
      unfold CErp.unlink at hunlink
      split at hunlink
      · obtain rfl := pure_ok_iff.mp hunlink
        exact absurd hrow hchanged
      obtain ⟨clause, hclause, hunlink⟩ := bind_ok_iff.mp hunlink
      obtain ⟨-, -, hunlink⟩ := bind_ok_iff.mp hunlink
      obtain rfl := pure_ok_iff.mp hunlink
      refine ⟨_, bind_ok_iff.mpr ⟨clause, hclause, rfl⟩, mem_filter.mpr
        ⟨get?_eq_some_iff.mp hrow, ?_⟩⟩
      by_contra hnot
      apply hchanged
      rw [get?_delete, hrow, Option.filter_some, Bool.eq_false_of_not_eq_true hnot]
      rfl

/-! ### What the condition of a statement says -/

/-- The empty domain is satisfied by all. -/
lemma satisfies_empty (allowed : Option (List String)) {α : Type*} (I : Sql.Interp α) (row : α) :
    ({} : Domain).Satisfies allowed I row :=
  (satisfies_domainOfStack allowed I row []).mpr (forall_mem_nil _)

omit [FloatText] in
lemma domainFromJson_of_isEmpty {j : Json} (h : j.isEmpty = true) : domainFromJson j = .ok {} := by
  cases j with
  | arr items =>
      obtain rfl : items = [] := List.isEmpty_iff.mp h
      rfl
  | _ => rfl

variable {clause : Option (Sql.Cond × List String)}

/-- A rule clause selects the rows that satisfy the domain of the rules. -/
lemma ruleClause_ok {engine : RuleEngine} {D : Derived} {op : RuleOp} {c : Caller}
    (h : ruleClause (some engine) D op c = .ok clause) :
    ∃ dom, domainFromJson (engine.buildRuleDomain D.modelName op c.ctx) = .ok dom ∧
      ∀ (I : Sql.Interp (ℤ × Row)) r, passes I clause r = true ↔ dom.Satisfies none I r := by
  dsimp only [ruleClause] at h
  split at h
  · next hempty =>
      cases h
      refine ⟨{}, domainFromJson_of_isEmpty hempty, ?_⟩
      exact fun I r => iff_of_true rfl (satisfies_empty none I r)
  · rcases hdom : domainFromJson (engine.buildRuleDomain D.modelName op c.ctx) with e | dom
    · rw [hdom] at h
      cases h
    · rw [hdom] at h
      obtain ⟨⟨cond, params⟩, hcond, rfl⟩ := map_ok_iff.mp h
      refine ⟨dom, rfl, ?_⟩
      intro I r
      rw [dom.satisfies_of_toCond none I r hcond]
      exact beq_iff_eq

lemma ruleClause_of_compiles {engine : RuleEngine} {D : Derived} {op : RuleOp} {c : Caller}
    {dom : Domain} (hdom : domainFromJson (engine.buildRuleDomain D.modelName op c.ctx) = .ok dom)
    (h : dom.root.compiles none = true) : ∃ clause, ruleClause (some engine) D op c = .ok clause := by
  dsimp only [ruleClause]
  split
  · exact ⟨none, rfl⟩
  · rw [hdom]
    obtain ⟨cond, params, hcond⟩ := (dom.toCond_isOk none).mpr h
    exact ⟨some (cond, params), map_ok_iff.mpr ⟨_, hcond, rfl⟩⟩

/-! ### The law and its condition -/

/-- The domain of the rules that apply to the session. -/
def sessionRules (engine : RuleEngine) (op : RuleOp) (s : Session) : Json :=
  engine.buildRuleDomain "res.partner" op s.userContext

/-- The domain of the rules that apply to nobody in particular. -/
def anonymousRules (engine : RuleEngine) (op : RuleOp) : Json :=
  engine.buildRuleDomain "res.partner" op {}

/-- The rows a call reaches satisfy the rules of the session, and for an
administrator the rules take away no row. -/
def ObeysRules (P : PartnerModel) (engine : RuleEngine) (s : Session) (request : PartnerRequest)
    (t : Table Row) : Prop :=
  (∀ reached, request.reached P (some engine) s t = .ok reached →
    ∀ r ∈ reached, SatisfiedBy P.interp r (sessionRules engine request.op s)) ∧
  (s.isAdmin = true → ∀ free, request.reached P none s t = .ok free →
    request.reached P (some engine) s t = .ok free)

/-- The domain of a search, archived contacts left out, is an array and parses
on its own. -/
def PartnerRequest.SelfContained : PartnerRequest → Prop
  | searchRead call => ∃ items own, hideArchived call.domain = .arr items ∧
      domainFromJson (.arr items) = .ok own
  | searchCount call => ∃ items own, hideArchived call.domain = .arr items ∧
      domainFromJson (.arr items) = .ok own
  | _ => True

/-- The row is one the session's company may see. -/
def SeenBy (P : PartnerModel) (s : Session) (r : ℤ × Row) : Prop :=
  companyVisible P.schema.toSchema (s.caller false) r.2 = true

/-- The anonymous rules leave every row the session may see, on their own and,
for a search, after the items of a caller's domain. -/
structure Transparent (P : PartnerModel) (engine : RuleEngine) (s : Session) (op : RuleOp) : Prop where
  own : ∃ dom, domainFromJson (anonymousRules engine op) = .ok dom ∧
    ∀ r, SeenBy P s r → dom.Satisfies none P.interp r
  appended : op = .read → ∃ base, domainSignature.run (anonymousRules engine op).items = .ok base ∧
    ∀ r, SeenBy P s r → (domainOfStack base).Satisfies (some P.columns) P.interp r

/-- The anonymous rules say as much as the session's. -/
structure AnonymousAgrees (P : PartnerModel) (engine : RuleEngine) (s : Session) (op : RuleOp) :
    Prop where
  narrow : ∀ dom, domainFromJson (anonymousRules engine op) = .ok dom → ∀ r, SeenBy P s r →
    dom.Satisfies none P.interp r → SatisfiedBy P.interp r (sessionRules engine op s)
  administrator : s.isAdmin = true → Transparent P engine s op

variable {engine : RuleEngine}

omit [FloatText] in
lemma anonymousRules_eq (op : RuleOp) :
    engine.buildRuleDomain P.derived.modelName op (s.caller false).ctx = anonymousRules engine op := by
  rw [P.named]
  rfl

/-! ### The condition is enough -/

variable {items : List Json} {r : ℤ × Row} {rows : List (ℤ × Row)}

/-- A row found by a search that parses on its own satisfies the anonymous
rules. -/
lemma anonymous_of_found {own : Domain} (hown : domainFromJson (.arr items) = .ok own)
    {found : List (ℤ × Row)}
    (h : foundRows P.toServedModel (some engine) (s.caller false) rows (.arr items) = .ok found)
    (hr : r ∈ found) :
    SeenBy P s r ∧ ∃ dom, domainFromJson (anonymousRules engine .read) = .ok dom ∧
      dom.Satisfies none P.interp r := by
  obtain ⟨merged, dom, hmerged, hdom, -, p, rfl, hp⟩ := foundRows_ok h
  obtain ⟨hsat, hseen⟩ := (hp r).mp (mem_filter.mp hr).2
  refine ⟨hseen, ?_⟩
  rcases hanon : anonymousRules engine .read with - | - | - | - | - | rules | -
  case arr =>
    have hbuild := (anonymousRules_eq (P := P) (s := s) .read).trans hanon
    rw [mergeRuleDomain_arr hbuild] at hmerged
    obtain rfl := Except.ok.inj hmerged
    by_cases hnil : rules = []
    · subst hnil
      exact ⟨{}, rfl, satisfies_empty none P.interp r⟩
    · have hne : items ++ rules ≠ [] := fun h => hnil (append_eq_nil_iff.mp h).2
      obtain ⟨stack, hstack, rfl⟩ := domainFromJson_ok hne hdom
      obtain ⟨base, stack', hbase, hstack', pre, rfl⟩ := (ruleIntact_iff hstack).mpr ⟨own, hown⟩
      obtain rfl := Except.ok.inj (hstack.symm.trans hstack')
      refine ⟨domainOfStack base, ?_, ?_⟩
      · rcases rules with - | ⟨rule, rules⟩
        · exact absurd rfl hnil
        · rw [domainFromJson, hbase]
          rfl
      · apply Domain.satisfies_none
        rw [satisfies_domainOfStack] at hsat ⊢
        exact fun n hn => hsat n (mem_append_right pre hn)
  -- what is no array has the empty domain
  all_goals exact ⟨{}, rfl, satisfies_empty none P.interp r⟩

omit [FloatText] in
/-- A shared contact is seen in every company. -/
lemma seenBy_shared (id : ℤ) (cells : String → SqlValue) : SeenBy P s (id, ⟨none, cells⟩) := by
  unfold SeenBy companyVisible
  split
  · split <;> rfl
  · rfl

omit [FloatText] in
/-- The rules after the items of a caller's domain, on the stack. -/
lemma merged_parses {stack base : List DomainNode}
    (hstack : domainSignature.run items = .ok stack)
    (hbase : domainSignature.run (anonymousRules engine .read).items = .ok base) :
    ∃ merged, mergeRuleDomain (some engine) P.derived.modelName (s.caller false).ctx (.arr items)
        .read = .ok merged ∧ domainFromJson merged = .ok (domainOfStack (stack ++ base)) := by
  unfold mergeRuleDomain
  dsimp only
  rw [anonymousRules_eq]
  have hrun : domainSignature.run (items ++ (anonymousRules engine .read).items) =
      .ok (stack ++ base) := by
    rw [Signature.run] at hbase
    rw [Signature.run, runOn_append, hbase]
    exact runOn_of_run hstack base
  have hparses : domainFromJson (.arr (items ++ (anonymousRules engine .read).items)) =
      .ok (domainOfStack (stack ++ base)) := by
    have hprogram : programOf (.arr (items ++ (anonymousRules engine .read).items)) =
        items ++ (anonymousRules engine .read).items := rfl
    rw [domainFromJson_eq, hprogram, hrun]
    rfl
  split
  · next hempty =>
      rw [items_of_isEmpty hempty, append_nil] at hparses
      exact ⟨.arr items, rfl, hparses⟩
  · exact ⟨_, foldlM_pushBack_arr items _, hparses⟩

/-- For an administrator whom the anonymous rules leave everything, a search
finds what it would find without rules. -/
lemma found_of_transparent {own : Domain} (hown : domainFromJson (.arr items) = .ok own)
    (h : Transparent P engine s .read) {free : List (ℤ × Row)}
    (hfree : foundRows P.toServedModel none (s.caller false) rows (.arr items) = .ok free) :
    foundRows P.toServedModel (some engine) (s.caller false) rows (.arr items) = .ok free := by
  obtain ⟨base, hbase, hall⟩ := h.appended rfl
  obtain ⟨merged, dom, hmerged, hdom, hcompiles, p, rfl, hp⟩ := foundRows_ok hfree
  obtain rfl := Except.ok.inj hmerged
  obtain ⟨stack, hstack⟩ := (domainFromJson_isOk_iff items).mp ⟨own, hown⟩
  have hdom_eq : dom = domainOfStack stack := by
    have hprogram := domainFromJson_eq (.arr items)
    rw [hdom, show programOf (.arr items) = items from rfl, hstack] at hprogram
    exact Except.ok.inj hprogram
  subst hdom_eq
  obtain ⟨merged, hmerge, hparse⟩ := merged_parses (P := P) (s := s) hstack hbase
  -- what the rules append is satisfied by every row that is seen
  have hnodes : ∀ r, SeenBy P s r → ∀ n ∈ base,
      n.compiles (some P.columns) = true ∧ n.truth P.interp "" r = .true :=
    fun r hr => (satisfies_domainOfStack _ _ _ _).mp (hall r hr)
  have hboth : (domainOfStack (stack ++ base)).root.compiles (some P.columns) = true := by
    rw [compiles_domainOfStack] at hcompiles ⊢
    intro n hn
    rcases mem_append.mp hn with hs | hb
    · exact hcompiles n hs
    · exact (hnodes (1, ⟨none, fun _ => .null⟩) (seenBy_shared 1 _) n hb).1
  obtain ⟨found, hfound⟩ := foundRows_of_compiles hmerge hparse hboth rows
  rw [hfound]
  obtain ⟨merged', dom', hmerge', hdom', -, q, rfl, hq⟩ := foundRows_ok hfound
  obtain rfl := Except.ok.inj (hmerge.symm.trans hmerge')
  obtain rfl := Except.ok.inj (hparse.symm.trans hdom')
  congr 1
  apply filter_congr
  intro r _
  rw [Bool.eq_iff_iff, hp, hq]
  apply and_congr_left
  intro hseen
  rw [satisfies_domainOfStack, satisfies_domainOfStack, forall_mem_append]
  exact and_iff_left (hnodes r hseen)

lemma addressed_eq {m : ServedModel} {engine : Option RuleEngine} {op : RuleOp} {c : Caller}
    {found : List (ℤ × Row)} {ids : List ℤ}
    (hclause : ruleClause engine m.derived op c = .ok clause)
    (h : addressedRows m engine op c rows ids = .ok found) :
    found = rows.filter fun r =>
      ids.contains r.1 && passes m.interp clause r && companyVisible m.schema.toSchema c r.2 := by
  obtain ⟨clause', hclause', hfound⟩ := bind_ok_iff.mp h
  obtain rfl := Except.ok.inj (hclause.symm.trans hclause')
  exact (pure_ok_iff.mp hfound).symm

/-- A row a call reaches is seen and satisfies the anonymous rules. -/
lemma anonymous_of_reached (hself : request.SelfContained) {t : Table Row}
    {reached : List (ℤ × Row)} (h : request.reached P (some engine) s t = .ok reached)
    (hr : r ∈ reached) :
    SeenBy P s r ∧ ∃ dom, domainFromJson (anonymousRules engine request.op) = .ok dom ∧
      dom.Satisfies none P.interp r := by
  have haddressed : ∀ op ids,
      addressedRows P.toServedModel (some engine) op (s.caller false) t.rows ids = .ok reached →
      SeenBy P s r ∧ ∃ dom, domainFromJson (anonymousRules engine op) = .ok dom ∧
        dom.Satisfies none P.interp r := by
    intro op ids h
    obtain ⟨clause, hclause, hfound⟩ := bind_ok_iff.mp h
    obtain rfl := pure_ok_iff.mp hfound
    have hcond := (mem_filter.mp hr).2
    rw [Bool.and_eq_true_iff, Bool.and_eq_true_iff] at hcond
    obtain ⟨dom, hdom, hpasses⟩ := ruleClause_ok hclause
    rw [anonymousRules_eq] at hdom
    exact ⟨hcond.2, dom, hdom, (hpasses _ _).mp hcond.1.2⟩
  cases request with
  | searchRead call =>
      obtain ⟨items, own, hitems, hown⟩ := hself
      have hfound : foundRows _ _ _ _ (hideArchived call.domain) = .ok reached := h
      rw [hitems] at hfound
      exact anonymous_of_found hown hfound hr
  | searchCount call =>
      obtain ⟨items, own, hitems, hown⟩ := hself
      have hfound : foundRows _ _ _ _ (hideArchived call.domain) = .ok reached := h
      rw [hitems] at hfound
      exact anonymous_of_found hown hfound hr
  | read ids fields => exact haddressed .read ids h
  | unlink ids => exact haddressed .unlink ids h
  | write ids values =>
      obtain ⟨clause, hclause, hfound⟩ := bind_ok_iff.mp h
      obtain rfl := pure_ok_iff.mp hfound
      have hcond := (mem_filter.mp hr).2
      unfold touched at hcond
      rw [Bool.and_eq_true_iff, Bool.and_eq_true_iff] at hcond
      obtain ⟨dom, hdom, hpasses⟩ := ruleClause_ok hclause
      rw [anonymousRules_eq] at hdom
      exact ⟨hcond.2, dom, hdom, (hpasses _ _).mp hcond.1.2⟩

/-- For an administrator whom the anonymous rules leave everything, the condition
on ids selects what it would select without rules. -/
lemma passes_of_transparent {op : RuleOp} (h : Transparent P engine s op) :
    ∃ clause, ruleClause (some engine) P.derived op (s.caller false) = .ok clause ∧
      ∀ r, SeenBy P s r → passes P.interp clause r = true := by
  obtain ⟨dom, hdom, hall⟩ := h.own
  have hcompiles := ((satisfies_iff _ _ _ _).mp (hall (1, ⟨none, fun _ => .null⟩)
    (seenBy_shared 1 _))).1
  rw [← anonymousRules_eq (P := P) (s := s)] at hdom
  obtain ⟨clause, hclause⟩ := ruleClause_of_compiles hdom hcompiles
  obtain ⟨dom', hdom', hpasses⟩ := ruleClause_ok hclause
  obtain rfl := Except.ok.inj (hdom.symm.trans hdom')
  exact ⟨clause, hclause, fun r hr => (hpasses _ _).mpr (hall r hr)⟩

lemma reached_of_transparent (hself : request.SelfContained)
    (h : Transparent P engine s request.op) {t : Table Row} {free : List (ℤ × Row)}
    (hfree : request.reached P none s t = .ok free) :
    request.reached P (some engine) s t = .ok free := by
  have haddressed : ∀ op ids, Transparent P engine s op →
      addressedRows P.toServedModel none op (s.caller false) t.rows ids = .ok free →
      addressedRows P.toServedModel (some engine) op (s.caller false) t.rows ids = .ok free := by
    intro op ids h hfree
    obtain ⟨clause, hclause, hall⟩ := passes_of_transparent h
    obtain rfl := addressed_eq rfl hfree
    refine bind_ok_iff.mpr ⟨clause, hclause, pure_ok_iff.mpr (filter_congr ?_)⟩
    intro r _
    rw [Bool.eq_iff_iff]
    simp only [Bool.and_eq_true_iff]
    apply and_congr_left
    intro hseen
    exact and_congr_right fun _ => iff_of_true (hall r hseen) rfl
  cases request with
  | searchRead call =>
      obtain ⟨items, own, hitems, hown⟩ := hself
      have hfound : foundRows _ _ _ _ (hideArchived call.domain) = .ok free := hfree
      show foundRows _ _ _ _ (hideArchived call.domain) = .ok free
      rw [hitems] at hfound ⊢
      exact found_of_transparent hown h hfound
  | searchCount call =>
      obtain ⟨items, own, hitems, hown⟩ := hself
      have hfound : foundRows _ _ _ _ (hideArchived call.domain) = .ok free := hfree
      show foundRows _ _ _ _ (hideArchived call.domain) = .ok free
      rw [hitems] at hfound ⊢
      exact found_of_transparent hown h hfound
  | read ids fields => exact haddressed .read ids h hfree
  | unlink ids => exact haddressed .unlink ids h hfree
  | write ids values =>
      obtain ⟨clause, hclause, hall⟩ := passes_of_transparent h
      obtain ⟨none', hnone, hfound⟩ := bind_ok_iff.mp hfree
      obtain rfl := Except.ok.inj hnone
      obtain rfl := pure_ok_iff.mp hfound
      refine bind_ok_iff.mpr ⟨clause, hclause, pure_ok_iff.mpr (filter_congr ?_)⟩
      intro r _
      unfold touched
      rw [Bool.eq_iff_iff]
      simp only [Bool.and_eq_true_iff]
      apply and_congr_left
      intro hseen
      exact and_congr_right fun _ => iff_of_true (hall r hseen) rfl

/-- The condition is enough. -/
lemma obeysRules_of_agrees (h : ∀ op, op ≠ .create → AnonymousAgrees P engine s op)
    (hself : request.SelfContained) (t : Table Row) : ObeysRules P engine s request t := by
  have hop : request.op ≠ .create := by
    cases request <;> simp [PartnerRequest.op]
  constructor
  · intro reached hreached r hr
    obtain ⟨hseen, dom, hdom, hsat⟩ := anonymous_of_reached hself hreached hr
    exact (h request.op hop).narrow dom hdom r hseen hsat
  · intro hadmin free hfree
    exact reached_of_transparent hself ((h request.op hop).administrator hadmin) hfree

/-! ### The condition is needed -/

omit [FloatText] in
/-- A table of one row. -/
def oneRow (r : ℤ × Row) : Table Row where
  rows := [r]
  nextId := r.1 + 1
  below := by
    intro r' hr'
    rw [mem_singleton.mp hr']
    omega
  nodup := nodup_singleton _

omit [FloatText] in
/-- A request of each operation for one contact. -/
def requestFor (id : ℤ) : RuleOp → PartnerRequest
  | .write => .write [id] []
  | .unlink => .unlink [id]
  | _ => .read [id] []

lemma reached_one {engine : Option RuleEngine} {op : RuleOp} (hop : op ≠ .create)
    (hseen : SeenBy P s r)
    (hclause : ruleClause engine P.derived op (s.caller false) = .ok clause) :
    (requestFor r.1 op).reached P engine s (oneRow r) =
      .ok ([r].filter fun r => passes P.interp clause r) := by
  cases op with
  | create => exact absurd rfl hop
  | read =>
      refine bind_ok_iff.mpr ⟨clause, hclause, pure_ok_iff.mpr (filter_congr ?_)⟩
      intro r' hr'
      rw [mem_singleton.mp hr', hseen]
      simp
  | unlink =>
      refine bind_ok_iff.mpr ⟨clause, hclause, pure_ok_iff.mpr (filter_congr ?_)⟩
      intro r' hr'
      rw [mem_singleton.mp hr', hseen]
      simp
  | write =>
      refine bind_ok_iff.mpr ⟨clause, hclause, pure_ok_iff.mpr (filter_congr ?_)⟩
      intro r' hr'
      have hdate : expectedWriteDate (coerceNumericStrings P.derived.registry
          (applyParentDefaults (oneRow r) [])) = "" := rfl
      rw [mem_singleton.mp hr', touched, hdate, hseen]
      simp

lemma selfContained_requestFor (id : ℤ) (op : RuleOp) : (requestFor id op).SelfContained := by
  cases op <;> trivial

omit [FloatText] in
lemma op_requestFor (id : ℤ) {op : RuleOp} (h : op ≠ .create) : (requestFor id op).op = op := by
  cases op <;> first | rfl | exact absurd rfl h

/-- A search for every contact, archived or not. -/
def everyContact : CallKwArgs :=
  ⟨"res.partner", "search_count",
    .arr [.arr [.arr [.str "active", .str "not in", .arr []]]], .obj []⟩

lemma hideArchived_everyContact :
    hideArchived everyContact.domain = .arr [.arr [.str "active", .str "not in", .arr []]] := by
  have hnull : everyContact.domain.isNull = false := rfl
  have hdump : everyContact.domain.dump = "[[\"active\",\"not in\",[]]]" := by
    rfl
  have hmentions : mentions "[[\"active\",\"not in\",[]]]" "\"active\"" = true := by decide
  unfold hideArchived
  simp only [hnull, Bool.false_eq_true, if_false, hdump, hmentions, if_true]
  rfl

/-- The leaf that every row satisfies. -/
lemma everyLeaf_satisfied (r : ℤ × Row) :
    (⟨.leaf ⟨"active", "not in", .arr []⟩⟩ : Domain).Satisfies (some P.columns) P.interp r := by
  rw [satisfies_iff]
  refine ⟨?_, rfl⟩
  have hcolumn : sanitizeColumn "active" (some P.columns) = .ok "active" := by
    unfold sanitizeColumn
    rw [if_pos (by decide)]
    exact if_pos P.active_mem
  show ((sanitizeColumn "active" (some P.columns)).isOk && supportedOp "not in") = true
  rw [hcolumn]
  rfl

/-- What the anonymous rules leave of a seen row after a caller's domain. -/
lemma appended_at (h : ∀ request, request.SelfContained → ∀ t, ObeysRules P engine s request t)
    (hadmin : s.isAdmin = true) (hseen : SeenBy P s r) :
    ∃ base, domainSignature.run (anonymousRules engine .read).items = .ok base ∧
      (domainOfStack base).Satisfies (some P.columns) P.interp r := by
  let leaf : Json := .arr [.str "active", .str "not in", .arr []]
  have hparse : domainFromJson (.arr [leaf]) = .ok ⟨.leaf ⟨"active", "not in", .arr []⟩⟩ := rfl
  have hself : (PartnerRequest.searchCount everyContact).SelfContained :=
    ⟨[leaf], _, hideArchived_everyContact, hparse⟩
  -- without rules the search finds the row
  have hcompiles := ((satisfies_iff _ _ _ _).mp (everyLeaf_satisfied (P := P) r)).1
  have hmerged : mergeRuleDomain none P.toServedModel.derived.modelName (s.caller false).ctx
      (.arr [leaf]) .read = .ok (.arr [leaf]) := rfl
  obtain ⟨free, hfree⟩ := foundRows_of_compiles hmerged hparse hcompiles [r]
  have hr : r ∈ free := by
    obtain ⟨merged, dom, hmerged, hdom, -, p, rfl, hp⟩ := foundRows_ok hfree
    obtain rfl := Except.ok.inj hmerged
    obtain rfl := Except.ok.inj (hparse.symm.trans hdom)
    exact mem_filter.mpr ⟨mem_singleton.mpr rfl, (hp r).mpr ⟨everyLeaf_satisfied r, hseen⟩⟩
  have hreached : (PartnerRequest.searchCount everyContact).reached P none s (oneRow r) = .ok free := by
    show foundRows _ _ _ _ (hideArchived everyContact.domain) = _
    rw [hideArchived_everyContact]
    exact hfree
  have hruled : foundRows P.toServedModel (some engine) (s.caller false) [r] (.arr [leaf]) =
      .ok free := by
    have := (h _ hself (oneRow r)).2 hadmin free hreached
    rw [← hideArchived_everyContact]
    exact this
  obtain ⟨merged, dom, hmerged, hdom, -, p, rfl, hp⟩ := foundRows_ok hruled
  have hsat := ((hp r).mp (mem_filter.mp hr).2).1
  unfold mergeRuleDomain at hmerged
  dsimp only at hmerged
  rw [anonymousRules_eq] at hmerged
  split at hmerged
  · next hempty =>
      rw [items_of_isEmpty hempty]
      exact ⟨[], rfl, satisfies_empty _ P.interp r⟩
  rw [foldlM_pushBack_arr] at hmerged
  obtain rfl := Except.ok.inj hmerged
  obtain ⟨stack, hstack, rfl⟩ := domainFromJson_ok (cons_ne_nil _ _) hdom
  obtain ⟨base, stack', hbase, hstack', pre, rfl⟩ := (ruleIntact_iff hstack).mpr ⟨_, hparse⟩
  obtain rfl := Except.ok.inj (hstack.symm.trans hstack')
  refine ⟨base, (parseItems_eq_run _).symm.trans hbase, ?_⟩
  rw [satisfies_domainOfStack] at hsat ⊢
  exact fun n hn => hsat n (mem_append_right pre hn)

/-- The condition is needed. -/
lemma agrees_of_obeysRules
    (h : ∀ request, request.SelfContained → ∀ t, ObeysRules P engine s request t) {op : RuleOp}
    (hop : op ≠ .create) : AnonymousAgrees P engine s op := by
  have hlaw : ∀ r : ℤ × Row, ObeysRules P engine s (requestFor r.1 op) (oneRow r) :=
    fun r => h _ (selfContained_requestFor r.1 op) (oneRow r)
  constructor
  · intro dom hdom r hseen hsat
    rw [← anonymousRules_eq (P := P) (s := s)] at hdom
    obtain ⟨clause, hclause⟩ := ruleClause_of_compiles hdom ((satisfies_iff _ _ _ _).mp hsat).1
    obtain ⟨dom', hdom', hpasses⟩ := ruleClause_ok hclause
    obtain rfl := Except.ok.inj (hdom.symm.trans hdom')
    have hreached := reached_one hop hseen hclause
    rw [filter_cons_of_pos ((hpasses _ _).mpr hsat)] at hreached
    have hobeys := (hlaw r).1 _ hreached r mem_cons_self
    rw [op_requestFor r.1 hop] at hobeys
    exact hobeys
  · intro hadmin
    have hown : ∀ r, SeenBy P s r → ∃ dom, domainFromJson (anonymousRules engine op) = .ok dom ∧
        dom.Satisfies none P.interp r := by
      intro r hseen
      have hall : ruleClause none P.derived op (s.caller false) = .ok none := rfl
      have hfree := reached_one hop hseen hall
      have hruled := (hlaw r).2 hadmin _ hfree
      have hanon := (anonymous_of_reached (selfContained_requestFor r.1 op) hruled
        (mem_singleton.mpr rfl)).2
      rw [op_requestFor r.1 hop] at hanon
      exact hanon
    let shared : ℤ × Row := (1, ⟨none, fun _ => .null⟩)
    constructor
    · obtain ⟨dom, hdom, -⟩ := hown shared (seenBy_shared 1 _)
      refine ⟨dom, hdom, ?_⟩
      intro r hseen
      obtain ⟨dom', hdom', hsat⟩ := hown r hseen
      obtain rfl := Except.ok.inj (hdom.symm.trans hdom')
      exact hsat
    · rintro rfl
      obtain ⟨base, hbase, -⟩ := appended_at h hadmin (seenBy_shared (P := P) (s := s) 1 fun _ => .null)
      refine ⟨base, hbase, ?_⟩
      intro r hseen
      obtain ⟨base', hbase', hsat⟩ := appended_at h hadmin hseen
      obtain rfl := Except.ok.inj (hbase.symm.trans hbase')
      exact hsat

/-- **Record rules on contacts.**  Every reply shows rows its call reaches.  The
rows that calls with domains of their own reach obey the rules of the session
exactly when the rules of an anonymous caller say as much on the rows the
session may see, and leave an administrator all of these. -/
theorem partner_rules_iff (P : PartnerModel) (engine : RuleEngine) (s : Session) :
    (∀ (dependencies : List ℤ → List (String × ℕ)) (t : Table Row) (request : PartnerRequest)
      (reply : PartnerReply), request.handle P (some engine) s dependencies t = .ok reply →
      reply.Shows P t (request.Reached P (some engine) s t)) ∧
    ((∀ request : PartnerRequest, request.SelfContained → ∀ t, ObeysRules P engine s request t) ↔
      ∀ op, op ≠ .create → AnonymousAgrees P engine s op) := by
  refine ⟨fun _ _ _ _ h => handle_shows h, ?_⟩
  constructor
  · exact fun h op hop => agrees_of_obeysRules h hop
  · exact fun h request hself t => obeysRules_of_agrees h hself t

end Service

/-! ### A rule of one's own contact -/

/-- Internal users may only see their own contact. -/
def ownContact : RuleEngine where
  loadRules _ := [{
    domainForce := .arr [.arr [.str "id", .str "=", .str "user.partner_id"]]
    permRead := true, permWrite := true, permCreate := true, permUnlink := true
    globalRule := false, active := true, groupIds := [2] }]

/-- The contacts, with ids that compare as numbers and flags that are set. -/
def contacts : PartnerModel where
  derived := {
    modelName := "res.partner"
    tableName := "res_partner"
    registry := resPartnerRegistry
    members := id
    validate := fun _ => [] }
  schema := {
    hasCompanyColumn := true
    integerInput := fun
      | .int i => .ok (some i)
      | .null => .ok none
      | _ => .ok none
    integerInput_null := rfl
    integerInput_int := fun _ _ => rfl
    companyDefault := none
    constraints := fun _ => .ok ()
    sameTimestamp := fun _ _ => true
    now := .null
    hasColumn := fun _ => true
    bigint := fun _ => false
    bigint_id := rfl
    orderBy := fun _ rows => .ok rows
    orderBy_perm := by
      rintro _ rows _ ⟨⟩
      exact Perm.refl rows
    orderBy_id := fun rows => ⟨rows, rfl⟩ }
  interp := {
    isNull := fun _ _ => false
    compare := fun col _ v r =>
      if col = "id" then Sql.Truth.ofBool (Text.stoi v == some r.1) else .true }
  named := rfl
  registered := rfl

/-- A user whose contact is number 3 counts the contacts, and number 1 among them. -/
theorem others_counted : ¬ ∀ (_ : FloatText) (P : PartnerModel) (engine : RuleEngine) (s : Session)
      (request : PartnerRequest) (t : Table Row), ObeysRules P engine s request t := by
  intro h
  let _ := wholeFloatText
  let s : Session := { uid := 5, partnerId := 3, groupIds := [2] }
  let t : Table Row := oneRow (1, ⟨none, fun _ => .null⟩)
  let count : PartnerRequest := .searchCount ⟨"res.partner", "search_count", .arr [], .obj []⟩
  have hreached : (count.reached contacts (some ownContact) s t).toOption.map List.length =
      some 1 := by
    decide
  obtain ⟨reached, hok, hlength⟩ := Option.map_eq_some_iff.mp hreached
  rw [toOption_eq_some_iff] at hok
  obtain ⟨r, hr⟩ := exists_mem_of_length_pos (hlength ▸ Nat.one_pos)
  have hrow : r = (1, ⟨none, fun _ => .null⟩) := by
    have hfound : foundRows _ _ _ _ _ = .ok reached := hok
    exact mem_singleton.mp (foundRows_subset hfound r hr)
  obtain ⟨dom, hdom, hholds⟩ := (h wholeFloatText contacts ownContact s count t).1 reached hok r hr
  obtain rfl := Except.ok.inj hdom
  subst hrow
  -- contact 1 is not the user's own
  unfold Domain.Holds DomainNode.Holds at hholds
  exact absurd hholds (by decide)

end CErp
