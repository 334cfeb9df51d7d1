/-
The partner hierarchy: `res_partner` with the triggers that keep its derived
columns.

A BEFORE trigger computes the columns of the row that is written, in the order
of the triggers' names; it reads the table as the statement has left it so far.
The AFTER triggers of a statement are fired when it is done, row by row and in
the order of their names, and each statement one of them runs has its own.  The
actions of the foreign keys are the exception: their rows wait until both keys
have had their turn.

What the server decides is a parameter: `scan` is the order in which a statement
visits the rows it selects, `nest` how deep triggers may nest before the
statement fails, and `parentFirst` which of the two keys acts first.  The guard
against cycles is another module's trigger; here it is the runs that keep the
hierarchy free of them.
-/
import CErp.Cascades
import CErp.Table
import Mathlib.Data.List.DropRight

namespace CErp

/-- A row of `res_partner`: the customer's company is `parentId`, the tenant
that owns the row `companyId`. -/
structure ResPartner where
  name : String
  parentId : Option ℤ := none
  isCompany : Bool := false
  companyName : Option String := none
  companyId : Option ℤ := none
  commercialPartnerId : Option ℤ := none
  commercialCompanyName : Option String := none
  displayName : String := ""
deriving DecidableEq

namespace ResPartner

/-! ### Functions of the table -/

/-- The walk of `res_partner_commercial_of`, with so many steps left after the
next. -/
def climb (t : Table ResPartner) (left : ℕ) (cur : ℤ) : Option ℤ :=
  match t.get? cur with
  | none => none
  | some p =>
      if p.isCompany then some cur
      else
        match p.parentId, left with
        | none, _ => some cur
        -- a corrupt row degrades to a wrong answer, not a hang
        | some par, 0 => some par
        | some par, left + 1 => climb t left par

/-- `res_partner_commercial_of`. -/
def commercialOf (t : Table ResPartner) (id : ℤ) : Option ℤ := climb t 64 id

/-- The name of a company, and the row's own text under anything else. -/
def companyNameUnder (t : Table ResPartner) (cp : Option ℤ) (own : Option String) : Option String :=
  match cp.bind t.get? with
  | some q => if q.isCompany then some q.name else own
  | none => own

/-- `res_partner_commercial_name_of`. -/
def commercialNameOf (t : Table ResPartner) (id : ℤ) : Option String :=
  (t.get? id).bind fun p => companyNameUnder t p.commercialPartnerId p.companyName

def btrim (s : String) : String :=
  String.ofList ((s.toList.dropWhile (· = ' ')).rdropWhile (· = ' '))

/-- `res_partner_display_name_join`: name, or "name, company". -/
def displayNameJoin (name : String) (company : Option String) : String :=
  match company with
  | none => name
  | some c =>
      if btrim c = "" then name
      else if btrim c = btrim name then name
      else name ++ ", " ++ btrim c

/-- The display name a row has by its own columns. -/
def shownAs (p : ResPartner) : String :=
  if p.isCompany then p.name else displayNameJoin p.name p.commercialCompanyName

/-- `res_partner_display_name_of`. -/
def displayNameOf (t : Table ResPartner) (id : ℤ) : Option String := (t.get? id).map shownAs

/-! ### BEFORE triggers -/

/-- The columns a statement names, as far as triggers ask for them. -/
structure Named where
  parentId : Bool := false
  isCompany : Bool := false
  companyId : Bool := false

/-- The company name of a row that is written, found up the chain of its
parents. -/
def companyNameFor (t : Table ResPartner) (new : ResPartner) : Option String :=
  if new.isCompany then some new.name
  else
    match new.parentId with
    | none => new.companyName
    | some par => companyNameUnder t (commercialOf t par) new.companyName

/-- `res_partner_set_commercial_name`. -/
def setCommercialName (t : Table ResPartner) (new : ResPartner) : ResPartner :=
  { new with commercialCompanyName := companyNameFor t new }

/-- A company, or a partner with no parent, is its own commercial entity. -/
def commercialFor (t : Table ResPartner) (id : ℤ) (new : ResPartner) : Option ℤ :=
  if new.isCompany then some id
  else
    match new.parentId with
    | none => some id
    | some par => commercialOf t par

/-- `res_partner_set_commercial`. -/
def setCommercial (t : Table ResPartner) (id : ℤ) (new : ResPartner) : ResPartner :=
  { new with commercialPartnerId := commercialFor t id new }

/-- `res_partner_set_display_name`. -/
def setDisplayName (t : Table ResPartner) (new : ResPartner) : ResPartner :=
  { new with
    displayName :=
      if new.isCompany then new.name
      else displayNameJoin new.name (companyNameFor t new) }

/-- `res_partner_inherit_tenant`. -/
def inheritTenant (t : Table ResPartner) (new : ResPartner) : ResPartner :=
  match (new.parentId.bind t.get?).bind (·.companyId) with
  | some parentCo => { new with companyId := some parentCo }
  | none => new

/-- The BEFORE triggers of an update that names the columns. -/
def before (named : Named) (t : Table ResPartner) (id : ℤ) (new : ResPartner) : ResPartner :=
  let new := setCommercialName t new
  let new := if named.parentId || named.isCompany then setCommercial t id new else new
  let new := setDisplayName t new
  if named.parentId || named.companyId then inheritTenant t new else new

/-- An insertion fires every trigger. -/
def beforeInsert (t : Table ResPartner) (new : ResPartner) : ResPartner :=
  before { parentId := true, isCompany := true, companyId := true } t t.nextId new

/-! ### Statements -/

/-- A row a statement has changed. -/
structure Event where
  id : ℤ
  old : ResPartner
  new : ResPartner

/-- `UPDATE … SET …` of the rows in turn. -/
def updateRows (named : Named) (set : Table ResPartner → ℤ → ResPartner → ResPartner) :
    List ℤ → Table ResPartner → Table ResPartner × List Event
  | [], t => (t, [])
  | id :: ids, t =>
      match t.get? id with
      | none => updateRows named set ids t
      | some old =>
          let new := before named t id (set t id old)
          let rest := updateRows named set ids (t.modify id fun _ => new)
          (rest.1, ⟨id, old, new⟩ :: rest.2)

/-- The rows that meet a condition. -/
def select (t : Table ResPartner) (cond : ℤ → ResPartner → Bool) : List ℤ :=
  (t.rows.filter fun r => cond r.1 r.2).map Prod.fst

def children (t : Table ResPartner) (ids : List ℤ) : List ℤ :=
  select t fun _ p => p.parentId.any (ids.contains ·)

/-- `WITH RECURSIVE kids`: a level of rows, and the levels below it. -/
def kids (t : Table ResPartner) : ℕ → List ℤ → List ℤ
  | 0, _ => []
  | levels + 1, ids => children t ids ++ kids t levels (children t ids)

/-- Every partner beneath one: each level has rows of its own, so there are no
more levels than rows. -/
def kidsOf (t : Table ResPartner) (id : ℤ) : List ℤ := kids t t.rows.length [id]

/-! ### AFTER triggers -/

/-- The AFTER triggers, in the order of their names. -/
inductive Trigger where
  | cascadeCommercialName
  | cascadeCommercial
  | cascadeDisplayName
  | cascadeTenant
deriving DecidableEq

/-- What is fired for the rows a statement has changed. -/
def jobs (evs : List Event) : List (Event × Trigger) :=
  evs.flatMap fun e => [(e, .cascadeCommercialName), (e, .cascadeCommercial),
    (e, .cascadeDisplayName), (e, .cascadeTenant)]

namespace Event

def commercialChanged (e : Event) : Bool :=
  e.new.commercialPartnerId != e.old.commercialPartnerId

/-- What the names beneath the row depend on has changed. -/
def entityChanged (e : Event) : Bool :=
  e.new.name != e.old.name || e.new.isCompany != e.old.isCompany || e.commercialChanged

def tenantChanged (e : Event) : Bool := e.new.companyId != e.old.companyId

end Event

section Fire

variable (scan : Table ResPartner → List ℤ → List ℤ)

/-- `res_partner_cascade_commercial_name`. -/
def cascadeCommercialName (t : Table ResPartner) (e : Event) : Table ResPartner × List Event :=
  if e.entityChanged then
    updateRows {} (fun t id p => { p with commercialCompanyName := commercialNameOf t id })
      (scan t (select t fun id p => p.commercialPartnerId == some e.id && id != e.id &&
        p.commercialCompanyName != commercialNameOf t id)) t
  else (t, [])

/-- `res_partner_cascade_commercial`. -/
def cascadeCommercial (t : Table ResPartner) (e : Event) : Table ResPartner × List Event :=
  if e.commercialChanged then
    updateRows {} (fun t id p => { p with commercialPartnerId := commercialOf t id })
      (scan t ((kidsOf t e.id).filter fun id => !(t.get? id).any (·.isCompany))) t
  else (t, [])

/-- `res_partner_cascade_display_name`. -/
def cascadeDisplayName (t : Table ResPartner) (e : Event) : Table ResPartner × List Event :=
  if e.entityChanged then
    updateRows {} (fun t id p => { p with displayName := (displayNameOf t id).getD p.displayName })
      (scan t (select t fun id p => p.commercialPartnerId == some e.id && id != e.id &&
        some p.displayName != displayNameOf t id)) t
  else (t, [])

/-- `res_partner_cascade_tenant`. -/
def cascadeTenant (t : Table ResPartner) (e : Event) : Table ResPartner × List Event :=
  if e.tenantChanged then
    updateRows { companyId := true } (fun _ _ p => { p with companyId := e.new.companyId })
      (scan t (kidsOf t e.id)) t
  else (t, [])

/-- One AFTER trigger for one row: its statement, and what that fires. -/
def fire (t : Table ResPartner) (job : Event × Trigger) :
    Table ResPartner × List (Event × Trigger) :=
  let done :=
    match job.2 with
    | .cascadeCommercialName => cascadeCommercialName scan t job.1
    | .cascadeCommercial => cascadeCommercial scan t job.1
    | .cascadeDisplayName => cascadeDisplayName scan t job.1
    | .cascadeTenant => cascadeTenant scan t job.1
  (done.1, jobs done.2)

/-! ### Operations -/

/-- The columns a write sets; a column that is absent is not named. -/
structure Changes where
  name : Option String := none
  parentId : Option (Option ℤ) := none
  isCompany : Option Bool := none
  companyName : Option (Option String) := none
  companyId : Option (Option ℤ) := none

def Changes.named (c : Changes) : Named where
  parentId := c.parentId.isSome
  isCompany := c.isCompany.isSome
  companyId := c.companyId.isSome

def Changes.set (c : Changes) (p : ResPartner) : ResPartner :=
  { p with
    name := c.name.getD p.name
    parentId := c.parentId.getD p.parentId
    isCompany := c.isCompany.getD p.isCompany
    companyName := c.companyName.getD p.companyName
    companyId := c.companyId.getD p.companyId }

inductive PartnerOp where
  | insert (vals : ResPartner)
  | write (id : ℤ) (c : Changes)
  | delete (id : ℤ)

/-- `ON DELETE SET NULL` of `parent_id`. -/
def orphanChildren (id : ℤ) (t : Table ResPartner) : Table ResPartner × List Event :=
  updateRows { parentId := true } (fun _ _ p => { p with parentId := none })
    (scan t (children t [id])) t

/-- `ON DELETE SET NULL` of `commercial_partner_id`. -/
def forgetCommercial (id : ℤ) (t : Table ResPartner) : Table ResPartner × List Event :=
  updateRows {} (fun _ _ p => { p with commercialPartnerId := none })
    (scan t (select t fun _ p => p.commercialPartnerId == some id)) t

/-- A deletion with the actions of both foreign keys. -/
def deleteRow (parentFirst : Bool) (id : ℤ) (t : Table ResPartner) :
    Table ResPartner × List Event :=
  let t₁ := t.delete fun i _ => i == id
  if parentFirst then
    let first := orphanChildren scan id t₁
    let second := forgetCommercial scan id first.1
    (second.1, first.2 ++ second.2)
  else
    let first := forgetCommercial scan id t₁
    let second := orphanChildren scan id first.1
    (second.1, first.2 ++ second.2)

/-- What an operation writes before its AFTER triggers are fired. -/
def write (parentFirst : Bool) (t : Table ResPartner) : PartnerOp → Table ResPartner × List Event
  | .insert vals => (t.insert (beforeInsert t vals), [])
  | .write id c => updateRows c.named (fun _ _ p => c.set p) [id] t
  | .delete id => deleteRow scan parentFirst id t

/-- An operation, whole. -/
def step (nest : ℕ) (parentFirst : Bool) (t : Table ResPartner) (op : PartnerOp) :
    Option (Table ResPartner) :=
  Cascades.runAll (fire scan) nest (write scan parentFirst t op).1
    (jobs (write scan parentFirst t op).2)

end Fire

end ResPartner

end CErp
