/-
Record-level authorization: the combined domain of the rules that apply to a
user, a model and an operation.

Global rules are subtractive, all of them must match; group rules are
additive, one of those whose groups the user belongs to must match.
-/
import CErp.Json
import CErp.UserContext

namespace CErp

inductive RuleOp where
  | read
  | write
  | create
  | unlink
  deriving DecidableEq

/-- One rule of a model.  `globalRule` means no group check. -/
structure IrRuleRecord where
  domainForce : Json
  permRead : Bool
  permWrite : Bool
  permCreate : Bool
  permUnlink : Bool
  globalRule : Bool
  active : Bool
  groupIds : List ℤ

/-- The rule table, as `loadRules_` reads it for a model. -/
structure RuleEngine where
  loadRules : String → List IrRuleRecord

def IrRuleRecord.appliesToOp (r : IrRuleRecord) : RuleOp → Bool
  | .read => r.permRead
  | .write => r.permWrite
  | .create => r.permCreate
  | .unlink => r.permUnlink

/-- The value a variable of a rule stands for. -/
def ruleVariable (ctx : UserContext) (s : String) : Json :=
  if s = "user.id" then .num ctx.uid
  else if s = "user.company_id" then .num ctx.companyId
  else if s = "user.partner_id" then .num ctx.partnerId
  else .str s

/-- Replaces variables in the value position of a leaf. -/
def substituteLeaf (ctx : UserContext) : Json → Json
  | .arr [field, op, .str s] => .arr [field, op, ruleVariable ctx s]
  | item => item

def substituteVars (ctx : UserContext) : Json → Json
  | .arr items => .arr (items.map (substituteLeaf ctx))
  | domain => domain

/-- Whether a domain adds nothing to the one it is combined with. -/
def noDomain (d : Json) : Bool := !d.isArray || d.isEmpty

/-- Concatenates two domains. -/
def domainAnd (d1 d2 : Json) : Json :=
  if noDomain d1 then d2
  else if noDomain d2 then d1
  else .arr (d1.items ++ d2.items)

/-- The operators that group the items of one side. -/
def grouping (items : List Json) : List Json :=
  List.replicate (items.length - 1) (.str "&") ++ items

/-- Combines two domains with OR. -/
def domainOr (d1 d2 : Json) : Json :=
  if noDomain d1 then d2
  else if noDomain d2 then d1
  else .arr (.str "|" :: (grouping d1.items ++ grouping d2.items))

/-- The domains of the rules in a list, with the variables replaced. -/
def ruleDomains (ctx : UserContext) (rules : List IrRuleRecord) : List Json :=
  rules.map fun r => substituteVars ctx r.domainForce

/-- A group rule applies to the users of its groups only. -/
def IrRuleRecord.matchesUser (r : IrRuleRecord) (ctx : UserContext) : Bool :=
  r.groupIds.any ctx.hasGroup

/-- The combined filter for a model, an operation and a user; `[]` when
nothing restricts. -/
def RuleEngine.buildRuleDomain (engine : RuleEngine) (modelName : String) (op : RuleOp)
    (ctx : UserContext) : Json :=
  if ctx.isAdmin then .arr []
  else
    let applicable := (engine.loadRules modelName).filter fun r => r.active && r.appliesToOp op
    let globalDomains := ruleDomains ctx (applicable.filter (·.globalRule))
    let groupDomains := ruleDomains ctx
      (applicable.filter fun r => !r.globalRule && r.matchesUser ctx)
    let result := globalDomains.foldl domainAnd (.arr [])
    match groupDomains with
    | [] => result
    | g :: gs => domainAnd result (gs.foldl domainOr g)

end CErp
