/-
The dispatcher's access check: which group a session must belong to before a
call on a model reaches the model's view model.
-/
import CErp.SessionManager

namespace CErp

namespace Groups

def BASE_INTERNAL : ℤ := 2
def BASE_ADMIN : ℤ := 3
def SETTINGS_CONFIGURATION : ℤ := 4
def ACCOUNT_BILLING : ℤ := 5
def SALES_USER : ℤ := 7
def PURCHASE_USER : ℤ := 9
def INVENTORY_USER : ℤ := 11
def MRP_USER : ℤ := 13
def HR_EMPLOYEE : ℤ := 15

end Groups

open Groups

/-- The models every internal user may call. -/
def kAllowed : List String :=
  ["ir.ui.menu", "ir.actions.act_window", "res.currency", "res.partner", "res.users", "uom.uom",
    "product.product", "product.category", "product.supplierinfo", "part.footprint", "part.unit",
    "part.parameter", "part.manufacturer.info", "mail.message", "portal.partner", "audit.log",
    "decimal.precision"]

/-- The models that demand a group of their own. -/
def kRequired : List (String × ℤ) :=
  [("account.move", ACCOUNT_BILLING), ("account.move.line", ACCOUNT_BILLING),
    ("account.account", ACCOUNT_BILLING),
    ("account.journal", ACCOUNT_BILLING),
    ("account.tax", ACCOUNT_BILLING),
    ("account.payment", ACCOUNT_BILLING),
    ("account.payment.term", ACCOUNT_BILLING),
    ("account.analytic.account", ACCOUNT_BILLING),
    ("account.analytic.line", ACCOUNT_BILLING),
    ("account.bank.statement", ACCOUNT_BILLING),
    ("account.bank.statement.line", ACCOUNT_BILLING),
    ("hr.employee", HR_EMPLOYEE),
    ("hr.department", HR_EMPLOYEE),
    ("hr.job", HR_EMPLOYEE),
    ("stock.move", INVENTORY_USER),
    ("stock.picking", INVENTORY_USER),
    ("stock.location", INVENTORY_USER),
    ("stock.picking.type", INVENTORY_USER),
    ("stock.warehouse", INVENTORY_USER),
    ("stock.quant", INVENTORY_USER),
    ("stock.valuation.layer", INVENTORY_USER),
    ("stock.production.lot", INVENTORY_USER),
    ("stock.landed.cost", INVENTORY_USER),
    ("stock.landed.cost.line", INVENTORY_USER),
    ("stock.warehouse.orderpoint", INVENTORY_USER),
    ("stock.putaway.rule", INVENTORY_USER),
    ("sale.order", SALES_USER),
    ("sale.order.line", SALES_USER),
    ("purchase.order", PURCHASE_USER),
    ("purchase.order.line", PURCHASE_USER),
    ("mrp.bom", MRP_USER),
    ("mrp.bom.line", MRP_USER),
    ("mrp.production", MRP_USER),
    ("mrp.workcenter", MRP_USER),
    ("mrp.routing.workcenter", MRP_USER),
    ("mrp.workorder", MRP_USER),
    ("mrp.production.schedule", MRP_USER),
    ("mrp.forecast", MRP_USER),
    ("res.company", SETTINGS_CONFIGURATION),
    ("res.groups", SETTINGS_CONFIGURATION),
    ("ir.config.parameter", BASE_ADMIN)]

/-- The group a model demands and the text of the refusal.  A model in neither
table demands an internal user, so a new one is not exposed by accident. -/
def demandedGroup (model : String) : ℤ × String :=
  let internal := (BASE_INTERNAL, "Access denied: internal login required to access " ++ model)
  if kAllowed.contains model then internal
  else
    match kRequired.lookup model with
    | some gid => (gid, "Access denied: insufficient permissions to access " ++ model)
    | none => internal

/-- `checkModelAccess_`. -/
def checkModelAccess (model : String) (session : Session) : Except String Unit :=
  if session.isAdmin then .ok ()
  else if session.hasGroup (demandedGroup model).1 then .ok ()
  else .error (demandedGroup model).2

/-- May a session's calls reach the view model of this model? -/
def mayAccess (model : String) (session : Session) : Bool :=
  session.isAdmin || session.hasGroup (demandedGroup model).1

lemma checkModelAccess_ok_iff {model : String} {session : Session} {u : Unit} :
    checkModelAccess model session = .ok u ↔ mayAccess model session = true := by
  unfold checkModelAccess mayAccess
  rcases session.isAdmin with - | -
  · rcases session.hasGroup (demandedGroup model).1 with - | -
    · simp
    · simp
  · simp

end CErp
