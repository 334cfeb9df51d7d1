/-
The calling user's identity, as record rules, company scoping and the access
checks read it.
-/
import Mathlib.Data.Int.Basic
import Mathlib.Tactic.Common

namespace CErp

/-- The calling user.  `uid` 0 is anonymous; `companyId` is the active company,
`allowedCompanyIds` the companies the user may switch to. -/
structure UserContext where
  uid : ℤ := 0
  companyId : ℤ := 0
  partnerId : ℤ := 0
  groupIds : List ℤ := []
  isAdmin : Bool := false
  allowedCompanyIds : List ℤ := []
  deriving DecidableEq

namespace UserContext

def isAuthenticated (ctx : UserContext) : Bool := ctx.uid > 0

def hasGroup (ctx : UserContext) (gid : ℤ) : Bool := ctx.groupIds.contains gid

/-- May this user act for a company?  Visibility is decided by the active
company alone; this gates switching and creating on behalf of a company. -/
def mayUseCompany (ctx : UserContext) (cid : ℤ) : Bool :=
  cid > 0 && ctx.allowedCompanyIds.contains cid

end UserContext

end CErp
