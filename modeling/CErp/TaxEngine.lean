/-
Tax computation for one document line.

Inclusive tax is derived by subtraction, never by multiplication, and each
amount is rounded to the document's precision before the totals are summed.
The last inclusive tax absorbs what rounding leaves over.
-/
import CErp.Money
import Mathlib.Data.List.Sort

namespace CErp

inductive AmountType where
  | percent
  | fixed
  | other
  deriving DecidableEq

/-- One tax as configured; a rate of 8 % is the amount 8. -/
structure TaxDef where
  id : ℤ
  name : String := ""
  rate : Money
  amountType : AmountType := .percent
  priceInclude : Bool := false
  sequence : ℤ := 0
  deriving DecidableEq

/-- The tax produced by one tax on one line. -/
structure TaxComponent where
  taxId : ℤ
  name : String
  base : Money
  amount : Money
  deriving DecidableEq

structure TaxComputation where
  baseExcluded : Money
  totalTax : Money
  totalIncluded : Money
  components : List TaxComponent
  deriving DecidableEq

namespace TaxEngine

/-- The value a 128-bit integer keeps as 64 bits. -/
def toInt64 (i : ℤ) : ℤ := i.bmod (2 ^ 64)

/-- Money of the line's currency. -/
def money (ccy : ℤ) (micros : ℤ) : Money := ⟨toInt64 micros, ccy⟩

/-- A fixed tax's own charge for a quantity. -/
def fixedCharge (ccy : ℤ) (t : TaxDef) (quantity : Money) : Except String Money :=
  (t.rate.mulQty quantity).map fun m => money ccy m.micros

/-- The line amount before any tax reasoning. -/
def grossAmount (priceUnit quantity discountPct : Money) (dp : ℤ) : Except String Money := do
  let gross ← priceUnit.mulQty quantity
  if discountPct.micros ≠ 0 then
    let off ← gross.percent discountPct
    let net ← gross.sub off
    net.roundTo dp
  else gross.roundTo dp

/-- The rates of the percentage taxes and the charges of the others, over the
inclusive taxes. -/
def includedSums (ccy : ℤ) (quantity : Money) :
    List TaxDef → Money → Money → Except String (Money × Money)
  | [], rateSum, fixedSum => .ok (rateSum, fixedSum)
  | t :: ts, rateSum, fixedSum =>
      if t.amountType = .percent then do
        let rateSum ← rateSum.add t.rate
        includedSums ccy quantity ts rateSum fixedSum
      else do
        let charge ← fixedCharge ccy t quantity
        let fixedSum ← fixedSum.add charge
        includedSums ccy quantity ts rateSum fixedSum

/-- The base an inclusive price was quoted over. -/
def inclusiveBase (ccy : ℤ) (gross rateSum fixedSum : Money) (dp : ℤ) : Except String Money := do
  let grossForPct ← gross.sub fixedSum
  if rateSum.micros ≠ 0 then
    let hundred : Money := { micros := 100 * Money.ONE }
    let divisor ← hundred.add rateSum
    let numerator ← grossForPct.mulQty hundred
    (money ccy ((numerator.micros * Money.ONE).tdiv divisor.micros)).roundTo dp
  else return grossForPct

/-- The part of the inclusive tax that is one tax's, the last one aside. -/
def inclusiveShare (ccy : ℤ) (quantity rateSum includedTax : Money) (dp : ℤ) (t : TaxDef) :
    Except String Money :=
  if t.amountType = .fixed then do
    let charge ← fixedCharge ccy t quantity
    charge.roundTo dp
  else if rateSum.micros ≠ 0 then
    (money ccy ((includedTax.micros * t.rate.micros).tdiv rateSum.micros)).roundTo dp
  else .ok ⟨0, ccy⟩

/-- The inclusive tax distributed over its taxes. -/
def inclusiveComponents (ccy : ℤ) (quantity rateSum includedTax base : Money) (dp : ℤ) :
    List TaxDef → Money → Except String (List TaxComponent)
  | [], _ => .ok []
  | [t], allocated => do
      let share ← includedTax.sub allocated
      let _ ← allocated.add share
      return [⟨t.id, t.name, base, share⟩]
  | t :: ts, allocated => do
      let share ← inclusiveShare ccy quantity rateSum includedTax dp t
      let allocated ← allocated.add share
      let rest ← inclusiveComponents ccy quantity rateSum includedTax base dp ts allocated
      return ⟨t.id, t.name, base, share⟩ :: rest

/-- A tax on top of the base. -/
def exclusiveComponent (ccy : ℤ) (quantity base : Money) (dp : ℤ) (t : TaxDef) :
    Except String TaxComponent := do
  let amt ← if t.amountType = .fixed then fixedCharge ccy t quantity else base.percent t.rate
  let amt ← amt.roundTo dp
  return ⟨t.id, t.name, base, amt⟩

def sumAmounts (ccy : ℤ) (components : List TaxComponent) : Except String Money :=
  components.foldlM (fun total c => total.add c.amount) ⟨0, ccy⟩

/-- `TaxEngine::compute`. -/
def compute (priceUnit quantity discountPct : Money) (taxesIn : List TaxDef) (dp : ℤ) :
    Except String TaxComputation := do
  let ccy := priceUnit.currencyId
  let gross ← grossAmount priceUnit quantity discountPct dp
  if taxesIn.isEmpty then return ⟨gross, ⟨0, ccy⟩, gross, []⟩
  else
    let taxes := taxesIn.insertionSort fun a b => a.sequence ≤ b.sequence
    let included := taxes.filter (·.priceInclude)
    let excluded := taxes.filter fun t => !t.priceInclude
    let (rateSum, fixedSum) ← includedSums ccy quantity included { micros := 0 } ⟨0, ccy⟩
    let base ← if included.isEmpty then pure gross else inclusiveBase ccy gross rateSum fixedSum dp
    let includedTax ← if included.isEmpty then pure ⟨0, ccy⟩ else gross.sub base
    let inclusive ← inclusiveComponents ccy quantity rateSum includedTax base dp included ⟨0, ccy⟩
    let exclusive ← excluded.mapM (exclusiveComponent ccy quantity base dp)
    let components := inclusive ++ exclusive
    let totalTax ← sumAmounts ccy components
    let totalIncluded ← base.add totalTax
    return ⟨base, totalTax, totalIncluded, components⟩

end TaxEngine

/-- 108.00 with an inclusive 8 % is 100.00 and 8.00. -/
example : ((TaxEngine.compute { micros := 108000000 } { micros := 1000000 } { micros := 0 }
      [{ id := 1, rate := { micros := 8000000 }, priceInclude := true }] 2).toOption.map
        fun c => (c.baseExcluded.micros, c.totalTax.micros)) = some (100000000, 8000000) := by
  decide

end CErp
