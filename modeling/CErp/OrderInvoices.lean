/-
Sale and purchase orders and the documents that are made from them.

`handleActionCreateInvoices` and `handleActionCreateBills` write a draft with a
line for every line of the order, one more for its tax, and the counterparty's
line; the header is the order's.  A down payment and the final invoice are drafts
over one amount, which is a double and is bound as one: a BIGINT column takes it
only when its text is digits and nothing else, `plain`.

`createOne_ok` and `oneAmount_ok` say everything a new draft is.
-/
import CErp.Documents
import CErp.Doubles
import CErp.RentalBilling
import CErp.StockDb

namespace CErp

open Outcome

/-! ### Rows -/

/-- A row of `sale_order_line` or `purchase_order_line`; `taxIds` are the integers
of the JSON array in `tax_ids_json`, and `qtyDelivered` is what a purchase line has
received. -/
structure OrderLine where
  orderId : ℤ
  sequence : ℤ := 10
  productId : Option ℤ := none
  name : String
  displayType : String := ""
  qty : ℤ := Money.ONE
  productUomId : Option ℤ := some 1
  priceUnit : ℤ := 0
  discount : ℤ := 0
  taxIds : List ℤ := []
  priceSubtotal : ℤ := 0
  priceTax : ℤ := 0
  priceTotal : ℤ := 0
  qtyInvoiced : ℤ := 0
  qtyDelivered : ℤ := 0
  companyId : Option ℤ := none
  currencyId : Option ℤ := none
  deriving DecidableEq

inductive InvoiceStatus where
  | nothing
  | toInvoice
  | invoiced
  | billed
  deriving DecidableEq

/-- A row of `sale_order` or `purchase_order`; `confirmed` says that its state is
`sale` or `purchase`. -/
structure Order where
  name : String
  confirmed : Bool := true
  partnerId : Option ℤ := none
  companyId : ℤ := 1
  currencyId : Option ℤ := none
  amountUntaxed : ℤ := 0
  amountTax : ℤ := 0
  amountTotal : ℤ := 0
  invoiceStatus : InvoiceStatus := .nothing
  deriving DecidableEq

structure OrderDb where
  account : AccountDb := {}
  saleOrders : Table Order := .empty
  saleLines : Table OrderLine := .empty
  purchaseOrders : Table Order := .empty
  purchaseLines : Table OrderLine := .empty

namespace OrderInvoices

open RentalBilling (orThrow)

/-! ### Accounts and journals -/

def firstJournal (db : AccountDb) (type : JournalType) (companyId : ℤ) : Option ℤ :=
  (db.journals.rows.find? fun r =>
    r.2.type == type && r.2.companyId == companyId && r.2.active).map Prod.fst

/-- The row with the least code, the first of those that share it. -/
def leastCode (best : Option (ℤ × Account)) (r : ℤ × Account) : Option (ℤ × Account) :=
  match best with
  | none => some r
  | some b => if r.2.code < b.2.code then some r else some b

/-- The first active account of some types, in the order of the codes. -/
def firstAccount (db : AccountDb) (types : List AccountType) (companyId : ℤ) : Option ℤ :=
  ((db.accounts.rows.filter fun r =>
    types.contains r.2.accountType && r.2.companyId == companyId && r.2.active).foldl
      leastCode none).map Prod.fst

/-- What the documents of the two kinds of orders differ in. -/
structure Kind where
  moveType : MoveType
  journalType : JournalType
  productTypes : List AccountType
  partnerType : AccountType
  notFound : String
  notConfirmed : String
  noJournal : String
  noProductAccount : String
  noPartnerAccount : String
  partnerLabel : String

def saleKind : Kind where
  moveType := .outInvoice
  journalType := .sale
  productTypes := [.income, .incomeOther]
  partnerType := .assetReceivable
  notFound := "Sale order not found"
  notConfirmed := "Only confirmed orders can be invoiced"
  noJournal := "No sale journal found"
  noProductAccount := "No income account found"
  noPartnerAccount := "No receivable account found"
  partnerLabel := "Receivable: "

def purchaseKind : Kind where
  moveType := .inInvoice
  journalType := .purchase
  productTypes := [.expense, .expenseDirectCost]
  partnerType := .liabilityPayable
  notFound := "Purchase order not found"
  notConfirmed := "Only confirmed orders can be billed"
  noJournal := "No purchase journal found"
  noProductAccount := "No expense account found"
  noPartnerAccount := "No payable account found"
  partnerLabel := "Payable: "

/-- Where a document is posted. -/
structure Books where
  journalId : ℤ
  productAccount : ℤ
  partnerAccount : ℤ

def books (k : Kind) (db : AccountDb) (companyId : ℤ) : Except String Books := do
  let journalId ← orThrow k.noJournal (firstJournal db k.journalType companyId)
  let productAccount ← orThrow k.noProductAccount (firstAccount db k.productTypes companyId)
  let partnerAccount ← orThrow k.noPartnerAccount (firstAccount db [k.partnerType] companyId)
  return { journalId, productAccount, partnerAccount }

/-! ### Documents -/

/-- A partner that is one. -/
def partnerOf (o : Order) : Option ℤ := o.partnerId.filter fun p => 0 < p

def currencyOf (o : Order) : Option ℤ := o.currencyId.filter fun c => 0 < c

/-- An amount on the side of the product lines, or on the other one. -/
def sided (onCredit : Bool) (amount : ℤ) (l : MoveLine) : MoveLine :=
  if onCredit then { l with credit := amount } else { l with debit := amount }

/-- The line of the goods. -/
def productLine (k : Kind) (b : Books) (o : Order) (name : String) (quantity priceUnit amount : ℤ) :
    MoveLine :=
  sided k.moveType.productLinesAreCredit amount
    { accountId := b.productAccount
      companyId := some o.companyId
      name := name
      partnerId := partnerOf o
      quantity := quantity
      priceUnit := priceUnit }

/-- The tax of a line of the order: an ordinary line, on the account of the goods. -/
def taxLine (k : Kind) (b : Books) (o : Order) (name : String) (tax : ℤ) : MoveLine :=
  sided k.moveType.productLinesAreCredit tax
    { accountId := b.productAccount
      companyId := some o.companyId
      name := "Tax: " ++ name
      partnerId := partnerOf o
      quantity := 1 }

/-- The line of the counterparty. -/
def partnerLine (k : Kind) (b : Books) (o : Order) (name : String) (total : ℤ) : MoveLine :=
  sided (!k.moveType.productLinesAreCredit) total
    { accountId := b.partnerAccount
      companyId := some o.companyId
      name := name
      partnerId := partnerOf o
      quantity := 1 }

/-- A column that is read as a double and rounded to an integer again. -/
def throughDouble (x : ℤ) : Except String ℤ := bigint (Doubles.round x)

/-- The lines for one line of the order. -/
def linesFor (k : Kind) (b : Books) (o : Order) (ln : OrderLine) : Except String (List MoveLine) := do
  let qty ← throughDouble ln.qty
  let unit ← throughDouble ln.priceUnit
  let sub ← throughDouble ln.priceSubtotal
  let tax ← throughDouble ln.priceTax
  return productLine k b o ln.name qty unit sub ::
    if 0 < tax then [taxLine k b o ln.name tax] else []

/-- A draft of an order, without its lines. -/
def draft (k : Kind) (b : Books) (o : Order) (today : String) (untaxed tax total : ℤ) : Move where
  moveType := k.moveType
  date := today
  journalId := b.journalId
  partnerId := partnerOf o
  companyId := o.companyId
  currencyId := currencyOf o
  amountUntaxed := untaxed
  amountTax := tax
  amountTotal := total
  amountResidual := total

/-- The document of a whole order. -/
def orderDocument (k : Kind) (db : AccountDb) (today : String) (o : Order) (lines : List OrderLine)
    (link : Move → Move) : Except String AccountDb := do
  let untaxed ← throughDouble o.amountUntaxed
  let tax ← throughDouble o.amountTax
  let total ← throughDouble o.amountTotal
  require (o.confirmed = true) k.notConfirmed
  let b ← books k db o.companyId
  let ls ← lines.mapM (linesFor k b o)
  (db.insertMove (link (draft k b o today untaxed tax total))).addLines db.moves.nextId
    (ls.flatten ++ [partnerLine k b o (k.partnerLabel ++ o.name) total])

/-! ### action_create_invoices and action_create_bills -/

/-- The lines of an order in the order of their identifiers. -/
def linesOf (lines : Table OrderLine) (ordId : ℤ) (p : OrderLine → Bool) : List OrderLine :=
  (lines.rows.map Prod.snd).filter fun ln => ln.orderId == ordId && p ln

/-- The lines that are invoiced: no sections and no notes. -/
def invoicedLines (db : OrderDb) (ordId : ℤ) : List OrderLine :=
  linesOf db.saleLines ordId fun ln => ln.displayType == ""

def billedLines (db : OrderDb) (ordId : ℤ) : List OrderLine :=
  linesOf db.purchaseLines ordId fun _ => true

def createInvoice (today : String) (db : OrderDb) (ordId : ℤ) : Except String OrderDb :=
  match db.saleOrders.get? ordId with
  | none => .error saleKind.notFound
  | some o => do
      let account ← orderDocument saleKind db.account today o (invoicedLines db ordId)
        fun m => { m with saleId := some ordId }
      return { db with
        account := account
        saleOrders := db.saleOrders.modify ordId fun o => { o with invoiceStatus := .invoiced } }

/-- `handleActionCreateInvoices`. -/
def handleActionCreateInvoices (today : String) (db : OrderDb) (ids : List ℤ) :
    Except String OrderDb := ids.foldlM (createInvoice today) db

def createBill (today : String) (db : OrderDb) (ordId : ℤ) : Except String OrderDb :=
  match db.purchaseOrders.get? ordId with
  | none => .error purchaseKind.notFound
  | some o => do
      let account ← orderDocument purchaseKind db.account today o (billedLines db ordId)
        fun m => { m with purchaseId := some ordId }
      return { db with
        account := account
        purchaseOrders :=
          db.purchaseOrders.modify ordId fun o => { o with invoiceStatus := .billed } }

/-- `handleActionCreateBills`. -/
def handleActionCreateBills (today : String) (db : OrderDb) (ids : List ℤ) : Except String OrderDb :=
  ids.foldlM (createBill today) db

/-! ### Invoices over one amount -/

section OneAmount

variable (plain : ℤ → Bool)

/-- What a BIGINT column makes of a double that is bound to it. -/
def bindDouble (d : ℚ) : Except String ℤ :=
  if d.den = 1 ∧ plain d.num = true then bigint d.num
  else .error "invalid input syntax for type bigint"

/-- An invoice of an order over one amount. -/
def oneAmount (db : AccountDb) (today : String) (ordId : ℤ) (o : Order) (ref : String) (amount : ℚ) :
    Except String AccountDb := do
  let b ← books saleKind db o.companyId
  let v ← bindDouble plain amount
  (db.insertMove { draft saleKind b o today v 0 v with saleId := some ordId }).addLines
    db.moves.nextId [productLine saleKind b o ref 1 v v, partnerLine saleKind b o ref v]

def downPayment (today : String) (amount : ℚ) (note : String) (db : OrderDb) (ordId : ℤ) :
    Except String OrderDb :=
  match db.saleOrders.get? ordId with
  | none => .error saleKind.notFound
  | some o => do
      require (o.confirmed = true) saleKind.notConfirmed
      let account ← oneAmount plain db.account today ordId o (note ++ " - " ++ o.name) amount
      return { db with
        account := account
        saleOrders := db.saleOrders.modify ordId fun o =>
          if o.invoiceStatus = .nothing then { o with invoiceStatus := .toInvoice } else o }

/-- `handleActionCreateDownPayment`, which is the handler of
`action_create_progress_payment` too. -/
def handleActionCreateDownPayment (today : String) (amount : ℚ) (note : String) (db : OrderDb)
    (ids : List ℤ) : Except String OrderDb :=
  if ids = [] then .ok db
  else if amount ≤ 0 then .error "Invoice amount must be greater than zero"
  else ids.foldlM (downPayment plain today amount note) db

/-- The posted invoices of an order, added up. -/
def postedAmount (db : AccountDb) (ordId : ℤ) : ℤ :=
  db.moves.sumOver fun _ m =>
    if m.saleId = some ordId ∧ m.state = .posted ∧ m.moveType = .outInvoice then m.amountTotal else 0

/-- What is left to invoice, in doubles. -/
def remaining (db : AccountDb) (ordId : ℤ) (o : Order) : ℤ :=
  Doubles.round (Doubles.round o.amountTotal - Doubles.round (postedAmount db ordId))

def finalInvoice (today : String) (db : OrderDb) (ordId : ℤ) : Except String OrderDb :=
  match db.saleOrders.get? ordId with
  | none => .error saleKind.notFound
  | some o => do
      require (o.confirmed = true) saleKind.notConfirmed
      require (0 < remaining db.account ordId o)
        "No remaining balance — order is fully invoiced"
      let account ← oneAmount plain db.account today ordId o ("Final Payment - " ++ o.name)
        (remaining db.account ordId o)
      return { db with
        account := account
        saleOrders := db.saleOrders.modify ordId fun o => { o with invoiceStatus := .invoiced } }

/-- `handleActionCreateFinalInvoice`. -/
def handleActionCreateFinalInvoice (today : String) (db : OrderDb) (ids : List ℤ) :
    Except String OrderDb := ids.foldlM (finalInvoice plain today) db

end OneAmount

/-! ### What the documents are -/

open AccountDb (numbered)

lemma throughDouble_ok {x v : ℤ} (h : throughDouble x = .ok v) : v = Doubles.round x :=
  bigint_ok h

lemma orderDocument_ok {k : Kind} {db db' : AccountDb} {today : String} {o : Order}
    {lines : List OrderLine} {link : Move → Move}
    (h : orderDocument k db today o lines link = .ok db') :
    ∃ b ls, o.confirmed = true ∧ books k db o.companyId = .ok b ∧
      lines.mapM (linesFor k b o) = .ok ls ∧
      let m := link (draft k b o today (Doubles.round o.amountUntaxed)
        (Doubles.round o.amountTax) (Doubles.round o.amountTotal))
      Enters db db' { m with
        lines := m.lines ++ numbered db.nextLineId (ls.flatten ++
          [partnerLine k b o (k.partnerLabel ++ o.name) (Doubles.round o.amountTotal)]) } := by
  obtain ⟨untaxed, hu, h⟩ := bind_ok_iff.mp h
  obtain ⟨tax, ht, h⟩ := bind_ok_iff.mp h
  obtain ⟨total, hT, h⟩ := bind_ok_iff.mp h
  obtain ⟨_, hconfirmed, h⟩ := bind_ok_iff.mp h
  obtain ⟨b, hb, h⟩ := bind_ok_iff.mp h
  obtain ⟨ls, hls, h⟩ := bind_ok_iff.mp h
  obtain rfl := throughDouble_ok hu
  obtain rfl := throughDouble_ok ht
  obtain rfl := throughDouble_ok hT
  exact ⟨b, ls, require_ok_iff.mp hconfirmed, hb, hls, addLines_enters h⟩

lemma bindDouble_ok {plain : ℤ → Bool} {d : ℚ} {v : ℤ} (h : bindDouble plain d = .ok v) :
    d = v := by
  unfold bindDouble at h
  split at h
  · next hwhole =>
      rw [bigint_ok h]
      exact (Rat.den_eq_one_iff d).mp hwhole.1 |>.symm
  · cases h

lemma oneAmount_ok {plain : ℤ → Bool} {db db' : AccountDb} {today : String} {ordId : ℤ}
    {o : Order} {ref : String} {amount : ℚ}
    (h : oneAmount plain db today ordId o ref amount = .ok db') :
    ∃ (b : Books) (v : ℤ), amount = v ∧ books saleKind db o.companyId = .ok b ∧
      Enters db db' { draft saleKind b o today v 0 v with
        saleId := some ordId
        lines := numbered db.nextLineId
          [productLine saleKind b o ref 1 v v, partnerLine saleKind b o ref v] } := by
  obtain ⟨b, hb, h⟩ := bind_ok_iff.mp h
  obtain ⟨v, hv, h⟩ := bind_ok_iff.mp h
  exact ⟨b, v, bindDouble_ok hv, hb, addLines_enters h⟩

end OrderInvoices

end CErp
