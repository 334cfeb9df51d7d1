/-
The value of the stock against the general ledger.

`glValue` is what the entries of a product's layers have put on the account its
stock is valued on.  `InLedger` says that it is the value the product carries.
Moves and landed costs find that account in two ways: moves by the category of
the product, landed costs always by its code.  `KeepsLedger` is the condition on
a step under which `InLedger` survives.
-/
import CErp.LandedCost
import CErp.StockLedger

namespace CErp

open Runs Outcome Table AccountDb Option LandedCost

/-! ### What the entries put on an account -/

/-- Debits less credits of some lines on an account. -/
def accountBalance (ls : List MoveLine) (accountId : ℤ) : ℤ :=
  (ls.map fun l => if l.accountId = accountId then l.balance else 0).sum

/-- What an entry put on an account; nothing where there is no entry. -/
def linkedDebit (account : AccountDb) (link : Option ℤ) (accountId : ℤ) : ℤ :=
  match link.bind account.moves.get? with
  | none => 0
  | some m => accountBalance m.lines accountId

/-- The account a layer's value belongs on. -/
def layerAccount (db : StockDb) (l : Layer) : ℤ :=
  StockQuant.valuationAccount db l.productId (StockQuant.entryCompany (l.companyId.getD 0))

/-- What the entry of a layer put there. -/
def layerDebit (db : StockDb) (l : Layer) : ℤ :=
  linkedDebit db.account l.accountMoveId (layerAccount db l)

/-- What the entries of a product's layers put on its valuation account. -/
def glValue (db : StockDb) (productId : ℤ) : ℤ := db.layerSum productId (layerDebit db)

/-- The entries of the layers exist, and put on a product's valuation account
what the product is worth. -/
structure InLedger (db : StockDb) (productId : ℤ) : Prop where
  ids : 0 < db.layers.nextId
  links : ∀ id l j, db.layers.get? id = some l → l.accountMoveId = some j →
    ∃ m, db.account.moves.get? j = some m
  value : ∀ p, db.products.get? productId = some p → glValue db productId = p.valueSvl

lemma accountBalance_numbered (n : ℤ) (ls : List MoveLine) (accountId : ℤ) :
    accountBalance (numbered n ls) accountId = accountBalance ls accountId := by
  unfold accountBalance
  rw [map_numbered _ (fun _ _ => rfl)]

/-- A debit on one account and a credit on another. -/
lemma accountBalance_pair (comp : ℤ) (name : String) {accountId other debit credit : ℤ}
    (h : other ≠ accountId) (d c : ℤ) :
    accountBalance [StockQuant.stockLine comp name accountId debit credit,
      StockQuant.stockLine comp name other d c] accountId = debit - credit := by
  simp [accountBalance, StockQuant.stockLine, MoveLine.balance, h]

/-! ### Steps that only add entries -/

/-- Entries are added and nothing else changes that an account is found by. -/
structure EntriesAdded (db db' : StockDb) : Prop where
  moves : ∀ j m, db.account.moves.get? j = some m → db'.account.moves.get? j = some m
  accounts : ∀ productId comp, StockQuant.valuationAccount db' productId comp =
    StockQuant.valuationAccount db productId comp

/-- A row of the layers without what is left of it. -/
def Layer.booking (l : Layer) : Layer := { l with remainingQty := 0, remainingValue := 0 }

/-- What a table of layers says beside what is left of them. -/
def bookings (layers : Table Layer) : Table Layer := layers.update fun _ l => l.booking

lemma bookings_insert (layers : Table Layer) (l : Layer) :
    bookings (layers.insert l) = (bookings layers).insert l.booking :=
  update_insert layers l _

lemma bookings_modifyAll {δ : Type} (layers : Table Layer) {g : δ → Layer → Layer}
    (cs : List (ℤ × δ)) (hg : ∀ d l, (g d l).booking = l.booking) :
    bookings (layers.modifyAll g cs) = bookings layers := by
  apply update_modifyAll
  intro _ d l
  exact hg d l

lemma get?_bookings (layers : Table Layer) (id : ℤ) :
    (bookings layers).get? id = (layers.get? id).map Layer.booking :=
  get?_update _ _ _

lemma layersSum_bookings (layers : Table Layer) (productId : ℤ) {f : Layer → ℤ}
    (hf : ∀ l, f l.booking = f l) :
    layersSum (bookings layers) productId f = layersSum layers productId f := by
  unfold layersSum
  rw [bookings, sumOver_update]
  apply sumOver_congr
  intro r _
  show (if r.2.productId = productId then f r.2.booking else 0) = _
  rw [hf]

variable {l : Layer}

namespace InLedger

variable {db db' : StockDb} {productId : ℤ}

lemma layerDebit_booking (db : StockDb) (l : Layer) :
    layerDebit db l.booking = layerDebit db l := rfl

/-- The entries of the layers there were are as they were. -/
lemma layerDebit_entriesAdded (h : InLedger db productId) (hadded : EntriesAdded db db')
    {id : ℤ} (hl : db.layers.get? id = some l) : layerDebit db' l = layerDebit db l := by
  have haccount : layerAccount db' l = layerAccount db l := hadded.accounts _ _
  unfold layerDebit
  rw [haccount]
  unfold linkedDebit
  rcases hlink : l.accountMoveId with - | j
  · rfl
  · obtain ⟨m, hm⟩ := h.links id l j hl hlink
    rw [bind_some, bind_some, hm, hadded.moves j m hm]

lemma glValue_entriesAdded (h : InLedger db productId) (hadded : EntriesAdded db db') :
    layersSum db.layers productId (layerDebit db') = glValue db productId := by
  show layersSum db.layers productId (layerDebit db') =
    layersSum db.layers productId (layerDebit db)
  apply sumOver_congr
  intro r hr
  have hrow : db.layers.get? r.1 = some r.2 := get?_eq_some_iff.mpr hr
  show (if _ then _ else _) = _
  rw [h.layerDebit_entriesAdded hadded hrow]

/-- **A booked layer.**  One more layer, with the value its entry put on the
account, keeps the product's value in the ledger. -/
theorem insert (h : InLedger db productId) (hadded : EntriesAdded db db')
    (hlayers : bookings db'.layers = bookings (db.layers.insert l))
    (hlink : ∀ j, l.accountMoveId = some j → ∃ m, db'.account.moves.get? j = some m)
    (hvalue : ∀ p', db'.products.get? productId = some p' →
      ∃ p, db.products.get? productId = some p ∧
        p'.valueSvl = p.valueSvl + if l.productId = productId then layerDebit db' l else 0) :
    InLedger db' productId := by
  constructor
  · have hids : db'.layers.nextId = db.layers.nextId + 1 := congrArg Table.nextId hlayers
    have := h.ids
    omega
  · intro id l' j hl' hj
    have hrow : (bookings (db.layers.insert l)).get? id = some l'.booking := by
      rw [← hlayers, get?_bookings, hl']
      rfl
    rw [get?_bookings] at hrow
    obtain ⟨l₀, hl₀, hsame⟩ := map_eq_some_iff.mp hrow
    have hj₀ : l₀.accountMoveId = some j := (congrArg Layer.accountMoveId hsame).trans hj
    rw [get?_insert] at hl₀
    split at hl₀
    · cases hl₀
      exact hlink j hj₀
    · obtain ⟨m, hm⟩ := h.links id l₀ j hl₀ hj₀
      exact ⟨m, hadded.moves j m hm⟩
  · intro p' hp'
    obtain ⟨p, hp, hworth⟩ := hvalue p' hp'
    have hsum : glValue db' productId = glValue db productId +
        if l.productId = productId then layerDebit db' l else 0 := by
      show layersSum db'.layers productId (layerDebit db') = _
      rw [← layersSum_bookings _ _ (layerDebit_booking db'), hlayers,
        layersSum_bookings _ _ (layerDebit_booking db'), layersSum_insert,
        h.glValue_entriesAdded hadded]
    rw [hsum, h.value p hp, hworth]

/-- New entries and changes of other columns. -/
lemma of_same (h : InLedger db productId) (hadded : EntriesAdded db db')
    (hlayers : db'.layers = db.layers)
    (hvalue : ∀ p', db'.products.get? productId = some p' →
      ∃ p, db.products.get? productId = some p ∧ p'.valueSvl = p.valueSvl) :
    InLedger db' productId := by
  constructor
  · rw [hlayers]
    exact h.ids
  · intro id l j hl hj
    rw [hlayers] at hl
    obtain ⟨m, hm⟩ := h.links id l j hl hj
    exact ⟨m, hadded.moves j m hm⟩
  · intro p' hp'
    obtain ⟨p, hp, hsame⟩ := hvalue p' hp'
    rw [hsame, ← h.value p hp, ← h.glValue_entriesAdded hadded, ← hlayers]
    rfl

end InLedger

/-! ### Entries -/

variable {account' : AccountDb} {ls : List MoveLine}

variable {m : Move}

/-- An entry is added behind the moves there are. -/
lemma get?_postEntry {account : AccountDb} (h : account.postEntry m ls = .ok account') {j : ℤ}
    {x : Move} (hx : account.moves.get? j = some x) : account'.moves.get? j = some x := by
  obtain ⟨-, hget⟩ := postEntry_ok h
  rw [hget, if_neg (lt_nextId_of_get? hx).ne]
  exact hx

lemma accounts_postEntry {account : AccountDb} (h : account.postEntry m ls = .ok account') :
    account'.accounts = account.accounts := by
  obtain ⟨⟨moves, n, rfl⟩, -⟩ := postEntry_ok h
  rfl

/-- The entry that was added puts on an account what its lines say. -/
lemma linkedDebit_postEntry {account : AccountDb} (h : account.postEntry m ls = .ok account')
    (hm : m.lines = []) (accountId : ℤ) :
    linkedDebit account' (some account.moves.nextId) accountId = accountBalance ls accountId := by
  obtain ⟨-, hget⟩ := postEntry_ok h
  unfold linkedDebit
  rw [bind_some, hget, if_pos rfl]
  show accountBalance (m.lines ++ _) accountId = _
  rw [hm, List.nil_append, accountBalance_numbered]

lemma exists_postEntry {account : AccountDb} (h : account.postEntry m ls = .ok account') :
    ∃ x, account'.moves.get? account.moves.nextId = some x := by
  obtain ⟨-, hget⟩ := postEntry_ok h
  rw [hget, if_pos rfl]
  exact ⟨_, rfl⟩

lemma EntriesAdded.mk' {db db' : StockDb}
    (hmoves : ∀ j m, db.account.moves.get? j = some m → db'.account.moves.get? j = some m)
    (haccounts : db'.account.accounts = db.account.accounts)
    (hcategories : db'.categories = db.categories)
    (hproducts : ∀ id, (db'.products.get? id).map (·.categId) =
      (db.products.get? id).map (·.categId)) : EntriesAdded db db' := by
  refine ⟨hmoves, ?_⟩
  intro productId comp
  have hcategory := StockQuant.categoryOf_congr hcategories (hproducts productId)
  unfold StockQuant.valuationAccount StockQuant.catAcct StockQuant.acctByCode
  unfold accountOfCode
  rw [hcategory, haccounts]

lemma EntriesAdded.refl (db : StockDb) : EntriesAdded db db :=
  ⟨fun _ _ hm => hm, fun _ _ => rfl⟩

lemma EntriesAdded.trans {a b c : StockDb} (hab : EntriesAdded a b) (hbc : EntriesAdded b c) :
    EntriesAdded a c :=
  ⟨fun j m hm => hbc.moves j m (hab.moves j m hm),
    fun productId comp => (hbc.accounts productId comp).trans (hab.accounts productId comp)⟩

/-- A change of the products that leaves their categories alone. -/
lemma map_get?_modify_product (products : Table Product) (productId : ℤ) {f : Product → Product}
    (hf : ∀ p, (f p).categId = p.categId) (id : ℤ) :
    ((products.modify productId f).get? id).map (·.categId) =
      (products.get? id).map (·.categId) := by
  rw [get?_modify, map_map]
  congr 1
  funext p
  show (if id = productId then f p else p).categId = p.categId
  split
  · exact hf p
  · rfl

/-! ### Moves -/

lemma entryCompany_nullIfZero (companyId : ℤ) :
    StockQuant.entryCompany ((nullIfZero companyId).getD 0) = StockQuant.entryCompany companyId := by
  unfold nullIfZero
  split
  · next h =>
      rw [h]
      rfl
  · rfl

namespace StockQuant

/-- A value that its entry carries: there is none, or it is positive and the
journal and two different accounts are there for it. -/
def Carried (db : StockDb) (productId companyId : ℤ) (usage : Usage) (valueMicros : ℤ) : Prop :=
  valueMicros = 0 ∨ (0 < valueMicros ∧ 0 < valuationJournal db productId (entryCompany companyId) ∧
    0 < valuationAccount db productId (entryCompany companyId) ∧
    0 < counterpartAccount db productId (entryCompany companyId) usage ∧
    counterpartAccount db productId (entryCompany companyId) usage ≠
      valuationAccount db productId (entryCompany companyId))

instance (db : StockDb) (productId companyId : ℤ) (usage : Usage) (valueMicros : ℤ) :
    Decidable (Carried db productId companyId usage valueMicros) :=
  inferInstanceAs (Decidable (_ ∨ _))

namespace Posted

variable {now : Moment} {db : StockDb} {productId valueMicros companyId : ℤ} {usage : Usage}
  {incoming : Bool} {link : Option ℤ} {account : AccountDb}

lemma moves (h : Posted now db productId usage valueMicros incoming companyId link account)
    {j : ℤ} (hm : db.account.moves.get? j = some m) : account.moves.get? j = some m := by
  cases h with
  | worthless _ => exact hm
  | unconfigured _ => exact hm
  | entered _ hentry => exact get?_postEntry hentry hm

lemma accounts (h : Posted now db productId usage valueMicros incoming companyId link account) :
    account.accounts = db.account.accounts := by
  cases h with
  | worthless _ => rfl
  | unconfigured _ => rfl
  | entered _ hentry => exact accounts_postEntry hentry

lemma linked (h : Posted now db productId usage valueMicros incoming companyId link account)
    {j : ℤ} (hj : link = some j) : ∃ m, account.moves.get? j = some m := by
  cases h with
  | worthless _ => cases hj
  | unconfigured _ => cases hj
  | entered _ hentry =>
      cases hj
      exact exists_postEntry hentry

/-- The entry of a value that is carried puts it on the valuation account. -/
lemma debit (h : Posted now db productId usage valueMicros incoming companyId link account)
    (hcarried : Carried db productId companyId usage valueMicros) :
    linkedDebit account link (valuationAccount db productId (entryCompany companyId)) =
      if incoming then valueMicros else -valueMicros := by
  cases h with
  | worthless hworth =>
      rcases hcarried with rfl | ⟨hpos, -⟩
      · cases incoming <;> rfl
      · omega
  | unconfigured hskip =>
      rcases hcarried with rfl | ⟨-, hjournal, hvaluation, hcounter, -⟩
      · cases incoming <;> rfl
      · omega
  | entered hpos hentry =>
      rcases hcarried with rfl | ⟨-, -, -, -, hother⟩
      · cases hpos
      · rw [linkedDebit_postEntry hentry rfl, valuationLines]
        cases incoming
        · show accountBalance [_, _] _ = -valueMicros
          rw [accountBalance_pair _ _ hother, zero_sub]
        · show accountBalance [_, _] _ = valueMicros
          rw [accountBalance_pair _ _ hother, sub_zero]

end Posted

end StockQuant

/-- An issue changes only what is left of the layers. -/
lemma bookings_issueValue {db : StockDb} {productId qtyMicros outValue : ℤ} {p : Product}
    {layers : Table Layer}
    (h : StockQuant.issueValue db productId p qtyMicros = .ok (outValue, layers)) :
    bookings layers = bookings db.layers := by
  unfold StockQuant.issueValue at h
  split at h
  · obtain ⟨portions, -, h⟩ := bind_ok_iff.mp h
    obtain ⟨out, -, h⟩ := bind_ok_iff.mp h
    cases h
    apply bookings_modifyAll
    intro d l
    rfl
  · cases h
    rfl

/-- The value of a move that crosses the boundary of the internal locations is
carried by its entry. -/
def MoveCarried (db : StockDb) (productId src dest qtyMicros companyId inputCostMicros : ℤ) : Prop :=
  0 < qtyMicros → ∀ p ∈ db.products.get? productId,
    (db.isInternal src = false → db.isInternal dest = true →
      StockQuant.Carried db productId companyId (db.usageOf src)
        (mulMicros qtyMicros (StockQuant.receiptCost p inputCostMicros))) ∧
    (db.isInternal src = true → db.isInternal dest = false →
      ∀ v ∈ (StockQuant.issueValue db productId p qtyMicros).toOption,
        StockQuant.Carried db productId companyId (db.usageOf dest) v.1)

instance (db : StockDb) (productId src dest qtyMicros companyId inputCostMicros : ℤ) :
    Decidable (MoveCarried db productId src dest qtyMicros companyId inputCostMicros) :=
  inferInstanceAs (Decidable (_ → ∀ p ∈ db.products.get? productId, _))

variable {now : Moment}

section Move

variable {db db' : StockDb} (productId src dest qtyMicros companyId lotId : ℤ)

lemma map_categId_moved (id : ℤ) :
    ((StockQuant.moved db productId src dest qtyMicros companyId lotId).products.get? id).map
      (·.categId) = (db.products.get? id).map (·.categId) := by
  rw [StockQuant.products_moved]
  apply map_get?_modify_product
  intro p
  rfl

lemma entriesAdded_moved :
    EntriesAdded db (StockQuant.moved db productId src dest qtyMicros companyId lotId) := by
  apply EntriesAdded.mk'
  · intro j m hm
    exact hm
  · rfl
  · rfl
  · exact map_categId_moved productId src dest qtyMicros companyId lotId

/-- A product after a move, before its valuation. -/
lemma get?_moved {id : ℤ} {p' : Product}
    (h : (StockQuant.moved db productId src dest qtyMicros companyId lotId).products.get? id =
      some p') :
    ∃ p qtyAvailable, db.products.get? id = some p ∧ p' = { p with qtyAvailable := qtyAvailable } := by
  rw [StockQuant.products_moved] at h
  obtain ⟨p, hp, rfl⟩ := get?_modify_product h
  split
  · exact ⟨p, _, hp, rfl⟩
  · exact ⟨p, p.qtyAvailable, hp, rfl⟩

variable {productId src dest qtyMicros companyId lotId}

lemma moved_inLedger {id : ℤ} (h : InLedger db id) :
    InLedger (StockQuant.moved db productId src dest qtyMicros companyId lotId) id := by
  apply h.of_same (entriesAdded_moved productId src dest qtyMicros companyId lotId)
  · rfl
  · intro p' hp'
    obtain ⟨p, qtyAvailable, hp, rfl⟩ := get?_moved _ _ _ _ _ _ hp'
    exact ⟨p, hp, rfl⟩

/-- A layer and its entry after a move. -/
lemma booked_inLedger {usage : Usage} {value id : ℤ} {incoming : Bool} {link : Option ℤ}
    {account : AccountDb} {base : Table Layer} {f : Product → Product} (h : InLedger db id)
    (hentry : StockQuant.Posted now db productId usage value incoming companyId link account)
    (hcarried : productId = id → StockQuant.Carried db productId companyId usage value)
    (hbase : bookings base = bookings db.layers) (hproduct : l.productId = productId)
    (hcompany : l.companyId = nullIfZero companyId) (hlink : l.accountMoveId = link)
    (hcateg : ∀ p, (f p).categId = p.categId)
    (hworth : ∀ p, (f p).valueSvl = p.valueSvl + if incoming then value else -value) :
    InLedger { StockQuant.moved db productId src dest qtyMicros companyId lotId with
      account := account
      products := (StockQuant.moved db productId src dest qtyMicros companyId lotId).products.modify
        productId f
      layers := base.insert l } id := by
  have hadded : EntriesAdded db
      { StockQuant.moved db productId src dest qtyMicros companyId lotId with
        account := account
        products := (StockQuant.moved db productId src dest qtyMicros companyId lotId).products.modify
          productId f
        layers := base.insert l } := by
    apply EntriesAdded.mk'
    · intro j m hm
      exact hentry.moves hm
    · exact hentry.accounts
    · rfl
    · intro i
      exact (map_get?_modify_product _ _ hcateg i).trans (map_categId_moved _ _ _ _ _ _ i)
  apply h.insert hadded
  · rw [bookings_insert, bookings_insert, hbase]
  · intro j hj
    exact hentry.linked (hlink.symm.trans hj)
  · intro p' hp'
    obtain ⟨p₁, hp₁, rfl⟩ := get?_modify_product hp'
    obtain ⟨p, qtyAvailable, hp, rfl⟩ := get?_moved _ _ _ _ _ _ hp₁
    refine ⟨p, hp, ?_⟩
    rw [hproduct]
    by_cases hid : productId = id
    · rw [if_pos hid.symm, if_pos hid, hworth]
      rw [layerDebit, layerAccount, hproduct, hcompany, entryCompany_nullIfZero, hadded.accounts,
        hlink]
      show p.valueSvl + _ = p.valueSvl + linkedDebit account link _
      rw [hentry.debit (hcarried hid)]
    · rw [if_neg (fun heq => hid heq.symm), if_neg hid, add_zero]

/-- **A valued move.**  The layer it adds is booked with the value of its
entry. -/
theorem valued_inLedger {inputCostMicros id : ℤ} (h : InLedger db id)
    (hok : productId = id → MoveCarried db productId src dest qtyMicros companyId inputCostMicros)
    (hvalued : StockQuant.Valued now
      (StockQuant.moved db productId src dest qtyMicros companyId lotId) productId src dest qtyMicros
      companyId inputCostMicros db') : InLedger db' id := by
  have hposted : ∀ {usage value incoming link account},
      StockQuant.Posted now (StockQuant.moved db productId src dest qtyMicros companyId lotId)
        productId usage value incoming companyId link account →
      StockQuant.Posted now db productId usage value incoming companyId link account := by
    intro usage value incoming link account hentry
    have hcategory := @StockQuant.categoryOf_congr db
      (StockQuant.moved db productId src dest qtyMicros companyId lotId) productId rfl
      (map_categId_moved _ _ _ _ _ _ _)
    exact @StockQuant.Posted.congr now db
      (StockQuant.moved db productId src dest qtyMicros companyId lotId) _ _ _ _ _ _ _ rfl hcategory
      hentry
  cases hvalued with
  | unchanged _ => exact moved_inLedger h
  | @receipt p₁ link account hqty hsrc hdest hp₁ _ hentry =>
      obtain ⟨p, qtyAvailable, hp, rfl⟩ := get?_moved _ _ _ _ _ _ hp₁
      apply booked_inLedger h (hposted hentry)
      · intro hid
        exact (hok hid hqty p hp).1 hsrc hdest
      · rfl
      · rfl
      · rfl
      · rfl
      · intro p
        rfl
      · intro p
        rw [if_pos rfl]
        rfl
  | @issue p₁ outValue layers link account hqty hsrc hdest hp₁ hissue _ hentry =>
      obtain ⟨p, qtyAvailable, hp, rfl⟩ := get?_moved _ _ _ _ _ _ hp₁
      have hissue : StockQuant.issueValue db productId p qtyMicros = .ok (outValue, layers) := hissue
      apply booked_inLedger h (hposted hentry)
      · intro hid
        exact (hok hid hqty p hp).2 hsrc hdest (outValue, layers) (by rw [hissue]; rfl)
      · exact bookings_issueValue hissue
      · rfl
      · rfl
      · rfl
      · intro p
        rfl
      · intro p
        rw [if_neg Bool.false_ne_true]
        exact sub_eq_add_neg _ _

end Move

/-! ### Revaluations and landed costs -/

/-- A revaluation adds a layer and changes what is left of the others. -/
lemma bookings_revalueLayers {db : StockDb} {productId valueMicros : ℤ} {p : Product}
    {layers : Table Layer} (h : StockQuant.revalueLayers db productId valueMicros p = .ok layers) :
    bookings layers = bookings db.layers := by
  unfold StockQuant.revalueLayers at h
  split at h
  · rw [StockQuant.addValues_ok h]
    apply bookings_modifyAll
    intro d l
    rfl
  · cases h
    rfl

section Landed

variable {db db' : StockDb} {productId valueMicros companyId id : ℤ} {description : String}
  {layers : Table Layer}

/-- A revalued product, with or without an entry for its layer. -/
lemma revalued_inLedger {account : AccountDb} {layers' : Table Layer} {link : Option ℤ}
    (h : InLedger db id)
    (hmoves : ∀ j m, db.account.moves.get? j = some m → account.moves.get? j = some m)
    (haccounts : account.accounts = db.account.accounts)
    (hlayers : bookings layers' = bookings (db.layers.insert
      { StockQuant.revaluationLayer productId valueMicros description companyId with
        accountMoveId := link }))
    (hlink : ∀ j, link = some j → ∃ m, account.moves.get? j = some m)
    (hdebit : productId = id → linkedDebit account link
      (StockQuant.valuationAccount db productId (StockQuant.entryCompany companyId)) = valueMicros) :
    EntriesAdded db { db with
        account := account
        products := db.products.modify productId (StockQuant.revalued valueMicros)
        layers := layers' } ∧
      InLedger { db with
        account := account
        products := db.products.modify productId (StockQuant.revalued valueMicros)
        layers := layers' } id := by
  have hadded : EntriesAdded db { db with
      account := account
      products := db.products.modify productId (StockQuant.revalued valueMicros)
      layers := layers' } := by
    apply EntriesAdded.mk'
    · exact hmoves
    · exact haccounts
    · rfl
    · intro i
      apply map_get?_modify_product
      intro p
      rfl
  refine ⟨hadded, h.insert hadded hlayers hlink ?_⟩
  intro p' hp'
  obtain ⟨p, hp, rfl⟩ := get?_modify_product hp'
  refine ⟨p, hp, ?_⟩
  show _ = _ + if productId = id then _ else 0
  by_cases hid : productId = id
  · rw [if_pos hid.symm, if_pos hid, layerDebit, layerAccount]
    show _ = p.valueSvl + linkedDebit account link (StockQuant.valuationAccount _ productId
      (StockQuant.entryCompany ((nullIfZero companyId).getD 0)))
    rw [entryCompany_nullIfZero, hadded.accounts, hdebit hid]
    rfl
  · rw [if_neg (fun heq => hid heq.symm), if_neg hid, add_zero]

/-- A revaluation without an entry: the ledger knows of none of a product. -/
lemma revalue_inLedger {layerId : ℤ} (h : InLedger db id) (hother : productId = id → valueMicros = 0)
    (hrevalue : StockQuant.revalue db productId valueMicros description companyId =
      .ok (layerId, db')) : EntriesAdded db db' ∧ InLedger db' id := by
  rcases StockQuant.revalue_ok hrevalue with ⟨-, -, rfl⟩ | ⟨p, layers, hvalue, -, -, hlayers, rfl⟩
  · exact ⟨.refl _, h⟩
  · apply revalued_inLedger h (fun _ _ hm => hm) rfl (bookings_revalueLayers hlayers)
    · intro j hj
      cases hj
    · intro hid
      exact absurd (hother hid) hvalue

/-- A share of a landed cost that its entry carries: there is none, or it is
positive and posted from another account to the one the product is valued on. -/
def ChargeCarried (db : StockDb) (accts : Accounts) (ln : LandedCostLine)
    (c : ℤ × ℤ) : Prop :=
  c.2 = 0 ∨ (0 < c.2 ∧ 0 < accts.journalId ∧ 0 < accts.valAcct ∧
    accts.valAcct = StockQuant.valuationAccount db c.1 (StockQuant.entryCompany accts.comp) ∧
    0 < costAcct accts ln ∧ costAcct accts ln ≠ accts.valAcct)

instance (db : StockDb) (accts : Accounts) (ln : LandedCostLine) (c : ℤ × ℤ) :
    Decidable (ChargeCarried db accts ln c) :=
  inferInstanceAs (Decidable (_ ∨ _))

lemma ChargeCarried.congr {accts : Accounts} {ln : LandedCostLine} {c : ℤ × ℤ}
    (hadded : EntriesAdded db db') (h : ChargeCarried db accts ln c) :
    ChargeCarried db' accts ln c := by
  unfold ChargeCarried at h ⊢
  rw [hadded.accounts]
  exact h

/-- The bookings after a layer is linked are those with the linked layer. -/
lemma bookings_linkLayer {base : Table Layer} (hids : 0 < base.nextId)
    (hlayers : bookings layers = bookings (base.insert l)) (j : ℤ) :
    bookings (linkLayer layers base.nextId j) =
      bookings (base.insert { l with accountMoveId := some j }) := by
  let g : Layer → Layer := fun l => { l with accountMoveId := some j }
  have hcommute : ∀ l : Layer, (g l).booking = g l.booking := fun _ => rfl
  show bookings (linkLayer layers base.nextId j) = bookings (base.insert (g l))
  unfold linkLayer
  rw [if_pos hids, ← modify_insert base l g]
  show (layers.modify base.nextId g).update _ = ((base.insert l).modify base.nextId g).update _
  rw [update_modify _ _ hcommute, update_modify _ _ hcommute]
  exact congrArg (fun t => Table.modify t base.nextId g) hlayers

/-- **One share of a landed cost.** -/
theorem charge_inLedger {accts : Accounts} {ln : LandedCostLine} {c : ℤ × ℤ}
    (h : InLedger db id) (hok : c.1 = id → ChargeCarried db accts ln c)
    (hcharge : charge now accts ln db c = .ok db') :
    EntriesAdded db db' ∧ InLedger db' id := by
  rcases charge_ok hcharge with ⟨-, rfl⟩ | ⟨layerId, db₁, hrevalue, hposted⟩
  · exact ⟨.refl _, h⟩
  rcases StockQuant.revalue_ok hrevalue with ⟨-, rfl, rfl⟩ | ⟨p, layers, hvalue, -, rfl, hlayers, rfl⟩
  · -- the product is gone: an entry, and no layer to link it to
    cases hposted with
    | skipped _ => exact ⟨.refl _, h⟩
    | @entered account _ hentry =>
        have hadded : EntriesAdded db₁ { db₁ with
            account := account
            layers := linkLayer db₁.layers 0 db₁.account.moves.nextId } := by
          apply EntriesAdded.mk'
          · intro j m hm
            exact get?_postEntry hentry hm
          · exact accounts_postEntry hentry
          · rfl
          · intro i
            rfl
        exact ⟨hadded, h.of_same hadded rfl fun p hp => ⟨p, hp, rfl⟩⟩
  · have hbookings := bookings_revalueLayers hlayers
    cases hposted with
    | skipped hskip =>
        apply revalued_inLedger h (fun _ _ hm => hm) rfl hbookings
        · intro j hj
          cases hj
        · intro hid
          rcases hok hid with hzero | ⟨hpos, hjournal, hvaluation, -, hcost, -⟩
          · exact absurd hzero hvalue
          · omega
    | entered hpos hentry =>
        apply revalued_inLedger h (fun _ _ hm => get?_postEntry hentry hm)
          (accounts_postEntry hentry) (bookings_linkLayer h.ids hbookings _)
        · intro j hj
          cases hj
          exact exists_postEntry hentry
        · intro hid
          rcases hok hid with hzero | ⟨-, -, -, haccount, -, hother⟩
          · exact absurd hzero hvalue
          · refine (linkedDebit_postEntry hentry rfl _).trans ?_
            rw [← haccount, costLines]
            refine (accountBalance_pair _ _ hother _ _).trans ?_
            exact sub_zero _

end Landed

/-! ### Operations -/

/-- `others` is what other requests write of the transfers and of the landed
costs. -/
inductive ValuationOp where
  | applyMove (productId srcLocId destLocId qtyMicros companyId inputCostMicros lotId : ℤ)
  | validateLandedCost (id : ℤ)
  | revalue (productId valueMicros : ℤ) (description : String) (companyId : ℤ)
  | others (moves : Table StockMove) (landedCosts : Table LandedCost)

section Runs

variable (D : Type) [SplitDouble D]

def ValuationOp.run (now : Moment) (db : WarehouseDb) : ValuationOp → Except String WarehouseDb
  | applyMove productId src dest qtyMicros companyId inputCostMicros lotId => do
      let stock ← StockQuant.applyMove now db.stock productId src dest qtyMicros companyId
        inputCostMicros lotId
      return { db with stock := stock }
  | validateLandedCost id => handleValidate D now db id
  | revalue productId valueMicros description companyId => do
      let (_, stock) ← StockQuant.revalue db.stock productId valueMicros description companyId
      return { db with stock := stock }
  | others moves landedCosts => .ok { db with moves := moves, landedCosts := landedCosts }

/-- An event leads on when its operation succeeds. -/
def valuationStep (db : WarehouseDb) (e : Moment × ValuationOp) : Option WarehouseDb :=
  (e.2.run D e.1 db).toOption

/-- The steps that keep a product's value in the ledger: every value that is
booked for it is carried by an entry, and none is booked without one. -/
def KeepsLedger (productId : ℤ) (db : WarehouseDb) : ValuationOp → Prop
  | .applyMove id src dest qtyMicros companyId inputCostMicros _ =>
      id = productId → MoveCarried db.stock id src dest qtyMicros companyId inputCostMicros
  | .validateLandedCost id => ∀ lc ∈ db.landedCosts.get? id, lc.done = false →
      ∀ pickingId ∈ lc.pickingId, ∀ prods ∈ (LandedCost.received db pickingId).toOption,
      ∀ ln ∈ lc.lines, ∀ cs ∈ (charges D ln prods).toOption, ∀ c ∈ cs, c.1 = productId →
          ChargeCarried db.stock (accountsOf db.stock (companyOf lc)) ln c
  | .revalue id valueMicros _ _ => id = productId → valueMicros = 0
  | .others _ _ => True

variable {D}

variable {db db' : WarehouseDb}

lemma valuationStep_eq_some_iff {e : Moment × ValuationOp} :
    valuationStep D db e = some db' ↔ e.2.run D e.1 db = .ok db' :=
  toOption_eq_some_iff

/-- **A landed cost.**  Its lines charge the products in turn; what one charge
adds to the ledger does not change the accounts of the next. -/
theorem handleValidate_inLedger {id productId : ℤ} (h : InLedger db.stock productId)
    (hok : KeepsLedger D productId db (.validateLandedCost id))
    (hvalidate : handleValidate D now db id = .ok db') : InLedger db'.stock productId := by
  rcases handleValidate_ok hvalidate with
    rfl | ⟨lc, pickingId, prods, stock, hlc, hdone, hpicking, hprods, hlines, rfl⟩
  · exact h
  have hcharges : ∀ ln ∈ lc.lines, ∀ cs, charges D ln prods = .ok cs → ∀ c ∈ cs, c.1 = productId →
        ChargeCarried db.stock (accountsOf db.stock (companyOf lc)) ln c := by
    intro ln hln cs hcs
    exact hok lc hlc hdone pickingId hpicking prods (by rw [hprods]; rfl) ln hln cs
      (by rw [hcs]; rfl)
  have hfinal : EntriesAdded db.stock stock ∧ InLedger stock productId := by
    refine @foldlM_invariant _ _ _ _ _ (fun st => EntriesAdded db.stock st ∧ InLedger st productId)
      _ _ _ ?_ (inTurn_of_forall db.stock fun ln hln => hln) hlines ⟨.refl _, h⟩
    rintro st ln st' ⟨hadded, hst⟩ hln hline
    obtain ⟨cs, hcs, hfold⟩ := bind_ok_iff.mp hline
    refine @foldlM_invariant _ _ _ _ _ (fun st => EntriesAdded db.stock st ∧ InLedger st productId)
      _ _ _ ?_ (inTurn_of_forall st fun c hc => hc) hfold ⟨hadded, hst⟩
    rintro st₁ c st₂ ⟨hadded₁, hst₁⟩ hc hcharge
    obtain ⟨hadded₂, hst₂⟩ := charge_inLedger hst₁
      (fun hid => (hcharges ln hln cs hcs c hc hid).congr hadded₁) hcharge
    exact ⟨hadded₁.trans hadded₂, hst₂⟩
  exact hfinal.2

lemma valuationOp_inLedger {op : ValuationOp} {productId : ℤ} (h : InLedger db.stock productId)
    (hok : KeepsLedger D productId db op) (hrun : op.run D now db = .ok db') :
    InLedger db'.stock productId := by
  cases op with
  | applyMove id src dest qtyMicros companyId inputCostMicros lotId =>
      obtain ⟨stock, hmove, hrun⟩ := bind_ok_iff.mp hrun
      cases hrun
      rcases StockQuant.applyMove_ok hmove with ⟨-, rfl⟩ | ⟨-, -, -, hvalued⟩
      · exact h
      · exact valued_inLedger h hok hvalued
  | validateLandedCost id => exact handleValidate_inLedger h hok hrun
  | revalue id valueMicros description companyId =>
      obtain ⟨⟨layerId, stock⟩, hrevalue, hrun⟩ := bind_ok_iff.mp hrun
      cases hrun
      exact (revalue_inLedger h hok hrevalue).2
  | others moves landedCosts =>
      cases hrun
      exact h

/-- **The value of the stock is in the general ledger.**  From empty stock
tables, over every run of moves, landed costs and revaluations whose values are
carried by their entries, the entries of a product's layers have put on its
valuation account what the product is worth. -/
theorem valuation_in_ledger (db db' : WarehouseDb) (productId : ℤ) (hempty : EmptyStock db.stock)
    (hids : 0 < db.stock.layers.nextId)
    (hrun : Reaches (valuationStep D) (fun db e => KeepsLedger D productId db e.2) db db') (p : Product)
    (hp : db'.stock.products.get? productId = some p) : glValue db'.stock productId = p.valueSvl := by
  have h0 : InLedger db.stock productId := by
    constructor
    · exact hids
    · intro id l j hl
      have hmem := get?_eq_some_iff.mp hl
      rw [hempty.layers] at hmem
      cases hmem
    · intro p hp
      rw [(hempty.products (productId, p) (get?_eq_some_iff.mp hp)).2.2]
      exact hempty.layersSum productId _
  have hfinal : InLedger db'.stock productId := by
    refine @Reaches.invariant _ _ _ _ (fun db => InLedger db.stock productId) _ _ hrun ?_ h0
    rintro db₁ ⟨now, op⟩ db₂ h₁ hok hs
    exact valuationOp_inLedger h₁ hok (valuationStep_eq_some_iff.mp hs)
  exact hfinal.value p hp

end Runs

/-! ### A receipt and its freight -/

/-- The stock journal and the accounts a company falls back on are there. -/
def Configured (db : StockDb) (comp : ℤ) : Prop :=
  0 < StockQuant.stockJournal db comp ∧
    ∀ code ∈ ["1400", "1410", "1430", "5000", "5100", "5200"], 0 < StockQuant.acctByCode db comp code

/-- Moves and landed costs; a bare revaluation leaves its entry to its caller. -/
def PostsItself : ValuationOp → Prop
  | .revalue _ _ _ _ => False
  | _ => True

/-- The accounts of a company; the last one is nobody's fallback. -/
def stockAccounts : AccountDb where
  accounts := ["1400", "1410", "1430", "5000", "5100", "5200", "1405"].foldl
    (fun t code => t.insert { code := code, accountType := .other }) .empty
  journals := Table.empty.insert { code := "STJ", type := .other }

/-- A receipt of a product in a category, and freight to be added to it. -/
def freightWarehouse (categ : ProductCategory) : WarehouseDb where
  stock := { smallWarehouse { name := "Bolt", categId := some 1 } with
    account := stockAccounts
    categories := Table.empty.insert categ }
  moves := Table.empty.insert
    { pickingId := some 1, productId := 1, quantity := 3000000, state := .done, locationId := 2,
      locationDestId := 1 }
  landedCosts := Table.empty.insert
    { pickingId := some 1, lines := [{ name := "freight", price := 500000 }] }

variable (categ : ProductCategory)

lemma freightWarehouse_empty : EmptyStock (freightWarehouse categ).stock where
  quants := rfl
  layers := rfl
  products := by
    intro r hr
    cases List.mem_singleton.mp hr
    exact ⟨rfl, rfl, rfl⟩

lemma freightWarehouse_configured : Configured (freightWarehouse categ).stock 1 := by
  show 0 < StockQuant.stockJournal { account := stockAccounts } 1 ∧ ∀ code ∈ _,
    0 < StockQuant.acctByCode { account := stockAccounts } 1 code
  decide

/-- Three units received at two, and their freight. -/
def receiptAndFreight : List (Moment × ValuationOp) :=
  [(february, .applyMove 1 2 1 3000000 1 2000000 0), (february, .validateLandedCost 1)]

instance : DecidablePred PostsItself
  | .applyMove _ _ _ _ _ _ _ => inferInstanceAs (Decidable True)
  | .validateLandedCost _ => inferInstanceAs (Decidable True)
  | .revalue _ _ _ _ => inferInstanceAs (Decidable False)
  | .others _ _ => inferInstanceAs (Decidable True)

instance (productId : ℤ) (db : WarehouseDb) :
    DecidablePred (@KeepsLedger ℚ SplitDouble.exact productId db)
  | .applyMove id src dest qtyMicros companyId inputCostMicros _ =>
      inferInstanceAs (Decidable (id = productId →
        MoveCarried db.stock id src dest qtyMicros companyId inputCostMicros))
  | .validateLandedCost id =>
      inferInstanceAs (Decidable (∀ lc ∈ db.landedCosts.get? id, lc.done = false →
        ∀ pickingId ∈ lc.pickingId, ∀ prods ∈ (LandedCost.received db pickingId).toOption,
        ∀ ln ∈ lc.lines, ∀ cs ∈ (@charges ℚ SplitDouble.exact ln prods).toOption,
        ∀ c ∈ cs, c.1 = productId →
          ChargeCarried db.stock (accountsOf db.stock (companyOf lc)) ln c))
  | .revalue id valueMicros _ _ => inferInstanceAs (Decidable (id = productId → valueMicros = 0))
  | .others _ _ => inferInstanceAs (Decidable True)

theorem valuation_in_ledger_freight : ∃ db' p, execute (@valuationStep ℚ SplitDouble.exact)
        (fun db e => @KeepsLedger ℚ SplitDouble.exact 1 db e.2) receiptAndFreight
        (freightWarehouse {}) = some db' ∧
      db'.stock.products.get? 1 = some p ∧ glValue db'.stock 1 = p.valueSvl := by
  have hrun : ((execute (@valuationStep ℚ SplitDouble.exact)
      (fun db e => @KeepsLedger ℚ SplitDouble.exact 1 db e.2) receiptAndFreight
      (freightWarehouse {})).any fun db => (db.stock.products.get? 1).any fun _ => true) = true := by
    decide +kernel
  obtain ⟨db', hrun, hproduct⟩ := (any_eq_true _ _).mp hrun
  obtain ⟨p, hp, -⟩ := (any_eq_true _ _).mp hproduct
  exact ⟨db', p, hrun, hp, @valuation_in_ledger ℚ SplitDouble.exact _ db' 1
    (freightWarehouse_empty _) (by decide) (reaches_of_execute hrun) p hp⟩

/-- The product's category has an account of its own: the receipt goes there, and
the freight does not. -/
theorem freight_misses_valuation_account :
    ¬ ∀ (db db' : WarehouseDb) (productId : ℤ), EmptyStock db.stock → 0 < db.stock.layers.nextId →
      Configured db.stock 1 →
      Reaches (@valuationStep ℚ SplitDouble.exact) (fun _ e => PostsItself e.2) db db' →
      ∀ p, db'.stock.products.get? productId = some p →
        glValue db'.stock productId = p.valueSvl := by
  intro h
  have hrun : ((execute (@valuationStep ℚ SplitDouble.exact) (fun _ e => PostsItself e.2)
      receiptAndFreight (freightWarehouse { stockValuationAccountId := some 7 })).any fun db =>
        (db.stock.products.get? 1).any fun p =>
          decide (glValue db.stock 1 ≠ p.valueSvl)) = true := by
    decide +kernel
  obtain ⟨db, hrun, hproduct⟩ := (any_eq_true _ _).mp hrun
  obtain ⟨p, hp, hmisses⟩ := (any_eq_true _ _).mp hproduct
  exact of_decide_eq_true hmisses
    (h _ db 1 (freightWarehouse_empty _) (by decide) (freightWarehouse_configured _)
      (reaches_of_execute hrun) p hp)

end CErp
