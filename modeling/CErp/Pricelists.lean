/-
Pricelists: an ordered set of rules, of which the first that matches gives the
price.  Rules are ordered narrowest first, then by `sequence` and id.

A percentage is taken off after the base has been truncated to whole units, so a
price is as its rule states only where the two divisions cut off no more than a
micro-unit (`withinOne_percentOff_iff`).  The breakdown does not read the dates of
a rule, so it names the rule a price was resolved with only where no rule out of
its dates comes before that one (`pricelist_rules_stated`).
-/
import CErp.DatedEntries
import CErp.Rounding
import CErp.StockDb

namespace CErp

open Outcome List Money Table

/-! ### Rows -/

/-- How narrowly a rule applies. -/
inductive AppliedOn where
  | productVariant
  | product
  | productCategory
  | global
  deriving DecidableEq

namespace AppliedOn

def text : AppliedOn → String
  | productVariant => "0_product_variant"
  | product => "1_product"
  | productCategory => "2_product_category"
  | global => "3_global"

/-- The codes sort narrowest first. -/
def rank : AppliedOn → ℕ
  | productVariant => 0
  | product => 1
  | productCategory => 2
  | global => 3

end AppliedOn

inductive ComputePrice where
  | fixed
  | percentage
  | formula
  deriving DecidableEq

def ComputePrice.text : ComputePrice → String
  | fixed => "fixed"
  | percentage => "percentage"
  | formula => "formula"

inductive PriceBase where
  | listPrice
  | standardPrice
  deriving DecidableEq

def PriceBase.text : PriceBase → String
  | listPrice => "list_price"
  | standardPrice => "standard_price"

/-- A row of `product_pricelist_item`; dates are days. -/
structure PricelistItem where
  pricelistId : ℤ
  appliedOn : AppliedOn := .global
  productId : Option ℤ := none
  productTmplId : Option ℤ := none
  categId : Option ℤ := none
  minQuantity : ℤ := 0
  dateStart : Option ℤ := none
  dateEnd : Option ℤ := none
  computePrice : ComputePrice := .fixed
  fixedPrice : ℤ := 0
  percentPrice : ℤ := 0
  base : PriceBase := .listPrice
  priceDiscount : ℤ := 0
  priceSurcharge : ℤ := 0
  sequence : ℤ := 10
  deriving DecidableEq

/-- What a price reads of a row of `product_product`. -/
structure PricedProduct where
  listPrice : Option ℤ := some 0
  standardPrice : Option ℤ := some 0
  categId : Option ℤ := none
  productTmplId : Option ℤ := none
  deriving DecidableEq

structure PriceDb where
  products : Table PricedProduct := .empty
  items : Table PricelistItem := .empty

/-- A call's arguments, the day already a date. -/
structure PriceArgs where
  list : ℤ := 0
  product : ℤ := 0
  qty : ℤ := 1000000
  date : ℤ
  deriving DecidableEq

/-- An entry of the breakdown. -/
structure BreakdownEntry where
  id : ℤ
  appliedOn : String
  computePrice : String
  minQuantity : Money
  applies : Bool
  deriving DecidableEq

namespace Pricelists

/-! ### Rules -/

/-- The rule is for this product. -/
def isFor (productId : ℤ) (p : PricedProduct) (i : PricelistItem) : Bool :=
  match i.appliedOn with
  | .productVariant => i.productId == some productId
  | .product => i.productTmplId == some (p.productTmplId.getD 0)
  | .productCategory => i.categId == some (p.categId.getD 0)
  | .global => true

def isReached (qtyMicros : ℤ) (i : PricelistItem) : Bool := i.minQuantity ≤ qtyMicros

/-- The date is within the rule's dates. -/
def isInDate (date : ℤ) (i : PricelistItem) : Bool :=
  (i.dateStart.all fun d => decide (d ≤ date)) && (i.dateEnd.all fun d => decide (date ≤ d))

/-- `ORDER BY applied_on, sequence, id`. -/
def key (r : ℤ × PricelistItem) : ℕ ×ₗ ℤ ×ₗ ℤ :=
  toLex (r.2.appliedOn.rank, toLex (r.2.sequence, r.1))

section Query

variable (db : PriceDb) (a : PriceArgs) (p : PricedProduct)

/-- The rules of the list for the product. -/
def candidates : List (ℤ × PricelistItem) :=
  db.items.rows.filter fun r => r.2.pricelistId == a.list && isFor a.product p r.2

/-- The rule a price is resolved with. -/
def ruleFor : Option (ℤ × PricelistItem) :=
  (FirstMatch.sorted key ((candidates db a p).filter fun r =>
    isReached a.qty r.2 && isInDate a.date r.2)).head?

end Query

/-! ### Prices -/

def baseVal (p : PricedProduct) (i : PricelistItem) : ℤ :=
  match i.base with
  | .standardPrice => p.standardPrice.getD 0
  | .listPrice => p.listPrice.getD 0

/-- A base less a percentage of micro-percent. -/
def percentOff (base pct : ℤ) : Except String ℤ := do
  let off ← bigint (base.tdiv 1000000 * pct)
  bigint (base - off.tdiv 100)

/-- What a rule makes of a product's prices, and why. -/
def rulePrice (p : PricedProduct) (id : ℤ) (i : PricelistItem) : Except String (ℤ × String) :=
  match i.computePrice with
  | .fixed => .ok (i.fixedPrice, "fixed price (rule " ++ toString id ++ ")")
  | .percentage => do
      let out ← percentOff (baseVal p i) i.percentPrice
      return (out, "percentage off (rule " ++ toString id ++ ")")
  | .formula => do
      let out ← percentOff (baseVal p i) i.priceDiscount
      let out ← bigint (out + i.priceSurcharge)
      return (out, "formula on " ++ i.base.text ++ " (rule " ++ toString id ++ ")")

/-- The unit price for a list, a product, a quantity and a date, and why. -/
def resolve (db : PriceDb) (a : PriceArgs) : Except String (ℤ × String) :=
  match db.products.get? a.product with
  | none => .error "No such product."
  | some p =>
      let listPrice := p.listPrice.getD 0
      if a.list ≤ 0 then .ok (listPrice, "no pricelist: list price")
      else
        match ruleFor db a p with
        | none => .ok (listPrice, "no rule matched: list price")
        | some (id, i) => (rulePrice p id i).map fun r => (max 0 r.1, r.2)

def entry (qtyMicros : ℤ) (r : ℤ × PricelistItem) : BreakdownEntry where
  id := r.1
  appliedOn := r.2.appliedOn.text
  computePrice := r.2.computePrice.text
  minQuantity := ⟨r.2.minQuantity, 0⟩
  applies := isReached qtyMicros r.2

/-- Every rule that could apply, in the order they are considered. -/
def handleBreakdown (db : PriceDb) (a : PriceArgs) : Except String (List BreakdownEntry) :=
  if a.product ≤ 0 ∨ a.list ≤ 0 then .error "A pricelist and a product are required."
  else
    match db.products.get? a.product with
    | none => .ok []
    | some p => .ok ((FirstMatch.sorted key (candidates db a p)).map (entry a.qty))

/-! ### What a rule states -/

/-- The percentage and the surcharge a rule prices with; a fixed price has none. -/
def terms (i : PricelistItem) : Option (ℤ × ℤ) :=
  match i.computePrice with
  | .fixed => none
  | .percentage => some (i.percentPrice, 0)
  | .formula => some (i.priceDiscount, i.priceSurcharge)

/-- The exact price of a percentage and a surcharge, in micro-units. -/
def stated (base pct surcharge : ℤ) : ℚ := base - base * (pct / 1000000) / 100 + surcharge

/-- What the two divisions cut off, in units of 10⁻⁸ micro-units. -/
def cutOff (base pct : ℤ) : ℤ :=
  1000000 * (base.tdiv 1000000 * pct).tmod 100 + base.tmod 1000000 * pct

/-- The divisions cut off a micro-unit at most, or the price is at most one with
what they cut off and without it. -/
def IsPrecise (base pct surcharge : ℤ) : Prop :=
  |cutOff base pct| ≤ 100000000 ∨ stated base pct surcharge ≤ 1 ∧
      stated base pct surcharge + cutOff base pct / 100000000 ≤ 1

/-- The rule matches, and comes before every other rule that does. -/
structure IsFirst (db : PriceDb) (a : PriceArgs) (p : PricedProduct) (r : ℤ × PricelistItem) :
    Prop where
  mem : r ∈ candidates db a p
  reached : isReached a.qty r.2 = true
  inDate : isInDate a.date r.2 = true
  least : ∀ s ∈ candidates db a p, isReached a.qty s.2 = true → isInDate a.date s.2 = true →
    key r ≤ key s

/-- The price is the one the first matching rule states, and the breakdown
explains it by that rule. -/
structure PricedAsStated (db : PriceDb) (a : PriceArgs) (p : PricedProduct) (price : ℤ) : Prop where
  picks : ∀ r, ruleFor db a p = some r ↔ IsFirst db a p r
  near : ∀ r pct surcharge, IsFirst db a p r → terms r.2 = some (pct, surcharge) →
    |(price : ℚ) - max 0 (stated (baseVal p r.2) pct surcharge)| ≤ 1
  explains : ∃ entries, handleBreakdown db a = .ok entries ∧
    (entries.find? BreakdownEntry.applies).map BreakdownEntry.id = (ruleFor db a p).map Prod.fst

/-- Prices up to 10¹² and percentages up to 10⁸ micro-units. -/
structure InRange (p : PricedProduct) (i : PricelistItem) : Prop where
  base : |baseVal p i| ≤ 10 ^ 12
  pct : ∀ pct surcharge, terms i = some (pct, surcharge) → |pct| ≤ 10 ^ 8 ∧ |surcharge| ≤ 10 ^ 12

/-! ### Selection -/

variable {r : ℤ × PricelistItem}

section Selection

variable {db : PriceDb} {a : PriceArgs} {p : PricedProduct}

lemma key_injective : ∀ r ∈ candidates db a p, ∀ s ∈ candidates db a p, key r = key s → r = s := by
  intro r hr s hs h
  have hid : r.1 = s.1 := by
    have hpair := congrArg ofLex h
    have hinner := congrArg (fun k => ofLex k.2) hpair
    exact (Prod.mk.inj hinner).2
  have hr := (mem_filter.mp hr).1
  have hs := (mem_filter.mp hs).1
  obtain ⟨id, i⟩ := r
  obtain ⟨id', i'⟩ := s
  obtain rfl : id = id' := hid
  rw [eq_of_mem hr hs]

lemma ruleFor_eq_find : ruleFor db a p =
    (FirstMatch.sorted key (candidates db a p)).find? fun r =>
      isReached a.qty r.2 && isInDate a.date r.2 :=
  FirstMatch.head?_sorted_filter _ _

lemma ruleFor_eq_some_iff : ruleFor db a p = some r ↔ IsFirst db a p r := by
  rw [ruleFor_eq_find, FirstMatch.find?_sorted_eq_some_iff key_injective]
  simp only [Bool.and_eq_true]
  constructor
  · rintro ⟨hmem, ⟨hreached, hdate⟩, hleast⟩
    exact ⟨hmem, hreached, hdate, fun s hs h h' => hleast s hs ⟨h, h'⟩⟩
  · intro h
    exact ⟨h.mem, ⟨h.reached, h.inDate⟩, fun s hs h' => h.least s hs h'.1 h'.2⟩

/-- The breakdown's first entry that applies is the first rule whose quantity is
reached. -/
lemma find?_entries (l : List (ℤ × PricelistItem)) :
    ((l.map (entry a.qty)).find? BreakdownEntry.applies).map BreakdownEntry.id =
      (l.find? fun r => isReached a.qty r.2).map Prod.fst := by
  rw [find?_map, Option.map_map]
  rfl

/-- No rule out of its dates comes before every match. -/
def NoneOutdated (db : PriceDb) (a : PriceArgs) (p : PricedProduct) : Prop :=
  ∀ r ∈ candidates db a p, isReached a.qty r.2 = true → isInDate a.date r.2 = false →
    ∃ m ∈ candidates db a p, isReached a.qty m.2 = true ∧ isInDate a.date m.2 = true ∧ key m < key r

lemma map_fst_eq_iff {o o' : Option (ℤ × PricelistItem)} (ho : ∀ r ∈ o, r ∈ candidates db a p)
    (ho' : ∀ r ∈ o', r ∈ candidates db a p) : o.map Prod.fst = o'.map Prod.fst ↔ o = o' := by
  constructor
  · intro h
    rcases o with - | r <;> rcases o' with - | s
    · rfl
    · cases h
    · cases h
    · have hr := (mem_filter.mp (ho r rfl)).1
      have hs := (mem_filter.mp (ho' s rfl)).1
      obtain ⟨id, i⟩ := r
      obtain ⟨id', i'⟩ := s
      obtain rfl : id = id' := Option.some.inj h
      rw [eq_of_mem hr hs]
  · rintro rfl
    rfl

lemma explains_iff (hp : db.products.get? a.product = some p) (hlist : 0 < a.list)
    (hproduct : 0 < a.product) :
    (∃ entries, handleBreakdown db a = .ok entries ∧
      (entries.find? BreakdownEntry.applies).map BreakdownEntry.id =
        (ruleFor db a p).map Prod.fst) ↔ NoneOutdated db a p := by
  have hbreakdown : handleBreakdown db a =
      .ok ((FirstMatch.sorted key (candidates db a p)).map (entry a.qty)) := by
    unfold handleBreakdown
    rw [if_neg (by omega), hp]
  have hmem : ∀ {q : ℤ × PricelistItem → Bool},
      ∀ r ∈ (FirstMatch.sorted key (candidates db a p)).find? q, r ∈ candidates db a p := by
    intro q r hr
    exact FirstMatch.mem_sorted.mp (mem_of_find?_eq_some hr)
  have hsame := FirstMatch.find?_sorted_eq_iff (l := candidates db a p)
    (p := fun r => isReached a.qty r.2)
    (q := fun r => isReached a.qty r.2 && isInDate a.date r.2) key_injective
    (fun r h => (Bool.and_eq_true_iff.mp h).1)
  rw [hbreakdown]
  simp only [Except.ok.injEq, exists_eq_left']
  rw [find?_entries, ruleFor_eq_find, map_fst_eq_iff hmem hmem, hsame]
  apply forall₂_congr
  intro r hr
  apply forall_congr'
  intro hreached
  rw [hreached, Bool.true_and]
  apply forall_congr'
  intro hdate
  simp only [Bool.and_eq_true, and_assoc]

end Selection

/-! ### Figures -/

section Figures

variable {base pct surcharge v : ℤ}

lemma percentOff_ok_iff : percentOff base pct = .ok v ↔ FitsInt64 (base.tdiv 1000000 * pct) ∧
      FitsInt64 (base - (base.tdiv 1000000 * pct).tdiv 100) ∧
      base - (base.tdiv 1000000 * pct).tdiv 100 = v := by
  unfold percentOff
  rw [bind_ok_iff]
  constructor
  · rintro ⟨off, hoff, h⟩
    obtain ⟨hfits, rfl⟩ := bigint_ok_iff.mp hoff
    exact ⟨hfits, bigint_ok_iff.mp h⟩
  · rintro ⟨hfits, h⟩
    exact ⟨_, bigint_ok_iff.mpr ⟨hfits, rfl⟩, bigint_ok_iff.mpr h⟩

/-- A computed price is the stated one and what the divisions cut off. -/
lemma percentOff_eq (h : percentOff base pct = .ok v) :
    ((v + surcharge : ℤ) : ℚ) = stated base pct surcharge + cutOff base pct / 100000000 := by
  obtain ⟨-, -, rfl⟩ := percentOff_ok_iff.mp h
  have hwhole := Int.tdiv_mul_add_tmod base 1000000
  have hcents := Int.tdiv_mul_add_tmod (base.tdiv 1000000 * pct) 100
  unfold stated cutOff
  generalize base.tdiv 1000000 = q at hwhole hcents ⊢
  generalize base.tmod 1000000 = rest at hwhole ⊢
  generalize (q * pct).tdiv 100 = off at hcents ⊢
  generalize (q * pct).tmod 100 = cents at hcents ⊢
  have hcents : (off : ℚ) * 100 + cents = q * pct := by exact_mod_cast hcents
  subst hwhole
  push_cast
  linear_combination -hcents / 100

/-- Two amounts are within one of each other above zero. -/
lemma abs_max_sub_max_le_one_iff {x y : ℚ} :
    |max 0 x - max 0 y| ≤ 1 ↔ |x - y| ≤ 1 ∨ (y ≤ 1 ∧ x ≤ 1) := by
  simp only [abs_le]
  rcases le_total 0 x with hx | hx <;> rcases le_total 0 y with hy | hy
  · rw [max_eq_right hx, max_eq_right hy]
    constructor
    · exact .inl
    · rintro (h | h)
      · exact h
      · constructor <;> linarith
  · rw [max_eq_right hx, max_eq_left hy]
    constructor
    · rintro ⟨-, h⟩
      exact .inr (by constructor <;> linarith)
    · rintro (h | h)
      · constructor <;> linarith
      · constructor <;> linarith
  · rw [max_eq_left hx, max_eq_right hy]
    constructor
    · rintro ⟨h, -⟩
      exact .inr (by constructor <;> linarith)
    · rintro (h | h)
      · constructor <;> linarith
      · constructor <;> linarith
  · rw [max_eq_left hx, max_eq_left hy]
    constructor
    · intro
      exact .inr (by constructor <;> linarith)
    · intro
      norm_num

/-- **A computed price is within a micro-unit of the stated one** exactly when
little enough is cut off. -/
theorem withinOne_percentOff_iff (h : percentOff base pct = .ok v) :
    |((max 0 (v + surcharge) : ℤ) : ℚ) - max 0 (stated base pct surcharge)| ≤ 1 ↔
      IsPrecise base pct surcharge := by
  have hcut : |(cutOff base pct : ℚ) / 100000000| ≤ 1 ↔ |cutOff base pct| ≤ 100000000 := by
    rw [abs_div, div_le_one (by norm_num)]
    norm_cast
  rw [Int.cast_max, Int.cast_zero, percentOff_eq h, abs_max_sub_max_le_one_iff,
    add_sub_cancel_left, hcut]
  rfl

lemma abs_tdiv_le {n bound d : ℤ} (hd : 0 < d) (h : |n| ≤ bound * d) : |n.tdiv d| ≤ bound := by
  have hle : |n.tdiv d| * d ≤ |n| := by
    rw [Int.abs_eq_natAbs, Int.abs_eq_natAbs, Int.natAbs_tdiv]
    obtain ⟨k, rfl⟩ := Int.eq_ofNat_of_zero_le hd.le
    exact_mod_cast Nat.div_mul_le_self n.natAbs k
  exact le_of_mul_le_mul_right (hle.trans h) hd

/-- No overflow for prices up to 10¹² and percentages up to 10⁸. -/
lemma exists_percentOff (hb : |base| ≤ 10 ^ 12) (hp : |pct| ≤ 10 ^ 8) :
    ∃ v, percentOff base pct = .ok v ∧ |v| ≤ 2 * 10 ^ 12 := by
  have hunits : |base.tdiv 1000000| ≤ 10 ^ 6 := abs_tdiv_le (by decide) hb
  have hmul : |base.tdiv 1000000 * pct| ≤ 10 ^ 12 * 100 := by
    rw [abs_mul]
    exact (mul_le_mul hunits hp (abs_nonneg pct) (by decide)).trans (by decide)
  have hoff := abs_tdiv_le (by decide) hmul
  rw [abs_le] at hb hmul hoff
  refine ⟨_, percentOff_ok_iff.mpr ⟨?_, ?_, rfl⟩, ?_⟩
  · unfold FitsInt64 int64Min int64Max
    omega
  · unfold FitsInt64 int64Min int64Max
    omega
  · rw [abs_le]
    omega

end Figures

/-! ### Prices as stated -/

section Prices

variable {db : PriceDb} {a : PriceArgs} {p : PricedProduct}

/-- A rule's price, when it has terms. -/
lemma rulePrice_of_terms {id pct surcharge : ℤ} {i : PricelistItem} {out : ℤ} {why : String}
    (hterms : terms i = some (pct, surcharge)) (h : rulePrice p id i = .ok (out, why)) :
    ∃ v, percentOff (baseVal p i) pct = .ok v ∧ out = v + surcharge := by
  unfold terms at hterms
  unfold rulePrice at h
  rcases hmode : i.computePrice with - | - | - <;> rw [hmode] at hterms h
  · cases hterms
  · cases hterms
    obtain ⟨v, hv, h⟩ := bind_ok_iff.mp h
    cases h
    exact ⟨_, hv, (add_zero _).symm⟩
  · cases hterms
    obtain ⟨v, hv, h⟩ := bind_ok_iff.mp h
    obtain ⟨w, hw, h⟩ := bind_ok_iff.mp h
    cases h
    exact ⟨v, hv, bigint_ok hw⟩

lemma exists_rulePrice (id : ℤ) {i : PricelistItem} (h : InRange p i) :
    ∃ r, rulePrice p id i = .ok r := by
  unfold rulePrice
  rcases hmode : i.computePrice with - | - | -
  · exact ⟨_, rfl⟩
  · obtain ⟨hpct, -⟩ := h.pct i.percentPrice 0 (by unfold terms; rw [hmode])
    obtain ⟨v, hv, -⟩ := exists_percentOff h.base hpct
    exact ⟨_, by rw [hv]; rfl⟩
  · obtain ⟨hpct, hsurcharge⟩ :=
      h.pct i.priceDiscount i.priceSurcharge (by unfold terms; rw [hmode])
    obtain ⟨v, hv, hle⟩ := exists_percentOff h.base hpct
    have hsum : bigint (v + i.priceSurcharge) = .ok (v + i.priceSurcharge) := by
      rw [bigint_ok_iff]
      refine ⟨?_, rfl⟩
      unfold FitsInt64 int64Min int64Max
      rw [abs_le] at hle hsurcharge
      omega
    refine ⟨(v + i.priceSurcharge, "formula on " ++ i.base.text ++ " (rule " ++ toString id ++ ")"),
      ?_⟩
    rw [hv]
    change (bigint (v + i.priceSurcharge) >>= _) = _
    rw [hsum]
    rfl

lemma resolve_eq (hp : db.products.get? a.product = some p) (hlist : 0 < a.list)
    (hr : IsFirst db a p r) :
    resolve db a = (rulePrice p r.1 r.2).map fun r => (max 0 r.1, r.2) := by
  unfold resolve
  rw [hp]
  dsimp only
  rw [if_neg (not_le.mpr hlist), ruleFor_eq_some_iff.mpr hr]

/-- **A price is as stated, and the breakdown explains it,** exactly when the
divisions of its rule cut off a micro-unit at most and no rule out of its dates
comes before every match. -/
theorem pricelist_rules_stated (hp : db.products.get? a.product = some p) (hlist : 0 < a.list)
    (hproduct : 0 < a.product) :
    ((∀ r, IsFirst db a p r → InRange p r.2) → ∃ price why, resolve db a = .ok (price, why)) ∧
      ∀ price why, resolve db a = .ok (price, why) → (PricedAsStated db a p price ↔
          (∀ r pct surcharge, IsFirst db a p r → terms r.2 = some (pct, surcharge) →
            IsPrecise (baseVal p r.2) pct surcharge) ∧ NoneOutdated db a p) := by
  refine ⟨?_, ?_⟩
  · intro hrange
    rcases hrule : ruleFor db a p with - | r
    · refine ⟨p.listPrice.getD 0, "no rule matched: list price", ?_⟩
      unfold resolve
      rw [hp]
      dsimp only
      rw [if_neg (not_le.mpr hlist), hrule]
    · have hr := ruleFor_eq_some_iff.mp hrule
      obtain ⟨⟨out, why⟩, hout⟩ := exists_rulePrice r.1 (hrange r hr)
      exact ⟨max 0 out, why, by rw [resolve_eq hp hlist hr, hout]; rfl⟩
  · intro price why hresolve
    have hnear : ∀ r pct surcharge, IsFirst db a p r → terms r.2 = some (pct, surcharge) →
        (|(price : ℚ) - max 0 (stated (baseVal p r.2) pct surcharge)| ≤ 1 ↔
          IsPrecise (baseVal p r.2) pct surcharge) := by
      intro r pct surcharge hr hterms
      rw [resolve_eq hp hlist hr, map_ok_iff] at hresolve
      obtain ⟨⟨out, why'⟩, hout, hprice⟩ := hresolve
      obtain ⟨v, hv, rfl⟩ := rulePrice_of_terms hterms hout
      obtain rfl : max 0 (v + surcharge) = price := (Prod.mk.inj hprice).1
      exact withinOne_percentOff_iff hv
    constructor
    · intro h
      refine ⟨?_, (explains_iff hp hlist hproduct).mp h.explains⟩
      intro r pct surcharge hr hterms
      exact (hnear r pct surcharge hr hterms).mp (h.near r pct surcharge hr hterms)
    · rintro ⟨hprecise, hdates⟩
      refine ⟨fun r => ruleFor_eq_some_iff, ?_, (explains_iff hp hlist hproduct).mpr hdates⟩
      intro r pct surcharge hr hterms
      exact (hnear r pct surcharge hr hterms).mpr (hprecise r pct surcharge hr hterms)

end Prices

/-! ### Ten per cent off -/

section TenPercent

def tenPercent : PricelistItem where
  pricelistId := 1
  computePrice := .percentage
  percentPrice := 10000000

/-- One product of a list price, and ten per cent off everything. -/
def tenPercentOff (listPrice : ℤ) : PriceDb where
  products := empty.insert { listPrice := some listPrice }
  items := empty.insert tenPercent

def oneUnit : PriceArgs where
  list := 1
  product := 1
  date := 0

lemma tenPercent_isFirst {listPrice : ℤ} :
    IsFirst (tenPercentOff listPrice) oneUnit { listPrice := some listPrice } r ↔
      r = (1, tenPercent) := by
  rw [← ruleFor_eq_some_iff]
  have hrule : ruleFor (tenPercentOff listPrice) oneUnit { listPrice := some listPrice } =
      some (1, tenPercent) := rfl
  rw [hrule, Option.some.injEq]
  exact eq_comm

/-- Ten per cent off 100.00 is as stated. -/
theorem pricelist_rules_stated_whole :
    PricedAsStated (tenPercentOff 100000000) oneUnit { listPrice := some 100000000 } 90000000 := by
  have hproduct : (tenPercentOff 100000000).products.get? oneUnit.product =
      some { listPrice := some 100000000 } := rfl
  have hlist : 0 < oneUnit.list := by decide
  refine ((pricelist_rules_stated hproduct hlist (by decide)).2 90000000 "percentage off (rule 1)"
    rfl).mpr ⟨?_, ?_⟩
  · intro r pct surcharge hr hterms
    obtain rfl := tenPercent_isFirst.mp hr
    cases hterms
    exact .inl (by decide)
  · intro r hr _ hdate
    obtain rfl : r = (1, tenPercent) := mem_singleton.mp (mem_filter.mp hr).1
    cases hdate

/-- Nothing comes off 0.50. -/
theorem ten_percent_off_cents : ∃ price why,
    resolve (tenPercentOff 500000) oneUnit = .ok (price, why) ∧
      ¬ PricedAsStated (tenPercentOff 500000) oneUnit { listPrice := some 500000 } price := by
  refine ⟨500000, "percentage off (rule 1)", rfl, ?_⟩
  intro h
  have hnear := h.near (1, tenPercent) 10000000 0 (tenPercent_isFirst.mpr rfl) rfl
  revert hnear
  norm_num [stated, baseVal, tenPercent, abs_le]

end TenPercent

end Pricelists

end CErp
