/-
What a landed cost charges each product, in doubles on which no operation rounds.

Every share is rounded on its own and the last product takes the remainder, so
the charges of a line add up to its price exactly, and the last charge is off by
as much as the others together (`LastRemainder`).  That may take it below zero:
in `freight` three products round up and the fourth, without a weight, pays.
-/
import CErp.LandedCost
import CErp.LastRemainder
import CErp.Rounding
import CErp.Runs
import Mathlib.Algebra.BigOperators.Ring.Finset

namespace CErp

open LastRemainder Outcome List Money Int

namespace LandedCost

/-- What a product counts in a split, exactly. -/
def exactBasis (method : SplitMethod) (r : ReceivedProduct) : ℚ := @basis ℚ SplitDouble.exact method r

/-- What the products count together. -/
def totalBasis (method : SplitMethod) (prods : List ReceivedProduct) : ℚ :=
  (prods.map (exactBasis method)).sum

/-- The proportional share of a price. -/
def exactShare (price : ℤ) (method : SplitMethod) (prods : List ReceivedProduct)
    (r : ReceivedProduct) : ℚ :=
  price * exactBasis method r / totalBasis method prods

/-- What a line charges the products with, in exact doubles. -/
def exactCharges (ln : LandedCostLine) (prods : List ReceivedProduct) : Except String (List (ℤ × ℤ)) :=
  @charges ℚ SplitDouble.exact ln prods

/-- A product's share before the remainder goes onto the last. -/
def roundedShare (price : ℤ) (method : SplitMethod) (prods : List ReceivedProduct)
    (r : ReceivedProduct) : ℤ :=
  if 0 < totalBasis method prods then
    divRoundHalfAway (exactShare price method prods r).num (exactShare price method prods r).den
  else 0

lemma shares_exact (price : ℤ) (method : SplitMethod) (prods : List ReceivedProduct) :
    @shares ℚ SplitDouble.exact price method prods =
      prods.map fun r => (r.id, roundedShare price method prods r) := by
  have hfold : ∀ (l : List ReceivedProduct) (t : ℚ),
      l.foldl (fun t r => t + exactBasis method r) t = t + (l.map (exactBasis method)).sum := by
    intro l
    induction l with
    | nil => exact fun t => (add_zero t).symm
    | cons r l ih =>
        intro t
        rw [foldl_cons, ih, map_cons, sum_cons, add_assoc]
  have htotal : prods.foldl (fun t r => t + exactBasis method r) ((0 : ℤ) : ℚ) =
      totalBasis method prods := by
    rw [hfold, cast_zero, zero_add]
    rfl
  have hshare : ∀ (total : ℚ) (r : ReceivedProduct),
      SplitDouble.exact.llround (SplitDouble.exact.div
        (SplitDouble.exact.mul (SplitDouble.exact.ofInt price) (exactBasis method r)) total) =
      divRoundHalfAway ((price : ℚ) * exactBasis method r / total).num
        ((price : ℚ) * exactBasis method r / total).den := fun _ _ => rfl
  show prods.map (fun r => (r.id,
    if decide (0 < prods.foldl (fun t r => t + exactBasis method r) ((0 : ℤ) : ℚ)) = true then
      SplitDouble.exact.llround (SplitDouble.exact.div
        (SplitDouble.exact.mul (SplitDouble.exact.ofInt price) (exactBasis method r))
        (prods.foldl (fun t r => t + exactBasis method r) ((0 : ℤ) : ℚ)))
      else 0)) = _
  rw [htotal]
  apply map_congr_left
  intro r _
  rw [hshare]
  simp only [decide_eq_true_iff]
  rfl

variable {prods : List ReceivedProduct}

variable {method : SplitMethod}

lemma roundedShare_near (price : ℤ) (h : 0 < totalBasis method prods) (r : ReceivedProduct) :
    |(roundedShare price method prods r : ℚ) - exactShare price method prods r| ≤ 1 / 2 := by
  unfold roundedShare
  rw [if_pos h]
  have hnear := divRoundHalfAway_near (exactShare price method prods r).num
    (natCast_pos.mpr (exactShare price method prods r).den_pos)
  rwa [cast_natCast, Rat.num_div_den] at hnear

lemma exactShare_sum (price : ℤ) (h : 0 < totalBasis method prods) :
    (prods.map (exactShare price method prods)).sum = price := by
  have hshare : exactShare price method prods = fun r =>
      exactBasis method r * (price / totalBasis method prods) := by
    funext r
    unfold exactShare
    ring
  rw [hshare, sum_map_mul_right]
  show totalBasis method prods * _ = _
  field_simp

/-- Only the last product's charge is not its rounded share. -/
lemma shared_of_addToLast {part : ReceivedProduct → ℤ} {price : ℤ} {cs : List (ℤ × ℤ)}
    (hne : prods ≠ [])
    (h : addToLast (price - (prods.map part).sum) (prods.map fun r => (r.id, part r)) = .ok cs) :
    Shared (fun r c => c = (part r : ℚ)) (price : ℚ) prods (cs.map fun c => (c.2 : ℚ)) ∧
      cs.map Prod.fst = prods.map ReceivedProduct.id := by
  induction prods generalizing price cs with
  | nil => exact absurd rfl hne
  | cons r prods ih =>
      rcases prods with - | ⟨r', prods⟩
      · obtain ⟨a, ha, h⟩ := bind_ok_iff.mp h
        obtain rfl := pure_ok_iff.mp h
        obtain ⟨-, ha⟩ := bigint_ok_iff.mp ha
        have htotal : a = price := by
          rw [← ha, map_singleton, sum_singleton]
          omega
        subst htotal
        exact ⟨.last r _, rfl⟩
      · obtain ⟨cs', hcs', rfl⟩ := map_ok_iff.mp h
        have hrest : price - ((r :: r' :: prods).map part).sum =
            price - part r - ((r' :: prods).map part).sum := by
          rw [map_cons, sum_cons]
          omega
        rw [hrest] at hcs'
        obtain ⟨hshared, hids⟩ := ih (cons_ne_nil _ _) hcs'
        refine ⟨.cons (cons_ne_nil _ _) rfl ?_, ?_⟩
        · rwa [cast_sub] at hshared
        · rw [map_cons, hids]
          rfl

/-- The shares of a non-empty list of products, in turn: all but the last rounded,
the last one what is left. -/
lemma shared_of_charges {ln : LandedCostLine} {cs : List (ℤ × ℤ)} (hprice : 0 < ln.price)
    (hne : prods ≠ []) (h : exactCharges ln prods = .ok cs) :
    Shared (fun r c => c = (roundedShare ln.price ln.splitMethod prods r : ℚ)) (ln.price : ℚ) prods
        (cs.map fun c => (c.2 : ℚ)) ∧
      cs.map Prod.fst = prods.map ReceivedProduct.id := by
  have hcharged : ¬(ln.price ≤ 0 ∨ prods = []) := not_or.mpr ⟨not_le.mpr hprice, hne⟩
  unfold exactCharges charges at h
  rw [if_neg hcharged] at h
  unfold allocate at h
  rw [shares_exact] at h
  obtain ⟨distributed, hsum, h⟩ := bind_ok_iff.mp h
  obtain ⟨rest, hrest, h⟩ := bind_ok_iff.mp h
  obtain ⟨-, rfl⟩ := bigint_ok_iff.mp hrest
  have hdistributed : ∀ (l : List (ℤ × ℤ)) (d e : ℤ),
      l.foldlM (fun d a => bigint (d + a.2)) d = .ok e → e = d + (l.map Prod.snd).sum := by
    intro l
    induction l with
    | nil =>
        intro d e hl
        obtain rfl := pure_ok_iff.mp hl
        exact (add_zero d).symm
    | cons a l ih =>
        intro d e hl
        obtain ⟨m, hm, hl⟩ := Runs.foldlM_cons_ok.mp hl
        rw [ih m e hl, bigint_ok hm, map_cons, sum_cons, add_assoc]
  have hparts := hdistributed _ _ _ hsum
  rw [zero_add, map_map] at hparts
  subst hparts
  exact shared_of_addToLast hne h

lemma roundedShare_nonneg {price : ℤ} (prods : List ReceivedProduct) (hprice : 0 ≤ price)
    {r : ReceivedProduct} (hr : 0 ≤ exactBasis method r) :
    0 ≤ roundedShare price method prods r := by
  by_cases htotal : 0 < totalBasis method prods
  · have hprice' : (0 : ℚ) ≤ price := by exact_mod_cast hprice
    have hshare : 0 ≤ exactShare price method prods r :=
      div_nonneg (mul_nonneg hprice' hr) htotal.le
    have hnear := (abs_le.mp (roundedShare_near price htotal r)).1
    have hlow : (-1 : ℚ) < roundedShare price method prods r := by linarith
    have hlow : -1 < roundedShare price method prods r := by exact_mod_cast hlow
    omega
  · unfold roundedShare
    rw [if_neg htotal]

/-- Rounding adds no more than half a unit for each product. -/
lemma roundedShare_sum_le {price : ℤ} (method : SplitMethod) (prods : List ReceivedProduct)
    (hprice : 0 ≤ price) : (prods.map (roundedShare price method prods)).sum ≤ price + prods.length := by
  by_cases htotal : 0 < totalBasis method prods
  · have hle : ∀ l : List ReceivedProduct, ((l.map (roundedShare price method prods)).sum : ℚ) ≤
        (l.map (exactShare price method prods)).sum + l.length := by
      intro l
      induction l with
      | nil => simp
      | cons r l ih =>
          have hnear := (abs_le.mp (roundedShare_near price htotal r)).2
          rw [map_cons, map_cons, sum_cons, sum_cons, length_cons, cast_add, Nat.cast_succ]
          linarith
    have hall := hle prods
    rw [exactShare_sum price htotal] at hall
    exact_mod_cast hall
  · have hzero : prods.map (roundedShare price method prods) = prods.map fun _ => 0 := by
      apply map_congr_left
      intro r _
      unfold roundedShare
      rw [if_neg htotal]
    rw [hzero]
    simp only [map_const', sum_replicate, nsmul_eq_mul, mul_zero]
    omega

/-- Amounts that are not negative are added up where their sum fits. -/
lemma foldlM_bigint_ok {l : List (ℤ × ℤ)} (hl : ∀ a ∈ l, 0 ≤ a.2) {d : ℤ} (hd : 0 ≤ d)
    (hsum : d + (l.map Prod.snd).sum ≤ int64Max) :
    l.foldlM (fun d a => bigint (d + a.2)) d = .ok (d + (l.map Prod.snd).sum) := by
  induction l generalizing d with
  | nil => exact congrArg Except.ok (add_zero d).symm
  | cons a l ih =>
      rw [forall_mem_cons] at hl
      rw [map_cons, sum_cons, ← add_assoc] at hsum ⊢
      have hrest : 0 ≤ (l.map Prod.snd).sum := sum_nonneg fun v hv => by
        obtain ⟨a, ha, rfl⟩ := mem_map.mp hv
        exact hl.2 a ha
      have hfits : FitsInt64 (d + a.2) := by
        unfold FitsInt64 int64Min
        omega
      rw [foldlM_cons, bigint_ok_iff.mpr ⟨hfits, rfl⟩]
      exact ih hl.2 (add_nonneg hd hl.1) hsum

lemma addToLast_ok {l : List (ℤ × ℤ)} {rest : ℤ} (h : ∀ a ∈ l, FitsInt64 (a.2 + rest)) :
    ∃ cs, addToLast rest l = .ok cs := by
  induction l with
  | nil => exact ⟨[], rfl⟩
  | cons a l ih =>
      rw [forall_mem_cons] at h
      rcases l with - | ⟨b, l⟩
      · exact ⟨_, bind_ok_iff.mpr ⟨_, bigint_ok_iff.mpr ⟨h.1, rfl⟩, rfl⟩⟩
      · obtain ⟨cs, hcs⟩ := ih h.2
        exact ⟨a :: cs, map_ok_iff.mpr ⟨cs, hcs, rfl⟩⟩

/-- Away from the end of the column's range nothing overflows. -/
lemma exactCharges_ok {ln : LandedCostLine} (hprice : 0 < ln.price) (hne : prods ≠ [])
    (hbasis : ∀ r ∈ prods, 0 ≤ exactBasis ln.splitMethod r)
    (hroom : ln.price + prods.length ≤ int64Max) : ∃ cs, exactCharges ln prods = .ok cs := by
  have hcharged : ¬(ln.price ≤ 0 ∨ prods = []) := not_or.mpr ⟨not_le.mpr hprice, hne⟩
  have hparts : ∀ r ∈ prods, 0 ≤ roundedShare ln.price ln.splitMethod prods r := fun r hr =>
    roundedShare_nonneg prods hprice.le (hbasis r hr)
  have hsum := roundedShare_sum_le ln.splitMethod prods hprice.le
  have hsum_nonneg : 0 ≤ (prods.map (roundedShare ln.price ln.splitMethod prods)).sum :=
    sum_nonneg fun v hv => by
      obtain ⟨r, hr, rfl⟩ := mem_map.mp hv
      exact hparts r hr
  have hfold := foldlM_bigint_ok (d := 0)
    (l := prods.map fun r => (r.id, roundedShare ln.price ln.splitMethod prods r))
    (fun a ha => by
      obtain ⟨r, hr, rfl⟩ := mem_map.mp ha
      exact hparts r hr) le_rfl (by
      rw [zero_add, map_map]
      exact hsum.trans hroom)
  rw [zero_add, map_map] at hfold
  have hsum' : (Prod.snd ∘ fun r : ReceivedProduct =>
      (r.id, roundedShare ln.price ln.splitMethod prods r)) =
        roundedShare ln.price ln.splitMethod prods := rfl
  rw [hsum'] at hfold
  have hfits : FitsInt64 (ln.price - (prods.map (roundedShare ln.price ln.splitMethod prods)).sum) := by
    unfold FitsInt64 int64Min
    unfold int64Max at hroom ⊢
    omega
  obtain ⟨cs, hcs⟩ : ∃ cs, addToLast
      (ln.price - (prods.map (roundedShare ln.price ln.splitMethod prods)).sum)
      (prods.map fun r => (r.id, roundedShare ln.price ln.splitMethod prods r)) = .ok cs := by
    apply addToLast_ok
    intro a ha
    obtain ⟨r, hr, rfl⟩ := mem_map.mp ha
    have hle : roundedShare ln.price ln.splitMethod prods r ≤
        (prods.map (roundedShare ln.price ln.splitMethod prods)).sum := by
      apply single_le_sum _ _ (mem_map_of_mem hr)
      intro v hv
      obtain ⟨r', hr', rfl⟩ := mem_map.mp hv
      exact hparts r' hr'
    have hr0 := hparts r hr
    unfold FitsInt64 int64Min
    unfold int64Max at hroom ⊢
    omega
  refine ⟨cs, ?_⟩
  unfold exactCharges charges
  rw [if_neg hcharged]
  unfold allocate
  rw [shares_exact]
  exact bind_ok_iff.mpr ⟨_, hfold, bind_ok_iff.mpr
    ⟨_, bigint_ok_iff.mpr ⟨hfits, rfl⟩, hcs⟩⟩

lemma exists_of_mem_forall₂ {α β : Type*} {P : α → β → Prop} {as : List α} {bs : List β}
    (h : Forall₂ P as bs) {b : β} (hb : b ∈ bs) : ∃ a ∈ as, P a b := by
  induction h with
  | nil => cases hb
  | @cons a b' _ _ hab _ ih =>
      rcases mem_cons.mp hb with rfl | hb
      · exact ⟨a, mem_cons_self, hab⟩
      · obtain ⟨a', ha', hab'⟩ := ih hb
        exact ⟨a', mem_cons_of_mem a ha', hab'⟩

lemma forall₂_and {α β : Type*} {P Q : α → β → Prop} {as : List α} {bs : List β}
    (hP : Forall₂ P as bs) (hQ : Forall₂ Q as bs) :
    Forall₂ (fun a b => P a b ∧ Q a b) as bs := by
  induction hP with
  | nil => exact .nil
  | cons hp _ ih =>
      cases hQ with
      | cons hq hQ => exact .cons ⟨hp, hq⟩ (ih hQ)

/-- **The charges of a line.**  A price of zero or less is not charged.  A positive
price is charged in full: the charges add up to it, and where the products count
something each is within one unit for each product of its exact share; where none
counts less than nothing, only the last charge may be negative, and an overflow
needs a price at the end of the column's range. -/
theorem charges_of_price (ln : LandedCostLine) (prods : List ReceivedProduct) :
    (ln.price ≤ 0 → exactCharges ln prods = .ok []) ∧
    (0 < ln.price → prods ≠ [] → (∀ cs, exactCharges ln prods = .ok cs →
        (cs.map Prod.snd).sum = ln.price ∧
        (0 < totalBasis ln.splitMethod prods → List.Forall₂ (fun r c => c.1 = r.id ∧
          |(c.2 : ℚ) - exactShare ln.price ln.splitMethod prods r| ≤ prods.length) prods cs) ∧
        ((∀ r ∈ prods, 0 ≤ exactBasis ln.splitMethod r) → ∀ c ∈ cs.dropLast, 0 ≤ c.2)) ∧
      ((∀ r ∈ prods, 0 ≤ exactBasis ln.splitMethod r) →
        ln.price + prods.length ≤ int64Max → ∃ cs, exactCharges ln prods = .ok cs)) := by
  constructor
  · intro hprice
    unfold exactCharges charges
    rw [if_pos (.inl hprice)]
  intro hprice hne
  refine ⟨?_, exactCharges_ok hprice hne⟩
  intro cs hcs
  obtain ⟨hshared, hids⟩ := shared_of_charges hprice hne hcs
  refine ⟨?_, ?_, ?_⟩
  · have hsum := hshared.sum_eq
    have hcast : (cs.map fun c => (c.2 : ℚ)).sum = ((cs.map Prod.snd).sum : ℤ) := by
      rw [cast_list_sum, map_map]
      rfl
    rw [hcast] at hsum
    exact_mod_cast hsum
  · intro htotal
    have hnear := hshared.near (q := exactShare ln.price ln.splitMethod prods) (u := 1 / 2) (d := 0)
      (fun r _ s hs => hs ▸ roundedShare_near _ htotal r)
      (by rw [exactShare_sum _ htotal, sub_self, abs_zero])
    rw [forall₂_map_right_iff] at hnear
    have hsame : List.Forall₂ (fun r c => c.1 = r.id) prods cs := by
      have heq : List.Forall₂ (· = ·) (prods.map ReceivedProduct.id) (cs.map Prod.fst) :=
        forall₂_eq_eq_eq ▸ hids.symm
      rw [forall₂_map_left_iff, forall₂_map_right_iff] at heq
      exact heq.imp fun r c h => h.symm
    refine forall₂_and hsame (hnear.imp fun r c h => h.trans ?_)
    have hlen : ((prods.length - 1 : ℕ) : ℚ) ≤ prods.length := by
      exact_mod_cast Nat.sub_le _ _
    have hlen0 : (0 : ℚ) ≤ (prods.length - 1 : ℕ) := Nat.cast_nonneg _
    rw [nsmul_eq_mul]
    linarith
  · intro hbasis c hc
    have hparts := hshared.dropLast
    rw [← map_dropLast, forall₂_map_right_iff] at hparts
    obtain ⟨r, hr, hrc⟩ := exists_of_mem_forall₂ hparts hc
    have hnonneg := roundedShare_nonneg prods hprice.le
      (hbasis r (mem_of_mem_dropLast hr))
    rw [Int.cast_inj.mp hrc]
    exact hnonneg

/-- Freight over four products by weight, the last one without a weight. -/
def freight : LandedCostLine where
  name := "Freight"
  price := 20000000
  splitMethod := .byWeight

def threeWeighed : List ReceivedProduct :=
  [⟨1, 1000000, 10000, 0, 0⟩, ⟨2, 1000000, 10000, 0, 0⟩, ⟨3, 1000000, 10000, 0, 0⟩,
    ⟨4, 1000000, 0, 0, 0⟩]

/-- The three round up and the fourth pays for it. -/
lemma freight_charges : exactCharges freight threeWeighed =
    .ok [(1, 6666667), (2, 6666667), (3, 6666667), (4, -1)] := by
  decide +kernel

/-- The last charge can be negative. -/
theorem last_charge_negative :
    ¬ ∀ (ln : LandedCostLine) (prods : List ReceivedProduct), prods ≠ [] →
      ∃ cs, exactCharges ln prods = .ok cs ∧ (cs.map Prod.snd).sum = ln.price ∧
        (0 ≤ ln.price → List.Forall₂ (fun r c => 0 ≤ c.2 ∧
          |(c.2 : ℚ) - exactShare ln.price ln.splitMethod prods r| ≤ prods.length) prods cs) := by
  intro h
  obtain ⟨cs, hcs, -, hall⟩ := h freight threeWeighed (cons_ne_nil _ _)
  obtain rfl := Except.ok.inj (freight_charges.symm.trans hcs)
  obtain ⟨r, -, hlast, -⟩ := exists_of_mem_forall₂ (hall (by decide))
    (mem_cons_of_mem _ (mem_cons_of_mem _ (mem_cons_of_mem _ mem_cons_self)))
  exact absurd hlast (by decide)

end LandedCost

end CErp
