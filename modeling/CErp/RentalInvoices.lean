/-
What the invoices of a billing run come to.

The subtotals pass through JSON and the taxes are computed a second time from
what the lines say, so the two agree where the amounts survive the passage
(`RoundTrips`) and every tax has an account (`Resolves`); without the latter a tax
is left out of the entry and of its total alike, and only the sum over the lines
is missed.  `billed_foots` is about one group, `rental_invoices_foot` about every
run in every state that tenancies, billing and accounting lead to.
-/
import CErp.BilledGroups
import CErp.TaxAccuracy

namespace CErp

open Outcome List Calendar AccountDb JsonDouble AccountMove Table

/-! ### The total of a computation -/

variable {c : TaxComputation}

namespace TaxEngine

/-- The total is the untaxed amount and the tax of every component. -/
lemma compute_total {priceUnit quantity discountPct : Money} {taxesIn : List TaxDef} {dp : ℤ}
    (h : compute priceUnit quantity discountPct taxesIn dp = .ok c) :
    c.totalIncluded.micros =
      c.baseExcluded.micros + (c.components.map fun x => x.amount.micros).sum := by
  obtain ⟨gross, -, rateSum, fixedSum, includedTax, inclusive, exclusive, parts⟩ := compute_parts h
  rw [parts.totalIncluded, parts.totalTax]

/-- Every component is of a tax of the list. -/
lemma components_of_taxes {priceUnit quantity discountPct : Money} {taxesIn : List TaxDef}
    {dp : ℤ} (h : compute priceUnit quantity discountPct taxesIn dp = .ok c) :
    ∀ x ∈ c.components, ∃ t ∈ taxesIn, x.taxId = t.id := by
  have hof : ∀ {ts : List TaxDef} {cs : List TaxComponent}, (∀ t ∈ ts, t ∈ taxesIn) →
      Forall₂ (fun t x => x.taxId = t.id) ts cs → ∀ x ∈ cs, ∃ t ∈ taxesIn, x.taxId = t.id := by
    intro ts cs hts hall
    induction hall with
    | nil =>
        intro x hx
        cases hx
    | cons hid _ ih =>
        rw [forall_mem_cons] at hts ⊢
        exact ⟨⟨_, hts.1, hid⟩, ih hts.2⟩
  obtain ⟨gross, -, rateSum, fixedSum, includedTax, inclusive, exclusive, parts⟩ := compute_parts h
  have hinclusive := parts.shares
  rw [parts.components]
  intro x hx
  rcases mem_append.mp hx with hx | hx
  · by_cases hne : inclusiveTaxes taxesIn = []
    · rw [hne] at hinclusive
      cases hinclusive
      cases hx
    · exact hof (fun t ht => mem_inclusiveTaxes ht) (inclusiveComponents_ok hne hinclusive).2 x hx
  · have hagree := @exclusive_agree _ _ _ _ 0 _ _ 1 (fun _ => le_rfl) le_rfl parts.onTop
    refine hof ?_ (hagree.imp fun t c hc => hc.1) x hx
    intro t ht
    exact (perm_insertionSort _ taxesIn).mem_iff.mp (mem_filter.mp ht).1

end TaxEngine

namespace RentalBilling

open Runs

section Bill

variable {D : Type} [JsonDouble D]

/-! ### One line -/

/-- The amounts of a line survive the passage through JSON. -/
structure RoundTrips (D : Type) [JsonDouble D] (db : AccountDb) (l : DueLine) : Prop where
  one : throughJson D { micros := Money.ONE } = .ok { micros := Money.ONE }
  price : throughJson D { micros := l.unitPrice } = .ok { micros := l.unitPrice }
  discount : throughJson D { micros := l.discountPct } = .ok { micros := l.discountPct }
  subtotal : ∀ c, lineTaxes db l = .ok c → throughJson D c.baseExcluded = .ok c.baseExcluded

lemma RoundTrips.congr {a b : AccountDb} (h : SameTaxes a b) {l : DueLine}
    (hl : RoundTrips D a l) : RoundTrips D b l := by
  refine ⟨hl.one, hl.price, hl.discount, ?_⟩
  intro c hc
  rw [← lineTaxes_congr h] at hc
  exact hl.subtotal c hc

/-- The subtotal is the untaxed amount of what `TaxEngine` makes of the line. -/
lemma RoundTrips.subtotal_ok {db : AccountDb} {l : DueLine} {x : ℤ} (h : RoundTrips D db l)
    (hx : lineSubtotal D db l = .ok x) :
    ∃ c, lineTaxes db l = .ok c ∧ x = c.baseExcluded.micros := by
  obtain ⟨quantity, hquantity, hx⟩ := bind_ok_iff.mp hx
  obtain ⟨price, hprice, hx⟩ := bind_ok_iff.mp hx
  obtain ⟨discount, hdiscount, hx⟩ := bind_ok_iff.mp hx
  obtain ⟨c, hc, hx⟩ := bind_ok_iff.mp hx
  obtain ⟨subtotal, hsubtotal, hx⟩ := bind_ok_iff.mp hx
  cases hx
  cases h.one.symm.trans hquantity
  cases h.price.symm.trans hprice
  cases h.discount.symm.trans hdiscount
  cases (h.subtotal c hc).symm.trans hsubtotal
  exact ⟨c, hc, rfl⟩

/-- The tax of a computation. -/
def taxOf (c : TaxComputation) : ℤ := (c.components.map fun x => x.amount.micros).sum

lemma lineTaxes_total {db : AccountDb} {l : DueLine} (h : lineTaxes db l = .ok c) :
    c.totalIncluded.micros = c.baseExcluded.micros + taxOf c :=
  TaxEngine.compute_total h

/-! ### The totals by tax -/

lemma sum_addTo (taxId amount : ℤ) (ts : List (ℤ × ℤ)) :
    ((addTo taxId amount ts).map Prod.snd).sum = amount + (ts.map Prod.snd).sum := by
  induction ts with
  | nil => rfl
  | cons t ts ih =>
      unfold addTo
      split
      · rfl
      split
      · rw [map_cons, sum_cons, map_cons, sum_cons]
        omega
      · rw [map_cons, sum_cons, ih, map_cons, sum_cons]
        omega

lemma mem_addTo {taxId amount : ℤ} {ts : List (ℤ × ℤ)} {t : ℤ × ℤ}
    (h : t ∈ addTo taxId amount ts) : t.1 = taxId ∨ ∃ t' ∈ ts, t'.1 = t.1 := by
  induction ts with
  | nil =>
      rw [mem_singleton.mp h]
      exact .inl rfl
  | cons t' ts ih =>
      unfold addTo at h
      split at h
      · rcases mem_cons.mp h with rfl | h
        · exact .inl rfl
        · exact .inr ⟨t, h, rfl⟩
      split at h
      · next heq =>
          rcases mem_cons.mp h with rfl | h
          · exact .inl heq.symm
          · exact .inr ⟨t, mem_cons_of_mem _ h, rfl⟩
      · rcases mem_cons.mp h with rfl | h
        · exact .inr ⟨t, mem_cons_self, rfl⟩
        · rcases ih h with heq | ⟨t'', hmem, heq⟩
          · exact .inl heq
          · exact .inr ⟨t'', mem_cons_of_mem _ hmem, heq⟩

/-- The taxes in some totals each meet a condition. -/
def TaxesAre (p : ℤ → Prop) (byTax : List (ℤ × ℤ)) : Prop := ∀ t ∈ byTax, p t.1

lemma addComponents_ok {p : ℤ → Prop} {cs : List TaxComponent} (byTax : List (ℤ × ℤ))
    (hcs : ∀ c ∈ cs, p c.taxId) (h0 : TaxesAre p byTax) :
    ((cs.foldl (fun byTax c => addTo c.taxId c.amount.micros byTax) byTax).map Prod.snd).sum =
        (byTax.map Prod.snd).sum + (cs.map fun c => c.amount.micros).sum ∧
      TaxesAre p (cs.foldl (fun byTax c => addTo c.taxId c.amount.micros byTax) byTax) := by
  induction cs generalizing byTax with
  | nil => exact ⟨by simp, h0⟩
  | cons c cs ih =>
      rw [forall_mem_cons] at hcs
      have hone : TaxesAre p (addTo c.taxId c.amount.micros byTax) := by
        intro t ht
        rcases mem_addTo ht with heq | ⟨t', ht', heq⟩
        · rw [heq]
          exact hcs.1
        · rw [← heq]
          exact h0 t' ht'
      obtain ⟨hsum, hall⟩ := ih _ hcs.2 hone
      refine ⟨?_, hall⟩
      rw [foldl_cons, hsum, sum_addTo, map_cons, sum_cons]
      omega

/-- The taxes of a line go into the totals, each under a tax of the line. -/
lemma addLineTaxes_ok {p : ℤ → Prop} {db : AccountDb} {byTax byTax' : List (ℤ × ℤ)}
    {l : DueLine} (h : addLineTaxes db byTax l = .ok byTax') (hc : lineTaxes db l = .ok c)
    (hp : ∀ t ∈ loadTaxes db l.taxIds, p t.id) (h0 : TaxesAre p byTax) :
    (byTax'.map Prod.snd).sum = (byTax.map Prod.snd).sum + taxOf c ∧ TaxesAre p byTax' := by
  have hids : ∀ x ∈ c.components, p x.taxId := by
    intro x hx
    obtain ⟨t, ht, hid⟩ := TaxEngine.components_of_taxes hc x hx
    rw [hid]
    exact hp t ht
  unfold addLineTaxes at h
  split at h
  · next hempty =>
      cases h
      have hnone : c.components = [] := by
        apply eq_nil_iff_forall_not_mem.mpr
        intro x hx
        obtain ⟨t, ht, -⟩ := TaxEngine.components_of_taxes hc x hx
        rw [List.isEmpty_iff.mp hempty] at ht
        cases ht
      refine ⟨?_, h0⟩
      rw [taxOf, hnone]
      simp
  · obtain ⟨res, hres, h⟩ := bind_ok_iff.mp h
    cases hc.symm.trans hres
    cases h
    exact addComponents_ok byTax hids h0

variable {ls : List DueLine}

lemma addTaxes_ok {p : ℤ → Prop} {db : AccountDb} {cs : List TaxComputation}
    {byTax byTax' : List (ℤ × ℤ)} (h : ls.foldlM (addLineTaxes db) byTax = .ok byTax')
    (hcs : Forall₂ (fun l c => lineTaxes db l = .ok c) ls cs)
    (hp : ∀ l ∈ ls, ∀ t ∈ loadTaxes db l.taxIds, p t.id) (h0 : TaxesAre p byTax) :
    (byTax'.map Prod.snd).sum = (byTax.map Prod.snd).sum + (cs.map taxOf).sum ∧
      TaxesAre p byTax' := by
  induction hcs generalizing byTax with
  | nil =>
      cases h
      exact ⟨by simp, h0⟩
  | cons hc _ ih =>
      obtain ⟨m, hm, hrest⟩ := foldlM_cons_ok.mp h
      rw [forall_mem_cons] at hp
      obtain ⟨hsum, hall⟩ := addLineTaxes_ok hm hc hp.1 h0
      obtain ⟨hsum', hall'⟩ := ih hrest hp.2 hall
      refine ⟨?_, hall'⟩
      rw [hsum', hsum, map_cons, sum_cons, add_assoc]

/-! ### The invoice of a group -/

/-- The amounts of the links of an invoice, added up. -/
def linkedAmount (links : Table InvoiceLink) (moveId : ℤ) : ℤ :=
  links.sumOver fun _ k => if k.moveId = moveId then k.amount else 0

lemma linkedAmount_insert (links : Table InvoiceLink) (k : InvoiceLink) (moveId : ℤ) :
    linkedAmount (links.insert k) moveId =
      linkedAmount links moveId + if k.moveId = moveId then k.amount else 0 :=
  sumOver_insert _ _ _

/-- Every link is of an invoice there has been. -/
def LinksKnown (db : RentalDb) : Prop := ∀ r ∈ db.links.rows, r.2.moveId < db.account.moves.nextId

variable {db : RentalDb}

lemma LinksKnown.linkedAmount (h : LinksKnown db) :
    linkedAmount db.links db.account.moves.nextId = 0 := by
  apply sum_eq_zero
  intro x hx
  obtain ⟨r, hr, rfl⟩ := mem_map.mp hx
  exact if_neg (h r hr).ne

variable {g : DueGroup} {xs : List ℤ}

/-- What the links of a group add, and to which invoice. -/
lemma linkedAmount_links {moveId : ℤ} {p : DueLine → ℤ → Prop} (h : Forall₂ p ls xs)
    (links : Table InvoiceLink) (i : ℤ) :
    linkedAmount ((zipWith (linkOf g moveId) ls xs).foldl Table.insert links) i =
      linkedAmount links i + if moveId = i then xs.sum else 0 := by
  induction h generalizing links with
  | nil => simp
  | cons _ _ ih =>
      rw [zipWith_cons_cons, foldl_cons, ih, linkedAmount_insert, sum_cons]
      show _ + (if moveId = i then _ else 0) + _ = _
      split
      · exact add_assoc _ _ _
      · simp

lemma linesBalance_revenue {hd : Header} {p : DueLine → ℤ → Prop} (h : Forall₂ p ls xs) :
    linesBalance (zipWith (revenueLine hd g) ls xs) = -xs.sum := by
  induction h with
  | nil => rfl
  | cons _ _ ih =>
      rw [zipWith_cons_cons, linesBalance_cons, ih, sum_cons]
      simp only [revenueLine]
      omega

/-- The draft of a group balances, comes to the totals of its lines, and is
linked for what it charges before tax. -/
def Foots (taxes : AccountDb) (db : RentalDb) (g : DueGroup) (moveId : ℤ) : Prop :=
  ∃ m cs, db.account.moves.get? moveId = some m ∧ m.state = .draft ∧ m.Balanced ∧
    Forall₂ (fun l c => lineTaxes taxes l = .ok c) g.lines cs ∧
    m.amountTotal = (cs.map fun c => c.totalIncluded.micros).sum ∧
    m.amountUntaxed = linkedAmount db.links moveId ∧
    m.amountTotal = m.amountUntaxed + m.amountTax

lemma Foots.congr {a b : AccountDb} (h : SameTaxes a b) {db : RentalDb} {g : DueGroup}
    {moveId : ℤ} (hfoots : Foots a db g moveId) : Foots b db g moveId := by
  obtain ⟨m, cs, hm, hstate, hbalanced, hcs, hrest⟩ := hfoots
  refine ⟨m, cs, hm, hstate, hbalanced, hcs.imp ?_, hrest⟩
  intro l c hc
  rwa [← lineTaxes_congr h]

variable {asOf : ℤ} {db' : RentalDb}

lemma billed_foots (h : Billed D asOf db db' g xs) (hknown : LinksKnown db)
    (hround : ∀ l ∈ g.lines, RoundTrips D db.account l)
    (hresolve : ∀ l ∈ g.lines, ∀ t ∈ loadTaxes db.account l.taxIds,
      Resolves db.account g.key.companyId t.id) :
    Foots db.account db' g db.account.moves.nextId := by
  obtain ⟨hd, byTax, taxes, tax, hinvoice, hbyTax, hbalance, htax⟩ := h.invoice
  -- the two passes of the engine agree line by line
  have hpasses : ∃ cs, Forall₂ (fun l c => lineTaxes db.account l = .ok c) g.lines cs ∧
      (cs.map fun c => c.totalIncluded.micros).sum = xs.sum + (cs.map taxOf).sum := by
    have hall : ∀ {ls : List DueLine} {xs : List ℤ}, (∀ l ∈ ls, RoundTrips D db.account l) →
        Forall₂ (fun l x => lineSubtotal D db.account l = .ok x) ls xs →
        ∃ cs, Forall₂ (fun l c => lineTaxes db.account l = .ok c) ls cs ∧
          (cs.map fun c => c.totalIncluded.micros).sum = xs.sum + (cs.map taxOf).sum := by
      intro ls xs hls hxs
      induction hxs with
      | nil => exact ⟨[], .nil, by simp⟩
      | cons hx _ ih =>
          rw [forall_mem_cons] at hls
          obtain ⟨c, hc, rfl⟩ := hls.1.subtotal_ok hx
          obtain ⟨cs, hcs, hsum⟩ := ih hls.2
          refine ⟨c :: cs, .cons hc hcs, ?_⟩
          rw [map_cons, sum_cons, hsum, lineTaxes_total hc, sum_cons, map_cons, sum_cons]
          omega
    exact hall hround h.computed
  obtain ⟨cs, hcs, htotal⟩ := hpasses
  obtain ⟨hsum, hall⟩ := addTaxes_ok (p := Resolves db.account g.key.companyId) hbyTax hcs hresolve
    (fun t ht => nomatch ht)
  have htax : tax = (cs.map taxOf).sum := by
    rw [htax hall, hsum]
    simp
  refine ⟨_, cs, hinvoice, rfl, ?_, hcs, ?_, ?_, rfl⟩
  · show linesBalance (numbered _ (invoiceLines hd g xs taxes tax)) = 0
    rw [linesBalance_numbered, invoiceLines, linesBalance_append, linesBalance_append,
      linesBalance_revenue h.computed, hbalance]
    show _ + linesBalance [receivableLine hd g (xs.sum + tax)] = 0
    simp only [receivableLine, linesBalance_cons, linesBalance_nil]
    omega
  · show xs.sum + tax = _
    rw [htotal, htax]
  · show xs.sum = _
    rw [h.links, linkedAmount_links h.computed, hknown.linkedAmount, if_pos rfl, zero_add]

/-! ### The invoices of a run -/

lemma billed_linksKnown (h : Billed D asOf db db' g xs) (hknown : LinksKnown db) :
    LinksKnown db' := by
  have hinsert : ∀ {ls : List DueLine} {xs : List ℤ} {links : Table InvoiceLink},
      (∀ r ∈ links.rows, r.2.moveId < db'.account.moves.nextId) →
      ∀ r ∈ ((zipWith (linkOf g db.account.moves.nextId) ls xs).foldl Table.insert links).rows,
        r.2.moveId < db'.account.moves.nextId := by
    intro ls
    induction ls with
    | nil => exact fun hlinks => hlinks
    | cons l ls ih =>
        intro xs links hlinks
        rcases xs with - | ⟨x, xs⟩
        · exact hlinks
        rw [zipWith_cons_cons, foldl_cons]
        apply ih
        intro r hr
        rcases Table.mem_insert_iff.mp hr with hr | rfl
        · exact hlinks r hr
        · show db.account.moves.nextId < _
          rw [h.nextId]
          omega
  unfold LinksKnown
  rw [h.links]
  apply hinsert
  intro r hr
  have hlt := hknown r hr
  rw [h.nextId]
  omega

variable {now : RentalNow} {outs : List (DueGroup × GroupOutcome)}

/-- Later groups leave the earlier invoices and their links alone. -/
lemma InTurn.kept (h : InTurn D now asOf db outs db') :
    db.account.moves.nextId ≤ db'.account.moves.nextId ∧
      ∀ i < db.account.moves.nextId, db'.account.moves.get? i = db.account.moves.get? i ∧
        linkedAmount db'.links i = linkedAmount db.links i := by
  induction h with
  | nil db => exact ⟨le_rfl, fun i _ => ⟨rfl, rfl⟩⟩
  | @billed db db₁ db' g moveId outs h _ ih =>
      obtain ⟨-, xs, hbilled⟩ := billGroup_ok h
      obtain ⟨hle, hkept⟩ := ih
      have hnext := hbilled.nextId
      refine ⟨by omega, ?_⟩
      intro i hi
      obtain ⟨hmove, hamount⟩ := hkept i (by omega)
      refine ⟨hmove.trans (hbilled.others i hi.ne), ?_⟩
      rw [hamount, hbilled.links, linkedAmount_links hbilled.computed, if_neg hi.ne', add_zero]
  | undone _ _ ih => exact ih

lemma InTurn.foots {a : AccountDb} (h : InTurn D now asOf db outs db')
    (hsame : SameTaxes a db.account) (haccounts : a.accounts = db.account.accounts)
    (hknown : LinksKnown db) (hround : ∀ o ∈ outs, ∀ l ∈ o.1.lines, RoundTrips D a l)
    (hresolve : ∀ o ∈ outs, ∀ l ∈ o.1.lines, ∀ t ∈ loadTaxes a l.taxIds,
      Resolves a o.1.key.companyId t.id) :
    ∀ g moveId, (g, .billed moveId) ∈ outs → Foots a db' g moveId := by
  have hresolves : ∀ {db : RentalDb} {companyId taxId : ℤ}, SameTaxes a db.account →
      a.accounts = db.account.accounts →
      Resolves a companyId taxId → Resolves db.account companyId taxId := by
    rintro db companyId taxId hsame haccounts ⟨tax, htax, hacct⟩
    refine ⟨tax, ?_, ?_⟩
    · rwa [← hsame.1]
    · unfold taxAccount accountOfCode at hacct ⊢
      rwa [← haccounts]
  induction h with
  | nil db =>
      intro g moveId hmem
      cases hmem
  | @billed db db₁ db' g moveId outs h hrest ih =>
      obtain ⟨rfl, xs, hbilled⟩ := billGroup_ok h
      rw [forall_mem_cons] at hround hresolve
      intro g' moveId' hmem
      rcases mem_cons.mp hmem with heq | hmem
      · cases heq
        have hfoots := billed_foots hbilled hknown
          (fun l hl => (hround.1 l hl).congr hsame) (fun l hl t ht => hresolves hsame haccounts
            (hresolve.1 l hl t (by rwa [loadTaxes_congr hsame])))
        -- the invoice and its links are still there when the run is over
        obtain ⟨m, cs, hm, hstate, hbalanced, hcs, htotal, huntaxed, hparts⟩ :=
          hfoots.congr ⟨hsame.1.symm, hsame.2.symm⟩
        obtain ⟨hmove, hamount⟩ := hrest.kept.2 db.account.moves.nextId (by
          rw [hbilled.nextId]
          omega)
        exact ⟨m, cs, hmove.trans hm, hstate, hbalanced, hcs, htotal, huntaxed.trans hamount.symm,
          hparts⟩
      · have haccounts' : a.accounts = db₁.account.accounts := by
          obtain ⟨_, _, heq⟩ := hbilled.account
          rw [heq, haccounts]
        exact ih (hsame.trans hbilled.sameTaxes) haccounts' (billed_linksKnown hbilled hknown)
          hround.2 hresolve.2 g' moveId' hmem
  | undone _ _ ih =>
      rw [forall_mem_cons] at hround hresolve
      intro g moveId hmem
      rcases mem_cons.mp hmem with heq | hmem
      · -- what is undone was not billed
        have hout := congrArg Prod.snd heq
        split at hout
        · cases hout
        · cases hout
      · exact ih hsame haccounts hknown hround.2 hresolve.2 g moveId hmem

/-! ### Every state -/

/-- What happens to tenancies, and to the accounting beside them. -/
inductive TenancyOp (D : Type) where
  | rental (op : RentalOp D)
  | bill (asOf : Option ℤ) (contractId : ℤ)
  | accounting (account : AccountDb)

/-- An operation leads on when it succeeds.  Whatever else the accounting does,
the identifiers of its moves are given only once. -/
def tenancyStep (db : RentalDb) (e : RentalNow × TenancyOp D) : Option RentalDb :=
  match e.2 with
  | .rental op => rentalStep db (e.1, op)
  | .bill asOf contractId => some (run D e.1 db asOf contractId).1
  | .accounting account =>
      if db.account.moves.nextId ≤ account.moves.nextId then some { db with account := account }
      else none

/-- Links are only ever deleted, but for billing. -/
def LinksLeft (db db' : RentalDb) : Prop :=
  db'.account = db.account ∧ ∀ r ∈ db'.links.rows, r ∈ db.links.rows

lemma LinesChanged.linksLeft (h : LinesChanged db db') : LinksLeft db db' := by
  refine ⟨h.account, ?_⟩
  rw [h.links]
  exact fun r hr => hr

lemma updateOne_changed {sets : List LineColumn} {s s' : RentalDb × List (Option ℤ)} {id : ℤ}
    (h : RentalDb.updateOne now sets s id = .ok s') : LinesChanged s.1 s'.1 := by
  unfold RentalDb.updateOne at h
  split at h
  · cases h
    exact .refl _
  · obtain ⟨l, -, h⟩ := bind_ok_iff.mp h
    cases h
    exact ⟨rfl, rfl, rfl, fun _ => rfl⟩

lemma closeMaintenance_changed (db : RentalDb) (unitId : ℤ) :
    LinesChanged db (RentalUnits.closeMaintenance db unitId) := by
  unfold RentalUnits.closeMaintenance
  split
  · exact .refl db
  split
  · have hback : LinesChanged db { db with
        units := db.units.modify unitId fun u => { u with state := .available } } := by
      refine ⟨rfl, rfl, rfl, ?_⟩
      intro u
      rw [get?_modify, Option.isSome_map]
    unfold RentalUnits.recompute
    split
    · exact hback
    · exact hback.trans (deriveState_changed _ _).1
  · exact .refl db

lemma insertLine_linksLeft {l : ContractLine} {out : RentalDb × ℤ}
    (h : db.insertLine now l = .ok out) : LinksLeft db out.1 := by
  obtain ⟨l', -, -, -, -, -, rfl⟩ := insertLine_ok h
  exact (LinesChanged.trans ⟨rfl, rfl, rfl, fun _ => rfl⟩ (deriveState_changed _ _).1).linksLeft

lemma rentalOp_linksLeft {op : RentalOp D} (h : op.run now db = .ok db') : LinksLeft db db' := by
  cases op with
  | insertLine l =>
      obtain ⟨out, hout, rfl⟩ := map_ok_iff.mp h
      exact insertLine_linksLeft hout
  | updateLines ids sets =>
      obtain ⟨⟨db₁, units⟩, hrows, h⟩ := bind_ok_iff.mp h
      cases h
      have hchanged : LinesChanged db db₁ :=
        @foldlM_rel _ _ _ _ (fun (s s' : RentalDb × List (Option ℤ)) => LinesChanged s.1 s'.1) _ _ _
          (fun s => .refl s.1) LinesChanged.trans (fun _ _ _ hone => updateOne_changed hone) hrows
      exact (hchanged.trans (deriveStates_changed db₁ units).1).linksLeft
  | deleteLines ids =>
      cases h
      unfold RentalDb.deleteLines
      obtain ⟨hchanged, -⟩ := deriveStates_changed
        { db with
          lines := db.lines.delete fun id _ => ids.contains id
          links := db.links.delete fun _ k => ids.contains k.contractLineId }
        ((db.lines.rows.filter fun r => ids.contains r.1).map fun r => r.2.unitId)
      refine ⟨hchanged.account, ?_⟩
      rw [hchanged.links]
      exact fun r hr => mem_of_mem_filter hr
  | book req =>
      obtain ⟨out, hout, rfl⟩ := map_ok_iff.mp h
      obtain ⟨unit, dateStart, contracts, l, -, -, -, -, -, -, -, -, hinsert⟩ := book_ok hout
      exact insertLine_linksLeft hinsert
  | openMaintenance unitId =>
      cases h
      exact ⟨rfl, fun r hr => hr⟩
  | closeMaintenance unitId =>
      cases h
      exact (closeMaintenance_changed db unitId).linksLeft

lemma InTurn.linksKnown (h : InTurn D now asOf db outs db') (hknown : LinksKnown db) :
    LinksKnown db' := by
  induction h with
  | nil db => exact hknown
  | billed h _ ih =>
      obtain ⟨-, xs, hbilled⟩ := billGroup_ok h
      exact ih (billed_linksKnown hbilled hknown)
  | undone _ _ ih => exact ih hknown

lemma tenancyStep_linksKnown {e : RentalNow × TenancyOp D} (hknown : LinksKnown db)
    (h : tenancyStep db e = some db') : LinksKnown db' := by
  obtain ⟨now, op⟩ := e
  cases op with
  | rental op =>
      obtain ⟨haccount, hlinks⟩ := rentalOp_linksLeft (rentalStep_eq_some_iff.mp h)
      intro r hr
      rw [haccount]
      exact hknown r (hlinks r hr)
  | bill asOf contractId =>
      cases h
      exact (run_ok now db asOf contractId).2.linksKnown hknown
  | accounting account =>
      unfold tenancyStep at h
      dsimp only at h
      split at h
      · next hle =>
          cases h
          exact fun r hr => lt_of_lt_of_le (hknown r hr) hle
      · cases h

/-- **Rental invoices foot**: in every state tenancies lead to, each group that is
billed gets a draft whose debits and credits are the same, whose total is the sum
over its lines of what `TaxEngine` makes of them, whose untaxed amount is that of
its links, and whose total is the untaxed amount and the tax. -/
theorem rental_invoices_foot {db₀ db : RentalDb} (h0 : db₀.links.rows = [])
    (hreach : Reaches (@tenancyStep D _) (fun _ _ => True) db₀ db) (now : RentalNow)
    (asOf : Option ℤ) (contractId : ℤ)
    (hround : ∀ l ∈ dueLines db (asOf.getD now.today) contractId, RoundTrips D db.account l)
    (hresolve : ∀ l ∈ dueLines db (asOf.getD now.today) contractId,
      ∀ t ∈ loadTaxes db.account l.taxIds, Resolves db.account l.companyId t.id)
    (g : DueGroup) (moveId : ℤ)
    (hbilled : (g, .billed moveId) ∈ (run D now db asOf contractId).2) :
    Foots db.account (run D now db asOf contractId).1 g moveId := by
  have hknown : LinksKnown db := by
    apply hreach.invariant (fun db e db' hdb _ hstep => tenancyStep_linksKnown hdb hstep)
    intro r hr
    rw [h0] at hr
    cases hr
  obtain ⟨hgroups, hturn⟩ := @run_ok D _ now db asOf contractId
  have hlines : ∀ o ∈ (run D now db asOf contractId).2, ∀ l ∈ o.1.lines,
      l ∈ dueLines db (asOf.getD now.today) contractId ∧ l.companyId = o.1.key.companyId := by
    intro o ho l hl
    have hmem := mem_map_of_mem (f := Prod.fst) ho
    rw [hgroups] at hmem
    obtain ⟨hdue, hkey⟩ := (mem_group hmem).mp hl
    exact ⟨hdue, congrArg GroupKey.companyId hkey⟩
  apply hturn.foots (SameTaxes.refl _) rfl hknown _ _ g moveId hbilled
  · intro o ho l hl
    exact hround l (hlines o ho l hl).1
  · intro o ho l hl t ht
    rw [← (hlines o ho l hl).2]
    exact hresolve l (hlines o ho l hl).1 t ht

end Bill

/-- The accounts, the sale journal and the tax of a landlord. -/
def landlordBooks : AccountDb where
  accounts := ((empty.insert { code := "1200", accountType := .assetReceivable }).insert
    { code := "4000", accountType := .other }).insert { code := "2200", accountType := .other }
  journals := empty.insert { code := "INV", type := .sale }
  taxes := empty.insert { name := "SST", amount := 80000, priceInclude := true }

/-- A let by whole months from February on, at 108.00 with tax. -/
def monthlyLet : ContractLine where
  partnerId := some 7
  dateStart := ofDate 2026 2 1
  nextPeriodStart := some (ofDate 2026 2 1)
  unitPrice := 108000000
  taxIds := [1]
  state := .active
  billingMode := .recurring
  billingSpan := .month

/-- Two lets of one customer, the second less 15 %. -/
def twoLets : RentalDb where
  account := landlordBooks
  lines := (empty.insert monthlyLet).insert { monthlyLet with discountPct := 15000000 }

theorem rental_invoices_foot_twoLets : let _ := wholeMicros
    ∃ g moveId, (g, .billed moveId) ∈ (run ℤ rentalFebruary twoLets none 0).2 ∧
      Foots twoLets.account (run ℤ rentalFebruary twoLets none 0).1 g moveId := by
  intro _
  have hbilled : ((run ℤ rentalFebruary twoLets none 0).2.any fun o =>
      o.2 == .billed 1 && o.1.lines.length == 2) = true := by decide
  obtain ⟨⟨g, out⟩, hmem, hout⟩ := List.any_eq_true.mp hbilled
  simp only [Bool.and_eq_true, beq_iff_eq] at hout
  obtain ⟨rfl, -⟩ := hout
  refine ⟨g, 1, hmem, rental_invoices_foot rfl Relation.ReflTransGen.refl _ _ _ ?_ ?_ g 1 hmem⟩
  · intro l hl
    refine ⟨rfl, rfl, rfl, ?_⟩
    intro c hc
    have hcurrency : ∀ l ∈ dueLines twoLets (ofDate 2026 2 10) 0,
        ((lineTaxes landlordBooks l).toOption.all fun c => c.baseExcluded.currencyId == 0) = true := by
      decide
    have hzero := hcurrency l hl
    have hc : lineTaxes landlordBooks l = .ok c := hc
    rw [hc] at hzero
    have hzero : c.baseExcluded.currencyId = 0 := beq_iff_eq.mp hzero
    show Except.ok (Money.mk c.baseExcluded.micros 0) = Except.ok c.baseExcluded
    rw [← hzero]
  · have hresolve : ∀ l ∈ dueLines twoLets (ofDate 2026 2 10) 0,
        ∀ t ∈ loadTaxes landlordBooks l.taxIds, ((landlordBooks.taxes.get? t.id).any
          fun tax => (taxAccount landlordBooks l.companyId tax).isSome) = true := by
      decide
    intro l hl t ht
    obtain ⟨tax, htax, hacct⟩ := (Option.any_eq_true _ _).mp (hresolve l hl t ht)
    exact ⟨tax, htax, hacct⟩

end RentalBilling

end CErp
