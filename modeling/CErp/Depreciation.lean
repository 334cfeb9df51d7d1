/-
Depreciation conserves the gross value of an asset.

`Conserved` says that the posted and the scheduled lines of an asset add up to
its gross value, that none is negative and that the book value is what is not
posted yet.  Confirming a draft establishes it, depreciating keeps it, and an
asset that is depreciated to the end is closed with nothing left.  Depreciating
does not look at the state of the asset: a draft is closed with its whole value
left, and a closed asset goes on posting.
-/
import CErp.Documents

namespace CErp

open AccountAsset Runs Outcome List Table Option

namespace Asset

/-- The depreciation that is posted. -/
def postedAmount (a : Asset) : ℤ := a.schedule.sumOver fun _ l => if l.posted then l.amount else 0

/-- The depreciation that is still to come. -/
def scheduledAmount (a : Asset) : ℤ :=
  a.schedule.sumOver fun _ l => if l.posted then 0 else l.amount

end Asset

/-- The depreciation of an asset comes to its gross value. -/
structure Conserved (a : Asset) : Prop where
  total : a.postedAmount + a.scheduledAmount = a.value
  amounts : ∀ r ∈ a.schedule.rows, 0 ≤ r.2.amount
  residual : a.valueResidual = a.value - a.postedAmount

lemma sumOver_nonneg {t : Table DepreciationLine} {f : ℤ → DepreciationLine → ℤ}
    (h : ∀ r ∈ t.rows, 0 ≤ f r.1 r.2) : 0 ≤ t.sumOver f := by
  apply sum_nonneg
  intro x hx
  obtain ⟨r, hr, rfl⟩ := List.mem_map.mp hx
  exact h r hr

variable {a : Asset}

lemma Conserved.residual_nonneg (h : Conserved a) : 0 ≤ a.valueResidual := by
  have hleft : 0 ≤ a.scheduledAmount := by
    apply sumOver_nonneg
    intro r hr
    split
    · exact le_rfl
    · exact h.amounts r hr
  rw [h.residual, ← h.total]
  omega

lemma postedAmount_add_scheduledAmount (a : Asset) :
    a.postedAmount + a.scheduledAmount = a.schedule.sumOver fun _ l => l.amount := by
  rw [Asset.postedAmount, Asset.scheduledAmount, ← sumOver_add]
  apply sumOver_congr
  intro r _
  split
  · exact add_zero _
  · exact zero_add _

/-! ### The schedule -/

namespace AccountAsset.Plan

variable {p : Plan}

lemma per_nonneg (hleft : 1 ≤ p.left) (hremaining : 0 ≤ p.remaining) : 0 ≤ p.per :=
  Int.tdiv_nonneg hremaining (by omega)

lemma amount_nonneg (hleft : 1 ≤ p.left) (hremaining : 0 ≤ p.remaining) (k : ℕ) :
    0 ≤ p.amount k := by
  have hper := per_nonneg hleft hremaining
  unfold amount
  split
  · have hle : p.per * p.left ≤ p.remaining := by
      rw [per, Int.tdiv_eq_ediv_of_nonneg hremaining]
      exact Int.ediv_mul_le _ (by omega)
    have hexpand : p.per * (p.left - 1) = p.per * p.left - p.per := by ring
    omega
  · exact hper

/-- The lines of a schedule come to what remains to be depreciated. -/
lemma sum_amount (hleft : 1 ≤ p.left) :
    ((range p.left.toNat).map p.amount).sum = p.remaining := by
  obtain ⟨n, hn⟩ : ∃ n : ℕ, p.left = n + 1 := ⟨(p.left - 1).toNat, by omega⟩
  have hearlier : (range n).map p.amount = (range n).map fun _ => p.per := by
    apply map_congr_left
    intro k hk
    have hlt := mem_range.mp hk
    exact if_neg (by omega)
  have hlast : p.amount n = p.remaining - p.per * n := by
    rw [amount, if_pos (by omega), hn, add_sub_cancel_right]
  rw [show p.left.toNat = n + 1 by omega, range_succ, map_append, sum_append,
    hearlier, map_const', sum_replicate, length_range, map_singleton,
    sum_singleton, hlast, nsmul_eq_mul]
  ring

end AccountAsset.Plan

variable {db db' : AccountDb} {id : ℤ} {now : Moment}

section Confirm

variable {addMonths : String → ℤ → Except String String}

lemma addScheduleLine_ok {p : Plan} {built built' : Table DepreciationLine × ℤ} {k : ℕ}
    (h : addScheduleLine addMonths now a p built k = .ok built') :
    ∃ l : DepreciationLine, l.amount = p.amount k ∧ l.posted = false ∧
      built'.1 = built.1.insert l := by
  obtain ⟨date, -, h⟩ := bind_ok_iff.mp h
  cases h
  exact ⟨_, rfl, rfl, rfl⟩

/-- What the loop adds to the lines: the amounts of the plan, none of them
posted. -/
lemma schedule_built {p : Plan} {ks : List ℕ} {built built' : Table DepreciationLine × ℤ}
    (h : ks.foldlM (addScheduleLine addMonths now a p) built = .ok built') :
    (built'.1.rows.map fun r => (r.2.amount, r.2.posted)) =
      (built.1.rows.map fun r => (r.2.amount, r.2.posted)) ++
        ks.map fun k => (p.amount k, false) := by
  induction ks generalizing built with
  | nil =>
      cases h
      exact (append_nil _).symm
  | cons k ks ih =>
      obtain ⟨built₁, hline, hrest⟩ := foldlM_cons_ok.mp h
      obtain ⟨l, hamount, hposted, hrows⟩ := addScheduleLine_ok hline
      rw [ih hrest, hrows]
      show (built.1.rows ++ [_]).map _ ++ _ = _
      rw [map_append, map_singleton, hamount, hposted, append_assoc]
      rfl

/-- An asset without lines has nothing posted, and a line to schedule. -/
lemma plan_of_empty (hrows : a.schedule.rows = []) :
    (postedLines a).rows = [] ∧ (plan a).already = 0 ∧ (plan a).remaining = a.value ∧
      1 ≤ (plan a).left := by
  have hkept : (postedLines a).rows = [] := by
    show a.schedule.rows.filter _ = []
    rw [hrows]
    rfl
  have halready : (plan a).already = 0 := by
    show ((postedLines a).rows.map _).sum = 0
    rw [hkept]
    rfl
  refine ⟨hkept, halready, ?_, ?_⟩
  · show a.value - (plan a).already = a.value
    rw [halready, sub_zero]
  · show 1 ≤ (if a.number < 1 then 1 else a.number) - (((postedLines a).rows.filter _).length : ℤ)
    rw [hkept]
    show 1 ≤ (if a.number < 1 then 1 else a.number) - ((0 : ℕ) : ℤ)
    split
    · decide
    · omega

lemma withType_value (db : AccountDb) (a : Asset) : (withType db a).value = a.value := by
  unfold withType
  dsimp only
  split
  · split
    · rfl
    · rfl
  · rfl

/-- **What confirming does** to an asset without lines. -/
theorem confirmOne_ok (h : confirmOne addMonths now db id = .ok db') :
    ∃ a, db.assets.get? id = some a ∧ a.state = .draft ∧
      ∃ a', db'.assets = db.assets.modify id (fun _ => a') ∧
        (a.schedule.rows = [] → Conserved a' ∧ a'.state = .opened) := by
  unfold confirmOne at h
  rcases e : db.assets.get? id with - | a
  · rw [e] at h
    cases h
  rw [e] at h
  obtain ⟨_, hdraft, h⟩ := bind_ok_iff.mp h
  obtain ⟨_, hvalue, h⟩ := bind_ok_iff.mp h
  have hpositive : 0 < a.value := require_ok_iff.mp hvalue
  refine ⟨a, rfl, require_ok_iff.mp hdraft, ?_⟩
  dsimp only at h
  split at h
  · next hleft =>
      cases h
      refine ⟨_, rfl, ?_⟩
      intro hrows
      exact absurd hleft (by have := (plan_of_empty hrows).2.2.2; omega)
  · obtain ⟨built, hbuilt, h⟩ := bind_ok_iff.mp h
    cases h
    refine ⟨_, rfl, ?_⟩
    intro hrows
    obtain ⟨hkept, halready, hremaining, hleft⟩ := plan_of_empty hrows
    have hlines := schedule_built hbuilt
    simp only [hkept, map_nil, nil_append] at hlines
    have hsum : ∀ f : ℤ × Bool → ℤ, (built.1.rows.map fun r => f (r.2.amount, r.2.posted)).sum =
        ((range (plan a).left.toNat).map fun k => f ((plan a).amount k, false)).sum := by
      intro f
      have hmapped := congrArg (fun l => (l.map f).sum) hlines
      simp only [List.map_map] at hmapped
      exact hmapped
    have hposted : (built.1.sumOver fun _ l => if l.posted then l.amount else 0) = 0 := by
      refine (hsum fun x => if x.2 then x.1 else 0).trans ?_
      simp
    have hscheduled : (built.1.sumOver fun _ l => if l.posted then 0 else l.amount) = a.value := by
      refine (hsum fun x => if x.2 then 0 else x.1).trans ?_
      rw [← hremaining]
      exact Plan.sum_amount hleft
    refine ⟨⟨?_, ?_, ?_⟩, rfl⟩
    · show (built.1.sumOver fun _ l => if l.posted then l.amount else 0) +
        (built.1.sumOver fun _ l => if l.posted then 0 else l.amount) = (withType db a).value
      rw [hposted, hscheduled, withType_value, zero_add]
    · intro r hr
      have hmem : (r.2.amount, r.2.posted) ∈
          (range (plan a).left.toNat).map fun k => ((plan a).amount k, false) :=
        hlines ▸ List.mem_map_of_mem (f := fun r : ℤ × DepreciationLine => (r.2.amount, r.2.posted)) hr
      obtain ⟨k, -, hk⟩ := List.mem_map.mp hmem
      rw [← (Prod.mk.inj hk).1]
      exact Plan.amount_nonneg hleft (by rw [hremaining]; exact hpositive.le) k
    · show a.value - (plan a).already = (withType db a).value -
        (built.1.sumOver fun _ l => if l.posted then l.amount else 0)
      rw [hposted, withType_value, halready]

end Confirm

/-! ### Depreciating -/

/-- The asset after some of its lines have been posted: the amounts are as they
were. -/
def Reposted (a b : Asset) : Prop :=
  ∃ schedule, b = { a with schedule := schedule } ∧
    (schedule.rows.map fun r => r.2.amount) = a.schedule.rows.map fun r => r.2.amount

variable {b : Asset}

lemma Reposted.trans {c : Asset} (hab : Reposted a b) (hbc : Reposted b c) : Reposted a c := by
  obtain ⟨s, rfl, hs⟩ := hab
  obtain ⟨t, rfl, ht⟩ := hbc
  exact ⟨t, rfl, ht.trans hs⟩

lemma reposted_markPosted (lineId moveId : ℤ) (a : Asset) :
    Reposted a (markPosted lineId moveId a) := by
  refine ⟨_, rfl, ?_⟩
  show (a.schedule.rows.map _).map _ = _
  rw [List.map_map]
  apply map_congr_left
  rintro ⟨i, l⟩ -
  show DepreciationLine.amount (if _ then _ else l) = l.amount
  split
  · rfl
  · rfl

/-- What posting lines of one asset does to the assets. -/
structure PostsLines (id : ℤ) (db db' : AccountDb) : Prop where
  own : ∀ b, db'.assets.get? id = some b → ∃ a, db.assets.get? id = some a ∧ Reposted a b
  others : ∀ j, j ≠ id → db'.assets.get? j = db.assets.get? j

lemma PostsLines.trans {db₁ db₂ db₃ : AccountDb} (h₁₂ : PostsLines id db₁ db₂)
    (h₂₃ : PostsLines id db₂ db₃) : PostsLines id db₁ db₃ := by
  constructor
  · intro c hc
    obtain ⟨b, hb, hbc⟩ := h₂₃.own c hc
    obtain ⟨a, ha, hab⟩ := h₁₂.own b hb
    exact ⟨a, ha, hab.trans hbc⟩
  · intro j hj
    rw [h₂₃.others j hj, h₁₂.others j hj]

lemma PostsLines.of_assets (h : db'.assets = db.assets) : PostsLines id db db' := by
  constructor
  · intro b hb
    exact ⟨b, h ▸ hb, b.schedule, rfl, rfl⟩
  · intro j _
    rw [h]

lemma postLine_assets {acc : Accounts} {line : ℤ × DepreciationLine}
    (h : postLine now id a acc db line = .ok db') : PostsLines id db db' := by
  obtain ⟨⟨name, db₀⟩, hname, h⟩ := bind_ok_iff.mp h
  obtain ⟨sequences, -, rfl⟩ := AccountDb.nextNumber_ok hname
  obtain ⟨db₁, hentry, h⟩ := bind_ok_iff.mp h
  cases h
  obtain ⟨⟨moves, n, rfl⟩, -⟩ := AccountDb.postEntry_ok hentry
  constructor
  · intro b hb
    have hget : (db.assets.modify id (markPosted line.1 db.moves.nextId)).get? id = some b := hb
    rw [get?_modify_self] at hget
    obtain ⟨a, ha, rfl⟩ := map_eq_some_iff.mp hget
    exact ⟨a, ha, reposted_markPosted _ _ a⟩
  · intro j hj
    exact get?_modify_of_ne _ _ hj

variable {asOf : String}

/-- **What depreciating one asset does** to the assets: lines of that asset are
posted, none if none is due, and it is refreshed. -/
theorem depreciateOne_assets (h : depreciateOne now asOf db id = .ok db') :
    (∀ j, j ≠ id → db'.assets.get? j = db.assets.get? j) ∧
      ∀ c, db'.assets.get? id = some c → ∃ a b due, db.assets.get? id = some a ∧
        asOfDate now asOf = .ok due ∧ Reposted a b ∧ c = refresh b ∧
        (dueLines a due = [] → b = a) := by
  unfold depreciateOne at h
  rcases e : db.assets.get? id with - | a
  · rw [e] at h
    cases h
    refine ⟨fun _ _ => rfl, ?_⟩
    intro c hc
    rw [e] at hc
    cases hc
  rw [e] at h
  obtain ⟨acc, -, h⟩ := bind_ok_iff.mp h
  obtain ⟨due, hdue, h⟩ := bind_ok_iff.mp h
  obtain ⟨db₁, hlines, h⟩ := bind_ok_iff.mp h
  cases h
  have hposts : PostsLines id (db.ensureJournalSequence acc.jcode) db₁ :=
    foldlM_rel (fun _ => PostsLines.of_assets rfl) PostsLines.trans
      (fun _ _ _ hline => postLine_assets hline) hlines
  have hstart : (db.ensureJournalSequence acc.jcode).assets = db.assets := rfl
  constructor
  · intro j hj
    show (db₁.assets.modify id refresh).get? j = _
    rw [get?_modify_of_ne _ _ hj, hposts.others j hj, hstart]
  · intro c hc
    have hget : (db₁.assets.modify id refresh).get? id = some c := hc
    rw [get?_modify_self] at hget
    obtain ⟨b, hb, rfl⟩ := map_eq_some_iff.mp hget
    obtain ⟨a', ha', hab⟩ := hposts.own b hb
    rw [hstart, e, some_inj] at ha'
    subst ha'
    refine ⟨a, b, due, rfl, hdue, hab, rfl, ?_⟩
    intro hempty
    rw [hempty] at hlines
    cases hlines
    rw [hstart, e, some_inj] at hb
    exact hb.symm

/-! ### What runs keep -/

/-- The assets that were confirmed conserve their values; the others have no
lines and are drafts, or closed. -/
def Kept (confirmed : List ℤ) (db : AccountDb) : Prop :=
  ∀ id a, db.assets.get? id = some a → (id ∈ confirmed → Conserved a ∧ a.state ≠ .draft) ∧
      (id ∉ confirmed → a.schedule.rows = [] ∧ a.state ≠ .opened)

lemma Kept.congr {ids ids' : List ℤ} {db : AccountDb} (h : Kept ids db)
    (hmem : ∀ i, i ∈ ids' ↔ i ∈ ids) : Kept ids' db := by
  intro id a ha
  rw [hmem]
  exact h id a ha

variable {confirmed : List ℤ}

lemma confirmOne_kept {addMonths : String → ℤ → Except String String} (h : Kept confirmed db)
    (hconfirm : confirmOne addMonths now db id = .ok db') : Kept (id :: confirmed) db' := by
  obtain ⟨a, ha, hdraft, a', hassets, hnew⟩ := confirmOne_ok hconfirm
  have hfresh : a.schedule.rows = [] := by
    by_cases hid : id ∈ confirmed
    · exact absurd hdraft ((h id a ha).1 hid).2
    · exact ((h id a ha).2 hid).1
  obtain ⟨hconserved, hopened⟩ := hnew hfresh
  intro j b hb
  rw [hassets] at hb
  by_cases hj : j = id
  · subst hj
    rw [get?_modify_self, ha] at hb
    cases hb
    refine ⟨fun _ => ⟨hconserved, ?_⟩, fun hnot => absurd mem_cons_self hnot⟩
    rw [hopened]
    decide
  · rw [get?_modify_of_ne _ _ hj] at hb
    rw [mem_cons, or_iff_right hj]
    exact h j b hb

lemma confirm_kept {addMonths : String → ℤ → Except String String} {ids : List ℤ}
    (h : Kept confirmed db) (hconfirm : confirm addMonths now db ids = .ok db') :
    Kept (ids ++ confirmed) db' := by
  induction ids generalizing db confirmed with
  | nil =>
      cases hconfirm
      exact h
  | cons id ids ih =>
      obtain ⟨db₁, hone, hrest⟩ := foldlM_cons_ok.mp hconfirm
      apply (ih (confirmOne_kept h hone) hrest).congr
      intro i
      simp only [mem_append, mem_cons]
      tauto

/-- A closed asset posts nothing. -/
lemma confirm_closed {addMonths : String → ℤ → Except String String} {ids : List ℤ}
    (hconfirm : confirm addMonths now db ids = .ok db') {j : ℤ} (ha : db.assets.get? j = some a)
    (hclose : a.state = .close) : db'.assets.get? j = some a := by
  refine foldlM_keeps (fun db => db.assets.get? j = some a) ?_ hconfirm ha
  intro s id s' hs hone
  obtain ⟨b, hb, hdraft, a', hassets, -⟩ := confirmOne_ok hone
  have hj : j ≠ id := by
    intro heq
    subst heq
    rw [hs, some_inj] at hb
    subst hb
    rw [hclose] at hdraft
    cases hdraft
  rw [hassets, get?_modify_of_ne _ _ hj, hs]

/-! #### Depreciating in order -/

/-- The lines of an asset that a depreciation posts. -/
def dueOf (now : Moment) (asOf : String) (a : Asset) : List (ℤ × DepreciationLine) :=
  match asOfDate now asOf with
  | .ok due => dueLines a due
  | .error _ => []

/-- The asset is no draft with a value, and nothing is due if it is closed. -/
def DepreciatesOpen (now : Moment) (asOf : String) (db : AccountDb) (id : ℤ) : Prop :=
  ∀ a ∈ db.assets.get? id,
    (a.state = .draft → a.value = 0) ∧ (a.state = .close → dueOf now asOf a = [])

/-- From one asset to the next: a closed one is refreshed at most, and one that
gets closed has no value left. -/
def Ordered (a b : Asset) : Prop :=
  (a.state = .close → b = a ∨ b = refresh a) ∧
    (a.state ≠ .close → b.state = .close → b = refresh b ∧ b.valueResidual = 0)

lemma Ordered.refl (a : Asset) : Ordered a a :=
  ⟨fun _ => .inl rfl, fun hopen hclose => absurd hclose hopen⟩

lemma refresh_close (h : a.state = .close) : (refresh a).state = .close := by
  show (if _ then AssetState.close else a.state) = .close
  rw [h, ite_self]

lemma refresh_refresh (a : Asset) : refresh (refresh a) = refresh a := by
  have hstate : (refresh (refresh a)).state = (refresh a).state := by
    show (if a.schedule.rows.all _ then AssetState.close else
      if a.schedule.rows.all _ then AssetState.close else a.state) = if _ then _ else a.state
    split
    · rfl
    · rfl
  show ({ refresh a with state := (refresh (refresh a)).state } : Asset) = refresh a
  rw [hstate]

lemma Ordered.trans {c : Asset} (hab : Ordered a b) (hbc : Ordered b c) : Ordered a c := by
  constructor
  · intro hclose
    rcases hab.1 hclose with rfl | rfl
    · exact hbc.1 hclose
    · rcases hbc.1 (refresh_close hclose) with rfl | rfl
      · exact .inr rfl
      · exact .inr (refresh_refresh a)
  · intro hopen hclosed
    by_cases hb : b.state = .close
    · obtain ⟨hrefreshed, hzero⟩ := hab.2 hopen hb
      have hsame : c = b := by
        rcases hbc.1 hb with rfl | hc
        · rfl
        · rw [hc, ← hrefreshed]
      rw [hsame]
      exact ⟨hrefreshed, hzero⟩
    · exact hbc.2 hb hclosed

lemma Reposted.sum (h : Reposted a b) :
    b.postedAmount + b.scheduledAmount = a.postedAmount + a.scheduledAmount := by
  obtain ⟨schedule, rfl, hamounts⟩ := h
  rw [postedAmount_add_scheduledAmount, postedAmount_add_scheduledAmount]
  exact congrArg List.sum hamounts

lemma Conserved.depreciated (h : Conserved a) (hab : Reposted a b) : Conserved (refresh b) := by
  have hsum := hab.sum
  obtain ⟨schedule, rfl, hamounts⟩ := hab
  refine ⟨hsum.trans h.total, ?_, rfl⟩
  intro r hr
  have hmem : r.2.amount ∈ a.schedule.rows.map fun r => r.2.amount :=
    hamounts ▸ List.mem_map_of_mem (f := fun r : ℤ × DepreciationLine => r.2.amount) hr
  obtain ⟨r', hr', hsame⟩ := List.mem_map.mp hmem
  rw [← hsame]
  exact h.amounts r' hr'

/-- When every line is posted, nothing is left to schedule. -/
lemma scheduledAmount_of_all (h : (a.schedule.rows.all fun r => r.2.posted) = true) :
    a.scheduledAmount = 0 := by
  have hzero : a.scheduledAmount = a.schedule.sumOver fun _ _ => 0 := by
    apply sumOver_congr
    intro r hr
    exact if_pos (List.all_eq_true.mp h r hr)
  rw [hzero]
  exact sum_map_zero

/-- Depreciating keeps what was kept. -/
lemma Kept.depreciateOne (h : Kept confirmed db) (hdep : depreciateOne now asOf db id = .ok db') :
    Kept confirmed db' := by
  obtain ⟨hothers, hown⟩ := depreciateOne_assets hdep
  intro j c hc
  by_cases hj : j = id
  · subst hj
    obtain ⟨a, b, due, ha, -, hab, rfl, -⟩ := hown c hc
    constructor
    · intro hid
      obtain ⟨hconserved, hstate⟩ := (h j a ha).1 hid
      refine ⟨hconserved.depreciated hab, ?_⟩
      obtain ⟨schedule, rfl, -⟩ := hab
      show (if _ then AssetState.close else a.state) ≠ .draft
      split
      · decide
      · exact hstate
    · intro hid
      obtain ⟨hrows, hstate⟩ := (h j a ha).2 hid
      obtain ⟨schedule, rfl, hamounts⟩ := hab
      rw [hrows, map_nil, map_eq_nil_iff] at hamounts
      refine ⟨hamounts, ?_⟩
      show (if schedule.rows.all _ then AssetState.close else a.state) ≠ .opened
      rw [hamounts, all_nil, if_pos rfl]
      decide
  · rw [hothers j hj] at hc
    exact h j c hc

/-- An asset that depreciating closes is posted in full. -/
lemma refresh_posted_of_close {j : ℤ} (h : Kept confirmed db) (ha : db.assets.get? j = some a)
    (hdraft : a.state = .draft → a.value = 0) (hab : Reposted a b) (hnot : a.state ≠ .close)
    (hclose : (refresh b).state = .close) : b.value - b.postedAmount = 0 := by
  have hstate : b.state = a.state := by
    obtain ⟨schedule, rfl, -⟩ := hab
    rfl
  have hvalue : b.value = a.value := by
    obtain ⟨schedule, rfl, -⟩ := hab
    rfl
  -- it was closed because no line is left
  have hall : (b.schedule.rows.all fun r => r.2.posted) = true := by
    by_contra hsome
    rw [Bool.not_eq_true] at hsome
    apply hnot
    rw [← hstate, ← hclose]
    show b.state = if _ then _ else b.state
    rw [hsome]
    rfl
  have hsum := hab.sum
  rw [scheduledAmount_of_all hall, add_zero] at hsum
  rw [hsum, hvalue]
  by_cases hid : j ∈ confirmed
  · rw [((h j a ha).1 hid).1.total, sub_self]
  · obtain ⟨hrows, hopened⟩ := (h j a ha).2 hid
    have hzero : a.value = 0 := by
      rcases hs : a.state with - | - | -
      · exact hdraft hs
      · exact absurd hs hopened
      · exact absurd hs hnot
    rw [postedAmount_add_scheduledAmount, Table.sumOver, hrows, hzero]
    rfl

/-- **The step of depreciating**: what was kept is kept, and the asset goes on
in order. -/
theorem depreciateOne_kept (h : Kept confirmed db) (hopen : DepreciatesOpen now asOf db id)
    (hdep : depreciateOne now asOf db id = .ok db') :
    Kept confirmed db' ∧ ∀ j c, db'.assets.get? j = some c →
      ∃ a, db.assets.get? j = some a ∧ Ordered a c := by
  obtain ⟨hothers, hown⟩ := depreciateOne_assets hdep
  refine ⟨h.depreciateOne hdep, ?_⟩
  intro j c hc
  by_cases hj : j = id
  · subst hj
    obtain ⟨a, b, due, ha, hdue, hab, rfl, hnone⟩ := hown c hc
    obtain ⟨hdraft, hclosed⟩ := hopen a ha
    refine ⟨a, ha, ?_, ?_⟩
    · intro hclose
      have hempty : dueLines a due = [] := by
        have hdueOf := hclosed hclose
        rw [dueOf, hdue] at hdueOf
        exact hdueOf
      rw [hnone hempty]
      exact .inr rfl
    · intro hnot hclose
      exact ⟨(refresh_refresh b).symm, refresh_posted_of_close h ha hdraft hab hnot hclose⟩
  · rw [hothers j hj] at hc
    exact ⟨c, hc, Ordered.refl c⟩

lemma depreciate_kept {ids : List ℤ} (h : Kept confirmed db)
    (hopen : InTurn (depreciateOne now asOf) (DepreciatesOpen now asOf) db ids)
    (hdep : depreciate now asOf db ids = .ok db') :
    Kept confirmed db' ∧ ∀ j c, db'.assets.get? j = some c →
      ∃ a, db.assets.get? j = some a ∧ Ordered a c := by
  refine @foldlM_invariant _ _ _ _ _ (fun db₁ => Kept confirmed db₁ ∧
    ∀ j c, db₁.assets.get? j = some c → ∃ a, db.assets.get? j = some a ∧ Ordered a c) _ _ _ ?_ hopen
    hdep ⟨h, fun j c hc => ⟨c, hc, Ordered.refl c⟩⟩
  rintro db₁ id db₂ ⟨hkept, hordered⟩ hok hone
  obtain ⟨hkept', hordered'⟩ := depreciateOne_kept hkept hok hone
  refine ⟨hkept', ?_⟩
  intro j c hc
  obtain ⟨b, hb, hbc⟩ := hordered' j c hc
  obtain ⟨a, ha, hab⟩ := hordered j b hb
  exact ⟨a, ha, hab.trans hbc⟩

/-! ### Runs -/

/-- The operations on assets, and a write of a draft. -/
inductive AssetOp where
  | confirm (ids : List ℤ)
  | depreciate (asOf : String) (ids : List ℤ)
  | close (ids : List ℤ)
  | edit (id value number : ℤ)

/-- The database, and which assets have been confirmed. -/
structure AssetRun where
  db : AccountDb
  confirmed : List ℤ

section Runs

variable (addMonths : String → ℤ → Except String String)

def AssetOp.run (now : Moment) (db : AccountDb) : AssetOp → Except String AccountDb
  | confirm ids => AccountAsset.confirm addMonths now db ids
  | depreciate asOf ids => AccountAsset.depreciate now asOf db ids
  | close ids => .ok (AccountAsset.close db ids)
  | edit id value number => do
      require ((db.assets.get? id).all fun a => a.state == .draft) "not a draft"
      return { db with
        assets := db.assets.modify id fun a => { a with value := value, number := number } }

/-- What an operation that succeeds has confirmed. -/
def AssetOp.confirms : AssetOp → List ℤ
  | confirm ids => ids
  | _ => []

def assetStep (s : AssetRun) (e : Moment × AssetOp) : Option AssetRun :=
  ((e.2.run addMonths e.1 s.db).toOption).map fun db => ⟨db, e.2.confirms ++ s.confirmed⟩

end Runs

/-- Every asset that is depreciated may be, when its turn comes. -/
def DepreciatesInOrder (s : AssetRun) (e : Moment × AssetOp) : Prop :=
  match e.2 with
  | .depreciate asOf ids => InTurn (depreciateOne e.1 asOf) (DepreciatesOpen e.1 asOf) s.db ids
  | _ => True

/-- There are only drafts, without lines. -/
structure OnlyDrafts (s : AssetRun) : Prop where
  confirmed : s.confirmed = []
  drafts : ∀ id a, s.db.assets.get? id = some a → a.state = .draft ∧ a.schedule.rows = []

variable {s : AssetRun}

lemma OnlyDrafts.kept (h : OnlyDrafts s) : Kept s.confirmed s.db := by
  intro id a ha
  obtain ⟨hdraft, hrows⟩ := h.drafts id a ha
  rw [h.confirmed, hdraft]
  exact ⟨fun hid => absurd hid not_mem_nil, fun _ => ⟨hrows, by decide⟩⟩

section Runs

variable {addMonths : String → ℤ → Except String String}

variable {e : Moment × AssetOp}

lemma assetStep_ok {s' : AssetRun} (h : assetStep addMonths s e = some s') :
    e.2.run addMonths e.1 s.db = .ok s'.db ∧ s'.confirmed = e.2.confirms ++ s.confirmed := by
  unfold assetStep at h
  rcases hrun : e.2.run addMonths e.1 s.db with err | db
  · rw [hrun] at h
    cases h
  · rw [hrun] at h
    cases h
    exact ⟨rfl, rfl⟩

lemma close_kept (h : Kept confirmed db) (ids : List ℤ) :
    Kept confirmed (AccountAsset.close db ids) := by
  intro id c hc
  have hget : (db.assets.updateWhere (fun id _ => ids.contains id)
      fun a => { a with state := .close }).get? id = some c := hc
  rw [get?_updateWhere] at hget
  obtain ⟨a, ha, rfl⟩ := map_eq_some_iff.mp hget
  obtain ⟨hin, hout⟩ := h id a ha
  split
  · refine ⟨fun hid => ⟨?_, nofun⟩, fun hid => ⟨(hout hid).1, nofun⟩⟩
    exact ⟨(hin hid).1.total, (hin hid).1.amounts, (hin hid).1.residual⟩
  · exact ⟨hin, hout⟩

lemma edit_kept (h : Kept confirmed db)
    (hdraft : ∀ a, db.assets.get? id = some a → a.state = .draft) (value number : ℤ) :
    Kept confirmed { db with
      assets := db.assets.modify id fun a => { a with value := value, number := number } } := by
  intro j c hc
  have hget : (db.assets.modify id fun a => { a with value := value, number := number }).get? j =
      some c := hc
  rw [get?_modify] at hget
  obtain ⟨a, ha, rfl⟩ := map_eq_some_iff.mp hget
  by_cases hj : j = id
  · subst hj
    rw [if_pos rfl]
    exact ⟨fun hid => absurd (hdraft a ha) ((h j a ha).1 hid).2, (h j a ha).2⟩
  · rw [if_neg hj]
    exact h j a ha

lemma assetStep_kept {s' : AssetRun} (h : Kept s.confirmed s.db) (hok : DepreciatesInOrder s e)
    (hstep : assetStep addMonths s e = some s') : Kept s'.confirmed s'.db := by
  obtain ⟨hrun, hconfirmed⟩ := assetStep_ok hstep
  rw [hconfirmed]
  obtain ⟨now, op⟩ := e
  cases op with
  | confirm ids => exact confirm_kept h hrun
  | depreciate asOf ids => exact (depreciate_kept h hok hrun).1
  | close ids =>
      rw [← Except.ok.inj hrun]
      exact close_kept h ids
  | edit id value number =>
      obtain ⟨_, hdraft, hedit⟩ := bind_ok_iff.mp hrun
      rw [← pure_ok_iff.mp hedit]
      apply edit_kept h
      intro a ha
      have hall := require_ok_iff.mp hdraft
      rw [ha] at hall
      exact beq_iff_eq.mp hall

/-- From one state to the next: a closed asset posts nothing, and depreciating
closes an asset only with no value left. -/
structure ClosesInOrder (s s' : AssetRun) (op : AssetOp) : Prop where
  closed : ∀ id a a', s.db.assets.get? id = some a → s'.db.assets.get? id = some a' →
    a.state = .close → a'.schedule = a.schedule
  closing : ∀ asOf ids, op = .depreciate asOf ids → ∀ id a a', s.db.assets.get? id = some a →
    s'.db.assets.get? id = some a' → a.state ≠ .close → a'.state = .close → a'.valueResidual = 0

lemma assetStep_inOrder {s' : AssetRun} (h : Kept s.confirmed s.db)
    (hok : DepreciatesInOrder s e) (hstep : assetStep addMonths s e = some s') :
    ClosesInOrder s s' e.2 := by
  obtain ⟨hrun, -⟩ := assetStep_ok hstep
  obtain ⟨now, op⟩ := e
  cases op with
  | confirm ids =>
      refine ⟨?_, fun _ _ heq => nomatch heq⟩
      intro id a a' ha ha' hclose
      rw [confirm_closed hrun ha hclose, some_inj] at ha'
      rw [ha']
  | depreciate asOf ids =>
      have hordered := (depreciate_kept h hok hrun).2
      constructor
      · intro id a a' ha ha' hclose
        obtain ⟨b, hb, hord⟩ := hordered id a' ha'
        rw [ha, some_inj] at hb
        subst hb
        rcases hord.1 hclose with rfl | rfl
        · rfl
        · rfl
      · intro _ _ _ id a a' ha ha' hopen hclose
        obtain ⟨b, hb, hord⟩ := hordered id a' ha'
        rw [ha, some_inj] at hb
        subst hb
        exact (hord.2 hopen hclose).2
  | close ids =>
      refine ⟨?_, fun _ _ heq => nomatch heq⟩
      intro id a a' ha ha' _
      rw [← Except.ok.inj hrun] at ha'
      have hget : (s.db.assets.updateWhere (fun id _ => ids.contains id)
          fun a => { a with state := .close }).get? id = some a' := ha'
      rw [get?_updateWhere, ha, map_some, some_inj] at hget
      rw [← hget]
      split
      · rfl
      · rfl
  | edit id value number =>
      refine ⟨?_, fun _ _ heq => nomatch heq⟩
      intro j a a' ha ha' _
      obtain ⟨_, -, hedit⟩ := bind_ok_iff.mp hrun
      rw [← pure_ok_iff.mp hedit] at ha'
      have hget : (s.db.assets.modify id fun a => { a with value := value, number := number }).get? j =
          some a' := ha'
      rw [get?_modify, ha, map_some, some_inj] at hget
      rw [← hget]
      split
      · rfl
      · rfl

/-- **Depreciation conserves the gross value**, in every run that depreciates no
draft with a value and no closed asset with lines due. -/
theorem depreciation_conserves (s s' : AssetRun) (h0 : OnlyDrafts s)
    (hrun : Reaches (assetStep addMonths) DepreciatesInOrder s s') :
    (∀ id ∈ s'.confirmed, ∀ a, s'.db.assets.get? id = some a → Conserved a ∧ 0 ≤ a.valueResidual) ∧
    ∀ e s'', DepreciatesInOrder s' e → assetStep addMonths s' e = some s'' →
      ClosesInOrder s' s'' e.2 := by
  have hkept : Kept s'.confirmed s'.db := by
    apply @Reaches.invariant _ _ _ _ (fun s => Kept s.confirmed s.db) _ _ hrun _ h0.kept
    intro r e r' hr hok hstep
    exact assetStep_kept hr hok hstep
  constructor
  · intro id hid a ha
    have hconserved := ((hkept id a ha).1 hid).1
    exact ⟨hconserved, hconserved.residual_nonneg⟩
  · intro e s'' hok hstep
    exact assetStep_inOrder hkept hok hstep

end Runs

/-- A car of 100.000001 to be depreciated over three months. -/
def newCar : AccountDb where
  accounts := (Table.empty.insert { code := "6300", accountType := .other }).insert
    { code := "1590", accountType := .other }
  journals := Table.empty.insert { code := "MISC", type := .other }
  assets := Table.empty.insert
    { name := "Car"
      value := 100000001
      valueResidual := 0
      acquisitionDate := some "2026-01-10"
      number := 3
      periodMonths := 1
      accountDepreciationId := some 2
      accountExpenseId := some 1
      journalId := some 1 }

lemma newCar_onlyDrafts : OnlyDrafts ⟨newCar, []⟩ := by
  refine ⟨rfl, ?_⟩
  intro id a ha
  have hmem : (id, a) ∈ newCar.assets.rows := get?_eq_some_iff.mp ha
  cases mem_singleton.mp hmem
  exact ⟨rfl, rfl⟩

/-- The tenth of the next three months. -/
def tenths (date : String) (months : ℤ) : Except String String :=
  if date = "2026-01-10" then
    match months with
    | 1 => .ok "2026-02-10"
    | 2 => .ok "2026-03-10"
    | 3 => .ok "2026-04-10"
    | _ => .error "date out of range"
  else .error "date out of range"

instance (now : Moment) (asOf : String) (db : AccountDb) (id : ℤ) :
    Decidable (DepreciatesOpen now asOf db id) :=
  inferInstanceAs (Decidable (∀ a ∈ db.assets.get? id,
    (a.state = .draft → a.value = 0) ∧ (a.state = .close → dueOf now asOf a = [])))

instance (s : AssetRun) (e : Moment × AssetOp) : Decidable (DepreciatesInOrder s e) :=
  match e with
  | (now, .depreciate asOf ids) =>
      inferInstanceAs (Decidable
        (InTurn (depreciateOne now asOf) (DepreciatesOpen now asOf) s.db ids))
  | (_, .confirm _) => .isTrue trivial
  | (_, .close _) => .isTrue trivial
  | (_, .edit _ _ _) => .isTrue trivial

/-- The car is confirmed, and one of its three lines posted. -/
theorem depreciation_conserves_newCar : ∃ s', execute (assetStep tenths) DepreciatesInOrder
      [(february, .confirm [1]), (february, .depreciate "" [1])] ⟨newCar, []⟩ = some s' ∧
    (∀ id ∈ s'.confirmed, ∀ a, s'.db.assets.get? id = some a → Conserved a ∧ 0 ≤ a.valueResidual) ∧
    ∀ e s'', DepreciatesInOrder s' e → assetStep tenths s' e = some s'' →
      ClosesInOrder s' s'' e.2 := by
  obtain ⟨s', hexec⟩ : ∃ s', execute (assetStep tenths) DepreciatesInOrder
      [(february, .confirm [1]), (february, .depreciate "" [1])] ⟨newCar, []⟩ = some s' :=
    isSome_iff_exists.mp (by decide)
  exact ⟨s', hexec, depreciation_conserves _ _ newCar_onlyDrafts (reaches_of_execute hexec)⟩

/-- A draft that is depreciated is closed with its whole value left. -/
theorem draft_closed_with_value :
    ¬ ∀ addMonths s s', OnlyDrafts s → Reaches (assetStep addMonths) (fun _ _ => True) s s' →
      (∀ id ∈ s'.confirmed, ∀ a, s'.db.assets.get? id = some a →
        Conserved a ∧ 0 ≤ a.valueResidual) ∧
      ∀ e s'', assetStep addMonths s' e = some s'' → ClosesInOrder s' s'' e.2 := by
  intro h
  have hrun : ((assetStep tenths ⟨newCar, []⟩ (february, .depreciate "" [1])).any fun s =>
      (s.db.assets.get? 1).any fun a => a.state == .close && a.valueResidual == 100000001) = true := by
    decide
  obtain ⟨s', hstep, hclosed⟩ := (Option.any_eq_true _ _).mp hrun
  obtain ⟨a, ha, ha'⟩ := (Option.any_eq_true _ _).mp hclosed
  obtain ⟨hclose, hvalue⟩ := Bool.and_eq_true_iff.mp ha'
  have hzero := ((h tenths _ _ newCar_onlyDrafts Relation.ReflTransGen.refl).2 _ s' hstep).closing
    "" [1] rfl 1 _ a rfl ha (by decide) (beq_iff_eq.mp hclose)
  rw [beq_iff_eq.mp hvalue] at hzero
  exact absurd hzero (by decide)

end CErp
