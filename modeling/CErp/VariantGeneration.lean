/-
One run of `generate_variants` in sound tables.

The loop over the combinations keeps `Made`: every combination that is done has
its variant among the live ones, and every variant of the template is live or was
there before.  What is archived afterwards is what was there and is not live, so
the active variants are the combinations (`Sound.generate`); generating again
finds every variant as it would write it (`Exact.generate_eq`).
-/
import CErp.VariantChoices

namespace CErp

open List Table Option Function

namespace ProductVariants

/-! ### Variants and their keys -/

section Keys

variable {db : VariantDb}

lemma mem_variants_iff {tmpl pid : ℤ} :
    pid ∈ db.variants tmpl ↔ ∃ p, db.products.get? pid = some p ∧ p.tmplId = some tmpl := by
  unfold VariantDb.variants
  rw [List.mem_map]
  constructor
  · rintro ⟨r, hr, rfl⟩
    rw [mem_filter, beq_iff_eq] at hr
    exact ⟨r.2, get?_eq_some_iff.mpr hr.1, hr.2⟩
  · rintro ⟨p, hp, ht⟩
    refine ⟨(pid, p), ?_, rfl⟩
    rw [mem_filter, beq_iff_eq]
    exact ⟨get?_eq_some_iff.mp hp, ht⟩

lemma mem_ptavsOf_iff {pid i : ℤ} : i ∈ db.ptavsOf pid ↔ (pid, i) ∈ db.combinations := by
  unfold VariantDb.ptavsOf
  rw [List.mem_map]
  constructor
  · rintro ⟨r, hr, rfl⟩
    rw [mem_filter, beq_iff_eq] at hr
    rw [← hr.2]
    exact hr.1
  · intro h
    exact ⟨(pid, i), mem_filter.mpr ⟨h, beq_self_eq_true pid⟩, rfl⟩

lemma mem_combination_iff {pid i : ℤ} : i ∈ db.combination pid ↔ (pid, i) ∈ db.combinations := by
  rw [VariantDb.combination, List.mem_toFinset, mem_ptavsOf_iff]

lemma nodup_ptavsOf (h : db.combinations.Nodup) (pid : ℤ) : (db.ptavsOf pid).Nodup := by
  apply (h.filter _).map_on
  intro r hr r' hr' heq
  rw [mem_filter, beq_iff_eq] at hr hr'
  exact Prod.ext (hr.2.trans hr'.2.symm) heq

lemma keyOf_eq_iff (h : db.combinations.Nodup) {pid : ℤ} {ids : List ℤ} (hids : ids.Nodup) :
    keyOf db pid = NumberLists.setText ids ↔ db.combination pid = ids.toFinset :=
  NumberLists.setText_eq_iff (nodup_ptavsOf h pid) hids

lemma keyOf_eq_keyOf_iff (h : db.combinations.Nodup) {pid pid' : ℤ} :
    keyOf db pid = keyOf db pid' ↔ db.combination pid = db.combination pid' :=
  NumberLists.setText_eq_iff (nodup_ptavsOf h pid) (nodup_ptavsOf h pid')

/-- The variants generation knows are the ones in the order, each under its key. -/
lemma lookup_existing_iff {order : List ℤ}
    (hinj : ∀ p ∈ order, ∀ q ∈ order, keyOf db p = keyOf db q → p = q) {k : String} {pid : ℤ} :
    (existing db order).lookup k = some pid ↔ pid ∈ order ∧ keyOf db pid = k := by
  unfold existing
  induction order using List.reverseRecOn with
  | nil => simp
  | append_singleton order p ih =>
      have hinj' : ∀ p ∈ order, ∀ q ∈ order, keyOf db p = keyOf db q → p = q := by
        intro p hp q hq
        exact hinj p (mem_append_left _ hp) q (mem_append_left _ hq)
      rw [foldl_append, foldl_cons, foldl_nil, mem_append, mem_singleton]
      by_cases hk : k = keyOf db p
      · subst hk
        rw [AList.lookup_insert, Option.some.injEq]
        constructor
        · rintro rfl
          exact ⟨.inr rfl, rfl⟩
        · rintro ⟨hmem, hkey⟩
          refine (hinj pid ?_ p ?_ hkey).symm
          · rw [mem_append, mem_singleton]
            exact hmem
          · exact mem_append_right _ (mem_singleton_self p)
      · rw [AList.lookup_insert_ne hk, ih hinj']
        constructor
        · rintro ⟨hmem, hkey⟩
          exact ⟨.inl hmem, hkey⟩
        · rintro ⟨hmem | rfl, hkey⟩
          · exact ⟨hmem, hkey⟩
          · exact absurd hkey.symm hk

lemma Sound.lookup_existing (h : Sound db) {tmpl : ℤ} {order : List ℤ}
    (horder : order.Perm (db.variants tmpl)) {k : String} {pid : ℤ} :
    (existing db order).lookup k = some pid ↔ pid ∈ db.variants tmpl ∧ keyOf db pid = k := by
  rw [lookup_existing_iff, horder.mem_iff]
  intro p hp q hq hkey
  exact h.distinct tmpl p (horder.mem_iff.mp hp) q (horder.mem_iff.mp hq)
    ((keyOf_eq_keyOf_iff h.nodup).mp hkey)

end Keys

/-! ### New rows -/

section AddRow

variable {rows : List (ℤ × ℤ)} {ids : List ℤ} {pid : ℤ}

lemma mem_addRow_iff {i : ℤ} {r : ℤ × ℤ} : r ∈ addRow pid rows i ↔ r ∈ rows ∨ r = (pid, i) := by
  unfold addRow
  split
  · next h =>
      constructor
      · exact .inl
      · rintro (hr | rfl)
        · exact hr
        · exact h
  · rw [mem_append, mem_singleton]

lemma mem_addRows_iff {r : ℤ × ℤ} :
    r ∈ ids.foldl (addRow pid) rows ↔ r ∈ rows ∨ (r.1 = pid ∧ r.2 ∈ ids) := by
  induction ids generalizing rows with
  | nil => simp
  | cons i ids ih =>
      rw [foldl_cons, ih, mem_addRow_iff, mem_cons]
      constructor
      · rintro ((hr | rfl) | ⟨hr, hmem⟩)
        · exact .inl hr
        · exact .inr ⟨rfl, .inl rfl⟩
        · exact .inr ⟨hr, .inr hmem⟩
      · rintro (hr | ⟨rfl, heq | hmem⟩)
        · exact .inl (.inl hr)
        · exact .inl (.inr (Prod.ext rfl heq))
        · exact .inr ⟨rfl, hmem⟩

lemma nodup_addRows (h : rows.Nodup) : (ids.foldl (addRow pid) rows).Nodup := by
  induction ids generalizing rows with
  | nil => exact h
  | cons i ids ih =>
      rw [foldl_cons]
      apply ih
      unfold addRow
      split
      · exact h
      · next hnew =>
          rw [← concat_eq_append]
          exact h.concat hnew

end AddRow

/-! ### Tables that differ in their products -/

section Frames

variable {db db' : VariantDb}

/-- The attribute and the value a `ptav` stands for. -/
def Describes (db : VariantDb) (v attr value : ℤ) : Prop :=
  ∃ pt l, db.ptavs.get? v = some pt ∧ db.lines.get? pt.lineId = some l ∧ l.attributeId = attr ∧
    pt.valueId = value

/-- The variants are the rows they were, and stand for what they stood for. -/
structure Keeps (db db' : VariantDb) : Prop where
  products : ∀ i p, db.products.get? i = some p →
    ∃ p', db'.products.get? i = some p' ∧ p'.tmplId = p.tmplId
  combination : ∀ i, (db.products.get? i).isSome = true → db'.combination i = db.combination i
  described : ∀ r ∈ db.combinations, ∀ attr value, Describes db r.2 attr value →
    Describes db' r.2 attr value

lemma Keeps.refl (db : VariantDb) : Keeps db db :=
  ⟨fun _ p hp => ⟨p, hp, rfl⟩, fun _ _ => rfl, fun _ _ _ _ h => h⟩

lemma Keeps.trans {db'' : VariantDb} (hs : Sound db) (h : Keeps db db') (h' : Keeps db' db'') :
    Keeps db db'' := by
  refine ⟨?_, ?_, ?_⟩
  · intro i p hp
    obtain ⟨p', hp', ht'⟩ := h.products i p hp
    obtain ⟨p'', hp'', ht''⟩ := h'.products i p' hp'
    exact ⟨p'', hp'', ht''.trans ht'⟩
  · intro i hi
    obtain ⟨p, hp⟩ := isSome_iff_exists.mp hi
    obtain ⟨p', hp', -⟩ := h.products i p hp
    rw [h'.combination i (by rw [hp']; rfl), h.combination i hi]
  · intro r hr attr value hd
    obtain ⟨p, pt, l, hp, -⟩ := hs.combined r hr
    have hmem : r.2 ∈ db'.combination r.1 := by
      rw [h.combination r.1 (by rw [hp]; rfl)]
      exact mem_combination_iff.mpr hr
    exact h'.described r (mem_combination_iff.mp hmem) attr value (h.described r hr attr value hd)

/-- Only products change, and none its template. -/
lemma Sound.withProducts (h : Sound db) {products : Table Product}
    (hp : ∀ i, (products.get? i).map Product.tmplId = (db.products.get? i).map Product.tmplId) :
    Sound { db with products := products } ∧ Keeps db { db with products := products } := by
  have hback : ∀ i p, db.products.get? i = some p →
      ∃ p', products.get? i = some p' ∧ p'.tmplId = p.tmplId := by
    intro i p hget
    have hi := hp i
    rw [hget] at hi
    exact map_eq_some_iff.mp hi
  have hvariants : ∀ tmpl i, i ∈ VariantDb.variants { db with products := products } tmpl →
      i ∈ db.variants tmpl := by
    intro tmpl i hi
    obtain ⟨p, hget, ht⟩ := mem_variants_iff.mp hi
    have hi' := hp i
    rw [hget] at hi'
    obtain ⟨p', hget', ht'⟩ := map_eq_some_iff.mp hi'.symm
    exact mem_variants_iff.mpr ⟨p', hget', ht'.trans ht⟩
  constructor
  · refine ⟨h.lineUnique, h.ptavUnique, h.ptavLine, h.ptavValue, ?_, h.nodup, ?_⟩
    · intro r hr
      obtain ⟨p, pt, l, hget, hpt, hl, ht⟩ := h.combined r hr
      obtain ⟨p', hget', ht'⟩ := hback r.1 p hget
      exact ⟨p', pt, l, hget', hpt, hl, ht'.trans ht⟩
    · intro tmpl p hpv q hqv heq
      exact h.distinct tmpl p (hvariants tmpl p hpv) q (hvariants tmpl q hqv) heq
  · exact ⟨hback, fun _ _ => rfl, fun _ _ _ _ hd => hd⟩

lemma map_tmplId_modify (t : Table Product) (pid : ℤ) {f : Product → Product}
    (hf : ∀ p, (f p).tmplId = p.tmplId) (i : ℤ) :
    ((t.modify pid f).get? i).map Product.tmplId = (t.get? i).map Product.tmplId := by
  rw [get?_modify, Option.map_map]
  congr 1
  funext p
  rw [comp_apply]
  split
  · exact hf p
  · rfl

end Frames

/-! ### The loop over the combinations -/

/-- The active variant of a combination, at its price. -/
def Stands (db : VariantDb) (tmpl : ℤ) (t : Template) (pid : ℤ) (c : List Val) : Prop :=
  (∃ p, db.products.get? pid = some p ∧ p.tmplId = some tmpl ∧ p.active = true ∧
    p.listPrice = t.listPrice + extraOf c) ∧ db.combination pid = (idsOf c).toFinset

/-- What the loop has done so far. -/
structure Made (db : VariantDb) (tmpl : ℤ) (t : Template) (ex : AList fun _ : String => ℤ)
    (done : List (List Val)) (m : Making) : Prop where
  lines : m.db.lines = db.lines
  ptavs : m.db.ptavs = db.ptavs
  values : m.db.values = db.values
  templates : m.db.templates = db.templates
  sound : Sound m.db
  keeps : Keeps db m.db
  covers : ∀ c ∈ done, ∃ pid ∈ m.live, Stands m.db tmpl t pid c
  stands : ∀ pid ∈ m.live, ∃ c ∈ done, Stands m.db tmpl t pid c
  known : ∀ pid ∈ m.db.variants tmpl, ex.lookup (keyOf m.db pid) = some pid ∨ pid ∈ m.live
  old : ∀ k pid, ex.lookup k = some pid → pid ∈ m.db.variants tmpl ∧ keyOf m.db pid = k

section Loop

variable {db : VariantDb} {tmpl : ℤ} {t : Template} {ex : AList fun _ : String => ℤ}
  {done : List (List Val)} {m : Making} {c : List Val}

/-- A variant that is kept. -/
lemma Made.keep (hs : Sound db) (h : Made db tmpl t ex done m) (hids : (idsOf c).Nodup)
    (hnew : ∀ c' ∈ done, (idsOf c').toFinset ≠ (idsOf c).toFinset) {pid : ℤ}
    (hl : ex.lookup (NumberLists.setText (idsOf c)) = some pid) :
    Made db tmpl t ex (done ++ [c]) (makeVariant tmpl t ex m c) := by
  have hmake : makeVariant tmpl t ex m c = { m with
        db := { m.db with products := m.db.products.modify pid fun p =>
          { p with listPrice := t.listPrice + extraOf c, active := true } }
        live := m.live ++ [pid]
        kept := m.kept + 1 } := by
    unfold makeVariant
    dsimp only
    rw [show ex.lookup (NumberLists.listText ((idsOf c).insertionSort (· ≤ ·))) = some pid from hl]
  obtain ⟨hvariant, hkey⟩ := h.old _ pid hl
  have hcomb := (keyOf_eq_iff h.sound.nodup hids).mp hkey
  have htmpl := map_tmplId_modify m.db.products pid
    (f := fun p => { p with listPrice := t.listPrice + extraOf c, active := true }) fun _ => rfl
  obtain ⟨hsound, hkeeps⟩ := h.sound.withProducts htmpl
  have hother : ∀ pid' c', c' ∈ done → Stands m.db tmpl t pid' c' →
      Stands (makeVariant tmpl t ex m c).db tmpl t pid' c' := by
    rintro pid' c' hc' ⟨hp, hset⟩
    have hne : pid' ≠ pid := by
      rintro rfl
      exact hnew c' hc' (hset.symm.trans hcomb)
    rw [hmake]
    refine ⟨?_, hset⟩
    rw [get?_modify_of_ne _ _ hne]
    exact hp
  have hself : Stands (makeVariant tmpl t ex m c).db tmpl t pid c := by
    obtain ⟨p, hp, ht⟩ := mem_variants_iff.mp hvariant
    rw [hmake]
    refine ⟨⟨{ p with listPrice := t.listPrice + extraOf c, active := true }, ?_, ht, rfl, rfl⟩, hcomb⟩
    rw [get?_modify_self, hp]
    rfl
  have hvariants : ∀ i, i ∈ (makeVariant tmpl t ex m c).db.variants tmpl ↔
      i ∈ m.db.variants tmpl := by
    intro i
    have hi := htmpl i
    have hmem : ∀ d : VariantDb, i ∈ d.variants tmpl ↔
        (d.products.get? i).map Product.tmplId = some (some tmpl) := by
      intro d
      rw [mem_variants_iff, map_eq_some_iff]
    rw [hmem, hmem, hmake]
    rw [hi]
  have hlive : (makeVariant tmpl t ex m c).live = m.live ++ [pid] := by rw [hmake]
  refine ⟨?_, ?_, ?_, ?_, ?_, ?_, ?_, ?_, ?_, ?_⟩
  · rw [hmake]; exact h.lines
  · rw [hmake]; exact h.ptavs
  · rw [hmake]; exact h.values
  · rw [hmake]; exact h.templates
  · rw [hmake]; exact hsound
  · rw [hmake]; exact h.keeps.trans hs hkeeps
  · rw [forall_mem_append, forall_mem_singleton, hlive]
    constructor
    · intro c' hc'
      obtain ⟨pid', hmem, hst⟩ := h.covers c' hc'
      exact ⟨pid', mem_append_left _ hmem, hother pid' c' hc' hst⟩
    · exact ⟨pid, mem_append_right _ (mem_singleton_self pid), hself⟩
  · rw [hlive, forall_mem_append, forall_mem_singleton]
    constructor
    · intro pid' hmem
      obtain ⟨c', hc', hst⟩ := h.stands pid' hmem
      exact ⟨c', mem_append_left _ hc', hother pid' c' hc' hst⟩
    · exact ⟨c, mem_append_right _ (mem_singleton_self c), hself⟩
  · intro i hi
    rw [hlive, mem_append]
    rcases h.known i ((hvariants i).mp hi) with hk | hk
    · rw [hmake]
      exact .inl hk
    · exact .inr (.inl hk)
  · intro k i hk
    obtain ⟨hv, hkey'⟩ := h.old k i hk
    refine ⟨(hvariants i).mpr hv, ?_⟩
    rw [hmake]
    exact hkey'

/-- A new product with rows for its values. -/
def VariantDb.addVariant (db : VariantDb) (p : Product) (ids : List ℤ) : VariantDb :=
  { db with
    products := db.products.insert p
    combinations := ids.foldl (addRow db.products.nextId) db.combinations }

section AddVariant

variable {p : Product} {ids : List ℤ}

lemma Sound.notMem_next (h : Sound db) (i : ℤ) : (db.products.nextId, i) ∉ db.combinations := by
  intro hmem
  obtain ⟨p, -, -, hp, -⟩ := h.combined _ hmem
  rw [get?_nextId] at hp
  cases hp

lemma combination_addVariant_self (h : Sound db) :
    (db.addVariant p ids).combination db.products.nextId = ids.toFinset := by
  ext i
  rw [mem_combination_iff, VariantDb.addVariant, mem_addRows_iff, List.mem_toFinset]
  constructor
  · rintro (hmem | ⟨-, hi⟩)
    · exact absurd hmem (h.notMem_next i)
    · exact hi
  · intro hi
    exact .inr ⟨rfl, hi⟩

lemma combination_addVariant_of_ne {pid : ℤ} (hne : pid ≠ db.products.nextId) :
    (db.addVariant p ids).combination pid = db.combination pid := by
  ext i
  rw [mem_combination_iff, mem_combination_iff, VariantDb.addVariant, mem_addRows_iff]
  constructor
  · rintro (hmem | ⟨heq, -⟩)
    · exact hmem
    · exact absurd heq hne
  · exact .inl

lemma keyOf_addVariant_of_ne (h : Sound db) {pid : ℤ} (hne : pid ≠ db.products.nextId) :
    keyOf (db.addVariant p ids) pid = keyOf db pid := by
  have hnodup : (db.addVariant p ids).combinations.Nodup := nodup_addRows h.nodup
  unfold keyOf
  rw [NumberLists.setText_eq_iff (nodup_ptavsOf hnodup pid) (nodup_ptavsOf h.nodup pid)]
  exact combination_addVariant_of_ne hne

lemma get?_addVariant_of_ne {pid : ℤ} (hne : pid ≠ db.products.nextId) :
    (db.addVariant p ids).products.get? pid = db.products.get? pid :=
  get?_insert_of_ne _ _ hne

lemma get?_addVariant_self :
    (db.addVariant p ids).products.get? db.products.nextId = some p := get?_insert_self _ _

lemma ne_next_of_mem_variants {pid : ℤ} (h : pid ∈ db.variants tmpl) :
    pid ≠ db.products.nextId := by
  obtain ⟨p, hp, -⟩ := mem_variants_iff.mp h
  exact (lt_nextId_of_get? hp).ne

lemma mem_variants_addVariant_iff {pid : ℤ} : pid ∈ (db.addVariant p ids).variants tmpl ↔
    pid ∈ db.variants tmpl ∨ (pid = db.products.nextId ∧ p.tmplId = some tmpl) := by
  rw [mem_variants_iff]
  constructor
  · rintro ⟨q, hq, ht⟩
    by_cases hpid : pid = db.products.nextId
    · subst hpid
      rw [get?_addVariant_self, Option.some.injEq] at hq
      subst hq
      exact .inr ⟨rfl, ht⟩
    · rw [get?_addVariant_of_ne hpid] at hq
      exact .inl (mem_variants_iff.mpr ⟨q, hq, ht⟩)
  · rintro (hmem | ⟨rfl, ht⟩)
    · obtain ⟨q, hq, ht⟩ := mem_variants_iff.mp hmem
      exact ⟨q, (get?_addVariant_of_ne (ne_next_of_mem_variants hmem)).trans hq, ht⟩
    · exact ⟨p, get?_addVariant_self, ht⟩

/-- A variant for a combination that no variant stands for yet. -/
lemma Sound.addVariant (h : Sound db)
    (hids : ∀ i ∈ ids, ∃ pt l, db.ptavs.get? i = some pt ∧ db.lines.get? pt.lineId = some l ∧
      p.tmplId = some l.tmplId)
    (hnew : ∀ tmpl, p.tmplId = some tmpl → ∀ q ∈ db.variants tmpl, db.combination q ≠ ids.toFinset) :
    Sound (db.addVariant p ids) ∧ Keeps db (db.addVariant p ids) := by
  constructor
  · refine ⟨h.lineUnique, h.ptavUnique, h.ptavLine, h.ptavValue, ?_, nodup_addRows h.nodup, ?_⟩
    · intro r hr
      rcases mem_addRows_iff.mp hr with hold | ⟨hpid, hi⟩
      · obtain ⟨q, pt, l, hq, hpt, hl, ht⟩ := h.combined r hold
        have hne : r.1 ≠ db.products.nextId := (lt_nextId_of_get? hq).ne
        exact ⟨q, pt, l, (get?_addVariant_of_ne hne).trans hq, hpt, hl, ht⟩
      · obtain ⟨pt, l, hpt, hl, ht⟩ := hids r.2 hi
        exact ⟨p, pt, l, by rw [hpid]; exact get?_addVariant_self, hpt, hl, ht⟩
    · intro tmpl a ha b hb heq
      rw [mem_variants_addVariant_iff] at ha hb
      rcases ha with ha | ⟨rfl, hta⟩
      · rw [combination_addVariant_of_ne (ne_next_of_mem_variants ha)] at heq
        rcases hb with hb | ⟨rfl, htb⟩
        · rw [combination_addVariant_of_ne (ne_next_of_mem_variants hb)] at heq
          exact h.distinct tmpl a ha b hb heq
        · rw [combination_addVariant_self h] at heq
          exact absurd heq (hnew tmpl htb a ha)
      · rw [combination_addVariant_self h] at heq
        rcases hb with hb | ⟨rfl, -⟩
        · rw [combination_addVariant_of_ne (ne_next_of_mem_variants hb)] at heq
          exact absurd heq.symm (hnew tmpl hta b hb)
        · rfl
  · refine ⟨?_, ?_, fun _ _ _ _ hd => hd⟩
    · intro i q hq
      exact ⟨q, (get?_addVariant_of_ne (lt_nextId_of_get? hq).ne).trans hq, rfl⟩
    · intro i hi
      obtain ⟨q, hq⟩ := isSome_iff_exists.mp hi
      exact combination_addVariant_of_ne (lt_nextId_of_get? hq).ne

end AddVariant

/-- A variant that is made. -/
lemma Made.create (hs : Sound db) (h : Made db tmpl t ex done m)
    (hc : c ∈ combos (axes m.db tmpl))
    (hnew : ∀ c' ∈ done, (idsOf c').toFinset ≠ (idsOf c).toFinset)
    (hl : ex.lookup (NumberLists.setText (idsOf c)) = none) :
    Made db tmpl t ex (done ++ [c]) (makeVariant tmpl t ex m c) := by
  have hids : (idsOf c).Nodup :=
    nodup_idsOf (mem_combos_axes_iff.mp hc) ((nodup_linesOf tmpl).filter _)
  obtain ⟨p, hp⟩ : ∃ p : Product, p =
      ⟨variantName t.name c, t.listPrice + extraOf c, some tmpl, true, t.info⟩ := ⟨_, rfl⟩
  obtain ⟨ids, hsorted⟩ : ∃ ids, ids = (idsOf c).insertionSort (· ≤ ·) := ⟨_, rfl⟩
  have hset : ids.toFinset = (idsOf c).toFinset := by
    rw [hsorted]
    exact toFinset_eq_of_perm _ _ (perm_insertionSort _ _)
  have hmake : makeVariant tmpl t ex m c = { m with
        db := m.db.addVariant p ids
        live := m.live ++ [m.db.products.nextId]
        created := m.created + 1 } := by
    rw [hp, hsorted]
    unfold makeVariant
    dsimp only
    rw [show ex.lookup (NumberLists.listText ((idsOf c).insertionSort (· ≤ ·))) = none from hl]
    rfl
  -- a variant that stands for the combination would have been found
  have hfree : ∀ q ∈ m.db.variants tmpl, m.db.combination q ≠ ids.toFinset := by
    intro q hq heq
    rw [hset] at heq
    rcases h.known q hq with hk | hk
    · rw [(keyOf_eq_iff h.sound.nodup hids).mpr heq, hl] at hk
      cases hk
    · obtain ⟨c', hc', -, hcomb⟩ := h.stands q hk
      exact hnew c' hc' (hcomb.symm.trans heq)
  obtain ⟨hsound, hkeeps⟩ : Sound (m.db.addVariant p ids) ∧ Keeps m.db (m.db.addVariant p ids) := by
    apply h.sound.addVariant
    · intro i hi
      rw [← List.mem_toFinset, hset] at hi
      obtain ⟨pt, l, hpt, -, hline, ht⟩ := (h.sound.chosen_of_combo hc).active i hi
      exact ⟨pt, l, hpt, hline, by rw [hp, ht]⟩
    · intro tmpl' ht
      rw [hp, Option.some.injEq] at ht
      subst ht
      exact hfree
  have hother : ∀ pid' c', Stands m.db tmpl t pid' c' →
      Stands (m.db.addVariant p ids) tmpl t pid' c' := by
    rintro pid' c' ⟨⟨q, hq, hrest⟩, hcomb⟩
    have hne := (lt_nextId_of_get? hq).ne
    exact ⟨⟨q, (get?_addVariant_of_ne hne).trans hq, hrest⟩,
      (combination_addVariant_of_ne hne).trans hcomb⟩
  have hself : Stands (m.db.addVariant p ids) tmpl t m.db.products.nextId c := by
    refine ⟨⟨p, get?_addVariant_self, ?_⟩, (combination_addVariant_self h.sound).trans hset⟩
    rw [hp]
    exact ⟨rfl, rfl, rfl⟩
  rw [hmake]
  refine ⟨h.lines, h.ptavs, h.values, h.templates, hsound, h.keeps.trans hs hkeeps, ?_, ?_, ?_, ?_⟩
  · rw [forall_mem_append, forall_mem_singleton]
    constructor
    · intro c' hc'
      obtain ⟨pid', hmem, hst⟩ := h.covers c' hc'
      exact ⟨pid', mem_append_left _ hmem, hother pid' c' hst⟩
    · exact ⟨_, mem_append_right _ (mem_singleton_self _), hself⟩
  · rw [forall_mem_append, forall_mem_singleton]
    constructor
    · intro pid' hmem
      obtain ⟨c', hc', hst⟩ := h.stands pid' hmem
      exact ⟨c', mem_append_left _ hc', hother pid' c' hst⟩
    · exact ⟨c, mem_append_right _ (mem_singleton_self c), hself⟩
  · intro i hi
    rw [mem_append, mem_singleton]
    rcases mem_variants_addVariant_iff.mp hi with hold | ⟨hi', -⟩
    · rw [keyOf_addVariant_of_ne h.sound (ne_next_of_mem_variants hold)]
      rcases h.known i hold with hk | hk
      · exact .inl hk
      · exact .inr (.inl hk)
    · exact .inr (.inr hi')
  · intro k i hk
    obtain ⟨hv, hkey⟩ := h.old k i hk
    refine ⟨mem_variants_addVariant_iff.mpr (.inl hv), ?_⟩
    rw [keyOf_addVariant_of_ne h.sound (ne_next_of_mem_variants hv)]
    exact hkey

lemma axes_congr {db db' : VariantDb} (hl : db'.lines = db.lines) (hp : db'.ptavs = db.ptavs)
    (hv : db'.values = db.values) (tmpl : ℤ) : axes db' tmpl = axes db tmpl := by
  have haxis : axis db' = axis db := by
    funext lineId
    unfold axis activeValues
    rw [hp, hv]
  unfold axes linesOf
  rw [hl, haxis]

/-- One combination. -/
lemma Made.step (hs : Sound db) (h : Made db tmpl t ex done m) (hc : c ∈ combos (axes db tmpl))
    (hdone : ∀ c' ∈ done, c' ∈ combos (axes db tmpl) ∧ c' ≠ c) :
    Made db tmpl t ex (done ++ [c]) (makeVariant tmpl t ex m c) := by
  have hnew : ∀ c' ∈ done, (idsOf c').toFinset ≠ (idsOf c).toFinset := by
    intro c' hc' heq
    exact (hdone c' hc').2 (combo_unique (hdone c' hc').1 hc heq)
  cases hl : ex.lookup (NumberLists.setText (idsOf c)) with
  | some pid =>
      have hids := nodup_idsOf (mem_combos_axes_iff.mp hc) ((nodup_linesOf tmpl).filter _)
      exact h.keep hs hids hnew hl
  | none =>
      rw [← axes_congr h.lines h.ptavs h.values] at hc
      exact h.create hs hc hnew hl

/-- The loop. -/
lemma Made.loop (hs : Sound db) {cs : List (List Val)} (h : Made db tmpl t ex done m)
    (hcs : ∀ c ∈ done ++ cs, c ∈ combos (axes db tmpl)) (hnodup : (done ++ cs).Nodup) :
    Made db tmpl t ex (done ++ cs) (cs.foldl (makeVariant tmpl t ex) m) := by
  induction cs generalizing done m with
  | nil =>
      rw [append_nil]
      exact h
  | cons c cs ih =>
      have happ : done ++ c :: cs = done ++ [c] ++ cs := by
        rw [append_assoc, singleton_append]
      have hstep : Made db tmpl t ex (done ++ [c]) (makeVariant tmpl t ex m c) := by
        apply h.step hs
        · exact hcs c (mem_append_right _ mem_cons_self)
        · intro c' hc'
          refine ⟨hcs c' (mem_append_left _ hc'), ?_⟩
          rintro rfl
          exact disjoint_of_nodup_append hnodup hc' mem_cons_self
      rw [happ] at hcs hnodup ⊢
      exact ih hstep hcs hnodup

end Loop

/-! ### Archiving -/

section Archive

variable {db : VariantDb}

/-- The rows of products, some of them archived. -/
def archiveRows (gone : List ℤ) (ps : Table Product) : Table Product :=
  gone.foldl (fun ps pid => ps.modify pid fun p => { p with active := false }) ps

lemma foldl_archive (gone : List ℤ) (db : VariantDb) :
    gone.foldl archive db = { db with products := archiveRows gone db.products } := by
  induction gone generalizing db with
  | nil => rfl
  | cons pid gone ih =>
      rw [foldl_cons, ih]
      rfl

lemma get?_archiveRows (gone : List ℤ) (ps : Table Product) (i : ℤ) :
    (archiveRows gone ps).get? i =
      (ps.get? i).map fun p => if i ∈ gone then { p with active := false } else p := by
  induction gone generalizing ps with
  | nil => simp [archiveRows]
  | cons pid gone ih =>
      show (archiveRows gone (ps.modify pid fun p => { p with active := false })).get? i = _
      rw [ih, get?_modify, Option.map_map]
      congr 1
      funext p
      rw [comp_apply]
      by_cases hi : i = pid
      · simp [hi]
      · simp [hi]

end Archive

/-! ### Generation -/

section Generate

variable {db db' : VariantDb} {tmpl : ℤ} {order : List ℤ} {t : Template}

lemma chosen_congr (db db' : VariantDb) (hl : db'.lines = db.lines) (hp : db'.ptavs = db.ptavs)
    {s : Finset ℤ} : Chosen db' tmpl s ↔ Chosen db tmpl s := by
  constructor
  · rintro ⟨hactive, hone⟩
    rw [hl, hp] at hactive hone
    exact ⟨hactive, hone⟩
  · rintro ⟨hactive, hone⟩
    refine ⟨?_, ?_⟩
    · rw [hl, hp]
      exact hactive
    · rw [hl, hp]
      exact hone

/-- What was there before the loop. -/
lemma Sound.made (h : Sound db) (horder : order.Perm (db.variants tmpl)) :
    Made db tmpl t (existing db order) [] { db := db } := by
  refine ⟨rfl, rfl, rfl, rfl, h, Keeps.refl db, by simp, by simp, ?_, ?_⟩
  · intro pid hpid
    exact .inl ((h.lookup_existing horder).mpr ⟨hpid, rfl⟩)
  · intro k pid hk
    exact (h.lookup_existing horder).mp hk

lemma mem_values_iff {κ α : Type*} [DecidableEq κ] {m : AList fun _ : κ => α} {a : α} :
    a ∈ m.entries.map Sigma.snd ↔ ∃ k, m.lookup k = some a := by
  rw [List.mem_map]
  constructor
  · rintro ⟨e, he, rfl⟩
    exact ⟨e.1, AList.mem_lookup_iff.mpr he⟩
  · rintro ⟨k, hk⟩
    exact ⟨⟨k, a⟩, AList.mem_lookup_iff.mp hk, rfl⟩

/-- **Generation makes the active variants the combinations.** -/
theorem Sound.generate (h : Sound db) (horder : order.Perm (db.variants tmpl)) {r : Generated}
    (hg : handleGenerate db tmpl order = .ok (db', r)) :
    Sound db' ∧ Keeps db db' ∧ ∃ t, db'.templates tmpl = some t ∧ 0 < tmpl ∧ Exact db' tmpl t := by
  unfold handleGenerate at hg
  split at hg
  · cases hg
  next hpos =>
  split at hg
  · cases hg
  next t ht =>
  dsimp only at hg
  have hstart : Made db tmpl t (existing db order) [] { db := db } := h.made horder
  have hmade : Made db tmpl t (existing db order) ([] ++ combos (axes db tmpl)) _ :=
    hstart.loop h (fun _ hc => hc) (nodup_combos_axes tmpl)
  rw [nil_append] at hmade
  generalize (combos (axes db tmpl)).foldl (makeVariant tmpl t (existing db order)) { db := db } = m
    at hg hmade
  obtain ⟨gone, hgone⟩ : ∃ gone, gone = ((existing db order).entries.map Sigma.snd).filter fun pid =>
    !m.live.contains pid := ⟨_, rfl⟩
  rw [← hgone] at hg
  have hmemGone : ∀ pid, pid ∈ gone ↔
      (∃ k, (existing db order).lookup k = some pid) ∧ pid ∉ m.live := by
    intro pid
    rw [hgone, mem_filter, mem_values_iff, Bool.not_eq_true', contains_eq_mem,
      decide_eq_false_iff_not]
  obtain ⟨rfl, -⟩ := Prod.mk.inj (Except.ok.inj hg)
  rw [foldl_archive]
  obtain ⟨ps, hps⟩ : ∃ ps, ps = archiveRows gone m.db.products := ⟨_, rfl⟩
  have hget : ∀ i, ps.get? i = (m.db.products.get? i).map fun p =>
      if i ∈ gone then { p with active := false } else p := by
    intro i
    rw [hps, get?_archiveRows]
  have htmpl : ∀ i, (ps.get? i).map Product.tmplId = (m.db.products.get? i).map Product.tmplId := by
    intro i
    rw [hget, Option.map_map]
    congr 1
    funext p
    rw [comp_apply]
    split
    · rfl
    · rfl
  rw [← hps]
  obtain ⟨hsound, hkeeps⟩ := hmade.sound.withProducts htmpl
  have haxes : axes m.db tmpl = axes db tmpl := axes_congr hmade.lines hmade.ptavs hmade.values tmpl
  have hchosen : ∀ s, Chosen { m.db with products := ps } tmpl s ↔ Chosen m.db tmpl s :=
    fun _ => chosen_congr m.db { m.db with products := ps } rfl rfl
  -- the active variants are the live ones
  have hlive : ∀ pid s, IsVariant { m.db with products := ps } tmpl s pid ↔
      ∃ c ∈ combos (axes db tmpl), pid ∈ m.live ∧ Stands m.db tmpl t pid c ∧
        (idsOf c).toFinset = s := by
    intro pid s
    constructor
    · rintro ⟨⟨p, hp, hpt, hactive⟩, hcomb⟩
      rw [hget, map_eq_some_iff] at hp
      obtain ⟨q, hq, rfl⟩ := hp
      have hnot : pid ∉ gone := by
        intro hmem
        rw [if_pos hmem] at hactive
        cases hactive
      rw [if_neg hnot] at hpt
      have hvariant := mem_variants_iff.mpr ⟨q, hq, hpt⟩
      have hmem : pid ∈ m.live := by
        by_contra hout
        have hknown := (hmade.known pid hvariant).resolve_right hout
        exact hnot ((hmemGone pid).mpr ⟨⟨keyOf m.db pid, hknown⟩, hout⟩)
      obtain ⟨c, hc, hst⟩ := hmade.stands pid hmem
      exact ⟨c, hc, hmem, hst, hst.2.symm.trans hcomb⟩
    · rintro ⟨c, hc, hmem, ⟨⟨p, hp, hpt, hactive, -⟩, hcomb⟩, rfl⟩
      refine ⟨⟨p, ?_, hpt, hactive⟩, hcomb⟩
      rw [hget, hp, map_some, if_neg fun hgone' => ((hmemGone pid).mp hgone').2 hmem]
  refine ⟨hsound, hmade.keeps.trans h hkeeps, t, ?_, not_le.mp hpos, ?_⟩
  · show m.db.templates tmpl = some t
    rw [hmade.templates, ht]
  · refine ⟨?_, ?_, ?_⟩
    · intro s hs
      obtain ⟨c, hc, rfl⟩ := hmade.sound.combo_of_chosen ((hchosen s).mp hs)
      rw [haxes] at hc
      obtain ⟨pid, hmem, hst⟩ := hmade.covers c hc
      refine ⟨pid, (hlive pid _).mpr ⟨c, hc, hmem, hst, rfl⟩, ?_⟩
      rintro pid' ⟨⟨p', hp', hpt', -⟩, hcomb'⟩
      obtain ⟨p, hp, hpt, -⟩ := ((hlive pid _).mpr ⟨c, hc, hmem, hst, rfl⟩).1
      exact hsound.distinct tmpl pid' (mem_variants_iff.mpr ⟨p', hp', hpt'⟩) pid
        (mem_variants_iff.mpr ⟨p, hp, hpt⟩) (hcomb'.trans hst.2.symm)
    · intro pid s hv
      obtain ⟨c, hc, -, -, rfl⟩ := (hlive pid s).mp hv
      rw [← haxes] at hc
      exact (hchosen _).mpr (hmade.sound.chosen_of_combo hc)
    · intro pid s hv
      obtain ⟨c, hc, hmem, ⟨⟨p, hp, -, -, hprice⟩, -⟩, rfl⟩ := (hlive pid s).mp hv
      show (ps.get? pid).map Product.listPrice = some (priceOf m.db t _)
      rw [hget, hp, map_some, map_some,
        if_neg fun hgone' => ((hmemGone pid).mp hgone').2 hmem, hprice,
        priceOf_combo (by rw [haxes]; exact hc)]

/-- A combination in a loop over exact variants: nothing changes. -/
lemma Exact.makeVariant_eq (hs : Sound db) (hex : Exact db tmpl t)
    (horder : order.Perm (db.variants tmpl)) {c : List Val} (hc : c ∈ combos (axes db tmpl))
    {m : Making} (hm : m.db = db) :
    (makeVariant tmpl t (existing db order) m c).db = db ∧
      ∃ pid, (makeVariant tmpl t (existing db order) m c).live = m.live ++ [pid] ∧
        IsVariant db tmpl (idsOf c).toFinset pid := by
  have hids := nodup_idsOf (mem_combos_axes_iff.mp hc) ((nodup_linesOf tmpl).filter _)
  obtain ⟨pid, hv, -⟩ := hex.every _ (hs.chosen_of_combo hc)
  obtain ⟨⟨p, hp, hpt, hactive⟩, hcomb⟩ := hv
  have hl : (existing db order).lookup (NumberLists.setText (idsOf c)) = some pid :=
    (hs.lookup_existing horder).mpr
      ⟨mem_variants_iff.mpr ⟨p, hp, hpt⟩, (keyOf_eq_iff hs.nodup hids).mpr hcomb⟩
  have hprice := hex.price pid _ ⟨⟨p, hp, hpt, hactive⟩, hcomb⟩
  rw [hp, map_some, Option.some.injEq, priceOf_combo hc] at hprice
  have hsame : (db.products.modify pid fun p =>
      { p with listPrice := t.listPrice + extraOf c, active := true }) = db.products := by
    apply Table.modify_eq_self
    intro a ha
    rw [hp, Option.some.injEq] at ha
    subst ha
    rw [← hprice, ← hactive]
  unfold makeVariant
  dsimp only
  rw [show (existing db order).lookup (NumberLists.listText ((idsOf c).insertionSort (· ≤ ·))) =
    some pid from hl]
  dsimp only
  rw [hm, hsame]
  exact ⟨rfl, pid, rfl, ⟨p, hp, hpt, hactive⟩, hcomb⟩

lemma Exact.loop_eq (hs : Sound db) (hex : Exact db tmpl t)
    (horder : order.Perm (db.variants tmpl)) {cs : List (List Val)}
    (hcs : ∀ c ∈ cs, c ∈ combos (axes db tmpl)) {m : Making} (hm : m.db = db) :
    (cs.foldl (makeVariant tmpl t (existing db order)) m).db = db ∧
      (∀ pid ∈ m.live, pid ∈ (cs.foldl (makeVariant tmpl t (existing db order)) m).live) ∧
      ∀ c ∈ cs, ∃ pid ∈ (cs.foldl (makeVariant tmpl t (existing db order)) m).live,
        IsVariant db tmpl (idsOf c).toFinset pid := by
  induction cs generalizing m with
  | nil => exact ⟨hm, fun _ h => h, by simp⟩
  | cons c cs ih =>
      rw [forall_mem_cons] at hcs
      obtain ⟨hdb, pid, hlive, hv⟩ := hex.makeVariant_eq hs horder hcs.1 hm
      obtain ⟨hend, hkept, hall⟩ := ih hcs.2 hdb
      rw [foldl_cons, forall_mem_cons]
      refine ⟨hend, ?_, ⟨pid, ?_, hv⟩, hall⟩
      · intro q hq
        apply hkept
        rw [hlive]
        exact mem_append_left _ hq
      · apply hkept
        rw [hlive]
        exact mem_append_right _ (mem_singleton_self pid)

/-- **Generating again changes nothing.** -/
theorem Exact.generate_eq (hs : Sound db) (hex : Exact db tmpl t)
    (ht : db.templates tmpl = some t) (hpos : 0 < tmpl) (horder : order.Perm (db.variants tmpl)) :
    ∃ r, handleGenerate db tmpl order = .ok (db, r) := by
  unfold handleGenerate
  rw [if_neg (not_le.mpr hpos), ht]
  dsimp only
  obtain ⟨hdb, -, hall⟩ := hex.loop_eq hs horder (fun c hc => hc) (m := { db := db }) rfl
  generalize (combos (axes db tmpl)).foldl (makeVariant tmpl t (existing db order)) { db := db } = m
    at hdb hall ⊢
  refine ⟨_, congrArg Except.ok (Prod.ext ?_ rfl)⟩
  rw [hdb, foldl_archive]
  have hsame : archiveRows (((existing db order).entries.map Sigma.snd).filter fun pid =>
      !m.live.contains pid) db.products = db.products := by
    generalize hgone : ((existing db order).entries.map Sigma.snd).filter (fun pid =>
      !m.live.contains pid) = gone
    -- what is archived is no active variant
    have hinactive : ∀ pid ∈ gone, ∀ p, db.products.get? pid = some p → p.active = false := by
      intro pid hpid p hp
      rw [← hgone, mem_filter, mem_values_iff, Bool.not_eq_true', contains_eq_mem,
        decide_eq_false_iff_not] at hpid
      obtain ⟨⟨k, hk⟩, hout⟩ := hpid
      obtain ⟨hvariant, -⟩ := (hs.lookup_existing horder).mp hk
      obtain ⟨p', hp', hpt⟩ := mem_variants_iff.mp hvariant
      rw [hp, Option.some.injEq] at hp'
      subst hp'
      by_contra hactive
      have hv : IsVariant db tmpl (db.combination pid) pid :=
        ⟨⟨p, hp, hpt, eq_true_of_ne_false hactive⟩, rfl⟩
      have hchosen := hex.only pid _ hv
      obtain ⟨c, hc, hset⟩ := hs.combo_of_chosen hchosen
      obtain ⟨q, hq, hvq⟩ := hall c hc
      rw [hset] at hvq
      rw [(hex.every _ hchosen).unique hv hvq] at hout
      exact hout hq
    clear hgone
    induction gone with
    | nil => rfl
    | cons pid gone ih =>
        rw [forall_mem_cons] at hinactive
        have hmodify : (db.products.modify pid fun p => { p with active := false }) =
            db.products := by
          apply Table.modify_eq_self
          intro a ha
          rw [← hinactive.1 a ha]
        show archiveRows gone (db.products.modify pid fun p => { p with active := false }) = _
        rw [hmodify]
        exact ih hinactive.2
  rw [hsame]

end Generate

end ProductVariants

end CErp
