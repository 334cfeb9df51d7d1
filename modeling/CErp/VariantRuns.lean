/-
Runs of `set_attribute_line`, `remove_attribute_line` and `generate_variants`.

Dropping and reviving values keeps every variant and what it stands for (`Keeps`),
and so does removing a line that no variant stands for; so does generation.  Along
such runs generation is exact, and a combination that becomes possible again is
the row it was (`variants_lawful`).  Removing a line that variants stand for makes
several of them stand for one combination (`removed_line_leaves_two`).
-/
import CErp.VariantGeneration

namespace CErp

open Table Option Runs List

namespace ProductVariants

section Lines

variable {db db' : VariantDb}

/-! ### Values of lines -/

/-- Only values change, and none its line or its attribute value. -/
lemma Sound.updatePtavs (h : Sound db) {f : ℤ → Ptav → Ptav}
    (hf : ∀ i pt, (f i pt).lineId = pt.lineId ∧ (f i pt).valueId = pt.valueId) :
    Sound { db with ptavs := db.ptavs.update f } ∧
      Keeps db { db with ptavs := db.ptavs.update f } := by
  have hget : ∀ i pt, (db.ptavs.update f).get? i = some pt → ∃ old, db.ptavs.get? i = some old ∧
      pt.lineId = old.lineId ∧ pt.valueId = old.valueId := by
    intro i pt hi
    rw [get?_update, map_eq_some_iff] at hi
    obtain ⟨old, hold, rfl⟩ := hi
    exact ⟨old, hold, hf i old⟩
  have hback : ∀ i pt, db.ptavs.get? i = some pt → (db.ptavs.update f).get? i = some (f i pt) := by
    intro i pt hi
    rw [get?_update, hi]
    rfl
  constructor
  · refine ⟨h.lineUnique, ?_, ?_, ?_, ?_, h.nodup, h.distinct⟩
    · intro v w a b ha hb hline hvalue
      obtain ⟨a', ha', hla, hva⟩ := hget v a ha
      obtain ⟨b', hb', hlb, hvb⟩ := hget w b hb
      exact h.ptavUnique v w a' b' ha' hb' (hla.symm.trans (hline.trans hlb))
        (hva.symm.trans (hvalue.trans hvb))
    · intro v pt hpt
      obtain ⟨old, hold, hl, -⟩ := hget v pt hpt
      rw [hl]
      exact h.ptavLine v old hold
    · intro v pt hpt
      obtain ⟨old, hold, -, hv⟩ := hget v pt hpt
      rw [hv]
      exact h.ptavValue v old hold
    · intro r hr
      obtain ⟨p, pt, l, hp, hpt, hl, ht⟩ := h.combined r hr
      exact ⟨p, f r.2 pt, l, hp, hback r.2 pt hpt, by rw [(hf r.2 pt).1]; exact hl, ht⟩
  · refine ⟨fun _ p hp => ⟨p, hp, rfl⟩, fun _ _ => rfl, ?_⟩
    rintro r - attr value ⟨pt, l, hpt, hl, ha, hv⟩
    exact ⟨f r.2 pt, l, hback r.2 pt hpt, by rw [(hf r.2 pt).1]; exact hl, ha,
      (hf r.2 pt).2.trans hv⟩

variable {lineId : ℤ}

lemma findPtav_eq_none {valueId : ℤ} (h : db.findPtav lineId valueId = none) {v : ℤ} {pt : Ptav}
    (hpt : db.ptavs.get? v = some pt) : ¬ (pt.lineId = lineId ∧ pt.valueId = valueId) := by
  unfold VariantDb.findPtav at h
  rw [map_eq_none_iff, find?_eq_none] at h
  have hrow := h (v, pt) (get?_eq_some_iff.mp hpt)
  simpa using hrow

/-- A value that the line does not have yet. -/
lemma Sound.insertPtav (h : Sound db) (pt : Ptav)
    (hline : (db.lines.get? pt.lineId).isSome = true)
    (hvalue : (db.values pt.valueId).isSome = true)
    (hnew : db.findPtav pt.lineId pt.valueId = none) :
    Sound { db with ptavs := db.ptavs.insert pt } ∧
      Keeps db { db with ptavs := db.ptavs.insert pt } := by
  have hback : ∀ i old, db.ptavs.get? i = some old → (db.ptavs.insert pt).get? i = some old := by
    intro i old hi
    rw [get?_insert_of_ne _ _ (lt_nextId_of_get? hi).ne, hi]
  constructor
  · refine ⟨h.lineUnique, ?_, ?_, ?_, ?_, h.nodup, h.distinct⟩
    · intro v w a b ha hb hl hv
      rw [get?_insert] at ha hb
      split at ha
      · next hv' =>
          obtain rfl := some.inj ha
          split at hb
          · next hw' => rw [hv', hw']
          · exact absurd ⟨hl.symm, hv.symm⟩ (findPtav_eq_none hnew hb)
      · split at hb
        · obtain rfl := some.inj hb
          exact absurd ⟨hl, hv⟩ (findPtav_eq_none hnew ha)
        · exact h.ptavUnique v w a b ha hb hl hv
    · intro v a ha
      rw [get?_insert] at ha
      split at ha
      · obtain rfl := some.inj ha
        exact hline
      · exact h.ptavLine v a ha
    · intro v a ha
      rw [get?_insert] at ha
      split at ha
      · obtain rfl := some.inj ha
        exact hvalue
      · exact h.ptavValue v a ha
    · intro r hr
      obtain ⟨p, a, l, hp, ha, hl, ht⟩ := h.combined r hr
      exact ⟨p, a, l, hp, hback r.2 a ha, hl, ht⟩
  · refine ⟨fun _ p hp => ⟨p, hp, rfl⟩, fun _ _ => rfl, ?_⟩
    rintro r - attr value ⟨a, l, ha, hl, hattr, hv⟩
    exact ⟨a, l, hback r.2 a ha, hl, hattr, hv⟩

lemma setValue_sound {s s' : VariantDb × List ℤ} {item : ℤ × ℤ} (h : Sound s.1)
    (hline : (s.1.lines.get? lineId).isSome = true) (hs : setValue lineId s item = .ok s') :
    Sound s'.1 ∧ Keeps s.1 s'.1 ∧ s'.1.lines = s.1.lines := by
  unfold setValue at hs
  split at hs
  · cases hs
    exact ⟨h, Keeps.refl _, rfl⟩
  split at hs
  · next hnone =>
      split at hs
      · next hvalue =>
          cases hs
          obtain ⟨hsound, hkeeps⟩ :=
            h.insertPtav ⟨lineId, item.1, item.2, true⟩ hline hvalue hnone
          exact ⟨hsound, hkeeps, rfl⟩
      · cases hs
  · cases hs
    rename_i id _
    obtain ⟨hsound, hkeeps⟩ := h.updatePtavs (f := fun i v =>
      if (i == id) = true then { v with priceExtra := item.2, active := true } else v) (by
        intro i v
        split
        · exact ⟨rfl, rfl⟩
        · exact ⟨rfl, rfl⟩)
    exact ⟨hsound, hkeeps, rfl⟩

lemma setValues_sound {items : List (ℤ × ℤ)} (h : Sound db)
    (hline : (db.lines.get? lineId).isSome = true) (hs : setValues db lineId items = .ok db') :
    Sound db' ∧ Keeps db db' := by
  obtain ⟨s, hfold, hdrop⟩ := Outcome.bind_ok_iff.mp hs
  have hloop : Sound s.1 ∧ Keeps db s.1 ∧ (s.1.lines.get? lineId).isSome = true := by
    refine foldlM_keeps (fun s : VariantDb × List ℤ =>
      Sound s.1 ∧ Keeps db s.1 ∧ (s.1.lines.get? lineId).isSome = true) ?_ hfold
      ⟨h, Keeps.refl db, hline⟩
    rintro s item s' ⟨hsound, hkeeps, hl⟩ hone
    obtain ⟨hsound', hkeeps', hlines⟩ := setValue_sound hsound hl hone
    exact ⟨hsound', hkeeps.trans h hkeeps', by rw [hlines]; exact hl⟩
  obtain ⟨hsound, hkeeps, -⟩ := hloop
  cases hdrop
  obtain ⟨hsound', hkeeps'⟩ := hsound.updatePtavs (f := fun id v =>
    if (v.lineId == lineId && !s.2.contains id) = true then { v with active := false } else v) (by
      intro i v
      split
      · exact ⟨rfl, rfl⟩
      · exact ⟨rfl, rfl⟩)
  exact ⟨hsound', hkeeps.trans h hkeeps'⟩

/-! ### Lines -/

lemma findLine_eq_none {tmpl attr : ℤ} (h : db.findLine tmpl attr = none) {i : ℤ} {l : Line}
    (hl : db.lines.get? i = some l) : ¬ (l.tmplId = tmpl ∧ l.attributeId = attr) := by
  unfold VariantDb.findLine at h
  rw [map_eq_none_iff, find?_eq_none] at h
  have hrow := h (i, l) (get?_eq_some_iff.mp hl)
  simpa using hrow

lemma findLine_eq_some {tmpl attr i : ℤ} (h : db.findLine tmpl attr = some i) :
    (db.lines.get? i).isSome = true := by
  obtain ⟨r, hr, rfl⟩ := map_eq_some_iff.mp h
  rw [get?_eq_some_iff.mpr (mem_of_find?_eq_some hr)]
  rfl

/-- A line for an attribute the template does not vary on yet. -/
lemma Sound.insertLine (h : Sound db) {l : Line} (hnew : db.findLine l.tmplId l.attributeId = none) :
    Sound { db with lines := db.lines.insert l } ∧
      Keeps db { db with lines := db.lines.insert l } := by
  have hback : ∀ i old, db.lines.get? i = some old → (db.lines.insert l).get? i = some old := by
    intro i old hi
    rw [get?_insert_of_ne _ _ (lt_nextId_of_get? hi).ne, hi]
  constructor
  · refine ⟨?_, h.ptavUnique, ?_, h.ptavValue, ?_, h.nodup, h.distinct⟩
    · intro i j a b ha hb ht hattr
      rw [get?_insert] at ha hb
      split at ha
      · next hi =>
          obtain rfl := some.inj ha
          split at hb
          · next hj => rw [hi, hj]
          · exact absurd ⟨ht.symm, hattr.symm⟩ (findLine_eq_none hnew hb)
      · split at hb
        · obtain rfl := some.inj hb
          exact absurd ⟨ht, hattr⟩ (findLine_eq_none hnew ha)
        · exact h.lineUnique i j a b ha hb ht hattr
    · intro v pt hpt
      obtain ⟨old, hold⟩ := isSome_iff_exists.mp (h.ptavLine v pt hpt)
      rw [hback pt.lineId old hold]
      rfl
    · intro r hr
      obtain ⟨p, pt, old, hp, hpt, hold, ht⟩ := h.combined r hr
      exact ⟨p, pt, old, hp, hpt, hback _ _ hold, ht⟩
  · refine ⟨fun _ p hp => ⟨p, hp, rfl⟩, fun _ _ => rfl, ?_⟩
    rintro r - attr value ⟨pt, old, hpt, hold, ha, hv⟩
    exact ⟨pt, old, hpt, hback _ _ hold, ha, hv⟩

lemma handleSetLine_sound {r : LineRequest} (h : Sound db) (hs : handleSetLine db r = .ok db') :
    Sound db' ∧ Keeps db db' := by
  unfold handleSetLine at hs
  split at hs
  · cases hs
  split at hs
  · next lineId hfound => exact setValues_sound h (findLine_eq_some hfound) hs
  · next hnone =>
      split at hs
      · obtain ⟨hsound, hkeeps⟩ := h.insertLine (l := ⟨r.tmpl, r.attr, 10⟩) hnone
        have hline : ((db.lines.insert ⟨r.tmpl, r.attr, 10⟩).get? db.lines.nextId).isSome = true := by
          rw [get?_insert_self]
          rfl
        obtain ⟨hsound', hkeeps'⟩ := setValues_sound hsound hline hs
        exact ⟨hsound', hkeeps.trans h hkeeps'⟩
      · cases hs

/-- A line that no variant stands for takes no row with it. -/
lemma handleRemoveLine_sound (h : Sound db) (hfree : ¬ Used db lineId)
    (hs : handleRemoveLine db lineId = .ok db') : Sound db' ∧ Keeps db db' := by
  unfold handleRemoveLine at hs
  split at hs
  · cases hs
  cases hs
  have hunnamed : ∀ r ∈ db.combinations, db.names lineId r = false := by
    intro r hr
    exact eq_false_of_ne_true fun hn => hfree ⟨r, hr, hn⟩
  have hrows : (db.combinations.filter fun r => !db.names lineId r) = db.combinations := by
    rw [filter_eq_self]
    intro r hr
    rw [hunnamed r hr]
    rfl
  have hline : ∀ i l, (db.lines.delete fun id _ => id == lineId).get? i = some l ↔
      db.lines.get? i = some l ∧ i ≠ lineId := by
    intro i l
    rw [get?_delete, filter_eq_some_iff, Bool.not_eq_true', beq_eq_false_iff_ne]
  have hptav : ∀ v pt, (db.ptavs.delete fun _ v => v.lineId == lineId).get? v = some pt ↔
      db.ptavs.get? v = some pt ∧ pt.lineId ≠ lineId := by
    intro v pt
    rw [get?_delete, filter_eq_some_iff, Bool.not_eq_true', beq_eq_false_iff_ne]
  have hused : ∀ r ∈ db.combinations, ∀ pt, db.ptavs.get? r.2 = some pt → pt.lineId ≠ lineId := by
    intro r hr pt hpt heq
    have hn := hunnamed r hr
    rw [VariantDb.names, hpt, any_some, heq, beq_self_eq_true] at hn
    cases hn
  rw [hrows]
  constructor
  · refine ⟨?_, ?_, ?_, ?_, ?_, h.nodup, h.distinct⟩
    · intro i j a b ha hb
      exact h.lineUnique i j a b ((hline i a).mp ha).1 ((hline j b).mp hb).1
    · intro v w a b ha hb
      exact h.ptavUnique v w a b ((hptav v a).mp ha).1 ((hptav w b).mp hb).1
    · intro v pt hpt
      obtain ⟨hget, hne⟩ := (hptav v pt).mp hpt
      obtain ⟨l, hl⟩ := isSome_iff_exists.mp (h.ptavLine v pt hget)
      rw [(hline pt.lineId l).mpr ⟨hl, hne⟩]
      rfl
    · intro v pt hpt
      exact h.ptavValue v pt ((hptav v pt).mp hpt).1
    · intro r hr
      obtain ⟨p, pt, l, hp, hpt, hl, ht⟩ := h.combined r hr
      have hne := hused r hr pt hpt
      exact ⟨p, pt, l, hp, (hptav r.2 pt).mpr ⟨hpt, hne⟩, (hline _ l).mpr ⟨hl, hne⟩, ht⟩
  · refine ⟨fun _ p hp => ⟨p, hp, rfl⟩, fun _ _ => rfl, ?_⟩
    rintro r hr attr value ⟨pt, l, hpt, hl, ha, hv⟩
    have hne := hused r hr pt hpt
    exact ⟨pt, l, (hptav r.2 pt).mpr ⟨hpt, hne⟩, (hline _ l).mpr ⟨hl, hne⟩, ha, hv⟩

/-! ### Runs -/

/-- What every event that spares the variants keeps. -/
lemma step_sound {e : Event} (h : Sound db) (hok : Spares db e) (hs : step db e = some db') :
    Sound db' ∧ Keeps db db' := by
  cases e with
  | setLine r =>
      unfold step at hs
      dsimp only at hs
      split at hs
      · next hset =>
          cases hs
          exact handleSetLine_sound h hset
      · cases hs
        exact ⟨h, Keeps.refl db⟩
  | removeLine lineId =>
      unfold step at hs
      dsimp only at hs
      split at hs
      · next hremove =>
          cases hs
          exact handleRemoveLine_sound h hok hremove
      · cases hs
        exact ⟨h, Keeps.refl db⟩
  | generate tmpl order =>
      unfold step at hs
      dsimp only at hs
      split at hs
      · next horder =>
          split at hs
          · next hg =>
              cases hs
              obtain ⟨hsound, hkeeps, -⟩ := h.generate horder hg
              exact ⟨hsound, hkeeps⟩
          · cases hs
            exact ⟨h, Keeps.refl db⟩
      · cases hs

lemma run_sound (h : Sound db) (hrun : Reaches step Spares db db') :
    Sound db' ∧ Keeps db db' := by
  refine hrun.invariant (I := fun d => Sound d ∧ Keeps db d) ?_ ⟨h, Keeps.refl db⟩
  rintro d e d' ⟨hsound, hkeeps⟩ hok hs
  obtain ⟨hsound', hkeeps'⟩ := step_sound hsound hok hs
  exact ⟨hsound', hkeeps.trans h hkeeps'⟩

end Lines

/-! ### The law -/

/-- Two sets of values stand for the same attribute values. -/
def SameValues (db : VariantDb) (s : Finset ℤ) (db' : VariantDb) (s' : Finset ℤ) : Prop :=
  ∀ attr value, (∃ v ∈ s, Describes db v attr value) ↔ ∃ v ∈ s', Describes db' v attr value

/-- Tables a run begins with. -/
structure Start where
  db : VariantDb
  sound : Sound db

/-- From any state of a run to any later one, no product goes; and what is then
generated is exact, is not changed by generating again, and gives a combination
that was a variant's back to that variant. -/
def Lawful (ok : VariantDb → Event → Prop) (s : Start) : Prop :=
  ∀ before db, Reaches step ok s.db before → Reaches step ok before db →
    (∀ i, (before.products.get? i).isSome = true → (db.products.get? i).isSome = true) ∧
      ∀ tmpl order db' r, order.Perm (db.variants tmpl) →
        handleGenerate db tmpl order = .ok (db', r) →
        (∀ i, (db.products.get? i).isSome = true → (db'.products.get? i).isSome = true) ∧
        (∃ t, db'.templates tmpl = some t ∧ Exact db' tmpl t) ∧
        (∀ order', order'.Perm (db'.variants tmpl) →
          ∃ r', handleGenerate db' tmpl order' = .ok (db', r')) ∧
        ∀ pid ∈ before.variants tmpl, ∀ s, Chosen db' tmpl s →
          SameValues before (before.combination pid) db' s → IsVariant db' tmpl s pid

lemma Keeps.isSome {db db' : VariantDb} (h : Keeps db db') {i : ℤ}
    (hi : (db.products.get? i).isSome = true) : (db'.products.get? i).isSome = true := by
  obtain ⟨p, hp⟩ := isSome_iff_exists.mp hi
  obtain ⟨p', hp', -⟩ := h.products i p hp
  rw [hp']
  rfl

/-- Values of a template are known by what they stand for. -/
lemma Sound.eq_of_describes {db : VariantDb} (h : Sound db) {v w attr value : ℤ} {a b : Ptav}
    {l m : Line} (ha : db.ptavs.get? v = some a) (hl : db.lines.get? a.lineId = some l)
    (hb : db.ptavs.get? w = some b) (hm : db.lines.get? b.lineId = some m) (ht : l.tmplId = m.tmplId)
    (hv : Describes db v attr value) (hw : Describes db w attr value) : v = w := by
  obtain ⟨a', l', ha', hl', hla, hva⟩ := hv
  obtain ⟨b', m', hb', hm', hmb, hvb⟩ := hw
  rw [ha, Option.some.injEq] at ha'
  rw [hb, Option.some.injEq] at hb'
  subst ha' hb'
  rw [hl, Option.some.injEq] at hl'
  rw [hm, Option.some.injEq] at hm'
  subst hl' hm'
  have hline := h.lineUnique _ _ l m hl hm ht (hla.trans hmb.symm)
  exact h.ptavUnique v w a b ha hb hline (hva.trans hvb.symm)

/-- A choice with the values of a variant is the variant's combination. -/
lemma Sound.eq_combination {db db' : VariantDb} (h : Sound db) (h' : Sound db')
    (hk : Keeps db db') {tmpl pid : ℤ} (hpid : pid ∈ db.variants tmpl) {s : Finset ℤ}
    (hs : Chosen db' tmpl s) (hsame : SameValues db (db.combination pid) db' s) :
    db'.combination pid = s := by
  obtain ⟨p, hp, ht⟩ := mem_variants_iff.mp hpid
  obtain ⟨p', hp', ht'⟩ := hk.products pid p hp
  have hcomb : db'.combination pid = db.combination pid := hk.combination pid (by rw [hp]; rfl)
  -- a value of the variant and a chosen one that stand for the same are the same
  have hone : ∀ v ∈ s, ∀ w ∈ db.combination pid, ∀ attr value, Describes db' v attr value →
      Describes db w attr value → v = w := by
    intro v hv w hw attr value hdv hdw
    obtain ⟨a, l, ha, -, hl, hlt⟩ := hs.active v hv
    have hrow : (pid, w) ∈ db'.combinations := by
      rw [← mem_combination_iff, hcomb]
      exact hw
    obtain ⟨q, b, m, hq, hb, hm, hmt⟩ := h'.combined _ hrow
    rw [hp', Option.some.injEq] at hq
    subst hq
    have htmpl : l.tmplId = m.tmplId := by
      rw [ht', ht, Option.some.injEq] at hmt
      exact hlt.trans hmt
    exact h'.eq_of_describes ha hl hb hm htmpl hdv
      (hk.described (pid, w) (mem_combination_iff.mp hw) attr value hdw)
  rw [hcomb]
  ext w
  constructor
  · intro hw
    obtain ⟨-, b, m, -, hb, hm, -⟩ := h.combined _ (mem_combination_iff.mp hw)
    have hdw : Describes db w m.attributeId b.valueId := ⟨b, m, hb, hm, rfl, rfl⟩
    obtain ⟨v, hv, hdv⟩ := (hsame _ _).mp ⟨w, hw, hdw⟩
    rw [← hone v hv w hw _ _ hdv hdw]
    exact hv
  · intro hw
    obtain ⟨a, l, ha, -, hl, -⟩ := hs.active w hw
    have hdw : Describes db' w l.attributeId a.valueId := ⟨a, l, ha, hl, rfl, rfl⟩
    obtain ⟨v, hv, hdv⟩ := (hsame _ _).mpr ⟨w, hw, hdw⟩
    rw [hone w hw v hv _ _ hdw hdv]
    exact hv

/-- **Variants are exactly the combinations** along every run that removes no line
a variant stands for. -/
theorem variants_lawful (s : Start) : Lawful Spares s := by
  intro before db hbefore hrun
  obtain ⟨hsound₁, -⟩ := run_sound s.sound hbefore
  obtain ⟨hsound, hkeeps⟩ := run_sound hsound₁ hrun
  refine ⟨fun i hi => hkeeps.isSome hi, ?_⟩
  intro tmpl order db' r horder hg
  obtain ⟨hsound', hkeeps', t, ht, hpos, hexact⟩ := hsound.generate horder hg
  have hall := hkeeps.trans hsound₁ hkeeps'
  refine ⟨fun i hi => hkeeps'.isSome hi, ⟨t, ht, hexact⟩,
    fun order' horder' => hexact.generate_eq hsound' ht hpos horder', ?_⟩
  intro pid hpid s hs hsame
  have hcomb := hsound₁.eq_combination hsound' hall hpid hs hsame
  obtain ⟨q, hq, -⟩ := hexact.every s hs
  obtain ⟨p, hp, hpt⟩ := mem_variants_iff.mp hpid
  obtain ⟨p', hp', hpt'⟩ := hall.products pid p hp
  obtain ⟨⟨q', hq', hqt, hqactive⟩, hqcomb⟩ := hq
  have heq : pid = q := hsound'.distinct tmpl pid
    (mem_variants_iff.mpr ⟨p', hp', hpt'.trans hpt⟩) q (mem_variants_iff.mpr ⟨q', hq', hqt⟩)
    (hcomb.trans hqcomb.symm)
  rw [heq]
  exact ⟨⟨q', hq', hqt, hqactive⟩, hqcomb⟩

/-! ### A line that variants stand for -/

def shirtInfo : ProductInfo :=
  ⟨none, none, "product", none, none, none, 0, "none", "order", "purchase", none, none, true, true,
    none⟩

/-- A template that varies on nothing yet. -/
def shirts : Start where
  db :=
    { attributes := [1]
      values := fun i => if i = 1 then some ⟨"S", 1⟩ else some ⟨"M", 2⟩
      templates := fun i => if i = 1 then some ⟨"Shirt", 0, shirtInfo⟩ else none
      lines := Table.empty
      ptavs := Table.empty
      products := Table.empty
      combinations := [] }
  sound := by
    refine ⟨?_, ?_, ?_, ?_, ?_, nodup_nil, ?_⟩
    · intro i j l m hl
      cases hl
    · intro v w a b ha
      cases ha
    · intro v pt hpt
      cases hpt
    · intro v pt hpt
      cases hpt
    · intro r hr
      cases hr
    · intro tmpl p hp
      cases hp

/-- Two sizes, their variants, and then no sizes. -/
def sizesDropped : List Event :=
  [.setLine ⟨1, 1, [(1, 0), (2, 0)]⟩, .generate 1 [], .removeLine 1]

/-- What they leave: two active variants with no values. -/
def orphaned : VariantDb :=
  { shirts.db with
    lines := ⟨[], 2, forall_mem_nil _, nodup_nil⟩
    ptavs := ⟨[], 3, forall_mem_nil _, nodup_nil⟩
    products := (Table.empty.insert ⟨"Shirt (S)", 0, some 1, true, shirtInfo⟩).insert
      ⟨"Shirt (M)", 0, some 1, true, shirtInfo⟩ }

/-- Two active variants are left for the one combination there is. -/
theorem removed_line_leaves_two : ¬ ∀ s, Lawful (fun _ _ => True) s := by
  intro h
  have hexecute : execute step (fun _ _ => True) sizesDropped shirts.db = some orphaned := by
    rfl
  have hgenerate : handleGenerate orphaned 1 [1, 2] = .ok (orphaned, ⟨0, 1, 0, 1⟩) := by rfl
  obtain ⟨-, hlaw⟩ := h shirts shirts.db orphaned .refl
    (reaches_of_execute hexecute)
  obtain ⟨-, ⟨t, -, hexact⟩, -⟩ := hlaw 1 [1, 2] orphaned _ (List.Perm.refl _) hgenerate
  have hnone : Chosen orphaned 1 ∅ := by
    refine ⟨by simp, ?_⟩
    intro lineId l hl
    cases hl
  have hfirst : IsVariant orphaned 1 ∅ 1 := ⟨⟨_, rfl, rfl, rfl⟩, rfl⟩
  have hsecond : IsVariant orphaned 1 ∅ 2 := ⟨⟨_, rfl, rfl, rfl⟩, rfl⟩
  have heq : (1 : ℤ) = 2 := (hexact.every ∅ hnone).unique hfirst hsecond
  exact absurd heq (by decide)

end ProductVariants

end CErp
