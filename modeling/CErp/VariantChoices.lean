/-
The combinations a template's attribute lines allow, as generation lists them.

`Sound` is what the constraints of the tables say, and that no two variants of a
template stand for one combination.  In sound tables the list is without
repetition, and its members are the choices of one active value for each line
that has any (`chosen_iff`).
-/
import CErp.ProductVariants
import Mathlib.Algebra.BigOperators.Group.Finset.Lemmas

namespace CErp

open List Table

namespace ProductVariants

/-- What the tables keep. -/
structure Sound (db : VariantDb) : Prop where
  lineUnique : ∀ i j l m, db.lines.get? i = some l → db.lines.get? j = some m →
    l.tmplId = m.tmplId → l.attributeId = m.attributeId → i = j
  ptavUnique : ∀ v w a b, db.ptavs.get? v = some a → db.ptavs.get? w = some b →
    a.lineId = b.lineId → a.valueId = b.valueId → v = w
  ptavLine : ∀ v pt, db.ptavs.get? v = some pt → (db.lines.get? pt.lineId).isSome = true
  ptavValue : ∀ v pt, db.ptavs.get? v = some pt → (db.values pt.valueId).isSome = true
  combined : ∀ r ∈ db.combinations, ∃ p pt l, db.products.get? r.1 = some p ∧
    db.ptavs.get? r.2 = some pt ∧ db.lines.get? pt.lineId = some l ∧ p.tmplId = some l.tmplId
  nodup : db.combinations.Nodup
  distinct : ∀ tmpl, ∀ p ∈ db.variants tmpl, ∀ q ∈ db.variants tmpl,
    db.combination p = db.combination q → p = q

/-! ### The product of the axes -/

section Combos

variable {α : Type*}

lemma combos_append (axes : List (List α)) (axis : List α) : combos (axes ++ [axis]) =
      (combos axes).flatMap fun sofar => axis.map fun v => sofar ++ [v] := by
  unfold combos
  rw [foldl_append, foldl_cons, foldl_nil]

lemma mem_combos_iff {axes : List (List α)} {c : List α} :
    c ∈ combos axes ↔ Forall₂ (· ∈ ·) c axes := by
  induction axes using reverseRecOn generalizing c with
  | nil =>
      rw [forall₂_nil_right_iff]
      exact mem_singleton
  | append_singleton axes axis ih =>
      rw [combos_append, mem_flatMap]
      constructor
      · rintro ⟨sofar, hsofar, hc⟩
        obtain ⟨v, hv, rfl⟩ := mem_map.mp hc
        exact rel_append (ih.mp hsofar) (Forall₂.cons hv Forall₂.nil)
      · intro h
        have hsofar := forall₂_take_append c axes [axis] h
        obtain ⟨v, rest, hv, hrest, hdrop⟩ :=
          forall₂_cons_right_iff.mp (forall₂_drop_append c axes [axis] h)
        rw [forall₂_nil_right_iff] at hrest
        subst hrest
        refine ⟨c.take axes.length, ih.mpr hsofar, mem_map.mpr ⟨v, hv, ?_⟩⟩
        rw [← hdrop, take_append_drop]

lemma nodup_combos {axes : List (List α)} (h : ∀ axis ∈ axes, axis.Nodup) :
    (combos axes).Nodup := by
  induction axes using reverseRecOn with
  | nil => exact nodup_singleton _
  | append_singleton axes axis ih =>
      rw [forall_mem_append, forall_mem_singleton] at h
      rw [combos_append, nodup_flatMap]
      constructor
      · intro sofar _
        apply h.2.map
        intro v w hvw
        exact singleton_inj.mp (append_cancel_left hvw)
      · apply (ih h.1).imp
        intro a b hab
        rw [Function.onFun, disjoint_left]
        intro c hca hcb
        obtain ⟨v, -, rfl⟩ := mem_map.mp hca
        obtain ⟨w, -, heq⟩ := mem_map.mp hcb
        exact hab (append_inj_left' heq rfl).symm

end Combos

/-! ### Lines and their values -/

variable {lineId : ℤ}

section Axes

variable {db : VariantDb}

lemma mem_activeValues_iff {a : ℤ × Ptav × AttributeValue} :
    a ∈ activeValues db lineId ↔ db.ptavs.get? a.1 = some a.2.1 ∧ a.2.1.lineId = lineId ∧
      a.2.1.active = true ∧ db.values a.2.1.valueId = some a.2.2 := by
  unfold activeValues
  rw [mem_insertionSort, mem_filterMap]
  constructor
  · rintro ⟨r, hr, ha⟩
    obtain ⟨av, hav, rfl⟩ := Option.map_eq_some_iff.mp ha
    rw [mem_filter, Bool.and_eq_true, beq_iff_eq] at hr
    exact ⟨get?_eq_some_iff.mpr hr.1, hr.2.1, hr.2.2, hav⟩
  · rintro ⟨hget, hline, hactive, hav⟩
    refine ⟨(a.1, a.2.1), mem_filter.mpr ⟨get?_eq_some_iff.mp hget, ?_⟩, ?_⟩
    · rw [Bool.and_eq_true, beq_iff_eq]
      exact ⟨hline, hactive⟩
    · rw [hav]
      rfl

lemma mem_axis_iff {v : Val} :
    v ∈ axis db lineId ↔ ∃ pt av, db.ptavs.get? v.ptav = some pt ∧ pt.lineId = lineId ∧
      pt.active = true ∧ db.values pt.valueId = some av ∧ v = ⟨v.ptav, av.name, pt.priceExtra⟩ := by
  unfold axis
  rw [mem_map]
  constructor
  · rintro ⟨a, ha, rfl⟩
    obtain ⟨hget, hline, hactive, hav⟩ := mem_activeValues_iff.mp ha
    exact ⟨a.2.1, a.2.2, hget, hline, hactive, hav, rfl⟩
  · rintro ⟨pt, av, hget, hline, hactive, hav, hv⟩
    exact ⟨(v.ptav, pt, av), mem_activeValues_iff.mpr ⟨hget, hline, hactive, hav⟩, hv.symm⟩

/-- A value of an axis is known by its id. -/
lemma axis_injective {v w : Val} (hv : v ∈ axis db lineId) (hw : w ∈ axis db lineId)
    (h : v.ptav = w.ptav) : v = w := by
  obtain ⟨pt, av, hget, -, -, hav, hveq⟩ := mem_axis_iff.mp hv
  obtain ⟨pt', av', hget', -, -, hav', hweq⟩ := mem_axis_iff.mp hw
  rw [h, hget', Option.some.injEq] at hget
  subst hget
  rw [hav', Option.some.injEq] at hav
  subst hav
  rw [hveq, hweq, h]

lemma nodup_axis (lineId : ℤ) : (axis db lineId).Nodup := by
  apply Nodup.map_on
  · intro a ha b hb heq
    obtain ⟨hget, -, -, hav⟩ := mem_activeValues_iff.mp ha
    obtain ⟨hget', -, -, hav'⟩ := mem_activeValues_iff.mp hb
    have hid : a.1 = b.1 := congrArg Val.ptav heq
    rw [hid, hget', Option.some.injEq] at hget
    rw [← hget, hav', Option.some.injEq] at hav
    exact Prod.ext hid (Prod.ext hget.symm hav.symm)
  · unfold activeValues
    rw [(perm_insertionSort _ _).nodup_iff]
    apply Nodup.filterMap
    · intro r r' a ha ha'
      obtain ⟨av, -, rfl⟩ := Option.map_eq_some_iff.mp ha
      obtain ⟨av', -, heq⟩ := Option.map_eq_some_iff.mp ha'
      simp only [Prod.mk.injEq] at heq
      exact Prod.ext heq.1.symm heq.2.1.symm
    · exact (Nodup.of_map _ db.ptavs.nodup).filter _

lemma mem_linesOf_iff {tmpl : ℤ} :
    lineId ∈ linesOf db tmpl ↔ ∃ l, db.lines.get? lineId = some l ∧ l.tmplId = tmpl := by
  unfold linesOf
  rw [mem_map]
  constructor
  · rintro ⟨r, hr, rfl⟩
    rw [mem_insertionSort, mem_filter, beq_iff_eq] at hr
    exact ⟨r.2, get?_eq_some_iff.mpr hr.1, hr.2⟩
  · rintro ⟨l, hl, ht⟩
    refine ⟨(lineId, l), ?_, rfl⟩
    rw [mem_insertionSort, mem_filter, beq_iff_eq]
    exact ⟨get?_eq_some_iff.mp hl, ht⟩

lemma nodup_linesOf (tmpl : ℤ) : (linesOf db tmpl).Nodup := by
  unfold linesOf
  rw [((perm_insertionSort _ _).map Prod.fst).nodup_iff]
  exact db.lines.nodup.sublist (filter_sublist.map _)

/-- The lines that have an active value. -/
def liveLines (db : VariantDb) (tmpl : ℤ) : List ℤ :=
  (linesOf db tmpl).filter fun lineId => !(axis db lineId).isEmpty

lemma axes_eq (tmpl : ℤ) : axes db tmpl = (liveLines db tmpl).map (axis db) := by
  unfold axes liveLines
  rw [filter_map]
  rfl

lemma mem_combos_axes_iff {tmpl : ℤ} {c : List Val} : c ∈ combos (axes db tmpl) ↔
    Forall₂ (fun v lineId => v ∈ axis db lineId) c (liveLines db tmpl) := by
  rw [mem_combos_iff, axes_eq, forall₂_map_right_iff]

lemma nodup_combos_axes (tmpl : ℤ) : (combos (axes db tmpl)).Nodup := by
  apply nodup_combos
  rw [axes_eq]
  intro vals hvals
  obtain ⟨lineId, -, rfl⟩ := mem_map.mp hvals
  exact nodup_axis lineId

end Axes

/-! ### Lists that go along lines -/

section Along

variable {db : VariantDb} {c c' : List Val} {ls : List ℤ}

/-- The line a value belongs to. -/
def lineOf (db : VariantDb) (ptav : ℤ) : Option ℤ := (db.ptavs.get? ptav).map Ptav.lineId

lemma lineOf_of_mem_axis {v : Val} (h : v ∈ axis db lineId) : lineOf db v.ptav = some lineId := by
  obtain ⟨pt, av, hget, hline, -⟩ := mem_axis_iff.mp h
  rw [lineOf, hget, Option.map_some, hline]

lemma map_lineOf (h : Forall₂ (fun v lineId => v ∈ axis db lineId) c ls) :
    (idsOf c).map (lineOf db) = ls.map some := by
  induction h with
  | nil => rfl
  | cons hv _ ih =>
      rw [idsOf, map_cons, map_cons, map_cons, lineOf_of_mem_axis hv]
      exact congrArg _ ih

lemma nodup_idsOf (h : Forall₂ (fun v lineId => v ∈ axis db lineId) c ls) (hls : ls.Nodup) :
    (idsOf c).Nodup := by
  apply Nodup.of_map (lineOf db)
  rw [map_lineOf h]
  exact hls.map (Option.some_injective _)

lemma exists_line (h : Forall₂ (fun v lineId => v ∈ axis db lineId) c ls) {v : Val}
    (hv : v ∈ c) : ∃ lineId ∈ ls, v ∈ axis db lineId := by
  induction h with
  | nil => cases hv
  | cons hhead _ ih =>
      rcases mem_cons.mp hv with rfl | hv
      · exact ⟨_, mem_cons_self, hhead⟩
      · obtain ⟨lineId, hmem, haxis⟩ := ih hv
        exact ⟨lineId, mem_cons_of_mem _ hmem, haxis⟩

lemma exists_value (h : Forall₂ (fun v lineId => v ∈ axis db lineId) c ls)
    (hl : lineId ∈ ls) : ∃ v ∈ c, v ∈ axis db lineId := by
  induction h with
  | nil => cases hl
  | cons hhead _ ih =>
      rcases mem_cons.mp hl with rfl | hl
      · exact ⟨_, mem_cons_self, hhead⟩
      · obtain ⟨v, hmem, haxis⟩ := ih hl
        exact ⟨v, mem_cons_of_mem _ hmem, haxis⟩

/-- A list is known by its members and what they are mapped to in turn. -/
lemma eq_of_perm_of_map_eq {α β : Type*} {g : α → β} {l l' : List α} (hperm : l.Perm l')
    (hmap : l.map g = l'.map g) (hnodup : (l.map g).Nodup) : l = l' := by
  induction l generalizing l' with
  | nil => exact (Perm.nil_eq hperm)
  | cons a l ih =>
      cases l' with
      | nil => cases hmap
      | cons b l' =>
          rw [map_cons, map_cons, List.cons.injEq] at hmap
          rw [map_cons, nodup_cons] at hnodup
          have hab : a = b := by
            rcases mem_cons.mp (hperm.subset mem_cons_self) with h | h
            · exact h
            · refine absurd ?_ hnodup.1
              rw [hmap.2]
              exact mem_map_of_mem h
          subst hab
          rw [ih hperm.cons_inv hmap.2 hnodup.2]

lemma eq_of_idsOf_eq (h : Forall₂ (fun v lineId => v ∈ axis db lineId) c ls)
    (h' : Forall₂ (fun v lineId => v ∈ axis db lineId) c' ls) (heq : idsOf c = idsOf c') :
    c = c' := by
  induction h generalizing c' with
  | nil =>
      cases h'
      rfl
  | cons hv _ ih =>
      cases h' with
      | cons hv' hrest' =>
          rw [idsOf, idsOf, map_cons, map_cons, List.cons.injEq] at heq
          rw [axis_injective hv hv' heq.1, ih hrest' heq.2]

/-- Two combinations with the same values are one. -/
lemma combo_unique {tmpl : ℤ} (hc : c ∈ combos (axes db tmpl)) (hc' : c' ∈ combos (axes db tmpl))
    (h : (idsOf c).toFinset = (idsOf c').toFinset) : c = c' := by
  rw [mem_combos_axes_iff] at hc hc'
  have hls : (liveLines db tmpl).Nodup := (nodup_linesOf tmpl).filter _
  have hperm := perm_of_nodup_nodup_toFinset_eq (nodup_idsOf hc hls) (nodup_idsOf hc' hls) h
  apply eq_of_idsOf_eq hc hc'
  apply eq_of_perm_of_map_eq (g := lineOf db) hperm
  · rw [map_lineOf hc, map_lineOf hc']
  · rw [map_lineOf hc]
    exact hls.map (Option.some_injective _)

end Along

/-! ### Choices -/

section Choices

variable {db : VariantDb} {tmpl : ℤ}

lemma mem_idsOf_iff {c : List Val} {i : ℤ} : i ∈ (idsOf c).toFinset ↔ ∃ v ∈ c, v.ptav = i := by
  rw [mem_toFinset, idsOf, mem_map]

lemma mem_liveLines_iff : lineId ∈ liveLines db tmpl ↔
    (∃ l, db.lines.get? lineId = some l ∧ l.tmplId = tmpl) ∧ ∃ v, v ∈ axis db lineId := by
  unfold liveLines
  rw [mem_filter, mem_linesOf_iff, Bool.not_eq_true', isEmpty_eq_false_iff_exists_mem]

/-- An active value is on the axis of its line. -/
lemma Sound.exists_axis (h : Sound db) {i : ℤ} {pt : Ptav} (hget : db.ptavs.get? i = some pt)
    (hactive : pt.active = true) : ∃ v ∈ axis db pt.lineId, v.ptav = i := by
  obtain ⟨av, hav⟩ := Option.isSome_iff_exists.mp (h.ptavValue i pt hget)
  exact ⟨⟨i, av.name, pt.priceExtra⟩, mem_axis_iff.mpr ⟨pt, av, hget, rfl, hactive, hav, rfl⟩, rfl⟩

lemma Sound.chosen_of_combo (h : Sound db) {c : List Val} (hc : c ∈ combos (axes db tmpl)) :
    Chosen db tmpl (idsOf c).toFinset := by
  rw [mem_combos_axes_iff] at hc
  constructor
  · intro i hi
    obtain ⟨v, hv, rfl⟩ := mem_idsOf_iff.mp hi
    obtain ⟨lineId, hline, haxis⟩ := exists_line hc hv
    obtain ⟨⟨l, hl, ht⟩, -⟩ := mem_liveLines_iff.mp hline
    obtain ⟨pt, av, hget, rfl, hactive, -⟩ := mem_axis_iff.mp haxis
    exact ⟨pt, l, hget, hactive, hl, ht⟩
  · rintro lineId l hl ht ⟨i, pt, hget, rfl, hactive⟩
    obtain ⟨w, hw, -⟩ := h.exists_axis hget hactive
    obtain ⟨v, hv, haxis⟩ := exists_value hc (mem_liveLines_iff.mpr ⟨⟨l, hl, ht⟩, w, hw⟩)
    obtain ⟨ptv, avv, hgetv, hlinev, -⟩ := mem_axis_iff.mp haxis
    refine ⟨v.ptav, ⟨mem_idsOf_iff.mpr ⟨v, hv, rfl⟩, ptv, hgetv, hlinev⟩, ?_⟩
    -- another value of the same line would be at the same place
    rintro j ⟨hj, ptj, hgetj, hlinej⟩
    obtain ⟨u, hu, rfl⟩ := mem_idsOf_iff.mp hj
    have hnodup : ((idsOf c).map (lineOf db)).Nodup := by
      rw [map_lineOf hc]
      exact ((nodup_linesOf tmpl).filter _).map (Option.some_injective _)
    refine inj_on_of_nodup_map hnodup (mem_map_of_mem hu) (mem_map_of_mem hv) ?_
    rw [lineOf_of_mem_axis haxis, lineOf, hgetj, Option.map_some, hlinej]

lemma Sound.combo_of_chosen (h : Sound db) {s : Finset ℤ} (hs : Chosen db tmpl s) :
    ∃ c ∈ combos (axes db tmpl), (idsOf c).toFinset = s := by
  have hpick : ∀ lineId ∈ liveLines db tmpl, ∃ v ∈ axis db lineId, v.ptav ∈ s := by
    intro lineId hline
    obtain ⟨⟨l, hl, ht⟩, w, hw⟩ := mem_liveLines_iff.mp hline
    obtain ⟨ptw, avw, hgetw, hlinew, hactivew, -⟩ := mem_axis_iff.mp hw
    obtain ⟨i, ⟨hi, pt, hget, hptline⟩, -⟩ := hs.one lineId l hl ht ⟨_, ptw, hgetw, hlinew, hactivew⟩
    obtain ⟨pt', l', hget', hactive, -⟩ := hs.active i hi
    rw [hget, Option.some.injEq] at hget'
    subst hget'
    obtain ⟨v, hv, rfl⟩ := h.exists_axis hget hactive
    exact ⟨v, hptline ▸ hv, hi⟩
  have : Nonempty Val := ⟨⟨0, "", 0⟩⟩
  choose! pick hpick using hpick
  have hforall : ∀ ls : List ℤ, (∀ lineId ∈ ls, lineId ∈ liveLines db tmpl) →
      Forall₂ (fun v lineId => v ∈ axis db lineId) (ls.map pick) ls := by
    intro ls hls
    rw [forall₂_map_left_iff, forall₂_same]
    exact fun lineId hmem => (hpick lineId (hls lineId hmem)).1
  refine ⟨(liveLines db tmpl).map pick, mem_combos_axes_iff.mpr (hforall _ fun _ hmem => hmem), ?_⟩
  ext i
  rw [mem_idsOf_iff]
  constructor
  · rintro ⟨v, hv, rfl⟩
    obtain ⟨lineId, hline, rfl⟩ := mem_map.mp hv
    exact (hpick lineId hline).2
  · intro hi
    obtain ⟨pt, l, hget, hactive, hl, ht⟩ := hs.active i hi
    obtain ⟨w, hw, -⟩ := h.exists_axis hget hactive
    have hline : pt.lineId ∈ liveLines db tmpl := mem_liveLines_iff.mpr ⟨⟨l, hl, ht⟩, w, hw⟩
    obtain ⟨hmem, hin⟩ := hpick pt.lineId hline
    obtain ⟨ptp, avp, hgetp, hlinep, -⟩ := mem_axis_iff.mp hmem
    refine ⟨pick pt.lineId, mem_map_of_mem hline, ?_⟩
    obtain ⟨j, -, huniq⟩ := hs.one pt.lineId l hl ht ⟨i, pt, hget, rfl, hactive⟩
    rw [huniq _ ⟨hin, ptp, hgetp, hlinep⟩, huniq i ⟨hi, pt, hget, rfl⟩]

/-- The extras of a combination are those of its values. -/
lemma priceOf_combo {c : List Val} (hc : c ∈ combos (axes db tmpl)) (t : Template) :
    priceOf db t (idsOf c).toFinset = t.listPrice + extraOf c := by
  rw [mem_combos_axes_iff] at hc
  have hnodup := nodup_idsOf hc ((nodup_linesOf tmpl).filter _)
  unfold priceOf extraOf
  rw [sum_toFinset _ hnodup, idsOf, map_map]
  congr 2
  apply map_congr_left
  intro v hv
  obtain ⟨lineId, -, haxis⟩ := exists_line hc hv
  obtain ⟨pt, av, hget, -, -, -, hveq⟩ := mem_axis_iff.mp haxis
  rw [Function.comp_apply, hget, hveq]
  rfl

end Choices

end ProductVariants

end CErp
