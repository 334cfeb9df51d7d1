/-
The derived columns of partners over whole runs of insertions, writes and
deletions.

Each operation writes its row, and from a settled table it leaves out of date
only what its triggers are waiting for (`insert_settled`, `write_tidy`,
`delete_tidy`); the triggers do the rest.

* `step_settled`: one operation, whichever order its statements visit rows in;
* `derived_of_reaches`: in every state of a run that keeps the hierarchy
  shallow, the derived columns are what they are defined to be.
-/
import CErp.PartnerCascades
import CErp.Runs

namespace CErp

open List Table Option Runs

namespace ResPartner

variable {t u : Table ResPartner}

/-! ### What is above a row that is written -/

variable {i : ℤ} {p : ResPartner}

/-- The walk from the parent of a row does not meet the row. -/
lemma exists_above (hshallow : Shallow u) {par : ℤ} (hp : u.get? i = some p)
    (hpar : p.parentId = some par) (hother : ∀ j, j ≠ i → t.get? j = u.get? j) :
    ∃ n ≤ 64, within u n par = true ∧ ∀ j, within u n j = true → t.get? j = u.get? j := by
  obtain ⟨m, hm, hleast⟩ := exists_depth (hshallow.within hp)
  obtain ⟨n, rfl, hn⟩ := within_parent hm hp hpar
  refine ⟨n, ?_, hn, fun j hj => hother j ?_⟩
  · by_contra hlt
    have hfalse := hleast 64 (by omega)
    rw [hshallow.within hp] at hfalse
    cases hfalse
  · rintro rfl
    rw [hleast n (Nat.lt_succ_self n)] at hj
    cases hj

/-- Two tables that have everything above in common give the same names. -/
lemma above_congr {n : ℕ} (hn : n ≤ 64) (h : within u n i = true)
    (hsame : ∀ j, within u n j = true → t.get? j = u.get? j) (own : Option String) :
    commercialOf t i = commercialOf u i ∧
      companyNameUnder t (commercialOf t i) own = companyNameUnder u (commercialOf u i) own := by
  have hwalk : commercialOf t i = commercialOf u i := climb_of_within 64 h hsame
  obtain ⟨c, hc, -, hwithin⟩ := exists_isCommercial h
  have hu : commercialOf u i = some c := (climb_stable h hn).trans hc
  refine ⟨hwalk, ?_⟩
  rw [hwalk, hu]
  unfold companyNameUnder
  rw [bind_some, bind_some, hsame c hwithin]

/-- What the BEFORE triggers find out of the table without the row is what holds
with it. -/
lemma written_congr (hshallow : Shallow u) (hp : u.get? i = some p)
    (hother : ∀ j, j ≠ i → t.get? j = u.get? j) :
    commercialFor t i p = commercialOf u i ∧ companyNameFor t p = companyNameFor u p := by
  rw [commercialOf_eq hshallow hp]
  unfold commercialFor companyNameFor
  cases hpar : p.parentId with
  | none => exact ⟨rfl, rfl⟩
  | some par =>
      obtain ⟨n, hn, hwithin, hsame⟩ := exists_above hshallow hp hpar hother
      obtain ⟨hwalk, hname⟩ := above_congr hn hwithin hsame p.companyName
      dsimp only
      rw [hwalk] at hname ⊢
      rw [hname]
      exact ⟨rfl, rfl⟩

/-! ### Insertions -/

lemma insert_settled (hshallow : Shallow t) (h : Settled t) (vals : ResPartner)
    (hshallow' : Shallow (t.insert (beforeInsert t vals))) :
    Settled (t.insert (beforeInsert t vals)) := by
  have hbase : base (beforeInsert t vals) = base vals := before_base _ _ _ _
  have hnew := before_eq { parentId := true, isCompany := true, companyId := true } t t.nextId vals
  have hshown := before_shownAs { parentId := true, isCompany := true, companyId := true } t
    t.nextId vals
  change beforeInsert t vals = _ at hnew
  change (beforeInsert t vals).displayName = shownAs (beforeInsert t vals) at hshown
  have hself := get?_insert_self t (beforeInsert t vals)
  have hother : ∀ {j : ℤ}, j ≠ t.nextId → (t.insert (beforeInsert t vals)).get? j = t.get? j :=
    fun hj => get?_insert_of_ne t _ hj
  have hfresh := get?_nextId t
  -- a row of the old table sees only rows of the old table
  have hold : ∀ j, within t 64 j = true → (t.insert (beforeInsert t vals)).get? j = t.get? j := by
    intro j hj
    obtain ⟨p, hp, -⟩ := within_iff.mp hj
    refine hother ?_
    rintro rfl
    rw [hfresh] at hp
    cases hp
  obtain ⟨hcommercial, hname⟩ := written_congr hshallow' hself fun j hj => (hother hj).symm
  obtain ⟨-, hparent, hcompany, -⟩ := base_eq_iff.mp hbase
  refine ⟨?_, ?_, ?_, ?_⟩
  · intro i p hp
    by_cases hi : i = t.nextId
    · subst hi
      obtain rfl := mem_unique hself hp
      rw [← hcommercial]
      unfold commercialFor
      rw [hparent, hcompany, hnew]
      rfl
    · rw [hother hi] at hp
      rw [h.commercial i p hp]
      exact (climb_of_within 64 (hshallow.within hp) hold).symm
  · intro i p hp
    by_cases hi : i = t.nextId
    · subst hi
      obtain rfl := mem_unique hself hp
      rw [← hname, companyNameFor_congr (SameBase.refl t) hbase, hnew]
    · have hp' := hp
      rw [hother hi] at hp
      rw [h.name i p hp, companyNameFor_eq hshallow hp, companyNameFor_eq hshallow' hp']
      exact (above_congr le_rfl (hshallow.within hp) hold p.companyName).2.symm
  · intro i p hp
    by_cases hi : i = t.nextId
    · subst hi
      obtain rfl := mem_unique hself hp
      exact hshown
    · rw [hother hi] at hp
      exact h.display i p hp
  · intro i p par q hp hpar hq hco
    have hne := hshallow'.parent_ne hp hpar
    by_cases hi : i = t.nextId
    · subst hi
      obtain rfl := mem_unique hself hp
      rw [hother hne] at hq
      rw [hnew]
      exact inheritedTenant_of_parent (hparent.symm.trans hpar) hq hco
    · rw [hother hi] at hp
      obtain ⟨-, q', hq'⟩ := hshallow.parent hp hpar
      have hsame := hold par (hshallow.within hq')
      rw [hq, hq'] at hsame
      cases hsame
      exact h.tenant i p par q hp hpar hq' hco

/-! ### Writes -/

lemma Settled.tidy (h : Settled t) (x : Excuses) : Tidy t x where
  commercial i p hp hwrong := absurd (h.commercial i p hp) hwrong
  name i p hp hwrong := absurd (h.name i p hp) hwrong
  display := h.display
  tenant i p par q hp hpar hq hco := .inl (h.tenant i p par q hp hpar hq hco)

/-- A row that is written right leaves to its own triggers what it has put out
of date. -/
lemma Settled.modify (hshallow : Shallow t) (h : Settled t) {id : ℤ} {old new : ResPartner}
    (hold : t.get? id = some old) (hshallow' : Shallow (t.modify id fun _ => new))
    (hcommercial : new.commercialPartnerId = commercialFor t id new)
    (hname : new.commercialCompanyName = companyNameFor t new)
    (hdisplay : new.displayName = shownAs new)
    (htenant : ∀ par q, new.parentId = some par → par ≠ id → t.get? par = some q →
      q.companyId ≠ none → new.companyId = q.companyId) :
    Tidy (t.modify id fun _ => new) (excuses (jobs [⟨id, old, new⟩])) := by
  have hself : (t.modify id fun _ => new).get? id = some new := by
    rw [get?_modify_self, hold, map_some]
  have hother : ∀ {j}, j ≠ id → (t.modify id fun _ => new).get? j = t.get? j :=
    fun hj => get?_modify_of_ne t _ hj
  have hjob : ∀ tr, ((⟨id, old, new⟩, tr) : Event × Trigger) ∈ jobs [⟨id, old, new⟩] := fun tr =>
    mem_jobs.mpr (mem_singleton.mpr rfl)
  obtain ⟨hcongr, hnames⟩ := written_congr hshallow' hself fun j hj => (hother hj).symm
  have hright : new.commercialPartnerId = commercialOf (t.modify id fun _ => new) id :=
    hcommercial.trans hcongr
  refine ⟨?_, ?_, ?_, ?_⟩
  · intro i p hp hwrong
    by_cases hi : i = id
    · subst hi
      obtain rfl := mem_unique hself hp
      exact absurd hright hwrong
    · have hp' := hp
      rw [hother hi] at hp
      rw [h.commercial i p hp, commercialOf_eq hshallow hp, commercialOf_eq hshallow' hp'] at hwrong
      unfold commercialFor at hwrong
      cases hcompany : p.isCompany with
      | true => simp [hcompany] at hwrong
      | false =>
          cases hpar : p.parentId with
          | none => simp [hpar] at hwrong
          | some par =>
              simp only [hcompany, hpar, Bool.false_eq_true, if_false] at hwrong
              obtain ⟨-, q, hq⟩ := hshallow.parent hp hpar
              by_cases hparid : par = id
              · subst hparid
                obtain rfl := mem_unique hold hq
                refine ⟨rfl, par, new, rfl, hself, .inr ⟨_, hjob _, rfl, ?_⟩⟩
                -- the entity of the row itself is another now
                unfold Event.commercialChanged
                rw [bne_iff_ne]
                rw [hright, h.commercial par old hold]
                exact hwrong.symm
              · refine ⟨rfl, par, q, rfl, (hother hparid).trans hq, .inl ?_⟩
                rw [h.commercial par q hq]
                exact hwrong
  · intro i p hp hwrong
    by_cases hi : i = id
    · subst hi
      obtain rfl := mem_unique hself hp
      exact absurd (hname.trans hnames) hwrong
    · by_cases hcp : p.commercialPartnerId = commercialOf (t.modify id fun _ => new) i
      · have hp' := hp
        rw [hother hi] at hp
        rw [h.name i p hp, companyNameFor_eq hshallow hp, companyNameFor_eq hshallow' hp', ← hcp,
          ← h.commercial i p hp] at hwrong
        -- the name is another only under the row itself
        obtain ⟨c, hc, -⟩ := commercialOf_isCommercial hshallow hp
        rw [← h.commercial i p hp] at hc
        refine .inr ⟨c, hc, ?_⟩
        unfold companyNameUnder at hwrong
        rw [hc, bind_some, bind_some] at hwrong
        by_cases hcid : c = id
        · subst hcid
          refine ⟨_, hjob _, rfl, hi, ?_⟩
          rw [hold, hself] at hwrong
          unfold Event.entityChanged
          simp only [Bool.or_eq_true, bne_iff_ne]
          by_contra hsame
          push Not at hsame
          obtain ⟨⟨hsamename, hsamecompany⟩, -⟩ := hsame
          dsimp only at hwrong hsamename hsamecompany
          rw [hsamename, hsamecompany] at hwrong
          exact hwrong rfl
        · rw [hother hcid] at hwrong
          exact absurd rfl hwrong
      · exact .inl hcp
  · intro i p hp
    by_cases hi : i = id
    · subst hi
      obtain rfl := mem_unique hself hp
      exact hdisplay
    · rw [hother hi] at hp
      exact h.display i p hp
  · intro i p par q hp hpar hq hco
    have hne := hshallow'.parent_ne hp hpar
    by_cases hi : i = id
    · subst hi
      obtain rfl := mem_unique hself hp
      rw [hother hne] at hq
      exact .inl (htenant par q hpar hne hq hco)
    · rw [hother hi] at hp
      by_cases hparid : par = id
      · subst hparid
        obtain rfl := mem_unique hself hq
        by_cases hsame : new.companyId = old.companyId
        · rw [hsame] at hco ⊢
          exact .inl (h.tenant i p par old hp hpar hold hco)
        · refine .inr ⟨_, hjob _, rfl, ?_⟩
          exact bne_iff_ne.mpr hsame
      · rw [hother hparid] at hq
        exact .inl (h.tenant i p par q hp hpar hq hco)

/-- Where a write names no column of a BEFORE trigger, the trigger would have
found what is there. -/
lemma write_tidy (hshallow : Shallow t) (h : Settled t) (id : ℤ) (c : Changes)
    (hshallow' : Shallow (updateRows c.named (fun _ _ p => c.set p) [id] t).1) :
    Tidy (updateRows c.named (fun _ _ p => c.set p) [id] t).1
      (excuses (jobs (updateRows c.named (fun _ _ p => c.set p) [id] t).2)) := by
  cases hold : t.get? id with
  | none =>
      have hnothing : updateRows c.named (fun _ _ p => c.set p) [id] t = (t, []) := by
        rw [updateRows, hold]
        rfl
      rw [hnothing]
      exact h.tidy _
  | some old =>
      have hrow : updateRows c.named (fun _ _ p => c.set p) [id] t =
          (t.modify id fun _ => before c.named t id (c.set old),
            [⟨id, old, before c.named t id (c.set old)⟩]) := by
        rw [updateRows, hold]
        rfl
      rw [hrow] at hshallow' ⊢
      have hbase := before_base c.named t id (c.set old)
      have hnew := before_eq c.named t id (c.set old)
      have hshown := before_shownAs c.named t id (c.set old)
      generalize before c.named t id (c.set old) = new at hshallow' hbase hnew hshown ⊢
      obtain ⟨-, hparent, hcompany, -⟩ := base_eq_iff.mp hbase
      refine h.modify hshallow hold hshallow' ?_ ?_ hshown ?_
      · have hfor : commercialFor t id new = commercialFor t id (c.set old) := by
          unfold commercialFor
          rw [hparent, hcompany]
        rw [hfor, hnew]
        dsimp only
        split
        · rfl
        · next hnamed =>
            simp only [Changes.named, Bool.or_eq_true, not_or, not_isSome_iff_eq_none]
              at hnamed
            have hsame : commercialFor t id (c.set old) = commercialFor t id old := by
              unfold commercialFor Changes.set
              rw [hnamed.1, hnamed.2]
              rfl
            rw [hsame, ← commercialOf_eq hshallow hold]
            exact h.commercial id old hold
      · rw [companyNameFor_congr (SameBase.refl t) hbase, hnew]
      · intro par q hpar hne hq hco
        rw [hparent] at hpar
        rw [hnew]
        split
        · exact inheritedTenant_of_parent hpar hq hco
        · next hnamed =>
            simp only [Changes.named, Bool.or_eq_true, not_or, not_isSome_iff_eq_none]
              at hnamed
            unfold Changes.set at hpar ⊢
            rw [hnamed.1] at hpar
            rw [hnamed.2]
            exact h.tenant id old par q hold hpar hq hco

/-! ### Deletions -/

/-- The company name of a partner with nobody above. -/
def ownName (p : ResPartner) : Option String :=
  if p.isCompany then some p.name else p.companyName

/-- What the actions of the keys have made of a row when `gone` is deleted:
nothing yet, a row without a commercial entity, or an entity of its own. -/
structure Bereft (gone : ℤ) (evs : List Event) (i : ℤ) (p now : ResPartner) : Prop where
  name : now.name = p.name
  isCompany : now.isCompany = p.isCompany
  companyName : now.companyName = p.companyName
  tenant : now.companyId = p.companyId
  display : now.displayName = shownAs now
  how : now = p ∨ p.commercialPartnerId = some gone ∧ now.commercialPartnerId = none ∧
      now.parentId = p.parentId ∨
    p.parentId = some gone ∧ now.parentId = none ∧ now.commercialPartnerId = some i ∧
      now.commercialCompanyName = ownName p ∧
      ∃ e ∈ evs, e.id = i ∧ e.new.commercialPartnerId = some i ∧
        (e.old.commercialPartnerId = p.commercialPartnerId ∨ e.old.commercialPartnerId = none)

variable {now : ResPartner}

lemma Bereft.mono {gone : ℤ} {evs evs' : List Event} (h : Bereft gone evs i p now)
    (hsub : evs ⊆ evs') : Bereft gone evs' i p now :=
  { h with
    how := h.how.imp_right (Or.imp_right fun ⟨hpar, hnone, hcp, hname, e, he, hrest⟩ =>
      ⟨hpar, hnone, hcp, hname, e, hsub he, hrest⟩) }

/-- The rows of the table `t`, but for the one that is gone, have become those of
`s`. -/
structure Losing (t : Table ResPartner) (gone : ℤ) (s : Table ResPartner) (evs : List Event) :
    Prop where
  rows : ∀ i p, i ≠ gone → t.get? i = some p → ∃ now, s.get? i = some now ∧ Bereft gone evs i p now
  only : ∀ i now, s.get? i = some now → i ≠ gone ∧ ∃ p, t.get? i = some p ∧ Bereft gone evs i p now

/-- One row of the actions. -/
lemma Losing.modify {s : Table ResPartner} {gone id : ℤ} {evs : List Event} {new : ResPartner}
    {ev : Event} (h : Losing t gone s evs) (hnow : s.get? id = some now)
    (hnew : ∀ p, t.get? id = some p → Bereft gone evs id p now →
      Bereft gone (evs ++ [ev]) id p new) :
    Losing t gone (s.modify id fun _ => new) (evs ++ [ev]) := by
  have hself : (s.modify id fun _ => new).get? id = some new := by
    rw [get?_modify_self, hnow, map_some]
  have hother : ∀ {j}, j ≠ id → (s.modify id fun _ => new).get? j = s.get? j :=
    fun hj => get?_modify_of_ne s _ hj
  have hsub : evs ⊆ evs ++ [ev] := subset_append_left _ _
  refine ⟨fun i p hi hp => ?_, fun i x hx => ?_⟩
  · obtain ⟨cur, hcur, hber⟩ := h.rows i p hi hp
    by_cases hid : i = id
    · subst hid
      obtain rfl := mem_unique hnow hcur
      exact ⟨new, hself, hnew p hp hber⟩
    · exact ⟨cur, (hother hid).trans hcur, hber.mono hsub⟩
  · by_cases hid : i = id
    · subst hid
      obtain rfl := mem_unique hself hx
      obtain ⟨hi, p, hp, hber⟩ := h.only i now hnow
      exact ⟨hi, p, hp, hnew p hp hber⟩
    · rw [hother hid] at hx
      obtain ⟨hi, p, hp, hber⟩ := h.only i x hx
      exact ⟨hi, p, hp, hber.mono hsub⟩

lemma select_nodup (t : Table ResPartner) (cond : ℤ → ResPartner → Bool) :
    (select t cond).Nodup := t.nodup.sublist (filter_sublist.map _)

lemma mem_select_iff {cond : ℤ → ResPartner → Bool} :
    i ∈ select t cond ↔ ∃ p, t.get? i = some p ∧ cond i p = true := by
  unfold select
  rw [List.mem_map]
  constructor
  · rintro ⟨⟨j, p⟩, hr, rfl⟩
    obtain ⟨hmem, hcond⟩ := mem_filter.mp hr
    exact ⟨p, get?_eq_some_iff.mpr hmem, hcond⟩
  · rintro ⟨p, hp, hcond⟩
    exact ⟨(i, p), mem_filter.mpr ⟨get?_eq_some_iff.mp hp, hcond⟩, rfl⟩

section Delete

variable {scan : Table ResPartner → List ℤ → List ℤ} {gone : ℤ} {s : Table ResPartner}
  {evs : List Event}

variable {Q : ResPartner → Prop}

/-- The action of one key: the rows it selects are visited, and none is left. -/
lemma updateRows_losing {named : Named} {set : Table ResPartner → ℤ → ResPartner → ResPartner}
    (sel : ResPartner → Prop) {ids : List ℤ} (hids : ids.Nodup)
    (hsel : ∀ i now, s.get? i = some now → (sel now ↔ i ∈ ids))
    (hrow : ∀ u id old evs p, id ≠ gone → sel old → Bereft gone evs id p old →
      ¬ sel (before named u id (set u id old)) ∧
        Bereft gone (evs ++ [⟨id, old, before named u id (set u id old)⟩]) id p
          (before named u id (set u id old)) ∧
        (Q old → Q (before named u id (set u id old))))
    (h : Losing t gone s evs) (hQ : ∀ i now, s.get? i = some now → Q now) :
    Losing t gone (updateRows named set ids s).1 (evs ++ (updateRows named set ids s).2) ∧
      (∀ i now, (updateRows named set ids s).1.get? i = some now → ¬ sel now) ∧
      ∀ i now, (updateRows named set ids s).1.get? i = some now → Q now := by
  have hstart : ids.Nodup ∧ Losing t gone s evs ∧
      (∀ i now, s.get? i = some now → (sel now ↔ i ∈ ids)) ∧
      ∀ i now, s.get? i = some now → Q now := ⟨hids, h, hsel, hQ⟩
  have hend := updateRows_rule named set (I := fun u ids evs => ids.Nodup ∧
    Losing t gone u evs ∧ (∀ i now, u.get? i = some now → (sel now ↔ i ∈ ids)) ∧
      ∀ i now, u.get? i = some now → Q now) ?_ ?_ hstart
  · obtain ⟨-, hlosing, hnone, hQ'⟩ := hend
    refine ⟨hlosing, fun i now hnow hsel' => ?_, hQ'⟩
    exact not_mem_nil ((hnone i now hnow).mp hsel')
  · rintro u id ids evs' hnone ⟨hnodup, hlosing, hsel, hQ⟩
    refine ⟨hnodup.of_cons, hlosing, fun i now hnow => ?_, hQ⟩
    rw [hsel i now hnow, mem_cons]
    refine ⟨fun hmem => hmem.resolve_left ?_, .inr⟩
    rintro rfl
    rw [hnone] at hnow
    cases hnow
  · rintro u id ids evs' old hold ⟨hnodup, hlosing, hsel, hQ⟩
    obtain ⟨hnotin, hnodup'⟩ := nodup_cons.mp hnodup
    obtain ⟨hid, p, hp, hber⟩ := hlosing.only id old hold
    have hselold := (hsel id old hold).mpr mem_cons_self
    obtain ⟨hdone, -, hkeeps⟩ := hrow u id old evs' p hid hselold hber
    have hself : (u.modify id fun _ => before named u id (set u id old)).get? id =
        some (before named u id (set u id old)) := by
      rw [get?_modify_self, hold, map_some]
    refine ⟨hnodup', hlosing.modify hold fun p _ hber => ?_, fun i now hnow => ?_,
      fun i now hnow => ?_⟩
    · exact (hrow u id old evs' p hid hselold hber).2.1
    · by_cases hi : i = id
      · subst hi
        obtain rfl := mem_unique hself hnow
        exact ⟨fun hsel' => absurd hsel' hdone, fun hmem => absurd hmem hnotin⟩
      · rw [get?_modify_of_ne u _ hi] at hnow
        rw [hsel i now hnow, mem_cons]
        exact ⟨fun hmem => hmem.resolve_left hi, .inr⟩
    · by_cases hi : i = id
      · subst hi
        obtain rfl := mem_unique hself hnow
        exact hkeeps (hQ i old hold)
      · rw [get?_modify_of_ne u _ hi] at hnow
        exact hQ i now hnow

/-- The rows a statement selects by a condition on the row. -/
lemma mem_scan_select (hscan : ∀ t l, (scan t l).Perm l) {cond : ℤ → ResPartner → Bool}
    {sel : ResPartner → Prop} (hcond : ∀ i p, cond i p = true ↔ sel p)
    (hnow : s.get? i = some now) : sel now ↔ i ∈ scan s (select s cond) := by
  rw [(hscan s _).mem_iff, mem_select_iff]
  constructor
  · exact fun hsel => ⟨now, hnow, (hcond i now).mpr hsel⟩
  · rintro ⟨now', hnow', hcond'⟩
    obtain rfl := mem_unique hnow hnow'
    exact (hcond i now).mp hcond'

/-- The children of the row that is gone, each made an entity of its own. -/
lemma orphanChildren_losing (hscan : ∀ t l, (scan t l).Perm l) (h : Losing t gone s evs)
    (hQ : ∀ i now, s.get? i = some now → Q now)
    (hkeeps : ∀ i now, i ≠ gone → now.commercialPartnerId = some i → Q now) :
    Losing t gone (orphanChildren scan gone s).1 (evs ++ (orphanChildren scan gone s).2) ∧
      (∀ i now, (orphanChildren scan gone s).1.get? i = some now → ¬ now.parentId = some gone) ∧
      ∀ i now, (orphanChildren scan gone s).1.get? i = some now → Q now := by
  have hcond : ∀ (i : ℤ) (p : ResPartner),
      p.parentId.any ([gone].contains ·) = true ↔ p.parentId = some gone := by
    intro i p
    cases p.parentId with
    | none => simp
    | some par => simp
  refine updateRows_losing (fun p => p.parentId = some gone)
    ((hscan s _).nodup_iff.mpr (select_nodup s _))
    (fun i now hnow => mem_scan_select hscan hcond hnow) ?_ h hQ
  intro u id old evs' p hid hpargone hber
  have hnew := before_eq { parentId := true } u id { old with parentId := none }
  have hshown := before_shownAs { parentId := true } u id { old with parentId := none }
  generalize before { parentId := true } u id { old with parentId := none } = new
    at hnew hshown ⊢
  have hnewcp : new.commercialPartnerId = some id := by
    rw [hnew]
    exact ite_self _
  have hparent : new.parentId = none := by rw [hnew]
  have hown : new.commercialCompanyName = ownName p := by
    rw [hnew]
    unfold companyNameFor ownName
    rw [← hber.name, ← hber.isCompany, ← hber.companyName]
  have hevent : (⟨id, old, new⟩ : Event) ∈ evs' ++ [⟨id, old, new⟩] := by simp
  refine ⟨by rw [hparent]; nofun, ⟨?_, ?_, ?_, ?_, hshown, .inr (.inr ?_)⟩,
    fun _ => hkeeps id new hid hnewcp⟩
  · rw [hnew]
    exact hber.name
  · rw [hnew]
    exact hber.isCompany
  · rw [hnew]
    exact hber.companyName
  · rw [hnew]
    exact hber.tenant
  · obtain rfl | ⟨-, hnone, hsame⟩ | ⟨-, hnone, -⟩ := hber.how
    · exact ⟨hpargone, hparent, hnewcp, hown, _, hevent, rfl, hnewcp, .inl rfl⟩
    · exact ⟨hsame.symm.trans hpargone, hparent, hnewcp, hown, _, hevent, rfl, hnewcp, .inr hnone⟩
    · rw [hpargone] at hnone
      cases hnone

/-- The rows under the entity that is gone, left without one. -/
lemma forgetCommercial_losing (hscan : ∀ t l, (scan t l).Perm l) (h : Losing t gone s evs)
    (hQ : ∀ i now, s.get? i = some now → Q now)
    (hkeeps : ∀ old new : ResPartner, new.parentId = old.parentId → Q old → Q new) :
    Losing t gone (forgetCommercial scan gone s).1 (evs ++ (forgetCommercial scan gone s).2) ∧
      (∀ i now, (forgetCommercial scan gone s).1.get? i = some now →
        ¬ now.commercialPartnerId = some gone) ∧
      ∀ i now, (forgetCommercial scan gone s).1.get? i = some now → Q now := by
  have hcond : ∀ (i : ℤ) (p : ResPartner),
      (p.commercialPartnerId == some gone) = true ↔ p.commercialPartnerId = some gone :=
    fun _ _ => beq_iff_eq
  refine updateRows_losing (fun p => p.commercialPartnerId = some gone)
    ((hscan s _).nodup_iff.mpr (select_nodup s _))
    (fun i now hnow => mem_scan_select hscan hcond hnow) ?_ h hQ
  intro u id old evs' p hid hgone hber
  have hnew := before_eq {} u id { old with commercialPartnerId := none }
  have hshown := before_shownAs {} u id { old with commercialPartnerId := none }
  generalize before {} u id { old with commercialPartnerId := none } = new at hnew hshown ⊢
  have hnewcp : new.commercialPartnerId = none := by
    rw [hnew]
    rfl
  have hparent : new.parentId = old.parentId := by rw [hnew]
  refine ⟨by rw [hnewcp]; nofun, ⟨?_, ?_, ?_, ?_, hshown, .inr (.inl ?_)⟩, hkeeps old new hparent⟩
  · rw [hnew]
    exact hber.name
  · rw [hnew]
    exact hber.isCompany
  · rw [hnew]
    exact hber.companyName
  · rw [hnew]
    exact hber.tenant
  · obtain rfl | ⟨-, hnone, -⟩ | ⟨-, -, hself, -⟩ := hber.how
    · exact ⟨hgone, hnewcp, hparent⟩
    · rw [hgone] at hnone
      cases hnone
    · rw [hgone] at hself
      exact absurd (some.inj hself).symm hid

/-- Both keys, whichever acts first. -/
lemma deleteRow_losing (hscan : ∀ t l, (scan t l).Perm l) (parentFirst : Bool)
    (hdisplay : ∀ i p, t.get? i = some p → p.displayName = shownAs p) :
    Losing t gone (deleteRow scan parentFirst gone t).1 (deleteRow scan parentFirst gone t).2 ∧
      ∀ i now, (deleteRow scan parentFirst gone t).1.get? i = some now →
        now.parentId ≠ some gone ∧ now.commercialPartnerId ≠ some gone := by
  have hstart : Losing t gone (t.delete fun i _ => i == gone) [] := by
    refine ⟨fun i p hi hp => ?_, fun i now hnow => ?_⟩
    · refine ⟨p, ?_, rfl, rfl, rfl, rfl, hdisplay i p hp, .inl rfl⟩
      rw [get?_delete, hp, filter_some_eq_some]
      simpa using hi
    · rw [get?_delete, filter_eq_some_iff] at hnow
      obtain ⟨hp, hi⟩ := hnow
      exact ⟨by simpa using hi, now, hp, rfl, rfl, rfl, rfl, hdisplay i now hp, .inl rfl⟩
  have hany : ∀ (s : Table ResPartner) i now, s.get? i = some now → True := fun _ _ _ _ => trivial
  unfold deleteRow
  cases parentFirst with
  | true =>
      rw [if_pos rfl]
      obtain ⟨hfirst, hparent, -⟩ := orphanChildren_losing hscan hstart (hany _)
        fun _ _ _ _ => trivial
      obtain ⟨hsecond, hcommercial, hparent'⟩ := forgetCommercial_losing hscan hfirst hparent
        fun old new hsame hold => by rwa [hsame]
      exact ⟨hsecond, fun i now hnow => ⟨hparent' i now hnow, hcommercial i now hnow⟩⟩
  | false =>
      rw [if_neg nofun]
      obtain ⟨hfirst, hcommercial, -⟩ := forgetCommercial_losing hscan hstart (hany _)
        fun _ _ _ _ => trivial
      obtain ⟨hsecond, hparent, hcommercial'⟩ := orphanChildren_losing hscan hfirst hcommercial
        fun i now hi hself hgone => hi (some.inj (hself.symm.trans hgone))
      exact ⟨hsecond, fun i now hnow => ⟨hparent i now hnow, hcommercial' i now hnow⟩⟩

/-- The rows above one that is left are left, and nothing about names has
changed in them. -/
lemma Losing.companyNameUnder (h : Losing t gone s evs) (hshallow : Shallow t) {c : ℤ}
    (hp : t.get? i = some p) (hc : commercialOf t i = some c) (hne : c ≠ gone)
    (own : Option String) :
    ResPartner.companyNameUnder s (some c) own = ResPartner.companyNameUnder t (some c) own := by
  obtain ⟨d, hd, -, hwithin⟩ := exists_isCommercial (hshallow.within hp)
  obtain rfl : c = d := some.inj (hc.symm.trans hd)
  obtain ⟨q, hq, -⟩ := within_iff.mp hwithin
  obtain ⟨now, hnow, hber⟩ := h.rows c q hne hq
  unfold ResPartner.companyNameUnder
  rw [bind_some, bind_some, hq, hnow]
  dsimp only
  rw [hber.name, hber.isCompany]

/-- **What a deletion leaves out of date.**  A row has lost its right entity only
under a parent that has lost its own. -/
theorem Losing.tidy (h : Losing t gone s evs) (hshallow : Shallow t) (hsettled : Settled t)
    (hshallow' : Shallow s) (hkeys : ∀ i now, s.get? i = some now →
      now.parentId ≠ some gone ∧ now.commercialPartnerId ≠ some gone) :
    Tidy s (excuses (jobs evs)) := by
  refine ⟨?_, ?_, fun i now hnow => ?_, ?_⟩
  · intro i now hnow hwrong
    obtain ⟨hi, p, hp, hber⟩ := h.only i now hnow
    have hcp := hsettled.commercial i p hp
    rw [commercialOf_eq hshallow hp] at hcp
    rw [commercialOf_eq hshallow' hnow] at hwrong
    unfold commercialFor at hcp hwrong
    rw [hber.isCompany] at hwrong
    have hown : p.commercialPartnerId = some i → now.commercialPartnerId = some i := by
      intro hown
      obtain rfl | ⟨hgone, -⟩ | ⟨-, -, hself, -⟩ := hber.how
      · exact hown
      · exact absurd (some.inj (hown.symm.trans hgone)) hi
      · exact hself
    cases hcompany : p.isCompany with
    | true =>
        rw [hcompany, if_pos rfl] at hcp hwrong
        exact absurd (hown hcp) hwrong
    | false =>
        rw [hcompany, if_neg nofun] at hcp hwrong
        cases hpar : now.parentId with
        | none =>
            rw [hpar] at hwrong
            refine absurd ?_ hwrong
            obtain rfl | ⟨-, -, hsame⟩ | ⟨-, -, hself, -⟩ := hber.how
            · rw [hpar] at hcp
              exact hcp
            · rw [hsame.symm.trans hpar] at hcp
              exact hown hcp
            · exact hself
        | some par =>
            rw [hpar] at hwrong
            have hparold : p.parentId = some par := by
              obtain rfl | ⟨-, -, hsame⟩ | ⟨-, hroot, -⟩ := hber.how
              · exact hpar
              · exact hsame.symm.trans hpar
              · rw [hroot] at hpar
                cases hpar
            rw [hparold] at hcp
            have hparne : par ≠ gone := fun heq => (hkeys i now hnow).1 (heq ▸ hpar)
            obtain ⟨-, q, hq⟩ := hshallow.parent hp hparold
            obtain ⟨qnow, hqnow, hqber⟩ := h.rows par q hparne hq
            refine ⟨hber.isCompany.trans hcompany, par, qnow, rfl, hqnow, ?_⟩
            by_cases hqright : qnow.commercialPartnerId = commercialOf s par
            swap
            · exact .inl hqright
            -- the parent is right now and was right before, but the row no longer is
            have hsame : q.commercialPartnerId = p.commercialPartnerId :=
              (hsettled.commercial par q hq).trans hcp.symm
            have hlost : q.commercialPartnerId ≠ qnow.commercialPartnerId := by
              rw [hsame, hqright]
              intro heq
              obtain rfl | ⟨hgone, -⟩ | ⟨-, hroot, -⟩ := hber.how
              · exact hwrong heq
              · rw [← hqright] at heq
                exact (hkeys par qnow hqnow).2 (heq.symm.trans hgone)
              · rw [hroot] at hpar
                cases hpar
            obtain rfl | ⟨-, hnone, -⟩ | ⟨-, -, hself, -, e, he, hid, hnew, hold⟩ := hqber.how
            · exact absurd rfl hlost
            · obtain ⟨c, hc, -⟩ := commercialOf_isCommercial hshallow' hqnow
              rw [hnone, hc] at hqright
              cases hqright
            · refine .inr ⟨e, mem_jobs.mpr he, hid, ?_⟩
              unfold Event.commercialChanged
              rw [bne_iff_ne, hnew]
              obtain heq | heq := hold
              · rw [heq, ← hself]
                exact hlost.symm
              · rw [heq]
                nofun
  · intro i now hnow hwrong
    obtain ⟨hi, p, hp, hber⟩ := h.only i now hnow
    by_cases hcp : now.commercialPartnerId = commercialOf s i
    swap
    · exact .inl hcp
    refine absurd ?_ hwrong
    obtain ⟨c, hc, -⟩ := commercialOf_isCommercial hshallow' hnow
    obtain rfl | ⟨-, hnone, -⟩ | ⟨-, hroot, -, hown, -⟩ := hber.how
    · have hcne : c ≠ gone := by
        rintro rfl
        exact (hkeys i now hnow).2 (hcp.trans hc)
      rw [hsettled.name i now hp, companyNameFor_eq hshallow hp, companyNameFor_eq hshallow' hnow,
        ← hsettled.commercial i now hp, hcp, hc]
      refine (h.companyNameUnder hshallow hp ?_ hcne now.companyName).symm
      rw [← hsettled.commercial i now hp, hcp, hc]
    · rw [hnone, hc] at hcp
      cases hcp
    · rw [hown]
      unfold companyNameFor ownName
      rw [hroot, hber.name, hber.isCompany, hber.companyName]
  · obtain ⟨-, p, -, hber⟩ := h.only i now hnow
    exact hber.display
  · intro i now par qnow hnow hpar hqnow hco
    obtain ⟨-, p, hp, hber⟩ := h.only i now hnow
    obtain ⟨-, q, hq, hqber⟩ := h.only par qnow hqnow
    refine .inl ?_
    have hparold : p.parentId = some par := by
      obtain rfl | ⟨-, -, hsame⟩ | ⟨-, hroot, -⟩ := hber.how
      · exact hpar
      · exact hsame.symm.trans hpar
      · rw [hroot] at hpar
        cases hpar
    rw [hqber.tenant] at hco
    rw [hber.tenant, hqber.tenant]
    exact hsettled.tenant i p par q hp hparold hq hco

lemma delete_tidy (hscan : ∀ t l, (scan t l).Perm l) (parentFirst : Bool) (hshallow : Shallow t)
    (h : Settled t) (hshallow' : Shallow (deleteRow scan parentFirst gone t).1) :
    Tidy (deleteRow scan parentFirst gone t).1
      (excuses (jobs (deleteRow scan parentFirst gone t).2)) := by
  obtain ⟨hlosing, hkeys⟩ := deleteRow_losing hscan parentFirst h.display
  exact hlosing.tidy hshallow h hshallow' hkeys

end Delete

/-! ### Runs -/

section Runs

variable {scan : Table ResPartner → List ℤ → List ℤ} {nest : ℕ} {parentFirst : Bool}

/-- Columns that are what they are defined to be are settled. -/
lemma Derived.settled (hshallow : Shallow t) (h : Derived t) : Settled t := by
  refine ⟨fun i p hp => ?_, fun i p hp => ?_, h.displayName, h.tenant⟩
  · obtain ⟨c, hc, his⟩ := h.commercial i p hp
    obtain ⟨d, hd, his'⟩ := commercialOf_isCommercial hshallow hp
    rw [hc, hd, his.unique his']
  · obtain ⟨c, hc, his, hwithin⟩ := exists_isCommercial (hshallow.within hp)
    obtain ⟨q, hq, -⟩ := within_iff.mp hwithin
    have hwalk : commercialOf t i = some c := hc
    rw [h.commercialName i p c q hp his hq, companyNameFor_eq hshallow hp, hwalk]
    unfold companyNameUnder
    rw [bind_some, hq]

/-- **One operation.** -/
theorem step_settled (hscan : ∀ t l, (scan t l).Perm l) (hshallow : Shallow t) (h : Settled t)
    {op : PartnerOp} (hshallow' : Shallow (write scan parentFirst t op).1)
    (hstep : step scan nest parentFirst t op = some u) : Shallow u ∧ Settled u := by
  have htidy : Tidy (write scan parentFirst t op).1
      (excuses (jobs (write scan parentFirst t op).2)) := by
    cases op with
    | insert vals => exact (insert_settled hshallow h vals hshallow').tidy _
    | write id c => exact write_tidy hshallow h id c hshallow'
    | delete id => exact delete_tidy hscan parentFirst hshallow h hshallow'
  obtain ⟨hbase, hend⟩ := runAll_tidy hscan hshallow' htidy hstep
  have hfinal := hshallow'.congr hbase
  exact ⟨hfinal, hend.settled hfinal⟩

/-- **Derived columns are what they are defined to be** in every state of a run
that keeps the hierarchy shallow. -/
theorem derived_of_reaches (hscan : ∀ t l, (scan t l).Perm l) {t₀ : Table ResPartner}
    (hstart : Shallow t₀) (hderived : Derived t₀)
    (hrun : Reaches (step scan nest parentFirst)
      (fun t op => Shallow (write scan parentFirst t op).1) t₀ t) : Derived t := by
  obtain ⟨hshallow, hsettled⟩ := hrun.invariant (I := fun t => Shallow t ∧ Settled t)
    (fun _ _ _ hs hok hstep => step_settled hscan hs.1 hs.2 hok hstep)
    ⟨hstart, hderived.settled hstart⟩
  exact hsettled.derived hshallow

lemma derived_empty : Derived Table.empty where
  commercial _ _ hp := by cases hp
  commercialName _ _ _ _ hp := by cases hp
  displayName _ _ hp := by cases hp
  tenant _ _ _ _ hp := by cases hp

/-- A group, its branch and a contact there; the branch becomes a company, the
group is renamed and changes hands, and at last it is deleted. -/
def groupSold : List PartnerOp :=
  [.insert { name := "Group", isCompany := true, companyId := some 1 },
    .insert { name := "Branch", parentId := some 1, companyName := some "Branch Co" },
    .insert { name := "Ann", parentId := some 2 },
    .write 2 { isCompany := some true },
    .write 1 { name := some "Holding", companyId := some (some 2) },
    .write 2 { isCompany := some false },
    .delete 1]

theorem derived_of_reaches_groupSold : ∃ t, execute (step (fun _ ids => ids) 66 true)
      (fun t op => Shallow (write (fun _ ids => ids) true t op).1) groupSold Table.empty =
      some t ∧
    Derived t := by
  have hrun : (execute (step (fun _ ids => ids) 66 true)
      (fun t op => Shallow (write (fun _ ids => ids) true t op).1) groupSold
      Table.empty).isSome = true := by
    decide +kernel
  obtain ⟨t, ht⟩ := isSome_iff_exists.mp hrun
  exact ⟨t, ht, derived_of_reaches (fun _ l => List.Perm.refl l) (by decide) derived_empty
    (reaches_of_execute ht)⟩

end Runs

end ResPartner

end CErp
