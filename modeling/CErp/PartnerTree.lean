/-
The tree the parents make, and the values the derived columns are to have in it.

`within t n i` says that there are at most `n` partners above `i`; a table is
`Shallow` when that holds of every row with the number of steps the database's
own walk takes.  In such a table the walk is its recursive definition
(`commercialOf_eq`), and it depends on the base columns only (`climb_congr`).

`Derived` is what the columns are for: every partner under its nearest ancestor
or self that is a company or a root, with the names that follow from it, in the
tenant of its parent.
-/
import CErp.ResPartner

namespace CErp

open Option Nat Table

namespace ResPartner

variable {t u : Table ResPartner}

/-! ### Base columns -/

/-- The columns nothing is derived into. -/
def base (p : ResPartner) : String × Option ℤ × Bool × Option String :=
  (p.name, p.parentId, p.isCompany, p.companyName)

variable {p : ResPartner}

lemma base_eq_iff {q : ResPartner} : base p = base q ↔
    p.name = q.name ∧ p.parentId = q.parentId ∧ p.isCompany = q.isCompany ∧
      p.companyName = q.companyName := by
  simp only [base, Prod.mk.injEq]

/-- The same rows, as far as base columns go. -/
def SameBase (t u : Table ResPartner) : Prop := ∀ i, (t.get? i).map base = (u.get? i).map base

lemma SameBase.refl (t : Table ResPartner) : SameBase t t := fun _ => rfl

lemma SameBase.symm (h : SameBase t u) : SameBase u t := fun i => (h i).symm

lemma SameBase.trans {w : Table ResPartner} (h : SameBase t u) (h' : SameBase u w) :
    SameBase t w := fun i => (h i).trans (h' i)

variable {i : ℤ}

lemma SameBase.exists (h : SameBase t u) (hp : t.get? i = some p) :
    ∃ q, u.get? i = some q ∧ base q = base p := by
  have hi := h i
  rw [hp] at hi
  exact map_eq_some_iff.mp hi.symm

lemma SameBase.none (h : SameBase t u) (hi : t.get? i = none) : u.get? i = none := by
  have hu := h i
  rw [hi] at hu
  exact map_eq_none_iff.mp hu.symm

lemma sameBase_modify {old new : ResPartner} (hold : t.get? i = some old)
    (hbase : base new = base old) : SameBase t (t.modify i fun _ => new) := by
  intro j
  by_cases hj : j = i
  · subst hj
    rw [get?_modify_self, hold]
    exact congrArg some hbase.symm
  · rw [get?_modify_of_ne t _ hj]

/-! ### Depth -/

/-- There are at most `n` partners above. -/
def within (t : Table ResPartner) (n : ℕ) (i : ℤ) : Bool :=
  match t.get? i with
  | none => false
  | some p =>
      match p.parentId, n with
      | none, _ => true
      | some _, 0 => false
      | some par, n + 1 => within t n par

variable {n : ℕ}

lemma within_iff : within t n i = true ↔ ∃ p, t.get? i = some p ∧ ∀ par, p.parentId = some par →
      ∃ m, n = m + 1 ∧ within t m par = true := by
  rw [within]
  cases hp : t.get? i with
  | none => simp
  | some p =>
      cases hpar : p.parentId with
      | none => simp [hpar]
      | some par =>
          cases n with
          | zero => simp [hpar]
          | succ n => simp [hpar]

/-- Nothing is above a row within no steps. -/
lemma within_zero (h : within t 0 i = true) : ∃ p, t.get? i = some p ∧ p.parentId = none := by
  obtain ⟨p, hp, hparent⟩ := within_iff.mp h
  refine ⟨p, hp, eq_none_iff_forall_not_mem.mpr fun par hpar => ?_⟩
  obtain ⟨k, hk, -⟩ := hparent par hpar
  exact succ_ne_zero k hk.symm

lemma within_succ (h : within t (n + 1) i = true) :
    ∃ p, t.get? i = some p ∧ ∀ par, p.parentId = some par → within t n par = true := by
  obtain ⟨p, hp, hparent⟩ := within_iff.mp h
  refine ⟨p, hp, fun par hpar => ?_⟩
  obtain ⟨m, hm, hwithin⟩ := hparent par hpar
  obtain rfl : n = m := Nat.succ.inj hm
  exact hwithin

/-- Every parent is there, and no partner has more than 64 above it. -/
def Shallow (t : Table ResPartner) : Prop := ∀ r ∈ t.rows, within t 64 r.1 = true

instance : Decidable (Shallow t) := inferInstanceAs (Decidable (∀ r ∈ t.rows, _))

lemma Shallow.within (h : Shallow t) (hp : t.get? i = some p) :
    within t 64 i = true := h (i, p) (get?_eq_some_iff.mp hp)

/-- The parent of a partner is there, with fewer above it. -/
lemma within_parent {par : ℤ} (h : within t n i = true) (hp : t.get? i = some p)
    (hpar : p.parentId = some par) : ∃ m, n = m + 1 ∧ within t m par = true := by
  obtain ⟨q, hq, hparent⟩ := within_iff.mp h
  obtain rfl : p = q := some.inj (hp.symm.trans hq)
  exact hparent par hpar

lemma within_mono {m : ℕ} (h : within t n i = true) (hnm : n ≤ m) : within t m i = true := by
  induction n generalizing i m with
  | zero =>
      obtain ⟨p, hp, hroot⟩ := within_zero h
      exact within_iff.mpr ⟨p, hp, fun par hpar => by simp [hroot] at hpar⟩
  | succ n ih =>
      obtain ⟨p, hp, hparent⟩ := within_succ h
      refine within_iff.mpr ⟨p, hp, fun par hpar => ?_⟩
      exact ⟨m - 1, by omega, ih (hparent par hpar) (by omega)⟩

lemma Shallow.parent (h : Shallow t) {par : ℤ} (hp : t.get? i = some p)
    (hpar : p.parentId = some par) :
    ResPartner.within t 63 par = true ∧ ∃ q, t.get? par = some q := by
  obtain ⟨m, hm, hwithin⟩ := within_parent (h.within hp) hp hpar
  obtain rfl : m = 63 := by omega
  obtain ⟨q, hq, -⟩ := within_iff.mp hwithin
  exact ⟨hwithin, q, hq⟩

/-- The number of partners above a row. -/
lemma exists_depth (h : within t 64 i = true) :
    ∃ n, within t n i = true ∧ ∀ m < n, within t m i = false := by
  have hex : ∃ n, within t n i = true := ⟨64, h⟩
  refine ⟨Nat.find hex, Nat.find_spec hex, fun m hm => ?_⟩
  exact eq_false_of_ne_true (Nat.find_min hex hm)

lemma Shallow.parent_ne (h : Shallow t) {par : ℤ} (hp : t.get? i = some p)
    (hpar : p.parentId = some par) : par ≠ i := by
  rintro rfl
  obtain ⟨n, hn, hleast⟩ := exists_depth (h.within hp)
  obtain ⟨m, rfl, hm⟩ := within_parent hn hp hpar
  rw [hleast m (lt_succ_self m)] at hm
  cases hm

lemma within_congr (h : SameBase t u) (hn : within t n i = true) : within u n i = true := by
  induction n generalizing i with
  | zero =>
      obtain ⟨p, hp, hroot⟩ := within_zero hn
      obtain ⟨q, hq, hbase⟩ := h.exists hp
      refine within_iff.mpr ⟨q, hq, fun par hpar => ?_⟩
      rw [(base_eq_iff.mp hbase).2.1, hroot] at hpar
      cases hpar
  | succ n ih =>
      obtain ⟨p, hp, hparent⟩ := within_succ hn
      obtain ⟨q, hq, hbase⟩ := h.exists hp
      refine within_iff.mpr ⟨q, hq, fun par hpar => ⟨n, rfl, ih (hparent par ?_)⟩⟩
      rw [← (base_eq_iff.mp hbase).2.1, hpar]

lemma Shallow.congr (h : Shallow t) (hbase : SameBase t u) : Shallow u := by
  rintro ⟨i, q⟩ hq
  obtain ⟨p, hp, -⟩ := hbase.symm.exists (get?_eq_some_iff.mpr hq)
  exact within_congr hbase (h.within hp)

/-! ### The walk -/

lemma climb_none (hi : t.get? i = none) : climb t n i = none := by
  rw [climb, hi]

lemma climb_zero (hp : t.get? i = some p) :
    climb t 0 i = if p.isCompany then some i else some (p.parentId.getD i) := by
  rw [climb, hp]
  dsimp only
  cases p.parentId with
  | none => rfl
  | some par => rfl

lemma climb_succ (hp : t.get? i = some p) : climb t (n + 1) i = if p.isCompany then some i else
      match p.parentId with
      | none => some i
      | some par => climb t n par := by
  rw [climb, hp]
  dsimp only
  cases p.parentId with
  | none => rfl
  | some par => rfl

/-- The walk reads parents and companies only. -/
lemma climb_congr (h : SameBase t u) (n : ℕ) (i : ℤ) : climb t n i = climb u n i := by
  induction n generalizing i with
  | zero =>
      cases hp : t.get? i with
      | none => rw [climb_none hp, climb_none (h.none hp)]
      | some p =>
          obtain ⟨q, hq, hbase⟩ := h.exists hp
          obtain ⟨-, hparent, hcompany, -⟩ := base_eq_iff.mp hbase
          rw [climb_zero hp, climb_zero hq, hparent, hcompany]
  | succ n ih =>
      cases hp : t.get? i with
      | none => rw [climb_none hp, climb_none (h.none hp)]
      | some p =>
          obtain ⟨q, hq, hbase⟩ := h.exists hp
          obtain ⟨-, hparent, hcompany, -⟩ := base_eq_iff.mp hbase
          rw [climb_succ hp, climb_succ hq, hparent, hcompany]
          cases p.parentId with
          | none => rfl
          | some par =>
              dsimp only
              rw [ih par]

lemma commercialOf_congr (h : SameBase t u) (i : ℤ) : commercialOf t i = commercialOf u i :=
  climb_congr h 64 i

/-- A root is where every walk from it ends. -/
lemma climb_root {m : ℕ} (hp : t.get? i = some p) (hroot : p.parentId = none) :
    climb t m i = some i := by
  cases m with
  | zero => rw [climb_zero hp, hroot, getD_none, ite_self]
  | succ m =>
      rw [climb_succ hp, hroot]
      exact ite_self _

/-- More steps than there are partners above change nothing. -/
lemma climb_stable {m : ℕ} (h : within t n i = true) (hnm : n ≤ m) :
    climb t m i = climb t n i := by
  induction n generalizing i m with
  | zero =>
      obtain ⟨p, hp, hroot⟩ := within_zero h
      rw [climb_root hp hroot, climb_root hp hroot]
  | succ n ih =>
      obtain ⟨p, hp, hparent⟩ := within_succ h
      obtain ⟨k, rfl⟩ : ∃ k, m = k + 1 := ⟨m - 1, by omega⟩
      rw [climb_succ hp, climb_succ hp]
      cases hpar : p.parentId with
      | none => rfl
      | some par =>
          dsimp only
          rw [ih (hparent par hpar) (by omega)]

/-- **In a shallow table the walk is its recursive definition.** -/
theorem commercialOf_eq (h : Shallow t) (hp : t.get? i = some p) :
    commercialOf t i = commercialFor t i p := by
  unfold commercialOf commercialFor
  rw [climb_succ hp]
  cases hpar : p.parentId with
  | none => rfl
  | some par =>
      dsimp only
      rw [commercialOf, climb_stable (h.parent hp hpar).1 (by decide : 63 ≤ 64)]

/-- Two tables that have the rows of a walk in common have the walk in common. -/
lemma climb_of_within (m : ℕ) (h : within t n i = true)
    (hsame : ∀ j, within t n j = true → u.get? j = t.get? j) : climb u m i = climb t m i := by
  induction n generalizing i m with
  | zero =>
      obtain ⟨p, hp, hroot⟩ := within_zero h
      rw [climb_root hp hroot, climb_root ((hsame i h).trans hp) hroot]
  | succ n ih =>
      obtain ⟨p, hp, hparent⟩ := within_succ h
      have hp' := (hsame i h).trans hp
      cases m with
      | zero => rw [climb_zero hp, climb_zero hp']
      | succ m =>
          rw [climb_succ hp, climb_succ hp']
          cases hpar : p.parentId with
          | none => rfl
          | some par =>
              dsimp only
              rw [ih m (hparent par hpar) fun j hj => hsame j (within_mono hj (le_succ n))]

/-! ### What the columns are for -/

/-- The nearest ancestor or self that is a company or a root. -/
inductive IsCommercial (t : Table ResPartner) : ℤ → ℤ → Prop
  | self {i : ℤ} {p : ResPartner} (hp : t.get? i = some p)
      (htop : p.isCompany = true ∨ p.parentId = none) : IsCommercial t i i
  | up {i par c : ℤ} {p : ResPartner} (hp : t.get? i = some p) (hcompany : p.isCompany = false)
      (hpar : p.parentId = some par) (hc : IsCommercial t par c) : IsCommercial t i c

/-- The derived columns are what they are defined to be. -/
structure Derived (t : Table ResPartner) : Prop where
  commercial : ∀ i p, t.get? i = some p → ∃ c, p.commercialPartnerId = some c ∧ IsCommercial t i c
  commercialName : ∀ i p c q, t.get? i = some p → IsCommercial t i c → t.get? c = some q →
    p.commercialCompanyName = if q.isCompany then some q.name else p.companyName
  displayName : ∀ i p, t.get? i = some p → p.displayName = shownAs p
  tenant : ∀ i p par q, t.get? i = some p → p.parentId = some par → t.get? par = some q →
    q.companyId ≠ none → p.companyId = q.companyId

lemma exists_isCommercial (h : within t n i = true) :
    ∃ c, climb t n i = some c ∧ IsCommercial t i c ∧ within t n c = true := by
  induction n generalizing i with
  | zero =>
      obtain ⟨p, hp, hroot⟩ := within_zero h
      exact ⟨i, climb_root hp hroot, .self hp (.inr hroot), h⟩
  | succ n ih =>
      obtain ⟨p, hp, hparent⟩ := within_succ h
      rw [climb_succ hp]
      cases hcompany : p.isCompany with
      | true => exact ⟨i, rfl, .self hp (.inl hcompany), h⟩
      | false =>
          cases hpar : p.parentId with
          | none => exact ⟨i, rfl, .self hp (.inr hpar), h⟩
          | some par =>
              obtain ⟨c, hc, his, hwc⟩ := ih (hparent par hpar)
              exact ⟨c, hc, .up hp hcompany hpar his, within_mono hwc (le_succ n)⟩

/-- The nearest one is the only one. -/
lemma IsCommercial.unique {c d : ℤ} (h : IsCommercial t i c) (h' : IsCommercial t i d) :
    c = d := by
  induction h with
  | self hp htop =>
      cases h' with
      | self => rfl
      | up hp' hcompany hpar =>
          cases some.inj (hp.symm.trans hp')
          simp [hcompany, hpar] at htop
  | up hp hcompany hpar _ ih =>
      cases h' with
      | self hp' htop =>
          cases some.inj (hp.symm.trans hp')
          simp [hcompany, hpar] at htop
      | up hp' hcompany' hpar' hc' =>
          cases some.inj (hp.symm.trans hp')
          cases some.inj (hpar.symm.trans hpar')
          exact ih hc'

lemma commercialOf_isCommercial (h : Shallow t) (hp : t.get? i = some p) :
    ∃ c, commercialOf t i = some c ∧ IsCommercial t i c := by
  obtain ⟨c, hc, his, -⟩ := exists_isCommercial (h.within hp)
  exact ⟨c, hc, his⟩

end ResPartner

end CErp
