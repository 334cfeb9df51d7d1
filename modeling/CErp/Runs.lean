/-
Runs of a system that takes one event after the other.

`step s e` is the state an event leads to, `none` when the event cannot happen
in the state.  A run under a condition `ok` takes only events that meet it in
the state they happen in; `Reaches` is what such runs reach.

* `Reaches.invariant`: a property every step keeps holds at the end of a run;
* `Reaches.mono`: a run under a condition is a run under a weaker one;
* `reaches_of_execute`: a run given as a list of events, carried out.

An operation over a list of items takes one item after the other and fails as a
whole; `InTurn` is a condition on every item in the state its turn comes in.

* `foldlM_invariant`: what one item keeps, the operation keeps; `foldlM_keeps`
  is the rule without a condition;
* `foldlM_iff`: where later items cannot undo what earlier ones did, the
  operation does no harm exactly when each item, in turn, does none;
* `foldlM_sum`: what the items change of a quantity adds up, `sumInTurn`.
-/
import Mathlib.Algebra.Group.Int.Defs
import Mathlib.Logic.Relation
import Mathlib.Tactic.Common

namespace Runs

variable {σ ε : Type*} (step : σ → ε → Option σ) (ok : σ → ε → Prop)

/-- Some event that meets the condition leads from one state to the other. -/
def Step (s s' : σ) : Prop := ∃ e, ok s e ∧ step s e = some s'

/-- A run under the condition leads from one state to the other. -/
def Reaches : σ → σ → Prop := Relation.ReflTransGen (Step step ok)

/-- Take the events of a list in turn, as long as each of them may happen. -/
def execute [∀ s e, Decidable (ok s e)] : List ε → σ → Option σ
  | [], s => some s
  | e :: es, s => if ok s e then (step s e).bind (execute es) else none

variable {step ok}

/-- **The invariant rule.** -/
theorem Reaches.invariant {I : σ → Prop} {s s' : σ} (h : Reaches step ok s s')
    (hstep : ∀ s e s', I s → ok s e → step s e = some s' → I s') (h0 : I s) : I s' := by
  -- the run grows at its end, so the induction hypothesis is the last state but one
  induction h with
  | refl => exact h0
  | tail _ hlast ih =>
      obtain ⟨e, hok, hs⟩ := hlast
      exact hstep _ e _ ih hok hs

lemma Reaches.mono {ok' : σ → ε → Prop} {s s' : σ} (h : Reaches step ok s s')
    (himp : ∀ s e, ok s e → ok' s e) : Reaches step ok' s s' := by
  have hstep : ∀ a b, Step step ok a b → Step step ok' a b := by
    rintro a b ⟨e, hok, hs⟩
    exact ⟨e, himp a e hok, hs⟩
  exact Relation.ReflTransGen.mono hstep _ _ h

lemma reaches_of_execute [∀ s e, Decidable (ok s e)] {es : List ε} {s s' : σ}
    (h : execute step ok es s = some s') : Reaches step ok s s' := by
  induction es generalizing s with
  | nil =>
      cases h
      exact Relation.ReflTransGen.refl
  | cons e es ih =>
      unfold execute at h
      split at h
      · next hok =>
          obtain ⟨m, hm, hrest⟩ := Option.bind_eq_some_iff.mp h
          exact Relation.ReflTransGen.head ⟨e, hok, hm⟩ (ih hrest)
      · cases h

/-! ### Items in turn -/

section InTurn

variable {α ρ : Type*} {τ : Type*}

/-- A condition on every item when its turn comes. -/
def InTurn (one : τ → α → Except ρ τ) (ok : τ → α → Prop) : τ → List α → Prop
  | _, [] => True
  | s, a :: as => ok s a ∧ ∀ s', one s a = .ok s' → InTurn one ok s' as

variable {one : τ → α → Except ρ τ} {ok : τ → α → Prop}

/-- The items can be taken in turn to find out. -/
instance decidableInTurn [∀ s a, Decidable (ok s a)] :
    (s : τ) → (as : List α) → Decidable (InTurn one ok s as)
  | _, [] => .isTrue trivial
  | s, a :: as =>
      match hone : one s a with
      | .error _ =>
          decidable_of_iff (ok s a)
            ⟨fun h => ⟨h, fun _ hm => nomatch hone.symm.trans hm⟩, fun h => h.1⟩
      | .ok m =>
          have := decidableInTurn m as
          decidable_of_iff (ok s a ∧ InTurn one ok m as)
            ⟨fun h => ⟨h.1, fun _ hm => Except.ok.inj (hone.symm.trans hm) ▸ h.2⟩,
              fun h => ⟨h.1, h.2 m hone⟩⟩

variable {as : List α} {s s' : τ}

lemma foldlM_cons_ok {a : α} :
    (a :: as).foldlM one s = .ok s' ↔ ∃ m, one s a = .ok m ∧ as.foldlM one m = .ok s' := by
  rw [List.foldlM_cons]
  rcases one s a with e | m
  · constructor
    · intro h
      cases h
    · rintro ⟨m, h, -⟩
      cases h
  · constructor
    · intro h
      exact ⟨m, rfl, h⟩
    · rintro ⟨m', h, hrest⟩
      cases h
      exact hrest

/-- **The rule for an operation over items.** -/
theorem foldlM_invariant {Inv : τ → Prop} {as : List α} {s s' : τ}
    (hstep : ∀ s a s', Inv s → ok s a → one s a = .ok s' → Inv s')
    (hok : InTurn one ok s as) (h : as.foldlM one s = .ok s') (h0 : Inv s) : Inv s' := by
  induction as generalizing s with
  | nil =>
      cases h
      exact h0
  | cons a as ih =>
      obtain ⟨m, hm, hrest⟩ := foldlM_cons_ok.mp h
      obtain ⟨ha, has⟩ := hok
      exact ih (has m hm) hrest (hstep s a m h0 ha hm)

/-- A condition on the items alone. -/
lemma inTurn_of_forall {p : α → Prop} (s : τ) (h : ∀ a ∈ as, p a) :
    InTurn one (fun _ a => p a) s as := by
  induction as generalizing s with
  | nil => trivial
  | cons a as ih =>
      rw [List.forall_mem_cons] at h
      exact ⟨h.1, fun s' _ => ih s' h.2⟩

/-- The rule for what every item keeps. -/
lemma foldlM_keeps (Inv : τ → Prop) (hstep : ∀ s a s', Inv s → one s a = .ok s' → Inv s')
    (h : as.foldlM one s = .ok s') (h0 : Inv s) : Inv s' := by
  have hall : InTurn one (fun _ _ => True) s as := inTurn_of_forall s fun _ _ => trivial
  exact foldlM_invariant (fun s a s' hs _ hone => hstep s a s' hs hone) hall h h0

/-- A condition that every state gives every item. -/
lemma inTurn_of_step (s : τ) (hall : ∀ s a, ok s a) : InTurn one ok s as := by
  induction as generalizing s with
  | nil => trivial
  | cons a as ih => exact ⟨hall s a, fun s' _ => ih s'⟩

/-- **The rule for what an item settles.**  Each item settles something for
itself, no item unsettles it for another, so all of it is settled at the end. -/
theorem foldlM_settles {P : τ → α → Prop} (hkeep : ∀ s a s' b, one s a = .ok s' → P s b → P s' b)
    (hset : ∀ s a s', one s a = .ok s' → P s' a) (h : as.foldlM one s = .ok s') :
    ∀ a ∈ as, P s' a := by
  induction as generalizing s with
  | nil =>
      intro a ha
      cases ha
  | cons a as ih =>
      obtain ⟨m, hm, hrest⟩ := foldlM_cons_ok.mp h
      rw [List.forall_mem_cons]
      refine ⟨?_, ih hrest⟩
      exact foldlM_keeps (fun s => P s a) (fun s b s' hs hone => hkeep s b s' a hone hs) hrest
        (hset s a m hm)

/-- Conditions that agree wherever an item succeeds. -/
lemma inTurn_congr {P Q : τ → α → Prop} (hPQ : ∀ s a s', one s a = .ok s' → (P s a ↔ Q s a))
    (h : as.foldlM one s = .ok s') : InTurn one P s as ↔ InTurn one Q s as := by
  induction as generalizing s with
  | nil => exact Iff.rfl
  | cons a as ih =>
      obtain ⟨m, hm, hrest⟩ := foldlM_cons_ok.mp h
      have hlater : (∀ s', one s a = .ok s' → InTurn one P s' as) ↔
          ∀ s', one s a = .ok s' → InTurn one Q s' as := by
        constructor
        · intro hall m' hm'
          rw [hm] at hm'
          cases hm'
          exact (ih hrest).mp (hall m hm)
        · intro hall m' hm'
          rw [hm] at hm'
          cases hm'
          exact (ih hrest).mpr (hall m hm)
      exact and_congr (hPQ s a m hm) hlater

/-- A condition that no item changes holds of the items in turn when it holds
of them at the start. -/
lemma inTurn_iff (hstable : ∀ s a s', one s a = .ok s' → ∀ b, ok s' b ↔ ok s b)
    (h : as.foldlM one s = .ok s') : InTurn one ok s as ↔ ∀ a ∈ as, ok s a := by
  induction as generalizing s with
  | nil => simp [InTurn]
  | cons a as ih =>
      obtain ⟨m, hm, hrest⟩ := foldlM_cons_ok.mp h
      have hlater : InTurn one ok m as ↔ ∀ b ∈ as, ok s b := by
        rw [ih hrest]
        constructor
        · intro hall b hb
          exact (hstable s a m hm b).mp (hall b hb)
        · intro hall b hb
          exact (hstable s a m hm b).mpr (hall b hb)
      rw [List.forall_mem_cons, ← hlater]
      constructor
      · rintro ⟨ha, has⟩
        exact ⟨ha, has m hm⟩
      · rintro ⟨ha, has⟩
        refine ⟨ha, ?_⟩
        intro m' hm'
        rw [hm] at hm'
        cases hm'
        exact has

/-- What every item does to the state, whatever the item, the operation does. -/
lemma foldlM_rel {R : τ → τ → Prop} {as : List α} {s s' : τ} (hrefl : ∀ s, R s s)
    (htrans : ∀ {a b c}, R a b → R b c → R a c) (hstep : ∀ s a s', one s a = .ok s' → R s s')
    (h : as.foldlM one s = .ok s') : R s s' := by
  induction as generalizing s with
  | nil =>
      cases h
      exact hrefl _
  | cons a as ih =>
      obtain ⟨m, hm, hrest⟩ := foldlM_cons_ok.mp h
      exact htrans (hstep s a m hm) (ih hrest)

/-- The harm of an operation is the harm of its items, each in turn, as long as
every item keeps what makes earlier harm visible. -/
lemma foldlM_iff {P K : τ → τ → Prop} (hrefl : ∀ s, P s s) (hKrefl : ∀ s, K s s)
    (hKtrans : ∀ {a b c}, K a b → K b c → K a c)
    (hcomp : ∀ {a b c}, K a b → K b c → (P a c ↔ P a b ∧ P b c))
    (hK : ∀ s a s', one s a = .ok s' → K s s')
    (hstep : ∀ s a s', one s a = .ok s' → (P s s' ↔ ok s a)) (h : as.foldlM one s = .ok s') :
    P s s' ↔ InTurn one ok s as := by
  induction as generalizing s with
  | nil =>
      cases h
      exact iff_of_true (hrefl _) trivial
  | cons a as ih =>
      obtain ⟨m, hm, hrest⟩ := foldlM_cons_ok.mp h
      have hlater : K m s' := foldlM_rel hKrefl hKtrans hK hrest
      rw [hcomp (hK s a m hm) hlater, hstep s a m hm, ih hrest]
      constructor
      · rintro ⟨ha, has⟩
        refine ⟨ha, ?_⟩
        intro m' hm'
        rw [hm] at hm'
        cases hm'
        exact has
      · rintro ⟨ha, has⟩
        exact ⟨ha, has m hm⟩

/-- What every item comes to when its turn comes, added up. -/
def sumInTurn (one : τ → α → Except ρ τ) (f : τ → α → ℤ) : τ → List α → ℤ
  | _, [] => 0
  | s, a :: as =>
      f s a + match one s a with
        | .error _ => 0
        | .ok m => sumInTurn one f m as

/-- **The rule for a quantity**, of states every item keeps. -/
theorem foldlM_sum_keeps (μ : τ → ℤ) (Inv : τ → Prop) {f : τ → α → ℤ}
    (hstep : ∀ s a s', Inv s → one s a = .ok s' → Inv s' ∧ μ s' = μ s + f s a)
    (h : as.foldlM one s = .ok s') (h0 : Inv s) : μ s' = μ s + sumInTurn one f s as := by
  induction as generalizing s with
  | nil =>
      cases h
      exact (add_zero _).symm
  | cons a as ih =>
      obtain ⟨m, hm, hrest⟩ := foldlM_cons_ok.mp h
      obtain ⟨hinv, hμ⟩ := hstep s a m h0 hm
      rw [ih hrest hinv, hμ, sumInTurn, hm, add_assoc]

lemma foldlM_sum (μ : τ → ℤ) {f : τ → α → ℤ}
    (hstep : ∀ s a s', one s a = .ok s' → μ s' = μ s + f s a) (h : as.foldlM one s = .ok s') :
    μ s' = μ s + sumInTurn one f s as :=
  foldlM_sum_keeps μ (fun _ => True) (fun s a s' _ hone => ⟨trivial, hstep s a s' hone⟩) h trivial

end InTurn

end Runs
