/-
Work that makes more work: `fire s j` is the state after one piece of work and
the work that came up in it, which is done, one piece after the other, before
anything else is.  `run n` lets the work nest at most `n` deep and has no result
where it would nest deeper.

* `run_pending`: an invariant of a state together with the work still to do,
  kept by each single piece, holds of what a run leaves and the work after it;
* `run_finishes`: work that fits in the levels there are is done.
-/
import Mathlib.Tactic.Common

namespace Cascades

variable {σ ι : Type*} (fire : σ → ι → σ × List ι)

/-- A piece of work and all that comes of it. -/
def run : ℕ → σ → ι → Option σ
  | 0, _, _ => none
  | n + 1, s, j => (fire s j).2.foldlM (run n) (fire s j).1

/-- Pieces of work, one after the other. -/
def runAll (n : ℕ) (s : σ) (js : List ι) : Option σ := js.foldlM (run fire n) s

variable {fire}

variable {js : List ι} {n : ℕ}

lemma runAll_cons {s s' : σ} {j : ι} : runAll fire n s (j :: js) = some s' ↔
      ∃ m, run fire n s j = some m ∧ runAll fire n m js = some s' := by
  unfold runAll
  rw [List.foldlM_cons]
  exact Option.bind_eq_some_iff

section Pending

variable {I : σ → List ι → Prop}

lemma runAll_pending_of_run
    (hrun : ∀ {s j s'}, run fire n s j = some s' → ∀ P, I s (j :: P) → I s' P) {s s' : σ}
    (h : runAll fire n s js = some s') (P : List ι) (hs : I s (js ++ P)) : I s' P := by
  induction js generalizing s with
  | nil =>
      cases h
      exact hs
  | cons j js ih =>
      obtain ⟨m, hm, hrest⟩ := runAll_cons.mp h
      exact ih hrest (hrun hm (js ++ P) hs)

/-- **The rule of pending work.** -/
theorem run_pending
    (hfire : ∀ s j P, I s (j :: P) → I (fire s j).1 ((fire s j).2 ++ P)) (n : ℕ) :
    ∀ {s j s'}, run fire n s j = some s' → ∀ P, I s (j :: P) → I s' P := by
  -- the induction is on the levels: what a piece makes runs one level down
  induction n with
  | zero =>
      intro s j s' h
      cases h
  | succ n ih =>
      intro s j s' h P hs
      exact runAll_pending_of_run ih h P (hfire s j P hs)

lemma runAll_pending (hfire : ∀ s j P, I s (j :: P) → I (fire s j).1 ((fire s j).2 ++ P))
    {s s' : σ} (h : runAll fire n s js = some s') (hs : I s js) : I s' [] := by
  refine runAll_pending_of_run (run_pending hfire n) h [] ?_
  rw [List.append_nil]
  exact hs

end Pending

section Finishing

variable {K : σ → Prop} {fits : ℕ → ι → Prop}

lemma runAll_finishes_of_run
    (hrun : ∀ s j, K s → fits n j → ∃ s', run fire n s j = some s' ∧ K s') :
    ∀ s, K s → (∀ j ∈ js, fits n j) → ∃ s', runAll fire n s js = some s' ∧ K s' := by
  induction js with
  | nil => exact fun s hs _ => ⟨s, rfl, hs⟩
  | cons j js ih =>
      intro s hs hfits
      obtain ⟨m, hm, hk⟩ := hrun s j hs (hfits j List.mem_cons_self)
      obtain ⟨s', hs', hk'⟩ := ih m hk fun j hj => hfits j (List.mem_cons_of_mem _ hj)
      exact ⟨s', runAll_cons.mpr ⟨m, hm, hs'⟩, hk'⟩

/-- **Work that fits is done.**  What fits makes only work that fits one level
down. -/
theorem run_finishes
    (hfits : ∀ n s j, K s → fits n j → ∃ m, n = m + 1 ∧ K (fire s j).1 ∧
      ∀ j' ∈ (fire s j).2, fits m j') (n : ℕ) :
    ∀ s j, K s → fits n j → ∃ s', run fire n s j = some s' ∧ K s' := by
  induction n with
  | zero =>
      intro s j hs hj
      obtain ⟨m, hm, -⟩ := hfits 0 s j hs hj
      exact absurd hm (Nat.succ_ne_zero m).symm
  | succ n ih =>
      intro s j hs hj
      obtain ⟨m, hm, hk, hnew⟩ := hfits (n + 1) s j hs hj
      obtain rfl : n = m := Nat.succ.inj hm
      exact runAll_finishes_of_run ih _ hk hnew

lemma runAll_finishes (hfits : ∀ n s j, K s → fits n j → ∃ m, n = m + 1 ∧ K (fire s j).1 ∧
      ∀ j' ∈ (fire s j).2, fits m j')
    {s : σ} (hs : K s) (hjs : ∀ j ∈ js, fits n j) : ∃ s', runAll fire n s js = some s' ∧ K s' :=
  runAll_finishes_of_run (run_finishes hfits n) s hs hjs

end Finishing

end Cascades
