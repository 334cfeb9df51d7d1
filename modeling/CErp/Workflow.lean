/-
Rows of a table that move through the states of a workflow.

`step` moves the rows of a list from some states to another and fails as a whole:
`step_ok` says what the table is then, and that every row was in one of the states.
-/
import CErp.Outcome
import CErp.Table

namespace Workflow

variable {α σ ρ : Type} [DecidableEq σ] (state : α → σ) (moved : σ → α → α) (missing refusal : ρ)
variable (source : List σ) (target : σ)

def stepOne (t : Table α) (id : ℤ) : Except ρ (Table α) :=
  match t.get? id with
  | none => .error missing
  | some a => if state a ∈ source then .ok (t.modify id (moved target)) else .error refusal

def step (t : Table α) (ids : List ℤ) : Except ρ (Table α) :=
  ids.foldlM (stepOne state moved missing refusal source target) t

variable {state moved missing refusal source target} {t t' : Table α} {id : ℤ} {ids : List ℤ}

lemma stepOne_ok (h : stepOne state moved missing refusal source target t id = .ok t') :
    t' = t.modify id (moved target) ∧ ∃ a, t.get? id = some a ∧ state a ∈ source := by
  unfold stepOne at h
  split at h
  · cases h
  · next a ha =>
      split at h
      · next hstate =>
          cases h
          exact ⟨rfl, a, ha, hstate⟩
      · cases h

/-- **Inversion of `step`**, where a row that has been moved is not changed again. -/
theorem step_ok (hidem : ∀ a, moved target (moved target a) = moved target a)
    (h : step state moved missing refusal source target t ids = .ok t') :
    t' = t.updateWhere (fun i _ => ids.contains i) (moved target) ∧
      ∀ i ∈ ids, ∃ a, t.get? i = some a ∧ state a ∈ source := by
  unfold step at h
  induction ids generalizing t with
  | nil =>
      cases h
      refine ⟨(Table.update_eq_self ?_).symm, ?_⟩
      · intro r _
        rfl
      · intro i hi
        cases hi
  | cons id ids ih =>
      rw [List.foldlM_cons] at h
      obtain ⟨m, hm, h⟩ := Outcome.bind_ok_iff.mp h
      obtain ⟨rfl, hfirst⟩ := stepOne_ok hm
      obtain ⟨rfl, hrest⟩ := ih h
      constructor
      · apply Table.ext
        · show List.map _ (List.map _ t.rows) = List.map _ t.rows
          rw [List.map_map]
          apply List.map_congr_left
          rintro ⟨i, a⟩ -
          dsimp only [Function.comp]
          by_cases hi : i = id
          · rw [hi]
            simp only [List.contains_cons, beq_self_eq_true, Bool.true_or, if_true, hidem, ite_self]
          · simp only [List.contains_cons, beq_eq_false_iff_ne.mpr hi, Bool.false_or,
              Bool.false_eq_true, if_false]
        · rfl
      · intro i hi
        rcases List.mem_cons.mp hi with rfl | hi
        · exact hfirst
        · by_cases heq : i = id
          · rw [heq]
            exact hfirst
          · obtain ⟨a, ha, hstate⟩ := hrest i hi
            rw [Table.get?_modify_of_ne _ _ heq] at ha
            exact ⟨a, ha, hstate⟩

end Workflow
