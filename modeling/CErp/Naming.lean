/-
Names, and the things they belong to.

A name means the thing it belongs to while that thing is live.  Operations hand
names from one thing to another; `Preserves` says that every name still means what
it meant, or what became of that.

* `preserves_take_iff`: one thing takes some names over;
* `preserves_merge_iff`: one thing becomes another, with all its names.
-/
import Mathlib.Tactic.Common

/-- Which name belongs to which thing, and which things are live. -/
structure Naming (ν κ : Type*) where
  Owns : ν → κ → Prop
  Live : κ → Prop

namespace Naming

variable {ν κ : Type*} {N N' : Naming ν κ}

/-- A name belongs to one thing. -/
def Unambiguous (N : Naming ν κ) : Prop := ∀ n j k, N.Owns n j → N.Owns n k → j = k

def Means (N : Naming ν κ) (n : ν) (k : κ) : Prop := N.Owns n k ∧ N.Live k

/-- Every name means what became of the thing it meant. -/
def Preserves (N N' : Naming ν κ) (became : κ → κ) : Prop :=
  ∀ n k, N.Means n k → N'.Means n (became k)

/-- A thing takes names over: that is harmless just when they meant nothing else. -/
lemma preserves_take_iff {taken : ν → Prop} {k : κ} (hone : N'.Unambiguous)
    (htaken : ∀ n, taken n → N'.Owns n k) (hrest : ∀ n j, ¬ taken n → N.Owns n j → N'.Owns n j)
    (hlive : ∀ j, N.Live j → N'.Live j) :
    N.Preserves N' id ↔ ∀ n j, taken n → N.Means n j → j = k := by
  constructor
  · intro h n j hn hmeans
    exact hone n j k (h n j hmeans).1 (htaken n hn)
  · rintro h n j ⟨hown, hj⟩
    refine ⟨?_, hlive j hj⟩
    by_cases hn : taken n
    · obtain rfl := h n j hn ⟨hown, hj⟩
      exact htaken n hn
    · exact hrest n j hn hown

/-- A thing becomes another: that is harmless just when the other is live, or no
name meant the first. -/
lemma preserves_merge_iff [DecidableEq κ] {a b : κ}
    (hown : ∀ n j, N.Owns n j → N'.Owns n (if j = a then b else j))
    (hlive : ∀ j, j ≠ a → N.Live j → N'.Live j) :
    N.Preserves N' (fun j => if j = a then b else j) ↔ ((∃ n, N.Means n a) → N'.Live b) := by
  constructor
  · rintro h ⟨n, hmeans⟩
    have hb := (h n a hmeans).2
    dsimp only at hb
    rw [if_pos rfl] at hb
    exact hb
  · rintro h n j ⟨hj, hjlive⟩
    refine ⟨hown n j hj, ?_⟩
    dsimp only
    split
    · next hja =>
        subst hja
        exact h ⟨n, hj, hjlive⟩
    · next hja => exact hlive j hja hjlive

end Naming
