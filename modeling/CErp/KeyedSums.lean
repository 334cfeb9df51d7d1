/-
Sums over a finite map: a quantity added up over the entries, and what putting
an entry in does to the sum.
-/
import Mathlib.Algebra.BigOperators.Group.List.Basic
import Mathlib.Data.List.AList
import Mathlib.Tactic.Ring

namespace AList

open List

variable {κ : Type*} [DecidableEq κ] {α : Type*}

/-- A quantity added up over the entries. -/
def sumOver (s : AList fun _ : κ => α) (f : κ → α → ℤ) : ℤ :=
  (s.entries.map fun e => f e.1 e.2).sum

variable (s : AList fun _ : κ => α) (f : κ → α → ℤ)

omit [DecidableEq κ] in
@[simp] lemma sumOver_empty : (∅ : AList fun _ : κ => α).sumOver f = 0 := rfl

/-- A new key adds its part. -/
lemma sumOver_insert_new {k : κ} (b : α) (h : s.lookup k = none) :
    (s.insert k b).sumOver f = s.sumOver f + f k b := by
  rw [sumOver, entries_insert_of_notMem (lookup_eq_none.mp h), map_cons, sum_cons, add_comm]
  rfl

/-- A key that is there changes its part. -/
lemma sumOver_insert_old {k : κ} {a : α} (b : α) (h : s.lookup k = some a) :
    (s.insert k b).sumOver f = s.sumOver f - f k a + f k b := by
  have hkey : k ∈ s.entries.keys := by
    apply lookup_isSome.mp
    rw [h]
    rfl
  obtain ⟨a', l₁, l₂, hk, hentries, herase⟩ := exists_of_kerase hkey
  -- the entry that goes is the one that is looked up
  have hmem : (⟨k, a'⟩ : Sigma fun _ : κ => α) ∈ s.entries := by
    rw [hentries]
    exact mem_append_right _ mem_cons_self
  have heq : a' = a := by
    have hlook := mem_lookup_iff.mpr hmem
    rw [h] at hlook
    exact (Option.some.inj hlook).symm
  rw [sumOver, entries_insert, herase, sumOver, hentries, heq]
  simp only [map_cons, map_append, sum_cons, sum_append]
  ring

end AList
