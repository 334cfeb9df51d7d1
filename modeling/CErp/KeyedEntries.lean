/-
The entries of a finite map: keeping some of them, and how many there are.
-/
import Mathlib.Data.List.AList

namespace AList

open List

variable {κ : Type*} {α : Type*}

/-- The number of entries. -/
def size (s : AList fun _ : κ => α) : ℕ := s.entries.length

/-- The entries that meet a test. -/
def filter (s : AList fun _ : κ => α) (p : κ → α → Bool) : AList fun _ : κ => α where
  entries := s.entries.filter fun e => p e.1 e.2
  nodupKeys := s.nodupKeys.sublist filter_sublist

lemma filter_size_le (s : AList fun _ : κ => α) (p : κ → α → Bool) :
    (s.filter p).size ≤ s.size := length_filter_le _ _

/-- An entry that fails the test is missing afterwards. -/
lemma filter_size_lt {s : AList fun _ : κ => α} {p : κ → α → Bool}
    {e : Sigma fun _ : κ => α} (he : e ∈ s.entries) (hp : p e.1 e.2 = false) :
    (s.filter p).size < s.size := by
  apply length_filter_lt_length_iff_exists.mpr
  refine ⟨e, he, ?_⟩
  rw [hp]
  exact Bool.false_ne_true

variable [DecidableEq κ]

lemma mem_lookup_filter {s : AList fun _ : κ => α} {p : κ → α → Bool} {k : κ} {a : α} :
    (s.filter p).lookup k = some a ↔ s.lookup k = some a ∧ p k a = true := by
  rw [← Option.mem_def, ← Option.mem_def, mem_lookup_iff, mem_lookup_iff]
  exact mem_filter

lemma size_erase_le (s : AList fun _ : κ => α) (k : κ) : (s.erase k).size ≤ s.size :=
  (kerase_sublist k s.entries).length_le

lemma size_insert_le (s : AList fun _ : κ => α) (k : κ) (a : α) :
    (s.insert k a).size ≤ s.size + 1 :=
  Nat.succ_le_succ (s.size_erase_le k)

/-- A key that is there takes its entry with it. -/
lemma size_erase {s : AList fun _ : κ => α} {k : κ} {a : α} (h : s.lookup k = some a) :
    (s.erase k).size + 1 = s.size := by
  have hkey : k ∈ s.entries.keys := by
    apply lookup_isSome.mp
    rw [h]
    rfl
  obtain ⟨a', l₁, l₂, -, hentries, herase⟩ := exists_of_kerase hkey
  show (List.kerase k s.entries).length + 1 = s.entries.length
  rw [herase, hentries, length_append, length_append, length_cons, Nat.add_assoc]

/-- A key that changes its value adds no entry. -/
lemma size_insert_old {s : AList fun _ : κ => α} {k : κ} {a : α} (b : α)
    (h : s.lookup k = some a) : (s.insert k b).size = s.size := size_erase h

end AList
