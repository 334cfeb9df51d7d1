/-
Records with a version, and copies of them that were taken at some time.

Every change of a record gives it a version that no record had before.  A copy
taken at a time is then told from what has changed since by its version alone:
a record is as it was copied, or its version is later than the copy
(`Since.unchanged`).

* `Since.taken`: a copy of what is there now.
* `Since.change`: a change under a later version keeps every copy comparable.
-/
import Mathlib.Tactic.Common

namespace Versions

variable {κ ρ : Type*} (version : ρ → ℕ → Prop)

/-- What became of the records of a copy taken at a time: each is as it was
copied, or gone, or of a later version. -/
def Since (time : ℕ) (copy records : κ → Option ρ) : Prop :=
  ∀ k r, copy k = some r → ∀ r', records k = some r' → r' = r ∨ ∃ n, version r' n ∧ time < n

variable {version}

variable {copy records : κ → Option ρ}

/-- A copy of what is there. -/
lemma Since.taken {time : ℕ} (h : ∀ k r, copy k = some r → records k = some r) :
    Since version time copy records := by
  intro k r hr r' hr'
  left
  rw [h k r hr] at hr'
  exact (Option.some.inj hr').symm

/-- A change that gives what it changes a version later than the copy. -/
lemma Since.change {time now : ℕ} {records' : κ → Option ρ}
    (h : Since version time copy records) (htime : time < now)
    (hchange : ∀ k r', records' k = some r' → records k = some r' ∨ version r' now) :
    Since version time copy records' := by
  intro k r hr r' hr'
  rcases hchange k r' hr' with hold | hnew
  · exact h k r hr r' hold
  · exact .inr ⟨now, hnew, htime⟩

/-- **Compare the version.**  What has a version no later than the copy is as it
was copied. -/
theorem Since.unchanged {time n : ℕ} (hone : ∀ r m n, version r m → version r n → m = n)
    (h : Since version time copy records) {k : κ} {r r' : ρ} (hr : copy k = some r)
    (hr' : records k = some r') (hversion : version r' n) (hn : n ≤ time) : r' = r := by
  rcases h k r hr r' hr' with hsame | ⟨m, hm, hlate⟩
  · exact hsame
  · have := hone r' m n hm hversion
    omega

end Versions
