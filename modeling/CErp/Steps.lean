/-
Walks through numbered bins.

A walk takes a growing sequence of days, each in a bin; the bins grow with the
days.  `Visits` are the bins it is in no later than an end, `Every` the first bin
and every `b`-th one after it, up to that of the end.  The two are the same
(`visits_iff_every`) exactly when the walk starts by the end if it can, never
leaves a bin but for the one `b` further on, and stops no earlier than it must
(`ByStep`).
-/
import Mathlib

namespace Steps

variable (s : ℕ → ℤ) (bin : ℤ → ℤ) (b : ℤ) (e : Option ℤ)

/-- The walk is in a bin no later than the end. -/
def Visits (o : ℤ) : Prop := ∃ k, bin (s k) = o ∧ ∀ x ∈ e, s k ≤ x

/-- A bin is the first one or a multiple of `b` after it, up to that of the end. -/
def Every (first o : ℤ) : Prop := 0 ≤ o - first ∧ b ∣ o - first ∧ ∀ x ∈ e, o ≤ bin x

/-- The walk goes from bin to bin by `b`. -/
structure ByStep : Prop where
  starts : ∀ x ∈ e, bin (s 0) ≤ bin x → s 0 ≤ x
  goes : ∀ k, (∀ x ∈ e, s (k + 1) ≤ x) →
    bin (s (k + 1)) = bin (s k) ∨ bin (s (k + 1)) = bin (s k) + b
  stops : ∀ x ∈ e, ∀ k, s k ≤ x → x < s (k + 1) → bin x < bin (s k) + b

variable {s bin b e}

lemma le_add_of_strictMono (hs : StrictMono s) (k : ℕ) : s 0 + k ≤ s k := by
  induction k with
  | zero => simp
  | succ k ih =>
      have h := hs (Nat.lt_add_one k)
      push_cast
      omega

/-- Every walk leaves its bin. -/
lemma exists_later (hs : StrictMono s) (hbin : Monotone bin) (hfar : ∀ o, ∃ d, o < bin d)
    (o : ℤ) : ∃ k, o < bin (s k) := by
  obtain ⟨d, hd⟩ := hfar o
  refine ⟨(d - s 0).toNat, lt_of_lt_of_le hd (hbin ?_)⟩
  have h := le_add_of_strictMono hs (d - s 0).toNat
  omega

lemma every_of_visits (hs : StrictMono s) (hbin : Monotone bin) (h : ByStep s bin b e)
    {o : ℤ} (ho : Visits s bin e o) : Every bin b e (bin (s 0)) o := by
  obtain ⟨k, rfl, hk⟩ := ho
  refine ⟨?_, ?_, fun x hx => hbin (hk x hx)⟩
  · have hle := hbin (hs.monotone (Nat.zero_le k))
    omega
  · induction k with
    | zero => simp
    | succ k ih =>
        have hbefore : ∀ x ∈ e, s k ≤ x := fun x hx =>
          (hs (Nat.lt_add_one k)).le.trans (hk x hx)
        rcases h.goes k hk with heq | heq
        · rw [heq]
          exact ih hbefore
        · have hsplit : bin (s (k + 1)) - bin (s 0) = bin (s k) - bin (s 0) + b := by omega
          rw [hsplit]
          exact dvd_add (ih hbefore) (dvd_refl b)

/-- From a bin the walk is in, it gets to the one `b` further on, unless the end
comes before. -/
lemma visits_add (hs : StrictMono s) (hbin : Monotone bin) (hfar : ∀ o, ∃ d, o < bin d)
    (h : ByStep s bin b e) {o : ℤ} (ho : Visits s bin e o) (hend : ∀ x ∈ e, o + b ≤ bin x) :
    Visits s bin e (o + b) := by
  obtain ⟨k, rfl, hk⟩ := ho
  -- the first day in a later bin
  have hlater := exists_later hs hbin hfar (bin (s k))
  let t := Nat.find hlater
  have ht : bin (s k) < bin (s t) := Nat.find_spec hlater
  have hpos : 0 < t := by
    by_contra hzero
    have hle := hbin (hs.monotone (Nat.zero_le k))
    rw [Nat.eq_zero_of_not_pos hzero] at ht
    omega
  obtain ⟨t', ht'⟩ := Nat.exists_eq_succ_of_ne_zero hpos.ne'
  have hbefore : bin (s t') ≤ bin (s k) := by
    have hnot := Nat.find_min hlater (show t' < Nat.find hlater by
      show t' < t
      omega)
    omega
  have hkt : k ≤ t' := by
    by_contra hlt
    have hle := hbin (hs.monotone (show t ≤ k by omega))
    omega
  have hsame : bin (s t') = bin (s k) := le_antisymm hbefore (hbin (hs.monotone hkt))
  rw [ht'] at ht
  by_cases hin : ∀ x ∈ e, s (t' + 1) ≤ x
  · refine ⟨t' + 1, ?_, hin⟩
    rcases h.goes t' hin with heq | heq
    · rw [heq, hsame] at ht
      exact absurd ht (lt_irrefl _)
    · rw [heq, hsame]
  · -- the end comes before that day, and so in the bin the walk is in
    exfalso
    rw [not_forall] at hin
    obtain ⟨x, hin⟩ := hin
    rw [Classical.not_imp, not_le] at hin
    obtain ⟨hx, hx'⟩ := hin
    have hpast : ∃ j, x < s j := ⟨t' + 1, hx'⟩
    have hj := Nat.find_spec hpast
    have hjle : Nat.find hpast ≤ t' + 1 := Nat.find_min' hpast hx'
    have hjk : k < Nat.find hpast := by
      by_contra hle
      have hmono := hs.monotone (not_lt.mp hle)
      have hstart := hk x hx
      omega
    obtain ⟨i, hi⟩ := Nat.exists_eq_succ_of_ne_zero (show Nat.find hpast ≠ 0 by omega)
    rw [hi] at hj hjle hjk
    have hile : s i ≤ x := by
      have hnot := Nat.find_min hpast (show i < Nat.find hpast by omega)
      omega
    have hstays : bin (s i) = bin (s k) := by
      have hlow := hbin (hs.monotone (show k ≤ i by omega))
      have hhigh := hbin (hs.monotone (show i ≤ t' by omega))
      omega
    have hstop := h.stops x hx i hile hj
    have hfurther := hend x hx
    omega

lemma visits_of_every (hs : StrictMono s) (hbin : Monotone bin) (hfar : ∀ o, ∃ d, o < bin d)
    (hb : 1 ≤ b) (h : ByStep s bin b e) {o : ℤ} (ho : Every bin b e (bin (s 0)) o) :
    Visits s bin e o := by
  obtain ⟨hnonneg, ⟨j, hj⟩, hend⟩ := ho
  have hj0 : 0 ≤ j := by
    by_contra hneg
    have hmul : b * j ≤ b * (-1) := Int.mul_le_mul_of_nonneg_left (by omega) (by omega)
    omega
  obtain ⟨n, rfl⟩ := Int.eq_ofNat_of_zero_le hj0
  clear hj0 hnonneg
  induction n generalizing o with
  | zero =>
      have ho : o = bin (s 0) := by
        simp at hj
        omega
      subst ho
      exact ⟨0, rfl, fun x hx => h.starts x hx (hend x hx)⟩
  | succ n ih =>
      have hprev : o - b - bin (s 0) = b * n := by
        push_cast at hj
        rw [mul_add, mul_one] at hj
        omega
      have hvisits := ih (fun x hx => by have := hend x hx; omega) hprev
      have hnext := visits_add hs hbin hfar h hvisits (fun x hx => by
        rw [sub_add_cancel]
        exact hend x hx)
      rwa [sub_add_cancel] at hnext

/-- **When the bins of a walk are every `b`-th one.** -/
theorem visits_iff_every (hs : StrictMono s) (hbin : Monotone bin) (hfar : ∀ o, ∃ d, o < bin d)
    (hb : 1 ≤ b) :
    (∀ o, Every bin b e (bin (s 0)) o ↔ Visits s bin e o) ↔ ByStep s bin b e := by
  constructor
  · intro hall
    have hvisited : ∀ {k}, (∀ x ∈ e, s k ≤ x) → Every bin b e (bin (s 0)) (bin (s k)) :=
      fun {k} hk => (hall _).mpr ⟨k, rfl, hk⟩
    -- a bin that is further on is visited later
    have hindex : ∀ {i k}, bin (s k) < bin (s i) → k + 1 ≤ i := by
      intro i k hlt
      by_contra hnot
      have hle := hbin (hs.monotone (show i ≤ k by omega))
      omega
    refine ⟨?_, ?_, ?_⟩
    · intro x hx hle
      have hfirst : Every bin b e (bin (s 0)) (bin (s 0)) := by
        refine ⟨by omega, by simp, ?_⟩
        intro y hy
        rw [Option.mem_unique hy hx]
        exact hle
      obtain ⟨k, -, hk⟩ := (hall _).mp hfirst
      exact (hs.monotone (Nat.zero_le k)).trans (hk x hx)
    · intro k hk
      have hbefore : ∀ x ∈ e, s k ≤ x := fun x hx => (hs (Nat.lt_add_one k)).le.trans (hk x hx)
      obtain ⟨-, hdvd, hend⟩ := hvisited hk
      obtain ⟨hnonneg, hdvd', -⟩ := hvisited hbefore
      have hle := hbin (hs (Nat.lt_add_one k)).le
      have hstep : b ∣ bin (s (k + 1)) - bin (s k) := by
        have hsub := dvd_sub hdvd hdvd'
        rwa [sub_sub_sub_cancel_right] at hsub
      rcases hle.eq_or_lt with heq | hlt
      · exact .inl heq.symm
      right
      have hge : b ≤ bin (s (k + 1)) - bin (s k) := Int.le_of_dvd (by omega) hstep
      have hnext : Every bin b e (bin (s 0)) (bin (s k) + b) := by
        refine ⟨by omega, ?_, ?_⟩
        · rw [add_sub_right_comm]
          exact dvd_add hdvd' (dvd_refl b)
        · intro x hx
          have hle := hend x hx
          omega
      obtain ⟨i, hi, -⟩ := (hall _).mp hnext
      have hki := hindex (show bin (s k) < bin (s i) by omega)
      have hle := hbin (hs.monotone hki)
      omega
    · intro x hx k hk hlt
      by_contra hnot
      have hall_e : ∀ y ∈ e, y = x := fun y hy => Option.mem_unique hy hx
      obtain ⟨hnonneg, hdvd, -⟩ := hvisited (k := k) (fun y hy => by rw [hall_e y hy]; exact hk)
      have hnext : Every bin b e (bin (s 0)) (bin (s k) + b) := by
        refine ⟨by omega, ?_, ?_⟩
        · rw [add_sub_right_comm]
          exact dvd_add hdvd (dvd_refl b)
        · intro y hy
          rw [hall_e y hy]
          omega
      obtain ⟨i, hi, hin⟩ := (hall _).mp hnext
      have hki := hindex (show bin (s k) < bin (s i) by omega)
      have hle := hs.monotone hki
      have hlast := hin x hx
      omega
  · intro h o
    exact ⟨visits_of_every hs hbin hfar hb h, every_of_visits hs hbin h⟩

end Steps
