/-
How many events fall into a window of time.

A log holds the moments of events, the latest first.  `recent w now log` counts the
ones of the last `w` ticks; `AtMost k w log` bounds the events of every window of `w`
ticks that starts at an event.

* `recent_le_of_le`: as time goes by, events only leave the window;
* `recent_eq_zero_iff`: nothing is recent exactly when all is past;
* `AtMost.cons`: an event that is the `k`-th recent one at most keeps the bound.
-/
import Mathlib.Algebra.Order.Group.Int
import Mathlib.Data.List.Basic

namespace SlidingWindow

/-- All events are at least `w` ticks ago. -/
def Past (w now : ℤ) (log : List ℤ) : Prop := ∀ t ∈ log, w ≤ now - t

instance (w now : ℤ) (log : List ℤ) : Decidable (Past w now log) :=
  inferInstanceAs (Decidable (∀ t ∈ log, w ≤ now - t))

/-- The events less than `w` ticks ago. -/
def recent (w now : ℤ) (log : List ℤ) : ℕ := log.countP fun t => decide (now - t < w)

/-- The events of the window of `w` ticks that starts at `start`. -/
def within (w start : ℤ) (log : List ℤ) : ℕ :=
  log.countP fun t => decide (start ≤ t ∧ t < start + w)

/-- No window that starts at an event has more than `k` events. -/
def AtMost (k : ℕ) (w : ℤ) (log : List ℤ) : Prop := ∀ start ∈ log, within w start log ≤ k

instance (k : ℕ) (w : ℤ) (log : List ℤ) : Decidable (AtMost k w log) :=
  inferInstanceAs (Decidable (∀ start ∈ log, within w start log ≤ k))

variable {k : ℕ} {w now later t : ℤ} {log : List ℤ}

lemma recent_eq_zero_iff : recent w now log = 0 ↔ Past w now log := by
  unfold recent Past
  rw [List.countP_eq_zero]
  apply forall₂_congr
  intro t _
  rw [decide_eq_true_iff, not_lt]

lemma recent_le_of_le (h : now ≤ later) : recent w later log ≤ recent w now log := by
  apply List.countP_mono_left
  intro t _ ht
  have hlater : later - t < w := of_decide_eq_true ht
  exact decide_eq_true (by omega)

lemma recent_cons_self (h : 0 < w) : recent w t (t :: log) = recent w t log + 1 := by
  apply List.countP_cons_of_pos
  exact decide_eq_true (by omega)

/-- A window that reaches the latest event has recent ones only. -/
lemma within_le_recent {start : ℤ} (hstart : t < start + w) :
    within w start log ≤ recent w t log := by
  apply List.countP_mono_left
  intro s _ hs
  have hin : start ≤ s ∧ s < start + w := of_decide_eq_true hs
  exact decide_eq_true (by omega)

lemma within_cons_of_past {start : ℤ} (hstart : start + w ≤ t) :
    within w start (t :: log) = within w start log := by
  apply List.countP_cons_of_neg
  intro h
  have hin : start ≤ t ∧ t < start + w := of_decide_eq_true h
  omega

/-- One more event, over all windows wherever they start. -/
lemma within_cons_le (h : ∀ start, within w start log ≤ k)
    (hrecent : recent w t (t :: log) ≤ k) (start : ℤ) :
    within w start (t :: log) ≤ k := by
  rcases lt_or_ge t (start + w) with hreach | hpast
  · exact (within_le_recent hreach).trans hrecent
  · rw [within_cons_of_past hpast]
    exact h start

/-- **One more event.** -/
theorem AtMost.cons (h : AtMost k w log) (hrecent : recent w t (t :: log) ≤ k) (hw : 0 < w) :
    AtMost k w (t :: log) := by
  intro start hmem
  rcases lt_or_ge t (start + w) with hreach | hpast
  · exact (within_le_recent hreach).trans hrecent
  · -- the window has closed before the new event, so it starts at an older one
    rw [within_cons_of_past hpast]
    rcases List.mem_cons.mp hmem with rfl | hold
    · omega
    · exact h start hold

end SlidingWindow
