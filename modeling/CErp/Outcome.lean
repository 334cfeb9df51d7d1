/-
Taking a computation that may fail apart, one step at a time: from the result
of a sequence to the results of its parts.

What a computation can fail with.

`FailsOnly p x` says that every failure of `x` meets `p`.  The rules go through a
computation step by step: a sequence fails only with what its parts fail with.
-/
import Mathlib.Data.List.Forall2

namespace Outcome

universe u

variable {ε : Type*} {α β : Type u}

/-- A sequence succeeds when its parts do, one after the other. -/
lemma bind_ok_iff {x : Except ε α} {f : α → Except ε β} {b : β} :
    (x >>= f) = .ok b ↔ ∃ a, x = .ok a ∧ f a = .ok b := by
  rcases x with e | a
  · constructor
    · intro h
      cases h
    · rintro ⟨a, h, -⟩
      cases h
  · constructor
    · intro h
      exact ⟨a, rfl, h⟩
    · rintro ⟨a', h, hb⟩
      cases h
      exact hb

lemma map_ok_iff {x : Except ε α} {f : α → β} {b : β} :
    x.map f = .ok b ↔ ∃ a, x = .ok a ∧ f a = b := by
  rcases x with e | a
  · simp [Except.map]
  · simp [Except.map]

lemma pure_ok_iff {a b : α} : (pure a : Except ε α) = .ok b ↔ a = b := by
  constructor
  · intro h
    cases h
    rfl
  · rintro rfl
    rfl

/-- A value that is given under a condition. -/
lemma given_ok_iff {p : Prop} [Decidable p] {e : ε} {a b : α} :
    (if p then .ok a else .error e : Except ε α) = .ok b ↔ p ∧ a = b := by
  split
  · next h =>
      rw [Except.ok.injEq]
      exact ⟨fun hb => ⟨h, hb⟩, fun hb => hb.2⟩
  · next h =>
      constructor
      · intro hb
        cases hb
      · intro hb
        exact absurd hb.1 h

/-- Items are computed when each of them is. -/
lemma mapM_ok_iff {δ : Type*} {f : δ → Except ε β} {as : List δ} {bs : List β} :
    as.mapM f = .ok bs ↔ List.Forall₂ (fun a b => f a = .ok b) as bs := by
  induction as generalizing bs with
  | nil =>
      rw [List.mapM_nil, pure_ok_iff, List.forall₂_nil_left_iff]
      exact eq_comm
  | cons a as ih =>
      rw [List.mapM_cons, bind_ok_iff, List.forall₂_cons_left_iff]
      constructor
      · rintro ⟨b, hb, h⟩
        obtain ⟨bs', hbs, h⟩ := bind_ok_iff.mp h
        exact ⟨b, bs', hb, ih.mp hbs, (pure_ok_iff.mp h).symm⟩
      · rintro ⟨b, bs', hb, hbs, rfl⟩
        exact ⟨b, hb, bind_ok_iff.mpr ⟨bs', ih.mpr hbs, rfl⟩⟩

lemma exists_mapM_ok_iff {δ : Type*} {f : δ → Except ε β} {as : List δ} :
    (∃ bs, as.mapM f = .ok bs) ↔ ∀ a ∈ as, ∃ b, f a = .ok b := by
  simp only [mapM_ok_iff]
  induction as with
  | nil => simp
  | cons a as ih =>
      rw [List.forall_mem_cons, ← ih]
      constructor
      · rintro ⟨_, hb | ⟨hb, hbs⟩⟩
        exact ⟨⟨_, hb⟩, _, hbs⟩
      · rintro ⟨⟨b, hb⟩, bs, hbs⟩
        exact ⟨b :: bs, .cons hb hbs⟩

/-- What is computed is computed of one of the items. -/
lemma exists_of_mem_mapM {δ : Type*} {f : δ → Except ε β} {as : List δ} {bs : List β} {b : β}
    (h : as.mapM f = .ok bs) (hb : b ∈ bs) : ∃ a ∈ as, f a = .ok b := by
  have hall := mapM_ok_iff.mp h
  clear h
  induction hall with
  | nil => cases hb
  | cons ha _ ih =>
      obtain rfl | hb := List.mem_cons.mp hb
      · exact ⟨_, List.mem_cons_self, ha⟩
      · obtain ⟨a, hmem, hab⟩ := ih hb
        exact ⟨a, List.mem_cons_of_mem _ hmem, hab⟩

/-- Each item is computed where all are. -/
lemma exists_mem_mapM {δ : Type*} {f : δ → Except ε β} {as : List δ} {bs : List β} {a : δ}
    (h : as.mapM f = .ok bs) (ha : a ∈ as) : ∃ b ∈ bs, f a = .ok b := by
  have hall := mapM_ok_iff.mp h
  clear h
  induction hall with
  | nil => cases ha
  | cons hb _ ih =>
      obtain rfl | ha := List.mem_cons.mp ha
      · exact ⟨_, List.mem_cons_self, hb⟩
      · obtain ⟨b, hmem, hab⟩ := ih ha
        exact ⟨b, List.mem_cons_of_mem _ hmem, hab⟩

lemma exists_ok {x : Except ε α} (h : x.isOk = true) : ∃ a, x = .ok a := by
  rcases x with e | a
  · cases h
  · exact ⟨a, rfl⟩

lemma toOption_eq_some_iff {x : Except ε α} {a : α} : x.toOption = some a ↔ x = .ok a := by
  rcases x with e | b
  · simp [Except.toOption]
  · simp [Except.toOption]

/-- Continue only when a condition holds. -/
def require (p : Prop) [Decidable p] (e : ε) : Except ε Unit := if p then .ok () else .error e

lemma require_ok_iff {p : Prop} [Decidable p] {e : ε} {u : Unit} : require p e = .ok u ↔ p := by
  unfold require
  split
  · next h => exact ⟨fun _ => h, fun _ => rfl⟩
  · next h =>
      constructor
      · intro hu
        cases hu
      · intro hp
        exact absurd hp h

/-- A check of every element passes when each of them passes. -/
lemma forM_ok_iff {as : List α} {f : α → Except ε PUnit} :
    as.forM f = .ok ⟨⟩ ↔ ∀ a ∈ as, f a = .ok ⟨⟩ := by
  induction as with
  | nil => simp [List.forM, pure, Except.pure]
  | cons a as ih =>
      rw [List.forall_mem_cons, ← ih]
      show (f a >>= fun _ => as.forM f) = .ok ⟨⟩ ↔ _
      rw [bind_ok_iff]
      constructor
      · rintro ⟨⟨⟩, ha, has⟩
        exact ⟨ha, has⟩
      · rintro ⟨ha, has⟩
        exact ⟨⟨⟩, ha, has⟩

end Outcome

namespace Outcome

universe u

variable {ε : Type*} {α β : Type u} {p : ε → Prop}

/-- Every failure of a computation meets a condition. -/
def FailsOnly (p : ε → Prop) (x : Except ε α) : Prop := ∀ e, x = .error e → p e

lemma failsOnly_ok (a : α) : FailsOnly p (.ok a : Except ε α) := by
  intro e h
  cases h

lemma failsOnly_error {e : ε} (h : p e) : FailsOnly p (.error e : Except ε α) := by
  intro e' he
  cases he
  exact h

/-- **The rule for a sequence.** -/
theorem failsOnly_bind {x : Except ε α} {f : α → Except ε β} (hx : FailsOnly p x)
    (hf : ∀ a, FailsOnly p (f a)) : FailsOnly p (x >>= f) := by
  rcases x with e | a
  · exact failsOnly_error (hx e rfl)
  · exact hf a

lemma failsOnly_map {x : Except ε α} (f : α → β) (hx : FailsOnly p x) : FailsOnly p (x.map f) := by
  rcases x with e | a
  · exact failsOnly_error (hx e rfl)
  · exact failsOnly_ok (f a)

lemma failsOnly_require {q : Prop} [Decidable q] {e : ε} (h : p e) :
    FailsOnly p (require q e) := by
  unfold require
  split
  · exact failsOnly_ok ()
  · exact failsOnly_error h

lemma failsOnly_foldlM {σ : Type u} {δ : Type*} {f : σ → δ → Except ε σ} (as : List δ) (s : σ)
    (hf : ∀ s a, FailsOnly p (f s a)) : FailsOnly p (as.foldlM f s) := by
  induction as generalizing s with
  | nil => exact failsOnly_ok s
  | cons a as ih =>
      rw [List.foldlM_cons]
      exact failsOnly_bind (hf s a) fun s' => ih s'

lemma failsOnly_mapM {δ : Type*} {f : δ → Except ε β} (as : List δ)
    (hf : ∀ a, FailsOnly p (f a)) : FailsOnly p (as.mapM f) := by
  induction as with
  | nil => exact failsOnly_ok []
  | cons a as ih =>
      rw [List.mapM_cons]
      exact failsOnly_bind (hf a) fun b => failsOnly_bind ih fun bs => failsOnly_ok (b :: bs)

end Outcome
