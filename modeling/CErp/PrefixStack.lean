/-
A machine that reads a list of tokens in prefix notation from right to left:
every token pops as many operands as its arity from a stack and pushes the
value built from them.

Three facts about such a machine carry every result on concatenated programs:

* `runOn_append`: the right half runs first, the left half on its stack;
* `runOn_frame`: a program that runs on its own stack runs the same way on
  top of any other stack and leaves that one as it was;
* `runOn_intact_iff`: when the built values strictly contain their operands,
  a program leaves the stack below it intact *only if* it runs on its own.
  The other programs have taken at least one value from below (`Absorbed`),
  and no later token can put that value back.

Counting tokens and operands tells where a program ends: `length_runOn` is the
height of the stack after a run, `runOn_of_arity` says that nothing but the
arities decides whether a program runs, and `runOn_replicate` collapses a stack
with one binary token.
-/
import Mathlib

namespace PrefixStack

open List

/-- What a token needs and what it builds.  `build t` is applied to the popped
operands, the one on top of the stack first. -/
structure Signature (τ ν ε : Type*) where
  arity : τ → Except ε ℕ
  build : τ → List ν → ν
  short : τ → ε

variable {τ ν ε : Type*} (S : Signature τ ν ε)

/-! ### Running a program -/

/-- One token against a stack, the head of the list being the top. -/
def Signature.step (t : τ) (stk : List ν) : Except ε (List ν) :=
  match S.arity t with
  | .error e => .error e
  | .ok n =>
      if n ≤ stk.length then .ok (S.build t (stk.take n) :: stk.drop n)
      else .error (S.short t)

/-- A whole program against a stack, the last token first. -/
def Signature.runOn : List τ → List ν → Except ε (List ν)
  | [], stk => .ok stk
  | t :: ts, stk => (Signature.runOn ts stk).bind (S.step t)

/-- A program on the empty stack. -/
def Signature.run (ts : List τ) : Except ε (List ν) := S.runOn ts []

@[simp] lemma runOn_nil (stk : List ν) : S.runOn [] stk = .ok stk := rfl

lemma runOn_cons (t : τ) (ts : List τ) (stk : List ν) :
    S.runOn (t :: ts) stk = (S.runOn ts stk).bind (S.step t) := rfl

lemma runOn_append (us vs : List τ) (stk : List ν) :
    S.runOn (us ++ vs) stk = (S.runOn vs stk).bind (S.runOn us) := by
  induction us with
  | nil =>
      rw [nil_append]
      rcases S.runOn vs stk with e | s <;> rfl
  | cons u us ih =>
      rw [cons_append, runOn_cons, ih]
      rcases S.runOn vs stk with e | s <;> rfl

/-! ### Inversion -/

variable {S}

variable {s stk : List ν}

variable {t : τ}

/-- Everything a successful step does. -/
lemma step_ok (h : S.step t stk = .ok s) : ∃ n, S.arity t = .ok n ∧ n ≤ stk.length ∧
      s = S.build t (stk.take n) :: stk.drop n := by
  unfold Signature.step at h
  rcases e : S.arity t with err | n
  · rw [e] at h; cases h
  · rw [e] at h
    by_cases hn : n ≤ stk.length
    · simp only [hn, if_true, Except.ok.injEq] at h
      exact ⟨n, rfl, hn, h.symm⟩
    · simp [hn] at h

lemma step_of_arity {n : ℕ} (ha : S.arity t = .ok n) (hn : n ≤ stk.length) :
    S.step t stk = .ok (S.build t (stk.take n) :: stk.drop n) := by
  simp [Signature.step, ha, hn]

lemma runOn_cons_ok {ts : List τ} (h : S.runOn (t :: ts) stk = .ok s) :
    ∃ m, S.runOn ts stk = .ok m ∧ S.step t m = .ok s := by
  rw [runOn_cons] at h
  rcases e : S.runOn ts stk with err | m
  · rw [e] at h; cases h
  · rw [e] at h
    exact ⟨m, rfl, h⟩

variable {us : List τ}

lemma runOn_append_ok {vs : List τ} (h : S.runOn (us ++ vs) stk = .ok s) :
    ∃ m, S.runOn vs stk = .ok m ∧ S.runOn us m = .ok s := by
  rw [runOn_append] at h
  rcases e : S.runOn vs stk with err | m
  · rw [e] at h; cases h
  · rw [e] at h
    exact ⟨m, rfl, h⟩

/-! ### The frame rule -/

lemma step_frame (h : S.step t stk = .ok s) (base : List ν) :
    S.step t (stk ++ base) = .ok (s ++ base) := by
  obtain ⟨n, ha, hn, rfl⟩ := step_ok h
  rw [step_of_arity ha (by rw [length_append]; omega),
    take_append_of_le_length hn, drop_append_of_le_length hn]
  rfl

/-- **Frame rule.**  What runs on a stack of its own runs on top of any other
stack and leaves that one untouched. -/
theorem runOn_frame (h : S.runOn us stk = .ok s) (base : List ν) :
    S.runOn us (stk ++ base) = .ok (s ++ base) := by
  induction us generalizing s with
  | nil =>
      simp only [runOn_nil, Except.ok.injEq] at h
      rw [h, runOn_nil]
  | cons u us ih =>
      obtain ⟨m, hm, hs⟩ := runOn_cons_ok h
      rw [runOn_cons, ih hm]
      exact step_frame hs base

lemma runOn_of_run {pre : List ν} (h : S.run us = .ok pre) (base : List ν) :
    S.runOn us base = .ok (pre ++ base) := by
  have hnil : S.runOn us [] = .ok pre := h
  exact runOn_frame hnil base

/-- Tokens that take nothing are built one by one. -/
lemma run_of_arity_zero {ts : List τ} (h : ∀ t ∈ ts, S.arity t = .ok 0) :
    S.run ts = .ok (ts.map fun t => S.build t []) := by
  induction ts with
  | nil => rfl
  | cons t ts ih =>
      have hrest := ih fun u hu => h u (mem_cons_of_mem t hu)
      rw [Signature.run] at hrest ⊢
      rw [runOn_cons, hrest]
      exact step_of_arity (h t mem_cons_self) (Nat.zero_le _)

variable {base : List ν}

/-- What holds of the stack after a run holds of the stack before it, where no
value has it without its operands. -/
lemma forall_mem_of_runOn {p : ν → Prop}
    (hbuild : ∀ {t n operands}, S.arity t = .ok n → operands.length = n →
      p (S.build t operands) → ∀ x ∈ operands, p x)
    (h : S.runOn us base = .ok s) (hs : ∀ x ∈ s, p x) : ∀ x ∈ base, p x := by
  induction us generalizing s with
  | nil =>
      cases h
      exact hs
  | cons u us ih =>
      obtain ⟨m, hm, hstep⟩ := runOn_cons_ok h
      obtain ⟨n, ha, hn, rfl⟩ := step_ok hstep
      apply ih hm
      intro x hx
      rw [← take_append_drop n m] at hx
      rcases mem_append.mp hx with htaken | hleft
      · exact hbuild ha (length_take_of_le hn) (hs _ mem_cons_self) x htaken
      · exact hs x (mem_cons_of_mem _ hleft)

/-! ### Counting -/

variable (S) in
/-- How many operands the tokens of a program take. -/
def Signature.demand (us : List τ) : ℕ :=
  (us.map fun t => (S.arity t).toOption.getD 0).sum

@[simp] lemma demand_nil : S.demand [] = 0 := rfl

@[simp] lemma demand_cons (u : τ) (us : List τ) :
    S.demand (u :: us) = (S.arity u).toOption.getD 0 + S.demand us := by
  simp [Signature.demand]

@[simp] lemma demand_append (us vs : List τ) :
    S.demand (us ++ vs) = S.demand us + S.demand vs := by
  simp [Signature.demand]

@[simp] lemma demand_replicate (k : ℕ) (t : τ) :
    S.demand (List.replicate k t) = k * (S.arity t).toOption.getD 0 := by
  simp [Signature.demand]

/-- A token trades its operands for one value, so the height of the stack is
known beforehand. -/
lemma length_runOn (h : S.runOn us stk = .ok s) :
    s.length + S.demand us = stk.length + us.length := by
  induction us generalizing s with
  | nil =>
      cases h
      simp
  | cons u us ih =>
      obtain ⟨m, hm, hs⟩ := runOn_cons_ok h
      obtain ⟨n, ha, hn, rfl⟩ := step_ok hs
      have hrest := ih hm
      rw [demand_cons, ha, length_cons, length_cons, length_drop]
      show m.length - n + 1 + (n + S.demand us) = _
      omega

/-- A program that runs has tokens with an arity only. -/
lemma arity_of_runOn (h : S.runOn us stk = .ok s) : ∀ u ∈ us, ∃ n, S.arity u = .ok n := by
  induction us generalizing s with
  | nil => simp
  | cons u us ih =>
      obtain ⟨m, hm, hs⟩ := runOn_cons_ok h
      obtain ⟨n, ha, -, -⟩ := step_ok hs
      exact forall_mem_cons.mpr ⟨⟨n, ha⟩, ih hm⟩

/-- The last token to run leaves its value. -/
lemma runOn_ne_nil (hne : us ≠ []) (h : S.runOn us stk = .ok s) : s ≠ [] := by
  rcases us with - | ⟨u, us⟩
  · exact absurd rfl hne
  · obtain ⟨m, -, hs⟩ := runOn_cons_ok h
    obtain ⟨n, -, -, rfl⟩ := step_ok hs
    exact cons_ne_nil _ _

/-- Programs of the same arities run on the same heights. -/
lemma runOn_of_arity {vs : List τ} (hsame : us.map S.arity = vs.map S.arity)
    (h : S.runOn us stk = .ok s) : ∃ s', S.runOn vs stk = .ok s' ∧ s'.length = s.length := by
  induction us generalizing vs s with
  | nil =>
      obtain rfl : vs = [] := map_eq_nil_iff.mp hsame.symm
      exact ⟨s, h, rfl⟩
  | cons u us ih =>
      rcases vs with - | ⟨v, vs⟩
      · cases hsame
      obtain ⟨huv, hrest⟩ := List.cons.inj hsame
      obtain ⟨m, hm, hs⟩ := runOn_cons_ok h
      obtain ⟨n, ha, hn, rfl⟩ := step_ok hs
      obtain ⟨m', hm', hlen⟩ := ih hrest hm
      refine ⟨S.build v (m'.take n) :: m'.drop n, ?_, ?_⟩
      · rw [runOn_cons, hm']
        exact step_of_arity (huv ▸ ha) (hlen ▸ hn)
      · rw [length_cons, length_cons, length_drop, length_drop, hlen]

/-- A binary token that holds where both operands do collapses a stack to one
value, which holds where all of them do. -/
lemma runOn_replicate {κ : Type*} {holds : κ → ν → Prop} (ha : S.arity t = .ok 2)
    (hb : ∀ i x y, holds i (S.build t [x, y]) ↔ holds i x ∧ holds i y) (hne : s ≠ []) :
    ∃ v, S.runOn (List.replicate (s.length - 1) t) s = .ok [v] ∧
      ∀ i, holds i v ↔ ∀ x ∈ s, holds i x := by
  rcases s with - | ⟨x, s⟩
  · exact absurd rfl hne
  rw [length_cons, Nat.add_sub_cancel]
  -- the first token to run is the last of the copies
  induction s generalizing x with
  | nil => exact ⟨x, rfl, fun i => by simp⟩
  | cons y s ih =>
      obtain ⟨v, hv, hholds⟩ := ih (S.build t [x, y]) (cons_ne_nil _ _)
      refine ⟨v, ?_, ?_⟩
      · rw [length_cons, replicate_succ', runOn_append, runOn_cons, runOn_nil]
        show (S.step t (x :: y :: s)).bind _ = _
        rw [step_of_arity ha (by simp)]
        exact hv
      · intro i
        rw [hholds i]
        simp [hb, and_assoc]

/-! ### Taking operands from below -/

variable (size : ν → ℕ)

/-- Some value of `base` is gone from `s`: in its place stands a strictly
larger one. -/
def Absorbed (base s : List ν) : Prop :=
  ∃ front b back pre x, base = front ++ b :: back ∧ s = pre ++ x :: back ∧ size b < size x

variable {size}

/-- A stack with an absorbed value is never the old stack with values on top. -/
lemma Absorbed.not_suffix (h : Absorbed size base s) : ¬ base <:+ s := by
  obtain ⟨front, b, back, pre, x, rfl, rfl, hlt⟩ := h
  rintro ⟨p, hp⟩
  rw [← append_assoc] at hp
  obtain ⟨-, hx⟩ := append_inj' hp (by simp)
  have hbx : b = x := (List.cons.inj hx).1
  exact absurd hlt (by rw [hbx]; exact Nat.lt_irrefl _)

/-- A step that reaches past the `pre` it owns takes the first value of what
lies below, whatever else it takes. -/
lemma take_append_cons_mem {pre back : List ν} {x : ν} {n : ℕ}
    (hn : pre.length < n) : x ∈ (pre ++ x :: back).take n := by
  rw [take_append, mem_append]
  right
  obtain ⟨k, hk⟩ : ∃ k, n - pre.length = k + 1 := ⟨n - pre.length - 1, by omega⟩
  rw [hk]
  simp

/-- Splitting a stack where a step that takes `k + 1` of its values stops. -/
lemma split_at_last_taken {k : ℕ} (hk : k < base.length) :
    ∃ b, base = base.take k ++ b :: base.drop (k + 1) ∧ b ∈ base.take (k + 1) := by
  refine ⟨base[k], ?_, ?_⟩
  · rw [getElem_cons_drop, take_append_drop]
  · exact mem_take_iff_getElem.mpr ⟨k, by omega, rfl⟩

variable (hsize : ∀ {t n ops x}, S.arity t = .ok n → ops.length = n → x ∈ ops →
  size x < size (S.build t ops))
include hsize

/-- One step keeps a value absorbed: either it leaves the larger value alone,
or it builds a larger one still. -/
lemma Absorbed.step {s' : List ν} (h : Absorbed size base s) (hs : S.step t s = .ok s') :
    Absorbed size base s' := by
  obtain ⟨front, b, back, pre, x, rfl, rfl, hlt⟩ := h
  obtain ⟨n, ha, hn, rfl⟩ := step_ok hs
  have hlen : ((pre ++ x :: back).take n).length = n := length_take_of_le hn
  by_cases hpre : n ≤ pre.length
  · -- only values above the larger one are taken
    refine ⟨front, b, back, S.build t ((pre ++ x :: back).take n) :: pre.drop n, x,
      rfl, ?_, hlt⟩
    rw [drop_append_of_le_length hpre]
    rfl
  · have hxm : x ∈ (pre ++ x :: back).take n := take_append_cons_mem (by omega)
    have hx : size x < size (S.build t ((pre ++ x :: back).take n)) :=
      hsize ha hlen hxm
    have hdrop : (pre ++ x :: back).drop n = back.drop (n - pre.length - 1) := by
      rw [drop_append, drop_eq_nil_of_le (by omega), nil_append]
      obtain ⟨k, hk⟩ : ∃ k, n - pre.length = k + 1 := ⟨n - pre.length - 1, by omega⟩
      rw [hk, drop_succ_cons]
      congr 1
    rcases e : n - pre.length - 1 with - | k
    · -- the larger value is the last one taken
      refine ⟨front, b, back, [], _, rfl, ?_, Nat.lt_trans hlt hx⟩
      rw [hdrop, e]
      rfl
    · -- values of `back` are taken too: the last of them is absorbed now
      have hk : k < back.length := by
        rw [length_append, length_cons] at hn
        omega
      obtain ⟨b', hb', hmem⟩ := split_at_last_taken hk
      have hb'm : b' ∈ (pre ++ x :: back).take n := by
        rw [take_append, mem_append]
        right
        have : n - pre.length = (k + 1) + 1 := by omega
        rw [this, take_succ_cons]
        exact mem_cons_of_mem _ hmem
      refine ⟨front ++ b :: back.take k, b', back.drop (k + 1), [], _, ?_, ?_, hsize ha hlen hb'm⟩
      · rw [append_assoc, cons_append, ← hb']
      · rw [hdrop, e]
        rfl

/-- **Where the operands come from.**  A run on top of `base` is either the
run of the program on its own, or it has absorbed a value of `base`. -/
theorem runOn_cases (h : S.runOn us base = .ok s) :
    (∃ pre, S.run us = .ok pre ∧ s = pre ++ base) ∨ Absorbed size base s := by
  induction us generalizing s with
  | nil =>
      simp only [runOn_nil, Except.ok.injEq] at h
      exact .inl ⟨[], rfl, by rw [h, nil_append]⟩
  | cons u us ih =>
      obtain ⟨m, hm, hs⟩ := runOn_cons_ok h
      rcases ih hm with ⟨pre, hpre, rfl⟩ | habs
      · obtain ⟨n, ha, hn, rfl⟩ := step_ok hs
        by_cases hle : n ≤ pre.length
        · -- the token's operands are the program's own
          refine .inl ⟨S.build u (pre.take n) :: pre.drop n, ?_, ?_⟩
          · rw [Signature.run, runOn_cons]
            rw [Signature.run] at hpre
            rw [hpre]
            exact step_of_arity ha hle
          · rw [take_append_of_le_length hle, drop_append_of_le_length hle]
            rfl
        · -- the token takes `n - pre.length` values of `base`
          right
          obtain ⟨k, hk⟩ : ∃ k, n - pre.length = k + 1 := ⟨n - pre.length - 1, by omega⟩
          have hkb : k < base.length := by
            rw [length_append] at hn
            omega
          obtain ⟨b, hb, hmem⟩ := split_at_last_taken hkb
          have hbm : b ∈ (pre ++ base).take n := by
            rw [take_append, mem_append, hk]
            exact .inr hmem
          refine ⟨base.take k, b, base.drop (k + 1), [], _, hb, ?_,
            hsize ha (length_take_of_le hn) hbm⟩
          rw [drop_append, drop_eq_nil_of_le (by omega), hk]
          rfl
      · exact .inr (habs.step hsize hs)

/-- **A program leaves what lies below it intact exactly when it runs on its
own.** -/
theorem runOn_intact_iff (h : S.runOn us base = .ok s) :
    base <:+ s ↔ ∃ pre, S.run us = .ok pre := by
  constructor
  · intro hsuf
    rcases runOn_cases hsize h with ⟨pre, hpre, -⟩ | habs
    · exact ⟨pre, hpre⟩
    · exact absurd hsuf habs.not_suffix
  · rintro ⟨pre, hpre⟩
    have := runOn_of_run hpre base
    rw [h, Except.ok.injEq] at this
    exact ⟨pre, this.symm⟩

end PrefixStack
