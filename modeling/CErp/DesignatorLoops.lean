/-
The expansion of designators as it runs: one character after the other, a range
by a loop over a `long`.

`splitLoop` is the code with the tests of its range loops counted; the list of
`splitDesignators` is what it leaves where it ends (`splitLoop_eq`).  A range
that ends at the largest `long` is the one it does not come back from.
-/
import CErp.CountedLoop
import CErp.Designators

namespace CErp

open List Option

namespace Designators

open CountedLoop

/-- A `long`, which wraps around. -/
def long : Counter where
  last := 2 ^ 63 - 1
  wrapped := -2 ^ 63
  wrapped_le := by decide

/-- The prefix and the two numbers of a range. -/
def rangeOf? (t : List Char) : Option (List Char × ℕ × ℕ) :=
  match rangeEnds t with
  | none => none
  | some (a, b) =>
      match numbered a, numbered b with
      | some (pa, na), some (pb, nb) =>
          if pa = pb ∧ na ≤ nb ∧ nb - na < 512 then some (pa, na, nb) else none
      | _, _ => none

/-- `out.push_back(pa + std::to_string(n))`. -/
def pushNumber (pa : List Char) (out : List (List Char)) (n : ℤ) : List (List Char) :=
  out ++ [pa ++ (toString n).toList]

/-- What is read of `cur` is put out. -/
def flush (fuel : ℕ) (cur : List Char) (out : List (List Char)) : Option (List (List Char)) :=
  let t := trim cur
  if t = [] then some out
  else match rangeOf? t with
    | some (pa, na, nb) => loop long (pushNumber pa) nb fuel na out
    | none => some (out ++ [t])

/-- The characters from `cur` on. -/
def splitLoop (fuel : ℕ) : List Char → List Char → List (List Char) → Option (List (List Char))
  | cur, [], out => flush fuel cur out
  | cur, c :: cs, out =>
      if isSeparator c then (flush fuel cur out).bind (splitLoop fuel [] cs)
      else splitLoop fuel (cur ++ [c]) cs out

/-- The expansion of a text ends, with this list. -/
def Yields (s : List Char) (out : List (List Char)) : Prop :=
  ∃ fuel, splitLoop fuel [] s [] = some out

/-- A range up to the largest `long`. -/
def EndsAtLast (t : List Char) : Prop := ∃ pa na, rangeOf? t = some (pa, na, 2 ^ 63 - 1)

/-! ### One entry -/

lemma range?_eq (t : List Char) : range? t = (rangeOf? t).map fun r =>
      (range' r.2.1 (r.2.2 - r.2.1 + 1)).map fun n => r.1 ++ (toString n).toList := by
  unfold range? rangeOf?
  rcases rangeEnds t with - | ⟨a, b⟩
  · rfl
  · dsimp only
    rcases numbered a with - | ⟨pa, na⟩
    · rfl
    · rcases numbered b with - | ⟨pb, nb⟩
      · rfl
      · dsimp only
        split
        · rfl
        · rfl

lemma numbered_lt {s pre : List Char} {num : ℕ} (h : numbered s = some (pre, num)) :
    num < 2 ^ 63 := by
  unfold numbered at h
  dsimp only at h
  split at h
  · cases h
  · next hnot =>
      cases h
      exact Nat.lt_of_not_le fun hle => hnot (.inr hle)

/-- What is known of a range. -/
lemma rangeOf?_spec {t pa : List Char} {na nb : ℕ} (h : rangeOf? t = some (pa, na, nb)) :
    na ≤ nb ∧ nb - na < 512 ∧ nb < 2 ^ 63 ∧
      ∃ a b, rangeEnds t = some (a, b) ∧ numbered a = some (pa, na) ∧
        numbered b = some (pa, nb) := by
  unfold rangeOf? at h
  split at h
  · cases h
  · next a b hends =>
      split at h
      · next pa' na' pb nb' hna hnb =>
          split at h
          · next hcond =>
              obtain ⟨rfl, hle, hlt⟩ := hcond
              cases h
              exact ⟨hle, hlt, numbered_lt hnb, a, b, hends, hna, hnb⟩
          · cases h
      · cases h

/-- The designators of a range, one number after the other. -/
lemma foldl_pushNumber (pa : List Char) (na k : ℕ) (out : List (List Char)) :
    ((range k).map fun i : ℕ => (na : ℤ) + i).foldl (pushNumber pa) out =
      out ++ (range' na k).map fun n => pa ++ (toString n).toList := by
  induction k with
  | zero => exact (append_nil out).symm
  | succ k ih =>
      rw [range_succ, map_append, foldl_append, ih, range'_concat, map_append, ← append_assoc]
      have hnext : (na : ℤ) + k = ((na + 1 * k : ℕ) : ℤ) := by omega
      show pushNumber pa _ ((na : ℤ) + k) = _
      rw [hnext]
      rfl

variable {cur : List Char} {out out' : List (List Char)}

variable {fuel : ℕ}

/-- **One entry.** -/
theorem flush_eq (h : flush fuel cur out = some out') :
    out' = out ++ if trim cur = [] then [] else expand (trim cur) := by
  unfold flush at h
  dsimp only at h
  split at h
  · next hnil =>
      rw [if_pos hnil, append_nil]
      exact (some.inj h).symm
  · next hne =>
      rw [if_neg hne]
      unfold expand
      rw [range?_eq]
      split at h
      · next pa na nb hrange =>
          obtain ⟨hle, -, hlt, -⟩ := rangeOf?_spec hrange
          have hto : ((nb : ℤ) + 1 - na).toNat = nb - na + 1 := by omega
          have hout := loop_eq (Int.ofNat_le.mpr hle)
            (show (nb : ℤ) ≤ 2 ^ 63 - 1 by omega) h
          rw [hto, foldl_pushNumber] at hout
          rw [hout, hrange]
          rfl
      · next hrange =>
          rw [hrange]
          exact (some.inj h).symm

lemma flush_ends_iff (cur : List Char) (out : List (List Char)) :
    (∃ fuel out', flush fuel cur out = some out') ↔ ¬ EndsAtLast (trim cur) := by
  have hnil : rangeOf? [] = none := by decide
  unfold flush EndsAtLast
  dsimp only
  rcases hrange : rangeOf? (trim cur) with - | ⟨pa, na, nb⟩
  · refine iff_of_true ⟨0, ?_⟩ (by simp)
    split
    · exact ⟨_, rfl⟩
    · exact ⟨_, rfl⟩
  · obtain ⟨hle, -, hlt, -⟩ := rangeOf?_spec hrange
    have hne : trim cur ≠ [] := by
      intro h
      rw [h, hnil] at hrange
      cases hrange
    rw [show (∃ fuel out', (if trim cur = [] then some out
      else loop long (pushNumber pa) nb fuel na out) = some out') ↔
        ∃ fuel out', loop long (pushNumber pa) nb fuel na out = some out' by
          simp only [if_neg hne],
      loop_ends_iff (Int.ofNat_le.mpr hle) (show (nb : ℤ) ≤ 2 ^ 63 - 1 by omega)]
    apply not_congr
    constructor
    · intro h
      have hnb : nb = 2 ^ 63 - 1 := by
        have h : (nb : ℤ) = 2 ^ 63 - 1 := h
        omega
      exact ⟨pa, na, by rw [hnb]⟩
    · rintro ⟨pa', na', h⟩
      cases h
      rfl

/-! ### All entries -/

/-- The entries of the characters from `cur` on. -/
def entriesFrom (cur cs : List Char) : List (List Char) :=
  (((cs.splitOnP isSeparator).modifyHead (cur ++ ·)).map trim).filter (· ≠ [])

lemma entriesFrom_nil (cs : List Char) : entriesFrom [] cs = listed cs := by
  have hid : (fun t : List Char => [] ++ t) = id := rfl
  unfold entriesFrom listed
  rw [hid, modifyHead_id, id_eq]

lemma entriesFrom_end (cur : List Char) :
    entriesFrom cur [] = if trim cur = [] then [] else [trim cur] := by
  unfold entriesFrom
  rw [splitOnP_nil, modifyHead_cons, append_nil]
  split
  · next h => simp [h]
  · next h => simp [h]

variable {cs : List Char}

lemma entriesFrom_separator {c : Char} (hc : isSeparator c = true) :
    entriesFrom cur (c :: cs) = entriesFrom cur [] ++ listed cs := by
  rw [entriesFrom_end]
  unfold entriesFrom listed
  rw [splitOnP_cons_eq_if_modifyHead, if_pos hc, modifyHead_cons, append_nil, map_cons, filter_cons]
  split
  · next h => simp [show trim cur ≠ [] by simpa using h]
  · next h => simp [show trim cur = [] by simpa using h]

lemma entriesFrom_other {c : Char} (hc : ¬ isSeparator c = true) :
    entriesFrom cur (c :: cs) = entriesFrom (cur ++ [c]) cs := by
  obtain ⟨t, ts, hsplit⟩ := exists_cons_of_ne_nil (splitOnP_ne_nil isSeparator cs)
  unfold entriesFrom
  rw [splitOnP_cons_eq_if_modifyHead, if_neg hc, hsplit]
  simp

lemma splitLoop_eq_from (h : splitLoop fuel cur cs out = some out') :
    out' = out ++ (entriesFrom cur cs).flatMap expand := by
  induction cs generalizing cur out with
  | nil =>
      rw [flush_eq h, entriesFrom_end]
      split
      · rfl
      · rw [flatMap_singleton]
  | cons c cs ih =>
      unfold splitLoop at h
      split at h
      · next hc =>
          obtain ⟨m, hm, hrest⟩ := bind_eq_some_iff.mp h
          rw [ih hrest, flush_eq hm, entriesFrom_separator hc, entriesFrom_nil, entriesFrom_end,
            flatMap_append, append_assoc]
          split
          · rfl
          · rw [flatMap_singleton]
      · next hc => rw [ih h, entriesFrom_other hc]

/-- **An expansion that ends leaves the list the text stands for.** -/
theorem Yields.eq {s : List Char} (h : Yields s out) : out = splitDesignators s := by
  obtain ⟨fuel, h⟩ := h
  rw [splitLoop_eq_from h, entriesFrom_nil]
  rfl

/-- More tests do no harm. -/
lemma flush_mono (h : flush fuel cur out = some out') (k : ℕ) :
    flush (fuel + k) cur out = some out' := by
  unfold flush at h ⊢
  dsimp only at h ⊢
  split at h
  · next hnil => rw [if_pos hnil]; exact h
  · next hne =>
      rw [if_neg hne]
      split at h
      · exact loop_mono h k
      · exact h

lemma splitLoop_mono (h : splitLoop fuel cur cs out = some out') (k : ℕ) :
    splitLoop (fuel + k) cur cs out = some out' := by
  induction cs generalizing cur out with
  | nil => exact flush_mono h k
  | cons c cs ih =>
      unfold splitLoop at h ⊢
      split at h
      · next hc =>
          obtain ⟨m, hm, hrest⟩ := bind_eq_some_iff.mp h
          rw [if_pos hc, flush_mono hm k]
          exact ih hrest
      · next hc =>
          rw [if_neg hc]
          exact ih h

lemma splitLoop_ends_iff (cur cs : List Char) (out : List (List Char)) :
    (∃ fuel out', splitLoop fuel cur cs out = some out') ↔
      ∀ t ∈ entriesFrom cur cs, ¬ EndsAtLast t := by
  have hnil : ¬ EndsAtLast [] := by
    rintro ⟨pa, na, h⟩
    cases h
  have hlast : ∀ cur : List Char, (∀ t ∈ entriesFrom cur [], ¬ EndsAtLast t) ↔
      ¬ EndsAtLast (trim cur) := by
    intro cur
    rw [entriesFrom_end]
    split
    · next h => simp [h, hnil]
    · simp
  induction cs generalizing cur out with
  | nil => exact (flush_ends_iff cur out).trans (hlast cur).symm
  | cons c cs ih =>
      by_cases hc : isSeparator c = true
      · rw [entriesFrom_separator hc, forall_mem_append, hlast, ← entriesFrom_nil]
        constructor
        · rintro ⟨fuel, out', h⟩
          unfold splitLoop at h
          rw [if_pos hc] at h
          obtain ⟨m, hm, hrest⟩ := bind_eq_some_iff.mp h
          exact ⟨(flush_ends_iff cur out).mp ⟨fuel, m, hm⟩, (ih [] m).mp ⟨fuel, out', hrest⟩⟩
        · rintro ⟨hfirst, hlater⟩
          obtain ⟨fuel₁, m, hm⟩ := (flush_ends_iff cur out).mpr hfirst
          obtain ⟨fuel₂, out', hrest⟩ := (ih [] m).mpr hlater
          -- both parts end within the tests of the two together
          refine ⟨fuel₁ + fuel₂, out', ?_⟩
          unfold splitLoop
          rw [if_pos hc, flush_mono hm fuel₂, bind_some, Nat.add_comm]
          exact splitLoop_mono hrest fuel₁
      · have hstep : ∀ fuel, splitLoop fuel cur (c :: cs) out = splitLoop fuel (cur ++ [c]) cs out :=
          fun _ => if_neg hc
        rw [entriesFrom_other hc]
        simp only [hstep]
        exact ih (cur ++ [c]) out

lemma yields_iff (s : List Char) (out : List (List Char)) :
    Yields s out ↔ out = splitDesignators s ∧ ∀ t ∈ listed s, ¬ EndsAtLast t := by
  rw [← entriesFrom_nil, ← splitLoop_ends_iff [] s []]
  constructor
  · intro h
    exact ⟨h.eq, h.choose, out, h.choose_spec⟩
  · rintro ⟨rfl, fuel, out', h⟩
    have hout : out' = splitDesignators s := Yields.eq ⟨fuel, h⟩
    exact ⟨fuel, hout ▸ h⟩

/-! ### The bound -/

/-- No entry stands for more than 512 designators. -/
lemma length_expand_le (t : List Char) : (expand t).length ≤ 512 := by
  unfold expand
  rw [range?_eq]
  rcases hrange : rangeOf? t with - | ⟨pa, na, nb⟩
  · show 1 ≤ 512
    decide
  · obtain ⟨-, hlt, -⟩ := rangeOf?_spec hrange
    show ((range' na (nb - na + 1)).map _).length ≤ 512
    rw [length_map, length_range']
    exact Nat.succ_le_of_lt hlt

/-- **The expansion of a text ends, and puts out at most 512 designators for
each entry, exactly when no entry is a range that ends at the largest `long`.** -/
theorem expansion_bounded_iff (s : List Char) : ((∃ out, Yields s out) ∧ ∀ t ∈ listed s, ∃ fuel out,
        flush fuel t [] = some out ∧ out.length ≤ 512) ↔
      ∀ t ∈ listed s, ¬ EndsAtLast t := by
  constructor
  · rintro ⟨⟨out, h⟩, -⟩
    exact ((yields_iff s out).mp h).2
  · intro hall
    refine ⟨⟨_, (yields_iff s _).mpr ⟨rfl, hall⟩⟩, ?_⟩
    intro t ht
    have htrim : trim t = t := (listed_isEntry ht).trimmed
    obtain ⟨fuel, out, h⟩ := (flush_ends_iff t []).mpr (htrim.symm ▸ hall t ht)
    refine ⟨fuel, out, h, ?_⟩
    rw [flush_eq h, htrim, if_neg (listed_isEntry ht).nonempty, nil_append]
    exact length_expand_le t

/-- One designator, written as a range. -/
theorem last_designator_loops :
    ¬ ∃ out, Yields "R9223372036854775807-R9223372036854775807".toList out := by
  rintro ⟨out, h⟩
  have hnone := ((yields_iff _ out).mp h).2
  exact hnone "R9223372036854775807-R9223372036854775807".toList (by decide)
    ⟨['R'], 2 ^ 63 - 1, by decide⟩

end Designators

end CErp
