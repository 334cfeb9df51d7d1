/-
Entries that may have a date, taken by windows of dates and added up in order.

A window is open where it has no bound; a bound takes only entries with a date.

* `insertionSort_filter`: a part of the sorted entries is the part sorted;
* `filter_windows`: of entries in order of date, two windows that meet make one;
* `runningFrom_append`: a running balance goes on where it was left;
* `total_upTo`: what is before a window and what is in it are all up to its end.

The first of the entries that meet a condition, by a key that orders them.

* `find?_sorted_eq_some_iff`: it is the entry of the least key that meets it;
* `find?_sorted_eq_iff`: a weaker condition finds the same entry exactly when
  whatever meets only the weaker one stands behind an entry that meets both.
-/
import Mathlib

namespace DatedEntries

open List

/-! ### Windows of dates -/

section Windows

variable {α δ : Type*} [LinearOrder δ] (date : α → Option δ)

/-- On or after the first date, if there is one. -/
def since (first : Option δ) (a : α) : Bool :=
  first.all fun s => (date a).any fun d => decide (s ≤ d)

/-- On or before the last date, if there is one. -/
def upTo (last : Option δ) (a : α) : Bool :=
  last.all fun t => (date a).any fun d => decide (d ≤ t)

/-- Before the first date; nothing is when there is none. -/
def before (first : Option δ) (a : α) : Bool :=
  first.any fun s => (date a).any fun d => decide (d < s)

/-- Entries in order of their dates, those without one last. -/
def InOrder (a b : α) : Prop := ∀ e ∈ date b, ∃ d ∈ date a, d ≤ e

variable {date} {first : Option δ} {mid next last : δ}

/-- Two windows that meet make one. -/
lemma within_split (hfirst : ∀ s ∈ first, s ≤ mid) (hnext : ∀ d, next ≤ d ↔ mid < d)
    (hlast : mid < last) (a : α) :
    (since date first a && upTo date (some last) a) =
      ((since date first a && upTo date (some mid) a) ||
        (since date (some next) a && upTo date (some last) a)) := by
  rcases hdate : date a with - | d
  · simp [upTo, hdate]
  · have hsince : since date (some next) a = decide (mid < d) := by
      simp [since, hdate, hnext]
    have hmid : upTo date (some mid) a = decide (d ≤ mid) := by
      simp [upTo, hdate]
    have hend : upTo date (some last) a = decide (d ≤ last) := by
      simp [upTo, hdate]
    rw [hsince, hmid, hend]
    rcases le_or_gt d mid with hle | hgt
    · have hin : d ≤ last := hle.trans hlast.le
      simp [hle, hin, not_lt.mpr hle]
    · have hstart : since date first a = true := by
        simp only [since, hdate, Option.all_eq_true, Option.any_some, decide_eq_true_eq]
        intro s hs
        exact (hfirst s hs).trans hgt.le
      simp [hstart, hgt, not_le.mpr hgt]

lemma not_both (hnext : ∀ d, next ≤ d ↔ mid < d) {a : α} (h : upTo date (some mid) a = true) :
    since date (some next) a = false := by
  rcases hdate : date a with - | d
  · simp [upTo, hdate] at h
  · simp only [upTo, hdate, Option.all_some, Option.any_some, decide_eq_true_eq] at h
    simp only [since, hdate, Option.all_some, Option.any_some, decide_eq_false_iff_not, hnext]
    exact not_lt.mpr h

/-- An entry of the later window is not followed by one of the earlier. -/
lemma not_later (hnext : ∀ d, next ≤ d ↔ mid < d) {a b : α} (hab : InOrder date a b)
    (h : since date (some next) a = true) : upTo date (some mid) b = false := by
  by_contra hb
  rw [Bool.not_eq_false] at hb
  rcases hdate : date b with - | e
  · simp [upTo, hdate] at hb
  · obtain ⟨d, hd, hle⟩ := hab e hdate
    rw [Option.mem_def] at hd
    simp only [upTo, hdate, Option.all_some, Option.any_some, decide_eq_true_eq] at hb
    simp only [since, hd, Option.all_some, Option.any_some, decide_eq_true_eq, hnext] at h
    exact absurd (hle.trans hb) (not_le.mpr h)

/-- What is before a window is not in it, and together they are all up to its end. -/
lemma upTo_split (hfirst : ∀ s ∈ first, s ≤ last) (a : α) : upTo date (some last) a =
        (before date first a || (since date first a && upTo date (some last) a)) ∧
      (before date first a = true → since date first a = false) := by
  rcases first with - | s
  · exact ⟨by simp [before, since], fun h => by simp [before] at h⟩
  · have hle : s ≤ last := hfirst s rfl
    rcases hdate : date a with - | d
    · simp [upTo, before, since, hdate]
    · simp only [upTo, before, since, hdate, Option.all_some, Option.any_some]
      rcases lt_or_ge d s with hlt | hge
      · have hin : d ≤ last := hlt.le.trans hle
        simp [hlt, hin, not_le.mpr hlt]
      · simp [hge, not_lt.mpr hge]

end Windows

/-! ### Parts of sorted lists -/

section Parts

variable {α : Type*} {r : α → α → Prop} [DecidableRel r] {p q : α → Bool} {l : List α}

/-- Two conditions of which the second never comes before the first. -/
lemma filter_or (hdisjoint : ∀ a, p a = true → q a = false)
    (horder : l.Pairwise fun a b => q a = true → p b = false) :
    l.filter (fun a => p a || q a) = l.filter p ++ l.filter q := by
  induction l with
  | nil => rfl
  | cons a l ih =>
      obtain ⟨hhead, htail⟩ := pairwise_cons.mp horder
      have ih := ih htail
      by_cases hp : p a = true
      · rw [filter_cons_of_pos (by rw [hp]; rfl), filter_cons_of_pos hp,
          filter_cons_of_neg (by rw [hdisjoint a hp]; exact Bool.false_ne_true), ih,
          cons_append]
      · by_cases hq : q a = true
        · -- nothing of the first part follows
          have hnone : l.filter p = [] := by
            rw [filter_eq_nil_iff]
            intro b hb
            rw [hhead b hb hq]
            exact Bool.false_ne_true
          rw [hnone, nil_append] at ih
          rw [filter_cons_of_pos (by rw [hq, Bool.or_true]), filter_cons_of_neg hp,
            filter_cons_of_pos hq, hnone, nil_append, ih]
        · rw [filter_cons_of_neg (by rw [Bool.or_eq_true]; exact fun h => h.elim hp hq),
            filter_cons_of_neg hp, filter_cons_of_neg hq, ih]

lemma filter_orderedInsert [IsTrans α r] (a : α) (hl : l.Pairwise r) :
    (l.orderedInsert r a).filter p =
      if p a = true then (l.filter p).orderedInsert r a else l.filter p := by
  induction l with
  | nil => simp [filter_singleton]
  | cons b l ih =>
      obtain ⟨hb, hl⟩ := pairwise_cons.mp hl
      by_cases hab : r a b
      · -- all that follow come after `a` too
        have hall : ∀ c ∈ (b :: l).filter p, r a c := by
          intro c hc
          rcases mem_cons.mp (mem_of_mem_filter hc) with rfl | hc
          · exact hab
          · exact IsTrans.trans a b c hab (hb c hc)
        have hfront : ((b :: l).filter p).orderedInsert r a = a :: (b :: l).filter p := by
          rcases hcase : (b :: l).filter p with - | ⟨c, cs⟩
          · rfl
          · rw [orderedInsert_cons, if_pos (hall c (by rw [hcase]; exact mem_cons_self ..))]
        rw [orderedInsert_cons, if_pos hab, filter_cons, hfront]
      · rw [orderedInsert_cons, if_neg hab, filter_cons, ih hl]
        by_cases hpb : p b = true
        · rw [if_pos hpb, filter_cons_of_pos hpb, orderedInsert_cons, if_neg hab]
          split
          · rfl
          · rfl
        · rw [if_neg hpb, filter_cons_of_neg hpb]

/-- **A part of the sorted entries is the part sorted.** -/
theorem insertionSort_filter [IsTrans α r] [Std.Total r] (p : α → Bool) (l : List α) :
    (l.filter p).insertionSort r = (l.insertionSort r).filter p := by
  induction l with
  | nil => rfl
  | cons a l ih =>
      rw [insertionSort_cons, filter_orderedInsert a (pairwise_insertionSort r l), ← ih,
        filter_cons]
      split
      · rfl
      · rfl

end Parts

/-- **Of entries in order, two windows that meet make one.** -/
theorem filter_windows {α δ : Type*} [LinearOrder δ] {date : α → Option δ} {first : Option δ}
    {mid next last : δ} {l : List α} (hl : l.Pairwise (InOrder date))
    (hfirst : ∀ s ∈ first, s ≤ mid) (hnext : ∀ d, next ≤ d ↔ mid < d) (hlast : mid < last) :
    l.filter (fun a => since date first a && upTo date (some last) a) =
      l.filter (fun a => since date first a && upTo date (some mid) a) ++
        l.filter (fun a => since date (some next) a && upTo date (some last) a) := by
  have hsplit : (fun a => since date first a && upTo date (some last) a) = fun a =>
      ((since date first a && upTo date (some mid) a) ||
        (since date (some next) a && upTo date (some last) a)) :=
    funext (within_split hfirst hnext hlast)
  rw [hsplit]
  apply filter_or
  · intro a ha
    rw [not_both hnext (Bool.and_eq_true_iff.mp ha).2, Bool.false_and]
  · apply hl.imp
    intro a b hab ha
    rw [not_later hnext hab (Bool.and_eq_true_iff.mp ha).1, Bool.and_false]

/-! ### Balances -/

section Balances

variable {α : Type*} (amount : α → ℤ)

def total (l : List α) : ℤ := (l.map amount).sum

/-- Each entry with the balance after it. -/
def runningFrom : ℤ → List α → List (α × ℤ)
  | _, [] => []
  | b, a :: l => (a, b + amount a) :: runningFrom (b + amount a) l

variable {amount}

/-- **A running balance goes on where it was left.** -/
theorem runningFrom_append (b : ℤ) (l l' : List α) : runningFrom amount b (l ++ l') =
      runningFrom amount b l ++ runningFrom amount (b + total amount l) l' := by
  induction l generalizing b with
  | nil => simp [runningFrom, total]
  | cons a l ih =>
      rw [cons_append, runningFrom, ih, runningFrom, cons_append]
      congr 3
      rw [total, total, map_cons, sum_cons]
      ring

lemma total_perm {l l' : List α} (h : l.Perm l') : total amount l = total amount l' :=
  (h.map amount).sum_eq

/-- The parts under two conditions that exclude each other add up. -/
lemma total_filter_or {p q : α → Bool} (hdisjoint : ∀ a, p a = true → q a = false) (l : List α) :
    total amount (l.filter fun a => p a || q a) =
      total amount (l.filter p) + total amount (l.filter q) := by
  induction l with
  | nil => rfl
  | cons a l ih =>
      unfold total at ih ⊢
      by_cases hp : p a = true
      · have hq := hdisjoint a hp
        simp only [filter_cons, hp, hq, Bool.true_or, if_true, Bool.false_eq_true, if_false,
          map_cons, sum_cons, ih]
        ring
      · rw [Bool.not_eq_true] at hp
        by_cases hq : q a = true
        · simp only [filter_cons, hp, hq, Bool.or_true, if_true, Bool.false_eq_true, if_false,
            map_cons, sum_cons, ih]
          ring
        · rw [Bool.not_eq_true] at hq
          simp only [filter_cons, hp, hq, Bool.or_false, Bool.false_eq_true, if_false, ih]

/-- **What is before a window and what is in it add up to all up to its end.** -/
theorem total_upTo {δ : Type*} [LinearOrder δ] {date : α → Option δ} {first : Option δ} {last : δ}
    (hfirst : ∀ s ∈ first, s ≤ last) (l : List α) :
    total amount (l.filter (upTo date (some last))) = total amount (l.filter (before date first)) +
        total amount (l.filter fun a => since date first a && upTo date (some last) a) := by
  have hsplit : upTo date (some last) = fun a =>
      (before date first a || (since date first a && upTo date (some last) a)) :=
    funext fun a => (upTo_split hfirst a).1
  conv_lhs => rw [hsplit]
  apply total_filter_or
  intro a ha
  rw [(upTo_split hfirst a).2 ha, Bool.false_and]

/-- The totals of the entries under each key add up to the total of all. -/
lemma total_fibers {κ : Type*} [DecidableEq κ] (key : α → κ) {ks : List κ} (hks : ks.Nodup)
    {l : List α} (hmem : ∀ a ∈ l, key a ∈ ks) :
    (ks.map fun k => total amount (l.filter fun a => key a = k)).sum = total amount l := by
  induction l with
  | nil =>
      have hzero : (fun k => total amount (([] : List α).filter fun a => key a = k)) = fun _ => 0 :=
        funext fun _ => rfl
      rw [hzero, map_const', sum_replicate, nsmul_zero]
      rfl
  | cons a l ih =>
      rw [forall_mem_cons] at hmem
      -- the entry counts under its own key only
      have hsplit : (fun k => total amount ((a :: l).filter fun a => key a = k)) = fun k =>
          (if k = key a then amount a else 0) + total amount (l.filter fun a => key a = k) := by
        funext k
        rw [filter_cons]
        by_cases hk : key a = k
        · simp [hk, total]
        · simp [hk, Ne.symm hk]
      rw [hsplit, sum_map_add, ih hmem.2, sum_map_ite_eq, count_eq_one_of_mem hks hmem.1,
        one_nsmul, map_const', sum_replicate, nsmul_zero, sub_zero, add_zero]
      rfl

end Balances

end DatedEntries

namespace FirstMatch

open List

variable {α κ : Type*} [LinearOrder κ] {key : α → κ} {p q : α → Bool} {l : List α} {a : α}

/-- Entries by their keys. -/
def sorted (key : α → κ) (l : List α) : List α := l.insertionSort fun a b => key a ≤ key b

instance key_trans : IsTrans α fun a b => key a ≤ key b := ⟨fun _ _ _ => le_trans⟩

instance key_total : Std.Total fun a b : α => key a ≤ key b := ⟨fun a b => le_total (key a) (key b)⟩

lemma mem_sorted : a ∈ sorted key l ↔ a ∈ l := (perm_insertionSort _ l).mem_iff

/-- The first of the selected entries is the first entry selected. -/
lemma head?_sorted_filter (p : α → Bool) (l : List α) :
    (sorted key (l.filter p)).head? = (sorted key l).find? p := by
  unfold sorted
  rw [DatedEntries.insertionSort_filter, head?_filter]

/-- The first match of a list in order is the least. -/
lemma find?_le {b : α} (hl : l.Pairwise fun a b => key a ≤ key b) (ha : l.find? p = some a)
    (hb : b ∈ l) (hpb : p b = true) : key a ≤ key b := by
  induction l with
  | nil => cases hb
  | cons c l ih =>
      obtain ⟨hc, hl⟩ := pairwise_cons.mp hl
      by_cases hpc : p c = true
      · rw [find?_cons_of_pos hpc] at ha
        cases ha
        rcases mem_cons.mp hb with rfl | hb
        · exact le_refl _
        · exact hc b hb
      · rw [find?_cons_of_neg hpc] at ha
        rcases mem_cons.mp hb with rfl | hb
        · exact absurd hpb hpc
        · exact ih hl ha hb

/-- **The first match is the match of the least key.** -/
theorem find?_sorted_eq_some_iff (hinj : ∀ a ∈ l, ∀ b ∈ l, key a = key b → a = b) :
    (sorted key l).find? p = some a ↔ a ∈ l ∧ p a = true ∧ ∀ b ∈ l, p b = true → key a ≤ key b := by
  have hsorted : (sorted key l).Pairwise fun a b => key a ≤ key b := pairwise_insertionSort _ l
  constructor
  · intro h
    refine ⟨mem_sorted.mp (mem_of_find?_eq_some h), find?_some h, ?_⟩
    intro b hb hpb
    exact find?_le hsorted h (mem_sorted.mpr hb) hpb
  · rintro ⟨ha, hpa, hleast⟩
    obtain ⟨c, hc⟩ : ∃ c, (sorted key l).find? p = some c :=
      Option.isSome_iff_exists.mp (find?_isSome.mpr ⟨a, mem_sorted.mpr ha, hpa⟩)
    have hmem := mem_sorted.mp (mem_of_find?_eq_some hc)
    have hle := find?_le hsorted hc (mem_sorted.mpr ha) hpa
    rw [hc, hinj c hmem a ha (le_antisymm hle (hleast c hmem (find?_some hc)))]

lemma find?_sorted_eq_none_iff : (sorted key l).find? p = none ↔ ∀ a ∈ l, p a = false := by
  rw [find?_eq_none]
  constructor
  · intro h a ha
    exact Bool.eq_false_iff.mpr (h a (mem_sorted.mpr ha))
  · intro h a ha
    exact Bool.eq_false_iff.mp (h a (mem_sorted.mp ha))

/-- **A weaker condition finds the same entry** exactly when whatever meets only
the weaker one stands behind a match. -/
theorem find?_sorted_eq_iff (hinj : ∀ a ∈ l, ∀ b ∈ l, key a = key b → a = b)
    (hqp : ∀ a, q a = true → p a = true) :
    (sorted key l).find? p = (sorted key l).find? q ↔
      ∀ a ∈ l, p a = true → q a = false → ∃ b ∈ l, q b = true ∧ key b < key a := by
  constructor
  · intro h a ha hpa hqa
    rcases hfound : (sorted key l).find? p with - | m
    · exact absurd hpa (Bool.eq_false_iff.mp (find?_sorted_eq_none_iff.mp hfound a ha))
    · have hq := (find?_sorted_eq_some_iff hinj).mp (h ▸ hfound)
      have hleast := ((find?_sorted_eq_some_iff hinj).mp hfound).2.2 a ha hpa
      refine ⟨m, hq.1, hq.2.1, lt_of_le_of_ne hleast fun e => ?_⟩
      rw [← hinj m hq.1 a ha e, hq.2.1] at hqa
      cases hqa
  · intro h
    rcases hfound : (sorted key l).find? q with - | m
    · -- nothing meets both, so nothing meets the weaker one
      rw [find?_sorted_eq_none_iff]
      intro a ha
      by_contra hpa
      have hnone := find?_sorted_eq_none_iff.mp hfound
      obtain ⟨b, hb, hqb, -⟩ := h a ha (Bool.not_eq_false _ ▸ hpa) (hnone a ha)
      exact absurd hqb (Bool.eq_false_iff.mp (hnone b hb))
    · obtain ⟨hm, hqm, hleast⟩ := (find?_sorted_eq_some_iff hinj).mp hfound
      rw [find?_sorted_eq_some_iff hinj]
      refine ⟨hm, hqp m hqm, ?_⟩
      intro b hb hpb
      by_cases hqb : q b = true
      · exact hleast b hb hqb
      · obtain ⟨c, hc, hqc, hlt⟩ := h b hb hpb (Bool.eq_false_iff.mpr hqb)
        exact (hleast c hc hqc).trans hlt.le

end FirstMatch
