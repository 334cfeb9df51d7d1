/-
A cache whose entries expire.

An entry is good until its expiry, the moment itself included; a read after that
takes it out.  What a read finds is `live`, and no operation but `set` puts
anything in (`entries_get`, `entries_set`).
-/
import Mathlib.Data.Int.Basic
import Mathlib.Tactic.Common

/-- A value and the moment it is good until, if there is one. -/
structure TtlEntry (α : Type*) where
  value : α
  expiry : Option ℤ

structure TtlCache (κ α : Type*) where
  entries : κ → Option (TtlEntry α)

namespace TtlCache

variable {κ α : Type*} [DecidableEq κ]

def empty : TtlCache κ α := ⟨fun _ => none⟩

def expired (now : ℤ) (e : TtlEntry α) : Bool :=
  match e.expiry with
  | none => false
  | some t => decide (t < now)

/-- `get`: the value under a key, and the cache without an entry found expired. -/
def get (c : TtlCache κ α) (now : ℤ) (key : κ) : Option α × TtlCache κ α :=
  match c.entries key with
  | none => (none, c)
  | some e =>
      if expired now e then (none, ⟨Function.update c.entries key none⟩) else (some e.value, c)

/-- `set`: an entry for some seconds of 10⁹ ticks, for ever if they are 0 or less. -/
def set (c : TtlCache κ α) (now : ℤ) (key : κ) (value : α) (ttlSeconds : ℤ) : TtlCache κ α :=
  ⟨Function.update c.entries key
    (some ⟨value, if ttlSeconds > 0 then some (now + ttlSeconds * 1000000000) else none⟩)⟩

/-- The value that has not expired. -/
def live (c : TtlCache κ α) (now : ℤ) (key : κ) : Option α :=
  (c.entries key).bind fun e => if expired now e then none else some e.value

lemma get_fst (c : TtlCache κ α) (now : ℤ) (key : κ) : (c.get now key).1 = c.live now key := by
  unfold get live
  rcases c.entries key with - | e
  · rfl
  · show (if expired now e then _ else _ : Option α × TtlCache κ α).1 = if expired now e then _ else _
    split
    · rfl
    · rfl

variable {c : TtlCache κ α}

/-- A read puts nothing in. -/
lemma entries_get {now : ℤ} {key k : κ} {e : TtlEntry α}
    (h : (c.get now key).2.entries k = some e) : c.entries k = some e := by
  unfold get at h
  rcases hkey : c.entries key with - | e'
  · rw [hkey] at h
    exact h
  · rw [hkey] at h
    dsimp only at h
    split at h
    · change Function.update c.entries key none k = some e at h
      by_cases hk : k = key
      · rw [hk, Function.update_self] at h
        cases h
      · rwa [Function.update_of_ne hk] at h
    · exact h

lemma entries_set {now ttl : ℤ} {key k : κ} {value : α} {e : TtlEntry α}
    (h : (c.set now key value ttl).entries k = some e) :
    k = key ∧ e.value = value ∨ c.entries k = some e := by
  change Function.update c.entries key (some _) k = some e at h
  by_cases hk : k = key
  · rw [hk, Function.update_self] at h
    cases h
    exact .inl ⟨hk, rfl⟩
  · rw [Function.update_of_ne hk] at h
    exact .inr h

omit [DecidableEq κ] in
lemma live_eq_some {now : ℤ} {key : κ} {value : α} (h : c.live now key = some value) :
    ∃ e, c.entries key = some e ∧ e.value = value := by
  obtain ⟨e, he, h⟩ := Option.bind_eq_some_iff.mp h
  split at h
  · cases h
  · cases h
    exact ⟨e, he, rfl⟩

end TtlCache
