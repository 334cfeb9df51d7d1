/-
Texts with holes: characters, and names between double braces.

A name holds no brace, so a text is read in one way (`existsUnique_readable`): a
hole is found wherever one is written.  Filling holes writes characters in their
place; the pieces that result are readable only if no hole came about that
nobody wrote.

* `token_isPrefix`: where a hole is found, one stands, or its characters do;
* `skips_text`: a hole is not found before it stands;
* `Readable.of_fill`: a text that is readable once filled was so before.
-/
import Mathlib.Data.List.Basic

namespace HoleTexts

open List

def BraceFree (cs : List Char) : Prop := ∀ c ∈ cs, c ≠ '\x7b' ∧ c ≠ '\x7d'

lemma braceFree_of_all {cs : List Char}
    (h : cs.all (fun c => c != '\x7b' && c != '\x7d') = true) : BraceFree cs := by
  intro c hc
  have hfree := List.all_eq_true.mp h c hc
  rw [Bool.and_eq_true, bne_iff_ne, bne_iff_ne] at hfree
  exact hfree

/-- What may stand between the braces. -/
structure Name where
  chars : List Char
  braceFree : BraceFree chars
  deriving DecidableEq

def token (name : List Char) : List Char := '\x7b' :: '\x7b' :: (name ++ ['\x7d', '\x7d'])

inductive Piece where
  | lit (c : Char)
  | hole (k : Name)
  deriving DecidableEq

def Piece.text : Piece → List Char
  | lit c => [c]
  | hole k => token k.chars

def text (ps : List Piece) : List Char := ps.flatMap Piece.text

def lits (cs : List Char) : List Piece := cs.map .lit

/-- The characters without the holes. -/
def plain : List Piece → List Char
  | [] => []
  | .lit c :: ps => c :: plain ps
  | .hole _ :: ps => plain ps

/-- No characters spell a hole. -/
def Readable (ps : List Piece) : Prop :=
  ∀ (a : List Piece) (k : Name) (b : List Piece), ps ≠ a ++ lits (token k.chars) ++ b

/-- The holes that have a value, filled with it. -/
def fill (look : Name → Option (List Char)) : List Piece → List Piece
  | [] => []
  | .lit c :: ps => .lit c :: fill look ps
  | .hole k :: ps =>
      match look k with
      | some v => lits v ++ fill look ps
      | none => .hole k :: fill look ps

/-! ### Text -/

variable {ps : List Piece} {k : Name}

lemma text_append (ps qs : List Piece) : text (ps ++ qs) = text ps ++ text qs :=
  flatMap_append

lemma text_lit (c : Char) (ps : List Piece) : text (.lit c :: ps) = c :: text ps := rfl

lemma text_hole (k : Name) (ps : List Piece) :
    text (.hole k :: ps) = '\x7b' :: '\x7b' :: (k.chars ++ '\x7d' :: '\x7d' :: text ps) := by
  show token k.chars ++ text ps = _
  unfold token
  rw [cons_append, cons_append, append_assoc]
  rfl

variable (cs : List Char)

lemma text_lits : text (lits cs) = cs := by
  induction cs with
  | nil => rfl
  | cons c cs ih => exact congrArg (c :: ·) ih

lemma plain_append (ps qs : List Piece) : plain (ps ++ qs) = plain ps ++ plain qs := by
  induction ps with
  | nil => rfl
  | cons p ps ih =>
      cases p with
      | lit c => exact congrArg (c :: ·) ih
      | hole k => exact ih

lemma plain_lits : plain (lits cs) = cs := by
  induction cs with
  | nil => rfl
  | cons c cs ih => exact congrArg (c :: ·) ih

/-! ### Where a hole is found -/

/-- A name ends at its braces. -/
lemma BraceFree.eq_of_isPrefix {k j : List Char} (hk : BraceFree k) (hj : BraceFree j)
    {s t : List Char} (h : k ++ '\x7d' :: s <+: j ++ '\x7d' :: t) : k = j := by
  induction k generalizing j with
  | nil =>
      cases j with
      | nil => rfl
      | cons d j =>
          obtain ⟨rfl, -⟩ := cons_prefix_cons.mp h
          exact absurd rfl (hj _ mem_cons_self).2
  | cons c k ih =>
      have hc := hk c mem_cons_self
      have hk' : BraceFree k := fun x hx => hk x (mem_cons_of_mem c hx)
      cases j with
      | nil =>
          obtain ⟨rfl, -⟩ := cons_prefix_cons.mp h
          exact absurd rfl hc.2
      | cons d j =>
          have hj' : BraceFree j := fun x hx => hj x (mem_cons_of_mem d hx)
          obtain ⟨rfl, hrest⟩ := cons_prefix_cons.mp h
          rw [ih hk' hj' hrest]

/-- Characters that are no opening braces stand as characters. -/
lemma lits_of_isPrefix {cs : List Char} (hcs : ∀ c ∈ cs, c ≠ '\x7b') (h : cs <+: text ps) :
    ∃ rest, ps = lits cs ++ rest := by
  induction cs generalizing ps with
  | nil => exact ⟨ps, rfl⟩
  | cons c cs ih =>
      rw [forall_mem_cons] at hcs
      cases ps with
      | nil => exact absurd (eq_nil_of_prefix_nil h) (cons_ne_nil c cs)
      | cons p ps =>
          cases p with
          | lit d =>
              obtain ⟨rfl, hrest⟩ := cons_prefix_cons.mp h
              obtain ⟨rest, rfl⟩ := ih hcs.2 hrest
              exact ⟨rest, rfl⟩
          | hole j =>
              rw [text_hole] at h
              exact absurd (cons_prefix_cons.mp h).1 hcs.1

lemma name_noOpening (k : Name) : ∀ c ∈ k.chars ++ ['\x7d', '\x7d'], c ≠ '\x7b' := by
  intro c hc
  rcases mem_append.mp hc with hname | hclose
  · exact (k.braceFree c hname).1
  · rcases mem_pair.mp hclose with rfl | rfl <;> decide

/-- **Where a hole is found**, it stands, or characters that spell it. -/
theorem token_isPrefix (h : token k.chars <+: text ps) :
    (∃ rest, ps = .hole k :: rest) ∨ ∃ rest, ps = lits (token k.chars) ++ rest := by
  have hname := name_noOpening k
  cases ps with
  | nil => exact absurd (eq_nil_of_prefix_nil h) (cons_ne_nil _ _)
  | cons p ps =>
      cases p with
      | hole j =>
          rw [text_hole] at h
          have hnames := (cons_prefix_cons.mp (cons_prefix_cons.mp h).2).2
          have heq := k.braceFree.eq_of_isPrefix j.braceFree hnames
          obtain ⟨k, hk⟩ := k
          obtain rfl : k = j.chars := heq
          exact .inl ⟨ps, rfl⟩
      | lit c =>
          rw [text_lit] at h
          obtain ⟨rfl, hsecond⟩ := cons_prefix_cons.mp h
          cases ps with
          | nil => exact absurd (eq_nil_of_prefix_nil hsecond) (cons_ne_nil _ _)
          | cons p ps =>
              cases p with
              | lit d =>
                  rw [text_lit] at hsecond
                  obtain ⟨rfl, hbehind⟩ := cons_prefix_cons.mp hsecond
                  obtain ⟨rest, rfl⟩ := lits_of_isPrefix hname hbehind
                  exact .inr ⟨rest, rfl⟩
              | hole j =>
                  -- the second brace of one hole would open the other's name
                  rw [text_hole] at hsecond
                  obtain ⟨c, cs, hcs⟩ := exists_cons_of_ne_nil
                    (append_ne_nil_of_right_ne_nil k.chars
                      (cons_ne_nil '\x7d' ['\x7d']))
                  have hbehind := (cons_prefix_cons.mp hsecond).2
                  rw [hcs] at hbehind hname
                  exact absurd (cons_prefix_cons.mp hbehind).1 (hname c mem_cons_self)

/-! ### Reading -/

lemma Readable.of_append {a b : List Piece} (h : Readable (a ++ ps ++ b)) : Readable ps := by
  intro a' k b' heq
  refine h (a ++ a') k (b' ++ b) ?_
  rw [heq, append_assoc, append_assoc, append_assoc, append_assoc, append_assoc]

lemma Readable.of_cons {p : Piece} (h : Readable (p :: ps)) : Readable ps := by
  intro a k b heq
  refine h (p :: a) k b ?_
  rw [heq]
  rfl

lemma readable_nil : Readable [] := by
  rintro a k b heq
  exact absurd heq.symm (append_ne_nil_of_left_ne_nil
    (append_ne_nil_of_right_ne_nil a (cons_ne_nil _ _)) b)

lemma Readable.hole (h : Readable ps) (j : Name) : Readable (.hole j :: ps) := by
  intro a k b heq
  cases a with
  | nil => cases heq
  | cons p a => exact h a k b (List.cons.inj heq).2

/-- A character in front, if it does not begin a hole. -/
lemma Readable.lit (h : Readable ps) {c : Char}
    (hc : ∀ k : Name, ¬token k.chars <+: c :: text ps) : Readable (.lit c :: ps) := by
  intro a k b heq
  cases a with
  | nil =>
      refine hc k ⟨text b, ?_⟩
      have htext := congrArg text heq
      rw [nil_append, text_append, text_lits, text_lit] at htext
      exact htext.symm
  | cons p a => exact h a k b (List.cons.inj heq).2

lemma exists_readable : ∃ ps, Readable ps ∧ text ps = cs := by
  induction hn : cs.length using Nat.strongRecOn generalizing cs with
  | _ n ih =>
      subst hn
      by_cases hhole : ∃ k : Name, token k.chars <+: cs
      · obtain ⟨k, rest, rfl⟩ := hhole
        have hless : rest.length < (token k.chars ++ rest).length := by
          rw [length_append]
          exact Nat.lt_add_of_pos_left (length_pos_of_ne_nil (cons_ne_nil _ _))
        obtain ⟨ps, hps, rfl⟩ := ih _ hless rest rfl
        exact ⟨.hole k :: ps, hps.hole k, rfl⟩
      · cases cs with
        | nil => exact ⟨[], readable_nil, rfl⟩
        | cons c cs =>
            obtain ⟨ps, hps, rfl⟩ := ih _ (Nat.lt_succ_self _) cs rfl
            exact ⟨.lit c :: ps, hps.lit fun k hk => hhole ⟨k, hk⟩, rfl⟩

lemma eq_of_text_eq {qs : List Piece} (hps : Readable ps) (hqs : Readable qs)
    (h : text ps = text qs) : ps = qs := by
  -- a hole of either stands in the other as well
  have hhole : ∀ {ps qs : List Piece} {k : Name}, Readable qs → text (.hole k :: ps) = text qs →
      ∃ rest, qs = .hole k :: rest := by
    intro ps qs k hqs h
    have hfound : token k.chars <+: text qs := ⟨text ps, h⟩
    rcases token_isPrefix hfound with hstands | ⟨rest, rfl⟩
    · exact hstands
    · exact absurd rfl (hqs [] k rest)
  induction ps generalizing qs with
  | nil =>
      cases qs with
      | nil => rfl
      | cons q qs => cases q <;> cases h
  | cons p ps ih =>
      cases p with
      | hole k =>
          obtain ⟨rest, rfl⟩ := hhole hqs h
          rw [ih hps.of_cons hqs.of_cons (append_cancel_left h)]
      | lit c =>
          cases qs with
          | nil => cases h
          | cons q qs =>
              cases q with
              | hole k =>
                  obtain ⟨rest, heq⟩ := hhole hps h.symm
                  cases heq
              | lit d =>
                  obtain ⟨rfl, hrest⟩ := List.cons.inj h
                  rw [ih hps.of_cons hqs.of_cons hrest]

/-- **A text is read in one way.** -/
theorem existsUnique_readable : ∃! ps, Readable ps ∧ text ps = cs := by
  obtain ⟨ps, hps, rfl⟩ := exists_readable cs
  exact ⟨ps, ⟨hps, rfl⟩, fun qs hqs => eq_of_text_eq hqs.1 hps hqs.2⟩

/-! ### Searching -/

/-- A pattern begins at no character of a text, whatever stands behind it. -/
def Skips (pat : List Char) : List Char → List Char → Prop
  | [], _ => True
  | c :: cs, rest => ¬pat <+: c :: (cs ++ rest) ∧ Skips pat cs rest

lemma Skips.append {pat cs ds rest : List Char} (h : Skips pat cs (ds ++ rest))
    (h' : Skips pat ds rest) : Skips pat (cs ++ ds) rest := by
  induction cs with
  | nil => exact h'
  | cons c cs ih =>
      refine ⟨fun hfound => h.1 ?_, ih h.2⟩
      rw [← append_assoc]
      exact hfound

lemma skips_of_notMem {p : Char} {pat cs : List Char} (h : p ∉ cs) (rest : List Char) :
    Skips (p :: pat) cs rest := by
  induction cs with
  | nil => trivial
  | cons c cs ih =>
      rw [mem_cons, not_or] at h
      exact ⟨fun hc => h.1 (cons_prefix_cons.mp hc).1, ih h.2⟩

/-- **A hole is not found before it stands.** -/
theorem skips_text {qs : List Piece} (h : Readable (ps ++ qs)) (hk : .hole k ∉ ps) :
    Skips (token k.chars) (text ps) (text qs) := by
  induction ps with
  | nil => trivial
  | cons p ps ih =>
      rw [mem_cons, not_or] at hk
      have hrest := ih h.of_cons hk.2
      have hstart : ¬token k.chars <+: text (p :: ps) ++ text qs := by
        intro hfound
        rw [← text_append] at hfound
        rcases token_isPrefix hfound with ⟨rest, heq⟩ | ⟨rest, heq⟩
        · exact hk.1 (List.cons.inj heq).1.symm
        · exact h [] k rest heq
      cases p with
      | lit c => exact ⟨hstart, hrest⟩
      | hole j =>
          rw [text_hole] at hstart ⊢
          have hname : Skips (token k.chars) (j.chars ++ ['\x7d', '\x7d']) (text ps ++ text qs) :=
            skips_of_notMem (fun hmem => name_noOpening j _ hmem rfl) _
          have hbehind := hname.append hrest
          rw [append_assoc] at hbehind
          refine ⟨hstart, ?_, hbehind⟩
          intro hfound
          -- behind the first brace of a hole a brace is not followed by another
          have hsecond := (cons_prefix_cons.mp hfound).2
          have hnext := name_noOpening j
          cases hj : j.chars with
          | nil =>
              rw [hj] at hsecond
              exact absurd (cons_prefix_cons.mp hsecond).1 (by decide)
          | cons d js =>
              rw [hj] at hsecond hnext
              exact absurd (cons_prefix_cons.mp hsecond).1.symm (hnext d mem_cons_self)

/-! ### Filling -/

variable {look look' : Name → Option (List Char)}

lemma fill_append (look : Name → Option (List Char)) (ps qs : List Piece) :
    fill look (ps ++ qs) = fill look ps ++ fill look qs := by
  induction ps with
  | nil => rfl
  | cons p ps ih =>
      cases p with
      | lit c => exact congrArg (Piece.lit c :: ·) ih
      | hole k =>
          rw [cons_append, fill, fill]
          split
          · rw [ih, append_assoc]
          · rw [ih, cons_append]

lemma fill_lits (look : Name → Option (List Char)) (cs : List Char) :
    fill look (lits cs) = lits cs := by
  induction cs with
  | nil => rfl
  | cons c cs ih => exact congrArg (Piece.lit c :: ·) ih

/-- Filling twice is filling once, from the second where the first has nothing. -/
lemma fill_fill (look look' : Name → Option (List Char)) (ps : List Piece) :
    fill look' (fill look ps) = fill (fun k => (look k).or (look' k)) ps := by
  induction ps with
  | nil => rfl
  | cons p ps ih =>
      cases p with
      | lit c => exact congrArg (Piece.lit c :: ·) ih
      | hole k =>
          rw [fill, fill]
          rcases look k with - | v
          · rw [Option.none_or]
            rw [fill, ih]
          · rw [Option.some_or]
            rw [fill_append, fill_lits, ih]

lemma fill_none (ps : List Piece) : fill (fun _ => none) ps = ps := by
  induction ps with
  | nil => rfl
  | cons p ps ih =>
      cases p with
      | lit c => exact congrArg (Piece.lit c :: ·) ih
      | hole k => exact congrArg (Piece.hole k :: ·) ih

/-- **Filling writes characters only**: a text that is readable once filled was so
before. -/
theorem Readable.of_fill (h : Readable (fill look ps)) : Readable ps := by
  rintro a k b rfl
  refine h (fill look a) k (fill look b) ?_
  rw [fill_append, fill_append, fill_lits]

end HoleTexts
