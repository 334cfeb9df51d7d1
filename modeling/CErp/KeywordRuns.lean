/-
Runs of the calls on the parameter vocabulary, and what every spelling resolves to
before and after each of them.

Every statement of a call is a hand-over of names (`Takes`): some names go to one
keyword, and the others stay.  A merge hands over everything its source owns.

`vocabulary_kept` puts the calls together.
-/
import CErp.ParamKeywords

namespace CErp

open Outcome Table Option Runs

namespace ParamKeywords

variable {v : Json}

section Statements

variable {db db' : KeywordDb}

/-! ### Names handed over -/

/-- A keyword takes some names over, and the others stay. -/
structure Takes (db db' : KeywordDb) (taken : String → Prop) (k : ℤ) : Prop where
  sound : Sound db'
  owns : ∀ n, taken n → (naming db').Owns n k
  rest : ∀ n j, ¬ taken n → (naming db).Owns n j → (naming db').Owns n j
  live : ∀ j, (naming db).Live j → (naming db').Live j

variable {taken : String → Prop}

lemma Takes.refl (h : Sound db) (hnone : ∀ n, ¬ taken n) (k : ℤ) : Takes db db taken k where
  sound := h
  owns := fun n hn => absurd hn (hnone n)
  rest := fun _ _ _ hown => hown
  live := fun _ hj => hj

lemma Takes.trans {db₁ : KeywordDb} {taken' : String → Prop} {k : ℤ} (h : Takes db db₁ taken k)
    (h' : Takes db₁ db' taken' k) : Takes db db' (fun n => taken n ∨ taken' n) k where
  sound := h'.sound
  owns := by
    intro n hn
    by_cases hlate : taken' n
    · exact h'.owns n hlate
    · exact h'.rest n k hlate (h.owns n (hn.resolve_right hlate))
  rest := by
    intro n j hn hown
    rw [not_or] at hn
    exact h'.rest n j hn.2 (h.rest n j hn.1 hown)
  live := fun j hj => h'.live j (h.live j hj)

lemma Takes.congr {taken taken' : String → Prop} {k : ℤ} (h : Takes db db' taken k)
    (hiff : ∀ n, taken n ↔ taken' n) : Takes db db' taken' k where
  sound := h.sound
  owns := fun n hn => h.owns n ((hiff n).mpr hn)
  rest := fun n j hn hown => h.rest n j (fun htaken => hn ((hiff n).mp htaken)) hown
  live := h.live

/-- Nothing is lost just when the names meant nothing else. -/
lemma Takes.preserves_iff {k : ℤ} (h : Takes db db' taken k) :
    (naming db).Preserves (naming db') id ↔ ∀ n j, taken n → (naming db).Means n j → j = k :=
  Naming.preserves_take_iff h.sound.unambiguous h.owns h.rest h.live

lemma Sound.withNames (h : Sound db) (names : List String) : Sound { db with names := names } :=
  ⟨h.keywordNorm, h.keywordOne, h.aliasNorm, h.aliasOne, h.aliasOf, h.apart⟩

/-! ### Aliases -/

variable {kid : ℤ} {source : String}

lemma addAlias_keeps {spelling : String} (h : addAlias source kid db spelling = .ok db') :
    db'.keywords = db.keywords ∧ db'.names = db.names := by
  unfold addAlias at h
  dsimp only at h
  split at h
  · obtain rfl := Except.ok.inj h
    exact ⟨rfl, rfl⟩
  split at h
  · cases h
  split at h
  · obtain rfl := Except.ok.inj h
    exact ⟨rfl, rfl⟩
  · obtain rfl := Except.ok.inj h
    exact ⟨rfl, rfl⟩

/-- The spelling goes to the keyword. -/
lemma addAlias_takes {spelling : String} (h : Sound db)
    (hkid : ∃ kw, db.keywords.get? kid = some kw)
    (hadd : addAlias source kid db spelling = .ok db') :
    Takes db db' (fun n => n ≠ "" ∧ n = paramNorm spelling) kid := by
  unfold addAlias at hadd
  dsimp only at hadd
  split at hadd
  · next hempty =>
      obtain rfl := Except.ok.inj hadd
      apply Takes.refl h
      rintro n ⟨hn, rfl⟩
      exact hn hempty
  next hempty =>
  split at hadd
  · cases hadd
  next hfree =>
  -- no keyword has the name
  have hkeyword : ∀ i k, db.keywords.get? i = some k → k.norm ≠ paramNorm spelling := by
    intro i k hk hn
    have hfalse := findBy_eq_none_iff.mp hfree i k hk
    rw [hn, beq_self_eq_true] at hfalse
    cases hfalse
  split at hadd
  · -- the alias there is moves
    next id old hfind =>
      obtain rfl := Except.ok.inj hadd
      obtain ⟨hold, hnorm⟩ := of_findBy_eq_some hfind
      rw [beq_iff_eq] at hnorm
      have hget : ∀ j, ((db.aliases.modify id fun a => { a with keywordId := kid }).skip).get? j =
          (db.aliases.get? j).map fun a => if j = id then { a with keywordId := kid } else a := by
        intro j
        rw [get?_skip, get?_modify]
      have hback : ∀ j a', ((db.aliases.modify id fun a => { a with keywordId := kid }).skip).get? j =
          some a' → ∃ a, db.aliases.get? j = some a ∧ a'.norm = a.norm ∧ a'.spelling = a.spelling ∧
            (a'.keywordId = kid ∨ a'.keywordId = a.keywordId) := by
        intro j a' ha'
        rw [hget, map_eq_some_iff] at ha'
        obtain ⟨a, ha, rfl⟩ := ha'
        refine ⟨a, ha, ?_⟩
        split
        · exact ⟨rfl, rfl, .inl rfl⟩
        · exact ⟨rfl, rfl, .inr rfl⟩
      refine ⟨⟨h.keywordNorm, h.keywordOne, ?_, ?_, ?_, ?_⟩, ?_, ?_, fun _ hj => hj⟩
      · intro j a' ha'
        obtain ⟨a, ha, hn, hs, -⟩ := hback j a' ha'
        rw [hn, hs]
        exact h.aliasNorm j a ha
      · intro i j a' b' ha' hb' heq
        obtain ⟨a, ha, hna, -⟩ := hback i a' ha'
        obtain ⟨b, hb, hnb, -⟩ := hback j b' hb'
        exact h.aliasOne i j a b ha hb (by rw [← hna, ← hnb, heq])
      · intro j a' ha'
        obtain ⟨a, ha, -, -, hk | hk⟩ := hback j a' ha'
        · rw [hk]
          exact hkid
        · rw [hk]
          exact h.aliasOf j a ha
      · intro i j k a' hk ha'
        obtain ⟨a, ha, hn, -⟩ := hback j a' ha'
        rw [hn]
        exact h.apart i j k a hk ha
      · rintro n ⟨-, rfl⟩
        refine .inr ⟨id, { old with keywordId := kid }, ?_, hnorm, rfl⟩
        rw [hget, hold, map_some, if_pos rfl]
      · rintro n j hn (hown | ⟨i, a, ha, hna, hak⟩)
        · exact .inl hown
        · refine .inr ⟨i, a, ?_, hna, hak⟩
          rw [hget, ha, map_some, if_neg]
          rintro rfl
          rw [hold, Option.some.injEq] at ha
          subst ha
          refine hn ⟨?_, hna.symm.trans hnorm⟩
          rw [← hna]
          exact (h.aliasNorm i old hold).2
  · -- the alias is new
    next hnone =>
      obtain rfl := Except.ok.inj hadd
      have halias : ∀ i a, db.aliases.get? i = some a → a.norm ≠ paramNorm spelling := by
        intro i a ha hn
        have hfalse := findBy_eq_none_iff.mp hnone i a ha
        rw [hn, beq_self_eq_true] at hfalse
        cases hfalse
      have hback : ∀ {j a'}, (db.aliases.insert ⟨kid, spelling, paramNorm spelling, source⟩).get? j =
          some a' → (j = db.aliases.nextId ∧ a' = ⟨kid, spelling, paramNorm spelling, source⟩) ∨
            db.aliases.get? j = some a' := by
        intro j a' ha'
        rw [get?_insert] at ha'
        split at ha'
        · next hj => exact .inl ⟨hj, (some.inj ha').symm⟩
        · exact .inr ha'
      refine ⟨⟨h.keywordNorm, h.keywordOne, ?_, ?_, ?_, ?_⟩, ?_, ?_, fun _ hj => hj⟩
      · intro j a' ha'
        rcases hback ha' with ⟨-, rfl⟩ | ha
        · exact ⟨rfl, hempty⟩
        · exact h.aliasNorm j a' ha
      · intro i j a' b' ha' hb' heq
        rcases hback ha' with ⟨hi, rfl⟩ | ha
        · rcases hback hb' with ⟨hj, rfl⟩ | hb
          · exact hi.trans hj.symm
          · exact absurd heq.symm (halias j b' hb)
        · rcases hback hb' with ⟨hj, rfl⟩ | hb
          · exact absurd heq (halias i a' ha)
          · exact h.aliasOne i j a' b' ha hb heq
      · intro j a' ha'
        rcases hback ha' with ⟨-, rfl⟩ | ha
        · exact hkid
        · exact h.aliasOf j a' ha
      · intro i j k a' hk ha'
        rcases hback ha' with ⟨-, rfl⟩ | ha
        · exact hkeyword i k hk
        · exact h.apart i j k a' hk ha
      · rintro n ⟨-, rfl⟩
        exact .inr ⟨db.aliases.nextId, _, get?_insert_self _ _, rfl, rfl⟩
      · rintro n j hn (hown | ⟨i, a, ha, hna, hak⟩)
        · exact .inl hown
        · refine .inr ⟨i, a, ?_, hna, hak⟩
          exact (get?_insert_of_ne _ _ (lt_nextId_of_get? ha).ne).trans ha

/-- The spellings of a list go to the keyword. -/
lemma aliases_take {spellings : List String} (h : Sound db)
    (hkid : ∃ kw, db.keywords.get? kid = some kw)
    (hadd : spellings.foldlM (addAlias source kid) db = .ok db') :
    Takes db db' (fun n => n ≠ "" ∧ ∃ s ∈ spellings, n = paramNorm s) kid := by
  induction spellings generalizing db with
  | nil =>
      obtain rfl := Except.ok.inj hadd
      apply Takes.refl h
      rintro n ⟨-, s, hs, -⟩
      cases hs
  | cons s spellings ih =>
      obtain ⟨m, hm, hrest⟩ := foldlM_cons_ok.mp hadd
      have hfirst := addAlias_takes h hkid hm
      rw [← (addAlias_keeps hm).1] at hkid
      apply (hfirst.trans (ih hfirst.sound hkid hrest)).congr
      intro n
      rw [← and_or_left]
      simp only [List.mem_cons, exists_eq_or_imp]

lemma Sound.lessAliases (h : Sound db) {aliases : Table Alias}
    (hsub : ∀ i a, aliases.get? i = some a → db.aliases.get? i = some a) :
    Sound { db with aliases := aliases } where
  keywordNorm := h.keywordNorm
  keywordOne := h.keywordOne
  aliasNorm := fun i a ha => h.aliasNorm i a (hsub i a ha)
  aliasOne := fun i j a b ha hb => h.aliasOne i j a b (hsub i a ha) (hsub j b hb)
  aliasOf := fun i a ha => h.aliasOf i a (hsub i a ha)
  apart := fun i j k a hk ha => h.apart i j k a hk (hsub j a ha)

lemma deleteAlias_sound (h : Sound db) (norm : String) : Sound (deleteAlias db norm) ∧
    (∀ j a, (deleteAlias db norm).aliases.get? j = some a → a.norm ≠ norm) ∧
      ∀ n j, n ≠ norm → (naming db).Owns n j → (naming (deleteAlias db norm)).Owns n j := by
  have hget : ∀ j a, (deleteAlias db norm).aliases.get? j = some a ↔
      db.aliases.get? j = some a ∧ a.norm ≠ norm := by
    intro j a
    unfold deleteAlias
    rw [get?_delete, filter_eq_some_iff]
    simp
  refine ⟨h.lessAliases fun j a ha => ((hget j a).mp ha).1, fun j a ha => ((hget j a).mp ha).2, ?_⟩
  · rintro n j hn (hown | ⟨i, a, ha, rfl, hak⟩)
    · exact .inl hown
    · exact .inr ⟨i, a, (hget i a).mpr ⟨ha, hn⟩, rfl, hak⟩

/-! ### Keywords -/

lemma setName_sound (h : Sound db) {cur : Keyword} {name norm : String}
    (hcur : db.keywords.get? kid = some cur) (hnorm : norm = paramNorm name) (hne : norm ≠ "")
    (hfree : ∀ i k, db.keywords.get? i = some k → k.norm = norm → i = kid)
    (halias : ∀ i a, db.aliases.get? i = some a → a.norm ≠ norm) :
    Sound (setName db kid name norm) ∧ (naming (setName db kid name norm)).Owns norm kid ∧
      (∀ n j, n ≠ cur.norm → (naming db).Owns n j → (naming (setName db kid name norm)).Owns n j) ∧
        ∀ j, (naming db).Live j → (naming (setName db kid name norm)).Live j := by
  have hget : ∀ j, (setName db kid name norm).keywords.get? j = (db.keywords.get? j).map fun k =>
      if j = kid then { k with name := name, norm := norm } else k := by
    intro j
    exact get?_modify _ _ _ _
  have hself : (setName db kid name norm).keywords.get? kid =
      some { cur with name := name, norm := norm } := by
    rw [hget, hcur, map_some, if_pos rfl]
  have hother : ∀ {j}, j ≠ kid → (setName db kid name norm).keywords.get? j =
      db.keywords.get? j := by
    intro j hj
    rw [hget]
    simp only [if_neg hj, map_id']
  have hback : ∀ {j k'}, (setName db kid name norm).keywords.get? j = some k' →
      (j = kid ∧ k' = { cur with name := name, norm := norm }) ∨
        (j ≠ kid ∧ db.keywords.get? j = some k') := by
    intro j k' hk'
    by_cases hj : j = kid
    · subst hj
      rw [hself, Option.some.injEq] at hk'
      exact .inl ⟨rfl, hk'.symm⟩
    · rw [hother hj] at hk'
      exact .inr ⟨hj, hk'⟩
  refine ⟨⟨?_, ?_, h.aliasNorm, h.aliasOne, ?_, ?_⟩, .inl ⟨_, hself, rfl⟩, ?_, ?_⟩
  · intro j k' hk'
    rcases hback hk' with ⟨-, rfl⟩ | ⟨-, hk⟩
    · exact ⟨hnorm, hne⟩
    · exact h.keywordNorm j k' hk
  · intro i j k l hk hl heq
    rcases hback hk with ⟨rfl, rfl⟩ | ⟨-, hkold⟩
    · rcases hback hl with ⟨rfl, -⟩ | ⟨-, hlold⟩
      · rfl
      · exact (hfree j l hlold heq.symm).symm
    · rcases hback hl with ⟨rfl, rfl⟩ | ⟨-, hlold⟩
      · exact hfree i k hkold heq
      · exact h.keywordOne i j k l hkold hlold heq
  · intro i a ha
    obtain ⟨k, hk⟩ := h.aliasOf i a ha
    exact ⟨_, (hget a.keywordId).trans (by rw [hk, map_some])⟩
  · intro i j k a hk ha
    rcases hback hk with ⟨-, rfl⟩ | ⟨-, hk⟩
    · exact (halias j a ha).symm
    · exact h.apart i j k a hk ha
  · rintro n j hn (⟨k, hk, rfl⟩ | hown)
    · refine .inl ⟨k, ?_, rfl⟩
      rw [hother]
      · exact hk
      · rintro rfl
        rw [hcur, Option.some.injEq] at hk
        exact hn (by rw [hk])
    · exact .inr hown
  · rintro j ⟨k, hk, hactive⟩
    by_cases hj : j = kid
    · subst hj
      rw [hcur, Option.some.injEq] at hk
      exact ⟨_, hself, by rw [← hk] at hactive; exact hactive⟩
    · exact ⟨k, (hother hj).trans hk, hactive⟩

/-- The keyword is put in or revived under its name. -/
lemma insertKeyword_takes (h : Sound db) {k : Keyword} {id : ℤ} (hnorm : k.norm = paramNorm k.name)
    (hne : k.norm ≠ "") (hactive : k.active = true)
    (halias : ∀ i a, db.aliases.get? i = some a → a.norm ≠ k.norm)
    (hins : insertKeyword db k = .ok (db', id)) :
    Takes db db' (fun n => n = k.norm) id ∧ (∃ kw, db'.keywords.get? id = some kw) ∧
      ∀ j kw, db.keywords.get? j = some kw → (kw.norm = k.norm ↔ j = id) := by
  unfold insertKeyword at hins
  split at hins
  · next i old hfind =>
      obtain ⟨rfl, rfl⟩ := Prod.mk.inj (Except.ok.inj hins)
      obtain ⟨hold, hsame⟩ := of_findBy_eq_some hfind
      rw [beq_iff_eq] at hsame
      have hget : ∀ j, ((db.keywords.modify i fun k => { k with active := true }).skip).get? j =
          (db.keywords.get? j).map fun k => if j = i then { k with active := true } else k := by
        intro j
        rw [get?_skip, get?_modify]
      have hback : ∀ {j k'}, ((db.keywords.modify i fun k => { k with active := true }).skip).get? j =
          some k' → ∃ l, db.keywords.get? j = some l ∧ k'.norm = l.norm ∧ k'.name = l.name := by
        intro j k' hk'
        rw [hget, map_eq_some_iff] at hk'
        obtain ⟨l, hl, rfl⟩ := hk'
        refine ⟨l, hl, ?_⟩
        split
        · exact ⟨rfl, rfl⟩
        · exact ⟨rfl, rfl⟩
      have hforth : ∀ {j l}, db.keywords.get? j = some l →
          ∃ k', ((db.keywords.modify i fun k => { k with active := true }).skip).get? j = some k' ∧
            k'.norm = l.norm ∧ (l.active = true → k'.active = true) := by
        intro j l hl
        rw [hget, hl, map_some]
        refine ⟨_, rfl, ?_⟩
        split
        · exact ⟨rfl, fun _ => rfl⟩
        · exact ⟨rfl, fun hl => hl⟩
      refine ⟨⟨⟨?_, ?_, h.aliasNorm, h.aliasOne, ?_, ?_⟩, ?_, ?_, ?_⟩, ?_, ?_⟩
      · intro j k' hk'
        obtain ⟨l, hl, hn, hname⟩ := hback hk'
        rw [hn, hname]
        exact h.keywordNorm j l hl
      · intro j j' k' l' hk' hl' heq
        obtain ⟨l, hl, hn, -⟩ := hback hk'
        obtain ⟨m, hm, hn', -⟩ := hback hl'
        exact h.keywordOne j j' l m hl hm (by rw [← hn, ← hn', heq])
      · intro j a ha
        obtain ⟨l, hl⟩ := h.aliasOf j a ha
        obtain ⟨k', hk', -⟩ := hforth hl
        exact ⟨k', hk'⟩
      · intro j j' k' a hk' ha
        obtain ⟨l, hl, hn, -⟩ := hback hk'
        rw [hn]
        exact h.apart j j' l a hl ha
      · rintro n rfl
        obtain ⟨k', hk', hn, -⟩ := hforth hold
        exact .inl ⟨k', hk', hn.trans hsame⟩
      · rintro n j hn (⟨l, hl, rfl⟩ | hown)
        · obtain ⟨k', hk', hn', -⟩ := hforth hl
          exact .inl ⟨k', hk', hn'⟩
        · exact .inr hown
      · rintro j ⟨l, hl, hlive⟩
        obtain ⟨k', hk', -, hact⟩ := hforth hl
        exact ⟨k', hk', hact hlive⟩
      · obtain ⟨k', hk', -⟩ := hforth hold
        exact ⟨k', hk'⟩
      · intro j kw hkw
        constructor
        · intro hn
          exact h.keywordOne j i kw old hkw hold (hn.trans hsame.symm)
        · rintro rfl
          rw [hold, Option.some.injEq] at hkw
          rw [← hkw, hsame]
  · next hnone =>
      split at hins
      · obtain ⟨rfl, rfl⟩ := Prod.mk.inj (Except.ok.inj hins)
        have hfree : ∀ j kw, db.keywords.get? j = some kw → kw.norm ≠ k.norm := by
          intro j kw hkw hn
          have hfalse := findBy_eq_none_iff.mp hnone j kw hkw
          rw [hn, beq_self_eq_true] at hfalse
          cases hfalse
        have hback : ∀ {j k'}, (db.keywords.insert k).get? j = some k' →
            (j = db.keywords.nextId ∧ k' = k) ∨ db.keywords.get? j = some k' := by
          intro j k' hk'
          rw [get?_insert] at hk'
          split at hk'
          · next hj => exact .inl ⟨hj, (some.inj hk').symm⟩
          · exact .inr hk'
        have hforth : ∀ {j l}, db.keywords.get? j = some l →
            (db.keywords.insert k).get? j = some l := by
          intro j l hl
          exact (get?_insert_of_ne _ _ (lt_nextId_of_get? hl).ne).trans hl
        refine ⟨⟨⟨?_, ?_, h.aliasNorm, h.aliasOne, ?_, ?_⟩, ?_, ?_, ?_⟩, ?_, ?_⟩
        · intro j k' hk'
          rcases hback hk' with ⟨-, rfl⟩ | hk'
          · exact ⟨hnorm, hne⟩
          · exact h.keywordNorm j k' hk'
        · intro i j k' l' hk' hl' heq
          rcases hback hk' with ⟨rfl, rfl⟩ | hkold
          · rcases hback hl' with ⟨rfl, -⟩ | hlold
            · rfl
            · exact absurd heq.symm (hfree j l' hlold)
          · rcases hback hl' with ⟨rfl, rfl⟩ | hlold
            · exact absurd heq (hfree i k' hkold)
            · exact h.keywordOne i j k' l' hkold hlold heq
        · intro j a ha
          obtain ⟨l, hl⟩ := h.aliasOf j a ha
          exact ⟨l, hforth hl⟩
        · intro i j k' a hk' ha
          rcases hback hk' with ⟨-, rfl⟩ | hk'
          · exact (halias j a ha).symm
          · exact h.apart i j k' a hk' ha
        · rintro n rfl
          exact .inl ⟨k, get?_insert_self _ _, rfl⟩
        · rintro n j hn (⟨l, hl, rfl⟩ | hown)
          · exact .inl ⟨l, hforth hl, rfl⟩
          · exact .inr hown
        · rintro j ⟨l, hl, hlive⟩
          exact ⟨l, hforth hl, hlive⟩
        · exact ⟨k, get?_insert_self _ _⟩
        · intro j kw hkw
          constructor
          · intro hn
            exact absurd hn (hfree j kw hkw)
          · rintro rfl
            rw [get?_nextId] at hkw
            cases hkw
      · cases hins

/-! ### Merging -/

/-- The source's aliases go to the target, and the source goes. -/
lemma fold_sound (h : Sound db) {into fromId : ℤ} {src : Keyword}
    (hsrc : db.keywords.get? fromId = some src) (hinto : ∃ tgt, db.keywords.get? into = some tgt)
    (hne : fromId ≠ into) :
    Sound (deleteKeyword (moveAliases db into fromId) fromId) ∧
      (∀ n j, n ≠ src.norm → (naming db).Owns n j →
        (naming (deleteKeyword (moveAliases db into fromId) fromId)).Owns n
          (if j = fromId then into else j)) ∧
      ∀ j, j ≠ fromId → (naming db).Live j →
        (naming (deleteKeyword (moveAliases db into fromId) fromId)).Live j := by
  have hkeyword : ∀ j k, (deleteKeyword (moveAliases db into fromId) fromId).keywords.get? j = some k ↔
      db.keywords.get? j = some k ∧ j ≠ fromId := by
    intro j k
    unfold deleteKeyword moveAliases
    rw [get?_delete, filter_eq_some_iff]
    simp
  have halias : ∀ j a, (deleteKeyword (moveAliases db into fromId) fromId).aliases.get? j = some a ↔
      ∃ b, db.aliases.get? j = some b ∧
        (if b.keywordId = fromId then { b with keywordId := into } else b) = a := by
    intro j a
    unfold deleteKeyword moveAliases
    rw [get?_delete, filter_eq_some_iff, get?_updateWhere, map_eq_some_iff]
    simp only [beq_iff_eq]
    constructor
    · exact fun hb => hb.1
    · rintro ⟨b, hb, rfl⟩
      refine ⟨⟨b, hb, rfl⟩, ?_⟩
      split
      · simpa using hne.symm
      · next hb => simpa using hb
  have hback : ∀ {j a}, (deleteKeyword (moveAliases db into fromId) fromId).aliases.get? j = some a →
      ∃ b, db.aliases.get? j = some b ∧ a.norm = b.norm ∧ a.spelling = b.spelling ∧
        a.keywordId = if b.keywordId = fromId then into else b.keywordId := by
    intro j a ha
    obtain ⟨b, hb, rfl⟩ := (halias j a).mp ha
    refine ⟨b, hb, ?_⟩
    split
    · exact ⟨rfl, rfl, rfl⟩
    · exact ⟨rfl, rfl, rfl⟩
  refine ⟨⟨?_, ?_, ?_, ?_, ?_, ?_⟩, ?_, ?_⟩
  · intro j k hk
    exact h.keywordNorm j k ((hkeyword j k).mp hk).1
  · intro i j k l hk hl
    exact h.keywordOne i j k l ((hkeyword i k).mp hk).1 ((hkeyword j l).mp hl).1
  · intro j a ha
    obtain ⟨b, hb, hn, hs, -⟩ := hback ha
    rw [hn, hs]
    exact h.aliasNorm j b hb
  · intro i j a a' ha ha' heq
    obtain ⟨b, hb, hn, -⟩ := hback ha
    obtain ⟨b', hb', hn', -⟩ := hback ha'
    exact h.aliasOne i j b b' hb hb' (by rw [← hn, ← hn', heq])
  · intro j a ha
    obtain ⟨b, hb, -, -, hk⟩ := hback ha
    rw [hk]
    split
    · obtain ⟨tgt, htgt⟩ := hinto
      exact ⟨tgt, (hkeyword into tgt).mpr ⟨htgt, hne.symm⟩⟩
    · next hother =>
        obtain ⟨k, hk⟩ := h.aliasOf j b hb
        exact ⟨k, (hkeyword _ k).mpr ⟨hk, hother⟩⟩
  · intro i j k a hk ha
    obtain ⟨b, hb, hn, -⟩ := hback ha
    rw [hn]
    exact h.apart i j k b ((hkeyword i k).mp hk).1 hb
  · rintro n j hn (⟨k, hk, rfl⟩ | ⟨i, b, hb, rfl, rfl⟩)
    · have hj : j ≠ fromId := by
        rintro rfl
        rw [hsrc, Option.some.injEq] at hk
        exact hn (by rw [hk])
      rw [if_neg hj]
      exact .inl ⟨k, (hkeyword j k).mpr ⟨hk, hj⟩, rfl⟩
    · refine .inr ⟨i, _, (halias i _).mpr ⟨b, hb, rfl⟩, ?_, ?_⟩
      · split
        · rfl
        · rfl
      · split
        · rfl
        · rfl
  · rintro j hj ⟨k, hk, hactive⟩
    exact ⟨k, (hkeyword j k).mpr ⟨hk, hj⟩, hactive⟩

/-- No parameter is left with the name. -/
lemma names_renameParams {fromNorm toName : String} (hne : fromNorm ≠ "")
    (hto : paramNorm toName ≠ fromNorm) :
    ∀ n ∈ (renameParams db fromNorm toName).1.names, paramNorm n ≠ fromNorm := by
  unfold renameParams
  rw [if_neg hne]
  intro n hn
  obtain ⟨m, -, rfl⟩ := List.mem_map.mp hn
  dsimp only
  split
  · exact hto
  · next hkept =>
      rw [sqlNorm_eq, Bool.and_eq_true, beq_iff_eq, bne_iff_ne, not_and_not_right] at hkept
      intro hm
      rw [hkept hm] at hm
      exact hto hm

lemma renameParams_keeps (db : KeywordDb) (fromNorm toName : String) :
    ∃ names, (renameParams db fromNorm toName).1 = { db with names := names } := by
  unfold renameParams
  split
  · exact ⟨db.names, rfl⟩
  · exact ⟨_, rfl⟩

lemma renameParams_takes (h : Sound db) (fromNorm toName : String) (k : ℤ) :
    Takes db (renameParams db fromNorm toName).1 (fun _ => False) k := by
  obtain ⟨names, heq⟩ := renameParams_keeps db fromNorm toName
  rw [heq]
  exact ⟨h.withNames names, fun n hn => hn.elim, fun _ _ _ hown => hown, fun _ hj => hj⟩

/-! ### Calls -/

/-- The keyword's name and the aliases of the call go to it. -/
lemma handleCreateKeyword_takes (h : Sound db) {id : ℤ}
    (hcall : handleCreateKeyword db v = .ok (db', id)) :
    Takes db db' (fun n => n = paramNorm (S v "name") ∨
        n ≠ "" ∧ ∃ s ∈ aliasesOf v, n = paramNorm s) id ∧
      (∀ j kw, db.keywords.get? j = some kw → (kw.norm = paramNorm (S v "name") ↔ j = id)) ∧
        ∀ i a, db.aliases.get? i = some a → a.norm ≠ paramNorm (S v "name") := by
  unfold handleCreateKeyword at hcall
  split at hcall
  · cases hcall
  next hne =>
  split at hcall
  · cases hcall
  next hjoined =>
  obtain ⟨⟨inserted, id'⟩, hins, hrest⟩ := bind_ok_iff.mp hcall
  obtain ⟨aliased, hadd, hpair⟩ := bind_ok_iff.mp hrest
  obtain ⟨rfl, rfl⟩ := Prod.mk.inj (Except.ok.inj hpair)
  have halias : ∀ i a, db.aliases.get? i = some a → a.norm ≠ paramNorm (S v "name") := by
    intro i a ha hn
    obtain ⟨k, hk⟩ := h.aliasOf i a ha
    unfold KeywordDb.joined at hjoined
    rw [← hn, h.findAlias ha, bind_some, hk] at hjoined
    cases hjoined
  obtain ⟨hfirst, hsome, hid⟩ := insertKeyword_takes h rfl hne rfl halias hins
  exact ⟨hfirst.trans (aliases_take hfirst.sound hsome hadd), hid, halias⟩

/-- The new name and the old one go to the keyword. -/
lemma handleRename_takes (h : Sound db) {r : ℕ} (hcall : handleRename db v = .ok (db', r)) :
    ∃ cur, db.keywords.get? (I v "keyword_id") = some cur ∧
      Takes db db' (fun n => n = paramNorm (S v "name") ∨ n = cur.norm) (I v "keyword_id") := by
  unfold handleRename at hcall
  dsimp only at hcall
  split at hcall
  · cases hcall
  next hvalid =>
  rw [not_or] at hvalid
  split at hcall
  · cases hcall
  next cur hcur =>
  refine ⟨cur, hcur, ?_⟩
  split at hcall
  · -- only the spelling changes
    next hsame =>
      obtain ⟨hset, hown, hrest, hlive⟩ := setName_sound h hcur rfl hvalid.2
        (fun i k hk hn => h.keywordOne i _ k cur hk hcur (hn.trans hsame.symm))
        (fun i a ha hn => h.apart _ i cur a hcur ha (hsame.trans hn.symm))
      have hnamed : Takes db (setName db (I v "keyword_id") (S v "name") (paramNorm (S v "name")))
          (fun n => n = paramNorm (S v "name") ∨ n = cur.norm) (I v "keyword_id") := by
        refine ⟨hset, ?_, fun n j hn => hrest n j fun hcur => hn (.inr hcur), hlive⟩
        rintro n (rfl | rfl)
        · exact hown
        · rw [hsame]
          exact hown
      have hren := renameParams_takes hset cur.norm (S v "name") (I v "keyword_id")
      rw [Except.ok.inj hcall] at hren
      apply (hnamed.trans hren).congr
      intro n
      rw [or_false]
  next hdiffer =>
  split at hcall
  · cases hcall
  next hfree =>
  obtain ⟨aliased, hadd, hpair⟩ := bind_ok_iff.mp hcall
  obtain ⟨hdel, hnone, hdelrest⟩ := deleteAlias_sound h (paramNorm (S v "name"))
  have halone : ∀ i k, db.keywords.get? i = some k → k.norm = paramNorm (S v "name") →
      i = I v "keyword_id" := by
    intro i k hk hn
    have hout := List.find?_eq_none.mp hfree (i, k) (get?_eq_some_iff.mp hk)
    simp only [hn, beq_self_eq_true, Bool.true_and, bne_iff_ne, ne_eq, not_not] at hout
    exact hout
  have hdelcur : (deleteAlias db (paramNorm (S v "name"))).keywords.get? (I v "keyword_id") =
      some cur := hcur
  obtain ⟨hset, hown, hrest, hlive⟩ := setName_sound hdel hdelcur rfl hvalid.2 halone hnone
  have hkid : ∃ kw, (setName (deleteAlias db (paramNorm (S v "name"))) (I v "keyword_id")
      (S v "name") (paramNorm (S v "name"))).keywords.get? (I v "keyword_id") = some kw := by
    unfold setName deleteAlias
    rw [get?_modify_self, hcur]
    exact ⟨_, rfl⟩
  have hold := addAlias_takes hset hkid hadd
  have hren := renameParams_takes hold.sound cur.norm (S v "name") (I v "keyword_id")
  rw [Except.ok.inj hpair] at hren
  obtain ⟨hnorm, hne⟩ := h.keywordNorm _ cur hcur
  rw [← hnorm] at hold
  have hlast := hold.trans hren
  refine ⟨hlast.sound, ?_, ?_, fun j hj => hlast.live j (hlive j hj)⟩
  · rintro n (rfl | rfl)
    · apply hlast.rest _ _ _ hown
      rintro (⟨-, hn⟩ | hn)
      · exact hdiffer hn.symm
      · exact hn
    · exact hlast.owns _ (.inl ⟨hne, rfl⟩)
  · intro n j hn hnj
    rw [not_or] at hn
    apply hlast.rest
    · rintro (⟨-, hcurn⟩ | hfalse)
      · exact hn.2 hcurn
      · exact hfalse
    · exact hrest n j hn.2 (hdelrest n j hn.1 hnj)

/-- The normalised name a merge does away with. -/
def mergedAway (db : KeywordDb) (v : Json) : String :=
  if 0 < I v "from_keyword_id" then
    ((db.keywords.get? (I v "from_keyword_id")).map Keyword.norm).getD ""
  else paramNorm (S v "from_name")

/-- The keyword a merge makes of a keyword. -/
def became (v : Json) (k : ℤ) : ℤ :=
  if 0 < I v "from_keyword_id" ∧ k = I v "from_keyword_id" then I v "into_keyword_id" else k

/-- A merge by name hands one name over; a merge of a keyword everything it owns. -/
lemma handleMerge_keeps (h : Sound db) {r : String × ℕ}
    (hcall : handleMerge db v = .ok (db', r)) :
    Sound db' ∧ ((naming db).Preserves (naming db') (became v) ↔
        if 0 < I v "from_keyword_id" then
          (naming db).Live (I v "from_keyword_id") → (naming db).Live (I v "into_keyword_id")
        else ∀ j, (naming db).Means (paramNorm (S v "from_name")) j → j = I v "into_keyword_id") ∧
      ∀ n ∈ db'.names, paramNorm n ≠ mergedAway db v := by
  unfold handleMerge at hcall
  dsimp only at hcall
  split at hcall
  · cases hcall
  split at hcall
  · cases hcall
  next tgt htgt =>
  obtain ⟨⟨folded, fromName, fromNorm⟩, hsource, hrest⟩ := bind_ok_iff.mp hcall
  obtain ⟨aliased, hadd, hpair⟩ := bind_ok_iff.mp hrest
  obtain ⟨rfl, -⟩ := Prod.mk.inj (Except.ok.inj hpair)
  obtain ⟨htgtnorm, -⟩ := h.keywordNorm _ tgt htgt
  unfold mergeSource at hsource
  dsimp only at hsource
  unfold mergedAway
  split at hsource
  · next hid =>
      split at hsource
      · cases hsource
      next src hsrc =>
      split at hsource
      · cases hsource
      next hself =>
      obtain ⟨rfl, hpair'⟩ := Prod.mk.inj (Except.ok.inj hsource)
      obtain ⟨rfl, rfl⟩ := Prod.mk.inj hpair'
      obtain ⟨hsrcnorm, hsrcne⟩ := h.keywordNorm _ src hsrc
      have hdiffer : src.norm ≠ tgt.norm := by
        intro heq
        exact hself (h.keywordOne _ _ src tgt hsrc htgt heq)
      have hnamed : src.name ≠ "" := by
        intro hempty
        rw [hempty] at hsrcnorm
        exact hsrcne hsrcnorm
      unfold keepSpelling at hadd
      rw [if_pos ⟨hdiffer, hnamed⟩] at hadd
      obtain ⟨hfold, hown, hlive⟩ := fold_sound h hsrc ⟨tgt, htgt⟩ hself
      have hren := renameParams_takes hfold src.norm tgt.name (I v "into_keyword_id")
      have hinto : (renameParams (deleteKeyword (moveAliases db (I v "into_keyword_id")
          (I v "from_keyword_id")) (I v "from_keyword_id")) src.norm tgt.name).1.keywords.get?
            (I v "into_keyword_id") = some tgt := by
        obtain ⟨names, heq⟩ := renameParams_keeps (deleteKeyword (moveAliases db
          (I v "into_keyword_id") (I v "from_keyword_id")) (I v "from_keyword_id"))
          src.norm tgt.name
        rw [heq]
        unfold deleteKeyword moveAliases
        rw [get?_delete, htgt, filter_eq_some_iff]
        exact ⟨rfl, by simpa using fun hback => hself hback.symm⟩
      have htook := hren.trans (addAlias_takes hren.sound ⟨tgt, hinto⟩ hadd)
      rw [← hsrcnorm] at htook
      have hbecame : became v = fun j => if j = I v "from_keyword_id" then I v "into_keyword_id"
          else j := by
        funext j
        unfold became
        simp only [hid, true_and]
      refine ⟨htook.sound, ?_, ?_⟩
      · rw [if_pos hid, hbecame, Naming.preserves_merge_iff]
        · constructor
          · intro hmeans hfrom
            obtain ⟨kw, hkw, hactive⟩ := hmeans ⟨src.norm, .inl ⟨src, hsrc, rfl⟩, hfrom⟩
            rw [(addAlias_keeps hadd).1, hinto, Option.some.injEq] at hkw
            exact ⟨tgt, htgt, by rw [hkw]; exact hactive⟩
          · rintro himp ⟨n, -, hfrom⟩
            exact htook.live _ (hlive _ (fun hback => hself hback.symm) (himp hfrom))
        · intro n j hnj
          by_cases hn : n = src.norm
          · subst hn
            obtain rfl := h.unambiguous _ _ _ (.inl ⟨src, hsrc, rfl⟩) hnj
            rw [if_pos rfl]
            exact htook.owns _ (.inr ⟨hsrcne, rfl⟩)
          · apply htook.rest
            · rintro (hfalse | ⟨-, heq⟩)
              · exact hfalse
              · exact hn heq
            · exact hown n j hn hnj
        · intro j hj hjlive
          exact htook.live j (hlive j hj hjlive)
      · rw [if_pos hid, hsrc, map_some, getD_some, (addAlias_keeps hadd).2]
        apply names_renameParams hsrcne
        rw [← htgtnorm]
        exact hdiffer.symm
  · next hid =>
      split at hsource
      · cases hsource
      next hne =>
      split at hsource
      · cases hsource
      next hdiffer =>
      obtain ⟨rfl, hpair'⟩ := Prod.mk.inj (Except.ok.inj hsource)
      obtain ⟨rfl, rfl⟩ := Prod.mk.inj hpair'
      have hnamed : S v "from_name" ≠ "" := by
        intro hempty
        rw [hempty] at hne
        exact hne rfl
      unfold keepSpelling at hadd
      rw [if_pos ⟨hdiffer, hnamed⟩] at hadd
      have hren := renameParams_takes h (paramNorm (S v "from_name")) tgt.name
        (I v "into_keyword_id")
      have hinto : ∃ kw, (renameParams db (paramNorm (S v "from_name")) tgt.name).1.keywords.get?
          (I v "into_keyword_id") = some kw := by
        obtain ⟨names, heq⟩ := renameParams_keeps db (paramNorm (S v "from_name")) tgt.name
        rw [heq]
        exact ⟨tgt, htgt⟩
      have htook : Takes db aliased (fun n => n = paramNorm (S v "from_name"))
          (I v "into_keyword_id") := by
        apply (hren.trans (addAlias_takes hren.sound hinto hadd)).congr
        intro n
        rw [false_or, and_iff_right_iff_imp]
        rintro rfl
        exact hne
      have hbecame : became v = id := by
        funext j
        unfold became
        rw [if_neg fun hj => hid hj.1]
        rfl
      refine ⟨htook.sound, ?_, ?_⟩
      · rw [if_neg hid, hbecame, htook.preserves_iff]
        constructor
        · exact fun hall j hj => hall _ j rfl hj
        · rintro hall n j rfl hj
          exact hall j hj
      · rw [if_neg hid, (addAlias_keeps hadd).2]
        apply names_renameParams hne
        rw [← htgtnorm]
        exact fun heq => hdiffer heq.symm

end Statements

/-! ### Runs -/

/-- What every spelling resolves to after a call that renames, merges or creates. -/
def KeepsSpellings (db : KeywordDb) (e : Request) (db' : KeywordDb) : Prop :=
  match e with
  | .createKeyword _ | .rename _ => ∀ raw k, Resolves db raw k → Resolves db' raw k
  | .merge v => ∀ raw k, Resolves db raw k → Resolves db' raw (became v k)
  | .addAlias _ | .removeAlias _ => True

/-- The keyword with this id is active. -/
def IsActive (db : KeywordDb) (id : ℤ) : Prop :=
  ∃ kw, db.keywords.get? id = some kw ∧ kw.active = true

/-- The call takes no spelling away: an alias it puts in, a name it renames to or
merges resolves to the call's own keyword or to none, and an active keyword is
merged into an active one. -/
def Harmless (db : KeywordDb) : Request → Prop
  | .createKeyword v => ∀ s ∈ aliasesOf v, ∀ k, Resolves db s k →
      ∃ kw, db.keywords.get? k = some kw ∧ kw.norm = paramNorm (S v "name")
  | .rename v => ∀ k, Resolves db (S v "name") k → k = I v "keyword_id"
  | .merge v =>
      if 0 < I v "from_keyword_id" then
        IsActive db (I v "from_keyword_id") → IsActive db (I v "into_keyword_id")
      else ∀ k, Resolves db (S v "from_name") k → k = I v "into_keyword_id"
  | .addAlias _ | .removeAlias _ => True

section Requests

variable {db db' : KeywordDb}

/-- What spellings resolve to is what their normalised names mean. -/
lemma resolves_iff_preserves (h : Sound db) (h' : Sound db') (became : ℤ → ℤ) :
    (∀ raw k, Resolves db raw k → Resolves db' raw (became k)) ↔
      (naming db).Preserves (naming db') became := by
  constructor
  · intro hall n k hmeans
    obtain ⟨-, raw, rfl⟩ := h.normal hmeans.1
    exact h'.resolves_iff.mp (hall raw k (h.resolves_iff.mpr hmeans))
  · intro hpres raw k hk
    exact h'.resolves_iff.mpr (hpres _ k (h.resolves_iff.mp hk))

lemma ok_of_step {α : Type} {x : Except String (KeywordDb × α)}
    (h : (x.map Prod.fst).toOption = some db') : ∃ a, x = .ok (db', a) := by
  obtain ⟨⟨d, a⟩, hx, rfl⟩ := map_ok_iff.mp (toOption_eq_some_iff.mp h)
  exact ⟨a, hx⟩

lemma create_iff (h : Sound db) (hs : step db (.createKeyword v) = some db') :
    Sound db' ∧ (KeepsSpellings db (.createKeyword v) db' ↔ Harmless db (.createKeyword v)) := by
  obtain ⟨kid, hcall⟩ := ok_of_step hs
  obtain ⟨htook, hkid, halias⟩ := handleCreateKeyword_takes h hcall
  refine ⟨htook.sound, (resolves_iff_preserves h htook.sound id).trans ?_⟩
  rw [htook.preserves_iff]
  constructor
  · intro hall s hs k hk
    have hmeans := h.resolves_iff.mp hk
    obtain ⟨kw, hkw, -⟩ := hmeans.2
    have htaken := hall _ k (.inr ⟨(h.normal hmeans.1).1, s, hs, rfl⟩) hmeans
    exact ⟨kw, hkw, (hkid k kw hkw).mpr htaken⟩
  · rintro hall n j (rfl | ⟨-, s, hs, rfl⟩) hmeans
    · rcases hmeans.1 with ⟨kw, hkw, hn⟩ | ⟨i, a, ha, hn, -⟩
      · exact (hkid j kw hkw).mp hn
      · exact absurd hn (halias i a ha)
    · obtain ⟨kw, hkw, hn⟩ := hall s hs j (h.resolves_iff.mpr hmeans)
      exact (hkid j kw hkw).mp hn

lemma rename_iff (h : Sound db) (hs : step db (.rename v) = some db') :
    Sound db' ∧ (KeepsSpellings db (.rename v) db' ↔ Harmless db (.rename v)) := by
  obtain ⟨r, hcall⟩ := ok_of_step hs
  obtain ⟨cur, hcur, htook⟩ := handleRename_takes h hcall
  refine ⟨htook.sound, (resolves_iff_preserves h htook.sound id).trans ?_⟩
  rw [htook.preserves_iff]
  constructor
  · intro hall k hk
    exact hall _ k (.inl rfl) (h.resolves_iff.mp hk)
  · rintro hall n j (rfl | rfl) hmeans
    · exact hall j (h.resolves_iff.mpr hmeans)
    · exact h.unambiguous _ _ _ hmeans.1 (.inl ⟨cur, hcur, rfl⟩)

lemma merge_iff (h : Sound db) (hs : step db (.merge v) = some db') :
    Sound db' ∧ (KeepsSpellings db (.merge v) db' ↔ Harmless db (.merge v)) ∧
      ∀ n ∈ db'.names, paramNorm n ≠ mergedAway db v := by
  obtain ⟨r, hcall⟩ := ok_of_step hs
  obtain ⟨hsound, hiff, hnames⟩ := handleMerge_keeps h hcall
  refine ⟨hsound, ((resolves_iff_preserves h hsound (became v)).trans hiff).trans ?_, hnames⟩
  unfold Harmless
  simp only [h.resolves_iff]
  exact Iff.rfl

lemma step_sound {e : Request} (h : Sound db) (hs : step db e = some db') : Sound db' := by
  cases e with
  | createKeyword v => exact (create_iff h hs).1
  | addAlias v =>
      have hcall := toOption_eq_some_iff.mp hs
      unfold handleAddAlias at hcall
      dsimp only at hcall
      split at hcall
      · cases hcall
      split at hcall
      · cases hcall
      next hsome =>
        rw [isNone_iff_eq_none] at hsome
        exact (addAlias_takes h (ne_none_iff_exists'.mp hsome) hcall).sound
  | removeAlias v =>
      have hcall := toOption_eq_some_iff.mp hs
      unfold handleRemoveAlias at hcall
      split at hcall
      · cases hcall
      · obtain rfl := Except.ok.inj hcall
        apply h.lessAliases
        intro i a ha
        rw [get?_delete, filter_eq_some_iff] at ha
        exact ha.1
  | rename v => exact (rename_iff h hs).1
  | merge v => exact (merge_iff h hs).1

end Requests

/-- A vocabulary a run begins with. -/
structure Start where
  db : KeywordDb
  sound : Sound db

/-- **No name is both a keyword and an alias, a call loses no spelling just when it
is harmless, and a merge leaves no parameter under the name it did away with.** -/
theorem vocabulary_kept (s : Start) : (∀ db, Reaches step (fun _ _ => True) s.db db → Apart db) ∧
      (∀ db e db', Reaches step (fun _ _ => True) s.db db → step db e = some db' →
        (KeepsSpellings db e db' ↔ Harmless db e)) ∧
      ∀ db v db', Reaches step (fun _ _ => True) s.db db →
        step db (.merge v) = some db' → ∀ n ∈ db'.names, paramNorm n ≠ mergedAway db v := by
  have hsound : ∀ db, Reaches step (fun _ _ => True) s.db db → Sound db := by
    intro db hrun
    exact hrun.invariant (fun _ _ _ h _ hs => step_sound h hs) s.sound
  refine ⟨fun db hrun => (hsound db hrun).apart, ?_, ?_⟩
  · intro db e db' hrun hs
    have h := hsound db hrun
    cases e with
    | createKeyword v => exact (create_iff h hs).2
    | addAlias v => exact Iff.rfl
    | removeAlias v => exact Iff.rfl
    | rename v => exact (rename_iff h hs).2
    | merge v => exact (merge_iff h hs).2.1
  · intro db v db' hrun hs
    exact (merge_iff (hsound db hrun) hs).2.2

/-- An empty vocabulary. -/
def noKeywords : Start where
  db := ⟨[], Table.empty, Table.empty, []⟩
  sound := by
    constructor
    · intro i k hk
      cases hk
    · intro i j k l hk
      cases hk
    · intro i a ha
      cases ha
    · intro i j a b ha
      cases ha
    · intro i a ha
      cases ha
    · intro i j k a hk
      cases hk

/-- Two keywords, and an alias of the first. -/
def ohms : List Request :=
  [.createKeyword (.obj [("name", .str "Resistance"), ("aliases", .arr [.str "Ohms"])]),
    .createKeyword (.obj [("name", .str "Impedance")])]

/-- A keyword renamed to the alias of another takes the spelling away. -/
theorem rename_takes_alias : ¬ ∀ (s : Start) (db : KeywordDb) (e : Request) (db' : KeywordDb),
    Reaches step (fun _ _ => True) s.db db → step db e = some db' → KeepsSpellings db e db' := by
  intro h
  obtain ⟨db, hexecute, db', hstep, hbefore, hafter⟩ : ∃ db,
      execute step (fun _ _ => True) ohms noKeywords.db = some db ∧
        ∃ db', step db (.rename (.obj [("keyword_id", .num 2), ("name", .str "Ohms")])) = some db' ∧
          (matchParamName db "Ohms").map ParamVerdict.keywordId = some 1 ∧
          (matchParamName db' "Ohms").map ParamVerdict.keywordId = some 2 :=
    ⟨_, rfl, _, rfl, rfl, rfl⟩
  obtain ⟨w, hw, hone⟩ := map_eq_some_iff.mp hbefore
  obtain ⟨w', hw', hkept⟩ := h noKeywords db _ db' (reaches_of_execute hexecute) hstep "Ohms" 1
    ⟨w, hw, hone⟩
  rw [hw', map_some, Option.some.injEq, hkept] at hafter
  exact absurd hafter (by decide)

end ParamKeywords

end CErp
