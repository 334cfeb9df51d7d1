/-
Analytic lines beside the journal items they come from.

Posting a move inserts an analytic line for every item with an analytic account
that has none yet; nothing ever deletes one.  `AnalyticExact` says that an item
has just the lines it should have, which is none unless its move is posted.
Posting keeps it, edits of drafts keep it, and cancelling keeps it when the
cancelled moves have no analytic items.
-/
import CErp.Documents

namespace CErp

open AccountMove Runs Outcome List Option Table

/-! ### What is recorded of an item -/

/-- The analytic lines of a journal item: amounts and analytic accounts. -/
def analyticOf (analytic : Table AnalyticLine) (lineId : ℤ) : List (ℤ × ℤ) :=
  (analytic.rows.filter fun r => r.2.moveLineId == some lineId).map fun r =>
    (r.2.amount, r.2.accountId)

/-- The analytic lines an item of a move should have. -/
def analyticDue (m : Move) (l : MoveLine) : List (ℤ × ℤ) :=
  if m.state = .posted then (l.analyticAccountId.map fun a => (l.credit - l.debit, a)).toList else []

/-- The identifiers of journal items name one item each. -/
structure LineKeys (db : AccountDb) : Prop where
  nodup : ∀ id m, db.moves.get? id = some m → (m.lines.map MoveLine.id).Nodup
  apart : ∀ i j m n, db.moves.get? i = some m → db.moves.get? j = some n → i ≠ j →
    ∀ l ∈ m.lines, l.id ∉ n.lines.map MoveLine.id

/-- Every item has just the analytic lines it should have. -/
structure AnalyticExact (db : AccountDb) : Prop where
  keys : LineKeys db
  lines : ∀ id m, db.moves.get? id = some m → ∀ l ∈ m.lines,
    analyticOf db.analyticLines l.id = analyticDue m l

variable {m : Move}

lemma analyticDue_not_posted (h : m.state ≠ .posted) (l : MoveLine) :
    analyticDue m l = [] := if_neg h

variable {l : MoveLine}

lemma analyticDue_none (h : l.analyticAccountId = none) (m : Move) : analyticDue m l = [] := by
  rw [analyticDue, h, map_none, toList_none, ite_self]

/-! ### Recording -/

variable (analytic : Table AnalyticLine)

lemma analyticOf_insert (a : AnalyticLine) (lineId : ℤ) :
    analyticOf (analytic.insert a) lineId = analyticOf analytic lineId ++
      if a.moveLineId = some lineId then [(a.amount, a.accountId)] else [] := by
  show ((analytic.rows ++ [(analytic.nextId, a)]).filter _).map _ = _
  rw [filter_append, map_append]
  congr 1
  by_cases h : a.moveLineId = some lineId
  · simp [h]
  · simp [h]

lemma analyticOf_foldl_insert (as : List AnalyticLine) (analytic : Table AnalyticLine)
    (lineId : ℤ) : analyticOf (as.foldl Table.insert analytic) lineId =
      analyticOf analytic lineId ++
        (as.filter fun a => a.moveLineId == some lineId).map fun a => (a.amount, a.accountId) := by
  induction as generalizing analytic with
  | nil => simp
  | cons a as ih =>
      rw [foldl_cons, ih, analyticOf_insert, append_assoc]
      congr 1
      by_cases h : a.moveLineId = some lineId
      · simp [h]
      · simp [h]

/-- The line of an item that has an analytic account and no line. -/
def freshLine (date : String) (l : MoveLine) : Option AnalyticLine :=
  l.analyticAccountId.map fun a =>
    ⟨if l.name = "" then "/" else l.name, date, l.credit - l.debit, a, some l.accountId, some l.id,
      l.companyId⟩

lemma freshLine_key {date : String} {a : AnalyticLine} (h : freshLine date l = some a) :
    a.moveLineId = some l.id := by
  obtain ⟨acct, -, rfl⟩ := map_eq_some_iff.mp h
  rfl

lemma analyticLine_eq {analytic : Table AnalyticLine} (h : analyticOf analytic l.id = [])
    (date : String) : analyticLine analytic date l = freshLine date l := by
  have hnone : (analytic.rows.any fun r => r.2.moveLineId == some l.id) = false := by
    rw [analyticOf, map_eq_nil_iff, filter_eq_nil_iff] at h
    rw [List.any_eq_false]
    exact h
  unfold analyticLine freshLine
  rcases l.analyticAccountId with - | a
  · rfl
  · dsimp only
    rw [hnone]
    rfl

/-- Among lines with different identifiers, only its own tells of an item. -/
lemma filter_freshLines (date : String) {ls : List MoveLine}
    (hnodup : (ls.map MoveLine.id).Nodup) (hl : l ∈ ls) :
    ((ls.filterMap (freshLine date)).filter fun a => a.moveLineId == some l.id) =
      (freshLine date l).toList := by
  induction ls with
  | nil => cases hl
  | cons k ls ih =>
      rw [map_cons, nodup_cons] at hnodup
      have hothers : k.id ∉ ls.map MoveLine.id →
          ((ls.filterMap (freshLine date)).filter fun a => a.moveLineId == some k.id) = [] := by
        intro hk
        apply filter_eq_nil_iff.mpr
        intro a ha hkey
        obtain ⟨l', hl', hfresh⟩ := mem_filterMap.mp ha
        rw [freshLine_key hfresh, beq_iff_eq, some_inj] at hkey
        exact hk (hkey ▸ List.mem_map_of_mem hl')
      rcases mem_cons.mp hl with rfl | hl
      · rcases hfresh : freshLine date l with - | a
        · rw [filterMap_cons_none hfresh]
          exact hothers hnodup.1
        · rw [filterMap_cons_some hfresh, filter_cons,
            if_pos (by rw [freshLine_key hfresh]; exact beq_self_eq_true _), hothers hnodup.1]
          rfl
      · have hne : k.id ≠ l.id := by
          intro heq
          exact hnodup.1 (heq ▸ List.mem_map_of_mem hl)
        rcases hfresh : freshLine date k with - | a
        · rw [filterMap_cons_none hfresh]
          exact ih hnodup.2 hl
        · rw [filterMap_cons_some hfresh, filter_cons, if_neg, ih hnodup.2 hl]
          rw [freshLine_key hfresh, beq_iff_eq, some_inj]
          exact hne

/-- **What posting records** of the items of a move that have no analytic lines
yet: what they should have once it is posted. -/
theorem analyticOf_recordAnalytic {analytic : Table AnalyticLine} (name : String)
    (hnodup : (m.lines.map MoveLine.id).Nodup)
    (hnone : ∀ l ∈ m.lines, analyticOf analytic l.id = []) (hl : l ∈ m.lines) :
    analyticOf (recordAnalytic analytic m) l.id = analyticDue (post name m) l := by
  have hfresh : m.lines.filterMap (analyticLine analytic m.date) =
      m.lines.filterMap (freshLine m.date) := by
    apply filterMap_congr
    intro k hk
    exact analyticLine_eq (hnone k hk) m.date
  rw [recordAnalytic, analyticOf_foldl_insert, hnone l hl, hfresh, filter_freshLines _ hnodup hl]
  unfold analyticDue freshLine post
  cases l.analyticAccountId <;> rfl

/-- The items of other moves have what they had. -/
lemma analyticOf_recordAnalytic_other {lineId : ℤ} (h : lineId ∉ m.lines.map MoveLine.id) :
    analyticOf (recordAnalytic analytic m) lineId = analyticOf analytic lineId := by
  rw [recordAnalytic, analyticOf_foldl_insert]
  have hnone : ((m.lines.filterMap (analyticLine analytic m.date)).filter
      fun a => a.moveLineId == some lineId) = [] := by
    apply filter_eq_nil_iff.mpr
    intro a ha hkey
    obtain ⟨l, hl, hline⟩ := mem_filterMap.mp ha
    unfold analyticLine at hline
    split at hline
    · cases hline
    · split at hline
      · cases hline
      · cases hline
        rw [beq_iff_eq, some_inj] at hkey
        exact h (hkey ▸ List.mem_map_of_mem hl)
  rw [hnone, map_nil, append_nil]

/-! ### Operations -/

/-- The lines of a draft written by hand. -/
def editedLines (lineId debit credit : ℤ) (analyticAccountId : Option ℤ) (m : Move) : Move :=
  { m with
    lines := m.lines.map fun l =>
      if l.id = lineId then
        { l with debit := debit, credit := credit, analyticAccountId := analyticAccountId }
      else l }

/-- The operations of this part: posting, cancelling, resetting, and a write of
an item of a draft. -/
inductive AnalyticOp where
  | actionPost (ids : List ℤ)
  | buttonCancel (ids : List ℤ)
  | buttonDraft (ids : List ℤ)
  | editLine (moveId lineId debit credit : ℤ) (analyticAccountId : Option ℤ)

def AnalyticOp.run (now : Moment) (db : AccountDb) : AnalyticOp → Except String AccountDb
  | actionPost ids => AccountMove.actionPost now db ids
  | buttonCancel ids => .ok (AccountMove.buttonCancel db ids)
  | buttonDraft ids => .ok (AccountMove.buttonDraft db ids)
  | editLine moveId lineId debit credit analyticAccountId => do
      require ((db.moves.get? moveId).all fun m => m.state == .draft) "not a draft"
      return db.modifyMove moveId (editedLines lineId debit credit analyticAccountId)

/-- An operation leads on when it succeeds. -/
def analyticStep (db : AccountDb) (e : Moment × AnalyticOp) : Option AccountDb :=
  (e.2.run e.1 db).toOption

/-- A cancellation cancels posted moves without analytic items only. -/
def CancelsPlain (db : AccountDb) : AnalyticOp → Prop
  | .buttonCancel ids => ∀ id ∈ ids, ∀ m ∈ db.moves.get? id, m.state = .posted →
      ∀ l ∈ m.lines, l.analyticAccountId = none
  | _ => True

/-! ### What the operations keep -/

namespace AnalyticExact

variable {db db' : AccountDb}

/-- Moves whose items keep their identifiers keep the keys. -/
lemma keys_of (h : AnalyticExact db) (hmoves : ∀ i m', db'.moves.get? i = some m' →
    ∃ m, db.moves.get? i = some m ∧ m'.lines.map MoveLine.id = m.lines.map MoveLine.id) :
    LineKeys db' := by
  constructor
  · intro i m' hm'
    obtain ⟨m, hm, hids⟩ := hmoves i m' hm'
    rw [hids]
    exact h.keys.nodup i m hm
  · intro i j m' n' hm' hn' hij l hl hmem
    obtain ⟨m, hm, hids⟩ := hmoves i m' hm'
    obtain ⟨n, hn, hids'⟩ := hmoves j n' hn'
    have hl' : l.id ∈ m.lines.map MoveLine.id := hids ▸ List.mem_map_of_mem hl
    obtain ⟨k, hk, hkey⟩ := List.mem_map.mp hl'
    apply h.keys.apart i j m n hm hn hij k hk
    rw [hkey, ← hids']
    exact hmem

/-- A change of the states of moves that leaves what their items should have. -/
lemma updateState (h : AnalyticExact db) {p : ℤ → Move → Bool} {f : Move → Move}
    (hlines : ∀ m, (f m).lines = m.lines)
    (hdue : ∀ i m, db.moves.get? i = some m → p i m = true → ∀ l ∈ m.lines,
      analyticDue (f m) l = analyticDue m l) :
    AnalyticExact { db with moves := db.moves.updateWhere p f } := by
  have hrow : ∀ i m', (db.moves.updateWhere p f).get? i = some m' →
      ∃ m, db.moves.get? i = some m ∧ m' = if p i m then f m else m := by
    intro i m' hm'
    rw [get?_updateWhere] at hm'
    obtain ⟨m, hm, rfl⟩ := map_eq_some_iff.mp hm'
    exact ⟨m, hm, rfl⟩
  constructor
  · apply h.keys_of
    intro i m' hm'
    obtain ⟨m, hm, rfl⟩ := hrow i m' hm'
    refine ⟨m, hm, ?_⟩
    split
    · rw [hlines]
    · rfl
  · intro i m' hm' l hl
    obtain ⟨m, hm, rfl⟩ := hrow i m' hm'
    split at hl
    · next hp =>
        rw [if_pos hp]
        rw [hlines] at hl
        rw [hdue i m hm hp l hl]
        exact h.lines i m hm l hl
    · next hp =>
        rw [if_neg hp]
        exact h.lines i m hm l hl

end AnalyticExact

variable {db : AccountDb}

lemma buttonDraft_exact (h : AnalyticExact db) (ids : List ℤ) :
    AnalyticExact (buttonDraft db ids) := by
  apply h.updateState
  · intro m
    rfl
  · intro i m _ hp l _
    have hcancel : m.state = .cancel := beq_iff_eq.mp (Bool.and_eq_true_iff.mp hp).2
    rw [analyticDue_not_posted (m := m) (by rw [hcancel]; decide)]
    exact analyticDue_not_posted (by show MoveState.draft ≠ .posted; decide) l

lemma buttonCancel_exact (h : AnalyticExact db) {ids : List ℤ}
    (hplain : CancelsPlain db (.buttonCancel ids)) : AnalyticExact (buttonCancel db ids) := by
  apply h.updateState
  · intro m
    rfl
  · intro i m hm hp l hl
    obtain ⟨hid, hposted⟩ := Bool.and_eq_true_iff.mp hp
    have hnone := hplain i (contains_iff_mem.mp hid) m hm (beq_iff_eq.mp hposted) l hl
    rw [analyticDue_none hnone, analyticDue_none hnone]

/-- An item of a draft may be written: it has no analytic lines, and should have
none. -/
lemma editLine_exact (h : AnalyticExact db) {moveId : ℤ}
    (hdraft : ∀ m, db.moves.get? moveId = some m → m.state = .draft) (lineId debit credit : ℤ)
    (analyticAccountId : Option ℤ) :
    AnalyticExact (db.modifyMove moveId (editedLines lineId debit credit analyticAccountId)) := by
  have hids : ∀ m : Move, (editedLines lineId debit credit analyticAccountId m).lines.map
      MoveLine.id = m.lines.map MoveLine.id := by
    intro m
    show (m.lines.map _).map _ = _
    rw [List.map_map]
    apply map_congr_left
    intro l _
    show (if l.id = lineId then _ else l : MoveLine).id = l.id
    split <;> rfl
  have hrow : ∀ i m', (db.moves.modify moveId
      (editedLines lineId debit credit analyticAccountId)).get? i = some m' →
      ∃ m, db.moves.get? i = some m ∧
        m' = if i = moveId then editedLines lineId debit credit analyticAccountId m else m := by
    intro i m' hm'
    rw [get?_modify] at hm'
    obtain ⟨m, hm, rfl⟩ := map_eq_some_iff.mp hm'
    exact ⟨m, hm, rfl⟩
  constructor
  · apply h.keys_of
    intro i m' hm'
    obtain ⟨m, hm, rfl⟩ := hrow i m' hm'
    refine ⟨m, hm, ?_⟩
    split
    · exact hids m
    · rfl
  · intro i m' hm' l hl
    obtain ⟨m, hm, rfl⟩ := hrow i m' hm'
    by_cases hi : i = moveId
    · rw [if_pos hi] at hl ⊢
      subst hi
      have hstate := hdraft m hm
      have hnot : m.state ≠ .posted := by
        rw [hstate]
        decide
      have hmem : l.id ∈ m.lines.map MoveLine.id := hids m ▸ List.mem_map_of_mem hl
      obtain ⟨k, hk, hkey⟩ := List.mem_map.mp hmem
      rw [analyticDue_not_posted (m := editedLines lineId debit credit analyticAccountId m) hnot,
        ← hkey]
      show analyticOf db.analyticLines k.id = []
      rw [h.lines i m hm k hk, analyticDue_not_posted hnot]
    · rw [if_neg hi] at hl ⊢
      exact h.lines i m hm l hl

/-! ### Posting -/

variable {db' : AccountDb}

/-- Allocations leave every item and every analytic line alone. -/
lemma AnalyticExact.of_documents (h : AnalyticExact db)
    (hdoc : ∀ i, db'.document i = db.document i)
    (hanalytic : db'.analyticLines = db.analyticLines) : AnalyticExact db' := by
  have hrow : ∀ i m', db'.moves.get? i = some m' →
      ∃ m, db.moves.get? i = some m ∧ m'.lines = m.lines ∧ m'.state = m.state := by
    intro i m' hm'
    have hsame := hdoc i
    rw [document_of_get? hm'] at hsame
    obtain ⟨m, hm, hmm'⟩ := document_eq_some hsame.symm
    exact ⟨m, hm, (congrArg Move.lines hmm').symm, (congrArg Move.state hmm').symm⟩
  constructor
  · apply h.keys_of
    intro i m' hm'
    obtain ⟨m, hm, hlines, -⟩ := hrow i m' hm'
    exact ⟨m, hm, by rw [hlines]⟩
  · intro i m' hm' l hl
    obtain ⟨m, hm, hlines, hstate⟩ := hrow i m' hm'
    rw [hlines] at hl
    rw [hanalytic, h.lines i m hm l hl, analyticDue, analyticDue, hstate]

lemma analyticLines_drawCredit (db : AccountDb) (id : ℤ) (partnerId : Option ℤ) :
    (drawCredit db id partnerId).analyticLines = db.analyticLines := by
  refine drawCredit_invariant (fun db' => db'.analyticLines = db.analyticLines) ?_
    (drawsInTurn_true id db partnerId) rfl
  intro db' p h _
  obtain ⟨job, ss, -, heq, -⟩ := PaymentAllocation.allocate_effect db' p { micros := 0 } [id]
  obtain ⟨moves, payments, hrest⟩ := PaymentAllocation.applySlices_rest job db' ss
  rw [heq, hrest]
  exact h

/-- The items of a draft had no analytic lines and get what they should have. -/
lemma posted_exact (h : AnalyticExact db) {id : ℤ} (hm : db.moves.get? id = some m)
    (hdraft : m.state = .draft) (name : String) (sequences : Table Sequence) :
    AnalyticExact (posted db id m name sequences) := by
  have hnot : m.state ≠ .posted := by
    rw [hdraft]
    decide
  have hnone : ∀ l ∈ m.lines, analyticOf db.analyticLines l.id = [] := by
    intro l hl
    rw [h.lines id m hm l hl, analyticDue_not_posted hnot]
  have hrow : ∀ i m', (posted db id m name sequences).moves.get? i = some m' →
      ∃ n, db.moves.get? i = some n ∧ m' = if i = id then post name n else n := by
    intro i m' hm'
    have hget : (db.moves.modify id (post name)).get? i = some m' := hm'
    rw [get?_modify] at hget
    obtain ⟨n, hn, rfl⟩ := map_eq_some_iff.mp hget
    exact ⟨n, hn, rfl⟩
  constructor
  · apply h.keys_of
    intro i m' hm'
    obtain ⟨n, hn, rfl⟩ := hrow i m' hm'
    refine ⟨n, hn, ?_⟩
    split
    · rfl
    · rfl
  · intro i m' hm' l hl
    obtain ⟨n, hn, rfl⟩ := hrow i m' hm'
    show analyticOf (recordAnalytic db.analyticLines m) l.id = _
    by_cases hi : i = id
    · subst hi
      rw [if_pos rfl] at hl ⊢
      rw [hm, some_inj] at hn
      subst hn
      exact analyticOf_recordAnalytic name (h.keys.nodup i m hm) hnone hl
    · rw [if_neg hi] at hl ⊢
      rw [analyticOf_recordAnalytic_other _ (h.keys.apart i id n m hn hm hi l hl)]
      exact h.lines i n hn l hl

lemma actionPostOne_exact {now : Moment} {id : ℤ} (h : AnalyticExact db)
    (hpost : actionPostOne now db id = .ok db') : AnalyticExact db' := by
  obtain ⟨m, name, sequences, hm, hdraft, -, -, -, rfl⟩ := actionPostOne_ok hpost
  have hposted := posted_exact h hm hdraft name sequences
  split
  · exact hposted.of_documents (fun i => document_drawCredit _ id m.partnerId i)
      (analyticLines_drawCredit _ id m.partnerId)
  · exact hposted

lemma actionPost_exact {now : Moment} {ids : List ℤ} (h : AnalyticExact db)
    (hpost : actionPost now db ids = .ok db') : AnalyticExact db' := by
  apply foldlM_rel (R := fun a b => AnalyticExact a → AnalyticExact b) _ _ _ hpost h
  · intro s hs
    exact hs
  · intro a b c hab hbc ha
    exact hbc (hab ha)
  · intro s id s' hone hs
    exact actionPostOne_exact hs hone

/-! ### Runs -/

lemma analyticStep_exact {e : Moment × AnalyticOp} (h : AnalyticExact db)
    (hplain : CancelsPlain db e.2) (hstep : analyticStep db e = some db') : AnalyticExact db' := by
  obtain ⟨now, op⟩ := e
  have hrun : op.run now db = .ok db' := by
    unfold analyticStep at hstep
    rcases hres : op.run now db with err | db₁
    · rw [hres] at hstep
      cases hstep
    · rw [hres] at hstep
      cases hstep
      rfl
  cases op with
  | actionPost ids => exact actionPost_exact h hrun
  | buttonCancel ids =>
      cases hrun
      exact buttonCancel_exact h hplain
  | buttonDraft ids =>
      cases hrun
      exact buttonDraft_exact h ids
  | editLine moveId lineId debit credit analyticAccountId =>
      obtain ⟨_, hdraft, hedit⟩ := bind_ok_iff.mp hrun
      rw [← pure_ok_iff.mp hedit]
      apply editLine_exact h
      intro m hm
      have hall := require_ok_iff.mp hdraft
      rw [hm] at hall
      exact beq_iff_eq.mp hall

/-- Nothing is posted yet: there are only drafts and cancelled moves, with no
analytic lines. -/
structure NothingPosted (db : AccountDb) : Prop where
  keys : LineKeys db
  states : ∀ id m, db.moves.get? id = some m → m.state ≠ .posted
  none : ∀ id m, db.moves.get? id = some m → ∀ l ∈ m.lines, analyticOf db.analyticLines l.id = []

lemma NothingPosted.exact (h : NothingPosted db) : AnalyticExact db := by
  refine ⟨h.keys, ?_⟩
  intro id m hm l hl
  rw [h.none id m hm l hl, analyticDue_not_posted (h.states id m hm)]

/-- Analytic lines mirror posted items. -/
structure AnalyticMirror (db : AccountDb) : Prop where
  posted : ∀ id m, db.moves.get? id = some m → m.state = .posted → ∀ l ∈ m.lines,
    ∀ a ∈ l.analyticAccountId, analyticOf db.analyticLines l.id = [(l.credit - l.debit, a)]
  others : ∀ id m, db.moves.get? id = some m → m.state ≠ .posted → ∀ l ∈ m.lines,
    analyticOf db.analyticLines l.id = []

lemma AnalyticExact.mirror (h : AnalyticExact db) : AnalyticMirror db := by
  constructor
  · intro id m hm hposted l hl a ha
    rw [h.lines id m hm l hl, analyticDue, if_pos hposted, mem_def.mp ha]
    rfl
  · intro id m hm hnot l hl
    rw [h.lines id m hm l hl, analyticDue_not_posted hnot]

/-- **Analytic lines mirror posted items** in every run that cancels no posted
move with analytic items. -/
theorem analytic_mirror (db db' : AccountDb) (h0 : NothingPosted db)
    (hrun : Reaches analyticStep (fun db e => CancelsPlain db e.2) db db') : AnalyticMirror db' := by
  have hexact : AnalyticExact db' := by
    apply @Reaches.invariant _ _ _ _ (fun db => AnalyticExact db) _ _ hrun _ h0.exact
    intro s e s' hs hok hstep
    exact analyticStep_exact hs hok hstep
  exact hexact.mirror

/-- A balanced entry of 100.00, its first item tagged or not. -/
def entryOf (lineId : ℤ) (analyticAccountId : Option ℤ) : Move where
  moveType := .entry
  date := "2026-02-10"
  journalId := 1
  lines :=
    [{ id := lineId, accountId := 1, debit := 100000000, analyticAccountId := analyticAccountId },
      { id := lineId + 1, accountId := 2, credit := 100000000 }]

/-- A tagged draft and a plain one. -/
def twoEntries : AccountDb where
  moves := (empty.insert (entryOf 1 (some 5))).insert (entryOf 3 none)
  nextLineId := 5

lemma get?_twoEntries {id : ℤ} (h : twoEntries.moves.get? id = some m) :
    (id = 1 ∧ m = entryOf 1 (some 5)) ∨ (id = 2 ∧ m = entryOf 3 none) := by
  have hmem : (id, m) ∈ [((1 : ℤ), entryOf 1 (some 5)), (2, entryOf 3 none)] :=
    get?_eq_some_iff.mp h
  rcases mem_cons.mp hmem with heq | hmem
  · exact .inl (Prod.mk.inj heq)
  · exact .inr (Prod.mk.inj (mem_singleton.mp hmem))

lemma twoEntries_nothingPosted : NothingPosted twoEntries := by
  refine ⟨⟨?_, ?_⟩, ?_, ?_⟩
  · intro id m hm
    rcases get?_twoEntries hm with ⟨-, rfl⟩ | ⟨-, rfl⟩
    · decide
    · decide
  · intro i j m n hm hn hij l hl
    rcases get?_twoEntries hm with ⟨rfl, rfl⟩ | ⟨rfl, rfl⟩
    · rcases get?_twoEntries hn with ⟨rfl, rfl⟩ | ⟨rfl, rfl⟩
      · exact absurd rfl hij
      · revert l
        decide
    · rcases get?_twoEntries hn with ⟨rfl, rfl⟩ | ⟨rfl, rfl⟩
      · revert l
        decide
      · exact absurd rfl hij
  · intro id m hm
    rcases get?_twoEntries hm with ⟨-, rfl⟩ | ⟨-, rfl⟩
    · decide
    · decide
  · intro id m _ l _
    rfl

instance (db : AccountDb) (op : AnalyticOp) : Decidable (CancelsPlain db op) :=
  match op with
  | .buttonCancel ids =>
      inferInstanceAs (Decidable (∀ id ∈ ids, ∀ m ∈ db.moves.get? id, m.state = .posted →
        ∀ l ∈ m.lines, l.analyticAccountId = none))
  | .actionPost _ => .isTrue trivial
  | .buttonDraft _ => .isTrue trivial
  | .editLine _ _ _ _ _ => .isTrue trivial

/-- Both are posted, and the plain one is cancelled and edited. -/
theorem analytic_mirror_twoEntries : ∃ db', Runs.execute analyticStep
      (fun db e => CancelsPlain db e.2)
      [(february, .actionPost [1, 2]), (february, .buttonCancel [2]), (february, .buttonDraft [2]),
        (february, .editLine 2 3 70000000 0 (some 6))] twoEntries = some db' ∧
    AnalyticMirror db' := by
  obtain ⟨db', hexec⟩ : ∃ db', Runs.execute analyticStep (fun db e => CancelsPlain db e.2)
      [(february, .actionPost [1, 2]), (february, .buttonCancel [2]), (february, .buttonDraft [2]),
        (february, .editLine 2 3 70000000 0 (some 6))] twoEntries = some db' :=
    isSome_iff_exists.mp (by decide)
  exact ⟨db', hexec, analytic_mirror _ _ twoEntries_nothingPosted (reaches_of_execute hexec)⟩

/-- An entry is posted, cancelled, reset and written down to 70.00.  Posted
again, it has the analytic line of the first time. -/
theorem analytic_line_stale :
    ¬ ∀ db db', NothingPosted db → Reaches analyticStep (fun _ _ => True) db db' →
      AnalyticMirror db' := by
  intro h
  let events : List (Moment × AnalyticOp) :=
    [(february, .actionPost [1]), (february, .buttonCancel [1]), (february, .buttonDraft [1]),
      (february, .editLine 1 1 70000000 0 (some 5)), (february, .editLine 1 2 0 70000000 none),
      (february, .actionPost [1])]
  have hrun : ((Runs.execute analyticStep (fun _ _ => True) events twoEntries).any fun db =>
      (db.moves.get? 1).any (fun m => m.state == .posted && m.lines.any fun l =>
        l.analyticAccountId == some 5 && l.debit == 70000000 && l.credit == 0 &&
          analyticOf db.analyticLines l.id == [(-100000000, 5)])) = true := by
    decide
  obtain ⟨db', hexec, hstale⟩ := (Option.any_eq_true _ _).mp hrun
  have hmirror := h _ db' twoEntries_nothingPosted (reaches_of_execute hexec)
  obtain ⟨m, hm, hm'⟩ := (Option.any_eq_true _ _).mp hstale
  simp only [Bool.and_eq_true, beq_iff_eq, List.any_eq_true] at hm'
  obtain ⟨hposted, l, hl, ⟨⟨hacct, hdebit⟩, hcredit⟩, hof⟩ := hm'
  have hdue := hmirror.posted 1 m hm hposted l hl 5 hacct
  rw [hof, hdebit, hcredit] at hdue
  exact absurd hdue (by decide)

end CErp
