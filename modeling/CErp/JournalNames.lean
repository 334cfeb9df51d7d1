/-
The names of the posted entries of a journal.

Posting a move, registering a payment and depreciating take the next number of
the journal's series; posting a payment counts the posted entries of the
journal and year instead.  Both print `code/year/number`.  The invariant says
that no name of the year has a number above that count; it survives a counted
name, and it survives a number of the series when the series stands exactly one
above the count.
-/
import CErp.Documents
import CErp.SequenceText

namespace CErp

open PaymentAllocation Runs Outcome List AccountDb String IrSequence Table
open IrSequence (padded)

/-! ### The text of a number -/

/-- A number printed behind a prefix and a year. -/
def printed (front year : String) (n : ℕ) : String :=
  front ++ "/" ++ year ++ "/" ++ padded 4 n

/-- What stands behind the last slash. -/
def lastPart (cs : List Char) : List Char := (cs.reverse.takeWhile fun c => c != '/').reverse

lemma lastPart_append {w : List Char} (hw : '/' ∉ w) (x : List Char) :
    lastPart (x ++ '/' :: w) = w := by
  unfold lastPart
  have hall : ∀ c ∈ w.reverse, (c != '/') = true := by
    intro c hc
    rw [bne_iff_ne]
    rintro rfl
    exact hw (mem_reverse.mp hc)
  rw [reverse_append, reverse_cons, List.append_assoc, takeWhile_append_of_pos hall]
  simp

lemma slash_not_mem_padded (n : ℕ) : '/' ∉ (padded 4 n).toList := by
  intro h
  rw [toList_padded 4 (Int.natCast_nonneg n)] at h
  rcases mem_append.mp h with hzero | hdigit
  · exact absurd (eq_of_mem_replicate hzero) (by decide)
  · exact absurd (Nat.isDigit_of_mem_toDigits (by decide) (by decide) hdigit) (by decide)

variable {year : String}

/-- **The number of a name** can be read back, whatever stands in front. -/
theorem printed_number {front front' year' : String} {n m : ℕ}
    (h : printed front year n = printed front' year' m) : n = m := by
  have hlast : ∀ (front year : String) (n : ℕ),
      lastPart (printed front year n).toList = (padded 4 n).toList := by
    intro front year n
    have hsplit : (printed front year n).toList =
        (front ++ "/" ++ year).toList ++ '/' :: (padded 4 n).toList := by
      unfold printed
      rw [toList_append, toList_append]
      show (_ ++ ['/']) ++ _ = _
      rw [List.append_assoc]
      rfl
    rw [hsplit, lastPart_append (slash_not_mem_padded n)]
  have hparts := hlast front year n
  rw [h, hlast front' year' m] at hparts
  have hnum := padded_injective 4 (Int.natCast_nonneg _) (Int.natCast_nonneg _)
    (toList_inj.mp hparts)
  exact_mod_cast hnum.symm

/-- What the prefix of a journal's series becomes. -/
lemma expand_series {now : Clock} (h : Numeric now) (jcode : String) :
    expand now (jcode ++ "/%(year)s/") = expand now jcode ++ "/" ++ now.year ++ "/" := by
  have hchars : (jcode ++ "/%(year)s/").toList = (jcode.toList ++ ['/']) ++ yearToken ++ ['/'] := by
    rw [toList_append, List.append_assoc, List.append_assoc]
    simp only [reduceToList]
    rfl
  apply toList_inj.mp
  rw [toList_expand, hchars, expandChars_year h,
    expandChars_slash, toList_append, toList_append, toList_append,
    toList_expand]
  show _ ++ expandChars now ([] ++ ['/']) = _
  rw [expandChars_slash]
  rfl

/-! ### The series of a journal -/

/-- Every row under the code of a journal's series is as `action_post` creates
it. -/
def SeriesAsCreated (sequences : Table Sequence) (jcode : String) : Prop :=
  ∀ r ∈ sequences.rows, r.2.code = journalSeries jcode →
    r.2.pre = jcode ++ "/%(year)s/" ∧ r.2.suffix = "" ∧ r.2.padding = 4

variable {jcode : String}

lemma journalSeries_injective {jcode' : String} (h : journalSeries jcode = journalSeries jcode') :
    jcode = jcode' := by
  unfold journalSeries at h
  have hchars := congrArg toList h
  rw [toList_append, toList_append] at hchars
  exact toList_inj.mp (append_cancel_left hchars)

variable {sequences : Table Sequence}

lemma SeriesAsCreated.ensureYearly (h : SeriesAsCreated sequences jcode) (other : String) :
    SeriesAsCreated (ensureYearly sequences (journalSeries other)
      (other ++ "/%(year)s/")) jcode := by
  unfold IrSequence.ensureYearly
  split
  · exact h
  · intro r hr hcode
    rcases Table.mem_insert_iff.mp hr with hold | rfl
    · exact h r hold hcode
    · obtain rfl := journalSeries_injective hcode
      exact ⟨rfl, rfl, rfl⟩

variable {code : String}

/-- Taking a number changes no row's prefix, suffix or padding. -/
lemma SeriesAsCreated.nextByCode {sequences' : Table Sequence} {name : String} {now : Clock}
    (h : SeriesAsCreated sequences jcode)
    (htake : nextByCode now sequences code 0 = .ok (name, sequences')) :
    SeriesAsCreated sequences' jcode := by
  unfold IrSequence.nextByCode nextByCodeAt at htake
  split at htake
  · cases htake
  · rw [Except.ok.injEq, Prod.mk.injEq] at htake
    rw [← htake.2]
    intro r hr hcode
    obtain ⟨s, hs, hrow⟩ := mem_update_iff.mp hr
    rw [← hrow] at hcode ⊢
    revert hcode
    split
    · exact h _ hs
    · exact h _ hs

/-- The number that the series of a journal gives next. -/
def seriesNext (db : AccountDb) (now : Moment) (jcode : String) : Option ℤ :=
  (IrSequence.find (db.ensureJournalSequence jcode).sequences (journalSeries jcode) 0).map
    fun r => IrSequence.nextNumber now.clock r.2

variable {r : ℤ × Sequence}

lemma mem_of_find {companyId : ℤ} (h : IrSequence.find sequences code companyId = some r) :
    r ∈ sequences.rows ∧ r.2.code = code := by
  have hfound : ∀ c, (sequences.rows.find? fun r =>
      r.2.code == code && r.2.companyId == c && r.2.active) = some r →
        r ∈ sequences.rows ∧ r.2.code = code := by
    intro c hc
    have hp := find?_some hc
    simp only [Bool.and_eq_true, beq_iff_eq] at hp
    exact ⟨mem_of_find?_eq_some hc, hp.1.1⟩
  rcases Option.or_eq_some_iff.mp h with hc | ⟨-, hc⟩
  · exact hfound _ hc
  · exact hfound _ hc

variable {now : Moment}

/-- The text of a number of the series. -/
lemma nextNumber_name {db db' : AccountDb} {name : String} (hclock : Numeric now.clock)
    (hseries : SeriesAsCreated db.sequences jcode)
    (h : db.nextNumber now (journalSeries jcode) = .ok (name, db')) :
    ∃ r, IrSequence.find db.sequences (journalSeries jcode) 0 = some r ∧
      name = expand now.clock jcode ++ "/" ++ now.clock.year ++ "/" ++
        padded 4 (IrSequence.nextNumber now.clock r.2) := by
  obtain ⟨sequences, htake, -⟩ := nextNumber_ok h
  unfold nextByCode nextByCodeAt at htake
  split at htake
  · cases htake
  · next id s hfind =>
      rw [Except.ok.injEq, Prod.mk.injEq] at htake
      rw [← htake.1]
      obtain ⟨hmem, hcode⟩ := mem_of_find hfind
      obtain ⟨hpre, hsuffix, hpadding⟩ := hseries _ hmem hcode
      refine ⟨(id, s), hfind, ?_⟩
      show expand now.clock s.pre ++ padded s.padding _ ++ expand now.clock s.suffix = _
      rw [show s.pre = _ from hpre, show s.suffix = _ from hsuffix, show s.padding = _ from hpadding,
        expand_series hclock]
      apply toList_inj.mp
      rw [toList_append, toList_expand]
      show _ ++ expandChars now.clock [] = _
      exact append_nil _

/-! ### Posted documents -/

/-- The posted documents, each under its identifier. -/
def postedDocs (db : AccountDb) : List (ℤ × Move) :=
  (db.moves.rows.map fun r => (r.1, r.2.document)).filter fun r => r.2.state == .posted

lemma mem_postedDocs {db : AccountDb} {r : ℤ × Move} :
    r ∈ postedDocs db ↔ db.document r.1 = some r.2 ∧ r.2.state = .posted := by
  unfold postedDocs AccountDb.document
  rw [mem_filter, beq_iff_eq, Option.map_eq_some_iff]
  apply and_congr_left'
  constructor
  · intro h
    obtain ⟨r', hr', rfl⟩ := mem_map.mp h
    exact ⟨r'.2, get?_eq_some_iff.mpr hr', rfl⟩
  · rintro ⟨m, hm, hd⟩
    exact mem_map.mpr ⟨(r.1, m), get?_eq_some_iff.mp hm, Prod.ext rfl hd⟩

lemma nodup_postedDocs (db : AccountDb) : (postedDocs db).Nodup := by
  apply Nodup.filter
  apply Nodup.of_map Prod.fst
  rw [List.map_map]
  exact db.moves.nodup

lemma countPosted_eq (db : AccountDb) (jid : ℤ) (year : String) :
    AccountPayment.countPosted db jid year = (postedDocs db).countP fun r =>
      r.2.journalId == jid && AccountPayment.yearOf r.2.date == year := by
  unfold AccountPayment.countPosted postedDocs
  rw [countP_filter, countP_map, countP_eq_length_filter]
  congr 1
  apply filter_congr
  intro r _
  show (r.2.journalId == jid && r.2.state == .posted && AccountPayment.yearOf r.2.date == year) =
    (r.2.journalId == jid && AccountPayment.yearOf r.2.date == year && r.2.state == .posted)
  rw [Bool.and_assoc, Bool.and_assoc, Bool.and_comm (r.2.state == .posted)]

/-- One document is posted that was not, and nothing else happens to the
documents. -/
structure Posts (db db' : AccountDb) (id : ℤ) (e : Move) : Prop where
  fresh : ∀ d, db.document id = some d → d.state ≠ .posted
  posted : e.state = .posted
  document : ∀ i, db'.document i = if i = id then some e.document else db.document i

lemma Enters.posts {db db' : AccountDb} {e : Move} (h : Enters db db' e)
    (hposted : e.state = .posted) : Posts db db' db.moves.nextId e where
  fresh := by
    intro d hd
    rw [document_nextId] at hd
    cases hd
  posted := hposted
  document := h

section Posts

variable {db db' : AccountDb} {id : ℤ} {e : Move} (h : Posts db db' id e)
include h

lemma Posts.perm : (postedDocs db').Perm ((id, e.document) :: postedDocs db) := by
  have hnew : (id, e.document) ∉ postedDocs db := by
    intro hmem
    obtain ⟨hd, hposted⟩ := mem_postedDocs.mp hmem
    exact h.fresh _ hd hposted
  apply (perm_ext_iff_of_nodup (nodup_postedDocs db')
    (nodup_cons.mpr ⟨hnew, nodup_postedDocs db⟩)).mpr
  rintro ⟨i, d⟩
  rw [mem_cons, mem_postedDocs, mem_postedDocs, h.document]
  by_cases hi : i = id
  · subst hi
    rw [if_pos rfl]
    constructor
    · rintro ⟨hd, -⟩
      cases hd
      exact .inl rfl
    · rintro (heq | ⟨hd, hposted⟩)
      · cases heq
        exact ⟨rfl, h.posted⟩
      · exact absurd hposted (h.fresh d hd)
  · rw [if_neg hi]
    simp [hi]

lemma Posts.count (jid : ℤ) (year : String) :
    AccountPayment.countPosted db' jid year = AccountPayment.countPosted db jid year +
      if e.journalId = jid ∧ AccountPayment.yearOf e.date = year then 1 else 0 := by
  rw [countPosted_eq, countPosted_eq, h.perm.countP_eq, countP_cons]
  congr 1
  show (if (e.journalId == jid && AccountPayment.yearOf e.date == year) = true then 1 else 0) = _
  simp only [Bool.and_eq_true, beq_iff_eq]

end Posts

/-! ### The invariant -/

/-- The posted entries of a journal have names of their own, and no number
printed in the year is above their count. -/
structure NumberedJournal (jid : ℤ) (year : String) (db : AccountDb) : Prop where
  distinct : ∀ i k d d', (i, d) ∈ postedDocs db → (k, d') ∈ postedDocs db →
    d.journalId = jid → d'.journalId = jid → d.name = d'.name → i = k
  below : ∀ i d, (i, d) ∈ postedDocs db → d.journalId = jid →
    ∀ front n, d.name = printed front year n → n ≤ AccountPayment.countPosted db jid year
  series : ∃ j, db.journals.get? jid = some j ∧ SeriesAsCreated db.sequences j.code

/-- The name is the next one by the count. -/
def NextByCount (db : AccountDb) (jid : ℤ) (year : String) (e : Move) : Prop :=
  AccountPayment.yearOf e.date = year ∧
    ∃ front, e.name = printed front year (AccountPayment.countPosted db jid year + 1)

variable {jid : ℤ}

variable {id : ℤ}

/-- **A name above all others** is a fresh one. -/
theorem NumberedJournal.post {db db' : AccountDb} {e : Move} (h : NumberedJournal jid year db)
    (hposts : Posts db db' id e) (hjournals : db'.journals = db.journals)
    (hseries : ∀ jcode, SeriesAsCreated db.sequences jcode → SeriesAsCreated db'.sequences jcode)
    (hname : e.journalId = jid → NextByCount db jid year e) : NumberedJournal jid year db' := by
  have hmem : ∀ {r : ℤ × Move}, r ∈ postedDocs db' ↔ r = (id, e.document) ∨ r ∈ postedDocs db := by
    intro r
    rw [hposts.perm.mem_iff, mem_cons]
  -- no posted entry has the new name yet
  have hfresh : e.journalId = jid → ∀ k d, (k, d) ∈ postedDocs db → d.journalId = jid →
      d.name ≠ e.name := by
    intro hj k d hd hdj heq
    obtain ⟨-, front, hprinted⟩ := hname hj
    have hle := h.below k d hd hdj front _ (heq.trans hprinted)
    omega
  constructor
  · intro i k d d' hd hd' hj hj' heq
    rcases hmem.mp hd with hnew | hold
    · cases hnew
      rcases hmem.mp hd' with hnew' | hold'
      · cases hnew'
        rfl
      · exact absurd heq.symm (hfresh hj k d' hold' hj')
    · rcases hmem.mp hd' with hnew' | hold'
      · cases hnew'
        exact absurd heq (hfresh hj' i d hold hj)
      · exact h.distinct i k d d' hold hold' hj hj' heq
  · intro i d hd hj front n hprinted
    have hcount := hposts.count jid year
    rcases hmem.mp hd with hnew | hold
    · cases hnew
      obtain ⟨hyear, front', hname'⟩ := hname hj
      have hprinted : e.name = printed front year n := hprinted
      have hn := printed_number (hprinted.symm.trans hname')
      have hone : e.journalId = jid ∧ AccountPayment.yearOf e.date = year := ⟨hj, hyear⟩
      rw [hcount, if_pos hone, hn]
    · have hle := h.below i d hold hj front n hprinted
      rw [hcount]
      omega
  · obtain ⟨j, hj, hcreated⟩ := h.series
    exact ⟨j, hjournals ▸ hj, hseries j.code hcreated⟩

/-! ### Numbers of the series -/

/-- The clock shows the year. -/
def InYear (year : String) (now : Moment) : Prop :=
  Numeric now.clock ∧ now.clock.year = year

/-- The series of a journal gives the number one above the count next. -/
def SeriesAtCount (jid : ℤ) (year : String) (now : Moment) (db : AccountDb) : Prop :=
  InYear year now ∧ ∀ j n, db.journals.get? jid = some j → seriesNext db now j.code = some n →
    n = AccountPayment.countPosted db jid year + 1

/-- A series that is found is not created again. -/
lemma ensureYearly_of_find {pre : String} (h : IrSequence.find sequences code 0 = some r) :
    ensureYearly sequences code pre = sequences := by
  have hnone : (sequences.rows.find? fun r =>
      r.2.code == code && r.2.companyId == none && r.2.active) = some r := by
    rcases Option.or_eq_some_iff.mp h with hc | ⟨-, hc⟩
    · exact hc
    · exact hc
  have hp := find?_some hnone
  have hany : (sequences.rows.any fun r => r.2.code == code && r.2.companyId == none) = true := by
    apply any_eq_true.mpr
    refine ⟨r, mem_of_find?_eq_some hnone, ?_⟩
    simp only [Bool.and_eq_true] at hp ⊢
    exact hp.1
  rw [ensureYearly, if_pos hany]

/-- A number of a series that stands at the count is the next one by count. -/
lemma nextByCount_of_series {db : AccountDb} {j : Journal} {e : Move}
    (hj : db.journals.get? jid = some j) (hat : SeriesAtCount jid year now db)
    (hyear : AccountPayment.yearOf e.date = year)
    (hfind : IrSequence.find (db.ensureJournalSequence j.code).sequences
      (journalSeries j.code) 0 = some r)
    (hname : e.name = expand now.clock j.code ++ "/" ++ now.clock.year ++ "/" ++
      padded 4 (IrSequence.nextNumber now.clock r.2)) : NextByCount db jid year e := by
  have hnext : seriesNext db now j.code = some (IrSequence.nextNumber now.clock r.2) := by
    rw [seriesNext, hfind]
    rfl
  have hcount := hat.2 j _ hj hnext
  refine ⟨hyear, expand now.clock j.code, ?_⟩
  rw [hname, hcount, hat.1.2]
  rfl

lemma seriesAsCreated_nextNumber {db : AccountDb} {now : Moment} {code name jcode : String}
    {sequences : Table Sequence}
    (h : db.nextNumber now code = .ok (name, { db with sequences := sequences }))
    (hcreated : SeriesAsCreated db.sequences jcode) : SeriesAsCreated sequences jcode := by
  obtain ⟨sequences', htake, heq⟩ := nextNumber_ok h
  have hsame : sequences = sequences' := congrArg AccountDb.sequences heq
  rw [hsame]
  exact hcreated.nextByCode htake

lemma nextJournalNumber_series {db : AccountDb} {name : String}
    (h : db.nextJournalNumber now code = .ok (name, { db with sequences := sequences })) :
    (∀ jcode, SeriesAsCreated db.sequences jcode → SeriesAsCreated sequences jcode) ∧
      (Numeric now.clock → SeriesAsCreated db.sequences code →
        ∃ r, IrSequence.find (db.ensureJournalSequence code).sequences
            (journalSeries code) 0 = some r ∧
          name = expand now.clock code ++ "/" ++ now.clock.year ++ "/" ++
            padded 4 (IrSequence.nextNumber now.clock r.2)) := by
  constructor
  · intro jcode hcreated
    exact @seriesAsCreated_nextNumber (db.ensureJournalSequence code) now _ name jcode sequences h
      (hcreated.ensureYearly code)
  · intro hclock hcreated
    exact nextNumber_name hclock (hcreated.ensureYearly code) h

/-! ### The items -/

section Items

variable {D : Type} [JsonDouble D]

/-- A move of the journal is no customer's document and dated in the year. -/
def PostsNumbered (ok : AccountDb → Prop) (jid : ℤ) (year : String) (db : AccountDb) (id : ℤ) :
    Prop :=
  ∀ m, db.moves.get? id = some m → m.journalId = jid →
    m.moveType ≠ .outInvoice ∧ m.moveType ≠ .outRefund ∧ AccountPayment.yearOf m.date = year ∧ ok db

/-- A payment registered in the journal is dated in the year. -/
def RegistersNumbered (ok : AccountDb → Prop) (jid : ℤ) (year : String) (now : Moment)
    (args : AccountMove.PaymentArgs D) (db : AccountDb) (id : ℤ) : Prop :=
  ∀ m r, db.moves.get? id = some m → AccountMove.registration now db args m = .ok r →
    r.journalId = jid → AccountPayment.yearOf r.date = year ∧ ok db

/-- A payment of the journal is dated in the year. -/
def PaysInYear (jid : ℤ) (year : String) (db : AccountDb) (pid : ℤ) : Prop :=
  ∀ p, db.payments.get? pid = some p → p.journalId = jid → AccountPayment.yearOf p.date = year

/-- A line of a schedule of the journal is dated in the year. -/
def LineNumbered (ok : AccountDb → Prop) (jid : ℤ) (year : String) (acc : AccountAsset.Accounts)
    (db : AccountDb) (line : ℤ × DepreciationLine) : Prop :=
  acc.journalId = jid → AccountPayment.yearOf (line.2.depreciationDate.getD "") = year ∧ ok db

def DepreciatesNumbered (ok : AccountDb → Prop) (jid : ℤ) (year : String) (now : Moment)
    (asOf : String) (db : AccountDb) (id : ℤ) : Prop :=
  ∀ a acc due, db.assets.get? id = some a → AccountAsset.accounts db a = .ok acc →
    AccountAsset.asOfDate now asOf = .ok due →
      InTurn (AccountAsset.postLine now id a acc) (LineNumbered ok jid year acc)
        (db.ensureJournalSequence acc.jcode) (AccountAsset.dueLines a due)

lemma sequences_drawCredit (db : AccountDb) (id : ℤ) (partnerId : Option ℤ) :
    (AccountMove.drawCredit db id partnerId).sequences = db.sequences := by
  refine AccountMove.drawCredit_invariant (fun db' => db'.sequences = db.sequences) ?_
    (AccountMove.drawsInTurn_true id db partnerId) rfl
  intro db' p h _
  obtain ⟨job, ss, -, heq, -⟩ := allocate_effect db' p { micros := 0 } [id]
  obtain ⟨moves, payments, hrest⟩ := applySlices_rest job db' ss
  rw [heq, hrest]
  exact h

lemma actionPostOne_numbered {db db' : AccountDb} (h0 : NumberedJournal jid year db)
    (hok : PostsNumbered (SeriesAtCount jid year now) jid year db id)
    (h : AccountMove.actionPostOne now db id = .ok db') : NumberedJournal jid year db' := by
  have hjournals : db'.journals = db.journals :=
    congrArg (fun s => s.2.2.1) (AccountMove.actionPostOne_settings h)
  obtain ⟨m, name, sequences, hget, hdraft, -, -, hname, heq⟩ := AccountMove.actionPostOne_ok h
  have hsequences : db'.sequences = sequences := by
    rw [heq]
    split
    · rw [sequences_drawCredit]
      rfl
    · rfl
  have hposts : Posts db db' id (AccountMove.post name m) := by
    refine ⟨?_, rfl, ?_⟩
    · intro d hd
      rw [document_of_get? hget] at hd
      cases hd
      show m.state ≠ .posted
      rw [hdraft]
      decide
    · intro i
      rw [heq]
      split
      · rw [AccountMove.document_drawCredit, AccountMove.document_posted name sequences hget]
      · rw [AccountMove.document_posted name sequences hget]
  refine h0.post hposts hjournals ?_ ?_
  · intro jcode hcreated
    rw [hsequences]
    unfold AccountMove.takeNumber at hname
    split at hname
    · exact seriesAsCreated_nextNumber hname hcreated
    · exact seriesAsCreated_nextNumber hname hcreated
    · exact (nextJournalNumber_series hname).1 jcode hcreated
  · intro hj
    obtain ⟨hinvoice, hrefund, hyear, hat⟩ := hok m hget hj
    obtain ⟨j, hjournal, hcreated⟩ := h0.series
    have hcode : db.nextJournalNumber now j.code = .ok (name, { db with sequences := sequences }) := by
      unfold AccountMove.takeNumber at hname
      rw [show m.journalId = jid from hj, hjournal] at hname
      split at hname
      · next htype => exact absurd htype hrefund
      · next htype => exact absurd htype hinvoice
      · exact hname
    obtain ⟨r, hfind, htext⟩ := (nextJournalNumber_series hcode).2 hat.1.1 hcreated
    exact nextByCount_of_series hjournal hat hyear hfind htext

/-- The code of a registration is that of its journal. -/
lemma registration_journal {db : AccountDb} {args : AccountMove.PaymentArgs D} {m : Move}
    {r : AccountMove.Registration} (h : AccountMove.registration now db args m = .ok r) :
    ∃ j, db.journals.get? r.journalId = some j ∧ j.code = r.jcode := by
  obtain ⟨_, -, h⟩ := bind_ok_iff.mp h
  obtain ⟨_, -, h⟩ := bind_ok_iff.mp h
  obtain ⟨journalId, -, h⟩ := bind_ok_iff.mp h
  rcases ej : db.journals.get? journalId with - | j
  · rw [ej] at h
    cases h
  rw [ej] at h
  obtain ⟨amount, -, h⟩ := bind_ok_iff.mp h
  obtain ⟨date, -, h⟩ := bind_ok_iff.mp h
  cases h
  exact ⟨j, ej, rfl⟩

lemma registerPaymentOne_numbered {args : AccountMove.PaymentArgs D} {db db' : AccountDb}
    (h0 : NumberedJournal jid year db)
    (hok : RegistersNumbered (SeriesAtCount jid year now) jid year now args db id)
    (h : AccountMove.registerPaymentOne now args db id = .ok db') :
    NumberedJournal jid year db' := by
  have hjournals : db'.journals = db.journals :=
    congrArg (fun s => s.2.2.1) (registerPaymentOne_settings h)
  obtain ⟨m, r, name, sequences, received, db₂, alloc, n, hget, hr, hname, -, halloc, henters⟩ :=
    registerPaymentOne_enters h
  have hsequences : db'.sequences = sequences := by
    obtain ⟨m', r', name', sequences', received', db₂', alloc', hget', hr', hname', hreceived',
      halloc', hlines⟩ := AccountMove.registerPaymentOne_ok h
    obtain ⟨job, ss, -, heq, -⟩ := allocate_effect
      (r'.opened { db with sequences := sequences' } m' name') db.payments.nextId received' [id]
    obtain ⟨moves, payments, hrest⟩ := applySlices_rest job
      (r'.opened { db with sequences := sequences' } m' name') ss
    rw [halloc', hrest] at heq
    obtain ⟨⟨moves', n', hdb'⟩, -⟩ := addLines_ok hlines
    rw [hget] at hget'
    cases hget'
    rw [hr] at hr'
    cases hr'
    rw [hname, Except.ok.injEq, Prod.mk.injEq] at hname'
    rw [hdb', show db₂' = _ from heq]
    exact (congrArg AccountDb.sequences hname'.2).symm
  refine h0.post (henters.posts rfl) hjournals ?_ ?_
  · intro jcode hcreated
    rw [hsequences]
    exact (nextJournalNumber_series hname).1 jcode hcreated
  · intro hj
    obtain ⟨hyear, hat⟩ := hok m r hget hr hj
    obtain ⟨j, hjournal, hcreated⟩ := h0.series
    obtain ⟨j', hj', hcode⟩ := registration_journal hr
    rw [show r.journalId = jid from hj, hjournal] at hj'
    cases hj'
    rw [← hcode] at hname
    obtain ⟨s, hfind, htext⟩ := (nextJournalNumber_series hname).2 hat.1.1 hcreated
    exact nextByCount_of_series hjournal hat hyear hfind htext

/-- A counted name is above all others. -/
lemma postPaymentOne_numbered {db db' : AccountDb} {pid : ℤ} (h0 : NumberedJournal jid year db)
    (hok : PaysInYear jid year db pid) (h : AccountPayment.actionPostOne D db pid = .ok db') :
    NumberedJournal jid year db' := by
  have hjournals : db'.journals = db.journals :=
    congrArg (fun s => s.2.2.1) (postPaymentOne_settings h)
  obtain ⟨p, j, cashAcc, partnerAcc, amount, hget, -, hjournal, henters⟩ := postPaymentOne_enters h
  refine h0.post (henters.posts rfl) hjournals ?_ ?_
  · intro jcode hcreated
    obtain ⟨p', j', cashAcc', partnerAcc', amount', db₁, -, -, -, hentry, rfl⟩ :=
      AccountPayment.actionPostOne_ok h
    obtain ⟨⟨moves, n, rfl⟩, -⟩ := postEntry_ok hentry
    exact hcreated
  · intro hj
    have hj : p.journalId = jid := hj
    have hyear := hok p hget hj
    refine ⟨hyear, j.code, ?_⟩
    show AccountPayment.entryName db j.code p.journalId p.date = _
    rw [AccountPayment.entryName, hyear, hj]
    rfl

/-- The code of the accounts is that of the asset's journal. -/
lemma accounts_journal {db : AccountDb} {a : Asset} {acc : AccountAsset.Accounts}
    (h : AccountAsset.accounts db a = .ok acc) :
    ∃ j, db.journals.get? acc.journalId = some j ∧ j.code = acc.jcode := by
  obtain ⟨_, -, h⟩ := bind_ok_iff.mp h
  rcases ej : db.journals.get? (a.journalId.getD 0) with - | j
  · rw [ej] at h
    cases h
  · rw [ej] at h
    cases h
    exact ⟨j, ej, rfl⟩

lemma postLine_numbered {a : Asset} {acc : AccountAsset.Accounts} {db db' : AccountDb}
    {line : ℤ × DepreciationLine} (h0 : NumberedJournal jid year db)
    (hacc : ∃ j, db.journals.get? acc.journalId = some j ∧ j.code = acc.jcode)
    (hok : LineNumbered (SeriesAtCount jid year now) jid year acc db line)
    (h : AccountAsset.postLine now id a acc db line = .ok db') : NumberedJournal jid year db' := by
  have hjournals : db'.journals = db.journals :=
    congrArg (fun s => s.2.2.1) (postLine_settings h)
  obtain ⟨name, sequences, hname, henters⟩ := postLine_enters h
  refine h0.post (henters.posts rfl) hjournals ?_ ?_
  · intro jcode hcreated
    obtain ⟨name', sequences', db₁, assets, hname', hentry, rfl⟩ := AccountAsset.postLine_ok h
    obtain ⟨⟨moves, n, rfl⟩, -⟩ := postEntry_ok hentry
    exact seriesAsCreated_nextNumber hname' hcreated
  · intro hj
    have hj : acc.journalId = jid := hj
    obtain ⟨hyear, hat⟩ := hok hj
    obtain ⟨j, hjournal, hcreated⟩ := h0.series
    obtain ⟨j', hj', hcode⟩ := hacc
    rw [hj, hjournal] at hj'
    cases hj'
    rw [← hcode] at hname
    obtain ⟨r, hfind, htext⟩ := nextNumber_name hat.1.1 hcreated hname
    have hensured : IrSequence.find (db.ensureJournalSequence j.code).sequences
        (journalSeries j.code) 0 = some r := by
      show IrSequence.find (ensureYearly _ _ _) _ 0 = _
      rw [ensureYearly_of_find hfind, hfind]
    exact nextByCount_of_series hjournal hat hyear hensured htext

/-- The journal's numbering does not depend on the assets, and a series may be
created. -/
lemma NumberedJournal.rest {db : AccountDb} (h : NumberedJournal jid year db)
    (assets : Table Asset)
    (hseries : ∀ jcode, SeriesAsCreated db.sequences jcode → SeriesAsCreated sequences jcode) :
    NumberedJournal jid year { db with sequences := sequences, assets := assets } := by
  obtain ⟨j, hj, hcreated⟩ := h.series
  exact ⟨h.distinct, h.below, j, hj, hseries j.code hcreated⟩

/-- The numbering, and the journal of the asset that is depreciated. -/
structure NumberedAsset (jid : ℤ) (year : String) (acc : AccountAsset.Accounts) (db : AccountDb) :
    Prop where
  numbered : NumberedJournal jid year db
  journal : ∃ j, db.journals.get? acc.journalId = some j ∧ j.code = acc.jcode

lemma depreciateOne_numbered {asOf : String} {db db' : AccountDb}
    (h0 : NumberedJournal jid year db)
    (hok : DepreciatesNumbered (SeriesAtCount jid year now) jid year now asOf db id)
    (h : AccountAsset.depreciateOne now asOf db id = .ok db') : NumberedJournal jid year db' := by
  rcases AccountAsset.depreciateOne_ok h with
    ⟨-, rfl⟩ | ⟨a, acc, due, db₁, assets, ha, hacc, hdue, hlines, rfl⟩
  · exact h0
  have hstart : NumberedJournal jid year (db.ensureJournalSequence acc.jcode) :=
    h0.rest db.assets fun jcode hcreated => hcreated.ensureYearly acc.jcode
  -- the journal stays what it is while the lines are posted
  have hinv : NumberedAsset jid year acc db₁ := by
    refine foldlM_invariant ?_ (hok a acc due ha hacc hdue) hlines ⟨hstart, accounts_journal hacc⟩
    intro db₂ line db₃ hinv hline hone
    have hjournals : db₃.journals = db₂.journals :=
      congrArg (fun s => s.2.2.1) (postLine_settings hone)
    exact ⟨postLine_numbered hinv.numbered hinv.journal hline hone, hjournals ▸ hinv.journal⟩
  exact hinv.numbered.rest assets fun _ hcreated => hcreated

/-! ### Runs -/

/-- The operation posts entries, of the journal only such as are dated in the
year and no customer's documents, and a condition holds whenever it takes a
number of the series for one of them. -/
def NumbersInTurn (ok : AccountDb → Prop) (jid : ℤ) (year : String) (now : Moment)
    (db : AccountDb) : AccountOp D → Prop
  | .actionPost ids => InTurn (AccountMove.actionPostOne now) (PostsNumbered ok jid year) db ids
  | .registerPayment ids args =>
      InTurn (AccountMove.registerPaymentOne now args) (RegistersNumbered ok jid year now args) db ids
  | .postPayment ids => InTurn (AccountPayment.actionPostOne D) (PaysInYear jid year) db ids
  | .depreciate ids asOf =>
      InTurn (AccountAsset.depreciateOne now asOf) (DepreciatesNumbered ok jid year now asOf) db ids
  | _ => False

lemma numbersInTurn_numbered {db db' : AccountDb} {op : AccountOp D}
    (h0 : NumberedJournal jid year db)
    (hok : NumbersInTurn (SeriesAtCount jid year now) jid year now db op)
    (h : op.run now db = .ok db') : NumberedJournal jid year db' := by
  cases op with
  | actionPost ids =>
      exact foldlM_invariant (fun _ _ _ h₁ hid hone => actionPostOne_numbered h₁ hid hone) hok h h0
  | registerPayment ids args =>
      exact foldlM_invariant (fun _ _ _ h₁ hid hone => registerPaymentOne_numbered h₁ hid hone)
        hok h h0
  | postPayment ids =>
      exact foldlM_invariant (fun _ _ _ h₁ hid hone => postPaymentOne_numbered h₁ hid hone) hok h h0
  | depreciate ids asOf =>
      exact foldlM_invariant (fun _ _ _ h₁ hid hone => depreciateOne_numbered h₁ hid hone) hok h h0
  | _ => cases hok

end Items

/-- The posted entries of a journal have names of their own. -/
def NamesUnique (jid : ℤ) (db : AccountDb) : Prop :=
  ∀ i k m m', db.moves.get? i = some m → db.moves.get? k = some m' → m.state = .posted →
    m'.state = .posted → m.journalId = jid → m'.journalId = jid → m.name = m'.name → i = k

/-- An empty entry of the bank journal. -/
def bankEntry : Move where
  moveType := .entry
  date := "2026-02-10"
  journalId := 1

/-- A bank journal without entries, with a draft payment and a draft entry. -/
def newBank : AccountDb where
  accounts := (empty.insert { code := "1100", accountType := .assetCash }).insert
    { code := "1200", accountType := .assetReceivable }
  journals := empty.insert { code := "BNK", type := .bank, defaultAccountId := some 1 }
  payments := empty.insert
    { date := "2026-02-10", journalId := 1, partnerId := some 7, amount := 100000000 }
  moves := empty.insert bankEntry

lemma numeric_february : Numeric february.clock where
  year := ⟨by decide, by simp [february]⟩
  shortYear := ⟨by decide, by simp [february]⟩
  month := ⟨by decide, by simp [february]⟩
  day := ⟨by decide, by simp [february]⟩

lemma numbered_newBank : NumberedJournal 1 "2026" newBank := by
  have hnone : postedDocs newBank = [] := rfl
  constructor
  · intro i k d d' hd
    rw [hnone] at hd
    cases hd
  · intro i d hd
    rw [hnone] at hd
    cases hd
  · refine ⟨_, rfl, ?_⟩
    intro r hr
    cases hr

end CErp
