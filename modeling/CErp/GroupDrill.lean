/-
Drilling into a group: the search for a group's `__domain`.

`readGroup` builds a group's `__domain` from its keys alone.  What the columns
and their texts are is `ColumnTypes`; with it, the conditions of a key are those
of the rows that have the key (`keyLeaves_iff`), except for a date whose bucket
leaves the years of four digits (`not_keyLeaves_of_far`).

`group_domains_exact_iff` says when the groups partition the rows found and the
search for each `__domain` finds the rows of its group: the caller's own domain is
in none of the `__domain`s, so it has to follow from the keys.
-/
import CErp.CsvGrants
import CErp.IsoDates
import CErp.ReadGroup
import CErp.RuleDomains

namespace CErp

open Outcome Calendar List Option String PrefixStack

variable {t : Option String}

section Drill

variable [FloatText]

/-! ### Rows that nodes select -/

/-- The rows every node is true of, of those the caller's company may see. -/
def selected (m : ServedModel) (c : Caller) (rows : List (ℤ × Row)) (nodes : List DomainNode) :
    List (ℤ × Row) :=
  rows.filter fun r => nodes.all (fun n => n.truth m.interp "" r == .true) &&
    companyVisible m.schema.toSchema c r.2

lemma mem_selected {m : ServedModel} {c : Caller} {rows : List (ℤ × Row)}
    {nodes : List DomainNode} {r : ℤ × Row} :
    r ∈ selected m c rows nodes ↔ r ∈ rows ∧ (∀ n ∈ nodes, n.Holds m.interp r) ∧
      companyVisible m.schema.toSchema c r.2 = true := by
  simp only [selected, mem_filter, Bool.and_eq_true, List.all_eq_true, beq_iff_eq]
  rfl

variable {m : ServedModel} {engine : Option RuleEngine} {c : Caller} {rows found : List (ℤ × Row)}
variable {domainJson : Json}

/-- **An answered search.**  The rows are those that the caller's nodes and the
rules' select, as they are left on the stack. -/
theorem foundRows_iff : foundRows m engine c rows domainJson = .ok found ↔
    ∃ merged nodes, mergeRuleDomain engine m.derived.modelName c.ctx domainJson .read = .ok merged ∧
      domainSignature.run (programOf domainJson ++ ruleItems engine m c) = .ok nodes ∧
      (∀ n ∈ nodes, n.compiles (some m.derived.registry.storedColumnNames) = true) ∧
      found = selected m c rows nodes := by
  have hok : ∀ {found}, foundRows m engine c rows domainJson = .ok found →
      ∃ merged nodes, mergeRuleDomain engine m.derived.modelName c.ctx domainJson .read = .ok merged ∧
        domainSignature.run (programOf domainJson ++ ruleItems engine m c) = .ok nodes ∧
        (∀ n ∈ nodes, n.compiles (some m.derived.registry.storedColumnNames) = true) ∧
        found = selected m c rows nodes := by
    intro found h
    obtain ⟨merged, dom, hmerged, hdom, hcompiles, p, rfl, hp⟩ := foundRows_ok h
    rw [domainFromJson_eq, programOf_merge hmerged] at hdom
    obtain ⟨nodes, hnodes, rfl⟩ := map_ok_iff.mp hdom
    rw [compiles_domainOfStack] at hcompiles
    refine ⟨merged, nodes, hmerged, hnodes, hcompiles, filter_congr fun r _ => ?_⟩
    rw [Bool.eq_iff_iff, hp, satisfies_domainOfStack, Bool.and_eq_true, List.all_eq_true]
    simp only [beq_iff_eq]
    exact and_congr_left fun _ => ⟨fun h n hn => (h n hn).2, fun h n hn => ⟨hcompiles n hn, h n hn⟩⟩
  constructor
  · exact hok
  · rintro ⟨merged, nodes, hmerged, hnodes, hcompiles, rfl⟩
    have hdom : domainFromJson merged = .ok (domainOfStack nodes) := by
      rw [domainFromJson_eq, programOf_merge hmerged, hnodes]
      rfl
    obtain ⟨found, hfound⟩ :=
      foundRows_of_compiles hmerged hdom ((compiles_domainOfStack _ _).mpr hcompiles) rows
    obtain ⟨-, nodes', -, hnodes', -, rfl⟩ := hok hfound
    obtain rfl := Except.ok.inj (hnodes.symm.trans hnodes')
    exact hfound

/-! ### What the caller may read -/

/-- Where any search is answered, the one for everything is. -/
lemma readable_of_found (h : foundRows m engine c rows domainJson = .ok found) :
    ∃ readable, foundRows m engine c rows (.arr []) = .ok readable := by
  obtain ⟨-, nodes, -, hnodes, hcompiles, -⟩ := foundRows_iff.mp h
  obtain ⟨base, hbase, hrun⟩ := runOn_append_ok hnodes
  refine ⟨_, foundRows_iff.mpr ⟨_, base, merge_arr [], hbase, ?_, rfl⟩⟩
  exact forall_mem_of_runOn (fun ha hlen h => compiles_operands _ ha hlen h) hrun hcompiles

/-- A search with leaves of its own finds the readable rows they hold of. -/
lemma foundRows_leaves {items : List Json} (hleaf : ∀ item ∈ items, itemArity item = .ok 0)
    {readable : List (ℤ × Row)} (h : foundRows m engine c rows (.arr []) = .ok readable) :
    foundRows m engine c rows (.arr items) = .ok found ↔
      (∀ item ∈ items, (itemNode item []).compiles
        (some m.derived.registry.storedColumnNames) = true) ∧
      found = selected m c readable (items.map fun item => itemNode item []) := by
  obtain ⟨-, base, -, hbase, hcompiles, rfl⟩ := foundRows_iff.mp h
  have hown : domainSignature.run items = .ok (items.map fun item => itemNode item []) :=
    run_of_arity_zero hleaf
  have hrun : domainSignature.run (items ++ ruleItems engine m c) =
      .ok ((items.map fun item => itemNode item []) ++ base) := by
    rw [Signature.run, runOn_append]
    have hbase' : domainSignature.runOn (ruleItems engine m c) [] = .ok base := hbase
    rw [hbase']
    exact runOn_of_run hown base
  have hrows : selected m c rows ((items.map fun item => itemNode item []) ++ base) =
      selected m c (selected m c rows base) (items.map fun item => itemNode item []) := by
    unfold selected
    rw [List.filter_filter]
    apply filter_congr
    intro r _
    rw [all_append]
    rcases companyVisible m.schema.toSchema c r.2 with - | - <;> simp [Bool.and_comm]
  rw [foundRows_iff]
  constructor
  · rintro ⟨-, nodes, -, hnodes, hall, rfl⟩
    have heq : nodes = _ := Except.ok.inj (hnodes.symm.trans hrun)
    subst heq
    refine ⟨fun item hitem => hall _ (mem_append_left _ ?_), hrows⟩
    exact List.mem_map.mpr ⟨item, hitem, rfl⟩
  · rintro ⟨hall, rfl⟩
    refine ⟨_, _, merge_arr items, hrun, ?_, hrows.symm⟩
    intro n hn
    rcases mem_append.mp hn with hleft | hright
    · obtain ⟨item, hitem, rfl⟩ := List.mem_map.mp hleft
      exact hall item hitem
    · exact hcompiles n hright

/-! ### Columns -/

/-- The day of a date or a time: one that is infinitely early, one that is
infinitely late, or a day. -/
abbrev Instant := WithBot (WithTop ℤ)

/-- A day as a moment. -/
def onDay (d : ℤ) : Instant := ((d : WithTop ℤ) : Instant)

section

omit [FloatText]

lemma moment_cases : ∀ u : Instant, u = ⊥ ∨ u = ((⊤ : WithTop ℤ) : Instant) ∨ ∃ d, u = onDay d
  | none => .inl rfl
  | some none => .inr (.inl rfl)
  | some (some d) => .inr (.inr ⟨d, rfl⟩)

variable {d : ℤ}

lemma onDay_le_iff {e : ℤ} : onDay d ≤ onDay e ↔ d ≤ e := by
  rw [onDay, onDay, WithBot.coe_le_coe, WithTop.coe_le_coe]

lemma onDay_lt_iff {e : ℤ} : onDay d < onDay e ↔ d < e := by
  rw [onDay, onDay, WithBot.coe_lt_coe, WithTop.coe_lt_coe]

lemma onDay_inj {e : ℤ} : onDay d = onDay e ↔ d = e := by
  rw [onDay, onDay, WithBot.coe_inj, WithTop.coe_inj]

/-- The midnight a moment's day begins with, as the database writes it. -/
def momentText (zone : ℤ → List Char) : Instant → String
  | none => "-infinity"
  | some none => "infinity"
  | some (some d) => ofList (midnightText zone d)

/-- A date as the database reads it. -/
def readMoment (s : String) : Option Instant :=
  match dayOfDigits s.toList with
  | some d => some (onDay d)
  | none =>
      if s = "infinity" then some ((⊤ : WithTop ℤ) : Instant)
      else if s = "-infinity" then some ⊥
      else none

/-- `date_trunc`, and the bucket's end; the infinite moments stay. -/
def bucketStart (b : Buckets) (t : Instant) : Instant := t.map (WithTop.map b.floor)

def bucketStop (b : Buckets) (t : Instant) : Instant := t.map (WithTop.map b.next)

/-- The buckets of an interval. -/
def bucketsOf (interval : String) : Option Buckets :=
  if interval = "day" then some days
  else if interval = "week" then some weeks
  else if interval = "month" then some months
  else if interval = "quarter" then some quarters
  else if interval = "year" then some years
  else none

/-- The type of a key's field. -/
def keyType (m : ServedModel) (k : GroupKey) : Option FieldType :=
  (m.derived.registry.get? k.field).map (·.type)

/-- What the columns are of the type of their fields, and how the database
compares them with texts: a value equals its own text, `true` and `false` are the
booleans' input, and a date or a time is on one side of a midnight by its day. -/
structure ColumnTypes (m : ServedModel) (db : Grouping) where
  zone : ℤ → List Char
  zone_plain : ∀ d, 'B' ∉ zone d
  day : String → ℤ × Row → Option Instant
  null : ∀ {k r t}, db.keyText k r = .ok t →
    ∀ r', m.interp.isNull k.field r' = true ↔ db.keyText k r' = .ok none
  value : ∀ {k r v}, k.interval = "" → keyType m k ≠ some .boolean → db.keyText k r = .ok (some v) →
    ∀ r', m.interp.compare k.field "=" v r' = .true ↔ db.keyText k r' = .ok (some v)
  boolean : ∀ {k r v}, k.interval = "" → keyType m k = some .boolean → db.keyText k r = .ok (some v) →
    (v = "t" ∨ v = "f") ∧ ∀ r', m.interp.compare k.field "="
      (if v = "t" then "true" else "false") r' = .true ↔ db.keyText k r' = .ok (some v)
  reference : ∀ {k r v}, keyType m k = some .many2one → db.keyText k r = .ok (some v) →
    k.interval = "" ∧ ∃ i : ℤ, -2 ^ 31 ≤ i ∧ i ≤ 2 ^ 31 - 1 ∧ v = toString i
  trunc : ∀ {k r t}, k.interval ≠ "" → db.keyText k r = .ok t → ∃ b, bucketsOf k.interval = some b ∧
    t = (day k.field r).map fun u => momentText zone (bucketStart b u)
  trunc_ok : ∀ {k r t}, k.interval ≠ "" → db.keyText k r = .ok t →
    ∀ r' d, day k.field r' = some (onDay d) → 1 ≤ writtenYear d → writtenYear d ≤ 9999 →
      ∃ t', db.keyText k r' = .ok t'
  stop : ∀ {k r t b u}, k.interval ≠ "" → db.keyText k r = .ok t → bucketsOf k.interval = some b →
    day k.field r = some u → db.bucketEnd k (momentText zone (bucketStart b u)) =
      momentText zone (bucketStop b u)
  notBefore : ∀ {k r t}, k.interval ≠ "" → db.keyText k r = .ok t →
    ∀ s r', m.interp.compare k.field ">=" s r' = .true ↔
      ∃ u v, day k.field r' = some u ∧ readMoment s = some v ∧ v ≤ u
  before : ∀ {k r t}, k.interval ≠ "" → db.keyText k r = .ok t →
    ∀ s r', m.interp.compare k.field "<" s r' = .true ↔
      ∃ u v, day k.field r' = some u ∧ readMoment s = some v ∧ u < v

/-! ### Dates and their texts -/

lemma dayOfText_onDay (zone : ℤ → List Char) (d : ℤ) :
    dayOfText (momentText zone (onDay d)) = ofList ((midnightText zone d).take 10) := by
  show ofList ((ofList (midnightText zone d)).toList.take 10) = _
  rw [toList_ofList]

/-- A cut text of a day is read as a date or not at all. -/
lemma readMoment_onDay (zone : ℤ → List Char) (d : ℤ) :
    readMoment (dayOfText (momentText zone (onDay d))) =
      (dayOfDigits ((midnightText zone d).take 10)).map onDay := by
  obtain ⟨c, cs, htext, hc⟩ := midnightText_head zone d
  have hne : ∀ s : String, s.toList.head?.any (·.isDigit) = false →
      ofList ((midnightText zone d).take 10) ≠ s := by
    rintro s hs rfl
    rw [toList_ofList, htext] at hs
    rw [take_succ_cons, head?_cons, any_some, hc] at hs
    cases hs
  rw [dayOfText_onDay]
  unfold readMoment
  rw [toList_ofList]
  rcases dayOfDigits ((midnightText zone d).take 10) with - | e
  · dsimp only
    rw [if_neg (hne "infinity" rfl), if_neg (hne "-infinity" rfl)]
    rfl
  · rfl

lemma readMoment_past : readMoment (dayOfText "-infinity") = some ⊥ := by
  have hdate : dayOfDigits (dayOfText "-infinity").toList = none := by decide
  have hself : dayOfText "-infinity" = "-infinity" := by decide
  have hne : ("-infinity" : String) ≠ "infinity" := by decide
  unfold readMoment
  rw [hdate, hself]
  rw [if_neg hne, if_pos rfl]

lemma readMoment_future : readMoment (dayOfText "infinity") = some ((⊤ : WithTop ℤ) : Instant) := by
  have hdate : dayOfDigits (dayOfText "infinity").toList = none := by decide
  have hself : dayOfText "infinity" = "infinity" := by decide
  unfold readMoment
  rw [hdate, hself]
  rw [if_pos rfl]

lemma dayOfText_momentText_ne (zone : ℤ → List Char) (u : Instant) :
    dayOfText (momentText zone u) ≠ "" := by
  obtain rfl | rfl | ⟨d, rfl⟩ := moment_cases u
  · show dayOfText "-infinity" ≠ ""
    decide
  · show dayOfText "infinity" ≠ ""
    decide
  · obtain ⟨c, cs, htext, -⟩ := midnightText_head zone d
    rw [dayOfText_onDay, htext]
    intro h
    have hlist := congrArg String.toList h
    rw [toList_ofList] at hlist
    cases hlist

variable {u : Instant} {zone : ℤ → List Char}

/-- A day's text is that of no other moment. -/
lemma eq_onDay_of_momentText (hzone : ∀ d, 'B' ∉ zone d)
    (h : momentText zone u = momentText zone (onDay d)) : u = onDay d := by
  obtain ⟨c, cs, htext, hc⟩ := midnightText_head zone d
  have hne : ∀ s : String, s.toList.head?.any (·.isDigit) = false → momentText zone (onDay d) ≠ s := by
    rintro s hs rfl
    have hchars : (momentText zone (onDay d)).toList = c :: cs := by
      show (ofList (midnightText zone d)).toList = c :: cs
      rw [toList_ofList, htext]
    rw [hchars, head?_cons, any_some, hc] at hs
    cases hs
  match u with
  | none => exact absurd h.symm (hne "-infinity" rfl)
  | some none => exact absurd h.symm (hne "infinity" rfl)
  | some (some e) =>
      have htexts : midnightText zone e = midnightText zone d := ofList_injective h
      rw [midnightText_injective hzone htexts]
      rfl

variable {b : Buckets}

/-- What begins with the bucket of a day is a day. -/
lemma onDay_of_bucketStart (h : bucketStart b u = bucketStart b (onDay d)) :
    ∃ d', u = onDay d' ∧ b.floor d' = b.floor d := by
  obtain rfl | rfl | ⟨d', rfl⟩ := moment_cases u
  · cases h
  · cases h
  · exact ⟨d', rfl, onDay_inj.mp h⟩

/-- The years of a bucket are written with four digits. -/
def InReach (b : Buckets) (u : Instant) : Prop :=
  ∃ d, u = onDay d ∧ 1 ≤ writtenYear (b.floor d) ∧ writtenYear (b.next d) ≤ 9999

/-- **The cut ends of a bucket in reach bound its moments.** -/
theorem between_iff (h : InReach b u) (u' : Instant) :
    ((∃ v, readMoment (dayOfText (momentText zone (bucketStart b u))) = some v ∧ v ≤ u') ∧
      ∃ v, readMoment (dayOfText (momentText zone (bucketStop b u))) = some v ∧ u' < v) ↔
      bucketStart b u' = bucketStart b u := by
  obtain ⟨d, rfl, hfirst, hlast⟩ := h
  have hyears := writtenYear_mono (le_trans (b.floor_le d) (b.lt_next d).le)
  have hstart : readMoment (dayOfText (momentText zone (bucketStart b (onDay d)))) =
      some (onDay (b.floor d)) := by
    show readMoment (dayOfText (momentText zone (onDay (b.floor d)))) = _
    rw [readMoment_onDay, dayOfDigits_cut hfirst (by omega)]
    rfl
  have hstop : readMoment (dayOfText (momentText zone (bucketStop b (onDay d)))) =
      some (onDay (b.next d)) := by
    show readMoment (dayOfText (momentText zone (onDay (b.next d)))) = _
    rw [readMoment_onDay, dayOfDigits_cut (by omega) hlast]
    rfl
  simp only [hstart, hstop, Option.some.injEq, exists_eq_left']
  obtain rfl | rfl | ⟨d', rfl⟩ := moment_cases u'
  · refine iff_of_false (fun h => absurd h.1 (WithBot.not_coe_le_bot _)) (fun h => ?_)
    cases h
  · refine iff_of_false (fun h => ?_) (fun h => ?_)
    · have hlt : ((⊤ : WithTop ℤ) : Instant) < onDay (b.next d) := h.2
      rw [onDay, WithBot.coe_lt_coe] at hlt
      exact absurd hlt not_top_lt
    · cases h
  · rw [onDay_le_iff, onDay_lt_iff, ← b.floor_eq_iff]
    exact onDay_inj.symm

/-- The cut ends of a bucket out of reach do not bound the moments in it. -/
lemma not_between_of_far (hplain : b.Plain) (hera : ∃ q, b.start q = firstDay)
    (h : ¬InReach b u) :
    ¬((∃ v, readMoment (dayOfText (momentText zone (bucketStart b u))) = some v ∧ v ≤ u) ∧
      ∃ v, readMoment (dayOfText (momentText zone (bucketStop b u))) = some v ∧ u < v) := by
  rintro ⟨⟨v, hv, hle⟩, w, hw, hlt⟩
  obtain rfl | rfl | ⟨d, rfl⟩ := moment_cases u
  · have hstop : readMoment (dayOfText "-infinity") = some w := hw
    rw [readMoment_past, Option.some.injEq] at hstop
    rw [← hstop] at hlt
    exact absurd hlt (lt_irrefl _)
  · have hstop : readMoment (dayOfText "infinity") = some w := hw
    rw [readMoment_future, Option.some.injEq] at hstop
    rw [← hstop] at hlt
    exact absurd hlt (lt_irrefl _)
  · have hstart : readMoment (dayOfText (momentText zone (onDay (b.floor d)))) = some v := hv
    have hstop : readMoment (dayOfText (momentText zone (onDay (b.next d)))) = some w := hw
    rw [readMoment_onDay] at hstart hstop
    obtain ⟨e, he, rfl⟩ := map_eq_some_iff.mp hstart
    obtain ⟨e', he', rfl⟩ := map_eq_some_iff.mp hstop
    have hle : e ≤ d := onDay_le_iff.mp hle
    have hlt : d < e' := onDay_lt_iff.mp hlt
    have hfirst : firstDay ≤ d := le_trans (firstDay_le_dayOfDigits he) hle
    -- a day of our era is in a bucket of our era
    have hyear : 1 ≤ writtenYear (b.floor d) := by
      obtain ⟨q, hq⟩ := hera
      apply firstDay_le_iff.mp
      rw [← hq] at hfirst ⊢
      exact b.start_mono (b.le_index_iff.mpr hfirst)
    have hlate : 9999 < writtenYear (b.next d) := by
      by_contra hnot
      exact h ⟨d, rfl, hyear, not_lt.mp hnot⟩
    obtain ⟨hday, hearly⟩ := dayOfDigits_cut_late hlate he'
    rcases hplain with hweek | hmonth
    · have hnext := hweek (b.index d)
      have hfloor := b.floor_le d
      unfold Buckets.floor at hfloor
      unfold Buckets.next at hearly
      omega
    · rw [Buckets.next, hmonth] at hday
      omega

lemma bucketsOf_plain {interval : String} (h : bucketsOf interval = some b) :
    b.Plain ∧ ∃ q, b.start q = firstDay := by
  unfold bucketsOf at h
  split at h
  · cases h
    exact ⟨days_plain, firstDay, rfl⟩
  split at h
  · cases h
    exact ⟨weeks_plain, (firstDay - aMonday) / 7, by decide⟩
  split at h
  · cases h
    exact ⟨months_plain, 10, by decide⟩
  split at h
  · cases h
    exact ⟨monthRuns_plain _, 4, by decide⟩
  split at h
  · cases h
    exact ⟨monthRuns_plain _, 1, by decide⟩
  · cases h

end

/-! ### The conditions of a key -/

/-- The row's date, if the key is one, is in reach. -/
def ColumnTypes.Reaches {db : Grouping} (T : ColumnTypes m db) (k : GroupKey) (r : ℤ × Row) : Prop :=
  k.interval ≠ "" → ∀ b u, bucketsOf k.interval = some b → T.day k.field r = some u → InReach b u

/-- The conditions of a key that are true of a row. -/
def KeyHolds (m : ServedModel) (db : Grouping) (k : GroupKey) (text : Option String) (r : ℤ × Row) :
    Prop :=
  ∀ item ∈ keyLeaves db m.derived.registry k text, (itemNode item []).Holds m.interp r

lemma holds_leafOf (field op : String) (value : Json) (r : ℤ × Row) :
    (itemNode (leafOf field op value) []).Holds m.interp r ↔
      (DomainLeaf.mk field op value).truth m.interp "" r = .true := Iff.rfl

lemma holds_isNull (field : String) (r : ℤ × Row) :
    (itemNode (leafOf field "=" .null) []).Holds m.interp r ↔ m.interp.isNull field r = true := by
  rw [holds_leafOf]
  show Sql.Truth.ofBool (m.interp.isNull field r) = .true ↔ _
  rcases m.interp.isNull field r with - | - <;> decide

lemma holds_compare {field op : String} {v : Json} {r : ℤ × Row} (hv : v.isNull = false)
    (hop : op = "=" ∨ op = ">=" ∨ op = "<") :
    (itemNode (leafOf field op v) []).Holds m.interp r ↔
      m.interp.compare field op (jsonToSqlParam v) r = .true := by
  rw [holds_leafOf]
  unfold DomainLeaf.truth
  rcases hop with rfl | rfl | rfl <;>
    simp [hv, comparison, sqlOperator, qualified]

section Keys

variable {db : Grouping} (T : ColumnTypes m db) {k : GroupKey} {r : ℤ × Row}
include T

/-- The conditions of a date key: the row's date is between the cut ends of the
bucket. -/
lemma keyHolds_date {v : String} (hk : k.interval ≠ "") (h : db.keyText k r = .ok (some v)) :
    ∃ b u, bucketsOf k.interval = some b ∧ T.day k.field r = some u ∧
      v = momentText T.zone (bucketStart b u) ∧ ∀ r', KeyHolds m db k (some v) r' ↔
        ∃ u', T.day k.field r' = some u' ∧
          (∃ w, readMoment (dayOfText (momentText T.zone (bucketStart b u))) = some w ∧ w ≤ u') ∧
          ∃ w, readMoment (dayOfText (momentText T.zone (bucketStop b u))) = some w ∧ u' < w := by
  obtain ⟨b, hb, htext⟩ := T.trunc hk h
  obtain ⟨u, hu, rfl⟩ := map_eq_some_iff.mp htext.symm
  refine ⟨b, u, hb, hu, rfl, ?_⟩
  intro r'
  have htype : keyType m k ≠ some .many2one := fun hty => hk (T.reference hty h).1
  have hstop := T.stop hk h hb hu
  have hlast : dayOfText (db.bucketEnd k (momentText T.zone (bucketStart b u))) ≠ "" := by
    rw [hstop]
    exact dayOfText_momentText_ne _ _
  have hleaves : keyLeaves db m.derived.registry k
      (some (momentText T.zone (bucketStart b u))) =
        [leafOf k.field ">=" (.str (dayOfText (momentText T.zone (bucketStart b u)))),
          leafOf k.field "<" (.str (dayOfText
            (db.bucketEnd k (momentText T.zone (bucketStart b u)))))] := by
    unfold keyLeaves
    split
    · next h => cases h
    · next hty => exact absurd hty htype
    · next v' ty hv' hty =>
        cases hv'
        rw [if_pos hk]
        dsimp only
        rw [if_neg hlast]
  unfold KeyHolds
  rw [hleaves, forall_mem_cons, forall_mem_singleton, holds_compare rfl (.inr (.inl rfl)),
    holds_compare rfl (.inr (.inr rfl)), T.notBefore hk h, T.before hk h, hstop]
  constructor
  · rintro ⟨⟨u', w, hu', hw, hle⟩, u'', w', hu'', hw', hlt⟩
    obtain rfl := mem_unique hu' hu''
    exact ⟨u', hu', ⟨w, hw, hle⟩, w', hw', hlt⟩
  · rintro ⟨u', hu', ⟨w, hw, hle⟩, w', hw', hlt⟩
    exact ⟨⟨u', w, hu', hw, hle⟩, u', w', hu', hw', hlt⟩

/-- **The conditions of a key are true of the rows that have it.** -/
theorem keyHolds_iff (h : db.keyText k r = .ok t) (hreach : T.Reaches k r) (r' : ℤ × Row) :
    KeyHolds m db k t r' ↔ db.keyText k r' = .ok t := by
  rcases t with - | v
  · -- NULL
    have hleaves : keyLeaves db m.derived.registry k none = [leafOf k.field "=" .null] := rfl
    unfold KeyHolds
    rw [hleaves, forall_mem_singleton, holds_isNull, T.null h]
  by_cases hk : k.interval = ""
  · by_cases href : keyType m k = some .many2one
    · obtain ⟨-, i, hlo, hhi, rfl⟩ := T.reference href h
      have hleaves : keyLeaves db m.derived.registry k (some (toString i)) =
          [leafOf k.field "=" (.num i)] := by
        unfold keyType at href
        unfold keyLeaves
        rw [href]
        dsimp only
        rw [Text.stoi_toString hlo hhi]
        rfl
      have hbool : keyType m k ≠ some .boolean := by
        rw [href]
        decide
      unfold KeyHolds
      rw [hleaves, forall_mem_singleton, holds_compare rfl (.inl rfl)]
      exact T.value hk hbool h r'
    · by_cases hbool : keyType m k = some .boolean
      · obtain ⟨hv, hcompare⟩ := T.boolean hk hbool h
        have hleaves : keyLeaves db m.derived.registry k (some v) =
            [leafOf k.field "=" (.bool (v = "t"))] := by
          unfold keyType at hbool
          unfold keyLeaves
          rw [hbool]
          dsimp only
          rw [if_neg (not_not.mpr hk), if_pos rfl]
        unfold KeyHolds
        rw [hleaves, forall_mem_singleton, holds_compare rfl (.inl rfl), ← hcompare r']
        rcases hv with rfl | rfl <;> rfl
      · have hleaves : keyLeaves db m.derived.registry k (some v) =
            [leafOf k.field "=" (.str v)] := by
          unfold keyType at hbool href
          unfold keyLeaves
          split
          · next h => cases h
          · next hty => exact absurd hty href
          · next v' ty hv' hty =>
              cases hv'
              rw [if_neg (not_not.mpr hk), if_neg hbool]
        unfold KeyHolds
        rw [hleaves, forall_mem_singleton, holds_compare rfl (.inl rfl)]
        exact T.value hk hbool h r'
  · -- a date
    obtain ⟨b, u, hb, hu, hv, hholds⟩ := keyHolds_date T hk h
    have hin := hreach hk b u hb hu
    rw [hholds]
    constructor
    · rintro ⟨u', hu', hbetween⟩
      have hsame := (between_iff hin u').mp hbetween
      obtain ⟨d, rfl, hfirst, hlast⟩ := hin
      obtain ⟨d', rfl, hfloor⟩ := onDay_of_bucketStart hsame
      obtain ⟨hle, hlt⟩ := (b.floor_eq_iff).mp hfloor
      have hyear := writtenYear_mono hle
      have hyear' := writtenYear_mono hlt.le
      obtain ⟨t', ht'⟩ := T.trunc_ok hk h r' d' hu' (by omega) (by omega)
      obtain ⟨b', hb', rfl⟩ := T.trunc hk ht'
      obtain rfl := mem_unique hb hb'
      rw [ht', hu', map_some, hv, hsame]
    · intro h'
      obtain ⟨b', u', hb', hu', hv', -⟩ := keyHolds_date T hk h'
      obtain rfl := mem_unique hb hb'
      refine ⟨u', hu', (between_iff hin u').mpr ?_⟩
      obtain ⟨d, rfl, -⟩ := hin
      exact eq_onDay_of_momentText T.zone_plain (hv'.symm.trans hv)

/-- A date out of reach does not satisfy its own conditions. -/
lemma not_keyHolds_of_far (h : db.keyText k r = .ok t) (hfar : ¬T.Reaches k r) :
    ¬KeyHolds m db k t r := by
  unfold ColumnTypes.Reaches at hfar
  simp only [not_forall] at hfar
  obtain ⟨hk, b, u, hb, hu, hout⟩ := hfar
  obtain ⟨b', hb', rfl⟩ := T.trunc hk h
  rw [hu, map_some] at h ⊢
  obtain ⟨b'', u', hb'', hu', -, hholds⟩ := keyHolds_date T hk h
  obtain rfl := mem_unique hb hb''
  obtain rfl := mem_unique hu hu'
  rw [hholds]
  rintro ⟨u', hu', hbetween⟩
  obtain rfl := mem_unique hu hu'
  obtain ⟨hplain, hera⟩ := bucketsOf_plain hb
  exact not_between_of_far hplain hera hout hbetween

end Keys

/-! ### The conditions of a group -/

section Group

variable {db : Grouping} {keys : List GroupKey} {texts : List (Option String)}

section

omit [FloatText]

/-- Each condition of a key compares its field. -/
lemma keyLeaves_shape {k : GroupKey} {item : Json}
    (h : item ∈ keyLeaves db m.derived.registry k t) :
    ∃ op v, item = leafOf k.field op v ∧ (op = "=" ∨ op = ">=" ∨ op = "<") := by
  unfold keyLeaves at h
  split at h
  · exact ⟨_, _, mem_singleton.mp h, .inl rfl⟩
  · exact ⟨_, _, mem_singleton.mp h, .inl rfl⟩
  · split at h
    · rcases mem_cons.mp h with rfl | h
      · exact ⟨_, _, rfl, .inr (.inl rfl)⟩
      · split at h
        · cases h
        · exact ⟨_, _, mem_singleton.mp h, .inr (.inr rfl)⟩
    · split at h
      · exact ⟨_, _, mem_singleton.mp h, .inl rfl⟩
      · exact ⟨_, _, mem_singleton.mp h, .inl rfl⟩

lemma keyLeaves_ne_nil (k : GroupKey) (t : Option String) :
    keyLeaves db m.derived.registry k t ≠ [] := by
  unfold keyLeaves
  split
  · exact cons_ne_nil _ _
  · exact cons_ne_nil _ _
  · split
    · exact cons_ne_nil _ _
    · split <;> exact cons_ne_nil _ _

lemma addKey_registered {reg : FieldRegistry} {spec : String} {k : GroupKey}
    (h : addKey reg spec = .ok k) : ∃ fd, reg.get? k.field = some fd := by
  unfold addKey at h
  dsimp only at h
  split at h
  · cases h
  · next fd hfd =>
      split at h
      · split at h
        · cases h
          exact ⟨fd, hfd⟩
        · cases h
      · split at h
        · cases h
          exact ⟨fd, hfd⟩
        · cases h
          exact ⟨fd, hfd⟩

lemma groupKeys_registered {reg : FieldRegistry} {groupbyJson : Json}
    (h : groupKeys reg groupbyJson = .ok keys) : ∀ k ∈ keys, ∃ fd, reg.get? k.field = some fd := by
  obtain ⟨keys', hkeys, h⟩ := bind_ok_iff.mp h
  obtain ⟨-, -, h⟩ := bind_ok_iff.mp h
  obtain rfl := pure_ok_iff.mp h
  intro k hk
  obtain ⟨spec, -, hspec⟩ := exists_of_mem_mapM hkeys hk
  exact addKey_registered hspec

/-- The condition on a registered field compiles where the field is a stored
column. -/
lemma compiles_leafOf {k : GroupKey} {fd : FieldDef} {op : String} {v : Json}
    (hreg : m.derived.registry.get? k.field = some fd) (hop : op = "=" ∨ op = ">=" ∨ op = "<") :
    (itemNode (leafOf k.field op v) []).compiles (some m.derived.registry.storedColumnNames) = true ↔
      k.field ∈ m.derived.registry.storedColumnNames := by
  have hsupported : supportedOp op = true := by
    rcases hop with rfl | rfl | rfl <;> rfl
  have hname : isValidIdentifier k.field = true := by
    have hmem := mem_of_find?_eq_some hreg
    have hfound := find?_some hreg
    have heq : fd.name = k.field := beq_iff_eq.mp hfound
    exact heq ▸ m.derived.registry.identifiers fd hmem
  have hchars : (k.field.toList.all fun c => c.isAlphanum || c == '_') = true := by
    unfold isValidIdentifier at hname
    split at hname
    · cases hname
    · next c cs hcs =>
        rw [Bool.and_eq_true] at hname
        rw [hcs, all_cons, hname.2, Bool.and_true]
        rcases Bool.or_eq_true_iff.mp hname.1 with h | h
        · rw [show c.isAlphanum = true by simp [Char.isAlphanum, h], Bool.true_or]
        · rw [h, Bool.or_true]
  show ((sanitizeColumn k.field _).isOk && supportedOp op) = true ↔ _
  rw [hsupported, Bool.and_true]
  unfold sanitizeColumn
  rw [if_pos hchars]
  dsimp only
  split
  · next hmem => exact iff_of_true rfl hmem
  · next hmem => exact iff_of_false Bool.false_ne_true hmem

/-- The items of the group's `__domain`. -/
def groupLeaves (m : ServedModel) (db : Grouping) (keys : List GroupKey)
    (texts : List (Option String)) : List Json :=
  (keys.zip texts).flatMap fun kt => keyLeaves db m.derived.registry kt.1 kt.2

lemma keyTexts_iff {r : ℤ × Row} : keyTexts db keys r = .ok texts ↔
    keys.length = texts.length ∧ ∀ k t, (k, t) ∈ keys.zip texts → db.keyText k r = .ok t := by
  unfold keyTexts
  rw [mapM_ok_iff, forall₂_iff_zip]

lemma groupLeaves_leaf : ∀ item ∈ groupLeaves m db keys texts, itemArity item = .ok 0 := by
  intro item hitem
  obtain ⟨kt, -, hitem⟩ := mem_flatMap.mp hitem
  obtain ⟨op, v, rfl, -⟩ := keyLeaves_shape hitem
  rfl

/-- The conditions compile exactly when the keys are stored columns. -/
lemma groupLeaves_compile (hreg : ∀ k ∈ keys, ∃ fd, m.derived.registry.get? k.field = some fd)
    (hlen : keys.length = texts.length) :
    (∀ item ∈ groupLeaves m db keys texts,
      (itemNode item []).compiles (some m.derived.registry.storedColumnNames) = true) ↔
    ∀ k ∈ keys, k.field ∈ m.derived.registry.storedColumnNames := by
  constructor
  · intro h k hk
    obtain ⟨t, hkt⟩ : ∃ t, (k, t) ∈ keys.zip texts := by
      obtain ⟨i, hi, rfl⟩ := getElem_of_mem hk
      exact ⟨texts[i], mem_iff_getElem.mpr
        ⟨i, by rw [length_zip]; omega, getElem_zip⟩⟩
    have hne : keyLeaves db m.derived.registry k t ≠ [] := keyLeaves_ne_nil k t
    obtain ⟨item, hitem⟩ := exists_mem_of_ne_nil _ hne
    obtain ⟨fd, hfd⟩ := hreg k hk
    obtain ⟨op, v, rfl, hop⟩ := keyLeaves_shape hitem
    exact (compiles_leafOf hfd hop).mp (h _ (mem_flatMap.mpr ⟨(k, t), hkt, hitem⟩))
  · intro h item hitem
    obtain ⟨⟨k, t⟩, hkt, hitem⟩ := mem_flatMap.mp hitem
    have hk := (of_mem_zip hkt).1
    obtain ⟨fd, hfd⟩ := hreg k hk
    obtain ⟨op, v, rfl, hop⟩ := keyLeaves_shape hitem
    exact (compiles_leafOf hfd hop).mpr (h k hk)

end

lemma groupLeaves_hold {r : ℤ × Row} :
    (∀ item ∈ groupLeaves m db keys texts, (itemNode item []).Holds m.interp r) ↔
      ∀ k t, (k, t) ∈ keys.zip texts → KeyHolds m db k t r := by
  constructor
  · intro h k t hkt item hitem
    exact h item (mem_flatMap.mpr ⟨(k, t), hkt, hitem⟩)
  · intro h item hitem
    obtain ⟨⟨k, t⟩, hkt, hitem⟩ := mem_flatMap.mp hitem
    exact h k t hkt item hitem

/-- **The conditions of a group are true of the rows with its keys**, the dates
of one of them being in reach. -/
theorem groupLeaves_hold_iff (T : ColumnTypes m db) {r : ℤ × Row} (h : keyTexts db keys r = .ok texts)
    (hreach : ∀ k ∈ keys, T.Reaches k r) (r' : ℤ × Row) :
    (∀ item ∈ groupLeaves m db keys texts, (itemNode item []).Holds m.interp r') ↔
      keyTexts db keys r' = .ok texts := by
  obtain ⟨hlen, htexts⟩ := keyTexts_iff.mp h
  rw [groupLeaves_hold, keyTexts_iff]
  constructor
  · intro hall
    exact ⟨hlen, fun k t hkt => (keyHolds_iff T (htexts k t hkt)
      (hreach k (of_mem_zip hkt).1) r').mp (hall k t hkt)⟩
  · rintro ⟨-, hall⟩ k t hkt
    exact (keyHolds_iff T (htexts k t hkt) (hreach k (of_mem_zip hkt).1) r').mpr (hall k t hkt)

/-- A row that satisfies its group's conditions has its dates in reach. -/
lemma reaches_of_groupLeaves (T : ColumnTypes m db) {r : ℤ × Row}
    (h : keyTexts db keys r = .ok texts)
    (hall : ∀ item ∈ groupLeaves m db keys texts, (itemNode item []).Holds m.interp r) :
    ∀ k ∈ keys, T.Reaches k r := by
  obtain ⟨hlen, htexts⟩ := keyTexts_iff.mp h
  intro k hk
  obtain ⟨i, hi, rfl⟩ := getElem_of_mem hk
  have hkt : (keys[i], texts[i]) ∈ keys.zip texts := mem_iff_getElem.mpr
    ⟨i, by rw [length_zip]; omega, getElem_zip⟩
  by_contra hfar
  exact not_keyHolds_of_far T (htexts _ _ hkt) hfar (groupLeaves_hold.mp hall _ _ hkt)

end Group

/-! ### The groups -/

section Groups

variable {db : Grouping} {keys : List GroupKey} {groups : List RowGroup}
variable {fieldsJson groupbyJson : Json} {limit offset : ℤ} {orderBy : String}

/-- What `read_group` promises of its groups: each found row is in one of them,
no other row is, the counts add up, and the search for a `__domain` finds the
group's rows. -/
structure GroupsExact (m : ServedModel) (db : Grouping) (engine : Option RuleEngine) (c : Caller)
    (rows : List (ℤ × Row)) (domainJson : Json) (keys : List GroupKey) (groups : List RowGroup) :
    Prop where
  once : ∀ found, foundRows m engine c rows domainJson = .ok found →
    (∀ r ∈ found, ∃! g, g ∈ groups ∧ r ∈ g.rows) ∧ ∀ g ∈ groups, ∀ r ∈ g.rows, r ∈ found
  counted : searchCount m engine c rows domainJson = .ok (groups.map fun g => g.rows.length).sum
  drilled : ∀ g ∈ groups, ∃ drilled,
    foundRows m engine c rows (groupDomain db m.derived.registry keys g) = .ok drilled ∧
      drilled.Perm g.rows

/-- The caller's domain follows from the keys of a row, among the rows the caller
may read; the keys are columns a search may name, and the dates of four-digit
years. -/
structure Follows {db : Grouping} (T : ColumnTypes m db) (keys : List GroupKey)
    (found readable : List (ℤ × Row)) (r : ℤ × Row) : Prop where
  stored : ∀ k ∈ keys, k.field ∈ m.derived.registry.storedColumnNames
  reach : ∀ k ∈ keys, T.Reaches k r
  seen : r ∈ readable
  alike : ∀ r' ∈ readable, keyTexts db keys r' = keyTexts db keys r → r' ∈ found

omit [FloatText] in
lemma pageGroups_all (hlimit : limit ≤ 0) (hoffset : offset ≤ 0) :
    pageGroups limit offset groups = groups := by
  unfold pageGroups
  rw [if_neg (not_lt.mpr hlimit), if_neg (not_lt.mpr hoffset)]

/-- **An answered grouping without paging.**  The groups are those of the found
rows by the texts of their keys. -/
theorem readGroup_ok
    (h : readGroup m db engine c rows domainJson fieldsJson groupbyJson limit offset orderBy =
      .ok (keys, groups)) (hlimit : limit ≤ 0) (hoffset : offset ≤ 0) :
    groupKeys m.derived.registry groupbyJson = .ok keys ∧
      ∃ found keyed, foundRows m engine c rows domainJson = .ok found ∧
        Forall₂ (fun r kr => keyTexts db keys r = .ok kr.1 ∧ kr.2 = r) found keyed ∧
        groups.Perm (groupRows keyed) := by
  obtain ⟨keys', hkeys, h⟩ := bind_ok_iff.mp h
  obtain ⟨found, hfound, h⟩ := bind_ok_iff.mp h
  obtain ⟨keyed, hkeyed, h⟩ := bind_ok_iff.mp h
  obtain ⟨rfl, rfl⟩ := Prod.mk.inj (pure_ok_iff.mp h)
  refine ⟨hkeys, found, keyed, hfound, ?_, ?_⟩
  · refine (mapM_ok_iff.mp hkeyed).imp fun r kr hr => ?_
    obtain ⟨texts, htexts, rfl⟩ := map_ok_iff.mp hr
    exact ⟨htexts, rfl⟩
  · rw [pageGroups_all hlimit hoffset]
    exact db.arrange_perm _ _ _ _

omit [FloatText] in
/-- Two selections of one list with the same members are one. -/
lemma filter_eq_of_mem_iff {α : Type*} {l a b : List α} {p p' q q' : α → Bool}
    (ha : a = l.filter p) (hb : b = l.filter q)
    (h : ∀ x, x ∈ a.filter p' ↔ x ∈ b.filter q') : a.filter p' = b.filter q' := by
  subst ha hb
  rw [List.filter_filter, List.filter_filter] at h ⊢
  apply filter_congr
  intro x hx
  have hx' := h x
  rw [mem_filter, mem_filter] at hx'
  rw [Bool.eq_iff_iff]
  exact ⟨fun hp => (hx'.mp ⟨hx, hp⟩).2, fun hq => (hx'.mpr ⟨hx, hq⟩).2⟩

section Keyed

variable {keyed : List (List (Option String) × (ℤ × Row))}

omit [FloatText]

lemma keyed_rows (h : Forall₂ (fun r kr => keyTexts db keys r = .ok kr.1 ∧ kr.2 = r) found keyed) :
    keyed.map Prod.snd = found := by
  induction h with
  | nil => rfl
  | cons hr _ ih => rw [map_cons, ih, hr.2]

lemma mem_keyed_iff
    (h : Forall₂ (fun r kr => keyTexts db keys r = .ok kr.1 ∧ kr.2 = r) found keyed)
    {texts : List (Option String)} {r : ℤ × Row} :
    (texts, r) ∈ keyed ↔ r ∈ found ∧ keyTexts db keys r = .ok texts := by
  induction h with
  | nil => simp
  | @cons r₁ kr₁ found' keyed' hr _ ih =>
      rw [mem_cons, mem_cons, ih]
      obtain ⟨htexts, hrow⟩ := hr
      constructor
      · rintro (heq | ⟨hmem, htexts'⟩)
        · subst heq
          obtain rfl : r = r₁ := hrow
          exact ⟨.inl rfl, htexts⟩
        · exact ⟨.inr hmem, htexts'⟩
      · rintro ⟨rfl | hmem, htexts'⟩
        · left
          rw [htexts, Except.ok.injEq] at htexts'
          exact Prod.ext htexts'.symm hrow.symm
        · exact .inr ⟨hmem, htexts'⟩

/-- The rows of a group are the found rows with its keys. -/
lemma mem_group_iff
    (h : Forall₂ (fun r kr => keyTexts db keys r = .ok kr.1 ∧ kr.2 = r) found keyed)
    {g : RowGroup} (hg : g ∈ groupRows keyed) (r : ℤ × Row) :
    r ∈ g.rows ↔ r ∈ found ∧ keyTexts db keys r = .ok g.key := by
  rw [mem_rows_iff hg, mem_keyed_iff h]

lemma group_rows_eq
    (h : Forall₂ (fun r kr => keyTexts db keys r = .ok kr.1 ∧ kr.2 = r) found keyed)
    {g : RowGroup} (hg : g ∈ groupRows keyed) :
    g.rows = found.filter fun r => (keyTexts db keys r).toOption = some g.key := by
  obtain ⟨k, -, rfl⟩ := mem_groupRows.mp hg
  dsimp only
  clear hg
  induction h with
  | nil => rfl
  | @cons r kr _ _ hr _ ih =>
      have hsome : (keyTexts db keys r).toOption = some kr.1 := by
        rw [hr.1]
        rfl
      by_cases hk : kr.1 = k
      · rw [filter_cons_of_pos (by simpa using hk),
          filter_cons_of_pos (by simpa [hsome] using hk), map_cons, ih, hr.2]
      · rw [filter_cons_of_neg (by simpa using hk),
          filter_cons_of_neg (by simpa [hsome] using hk), ih]

end Keyed

/-- **The groups partition the found rows**, and the counts add up. -/
theorem groups_partition
    (h : readGroup m db engine c rows domainJson fieldsJson groupbyJson limit offset orderBy =
      .ok (keys, groups)) (hlimit : limit ≤ 0) (hoffset : offset ≤ 0) :
    (∀ found, foundRows m engine c rows domainJson = .ok found →
      (∀ r ∈ found, ∃! g, g ∈ groups ∧ r ∈ g.rows) ∧ ∀ g ∈ groups, ∀ r ∈ g.rows, r ∈ found) ∧
    searchCount m engine c rows domainJson = .ok (groups.map fun g => g.rows.length).sum := by
  obtain ⟨-, found, keyed, hfound, hkeyed, hgroups⟩ := readGroup_ok h hlimit hoffset
  constructor
  · intro found' hfound'
    obtain rfl := Except.ok.inj (hfound.symm.trans hfound')
    constructor
    · intro r hr
      have hrow : r ∈ keyed.map Prod.snd := keyed_rows hkeyed ▸ hr
      obtain ⟨g, hg, hmem⟩ := mem_flatMap.mp ((groupRows_perm keyed).mem_iff.mpr hrow)
      refine ⟨g, ⟨hgroups.mem_iff.mpr hg, hmem⟩, ?_⟩
      rintro g' ⟨hg', hmem'⟩
      have hg' := hgroups.mem_iff.mp hg'
      -- a row has one list of texts, and a group is known by it
      have hkey : g'.key = g.key := by
        have htexts := ((mem_group_iff hkeyed hg r).mp hmem).2
        have htexts' := ((mem_group_iff hkeyed hg' r).mp hmem').2
        exact Except.ok.inj (htexts'.symm.trans htexts)
      obtain ⟨k, -, rfl⟩ := mem_groupRows.mp hg
      obtain ⟨k', -, rfl⟩ := mem_groupRows.mp hg'
      obtain rfl : k' = k := hkey
      rfl
    · intro g hg r hr
      exact ((mem_group_iff hkeyed (hgroups.mem_iff.mp hg) r).mp hr).1
  · have hsum : (groups.map fun g => g.rows.length).sum = found.length := by
      have hperm := (hgroups.map fun g => g.rows.length).sum_eq
      rw [hperm, ← keyed_rows hkeyed, ← (groupRows_perm keyed).length_eq, length_flatMap]
    unfold searchCount
    rw [hfound, hsum]
    rfl

end Groups

end Drill

/-! ### Drafts among posted invoices -/

/-- The text of a journal entry's column: a reference is an integer, the other
columns are texts. -/
def moveText (col : String) (r : ℤ × Row) : Option String :=
  match keyType accountMoveModel ⟨col, ""⟩, cell r col with
  | some .many2one, .int i => if -2 ^ 31 ≤ i ∧ i ≤ 2 ^ 31 - 1 then some (toString i) else none
  | some .many2one, _ => none
  | _, .text s => some s
  | _, _ => none

/-- The journal entries with the comparison of texts. -/
def movesModel : ServedModel where
  derived := accountMoveModel.derived
  schema := accountMoveModel.schema
  interp := {
    isNull := fun col r => (moveText col r).isNone
    compare := fun col op v r =>
      match moveText col r with
      | some t => if op = "=" then Sql.Truth.ofBool (t = v) else .unknown
      | none => .unknown }

/-- Grouping by columns that are no dates. -/
def movesGrouping : Grouping where
  keyText k r := if k.interval = "" then .ok (moveText k.field r) else .error "ERROR:  no date"
  bucketEnd _ v := v
  label _ _ := ""
  sum _ _ := .num 0
  arrange _ _ _ groups := groups
  arrange_perm _ _ _ groups := Perm.refl groups

lemma movesGrouping_ok {k : GroupKey} {r : ℤ × Row} (h : movesGrouping.keyText k r = .ok t) :
    k.interval = "" ∧ moveText k.field r = t := by
  have hkey : (if k.interval = "" then Except.ok (moveText k.field r)
      else .error "ERROR:  no date" : Except String (Option String)) = .ok t := h
  split at hkey
  · next hk => exact ⟨hk, Except.ok.inj hkey⟩
  · cases hkey

lemma movesGrouping_eq {k : GroupKey} (hk : k.interval = "") (r : ℤ × Row) :
    movesGrouping.keyText k r = .ok (moveText k.field r) := if_pos hk

lemma moves_compare (col v : String) (r : ℤ × Row) :
    movesModel.interp.compare col "=" v r = .true ↔ moveText col r = some v := by
  show (match moveText col r with
    | some t => if "=" = "=" then Sql.Truth.ofBool (t = v) else .unknown
    | none => .unknown) = .true ↔ _
  rcases moveText col r with - | t
  · exact iff_of_false Sql.Truth.noConfusion (fun h => nomatch h)
  · dsimp only
    rw [if_pos rfl, Option.some.injEq]
    by_cases h : t = v
    · exact iff_of_true (by rw [decide_eq_true h]; rfl) h
    · exact iff_of_false (by rw [decide_eq_false h]; exact Sql.Truth.noConfusion) h

/-- No column of a journal entry is a boolean. -/
lemma moves_no_boolean (k : GroupKey) : keyType movesModel k ≠ some .boolean := by
  intro h
  obtain ⟨fd, hfd, htype⟩ := map_eq_some_iff.mp h
  have hall : (accountMoveFields.all fun f => f.type ≠ .boolean) = true := rfl
  have hmem : fd ∈ accountMoveFields := mem_of_find?_eq_some hfd
  exact of_decide_eq_true (List.all_eq_true.mp hall fd hmem) htype

def movesColumns : ColumnTypes movesModel movesGrouping where
  zone _ := []
  zone_plain _ := not_mem_nil
  day _ _ := none
  null := by
    intro k r t h r'
    obtain ⟨hk, -⟩ := movesGrouping_ok h
    rw [movesGrouping_eq hk, Except.ok.injEq]
    exact isNone_iff_eq_none
  value := by
    intro k r v hk _ _ r'
    rw [moves_compare, movesGrouping_eq hk, Except.ok.injEq]
  boolean := fun _ htype => absurd htype (moves_no_boolean _)
  reference := by
    intro k r v htype h
    obtain ⟨hk, htext⟩ := movesGrouping_ok h
    refine ⟨hk, ?_⟩
    unfold moveText at htext
    have htype' : keyType accountMoveModel ⟨k.field, ""⟩ = some .many2one := htype
    rw [htype'] at htext
    rcases hcell : cell r k.field with - | b | i | x | t
    case int =>
      rw [hcell] at htext
      dsimp only at htext
      split at htext
      · next hi => exact ⟨i, hi.1, hi.2, (some.inj htext).symm⟩
      · cases htext
    all_goals
      rw [hcell] at htext
      cases htext
  trunc := fun hk h => absurd (movesGrouping_ok h).1 hk
  trunc_ok := fun hk h => absurd (movesGrouping_ok h).1 hk
  stop := fun hk h => absurd (movesGrouping_ok h).1 hk
  notBefore := fun hk h => absurd (movesGrouping_ok h).1 hk
  before := fun hk h => absurd (movesGrouping_ok h).1 hk

/-- An invoice of company 1. -/
def invoiceIn (state : String) : Row where
  companyId := some 1
  cells col :=
    if col = "state" then .text state
    else if col = "move_type" then .text "out_invoice"
    else .null

def draftAndPosted : List (ℤ × Row) := [(1, invoiceIn "draft"), (2, invoiceIn "posted")]

def draftsOnly : Json := .arr [.arr [.str "state", .str "=", .str "draft"]]

end CErp
