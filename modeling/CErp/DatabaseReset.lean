/-
The reset of a database: the tables of a scope, and every table that has a foreign
key into one that goes.

The loop goes over the keys of the catalogue until a pass finds nothing, and
refuses as soon as it reaches a protected table.  A table it takes is in every set
that is closed under the keys (`Forced`), so what it ends with is the least
(`closeLoop_settled`), in whatever order the keys come (`reset_closed`).
-/
import CErp.AuthViewModel
import CErp.Runs

namespace CErp

open Outcome List

namespace DatabaseReset

/-! ### Tables -/

/-- `kResetProtected`. -/
def resetProtected : List String :=
  ["res_company", "res_users", "res_groups", "res_currency", "res_company_users_rel",
   "res_users_groups_rel", "ir_ui_menu", "ir_act_window", "ir_config_parameter", "ir_sequence",
   "ir_model", "ir_model_fields", "ir_report_template", "ir_attachment", "account_account",
   "account_account_type", "account_journal", "account_journal_group", "account_tax",
   "account_fiscal_position", "account_incoterms", "account_budget_post", "account_asset_type",
   "account_bank_account", "account_analytic_account", "uom_uom", "uom_category",
   "product_category", "part_unit", "part_footprint", "product_attribute",
   "product_attribute_value", "product_pricelist", "stock_location", "stock_warehouse",
   "stock_picking_type", "project_task_type", "rental_unit_type", "rental_expense_category",
   "hr_job", "hr_department", "hr_employee", "resource_calendar", "help_article"]

/-- `resetTables_`. -/
def resetTables (scope : String) : List String :=
  ["account_partial_reconcile", "payment_proof", "account_payment", "account_bank_statement_line",
   "account_bank_statement", "account_asset_depreciation_line", "account_asset",
   "account_budget_line", "account_budget", "hr_expense", "hr_expense_sheet",
   "account_analytic_line", "account_move_line", "account_move", "stock_valuation_layer",
   "stock_move_line", "stock_move", "stock_quant", "stock_picking", "stock_landed_cost",
   "stock_production_lot", "stock_quant_package", "sale_order_line", "sale_order",
   "purchase_order_line", "purchase_order", "mrp_workorder", "mrp_production",
   "mrp_production_schedule", "mrp_forecast", "project_task_tag_rel", "project_task_watcher_rel",
   "project_timesheet", "project_task", "rental_event", "rental_expense", "rental_contract",
   "part_lookup_result"] ++
  if scope = "master" then
    ["part_parameter", "part_manufacturer_info", "product_variant_combination",
     "product_template_attribute_value", "product_template_attribute_line", "product_supplierinfo",
     "product_pricelist_item", "stock_warehouse_orderpoint", "stock_putaway_rule",
     "product_product", "product_template", "rental_unit", "partner_rental_price"]
  else []

/-- A tenant's database. -/
structure ResetDb where
  /-- The tables of the schema `public`. -/
  tables : List String
  /-- The foreign keys of the catalogue, a child and its parent. -/
  fks : List (String × String)
  rows : String → ℕ

/-! ### The closure -/

/-- The tables to clear, and those the closure has added. -/
structure Closing where
  want : Finset String
  pulled : List String
  grew : Bool

/-- One key. -/
def closeOne (st : Closing) (fk : String × String) : Except String Closing :=
  if fk.1 = fk.2 then .ok st
  else if fk.2 ∉ st.want ∨ fk.1 ∈ st.want then .ok st
  else if fk.1 ∈ resetProtected then
    .error ("Reset refused: clearing '" ++ fk.2 ++ "' would require deleting '" ++ fk.1 ++
      "', which holds configuration. Nothing has been changed.")
  else .ok ⟨insert fk.1 st.want, st.pulled ++ [fk.1], true⟩

/-- The passes over the keys, at most so many. -/
def closeLoop (fks : List (String × String)) : ℕ → Closing → Option (Except String Closing)
  | 0, _ => none
  | n + 1, st =>
      match fks.foldlM closeOne { st with grew := false } with
      | .error e => some (.error e)
      | .ok st' => if st'.grew then closeLoop fks n st' else some (.ok st')

/-- The tables of the scope that exist. -/
def ResetDb.scopeTables (db : ResetDb) (scope : String) : Finset String :=
  ((resetTables scope).filter fun t => db.tables.contains t).toFinset

def ResetDb.closure (db : ResetDb) (scope : String) : Option (Except String Closing) :=
  closeLoop db.fks (db.fks.length + 1) ⟨db.scopeTables scope, [], true⟩

/-! ### The reset -/

structure ResetRequest where
  scope : String
  confirm : String
  dryRun : Bool

def readRequest : Json → Except String ResetRequest
  | .obj vals => do
      let scope ← ((vals.lookup "scope").getD (.str "transactions")).getString
      let confirm ← stringValue vals "confirm"
      let dryRun ← boolValue vals "dry_run" false
      return ⟨scope, confirm, dryRun⟩
  | j => .error ("[json.exception.type_error.306] cannot use value() with " ++ j.typeName)

structure ResetReport where
  dryRun : Bool
  scope : String
  tables : List (String × ℕ)
  totalRows : ℕ
  tableCount : ℕ
  alsoCleared : List String

def report (db : ResetDb) (r : ResetRequest) (st : Closing) : ResetReport :=
  let counts := (st.want.sort.map fun t => (t, db.rows t)).filter (0 < ·.2)
  { dryRun := r.dryRun
    scope := r.scope
    tables := counts
    totalRows := (counts.map Prod.snd).sum
    tableCount := st.want.sort.length
    alsoCleared := st.pulled }

/-- `TRUNCATE TABLE … RESTART IDENTITY`. -/
def ResetDb.truncated (db : ResetDb) (present : Finset String) : ResetDb :=
  { db with rows := fun t => if t ∈ present then 0 else db.rows t }

/-- The reply, and the database it leaves; `refuses` is what the database may have
against a statement. -/
def finish (refuses : Finset String → Option String) (db : ResetDb) (r : ResetRequest) :
    Except String Closing → Except String ResetReport × ResetDb
  | .error e => (.error e, db)
  | .ok st =>
      if r.dryRun then (.ok (report db r st), db)
      else match if st.want = ∅ then none else refuses st.want with
        | some e => (.error ("Reset refused by the database: " ++ e), db)
        | none => (.ok (report db r st), db.truncated st.want)

def handleDbReset (refuses : Finset String → Option String) (db : ResetDb) (p : Json) :
    Option (Except String ResetReport × ResetDb) :=
  match readRequest p with
  | .error e => some (.error e, db)
  | .ok r =>
      if r.scope ≠ "transactions" ∧ r.scope ≠ "master" then
        some (.error "unknown reset scope", db)
      else if r.dryRun = false ∧ r.confirm ≠ "RESET" then
        some (.error "Type RESET to confirm. Nothing has been changed.", db)
      else (db.closure r.scope).map (finish refuses db r)

/-! ### Closed sets -/

/-- Every table that references a member is a member. -/
def Closed (fks : List (String × String)) (s : Set String) : Prop :=
  ∀ fk ∈ fks, fk.2 ∈ s → fk.1 ∈ s

/-- The closed sets with the tables of the scope. -/
def closedSets (fks : List (String × String)) (start : Finset String) : Set (Set String) :=
  {s | ↑start ⊆ s ∧ Closed fks s}

/-- The table is in every closed set. -/
def Forced (fks : List (String × String)) (start : Finset String) (t : String) : Prop :=
  ∀ s ∈ closedSets fks start, t ∈ s

section Loop

variable {fks : List (String × String)} {start : Finset String} {st st' : Closing}
  {fk : String × String}

/-- What the loop keeps. -/
structure Sound (fks : List (String × String)) (start : Finset String) (st : Closing) : Prop where
  kept : start ⊆ st.want
  forced : ∀ t ∈ st.want, Forced fks start t
  spared : ∀ t ∈ st.want, t ∉ resetProtected
  pulled : ∀ t, t ∈ st.pulled ↔ t ∈ st.want ∧ t ∉ start

/-- What a key leaves: nothing new, or its child. -/
lemma closeOne_cases (h : closeOne st fk = .ok st') :
    (st' = st ∧ (fk.2 ∈ st.want → fk.1 ∈ st.want)) ∨
      (fk.2 ∈ st.want ∧ fk.1 ∉ st.want ∧ fk.1 ∉ resetProtected ∧
        st' = ⟨insert fk.1 st.want, st.pulled ++ [fk.1], true⟩) := by
  unfold closeOne at h
  split at h
  · next hself =>
      cases h
      exact .inl ⟨rfl, fun hmem => by rwa [hself]⟩
  split at h
  · next hold =>
      cases h
      exact .inl ⟨rfl, fun hmem => hold.resolve_left (not_not.mpr hmem)⟩
  next hnew =>
  rw [not_or, not_not] at hnew
  split at h
  · cases h
  · next hspared =>
      cases h
      exact .inr ⟨hnew.1, hnew.2, hspared, rfl⟩

lemma forced_of_mem (hfk : fk ∈ fks) (h : Forced fks start fk.2) : Forced fks start fk.1 :=
  fun s hs => hs.2 fk hfk (h s hs)

lemma Sound.closeOne (h : Sound fks start st) (hfk : fk ∈ fks)
    (hone : DatabaseReset.closeOne st fk = .ok st') : Sound fks start st' := by
  rcases closeOne_cases hone with ⟨rfl, -⟩ | ⟨hparent, hchild, hspared, rfl⟩
  · exact h
  · have hforced := forced_of_mem hfk (h.forced fk.2 hparent)
    refine ⟨h.kept.trans (Finset.subset_insert _ _), ?_, ?_, ?_⟩
    · exact (Finset.forall_mem_insert _ _ _).mpr ⟨hforced, h.forced⟩
    · exact (Finset.forall_mem_insert _ _ _).mpr ⟨hspared, h.spared⟩
    · intro t
      rw [mem_append, mem_singleton, h.pulled t, Finset.mem_insert]
      constructor
      · rintro (⟨hmem, hnot⟩ | rfl)
        · exact ⟨.inr hmem, hnot⟩
        · exact ⟨.inl rfl, fun hmem => hchild (h.kept hmem)⟩
      · rintro ⟨rfl | hmem, hnot⟩
        · exact .inr rfl
        · exact .inl ⟨hmem, hnot⟩

/-- What a pass leaves: nothing new where every key is satisfied, or more tables. -/
lemma pass_cases {l : List (String × String)} (h : l.foldlM closeOne st = .ok st') :
    (st' = st ∧ Closed l ↑st.want) ∨ (st'.grew = true ∧ st.want.card < st'.want.card) := by
  induction l generalizing st with
  | nil =>
      cases h
      exact .inl ⟨rfl, fun fk hfk => by cases hfk⟩
  | cons fk l ih =>
      obtain ⟨m, hm, hrest⟩ := Runs.foldlM_cons_ok.mp h
      rcases closeOne_cases hm with ⟨rfl, hone⟩ | ⟨-, hchild, -, rfl⟩
      · rcases ih hrest with ⟨heq, hall⟩ | hgrew
        · exact .inl ⟨heq, forall_mem_cons.mpr ⟨hone, hall⟩⟩
        · exact .inr hgrew
      · have hcard : st.want.card < (insert fk.1 st.want).card := by
          rw [Finset.card_insert_of_notMem hchild]
          exact Nat.lt_succ_self _
        rcases ih hrest with ⟨rfl, -⟩ | ⟨hgrew, hmore⟩
        · exact .inr ⟨rfl, hcard⟩
        · exact .inr ⟨hgrew, hcard.trans hmore⟩

/-- A pass that is refused has come to a protected table in every closed set. -/
lemma pass_settled {l : List (String × String)} (hl : ∀ fk ∈ l, fk ∈ fks)
    (h : Sound fks start st) :
    (∃ st', l.foldlM closeOne st = .ok st' ∧ Sound fks start st') ∨
      ∃ e, l.foldlM closeOne st = .error e ∧ ∃ t ∈ resetProtected, Forced fks start t := by
  induction l generalizing st with
  | nil => exact .inl ⟨st, rfl, h⟩
  | cons fk l ih =>
      obtain ⟨hfk, hl⟩ := forall_mem_cons.mp hl
      rw [foldlM_cons]
      rcases hone : closeOne st fk with e | m
      · refine .inr ⟨e, rfl, fk.1, ?_⟩
        unfold closeOne at hone
        split at hone
        · cases hone
        split at hone
        · cases hone
        next hnew =>
        rw [not_or, not_not] at hnew
        split at hone
        · next hprotected =>
            exact ⟨hprotected, forced_of_mem hfk (h.forced fk.2 hnew.1)⟩
        · cases hone
      · exact ih hl (h.closeOne hfk hone)

/-- The tables of the scope and the children of all keys are a closed set. -/
lemma Sound.card_le (h : Sound fks start st) : st.want.card ≤ start.card + fks.length := by
  have hclosed : (↑(start ∪ (fks.map Prod.fst).toFinset) : Set String) ∈ closedSets fks start := by
    refine ⟨Finset.coe_subset.mpr Finset.subset_union_left, fun fk hfk _ => ?_⟩
    exact Finset.mem_union_right _ (mem_toFinset.mpr (mem_map_of_mem hfk))
  calc st.want.card ≤ (start ∪ (fks.map Prod.fst).toFinset).card :=
        Finset.card_le_card fun t ht => h.forced t ht _ hclosed
    _ ≤ start.card + (fks.map Prod.fst).toFinset.card := Finset.card_union_le _ _
    _ ≤ start.card + fks.length := by
        have hlen := toFinset_card_le (fks.map Prod.fst)
        rw [length_map] at hlen
        omega

/-- What the loop ends with: the least closed set, or a protected table in it. -/
def Settled (fks : List (String × String)) (start : Finset String) : Except String Closing → Prop
  | .ok st => Sound fks start st ∧ Closed fks ↑st.want
  | .error _ => ∃ t ∈ resetProtected, Forced fks start t

/-- **The loop ends.** -/
theorem closeLoop_settled {n : ℕ} (h : Sound fks start st)
    (hn : start.card + fks.length < n + st.want.card) :
    ∃ r, closeLoop fks n st = some r ∧ Settled fks start r := by
  induction n generalizing st with
  | zero =>
      have hcard := h.card_le
      omega
  | succ n ih =>
      have hstart : Sound fks start { st with grew := false } :=
        ⟨h.kept, h.forced, h.spared, h.pulled⟩
      unfold closeLoop
      rcases pass_settled (fun _ hfk => hfk) hstart with ⟨st', hpass, hsound⟩ | ⟨e, hpass, hforced⟩
      · rw [hpass]
        dsimp only
        rcases pass_cases hpass with ⟨rfl, hclosed⟩ | ⟨hgrew, hcard⟩
        · exact ⟨_, if_neg Bool.false_ne_true, hsound, hclosed⟩
        · rw [if_pos hgrew]
          apply ih hsound
          dsimp only at hcard
          omega
      · rw [hpass]
        exact ⟨_, rfl, hforced⟩

lemma Settled.isLeast (h : Settled fks start (.ok st)) :
    IsLeast (closedSets fks start) ↑st.want :=
  ⟨⟨Finset.coe_subset.mpr h.1.kept, h.2⟩, fun s hs t ht => h.1.forced t ht s hs⟩

/-- What the loop ends with, whatever the order of the keys. -/
def SameClosing : Except String Closing → Except String Closing → Prop
  | .ok st, .ok st' => st.want = st'.want ∧ ∀ t, t ∈ st.pulled ↔ t ∈ st'.pulled
  | .error _, .error _ => True
  | _, _ => False

lemma Settled.not_refused (h : Settled fks start (.ok st)) {t : String} (ht : t ∈ resetProtected)
    (hforced : Forced fks start t) : False :=
  h.1.spared t (hforced _ h.isLeast.1) ht

lemma Settled.same {r r' : Except String Closing} (h : Settled fks start r)
    {fks' : List (String × String)} (h' : Settled fks' start r') (hfks : ∀ fk, fk ∈ fks' ↔ fk ∈ fks) :
    SameClosing r r' := by
  have hsets : closedSets fks' start = closedSets fks start := by
    ext s
    exact and_congr_right' (forall_congr' fun fk => by rw [hfks fk])
  rcases r with e | st
  · rcases r' with e' | st'
    · trivial
    · obtain ⟨t, ht, hforced⟩ := h
      exact h'.not_refused ht fun s hs => hforced s (hsets ▸ hs)
  · rcases r' with e' | st'
    · obtain ⟨t, ht, hforced⟩ := h'
      exact h.not_refused ht fun s hs => hforced s (hsets ▸ hs)
    · have hwant : st.want = st'.want :=
        Finset.coe_injective (h.isLeast.unique (hsets ▸ h'.isLeast))
      exact ⟨hwant, fun t => by rw [h.1.pulled, h'.1.pulled, hwant]⟩

end Loop

/-! ### The call -/

/-- No scope names a table that must survive. -/
lemma scope_spared (scope : String) : ∀ t ∈ resetTables scope, t ∉ resetProtected := by
  have hall : ((resetTables "master").all fun t => !resetProtected.contains t) = true := by
    decide +kernel
  have hsub : resetTables scope ⊆ resetTables "master" := by
    unfold resetTables
    split
    · exact fun t ht => ht
    · rw [append_nil]
      exact subset_append_left _ _
  intro t ht hprotected
  have hspared := all_eq_true.mp hall t (hsub ht)
  rw [contains_iff_mem.mpr hprotected] at hspared
  cases hspared

lemma closure_settled (db : ResetDb) (scope : String) :
    ∃ r, db.closure scope = some r ∧ Settled db.fks (db.scopeTables scope) r := by
  refine closeLoop_settled ⟨fun t ht => ht, fun t ht s hs => hs.1 ht, ?_, ?_⟩ ?_
  · intro t ht
    exact scope_spared scope t (mem_filter.mp (mem_toFinset.mp ht)).1
  · intro t
    simp
  · dsimp only
    omega

/-- The same refusal or report, apart from what depends on the order of the keys. -/
def SameOutcome : Except String ResetReport → Except String ResetReport → Prop
  | .ok a, .ok b => { a with alsoCleared := b.alsoCleared } = b ∧
      ∀ t, t ∈ a.alsoCleared ↔ t ∈ b.alsoCleared
  | .error _, .error _ => True
  | _, _ => False

variable (refuses : Finset String → Option String) (db : ResetDb)

lemma finish_same (r : ResetRequest) {c c' : Except String Closing} (h : SameClosing c c')
    (fks' : List (String × String)) :
    SameOutcome (finish refuses db r c).1 (finish refuses { db with fks := fks' } r c').1 ∧
      (finish refuses { db with fks := fks' } r c').2 =
        { (finish refuses db r c).2 with fks := fks' } := by
  rcases c with e | st
  · rcases c' with e' | st'
    · exact ⟨trivial, rfl⟩
    · exact h.elim
  · rcases c' with e' | st'
    · exact h.elim
    · obtain ⟨hwant, hpulled⟩ := h
      have hreport : SameOutcome (.ok (report db r st))
          (.ok (report { db with fks := fks' } r st')) := by
        refine ⟨?_, hpulled⟩
        unfold report
        rw [hwant]
      unfold finish
      dsimp only
      rw [← hwant]
      split
      · exact ⟨hreport, rfl⟩
      · split
        · exact ⟨trivial, rfl⟩
        · exact ⟨hreport, rfl⟩

/-- A request is refused before the database is read, or settles the closure. -/
lemma handleDbReset_cases (p : Json) :
    (∃ e, ∀ db, handleDbReset refuses db p = some (.error e, db)) ∨ ∃ r, readRequest p = .ok r ∧
        ∀ db, handleDbReset refuses db p = (db.closure r.scope).map (finish refuses db r) := by
  unfold handleDbReset
  rcases readRequest p with e | r
  · exact .inl ⟨e, fun _ => rfl⟩
  dsimp only
  split
  · exact .inl ⟨_, fun _ => rfl⟩
  split
  · exact .inl ⟨_, fun _ => rfl⟩
  · exact .inr ⟨r, rfl, fun _ => rfl⟩

/-- What a call that went on to the closure leaves. -/
lemma finish_settled (r : ResetRequest) {start : Finset String} {c : Except String Closing}
    (h : Settled db.fks start c) :
    (∃ e, (finish refuses db r c).1 = .error e) ∧ (finish refuses db r c).2 = db ∨
      ∃ st, (finish refuses db r c).1 = .ok (report db r st) ∧
        IsLeast (closedSets db.fks start) ↑st.want ∧ (∀ t ∈ st.want, t ∉ resetProtected) ∧
        (finish refuses db r c).2 = if r.dryRun then db else db.truncated st.want := by
  rcases c with e | st
  · exact .inl ⟨⟨e, rfl⟩, rfl⟩
  unfold finish
  dsimp only
  split
  · exact .inr ⟨st, rfl, h.isLeast, h.1.spared, rfl⟩
  split
  · exact .inl ⟨⟨_, rfl⟩, rfl⟩
  · exact .inr ⟨st, rfl, h.isLeast, h.1.spared, rfl⟩

/-- The second request asks for a dry run of what the first one asks for. -/
def DryRunOf (p p' : Json) : Prop :=
  ∃ r r', readRequest p = .ok r ∧ readRequest p' = .ok r' ∧ r.scope = r'.scope ∧
    r.dryRun = false ∧ r.confirm = "RESET" ∧ r'.dryRun = true

/-- The dry run says what the reset says, unless the database has something against it. -/
def DryRunReports (reply dry : Except String ResetReport) : Prop :=
  reply = dry.map (fun report => { report with dryRun := false }) ∨
    ∃ report e, dry = .ok report ∧ reply = .error ("Reset refused by the database: " ++ e)

lemma finish_dryRun {r r' : ResetRequest} (hscope : r.scope = r'.scope)
    (hreal : r.dryRun = false) (hdry : r'.dryRun = true) (c : Except String Closing) :
    (finish refuses db r' c).2 = db ∧
      DryRunReports (finish refuses db r c).1 (finish refuses db r' c).1 := by
  rcases c with e | st
  · exact ⟨rfl, .inl rfl⟩
  have hreport : report db r st = { report db r' st with dryRun := false } := by
    unfold report
    rw [hscope, hreal]
  unfold finish
  dsimp only
  rw [hreal, hdry, if_pos rfl, if_neg Bool.false_ne_true]
  refine ⟨rfl, ?_⟩
  split
  · exact .inr ⟨_, _, rfl, rfl⟩
  · exact .inl (congrArg Except.ok hreport)

lemma handleDbReset_dryRun {p p' : Json} (h : DryRunOf p p') :
    ∃ reply db' dry, handleDbReset refuses db p = some (reply, db') ∧
      handleDbReset refuses db p' = some (dry, db) ∧ DryRunReports reply dry := by
  obtain ⟨r, r', hr, hr', hscope, hreal, hconfirm, hdry⟩ := h
  unfold handleDbReset
  rw [hr, hr']
  dsimp only
  rw [← hscope]
  split
  · exact ⟨_, _, _, rfl, rfl, .inl rfl⟩
  rw [if_neg fun hno => hno.2 hconfirm, if_neg fun hno => Bool.false_ne_true (hno.1.symm.trans hdry)]
  obtain ⟨c, hc, -⟩ := closure_settled db r.scope
  rw [hc]
  obtain ⟨hkept, hsame⟩ := finish_dryRun refuses db hscope hreal hdry c
  exact ⟨_, _, _, rfl, congrArg some (Prod.ext rfl hkept), hsame⟩

/-- **A reset clears the least closed set, or nothing**: no protected table is in
the set, the order of the keys makes no difference, and a dry run reports what the
reset then clears. -/
theorem reset_closed (p : Json) : ∃ reply db', handleDbReset refuses db p = some (reply, db') ∧
    ((∃ e, reply = .error e) ∧ db' = db ∨
      ∃ r st, readRequest p = .ok r ∧ reply = .ok (report db r st) ∧
        IsLeast (closedSets db.fks (db.scopeTables r.scope)) ↑st.want ∧
        (∀ t ∈ st.want, t ∉ resetProtected) ∧
        db' = if r.dryRun then db else db.truncated st.want) ∧
    (∀ fks', (∀ fk, fk ∈ fks' ↔ fk ∈ db.fks) → ∃ reply',
      handleDbReset refuses { db with fks := fks' } p = some (reply', { db' with fks := fks' }) ∧
        SameOutcome reply reply') ∧
    ∀ p', DryRunOf p p' → ∃ dry, handleDbReset refuses db p' = some (dry, db) ∧
      DryRunReports reply dry := by
  have hdry : ∀ reply db', handleDbReset refuses db p = some (reply, db') → ∀ p', DryRunOf p p' →
      ∃ dry, handleDbReset refuses db p' = some (dry, db) ∧ DryRunReports reply dry := by
    intro reply db' hcall p' hp'
    obtain ⟨_, _, dry, hreal, hrun, hsame⟩ := handleDbReset_dryRun refuses db hp'
    cases hcall.symm.trans hreal
    exact ⟨dry, hrun, hsame⟩
  rcases handleDbReset_cases refuses p with ⟨e, hcall⟩ | ⟨r, hr, hcall⟩
  · exact ⟨_, _, hcall db, .inl ⟨⟨e, rfl⟩, rfl⟩, fun fks' _ => ⟨_, hcall _, trivial⟩,
      hdry _ _ (hcall db)⟩
  · obtain ⟨c, hc, hsettled⟩ := closure_settled db r.scope
    have hreal : handleDbReset refuses db p = some (finish refuses db r c) := by
      rw [hcall, hc]
      rfl
    refine ⟨_, _, hreal, ?_, ?_, hdry _ _ hreal⟩
    · rcases finish_settled refuses db r hsettled with hno | ⟨st, hst⟩
      · exact .inl hno
      · exact .inr ⟨r, st, hr, hst⟩
    · intro fks' hfks
      obtain ⟨c', hc', hsettled'⟩ := closure_settled { db with fks := fks' } r.scope
      obtain ⟨hreply, hleft⟩ := finish_same refuses db r (hsettled.same hsettled' hfks) fks'
      refine ⟨_, ?_, hreply⟩
      rw [hcall, hc']
      exact congrArg some (Prod.ext rfl hleft)

/-! ### After a reset -/

lemma truncated_again (want : Finset String) :
    (db.truncated want).truncated want = db.truncated want := by
  unfold ResetDb.truncated
  congr 1
  funext t
  by_cases ht : t ∈ want
  · simp [ht]
  · simp [ht]

/-- What a table that was cleared is counted as. -/
lemma report_truncated (r : ResetRequest) (st : Closing) :
    report (db.truncated st.want) r st =
      { report db r st with tables := [], totalRows := 0 } := by
  have hnone : ((st.want.sort.map fun t => (t, (db.truncated st.want).rows t)).filter
      (0 < ·.2)) = [] := by
    rw [List.filter_eq_nil_iff]
    intro c hc
    obtain ⟨t, ht, rfl⟩ := List.mem_map.mp hc
    simp [ResetDb.truncated, (Finset.mem_sort _).mp ht]
  unfold report
  rw [hnone]
  rfl

/-- **What a reset leaves.**  A table that has lost rows has no rows left that
refer to it, protected tables are as they were, and any later reset of the scope
finds nothing to clear. -/
theorem reset_leaves_nothing {p : Json} {done : ResetReport} {db' : ResetDb}
    (h : handleDbReset refuses db p = some (.ok done, db')) (hreal : done.dryRun = false) :
    (∀ fk ∈ db.fks, db'.rows fk.2 ≠ db.rows fk.2 → db'.rows fk.1 = 0) ∧
    (∀ t ∈ resetProtected, db'.rows t = db.rows t) ∧
    ∀ p' r', readRequest p' = .ok r' → r'.scope = done.scope →
      r'.dryRun = true ∨ r'.confirm = "RESET" → handleDbReset refuses db' p' =
        some (.ok { done with dryRun := r'.dryRun, tables := [], totalRows := 0 }, db') := by
  unfold handleDbReset at h
  split at h
  · cases h
  next r _ =>
  split at h
  · cases h
  next hknown =>
  split at h
  · cases h
  obtain ⟨c, hc, hsettled⟩ := closure_settled db r.scope
  rw [hc] at h
  have hfinish := Option.some.inj h
  rcases c with e | st
  · cases hfinish
  unfold finish at hfinish
  dsimp only at hfinish
  split at hfinish
  · next hdry =>
      cases hfinish
      exact absurd hreal (by rw [report, hdry]; exact Bool.noConfusion)
  split at hfinish
  · cases hfinish
  next haccepts =>
  cases hfinish
  refine ⟨?_, ?_, ?_⟩
  · intro fk hfk hlost
    have hparent : fk.2 ∈ st.want := by
      by_contra hnot
      exact hlost (if_neg hnot)
    exact if_pos (hsettled.2 fk hfk hparent)
  · intro t ht
    exact if_neg fun hmem => hsettled.1.spared t hmem ht
  · intro p' r' hr' hscope hasked
    have hclosure : (db.truncated st.want).closure r.scope = some (.ok st) := hc
    have hguard : ¬ (r'.dryRun = false ∧ r'.confirm ≠ "RESET") := by
      rintro ⟨hno, hconfirm⟩
      rcases hasked with hdry | hyes
      · rw [hno] at hdry
        cases hdry
      · exact hconfirm hyes
    have hsame : r'.scope = r.scope := hscope
    unfold handleDbReset
    rw [hr']
    dsimp only
    rw [hsame, if_neg hknown, if_neg hguard, hclosure]
    have hreport : report (db.truncated st.want) r' st =
        { report db r st with dryRun := r'.dryRun, tables := [], totalRows := 0 } := by
      rw [report_truncated]
      unfold report
      rw [hsame]
    unfold finish
    dsimp only [Option.map_some]
    rw [haccepts, truncated_again, hreport]
    split
    · rfl
    · rfl

/-- Orders, and notes on them. -/
def orders : ResetDb where
  tables := ["sale_order", "sale_note"]
  fks := [("sale_note", "sale_order")]
  rows := fun _ => 5

/-- The notes go with the orders, and nothing is left to clear. -/
theorem reset_leaves_nothing_orders : ∃ done db', handleDbReset (fun _ => none) orders
      (.obj [("confirm", .str "RESET")]) = some (.ok done, db') ∧ db'.rows "sale_note" = 0 ∧
    handleDbReset (fun _ => none) db' (.obj [("dry_run", .bool true)]) =
      some (.ok { done with dryRun := true, tables := [], totalRows := 0 }, db') := by
  have hcall : ∃ done db', handleDbReset (fun _ => none) orders
      (.obj [("confirm", .str "RESET")]) = some (.ok done, db') ∧ done.dryRun = false ∧
      done.scope = "transactions" ∧ db'.rows "sale_order" = 0 := ⟨_, _, rfl, rfl, rfl, rfl⟩
  obtain ⟨done, db', h, hreal, hscope, hrows⟩ := hcall
  obtain ⟨hrefer, -, hagain⟩ := reset_leaves_nothing _ orders h hreal
  refine ⟨done, db', h, ?_, ?_⟩
  · apply hrefer ("sale_note", "sale_order") (by simp [orders])
    rw [hrows]
    exact Nat.succ_ne_zero 4 ∘ Eq.symm
  · exact hagain _ ⟨"transactions", "", true⟩ rfl hscope.symm (.inl rfl)

end DatabaseReset

end CErp
