import Ugk.Native.AuditSession
import Ugk.Spec.ReleaseBundle
import Ugk.Spec.Sample

/-!
# What an audit leaves behind

The queries of an audit session only read.  Opening it runs the constructors of the two stores,
which create the tables and add the columns the running version expects: an audit leaves a database
as it is when the running version has nothing to add to it.

## Key results

- `reads_run`: every query method leaves both databases alone
- `migrate_spec`: what the migration of the constructor does
- `audit_snd`: the databases after an audit
- `bootstrapped_eq_iff`: the databases the constructor has nothing to add to
-/

namespace Ugk

namespace Audit

variable {host : AuditHost} {db db' : Db} {dir : StateDir} {σ α β : Type}

/-! ## Reading -/

/-- Does the procedure leave the state as it is, however it ends? -/
def Reads (m : Proc σ Exc α) : Prop := Proc.Steps Eq m

theorem reads_ret (a : α) : Reads (pure a : Proc σ Exc α) := fun _ => rfl

theorem reads_raise (e : Exc) : Reads (Proc.raise e : Proc σ Exc α) := fun _ => rfl

theorem reads_lift (x : Except Exc α) : Reads (Proc.lift x : Proc σ Exc α) :=
  Proc.Steps.lift (fun _ => rfl) x

theorem Reads.bind {m : Proc σ Exc α} {f : α → Proc σ Exc β} (hm : Reads m)
    (hf : ∀ a, Reads (f a)) : Reads (m >>= f) :=
  Proc.Steps.bind (fun h h' => h.trans h') hm hf

/-- A program that starts by reading returns when both parts do. -/
theorem Reads.bind_ok_iff {m : Proc σ Exc α} {f : α → Proc σ Exc β} (hm : Reads m) {s s' : σ}
    {b : β} : (m >>= f) s = (.ok b, s') ↔ ∃ a, m s = (.ok a, s) ∧ f a s = (.ok b, s') := by
  constructor
  · intro h
    obtain ⟨a, mid, ha, h⟩ := Proc.of_bind_ok h
    have hmid : s = mid := by
      have hread := hm s
      rw [ha] at hread
      exact hread
    subst hmid
    exact ⟨a, ha, h⟩
  · rintro ⟨a, ha, h⟩
    rw [Proc.bind_of_ok ha, h]

theorem Reads.traverse {f : α → Proc σ Exc β} (hf : ∀ a, Reads (f a)) (xs : List α) :
    Reads (Proc.traverse f xs) :=
  Proc.Steps.traverse (fun _ => rfl) (fun h h' => h.trans h') hf xs

theorem reads_tableInfo (name : String) : Reads (tableInfo name) := fun _ => rfl

theorem reads_select (name : String) (columns : List String) : Reads (select name columns) := by
  intro db
  unfold select
  cases db.select name columns <;> rfl

theorem reads_computeSchemaHash : Reads (computeSchemaHash host) := by
  intro db
  unfold computeSchemaHash
  split <;> rfl

theorem reads_selectReceipts (columns : List String) : Reads (selectReceipts columns) :=
  (reads_select _ _).bind fun _ => reads_ret _

theorem reads_selectLast (columns : List String) : Reads (selectLast columns) :=
  (reads_selectReceipts _).bind fun _ => reads_ret _

theorem reads_allReceipts {env : Env} : Reads (allReceipts env) :=
  (reads_selectReceipts _).bind fun _ => reads_lift _

theorem reads_verifyStreamHash {env : Env} : Reads (verifyStreamHash env) :=
  reads_allReceipts.bind fun _ => reads_ret _

theorem reads_storedLegend (h : PyVal) : Reads (storedLegend host h) := by
  apply Reads.bind (reads_select _ _)
  intro rows
  split
  · exact reads_lift _
  · exact reads_ret _

theorem reads_uniqueLegendHashes {env : Env} : Reads (uniqueLegendHashes env) :=
  (reads_select _ _).bind fun _ => reads_ret _

theorem reads_selectWarrants : Reads selectWarrants :=
  (reads_tableInfo _).bind fun _ => reads_select _ _

theorem reads_storedWarrants {env : Env} : Reads (storedWarrants env) :=
  reads_selectWarrants.bind fun _ => reads_lift _

theorem reads_getStoredWarrant {env : Env} (h : PyVal) : Reads (getStoredWarrant env h) := by
  apply Reads.bind (reads_tableInfo _)
  intro columns
  apply Reads.bind (reads_select _ _)
  intro keys
  apply Reads.bind (reads_select _ _)
  intro rows
  split
  · exact reads_lift _
  · exact reads_ret _

theorem reads_basisQuery {env : Env} (csilId : PyVal) : Reads (basisQuery env csilId) :=
  reads_storedWarrants.bind fun _ => reads_ret _

theorem reads_lineageLoop {env : Env} (depth : Nat) (current : PyVal) (visited : List PyVal) :
    Reads (lineageLoop env depth current visited) := by
  induction depth generalizing current visited with
  | zero => exact reads_ret _
  | succ depth ih =>
    unfold lineageLoop
    split
    · apply Reads.bind (reads_getStoredWarrant current)
      intro found
      cases found with
      | none => exact reads_ret _
      | some w => exact (ih _ _).bind fun _ => reads_ret _
    · exact reads_ret _

theorem reads_attest : Reads (attest host) := by
  apply Reads.bind ((reads_selectLast _).bind fun _ => reads_ret _)
  intro snapHash
  apply Reads.bind reads_verifyStreamHash
  intro chainOk
  apply Reads.bind reads_allReceipts
  intro receipts
  apply Reads.bind ((reads_select _ _).bind fun _ => reads_ret _)
  intro count
  apply Reads.bind (reads_lift _)
  intro lawHashes
  apply Reads.bind (reads_lift _)
  intro legendHashes
  exact reads_ret _

theorem Reads.onUgk {m : Proc Db Exc α} (hm : Reads m) : Reads (onUgk m) := by
  intro dir
  obtain ⟨ugk, warrants⟩ := dir
  cases ugk with
  | none => rfl
  | some db =>
    have h := hm db
    show _ = StateDir.mk (some (m db).2) warrants
    rw [← h]

theorem Reads.onWarrants {m : Proc Db Exc α} (hm : Reads m) : Reads (onWarrants m) := by
  intro dir
  obtain ⟨ugk, warrants⟩ := dir
  cases warrants with
  | none => rfl
  | some db =>
    have h := hm db
    show _ = StateDir.mk ugk (some (m db).2)
    rw [← h]

theorem reads_receiptsWith (name : String) (v : PyVal) : Reads (receiptsWith host name v) :=
  reads_allReceipts.onUgk.bind fun _ => reads_ret _

theorem reads_warrantsOf (session : AuditSession) {m : Proc Db Exc (List Record)} (hm : Reads m) :
    Reads (warrantsOf session m) := by
  unfold warrantsOf
  split
  · exact hm.onWarrants.bind fun _ => reads_ret _
  · exact reads_ret _

theorem reads_resolveLegend (h : PyVal) : Reads (resolveLegend host h) := by
  apply Reads.bind (reads_storedLegend h).onUgk
  intro found
  cases found with
  | none => exact reads_raise _
  | some entries => exact reads_ret _

theorem reads_checkLegend (h : PyVal) : Reads (checkLegend host h) := by
  unfold checkLegend
  split
  · exact (reads_resolveLegend h).bind fun _ => reads_ret _
  · exact reads_ret _

/-- Every query method leaves both databases alone. -/
theorem reads_run (session : AuditSession) (q : Query) : Reads (q.run host session) := by
  cases q with
  | verifyFullChain => exact reads_verifyStreamHash.onUgk.bind fun _ => reads_ret _
  | attest => exact reads_attest.onUgk
  | receiptsInSession dkn => exact reads_receiptsWith _ _
  | receiptsForWarrant h => exact reads_receiptsWith _ _
  | receiptsByLawHash h => exact reads_receiptsWith _ _
  | allReceipts => exact reads_allReceipts.onUgk.bind fun _ => reads_ret _
  | warrantsForInvariant csilId => exact reads_warrantsOf session (reads_basisQuery csilId)
  | warrantsForInvariantAndLaw csilId lawHash =>
    exact reads_warrantsOf session ((reads_basisQuery csilId).bind fun _ => reads_ret _)
  | warrantLineage h => exact reads_warrantsOf session (reads_lineageLoop _ _ _)
  | allWarrants => exact reads_warrantsOf session reads_storedWarrants
  | resolveLegend h => exact (reads_resolveLegend h).bind fun _ => reads_ret _
  | expandReceipt r => exact reads_ret _

/-! ## The migration -/

/-- The rounds of the migration, from a database whose columns `existing` tells. -/
theorem addIfMissing_traverse {existing : List String} {cs : List (Column × PyVal)}
    (hreceipts : "receipts" ∈ db.names) (hnodup : (cs.map fun c => c.1.name).Nodup)
    (hexisting : ∀ c ∈ cs, c.1.name ∈ existing ↔ c.1.name ∈ db.columnNames "receipts") :
    ∃ ys db', Proc.traverse (addIfMissing existing) cs db = (.ok ys, db') ∧
      Database.Extends db db' ∧ (∀ c ∈ cs, c.1.name ∈ db'.columnNames "receipts") ∧
      Database.Keeps (· ≠ "receipts") db db' ∧
      ((∀ c ∈ cs, c.1.name ∈ db.columnNames "receipts") → db' = db) := by
  induction cs generalizing db with
  | nil => exact ⟨[], db, rfl, .refl db, (fun _ h => nomatch h), .refl _ db, fun _ => rfl⟩
  | cons c cs ih =>
    rw [List.map_cons, List.nodup_cons] at hnodup
    rw [List.forall_mem_cons] at hexisting
    by_cases hc : c.1.name ∈ existing
    · -- the column is there
      have hround : addIfMissing existing c db = (.ok (), db) := by
        rw [addIfMissing, if_pos hc]
        rfl
      obtain ⟨ys, db', hrun, hextends, hall, hkeeps, hself⟩ := ih hreceipts hnodup.2 hexisting.2
      refine ⟨() :: ys, db', ?_, hextends, ?_, hkeeps, fun h => hself fun c' hc' => ?_⟩
      · rw [Proc.traverse, Proc.bind_of_ok hround, Proc.bind_of_ok hrun]
        rfl
      · rw [List.forall_mem_cons]
        exact ⟨hextends.columns _ (hexisting.1.mp hc), hall⟩
      · exact h c' (List.mem_cons_of_mem c hc')
    · -- the column is added
      have hmissing : c.1.name ∉ db.columnNames "receipts" := fun h => hc (hexisting.1.mpr h)
      have hadd : db.addColumn "receipts" c.1 c.2 =
          some (db.modify "receipts" fun t => t.addColumn c.1 c.2) :=
        Database.addColumn_eq_some_iff.mpr
          ⟨Database.find?_isSome_iff.mpr hreceipts, hmissing, rfl⟩
      generalize hdb₁ : (db.modify "receipts" fun t => t.addColumn c.1 c.2) = db₁ at hadd
      have hround : addIfMissing existing c db = (.ok (), db₁) := by
        rw [addIfMissing, if_neg hc, addColumn, hadd]
      have hcolumns : db₁.columnNames "receipts" = db.columnNames "receipts" ++ [c.1.name] := by
        rw [Database.columnNames_addColumn hadd, if_pos rfl]
      have hexisting₁ : ∀ c' ∈ cs, c'.1.name ∈ existing ↔
          c'.1.name ∈ db₁.columnNames "receipts" := by
        intro c' hc'
        have hne : c'.1.name ≠ c.1.name := fun h =>
          hnodup.1 (h ▸ List.mem_map_of_mem (f := fun c : Column × PyVal => c.1.name) hc')
        rw [hcolumns, hexisting.2 c' hc']
        simp [hne]
      have hextends₁ := Database.extends_addColumn hadd
      obtain ⟨ys, db', hrun, hextends, hall, hkeeps, -⟩ :=
        ih (hextends₁.names hreceipts) hnodup.2 hexisting₁
      refine ⟨() :: ys, db', ?_, hextends₁.trans hextends, ?_,
        (Database.keeps_addColumn hadd).trans hkeeps, fun h => ?_⟩
      · rw [Proc.traverse, Proc.bind_of_ok hround, Proc.bind_of_ok hrun]
        rfl
      · rw [List.forall_mem_cons]
        refine ⟨hextends.columns _ ?_, hall⟩
        rw [hcolumns]
        exact List.mem_append_right _ List.mem_cons_self
      · exact absurd (h c List.mem_cons_self) hmissing

/-- What the migration does to a database with a table of receipts. -/
theorem migrate_spec (hreceipts : "receipts" ∈ db.names) :
    ∃ db', migrateM2Schema db = (.ok (), db') ∧ Database.Extends db db' ∧
      (∀ c ∈ m2ColumnDefs, c.1.name ∈ db'.columnNames "receipts") ∧
      Database.Keeps (· ≠ "receipts") db db' ∧
      ((∀ c ∈ m2ColumnDefs, c.1.name ∈ db.columnNames "receipts") → db' = db) := by
  have hnodup : (m2ColumnDefs.map fun c => c.1.name).Nodup := by decide
  obtain ⟨ys, db', hrun, h⟩ := addIfMissing_traverse hreceipts hnodup fun _ _ => Iff.rfl
  refine ⟨db', ?_, h⟩
  unfold migrateM2Schema
  rw [Proc.bind_of_ok (show tableInfo "receipts" db = (.ok (db.columnNames "receipts"), db) from rfl),
    Proc.bind_of_ok hrun]
  rfl

/-! ## The constructor of the receipt store -/

/-- Has the running version nothing to add to the database? -/
structure Migrated (db : Db) : Prop where
  tables : ∀ t ∈ createdTables, t.1 ∈ db.names
  columns : ∀ c ∈ m2ColumnDefs, c.1.name ∈ db.columnNames "receipts"

/-- A database after the constructor has run. -/
def bootstrapped (db : Db) : Db := (bootstrapSchema db).2

theorem createTables_apply (tables : List (String × List Column)) (db : Db) :
    ∃ ys, Proc.traverse (fun t => createTable t.1 t.2) tables db = (.ok ys, db.createAll tables) := by
  induction tables generalizing db with
  | nil => exact ⟨[], rfl⟩
  | cons t tables ih =>
    obtain ⟨ys, hys⟩ := ih (db.createIfMissing t.1 t.2)
    refine ⟨() :: ys, ?_⟩
    have hround : createTable t.1 t.2 db = (.ok (), db.createIfMissing t.1 t.2) := rfl
    rw [Proc.traverse, Proc.bind_of_ok hround, Proc.bind_of_ok hys]
    rfl

/-- The tables are created and the columns added, whatever was there before. -/
theorem bootstrap_spec (db : Db) : bootstrapSchema db = (.ok (), bootstrapped db) ∧
    Migrated (bootstrapped db) ∧ Database.Keeps (· ≠ "receipts") db (bootstrapped db) ∧
    ((∀ c ∈ m2ColumnDefs, c.1.name ∈ (db.createAll createdTables).columnNames "receipts") →
      bootstrapped db = db.createAll createdTables) := by
  obtain ⟨ys, hcreate⟩ := createTables_apply createdTables db
  have htables : ∀ t ∈ createdTables, t.1 ∈ (db.createAll createdTables).names :=
    fun t ht => Database.mem_names_createAll ht db
  have hreceipts : ("receipts", receiptColumns) ∈ createdTables := by
    rw [createdTables]
    exact List.mem_cons_self
  obtain ⟨db', hmigrate, hextends, hcolumns, hkeeps, hself⟩ := migrate_spec (htables _ hreceipts)
  have hrun : bootstrapSchema db = (.ok (), db') := by
    unfold bootstrapSchema
    rw [Proc.bind_of_ok hcreate, hmigrate]
  have hdb' : bootstrapped db = db' := by rw [bootstrapped, hrun]
  rw [hdb']
  exact ⟨hrun, ⟨fun t ht => hextends.names (htables t ht), hcolumns⟩,
    (Database.keeps_createAll _ db createdTables).trans hkeeps, hself⟩

/-- The databases the constructor has nothing to add to. -/
theorem bootstrapped_eq_iff : bootstrapped db = db ↔ Migrated db := by
  obtain ⟨-, hmigrated, -, hself⟩ := bootstrap_spec db
  constructor
  · intro h
    rw [← h]
    exact hmigrated
  · intro h
    rw [Database.createAll_of_mem h.tables] at hself
    exact hself h.columns

/-- The databases the constructor adds nothing to that was there before. -/
theorem keeps_bootstrapped_iff : Database.Keeps (fun _ => True) db (bootstrapped db) ↔
    ("receipts" ∈ db.names → ∀ c ∈ m2ColumnDefs, c.1.name ∈ db.columnNames "receipts") := by
  obtain ⟨-, hmigrated, hkeeps, hself⟩ := bootstrap_spec db
  constructor
  · intro h hreceipts c hc
    obtain ⟨t, ht⟩ := Option.isSome_iff_exists.mp (Database.find?_isSome_iff.mpr hreceipts)
    have hcolumn := hmigrated.columns c hc
    unfold Database.columnNames at hcolumn ⊢
    rw [h "receipts" trivial t ht] at hcolumn
    rw [ht]
    exact hcolumn
  · intro h name _ t ht
    by_cases hname : name = "receipts"
    · subst hname
      have hreceipts : "receipts" ∈ db.names := Database.find?_isSome_iff.mp (by rw [ht]; rfl)
      -- the table is as it was when the migration starts, and has every column
      have hcreated := Database.keeps_createAll (fun _ => True) db createdTables "receipts" trivial t ht
      rw [hself]
      · exact hcreated
      · intro c hc
        have hcolumn := h hreceipts c hc
        unfold Database.columnNames at hcolumn ⊢
        rw [ht] at hcolumn
        rw [hcreated]
        exact hcolumn
    · exact hkeeps name hname t ht

/-- Can the constructor read what it hydrates from? -/
structure Hydrates (host : AuditHost) (db : Db) : Prop where
  tables : ∀ t ∈ userTables db, host.pragmaReads t.1 = true
  receiptId : "receipt_id" ∈ db.columnNames "receipts"
  intentRef : "intent_ref" ∈ db.columnNames "receipts"

theorem exists_selectLast_iff {columns : List String} :
    (∃ last, selectLast columns db = (.ok last, db)) ↔
      ∀ c ∈ "receipt_id" :: columns, c ∈ db.columnNames "receipts" := by
  have hselect : (∃ rows, db.select "receipts" ("receipt_id" :: columns) = some rows) ↔
      ∀ c ∈ "receipt_id" :: columns, c ∈ db.columnNames "receipts" := by
    rw [← Option.isSome_iff_exists, Database.select_isSome_iff]
    refine and_iff_right_of_imp fun h => ?_
    exact Database.mem_names_of_mem_columnNames (h _ List.mem_cons_self)
  rw [← hselect]
  unfold selectLast
  constructor
  · rintro ⟨last, h⟩
    obtain ⟨sorted, h, -⟩ := (reads_selectReceipts columns).bind_ok_iff.mp h
    obtain ⟨rows, hrows, -⟩ := (reads_select _ _).bind_ok_iff.mp h
    unfold select at hrows
    cases hfound : db.select "receipts" ("receipt_id" :: columns) with
    | none =>
      rw [hfound] at hrows
      exact nomatch hrows
    | some rows => exact ⟨rows, rfl⟩
  · rintro ⟨rows, hrows⟩
    have hrun : select "receipts" ("receipt_id" :: columns) db = (.ok rows, db) := by
      rw [select, hrows]
    have hsorted : selectReceipts columns db =
        (.ok (rows.insertionSort fun a b => receiptId a ≤ receiptId b), db) := by
      unfold selectReceipts
      rw [Proc.bind_of_ok hrun]
      rfl
    rw [Proc.bind_of_ok hsorted]
    exact ⟨_, rfl⟩

theorem exists_computeSchemaHash_iff : (∃ h, computeSchemaHash host db = (.ok h, db)) ↔
    ∀ t ∈ userTables db, host.pragmaReads t.1 = true := by
  unfold computeSchemaHash
  by_cases hall : ((userTables db).all fun t => host.pragmaReads t.1) = true
  · rw [if_pos hall]
    refine ⟨fun _ => List.all_eq_true.mp hall, fun _ => ?_⟩
    -- names, types, flags and defaults are strings and numbers
    have hshape : isOk (toJson host.toEnv true (strDict ((userTables db).map fun t =>
        (t.1, PyVal.list (t.2.columns.map Column.shape))))) = true := by
      apply ReleaseBundle.isOk_toJson_strDict
      rw [List.forall_mem_map]
      intro t _
      show isOk (toJson host.toEnv true (.list (t.2.columns.map Column.shape))) = true
      rw [toJson, isOk_map, isOk_toJsonList, List.all_eq_true, List.forall_mem_map]
      intro c _
      cases hdefault : c.default with
      | none =>
        rw [Column.shape, hdefault]
        rfl
      | some default =>
        rw [Column.shape, hdefault]
        rfl
    obtain ⟨j, hj⟩ := isOk_iff.mp hshape
    dsimp only
    rw [paramsJson, hj]
    exact ⟨_, rfl⟩
  · rw [if_neg hall]
    constructor
    · rintro ⟨h, hrun⟩
      cases hrun
    · intro h
      exact absurd (List.all_eq_true.mpr h) hall

theorem reads_hydrate : Reads (hydrate host) := by
  apply Reads.bind reads_computeSchemaHash
  intro schemaHash
  apply Reads.bind (reads_selectLast _)
  intro last
  exact (reads_selectLast _).bind fun _ => reads_ret _

theorem exists_hydrate_iff (h : Migrated db) :
    (∃ rs, hydrate host db = (.ok rs, db)) ↔ Hydrates host db := by
  have hcolumn {name : String} (hname : name ∈ m2ColumnDefs.map fun c => c.1.name) :
      name ∈ db.columnNames "receipts" := by
    obtain ⟨c, hc, rfl⟩ := List.mem_map.mp hname
    exact h.columns c hc
  constructor
  · rintro ⟨rs, hrun⟩
    obtain ⟨schemaHash, hschema, hrun⟩ := reads_computeSchemaHash.bind_ok_iff.mp hrun
    obtain ⟨last, hlast, hrun⟩ := (reads_selectLast _).bind_ok_iff.mp hrun
    obtain ⟨lineage, hlineage, -⟩ := (reads_selectLast _).bind_ok_iff.mp hrun
    have hcolumns := exists_selectLast_iff.mp ⟨lineage, hlineage⟩
    exact ⟨exists_computeSchemaHash_iff.mp ⟨schemaHash, hschema⟩, hcolumns _ List.mem_cons_self,
      hcolumns _ (by simp)⟩
  · intro hh
    obtain ⟨schemaHash, hschema⟩ := exists_computeSchemaHash_iff.mpr hh.tables
    have hlast : ∃ last, selectLast ["h_r"] db = (.ok last, db) := by
      rw [exists_selectLast_iff]
      simp only [List.forall_mem_cons, List.not_mem_nil, false_implies, implies_true, and_true]
      exact ⟨hh.receiptId, hcolumn (by decide)⟩
    have hlineage : ∃ lineage, selectLast ["h_m", "intent_ref"] db = (.ok lineage, db) := by
      rw [exists_selectLast_iff]
      simp only [List.forall_mem_cons, List.not_mem_nil, false_implies, implies_true, and_true]
      exact ⟨hh.receiptId, hcolumn (by decide), hh.intentRef⟩
    obtain ⟨last, hlast⟩ := hlast
    obtain ⟨lineage, hlineage⟩ := hlineage
    unfold hydrate
    rw [Proc.bind_of_ok hschema, Proc.bind_of_ok hlast, Proc.bind_of_ok hlineage]
    exact ⟨_, rfl⟩

/-! ## The audit -/

theorem onUgk_of_ok {m : Proc Db Exc α} (hdir : dir.ugk = some db) {a : α}
    (h : m db = (.ok a, db')) : onUgk m dir = (.ok a, { dir with ugk := some db' }) := by
  rw [onUgk, hdir]
  dsimp only
  rw [h]

theorem onUgk_of_error {m : Proc Db Exc α} (hdir : dir.ugk = some db) {e : Exc}
    (h : m db = (.error e, db')) : onUgk m dir = (.error e, { dir with ugk := some db' }) := by
  rw [onUgk, hdir]
  dsimp only
  rw [h]

/-- The constructor of the receipt store leaves the bootstrapped database, and returns when it can
    hydrate from it. -/
theorem openReceiptStore_cases (host : AuditHost) (db : Db) :
    (Hydrates host (bootstrapped db) ∧
      ∃ rs, openReceiptStore host db = (.ok rs, bootstrapped db)) ∨
    (¬ Hydrates host (bootstrapped db) ∧
      ∃ e, openReceiptStore host db = (.error e, bootstrapped db)) := by
  obtain ⟨hrun, hmigrated, -, -⟩ := bootstrap_spec db
  have hopen : openReceiptStore host db = hydrate host (bootstrapped db) := by
    unfold openReceiptStore
    rw [Proc.bind_of_ok hrun]
  have hiff : (∃ rs, hydrate host (bootstrapped db) = (.ok rs, bootstrapped db)) ↔
      Hydrates host (bootstrapped db) := exists_hydrate_iff hmigrated
  have hread : bootstrapped db = (hydrate host (bootstrapped db)).2 := reads_hydrate _
  by_cases hh : Hydrates host (bootstrapped db)
  · obtain ⟨rs, hrs⟩ := hiff.mpr hh
    exact .inl ⟨hh, rs, hopen.trans hrs⟩
  · right
    refine ⟨hh, ?_⟩
    rw [hopen]
    cases hres : hydrate host (bootstrapped db) with
    | mk result after =>
      rw [hres] at hread
      obtain rfl : bootstrapped db = after := hread
      cases result with
      | ok rs => exact absurd (hiff.mp ⟨rs, hres⟩) hh
      | error e => exact ⟨e, rfl⟩

theorem openWarrants_apply (dir : StateDir) : openWarrants dir = (.ok dir.warrants.isSome,
    { dir with warrants := dir.warrants.map fun w => w.createIfMissing "warrants" warrantColumns }) := by
  obtain ⟨ugk, warrants⟩ := dir
  cases warrants <;> rfl

/-- The databases after an audit that gets to the warrant store. -/
theorem audit_snd_of_hydrates (queries : List Query) (hdir : dir.ugk = some db)
    (h : Hydrates host (bootstrapped db)) : (audit host queries dir).2 =
      { ugk := some (bootstrapped db)
        warrants := dir.warrants.map fun w => w.createIfMissing "warrants" warrantColumns } := by
  obtain ⟨-, rs, hopen⟩ | ⟨hnot, -⟩ := openReceiptStore_cases host db
  · have hstore := onUgk_of_ok hdir hopen
    have hsession : (AuditSession.open host dir).2 =
        { ugk := some (bootstrapped db)
          warrants := dir.warrants.map fun w => w.createIfMissing "warrants" warrantColumns } := by
      unfold AuditSession.open
      rw [Proc.bind_of_ok (Proc.get_apply dir), if_neg (by simp [hdir]),
        Proc.bind_of_ok hstore, Proc.bind_of_ok (openWarrants_apply _)]
      -- what follows reads
      have hrest : Reads (onUgk (uniqueLegendHashes host.toEnv) >>= fun hashes =>
          Proc.traverse (checkLegend host) hashes >>= fun _ =>
            (pure ⟨rs, dir.warrants.isSome⟩ : Proc StateDir Exc AuditSession)) :=
        reads_uniqueLegendHashes.onUgk.bind fun hashes =>
          (Reads.traverse reads_checkLegend hashes).bind fun _ => reads_ret _
      exact (hrest _).symm
    rw [← hsession]
    apply Proc.bind_snd
    intro session dir'
    have hrest : Reads (Proc.traverse (fun q => Proc.attempt (Query.run host session q)) queries >>=
        fun answers => session.close >>= fun _ =>
          (pure answers : Proc StateDir Exc (List (Except Exc Answer)))) :=
      (Reads.traverse (fun q => Proc.Steps.attempt (reads_run session q)) queries).bind fun _ =>
        reads_ret _
    exact (hrest dir').symm
  · exact absurd h hnot

/-- The databases after an audit that does not. -/
theorem audit_snd_of_not (queries : List Query) (hdir : dir.ugk = some db)
    (h : ¬ Hydrates host (bootstrapped db)) :
    (audit host queries dir).2 = { dir with ugk := some (bootstrapped db) } := by
  obtain ⟨hh, -⟩ | ⟨-, e, hopen⟩ := openReceiptStore_cases host db
  · exact absurd hh h
  · have hstore := onUgk_of_error hdir hopen
    have hsession : AuditSession.open host dir =
        (.error e, { dir with ugk := some (bootstrapped db) }) := by
      unfold AuditSession.open
      rw [Proc.bind_of_ok (Proc.get_apply dir), if_neg (by simp [hdir]),
        Proc.bind_of_error hstore]
    unfold audit
    rw [Proc.bind_of_error hsession]

theorem audit_snd_of_missing (queries : List Query) (hdir : dir.ugk = none) :
    (audit host queries dir).2 = dir := by
  have hsession : AuditSession.open host dir = (.error (.userException "FileNotFoundError"), dir) := by
    unfold AuditSession.open
    rw [Proc.bind_of_ok (Proc.get_apply dir), if_pos (by rw [hdir]; rfl)]
    rfl
  unfold audit
  rw [Proc.bind_of_error hsession]

/-- Is there nothing for the running version to add to the directory? -/
structure Current (host : AuditHost) (dir : StateDir) : Prop where
  ugk : ∀ db, dir.ugk = some db → Migrated db
  warrants : ∀ db w, dir.ugk = some db → dir.warrants = some w → Hydrates host db →
    "warrants" ∈ w.names

/-- Are the tables that were there still there, with the rows and columns they had? -/
structure TablesKept (dir dir' : StateDir) : Prop where
  ugk : ∀ db, dir.ugk = some db → ∃ db', dir'.ugk = some db' ∧ db.Keeps (fun _ => True) db'
  warrants : ∀ w, dir.warrants = some w →
    ∃ w', dir'.warrants = some w' ∧ w.Keeps (fun _ => True) w'

theorem current_iff (queries : List Query) :
    (audit host queries dir).2 = dir ↔ Current host dir := by
  cases hdir : dir.ugk with
  | none =>
    rw [audit_snd_of_missing queries hdir, eq_self_iff_true, true_iff]
    refine ⟨fun db h => ?_, fun db w h => ?_⟩
    · rw [hdir] at h
      exact nomatch h
    · rw [hdir] at h
      exact nomatch h
  | some db =>
    have hcurrent : Current host dir ↔ Migrated db ∧
        ∀ w, dir.warrants = some w → Hydrates host db → "warrants" ∈ w.names := by
      constructor
      · exact fun h => ⟨h.ugk db hdir, fun w => h.warrants db w hdir⟩
      · intro h
        refine ⟨fun db' hdb' => ?_, fun db' w hdb' => ?_⟩
        · rw [hdir] at hdb'
          exact Option.some.inj hdb' ▸ h.1
        · rw [hdir] at hdb'
          exact Option.some.inj hdb' ▸ h.2 w
    rw [hcurrent, ← bootstrapped_eq_iff]
    by_cases hh : Hydrates host (bootstrapped db)
    · rw [audit_snd_of_hydrates queries hdir hh]
      obtain ⟨ugk, warrants⟩ := dir
      obtain rfl : ugk = some db := hdir
      rw [StateDir.mk.injEq, Option.some.injEq]
      refine and_congr_right fun hdb => ?_
      rw [hdb] at hh
      cases warrants with
      | none => exact ⟨fun _ w hw => (nomatch hw), fun _ => rfl⟩
      | some w =>
        rw [Option.map_some, Option.some.injEq, Database.createIfMissing_eq_self_iff]
        refine ⟨fun h w' hw' _ => ?_, fun h => h w rfl hh⟩
        exact Option.some.inj hw' ▸ h
    · rw [audit_snd_of_not queries hdir hh]
      obtain ⟨ugk, warrants⟩ := dir
      obtain rfl : ugk = some db := hdir
      rw [StateDir.mk.injEq, Option.some.injEq, and_iff_left rfl]
      refine (and_iff_left_of_imp fun hdb w _ hydrates => ?_).symm
      rw [hdb] at hh
      exact absurd hydrates hh

theorem tablesKept_iff (queries : List Query) : TablesKept dir (audit host queries dir).2 ↔
    ∀ db, dir.ugk = some db → "receipts" ∈ db.names →
      ∀ c ∈ m2ColumnDefs, c.1.name ∈ db.columnNames "receipts" := by
  cases hdir : dir.ugk with
  | none =>
    rw [audit_snd_of_missing queries hdir]
    refine ⟨fun _ db h => (nomatch h), fun _ => ⟨fun db h => ⟨db, h, .refl _ db⟩, fun w h =>
      ⟨w, h, .refl _ w⟩⟩⟩
  | some db =>
    have hafter : (audit host queries dir).2.ugk = some (bootstrapped db) ∧
        ∀ w, dir.warrants = some w → ∃ w', (audit host queries dir).2.warrants = some w' ∧
          w.Keeps (fun _ => True) w' := by
      by_cases hh : Hydrates host (bootstrapped db)
      · rw [audit_snd_of_hydrates queries hdir hh]
        refine ⟨rfl, fun w hw => ⟨w.createIfMissing "warrants" warrantColumns, ?_,
          Database.keeps_createIfMissing _ w _ _⟩⟩
        rw [hw]
        rfl
      · rw [audit_snd_of_not queries hdir hh]
        exact ⟨rfl, fun w hw => ⟨w, hw, .refl _ w⟩⟩
    have hkept : TablesKept dir (audit host queries dir).2 ↔
        db.Keeps (fun _ => True) (bootstrapped db) := by
      constructor
      · intro h
        obtain ⟨db', hdb', hkeeps⟩ := h.ugk db hdir
        rw [hafter.1] at hdb'
        exact Option.some.inj hdb' ▸ hkeeps
      · intro h
        refine ⟨fun db' hdb' => ⟨bootstrapped db, hafter.1, ?_⟩, hafter.2⟩
        rw [hdir] at hdb'
        exact Option.some.inj hdb' ▸ h
    rw [hkept, keeps_bootstrapped_iff]
    refine ⟨fun h db' hdb' => ?_, fun h => h db rfl⟩
    exact Option.some.inj hdb' ▸ h

/-- What an audit leaves is current: the next one finds nothing to add. -/
theorem current_audit (queries : List Query) : Current host (audit host queries dir).2 := by
  cases hdir : dir.ugk with
  | none =>
    rw [audit_snd_of_missing queries hdir]
    exact (current_iff queries).mp (audit_snd_of_missing queries hdir)
  | some db =>
    obtain ⟨-, hmigrated, -, -⟩ := bootstrap_spec db
    by_cases hh : Hydrates host (bootstrapped db)
    · rw [audit_snd_of_hydrates queries hdir hh]
      refine ⟨fun db' hdb' => Option.some.inj hdb' ▸ hmigrated, fun db' w hdb' hw _ => ?_⟩
      obtain ⟨w₀, -, rfl⟩ := Option.map_eq_some_iff.mp hw
      exact Database.mem_names_createIfMissing w₀ _ _
    · rw [audit_snd_of_not queries hdir hh]
      refine ⟨fun db' hdb' => Option.some.inj hdb' ▸ hmigrated, fun db' w hdb' _ h => ?_⟩
      exact absurd (Option.some.inj hdb' ▸ h) hh

/-- An audit leaves a state directory as it is when there is nothing to add to it, and the tables in
    it when no column of the receipts is missing. -/
theorem audit_read_only_iff (host : AuditHost) (dir : StateDir) (queries : List Query) :
    ((audit host queries dir).2 = dir ↔ Current host dir) ∧
      (TablesKept dir (audit host queries dir).2 ↔
        ∀ db, dir.ugk = some db → "receipts" ∈ db.names →
          ∀ c ∈ m2ColumnDefs, c.1.name ∈ db.columnNames "receipts") :=
  ⟨current_iff queries, tablesKept_iff queries⟩

/-! ## A database of an earlier version -/

/-- The columns of the receipts before the M2 binding. -/
def preM2Columns : List Column := receiptColumns.take 14

/-- One receipt of that version. -/
def preM2Row : List PyVal :=
  [.int 1, .str "attest", .str "Governor", .str "{}", .str "attest", .str "session",
    .str "high", .int 0, .int 0, .str "", .str "", .str "", .str "", .str ""]

/-- A state directory of that version. -/
def preM2Dir : StateDir where
  ugk := some {
    tables := [("receipts", {
      columns := preM2Columns
      rows := [preM2Row]
      width := by decide })]
    nodup := List.nodup_singleton _ }
  warrants := none

/-- What is taken from a running version that knows no legend. -/
def sampleAuditHost : AuditHost where
  toEnv := sampleEnv
  currentLegendHash := ""
  currentLegend := .list []
  pragmaReads _ := true

/-- Opening it and closing it again adds tables, and columns to the table that was there. -/
theorem preM2_audited : (audit sampleAuditHost [] preM2Dir).2 ≠ preM2Dir ∧
    ¬ TablesKept preM2Dir (audit sampleAuditHost [] preM2Dir).2 := by
  have hdb : ∀ db, preM2Dir.ugk = some db → "receipts" ∈ db.names ∧
      "h_s" ∉ db.columnNames "receipts" := by
    intro db hdb
    obtain rfl := Option.some.inj hdb
    decide
  have hcolumn : (textColumn "h_s" "") ∈ m2ColumnDefs := by
    rw [m2ColumnDefs, m2Columns]
    exact List.mem_append_left _ (List.mem_append_left _ List.mem_cons_self)
  obtain ⟨hreceipts, hmissing⟩ := hdb _ rfl
  constructor
  · intro h
    exact hmissing (((current_iff []).mp h).ugk _ rfl |>.columns _ hcolumn)
  · intro h
    exact hmissing ((tablesKept_iff []).mp h _ rfl hreceipts _ hcolumn)

end Audit

end Ugk
