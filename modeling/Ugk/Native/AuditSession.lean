import Ugk.ForStd.Proc
import Ugk.ForStd.Tables
import Ugk.Native.Receipt
import Ugk.Native.Warrant

/-!
# The audit session

`storage/audit.py`, with the two constructors it opens a state directory through
(`UGKReceiptStore.__init__` of `storage/store.py`, `WarrantStore.__init__` of
`governance/warrant.py`), statement by statement over the two databases.  Data definition is
durable as soon as it is executed: `sqlite3` opens no transaction for it.  The `PRAGMA journal_mode`
and `synchronous` of the constructors change no table.
-/

namespace Ugk

namespace Audit

/-! ## The schema -/

/-- A `TEXT NOT NULL` column with a default, and the default as a value. -/
def textColumn (name default : String) : Column × PyVal :=
  (⟨name, "TEXT", true, some ("'" ++ default ++ "'"), 0⟩, .str default)

/-- A `TEXT` column that may be `NULL`. -/
def nullableColumn (name : String) : Column × PyVal := (⟨name, "TEXT", false, none, 0⟩, .none)

/-- A `TEXT NOT NULL` column without a default. -/
def requiredText (name : String) : Column := ⟨name, "TEXT", true, none, 0⟩

/-- An `INTEGER NOT NULL` column with a default. -/
def integerColumn (name : String) (default : Int) : Column :=
  ⟨name, "INTEGER", true, some (toString default), 0⟩

/-- The M2 columns of `_CREATE_RECEIPTS`, which `_M2_COLUMN_DEFS` starts with. -/
def m2Columns : List (Column × PyVal) :=
  [textColumn "h_s" "", textColumn "h_c" "", textColumn "h_m" "", nullableColumn "h_j",
    textColumn "h_r" "", textColumn "parent_h_r" "", textColumn "mode" "strict",
    (integerColumn "version" 1, .int 1), textColumn "id_c_s" "c_s.v1", textColumn "id_c_c" "c_c.v1",
    textColumn "id_c_m" "c_m.v1+sigma_0", textColumn "id_c_j" "c_j.v1", textColumn "h_body" ""] ++
  (["terminal_outcome", "terminal_outcome_model_id", "terminal_outcome_reason",
    "trace_vector_hash", "h_cap", "capability_evidence_model_id", "capability_ledger_hash",
    "capability_registry_version", "capability_scope_id", "effect_atomicity",
    "effect_atomicity_model_id", "effect_phase", "effect_prepare_ref", "effect_compensate_ref",
    "effect_idempotency_key", "effect_compensation_idempotency_key", "effect_abort_reason",
    "effect_gate_admit_ref"].map nullableColumn)

/-- `_M2_COLUMN_DEFS`, each with the value its default gives the rows there are. -/
def m2ColumnDefs : List (Column × PyVal) :=
  m2Columns ++
    (["reconciliation_grade", "reconciliation_warrant_snapshot", "continuation_id",
      "continuation_op", "continuation_authority", "continuation_parameters",
      "continuation_jurisdiction", "continuation_expiry_basis", "continuation_state",
      "continuation_model_id", "bridge_record_id", "bridge_source_regime_ref",
      "bridge_target_regime_ref", "bridge_transformation_ref", "bridge_downgrade_reason",
      "bridge_preserved_evidence_ref"].map nullableColumn)

/-- The columns of `_CREATE_RECEIPTS`. -/
def receiptColumns : List Column :=
  [⟨"receipt_id", "INTEGER", false, none, 1⟩, requiredText "op", requiredText "authority",
    requiredText "parameters", requiredText "intent", (textColumn "jurisdiction" "session").1,
    (textColumn "confidence" "high").1, ⟨"timestamp", "REAL", true, none, 0⟩,
    integerColumn "failed" 0] ++
  (["session_dkn", "law_hash", "legend_hash", "warrant_id", "intent_ref"].map fun name =>
    (textColumn name "").1) ++
  m2Columns.map Prod.fst

/-- The columns of `_CREATE_LEGEND_ARCHIVE`. -/
def legendArchiveColumns : List Column :=
  [⟨"legend_hash", "TEXT", false, none, 1⟩, requiredText "entries_json",
    (textColumn "phase_code" "").1, integerColumn "entry_count" 0, (textColumn "sealed_at" "").1]

/-- The columns of `_CREATE_SCOPE_ARCHIVE`. -/
def scopeArchiveColumns : List Column :=
  [⟨"scope_id", "TEXT", false, none, 1⟩, (textColumn "scope_type" "session").1] ++
    (["authority_surface", "session_dkn", "law_hash", "legend_hash", "prior_scope_id",
      "timestamp"].map fun name => (textColumn name "").1)

/-- The columns of `_CREATE_AM_ARCHIVE`. -/
def authorityModelArchiveColumns : List Column :=
  [⟨"model_hash", "TEXT", false, none, 1⟩, (textColumn "model_id" "").1,
    integerColumn "require_gate" 0, integerColumn "require_warrant" 0,
    integerColumn "require_intent" 0] ++
    (["description", "rationale", "law_hash", "authority", "timestamp"].map fun name =>
      (textColumn name "").1)

/-- The columns of `_CREATE_FRAME_LEG_PROBE`. -/
def frameLegProbeColumns : List Column := [⟨"id", "INTEGER", false, none, 1⟩]

/-- The columns of `_CREATE_WARRANTS`. -/
def warrantColumns : List Column :=
  [⟨"warrant_hash", "TEXT", false, none, 1⟩, (textColumn "prior_warrant_hash" "").1,
    (textColumn "constitutional_basis" "[]").1, integerColumn "authority_result" 9101,
    integerColumn "jurisdiction_result" 9102, integerColumn "result" 9001,
    (textColumn "law_hash" "").1, (textColumn "legend_hash" "").1, (textColumn "timestamp" "").1]

/-! ## Statements -/

/-- A SQLite database of the package. -/
abbrev Db := Database PyVal

/-- What the session takes from the running version and from SQLite. -/
structure AuditHost extends Env where
  /-- `binding.LEGEND_HASH` -/
  currentLegendHash : String
  /-- `binding._LEGEND_ENTRIES` -/
  currentLegend : PyVal
  /-- is the table name one that `PRAGMA table_info` takes unquoted? -/
  pragmaReads : String → Bool

/-- `CREATE TABLE IF NOT EXISTS` -/
def createTable (name : String) (columns : List Column) : Proc Db Exc Unit :=
  Proc.modify fun db => db.createIfMissing name columns

/-- `ALTER TABLE … ADD COLUMN` -/
def addColumn (name : String) (c : Column) (fill : PyVal) : Proc Db Exc Unit := fun db =>
  match db.addColumn name c fill with
  | some db' => (.ok (), db')
  | none => (.error (.operationalError "no such table, or duplicate column name"), db)

/-- `PRAGMA table_info`, the names. -/
def tableInfo (name : String) : Proc Db Exc (List String) := fun db => (.ok (db.columnNames name), db)

/-- `SELECT`, the rows under the columns the statement names. -/
def select (name : String) (columns : List String) : Proc Db Exc (List (List PyVal)) := fun db =>
  match db.select name columns with
  | some rows => (.ok rows, db)
  | none => (.error (.operationalError "no such table, or no such column"), db)

/-! ## Opening the receipt store -/

/-- One round of `_migrate_m2_schema`. -/
def addIfMissing (existing : List String) (c : Column × PyVal) : Proc Db Exc Unit :=
  if c.1.name ∈ existing then pure () else addColumn "receipts" c.1 c.2

/-- `_migrate_m2_schema` -/
def migrateM2Schema : Proc Db Exc Unit := do
  let existing ← tableInfo "receipts"
  let _ ← Proc.traverse (addIfMissing existing) m2ColumnDefs
  pure ()

/-- `name NOT LIKE 'sqlite_%'` is false. -/
def isInternal (name : String) : Bool :=
  (name.toList.take 6).map Char.toLower == "sqlite".toList && 7 ≤ name.toList.length

/-- The list `compute_schema_hash` keeps of a column. -/
def Column.shape (c : Column) : PyVal :=
  .list [.str c.name, .str c.type, .int (if c.notNull then 1 else 0), .ofOpt c.default,
    .int c.primaryKey]

/-- The user tables. -/
def userTables (db : Db) : List (String × Table PyVal) := db.tables.filter fun t => !isInternal t.1

/-- `compute_schema_hash` -/
def computeSchemaHash (host : AuditHost) : Proc Db Exc String := fun db =>
  if (userTables db).all fun t => host.pragmaReads t.1 then
    let shape := (userTables db).map fun t => (t.1, PyVal.list (t.2.columns.map Column.shape))
    ((paramsJson host.toEnv (strDict shape)).map fun blob => (host.sha256 (text blob.toList)).hex, db)
  else (.error (.operationalError "near a table name: syntax error"), db)

/-- The receipt store of a session, what its constructor read. -/
structure ReceiptStore where
  schemaHash : String
  priorHR : PyVal
  priorHM : PyVal
  priorIntentRef : PyVal

/-- The key `ORDER BY receipt_id` compares. -/
def receiptId (row : List PyVal) : Int :=
  match row with
  | .int n :: _ => n
  | _ => 0

/-- `SELECT … ORDER BY receipt_id` -/
def selectReceipts (columns : List String) : Proc Db Exc (List (List PyVal)) := do
  let rows ← select "receipts" ("receipt_id" :: columns)
  pure (rows.insertionSort fun a b => receiptId a ≤ receiptId b)

/-- `SELECT … ORDER BY receipt_id DESC LIMIT 1`, without the receipt's number. -/
def selectLast (columns : List String) : Proc Db Exc (Option (List PyVal)) := do
  let rows ← selectReceipts columns
  pure (rows.getLast?.map List.tail)

/-- A value, unless it is falsy. -/
def truthyOr (v default : PyVal) : PyVal := if v.truthy then v else default

/-- The tables the constructor creates. -/
def createdTables : List (String × List Column) :=
  [("receipts", receiptColumns), ("legend_archive", legendArchiveColumns),
    ("scope_archive", scopeArchiveColumns),
    ("authority_model_archive", authorityModelArchiveColumns),
    ("frame_leg_probe", frameLegProbeColumns)]

/-- The statements under `bootstrap_schema`. -/
def bootstrapSchema : Proc Db Exc Unit := do
  let _ ← Proc.traverse (fun t => createTable t.1 t.2) createdTables
  migrateM2Schema

/-- What the constructor reads after them. -/
def hydrate (host : AuditHost) : Proc Db Exc ReceiptStore := do
  let schemaHash ← computeSchemaHash host
  let last ← selectLast ["h_r"]
  let lineage ← selectLast ["h_m", "intent_ref"]
  pure {
    schemaHash := schemaHash
    priorHR := truthyOr ((last.bind fun row => row[0]?).getD .none) (.str genesis)
    priorHM := truthyOr ((lineage.bind fun row => row[0]?).getD .none) .none
    priorIntentRef := (lineage.bind fun row => row[1]?).getD .none }

/-- `UGKReceiptStore.__init__` on an existing path, without `read_only` -/
def openReceiptStore (host : AuditHost) : Proc Db Exc ReceiptStore := do
  bootstrapSchema
  hydrate host

/-- `WarrantStore.__init__` on an existing path -/
def openWarrantStore : Proc Db Exc Unit := createTable "warrants" warrantColumns

/-! ## Reading receipts -/

/-- A receipt or a warrant as it is read: names with values. -/
abbrev Record := List (String × PyVal)

def Record.field (r : Record) (name : String) : PyVal := (r.lookup name).getD .none

/-- The columns `all_receipts` selects, after `receipt_id`. -/
def receiptFields : List String :=
  ["op", "authority", "parameters", "intent", "jurisdiction", "confidence", "timestamp", "failed",
    "session_dkn", "law_hash", "legend_hash", "warrant_id", "intent_ref"] ++
  m2ColumnDefs.map fun c => c.1.name

/-- `_expand` -/
def expandCell (env : Env) : PyVal → PyVal
  | .str s => .str (expand env s)
  | v => v

/-- The defaults `_row_to_receipt` puts for a falsy value. -/
def receiptDefaults : Record :=
  (["legend_hash", "warrant_id", "intent_ref", "h_s", "h_c", "h_m", "h_r", "parent_h_r",
    "h_body"].map fun name => (name, .str "")) ++
  [("mode", .str "strict"), ("version", .int 1), ("id_c_s", .str "c_s.v1"),
    ("id_c_c", .str "c_c.v1"), ("id_c_m", .str "c_m.v1+sigma_0"), ("id_c_j", .str "c_j.v1")]

/-- `json.loads` of a cell. -/
def loadsCell (env : Env) : PyVal → Except Exc PyVal
  | .str s => loads env s
  | _ => .error (.typeError "the JSON object must be str, bytes or bytearray")

/-- What `_row_to_receipt` makes of one cell. -/
def readCell (env : Env) (name : String) (v : PyVal) : Except Exc (String × PyVal) :=
  if name ∈ ["op", "intent", "jurisdiction", "confidence"] then .ok (name, expandCell env v)
  else if name = "parameters" then (loadsCell env v).map fun p => (name, p)
  else if name = "failed" then .ok (name, .bool v.truthy)
  else
    match receiptDefaults.lookup name with
    | some default => .ok (name, truthyOr v default)
    | none => .ok (name, v)

/-- `_row_to_receipt` -/
def rowToRecord (env : Env) (row : List PyVal) : Except Exc Record :=
  (("receipt_id" :: receiptFields).zip row).mapM fun cell => readCell env cell.1 cell.2

/-- `all_receipts` -/
def allReceipts (env : Env) : Proc Db Exc (List Record) := do
  let rows ← selectReceipts receiptFields
  Proc.lift (rows.mapM (rowToRecord env))

/-- The links of `verify_stream_hash`. -/
def linkedFrom (env : Env) : PyVal → List Record → Bool
  | _, [] => true
  | prior, r :: rest =>
    (r.field "h_r").truthy && pyEq env (r.field "parent_h_r") prior &&
      linkedFrom env (r.field "h_r") rest

/-- `verify_stream_hash`, without a checkpoint -/
def verifyStreamHash (env : Env) : Proc Db Exc Bool := do
  let receipts ← allReceipts env
  pure (linkedFrom env (.str genesis) receipts)

/-- `stream_hash` -/
def streamHash : Proc Db Exc PyVal := do
  let last ← selectLast ["h_r"]
  pure (truthyOr ((last.bind fun row => row[0]?).getD .none) (.str genesis))

/-- `receipt_count` -/
def receiptCount : Proc Db Exc Nat := do
  let rows ← select "receipts" []
  pure rows.length

/-- `resolve_legend` of the store -/
def storedLegend (host : AuditHost) (legendHash : PyVal) : Proc Db Exc (Option PyVal) := do
  let rows ← select "legend_archive" ["legend_hash", "entries_json"]
  match rows.find? fun row => pyEq host.toEnv (row.headD .none) legendHash with
  | some row => Proc.lift ((loadsCell host.toEnv ((row[1]?).getD .none)).map some)
  | none =>
    pure (if legendHash.isStr host.currentLegendHash then some host.currentLegend else none)

/-- The values of a set comprehension. -/
def distinct (env : Env) (vs : List PyVal) : List PyVal :=
  vs.foldl (fun seen v => if seen.any (pyEq env v) then seen else seen ++ [v]) []

/-- `_unique_legend_hashes` -/
def uniqueLegendHashes (env : Env) : Proc Db Exc (List PyVal) := do
  let rows ← select "receipts" ["legend_hash"]
  let hashes := rows.map fun row => row.headD .none
  pure (distinct env (hashes.filter fun h => !h.isNone && !h.isStr ""))

/-! ## Reading warrants -/

/-- `_row_to_warrant`; a row of the table has the columns the table has. -/
def rowToWarrant (env : Env) (row : List PyVal) : Except Exc Record :=
  if row.length = warrantColumns.length then do
    let basis ← loadsCell env ((row[2]?).getD .none)
    let sorted ← match basis with
      | .list xs => pySorted env xs
      | _ => .error (.typeError "object is not iterable")
    .ok ((warrantColumns.map Column.name).zip (row.set 2 (.tuple sorted)))
  else .error (.valueError "wrong number of values to unpack")

/-- `SELECT * FROM warrants` -/
def selectWarrants : Proc Db Exc (List (List PyVal)) := do
  let columns ← tableInfo "warrants"
  select "warrants" columns

/-- `all_warrants` of the store -/
def storedWarrants (env : Env) : Proc Db Exc (List Record) := do
  let rows ← selectWarrants
  Proc.lift (rows.mapM (rowToWarrant env))

/-- `get` -/
def getStoredWarrant (env : Env) (warrantHash : PyVal) : Proc Db Exc (Option Record) := do
  let columns ← tableInfo "warrants"
  let keys ← select "warrants" ["warrant_hash"]
  let rows ← select "warrants" columns
  match (keys.zip rows).find? fun row => pyEq env (row.1.headD .none) warrantHash with
  | some row => Proc.lift ((rowToWarrant env row.2).map some)
  | none => pure none

/-- `basis_query` -/
def basisQuery (env : Env) (csilId : PyVal) : Proc Db Exc (List Record) := do
  let warrants ← storedWarrants env
  pure (warrants.filter fun w =>
    match w.field "constitutional_basis" with
    | .tuple xs => xs.any (pyEq env csilId)
    | _ => false)

/-- The loop of `lineage_from`, with the depth that is left. -/
def lineageLoop (env : Env) : Nat → PyVal → List PyVal → Proc Db Exc (List Record)
  | 0, _, _ => pure []
  | depth + 1, current, visited => do
    if current.truthy && !current.isStr genesisWarrantHash && !visited.any (pyEq env current) then
      match ← getStoredWarrant env current with
      | none => pure []
      | some w => do
        let rest ← lineageLoop env depth (w.field "prior_warrant_hash") (current :: visited)
        pure (w :: rest)
    else pure []

/-! ## The session -/

/-- A state directory: the databases that are in it. -/
structure StateDir where
  /-- `ugk.db` -/
  ugk : Option Db
  /-- `ugk_warrants.db` -/
  warrants : Option Db

/-- Run on `ugk.db`. -/
def onUgk {α : Type} (m : Proc Db Exc α) : Proc StateDir Exc α := fun dir =>
  match dir.ugk with
  | some db => ((m db).1, { dir with ugk := some (m db).2 })
  | none => (.error (.userException "FileNotFoundError"), dir)

/-- Run on `ugk_warrants.db`. -/
def onWarrants {α : Type} (m : Proc Db Exc α) : Proc StateDir Exc α := fun dir =>
  match dir.warrants with
  | some db => ((m db).1, { dir with warrants := some (m db).2 })
  | none => (.error (.userException "FileNotFoundError"), dir)

/-- `AuditSession`: whether it has a warrant store beside the receipt store. -/
structure AuditSession where
  receiptStore : ReceiptStore
  hasWarrants : Bool

/-- `WarrantStore(db_path=warrant_db) if os.path.exists(warrant_db) else None` -/
def openWarrants : Proc StateDir Exc Bool := do
  let dir ← Proc.get
  if dir.warrants.isSome then
    onWarrants openWarrantStore
    pure true
  else pure false

/-- `resolve_legend` of the session -/
def resolveLegend (host : AuditHost) (legendHash : PyVal) : Proc StateDir Exc PyVal := do
  match ← onUgk (storedLegend host legendHash) with
  | some entries => pure entries
  | none => Proc.raise (.userException "LegendNotResolvable")

/-- The check of one legend hash. -/
def checkLegend (host : AuditHost) (legendHash : PyVal) : Proc StateDir Exc Unit := do
  if legendHash.truthy then
    let _ ← resolveLegend host legendHash
    pure ()
  else pure ()

/-- `AuditSession.open` -/
def AuditSession.open (host : AuditHost) : Proc StateDir Exc AuditSession := do
  let dir ← Proc.get
  if dir.ugk.isNone then Proc.raise (.userException "FileNotFoundError")
  else
    let rs ← onUgk (openReceiptStore host)
    let ws ← openWarrants
    let hashes ← onUgk (uniqueLegendHashes host.toEnv)
    let _ ← Proc.traverse (checkLegend host) hashes
    pure ⟨rs, ws⟩

/-- The query methods. -/
inductive Query where
  | verifyFullChain
  | attest
  | receiptsInSession (sessionDkn : PyVal)
  | receiptsForWarrant (warrantHash : PyVal)
  | receiptsByLawHash (lawHash : PyVal)
  | allReceipts
  | warrantsForInvariant (csilId : PyVal)
  | warrantsForInvariantAndLaw (csilId lawHash : PyVal)
  | warrantLineage (warrantHash : PyVal)
  | allWarrants
  | resolveLegend (legendHash : PyVal)
  | expandReceipt (receipt : Record)

/-- What a query returns. -/
inductive Answer where
  | flag (b : Bool)
  | value (v : PyVal)
  | records (rs : List Record)

/-- `attest` -/
def attest (host : AuditHost) : Proc Db Exc Answer := do
  let snapHash ← streamHash
  let chainOk ← verifyStreamHash host.toEnv
  let receipts ← allReceipts host.toEnv
  let count ← receiptCount
  let hashesOf (name : String) := pySorted host.toEnv (distinct host.toEnv
    ((receipts.map fun r => r.field name).filter PyVal.truthy))
  let lawHashes ← Proc.lift (hashesOf "law_hash")
  let legendHashes ← Proc.lift (hashesOf "legend_hash")
  pure (.value (strDict [("stream_hash", snapHash), ("hash_verified", .bool chainOk),
    ("receipt_count", .int count), ("law_hashes", .list lawHashes),
    ("legend_hashes", .list legendHashes), ("current_legend", .str host.currentLegendHash)]))

/-- The receipts with a field of one value. -/
def receiptsWith (host : AuditHost) (name : String) (v : PyVal) : Proc StateDir Exc Answer := do
  let receipts ← onUgk (allReceipts host.toEnv)
  pure (.records (receipts.filter fun r => pyEq host.toEnv (r.field name) v))

/-- A query of the warrant store; without one it has no warrants. -/
def warrantsOf (session : AuditSession) (m : Proc Db Exc (List Record)) :
    Proc StateDir Exc Answer := do
  if session.hasWarrants then
    let ws ← onWarrants m
    pure (.records ws)
  else pure (.records [])

/-- `expand_receipt` -/
def expandReceipt (host : AuditHost) (r : Record) : PyVal :=
  strDict ((["op", "intent", "jurisdiction", "confidence", "authority", "timestamp", "failed",
    "law_hash", "legend_hash", "warrant_id", "h_r", "session_dkn"].map fun name =>
      (name, r.field name)) ++
    [("legend_current", .bool ((r.field "legend_hash").isStr host.currentLegendHash))])

/-- A query method of the session. -/
def Query.run (host : AuditHost) (session : AuditSession) : Query → Proc StateDir Exc Answer
  | .verifyFullChain => do
    let ok ← onUgk (verifyStreamHash host.toEnv)
    pure (.flag ok)
  | .attest => onUgk (Audit.attest host)
  | .receiptsInSession dkn => receiptsWith host "session_dkn" dkn
  | .receiptsForWarrant h => receiptsWith host "warrant_id" h
  | .receiptsByLawHash h => receiptsWith host "law_hash" h
  | .allReceipts => do
    let receipts ← onUgk (Audit.allReceipts host.toEnv)
    pure (.records receipts)
  | .warrantsForInvariant csilId => warrantsOf session (basisQuery host.toEnv csilId)
  | .warrantsForInvariantAndLaw csilId lawHash => warrantsOf session do
    let warrants ← basisQuery host.toEnv csilId
    pure (warrants.filter fun w => pyEq host.toEnv (w.field "law_hash") lawHash)
  | .warrantLineage h => warrantsOf session (lineageLoop host.toEnv 100 h [])
  | .allWarrants => warrantsOf session (storedWarrants host.toEnv)
  | .resolveLegend h => do
    let entries ← Audit.resolveLegend host h
    pure (.value entries)
  | .expandReceipt r => pure (.value (Audit.expandReceipt host r))

/-- `close`: nothing is pending on either connection. -/
def AuditSession.close (_ : AuditSession) : Proc StateDir Exc Unit := pure ()

/-- Open a session, ask it any queries, whether they raise or not, and close it. -/
def audit (host : AuditHost) (queries : List Query) :
    Proc StateDir Exc (List (Except Exc Answer)) := do
  let session ← AuditSession.open host
  let answers ← Proc.traverse (fun q => Proc.attempt (Query.run host session q)) queries
  session.close
  pure answers

end Audit

end Ugk
