import Ugk.ForStd.Proc
import Ugk.Native.Authority
import Ugk.Native.EffectSurface
import Ugk.Native.Outcome

/-!
# The receipt store

`ugk/storage/store.py`: the SQLite connection with its implicit transaction and savepoints,
`write`, the governed transaction of `store.transaction` and the verifiers.

`write` splits into a resolution of its arguments, a plan that computes the receipt from the chain
tip and the time of day, and the INSERT, commit and tip update.
-/

namespace Ugk

/-! ## Archive rows -/

/-- A `ProvenanceScope` -/
structure ProvenanceScope where
  scopeId : String
  scopeType : String
  authoritySurface : String
  sessionDkn : String
  lawHash : String
  legendHash : String
  priorScopeId : String
  timestamp : String
deriving DecidableEq

/-- The fields of an `AuthorityModel` the kernel reads. -/
structure AuthorityModel where
  modelHash : String
  modelId : String
  requireGate : Bool
  requireWarrant : Bool
deriving DecidableEq

/-- A row of `legend_archive`, `scope_archive` or `authority_model_archive`. -/
inductive ArchiveRow where
  | legend (legendHash entriesJson phaseCode : String) (entryCount : Nat) (sealedAt : String)
  | scope (scope : ProvenanceScope)
  | authorityModel (model : AuthorityModel)
deriving DecidableEq

/-- The table of an archive row and its primary key. -/
def ArchiveRow.key : ArchiveRow → String × String
  | .legend legendHash _ _ _ _ => ("legend_archive", legendHash)
  | .scope s => ("scope_archive", s.scopeId)
  | .authorityModel m => ("authority_model_archive", m.modelHash)

/-! ## The connection -/

/-- The tables: the receipts, the AUTOINCREMENT counter and the archives. -/
structure Tables where
  rows : List Row := []
  seq : Nat := 0
  archive : List ArchiveRow := []

/-- A `sqlite3` connection in its default isolation mode: data-changing statements open a
    transaction, `commit` ends it together with every savepoint. -/
structure Conn where
  durable : Tables := {}
  current : Tables := {}
  /-- open savepoints, newest first, with the tables they restore -/
  savepoints : List (Nat × Tables) := []
  /-- an implicit BEGIN is open -/
  begun : Bool := false

namespace Conn

/-- The implicit BEGIN of a data-changing statement outside a transaction. -/
def implicitBegin (c : Conn) : Conn := { c with begun := c.begun || c.savepoints.isEmpty }

/-- A data-changing statement: outside a transaction it opens one. -/
def change (f : Tables → Tables) (c : Conn) : Conn :=
  { c with current := f c.current, begun := c.begun || c.savepoints.isEmpty }

/-- `conn.commit()` -/
def commit (c : Conn) : Conn :=
  { durable := c.current, current := c.current, savepoints := [], begun := false }

/-- `SAVEPOINT name` -/
def savepoint (name : Nat) (c : Conn) : Conn :=
  { c with savepoints := (name, c.current) :: c.savepoints }

/-- `RELEASE SAVEPOINT name`: the outermost savepoint of a transaction without BEGIN commits. -/
def release (name : Nat) (c : Conn) : Option Conn :=
  match c.savepoints.dropWhile fun sp => sp.1 != name with
  | [] => none
  | _ :: rest =>
    some { c with
      savepoints := rest
      durable := if rest.isEmpty && !c.begun then c.current else c.durable }

/-- `ROLLBACK TO SAVEPOINT name` -/
def rollbackTo (name : Nat) (c : Conn) : Option Conn :=
  match c.savepoints.dropWhile fun sp => sp.1 != name with
  | [] => none
  | sp :: rest => some { c with savepoints := sp :: rest, current := sp.2 }

end Conn

/-! ## State of a store object -/

/-- The in-memory chain tip: `_prior_h_r`, `_prior_h_m`, `_prior_intent_ref`. -/
structure Tip where
  priorHR : String := genesis
  priorHM : Option String := none
  priorIntentRef : Option String := none

/-- A `UGKReceiptStore` with the process-wide state its writes touch. -/
structure StoreState where
  conn : Conn := {}
  tip : Tip := {}
  txnDepth : Nat := 0
  /-- names the next savepoint -/
  spCounter : Nat := 0
  /-- readings of the clock so far -/
  ticks : Nat := 0
  /-- transient failures still to come: at each INSERT, commit or RELEASE the next entry says
      whether the database reports that it is locked -/
  faults : List Bool := []
  /-- authorities whose default edge is in the graph -/
  built : List String := []

namespace Store

/-- `UGKReceiptStore(":memory:")` -/
def empty : StoreState := {}

/-- `v if v else None` -/
def textOrNone (v : String) : Option String := if v = "" then none else some v

/-- The chain tip the constructor hydrates from a table. -/
def hydrateTip (rows : List Row) : Tip :=
  match rows.getLast? with
  | some row =>
    { priorHR := orText row.hR genesis
      priorHM := textOrNone row.hM
      priorIntentRef := some row.intentRef }
  | none => {}

/-- Close the file and construct a store on it again, in the same process: what was not committed is
    gone, and the tip is the one of the last row. -/
def reopen (s : StoreState) : StoreState :=
  { s with
    conn := { durable := s.conn.durable, current := s.conn.durable }
    tip := hydrateTip s.conn.durable.rows
    txnDepth := 0 }

/-- The receipts table as this connection sees it. -/
def rows (s : StoreState) : List Row := s.conn.current.rows

/-- The receipts table a new connection would see. -/
def durableRows (s : StoreState) : List Row := s.conn.durable.rows

/-- `sqlite3.OperationalError("database is locked")` -/
def locked : Exc := .operationalError "database is locked"

/-- Run a statement that may meet a transient failure. -/
def statement (f : StoreState → Except Exc StoreState) : Proc StoreState Exc Unit := fun s =>
  match s.faults with
  | true :: rest => (.error locked, { s with faults := rest })
  | _ =>
    match f { s with faults := s.faults.tail } with
    | .ok s' => (.ok (), s')
    | .error e => (.error e, { s with faults := s.faults.tail })

/-- `self._conn.commit()` -/
def commit : Proc StoreState Exc Unit :=
  statement fun s => .ok { s with conn := s.conn.commit }

/-- `execute` issues the implicit BEGIN before it binds the values of the statement. -/
def implicitBegin : Proc StoreState Exc Unit :=
  Proc.modify fun s => { s with conn := s.conn.implicitBegin }

/-- A data-changing statement.  When it fails, its implicit BEGIN stands. -/
def changeTables (f : Tables → Tables) : Proc StoreState Exc Unit := do
  implicitBegin
  statement fun s => .ok { s with conn := s.conn.change f }

/-- The INSERT of `write`: the database assigns the receipt id. -/
def insert (row : Row) : Proc StoreState Exc Unit :=
  changeTables fun t =>
    { t with rows := t.rows ++ [{ row with receiptId := t.seq + 1 }], seq := t.seq + 1 }

/-! ## Arguments of `write` -/

/-- The arguments of `write`, with its defaults. -/
structure WriteArgs where
  op : String
  authority : String
  parameters : PyVal
  failed : Bool := false
  intent : Option String := none
  jurisdiction : String := "session"
  confidence : String := "high"
  sessionDkn : String := ""
  lawHash : String := ""
  legendHash : String := ""
  warrantId : String := ""
  intentRef : String := ""
  compress : Bool := false
  commitTerminalOutcome : Bool := false
  terminalOutcomeOverride : Option String := none
  commitCapabilityEvidence : Bool := false
  capabilityLedger : Option CapabilityEvidenceLedger := none
  effectColumns : Option EffectDescriptor := none
  reconciliationGrade : Option String := none
  reconciliationWarrantSnapshot : Option String := none
  continuation : Option PyVal := none
  bridge : Option PyVal := none
  bridgeVerifier : Option (PyVal → Except Exc (Bool × String)) := none

/-- `intent if intent is not None else op` -/
def WriteArgs.intentText (a : WriteArgs) : String := a.intent.getD a.op

/-- What `write` settles before it takes the lock. -/
structure Resolved where
  effect : Option EffectColumns
  parameters : PyVal
  grade : PyVal
  snapshot : PyVal
  parametersJson : String

/-- An effect column, `None` when the receipt is not effect-bearing. -/
def Resolved.effectValue (r : Resolved) (m : Marker) : PyVal :=
  match r.effect with
  | some cols => cols m
  | none => .none

/-- A typed argument wins over the value promoted out of the parameters. -/
def typedOr (typed : Option String) (promoted : PyVal) : PyVal :=
  match typed with
  | some s => .str s
  | none => promoted

/-- A value promoted out of the parameters. -/
def promoted (parameters : PyVal) (key : String) : PyVal :=
  PyDict.get ((parameters.dict?).getD []) key

/-- The parameters without the reconciliation surface. -/
def stripReconciliation (parameters : PyVal) : PyVal :=
  match parameters with
  | .dict d =>
    if PyDict.has d "reconciliation_grade" || PyDict.has d "reconciliation_warrant_snapshot" then
      .dict (PyDict.erase (PyDict.erase d "reconciliation_grade") "reconciliation_warrant_snapshot")
    else .dict d
  | v => v

/-- The head of `write`: the effect surface, the promotion of the reconciliation surface out of the
    parameters, and `_params_json`. -/
def resolveWrite (env : Env) (a : WriteArgs) : Except Exc Resolved := do
  let (effect, parameters) ← resolveEffectSurface a.parameters a.effectColumns
  let pj ← paramsJson env (stripReconciliation parameters)
  .ok {
    effect := effect
    parameters := stripReconciliation parameters
    grade := typedOr a.reconciliationGrade (promoted parameters "reconciliation_grade")
    snapshot := typedOr a.reconciliationWarrantSnapshot
      (promoted parameters "reconciliation_warrant_snapshot")
    parametersJson := pj }

/-! ## The plan of a write -/

/-- The five commitments of a receipt. -/
structure Commitments where
  hS : Digest
  hC : Digest
  hM : Digest
  hJ : Digest
  hR : Digest

/-- The attenuated capability set at the end of a path; escalation is an error. -/
def effectiveCapabilities (path : List AuthorityEdge) : Except Exc (List String) :=
  match computeEffectiveCapabilities path capabilityVocabulary with
  | some caps => .ok (sortedSet caps)
  | none => .error (.valueError "capability escalation in G_c path")

/-- `h_s`, `h_c`, `h_m`, `h_j` and the root over the seven strict-mode leaves. -/
def commitments (cfg : Config) (built : List String) (tip : Tip) (a : WriteArgs) (parameters : PyVal) :
    Except Exc Commitments := do
  let env := cfg.toEnv
  let policyId := lookupPolicyId cfg a.jurisdiction
  let path ← canonicalPathFor cfg built a.authority
  let capabilities ← effectiveCapabilities path
  let hs ← Ugk.hS env a.op parameters
  let hc ← Ugk.hC env (path.map AuthorityEdge.toCanonicalDict) policyId capabilities
    (if a.warrantId = "" then [] else [a.warrantId]) tip.priorHR
    (buildFreshnessClaimFromEpoch (defaultEpoch env (idPhi0 env)))
  let hm ← Ugk.hM env a.intentText a.intentRef a.legendHash (lineageDicts tip.priorHM tip.priorIntentRef)
    (idSigma0 env)
  let hj ← Ugk.hJ env (idPhi0 env) (mosaicRootPhi0 env) a.sessionDkn (lookupAuthorityKey cfg a.authority)
  let hr ← computeHR env (strictLeaves hs hc hm hj (hIdP env policyId) (hIdSigma env (idSigma0 env))
    (hIdPhi env (idPhi0 env)))
  .ok { hS := hs, hC := hc, hM := hm, hJ := hj, hR := hr }

/-- Whether the write commits a terminal outcome. -/
def WriteArgs.commitsOutcome (a : WriteArgs) : Bool :=
  a.commitTerminalOutcome || a.commitCapabilityEvidence

/-- The committed outcome and reason, checked by `_assert_emittable`. -/
def outcomeSurface (env : Env) (a : WriteArgs) : Except Exc (Option (String × String)) :=
  if a.commitsOutcome then
    let o := deriveCommittedOutcome a.op a.failed a.terminalOutcomeOverride a.intentText
    (assertEmittable env o.1 a.continuation a.bridge a.bridgeVerifier).map fun _ => some o
  else .ok none

/-- The capability-evidence commitment and the ledger it was computed from. -/
def capabilitySurface (env : Env) (a : WriteArgs) :
    Except Exc (Option (Digest × CapabilityEvidenceLedger)) :=
  if a.commitCapabilityEvidence then
    match a.capabilityLedger with
    | none => .error (.valueError "commit_capability_evidence requires a capability_ledger")
    | some l => (capabilityEvidenceCommitment env l).map fun h => some (h, l)
  else .ok none

/-- `_validate_continuation(continuation) if continuation is not None else {}` -/
def continuationSurface (env : Env) (a : WriteArgs) : Except Exc ContinuationColumns :=
  match a.continuation with
  | none => .ok {}
  | some c => validateContinuation env c

/-- `_validate_bridge_record(bridge) if bridge is not None else {}` -/
def bridgeSurface (a : WriteArgs) : Except Exc BridgeColumns :=
  match a.bridge with
  | none => .ok {}
  | some b => validateBridgeRecord b

/-- The optional surfaces of a write. -/
structure Surfaces where
  outcome : Option (String × String)
  capability : Option (Digest × CapabilityEvidenceLedger)
  continuation : ContinuationColumns
  bridge : BridgeColumns

def surfaces (env : Env) (a : WriteArgs) : Except Exc Surfaces := do
  let outcome ← outcomeSurface env a
  let capability ← capabilitySurface env a
  let continuation ← continuationSurface env a
  let bridge ← bridgeSurface a
  .ok { outcome := outcome, capability := capability, continuation := continuation, bridge := bridge }

/-- The nullable columns of a receipt before its trace vector. -/
def columns (c : Commitments) (r : Resolved) (s : Surfaces) : Nullable PyVal :=
  { hJ := .str c.hJ.hex
    terminalOutcome := .ofOpt (s.outcome.map Prod.fst)
    terminalOutcomeModelId := .ofOpt (s.outcome.map fun _ => terminalOutcomeModelId)
    terminalOutcomeReason := .ofOpt (s.outcome.map Prod.snd)
    traceVectorHash := .none
    hCap := .ofOpt (s.capability.map fun x => x.1.hex)
    capabilityEvidenceModelId := .ofOpt (s.capability.map fun _ => capabilityEvidenceModelId)
    capabilityLedgerHash := .ofOpt (s.capability.map fun x => x.2.ledgerHash)
    capabilityRegistryVersion := .ofOpt (s.capability.map fun x => x.2.registryVersion)
    capabilityScopeId := .ofOpt (s.capability.map fun x => x.2.scopeId)
    effectAtomicity := r.effectValue .effectAtomicity
    effectAtomicityModelId := .ofOpt (r.effect.map fun _ => effectAtomicityModelId)
    effectPhase := r.effectValue .phase
    effectPrepareRef := r.effectValue .prepareRef
    effectCompensateRef := r.effectValue .compensateRef
    effectIdempotencyKey := r.effectValue .idempotencyKey
    effectCompensationIdempotencyKey := r.effectValue .compensationIdempotencyKey
    effectAbortReason := r.effectValue .abortReason
    effectGateAdmitRef := r.effectValue .gateAdmitRef
    reconciliationGrade := r.grade
    reconciliationWarrantSnapshot := r.snapshot
    continuationId := s.continuation.id
    continuationOp := s.continuation.op
    continuationAuthority := s.continuation.authority
    continuationParameters := s.continuation.parameters
    continuationJurisdiction := s.continuation.jurisdiction
    continuationExpiryBasis := s.continuation.expiryBasis
    continuationState := s.continuation.state
    continuationModelId := s.continuation.modelId
    bridgeRecordId := s.bridge.recordId
    bridgeSourceRegimeRef := s.bridge.sourceRegimeRef
    bridgeTargetRegimeRef := s.bridge.targetRegimeRef
    bridgeTransformationRef := s.bridge.transformationRef
    bridgeDowngradeReason := s.bridge.downgradeReason
    bridgePreservedEvidenceRef := s.bridge.preservedEvidenceRef }

/-- The receipt before its body hash and trace vector. -/
def draft (tip : Tip) (time : FloatLit) (a : WriteArgs) (c : Commitments) (r : Resolved)
    (s : Surfaces) : Receipt :=
  { columns c r s with
    receiptId := 0
    op := a.op
    authority := a.authority
    parameters := r.parameters
    intent := a.intentText
    jurisdiction := a.jurisdiction
    confidence := a.confidence
    timestamp := .fin time
    failed := a.failed
    sessionDkn := a.sessionDkn
    lawHash := a.lawHash
    legendHash := a.legendHash
    warrantId := a.warrantId
    intentRef := a.intentRef
    hS := c.hS.hex
    hC := c.hC.hex
    hM := c.hM.hex
    hR := c.hR.hex
    parentHR := tip.priorHR
    mode := "strict"
    -- a bridge surface moves the body to its own version
    version := if a.bridge.isSome then 8 else 7
    idCS := idCS
    idCC := idCC
    idCM := idCM
    idCJ := idCJ
    hBody := "" }

/-- The trace vector of an ADMIT or REFUSE receipt. -/
def traceVector (cfg : Config) (s : Surfaces) (r : Receipt) : Except Exc PyVal :=
  match s.outcome with
  | some o =>
    if o.1 = "ADMIT" ∨ o.1 = "REFUSE" then
      (committedTraceVectorHash cfg.toEnv cfg.codexHash r).map fun d => .str d.hex
    else .ok .none
  | none => .ok .none

/-- A draft with its body hash and trace vector. -/
def finish (r : Receipt) (hBody : Digest) (trace : PyVal) : Receipt :=
  { r with hBody := hBody.hex, traceVectorHash := trace }

/-- The receipt of a write. -/
def planReceipt (cfg : Config) (built : List String) (tip : Tip) (time : FloatLit) (a : WriteArgs)
    (r : Resolved) : Except Exc Receipt := do
  let c ← commitments cfg built tip a r.parameters
  let s ← surfaces cfg.toEnv a
  let hBody ← computeHBody cfg.toEnv (draft tip time a c r s)
  let trace ← traceVector cfg s (finish (draft tip time a c r s) hBody .none)
  .ok (finish (draft tip time a c r s) hBody trace)

/-- The receipt of a write and the row its INSERT binds. -/
def planWrite (cfg : Config) (built : List String) (tip : Tip) (time : FloatLit) (a : WriteArgs)
    (r : Resolved) : Except Exc (Receipt × Row) := do
  let receipt ← planReceipt cfg built tip time a r
  let row ← rowOfReceipt cfg.toEnv a.compress r.parametersJson receipt
  .ok (receipt, row)

/-! ## `write` -/

/-- The clock: `time.time()` returns the next reading. -/
abbrev Clock := Nat → FloatLit

/-- `time.time()` -/
def now (clock : Clock) : Proc StoreState Exc FloatLit := fun s =>
  (.ok (clock s.ticks), { s with ticks := s.ticks + 1 })

/-- Build the default edge of an authority. -/
def ensureEdge (cfg : Config) (authority : String) : Proc StoreState Exc Unit :=
  Proc.modify fun s => { s with built := ensureDefaultEdgeFor cfg s.built authority }

/-- The commit of a write at depth 0; deeper it belongs to the enclosing transaction. -/
def commitUnlessNested : Proc StoreState Exc Unit := do
  let s ← Proc.get
  if s.txnDepth = 0 then commit else pure ()

/-- Move the chain tip to a receipt. -/
def advanceTip (receipt : Receipt) : Proc StoreState Exc Unit :=
  Proc.modify fun s => { s with tip := {
    priorHR := receipt.hR, priorHM := some receipt.hM, priorIntentRef := some receipt.intentRef } }

/-- `UGKReceiptStore.write` -/
def write (cfg : Config) (clock : Clock) (a : WriteArgs) : Proc StoreState Exc Receipt := do
  let r ← Proc.lift (resolveWrite cfg.toEnv a)
  let time ← now clock
  ensureEdge cfg a.authority
  let s ← Proc.get
  let receipt ← Proc.lift (planReceipt cfg s.built s.tip time a r)
  implicitBegin
  let row ← Proc.lift (rowOfReceipt cfg.toEnv a.compress r.parametersJson receipt)
  insert row
  let s ← Proc.get
  commitUnlessNested
  advanceTip receipt
  pure { receipt with receiptId := s.conn.current.seq }

/-! ## `transaction` -/

/-- What `transaction` remembers on entry. -/
structure Txn where
  name : Nat
  tip : Tip

/-- Entry of the transaction: snapshot, SAVEPOINT, one level deeper. -/
def beginTxn : Proc StoreState Exc Txn := fun s =>
  (.ok { name := s.spCounter, tip := s.tip },
    { s with
      conn := s.conn.savepoint s.spCounter
      spCounter := s.spCounter + 1
      txnDepth := s.txnDepth + 1 })

def noSuchSavepoint : Exc := .operationalError "no such savepoint"

/-- `ROLLBACK TO SAVEPOINT`, which meets no transient failure. -/
def rollbackTo (name : Nat) : Proc StoreState Exc Unit := fun s =>
  match s.conn.rollbackTo name with
  | some conn => (.ok (), { s with conn := conn })
  | none => (.error noSuchSavepoint, s)

/-- `RELEASE SAVEPOINT` -/
def release (name : Nat) : Proc StoreState Exc Unit :=
  statement fun s =>
    match s.conn.release name with
    | some conn => .ok { s with conn := conn }
    | none => .error noSuchSavepoint

def restoreTip (tip : Tip) : Proc StoreState Exc Unit := Proc.modify fun s => { s with tip := tip }

def leaveTxn : Proc StoreState Exc Unit := Proc.modify fun s => { s with txnDepth := s.txnDepth - 1 }

/-- ROLLBACK TO and RELEASE. -/
def rollbackAndRelease (name : Nat) : Proc StoreState Exc Unit := do
  rollbackTo name
  release name

/-- Exit after an exception: roll back, and restore the tip whatever the rollback does. -/
def abortTxn (t : Txn) : Proc StoreState Exc Unit := do
  leaveTxn
  let r ← Proc.attempt (rollbackAndRelease t.name)
  restoreTip t.tip
  Proc.lift r

/-- `TransactionCommitError` of a RELEASE that failed. -/
def releaseFailed : Exc :=
  .transactionCommitError "clean-path RELEASE failed; transition did not durably commit"

/-- Clean exit: RELEASE.  When it fails the block is rolled back as far as possible and the
    transition fails with `TransactionCommitError`. -/
def commitTxn (t : Txn) : Proc StoreState Exc Unit := do
  leaveTxn
  match ← Proc.attempt (release t.name) with
  | .ok () => pure ()
  | .error _ =>
    let _ ← Proc.attempt (rollbackAndRelease t.name)
    restoreTip t.tip
    Proc.raise releaseFailed

/-- `with store.transaction(): body`, for a body on a larger state that holds the store. -/
def transaction {σ α : Type} (onStore : ∀ {β : Type}, Proc StoreState Exc β → Proc σ Exc β)
    (body : Proc σ Exc α) : Proc σ Exc α := do
  let t ← onStore beginTxn
  match ← Proc.attempt body with
  | .ok a =>
    onStore (commitTxn t)
    pure a
  | .error e =>
    onStore (abortTxn t)
    Proc.raise e

/-- `with store.transaction(): body` -/
def block {α : Type} (body : Proc StoreState Exc α) : Proc StoreState Exc α :=
  transaction (fun m => m) body

/-! ## Archives -/

/-- `INSERT OR IGNORE` into an archive, then `commit`; every exception is swallowed. -/
def sealArchive (row : ArchiveRow) : Proc StoreState Exc Unit := do
  let _ ← Proc.attempt (do
    changeTables fun t =>
      if t.archive.any (fun old => old.key == row.key) then t
      else { t with archive := t.archive ++ [row] }
    commit : Proc StoreState Exc Unit)
  pure ()

/-- `seal_legend` -/
def sealLegend (legendHash entriesJson phaseCode : String) (entryCount : Nat) (sealedAt : String) :
    Proc StoreState Exc Unit :=
  sealArchive (.legend legendHash entriesJson phaseCode entryCount sealedAt)

/-- `seal_scope` -/
def sealScope (scope : ProvenanceScope) : Proc StoreState Exc Unit := sealArchive (.scope scope)

/-- `seal_authority_model` -/
def sealAuthorityModel (model : AuthorityModel) : Proc StoreState Exc Unit :=
  sealArchive (.authorityModel model)

end Store

/-! ## Reading -/

/-- `all_receipts` -/
def allReceipts (env : Env) (rows : List Row) : Except Exc (List Receipt) :=
  rows.mapM (rowToReceipt env)

/-- `stream_hash` -/
def streamHash (rows : List Row) : String :=
  match rows.getLast? with
  | some r => orText r.hR genesis
  | none => genesis

/-- `committed_height`, also `receipt_count` -/
def committedHeight (rows : List Row) : Nat := rows.length

/-- `refusal_count` compares the stored text. -/
def refusalCount (rows : List Row) : Nat := rows.countP fun r => r.op == "gate_refuse"

/-- The latest receipt with this continuation id. -/
def latestContinuation (receipts : List Receipt) (cid : String) : Option Receipt :=
  receipts.reverse.find? fun r => r.continuationId.isStr cid

/-- `find_continuation` -/
def findContinuation (env : Env) (rows : List Row) (cid : String) : Except Exc (Option Receipt) :=
  if cid = "" then .ok none
  else (allReceipts env rows).map fun receipts => latestContinuation receipts cid

/-! ## Verification -/

/-- The receipts after a checkpoint, with the hash the first of them links to; `none` when no
    receipt has the checkpoint's `h_r`. -/
def afterCheckpoint : List Receipt → Option String → Option (String × List Receipt)
  | receipts, none => some (genesis, receipts)
  | [], some _ => none
  | r :: rest, some ck => if r.hR = ck then some (ck, rest) else afterCheckpoint rest (some ck)

/-- The linkage loop of `verify_stream_hash`. -/
def linked : String → List Receipt → Bool
  | _, [] => true
  | prior, r :: rest => r.hR != "" && r.parentHR == prior && linked r.hR rest

/-- `verify_stream_hash` -/
def verifyStreamHash (env : Env) (rows : List Row) (checkpoint : Option String := none) :
    Except Exc Bool :=
  (allReceipts env rows).map fun receipts =>
    receipts.isEmpty ||
      match afterCheckpoint receipts checkpoint with
      | none => false
      | some (prior, rest) => linked prior rest

/-- The scan of `last_valid_frontier`: the answer at the first link that is broken is the receipt
    before it. -/
def frontierFrom : String → Option Nat → List Receipt → Option Nat
  | _, _, [] => none
  | prior, lastValid, r :: rest =>
    if r.hR = "" ∨ r.parentHR ≠ prior then lastValid
    else frontierFrom r.hR (some r.receiptId) rest

/-- `last_valid_frontier` -/
def lastValidFrontier (env : Env) (rows : List Row) : Except Exc (Option Nat) :=
  (allReceipts env rows).map fun receipts =>
    if receipts.isEmpty then none else frontierFrom genesis none receipts

/-- The receipt whose body `verify_receipt_bodies` recomputes: its call of `compute_h_body` has no
    keyword for the two reconciliation fields. -/
def verifiedBody (r : Receipt) : Receipt :=
  { r with reconciliationGrade := .none, reconciliationWarrantSnapshot := .none }

/-- The state commitment check of one receipt. -/
def verifyState (env : Env) (r : Receipt) : Except Exc Bool :=
  if r.hS = "" then .ok true else (hS env r.op r.parameters).map fun d => d.hex == r.hS

/-- The body commitment check of one receipt. -/
def verifyBody (env : Env) (r : Receipt) : Except Exc Bool :=
  if r.hBody = "" then .ok false
  else (computeHBody env (verifiedBody r)).map fun d => d.hex == r.hBody

/-- One round of `verify_receipt_bodies`. -/
def verifyReceipt (env : Env) (r : Receipt) : Except Exc Bool := do
  if ← verifyState env r then verifyBody env r else .ok false

/-- The loop of `verify_receipt_bodies`. -/
def verifyReceipts (env : Env) : List Receipt → Except Exc Bool
  | [] => .ok true
  | r :: rest => do if ← verifyReceipt env r then verifyReceipts env rest else .ok false

/-- `verify_receipt_bodies` -/
def verifyReceiptBodies (env : Env) (rows : List Row) (checkpoint : Option String := none) :
    Except Exc Bool := do
  let receipts ← allReceipts env rows
  if receipts.isEmpty then .ok true
  else
    match afterCheckpoint receipts checkpoint with
    | none => .ok false
    | some (_, rest) => verifyReceipts env rest

/-- The levels of `VerificationLevel` that `verify_chain` reports. -/
inductive VerificationLevel where
  | linkage
  | body
deriving DecidableEq, Repr

/-- The `CorruptionKind` that `verify_chain` reports. -/
inductive CorruptionKind where
  | corrupt
deriving DecidableEq, Repr

/-- `VerificationResult` -/
structure VerificationResult where
  achieved : VerificationLevel
  required : VerificationLevel
  corruption : Option CorruptionKind
  detail : String
deriving DecidableEq, Repr

/-- `VerificationResult.ok` -/
def VerificationResult.ok (r : VerificationResult) : Bool :=
  r.corruption == none && (r.achieved == .body || r.required == .linkage)

/-- The result for intact linkage and bodies. -/
def chainEstablished : VerificationResult :=
  ⟨.body, .body, none, "LINKAGE + BODY established"⟩

/-- `verify_chain` -/
def verifyChain (env : Env) (rows : List Row) (checkpoint : Option String := none) :
    Except Exc VerificationResult := do
  if !(← verifyStreamHash env rows checkpoint) then
    .ok ⟨.linkage, .body, some .corrupt,
      "M2 chain linkage broken (ordering / parent_h_r / truncation / relink)"⟩
  else if !(← verifyReceiptBodies env rows checkpoint) then
    .ok ⟨.linkage, .body, some .corrupt,
      "receipt body tamper: a committed field does not match the recomputed full-body commitment (h_body) or h_s, or a checkpoint is missing"⟩
  else .ok chainEstablished

end Ugk
