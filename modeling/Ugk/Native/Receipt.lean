import Ugk.Native.Legend
import Ugk.Native.BindingM2

/-!
# Receipts, rows and the body commitment

`ugk/storage/store.py`: the `Receipt` dataclass, the `receipts` table, `compute_h_body` and
`_row_to_receipt`.  The nullable columns are one record over the type of their values: Python
values in a receipt, nullable text in a row.
-/

namespace Ugk

/-- The nullable columns of the `receipts` table. -/
structure Nullable (α : Type) where
  hJ : α
  terminalOutcome : α
  terminalOutcomeModelId : α
  terminalOutcomeReason : α
  traceVectorHash : α
  hCap : α
  capabilityEvidenceModelId : α
  capabilityLedgerHash : α
  capabilityRegistryVersion : α
  capabilityScopeId : α
  effectAtomicity : α
  effectAtomicityModelId : α
  effectPhase : α
  effectPrepareRef : α
  effectCompensateRef : α
  effectIdempotencyKey : α
  effectCompensationIdempotencyKey : α
  effectAbortReason : α
  effectGateAdmitRef : α
  reconciliationGrade : α
  reconciliationWarrantSnapshot : α
  continuationId : α
  continuationOp : α
  continuationAuthority : α
  continuationParameters : α
  continuationJurisdiction : α
  continuationExpiryBasis : α
  continuationState : α
  continuationModelId : α
  bridgeRecordId : α
  bridgeSourceRegimeRef : α
  bridgeTargetRegimeRef : α
  bridgeTransformationRef : α
  bridgeDowngradeReason : α
  bridgePreservedEvidenceRef : α

namespace Nullable

variable {α β : Type}

/-- Apply a function to every column. -/
def map (f : α → β) (n : Nullable α) : Nullable β where
  hJ := f n.hJ
  terminalOutcome := f n.terminalOutcome
  terminalOutcomeModelId := f n.terminalOutcomeModelId
  terminalOutcomeReason := f n.terminalOutcomeReason
  traceVectorHash := f n.traceVectorHash
  hCap := f n.hCap
  capabilityEvidenceModelId := f n.capabilityEvidenceModelId
  capabilityLedgerHash := f n.capabilityLedgerHash
  capabilityRegistryVersion := f n.capabilityRegistryVersion
  capabilityScopeId := f n.capabilityScopeId
  effectAtomicity := f n.effectAtomicity
  effectAtomicityModelId := f n.effectAtomicityModelId
  effectPhase := f n.effectPhase
  effectPrepareRef := f n.effectPrepareRef
  effectCompensateRef := f n.effectCompensateRef
  effectIdempotencyKey := f n.effectIdempotencyKey
  effectCompensationIdempotencyKey := f n.effectCompensationIdempotencyKey
  effectAbortReason := f n.effectAbortReason
  effectGateAdmitRef := f n.effectGateAdmitRef
  reconciliationGrade := f n.reconciliationGrade
  reconciliationWarrantSnapshot := f n.reconciliationWarrantSnapshot
  continuationId := f n.continuationId
  continuationOp := f n.continuationOp
  continuationAuthority := f n.continuationAuthority
  continuationParameters := f n.continuationParameters
  continuationJurisdiction := f n.continuationJurisdiction
  continuationExpiryBasis := f n.continuationExpiryBasis
  continuationState := f n.continuationState
  continuationModelId := f n.continuationModelId
  bridgeRecordId := f n.bridgeRecordId
  bridgeSourceRegimeRef := f n.bridgeSourceRegimeRef
  bridgeTargetRegimeRef := f n.bridgeTargetRegimeRef
  bridgeTransformationRef := f n.bridgeTransformationRef
  bridgeDowngradeReason := f n.bridgeDowngradeReason
  bridgePreservedEvidenceRef := f n.bridgePreservedEvidenceRef

/-- The columns in table order. -/
def toList (n : Nullable α) : List α := [
    n.hJ, n.terminalOutcome, n.terminalOutcomeModelId, n.terminalOutcomeReason,
    n.traceVectorHash, n.hCap, n.capabilityEvidenceModelId, n.capabilityLedgerHash,
    n.capabilityRegistryVersion, n.capabilityScopeId, n.effectAtomicity,
    n.effectAtomicityModelId, n.effectPhase, n.effectPrepareRef, n.effectCompensateRef,
    n.effectIdempotencyKey, n.effectCompensationIdempotencyKey, n.effectAbortReason,
    n.effectGateAdmitRef, n.reconciliationGrade, n.reconciliationWarrantSnapshot,
    n.continuationId, n.continuationOp, n.continuationAuthority, n.continuationParameters,
    n.continuationJurisdiction, n.continuationExpiryBasis, n.continuationState,
    n.continuationModelId, n.bridgeRecordId, n.bridgeSourceRegimeRef, n.bridgeTargetRegimeRef,
    n.bridgeTransformationRef, n.bridgeDowngradeReason, n.bridgePreservedEvidenceRef]

/-- Every column has the same value. -/
def replicate (a : α) : Nullable α where
  hJ := a
  terminalOutcome := a
  terminalOutcomeModelId := a
  terminalOutcomeReason := a
  traceVectorHash := a
  hCap := a
  capabilityEvidenceModelId := a
  capabilityLedgerHash := a
  capabilityRegistryVersion := a
  capabilityScopeId := a
  effectAtomicity := a
  effectAtomicityModelId := a
  effectPhase := a
  effectPrepareRef := a
  effectCompensateRef := a
  effectIdempotencyKey := a
  effectCompensationIdempotencyKey := a
  effectAbortReason := a
  effectGateAdmitRef := a
  reconciliationGrade := a
  reconciliationWarrantSnapshot := a
  continuationId := a
  continuationOp := a
  continuationAuthority := a
  continuationParameters := a
  continuationJurisdiction := a
  continuationExpiryBasis := a
  continuationState := a
  continuationModelId := a
  bridgeRecordId := a
  bridgeSourceRegimeRef := a
  bridgeTargetRegimeRef := a
  bridgeTransformationRef := a
  bridgeDowngradeReason := a
  bridgePreservedEvidenceRef := a

end Nullable

/-- `Receipt` -/
structure Receipt extends Nullable PyVal where
  receiptId : Nat
  op : String
  authority : String
  parameters : PyVal
  intent : String
  jurisdiction : String
  confidence : String
  timestamp : PyFloat
  failed : Bool
  sessionDkn : String
  lawHash : String
  legendHash : String
  warrantId : String
  intentRef : String
  hS : String
  hC : String
  hM : String
  hR : String
  parentHR : String
  mode : String
  version : Int
  idCS : String
  idCC : String
  idCM : String
  idCJ : String
  hBody : String

/-- A row of the `receipts` table. -/
structure Row extends Nullable (Option String) where
  receiptId : Nat
  op : String
  authority : String
  parameters : String
  intent : String
  jurisdiction : String
  confidence : String
  timestamp : PyFloat
  failed : Int
  sessionDkn : String
  lawHash : String
  legendHash : String
  warrantId : String
  intentRef : String
  hS : String
  hC : String
  hM : String
  hR : String
  parentHR : String
  mode : String
  version : Int
  idCS : String
  idCC : String
  idCM : String
  idCJ : String
  hBody : String

/-- `GENESIS`: the prior hash of the first receipt. -/
def genesis : String := "0000000000000000000000000000000000000000000000000000000000000000"

/-! ## The body commitment -/

/-- `v or d` for a text column. -/
def orText (s d : String) : String := if s = "" then d else s

/-- `h_j or ""` -/
def orEmpty (v : PyVal) : PyVal := if v.truthy then v else .str ""

/-- The members every body has. -/
def Receipt.baseFields (r : Receipt) : List (String × PyVal) := [
  ("op", .str r.op), ("authority", .str r.authority), ("parameters", r.parameters),
  ("intent", .str r.intent), ("jurisdiction", .str r.jurisdiction),
  ("confidence", .str r.confidence), ("timestamp", .float r.timestamp),
  ("failed", .bool r.failed), ("session_dkn", .str r.sessionDkn), ("law_hash", .str r.lawHash),
  ("legend_hash", .str r.legendHash), ("warrant_id", .str r.warrantId),
  ("intent_ref", .str r.intentRef), ("h_s", .str r.hS), ("h_c", .str r.hC), ("h_m", .str r.hM),
  ("h_j", orEmpty r.hJ), ("h_r", .str r.hR), ("parent_h_r", .str r.parentHR),
  ("mode", .str r.mode), ("version", .int r.version), ("id_c_s", .str r.idCS),
  ("id_c_c", .str r.idCC), ("id_c_m", .str r.idCM), ("id_c_j", .str r.idCJ)]

/-- UGK-BODY-v2: the terminal-outcome projection. -/
def Receipt.terminalFields (r : Receipt) : List (String × PyVal) := [
  ("terminal_outcome", r.terminalOutcome),
  ("terminal_outcome_model_id", r.terminalOutcomeModelId),
  ("terminal_outcome_reason", r.terminalOutcomeReason)]

/-- UGK-BODY-v3: the capability-evidence commitment. -/
def Receipt.capabilityFields (r : Receipt) : List (String × PyVal) := [
  ("h_cap", r.hCap), ("capability_evidence_model_id", r.capabilityEvidenceModelId),
  ("capability_ledger_hash", r.capabilityLedgerHash),
  ("capability_registry_version", r.capabilityRegistryVersion),
  ("capability_scope_id", r.capabilityScopeId)]

/-- UGK-BODY-v4: the typed effect surface. -/
def Receipt.effectFields (r : Receipt) : List (String × PyVal) := [
  ("effect_atomicity", r.effectAtomicity),
  ("effect_atomicity_model_id", r.effectAtomicityModelId), ("effect_phase", r.effectPhase),
  ("effect_prepare_ref", r.effectPrepareRef), ("effect_compensate_ref", r.effectCompensateRef),
  ("effect_idempotency_key", r.effectIdempotencyKey),
  ("effect_compensation_idempotency_key", r.effectCompensationIdempotencyKey),
  ("effect_abort_reason", r.effectAbortReason), ("effect_gate_admit_ref", r.effectGateAdmitRef)]

/-- UGK-BODY-v6: the verified-grade reconciliation surface. -/
def Receipt.reconciliationFields (r : Receipt) : List (String × PyVal) := [
  ("reconciliation_grade", r.reconciliationGrade),
  ("reconciliation_warrant_snapshot", r.reconciliationWarrantSnapshot)]

/-- UGK-BODY-v7: the continuation surface. -/
def Receipt.continuationFields (r : Receipt) : List (String × PyVal) := [
  ("continuation_id", r.continuationId), ("continuation_op", r.continuationOp),
  ("continuation_authority", r.continuationAuthority),
  ("continuation_parameters", r.continuationParameters),
  ("continuation_jurisdiction", r.continuationJurisdiction),
  ("continuation_expiry_basis", r.continuationExpiryBasis),
  ("continuation_state", r.continuationState), ("continuation_model_id", r.continuationModelId)]

/-- UGK-BODY-v8: the bridge surface. -/
def Receipt.bridgeFields (r : Receipt) : List (String × PyVal) := [
  ("bridge_record_id", r.bridgeRecordId), ("bridge_source_regime_ref", r.bridgeSourceRegimeRef),
  ("bridge_target_regime_ref", r.bridgeTargetRegimeRef),
  ("bridge_transformation_ref", r.bridgeTransformationRef),
  ("bridge_downgrade_reason", r.bridgeDowngradeReason),
  ("bridge_preserved_evidence_ref", r.bridgePreservedEvidenceRef)]

/-- The body dictionary of `compute_h_body`: each version commits its block and those before. -/
def Receipt.bodyFields (r : Receipt) : List (String × PyVal) :=
  r.baseFields ++ (if 2 ≤ r.version then r.terminalFields else []) ++
    (if 3 ≤ r.version then r.capabilityFields else []) ++
    (if 4 ≤ r.version then r.effectFields else []) ++
    (if 6 ≤ r.version then r.reconciliationFields else []) ++
    (if 7 ≤ r.version then r.continuationFields else []) ++
    (if 8 ≤ r.version then r.bridgeFields else [])

/-- The domain tag of a body version. -/
def bodyTag (version : Int) : String :=
  if 8 ≤ version then "UGK-BODY-v8"
  else if 7 ≤ version then "UGK-BODY-v7"
  else if 6 ≤ version then "UGK-BODY-v6"
  else if 5 ≤ version then "UGK-BODY-v5"
  else if 4 ≤ version then "UGK-BODY-v4"
  else if 3 ≤ version then "UGK-BODY-v3"
  else if 2 ≤ version then "UGK-BODY-v2"
  else "UGK-BODY-v1"

/-- `compute_h_body` over the fields of a receipt. -/
def computeHBody (env : Env) (r : Receipt) : Except Exc Digest :=
  (canonicalJson env (strDict r.bodyFields)).map fun c =>
    env.sha256 (strMsg (bodyTag r.version) ++ text c)

/-! ## Between receipts and rows -/

/-- Values `sqlite3` accepts as a parameter: integers must fit 64 bits. -/
def bindable : PyVal → Bool
  | .none => true
  | .bool _ => true
  | .int n => -9223372036854775808 ≤ n && n ≤ 9223372036854775807
  | .float _ => true
  | .str _ => true
  | .list _ => false
  | .tuple _ => false
  | .dict _ => false
  | .other _ => false

/-- What a TEXT column stores for a bound value. -/
def columnText (env : Env) : PyVal → Option String
  | .none => none
  | .bool b => some (if b then "1" else "0")
  | .int n => some (String.ofList (Json.intText n))
  | .float x => env.sqliteFloatText x
  | .str s => some s
  | _ => none

/-- The four compressible columns as `write` stores them. -/
def storeField (compress : Bool) (f : CompressedField) (v : String) : String :=
  if compress then compressField f v else v

/-- The parameters of the INSERT: `pj` is the serialised parameter dictionary. -/
def rowOfReceipt (env : Env) (compress : Bool) (pj : String) (r : Receipt) : Except Exc Row :=
  if r.toNullable.toList.all bindable then
    .ok { r.toNullable.map (columnText env) with
      receiptId := r.receiptId
      op := storeField compress .op r.op
      authority := r.authority
      parameters := pj
      intent := storeField compress .intent r.intent
      jurisdiction := storeField compress .jurisdiction r.jurisdiction
      confidence := storeField compress .confidence r.confidence
      timestamp := r.timestamp
      failed := if r.failed then 1 else 0
      sessionDkn := r.sessionDkn
      lawHash := r.lawHash
      legendHash := r.legendHash
      warrantId := r.warrantId
      intentRef := r.intentRef
      hS := r.hS
      hC := r.hC
      hM := r.hM
      hR := r.hR
      parentHR := r.parentHR
      mode := r.mode
      version := r.version
      idCS := r.idCS
      idCC := r.idCC
      idCM := r.idCM
      idCJ := r.idCJ
      hBody := r.hBody }
  else .error (.bindError "Error binding parameter")

/-- `_row_to_receipt` -/
def rowToReceipt (env : Env) (row : Row) : Except Exc Receipt :=
  (loads env row.parameters).map fun parameters =>
    { row.toNullable.map PyVal.ofOpt with
      receiptId := row.receiptId
      op := expand env row.op
      authority := row.authority
      parameters := parameters
      intent := expand env row.intent
      jurisdiction := expand env row.jurisdiction
      confidence := expand env row.confidence
      timestamp := row.timestamp
      failed := row.failed != 0
      sessionDkn := row.sessionDkn
      lawHash := row.lawHash
      legendHash := row.legendHash
      warrantId := row.warrantId
      intentRef := row.intentRef
      hS := row.hS
      hC := row.hC
      hM := row.hM
      hR := row.hR
      parentHR := row.parentHR
      mode := orText row.mode "strict"
      version := if row.version = 0 then 1 else row.version
      idCS := orText row.idCS "c_s.v1"
      idCC := orText row.idCC "c_c.v1"
      idCM := orText row.idCM "c_m.v1+sigma_0"
      idCJ := orText row.idCJ "c_j.v1"
      hBody := row.hBody }

end Ugk
