import Ugk.Native.Receipt

/-!
# Optional surfaces of a write

`ugk/storage/store.py`: the committed terminal outcome, the continuation record and the bridge
record with their fail-closed validation; `ugk/cgp/dispatch.py`: the capability-evidence
commitment; `ugk/fga/trace_vector.py`: the trace vector hash.
-/

namespace Ugk

/-! ## Terminal outcome -/

def terminalOutcomeModelId : String := "terminal_outcome_model_v1"

/-- `TERMINAL_OUTCOME_DOMAIN` -/
def terminalOutcomeDomain : List String :=
  ["ADMIT", "REFUSE", "DEFER", "STRUCTURAL_ERROR", "BRIDGE", "CRISIS"]

/-- `EMITTABLE_OUTCOMES` -/
def emittableOutcomes : List String := ["ADMIT", "REFUSE", "STRUCTURAL_ERROR"]

/-- `_derive_committed_outcome`: the outcome and its reason. -/
def deriveCommittedOutcome (op : String) (failed : Bool) (override : Option String)
    (intent : String) : String × String :=
  match override with
  | some o => (o, intent)
  | none =>
    if op = "gate_refuse" then ("REFUSE", "constitutional-refusal")
    else if op = "protocol_error" then ("STRUCTURAL_ERROR", orText intent "protocol_error")
    else ("ADMIT", if failed then "admitted-effect-aborted" else "all-surfaces-pass")

/-! ## Continuation record -/

def continuationRecordModelId : String := "continuation_record_model_v1"

/-- `CONTINUATION_STATE_DOMAIN` -/
def continuationStateDomain : List String := ["HELD", "RESUMED", "RESOLVED", "EXPIRED", "REFUSED"]

/-- `CONTINUATION_EXPIRY_KIND_DOMAIN` -/
def continuationExpiryKindDomain : List String := ["receipt_height", "explicit_trigger"]

/-- The eight continuation columns. -/
structure ContinuationColumns where
  id : PyVal := .none
  op : PyVal := .none
  authority : PyVal := .none
  parameters : PyVal := .none
  jurisdiction : PyVal := .none
  expiryBasis : PyVal := .none
  state : PyVal := .none
  modelId : PyVal := .none

/-- `compute_continuation_id` -/
def computeContinuationId (env : Env) (op authority parameters jurisdiction anchor : PyVal) :
    Except Exc Digest :=
  (canonicalJson env (strDict [("op", op), ("authority", authority), ("parameters", parameters),
    ("jurisdiction", jurisdiction), ("anchor", anchor)])).map fun c =>
      env.sha256 (strMsg "UGK-CONT-v1" ++ text c)

/-- `_canon_eb` -/
def canonEb (env : Env) (v : PyVal) : Except Exc PyVal :=
  if v.isNone then .ok .none else (paramsJson env v).map .str

/-- The checks of `_validate_continuation` on the lifecycle marker and the expiry basis. -/
def validateContinuationShape (c : PyDict) : Except Exc Unit :=
  match (PyDict.get c "state").memberOf continuationStateDomain with
  | .error e => .error e
  | .ok false => .error (.valueError "continuation_state not in closed domain")
  | .ok true =>
    if PyDict.has c "model_id" && !(PyDict.get c "model_id").isStr continuationRecordModelId then
      .error (.valueError "continuation_model_id mismatch")
    else
      match PyDict.get c "expiry_basis" with
      | .dict eb =>
        if eb.length = 2 ∧ PyDict.has eb "kind" = true ∧ PyDict.has eb "value" = true then
          match (PyDict.get eb "kind").memberOf continuationExpiryKindDomain with
          | .error e => .error e
          | .ok false => .error (.valueError "continuation expiry kind not in closed domain (no wall-clock)")
          | .ok true =>
            if (PyDict.get eb "kind").isStr "receipt_height" then
              match PyDict.get eb "value" with
              | .int _ => .ok ()
              | .bool _ => .ok ()
              | _ => .error (.valueError "receipt_height expiry value must be an int")
            else .ok ()
        else .error (.valueError "continuation_expiry_basis must be a dict {kind, value}")
      | _ => .error (.valueError "continuation_expiry_basis must be a dict {kind, value}")

/-- The identifier of `_validate_continuation`: recomputed when an anchor is supplied, carried
    otherwise. -/
def continuationIdOf (env : Env) (c : PyDict) : Except Exc PyVal :=
  let cid := PyDict.get c "id"
  if !(PyDict.get c "anchor").isNone then
    match computeContinuationId env (PyDict.get c "op") (PyDict.get c "authority")
        (PyDict.get c "parameters") (PyDict.get c "jurisdiction") (PyDict.get c "anchor") with
    | .error e => .error e
    | .ok expect =>
      if !cid.isNone && !cid.isStr expect.hex then
        .error (.valueError "continuation_id is not the deterministic recomputation of its payload+anchor")
      else .ok (.str expect.hex)
  else
    match cid with
    | .str s => if s = "" then .error (.valueError "continuation_id required") else .ok (.str s)
    | _ => .error (.valueError "continuation_id required")

/-- The authority column: a string as it is, anything else as JSON. -/
def continuationAuthorityText (env : Env) (v : PyVal) : Except Exc PyVal :=
  match v with
  | .str a => .ok (.str a)
  | v => canonEb env v

/-- `_validate_continuation` -/
def validateContinuation (env : Env) (c : PyVal) : Except Exc ContinuationColumns :=
  match c with
  | .dict d => do
    validateContinuationShape d
    match PyDict.get d "op" with
    | .str op =>
      if op = "" then .error (.valueError "continuation_op must be a non-empty string")
      else do
        let cid ← continuationIdOf env d
        let expiry ← canonEb env (PyDict.get d "expiry_basis")
        let authority ← continuationAuthorityText env (PyDict.get d "authority")
        let parameters ← canonEb env (PyDict.get d "parameters")
        .ok {
          id := cid
          op := .str op
          authority := authority
          parameters := parameters
          jurisdiction := PyDict.get d "jurisdiction"
          expiryBasis := expiry
          state := PyDict.get d "state"
          modelId := .str continuationRecordModelId }
    | _ => .error (.valueError "continuation_op must be a non-empty string")
  | _ => .error (.valueError "continuation must be a dict")

/-! ## Bridge record -/

/-- `BRIDGE_DOWNGRADE_TAXONOMY` -/
def bridgeDowngradeTaxonomy : List String :=
  ["jurisdiction_crossing", "semantic_downgrade", "regime_translation"]

/-- `_BRIDGE_REQUIRED_REFS` -/
def bridgeRequiredRefs : List String := ["bridge_source_regime_ref", "bridge_target_regime_ref",
  "bridge_transformation_ref", "bridge_preserved_evidence_ref"]

/-- The six bridge columns. -/
structure BridgeColumns where
  recordId : PyVal := .none
  sourceRegimeRef : PyVal := .none
  targetRegimeRef : PyVal := .none
  transformationRef : PyVal := .none
  downgradeReason : PyVal := .none
  preservedEvidenceRef : PyVal := .none

/-- `isinstance(v, str) and v` -/
def nonEmptyStr : PyVal → Bool
  | .str s => s != ""
  | _ => false

/-- `_validate_bridge_record` -/
def validateBridgeRecord (b : PyVal) : Except Exc BridgeColumns :=
  match b with
  | .dict d =>
    if !nonEmptyStr (PyDict.get d "bridge_record_id") then
      .error (.valueError "bridge_record_id (BridgeRecord artifact hash) required, non-empty")
    else if !bridgeRequiredRefs.all (fun k => nonEmptyStr (PyDict.get d k)) then
      .error (.valueError "bridge surface field required, non-empty string")
    else
      match (PyDict.get d "bridge_downgrade_reason").memberOf bridgeDowngradeTaxonomy with
      | .error e => .error e
      | .ok false => .error (.valueError "bridge_downgrade_reason not in closed taxonomy")
      | .ok true => .ok {
          recordId := PyDict.get d "bridge_record_id"
          sourceRegimeRef := PyDict.get d "bridge_source_regime_ref"
          targetRegimeRef := PyDict.get d "bridge_target_regime_ref"
          transformationRef := PyDict.get d "bridge_transformation_ref"
          downgradeReason := PyDict.get d "bridge_downgrade_reason"
          preservedEvidenceRef := PyDict.get d "bridge_preserved_evidence_ref" }
  | _ => .error (.valueError "bridge surface must be a dict")

/-! ## Emittable outcomes -/

/-- `_assert_emittable` -/
def assertEmittable (env : Env) (outcome : String) (continuation bridge : Option PyVal)
    (bridgeVerifier : Option (PyVal → Except Exc (Bool × String))) : Except Exc Unit :=
  if outcome ∉ terminalOutcomeDomain then
    .error (.valueError "terminal_outcome not in closed LM-2 domain")
  else if outcome = "DEFER" then
    match continuation with
    | some (.dict c) =>
      if (PyDict.get c "state").isStr "HELD" then
        (validateContinuation env (.dict c)).map fun _ => ()
      else .error (.reservedOutcomeError "DEFER requires a valid HELD continuation record")
    | _ => .error (.reservedOutcomeError "DEFER requires a valid HELD continuation record")
  else if outcome = "BRIDGE" then
    match bridge with
    | some (.dict b) =>
      if b.isEmpty then .error (.reservedOutcomeError "BRIDGE requires a committed v8 bridge surface")
      else
        match bridgeVerifier with
        | none => .error (.reservedOutcomeError
            "BRIDGE requires BRIDGE-BINDING verification at emit (no verifier supplied)")
        | some verifier =>
          match verifier (.dict b) with
          | .error e => .error e
          | .ok (true, _) => .ok ()
          | .ok (false, reason) => .error (.reservedOutcomeError
              ("BRIDGE refused: bridge surface fails BRIDGE-BINDING (" ++ reason ++ ")"))
    | _ => .error (.reservedOutcomeError "BRIDGE requires a committed v8 bridge surface")
  else if outcome ∉ emittableOutcomes then
    .error (.reservedOutcomeError "terminal_outcome is RESERVED; not emittable")
  else .ok ()

/-! ## Capability evidence -/

/-- `EvidenceArtifact`, its hashed fields.  The dispatcher copies `evidence_class` from the registry,
    whatever it is. -/
structure EvidenceArtifact where
  invariant : String
  verdict : String
  evidenceClass : PyVal
  details : String
  instrumentExit : Option Int

/-- `WaiverRecord` -/
structure WaiverRecord where
  capId : String
  authority : String
  reason : String
  evidenceRef : String

/-- `CapabilityEvidenceLedger`, its hashed fields -/
structure CapabilityEvidenceLedger where
  registryVersion : String
  scopeId : String
  selector : String
  runnerId : String
  storeHead : String
  artifacts : List EvidenceArtifact
  outOfScope : List String
  waivers : List WaiverRecord
  gaps : List String
  ledgerHash : String

/-- `VERDICTS` -/
def verdicts : List String :=
  ["PROVEN", "FAIL", "GAP", "WAIVED", "BY-CONSTRUCTION", "NOT-RUN", "ERROR"]

/-- Canonical text of `binding.canonical_json` of an artifact of strings and integers. -/
def spacedText (env : Env) (v : PyVal) : List Char :=
  match bindingCanonicalJson env v with
  | .ok cs => cs
  | .error _ => []

/-- `deterministic_body` -/
def CapabilityEvidenceLedger.deterministicBody (l : CapabilityEvidenceLedger) : PyVal := strDict [
  ("registry_version", .str l.registryVersion), ("scope_id", .str l.scopeId),
  ("selector", .str l.selector), ("runner_id", .str l.runnerId), ("store_head", .str l.storeHead),
  ("artifacts", .list (l.artifacts.map fun a => strDict [
    ("invariant", .str a.invariant), ("verdict", .str a.verdict),
    ("evidence_class", a.evidenceClass), ("details", .str a.details),
    ("instrument_exit", match a.instrumentExit with | some n => .int n | none => .none)])),
  ("out_of_scope", strList l.outOfScope),
  ("waivers", .list (l.waivers.map fun w => strDict [
    ("cap_id", .str w.capId), ("authority", .str w.authority), ("reason", .str w.reason),
    ("evidence_ref", .str w.evidenceRef)])),
  ("gaps", strList l.gaps)]

/-- `_hash_body` -/
def hashBody (env : Env) (body : PyVal) : Except Exc String :=
  (bindingCanonicalJson env body).map fun cj => (env.sha256 (strMsg "CGP-LEDGER-v1" ++ text cj)).hex

/-- `verify_hash` -/
def CapabilityEvidenceLedger.verifyHash (env : Env) (l : CapabilityEvidenceLedger) :
    Except Exc Bool :=
  (hashBody env l.deterministicBody).map fun h => l.ledgerHash == h

/-- The binding body `h_cap` is the hash of. -/
def CapabilityEvidenceLedger.bindingBody (l : CapabilityEvidenceLedger) : PyVal := strDict [
  ("ledger_hash", .str l.ledgerHash), ("registry_version", .str l.registryVersion),
  ("scope_id", .str l.scopeId), ("selector", .str l.selector),
  ("verdict_census", strDict (verdicts.map fun v => (v, strList
    (((l.artifacts.filter fun a => a.verdict == v).map EvidenceArtifact.invariant).insertionSort
      (· ≤ ·))))),
  ("waivers", .list ((l.waivers.insertionSort fun a b =>
      a.capId < b.capId ∨ (a.capId = b.capId ∧ a.authority ≤ b.authority)).map fun w =>
    strDict [("cap_id", .str w.capId), ("authority", .str w.authority)])),
  ("gaps", strList (l.gaps.insertionSort (· ≤ ·))),
  ("out_of_scope", strList (l.outOfScope.insertionSort (· ≤ ·)))]

def capabilityEvidenceModelId : String := "capability_evidence_model_v1"

/-- `capability_evidence_commitment`: the capability hash of a ledger that verifies. -/
def capabilityEvidenceCommitment (env : Env) (l : CapabilityEvidenceLedger) : Except Exc Digest :=
  match l.verifyHash env with
  | .error e => .error e
  | .ok false => .error (.valueError "capability-ledger-self-verify-failed")
  | .ok true =>
    if !l.artifacts.all (fun a => verdicts.contains a.verdict) then
      .error (.valueError "unknown-verdict")
    else .ok (env.sha256 (strMsg "UGK-CAP-v1" ++ text (spacedText env l.bindingBody)))

/-! ## Trace vector -/

/-- `EXPECTED_SCHEMA_HASH` -/
def expectedSchemaHash : String :=
  "82d02279c39d5fa82d6bb18a2a12b0f85cc5210a93502d827a9f89c570327c99"

/-- Hexadecimal digits with single underscores between them. -/
def hexDigits (env : Env) : List Char → Bool
  | [] => false
  | [c] => (Json.hexVal c).isSome || (decimal? env c).isSome
  | c :: '_' :: cs => ((Json.hexVal c).isSome || (decimal? env c).isSome) && hexDigits env cs
  | c :: cs => ((Json.hexVal c).isSome || (decimal? env c).isSome) && hexDigits env cs

/-- `int(s, 16)` does not raise. -/
def isHexInt (env : Env) (s : String) : Bool :=
  let strip (cs : List Char) := cs.dropWhile (isSpace env)
  let unsigned := match (strip (strip s.toList).reverse).reverse with
    | '-' :: cs => cs
    | '+' :: cs => cs
    | cs => cs
  match unsigned with
  | '0' :: 'x' :: '_' :: cs => hexDigits env cs
  | '0' :: 'x' :: cs => hexDigits env cs
  | '0' :: 'X' :: '_' :: cs => hexDigits env cs
  | '0' :: 'X' :: cs => hexDigits env cs
  | cs => hexDigits env cs

/-- `_is_hexdigest` of a text. -/
def isHexdigest (env : Env) (s : String) : Bool := s.toList.length == 64 && isHexInt env s

/-- `SurfaceResult` -/
structure SurfaceResult where
  surfaceId : String
  result : String
  reasonCode : String

/-- `FrameRef` -/
structure FrameRef where
  lawHash : String
  schemaHash : String
  legendHash : String
  codexHash : String

/-- `TraceVector`, less the constants and the receipt fields it repeats. -/
structure TraceVector where
  surfaces : List SurfaceResult
  frame : FrameRef
  integrityOk : Bool
  frameConsistent : Bool
  traceVectorHash : Digest

/-- `_verify_surface`; `rederive` is `_rederive_h_s` for the surface that has it. -/
def verifySurface (env : Env) (surfaceId : String) (committed : PyVal) (optional : Bool)
    (rederive : Option (Except Exc Digest)) : Except Exc SurfaceResult :=
  let absent := committed.isNone || committed.isStr ""
  -- phase-unbound locality passes vacuously
  if optional && absent then .ok ⟨surfaceId, "PASS", "ok"⟩
  else if absent then .ok ⟨surfaceId, "REFUSE", "commitment-absent"⟩
  else
    match committed with
    | .str s =>
      if !isHexdigest env s then .ok ⟨surfaceId, "REFUSE", "commitment-malformed"⟩
      else
        match rederive with
        | none => .ok ⟨surfaceId, "PASS", "ok"⟩
        | some derived => derived.map fun d =>
          if d.hex = s then ⟨surfaceId, "PASS", "ok"⟩
          else ⟨surfaceId, "REFUSE", "state-commitment-mismatch"⟩
    | _ => .ok ⟨surfaceId, "REFUSE", "commitment-malformed"⟩

/-- The receipt `_rederive_h_body` hashes: the surfaces its keyword list leaves out are `None`. -/
def traceBodyReceipt (r : Receipt) : Receipt :=
  { r with
    toNullable := { Nullable.replicate PyVal.none with
      hJ := r.hJ
      terminalOutcome := r.terminalOutcome
      terminalOutcomeModelId := r.terminalOutcomeModelId
      terminalOutcomeReason := r.terminalOutcomeReason
      hCap := r.hCap
      capabilityEvidenceModelId := r.capabilityEvidenceModelId
      capabilityLedgerHash := r.capabilityLedgerHash
      capabilityRegistryVersion := r.capabilityRegistryVersion
      capabilityScopeId := r.capabilityScopeId } }

/-- `_rederive_h_body` -/
def rederiveHBody (env : Env) (r : Receipt) : Except Exc Digest :=
  computeHBody env (traceBodyReceipt r)

/-- The results over `COMMITTED_SURFACES`. -/
def committedSurfaces (env : Env) (r : Receipt) : Except Exc (List SurfaceResult) := do
  let ds ← verifySurface env "D_s" (.str r.hS) false (some (hS env r.op r.parameters))
  let dc ← verifySurface env "D_c" (.str r.hC) false none
  let dm ← verifySurface env "D_m" (.str r.hM) false none
  let dj ← verifySurface env "D_j" r.hJ true none
  .ok [ds, dc, dm, dj]

/-- `_trace_vector_hash` of a receipt's vector. -/
def traceVectorHash (env : Env) (r : Receipt) (surfaces : List SurfaceResult) (frame : FrameRef)
    (integrityOk frameConsistent : Bool) : Digest :=
  env.sha256 (strMsg "FGA-TRACE-v1" ++ text (spacedText env (strDict [
    ("surface_registry_version", .str "fga.committed-surfaces.v1"),
    ("aggregation_operator_id", .str "conjunctive_refusal_monotone_v1"),
    ("frame", strDict [("law_hash", .str frame.lawHash), ("schema_hash", .str frame.schemaHash),
      ("legend_hash", .str frame.legendHash), ("codex_hash", .str frame.codexHash)]),
    ("transition_op", .str r.op), ("receipt_h_r", .str r.hR), ("receipt_h_body", .str r.hBody),
    ("integrity_ok", .bool integrityOk),
    ("frame_consistent", .bool frameConsistent),
    ("surfaces", .list (surfaces.map fun s =>
      strList [s.surfaceId, s.result, s.reasonCode]))])))

/-- `build_trace_vector` over the committed surfaces. -/
def buildTraceVector (env : Env) (r : Receipt) (frame : FrameRef) : Except Exc TraceVector := do
  let results ← committedSurfaces env r
  let body ← rederiveHBody env r
  let integrityOk := body.hex == r.hBody && r.hBody != ""
  let frameConsistent := r.lawHash == frame.lawHash && r.legendHash == frame.legendHash
  .ok {
    surfaces := results
    frame := frame
    integrityOk := integrityOk
    frameConsistent := frameConsistent
    traceVectorHash := traceVectorHash env r results frame integrityOk frameConsistent }

/-- `committed_trace_vector_hash`: the vector under the frame the receipt carries. -/
def committedTraceVectorHash (env : Env) (codexHash : String) (r : Receipt) : Except Exc Digest :=
  (buildTraceVector env r ⟨r.lawHash, expectedSchemaHash, r.legendHash, codexHash⟩).map
    TraceVector.traceVectorHash

end Ugk
