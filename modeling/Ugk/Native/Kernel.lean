import Ugk.Native.Store
import Ugk.Native.Warrant

/-!
# The kernel object and its emitters

`ugk/kernel.py`: the attributes of a `GovernanceKernel`, the receipts it writes on its own account,
and the bounded retry of a terminal write.

The world of an effect callable is the kernel object together with the stores attached to it.
-/

namespace Ugk

/-! ## Kernel and world -/

/-- `EffectAtomicity` -/
inductive EffectAtomicity where
  | pure
  | storeLocal
  | externalReversible
  | externalIrreversible
  | nonAtomic
deriving DecidableEq, Repr

/-- The value of an atomicity class. -/
def EffectAtomicity.value : EffectAtomicity → String
  | .pure => "pure"
  | .storeLocal => "store_local"
  | .externalReversible => "external_reversible"
  | .externalIrreversible => "external_irreversible"
  | .nonAtomic => "non_atomic"

/-- An `IntentDeclaration` with the `revoked` flag of its row. -/
structure IntentDeclaration where
  declarationHash : String
  declaredOps : List String
  scopeRef : String
  revoked : Bool

/-- The attributes of a `GovernanceKernel` its operations read. -/
structure Kernel where
  authority : String := "system"
  /-- the status is ACTIVE -/
  active : Bool := false
  lawHash : String := ""
  sessionId : Option String := none
  sessionDkn : String := ""
  sessionOpenCount : Nat := 0
  refusedByLayer : List (String × Nat) := [("S", 0), ("C", 0), ("I", 0)]
  mosaicRoot : String := ""
  dimensionId : String := ""
  requireGovernorSig : Bool := false
  legendHash : String := ""
  requireIntent : Bool := false
  requireScopedIntent : Bool := false
  currentScopeId : String := ""
  authorityModel : Option AuthorityModel := none
  manifestHash : String := ""
  opCsilRegistry : List (String × Int) := []

/-- A kernel with its receipt store and the optional warrant and intent stores. -/
structure World where
  kernel : Kernel := {}
  store : StoreState := {}
  warrants : Option (List WarrantRow) := none
  intents : Option (List IntentDeclaration) := none

/-- The deployment with its clocks and the vendored signature check. -/
structure Runtime extends Config where
  /-- `time.time()` -/
  clock : Store.Clock
  /-- `time.strftime(.., time.gmtime())` -/
  isoTime : Nat → String
  /-- `verify_governor(GOVERNOR_PUBKEY_HEX, message, signature)` -/
  verifyGovernor : List Char → String → Bool

/-- Run a store operation. -/
def onStore {α : Type} (m : Proc StoreState Exc α) : Proc World Exc α :=
  Proc.zoom World.store (fun s w => { w with store := s }) m

namespace Kernel

variable (rt : Runtime)

/-- `self._store.write` -/
def write (a : Store.WriteArgs) : Proc World Exc Receipt :=
  onStore (Store.write rt.toConfig rt.clock a)

/-! ## Receipts of the kernel's own -/

/-- The arguments `_emit_protocol_error` writes. -/
def protocolErrorArgs (k : Kernel) (op reason authority : String) : Store.WriteArgs :=
  { op := "protocol_error"
    authority := if authority = "" then k.authority else authority
    parameters := strDict [("op", .str op), ("reason", .str reason)]
    failed := true
    intent := some "protocol_error"
    jurisdiction := "kernel"
    sessionDkn := k.sessionDkn
    lawHash := k.lawHash }

/-- `_emit_protocol_error`: whatever happens to the write, the rejection goes on. -/
def emitProtocolError (op reason authority : String) : Proc World Exc Unit := do
  let w ← Proc.get
  let _ ← Proc.attempt (write rt (protocolErrorArgs w.kernel op reason authority))
  pure ()

/-- The typed descriptor of an effect's class. -/
def atomicityColumns (ea : EffectAtomicity) : EffectDescriptor
  | .effectAtomicity => some ea.value
  | _ => none

/-- The columns of a structural abort. -/
def abortColumns (ea : EffectAtomicity) (reason admitRef : String) : EffectDescriptor
  | .effectAtomicity => some ea.value
  | .abortReason => some reason
  | .gateAdmitRef => some admitRef
  | _ => none

/-- The parameters of a structural abort: without a declared class the reason and the admission are
    plain parameters. -/
def abortParams (parameters : PyDict) (ea : Option EffectAtomicity) (reason admitRef : String) :
    PyDict :=
  let p := PyDict.set parameters (.str "effect_aborted") (.bool true)
  match ea with
  | some _ => p
  | none =>
    let p := PyDict.set p (.str "abort_reason") (.str reason)
    if admitRef = "" then p else PyDict.set p (.str "gate_admit_ref") (.str admitRef)

/-- The arguments `_emit_effect_abort` writes. -/
def effectAbortArgs (k : Kernel) (op authority : String) (parameters : PyDict)
    (ea : Option EffectAtomicity) (reason jurisdiction intentRef admitRef : String) :
    Store.WriteArgs :=
  { op := op
    authority := authority
    parameters := .dict (abortParams parameters ea reason admitRef)
    failed := true
    intent := some op
    jurisdiction := jurisdiction
    sessionDkn := k.sessionDkn
    lawHash := k.lawHash
    legendHash := k.legendHash
    intentRef := intentRef
    effectColumns := ea.map fun c => abortColumns c reason admitRef }

/-- `_emit_effect_abort` -/
def emitEffectAbort (op authority : String) (parameters : PyDict) (ea : Option EffectAtomicity)
    (reason jurisdiction intentRef admitRef : String) : Proc World Exc Unit := do
  let w ← Proc.get
  let _ ← write rt (effectAbortArgs w.kernel op authority parameters ea reason jurisdiction intentRef
    admitRef)
  pure ()

/-! ## The phases of an external effect -/

/-- What the phase receipts of one external effect have in common. -/
structure Trail where
  op : String
  authority : String
  baseParams : PyDict
  idempotencyKey : Option String
  jurisdiction : String
  intentRef : String
  warrantId : String

/-- What distinguishes one phase receipt. -/
structure Phase where
  phase : String
  failed : Bool := false
  prepareRef : Option String := none
  gateAdmitRef : Option String := none
  abortReason : Option String := none
  compensateRef : Option String := none
  compensationIdempotencyKey : Option String := none

/-- The two external protocols. -/
inductive Protocol where
  | irreversible
  | reversible
deriving DecidableEq, Repr

/-- The atomicity class of a protocol. -/
def Protocol.atomicity : Protocol → EffectAtomicity
  | .irreversible => .externalIrreversible
  | .reversible => .externalReversible

/-- The `effect_columns` of a phase receipt: `_emit_irreversible` has no compensation columns. -/
def phaseColumns (pr : Protocol) (t : Trail) (p : Phase) : EffectDescriptor
  | .effectAtomicity => some pr.atomicity.value
  | .phase => some p.phase
  | .idempotencyKey => t.idempotencyKey
  | .gateAdmitRef => p.gateAdmitRef
  | .prepareRef => p.prepareRef
  | .abortReason => p.abortReason
  | .compensateRef => if pr = .reversible then p.compensateRef else none
  | .compensationIdempotencyKey => if pr = .reversible then p.compensationIdempotencyKey else none

/-- The arguments of a phase receipt. -/
def phaseArgs (k : Kernel) (pr : Protocol) (t : Trail) (p : Phase) : Store.WriteArgs :=
  { op := t.op
    authority := t.authority
    parameters := .dict t.baseParams
    failed := p.failed
    intent := some t.op
    jurisdiction := t.jurisdiction
    sessionDkn := k.sessionDkn
    lawHash := k.lawHash
    legendHash := k.legendHash
    warrantId := t.warrantId
    intentRef := t.intentRef
    effectColumns := some (phaseColumns pr t p) }

/-- Write one phase receipt. -/
def emitPhase (pr : Protocol) (t : Trail) (p : Phase) : Proc World Exc Receipt := do
  let w ← Proc.get
  write rt (phaseArgs w.kernel pr t p)

/-- `_emit_irreversible` -/
def emitIrreversible (t : Trail) (p : Phase) : Proc World Exc Receipt :=
  emitPhase rt .irreversible t p

/-- `_emit_reversible` -/
def emitReversible (t : Trail) (p : Phase) : Proc World Exc Receipt :=
  emitPhase rt .reversible t p

/-! ## Durable terminals -/

/-- `needle in haystack` -/
def contains (haystack needle : String) : Bool :=
  haystack.toList.tails.any fun cs => needle.toList.isPrefixOf cs

/-- `_is_retryable_terminal_write_error` -/
def isRetryableTerminalWriteError : Exc → Bool
  | .operationalError msg => contains msg.toLower "locked" || contains msg.toLower "busy"
  | .transactionCommitError _ => true
  | _ => false

/-- `MAX_OUTCOME_WRITE_ATTEMPTS` -/
def maxOutcomeWriteAttempts : Nat := 3

/-- The retry loop of a terminal write. -/
def retryWrite {σ : Type} (phase ref : String) (w : Proc σ Exc Receipt) : Nat → Proc σ Exc Receipt
  | 0 => Proc.raise (.terminalWriteExhausted phase ref maxOutcomeWriteAttempts)
  | n + 1 => do
    match ← Proc.attempt w with
    | .ok receipt => pure receipt
    | .error e =>
      -- outside the retryable set the failure surfaces at once
      if isRetryableTerminalWriteError e then retryWrite phase ref w n else Proc.raise e

/-- `_emit_terminal_durable` -/
def emitTerminalDurable (t : Trail) (p : Phase) : Proc World Exc Receipt :=
  if p.phase ∈ ["commit", "abort"] then
    retryWrite p.phase (p.prepareRef.getD "") (emitIrreversible rt t p) maxOutcomeWriteAttempts
  else Proc.raise (.assertionError "durable retry is for terminals only (commit/abort)")

/-- `prepare_ref or compensate_ref` -/
def orphanRef (p : Phase) : String :=
  if p.prepareRef.getD "" = "" then p.compensateRef.getD "" else p.prepareRef.getD ""

/-- `_emit_reversible_terminal_durable` -/
def emitReversibleTerminalDurable (t : Trail) (p : Phase) : Proc World Exc Receipt :=
  if p.phase ∈ ["commit", "abort", "compensated", "compensation_failed"] then
    retryWrite p.phase (orphanRef p) (emitReversible rt t p) maxOutcomeWriteAttempts
  else Proc.raise (.assertionError
    "reversible durable retry is for terminals only (commit/abort/compensated/compensation_failed)")

/-- The terminal writer of a protocol. -/
def terminalDurable : Protocol → Trail → Phase → Proc World Exc Receipt
  | .irreversible => emitTerminalDurable rt
  | .reversible => emitReversibleTerminalDurable rt

end Kernel

end Ugk
