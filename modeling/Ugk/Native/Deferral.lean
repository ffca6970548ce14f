import Ugk.Native.Continuation
import Ugk.Native.Execute

/-!
# Deferred and bridged operations

`defer_operation`, `resume_continuation` and `emit_bridge` of `ugk/kernel.py`, the operations that
commit a terminal outcome.  A deferred operation is a HELD marker in the receipts, the latest marker
with a continuation id is its state, and a resume runs `execute` on what the marker captured before
it records RESOLVED.
-/

namespace Ugk

namespace Kernel

variable (rt : Runtime)

/-! ## Deferring -/

/-- The arguments of `defer_operation`, with its defaults. -/
structure DeferArgs where
  op : String
  authority : Option String := none
  parameters : Option PyDict := none
  jurisdiction : String := "session"
  expiryBasis : PyVal := .none
  anchor : Option String := none

/-- `authority or self._authority` -/
def deferAuthority (k : Kernel) (a : DeferArgs) : String :=
  match a.authority with
  | some s => if s = "" then k.authority else s
  | none => k.authority

/-- `dict(parameters or {})` -/
def deferParameters (a : DeferArgs) : PyDict := a.parameters.getD []

/-- `anchor if anchor is not None else self._store.stream_hash()` -/
def deferAnchor (w : World) (a : DeferArgs) : String :=
  a.anchor.getD (streamHash (Store.rows w.store))

/-- The given expiry basis, or a far committed height. -/
def deferExpiry (w : World) (a : DeferArgs) : PyVal :=
  if a.expiryBasis.isNone then
    strDict [("kind", .str "receipt_height"),
      ("value", .int (committedHeight (Store.rows w.store) + 1000000))]
  else a.expiryBasis

/-- The continuation id of a deferred operation. -/
def deferId (env : Env) (w : World) (a : DeferArgs) : Except Exc Digest :=
  computeContinuationId env (.str a.op) (.str (deferAuthority w.kernel a))
    (.dict (deferParameters a)) (.str a.jurisdiction) (.str (deferAnchor w a))

/-- The HELD record. -/
def heldRecord (w : World) (a : DeferArgs) (cid : String) : PyVal := strDict [
  ("id", .str cid), ("op", .str a.op), ("authority", .str (deferAuthority w.kernel a)),
  ("parameters", .dict (deferParameters a)), ("jurisdiction", .str a.jurisdiction),
  ("anchor", .str (deferAnchor w a)), ("expiry_basis", deferExpiry w a), ("state", .str "HELD"),
  ("model_id", .str continuationRecordModelId)]

/-- The arguments of the DEFER receipt. -/
def deferWriteArgs (w : World) (a : DeferArgs) (cid : String) : Store.WriteArgs :=
  { op := a.op
    authority := deferAuthority w.kernel a
    parameters := .dict (deferParameters a)
    jurisdiction := a.jurisdiction
    sessionDkn := w.kernel.sessionDkn
    lawHash := w.kernel.lawHash
    legendHash := w.kernel.legendHash
    commitTerminalOutcome := true
    terminalOutcomeOverride := some "DEFER"
    continuation := some (heldRecord w a cid) }

/-- `defer_operation`: the id of the continuation. -/
def deferOperation (a : DeferArgs) : Proc World Exc String := do
  let w ← Proc.get
  let cid ← Proc.lift (deferId rt.toEnv w a)
  let _ ← write rt (deferWriteArgs w a cid.hex)
  pure cid.hex

/-! ## Markers -/

/-- `json.loads(text) if text else default` for a column. -/
def loadsColumn (env : Env) (default : PyVal) : PyVal → Except Exc PyVal
  | .str s => if s = "" then .ok default else loads env s
  | _ => .ok default

/-- A text column, empty when it is NULL. -/
def columnStr (v : PyVal) : String := (v.str?).getD ""

/-- The record of a transition: without an anchor, so that the id is carried over. -/
def markerRecord (env : Env) (cid : String) (src : Receipt) (state : String) : Except Exc PyVal := do
  let parameters ← loadsColumn env (.dict []) src.continuationParameters
  let expiryBasis ← loadsColumn env .none src.continuationExpiryBasis
  .ok (strDict [
    ("id", .str cid), ("op", src.continuationOp), ("authority", src.continuationAuthority),
    ("parameters", parameters), ("jurisdiction", src.continuationJurisdiction),
    ("expiry_basis", expiryBasis), ("state", .str state),
    ("model_id", .str continuationRecordModelId)])

/-- The arguments of a transition receipt. -/
def markerArgs (k : Kernel) (cid : String) (src : Receipt) (refuse : Bool) (reason : String)
    (record : PyVal) : Store.WriteArgs :=
  { op := if refuse then "gate_refuse" else "continuation_resolved"
    authority := orText (columnStr src.continuationAuthority) k.authority
    parameters := strDict [("continuation_id", .str cid), ("reason", .str reason)]
    intent := some reason
    jurisdiction := orText (columnStr src.continuationJurisdiction) "session"
    sessionDkn := k.sessionDkn
    lawHash := k.lawHash
    legendHash := k.legendHash
    commitTerminalOutcome := true
    continuation := some record }

/-- `_continuation_marker` -/
def continuationMarker (cid : String) (src : Receipt) (state : String) (refuse : Bool)
    (reason : String) : Proc World Exc Unit := do
  let w ← Proc.get
  let record ← Proc.lift (markerRecord rt.toEnv cid src state)
  let _ ← write rt (markerArgs w.kernel cid src refuse reason record)
  pure ()

/-! ## Resuming -/

/-- The call of `execute` a resume makes. -/
def resumeArgs (cid : String) (rec : Receipt) (parameters : PyVal)
    (gate : Option (Proc World Exc Bool)) (effect : Option (Proc World Exc PyVal))
    (ea : Option EffectAtomicity) : ExecuteArgs :=
  { op := columnStr rec.continuationOp
    authority := rec.continuationAuthority
    parameters := parameters
    gate := gate
    effect := effect
    effectAtomicity := ea
    jurisdiction := columnStr rec.continuationJurisdiction
    intentRef := some cid }

/-- Resume a record that is HELD and not expired. -/
def resumeHeld (cid : String) (rec : Receipt) (gate : Option (Proc World Exc Bool))
    (effect : Option (Proc World Exc PyVal)) (ea : Option EffectAtomicity) :
    Proc World Exc PyVal := do
  let parameters ← Proc.lift (loadsColumn rt.toEnv (.dict []) rec.continuationParameters)
  let result ← execute rt (resumeArgs cid rec parameters gate effect ea)
  continuationMarker rt cid rec "RESOLVED" false "continuation-resolved"
  pure result

/-- `resume_continuation` -/
def resumeContinuation (cid : String) (gate : Option (Proc World Exc Bool))
    (effect : Option (Proc World Exc PyVal)) (ea : Option EffectAtomicity) :
    Proc World Exc PyVal := do
  let w ← Proc.get
  match ← Proc.lift (findContinuation rt.toEnv (Store.rows w.store) cid) with
  | none => Proc.raise (.gateRefusal "resume_continuation" "continuation-not-resumable")
  | some rec =>
    if rec.continuationState.isStr "HELD" then
      let expired ← Proc.lift (continuationExpired rt.toEnv rec.continuationExpiryBasis
        (committedHeight (Store.rows w.store)))
      if expired then
        continuationMarker rt cid rec "EXPIRED" true "continuation-expired"
        Proc.raise (.gateRefusal "resume_continuation" "continuation-expired")
      else resumeHeld rt cid rec gate effect ea
    else
      -- missing or already terminal: a terminal record still gets a REFUSED transition
      continuationMarker rt cid rec "REFUSED" true "continuation-not-resumable"
      Proc.raise (.gateRefusal "resume_continuation" "continuation-not-resumable")

/-! ## Bridges -/

/-- The arguments of `emit_bridge`. -/
structure BridgeArgs where
  op : String
  authority : Option String := none
  parameters : Option PyDict := none
  bridge : PyVal
  bridgeVerifier : PyVal → Except Exc (Bool × String)
  jurisdiction : String := "session"
  failed : Bool := false
  intent : String := ""

/-- The arguments of the BRIDGE receipt. -/
def bridgeWriteArgs (k : Kernel) (a : BridgeArgs) : Store.WriteArgs :=
  { op := a.op
    authority := orText (a.authority.getD "") k.authority
    parameters := .dict (a.parameters.getD [])
    failed := a.failed
    intent := some a.intent
    jurisdiction := a.jurisdiction
    sessionDkn := k.sessionDkn
    lawHash := k.lawHash
    legendHash := k.legendHash
    commitTerminalOutcome := true
    terminalOutcomeOverride := some "BRIDGE"
    bridge := some a.bridge
    bridgeVerifier := some a.bridgeVerifier }

/-- `emit_bridge` -/
def emitBridge (a : BridgeArgs) : Proc World Exc Receipt := do
  let w ← Proc.get
  write rt (bridgeWriteArgs w.kernel a)

end Kernel

end Ugk
