import Ugk.Native.Compensation

/-!
# Reconciliation

The governed resolution of effects in doubt in `ugk/kernel.py`: `reconcile_external_irreversible`,
`reconcile_external_reversible_forward` and `reconcile_external_reversible_compensation`.  Each one
checks its arguments, finds its orphan, and records the determined outcome as the terminal of that
orphan.
-/

namespace Ugk

namespace Kernel

/-- The arguments of the three operations, with their defaults: `ref` is `prepare_ref` or
    `compensate_ref`. -/
structure ReconcileArgs where
  ref : PyVal
  determination : PyVal
  evidenceRef : PyVal
  authority : PyVal
  jurisdiction : String := "session"
  intentRef : Option String := none
  warrantId : Option String := none
  verified : Bool := false

/-- A reconciliation with valid arguments. -/
structure Reconciliation where
  authority : String
  evidenceRef : String
  performed : Bool
  ref : String

/-- `determination in ("performed", "not_performed")`, with the outcome it stands for. -/
def determined (v : PyVal) : Except Exc Bool :=
  if v.isStr "performed" then .ok true
  else if v.isStr "not_performed" then .ok false
  else .error (.reconciliationRefused "determination-undetermined")

/-- The validation of the arguments, with the code for a missing reference. -/
def checkReconciliation (env : Env) (refRequired : String) (a : ReconcileArgs) :
    Except Exc Reconciliation := do
  let authority ← nonBlank env a.authority (.reconciliationRefused "authority-required")
  let evidenceRef ← nonBlank env a.evidenceRef (.reconciliationRefused "evidence-required")
  let performed ← determined a.determination
  let ref ← nonEmpty a.ref (.reconciliationRefused refRequired)
  .ok { authority := authority, evidenceRef := evidenceRef, performed := performed, ref := ref }

/-- `_verify_reconciliation_warrant` -/
def verifyReconciliationWarrant (env : Env) (w : World) (warrantId : Option String) :
    Except Exc DecisionWarrant :=
  match w.warrants with
  | none => .error (.reconciliationRefused "verified-requires-warrant-store")
  | some rows => do
    let id ← nonBlank env (.ofOpt warrantId) (.reconciliationRefused "verified-requires-warrant-id")
    match ← getWarrant env rows id with
    | none => .error (.reconciliationRefused "warrant-not-found")
    | some warrant =>
      if !(← warrant.verifyHash env) then
        .error (.reconciliationRefused "warrant-hash-invalid")
      else if warrant.lawHash ≠ w.kernel.lawHash ∨ warrant.legendHash ≠ w.kernel.legendHash then
        .error (.reconciliationRefused "warrant-stale-frame")
      else if warrant.constitutionalBasis.isEmpty then
        .error (.reconciliationRefused "warrant-basis-invalid")
      else .ok warrant

/-- The markers of the verified grade: none unless it is asked for. -/
def verifiedMarkers (env : Env) (w : World) (a : ReconcileArgs) :
    Except Exc (List (String × PyVal)) :=
  if a.verified then do
    let warrant ← verifyReconciliationWarrant env w a.warrantId
    let snapshot ← bindingCanonicalJson env warrant.bodyDict
    .ok [("reconciliation_grade", .str "verified"),
      ("reconciliation_warrant_snapshot", .str (String.ofList snapshot))]
  else .ok []

/-- The provenance markers of a reconciling terminal. -/
def reconciliationMarkers (a : ReconcileArgs) (c : Reconciliation) (arc : Option String)
    (verified : List (String × PyVal)) : List (String × PyVal) :=
  [("reconciled", .bool true), ("reconciled_by", .str c.authority),
    ("reconciliation_evidence_ref", .str c.evidenceRef), ("determination", a.determination)] ++
    (arc.map fun name => ("arc", PyVal.str name)).toList ++ verified

/-- What the reconciling terminal carries.  The key columns hold text. -/
def reconciliationTrail (a : ReconcileArgs) (c : Reconciliation) (op : String) (key : PyVal)
    (markers : List (String × PyVal)) : Trail where
  op := op
  authority := c.authority
  baseParams := markers.map fun kv => (.str kv.1, kv.2)
  idempotencyKey := key.str?
  jurisdiction := a.jurisdiction
  intentRef := a.intentRef.getD ""
  warrantId := a.warrantId.getD ""

/-- The terminal of a reconciled forward effect. -/
def forwardTerminal (c : Reconciliation) : Phase :=
  if c.performed then { phase := "commit", prepareRef := some c.ref }
  else {
    phase := "abort"
    failed := true
    prepareRef := some c.ref
    abortReason := some "reconciled_not_performed" }

/-- The terminal of a reconciled compensation. -/
def compensationTerminal (c : Reconciliation) (key : Option String) : Phase :=
  if c.performed then
    { phase := "compensated", compensateRef := some c.ref, compensationIdempotencyKey := key }
  else {
    phase := "compensation_failed"
    failed := true
    compensateRef := some c.ref
    compensationIdempotencyKey := key
    abortReason := some "reconciled_compensation_not_performed" }

/-- `ReconciliationRefused("not-an-outstanding-orphan")` -/
def notOutstanding : Exc := .reconciliationRefused "not-an-outstanding-orphan"

variable (rt : Runtime)

/-- A reconciliation of a forward effect, with the detector of its class. -/
def reconcileForward (pr : Protocol) (arc : Option String)
    (detect : List Receipt → String → Option (String × PyVal)) (a : ReconcileArgs) :
    Proc World Exc Receipt := do
  let w ← Proc.get
  let c ← Proc.lift (checkReconciliation rt.toEnv "prepare_ref-required" a)
  let receipts ← Proc.lift (allReceipts rt.toEnv (Store.rows w.store))
  match detect receipts c.ref with
  | none => Proc.raise notOutstanding
  | some (op, key) =>
    let verified ← Proc.lift (verifiedMarkers rt.toEnv w a)
    terminalDurable rt pr (reconciliationTrail a c op key (reconciliationMarkers a c arc verified))
      (forwardTerminal c)

/-- The op and the key of the first orphan PREPARE with this reference. -/
def orphanPrepare (env : Env) (receipts : List Receipt) (ref : String) : Option (String × PyVal) :=
  ((detectOrphanPrepares env receipts).find? fun o => o.prepareRef == ref).map fun o =>
    (o.op, o.idempotencyKey)

/-- The op and the key of the first orphan forward PREPARE with this reference. -/
def orphanForward (env : Env) (receipts : List Receipt) (ref : String) : Option (String × PyVal) :=
  ((detectOrphanForwards env receipts).find? fun o => o.prepareRef == ref).map fun o =>
    (o.op, o.idempotencyKey)

/-- `reconcile_external_irreversible` -/
def reconcileExternalIrreversible (a : ReconcileArgs) : Proc World Exc Receipt :=
  reconcileForward rt .irreversible none (orphanPrepare rt.toEnv) a

/-- `reconcile_external_reversible_forward` -/
def reconcileExternalReversibleForward (a : ReconcileArgs) : Proc World Exc Receipt :=
  reconcileForward rt .reversible (some "forward") (orphanForward rt.toEnv) a

/-- The first orphan COMPENSATE with this reference. -/
def orphanCompensate (env : Env) (receipts : List Receipt) (ref : String) :
    Option OrphanCompensate :=
  (detectOrphanCompensates env receipts).find? fun o => o.compensateRef.isStr ref

/-- The forward key of a compensation, out of its COMPENSATE receipt; the search looks at the phase,
    not at the class. -/
def forwardKeyOf (env : Env) (receipts : List Receipt) (o : OrphanCompensate) (ref : String) :
    PyVal :=
  match receipts.find? fun r => (effectParam r .phase).isStr "compensate" &&
      (effectParam r .compensateRef).isStr ref &&
      pyEq env (effectParam r .compensationIdempotencyKey) o.compensationIdempotencyKey with
  | some r => effectParam r .idempotencyKey
  | none => o.compensationIdempotencyKey

/-- `reconcile_external_reversible_compensation` -/
def reconcileExternalReversibleCompensation (a : ReconcileArgs) : Proc World Exc Receipt := do
  let w ← Proc.get
  let c ← Proc.lift (checkReconciliation rt.toEnv "compensate_ref-required" a)
  let receipts ← Proc.lift (allReceipts rt.toEnv (Store.rows w.store))
  match orphanCompensate rt.toEnv receipts c.ref with
  | none => Proc.raise notOutstanding
  | some o =>
    let key := forwardKeyOf rt.toEnv receipts o c.ref
    let verified ← Proc.lift (verifiedMarkers rt.toEnv w a)
    emitReversibleTerminalDurable rt
      (reconciliationTrail a c o.op key
        (reconciliationMarkers a c (some "compensation") verified))
      (compensationTerminal c o.compensationIdempotencyKey.str?)

end Kernel

end Ugk
