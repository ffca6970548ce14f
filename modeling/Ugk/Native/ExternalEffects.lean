import Ugk.Native.Store
import Ugk.Native.Warrant

/-!
# Trails of external effects

`ugk/integrity/external_irreversible.py` and `external_reversible.py`: the detectors of effects in
doubt.  An attempt is in doubt while no terminal carries its two identifying values.  The three
detectors are one search over the receipts with the phases and fields of their arc.
-/

namespace Ugk

/-- The typed column of a marker. -/
def Receipt.markerColumn (r : Receipt) : Marker → PyVal
  | .effectAtomicity => r.effectAtomicity
  | .phase => r.effectPhase
  | .prepareRef => r.effectPrepareRef
  | .compensateRef => r.effectCompensateRef
  | .idempotencyKey => r.effectIdempotencyKey
  | .compensationIdempotencyKey => r.effectCompensationIdempotencyKey
  | .abortReason => r.effectAbortReason
  | .gateAdmitRef => r.effectGateAdmitRef

/-- `_params(r).get(marker)`: the column, or the parameter of the marker where it is `None`. -/
def effectParam (r : Receipt) (m : Marker) : PyVal :=
  if (r.markerColumn m).isNone then
    match r.parameters with
    | .dict d => PyDict.get d m.key
    | _ => .none
  else r.markerColumn m

/-- The receipt is of an effect class, in one of some phases. -/
def inPhase (atomicity : String) (phases : List String) (r : Receipt) : Bool :=
  (effectParam r .effectAtomicity).isStr atomicity &&
    phases.any fun phase => (effectParam r .phase).isStr phase

/-! ## Arcs -/

/-- An attempt and its terminals: the phases they are in, and the two values that have to agree. -/
structure Arc where
  atomicity : String
  openPhase : String
  terminalPhases : List String
  /-- what identifies an attempt -/
  attempt : Receipt → PyVal × PyVal
  /-- the attempt a terminal names -/
  closes : Receipt → PyVal × PyVal

/-- The PREPARE of an irreversible effect: its key and its root, which a terminal names as
    `prepare_ref`. -/
def irreversible : Arc where
  atomicity := "external_irreversible"
  openPhase := "prepare"
  terminalPhases := ["commit", "abort"]
  attempt r := (effectParam r .idempotencyKey, .str r.hR)
  closes r := (effectParam r .idempotencyKey, effectParam r .prepareRef)

/-- The forward PREPARE of a reversible effect. -/
def reversibleForward : Arc := { irreversible with atomicity := "external_reversible" }

/-- The COMPENSATE of a reversible effect. -/
def reversibleCompensation : Arc where
  atomicity := "external_reversible"
  openPhase := "compensate"
  terminalPhases := ["compensated", "compensation_failed"]
  attempt r := (effectParam r .compensateRef, effectParam r .compensationIdempotencyKey)
  closes r := (effectParam r .compensateRef, effectParam r .compensationIdempotencyKey)

namespace Arc

variable (env : Env) (arc : Arc)

def opens (r : Receipt) : Bool := inPhase arc.atomicity [arc.openPhase] r

def isTerminal (r : Receipt) : Bool := inPhase arc.atomicity arc.terminalPhases r

/-- The terminal names an attempt. -/
def names (t : Receipt) (attempt : PyVal × PyVal) : Bool :=
  pyEq env (arc.closes t).1 attempt.1 && pyEq env (arc.closes t).2 attempt.2

/-- Some terminal names the attempt. -/
def resolved (receipts : List Receipt) (attempt : PyVal × PyVal) : Bool :=
  receipts.any fun t => arc.isTerminal t && arc.names env t attempt

/-- The attempts without a terminal, in chain order. -/
def orphans (receipts : List Receipt) : List Receipt :=
  receipts.filter fun r => arc.opens r && !arc.resolved env receipts (arc.attempt r)

end Arc

/-- `orphans.sort(key=...)`.  The texts of effect columns always compare. -/
def sortOrphans {α : Type} (env : Env) (key : α → PyVal) (orphans : List α) : List α :=
  orphans.insertionSort fun a b => (pyLt env (key b) (key a)).getD false = false

/-! ## `external_irreversible.py` -/

/-- A descriptor of `detect_orphan_prepares`; `state` is always `in_doubt`. -/
structure OrphanPrepare where
  op : String
  idempotencyKey : PyVal
  prepareRef : String
  prepareHR : String
  state : String
  prepareTs : PyFloat
  gateAdmitRef : PyVal
  keyHasTerminal : Bool
  keyTerminalPhases : List String

/-- The sorted phases of the terminals that share a key. -/
def keyTerminalPhases (env : Env) (receipts : List Receipt) (key : PyVal) : List String :=
  ["abort", "commit"].filter fun phase =>
    receipts.any fun t =>
      inPhase irreversible.atomicity [phase] t && pyEq env (effectParam t .idempotencyKey) key

/-- The descriptor of an orphan. -/
def describePrepare (env : Env) (receipts : List Receipt) (r : Receipt) : OrphanPrepare :=
  let key := effectParam r .idempotencyKey
  { op := r.op
    idempotencyKey := key
    prepareRef := r.hR
    prepareHR := r.hR
    state := "in_doubt"
    prepareTs := r.timestamp
    gateAdmitRef := effectParam r .gateAdmitRef
    keyHasTerminal := !(keyTerminalPhases env receipts key).isEmpty
    keyTerminalPhases := keyTerminalPhases env receipts key }

/-- `v or ""` -/
def orBlank (v : PyVal) : PyVal := if v.truthy then v else .str ""

/-- `external_irreversible.detect_orphan_prepares` -/
def detectOrphanPrepares (env : Env) (receipts : List Receipt) : List OrphanPrepare :=
  sortOrphans env (fun o => .tuple [.str o.op, orBlank o.idempotencyKey, .str o.prepareRef])
    ((irreversible.orphans env receipts).map (describePrepare env receipts))

/-! ## `external_reversible.py` -/

/-- A descriptor of the forward arc; `arc` is always `forward`. -/
structure OrphanForward where
  op : String
  idempotencyKey : PyVal
  prepareRef : String
  prepareHR : String
  state : String
  arc : String
  gateAdmitRef : PyVal

def describeForward (r : Receipt) : OrphanForward where
  op := r.op
  idempotencyKey := effectParam r .idempotencyKey
  prepareRef := r.hR
  prepareHR := r.hR
  state := "in_doubt"
  arc := "forward"
  gateAdmitRef := effectParam r .gateAdmitRef

/-- `external_reversible.detect_orphan_prepares` -/
def detectOrphanForwards (env : Env) (receipts : List Receipt) : List OrphanForward :=
  sortOrphans env (fun o => .tuple [.str o.op, orBlank o.idempotencyKey, .str o.prepareRef])
    ((reversibleForward.orphans env receipts).map describeForward)

/-- A descriptor of the compensation arc; `arc` is always `compensation`. -/
structure OrphanCompensate where
  op : String
  compensateRef : PyVal
  compensationIdempotencyKey : PyVal
  compensateHR : String
  state : String
  arc : String

def describeCompensate (r : Receipt) : OrphanCompensate where
  op := r.op
  compensateRef := effectParam r .compensateRef
  compensationIdempotencyKey := effectParam r .compensationIdempotencyKey
  compensateHR := r.hR
  state := "in_doubt"
  arc := "compensation"

/-- `external_reversible.detect_orphan_compensates` -/
def detectOrphanCompensates (env : Env) (receipts : List Receipt) : List OrphanCompensate :=
  sortOrphans env (fun o =>
      .tuple [.str o.op, orBlank o.compensateRef, orBlank o.compensationIdempotencyKey])
    ((reversibleCompensation.orphans env receipts).map describeCompensate)

/-- `find_committed_forward`: the operation and key of a forward effect that may be compensated. -/
def findCommittedForward (receipts : List Receipt) (prepareRef : String) : Option (String × PyVal) :=
  let phase (p : String) (ref : Marker) (r : Receipt) : Bool :=
    inPhase reversibleForward.atomicity [p] r && (effectParam r ref).isStr prepareRef
  if receipts.any (phase "abort" .prepareRef) || receipts.any (phase "compensate" .compensateRef) then
    none
  else
    (receipts.reverse.find? (phase "commit" .prepareRef)).map fun r =>
      (r.op, effectParam r .idempotencyKey)

end Ugk
