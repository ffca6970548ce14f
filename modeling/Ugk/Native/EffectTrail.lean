import Ugk.Native.ExternalEffects

/-!
# The verifier of effect trails

`verify_effect_trail_integrity_typed` of `ugk/conformance/effect_trail_integrity_gate.py`: a pure
recompute over the typed effect columns of a list of receipts.
-/

namespace Ugk

/-- `EXTERNAL` -/
def external : List String := ["external_irreversible", "external_reversible"]

/-- `TWO_PHASE_PHASES` -/
def twoPhasePhases : List String :=
  ["prepare", "commit", "abort", "compensate", "compensated", "compensation_failed"]

/-- `FORWARD_TERMINALS` -/
def forwardTerminals : List String := ["commit", "abort"]

/-- `COMP_PHASES` -/
def compPhases : List String := ["compensate", "compensated", "compensation_failed"]

/-- `COMP_TERMINALS` -/
def compTerminals : List String := ["compensated", "compensation_failed"]

/-- `ERASURE_MARKERS` -/
def erasureMarkers : List String := ["undone", "reversed", "erased", "rolled_back"]

/-- `v in names`, for a column. -/
def columnIn (names : List String) (v : PyVal) : Bool := names.any fun name => v.isStr name

/-- `str(v)` of a column, which is a string or `None`. -/
def columnStr : PyVal → String
  | .str s => s
  | _ => "None"

/-- The receipt carries the typed surface. -/
def hasTypedSurface (r : Receipt) : Bool := 4 ≤ r.version

/-- The anchors of forward terminals: the roots and keys of the PREPAREs of the external classes. -/
def prepareAnchors (receipts : List Receipt) : List (PyVal × PyVal) :=
  (receipts.filter fun r => hasTypedSurface r && columnIn external r.effectAtomicity &&
    r.effectPhase.isStr "prepare").map fun r => (.str r.hR, r.effectIdempotencyKey)

/-- The anchors of compensation terminals: the references and keys of the COMPENSATEs. -/
def compensateAnchors (receipts : List Receipt) : List (PyVal × PyVal) :=
  (receipts.filter fun r => hasTypedSurface r && r.effectAtomicity.isStr "external_reversible" &&
    r.effectPhase.isStr "compensate").map fun r =>
      (r.effectCompensateRef, r.effectCompensationIdempotencyKey)

/-- `ref and (ref, key) in anchors` -/
def anchored (env : Env) (anchors : List (PyVal × PyVal)) (ref key : PyVal) : Bool :=
  ref.truthy && anchors.any fun x => pyEq env x.1 ref && pyEq env x.2 key

/-- A violation tuple. -/
abbrev Violation := List String

/-- The violations of a forward terminal. -/
def forwardViolations (env : Env) (anchors : List (PyVal × PyVal)) (phase : String) (r : Receipt) :
    List Violation :=
  (if anchored env anchors r.effectPrepareRef r.effectIdempotencyKey then []
    else [["forward-terminal-without-anchor", phase, r.hR]]) ++
  (if phase = "commit" ∧ r.failed then [["commit-marked-failed-contradiction", r.hR]] else []) ++
  (if phase = "abort" ∧ r.failed = false then [["abort-not-marked-failed", r.hR]] else [])

/-- Some parameter claims that the forward effect was undone. -/
def claimsErasure (r : Receipt) : Bool :=
  match r.parameters with
  | .dict d => erasureMarkers.any fun m => (PyDict.get d m).truthy
  | _ => false

/-- The violations of a compensation terminal. -/
def compensationViolations (env : Env) (anchors : List (PyVal × PyVal)) (phase : String)
    (r : Receipt) : List Violation :=
  (if anchored env anchors r.effectCompensateRef r.effectCompensationIdempotencyKey then []
    else [["compensation-terminal-without-anchor", phase, r.hR]]) ++
  (if phase = "compensated" ∧ r.failed then [["compensated-marked-failed-contradiction", r.hR]]
    else []) ++
  (if phase = "compensated" ∧ claimsErasure r then [["compensated-claims-physical-erasure", r.hR]]
    else []) ++
  (if phase = "compensation_failed" ∧ r.failed = false then
    [["compensation_failed-not-marked-failed", r.hR]] else [])

/-- The violations of one receipt, the anchors given. -/
def receiptViolations (env : Env) (prepares compensates : List (PyVal × PyVal)) (r : Receipt) :
    List Violation :=
  if !hasTypedSurface r then []
  else
    match r.effectPhase with
    | .str phase =>
      if phase ∉ twoPhasePhases then []
      else if !columnIn external r.effectAtomicity then
        [["class-mismatch-non-external-carries-phase", columnStr r.effectAtomicity, phase, r.hR]]
      else if r.effectAtomicity.isStr "external_irreversible" ∧ phase ∈ compPhases then
        [["irreversible-carries-compensation-phase", phase, r.hR]]
      else
        (if phase ∈ forwardTerminals then forwardViolations env prepares phase r else []) ++
        (if phase ∈ compTerminals then compensationViolations env compensates phase r else [])
    | _ => []

/-- `verify_effect_trail_integrity_typed` -/
def verifyEffectTrailIntegrityTyped (env : Env) (receipts : List Receipt) : List Violation :=
  (receipts.flatMap
    (receiptViolations env (prepareAnchors receipts) (compensateAnchors receipts))).insertionSort
      fun a b => a ≤ b

end Ugk
