import Ugk.Native.PyValue

/-!
# The typed effect surface

`ugk/storage/store.py`: the eight effect markers, the columns they name, and the resolver that
`write` runs before anything else.  With a typed descriptor the columns are primary and a
diverging marker is an error; without one they are derived from the parameter markers.
-/

namespace Ugk

/-- The markers of `_EFFECT_MARKER_MAP`. -/
inductive Marker where
  | effectAtomicity
  | phase
  | prepareRef
  | compensateRef
  | idempotencyKey
  | compensationIdempotencyKey
  | abortReason
  | gateAdmitRef
deriving DecidableEq, Repr

namespace Marker

/-- The parameter key of a marker. -/
def key : Marker → String
  | effectAtomicity => "effect_atomicity"
  | phase => "phase"
  | prepareRef => "prepare_ref"
  | compensateRef => "compensate_ref"
  | idempotencyKey => "idempotency_key"
  | compensationIdempotencyKey => "compensation_idempotency_key"
  | abortReason => "abort_reason"
  | gateAdmitRef => "gate_admit_ref"

/-- `_EFFECT_MARKER_MAP`, in its order. -/
def all : List Marker := [effectAtomicity, phase, prepareRef, compensateRef, idempotencyKey,
  compensationIdempotencyKey, abortReason, gateAdmitRef]

theorem mem_all (m : Marker) : m ∈ all := by cases m <;> decide

theorem key_injective {m m' : Marker} (h : m.key = m'.key) : m = m' := by
  cases m <;> cases m' <;> first | rfl | exact absurd h (by decide)

end Marker

/-- `EFFECT_ATOMICITY_MODEL_ID` -/
def effectAtomicityModelId : String := "effect_atomicity_model_v1"

/-- `EFFECT_ATOMICITY_DOMAIN` -/
def effectAtomicityDomain : List String :=
  ["pure", "store_local", "external_reversible", "external_irreversible", "non_atomic"]

/-- `EFFECT_PHASE_DOMAIN` -/
def effectPhaseDomain : List String :=
  ["prepare", "commit", "abort", "compensate", "compensated", "compensation_failed"]

/-- Resolved effect columns of an effect-bearing receipt. -/
abbrev EffectColumns := Marker → PyVal

/-- The typed descriptor a caller passes as `effect_columns`. -/
abbrev EffectDescriptor := Marker → Option String

/-- `_derive_effect_columns`: `none` when there is no `effect_atomicity` marker. -/
def deriveEffectColumns (parameters : PyVal) : Except Exc (Option EffectColumns) :=
  match parameters with
  | .dict d =>
    let ea := PyDict.get d Marker.effectAtomicity.key
    if ea.isNone then .ok none
    else
      match ea.memberOf effectAtomicityDomain with
      | .error e => .error e
      | .ok false => .error (.effectDomainError "effect_atomicity not in closed domain")
      | .ok true =>
        let ph := PyDict.get d Marker.phase.key
        if ph.isNone then .ok (some fun m => PyDict.get d m.key)
        else
          match ph.memberOf effectPhaseDomain with
          | .error e => .error e
          | .ok false => .error (.effectDomainError "effect_phase not in closed domain")
          | .ok true => .ok (some fun m => PyDict.get d m.key)
  | _ => .ok none

/-- `_derive_effect_markers`: a marker stands for a column that is not empty. -/
def deriveEffectMarkers (columns : EffectDescriptor) (m : Marker) : Option String :=
  match columns m with
  | some s => if s = "" then none else some s
  | none => none

/-- A key of `_EFFECT_MARKER_KEYS`. -/
def isMarkerKey (k : PyKey) : Bool := Marker.all.any fun m => k == .str m.key

/-- The parameters without the effect markers. -/
def stripMarkers (d : PyDict) : PyDict := d.filter fun kv => !isMarkerKey kv.1

/-- A marker in the parameters that disagrees with its canonical column. -/
def diverges (d : PyDict) (columns : EffectDescriptor) (m : Marker) : Bool :=
  PyDict.has d m.key && !(PyDict.get d m.key).agrees (deriveEffectMarkers columns m)

/-- `_resolve_effect_surface(parameters, effect_columns, mirror_markers=False)`: the resolved
    columns and the committed parameters. -/
def resolveEffectSurface (parameters : PyVal) (effectColumns : Option EffectDescriptor) :
    Except Exc (Option EffectColumns × PyVal) :=
  match effectColumns with
  | none =>
    match deriveEffectColumns parameters with
    | .error e => .error e
    | .ok none => .ok (none, parameters)
    | .ok (some cols) =>
      .ok (some cols, .dict (stripMarkers ((parameters.dict?).getD [])))
  | some columns =>
    match columns .effectAtomicity with
    | none => .ok (none, parameters)
    | some ea =>
      if ea ∉ effectAtomicityDomain then
        .error (.effectDomainError "effect_atomicity not in closed domain")
      else if (columns .phase).any fun ph => !effectPhaseDomain.contains ph then
        .error (.effectDomainError "effect_phase not in closed domain")
      else
        let pin := (parameters.dict?).getD []
        if Marker.all.any (diverges pin columns) then
          .error (.effectDomainError "parameter marker diverges from the canonical typed column")
        else .ok (some fun m => PyVal.ofOpt (columns m), .dict (stripMarkers pin))

end Ugk
