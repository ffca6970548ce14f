import Ugk.Native.Execute
import Ugk.Native.ExternalEffects
import Ugk.Native.NamespaceGovernance

/-!
# The compensation arc

`compensate_external_reversible` of `ugk/kernel.py`: the separately governed offset of a committed
reversible effect, with its own intent, its own terminal and a key of its own.
-/

namespace Ugk

/-- `isinstance(v, str) and v.strip()`, with the string; the exception otherwise. -/
def nonBlank (env : Env) (v : PyVal) (e : Exc) : Except Exc String :=
  match v with
  | .str s => if strip env s = "" then .error e else .ok s
  | _ => .error e

/-- `isinstance(v, str) and v`, with the string; the exception otherwise. -/
def nonEmpty (v : PyVal) (e : Exc) : Except Exc String :=
  match v with
  | .str s => if s = "" then .error e else .ok s
  | _ => .error e

namespace Kernel

/-- `compose_compensation_key` -/
def composeCompensationKey (idempotencyKey : String) (phase : String := "compensate") : String :=
  idempotencyKey ++ "::" ++ phase

/-- The arguments of `compensate_external_reversible`, with its defaults.  `None` stands for a
    `compensation_effect` that is not callable. -/
structure CompensateArgs where
  prepareRef : PyVal
  compensationEffect : Option (Proc World Exc PyVal)
  compensationIdempotencyKey : PyVal
  authority : PyVal
  jurisdiction : String := "session"
  intentRef : Option String := none
  warrantId : Option String := none

/-- A compensation that passed its checks. -/
structure Compensation where
  authority : String
  compensationIdempotencyKey : String
  prepareRef : String
  effect : Proc World Exc PyVal
  fwdOp : String
  fwdKey : PyVal

/-- The checks of a compensation: its arguments, the forward effect it offsets, and its key. -/
def checkCompensation (env : Env) (rows : List Row) (a : CompensateArgs) :
    Except Exc Compensation := do
  let authority ← nonBlank env a.authority (.compensationRefused "authority-required")
  let key ← nonBlank env a.compensationIdempotencyKey
    (.compensationRefused "compensation-key-required")
  let prepareRef ← nonEmpty a.prepareRef (.compensationRefused "prepare_ref-required")
  match a.compensationEffect with
  | none => .error (.compensationRefused "compensation-effect-required")
  | some effect =>
    let receipts ← allReceipts env rows
    match findCommittedForward receipts prepareRef with
    | none => .error (.compensationRefused "not-a-compensable-committed-forward-effect")
    | some (fwdOp, fwdKey) =>
      if fwdKey.isStr key then
        .error (.compensationRefused "ambiguous-compensation-key-reuses-forward-key")
      else .ok {
        authority := authority
        compensationIdempotencyKey := key
        prepareRef := prepareRef
        effect := effect
        fwdOp := fwdOp
        fwdKey := fwdKey }

/-- What the receipts of a compensation have in common.  The key columns hold text. -/
def compensationTrail (a : CompensateArgs) (c : Compensation) : Trail where
  op := c.fwdOp
  authority := c.authority
  baseParams := [(.str "compensates_prepare_ref", .str c.prepareRef)]
  idempotencyKey := c.fwdKey.str?
  jurisdiction := a.jurisdiction
  intentRef := a.intentRef.getD ""
  warrantId := a.warrantId.getD ""

/-- A phase of a compensation. -/
def compensationPhase (c : Compensation) (phase : String) : Phase where
  phase := phase
  compensateRef := some c.prepareRef
  compensationIdempotencyKey := some c.compensationIdempotencyKey

variable (rt : Runtime)

/-- `compensate_external_reversible`: COMPENSATE, the offsetting action, and its terminal. -/
def compensateExternalReversible (a : CompensateArgs) : Proc World Exc PyVal := do
  let w ← Proc.get
  let c ← Proc.lift (checkCompensation rt.toEnv (Store.rows w.store) a)
  let t := compensationTrail a c
  let _ ← emitReversible rt t (compensationPhase c "compensate")
  match ← Proc.attempt (runEffect c.effect) with
  | .ok result =>
    let _ ← emitReversibleTerminalDurable rt t (compensationPhase c "compensated")
    pure result
  | .error e =>
    let _ ← emitReversibleTerminalDurable rt t { compensationPhase c "compensation_failed" with
      failed := true
      abortReason := some "compensation_effect_failed" }
    Proc.raise e

end Kernel

end Ugk
