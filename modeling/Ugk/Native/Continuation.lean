import Ugk.Native.NamespaceGovernance

/-!
# Expiry of a continuation

`continuation_expired` of `ugk/storage/store.py`.
-/

namespace Ugk

/-- `int(v)`.  No validated record holds a float here. -/
def pyIntOf (env : Env) : PyVal → Except Exc Int
  | .int n => .ok n
  | .bool b => .ok (if b then 1 else 0)
  | .str s =>
    match pyInt env s with
    | some n => .ok n
    | none => .error (.valueError "invalid literal for int() with base 10")
  | _ => .error (.typeError "int() argument must be a string or a real number")

/-- `continuation_expired`: the basis is the committed JSON text, or a dictionary. -/
def continuationExpired (env : Env) (expiryBasis : PyVal) (currentHeight : Nat)
    (committedTriggers : List PyVal := []) : Except Exc Bool := do
  if expiryBasis.isNone then .ok false
  else
    let eb ← match expiryBasis with
      | .str s => loads env s
      | v => .ok v
    match eb with
    | .dict d =>
      let kind := PyDict.get d "kind"
      let value := PyDict.get d "value"
      if kind.isStr "receipt_height" then
        if PyDict.has d "value" then (pyIntOf env value).map fun n => decide (n ≤ (currentHeight : Int))
        else .error (.userException "KeyError")
      else if kind.isStr "explicit_trigger" then
        if !PyDict.has d "value" then .error (.userException "KeyError")
        else if value.unhashable then .error (.typeError "unhashable type")
        else .ok (committedTriggers.any fun t => containerEq env t value)
      else .error (.valueError "unknown continuation expiry kind")
    | _ => .error attributeError

end Ugk
