import Mathlib.Data.Finset.Basic
import Ugk.Native.PyValue

/-!
# The A1 verifier

`ugk/authority/a1_verifier.py`: the authorities an effect needs are found again by running
admissibility on the chain without each of them, and compared with the ones that are claimed.  An
authority is any hashable value.
-/

namespace Ugk.A1

/-- `A1Posture` -/
structure A1Posture where
  a1Enabled : Bool := false
deriving DecidableEq, Repr

/-- `EffectClaim`, without the staging that nothing reads. -/
structure EffectClaim (α : Type*) where
  claimedAuthorities : List α := []
  ccVersion : String := "c_c.v1"

/-- `route_version` -/
def routeVersion (ccVersion : String) : String :=
  if ccVersion = "c_c.v1" then "v1-rule"
  else if ccVersion = "c_c.v2" then "v2-rule"
  else "FAIL-CLOSED"

variable {α : Type*} [DecidableEq α]

/-- `[x for x in authority_chain if x != A]` -/
def reduced (authorityChain : List α) (a : α) : List α := authorityChain.filter fun x => x ≠ a

/-- `reconstruct_auth` -/
def reconstructAuth (authorityChain : List α) (admissibilityFn : List α → Bool) : Finset α :=
  authorityChain.foldl (fun auth a =>
    if admissibilityFn (reduced authorityChain a) then auth else insert a auth) ∅

/-- `verify_a1` -/
def verifyA1 (op : String) (authorityChain : List α) (claim : EffectClaim α)
    (admissibilityFn : List α → Bool) (posture : A1Posture) : Except Exc String :=
  if !posture.a1Enabled then .ok "a1-disabled"
  else
    let route := routeVersion claim.ccVersion
    if route = "FAIL-CLOSED" then .error (.gateRefusal op "A1-UNKNOWN-CANON-VERSION")
    else
      let actual := reconstructAuth authorityChain admissibilityFn
      let claimed := claim.claimedAuthorities.toFinset
      if route = "v1-rule" then
        match authorityChain with
        | [a] =>
          if a ∉ actual then .error (.gateRefusal op "A1-NONCUTSET-CLAIM") else .ok "legit"
        | _ => .error (.gateRefusal op "A1-VERSION-MISMATCH")
      else if actual \ claimed ≠ ∅ then .error (.gateRefusal op "A1-OMITTED-AUTHORITY")
      else if claimed \ actual ≠ ∅ then .error (.gateRefusal op "A1-NONCUTSET-CLAIM")
      else .ok "legit"

end Ugk.A1
