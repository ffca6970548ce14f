import Ugk.Native.Amendment

/-!
# The amendment ledger

How a holder of the Governor key signs succession links and amendment records, and the walk by which
`conformance/amendment_admissibility_gate.py` validates the ledger as a chain.  The gate's hard-coded
genesis prefix and its negative samples are left out.
-/

namespace Ugk

namespace Amendment

variable (env : Keys)

/-! ## Signing -/

/-- `sign_as_governor` -/
def signAsGovernor (privkeyHex : String) (message : List Char) : String :=
  env.sign message privkeyHex

/-- The hash of the link with its proof. -/
def SuccessorLineage.fullHash (link : SuccessorLineage) : String :=
  (env.sha256 (text (spacedText env.toEnv (strDict [
    ("amendment_hash", .str link.amendmentHash), ("authority", .str link.authority),
    ("predecessor_mosaic", .str link.predecessorMosaic),
    ("successor_mosaic", .str link.successorMosaic),
    ("successor_pubkey", .str link.successorPubkey), ("timestamp", .str link.timestamp),
    ("succession_proof", .str link.successionProof)])))).hex

/-- `verify_hash` -/
def SuccessorLineage.verifyHash (link : SuccessorLineage) : Bool :=
  link.fullHash env == link.lineageHash

/-- `_lineage`, of any amendment hash and timestamp. -/
def lineage (predPriv predPub succPub amendmentHash timestamp : String) :
    Except Exc SuccessorLineage := do
  let predecessor ← mosaic env predPub
  let successor ← mosaic env succPub
  let body : SuccessorLineage := ⟨"", predecessor, successor, succPub, "", predecessor,
    amendmentHash, timestamp⟩
  let signed := { body with
    successionProof := signAsGovernor env predPriv (spacedText env.toEnv body.body) }
  .ok { signed with lineageHash := signed.fullHash env }

/-- `_erec`, of any record: the key signs it as its authority. -/
def erec (priv pub : String) (r : AmendmentRecord) : Except Exc AmendmentRecord := do
  let auth ← mosaic env pub
  let pay := { r with authority := auth }.signedPayload env.toEnv
  .ok (.create env.toEnv { r with authority := auth, signature := signAsGovernor env priv pay })

/-! ## The chain walk -/

/-- `a or b` of strings -/
def orElse (a b : String) : String := if a = "" then b else a

/-- The frame a record moves to: committed legs are applied, the others stay. -/
def AmendmentRecord.apply (cur : AmendmentRecord) (pf : Frame) : Frame :=
  ⟨cur.successorLawHash, orElse cur.successorLegendHash pf.legendHash,
    orElse cur.successorSchemaHash pf.schemaHash⟩

end Amendment

end Ugk
