import Ugk.Native.Authority
import Ugk.Native.Outcome

/-!
# CSH finality

`ugk/csh.py`: attestations of a constitutional hash, the sealed validator set, the detection of
equivocation and the quorum count of `achieve_finality`.
-/

namespace Ugk

namespace Csh

/-- The runtime with the check of `ugk/vendor/ed25519.py`. -/
structure Signing extends Env where
  /-- `ed25519.verify(message, signature, public key)` -/
  verify : List Char → String → String → Bool

/-- `mosaic_id` -/
def mosaicId (env : Env) (governorPubkey : String) : String :=
  (env.sha256 (strMsg governorPubkey)).hex

/-! ## Attestations -/

/-- `Attestation` -/
structure Attestation where
  mosaicRoot : String
  constitutionalHash : String
  phaseCode : String
  epoch : Int
  timestamp : String
  signature : String
  pubkeyHex : String
deriving DecidableEq

namespace Attestation

/-- The body of `sig_payload`. -/
def sigBody (a : Attestation) : PyVal := strDict [
  ("constitutional_hash", .str a.constitutionalHash), ("epoch", .int a.epoch),
  ("mosaic_root", .str a.mosaicRoot), ("phase_code", .str a.phaseCode),
  ("timestamp", .str a.timestamp)]

/-- `sig_payload` -/
def sigPayload (env : Env) (a : Attestation) : List Char := spacedText env a.sigBody

/-- `verify`: under the key the attestation carries. -/
def verify (env : Signing) (a : Attestation) : Bool :=
  env.verify (a.sigPayload env.toEnv) a.signature a.pubkeyHex

end Attestation

/-- `create_attestation` -/
def createAttestation (env : Signing) (privkeyHex pubkeyHex constitutionalHash phaseCode : String)
    (epoch : Int) (timestamp : String) : Attestation :=
  let unsigned : Attestation := ⟨mosaicId env.toEnv pubkeyHex, constitutionalHash, phaseCode, epoch,
    timestamp, "", pubkeyHex⟩
  { unsigned with signature := env.sign (unsigned.sigPayload env.toEnv) privkeyHex }

/-! ## The validator set -/

/-- `ValidatorSet` -/
structure ValidatorSet where
  validators : List String
  nValidators : Nat
  sealedBy : String
  sealedHash : String
  sealSignature : String
  sealerPubkey : String

/-- `contains` -/
def ValidatorSet.contains (vs : ValidatorSet) (mosaicRoot : String) : Bool :=
  vs.validators.contains mosaicRoot

/-- `compute_sealed_hash` -/
def computeSealedHash (env : Env) (validators : List String) : String :=
  (env.sha256 (text (spacedText env (strDict [
    ("validators", strList (validators.insertionSort (· ≤ ·)))])))).hex

/-- `seal_payload` -/
def sealPayload (env : Env) (nValidators : Nat) (sealedBy : String) (validators : List String) :
    List Char :=
  spacedText env (strDict [("n_validators", .int nValidators), ("sealed_by", .str sealedBy),
    ("validators", strList validators)])

/-- `seal_validator_set`: one identity may be listed twice. -/
def sealValidatorSet (env : Signing) (privkeyHex pubkeyHex : String) (validators : List String) :
    ValidatorSet :=
  let sorted := validators.insertionSort (· ≤ ·)
  let mosaic := mosaicId env.toEnv pubkeyHex
  { validators := sorted
    nValidators := sorted.length
    sealedBy := mosaic
    sealedHash := computeSealedHash env.toEnv sorted
    sealSignature := env.sign (sealPayload env.toEnv sorted.length mosaic sorted) privkeyHex
    sealerPubkey := pubkeyHex }

/-! ## Equivocation -/

/-- The hashes a validator has attested in an epoch: `by_validator[key]`. -/
def attestedHashes (attestations : List Attestation) (key : String × Int) : List String :=
  ((attestations.filter fun a => decide ((a.mosaicRoot, a.epoch) = key)).map
    Attestation.constitutionalHash).dedup

/-- `detect_equivocation`: no signature is checked here. -/
def detectEquivocation (attestations : List Attestation) : List String :=
  let keys := (attestations.map fun a => (a.mosaicRoot, a.epoch)).dedup
  sortedSet ((keys.filter fun key =>
    decide (1 < (attestedHashes attestations key).length)).map Prod.fst)

/-! ## Finality -/

/-- `_quorum_threshold` -/
def quorumThreshold (nValidators : Nat) : Nat := max 1 ((2 * nValidators + 1 + 2) / 3)

/-- What the loop of `achieve_finality` has sorted out so far. -/
structure Tally where
  valid : List Attestation := []
  invalid : List Attestation := []
  seen : List String := []

/-- One round of the loop. -/
def tallyOne (env : Signing) (vs : ValidatorSet) (constitutionalHash : String)
    (equivocators : List String) (t : Tally) (a : Attestation) : Tally :=
  if a.mosaicRoot ∈ equivocators then { t with invalid := t.invalid ++ [a] }
  else if !vs.contains a.mosaicRoot then { t with invalid := t.invalid ++ [a] }
  else if a.constitutionalHash ≠ constitutionalHash then { t with invalid := t.invalid ++ [a] }
  else if !a.verify env then { t with invalid := t.invalid ++ [a] }
  -- one attestation per validator: the first that gets here counts
  else if a.mosaicRoot ∈ t.seen then t
  else { t with valid := t.valid ++ [a], seen := a.mosaicRoot :: t.seen }

/-- The loop. -/
def tally (env : Signing) (vs : ValidatorSet) (constitutionalHash : String)
    (attestations : List Attestation) : Tally :=
  attestations.foldl
    (tallyOne env vs constitutionalHash (detectEquivocation attestations)) {}

end Csh

end Ugk
