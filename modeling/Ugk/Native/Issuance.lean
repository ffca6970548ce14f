import Ugk.Native.Decision
import Ugk.Native.Ed25519

/-!
# Issuing signed artifacts

The signing side of the artifacts that `Native.Decision` and `Native.Amendment` check, with the
vendored Ed25519: `sign_epoch_issuance` and `sign_epoch_retirement` of `freshness.py`, `sign_policy`
of `governance/policy.py`, `sign_authority_edge` of `authority/authority_graph.py`, and the seal of the
validator set and the Launch IC of `csh.py`.
-/

namespace Ugk

namespace Ed25519

/-- `s.encode("utf-8")` -/
def utf8 (cs : List Char) : List UInt8 := (String.ofList cs).toUTF8.data.toList

/-- `verify` on encoded text. -/
def verifyText (sha : Sha512) : EdVerify := fun m sigHex pubkeyHex =>
  verify sha (utf8 m) sigHex pubkeyHex

/-- `sign` on encoded text, where the private key is hex. -/
def signText (sha : Sha512) (m : List Char) (privkeyHex : String) : String :=
  match sign sha (utf8 m) privkeyHex with
  | .ok sig => sig
  | .error _ => ""

end Ed25519

open Ed25519 (Sha512 utf8)

variable (env : Env) (sha : Sha512)

/-! ## Epochs -/

/-- `sign_epoch_issuance` -/
def signEpochIssuance (phaseId : String) (epochCounter validFrom validUntil : Int)
    (issuerKeyId signerPrivkeyHex : String) : Except Exc EpochIssuance := do
  let unsigned : EpochIssuance :=
    ⟨phaseId, epochCounter, validFrom, validUntil, issuerKeyId, ""⟩
  let sig ← Ed25519.sign sha (utf8 (unsigned.unsignedPayload env)) signerPrivkeyHex
  .ok { unsigned with signature := sig }

/-- `EpochRetirement` -/
structure EpochRetirement where
  phaseId : String
  retiredEpoch : Int
  retirementTime : Int
  issuerKeyId : String
  signature : String
deriving DecidableEq

/-- `EpochRetirement.unsigned_payload` -/
def EpochRetirement.unsignedPayload (er : EpochRetirement) : List Char :=
  artifactText env (strDict [
    ("phase_id", .str er.phaseId), ("retired_epoch", .int er.retiredEpoch),
    ("retirement_time", .int er.retirementTime), ("issuer_key_id", .str er.issuerKeyId)])

/-- `sign_epoch_retirement` -/
def signEpochRetirement (phaseId : String) (retiredEpoch retirementTime : Int)
    (issuerKeyId signerPrivkeyHex : String) : Except Exc EpochRetirement := do
  let unsigned : EpochRetirement := ⟨phaseId, retiredEpoch, retirementTime, issuerKeyId, ""⟩
  let sig ← Ed25519.sign sha (utf8 (unsigned.unsignedPayload env)) signerPrivkeyHex
  .ok { unsigned with signature := sig }

/-- `verify_epoch_retirement` -/
def verifyEpochRetirement (verify : EdVerify) (er : EpochRetirement) (pubkey : String) : Verdict :=
  verifySigned verify (er.unsignedPayload env) er.signature er.issuerKeyId pubkey

/-! ## Policies and edges -/

/-- `sign_policy` -/
def signPolicy (subjects decisionRules : List String)
    (version issuerKeyId signerPrivkeyHex : String) : Except Exc Policy := do
  let unsigned : Policy := ⟨subjects, decisionRules, version, issuerKeyId, ""⟩
  let sig ← Ed25519.sign sha (utf8 (unsigned.unsignedPayload env)) signerPrivkeyHex
  .ok { unsigned with signature := sig }

/-- `sign_authority_edge`: the capability set is sorted before it is signed. -/
def signAuthorityEdge (issuer subject : String) (capabilitySet : List String)
    (edgeTime validUntil : Int) (issuerKeyId signerPrivkeyHex : String) :
    Except Exc AuthorityEdge := do
  let unsigned : AuthorityEdge := ⟨issuer, subject, capabilitySet.insertionSort (· ≤ ·), edgeTime,
    validUntil, issuerKeyId, ""⟩
  let sig ← Ed25519.sign sha (utf8 (unsigned.unsignedPayload env)) signerPrivkeyHex
  .ok { unsigned with signature := sig }

/-! ## Finality artifacts -/

namespace Csh

/-- `ValidatorSet.verify_seal`: the sealed hash is neither signed nor recomputed. -/
def ValidatorSet.verifySeal (env : Signing) (vs : ValidatorSet) : Bool :=
  env.verify (sealPayload env.toEnv vs.nValidators vs.sealedBy vs.validators) vs.sealSignature
    vs.sealerPubkey

/-- `InceptionCertificate` -/
structure InceptionCertificate where
  icType : String
  phaseCode : String
  constitutionalHash : String
  mosaicRoot : String
  dimensionId : String
  nValidators : Int
  validatorSetHash : String
  sunsetDeclared : Bool
  timestamp : String
  signature : String
  governorPubkey : String
deriving DecidableEq

namespace InceptionCertificate

/-- `ic_payload` -/
def icPayload (env : Env) (ic : InceptionCertificate) : List Char := spacedText env (strDict [
  ("constitutional_hash", .str ic.constitutionalHash), ("dimension_id", .str ic.dimensionId),
  ("ic_type", .str ic.icType), ("mosaic_root", .str ic.mosaicRoot),
  ("n_validators", .int ic.nValidators), ("phase_code", .str ic.phaseCode),
  ("sunset_declared", .bool ic.sunsetDeclared), ("timestamp", .str ic.timestamp),
  ("validator_set_hash", .str ic.validatorSetHash)])

/-- `verify` -/
def verify (env : Signing) (ic : InceptionCertificate) : Bool :=
  env.verify (ic.icPayload env.toEnv) ic.signature ic.governorPubkey

/-- `ic_hash` -/
def icHash (env : Env) (ic : InceptionCertificate) : String :=
  (env.sha256 (text (ic.icPayload env))).hex

end InceptionCertificate

/-- `create_launch_ic` -/
def createLaunchIc (env : Signing) (privkeyHex pubkeyHex constitutionalHash dimensionId phaseCode
    validatorSetHash : String) (nValidators : Int) (timestamp : String) : InceptionCertificate :=
  let ic : InceptionCertificate := ⟨"trusted-genesis", phaseCode, constitutionalHash,
    mosaicId env.toEnv pubkeyHex, dimensionId, nValidators, validatorSetHash, true, timestamp, "",
    pubkeyHex⟩
  { ic with signature := env.sign (ic.icPayload env.toEnv) privkeyHex }

end Csh

end Ugk
