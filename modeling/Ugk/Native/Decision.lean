import Ugk.Native.Outcome
import Ugk.Native.Authority

/-!
# Receipt decision procedures

`ugk/decision.py`, with the verifiers of the signed artifacts it calls: `freshness.py`,
`governance/policy.py` and `authority/authority_graph.py`.

The Ed25519 verification of the package, which never raises, is a parameter.
-/

namespace Ugk

/-- `verify(message, sig_hex, pubkey_hex)` -/
abbrev EdVerify := List Char → String → String → Bool

/-- `(ok, error_code)` -/
abbrev Verdict := Bool × Option String

def Verdict.pass : Verdict := (true, none)
def Verdict.fail (code : String) : Verdict := (false, some code)

/-- `if not ok: return (False, err)`, else go on. -/
def Verdict.andThen (v : Verdict) (next : Verdict) : Verdict := if v.1 then next else (false, v.2)

/-! ## Signed artifacts -/

/-- `AuthorityEdge.unsigned_payload` -/
def AuthorityEdge.unsignedPayload (env : Env) (e : AuthorityEdge) : List Char :=
  artifactText env (strDict [
    ("issuer", .str e.issuer), ("subject", .str e.subject),
    ("capability_set", strList e.capabilitySet), ("edge_time", .int e.edgeTime),
    ("valid_until", .int e.validUntil), ("issuer_key_id", .str e.issuerKeyId)])

/-- `Policy.unsigned_payload` -/
def Policy.unsignedPayload (env : Env) (p : Policy) : List Char :=
  artifactText env (strDict [
    ("subjects", strList p.subjects), ("decision_rules", strList p.decisionRules),
    ("version", .str p.version), ("issuer_key_id", .str p.issuerKeyId)])

/-- `EpochIssuance.unsigned_payload`, also the unsigned claim built from it. -/
def EpochIssuance.unsignedPayload (env : Env) (ei : EpochIssuance) : List Char :=
  artifactText env (strDict [
    ("phase_id", .str ei.phaseId), ("epoch_counter", .int ei.epochCounter),
    ("valid_from", .int ei.validFrom), ("valid_until", .int ei.validUntil),
    ("issuer_key_id", .str ei.issuerKeyId)])

/-- Issuer and signature of an artifact. -/
def verifySigned (verify : EdVerify) (payload : List Char) (signature issuerKeyId pubkey : String) :
    Verdict :=
  if issuerKeyId ≠ pubkey then .fail "IssuerMismatch"
  else if verify payload signature pubkey then .pass
  else .fail "SignatureInvalid"

/-- `verify_policy` -/
def verifyPolicy (env : Env) (verify : EdVerify) (p : Policy) (pubkey : String) : Verdict :=
  verifySigned verify (p.unsignedPayload env) p.signature p.issuerKeyId pubkey

/-- `verify_epoch_issuance` -/
def verifyEpochIssuance (env : Env) (verify : EdVerify) (ei : EpochIssuance) (pubkey : String) :
    Verdict :=
  verifySigned verify (ei.unsignedPayload env) ei.signature ei.issuerKeyId pubkey

/-- `verify_freshness_claim` of the claim built from an epoch. -/
def verifyFreshnessClaim (env : Env) (verify : EdVerify) (ei : EpochIssuance) (currentEpoch : Int)
    (currentPhaseId pubkey : String) : Verdict :=
  if ei.phaseId ≠ currentPhaseId then .fail "PhaseMismatch"
  else if currentEpoch < ei.validFrom then .fail "NotYetAdmissible"
  else if currentEpoch > ei.validUntil then .fail "ExpiredEdge"
  else verifyEpochIssuance env verify ei pubkey

/-- `verify_authority_edge` -/
def verifyAuthorityEdge (env : Env) (verify : EdVerify) (e : AuthorityEdge) (pubkey : String)
    (currentTime : Option Int) : Verdict :=
  (verifySigned verify (e.unsignedPayload env) e.signature e.issuerKeyId pubkey).andThen
    (if currentTime.any (· > e.validUntil) then .fail "ExpiredEdge" else .pass)

end Ugk
