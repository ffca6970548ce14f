import Mathlib.Data.List.Dedup
import Ugk.Native.BindingM2

/-!
# Governed context of a receipt

What `store.write` folds into the commitments beside its arguments: the freshness claim
(`freshness.py`), the policy (`governance/policy.py`), the authority key (`authority_keys.py`),
the canonical path through the authority graph (`authority_graph.py`), the attenuated capability
set (`capabilities.py`), the semantic lineage (`lineage.py`) and the namespace root
(`namespace.py`).
-/

namespace Ugk

/-! ## Signed artifacts -/

/-- `AuthorityEdge` -/
structure AuthorityEdge where
  issuer : String
  subject : String
  capabilitySet : List String
  edgeTime : Int
  validUntil : Int
  issuerKeyId : String
  signature : String
deriving DecidableEq

/-- `Policy` -/
structure Policy where
  subjects : List String
  decisionRules : List String
  version : String
  issuerKeyId : String
  signature : String
deriving DecidableEq

/-- `EpochIssuance` -/
structure EpochIssuance where
  phaseId : String
  epochCounter : Int
  validFrom : Int
  validUntil : Int
  issuerKeyId : String
  signature : String
deriving DecidableEq

/-- The deployment: the environment, the registrations an operator made in the process-wide
    registries, and the constants read from disk. -/
structure Config extends Env where
  /-- `register_policy` -/
  policies : List (String × Policy)
  /-- `register_authority_key` -/
  authorityKeys : List (String × String)
  /-- `register_edge`, oldest first -/
  edges : List AuthorityEdge
  /-- keys of `ops.APPLICATION_OPS` -/
  applicationOps : List String
  /-- `_pinned_codex_hash()` -/
  codexHash : String
  /-- `GOVERNOR_PUBKEY_HEX` -/
  governorPubkey : String
  /-- `_PHASE_CODE` -/
  phaseCode : String

/-- Canonical text of an artifact.  Artifacts hold strings, integers and lists of strings, which
    always have one. -/
def artifactText (env : Env) (v : PyVal) : List Char :=
  match canonicalJsonBytes env v with
  | .ok cs => cs
  | .error _ => []

/-- `SHA-256(canonical_json(artifact))` -/
def artifactId (env : Env) (v : PyVal) : String := (env.sha256 (text (artifactText env v))).hex

/-! ## Constitutional constants -/

/-- `SIGMA_0` -/
def sigma0 : PyVal := strDict [
  ("L", .str "governed-operation-declarations"), ("T", .str "intent-warrant-capability theory"),
  ("R", .str "UGK normalization rule set"), ("v", .str "0.1.0"),
  ("r_star", .str "deterministic-reduction-v1"), ("B", .str "UGK normalization bound"),
  ("imports", .list [])]

/-- `ID_SIGMA_0` -/
def idSigma0 (env : Env) : String := artifactId env sigma0

/-- `PHI_0` -/
def phi0 (env : Env) : PyVal := strDict [
  ("phase_code", .str "ugk-0.1.0"), ("regime_id", .str (idSigma0 env)), ("v", .str "0.1.0"),
  ("description", .str "UGK v0.1.0 canonical operating phase"), ("imports", .list [])]

/-- `ID_PHI_0` -/
def idPhi0 (env : Env) : String := artifactId env (phi0 env)

/-- `CAPABILITY_VOCABULARY`, sorted -/
def capabilityVocabulary : List String := ["attest", "bind", "evaluate", "read", "write"]

/-- `NAMESPACE_PHI_0`, sorted -/
def namespacePhi0 : List String := [
  "authority:Governor", "op:attest", "op:audit", "op:bind", "op:evaluate", "op:policy_evaluate",
  "phase:phi_0"]

/-- `MOSAIC_ROOT_PHI_0` -/
def mosaicRootPhi0 (env : Env) : String := artifactId env (strList namespacePhi0)

def defaultTestPrivkeyHex : String :=
  "78bb6a76a7b369ce5e4e0d607c9add1f407f9a501e3985eddafe772b21e056e1"

def defaultTestPubkeyHex : String :=
  "eb4bba3338cd3e2f4483ed4311e1fa24f7b86f2a0070b5b695534e13b85bc040"

/-- The horizon `(1 << 63) - 1` of default artifacts. -/
def defaultValidUntil : Int := 9223372036854775807

/-! ## Freshness -/

/-- `default_epoch` -/
def defaultEpoch (env : Env) (phaseId : String) : EpochIssuance where
  phaseId := phaseId
  epochCounter := 0
  validFrom := 0
  validUntil := defaultValidUntil
  issuerKeyId := defaultTestPubkeyHex
  signature := env.sign (artifactText env (strDict [
    ("phase_id", .str phaseId), ("epoch_counter", .int 0), ("valid_from", .int 0),
    ("valid_until", .int defaultValidUntil), ("issuer_key_id", .str defaultTestPubkeyHex)]))
    defaultTestPrivkeyHex

/-- `build_freshness_claim_from_epoch` -/
def buildFreshnessClaimFromEpoch (ei : EpochIssuance) : PyVal := strDict [
  ("phase_code", .str ei.phaseId), ("epoch_counter", .int ei.epochCounter),
  ("valid_from", .int ei.validFrom), ("valid_until", .int ei.validUntil),
  ("window_sig", .str ei.signature), ("issuer_key_id", .str ei.issuerKeyId)]

/-! ## Policy and authority key -/

/-- `default_policy_for` -/
def defaultPolicyFor (env : Env) (jurisdiction : String) : Policy where
  subjects := ["jurisdiction:" ++ jurisdiction]
  decisionRules := ["default-allow"]
  version := "v1"
  issuerKeyId := defaultTestPubkeyHex
  signature := env.sign (artifactText env (strDict [
    ("subjects", strList ["jurisdiction:" ++ jurisdiction]),
    ("decision_rules", strList ["default-allow"]), ("version", .str "v1"),
    ("issuer_key_id", .str defaultTestPubkeyHex)])) defaultTestPrivkeyHex

/-- `id_policy` -/
def idPolicy (env : Env) (p : Policy) : String := artifactId env (strDict [
  ("subjects", strList p.subjects), ("decision_rules", strList p.decisionRules),
  ("version", .str p.version), ("issuer_key_id", .str p.issuerKeyId),
  ("signature", .str p.signature)])

/-- `lookup_policy_id` -/
def lookupPolicyId (cfg : Config) (jurisdiction : String) : String :=
  idPolicy cfg.toEnv ((cfg.policies.lookup jurisdiction).getD (defaultPolicyFor cfg.toEnv jurisdiction))

/-- `derive_authority_key_id` -/
def deriveAuthorityKeyId (env : Env) (authorityName : String) : String :=
  (env.sha256 (strMsg "UGK-authority-key-id-v1" ++ strMsg authorityName)).hex

/-- `lookup_authority_key` -/
def lookupAuthorityKey (cfg : Config) (authorityName : String) : String :=
  (cfg.authorityKeys.lookup authorityName).getD (deriveAuthorityKeyId cfg.toEnv authorityName)

/-! ## Authority graph -/

/-- `GOVERNOR_AUTHORITY` -/
def governorAuthority : String := "Governor"

/-- `sign_authority_edge` of a default edge. -/
def defaultEdge (env : Env) (authorityName : String) : AuthorityEdge where
  issuer := governorAuthority
  subject := authorityName
  capabilitySet := capabilityVocabulary
  edgeTime := 0
  validUntil := defaultValidUntil
  issuerKeyId := defaultTestPubkeyHex
  signature := env.sign (artifactText env (strDict [
    ("issuer", .str governorAuthority), ("subject", .str authorityName),
    ("capability_set", strList capabilityVocabulary), ("edge_time", .int 0),
    ("valid_until", .int defaultValidUntil), ("issuer_key_id", .str defaultTestPubkeyHex)]))
    defaultTestPrivkeyHex

/-- `AuthorityEdge.to_canonical_dict` -/
def AuthorityEdge.toCanonicalDict (e : AuthorityEdge) : PyVal := strDict [
  ("issuer", .str e.issuer), ("subject", .str e.subject),
  ("capability_set", strList e.capabilitySet), ("edge_time", .int e.edgeTime),
  ("valid_until", .int e.validUntil), ("issuer_key_id", .str e.issuerKeyId),
  ("signature", .str e.signature)]

/-- The incoming edge of a subject: a registered one, or the default edge once it has been built
    (`built` names the authorities it was built for). -/
def edgeFor (cfg : Config) (built : List String) (subject : String) : Option AuthorityEdge :=
  match cfg.edges.reverse.find? fun e => e.subject == subject with
  | some e => some e
  | none => if subject ∈ built then some (defaultEdge cfg.toEnv subject) else none

/-- `_ensure_default_edge_for` -/
def ensureDefaultEdgeFor (cfg : Config) (built : List String) (authorityName : String) :
    List String :=
  if authorityName = governorAuthority then built
  else if (edgeFor cfg built authorityName).isSome then built
  else authorityName :: built

/-- The parent walk of `AuthorityGraph.canonical_path`, nearest edge first.  A walk visits no
    subject twice, so the fuel of `canonicalPathFor` is never used up. -/
def walkPath (cfg : Config) (built : List String) : Nat → List String → String →
    Except Exc (List AuthorityEdge)
  | 0, _, _ => .error (.valueError "cycle detected")
  | fuel + 1, seen, cursor =>
    if cursor = governorAuthority then .ok []
    else if cursor ∈ seen then .error (.valueError "cycle detected")
    else
      match edgeFor cfg built cursor with
      | none => .error (.valueError "no incoming edge")
      | some e => (walkPath cfg built fuel (cursor :: seen) e.issuer).map (e :: ·)

/-- `canonical_path_for`, the default edge being in place: from the root to the target. -/
def canonicalPathFor (cfg : Config) (built : List String) (authorityName : String) :
    Except Exc (List AuthorityEdge) :=
  (walkPath cfg built (cfg.edges.length + built.length + 2) [] authorityName).map List.reverse

/-- `compute_effective_capabilities`: `none` is a capability escalation. -/
def computeEffectiveCapabilities : List AuthorityEdge → List String → Option (List String)
  | [], effective => some effective
  | e :: path, effective =>
    if e.capabilitySet.all (· ∈ effective) then computeEffectiveCapabilities path e.capabilitySet
    else none

/-- `sorted(frozenset)` -/
def sortedSet (xs : List String) : List String := xs.dedup.insertionSort (· ≤ ·)

/-! ## Semantic lineage -/

/-- `lineage_as_dicts(build_lineage(parent_h_m, parent_intent_ref))` -/
def lineageDicts (parentHM parentIntentRef : Option String) : List PyVal :=
  match parentHM with
  | none => []
  | some h => [strDict [("parent_h_m", .str h), ("parent_intent_ref", .str (parentIntentRef.getD "")),
      ("edge_position", .int 0)]]

end Ugk
