import Ugk.Native.Store

/-!
# Receipt witnesses

`ugk/witness.py`: a witness opens one of the seven leaves of a receipt.  `construct_witness` computes
the leaves from the receipt and the registries; `verify_witness` recomputes one leaf from the
disclosed values and follows the inclusion path.

The disclosed values are arbitrary, so the canonicalisation functions are given here on Python
values, with the checks they make themselves.
-/

namespace Ugk

open Store

/-! ## `bytes.fromhex` -/

/-- White space between the bytes of a hex text. -/
def isHexSpace (c : Char) : Bool := c == ' ' || (9 ≤ c.toNat && c.toNat ≤ 13)

/-- The digits of a hex text in lower case, two a byte. -/
def hexPairs : List Char → Option (List Char)
  | [] => some []
  | [c] => if isHexSpace c then some [] else none
  | c :: c' :: cs =>
    if isHexSpace c then hexPairs (c' :: cs)
    else
      match Json.hexVal c, Json.hexVal c', hexPairs cs with
      | some hi, some lo, some digits => some (Nat.digitChar hi :: Nat.digitChar lo :: digits)
      | _, _, _ => none

/-- `bytes.fromhex`, the bytes given by their hex digest.  `none` is a `ValueError`, and the empty
    byte string, which is no digest. -/
def fromHex (s : String) : Option Digest :=
  match hexPairs s.toList with
  | none => none
  | some digits =>
    if h : String.ofList digits ≠ "" ∧ isAscii (String.ofList digits) = true then
      some ⟨String.ofList digits, h.1, h.2⟩
    else none

/-! ## Commitments of disclosed values -/

section

variable (env : Env)

/-- `c_s` -/
def cSOf (opName inputs : PyVal) : Except Exc (List Char) :=
  match opName with
  | .str op => cS env op inputs
  | _ => .error (.nonCanonical "op_name must be str")

/-- `c_c` -/
def cCOf (authorityChain policyId capabilities warrantBasis parentHR freshness : PyVal) :
    Except Exc (List Char) :=
  match authorityChain with
  | .list _ =>
    match canonicalJson env authorityChain with
    | .error e => .error e
    | .ok chain =>
      orNonCanonical "c_c" (canonicalJson env (strDict [
        ("G_c_root", .str (env.sha256 (text chain)).hex), ("policy_id", policyId),
        ("capabilities", capabilities), ("warrant_basis", warrantBasis), ("parent", parentHR),
        ("freshness", freshness)]))
  | _ => .error (.nonCanonical "authority_chain must be list")

/-- `c_m` -/
def cMOf (intent intentRef legendHash semanticLineage : PyVal) : Except Exc (List Char) :=
  orNonCanonical "c_m" (canonicalJson env (strDict [
    ("intent", intent), ("intent_ref", intentRef), ("legend_hash", legendHash),
    ("semantic_lineage", semanticLineage)]))

/-- `c_j` -/
def cJOf (phaseCode mosaicRoot sessionId authorityKey : PyVal) : Except Exc (List Char) :=
  match canonicalJson env (strDict [("phase_code", phaseCode), ("mosaic_root", mosaicRoot),
      ("session_id", sessionId)]) with
  | .error _ => .error (.nonCanonical "c_j canonicalization failed")
  | .ok phi =>
    orNonCanonical "c_j" (canonicalJson env (strDict [
      ("phi", .str (env.sha256 (strMsg "UGK-PHI-v1" ++ text phi)).hex),
      ("authority_key", authorityKey)]))

/-- `v.encode("utf-8")` -/
def encodeUtf8 : PyVal → Except Exc String
  | .str s => .ok s
  | _ => .error (.userException "AttributeError")

/-- `opened_input[key]` -/
def openedField (openedInput : PyVal) (key : String) : Except Exc PyVal :=
  match openedInput with
  | .dict d =>
    match d.lookup (.str key) with
    | some v => .ok v
    | none => .error (.userException "KeyError")
  | _ => .error (.typeError "object is not subscriptable by a string")

/-- `_recompute_leaf_hash` -/
def recomputeLeafHash (leafTag : Int) (openedInput : PyVal) : Except Exc Digest :=
  if leafTag = tagHS then do
    let op ← openedField openedInput "op"
    let parameters ← openedField openedInput "parameters"
    let c ← cSOf env op parameters
    .ok (env.sha256 (strMsg dsS ++ strMsg idCS ++ text c))
  else if leafTag = tagHC then do
    let authorityChain ← openedField openedInput "authority_chain"
    let policyId ← openedField openedInput "policy_id"
    let capabilities ← openedField openedInput "capabilities"
    let warrantBasis ← openedField openedInput "warrant_basis"
    let parentHR ← openedField openedInput "parent_H_r"
    let freshness ← openedField openedInput "freshness"
    let c ← cCOf env authorityChain policyId capabilities warrantBasis parentHR freshness
    .ok (env.sha256 (strMsg dsC ++ strMsg idCC ++ text c))
  else if leafTag = tagHM then do
    let intent ← openedField openedInput "intent"
    let intentRef ← openedField openedInput "intent_ref"
    let legendHash ← openedField openedInput "legend_hash"
    let semanticLineage ← openedField openedInput "semantic_lineage"
    let semanticRegimeId ← openedField openedInput "semantic_regime_id"
    let c ← cMOf env intent intentRef legendHash semanticLineage
    let regime ← encodeUtf8 semanticRegimeId
    .ok (env.sha256 (strMsg dsM ++ strMsg idCM ++ text c ++ strMsg regime))
  else if leafTag = tagHJ then do
    let phaseCode ← openedField openedInput "phase_code"
    let mosaicRoot ← openedField openedInput "mosaic_root"
    let sessionId ← openedField openedInput "session_id"
    let authorityKey ← openedField openedInput "authority_key"
    let c ← cJOf env phaseCode mosaicRoot sessionId authorityKey
    .ok (env.sha256 (strMsg dsJ ++ strMsg idCJ ++ text c))
  else if leafTag = tagIdP then do
    let policyId ← openedField openedInput "policy_id"
    let s ← encodeUtf8 policyId
    .ok (hIdP env s)
  else if leafTag = tagIdSigma then do
    let semanticRegimeId ← openedField openedInput "semantic_regime_id"
    let s ← encodeUtf8 semanticRegimeId
    .ok (hIdSigma env s)
  else if leafTag = tagIdPhi then do
    let phaseCode ← openedField openedInput "phase_code"
    let s ← encodeUtf8 phaseCode
    .ok (hIdPhi env s)
  else .error (.valueError s!"unknown leaf_tag: {leafTag}")

end

/-! ## Witnesses -/

/-- A `Witness`.  An inclusion path that is not made of byte strings and sides makes
    `verify_witness` raise. -/
structure Witness where
  leafTag : Int
  openedInput : PyVal
  inclusionPath : ProofPath
  hRClaimed : String

section

variable (cfg : Config) (built : List String)

/-- `canonical_path_for`: the default edge of the authority is built first. -/
def witnessPath (receipt : Receipt) : Except Exc (List AuthorityEdge) :=
  canonicalPathFor cfg (ensureDefaultEdgeFor cfg built receipt.authority) receipt.authority

/-- `[warrant_id] if warrant_id else []` -/
def warrantBasis (receipt : Receipt) : List String :=
  if receipt.warrantId = "" then [] else [receipt.warrantId]

/-- `_reconstruct_leaves_for`: the lineage is taken to be empty. -/
def reconstructLeavesFor (receipt : Receipt) : Except Exc (List (Nat × Digest)) := do
  let env := cfg.toEnv
  let policyId := lookupPolicyId cfg receipt.jurisdiction
  let path ← witnessPath cfg built receipt
  let capabilities ← effectiveCapabilities path
  let hs ← hS env receipt.op receipt.parameters
  let hc ← hC env (path.map AuthorityEdge.toCanonicalDict) policyId capabilities
    (warrantBasis receipt) receipt.parentHR
    (buildFreshnessClaimFromEpoch (defaultEpoch env (idPhi0 env)))
  let hm ← hM env receipt.intent receipt.intentRef receipt.legendHash [] (idSigma0 env)
  let hj ← hJ env (idPhi0 env) (mosaicRootPhi0 env) receipt.sessionDkn
    (lookupAuthorityKey cfg receipt.authority)
  .ok (strictLeaves hs hc hm hj (hIdP env policyId) (hIdSigma env (idSigma0 env))
    (hIdPhi env (idPhi0 env)))

/-- `_opened_input_for` -/
def openedInputFor (receipt : Receipt) (leafTag : Nat) : Except Exc PyVal := do
  let env := cfg.toEnv
  let policyId := lookupPolicyId cfg receipt.jurisdiction
  let path ← witnessPath cfg built receipt
  let capabilities ← effectiveCapabilities path
  if leafTag = tagHS then
    .ok (strDict [("op", .str receipt.op), ("parameters", receipt.parameters)])
  else if leafTag = tagHC then
    .ok (strDict [
      ("authority_chain", .list (path.map AuthorityEdge.toCanonicalDict)),
      ("policy_id", .str policyId), ("capabilities", strList capabilities),
      ("warrant_basis", strList (warrantBasis receipt)), ("parent_H_r", .str receipt.parentHR),
      ("freshness", buildFreshnessClaimFromEpoch (defaultEpoch env (idPhi0 env)))])
  else if leafTag = tagHM then
    .ok (strDict [
      ("intent", .str receipt.intent), ("intent_ref", .str receipt.intentRef),
      ("legend_hash", .str receipt.legendHash), ("semantic_lineage", .list []),
      ("semantic_regime_id", .str (idSigma0 env))])
  else if leafTag = tagHJ then
    .ok (strDict [
      ("phase_code", .str (idPhi0 env)), ("mosaic_root", .str (mosaicRootPhi0 env)),
      ("session_id", .str receipt.sessionDkn),
      ("authority_key", .str (lookupAuthorityKey cfg receipt.authority))])
  else if leafTag = tagIdP then .ok (strDict [("policy_id", .str policyId)])
  else if leafTag = tagIdSigma then .ok (strDict [("semantic_regime_id", .str (idSigma0 env))])
  else if leafTag = tagIdPhi then .ok (strDict [("phase_code", .str (idPhi0 env))])
  else .error (.valueError s!"unknown leaf_tag: {leafTag}")

/-- `construct_witness` -/
def constructWitness (receipt : Receipt) (leafTag : Nat) : Except Exc Witness := do
  let leaves ← reconstructLeavesFor cfg built receipt
  let proof ← buildInclusionProof cfg.toEnv leaves leafTag
  let openedInput ← openedInputFor cfg built receipt leafTag
  .ok {
    leafTag := leafTag
    openedInput := openedInput
    inclusionPath := proof.2
    hRClaimed := receipt.hR }

end

/-- `except (KeyError, ValueError, TypeError)` -/
def caughtByVerify : Exc → Bool
  | .userException name => name == "KeyError"
  | .valueError _ => true
  | .nonCanonical _ => true
  | .typeError _ => true
  | _ => false

/-- `verify_witness` -/
def verifyWitness (env : Env) (w : Witness) : Except Exc (Bool × Option String) :=
  match recomputeLeafHash env w.leafTag w.openedInput with
  | .error e => if caughtByVerify e then .ok (false, some "NonCanonical") else .error e
  | .ok leafHash =>
    match leafEncoding w.leafTag.toNat leafHash with
    | .error e => .error e
    | .ok target =>
      match fromHex w.hRClaimed with
      | none => .ok (false, some "NonCanonical")
      | some claimed =>
        if verifyInclusionProof env claimed target w.inclusionPath then .ok (true, none)
        else .ok (false, some "NonCanonical")

end Ugk
