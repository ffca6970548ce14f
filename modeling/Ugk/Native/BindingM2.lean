import Ugk.ForStd.PairTree
import Ugk.Native.PyValue

/-!
# M2 binding primitives

`ugk/storage/binding_m2.py`: the canonicalisation functions `c_s`, `c_c`, `c_m`, `c_j`, the
per-commitment hashes, the strict-mode context pins and the Merkle binding root.
-/

namespace Ugk

/-! ## Domain separators and version identifiers -/

def dsS : String := "UGK-CIS-c_s-v1"
def dsC : String := "UGK-CIS-c_c-v1"
def dsM : String := "UGK-CIS-c_m-v1"
def dsJ : String := "UGK-CIS-c_j-v1"
def dsR : String := "UGK-RECEIPT-ROOT-v1"
def dsLeaf : String := "UGK-MERKLE-LEAF-v1"
def dsNode : String := "UGK-MERKLE-NODE-v1"
def dsSingleleaf : String := "UGK-MERKLE-SINGLE-v1"

def idCS : String := "c_s.v1"
def idCC : String := "c_c.v1"
def idCM : String := "c_m.v1+sigma_0"
def idCJ : String := "c_j.v1"
def idRoot : String := "root.v1"

def tagHS : Nat := 1
def tagHC : Nat := 2
def tagHM : Nat := 3
def tagHJ : Nat := 4
def tagIdP : Nat := 5
def tagIdSigma : Nat := 6
def tagIdPhi : Nat := 7

/-- A string constant as a hash preimage. -/
def strMsg (s : String) : Message := text s.toList

variable (env : Env)

/-! ## Canonicalisation functions -/

/-- A dictionary with string keys. -/
def strDict (kvs : List (String × PyVal)) : PyVal := .dict (kvs.map fun kv => (.str kv.1, kv.2))

/-- A list of strings as a value. -/
def strList (xs : List String) : PyVal := .list (xs.map .str)

/-- A canonicalisation failure is reported as `NonCanonical`. -/
def orNonCanonical (what : String) : Except Exc (List Char) → Except Exc (List Char)
  | .ok cs => .ok cs
  | .error _ => .error (.nonCanonical (what ++ " canonicalization failed"))

/-- `c_s`: the state commitment's canonical text. -/
def cS (op : String) (inputs : PyVal) : Except Exc (List Char) :=
  match inputs with
  | .dict _ => orNonCanonical "c_s" (canonicalJson env (strDict [("op", .str op), ("inputs", inputs)]))
  | _ => .error (.nonCanonical "inputs must be dict")

/-- `c_c`: the admissibility commitment's canonical text. -/
def cC (authorityChain : List PyVal) (policyId : String) (capabilities warrantBasis : List String)
    (parentHR : String) (freshness : PyVal) : Except Exc (List Char) :=
  match canonicalJson env (.list authorityChain) with
  | .error e => .error e
  | .ok chain =>
    orNonCanonical "c_c" (canonicalJson env (strDict [
      ("G_c_root", .str (env.sha256 (text chain)).hex), ("policy_id", .str policyId),
      ("capabilities", strList capabilities), ("warrant_basis", strList warrantBasis),
      ("parent", .str parentHR), ("freshness", freshness)]))

/-- `c_m`: the meaning commitment's canonical text. -/
def cM (intent intentRef legendHash : String) (semanticLineage : List PyVal) :
    Except Exc (List Char) :=
  orNonCanonical "c_m" (canonicalJson env (strDict [
    ("intent", .str intent), ("intent_ref", .str intentRef), ("legend_hash", .str legendHash),
    ("semantic_lineage", .list semanticLineage)]))

/-- `c_j`: the locality commitment's canonical text. -/
def cJ (phaseCode mosaicRoot sessionId authorityKey : String) : Except Exc (List Char) :=
  match canonicalJson env (strDict [("phase_code", .str phaseCode),
      ("mosaic_root", .str mosaicRoot), ("session_id", .str sessionId)]) with
  | .error _ => .error (.nonCanonical "c_j canonicalization failed")
  | .ok phi =>
    orNonCanonical "c_j" (canonicalJson env (strDict [
      ("phi", .str (env.sha256 (strMsg "UGK-PHI-v1" ++ text phi)).hex),
      ("authority_key", .str authorityKey)]))

/-! ## Per-commitment hashes -/

/-- `H_s` -/
def hS (op : String) (inputs : PyVal) : Except Exc Digest :=
  (cS env op inputs).map fun c => env.sha256 (strMsg dsS ++ strMsg idCS ++ text c)

/-- `H_c` -/
def hC (authorityChain : List PyVal) (policyId : String) (capabilities warrantBasis : List String)
    (parentHR : String) (freshness : PyVal) : Except Exc Digest :=
  (cC env authorityChain policyId capabilities warrantBasis parentHR freshness).map fun c =>
    env.sha256 (strMsg dsC ++ strMsg idCC ++ text c)

/-- `H_m`, with the semantic regime bound after the canonical text. -/
def hM (intent intentRef legendHash : String) (semanticLineage : List PyVal)
    (semanticRegimeId : String) : Except Exc Digest :=
  (cM env intent intentRef legendHash semanticLineage).map fun c =>
    env.sha256 (strMsg dsM ++ strMsg idCM ++ text c ++ strMsg semanticRegimeId)

/-- `H_j` -/
def hJ (phaseCode mosaicRoot sessionId authorityKey : String) : Except Exc Digest :=
  (cJ env phaseCode mosaicRoot sessionId authorityKey).map fun c =>
    env.sha256 (strMsg dsJ ++ strMsg idCJ ++ text c)

/-- `H_id_P` -/
def hIdP (policyId : String) : Digest := env.sha256 (strMsg "UGK-id_P-v1" ++ strMsg policyId)

/-- `H_id_Sigma` -/
def hIdSigma (semanticRegimeId : String) : Digest :=
  env.sha256 (strMsg "UGK-id_Sigma-v1" ++ strMsg semanticRegimeId)

/-- `H_id_Phi` -/
def hIdPhi (phaseCode : String) : Digest := env.sha256 (strMsg "UGK-id_Phi-v1" ++ strMsg phaseCode)

/-! ## Merkle tree -/

/-- `_leaf_encoding`: separator, type tag, four length bytes, the raw digest. -/
def leafEncoding (typeTag : Nat) (h : Digest) : Except Exc Message :=
  if 1 ≤ typeTag ∧ typeTag ≤ 255 then
    .ok (strMsg dsLeaf ++ [.ch (Char.ofNat typeTag), .ch (Char.ofNat 0), .ch (Char.ofNat 0),
      .ch (Char.ofNat 0), .ch (Char.ofNat 32), .dg h])
  else .error (.valueError "type_tag out of range")

/-- One level of pair hashes; an odd last node is paired with itself. -/
def merklePairs : List Message → List Message
  | [] => []
  | [l] => [[.dg (env.sha256 (strMsg dsNode ++ l ++ l))]]
  | l :: r :: rest => [.dg (env.sha256 (strMsg dsNode ++ l ++ r))] :: merklePairs rest

theorem length_merklePairs (nodes : List Message) :
    (merklePairs env nodes).length = (nodes.length + 1) / 2 := by
  induction nodes using merklePairs.induct with
  | case1 => rfl
  | case2 => simp [merklePairs]
  | case3 l r rest ih => simp only [merklePairs, List.length_cons, ih]; omega

/-- `_merkle_level` -/
def merkleLevel : List Message → Message
  | [] => []
  | [n] => n
  | l :: r :: rest => merkleLevel (merklePairs env (l :: r :: rest))
termination_by nodes => nodes.length
decreasing_by
  rw [length_merklePairs]
  simp only [List.length_cons]
  omega

/-- `merkle_root_v1` -/
def merkleRootV1 : List Message → Except Exc Message
  | [] => .error (.valueError "empty leaf set — receipt requires at least H_s, H_c, H_m")
  | [l] => .ok [.dg (env.sha256 (strMsg dsSingleleaf ++ l))]
  | l :: r :: rest => .ok (merkleLevel env (l :: r :: rest))

/-- The leaf encodings of a leaf list. -/
def encodeLeaves : List (Nat × Digest) → Except Exc (List Message)
  | [] => .ok []
  | (tag, h) :: rest =>
    match leafEncoding tag h with
    | .error e => .error e
    | .ok m => (encodeLeaves rest).map (m :: ·)

/-- `compute_H_r`: leaves in ascending tag order, the three mandatory ones present, no tag twice. -/
def computeHR (leaves : List (Nat × Digest)) : Except Exc Digest :=
  let sortedLeaves := leaves.insertionSort fun a b => a.1 ≤ b.1
  let tags := sortedLeaves.map Prod.fst
  if ¬(tagHS ∈ tags ∧ tagHC ∈ tags ∧ tagHM ∈ tags) then
    .error (.valueError "compute_H_r missing required leaves")
  else if ¬tags.Nodup then
    .error (.valueError "compute_H_r: duplicate type_tag in leaves")
  else
    match encodeLeaves sortedLeaves with
    | .error e => .error e
    | .ok encoded =>
      (merkleRootV1 env encoded).map fun root => env.sha256 (strMsg dsR ++ strMsg idRoot ++ root)

/-! ## Inclusion proofs -/

/-- The siblings of a proof with their sides, `"L"` or `"R"`, from the leaf level up. -/
abbrev ProofPath := List (Message × PairTree.Side)

/-- The leaves in ascending tag order. -/
def sortLeaves (leaves : List (Nat × Digest)) : List (Nat × Digest) :=
  leaves.insertionSort fun a b => a.1 ≤ b.1

/-- `sibling_idx`; a last node without sibling is its own. -/
def siblingIdx (idx len : Nat) : Nat :=
  let i := if idx % 2 = 0 then idx + 1 else idx - 1
  if len ≤ i then idx else i

/-- The loop of `build_inclusion_proof`. -/
def proofPath : List Message → Nat → ProofPath
  | [], _ => []
  | [_], _ => []
  | l :: r :: rest, idx =>
    ((l :: r :: rest).getD (siblingIdx idx (l :: r :: rest).length) [],
      if idx % 2 = 0 then .right else .left) ::
      proofPath (merklePairs env (l :: r :: rest)) (idx / 2)
termination_by nodes => nodes.length
decreasing_by
  rw [length_merklePairs]
  simp only [List.length_cons]
  omega

/-- `build_inclusion_proof` -/
def buildInclusionProof (leaves : List (Nat × Digest)) (targetTag : Nat) :
    Except Exc (Message × ProofPath) :=
  match encodeLeaves (sortLeaves leaves) with
  | .error e => .error e
  | .ok encoded =>
    match (sortLeaves leaves).findIdx? fun leaf => leaf.1 == targetTag with
    | none => .error (.valueError s!"target_tag {targetTag} not present in leaves")
    | some idx => .ok (encoded.getD idx [], proofPath env encoded idx)

/-- One round of the loop of `verify_inclusion_proof`. -/
def foldSibling (current : Message) : Message × PairTree.Side → Message
  | (sibling, .left) => [.dg (env.sha256 (strMsg dsNode ++ sibling ++ current))]
  | (sibling, .right) => [.dg (env.sha256 (strMsg dsNode ++ current ++ sibling))]

/-- The loop of `verify_inclusion_proof`. -/
def foldProof (target : Message) (path : ProofPath) : Message := path.foldl (foldSibling env) target

/-- The receipt root over a tree root. -/
def receiptRoot (root : Message) : Digest := env.sha256 (strMsg dsR ++ strMsg idRoot ++ root)

/-- `verify_inclusion_proof` -/
def verifyInclusionProof (hr : Digest) (target : Message) (path : ProofPath) : Bool :=
  if path.length = 0 then
    receiptRoot env [.dg (env.sha256 (strMsg dsSingleleaf ++ target))] == hr
  else receiptRoot env (foldProof env target path) == hr

/-- The seven strict-mode leaves, in tag order. -/
def strictLeaves (d1 d2 d3 d4 d5 d6 d7 : Digest) : List (Nat × Digest) :=
  [(tagHS, d1), (tagHC, d2), (tagHM, d3), (tagHJ, d4), (tagIdP, d5), (tagIdSigma, d6),
    (tagIdPhi, d7)]

end Ugk
