import Ugk.Spec.Merkle
import Ugk.Spec.ReadBack
import Ugk.Spec.Sample

/-!
# Inclusion proofs

The tree of `merkle_root_v1` is a fold over a row of encoded leaves, and a proof is the path of a
position.  A verifier has no sizes to compare: it folds siblings of any length.  Under an injective
hash an accepted proof ends in the pair of encoded leaves its last steps came from, and there it was
either at one of the two leaves or at the digest the right one ends in.

## Key results

- `verifyInclusionProof_build`: the built proof of a leaf is accepted
- `mem_or_grafted`: what an accepted proof opens
- `computeHR_perm`: the root determines the leaves
- `merkleCommits_iff`: when an accepted proof opens a committed leaf
-/

namespace Ugk

open Store

variable {env : Env}

/-! ## The tree as a fold over a row -/

theorem merklePairs_eq (nodes : List Message) :
    merklePairs env nodes = PairTree.pairUp (nodeMsg env) nodes := by
  induction nodes using merklePairs.induct with
  | case1 => rfl
  | case2 l => rfl
  | case3 l r rest ih =>
    rw [merklePairs, PairTree.pairUp, ih]
    rfl

theorem merkleLevel_eq (nodes : List Message) :
    merkleLevel env nodes = PairTree.root (nodeMsg env) [] nodes := by
  induction nodes using merkleLevel.induct env with
  | case1 => rw [merkleLevel, PairTree.root]
  | case2 n => rw [merkleLevel, PairTree.root]
  | case3 l r rest ih => rw [merkleLevel, PairTree.root, ih, merklePairs_eq]

theorem siblingIdx_eq {nodes : List Message} {idx : Nat} (h : idx < nodes.length) :
    (nodes.getD (siblingIdx idx nodes.length) [],
      if idx % 2 = 0 then PairTree.Side.right else PairTree.Side.left) =
      PairTree.sibling [] nodes idx := by
  unfold siblingIdx PairTree.sibling
  by_cases heven : idx % 2 = 0
  · simp only [heven, if_true]
    by_cases hlast : idx + 1 < nodes.length
    · rw [if_neg (by omega), if_pos hlast]
    · rw [if_pos (by omega), if_neg hlast]
  · simp only [heven, if_false]
    rw [if_neg (by omega)]

theorem proofPath_eq {nodes : List Message} {idx : Nat} (h : idx < nodes.length) :
    proofPath env nodes idx = PairTree.path (nodeMsg env) [] nodes idx := by
  induction nodes, idx using proofPath.induct env with
  | case1 idx => rw [proofPath, PairTree.path]
  | case2 l idx => rw [proofPath, PairTree.path]
  | case3 l r rest idx ih =>
    have habove : idx / 2 < (merklePairs env (l :: r :: rest)).length := by
      rw [length_merklePairs]
      omega
    rw [proofPath, PairTree.path, siblingIdx_eq h, ih habove, merklePairs_eq]

theorem foldProof_eq (target : Message) (path : ProofPath) :
    foldProof env target path = PairTree.fold (nodeMsg env) target path := by
  have hstep : foldSibling env = PairTree.climb (nodeMsg env) := by
    funext current s
    rcases s with ⟨sibling, _ | _⟩ <;> rfl
  rw [foldProof, hstep, PairTree.fold]

/-! ## The encoded leaves -/

theorem leafEncoding_ok {tag : Nat} {h : Digest} {m : Message} (hm : leafEncoding tag h = .ok m) :
    1 ≤ tag ∧ tag ≤ 255 ∧ m = leafMsg tag h := by
  unfold leafEncoding at hm
  split at hm
  · rename_i htag
    exact ⟨htag.1, htag.2, (Except.ok.inj hm).symm⟩
  · exact nomatch hm

theorem encodeLeaves_ok {leaves : List (Nat × Digest)} {encoded : List Message}
    (h : encodeLeaves leaves = .ok encoded) :
    encoded = leaves.map (fun leaf => leafMsg leaf.1 leaf.2) ∧
      ∀ leaf ∈ leaves, 1 ≤ leaf.1 ∧ leaf.1 ≤ 255 := by
  induction leaves generalizing encoded with
  | nil => cases h; exact ⟨rfl, by simp⟩
  | cons leaf rest ih =>
    obtain ⟨tag, d⟩ := leaf
    rw [encodeLeaves] at h
    cases hm : leafEncoding tag d with
    | error e => rw [hm] at h; cases h
    | ok m =>
      rw [hm] at h
      obtain ⟨more, hmore, rfl⟩ := Except.map_eq_ok h
      obtain ⟨hlow, hhigh, rfl⟩ := leafEncoding_ok hm
      obtain ⟨rfl, hall⟩ := ih hmore
      refine ⟨rfl, ?_⟩
      intro leaf hleaf
      rcases List.mem_cons.mp hleaf with rfl | hleaf
      · exact ⟨hlow, hhigh⟩
      · exact hall leaf hleaf

/-- The encoding of a leaf spells out its tag and value. -/
theorem leafMsg_inj_tag {tag tag' : Nat} {h h' : Digest} (htag : tag ≤ 255) (htag' : tag' ≤ 255)
    (heq : leafMsg tag h = leafMsg tag' h') : tag = tag' ∧ h = h' := by
  have htail := List.append_cancel_left heq
  have hchar : Char.ofNat tag = Char.ofNat tag' := Sym.ch.inj (List.cons.inj htail).1
  have hval : h = h' := by simpa using (List.cons.inj htail).2
  have hcode (n : Nat) (hn : n ≤ 255) : (Char.ofNat n).toNat = n := by
    have hvalid : n.isValidChar := .inl (by omega)
    rw [Char.ofNat, dif_pos hvalid]
    rfl
  have htags := congrArg Char.toNat hchar
  rw [hcode tag htag, hcode tag' htag'] at htags
  exact ⟨htags, hval⟩

theorem perm_sortLeaves (leaves : List (Nat × Digest)) : (sortLeaves leaves).Perm leaves :=
  List.perm_insertionSort _ _

/-! ## Completeness -/

/-- The tree root of two leaves or more. -/
theorem merkleRootV1_of_two {nodes : List Message} (h : 2 ≤ nodes.length) :
    merkleRootV1 env nodes = .ok (PairTree.root (nodeMsg env) [] nodes) := by
  match nodes, h with
  | l :: r :: rest, _ => rw [merkleRootV1, merkleLevel_eq]

theorem length_path {nodes : List Message} {idx : Nat} (h : 2 ≤ nodes.length) :
    (proofPath env nodes idx).length ≠ 0 := by
  match nodes, h with
  | l :: r :: rest, _ =>
    rw [proofPath]
    exact Nat.succ_ne_zero _

/-- A proof of a position is accepted against the root of its row. -/
theorem verifyInclusionProof_path {nodes : List Message} {idx : Nat} {root : Message}
    (hidx : idx < nodes.length) (hroot : merkleRootV1 env nodes = .ok root) :
    verifyInclusionProof env (receiptRoot env root) (nodes.getD idx []) (proofPath env nodes idx) =
      true := by
  match nodes, hidx, hroot with
  | [l], hidx, hroot =>
    obtain rfl : idx = 0 := by simpa using hidx
    obtain rfl := Except.ok.inj hroot
    simp [verifyInclusionProof, proofPath]
  | l :: r :: rest, hidx, hroot =>
    rw [merkleRootV1_of_two (by simp)] at hroot
    obtain rfl := Except.ok.inj hroot
    rw [verifyInclusionProof, if_neg (length_path (by simp)), foldProof_eq, proofPath_eq hidx,
      PairTree.fold_path _ _ hidx, beq_self_eq_true]

/-- The built proof of a committed leaf is accepted. -/
theorem verifyInclusionProof_build {leaves : List (Nat × Digest)} {encoded : List Message}
    {root : Message} {tag : Nat} {h : Digest} (hnodup : (leaves.map Prod.fst).Nodup)
    (henc : encodeLeaves (sortLeaves leaves) = .ok encoded)
    (hroot : merkleRootV1 env encoded = .ok root) (hmem : (tag, h) ∈ leaves) :
    ∃ path, buildInclusionProof env leaves tag = .ok (leafMsg tag h, path) ∧
      verifyInclusionProof env (receiptRoot env root) (leafMsg tag h) path = true := by
  have hsorted : (tag, h) ∈ sortLeaves leaves := (perm_sortLeaves leaves).mem_iff.mpr hmem
  have htags : ((sortLeaves leaves).map Prod.fst).Nodup :=
    ((perm_sortLeaves leaves).map Prod.fst).nodup_iff.mpr hnodup
  obtain ⟨rfl, _⟩ := encodeLeaves_ok henc
  -- the first leaf with the tag is the only one
  obtain ⟨idx, hidx⟩ : ∃ idx, (sortLeaves leaves).findIdx? (fun leaf => leaf.1 == tag) = some idx := by
    refine Option.isSome_iff_exists.mp ?_
    rw [List.findIdx?_isSome, List.any_eq_true]
    exact ⟨(tag, h), hsorted, beq_self_eq_true tag⟩
  obtain ⟨hlt, htag, _⟩ := List.findIdx?_eq_some_iff_getElem.mp hidx
  have hleaf : (sortLeaves leaves)[idx] = (tag, h) := by
    have htag' : ((sortLeaves leaves)[idx]).1 = tag := by simpa using htag
    exact List.inj_on_of_nodup_map htags (List.getElem_mem hlt) hsorted htag'
  have hget : ((sortLeaves leaves).map fun leaf => leafMsg leaf.1 leaf.2).getD idx [] =
      leafMsg tag h := by
    rw [List.getD_eq_getElem?_getD, List.getElem?_map, List.getElem?_eq_getElem hlt, hleaf]
    rfl
  have hbuild : buildInclusionProof env leaves tag = .ok (leafMsg tag h, proofPath env
      ((sortLeaves leaves).map fun leaf => leafMsg leaf.1 leaf.2) idx) := by
    rw [buildInclusionProof, henc]
    dsimp only
    rw [hidx]
    dsimp only
    rw [hget]
  have hverify := verifyInclusionProof_path (by simpa using hlt) hroot
  rw [hget] at hverify
  exact ⟨_, hbuild, hverify⟩

/-! ## What the receipt root commits -/

theorem two_le_length {tags : List Nat} {s t : Nat} (hs : s ∈ tags) (ht : t ∈ tags) (hne : s ≠ t) :
    2 ≤ tags.length := by
  match tags, hs, ht with
  | [a], hs, ht =>
    exact absurd ((List.mem_singleton.mp hs).trans (List.mem_singleton.mp ht).symm) hne
  | _ :: _ :: _, _, _ => simp

/-- `compute_H_r`, its checks one after the other. -/
theorem computeHR_eq (env : Env) (leaves : List (Nat × Digest)) : computeHR env leaves =
    if ¬(tagHS ∈ (sortLeaves leaves).map Prod.fst ∧ tagHC ∈ (sortLeaves leaves).map Prod.fst ∧
        tagHM ∈ (sortLeaves leaves).map Prod.fst) then
      .error (.valueError "compute_H_r missing required leaves")
    else if ¬((sortLeaves leaves).map Prod.fst).Nodup then
      .error (.valueError "compute_H_r: duplicate type_tag in leaves")
    else
      match encodeLeaves (sortLeaves leaves) with
      | .error e => .error e
      | .ok encoded => (merkleRootV1 env encoded).map fun root => receiptRoot env root := rfl

/-- A computed root is the receipt root over three encoded leaves or more. -/
theorem computeHR_ok {leaves : List (Nat × Digest)} {hr : Digest}
    (h : computeHR env leaves = .ok hr) :
    ∃ encoded, encodeLeaves (sortLeaves leaves) = .ok encoded ∧
      ((sortLeaves leaves).map Prod.fst).Nodup ∧ 2 ≤ encoded.length ∧
      hr = receiptRoot env (PairTree.root (nodeMsg env) [] encoded) := by
  rw [computeHR_eq] at h
  split at h
  · cases h
  rename_i hrequired
  split at h
  · cases h
  rename_i hnodup
  cases henc : encodeLeaves (sortLeaves leaves) with
  | error e => rw [henc] at h; cases h
  | ok encoded =>
    rw [henc] at h
    obtain ⟨root, hroot, rfl⟩ := Except.map_eq_ok h
    -- two of the mandatory tags are already two leaves
    have hlen : 2 ≤ ((sortLeaves leaves).map Prod.fst).length := by
      obtain ⟨hs, hc, _⟩ := not_not.mp hrequired
      exact two_le_length hs hc (by decide)
    have hlen' : 2 ≤ encoded.length := by
      rw [(encodeLeaves_ok henc).1]
      simpa using hlen
    rw [merkleRootV1_of_two hlen'] at hroot
    exact ⟨encoded, rfl, not_not.mp hnodup, hlen', by rw [Except.ok.inj hroot]⟩

/-! ## What an accepted proof opens -/

theorem receiptRoot_inj (hinj : Function.Injective env.sha256) {m m' : Message}
    (h : receiptRoot env m = receiptRoot env m') : m = m' :=
  List.append_cancel_left (hinj h)

/-- The preimage of a node, split at the separator. -/
theorem append_eq_of_nodeMsg (hinj : Function.Injective env.sha256) {x y l r : Message}
    (h : nodeMsg env x y = nodeMsg env l r) : x ++ y = l ++ r := by
  have hdg : env.sha256 (strMsg dsNode ++ x ++ y) = env.sha256 (strMsg dsNode ++ l ++ r) :=
    Sym.dg.inj (List.cons.inj h).1
  have hmsg := hinj hdg
  rw [List.append_assoc, List.append_assoc] at hmsg
  exact List.append_cancel_left hmsg

/-- The header of an encoded leaf, up to its digest. -/
def leafHeader (tag : Nat) : Message :=
  strMsg dsLeaf ++ [.ch (Char.ofNat tag), .ch (Char.ofNat 0), .ch (Char.ofNat 0),
    .ch (Char.ofNat 0), .ch (Char.ofNat 32)]

theorem leafMsg_eq (tag : Nat) (h : Digest) : leafMsg tag h = leafHeader tag ++ [.dg h] := by
  rw [leafMsg, leafHeader, List.append_assoc]
  rfl

theorem leafMsg_ne_inner (tag : Nat) (h d : Digest) : leafMsg tag h ≠ [.dg d] := by
  intro heq
  have hlen := congrArg List.length heq
  rw [length_leafMsg] at hlen
  simp at hlen

/-- A proof position above the leaves is a digest. -/
theorem fold_eq_dg {target : Message} {q : ProofPath} (hq : q ≠ []) :
    ∃ d, PairTree.fold (nodeMsg env) target q = [.dg d] := by
  cases q using List.reverseRecOn with
  | nil => exact absurd rfl hq
  | append_singleton q s =>
    rw [PairTree.fold_concat]
    rcases s with ⟨sibling, _ | _⟩ <;> exact ⟨_, rfl⟩

/-- Below an inner node with inner children, a proof has come from one of the children. -/
theorem climb_eq_inner (hinj : Function.Injective env.sha256) {tag : Nat} {v da db : Digest}
    {q : ProofPath} {s : Message × PairTree.Side}
    (h : PairTree.climb (nodeMsg env) (PairTree.fold (nodeMsg env) (leafMsg tag v) q) s =
      nodeMsg env [.dg da] [.dg db]) :
    PairTree.fold (nodeMsg env) (leafMsg tag v) q = [.dg da] ∨
      PairTree.fold (nodeMsg env) (leafMsg tag v) q = [.dg db] := by
  have hlong : 2 < (leafMsg tag v).length := by
    rw [length_leafMsg]
    show 2 < 18 + 6
    omega
  by_cases hq : q = []
  · -- an encoded leaf is longer than two digests
    subst hq
    rcases s with ⟨sibling, _ | _⟩ <;>
    · have hlen := congrArg List.length (append_eq_of_nodeMsg hinj h)
      simp only [PairTree.fold_nil, List.length_append, List.length_cons, List.length_nil] at hlen
      omega
  · obtain ⟨d, hd⟩ := @fold_eq_dg env (leafMsg tag v) q hq
    rw [hd] at h ⊢
    rcases s with ⟨sibling, _ | _⟩
    · have happ : sibling ++ [.dg d] = [.dg da] ++ [.dg db] := append_eq_of_nodeMsg hinj h
      exact .inr (List.append_inj' happ rfl).2
    · have happ : [.dg d] ++ sibling = [.dg da] ++ [.dg db] := append_eq_of_nodeMsg hinj h
      exact .inl (List.append_inj happ rfl).1

/-- Below a node over two encoded leaves, a proof has come from one of them or from the digest the
    right one ends in. -/
theorem climb_eq_leaves (hinj : Function.Injective env.sha256) {tag tl tr : Nat} {v dl dr : Digest}
    {q : ProofPath} {s : Message × PairTree.Side}
    (h : PairTree.climb (nodeMsg env) (PairTree.fold (nodeMsg env) (leafMsg tag v) q) s =
      nodeMsg env (leafMsg tl dl) (leafMsg tr dr)) :
    leafMsg tag v = leafMsg tl dl ∨ leafMsg tag v = leafMsg tr dr ∨
      PairTree.fold (nodeMsg env) (leafMsg tag v) q = [.dg dr] := by
  have hsame (t t' : Nat) (d d' : Digest) : (leafMsg t d).length = (leafMsg t' d').length := by
    rw [length_leafMsg, length_leafMsg]
  by_cases hq : q = []
  · subst hq
    rcases s with ⟨sibling, _ | _⟩
    · have happ : sibling ++ leafMsg tag v = leafMsg tl dl ++ leafMsg tr dr :=
        append_eq_of_nodeMsg hinj h
      exact .inr (.inl (List.append_inj' happ (hsame ..)).2)
    · have happ : leafMsg tag v ++ sibling = leafMsg tl dl ++ leafMsg tr dr :=
        append_eq_of_nodeMsg hinj h
      exact .inl (List.append_inj happ (hsame ..)).1
  · obtain ⟨d, hd⟩ := @fold_eq_dg env (leafMsg tag v) q hq
    rw [hd] at h
    rcases s with ⟨sibling, _ | _⟩
    · have happ : sibling ++ [.dg d] = leafMsg tl dl ++ leafMsg tr dr :=
        append_eq_of_nodeMsg hinj h
      rw [leafMsg_eq tr, ← List.append_assoc] at happ
      exact .inr (.inr (hd.trans (List.append_inj' happ rfl).2))
    · -- a leaf does not start with a digest
      have happ : [.dg d] ++ sibling = leafMsg tl dl ++ leafMsg tr dr :=
        append_eq_of_nodeMsg hinj h
      exact nomatch (List.cons.inj happ).1

/-- The leaves that are hashed from the right: every second one, and an odd last one. -/
def rightLeaves (leaves : List (Nat × Digest)) : List (Nat × Digest) :=
  PairTree.rights (sortLeaves leaves)

/-- An accepted proof opens a committed leaf, or it has come through the digest of a committed leaf
    as if that were a node. -/
theorem mem_or_grafted (hinj : Function.Injective env.sha256) {leaves : List (Nat × Digest)}
    {hr v : Digest} {tag : Nat} {path : ProofPath} (hroot : computeHR env leaves = .ok hr)
    (htag : tag ≤ 255) (haccept : verifyInclusionProof env hr (leafMsg tag v) path = true) :
    (tag, v) ∈ leaves ∨
      ∃ leaf ∈ rightLeaves leaves, ∃ q, foldProof env (leafMsg tag v) q = [.dg leaf.2] := by
  obtain ⟨encoded, henc, _, hlen, rfl⟩ := computeHR_ok hroot
  obtain ⟨hencoded, hvalid⟩ := encodeLeaves_ok henc
  -- the root is the one of the level above the leaves
  have hne : encoded ≠ [] := List.ne_nil_of_length_pos (by omega)
  have habove : PairTree.root (nodeMsg env) [] encoded =
      PairTree.root (nodeMsg env) [] (PairTree.pairUp (nodeMsg env) encoded) := by
    match encoded, hlen with
    | l :: r :: rest, _ => rw [PairTree.root]
  rw [verifyInclusionProof] at haccept
  split at haccept
  · -- the preimage of a single leaf is no node
    have hsingle := receiptRoot_inj hinj (beq_iff_eq.mp haccept)
    rw [habove] at hsingle
    have hnode : ∃ a b, PairTree.root (nodeMsg env) []
        (PairTree.pairUp (nodeMsg env) encoded) = nodeMsg env a b := by
      refine @PairTree.root_of_forall _ (nodeMsg env) [] (fun c => ∃ a b, c = nodeMsg env a b)
        (fun a b => ⟨a, b, rfl⟩) _ (PairTree.pairUp_ne_nil hne) ?_
      intro c hc
      obtain ⟨a, _, b, _, rfl⟩ := PairTree.mem_pairUp hc
      exact ⟨a, b, rfl⟩
    obtain ⟨a, b, hab⟩ := hnode
    rw [hab] at hsingle
    have hmsg := hinj (Sym.dg.inj (List.cons.inj hsingle).1)
    have hS : (strMsg dsSingleleaf ++ leafMsg tag v)[11]? = some (.ch 'S') := rfl
    have hN : (strMsg dsNode ++ a ++ b)[11]? = some (.ch 'N') := rfl
    rw [hmsg, hN] at hS
    cases hS
  · have hfold := receiptRoot_inj hinj (beq_iff_eq.mp haccept)
    rw [foldProof_eq, habove] at hfold
    have hinner : ∀ c ∈ PairTree.pairUp (nodeMsg env) encoded, ∃ d, c = [.dg d] := by
      intro c hc
      obtain ⟨a, _, b, _, rfl⟩ := PairTree.mem_pairUp hc
      exact ⟨_, rfl⟩
    obtain ⟨q, _, hmem⟩ := PairTree.exists_prefix_of_fold_eq_root
      (fun a b _ _ => ⟨_, rfl⟩)
      (fun a b _ _ => leafMsg_ne_inner tag v _)
      (by
        rintro q s _ _ ⟨da, rfl⟩ ⟨db, rfl⟩ hstep
        exact climb_eq_inner hinj hstep)
      (PairTree.pairUp_ne_nil hne) hinner hfold
    obtain ⟨l, hl, r, hright, hnode⟩ := PairTree.mem_pairUp hmem
    have hr := PairTree.rights_subset _ hright
    rw [hencoded] at hl hr
    rw [hencoded, ← PairTree.map_rights] at hright
    obtain ⟨⟨tl, dl⟩, hleft, rfl⟩ := List.mem_map.mp hl
    obtain ⟨⟨tr, dr⟩, hleaf, rfl⟩ := List.mem_map.mp hright
    have hrleaf := PairTree.rights_subset _ hleaf
    cases q using List.reverseRecOn with
    | nil => exact absurd hnode (leafMsg_ne_inner tag v _)
    | append_singleton q s =>
      rw [PairTree.fold_concat] at hnode
      rcases climb_eq_leaves hinj hnode with heq | heq | hgraft
      · obtain ⟨rfl, rfl⟩ := leafMsg_inj_tag htag (hvalid _ hleft).2 heq
        exact .inl ((perm_sortLeaves leaves).mem_iff.mp hleft)
      · obtain ⟨rfl, rfl⟩ := leafMsg_inj_tag htag (hvalid _ hrleaf).2 heq
        exact .inl ((perm_sortLeaves leaves).mem_iff.mp hrleaf)
      · exact .inr ⟨(tr, dr), hleaf, q, by rw [foldProof_eq]; exact hgraft⟩

/-- A proof into the digest of a committed right leaf goes on to the root: the next sibling is the
    left leaf with the header of the right one. -/
theorem verifyInclusionProof_graft {leaves : List (Nat × Digest)} {hr : Digest}
    {leaf : Nat × Digest} {target : Message} {q : ProofPath}
    (hroot : computeHR env leaves = .ok hr) (hleaf : leaf ∈ rightLeaves leaves)
    (hq : foldProof env target q = [.dg leaf.2]) :
    ∃ path, verifyInclusionProof env hr target path = true := by
  obtain ⟨encoded, henc, _, hlen, rfl⟩ := computeHR_ok hroot
  obtain ⟨hencoded, _⟩ := encodeLeaves_ok henc
  have hright : leafMsg leaf.1 leaf.2 ∈ PairTree.rights encoded := by
    rw [hencoded, ← PairTree.map_rights]
    exact List.mem_map.mpr ⟨leaf, hleaf, rfl⟩
  obtain ⟨l, _, hnode⟩ := PairTree.exists_mem_pairUp (nodeMsg env) hright
  obtain ⟨rest, hrest⟩ := PairTree.exists_path (nodeMsg env) [] hnode
  have habove : PairTree.root (nodeMsg env) [] encoded =
      PairTree.root (nodeMsg env) [] (PairTree.pairUp (nodeMsg env) encoded) := by
    match encoded, hlen with
    | _ :: _ :: _, _ => rw [PairTree.root]
  have hstep : PairTree.climb (nodeMsg env) [.dg leaf.2] (l ++ leafHeader leaf.1, .left) =
      nodeMsg env l (leafMsg leaf.1 leaf.2) := by
    show nodeMsg env (l ++ leafHeader leaf.1) [.dg leaf.2] = _
    rw [nodeMsg, nodeMsg, leafMsg_eq]
    simp only [List.append_assoc]
  rw [foldProof_eq] at hq
  refine ⟨q ++ (l ++ leafHeader leaf.1, .left) :: rest, ?_⟩
  rw [verifyInclusionProof, if_neg (by simp), foldProof_eq, PairTree.fold_append, hq,
    PairTree.fold_cons, hstep, hrest, habove, beq_self_eq_true]

/-! ## The root determines the leaves -/

/-- The encoding of a tree of leaves. -/
def treeMsg (env : Env) : PairTree.Tree (Nat × Digest) → Message :=
  PairTree.Tree.eval (nodeMsg env) fun leaf => leafMsg leaf.1 leaf.2

/-- A tree is a digest or starts with the separator of a leaf. -/
theorem treeMsg_cases (t : PairTree.Tree (Nat × Digest)) :
    (∃ leaf, t = .leaf leaf) ∨ ∃ d, treeMsg env t = [.dg d] := by
  cases t with
  | leaf a => exact .inl ⟨a, rfl⟩
  | node l r => exact .inr ⟨_, rfl⟩

/-- Two pairs of trees with the same text have trees of the same length on the left. -/
theorem treeMsg_append_inj {l r l' r' : PairTree.Tree (Nat × Digest)}
    (h : treeMsg env l ++ treeMsg env r = treeMsg env l' ++ treeMsg env r') :
    treeMsg env l = treeMsg env l' ∧ treeMsg env r = treeMsg env r' := by
  have hlen : (treeMsg env l).length = (treeMsg env l').length := by
    rcases @treeMsg_cases env l with ⟨⟨t, d⟩, rfl⟩ | ⟨d, hd⟩
    · rcases @treeMsg_cases env l' with ⟨⟨t', d'⟩, rfl⟩ | ⟨d', hd'⟩
      · show (leafMsg t d).length = (leafMsg t' d').length
        rw [length_leafMsg, length_leafMsg]
      · rw [hd'] at h
        exact nomatch (List.cons.inj h).1
    · rcases @treeMsg_cases env l' with ⟨⟨t', d'⟩, rfl⟩ | ⟨d', hd'⟩
      · rw [hd] at h
        exact nomatch (List.cons.inj h).1
      · rw [hd, hd']
        rfl
  exact List.append_inj h hlen

/-- Under an injective hash a tree of leaves with byte tags is determined by its encoding. -/
theorem treeMsg_inj (hinj : Function.Injective env.sha256) {t u : PairTree.Tree (Nat × Digest)}
    (ht : ∀ leaf ∈ t.fringe, leaf.1 ≤ 255) (hu : ∀ leaf ∈ u.fringe, leaf.1 ≤ 255)
    (h : treeMsg env t = treeMsg env u) : t = u := by
  induction t generalizing u with
  | leaf a =>
    cases u with
    | leaf b =>
      obtain ⟨htag, hval⟩ := leafMsg_inj_tag (ht a (by simp [PairTree.Tree.fringe]))
        (hu b (by simp [PairTree.Tree.fringe])) h
      exact congrArg PairTree.Tree.leaf (Prod.ext htag hval)
    | node l r => exact absurd h (leafMsg_ne_inner _ _ _)
  | node l r ihl ihr =>
    cases u with
    | leaf b => exact absurd h.symm (leafMsg_ne_inner _ _ _)
    | node l' r' =>
      obtain ⟨hl, hr⟩ := treeMsg_append_inj (append_eq_of_nodeMsg hinj h)
      have hleft := ihl (fun x hx => ht x (List.mem_append_left _ hx))
        (fun x hx => hu x (List.mem_append_left _ hx)) hl
      have hright := ihr (fun x hx => ht x (List.mem_append_right _ hx))
        (fun x hx => hu x (List.mem_append_right _ hx)) hr
      rw [hleft, hright]

/-- The tree over a leaf list, `a` over the empty one. -/
def leafTree (a : Nat × Digest) (leaves : List (Nat × Digest)) : PairTree.Tree (Nat × Digest) :=
  PairTree.root PairTree.Tree.node (.leaf a) (leaves.map .leaf)

/-- The root is the encoding of the tree. -/
theorem treeMsg_leafTree (a : Nat × Digest) {leaves : List (Nat × Digest)} (h : leaves ≠ []) :
    treeMsg env (leafTree a leaves) =
      PairTree.root (nodeMsg env) [] (leaves.map fun leaf => leafMsg leaf.1 leaf.2) := by
  have hnode (l r : PairTree.Tree (Nat × Digest)) :
      treeMsg env (.node l r) = nodeMsg env (treeMsg env l) (treeMsg env r) := rfl
  rw [leafTree, PairTree.map_root hnode, List.map_map]
  exact PairTree.root_default _ _ _ (by simpa using h)

theorem mem_of_mem_fringe_leafTree {a leaf : Nat × Digest} {leaves : List (Nat × Digest)}
    (h : leaves ≠ []) (hleaf : leaf ∈ (leafTree a leaves).fringe) : leaf ∈ leaves := by
  have hmem := (PairTree.fringe_root (.leaf a) (by simpa using h)).2 leaf hleaf
  simpa [List.flatMap_map, PairTree.Tree.fringe] using hmem

/-- Two leaf lists with the same root are the same up to order. -/
theorem computeHR_perm (hinj : Function.Injective env.sha256) {leaves others : List (Nat × Digest)}
    {hr : Digest} (h : computeHR env leaves = .ok hr) (h' : computeHR env others = .ok hr) :
    leaves.Perm others := by
  obtain ⟨encoded, henc, hnodup, hlen, rfl⟩ := computeHR_ok h
  obtain ⟨encoded', henc', hnodup', hlen', hroots⟩ := computeHR_ok h'
  obtain ⟨rfl, hvalid⟩ := encodeLeaves_ok henc
  obtain ⟨rfl, hvalid'⟩ := encodeLeaves_ok henc'
  have hne : sortLeaves leaves ≠ [] := by
    intro hnil
    rw [hnil] at hlen
    exact absurd hlen (by decide)
  have hne' : sortLeaves others ≠ [] := by
    intro hnil
    rw [hnil] at hlen'
    exact absurd hlen' (by decide)
  -- both roots are encodings of trees
  obtain ⟨a, _⟩ := List.exists_mem_of_ne_nil _ hne
  have hmsg := receiptRoot_inj hinj hroots
  rw [← treeMsg_leafTree a hne, ← treeMsg_leafTree a hne'] at hmsg
  have htrees : leafTree a (sortLeaves leaves) = leafTree a (sortLeaves others) :=
    treeMsg_inj hinj
      (fun leaf hleaf => (hvalid leaf (mem_of_mem_fringe_leafTree hne hleaf)).2)
      (fun leaf hleaf => (hvalid' leaf (mem_of_mem_fringe_leafTree hne' hleaf)).2) hmsg
  have hsorted := PairTree.eq_of_root_eq (.leaf a) hne hne' (List.Nodup.of_map _ hnodup)
    (List.Nodup.of_map _ hnodup') htrees
  exact (perm_sortLeaves leaves).symm.trans (hsorted ▸ perm_sortLeaves others)

/-! ## Commitment -/

/-- A set of leaves is committed: the built proofs are accepted, an accepted proof opens one of the
    leaves, and no other set has the same root. -/
structure MerkleCommits (env : Env) (leaves : List (Nat × Digest)) : Prop where
  complete : ∀ encoded root, encodeLeaves (sortLeaves leaves) = .ok encoded →
    merkleRootV1 env encoded = .ok root → ∀ tag v, (tag, v) ∈ leaves →
      ∃ target path, leafEncoding tag v = .ok target ∧
        buildInclusionProof env leaves tag = .ok (target, path) ∧
        verifyInclusionProof env (receiptRoot env root) target path = true
  binding : ∀ hr, computeHR env leaves = .ok hr → ∀ tag v target path,
    leafEncoding tag v = .ok target → verifyInclusionProof env hr target path = true →
      (tag, v) ∈ leaves
  injective : ∀ hr others, computeHR env leaves = .ok hr → computeHR env others = .ok hr →
    leaves.Perm others

/-- The target, or a node hash over it, with any siblings. -/
inductive NodeOver (env : Env) (target : Message) : Message → Prop
  | refl : NodeOver env target target
  | left (sibling : Message) {m : Message} (h : NodeOver env target m) :
      NodeOver env target [.dg (env.sha256 (strMsg dsNode ++ sibling ++ m))]
  | right (sibling : Message) {m : Message} (h : NodeOver env target m) :
      NodeOver env target [.dg (env.sha256 (strMsg dsNode ++ m ++ sibling))]

theorem nodeOver_iff {target m : Message} :
    NodeOver env target m ↔ ∃ q, foldProof env target q = m := by
  constructor
  · intro h
    induction h with
    | refl => exact ⟨[], rfl⟩
    | left sibling _ ih =>
      obtain ⟨q, rfl⟩ := ih
      exact ⟨q ++ [(sibling, .left)], by rw [foldProof_eq, foldProof_eq, PairTree.fold_concat]; rfl⟩
    | right sibling _ ih =>
      obtain ⟨q, rfl⟩ := ih
      exact ⟨q ++ [(sibling, .right)], by rw [foldProof_eq, foldProof_eq, PairTree.fold_concat]; rfl⟩
  · rintro ⟨q, rfl⟩
    rw [foldProof_eq]
    induction q using List.reverseRecOn with
    | nil => exact .refl
    | append_singleton q s ih =>
      rw [PairTree.fold_concat]
      rcases s with ⟨sibling, _ | _⟩
      · exact .left sibling ih
      · exact .right sibling ih

/-- No leaf hashed from the right has a value that is a node hash over an uncommitted leaf. -/
def NoGraft (env : Env) (leaves : List (Nat × Digest)) : Prop :=
  ∀ leaf ∈ rightLeaves leaves, ∀ tag v target, leafEncoding tag v = .ok target →
    NodeOver env target [.dg leaf.2] → (tag, v) ∈ leaves

/-- Under an injective hash, leaves with distinct tags are committed exactly when none of the leaves
    on a right-hand side is itself a node hash over an uncommitted leaf. -/
theorem merkleCommits_iff (hinj : Function.Injective env.sha256) {leaves : List (Nat × Digest)}
    (hnodup : (leaves.map Prod.fst).Nodup) :
    MerkleCommits env leaves ↔ ∀ hr, computeHR env leaves = .ok hr → NoGraft env leaves := by
  constructor
  · intro h hr hroot leaf hleaf tag v target htarget hover
    obtain ⟨q, hq⟩ := nodeOver_iff.mp hover
    obtain ⟨path, haccept⟩ := verifyInclusionProof_graft hroot hleaf hq
    exact h.binding hr hroot tag v target path htarget haccept
  · intro hgraft
    constructor
    · intro encoded root henc hroot tag v hmem
      obtain ⟨path, hbuild, haccept⟩ := verifyInclusionProof_build hnodup henc hroot hmem
      have hvalid := (encodeLeaves_ok henc).2 (tag, v) ((perm_sortLeaves leaves).mem_iff.mpr hmem)
      exact ⟨leafMsg tag v, path, if_pos hvalid, hbuild, haccept⟩
    · intro hr hroot tag v target path htarget haccept
      obtain ⟨hlow, hhigh, rfl⟩ := leafEncoding_ok htarget
      rcases mem_or_grafted hinj hroot hhigh haccept with hmem | ⟨leaf, hleaf, q, hq⟩
      · exact hmem
      · exact hgraft hr hroot leaf hleaf tag v _ htarget (nodeOver_iff.mpr ⟨q, hq⟩)
    · exact fun hr others h h' => computeHR_perm hinj h h'

/-! ## The leaves of a receipt -/

/-- A digest of a preimage that does not start as a node hash is none. -/
theorem not_nodeOver_of_domain (hinj : Function.Injective env.sha256) {tag : Nat} {v d : Digest}
    {m : Message} (hd : d = env.sha256 m) (hdomain : ¬strMsg dsNode <+: m) :
    ¬NodeOver env (leafMsg tag v) [.dg d] := by
  intro h
  generalize hgoal : ([.dg d] : Message) = goal at h
  cases h with
  | refl => exact leafMsg_ne_inner tag v d hgoal.symm
  | left sibling h =>
    have hdg := Sym.dg.inj (List.cons.inj hgoal).1
    rw [hd] at hdg
    rw [hinj hdg, List.append_assoc] at hdomain
    exact hdomain (List.prefix_append _ _)
  | right sibling h =>
    have hdg := Sym.dg.inj (List.cons.inj hgoal).1
    rw [hd] at hdg
    rw [hinj hdg, List.append_assoc] at hdomain
    exact hdomain (List.prefix_append _ _)

/-- Leaves whose values are digests of another domain have no grafts. -/
theorem noGraft_of_domain (hinj : Function.Injective env.sha256) {leaves : List (Nat × Digest)}
    (h : ∀ leaf ∈ leaves, ∃ m, leaf.2 = env.sha256 m ∧ ¬strMsg dsNode <+: m) :
    NoGraft env leaves := by
  intro leaf hleaf tag v target htarget hover
  obtain ⟨_, _, rfl⟩ := leafEncoding_ok htarget
  have hmem : leaf ∈ leaves :=
    (perm_sortLeaves leaves).mem_iff.mp (PairTree.rights_subset _ hleaf)
  obtain ⟨m, hm, hdomain⟩ := h leaf hmem
  exact absurd hover (not_nodeOver_of_domain hinj hm hdomain)

/-- A domain separator that differs from the one of nodes at its fifth letter. -/
theorem not_prefix_of_letter {c : Char} {m : Message} (hm : m[4]? = some (.ch c)) (hc : c ≠ 'M') :
    ¬strMsg dsNode <+: m := by
  rintro ⟨rest, rfl⟩
  have hM : (strMsg dsNode ++ rest)[4]? = some (.ch 'M') := rfl
  rw [hM] at hm
  exact hc (Sym.ch.inj (Option.some.inj hm)).symm

/-- An accepted proof against the root of a written receipt opens one of its seven leaves. -/
theorem mem_strictLeaves_of_commitments {cfg : Config} (hinj : Function.Injective cfg.sha256)
    {built : List String} {tip : Tip} {a : WriteArgs} {parameters : PyVal}
    {c : Commitments} (h : commitments cfg built tip a parameters = .ok c)
    {tag : Nat} {v : Digest} {path : ProofPath} (htag : 1 ≤ tag ∧ tag ≤ 255)
    (haccept : verifyInclusionProof cfg.toEnv c.hR (leafMsg tag v) path = true) :
    (tag, v) ∈ strictLeaves c.hS c.hC c.hM c.hJ
      (hIdP cfg.toEnv (lookupPolicyId cfg a.jurisdiction))
      (hIdSigma cfg.toEnv (idSigma0 cfg.toEnv)) (hIdPhi cfg.toEnv (idPhi0 cfg.toEnv)) := by
  obtain ⟨_, _, _, hs, hc, hm, hj, hroot⟩ := commitments_ok h
  rcases mem_or_grafted hinj hroot htag.2 haccept with hmem | ⟨leaf, hleaf, q, hq⟩
  · exact hmem
  refine noGraft_of_domain hinj ?_ leaf hleaf tag v _ (if_pos htag) (nodeOver_iff.mpr ⟨q, hq⟩)
  -- every leaf has a separator of its own
  obtain ⟨_, _, hs⟩ := Except.map_eq_ok hs
  obtain ⟨_, _, hc⟩ := Except.map_eq_ok hc
  obtain ⟨_, _, hm⟩ := Except.map_eq_ok hm
  obtain ⟨_, _, hj⟩ := Except.map_eq_ok hj
  intro leaf hleaf
  simp only [strictLeaves, List.mem_cons, List.not_mem_nil, or_false] at hleaf
  rcases hleaf with rfl | rfl | rfl | rfl | rfl | rfl | rfl
  · exact ⟨_, hs.symm, not_prefix_of_letter rfl (by decide)⟩
  · exact ⟨_, hc.symm, not_prefix_of_letter rfl (by decide)⟩
  · exact ⟨_, hm.symm, not_prefix_of_letter rfl (by decide)⟩
  · exact ⟨_, hj.symm, not_prefix_of_letter rfl (by decide)⟩
  · exact ⟨_, rfl, not_prefix_of_letter rfl (by decide)⟩
  · exact ⟨_, rfl, not_prefix_of_letter rfl (by decide)⟩
  · exact ⟨_, rfl, not_prefix_of_letter rfl (by decide)⟩

/-! ## Sample leaf sets -/

/-- Three leaves over the empty text. -/
def plainLeaves : List (Nat × Digest) :=
  [(tagHS, sampleHash (strMsg dsS)), (tagHC, sampleHash (strMsg dsC)),
    (tagHM, sampleHash (strMsg dsM))]

/-- They are committed. -/
theorem merkleCommits_plainLeaves : MerkleCommits sampleEnv plainLeaves := by
  have hnodup : (plainLeaves.map Prod.fst).Nodup := by
    show [1, 2, 3].Nodup
    decide
  rw [@merkleCommits_iff sampleEnv sampleHash_injective plainLeaves hnodup]
  intro hr _
  refine noGraft_of_domain sampleHash_injective ?_
  intro leaf hleaf
  simp only [plainLeaves, List.mem_cons, List.not_mem_nil, or_false] at hleaf
  rcases hleaf with rfl | rfl | rfl
  · exact ⟨_, rfl, not_prefix_of_letter rfl (by decide)⟩
  · exact ⟨_, rfl, not_prefix_of_letter rfl (by decide)⟩
  · exact ⟨_, rfl, not_prefix_of_letter rfl (by decide)⟩

/-- The value of a leaf that is not committed. -/
def strayDigest : Digest := sampleHash (strMsg "stray")

/-- The second leaf is a node hash over a leaf that is not in the set. -/
def graftedLeaves : List (Nat × Digest) :=
  [(tagHS, sampleHash (strMsg dsS)),
    (tagHC, sampleHash (strMsg dsNode ++ leafMsg 9 strayDigest ++ [])),
    (tagHM, sampleHash (strMsg dsM))]

theorem isOk_computeHR_graftedLeaves : ∃ hr, computeHR sampleEnv graftedLeaves = .ok hr :=
  ⟨_, rfl⟩

/-- A proof for the leaf that is not in the set is accepted. -/
theorem not_merkleCommits_graftedLeaves :
    Function.Injective sampleEnv.sha256 ∧ ¬MerkleCommits sampleEnv graftedLeaves := by
  refine ⟨sampleHash_injective, fun h => ?_⟩
  obtain ⟨hr, hroot⟩ := isOk_computeHR_graftedLeaves
  have hright : (tagHC, sampleHash (strMsg dsNode ++ leafMsg 9 strayDigest ++ [])) ∈
      rightLeaves graftedLeaves := .head _
  have hfold : foldProof sampleEnv (leafMsg 9 strayDigest) [([], .right)] =
      [.dg (sampleHash (strMsg dsNode ++ leafMsg 9 strayDigest ++ []))] := rfl
  obtain ⟨path, haccept⟩ := verifyInclusionProof_graft hroot hright hfold
  have hmem := h.binding hr hroot 9 strayDigest _ path (if_pos (by decide)) haccept
  have htags : 9 ∈ graftedLeaves.map Prod.fst := List.mem_map_of_mem hmem
  have hnone : 9 ∉ graftedLeaves.map Prod.fst := by
    show 9 ∉ [1, 2, 3]
    decide
  exact hnone htags

end Ugk
