import Ugk.Native.BindingM2

/-!
# The Merkle root of a receipt

## Key results

- `computeHR_strictLeaves`: the root over the seven strict-mode leaves, as one preimage
- `computeHR_injective`: under an injective hash the root determines the seven leaves
-/

namespace Ugk

variable {env : Env}

/-- The encoding of a leaf with a small tag. -/
def leafMsg (tag : Nat) (h : Digest) : Message :=
  strMsg dsLeaf ++ [.ch (Char.ofNat tag), .ch (Char.ofNat 0), .ch (Char.ofNat 0),
    .ch (Char.ofNat 0), .ch (Char.ofNat 32), .dg h]

/-- The root of the seven strict-mode leaves. -/
theorem computeHR_strictLeaves (d1 d2 d3 d4 d5 d6 d7 : Digest) :
    computeHR env (strictLeaves d1 d2 d3 d4 d5 d6 d7) =
      .ok (env.sha256 (strMsg dsR ++ strMsg idRoot ++ merkleLevel env
        [leafMsg 1 d1, leafMsg 2 d2, leafMsg 3 d3, leafMsg 4 d4, leafMsg 5 d5, leafMsg 6 d6,
          leafMsg 7 d7])) := by
  have hsort : (strictLeaves d1 d2 d3 d4 d5 d6 d7).insertionSort (fun a b => a.1 ≤ b.1) =
      strictLeaves d1 d2 d3 d4 d5 d6 d7 := by
    refine List.Pairwise.insertionSort_eq ?_
    simp [strictLeaves, tagHS, tagHC, tagHM, tagHJ, tagIdP, tagIdSigma, tagIdPhi]
  have htags : (strictLeaves d1 d2 d3 d4 d5 d6 d7).map Prod.fst = [1, 2, 3, 4, 5, 6, 7] := rfl
  have henc : encodeLeaves (strictLeaves d1 d2 d3 d4 d5 d6 d7) =
      .ok [leafMsg 1 d1, leafMsg 2 d2, leafMsg 3 d3, leafMsg 4 d4, leafMsg 5 d5, leafMsg 6 d6,
        leafMsg 7 d7] := by
    simp [strictLeaves, encodeLeaves, leafEncoding, leafMsg, Except.map, tagHS, tagHC, tagHM, tagHJ,
      tagIdP, tagIdSigma, tagIdPhi]
  rw [computeHR, hsort, htags, henc]
  rw [if_neg (by decide), if_neg (by decide)]
  rfl
/-! ## The root determines the leaves -/

/-- An inner node. -/
def nodeMsg (env : Env) (l r : Message) : Message := [.dg (env.sha256 (strMsg dsNode ++ l ++ r))]

/-- The tree over seven nodes: the last node of a level with an odd count is paired with itself. -/
theorem merkleLevel_seven (a b c d e f g : Message) :
    merkleLevel env [a, b, c, d, e, f, g] =
      nodeMsg env (nodeMsg env (nodeMsg env a b) (nodeMsg env c d))
        (nodeMsg env (nodeMsg env e f) (nodeMsg env g g)) := by
  simp only [merkleLevel, merklePairs, nodeMsg]

theorem nodeMsg_inj (hinj : Function.Injective env.sha256) {l r l' r' : Message}
    (hlen : l.length = l'.length) (h : nodeMsg env l r = nodeMsg env l' r') : l = l' ∧ r = r' := by
  have hdg : env.sha256 (strMsg dsNode ++ l ++ r) = env.sha256 (strMsg dsNode ++ l' ++ r') :=
    Sym.dg.inj (List.cons.inj h).1
  have hmsg := hinj hdg
  rw [List.append_assoc, List.append_assoc] at hmsg
  exact List.append_inj (List.append_cancel_left hmsg) hlen

theorem length_nodeMsg (l r : Message) : (nodeMsg env l r).length = 1 := rfl

theorem length_leafMsg (tag : Nat) (h : Digest) :
    (leafMsg tag h).length = (strMsg dsLeaf).length + 6 := by
  simp [leafMsg]

theorem leafMsg_inj {tag : Nat} {h h' : Digest} (heq : leafMsg tag h = leafMsg tag h') : h = h' := by
  have := List.append_cancel_left heq
  simpa using this

/-- Under an injective hash the root of the strict-mode leaves determines the leaves. -/
theorem computeHR_injective (hinj : Function.Injective env.sha256)
    {d1 d2 d3 d4 d5 d6 d7 e1 e2 e3 e4 e5 e6 e7 root : Digest}
    (hd : computeHR env (strictLeaves d1 d2 d3 d4 d5 d6 d7) = .ok root)
    (he : computeHR env (strictLeaves e1 e2 e3 e4 e5 e6 e7) = .ok root) :
    d1 = e1 ∧ d2 = e2 ∧ d3 = e3 ∧ d4 = e4 ∧ d5 = e5 ∧ d6 = e6 ∧ d7 = e7 := by
  rw [computeHR_strictLeaves, merkleLevel_seven] at hd he
  have hmsg := List.append_cancel_left (hinj ((Except.ok.inj hd).trans (Except.ok.inj he).symm))
  have hleaf (t : Nat) (x y : Digest) : (leafMsg t x).length = (leafMsg t y).length := by
    rw [length_leafMsg, length_leafMsg]
  obtain ⟨hleft, hright⟩ := nodeMsg_inj hinj (by rfl) hmsg
  obtain ⟨h12, h34⟩ := nodeMsg_inj hinj (by rfl) hleft
  obtain ⟨h56, h77⟩ := nodeMsg_inj hinj (by rfl) hright
  obtain ⟨h1, h2⟩ := nodeMsg_inj hinj (by exact hleaf _ _ _) h12
  obtain ⟨h3, h4⟩ := nodeMsg_inj hinj (by exact hleaf _ _ _) h34
  obtain ⟨h5, h6⟩ := nodeMsg_inj hinj (by exact hleaf _ _ _) h56
  obtain ⟨h7, _⟩ := nodeMsg_inj hinj (by exact hleaf _ _ _) h77
  exact ⟨leafMsg_inj h1, leafMsg_inj h2, leafMsg_inj h3, leafMsg_inj h4, leafMsg_inj h5,
    leafMsg_inj h6, leafMsg_inj h7⟩

end Ugk
