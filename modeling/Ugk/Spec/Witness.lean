import Ugk.Native.Witness
import Ugk.Spec.Inclusion
import Ugk.Spec.Decision
import Ugk.Spec.Faithful

/-!
# Witnesses of written receipts

The witnesses `construct_witness` builds for a receipt are for the leaves of an empty lineage.  They
are accepted exactly when the write had no parent meaning, so for the first receipt of a chain.
What `verify_witness` accepts is a leaf of the receipt: under an injective hash the disclosed values
have the canonical text that was committed.

## Key results

- `reconstructLeavesFor_of_write`: the leaves computed from a receipt and the ones committed
- `committed_of_verifyWitness`: an accepted witness opens the committed leaf of its tag
- `witnesses_round_trip_and_bind`: both halves for a written receipt
-/

namespace Ugk

open Store

variable {env : Env}

/-! ## Hex digests -/

/-- Two lower-case hex digits a byte, as `hexdigest()` gives them. -/
def HexText (s : String) : Prop :=
  ∃ bytes : List Nat, (∀ b ∈ bytes, b < 256) ∧
    s.toList = bytes.flatMap fun b => [Nat.digitChar (b / 16), Nat.digitChar (b % 16)]

theorem not_isHexSpace_digitChar {n : Nat} (h : n < 16) : isHexSpace (Nat.digitChar n) = false := by
  interval_cases n <;> rfl

theorem hexPairs_bytes {bytes : List Nat} (h : ∀ b ∈ bytes, b < 256) :
    hexPairs (bytes.flatMap fun b => [Nat.digitChar (b / 16), Nat.digitChar (b % 16)]) =
      some (bytes.flatMap fun b => [Nat.digitChar (b / 16), Nat.digitChar (b % 16)]) := by
  induction bytes with
  | nil => rfl
  | cons b rest ih =>
    rw [List.forall_mem_cons] at h
    have hhi : b / 16 < 16 := by omega
    have hlo : b % 16 < 16 := by omega
    show hexPairs (Nat.digitChar (b / 16) :: Nat.digitChar (b % 16) :: rest.flatMap _) = _
    rw [hexPairs, not_isHexSpace_digitChar hhi, Json.hexVal_digitChar hhi,
      Json.hexVal_digitChar hlo, ih h.2]
    rfl

/-- A hex digest is read back. -/
theorem fromHex_hex {d : Digest} (h : HexText d.hex) : fromHex d.hex = some d := by
  obtain ⟨bytes, hbytes, htext⟩ := h
  have hpairs : hexPairs d.hex.toList = some d.hex.toList := by
    rw [htext]
    exact hexPairs_bytes hbytes
  simp only [fromHex, hpairs, String.ofList_toList]
  rw [dif_pos ⟨d.nonempty, d.ascii⟩]

/-! ## The path of an authority -/

section Graph

variable {cfg : Config} {built built' : List String}

theorem edgeFor_mono (hsub : built ⊆ built') {subject : String} {e : AuthorityEdge}
    (h : edgeFor cfg built subject = some e) : edgeFor cfg built' subject = some e := by
  rw [edgeFor] at h ⊢
  cases hfind : cfg.edges.reverse.find? fun e => e.subject == subject with
  | some e' =>
    rw [hfind] at h
    exact h
  | none =>
    rw [hfind] at h
    dsimp only at h ⊢
    by_cases hmem : subject ∈ built
    · rw [if_pos hmem] at h
      rw [if_pos (hsub hmem)]
      exact h
    · rw [if_neg hmem] at h
      cases h

/-- More default edges and more fuel leave a walk that ended as it is. -/
theorem walkPath_mono (hsub : built ⊆ built') {fuel fuel' : Nat} (hfuel : fuel ≤ fuel')
    {seen : List String} {cursor : String} {path : List AuthorityEdge}
    (h : walkPath cfg built fuel seen cursor = .ok path) :
    walkPath cfg built' fuel' seen cursor = .ok path := by
  induction fuel generalizing fuel' seen cursor path with
  | zero => cases h
  | succ n ih =>
    obtain ⟨m, rfl⟩ : ∃ m, fuel' = m + 1 := ⟨fuel' - 1, by omega⟩
    rw [walkPath] at h ⊢
    split at h
    · rename_i hgov
      rw [if_pos hgov]
      exact h
    rename_i hgov
    rw [if_neg hgov]
    split at h
    · cases h
    rename_i hseen
    rw [if_neg hseen]
    split at h
    · cases h
    rename_i e hedge
    obtain ⟨rest, hrest, rfl⟩ := Except.map_eq_ok h
    rw [edgeFor_mono hsub hedge]
    dsimp only
    rw [ih (by omega) hrest]
    rfl

theorem subset_ensureDefaultEdgeFor (cfg : Config) (built : List String) (a : String) :
    built ⊆ ensureDefaultEdgeFor cfg built a := by
  unfold ensureDefaultEdgeFor
  split
  · exact List.Subset.refl _
  · split
    · exact List.Subset.refl _
    · exact List.subset_cons_self ..

theorem RootedIn.mono (hsub : built ⊆ built') {n : Nat} {a : String}
    (h : RootedIn cfg built n a) : RootedIn cfg built' n a := by
  induction h with
  | root => exact .root
  | edge hne hedge _ ih => exact .edge hne (edgeFor_mono hsub hedge) ih

/-- A canonical path stays the one it is while default edges are built. -/
theorem canonicalPathFor_mono (hsub : built ⊆ built') {a : String} {path : List AuthorityEdge}
    (h : canonicalPathFor cfg built a = .ok path) : canonicalPathFor cfg built' a = .ok path := by
  obtain ⟨n, hrooted⟩ := canonicalPathFor_isOk_iff.mp (isOk_iff.mpr ⟨path, h⟩)
  obtain ⟨path', h'⟩ := isOk_iff.mp (canonicalPathFor_isOk_iff.mpr ⟨n, hrooted.mono hsub⟩)
  obtain ⟨nearest, hwalk, hpath⟩ := Except.map_eq_ok h
  obtain ⟨nearest', hwalk', hpath'⟩ := Except.map_eq_ok h'
  -- with fuel enough for both, the two walks are one
  have hone := walkPath_mono hsub (Nat.le_max_left _
    (cfg.edges.length + built'.length + 2)) hwalk
  have hother := walkPath_mono (List.Subset.refl built') (Nat.le_max_right
    (cfg.edges.length + built.length + 2) _) hwalk'
  obtain rfl := Except.ok.inj (hone.symm.trans hother)
  rw [h', ← hpath', hpath]

end Graph

/-! ## Disclosed values -/

/-- A member of disclosed values. -/
theorem openedField_strDict (kvs : List (String × PyVal)) (key : String) :
    openedField (strDict kvs) key =
      (kvs.lookup key).elim (.error (.userException "KeyError")) .ok := by
  have hlookup : (kvs.map fun kv => ((.str kv.1 : PyKey), kv.2)).lookup (.str key) =
      kvs.lookup key := by
    induction kvs with
    | nil => rfl
    | cons kv rest ih =>
      have hkey : ((.str key : PyKey) == .str kv.1) = (key == kv.1) := by
        rw [Bool.eq_iff_iff]
        simp
      rw [List.map_cons, List.lookup_cons, List.lookup_cons, hkey, ih]
  rw [strDict, openedField, hlookup]
  cases kvs.lookup key <;> rfl

theorem recompute_state (op parameters : PyVal) :
    recomputeLeafHash env (tagHS : Nat) (strDict [("op", op), ("parameters", parameters)]) =
      (cSOf env op parameters).map fun c =>
        env.sha256 (strMsg dsS ++ strMsg idCS ++ text c) := by
  rw [recomputeLeafHash, if_pos rfl]
  simp only [openedField_strDict, List.lookup_cons, String.reduceBEq, beq_self_eq_true, Option.elim,
    bind, Except.bind]
  cases cSOf env op parameters <;> rfl

theorem recompute_admissibility (chain policy caps basis parent fresh : PyVal) :
    recomputeLeafHash env (tagHC : Nat) (strDict [("authority_chain", chain), ("policy_id", policy),
      ("capabilities", caps), ("warrant_basis", basis), ("parent_H_r", parent),
      ("freshness", fresh)]) =
      (cCOf env chain policy caps basis parent fresh).map fun c =>
        env.sha256 (strMsg dsC ++ strMsg idCC ++ text c) := by
  rw [recomputeLeafHash, if_neg (by decide), if_pos rfl]
  simp only [openedField_strDict, List.lookup_cons, String.reduceBEq, beq_self_eq_true, Option.elim,
    bind, Except.bind]
  cases cCOf env chain policy caps basis parent fresh <;> rfl

theorem recompute_meaning (intent intentRef legend lineage : PyVal) (regime : String) :
    recomputeLeafHash env (tagHM : Nat) (strDict [("intent", intent), ("intent_ref", intentRef),
      ("legend_hash", legend), ("semantic_lineage", lineage),
      ("semantic_regime_id", .str regime)]) =
      (cMOf env intent intentRef legend lineage).map fun c =>
        env.sha256 (strMsg dsM ++ strMsg idCM ++ text c ++ strMsg regime) := by
  rw [recomputeLeafHash, if_neg (by decide), if_neg (by decide), if_pos rfl]
  simp only [openedField_strDict, List.lookup_cons, String.reduceBEq, beq_self_eq_true, Option.elim,
    bind, Except.bind]
  cases cMOf env intent intentRef legend lineage <;> rfl

theorem recompute_locality (phase root session key : PyVal) :
    recomputeLeafHash env (tagHJ : Nat) (strDict [("phase_code", phase), ("mosaic_root", root),
      ("session_id", session), ("authority_key", key)]) =
      (cJOf env phase root session key).map fun c =>
        env.sha256 (strMsg dsJ ++ strMsg idCJ ++ text c) := by
  rw [recomputeLeafHash, if_neg (by decide), if_neg (by decide), if_neg (by decide), if_pos rfl]
  simp only [openedField_strDict, List.lookup_cons, String.reduceBEq, beq_self_eq_true, Option.elim,
    bind, Except.bind]
  cases cJOf env phase root session key <;> rfl

/-! ## The leaves computed from a receipt -/

section Prover

variable {cfg : Config} {built : List String} {receipt : Receipt}

/-- The steps of the reconstruction. -/
theorem reconstructLeavesFor_ok {leaves : List (Nat × Digest)}
    (h : reconstructLeavesFor cfg built receipt = .ok leaves) :
    ∃ path caps hs hc hm hj, witnessPath cfg built receipt = .ok path ∧
      effectiveCapabilities path = .ok caps ∧
      hS cfg.toEnv receipt.op receipt.parameters = .ok hs ∧
      hC cfg.toEnv (path.map AuthorityEdge.toCanonicalDict) (lookupPolicyId cfg receipt.jurisdiction)
        caps (warrantBasis receipt) receipt.parentHR
        (buildFreshnessClaimFromEpoch (defaultEpoch cfg.toEnv (idPhi0 cfg.toEnv))) = .ok hc ∧
      hM cfg.toEnv receipt.intent receipt.intentRef receipt.legendHash [] (idSigma0 cfg.toEnv) =
        .ok hm ∧
      hJ cfg.toEnv (idPhi0 cfg.toEnv) (mosaicRootPhi0 cfg.toEnv) receipt.sessionDkn
        (lookupAuthorityKey cfg receipt.authority) = .ok hj ∧
      leaves = strictLeaves hs hc hm hj (hIdP cfg.toEnv (lookupPolicyId cfg receipt.jurisdiction))
        (hIdSigma cfg.toEnv (idSigma0 cfg.toEnv)) (hIdPhi cfg.toEnv (idPhi0 cfg.toEnv)) := by
  obtain ⟨path, hpath, h⟩ := Except.bind_eq_ok h
  obtain ⟨caps, hcaps, h⟩ := Except.bind_eq_ok h
  obtain ⟨hs, hhs, h⟩ := Except.bind_eq_ok h
  obtain ⟨hc, hhc, h⟩ := Except.bind_eq_ok h
  obtain ⟨hm, hhm, h⟩ := Except.bind_eq_ok h
  obtain ⟨hj, hhj, h⟩ := Except.bind_eq_ok h
  exact ⟨path, caps, hs, hc, hm, hj, hpath, hcaps, hhs, hhc, hhm, hhj, (Except.ok.inj h).symm⟩

theorem reconstructLeavesFor_eq {path : List AuthorityEdge} {caps : List String}
    {hs hc hm hj : Digest} (hpath : witnessPath cfg built receipt = .ok path)
    (hcaps : effectiveCapabilities path = .ok caps)
    (hhs : hS cfg.toEnv receipt.op receipt.parameters = .ok hs)
    (hhc : hC cfg.toEnv (path.map AuthorityEdge.toCanonicalDict)
      (lookupPolicyId cfg receipt.jurisdiction) caps (warrantBasis receipt) receipt.parentHR
      (buildFreshnessClaimFromEpoch (defaultEpoch cfg.toEnv (idPhi0 cfg.toEnv))) = .ok hc)
    (hhm : hM cfg.toEnv receipt.intent receipt.intentRef receipt.legendHash []
      (idSigma0 cfg.toEnv) = .ok hm)
    (hhj : hJ cfg.toEnv (idPhi0 cfg.toEnv) (mosaicRootPhi0 cfg.toEnv) receipt.sessionDkn
      (lookupAuthorityKey cfg receipt.authority) = .ok hj) :
    reconstructLeavesFor cfg built receipt =
      .ok (strictLeaves hs hc hm hj (hIdP cfg.toEnv (lookupPolicyId cfg receipt.jurisdiction))
        (hIdSigma cfg.toEnv (idSigma0 cfg.toEnv)) (hIdPhi cfg.toEnv (idPhi0 cfg.toEnv))) := by
  simp only [reconstructLeavesFor, hpath, hcaps, hhs, hhc, hhm, hhj, bind, Except.bind]

/-- The disclosed values of each tag hash to the leaf computed for it. -/
theorem recompute_openedInputFor {leaves : List (Nat × Digest)}
    (h : reconstructLeavesFor cfg built receipt = .ok leaves) {tag : Nat} (hlow : 1 ≤ tag)
    (hhigh : tag ≤ 7) :
    ∃ opened v, openedInputFor cfg built receipt tag = .ok opened ∧
      recomputeLeafHash cfg.toEnv tag opened = .ok v ∧ (tag, v) ∈ leaves := by
  obtain ⟨path, caps, hs, hc, hm, hj, hpath, hcaps, hhs, hhc, hhm, hhj, rfl⟩ :=
    reconstructLeavesFor_ok h
  simp only [openedInputFor, hpath, hcaps, bind, Except.bind]
  interval_cases tag
  · exact ⟨_, hs, rfl, (recompute_state _ _).trans hhs, .head _⟩
  · exact ⟨_, hc, rfl, (recompute_admissibility ..).trans hhc, .tail _ (.head _)⟩
  · exact ⟨_, hm, rfl, (recompute_meaning ..).trans hhm, .tail _ (.tail _ (.head _))⟩
  · exact ⟨_, hj, rfl, (recompute_locality ..).trans hhj, .tail _ (.tail _ (.tail _ (.head _)))⟩
  · exact ⟨_, _, rfl, rfl, by simp [strictLeaves, tagIdP, tagHS, tagHC, tagHM, tagHJ]⟩
  · exact ⟨_, _, rfl, rfl, by simp [strictLeaves, tagIdSigma, tagIdP, tagHS, tagHC, tagHM, tagHJ]⟩
  · exact ⟨_, _, rfl, rfl,
      by simp [strictLeaves, tagIdPhi, tagIdSigma, tagIdP, tagHS, tagHC, tagHM, tagHJ]⟩

/-- A constructed witness is judged by the root over the reconstructed leaves. -/
theorem verifyWitness_constructWitness {leaves : List (Nat × Digest)}
    (h : reconstructLeavesFor cfg built receipt = .ok leaves) {hr claimed : Digest}
    (hroot : computeHR cfg.toEnv leaves = .ok hr) (hclaimed : fromHex receipt.hR = some claimed)
    {tag : Nat} (hlow : 1 ≤ tag) (hhigh : tag ≤ 7) :
    ∃ w, constructWitness cfg built receipt tag = .ok w ∧ verifyWitness cfg.toEnv w =
      .ok (if hr = claimed then (true, none) else (false, some "NonCanonical")) := by
  obtain ⟨opened, v, hopened, hv, hmem⟩ := recompute_openedInputFor h hlow hhigh
  obtain ⟨encoded, henc, hnodup, hlen, hhr⟩ := computeHR_ok hroot
  obtain ⟨path, hbuild, haccept⟩ := verifyInclusionProof_build
    (((perm_sortLeaves leaves).map Prod.fst).nodup_iff.mp hnodup) henc
    (@merkleRootV1_of_two cfg.toEnv _ hlen) hmem
  have htarget : leafEncoding (Int.toNat tag) v = .ok (leafMsg tag v) :=
    if_pos ⟨hlow, Nat.le_trans hhigh (by omega)⟩
  refine ⟨⟨tag, opened, path, receipt.hR⟩, ?_, ?_⟩
  · simp only [constructWitness, h, hbuild, hopened, bind, Except.bind]
  · rw [verifyWitness]
    simp only [hv, htarget, hclaimed]
    -- the folded proof is the root over the leaves, whatever it is compared with
    have hsame : verifyInclusionProof cfg.toEnv claimed (leafMsg tag v) path = (hr == claimed) := by
      rw [← hhr] at haccept
      unfold verifyInclusionProof at haccept ⊢
      split
      · rename_i hempty
        rw [if_pos hempty] at haccept
        rw [beq_iff_eq.mp haccept]
      · rename_i hne
        rw [if_neg hne] at haccept
        rw [beq_iff_eq.mp haccept]
    rw [hsame]
    by_cases heq : hr = claimed
    · simp [heq]
    · simp [heq]

end Prover

/-! ## What a recomputed leaf determines -/

/-- Two values with one canonical document. -/
def OneDoc (env : Env) (v w : PyVal) : Prop :=
  ∃ j, canonicalDoc env v = .ok j ∧ canonicalDoc env w = .ok j

theorem oneDoc_of_sameDoc {v w : PyVal} (hc : canonical env v = true) (h : SameDoc env v w) :
    OneDoc env v w := by
  obtain ⟨j, hj⟩ := isOk_iff.mp hc
  exact ⟨j, hj, (Eq.symm h).trans hj⟩

theorem oneDoc_str (s : String) : OneDoc env (.str s) (.str s) := ⟨_, rfl, rfl⟩

/-- Members with the same names and one document each. -/
def SameMembers (env : Env) : List (String × PyVal) → List (String × PyVal) → Prop :=
  List.Forall₂ fun a b => a.1 = b.1 ∧ OneDoc env a.2 b.2

/-- Dictionaries with one canonical text and the same plain names have the same members. -/
theorem oneDoc_field {kvs kvs' : List (String × PyVal)} {cs : List Char} (names : List String)
    (hp : PlainNames names) (hn : kvs.map Prod.fst = names) (hn' : kvs'.map Prod.fst = names)
    (h : canonicalJson env (strDict kvs) = .ok cs) (h' : canonicalJson env (strDict kvs') = .ok cs)
    (name : String) : OneDoc env (fieldValue kvs name) (fieldValue kvs' name) := by
  have hall := (canonical_strDict_iff (hn.symm ▸ hp)).mp
    ((isOk_canonicalJson _).symm.trans (isOk_iff.mpr ⟨cs, h⟩))
  have hfield : canonical env (fieldValue kvs name) = true := by
    unfold fieldValue
    cases hlookup : kvs.lookup name with
    | none => rfl
    | some v =>
      obtain ⟨before, after, rfl, _⟩ := List.lookup_eq_some_iff.mp hlookup
      exact hall _ (List.mem_append_right _ (List.mem_cons_self ..))
  exact oneDoc_of_sameDoc hfield
    ((sameFields_of_canonicalJson_eq names hp hn hn' h h').fieldValue name)

/-- Members with one document each have one canonical text. -/
theorem exists_canonicalJson {kvs kvs' : List (String × PyVal)} (names : List String)
    (hp : PlainNames names) (hn : kvs.map Prod.fst = names) (h : SameMembers env kvs kvs') :
    ∃ cs, canonicalJson env (strDict kvs) = .ok cs ∧ canonicalJson env (strDict kvs') = .ok cs := by
  have hn' : kvs'.map Prod.fst = names := by
    rw [← hn]
    clear hn
    induction h with
    | nil => rfl
    | cons hab _ ih => rw [List.map_cons, List.map_cons, ih, hab.1]
  have hitems : docItems env kvs = docItems env kvs' := by
    refine docItems_congr (h.imp ?_)
    rintro a b ⟨hname, j, hj, hj'⟩
    exact ⟨hname, hj.trans hj'.symm⟩
  have hall : ∀ kv ∈ kvs, canonical env kv.2 = true := by
    intro kv hkv
    obtain ⟨kv', _, _, j, hj, _⟩ := exists_mem_of_forall₂ h hkv
    exact isOk_iff.mpr ⟨j, hj⟩
  obtain ⟨cs, hcs⟩ := isOk_iff.mp ((isOk_canonicalJson _).trans
    ((canonical_strDict_iff (hn.symm ▸ hp)).mpr hall))
  refine ⟨cs, hcs, ?_⟩
  rw [← hcs]
  refine canonicalJson_congr ?_
  rw [canonicalDoc_strDict (hn' ▸ hp), canonicalDoc_strDict (hn ▸ hp), hitems]

/-- The canonical text of a dictionary ends at its brace. -/
theorem canonicalJson_append_inj {kvs kvs' : List (String × PyVal)} {cs cs' rest rest' : List Char}
    (h : canonicalJson env (strDict kvs) = .ok cs)
    (h' : canonicalJson env (strDict kvs') = .ok cs') (heq : cs ++ rest = cs' ++ rest') :
    cs = cs' ∧ rest = rest' := by
  obtain ⟨j, hj, rfl⟩ := Except.map_eq_ok h
  obtain ⟨j', hj', rfl⟩ := Except.map_eq_ok h'
  obtain ⟨_, _, members, rfl, _⟩ := toJson_dict_ok hj
  obtain ⟨_, _, members', rfl, _⟩ := toJson_dict_ok hj'
  obtain ⟨rfl, hrest⟩ := Json.render_obj_append_inj _ heq
  exact ⟨rfl, hrest⟩

section Determines

variable (hinj : Function.Injective env.sha256)

include hinj

omit hinj in
/-- `h_s` of disclosed values determines the documents of both. -/
theorem cSOf_determines {op parameters op' parameters' : PyVal} {cs : List Char}
    (h : cSOf env op parameters = .ok cs) (h' : cSOf env op' parameters' = .ok cs) :
    SameMembers env [("op", op), ("parameters", parameters)]
      [("op", op'), ("parameters", parameters')] := by
  unfold cSOf at h h'
  split at h
  · split at h'
    · unfold cS at h h'
      split at h
      · split at h'
        · have hfield := oneDoc_field ["op", "inputs"] (by decide) rfl rfl (orNonCanonical_ok h)
            (orNonCanonical_ok h')
          exact .cons ⟨rfl, hfield "op"⟩ (.cons ⟨rfl, hfield "inputs"⟩ .nil)
        · exact nomatch h'
      · exact nomatch h
    · exact nomatch h'
  · exact nomatch h

/-- `h_c` of disclosed values determines the documents of all six. -/
theorem cCOf_determines {chain policy caps basis parent fresh : PyVal}
    {chain' policy' caps' basis' parent' fresh' : PyVal} {cs : List Char}
    (h : cCOf env chain policy caps basis parent fresh = .ok cs)
    (h' : cCOf env chain' policy' caps' basis' parent' fresh' = .ok cs) :
    SameMembers env
      [("authority_chain", chain), ("policy_id", policy), ("capabilities", caps),
        ("warrant_basis", basis), ("parent_H_r", parent), ("freshness", fresh)]
      [("authority_chain", chain'), ("policy_id", policy'), ("capabilities", caps'),
        ("warrant_basis", basis'), ("parent_H_r", parent'), ("freshness", fresh')] := by
  unfold cCOf at h h'
  split at h
  · split at h
    · exact nomatch h
    rename_i ch hch
    split at h'
    · split at h'
      · exact nomatch h'
      rename_i ch' hch'
      have hfield := oneDoc_field ["G_c_root", "policy_id", "capabilities", "warrant_basis",
        "parent", "freshness"] (by decide) rfl rfl (orNonCanonical_ok h) (orNonCanonical_ok h')
      -- the root of the chain is the hash of its text
      obtain ⟨_, hroot, hroot'⟩ := hfield "G_c_root"
      obtain rfl := text_injective (hinj (Digest.eq_of_sameDoc (hroot.trans hroot'.symm)))
      have hchain := oneDoc_of_sameDoc
        ((isOk_canonicalJson _).symm.trans (isOk_iff.mpr ⟨_, hch⟩)) (canonicalJson_inj hch hch')
      exact .cons ⟨rfl, hchain⟩ (.cons ⟨rfl, hfield "policy_id"⟩ (.cons ⟨rfl, hfield "capabilities"⟩
        (.cons ⟨rfl, hfield "warrant_basis"⟩ (.cons ⟨rfl, hfield "parent"⟩
          (.cons ⟨rfl, hfield "freshness"⟩ .nil)))))
    · exact nomatch h'
  · exact nomatch h

omit hinj in
/-- `h_m` of disclosed values determines the four documents of its text. -/
theorem cMOf_determines {intent ref legend lineage intent' ref' legend' lineage' : PyVal}
    {cs : List Char} (h : cMOf env intent ref legend lineage = .ok cs)
    (h' : cMOf env intent' ref' legend' lineage' = .ok cs) (regime : String) :
    SameMembers env
      [("intent", intent), ("intent_ref", ref), ("legend_hash", legend),
        ("semantic_lineage", lineage), ("semantic_regime_id", .str regime)]
      [("intent", intent'), ("intent_ref", ref'), ("legend_hash", legend'),
        ("semantic_lineage", lineage'), ("semantic_regime_id", .str regime)] := by
  have hfield := oneDoc_field ["intent", "intent_ref", "legend_hash", "semantic_lineage"]
    (by decide) rfl rfl (orNonCanonical_ok h) (orNonCanonical_ok h')
  exact .cons ⟨rfl, hfield "intent"⟩ (.cons ⟨rfl, hfield "intent_ref"⟩
    (.cons ⟨rfl, hfield "legend_hash"⟩ (.cons ⟨rfl, hfield "semantic_lineage"⟩
      (.cons ⟨rfl, oneDoc_str regime⟩ .nil))))

/-- `h_j` of disclosed values determines the four documents. -/
theorem cJOf_determines {phase root session key phase' root' session' key' : PyVal}
    {cs : List Char} (h : cJOf env phase root session key = .ok cs)
    (h' : cJOf env phase' root' session' key' = .ok cs) :
    SameMembers env
      [("phase_code", phase), ("mosaic_root", root), ("session_id", session),
        ("authority_key", key)]
      [("phase_code", phase'), ("mosaic_root", root'), ("session_id", session'),
        ("authority_key", key')] := by
  unfold cJOf at h h'
  split at h
  · exact nomatch h
  rename_i phi hphi
  split at h'
  · exact nomatch h'
  rename_i phi' hphi'
  have houter := oneDoc_field ["phi", "authority_key"] (by decide) rfl rfl (orNonCanonical_ok h)
    (orNonCanonical_ok h')
  obtain ⟨_, hhash, hhash'⟩ := houter "phi"
  obtain rfl := text_of_hash_eq hinj (Digest.eq_of_sameDoc (hhash.trans hhash'.symm))
  have hfield := oneDoc_field ["phase_code", "mosaic_root", "session_id"] (by decide) rfl rfl hphi
    hphi'
  exact .cons ⟨rfl, hfield "phase_code"⟩ (.cons ⟨rfl, hfield "mosaic_root"⟩
    (.cons ⟨rfl, hfield "session_id"⟩ (.cons ⟨rfl, houter "authority_key"⟩ .nil)))

end Determines

/-! ## Accepted witnesses -/

/-- The members the leaf of a tag is computed from. -/
def openedFields (leafTag : Int) : List String :=
  if leafTag = tagHS then ["op", "parameters"]
  else if leafTag = tagHC then
    ["authority_chain", "policy_id", "capabilities", "warrant_basis", "parent_H_r", "freshness"]
  else if leafTag = tagHM then
    ["intent", "intent_ref", "legend_hash", "semantic_lineage", "semantic_regime_id"]
  else if leafTag = tagHJ then ["phase_code", "mosaic_root", "session_id", "authority_key"]
  else if leafTag = tagIdP then ["policy_id"]
  else if leafTag = tagIdSigma then ["semantic_regime_id"]
  else if leafTag = tagIdPhi then ["phase_code"]
  else []

/-- The disclosed values under these names. -/
def disclosed (names : List String) (openedInput : PyVal) : Except Exc (List (String × PyVal)) :=
  names.mapM fun name => (openedField openedInput name).map fun v => (name, v)

/-- The canonical text of what a witness opens. -/
def canonicalInput (env : Env) (leafTag : Int) (openedInput : PyVal) : Except Exc (List Char) := do
  let kvs ← disclosed (openedFields leafTag) openedInput
  canonicalJson env (strDict kvs)

/-- Values read one by one. -/
theorem disclosed_of_forall {openedInput : PyVal} {kvs : List (String × PyVal)}
    (h : ∀ kv ∈ kvs, openedField openedInput kv.1 = .ok kv.2) :
    disclosed (kvs.map Prod.fst) openedInput = .ok kvs := by
  refine mapM_ok_iff.mpr ?_
  rw [List.forall₂_map_left_iff]
  refine List.forall₂_same.mpr fun kv hkv => ?_
  rw [h kv hkv]
  rfl

theorem plainNames_openedFields (leafTag : Int) : PlainNames (openedFields leafTag) := by
  unfold openedFields
  split_ifs <;> decide

/-- Inputs with the same disclosed members have one canonical text. -/
theorem exists_canonicalInput {tag : Int} {opened opened' : PyVal}
    {kvs kvs' : List (String × PyVal)} (hn : kvs.map Prod.fst = openedFields tag)
    (hn' : kvs'.map Prod.fst = openedFields tag)
    (h : ∀ kv ∈ kvs, openedField opened kv.1 = .ok kv.2)
    (h' : ∀ kv ∈ kvs', openedField opened' kv.1 = .ok kv.2) (hsame : SameMembers env kvs kvs') :
    ∃ cs, canonicalInput env tag opened = .ok cs ∧ canonicalInput env tag opened' = .ok cs := by
  obtain ⟨cs, hcs, hcs'⟩ := exists_canonicalJson _ (plainNames_openedFields tag) hn hsame
  refine ⟨cs, ?_, ?_⟩
  · rw [canonicalInput, ← hn, disclosed_of_forall h]
    exact hcs
  · rw [canonicalInput, ← hn', disclosed_of_forall h']
    exact hcs'

theorem encodeUtf8_ok {v : PyVal} {s : String} (h : encodeUtf8 v = .ok s) : v = .str s := by
  cases v with
  | str t => exact congrArg PyVal.str (Except.ok.inj h)
  | _ => exact nomatch h

/-- A leaf is computed for the seven tags only. -/
theorem tag_of_recompute {tag : Int} {opened : PyVal} {v : Digest}
    (h : recomputeLeafHash env tag opened = .ok v) : ∃ t : Nat, tag = t ∧ 1 ≤ t ∧ t ≤ 7 := by
  unfold recomputeLeafHash at h
  split_ifs at h with h1 h2 h3 h4 h5 h6 h7
  · exact ⟨1, h1, by omega, by omega⟩
  · exact ⟨2, h2, by omega, by omega⟩
  · exact ⟨3, h3, by omega, by omega⟩
  · exact ⟨4, h4, by omega, by omega⟩
  · exact ⟨5, h5, by omega, by omega⟩
  · exact ⟨6, h6, by omega, by omega⟩
  · exact ⟨7, h7, by omega, by omega⟩

section Leaves

variable (hinj : Function.Injective env.sha256)

include hinj

theorem canonicalInput_of_state {opened opened' : PyVal} {v : Digest}
    (h : recomputeLeafHash env (tagHS : Nat) opened = .ok v)
    (h' : recomputeLeafHash env (tagHS : Nat) opened' = .ok v) :
    ∃ cs, canonicalInput env (tagHS : Nat) opened = .ok cs ∧
      canonicalInput env (tagHS : Nat) opened' = .ok cs := by
  rw [recomputeLeafHash, if_pos rfl] at h h'
  obtain ⟨op, hop, h⟩ := Except.bind_eq_ok h
  obtain ⟨params, hparams, h⟩ := Except.bind_eq_ok h
  obtain ⟨op', hop', h'⟩ := Except.bind_eq_ok h'
  obtain ⟨params', hparams', h'⟩ := Except.bind_eq_ok h'
  obtain ⟨cs, hcs, hd⟩ := Except.bind_eq_ok h
  obtain ⟨cs', hcs', hd'⟩ := Except.bind_eq_ok h'
  obtain rfl := text_of_hash_eq hinj ((Except.ok.inj hd).trans (Except.ok.inj hd').symm)
  refine exists_canonicalInput rfl rfl ?_ ?_ (cSOf_determines hcs hcs')
  · simp [hop, hparams]
  · simp [hop', hparams']

theorem canonicalInput_of_admissibility {opened opened' : PyVal} {v : Digest}
    (h : recomputeLeafHash env (tagHC : Nat) opened = .ok v)
    (h' : recomputeLeafHash env (tagHC : Nat) opened' = .ok v) :
    ∃ cs, canonicalInput env (tagHC : Nat) opened = .ok cs ∧
      canonicalInput env (tagHC : Nat) opened' = .ok cs := by
  rw [recomputeLeafHash, if_neg (by decide), if_pos rfl] at h h'
  obtain ⟨chain, hchain, h⟩ := Except.bind_eq_ok h
  obtain ⟨policy, hpolicy, h⟩ := Except.bind_eq_ok h
  obtain ⟨caps, hcaps, h⟩ := Except.bind_eq_ok h
  obtain ⟨basis, hbasis, h⟩ := Except.bind_eq_ok h
  obtain ⟨parent, hparent, h⟩ := Except.bind_eq_ok h
  obtain ⟨fresh, hfresh, h⟩ := Except.bind_eq_ok h
  obtain ⟨chain', hchain', h'⟩ := Except.bind_eq_ok h'
  obtain ⟨policy', hpolicy', h'⟩ := Except.bind_eq_ok h'
  obtain ⟨caps', hcaps', h'⟩ := Except.bind_eq_ok h'
  obtain ⟨basis', hbasis', h'⟩ := Except.bind_eq_ok h'
  obtain ⟨parent', hparent', h'⟩ := Except.bind_eq_ok h'
  obtain ⟨fresh', hfresh', h'⟩ := Except.bind_eq_ok h'
  obtain ⟨cs, hcs, hd⟩ := Except.bind_eq_ok h
  obtain ⟨cs', hcs', hd'⟩ := Except.bind_eq_ok h'
  obtain rfl := text_of_hash_eq hinj ((Except.ok.inj hd).trans (Except.ok.inj hd').symm)
  refine exists_canonicalInput rfl rfl ?_ ?_ (cCOf_determines hinj hcs hcs')
  · simp [hchain, hpolicy, hcaps, hbasis, hparent, hfresh]
  · simp [hchain', hpolicy', hcaps', hbasis', hparent', hfresh']

theorem canonicalInput_of_meaning {opened opened' : PyVal} {v : Digest}
    (h : recomputeLeafHash env (tagHM : Nat) opened = .ok v)
    (h' : recomputeLeafHash env (tagHM : Nat) opened' = .ok v) :
    ∃ cs, canonicalInput env (tagHM : Nat) opened = .ok cs ∧
      canonicalInput env (tagHM : Nat) opened' = .ok cs := by
  rw [recomputeLeafHash, if_neg (by decide), if_neg (by decide), if_pos rfl] at h h'
  obtain ⟨intent, hintent, h⟩ := Except.bind_eq_ok h
  obtain ⟨ref, href, h⟩ := Except.bind_eq_ok h
  obtain ⟨legend, hlegend, h⟩ := Except.bind_eq_ok h
  obtain ⟨lineage, hlineage, h⟩ := Except.bind_eq_ok h
  obtain ⟨regime, hregime, h⟩ := Except.bind_eq_ok h
  obtain ⟨intent', hintent', h'⟩ := Except.bind_eq_ok h'
  obtain ⟨ref', href', h'⟩ := Except.bind_eq_ok h'
  obtain ⟨legend', hlegend', h'⟩ := Except.bind_eq_ok h'
  obtain ⟨lineage', hlineage', h'⟩ := Except.bind_eq_ok h'
  obtain ⟨regime', hregime', h'⟩ := Except.bind_eq_ok h'
  obtain ⟨cs, hcs, h⟩ := Except.bind_eq_ok h
  obtain ⟨id, hid, hd⟩ := Except.bind_eq_ok h
  obtain ⟨cs', hcs', h'⟩ := Except.bind_eq_ok h'
  obtain ⟨id', hid', hd'⟩ := Except.bind_eq_ok h'
  obtain rfl := encodeUtf8_ok hid
  obtain rfl := encodeUtf8_ok hid'
  -- the regime is what follows the closing brace of the text
  have hmsg := hinj ((Except.ok.inj hd).trans (Except.ok.inj hd').symm)
  simp only [List.append_assoc] at hmsg
  have htail := List.append_cancel_left (List.append_cancel_left hmsg)
  rw [strMsg, strMsg, ← text_append, ← text_append] at htail
  obtain ⟨rfl, hregimes⟩ := canonicalJson_append_inj (orNonCanonical_ok hcs)
    (orNonCanonical_ok hcs') (text_injective htail)
  obtain rfl : id = id' := String.toList_inj.mp hregimes
  refine exists_canonicalInput rfl rfl ?_ ?_ (cMOf_determines hcs hcs' id)
  · simp [hintent, href, hlegend, hlineage, hregime]
  · simp [hintent', href', hlegend', hlineage', hregime']

theorem canonicalInput_of_locality {opened opened' : PyVal} {v : Digest}
    (h : recomputeLeafHash env (tagHJ : Nat) opened = .ok v)
    (h' : recomputeLeafHash env (tagHJ : Nat) opened' = .ok v) :
    ∃ cs, canonicalInput env (tagHJ : Nat) opened = .ok cs ∧
      canonicalInput env (tagHJ : Nat) opened' = .ok cs := by
  rw [recomputeLeafHash, if_neg (by decide), if_neg (by decide), if_neg (by decide), if_pos rfl] at h h'
  obtain ⟨phase, hphase, h⟩ := Except.bind_eq_ok h
  obtain ⟨root, hroot, h⟩ := Except.bind_eq_ok h
  obtain ⟨session, hsession, h⟩ := Except.bind_eq_ok h
  obtain ⟨key, hkey, h⟩ := Except.bind_eq_ok h
  obtain ⟨phase', hphase', h'⟩ := Except.bind_eq_ok h'
  obtain ⟨root', hroot', h'⟩ := Except.bind_eq_ok h'
  obtain ⟨session', hsession', h'⟩ := Except.bind_eq_ok h'
  obtain ⟨key', hkey', h'⟩ := Except.bind_eq_ok h'
  obtain ⟨cs, hcs, hd⟩ := Except.bind_eq_ok h
  obtain ⟨cs', hcs', hd'⟩ := Except.bind_eq_ok h'
  obtain rfl := text_of_hash_eq hinj ((Except.ok.inj hd).trans (Except.ok.inj hd').symm)
  refine exists_canonicalInput rfl rfl ?_ ?_ (cJOf_determines hinj hcs hcs')
  · simp [hphase, hroot, hsession, hkey]
  · simp [hphase', hroot', hsession', hkey']

/-- A leaf that hashes one disclosed string after its separator. -/
theorem canonicalInput_of_string {tag : Int} {name sep : String}
    (hfields : openedFields tag = [name]) {opened opened' : PyVal} {v : Digest}
    (h : (do
      let x ← openedField opened name
      let s ← encodeUtf8 x
      .ok (env.sha256 (strMsg sep ++ strMsg s))) = (Except.ok v : Except Exc Digest))
    (h' : (do
      let x ← openedField opened' name
      let s ← encodeUtf8 x
      .ok (env.sha256 (strMsg sep ++ strMsg s))) = (Except.ok v : Except Exc Digest)) :
    ∃ cs, canonicalInput env tag opened = .ok cs ∧ canonicalInput env tag opened' = .ok cs := by
  obtain ⟨x, hx, h⟩ := Except.bind_eq_ok h
  obtain ⟨s, hs, hd⟩ := Except.bind_eq_ok h
  obtain ⟨x', hx', h'⟩ := Except.bind_eq_ok h'
  obtain ⟨s', hs', hd'⟩ := Except.bind_eq_ok h'
  obtain rfl := encodeUtf8_ok hs
  obtain rfl := encodeUtf8_ok hs'
  have hmsg := List.append_cancel_left (hinj ((Except.ok.inj hd).trans (Except.ok.inj hd').symm))
  obtain rfl : s = s' := String.toList_inj.mp (text_injective hmsg)
  refine @exists_canonicalInput env tag opened opened' [(name, .str s)] [(name, .str s)]
    hfields.symm hfields.symm ?_ ?_ (.cons ⟨rfl, oneDoc_str s⟩ .nil)
  · simpa using hx
  · simpa using hx'

/-- Two inputs with one leaf have one canonical text. -/
theorem canonicalInput_of_recompute {tag : Int} {opened opened' : PyVal} {v : Digest}
    (h : recomputeLeafHash env tag opened = .ok v)
    (h' : recomputeLeafHash env tag opened' = .ok v) :
    ∃ cs, canonicalInput env tag opened = .ok cs ∧ canonicalInput env tag opened' = .ok cs := by
  obtain ⟨t, rfl, hlow, hhigh⟩ := tag_of_recompute h
  interval_cases t
  · exact canonicalInput_of_state hinj h h'
  · exact canonicalInput_of_admissibility hinj h h'
  · exact canonicalInput_of_meaning hinj h h'
  · exact canonicalInput_of_locality hinj h h'
  · exact canonicalInput_of_string hinj rfl h h'
  · exact canonicalInput_of_string hinj rfl h h'
  · exact canonicalInput_of_string hinj rfl h h'

end Leaves

/-! ## Written receipts -/

section Written

variable {cfg : Config} {clock : Clock} {a : WriteArgs} {s s' : StoreState} {receipt : Receipt}

/-- A returned receipt is a finished draft over the tip the write found. -/
theorem drafted_of_write (h : Store.write cfg clock a s = (.ok receipt, s')) :
    ∃ time c r x hBody trace n, commitments cfg s'.built s.tip a r.parameters = .ok c ∧
      receipt = { finish (draft s.tip time a c r x) hBody trace with receiptId := n } := by
  obtain ⟨r, planned', row, _, hplan, hreceipt, hstate⟩ := write_ok (congrArg Prod.fst h)
  obtain ⟨c, x, hBody, trace, hcom, _, _, _, hdraft, _⟩ := planWrite_ok hplan
  have hbuilt : s'.built = (sampled cfg a s).built := by
    have hs' : s' = appended planned' row (sampled cfg a s) := (congrArg Prod.snd h).symm.trans hstate
    rw [hs', built_appended]
  rw [hbuilt]
  exact ⟨_, c, r, x, hBody, trace, _, hcom, hdraft ▸ hreceipt⟩

/-- The leaves a write commits. -/
def committedLeaves (cfg : Config) (jurisdiction : String) (c : Commitments) :
    List (Nat × Digest) :=
  strictLeaves c.hS c.hC c.hM c.hJ (hIdP cfg.toEnv (lookupPolicyId cfg jurisdiction))
    (hIdSigma cfg.toEnv (idSigma0 cfg.toEnv)) (hIdPhi cfg.toEnv (idPhi0 cfg.toEnv))

/-- The leaves computed from a returned receipt are the committed ones, but for a meaning without
    lineage. -/
theorem reconstructLeavesFor_of_write (h : Store.write cfg clock a s = (.ok receipt, s')) :
    ∃ r c hm, commitments cfg s'.built s.tip a r = .ok c ∧ receipt.hR = c.hR.hex ∧
      hM cfg.toEnv a.intentText a.intentRef a.legendHash [] (idSigma0 cfg.toEnv) = .ok hm ∧
      ∀ built, s'.built ⊆ built → reconstructLeavesFor cfg built receipt =
        .ok (committedLeaves cfg a.jurisdiction { c with hM := hm }) := by
  obtain ⟨time, c, r, x, hBody, trace, n, hcom, rfl⟩ := drafted_of_write h
  obtain ⟨hm, hhm⟩ := @hM_isOk cfg.toEnv a.intentText a.intentRef a.legendHash none none
    (idSigma0 cfg.toEnv)
  refine ⟨r.parameters, c, hm, hcom, rfl, hhm, ?_⟩
  intro built hsub
  obtain ⟨path, hpath, hrest⟩ := Except.bind_eq_ok hcom
  obtain ⟨caps, hcaps, hrest⟩ := Except.bind_eq_ok hrest
  obtain ⟨hs, hhs, hrest⟩ := Except.bind_eq_ok hrest
  obtain ⟨hc, hhc, hrest⟩ := Except.bind_eq_ok hrest
  obtain ⟨hm', _, hrest⟩ := Except.bind_eq_ok hrest
  obtain ⟨hj, hhj, hrest⟩ := Except.bind_eq_ok hrest
  obtain ⟨hr, _, hrest⟩ := Except.bind_eq_ok hrest
  obtain rfl := Except.ok.inj hrest
  have hpath' := canonicalPathFor_mono
    (List.Subset.trans hsub (subset_ensureDefaultEdgeFor cfg built a.authority)) hpath
  exact reconstructLeavesFor_eq hpath' hcaps hhs hhc hhm hhj

/-- Two meanings with one regime and one commitment have the same lineage document. -/
theorem lineage_of_hM (hinj : Function.Injective env.sha256) {intent ref legend regime : String}
    {lineage lineage' : List PyVal} {d : Digest}
    (h : hM env intent ref legend lineage regime = .ok d)
    (h' : hM env intent ref legend lineage' regime = .ok d) :
    OneDoc env (.list lineage) (.list lineage') := by
  obtain ⟨cs, hcs, hd⟩ := Except.map_eq_ok h
  obtain ⟨cs', hcs', hd'⟩ := Except.map_eq_ok h'
  have hmsg := List.append_cancel_right (hinj (hd.trans hd'.symm))
  obtain rfl := text_injective (List.append_cancel_left hmsg)
  exact oneDoc_field ["intent", "intent_ref", "legend_hash", "semantic_lineage"] (by decide) rfl rfl
    (orNonCanonical_ok hcs) (orNonCanonical_ok hcs') "semantic_lineage"

/-- The meaning without lineage is the committed one exactly when the tip had no meaning. -/
theorem hM_nil_iff (hinj : Function.Injective env.sha256) {tip : Tip}
    {intent ref legend regime : String} {d d' : Digest}
    (h : hM env intent ref legend (lineageDicts tip.priorHM tip.priorIntentRef) regime = .ok d)
    (h' : hM env intent ref legend [] regime = .ok d') : d' = d ↔ tip.priorHM = none := by
  constructor
  · rintro rfl
    obtain ⟨j, hj, hj'⟩ := lineage_of_hM hinj h h'
    obtain rfl : Json.arr [] = j := Except.ok.inj hj'
    cases hprior : tip.priorHM with
    | none => rfl
    | some p =>
      -- a lineage edge is an item of the document
      rw [hprior, canonicalDoc, lineageDicts, normalize, toJson] at hj
      obtain ⟨items, hitems, hnil⟩ := Except.map_eq_ok hj
      obtain rfl := Json.arr.inj hnil
      cases toJsonList_ok_nil hitems
  · intro hprior
    rw [hprior] at h
    exact Except.ok.inj (h'.symm.trans h)

variable (hinj : Function.Injective cfg.sha256) (hhex : ∀ m, HexText (cfg.sha256 m).hex)

include hinj hhex

/-- The seven witnesses of a written receipt are all accepted or all rejected. -/
theorem round_trip_of_write (h : Store.write cfg clock a s = (.ok receipt, s'))
    {built : List String} (hsub : s'.built ⊆ built) {tag : Nat} (hlow : 1 ≤ tag) (hhigh : tag ≤ 7) :
    ∃ w, constructWitness cfg built receipt tag = .ok w ∧ verifyWitness cfg.toEnv w =
      .ok (if s.tip.priorHM = none then (true, none) else (false, some "NonCanonical")) := by
  obtain ⟨r, c, hm, hcom, hroot, hmeaning, hleaves⟩ := reconstructLeavesFor_of_write h
  obtain ⟨_, _, _, _, _, hcm, _, hhr⟩ := commitments_ok hcom
  have hiff := hM_nil_iff hinj hcm hmeaning
  obtain ⟨hr, hcomp⟩ : ∃ hr, computeHR cfg.toEnv
      (committedLeaves cfg a.jurisdiction { c with hM := hm }) = .ok hr :=
    ⟨_, computeHR_strictLeaves ..⟩
  have hclaimed : fromHex receipt.hR = some c.hR := by
    rw [computeHR_strictLeaves] at hhr
    rw [hroot, ← Except.ok.inj hhr]
    exact fromHex_hex (hhex _)
  obtain ⟨w, hw, hverify⟩ := verifyWitness_constructWitness (hleaves built hsub) hcomp hclaimed
    hlow hhigh
  -- the roots agree exactly when the meanings do
  have hsame : hr = c.hR ↔ s.tip.priorHM = none := by
    rw [← hM_nil_iff hinj hcm hmeaning]
    constructor
    · rintro rfl
      exact (computeHR_injective hinj hcomp hhr).2.2.1
    · rintro rfl
      exact Except.ok.inj (hcomp.symm.trans hhr)
  refine ⟨w, hw, ?_⟩
  rw [hverify, if_congr hsame rfl rfl]

end Written

/-! ## Binding -/

section Binding

variable {cfg : Config} {clock : Clock} {a : WriteArgs} {s s' : StoreState} {receipt : Receipt}

/-- What an accepted witness has gone through. -/
theorem verifyWitness_ok {w : Witness} (h : verifyWitness env w = .ok (true, none)) :
    ∃ t v claimed, w.leafTag = ((t : Nat) : Int) ∧ 1 ≤ t ∧ t ≤ 7 ∧
      recomputeLeafHash env w.leafTag w.openedInput = .ok v ∧ fromHex w.hRClaimed = some claimed ∧
      verifyInclusionProof env claimed (leafMsg t v) w.inclusionPath = true := by
  rw [verifyWitness] at h
  split at h
  · split_ifs at h
    exact nomatch h
  rename_i v hv
  obtain ⟨t, htag, hlow, hhigh⟩ := tag_of_recompute hv
  have htarget : leafEncoding w.leafTag.toNat v = .ok (leafMsg t v) := by
    rw [htag]
    exact if_pos ⟨hlow, Nat.le_trans hhigh (by omega)⟩
  simp only [htarget] at h
  split at h
  · exact nomatch h
  rename_i claimed hclaimed
  split at h
  · rename_i haccept
    exact ⟨t, v, claimed, htag, hlow, hhigh, hv, hclaimed, haccept⟩
  · exact nomatch h

/-- The leaf a receipt commits under a tag, in hex. -/
def committedLeaf (cfg : Config) (receipt : Receipt) (leafTag : Int) : Option String :=
  if leafTag = tagHS then some receipt.hS
  else if leafTag = tagHC then some receipt.hC
  else if leafTag = tagHM then some receipt.hM
  else if leafTag = tagHJ then receipt.hJ.str?
  else if leafTag = tagIdP then
    some (hIdP cfg.toEnv (lookupPolicyId cfg receipt.jurisdiction)).hex
  else if leafTag = tagIdSigma then some (hIdSigma cfg.toEnv (idSigma0 cfg.toEnv)).hex
  else if leafTag = tagIdPhi then some (hIdPhi cfg.toEnv (idPhi0 cfg.toEnv)).hex
  else none

/-- The leaves of a write are the ones its receipt names. -/
theorem committedLeaf_of_write (h : Store.write cfg clock a s = (.ok receipt, s')) :
    ∃ r c, commitments cfg s'.built s.tip a r = .ok c ∧ receipt.hR = c.hR.hex ∧
      ∀ t v, (t, v) ∈ committedLeaves cfg a.jurisdiction c →
        committedLeaf cfg receipt ((t : Nat) : Int) = some v.hex := by
  obtain ⟨time, c, r, x, hBody, trace, n, hcom, rfl⟩ := drafted_of_write h
  refine ⟨r.parameters, c, hcom, rfl, ?_⟩
  intro t v hmem
  simp only [committedLeaves, strictLeaves, List.mem_cons, Prod.mk.injEq, List.not_mem_nil,
    or_false] at hmem
  rcases hmem with ⟨rfl, rfl⟩ | ⟨rfl, rfl⟩ | ⟨rfl, rfl⟩ | ⟨rfl, rfl⟩ | ⟨rfl, rfl⟩ | ⟨rfl, rfl⟩ |
    ⟨rfl, rfl⟩ <;> rfl

variable (hinj : Function.Injective cfg.sha256) (hhex : ∀ m, HexText (cfg.sha256 m).hex)

include hinj hhex

/-- An accepted witness opens the leaf its receipt commits under that tag. -/
theorem committed_of_verifyWitness (h : Store.write cfg clock a s = (.ok receipt, s'))
    {w : Witness} (hclaim : fromHex w.hRClaimed = fromHex receipt.hR)
    (haccept : verifyWitness cfg.toEnv w = .ok (true, none)) :
    ∃ v, recomputeLeafHash cfg.toEnv w.leafTag w.openedInput = .ok v ∧
      committedLeaf cfg receipt w.leafTag = some v.hex := by
  obtain ⟨r, c, hcom, hroot, hleaf⟩ := committedLeaf_of_write h
  obtain ⟨_, _, _, _, _, _, _, hhr⟩ := commitments_ok hcom
  obtain ⟨t, v, claimed, htag, hlow, hhigh, hv, hclaimed, hproof⟩ := verifyWitness_ok haccept
  have hreceipt : fromHex receipt.hR = some c.hR := by
    rw [computeHR_strictLeaves] at hhr
    rw [hroot, ← Except.ok.inj hhr]
    exact fromHex_hex (hhex _)
  obtain rfl : claimed = c.hR := by
    rw [hclaim, hreceipt] at hclaimed
    exact (Option.some.inj hclaimed).symm
  have hmem := mem_strictLeaves_of_commitments hinj hcom ⟨hlow, Nat.le_trans hhigh (by omega)⟩
    hproof
  exact ⟨v, hv, htag ▸ hleaf t v hmem⟩

/-- A receipt written over a tip without meaning has seven accepted witnesses, under the registries
    it was written under; every other one has seven rejected ones.  A witness accepted against the
    `h_r` of a written receipt recomputes the leaf the receipt commits under its tag, and two of them
    for one tag open inputs with one canonical text. -/
theorem witnesses_round_trip_and_bind (hwrite : Store.write cfg clock a s = (.ok receipt, s')) :
    (∀ built, s'.built ⊆ built → ∀ tag, 1 ≤ tag → tag ≤ 7 →
      ∃ w, constructWitness cfg built receipt tag = .ok w ∧ verifyWitness cfg.toEnv w =
        .ok (if s.tip.priorHM = none then (true, none) else (false, some "NonCanonical"))) ∧
    (∀ w, fromHex w.hRClaimed = fromHex receipt.hR →
      verifyWitness cfg.toEnv w = .ok (true, none) →
      ∃ v, recomputeLeafHash cfg.toEnv w.leafTag w.openedInput = .ok v ∧
        committedLeaf cfg receipt w.leafTag = some v.hex) ∧
    (∀ w w', fromHex w.hRClaimed = fromHex receipt.hR → fromHex w'.hRClaimed = fromHex receipt.hR →
      verifyWitness cfg.toEnv w = .ok (true, none) → verifyWitness cfg.toEnv w' = .ok (true, none) →
      w.leafTag = w'.leafTag →
      ∃ cs, canonicalInput cfg.toEnv w.leafTag w.openedInput = .ok cs ∧
        canonicalInput cfg.toEnv w'.leafTag w'.openedInput = .ok cs) := by
  refine ⟨?_, ?_, ?_⟩
  · intro built hsub tag hlow hhigh
    exact round_trip_of_write hinj hhex hwrite hsub hlow hhigh
  · intro w hclaim haccept
    exact committed_of_verifyWitness hinj hhex hwrite hclaim haccept
  · intro w w' hclaim hclaim' haccept haccept' htag
    obtain ⟨v, hv, hleaf⟩ := committed_of_verifyWitness hinj hhex hwrite hclaim haccept
    obtain ⟨v', hv', hleaf'⟩ := committed_of_verifyWitness hinj hhex hwrite hclaim' haccept'
    -- one receipt commits one leaf under the tag
    obtain rfl : v = v' := by
      rw [htag, hleaf'] at hleaf
      exact Digest.ext_hex (Option.some.inj hleaf).symm
    rw [← htag] at hv' ⊢
    exact canonicalInput_of_recompute hinj hv hv'

end Binding

/-! ## A chain of two receipts -/

/-- Text as hex, two digits a character. -/
def hexOfText (cs : List Char) : List Char :=
  (cs.map Char.toNat).flatMap fun b => [Nat.digitChar (b / 16), Nat.digitChar (b % 16)]

theorem digitChar_inj {n m : Nat} (hn : n < 16) (hm : m < 16)
    (h : Nat.digitChar n = Nat.digitChar m) : n = m := by
  have hsome : some n = some m := by
    rw [← Json.hexVal_digitChar hn, h, Json.hexVal_digitChar hm]
  exact Option.some.inj hsome

theorem hexOfText_inj {cs cs' : List Char} (hs : ∀ c ∈ cs, c.toNat < 128)
    (hs' : ∀ c ∈ cs', c.toNat < 128) (h : hexOfText cs = hexOfText cs') : cs = cs' := by
  induction cs generalizing cs' with
  | nil =>
    cases cs' with
    | nil => rfl
    | cons c' rest' => exact nomatch h
  | cons c rest ih =>
    cases cs' with
    | nil => exact nomatch h
    | cons c' rest' =>
      rw [List.forall_mem_cons] at hs hs'
      obtain ⟨hhi, htail⟩ := List.cons.inj h
      obtain ⟨hlo, hrest⟩ := List.cons.inj htail
      have hdiv : c.toNat / 16 = c'.toNat / 16 := digitChar_inj (by omega) (by omega) hhi
      have hmod : c.toNat % 16 = c'.toNat % 16 := digitChar_inj (by omega) (by omega) hlo
      have hc : c = c' := Char.toNat_inj.mp (by omega)
      rw [hc, ih hs.2 hs'.2 hrest]

theorem toNat_digitChar_lt {n : Nat} (h : n < 16) : (Nat.digitChar n).toNat < 128 := by
  interval_cases n <;> decide

theorem isAscii_hex (m : Message) : ∀ c ∈ (sampleHash m).hex.toList, c.toNat < 128 := by
  intro c hc
  exact of_decide_eq_true (List.all_eq_true.mp (sampleHash m).ascii c hc)

/-- The digest of `sampleHash`, spelled in hex. -/
def spelledHash (m : Message) : Digest where
  hex := String.ofList (hexOfText (sampleHash m).hex.toList)
  nonempty := by
    intro h
    have hempty : hexOfText (sampleHash m).hex.toList = [] := by
      rw [← String.toList_ofList (l := hexOfText (sampleHash m).hex.toList), h]
      rfl
    rw [sampleHash, String.toList_ofList] at hempty
    exact nomatch hempty
  ascii := by
    rw [isAscii, String.toList_ofList, List.all_eq_true]
    intro c hc
    obtain ⟨b, hb, hc⟩ := List.mem_flatMap.mp hc
    obtain ⟨x, hx, rfl⟩ := List.mem_map.mp hb
    have hlt := isAscii_hex m x hx
    simp only [List.mem_cons, List.not_mem_nil, or_false] at hc
    rcases hc with rfl | rfl
    · exact decide_eq_true (toNat_digitChar_lt (by omega))
    · exact decide_eq_true (toNat_digitChar_lt (by omega))

theorem spelledHash_injective : Function.Injective spelledHash := by
  intro m m' h
  have hhex : hexOfText (sampleHash m).hex.toList = hexOfText (sampleHash m').hex.toList :=
    String.ofList_injective (congrArg Digest.hex h)
  have htext := hexOfText_inj (isAscii_hex m) (isAscii_hex m') hhex
  exact sampleHash_injective (Digest.ext_hex (String.toList_inj.mp htext))

theorem hexText_spelledHash (m : Message) : HexText (spelledHash m).hex := by
  refine ⟨(sampleHash m).hex.toList.map Char.toNat, ?_, String.toList_ofList⟩
  intro b hb
  obtain ⟨c, hc, rfl⟩ := List.mem_map.mp hb
  exact Nat.lt_trans (isAscii_hex m c hc) (by omega)

def spelledConfig : Config := configOf (envOf spelledHash)

/-- A write of the root authority builds no edge, so one like it follows. -/
theorem write_spelled {s : StoreState} (hfaults : s.faults = []) (hbuilt : s.built = []) :
    ∃ receipt s', Store.write spelledConfig sampleClock sampleWrite s = (.ok receipt, s') ∧
      s'.faults = [] ∧ s'.built = [] ∧ s'.tip.priorHM ≠ none := by
  have hacc : accepted spelledConfig
      (ensureDefaultEdgeFor spelledConfig s.built sampleWrite.authority) sampleWrite = true := by
    rw [hbuilt]
    decide +kernel
  obtain ⟨receipt, hok⟩ := isOk_iff.mp ((@write_isOk_iff _ sampleClock _ _ hfaults).mpr hacc)
  obtain ⟨r, planned', row, _, _, _, hstate⟩ := write_ok hok
  have hkeep : (appended planned' row (sampled spelledConfig sampleWrite s)).built = [] := by
    rw [built_appended]
    show ensureDefaultEdgeFor spelledConfig s.built governorAuthority = []
    rw [ensureDefaultEdgeFor, if_pos rfl, hbuilt]
  exact ⟨receipt, appended planned' row (sampled spelledConfig sampleWrite s),
    Prod.ext hok hstate, faults_appended _ _ hfaults, hkeep, Option.some_ne_none _⟩

/-- The first receipt of a chain has seven accepted witnesses. -/
theorem witnesses_round_trip_and_bind_first : ∃ receipt s',
    Store.write spelledConfig sampleClock sampleWrite Store.empty = (.ok receipt, s') ∧
    (∀ built, s'.built ⊆ built → ∀ tag, 1 ≤ tag → tag ≤ 7 →
      ∃ w, constructWitness spelledConfig built receipt tag = .ok w ∧
        verifyWitness (envOf spelledHash) w = .ok (true, none)) ∧
    (∀ w, fromHex w.hRClaimed = fromHex receipt.hR →
      verifyWitness (envOf spelledHash) w = .ok (true, none) →
      ∃ v, recomputeLeafHash (envOf spelledHash) w.leafTag w.openedInput = .ok v ∧
        committedLeaf spelledConfig receipt w.leafTag = some v.hex) := by
  obtain ⟨receipt, s', hwrite, _⟩ := @write_spelled Store.empty rfl rfl
  obtain ⟨hround, hbind, _⟩ := @witnesses_round_trip_and_bind spelledConfig _ _ _ _ _
    spelledHash_injective hexText_spelledHash hwrite
  exact ⟨receipt, s', hwrite, hround, hbind⟩

/-- The second receipt of a chain has seven rejected witnesses. -/
theorem witnesses_of_second_receipt : ∃ first s₁ second s₂,
    Store.write spelledConfig sampleClock sampleWrite Store.empty = (.ok first, s₁) ∧
    Store.write spelledConfig sampleClock sampleWrite s₁ = (.ok second, s₂) ∧
    ∀ tag, 1 ≤ tag → tag ≤ 7 → ∃ w, constructWitness spelledConfig s₂.built second tag = .ok w ∧
      verifyWitness (envOf spelledHash) w = .ok (false, some "NonCanonical") := by
  obtain ⟨first, s₁, hfirst, hfaults, hbuilt, hmeaning⟩ := @write_spelled Store.empty rfl rfl
  obtain ⟨second, s₂, hsecond, _⟩ := write_spelled hfaults hbuilt
  refine ⟨first, s₁, second, s₂, hfirst, hsecond, ?_⟩
  intro tag hlow hhigh
  obtain ⟨w, hw, hverify⟩ := @round_trip_of_write spelledConfig _ _ _ _ _ spelledHash_injective
    hexText_spelledHash hsecond _ (List.Subset.refl _) tag hlow hhigh
  rw [if_neg hmeaning] at hverify
  exact ⟨w, hw, hverify⟩

end Ugk
