import Ugk.Native.A1Verifier

/-!
# Legitimate claims of authority

`verify_a1` calls an authority needed when admissibility fails on the chain without it.  It never
asks for admissibility under the whole chain, and its v1 route never looks at the claim.

## Key results

- `mem_reconstructAuth`: the needed authorities
- `legit_of_v1`, `legit_of_v2`: what each route accepts
- `verifyA1_laws`: the verdicts, and where the two routes agree on a single authority
-/

namespace Ugk.A1

variable {α : Type*} [DecidableEq α] {op : String} {chain : List α} {claim : EffectClaim α}
  {admissibilityFn : List α → Bool} {posture : A1Posture}

/-- The authorities of the chain whose removal makes the effect inadmissible. -/
def needed (chain : List α) (admissibilityFn : List α → Bool) : Set α :=
  { a | a ∈ chain ∧ admissibilityFn (reduced chain a) = false }

/-- The loop collects the needed authorities, duplicates once. -/
theorem mem_reconstructAuth {a : α} :
    a ∈ reconstructAuth chain admissibilityFn ↔ a ∈ needed chain admissibilityFn := by
  -- the chain under the loop shrinks, the one the effect is tested on does not
  have hloop (rest : List α) (auth : Finset α) :
      a ∈ rest.foldl (fun auth a =>
        if admissibilityFn (reduced chain a) then auth else insert a auth) auth ↔
        a ∈ auth ∨ a ∈ rest ∧ admissibilityFn (reduced chain a) = false := by
    induction rest generalizing auth with
    | nil => simp
    | cons b rest ih =>
      rw [List.foldl_cons, ih]
      by_cases hb : admissibilityFn (reduced chain b) = true
      · rw [if_pos hb]
        constructor
        · rintro (h | ⟨h, hfalse⟩)
          · exact .inl h
          · exact .inr ⟨List.mem_cons_of_mem b h, hfalse⟩
        · rintro (h | ⟨h, hfalse⟩)
          · exact .inl h
          · rcases List.mem_cons.mp h with rfl | h
            · rw [hb] at hfalse
              exact nomatch hfalse
            · exact .inr ⟨h, hfalse⟩
      · rw [if_neg hb, Finset.mem_insert]
        rw [Bool.not_eq_true] at hb
        constructor
        · rintro ((rfl | h) | ⟨h, hfalse⟩)
          · exact .inr ⟨List.mem_cons_self, hb⟩
          · exact .inl h
          · exact .inr ⟨List.mem_cons_of_mem b h, hfalse⟩
        · rintro (h | ⟨h, hfalse⟩)
          · exact .inl (.inr h)
          · rcases List.mem_cons.mp h with rfl | h
            · exact .inl (.inl rfl)
            · exact .inr ⟨h, hfalse⟩
  unfold reconstructAuth needed
  rw [hloop]
  simp

/-- The only authority of a chain is needed when nothing is admitted without authorities. -/
theorem mem_needed_single {a : α} :
    a ∈ needed [a] admissibilityFn ↔ admissibilityFn [] = false := by
  simp [needed, reduced]

/-- What the v1 route answers. -/
theorem verifyA1_v1 (henabled : posture.a1Enabled = true) (hv1 : claim.ccVersion = "c_c.v1") :
    verifyA1 op chain claim admissibilityFn posture =
      match chain with
      | [_] =>
        if admissibilityFn [] then .error (.gateRefusal op "A1-NONCUTSET-CLAIM") else .ok "legit"
      | _ => .error (.gateRefusal op "A1-VERSION-MISMATCH") := by
  unfold verifyA1
  rw [henabled, hv1]
  match chain with
  | [] => rfl
  | [a] =>
    simp [routeVersion, mem_reconstructAuth, mem_needed_single]
  | _ :: _ :: _ => rfl

/-- The authorities that are claimed. -/
def claimedSet (claim : EffectClaim α) : Set α := { a | a ∈ claim.claimedAuthorities }

theorem sdiff_ne_empty {s t : Finset α} : s \ t ≠ ∅ ↔ ¬ s ⊆ t :=
  not_congr Finset.sdiff_eq_empty_iff_subset

open Classical in
/-- What the v2 route answers. -/
theorem verifyA1_v2 (henabled : posture.a1Enabled = true) (hv2 : claim.ccVersion = "c_c.v2") :
    verifyA1 op chain claim admissibilityFn posture =
      if ¬ needed chain admissibilityFn ⊆ claimedSet claim then
        .error (.gateRefusal op "A1-OMITTED-AUTHORITY")
      else if ¬ claimedSet claim ⊆ needed chain admissibilityFn then
        .error (.gateRefusal op "A1-NONCUTSET-CLAIM")
      else .ok "legit" := by
  have homitted : reconstructAuth chain admissibilityFn \ claim.claimedAuthorities.toFinset ≠ ∅ ↔
      ¬ needed chain admissibilityFn ⊆ claimedSet claim := by
    rw [sdiff_ne_empty]
    refine not_congr (forall_congr' fun a => ?_)
    rw [mem_reconstructAuth, List.mem_toFinset]
    rfl
  have hpadded : claim.claimedAuthorities.toFinset \ reconstructAuth chain admissibilityFn ≠ ∅ ↔
      ¬ claimedSet claim ⊆ needed chain admissibilityFn := by
    rw [sdiff_ne_empty]
    refine not_congr (forall_congr' fun a => ?_)
    rw [mem_reconstructAuth, List.mem_toFinset]
    rfl
  unfold verifyA1
  simp only [henabled, hv2, homitted, hpadded]
  rfl

theorem verifyA1_unknown (henabled : posture.a1Enabled = true) (hv1 : claim.ccVersion ≠ "c_c.v1")
    (hv2 : claim.ccVersion ≠ "c_c.v2") :
    verifyA1 op chain claim admissibilityFn posture =
      .error (.gateRefusal op "A1-UNKNOWN-CANON-VERSION") := by
  simp [verifyA1, routeVersion, henabled, hv1, hv2]

/-! ## What is accepted -/

/-- The v1 route accepts a single authority without which nothing is admitted. -/
theorem legit_of_v1 (henabled : posture.a1Enabled = true) (hv1 : claim.ccVersion = "c_c.v1") :
    verifyA1 op chain claim admissibilityFn posture = .ok "legit" ↔
      ∃ a, chain = [a] ∧ a ∈ needed chain admissibilityFn := by
  rw [verifyA1_v1 henabled hv1]
  match chain with
  | [] => simp
  | [a] =>
    cases hempty : admissibilityFn [] <;> simp [mem_needed_single, hempty]
  | _ :: _ :: _ => simp

/-- The v2 route accepts exactly the needed authorities. -/
theorem legit_of_v2 (henabled : posture.a1Enabled = true) (hv2 : claim.ccVersion = "c_c.v2") :
    verifyA1 op chain claim admissibilityFn posture = .ok "legit" ↔
      claimedSet claim = needed chain admissibilityFn := by
  rw [verifyA1_v2 henabled hv2, Set.Subset.antisymm_iff]
  split
  · rename_i h
    simp [h]
  · rename_i h
    split
    · rename_i h'
      simp [h']
    · rename_i h'
      exact ⟨fun _ => ⟨not_not.mp h', not_not.mp h⟩, fun _ => rfl⟩

/-- On a single authority the routes answer alike when the claim is the needed authority, or when
    nothing is needed and something is claimed. -/
theorem routes_agree_iff (op : String) (a : α) (claimed : List α)
    (admissibilityFn : List α → Bool) :
    verifyA1 op [a] ⟨claimed, "c_c.v1"⟩ admissibilityFn ⟨true⟩ =
        verifyA1 op [a] ⟨claimed, "c_c.v2"⟩ admissibilityFn ⟨true⟩ ↔
      if admissibilityFn [] then claimed ≠ [] else ∀ b, b ∈ claimed ↔ b = a := by
  have hmem (b : α) : b ∈ needed [a] admissibilityFn ↔ b = a ∧ admissibilityFn [] = false := by
    constructor
    · intro hb
      obtain rfl := List.mem_singleton.mp hb.1
      exact ⟨rfl, mem_needed_single.mp hb⟩
    · rintro ⟨rfl, h⟩
      exact mem_needed_single.mpr h
  rw [verifyA1_v1 rfl rfl]
  cases hempty : admissibilityFn [] with
  | true =>
    -- nothing is needed: v1 refuses the authority, v2 whatever is claimed
    have hnone : needed [a] admissibilityFn = ∅ := by
      refine Set.eq_empty_iff_forall_notMem.mpr fun b hb => ?_
      rw [hmem, hempty] at hb
      exact nomatch hb.2
    rw [verifyA1_v2 rfl rfl, hnone, if_neg (not_not.mpr (Set.empty_subset _))]
    cases claimed with
    | nil => simp [claimedSet]
    | cons b others =>
      have hclaimed : ¬ claimedSet ⟨b :: others, "c_c.v2"⟩ ⊆ (∅ : Set α) :=
        fun hsub => (hsub (show b ∈ b :: others from List.mem_cons_self)).elim
      rw [if_pos hclaimed]
      simp
  | false =>
    -- the authority is needed: v1 accepts it, and v2 where exactly it is claimed
    show Except.ok "legit" = _ ↔ ∀ b, b ∈ claimed ↔ b = a
    rw [eq_comm, legit_of_v2 rfl rfl, Set.ext_iff]
    refine forall_congr' fun b => ?_
    rw [hmem]
    simp [claimedSet, hempty]

/-! ## The laws -/

/-- With the posture enabled, a verdict is `legit` on the v2 route exactly when the needed
    authorities are claimed, on the v1 route exactly when the chain is one needed authority; every
    other verdict is a refusal of the operation. -/
theorem verifyA1_laws (op : String) (chain : List α) (claim : EffectClaim α)
    (admissibilityFn : List α → Bool) :
    (verifyA1 op chain claim admissibilityFn ⟨true⟩ = .ok "legit" ↔
      (claim.ccVersion = "c_c.v2" ∧ claimedSet claim = needed chain admissibilityFn) ∨
        (claim.ccVersion = "c_c.v1" ∧ ∃ a, chain = [a] ∧ a ∈ needed chain admissibilityFn)) ∧
    (verifyA1 op chain claim admissibilityFn ⟨true⟩ = .ok "legit" ∨
      ∃ reason, verifyA1 op chain claim admissibilityFn ⟨true⟩ = .error (.gateRefusal op reason)) ∧
    ∀ a claimed,
      (verifyA1 op [a] ⟨claimed, "c_c.v1"⟩ admissibilityFn ⟨true⟩ =
          verifyA1 op [a] ⟨claimed, "c_c.v2"⟩ admissibilityFn ⟨true⟩ ↔
        if admissibilityFn [] then claimed ≠ [] else ∀ b, b ∈ claimed ↔ b = a) := by
  refine ⟨?_, ?_, fun a claimed => routes_agree_iff op a claimed admissibilityFn⟩
  · by_cases hv1 : claim.ccVersion = "c_c.v1"
    · rw [legit_of_v1 rfl hv1, hv1]
      simp
    · by_cases hv2 : claim.ccVersion = "c_c.v2"
      · rw [legit_of_v2 rfl hv2, hv2]
        simp
      · rw [verifyA1_unknown rfl hv1 hv2]
        simp [hv1, hv2]
  · by_cases hv1 : claim.ccVersion = "c_c.v1"
    · rw [verifyA1_v1 rfl hv1]
      split
      · split
        · exact .inr ⟨_, rfl⟩
        · exact .inl rfl
      · exact .inr ⟨_, rfl⟩
    · by_cases hv2 : claim.ccVersion = "c_c.v2"
      · rw [verifyA1_v2 rfl hv2]
        split
        · exact .inr ⟨_, rfl⟩
        · split
          · exact .inr ⟨_, rfl⟩
          · exact .inl rfl
      · exact .inr ⟨_, verifyA1_unknown rfl hv1 hv2⟩

/-- An effect nobody admits is legitimate when everybody is claimed, one everybody admits when
    nobody is claimed, and the v1 route takes a claim of somebody else. -/
theorem legit_without_necessity :
    verifyA1 "op" ["a", "b"] ⟨["a", "b"], "c_c.v2"⟩ (fun _ => false) ⟨true⟩ = .ok "legit" ∧
      verifyA1 "op" ["a", "b"] ⟨[], "c_c.v2"⟩ (fun _ => true) ⟨true⟩ = .ok "legit" ∧
      verifyA1 "op" ["a"] ⟨["b"], "c_c.v1"⟩ (fun chain => "a" ∈ chain) ⟨true⟩ = .ok "legit" ∧
      verifyA1 "op" ["a"] ⟨["b"], "c_c.v2"⟩ (fun chain => "a" ∈ chain) ⟨true⟩ =
        .error (.gateRefusal "op" "A1-OMITTED-AUTHORITY") := by
  refine ⟨?_, ?_, ?_, ?_⟩ <;> rfl

end Ugk.A1
