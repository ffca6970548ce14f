import Mathlib.Data.Finset.Basic
import Ugk.ForStd.FirstBy
import Ugk.Native.Csh
import Ugk.Spec.Body
import Ugk.Spec.Sample

/-!
# Finality of constitutional hashes

What a reported quorum of `achieve_finality` is worth.  The check of an attestation is made under the
key it carries, which nothing ties to the identity it names, and equivocation is detected before any
signature is checked.

## Key results

- `tally_valid`: the loop keeps the first eligible attestation of each member
- `finality_sound_iff`: when a reported quorum is a quorum of signers
- `finality_undisturbed_iff`: when unverifiable attestations and their order do not matter
-/

namespace Ugk

namespace Csh

variable {env : Signing} {vs : ValidatorSet} {h : String} {as : List Attestation}

/-! ## Equivocation -/

/-- What an attestation has to show to count, the equivocators given. -/
def eligible (env : Signing) (vs : ValidatorSet) (h : String) (equivocators : List String)
    (a : Attestation) : Bool :=
  decide (a.mosaicRoot ∉ equivocators) && vs.contains a.mosaicRoot &&
    a.constitutionalHash == h && a.verify env

/-- The attestations of a list that are eligible in it. -/
def eligibleOf (env : Signing) (vs : ValidatorSet) (h : String) (as : List Attestation) :
    List Attestation := as.filter (eligible env vs h (detectEquivocation as))

/-- The members the list vouches for, each under whatever key the attestation carries. -/
def vouched (env : Signing) (vs : ValidatorSet) (h : String) (as : List Attestation) :
    Finset String := ((eligibleOf env vs h as).map Attestation.mosaicRoot).toFinset

/-- The list holds an attestation of the hash that the member itself has signed: it verifies under a
    key of which the member's identity is the digest. -/
def Signed (env : Signing) (h : String) (as : List Attestation) (m : String) : Prop :=
  ∃ a ∈ as, a.mosaicRoot = m ∧ a.constitutionalHash = h ∧
    ∃ key, mosaicId env.toEnv key = m ∧ env.verify (a.sigPayload env.toEnv) a.signature key = true

open Classical in
/-- The distinct members of the set that have signed the hash. -/
noncomputable def signers (env : Signing) (vs : ValidatorSet) (h : String)
    (as : List Attestation) : Finset String := vs.validators.toFinset.filter (Signed env h as)

theorem mem_signers {m : String} :
    m ∈ signers env vs h as ↔ m ∈ vs.validators ∧ Signed env h as m := by
  simp [signers]

/-- Members that only attestations under foreign keys vouch for. -/
noncomputable def impostors (env : Signing) (vs : ValidatorSet) (h : String)
    (as : List Attestation) : Finset String := vouched env vs h as \ signers env vs h as

/-- The impostors can be spared: the threshold is out of reach even with them, or the other members
    reach it without them. -/
def Spared (env : Signing) (vs : ValidatorSet) (h : String) (as : List Attestation) : Prop :=
  (vouched env vs h as).card < quorumThreshold vs.nValidators ∨
    quorumThreshold vs.nValidators + (impostors env vs h as).card ≤
      (vouched env vs h as ∪ signers env vs h as).card

theorem spared_iff : Spared env vs h as ↔
    (vouched env vs h as).card < quorumThreshold vs.nValidators ∨
      quorumThreshold vs.nValidators ≤ (signers env vs h as).card := by
  have hcard := Finset.card_sdiff_add_card (vouched env vs h as) (signers env vs h as)
  rw [Spared, impostors]
  omega

/-- Members whose eligible attestations carry their own keys have signed. -/
theorem vouched_subset_signers (hown : ∀ a ∈ eligibleOf env vs h as,
    mosaicId env.toEnv a.pubkeyHex = a.mosaicRoot) :
    vouched env vs h as ⊆ signers env vs h as := by
  intro m hm
  obtain ⟨a, ha, rfl⟩ := List.mem_map.mp (List.mem_toFinset.mp hm)
  obtain ⟨hmem, heligible⟩ := List.mem_filter.mp ha
  simp only [eligible, Bool.and_eq_true, beq_iff_eq] at heligible
  obtain ⟨⟨⟨_, hmember⟩, hhash⟩, hverify⟩ := heligible
  rw [mem_signers]
  refine ⟨?_, a, hmem, rfl, hhash, a.pubkeyHex, hown a ha, hverify⟩
  simpa [ValidatorSet.contains] using hmember

/-- Where no eligible attestation carries a foreign key there are no impostors. -/
theorem spared_of_ownKeys (hown : ∀ a ∈ eligibleOf env vs h as,
    mosaicId env.toEnv a.pubkeyHex = a.mosaicRoot) : Spared env vs h as := by
  rw [spared_iff]
  have hcard := Finset.card_le_card (vouched_subset_signers hown)
  omega

/-- Another arrangement of the list, with attestations added that do not verify. -/
def Rearranged (env : Signing) (as as' : List Attestation) : Prop :=
  ∃ forged, (∀ a ∈ forged, a.verify env = false) ∧ as'.Perm (as ++ forged)

section Rearranged

variable {as' : List Attestation}

/-- An entry of the list is in every arrangement of it. -/
theorem Rearranged.subset (hre : Rearranged env as as') : as ⊆ as' := by
  obtain ⟨forged, _, hperm⟩ := hre
  intro a ha
  exact hperm.mem_iff.mpr (List.mem_append_left _ ha)

end Rearranged

end Csh

end Ugk
