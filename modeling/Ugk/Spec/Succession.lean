import Ugk.ForStd.Traverse
import Ugk.Spec.Amendment

/-!
# Keys of the succession

The walk of `_authorized_keys` authorises the longest prefix of links each signed by the key before
it.  It takes the hash of the current key before it looks at a link, and `bytes.fromhex` raises on a
key that is no hex text: a further link behind such a key is not refused, it is an exception.

## Key results

- `walkSuccession_eq`: the prefix, and where the walk raises instead
- `signed_of_admitted`: the key under which an admitted record is signed
- `successionExact_iff`: the lineages that authorise exactly their valid prefix
-/

namespace Ugk

namespace Amendment

variable {env : Keys} {K₀ current : String} {chain pre rest : List SuccessorLineage}

/-! ## Valid prefixes -/

/-- Every link is vouched for by the key before it. -/
def LinkedFrom (env : Keys) : String → List SuccessorLineage → Prop
  | _, [] => True
  | current, link :: chain => Vouches env current link ∧ LinkedFrom env link.successorPubkey chain

/-- The founding key and the successors the links name. -/
def keysOf (K₀ : String) (links : List SuccessorLineage) : List String :=
  K₀ :: links.map SuccessorLineage.successorPubkey

/-- The key the last of the links names. -/
def lastKey : String → List SuccessorLineage → String
  | K₀, [] => K₀
  | _, link :: links => lastKey link.successorPubkey links

theorem getLastD_keysOf (K₀ default : String) (links : List SuccessorLineage) :
    (keysOf K₀ links).getLastD default = lastKey K₀ links := by
  induction links generalizing K₀ default with
  | nil => rfl
  | cons link links ih => exact ih link.successorPubkey K₀

/-- The longest prefix of valid links. -/
structure LongestPrefix (env : Keys) (K₀ : String) (chain pre : List SuccessorLineage) : Prop where
  isPrefix : pre <+: chain
  linked : LinkedFrom env K₀ pre
  longest : ∀ other, other <+: chain → LinkedFrom env K₀ other → other.length ≤ pre.length

theorem LongestPrefix.unique {pre' : List SuccessorLineage} (h : LongestPrefix env K₀ chain pre)
    (h' : LongestPrefix env K₀ chain pre') : pre = pre' := by
  have hlength : pre.length = pre'.length :=
    Nat.le_antisymm (h'.longest pre h.isPrefix h.linked) (h.longest pre' h'.isPrefix h'.linked)
  exact (List.prefix_of_prefix_length_le h.isPrefix h'.isPrefix hlength.le).eq_of_length hlength

theorem linkedFrom_append {links links' : List SuccessorLineage} :
    LinkedFrom env K₀ (links ++ links') ↔
      LinkedFrom env K₀ links ∧ LinkedFrom env (lastKey K₀ links) links' := by
  induction links generalizing K₀ with
  | nil => simp [LinkedFrom, lastKey]
  | cons link links ih => rw [List.cons_append, LinkedFrom, LinkedFrom, ih, lastKey, and_assoc]

/-- Valid links that the next link does not continue are the longest prefix. -/
theorem longestPrefix_of_split (hlinked : LinkedFrom env K₀ pre)
    (hstop : ∀ link, rest.head? = some link → ¬ Vouches env (lastKey K₀ pre) link) :
    LongestPrefix env K₀ (pre ++ rest) pre := by
  refine ⟨List.prefix_append pre rest, hlinked, fun other hpre hother => ?_⟩
  by_contra hlength
  -- a longer prefix has the next link behind `pre`
  obtain ⟨more, rfl⟩ := List.prefix_of_prefix_length_le (List.prefix_append pre rest) hpre
    (Nat.le_of_lt (Nat.lt_of_not_le hlength))
  obtain ⟨_, hvouches⟩ := linkedFrom_append.mp hother
  cases more with
  | nil => simp at hlength
  | cons link more =>
    obtain ⟨left, hleft⟩ := hpre
    rw [List.append_assoc, List.append_cancel_left_eq] at hleft
    exact hstop link (by rw [← hleft]; rfl) hvouches.1

/-! ## The walk -/

/-- The walk takes the longest prefix.  It raises when a link is left behind a key without a hash. -/
theorem walkSuccession_eq (env : Keys) (current : String) (chain : List SuccessorLineage) :
    ∃ pre rest, chain = pre ++ rest ∧ LinkedFrom env current pre ∧
      (∀ link, rest.head? = some link → ¬ Vouches env (lastKey current pre) link) ∧
      walkSuccession env current chain =
        match rest, mosaic env (lastKey current pre) with
        | _ :: _, .error x => .error x
        | _, _ => .ok (pre.map SuccessorLineage.successorPubkey) := by
  induction chain generalizing current with
  | nil => exact ⟨[], [], rfl, trivial, by simp, rfl⟩
  | cons link chain ih =>
    by_cases hvouches : Vouches env current link
    · obtain ⟨pre, rest, rfl, hlinked, hstop, hwalk⟩ := ih link.successorPubkey
      refine ⟨link :: pre, rest, rfl, ⟨hvouches, hlinked⟩, ?_, ?_⟩
      · exact hstop
      · rw [lastKey, walkSuccession, hvouches.1]
        simp only [bind, Except.bind, ne_eq, not_true, if_false, hvouches.2, Bool.not_true,
          Bool.false_eq_true, hwalk]
        cases rest with
        | nil => rfl
        | cons next rest =>
          cases mosaic env (lastKey link.successorPubkey pre) <;> rfl
    · refine ⟨[], link :: chain, rfl, trivial, ?_, ?_⟩
      · rintro _ ⟨⟩
        exact hvouches
      · rw [walkSuccession, lastKey]
        cases hmosaic : mosaic env current with
        | error x => rfl
        | ok m =>
          simp only [bind, Except.bind]
          split
          · rfl
          · rename_i hpre
            split
            · rfl
            · rename_i hverify
              refine absurd ⟨?_, ?_⟩ hvouches
              · rw [hmosaic, not_not.mp hpre]
              · simpa using hverify

/-- What `_authorized_keys` answers: the keys of the longest prefix, or the exception at its end. -/
theorem authorizedKeys_eq (env : Keys) (K₀ : String) (chain : List SuccessorLineage) :
    ∃ pre rest, chain = pre ++ rest ∧ LongestPrefix env K₀ chain pre ∧
      authorizedKeys env K₀ chain =
        match rest, mosaic env (lastKey K₀ pre) with
        | _ :: _, .error x => .error x
        | _, _ => .ok (keysOf K₀ pre) := by
  obtain ⟨pre, rest, rfl, hlinked, hstop, hwalk⟩ := walkSuccession_eq env K₀ chain
  refine ⟨pre, rest, rfl, longestPrefix_of_split hlinked hstop, ?_⟩
  rw [authorizedKeys, hwalk]
  cases rest with
  | nil => rfl
  | cons link rest => cases mosaic env (lastKey K₀ pre) <;> rfl

/-- The link behind the longest prefix is not vouched for. -/
theorem LongestPrefix.not_vouches {bad : SuccessorLineage}
    (h : LongestPrefix env K₀ (pre ++ bad :: rest) pre) :
    ¬ Vouches env (lastKey K₀ pre) bad := by
  intro hvouches
  have hlinked : LinkedFrom env K₀ (pre ++ [bad]) :=
    linkedFrom_append.mpr ⟨h.linked, hvouches, trivial⟩
  have hle := h.longest (pre ++ [bad]) ⟨rest, by simp⟩ hlinked
  rw [List.length_append, List.length_singleton] at hle
  omega

theorem authorizedKeys_of_longest {bad : SuccessorLineage} {tail : List SuccessorLineage}
    (h : LongestPrefix env K₀ (pre ++ bad :: tail) pre) :
    authorizedKeys env K₀ (pre ++ bad :: tail) =
      match mosaic env (lastKey K₀ pre) with
      | .error x => .error x
      | .ok _ => .ok (keysOf K₀ pre) := by
  obtain ⟨pre', rest', hsplit, hlongest, hkeys⟩ := authorizedKeys_eq env K₀ (pre ++ bad :: tail)
  obtain rfl := h.unique hlongest
  obtain rfl := List.append_cancel_left hsplit
  rw [hkeys]
  cases mosaic env (lastKey K₀ pre) <;> rfl

/-- What stands behind the first invalid link makes no difference. -/
theorem authorizedKeys_cut {bad : SuccessorLineage} (rest' : List SuccessorLineage)
    (h : LongestPrefix env K₀ (pre ++ bad :: rest) pre) :
    authorizedKeys env K₀ (pre ++ bad :: rest') = authorizedKeys env K₀ (pre ++ bad :: rest) := by
  have h' : LongestPrefix env K₀ (pre ++ bad :: rest') pre := by
    refine longestPrefix_of_split h.linked fun link hlink => ?_
    obtain rfl := Option.some.inj hlink
    exact h.not_vouches
  rw [authorizedKeys_of_longest h, authorizedKeys_of_longest h']

/-! ## The signer of an admitted record -/

/-- The record is signed by a key of the longest prefix, by the last one unless the record is
    historical. -/
def SignedBy (env : Keys) (K₀ : String) (pre : List SuccessorLineage) (r : AmendmentRecord)
    (historical : Bool) : Prop :=
  ∃ key ∈ keysOf K₀ pre, mosaic env key = .ok r.authority ∧
    verifyGovernor env key (r.signedPayload env.toEnv) r.signature = true ∧
    (historical = false → key = lastKey K₀ pre)

theorem signed_of_admitted {r : AmendmentRecord} {p s : Frame} {lineage : Lineage}
    {historical : Bool} {detail : String} (hpre : LongestPrefix env K₀ chain pre)
    (h : isAdmissible env r p s K₀ lineage chain historical = .ok (true, detail)) :
    SignedBy env K₀ pre r historical := by
  obtain ⟨_, hauthority, _⟩ := isAdmissible_cases h
  obtain ⟨pre', rest, _, hpre', hkeys⟩ := authorizedKeys_eq env K₀ chain
  obtain rfl := hpre.unique hpre'
  unfold authorityObjection at hauthority
  split at hauthority
  · exact nomatch hauthority
  · obtain ⟨authorized, hauthorized, hauthority⟩ := Except.bind_eq_ok_iff.mp hauthority
    obtain ⟨matching, hmatching, hauthority⟩ := Except.bind_eq_ok_iff.mp hauthority
    -- a walk that returned has returned the keys of the prefix
    have hall : authorized = keysOf K₀ pre := by
      rw [hauthorized] at hkeys
      split at hkeys
      · exact nomatch hkeys
      · exact Except.ok.inj hkeys
    cases matching with
    | nil => exact nomatch hauthority
    | cons key others =>
      obtain ⟨hmem, hmosaic⟩ := mem_of_keysWithMosaic hmatching List.mem_cons_self
      dsimp only at hauthority
      split at hauthority
      · exact nomatch hauthority
      · rename_i hera
        split at hauthority
        · exact nomatch hauthority
        · rename_i hverify
          refine ⟨key, hall ▸ hmem, hmosaic, by simpa using hverify, fun hnew => ?_⟩
          rw [hall, getLastD_keysOf] at hera
          by_contra hne
          exact hera ⟨hne, by simp [hnew]⟩

/-! ## Exactness -/

/-- The succession authorises exactly its valid prefix. -/
structure SuccessionExact (env : Keys) (K₀ : String) (chain : List SuccessorLineage) : Prop where
  keys : ∃ pre, LongestPrefix env K₀ chain pre ∧
    authorizedKeys env K₀ chain = .ok (keysOf K₀ pre)
  cut : ∀ pre bad rest rest', chain = pre ++ bad :: rest → LongestPrefix env K₀ chain pre →
    authorizedKeys env K₀ (pre ++ bad :: rest') = authorizedKeys env K₀ chain
  signed : ∀ pre r p s lineage historical detail, LongestPrefix env K₀ chain pre →
    isAdmissible env r p s K₀ lineage chain historical = .ok (true, detail) →
    SignedBy env K₀ pre r historical

/-- It does exactly when no link is left behind a last valid key that is no hex text. -/
theorem successionExact_iff (env : Keys) (K₀ : String) (chain : List SuccessorLineage) :
    SuccessionExact env K₀ chain ↔
      ∀ pre bad rest, chain = pre ++ bad :: rest → LongestPrefix env K₀ chain pre →
        (bytesFromHex (lastKey K₀ pre).toList).isSome = true := by
  obtain ⟨pre, rest, hsplit, hpre, hkeys⟩ := authorizedKeys_eq env K₀ chain
  constructor
  · rintro h pre' bad rest' hsplit' hpre'
    obtain rfl := hpre.unique hpre'
    obtain rfl := List.append_cancel_left (hsplit.symm.trans hsplit')
    obtain ⟨_, _, hok⟩ := h.keys
    rw [hok] at hkeys
    unfold mosaic at hkeys
    cases hbytes : bytesFromHex (lastKey K₀ pre).toList with
    | some bytes => rfl
    | none =>
      rw [hbytes] at hkeys
      exact nomatch hkeys
  · intro hhex
    refine ⟨⟨pre, hpre, ?_⟩, ?_, fun _ _ _ _ _ _ _ => signed_of_admitted⟩
    · rw [hkeys]
      cases rest with
      | nil => rfl
      | cons bad rest =>
        have hsome := hhex pre bad rest hsplit hpre
        unfold mosaic
        cases hbytes : bytesFromHex (lastKey K₀ pre).toList with
        | some bytes => rfl
        | none =>
          rw [hbytes] at hsome
          exact nomatch hsome
    · rintro pre' bad rest rest' rfl hpre'
      exact authorizedKeys_cut rest' hpre'

/-- A link of the sample runtime, signed by the key before it. -/
def sampleLink (predecessorMosaic predecessor successor : String) : SuccessorLineage where
  lineageHash := ""
  predecessorMosaic := predecessorMosaic
  successorMosaic := ""
  successorPubkey := successor
  successionProof := "signed by " ++ predecessor
  authority := predecessorMosaic
  amendmentHash := ""
  timestamp := "2026-01-04T00:00:00Z"

/-- The founding key signs over to a key that is no hex text, and another link follows. -/
theorem malformed_successor_raises :
    authorizedKeys sampleKeys "4b" [sampleLink "K" "4b" "4g", sampleLink "?" "4g" "4b"] =
        .error (.valueError "non-hexadecimal number found in fromhex() arg") ∧
      ¬ ∀ env K₀ chain, SuccessionExact env K₀ chain := by
  have hmosaic : mosaic sampleKeys "4b" = .ok "K" := rfl
  have hmalformed : mosaic sampleKeys "4g" =
      .error (.valueError "non-hexadecimal number found in fromhex() arg") := rfl
  have hverify : (sampleLink "K" "4b" "4g").verifySuccession sampleKeys "4b" = true := by
    have hset : ¬"4b".startsWith "GOVERNOR_KEY_UNSET" = true := by decide
    rw [SuccessorLineage.verifySuccession, verifyGovernor, if_neg hset]
    exact beq_self_eq_true _
  have hkeys : authorizedKeys sampleKeys "4b"
      [sampleLink "K" "4b" "4g", sampleLink "?" "4g" "4b"] =
        .error (.valueError "non-hexadecimal number found in fromhex() arg") := by
    rw [authorizedKeys, walkSuccession, hmosaic]
    simp only [bind, Except.bind]
    rw [if_neg (fun h => h rfl), hverify]
    simp only [Bool.not_true, Bool.false_eq_true, if_false]
    rw [walkSuccession, show (sampleLink "K" "4b" "4g").successorPubkey = "4g" from rfl, hmalformed]
    rfl
  refine ⟨hkeys, fun h => ?_⟩
  obtain ⟨_, _, hok⟩ := (h sampleKeys "4b" _).keys
  rw [hkeys] at hok
  cases hok

end Amendment

end Ugk
