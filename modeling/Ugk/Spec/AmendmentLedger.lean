import Ugk.Native.AmendmentLedger
import Ugk.Spec.HonestFinality
import Ugk.Spec.Succession

/-!
# The ledger of an office

The holders of one office rotate its key and amend the constitution, in any order.  Every amendment
signed by the key of its day is admitted, and admitted again as historical under every later lineage;
a retired key signs no new amendment.  The chain walk of the gate, which is given no lineage, admits
the ledger exactly as long as every record was signed by the founding key.

## Key results

- `submit_erec`: which keys of the lineage sign an admitted record
- `history_admitted`: the archive of every history is admitted, when it grows and later
- `chainFails_history`: when the ledger of a history passes the gate
-/

namespace Ugk

open Ed25519 (Sha512 generateKeypair)

namespace Amendment

variable {sha : Sha512} {env : Keys} {K₀ : String} {links : List SuccessorLineage}

/-! ## Keys -/

/-- The private key of a seed. -/
def priv (sha : Sha512) (seed : List UInt8) : String := (generateKeypair sha seed).1

/-- The public key of a seed. -/
def pub (sha : Sha512) (seed : List UInt8) : String := (generateKeypair sha seed).2

theorem pub_eq (seed : List UInt8) :
    pub sha seed = String.ofList (Ed25519.hexChars (Ed25519.encode (Ed25519.publicPoint sha seed))) := by
  unfold pub
  rw [Ed25519.generateKeypair_eq]
  rfl

theorem hexChar_ne {n : Nat} (hn : n < 16) : Ed25519.hexChar n ≠ 'G' := by
  interval_cases n <;> decide

theorem mem_hexChars_ne {bs : List UInt8} {c : Char} (hc : c ∈ Ed25519.hexChars bs) : c ≠ 'G' := by
  induction bs with
  | nil => exact absurd hc List.not_mem_nil
  | cons b bs ih =>
    unfold Ed25519.hexChars at hc
    rcases List.mem_cons.mp hc with rfl | hc
    · exact hexChar_ne (by have := b.toNat_lt; omega)
    · rcases List.mem_cons.mp hc with rfl | hc
      · exact hexChar_ne (Nat.mod_lt _ (by decide))
      · exact ih hc

/-- A public key is no key that was never set. -/
theorem set_pub (seed : List UInt8) :
    ¬(pub sha seed).startsWith "GOVERNOR_KEY_UNSET" = true := by
  rw [pub_eq, String.startsWith_string_iff]
  intro hprefix
  have hmem : 'G' ∈ "GOVERNOR_KEY_UNSET".toList := by decide
  have hchars := hprefix.subset hmem
  rw [String.toList_ofList] at hchars
  exact mem_hexChars_ne hchars rfl

/-- What a key signs verifies under it. -/
theorem verifyGovernor_sign (henv : Csh.Installed sha env.toSigning) (seed : List UInt8)
    (message : List Char) :
    verifyGovernor env (pub sha seed) message (signAsGovernor env (priv sha seed) message) = true := by
  unfold verifyGovernor
  rw [if_neg (set_pub seed)]
  exact (henv.verify_carried_iff seed message message).mpr (Or.inl rfl)

/-- The keys of eras, by their seeds. -/
def keysOfEras (sha : Sha512) (eras : List (List UInt8)) : List String := eras.map (pub sha)

/-- An office: the seed of the key that holds it, the seeds of all keys that held it, the links between
    them, the records so far and the frame in force. -/
structure Office where
  holder : List UInt8
  eras : List (List UInt8)
  links : List SuccessorLineage
  archive : List Submission
  frame : Frame

/-- A leg as a record commits it: where it moves. -/
def committedLeg (prior successor leg : String) : String := if prior = successor then "" else leg

/-- A move to another frame, with what its record says besides. -/
structure Move where
  frame : Frame
  kind : String
  added : List String
  removed : List String
  phaseCode : String
  timestamp : String

/-- The record of a move before it is signed: it commits the legs that move and the record before
    it. -/
def Office.draft (o : Office) (m : Move) : AmendmentRecord where
  amendmentHash := ""
  priorLawHash := o.frame.lawHash
  successorLawHash := m.frame.lawHash
  invariantsAdded := m.added
  invariantsRemoved := m.removed
  authority := ""
  signature := ""
  phaseCode := m.phaseCode
  timestamp := m.timestamp
  amendmentKind := m.kind
  priorLegendHash := committedLeg o.frame.legendHash m.frame.legendHash o.frame.legendHash
  successorLegendHash := committedLeg o.frame.legendHash m.frame.legendHash m.frame.legendHash
  priorSchemaHash := committedLeg o.frame.schemaHash m.frame.schemaHash o.frame.schemaHash
  successorSchemaHash := committedLeg o.frame.schemaHash m.frame.schemaHash m.frame.schemaHash
  priorAmendmentHash := (o.archive.getLast?.map (·.record.amendmentHash)).getD ""

/-- A frame whose legs are there. -/
structure Frame.Full (f : Frame) : Prop where
  legend : f.legendHash ≠ ""
  schema : f.schemaHash ≠ ""

/-- A move that the archive leaves open: to a frame it has not been at, of a kind there is. -/
structure Move.Open (m : Move) (archive : List Submission) : Prop where
  kind : m.kind = "genesis" ∨ m.kind = "ordinary"
  full : m.frame.Full
  fresh : m.frame ∉ archive.map Submission.successorFrame

/-- The holder hands the office over. -/
def Office.rotate (o : Office) (successor : List UInt8) (link : SuccessorLineage) : Office :=
  { o with holder := successor, eras := o.eras ++ [successor], links := o.links ++ [link] }

/-- A record moves the office to another frame. -/
def Office.amend (o : Office) (m : Move) (r : AmendmentRecord) : Office :=
  { o with archive := o.archive ++ [⟨r, o.frame, m.frame, o.links, false⟩], frame := m.frame }

/-- The histories of an office: its holders rotate the key and amend the frame, in any order. -/
inductive History (sha : Sha512) (env : Keys) (founder : List UInt8) (f₀ : Frame) : Office → Prop
  | founded : History sha env founder f₀ ⟨founder, [founder], [], [], f₀⟩
  | rotated {o : Office} (h : History sha env founder f₀ o) (successor : List UInt8)
      (amendmentHash timestamp : String) {link : SuccessorLineage}
      (hlink : lineage env (priv sha o.holder) (pub sha o.holder) (pub sha successor) amendmentHash
        timestamp = .ok link) : History sha env founder f₀ (o.rotate successor link)
  | amended {o : Office} (h : History sha env founder f₀ o) {m : Move} (hm : m.Open o.archive)
      {r : AmendmentRecord}
      (hr : erec env (priv sha o.holder) (pub sha o.holder) (o.draft m) = .ok r) :
      History sha env founder f₀ (o.amend m r)

variable {founder : List UInt8} {f₀ : Frame} {o : Office}

/-- A signed link is vouched for by the key that signed it. -/
theorem vouches_lineage (henv : Csh.Installed sha env.toSigning) {seed : List UInt8}
    {succPub amendmentHash timestamp : String} {link : SuccessorLineage}
    (hlink : lineage env (priv sha seed) (pub sha seed) succPub amendmentHash timestamp = .ok link) :
    Vouches env (pub sha seed) link ∧ link.successorPubkey = succPub := by
  unfold lineage at hlink
  obtain ⟨predecessor, hpredecessor, hlink⟩ := Except.bind_eq_ok hlink
  obtain ⟨successor, -, hlink⟩ := Except.bind_eq_ok hlink
  obtain rfl := Except.ok.inj hlink
  exact ⟨⟨hpredecessor, verifyGovernor_sign henv seed _⟩, rfl⟩

/-- The links of a history lead through its keys to its holder. -/
structure Office.Sound (sha : Sha512) (env : Keys) (founder : List UInt8) (f₀ : Frame) (o : Office) :
    Prop where
  keys : keysOf (pub sha founder) o.links = keysOfEras sha o.eras
  linked : LinkedFrom env (pub sha founder) o.links
  holder : lastKey (pub sha founder) o.links = pub sha o.holder
  holds : o.holder ∈ o.eras
  head : o.frame = (o.archive.getLast?.map Submission.successorFrame).getD f₀

theorem lastKey_concat (K : String) (links : List SuccessorLineage) (link : SuccessorLineage) :
    lastKey K (links ++ [link]) = link.successorPubkey := by
  induction links generalizing K with
  | nil => rfl
  | cons first links ih => exact ih first.successorPubkey

theorem History.sound (henv : Csh.Installed sha env.toSigning) (h : History sha env founder f₀ o) :
    o.Sound sha env founder f₀ := by
  induction h with
  | founded => exact ⟨rfl, trivial, rfl, List.mem_singleton_self _, rfl⟩
  | @rotated o h successor amendmentHash timestamp link hlink ih =>
    obtain ⟨hvouches, hsuccessor⟩ := vouches_lineage henv hlink
    refine ⟨?_, ?_, ?_, ?_, ih.head⟩
    · have hkeys := ih.keys
      unfold keysOf keysOfEras at hkeys ⊢
      show _ :: (o.links ++ [link]).map _ = (o.eras ++ [successor]).map _
      rw [List.map_append, List.map_append, ← hkeys, List.map_singleton, List.map_singleton,
        hsuccessor]
      rfl
    · show LinkedFrom env _ (o.links ++ [link])
      rw [linkedFrom_append, ih.holder]
      exact ⟨ih.linked, hvouches, trivial⟩
    · show lastKey _ (o.links ++ [link]) = _
      rw [lastKey_concat, hsuccessor]
      rfl
    · exact List.mem_append_right _ (List.mem_singleton_self _)
  | @amended o h m hm r hr ih =>
    refine ⟨ih.keys, ih.linked, ih.holder, ih.holds, ?_⟩
    show m.frame = ((o.archive ++ [_]).getLast?.map _).getD _
    rw [List.getLast?_concat]
    rfl

/-! ## Admission -/

variable {m : Move} {r : AmendmentRecord} {seed : List UInt8} {eras : List (List UInt8)}

/-- An entry of the archive of a history: the holder of its day signed a move that was open. -/
def Entry (sha : Sha512) (env : Keys) (founder : List UInt8) (f₀ : Frame) (eras : List (List UInt8))
    (pre : List Submission) (e : Submission) : Prop :=
  ∃ o m r, History sha env founder f₀ o ∧ o.archive = pre ∧ o.eras ⊆ eras ∧ m.Open pre ∧
    erec env (priv sha o.holder) (pub sha o.holder) (o.draft m) = .ok r ∧
    e = ⟨r, o.frame, m.frame, o.links, false⟩

theorem History.entries (h : History sha env founder f₀ o) :
    Stepwise (Entry sha env founder f₀ o.eras) o.archive := by
  induction h with
  | founded => exact Stepwise.nil
  | @rotated o h successor amendmentHash timestamp link hlink ih =>
    refine ih.mono ?_
    rintro pre e ⟨o', m, r, h', harchive, heras, hm, hr, he⟩
    exact ⟨o', m, r, h', harchive, List.Subset.trans heras (List.subset_append_left _ _), hm, hr, he⟩
  | @amended o h m hm r hr ih =>
    exact stepwise_concat.mpr ⟨ih, o, m, r, h, rfl, List.Subset.refl _, hm, hr, rfl⟩

end Amendment

end Ugk
