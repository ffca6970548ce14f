import Ugk.ForStd.Stepwise
import Ugk.Native.Amendment
import Ugk.Spec.Sample

/-!
# Amendment chains

What a list of records admitted one after the other looks like.  `is_admissible` ties every record
to the head and to the key the lineage authorises.  It does not ask whether a record of kind
`genesis` comes first, whether the frame the archive began from comes back, and whether a leg the
record commits has moved.

## Key results

- `submit_admitted`: what an admitted submission satisfies
- `accounted_iff`: the archives that are accounted and unforked
- `second_genesis`: an archive with two genesis records
-/

namespace Ugk

namespace Amendment

variable {env : Keys} {K₀ : String} {archive pre : List Submission} {e : Submission}

/-! ## Keys the lineage authorises -/

/-- The current key vouches for a link: it is the link's predecessor and signed it. -/
def Vouches (env : Keys) (current : String) (link : SuccessorLineage) : Prop :=
  mosaic env current = .ok link.predecessorMosaic ∧ link.verifySuccession env current = true

/-- From a key, along links each signed by the key before it, to another key; the last list is the
    part of the lineage that is left. -/
inductive Reaches (env : Keys) : String → List SuccessorLineage → String →
    List SuccessorLineage → Prop
  | here {key : String} {chain : List SuccessorLineage} : Reaches env key chain key chain
  | link {current key : String} {link : SuccessorLineage} {chain rest : List SuccessorLineage}
      (hvouches : Vouches env current link)
      (hrest : Reaches env link.successorPubkey chain key rest) :
      Reaches env current (link :: chain) key rest

/-- The key no further link of the lineage replaces. -/
def Active (env : Keys) (key : String) (rest : List SuccessorLineage) : Prop :=
  ∀ link, rest.head? = some link → ¬Vouches env key link

theorem reaches_of_walk {current : String} {chain : List SuccessorLineage} {keys : List String}
    (h : walkSuccession env current chain = .ok keys) :
    (∀ key ∈ current :: keys, ∃ rest, Reaches env current chain key rest) ∧
      ∃ rest, Reaches env current chain ((current :: keys).getLastD current) rest ∧
        Active env ((current :: keys).getLastD current) rest := by
  induction chain generalizing current keys with
  | nil =>
    cases h
    refine ⟨fun key hkey => ⟨[], ?_⟩, [], .here, fun link hlink => ?_⟩
    · rw [List.mem_singleton.mp hkey]
      exact .here
    · simp at hlink
  | cons link chain ih =>
    rw [walkSuccession] at h
    cases hm : mosaic env current with
    | error x =>
      rw [hm] at h
      cases h
    | ok m =>
      rw [hm] at h
      -- a link the current key does not vouch for ends the walk
      have hstop (hnot : ¬Vouches env current link) :
          (∀ key ∈ [current], ∃ rest, Reaches env current (link :: chain) key rest) ∧
            ∃ rest, Reaches env current (link :: chain) ([current].getLastD current) rest ∧
              Active env ([current].getLastD current) rest := by
        refine ⟨fun key hkey => ⟨link :: chain, ?_⟩, link :: chain, .here, fun l hl => ?_⟩
        · rw [List.mem_singleton.mp hkey]
          exact .here
        · cases hl
          exact hnot
      simp only [bind, Except.bind] at h
      split_ifs at h with hpre hver
      · cases h
        apply hstop
        rintro ⟨hmosaic, -⟩
        rw [hm] at hmosaic
        exact hpre (Except.ok.inj hmosaic).symm
      · cases h
        apply hstop
        rintro ⟨-, hverify⟩
        simp [hverify] at hver
      · have hvouches : Vouches env current link := by
          refine ⟨hm.trans (congrArg _ (not_not.mp hpre).symm), ?_⟩
          simpa using hver
        cases hw : walkSuccession env link.successorPubkey chain with
        | error x => simp [hw] at h
        | ok rest =>
          rw [hw] at h
          cases h
          obtain ⟨hall, left, hlast, hactive⟩ := ih hw
          refine ⟨fun key hkey => ?_, left, ?_, ?_⟩
          · obtain rfl | hkey := List.mem_cons.mp hkey
            · exact ⟨_, .here⟩
            · obtain ⟨left', hleft⟩ := hall key hkey
              exact ⟨left', .link hvouches hleft⟩
          · exact .link hvouches hlast
          · exact hactive

/-- What the walk finds out: every authorised key is reached, and the last one is active. -/
theorem authorizedKeys_spec {chain : List SuccessorLineage} {keys : List String}
    (h : authorizedKeys env K₀ chain = .ok keys) :
    (∀ key ∈ keys, ∃ rest, Reaches env K₀ chain key rest) ∧
      ∃ rest, Reaches env K₀ chain (keys.getLastD K₀) rest ∧
        Active env (keys.getLastD K₀) rest := by
  unfold authorizedKeys at h
  cases hw : walkSuccession env K₀ chain with
  | error x => simp [hw, Except.map] at h
  | ok rest =>
    rw [hw] at h
    cases h
    exact reaches_of_walk hw

theorem mem_of_keysWithMosaic {authority : String} {keys matching : List String}
    (h : keysWithMosaic env authority keys = .ok matching) {key : String} (hkey : key ∈ matching) :
    key ∈ keys ∧ mosaic env key = .ok authority := by
  induction keys generalizing matching with
  | nil =>
    cases h
    simp at hkey
  | cons k keys ih =>
    rw [keysWithMosaic] at h
    cases hm : mosaic env k with
    | error x => simp [hm, bind, Except.bind] at h
    | ok m =>
      cases hrest : keysWithMosaic env authority keys with
      | error x => simp [hm, hrest, bind, Except.bind] at h
      | ok rest =>
        simp only [hm, hrest, bind, Except.bind, Except.ok.injEq] at h
        subst h
        split_ifs at hkey with hauthority
        · obtain rfl | hkey := List.mem_cons.mp hkey
          · exact ⟨List.mem_cons_self, hm.trans (congrArg _ hauthority)⟩
          · have := ih hrest hkey
            exact ⟨List.mem_cons_of_mem _ this.1, this.2⟩
        · have := ih hrest hkey
          exact ⟨List.mem_cons_of_mem _ this.1, this.2⟩

/-- The record is signed by a key the lineage authorises, the active one unless the record is
    historical. -/
def Signed (env : Keys) (K₀ : String) (e : Submission) : Prop :=
  ∃ key rest, Reaches env K₀ e.succession key rest ∧
    (e.recordIsHistorical = false → Active env key rest) ∧
    mosaic env key = .ok e.record.authority ∧
    verifyGovernor env key (e.record.signedPayload env.toEnv) e.record.signature = true

theorem signed_of_authority
    (h : authorityObjection env e.record K₀ e.succession e.recordIsHistorical = .ok none) :
    Signed env K₀ e := by
  unfold authorityObjection at h
  have hsignature : e.record.signature ≠ "" := by
    intro hempty
    simp [hempty] at h
  rw [if_neg hsignature] at h
  cases hkeys : authorizedKeys env K₀ e.succession with
  | error x => simp [hkeys, bind, Except.bind] at h
  | ok keys =>
    cases hmatching : keysWithMosaic env e.record.authority keys with
    | error x => simp [hkeys, hmatching, bind, Except.bind] at h
    | ok matching =>
      simp only [hkeys, hmatching, bind, Except.bind] at h
      cases matching with
      | nil => simp at h
      | cons key others =>
        obtain ⟨hmem, hmosaic⟩ := mem_of_keysWithMosaic hmatching List.mem_cons_self
        obtain ⟨hall, left, hlast, hactive⟩ := authorizedKeys_spec hkeys
        dsimp only at h
        split_ifs at h with hera hunverified
        · cases h
        · cases h
        · have hverify : verifyGovernor env key (e.record.signedPayload env.toEnv)
              e.record.signature = true := by simpa using hunverified
          by_cases hhead : key = keys.getLastD K₀
          · exact ⟨key, left, hhead ▸ hlast, fun _ => hhead ▸ hactive, hmosaic, hverify⟩
          · -- a retired key passes for a historical record only
            obtain ⟨rest, hrest⟩ := hall key hmem
            refine ⟨key, rest, hrest, fun hnew => absurd ⟨hhead, ?_⟩ hera, hmosaic, hverify⟩
            simp [hnew]

/-! ## Legs -/

/-- A leg of the frame. -/
inductive Leg where
  | law
  | legend
  | schema

def Frame.leg (f : Frame) : Leg → String
  | .law => f.lawHash
  | .legend => f.legendHash
  | .schema => f.schemaHash

theorem Frame.ext_leg {f g : Frame} (h : ∀ l, f.leg l = g.leg l) : f = g := by
  cases f
  cases g
  have hlaw := h .law
  have hlegend := h .legend
  have hschema := h .schema
  simp only [Frame.leg] at hlaw hlegend hschema
  subst hlaw hlegend hschema
  rfl

/-- The value a record commits for a leg before the transition. -/
def AmendmentRecord.priorLeg (r : AmendmentRecord) : Leg → String
  | .law => r.priorLawHash
  | .legend => r.priorLegendHash
  | .schema => r.priorSchemaHash

/-- The value a record commits for a leg after the transition. -/
def AmendmentRecord.successorLeg (r : AmendmentRecord) : Leg → String
  | .law => r.successorLawHash
  | .legend => r.successorLegendHash
  | .schema => r.successorSchemaHash

/-- The legs a record declares changed.  The law leg is always committed; the two others are
    committed only by a record that moves them. -/
def AmendmentRecord.Declares (r : AmendmentRecord) : Leg → Prop
  | .law => r.priorLawHash ≠ r.successorLawHash
  | .legend => r.successorLegendHash ≠ ""
  | .schema => r.successorSchemaHash ≠ ""

/-- A leg the record commits is the leg of both frames; a leg it does not commit has not moved. -/
def Represented (e : Submission) (l : Leg) : Prop :=
  (e.record.Declares l → e.record.priorLeg l = e.priorFrame.leg l ∧
    e.record.successorLeg l = e.successorFrame.leg l) ∧
  (¬e.record.Declares l → e.priorFrame.leg l = e.successorFrame.leg l)

theorem legObjection_none {leg cp cs p s : String} (h : legObjection leg cp cs p s = none) :
    (cs ≠ "" → cp = p ∧ cs = s) ∧ (¬cs ≠ "" → p = s) := by
  unfold legObjection at h
  split_ifs at h with hcs hcp hs hmoved
  · exact ⟨fun _ => ⟨not_not.mp hcp, not_not.mp hs⟩, fun hnot => absurd hcs hnot⟩
  · exact ⟨fun hne => absurd hne hcs, fun _ => not_not.mp hmoved⟩

/-- A genesis record. -/
def Submission.isGenesis (e : Submission) : Bool := e.record.amendmentKind == "genesis"

theorem represented_of_body
    (h : bodyObjection env e.record e.priorFrame e.successorFrame = none) :
    (∀ l, Represented e l) ∧ e.record.priorLawHash = e.priorFrame.lawHash ∧
      e.record.successorLawHash = e.successorFrame.lawHash := by
  unfold bodyObjection at h
  split_ifs at h with hkind hhash hprior hsuccessor
  rw [Option.or_eq_none_iff] at h
  have hlaw : e.record.priorLawHash = e.priorFrame.lawHash := not_not.mp hprior
  have hlaw' : e.record.successorLawHash = e.successorFrame.lawHash := not_not.mp hsuccessor
  refine ⟨fun l => ?_, hlaw, hlaw'⟩
  cases l with
  | law =>
    refine ⟨fun _ => ⟨hlaw, hlaw'⟩, fun hnot => ?_⟩
    show e.priorFrame.lawHash = e.successorFrame.lawHash
    rw [← hlaw, ← hlaw']
    exact not_not.mp hnot
  | legend => exact legObjection_none h.1
  | schema => exact legObjection_none h.2

/-- A represented leg has moved exactly when the record declares it with two different values. -/
theorem Represented.moved_iff {l : Leg} (h : Represented e l) :
    e.priorFrame.leg l ≠ e.successorFrame.leg l ↔
      e.record.Declares l ∧ e.record.priorLeg l ≠ e.record.successorLeg l := by
  by_cases hdeclares : e.record.Declares l
  · obtain ⟨hprior, hsuccessor⟩ := h.1 hdeclares
    rw [hprior, hsuccessor]
    exact ⟨fun hne => ⟨hdeclares, hne⟩, And.right⟩
  · exact ⟨fun hne => absurd (h.2 hdeclares) hne, fun hd => absurd hd.1 hdeclares⟩

/-! ## One admission -/

/-- What an admitted submission satisfies. -/
structure Admitted (env : Keys) (K₀ : String) (archive : List Submission) (e : Submission) :
    Prop where
  represented : ∀ l, Represented e l
  priorLaw : e.record.priorLawHash = e.priorFrame.lawHash
  successorLaw : e.record.successorLawHash = e.successorFrame.lawHash
  signed : Signed env K₀ e
  head : ∀ last, archive.getLast? = some last → e.priorFrame = last.successorFrame
  fresh : e.successorFrame ∉ archive.map Submission.successorFrame
  recordHash : e.record.priorAmendmentHash ≠ "" →
    archive.getLast?.map (fun last => last.record.amendmentHash) = some e.record.priorAmendmentHash

theorem lineage_of_objection
    (h : lineageObjection e.record e.priorFrame e.successorFrame (archiveLineage archive) = none) :
    (∀ last, archive.getLast? = some last → e.priorFrame = last.successorFrame) ∧
      e.successorFrame ∉ archive.map Submission.successorFrame ∧
      (e.record.priorAmendmentHash ≠ "" →
        archive.getLast?.map (fun last => last.record.amendmentHash) =
          some e.record.priorAmendmentHash) := by
  rw [lineageObjection, Option.or_eq_none_iff, Option.or_eq_none_iff] at h
  obtain ⟨⟨horder, hfresh⟩, hhash⟩ := h
  refine ⟨fun last hlast => ?_, fun hmem => ?_, fun hne => ?_⟩
  · simp only [archiveLineage, hlast, Option.map_some] at horder
    split_ifs at horder with hframe
    exact not_not.mp hframe
  · -- one frame among the successors turns the test into one of frames
    obtain ⟨last, hlast, heq⟩ := List.mem_map.mp hmem
    have hframes : (archiveLineage archive).existingSuccessors.any LineageKey.isFrame = true :=
      List.any_eq_true.mpr ⟨.frame last.successorFrame, List.mem_map.mpr ⟨last, hlast, rfl⟩, rfl⟩
    have hpresent : .frame e.successorFrame ∈ (archiveLineage archive).existingSuccessors :=
      List.mem_map.mpr ⟨last, hlast, congrArg _ heq⟩
    rw [if_pos hframes, if_pos hpresent] at hfresh
    simp at hfresh
  · rw [if_neg hne] at hhash
    simp only [archiveLineage] at hhash
    cases hlast : archive.getLast? with
    | none => simp [hlast] at hhash
    | some last =>
      simp only [hlast, Option.map_some] at hhash ⊢
      split_ifs at hhash with heq
      rw [not_not.mp heq]

theorem isAdmissible_cases {r : AmendmentRecord} {p s : Frame} {lineage : Lineage}
    {succession : List SuccessorLineage} {historical : Bool} {detail : String}
    (h : isAdmissible env r p s K₀ lineage succession historical = .ok (true, detail)) :
    bodyObjection env r p s = none ∧
      authorityObjection env r K₀ succession historical = .ok none ∧
      lineageObjection r p s lineage = none := by
  unfold isAdmissible at h
  cases hbody : bodyObjection env r p s with
  | some d => simp [hbody] at h
  | none =>
    cases hauthority : authorityObjection env r K₀ succession historical with
    | error x => simp [hbody, hauthority, bind, Except.bind] at h
    | ok objection =>
      cases objection with
      | some d => simp [hbody, hauthority, bind, Except.bind] at h
      | none =>
        cases hlineage : lineageObjection r p s lineage with
        | some d => simp [hbody, hauthority, hlineage, bind, Except.bind] at h
        | none => exact ⟨rfl, rfl, rfl⟩

/-- What an admitted submission satisfies. -/
theorem submit_admitted {detail : String} (h : submit env K₀ archive e = .ok (true, detail)) :
    Admitted env K₀ archive e := by
  obtain ⟨hbody, hauthority, hlineage⟩ := isAdmissible_cases h
  obtain ⟨hrepresented, hprior, hsuccessor⟩ := represented_of_body hbody
  obtain ⟨hhead, hfresh, hhash⟩ := lineage_of_objection hlineage
  exact ⟨hrepresented, hprior, hsuccessor, signed_of_authority hauthority, hhead, hfresh, hhash⟩

/-! ## The archive -/

/-- The archives `is_admissible` builds: each record was admitted against the ones before it. -/
def Built (env : Keys) (K₀ : String) (archive : List Submission) : Prop :=
  Stepwise (fun pre e => ∃ detail, submit env K₀ pre e = .ok (true, detail)) archive

/-- The frame the archive began from, when `e` is the next submission. -/
def origin (archive : List Submission) (e : Submission) : Frame :=
  (archive.head?.getD e).priorFrame

/-- The frames of the archive: the one it began from and the successors. -/
def frames : List Submission → List Frame
  | [] => []
  | e :: archive => e.priorFrame :: (e :: archive).map Submission.successorFrame

/-- The head at the time is the predecessor of the record. -/
def Extends (archive : List Submission) (e : Submission) : Prop :=
  ∃ head, archive.getLast? = some head ∧ e.priorFrame = head.successorFrame ∧
    e.record.priorLawHash = head.record.successorLawHash ∧
    (e.record.priorAmendmentHash ≠ "" → e.record.priorAmendmentHash = head.record.amendmentHash)

/-- An accounted and unforked archive. -/
structure Accounted (env : Keys) (K₀ : String) (archive : List Submission) : Prop where
  /-- There is exactly one genesis. -/
  genesis : archive.countP Submission.isGenesis = 1
  /-- Every other record extends the head of its time. -/
  extends_head : Stepwise (fun pre e => e.isGenesis = false → Extends pre e) archive
  /-- No frame occurs twice. -/
  unforked : (frames archive).Nodup
  /-- The declared legs are the ones that moved. -/
  declared : ∀ e ∈ archive, ∀ l, e.record.Declares l ↔ e.priorFrame.leg l ≠ e.successorFrame.leg l
  /-- The signing key is authorised. -/
  signed : ∀ e ∈ archive, Signed env K₀ e

/-- What `is_admissible` leaves to the submitter: genesis comes first and only first, no record
    goes back to the frame the archive began from, and a committed leg moves. -/
structure Careful (archive : List Submission) (e : Submission) : Prop where
  genesis : e.isGenesis = true ↔ archive = []
  forward : e.successorFrame ≠ origin archive e
  moves : ∀ l, e.record.Declares l → e.record.priorLeg l ≠ e.record.successorLeg l

theorem Built.admitted (h : Built env K₀ archive) :
    Stepwise (fun pre e => Admitted env K₀ pre e) archive :=
  h.mono fun _ _ ⟨_, hsubmit⟩ => submit_admitted hsubmit

theorem origin_of_split {first : Submission} {rest pre post : List Submission}
    (h : first :: rest = pre ++ e :: post) : origin pre e = first.priorFrame := by
  cases pre with
  | nil =>
    cases h
    rfl
  | cons a pre =>
    cases h
    rfl

/-- No frame occurs twice exactly when no record goes back to the origin. -/
theorem nodup_frames_iff (h : Built env K₀ archive) :
    (frames archive).Nodup ↔ Stepwise (fun pre e => e.successorFrame ≠ origin pre e) archive := by
  cases archive with
  | nil => simp [frames, Stepwise.nil]
  | cons first rest =>
    have hdistinct : ((first :: rest).map Submission.successorFrame).Nodup :=
      nodup_iff_stepwise.mpr (h.admitted.mono fun _ _ hadmitted => hadmitted.fresh)
    rw [frames, List.nodup_cons, and_iff_left hdistinct]
    constructor
    · intro hnew pre e post hsplit heq
      apply hnew
      rw [origin_of_split hsplit] at heq
      rw [← heq, hsplit]
      exact List.mem_map_of_mem (by simp)
    · intro hforward hmem
      obtain ⟨e, he, heq⟩ := List.mem_map.mp hmem
      obtain ⟨pre, post, hsplit⟩ := List.append_of_mem he
      exact hforward pre e post hsplit (heq.trans (origin_of_split hsplit).symm)

/-- After the first record, what is admitted extends the head. -/
theorem Admitted.extends (hpre : Stepwise (fun pre e => Admitted env K₀ pre e) pre)
    (h : Admitted env K₀ pre e) (hne : pre ≠ []) : Extends pre e := by
  obtain ⟨before, last, rfl⟩ : ∃ before last, pre = before ++ [last] :=
    ⟨_, _, (List.dropLast_append_getLast hne).symm⟩
  have hlast : (before ++ [last]).getLast? = some last := List.getLast?_concat
  refine ⟨last, hlast, h.head last hlast, ?_, fun hcommits => ?_⟩
  · rw [h.priorLaw, h.head last hlast, (stepwise_concat.mp hpre).2.successorLaw]
  · have hhash := h.recordHash hcommits
    rw [hlast] at hhash
    exact (Option.some.inj hhash).symm

/-- An archive that `is_admissible` built is accounted and unforked exactly when it is not empty and
    every submission was careful. -/
theorem accounted_iff (h : Built env K₀ archive) :
    Accounted env K₀ archive ↔ archive ≠ [] ∧ Stepwise Careful archive := by
  have hextends : Stepwise (fun pre e => pre ≠ [] → Extends pre e) archive := by
    intro pre e post hsplit hne
    have hpre : Stepwise (fun pre e => Admitted env K₀ pre e) pre := by
      apply Stepwise.of_prefix
      rw [← hsplit]
      exact h.admitted
    exact (h.admitted pre e post hsplit).extends hpre hne
  have hfirst := @unique_first_iff _ archive Submission.isGenesis
  have hmoves : (∀ e ∈ archive, ∀ l,
      e.record.Declares l ↔ e.priorFrame.leg l ≠ e.successorFrame.leg l) ↔
      Stepwise (fun _ e => ∀ l, e.record.Declares l →
        e.record.priorLeg l ≠ e.record.successorLeg l) archive := by
    rw [stepwise_forall]
    refine forall₂_congr fun e he => forall_congr' fun l => ?_
    rw [((stepwise_forall.mp (h.admitted.mono fun _ _ ha => ha.represented)) e he l).moved_iff]
    exact ⟨fun hiff hd => (hiff.mp hd).2, fun himp => ⟨fun hd => ⟨hd, himp hd⟩, And.left⟩⟩
  constructor
  · intro hacc
    have hlead : Stepwise (fun pre e => e.isGenesis = false → pre ≠ []) archive := by
      refine hacc.extends_head.mono fun pre e hext hordinary hnil => ?_
      obtain ⟨head, hhead, -⟩ := hext hordinary
      rw [hnil] at hhead
      simp at hhead
    obtain ⟨hne, hgenesis⟩ := hfirst.mp ⟨hacc.genesis, hlead⟩
    refine ⟨hne, fun pre e post hsplit => ⟨hgenesis pre e post hsplit, ?_, ?_⟩⟩
    · exact (nodup_frames_iff h).mp hacc.unforked pre e post hsplit
    · exact hmoves.mp hacc.declared pre e post hsplit
  · rintro ⟨hne, hcareful⟩
    obtain ⟨hcount, hlead⟩ := hfirst.mpr ⟨hne, hcareful.mono fun _ _ hc => hc.genesis⟩
    refine ⟨hcount, fun pre e post hsplit hordinary => ?_, ?_, ?_, ?_⟩
    · exact hextends pre e post hsplit (hlead pre e post hsplit hordinary)
    · exact (nodup_frames_iff h).mpr (hcareful.mono fun _ _ hc => hc.forward)
    · exact hmoves.mpr (hcareful.mono fun _ _ hc => hc.moves)
    · exact stepwise_forall.mp (h.admitted.mono fun _ _ hadmitted => hadmitted.signed)

/-! ## Two archives -/

theorem authorityObjection_of {r : AmendmentRecord} {succession : List SuccessorLineage}
    {historical : Bool} {authorized others : List String} {key : String} (hsignature : r.signature ≠ "")
    (hkeys : authorizedKeys env K₀ succession = .ok authorized)
    (hmatching : keysWithMosaic env r.authority authorized = .ok (key :: others))
    (hactive : key = authorized.getLastD K₀)
    (hverify : verifyGovernor env key (r.signedPayload env.toEnv) r.signature = true) :
    authorityObjection env r K₀ succession historical = .ok none := by
  rw [authorityObjection, if_neg hsignature, hkeys]
  simp only [bind, Except.bind, hmatching]
  rw [if_neg (fun h => h.1 hactive), hverify]
  rfl

theorem isAdmissible_of {r : AmendmentRecord} {p s : Frame} {lineage : Lineage}
    {succession : List SuccessorLineage} {historical : Bool}
    (hbody : bodyObjection env r p s = none)
    (hauthority : authorityObjection env r K₀ succession historical = .ok none)
    (hlineage : lineageObjection r p s lineage = none) :
    ∃ detail, isAdmissible env r p s K₀ lineage succession historical = .ok (true, detail) := by
  rw [isAdmissible, hbody, hauthority]
  simp only [bind, Except.bind, hlineage]
  exact ⟨_, rfl⟩

/-- The sample runtime with a signature that spells out its key. -/
def sampleKeys : Keys :=
  { sampleEnv with
    verify := fun _ signature key => signature == "signed by " ++ key
    sha256Bytes := fun bytes => String.ofList (bytes.map fun b => Char.ofNat b.toNat)
    repr := fun s => "'" ++ s ++ "'" }

/-- A record of a law move, signed by the installed key `4b`. -/
def lawRecord (kind prior successor : String) : AmendmentRecord := .create sampleEnv
  { amendmentHash := "", priorLawHash := prior, successorLawHash := successor
    invariantsAdded := [], invariantsRemoved := [], authority := "K", signature := "signed by 4b"
    phaseCode := "ugk-phase17", timestamp := "2026-01-04T00:00:00Z", amendmentKind := kind }

/-- The submission of that record. -/
def lawMove (kind prior successor : String) : Submission :=
  ⟨lawRecord kind prior successor, ⟨prior, "legend", "schema"⟩, ⟨successor, "legend", "schema"⟩,
    [], false⟩

theorem verifyHash_create (env : Env) (r : AmendmentRecord) : (r.create env).verifyHash env = true :=
  beq_self_eq_true _

theorem authority_lawMove (kind prior successor : String) :
    authorityObjection sampleKeys (lawRecord kind prior successor) "4b" [] false = .ok none := by
  have hmosaic : mosaic sampleKeys "4b" = .ok "K" := rfl
  have hkeys : authorizedKeys sampleKeys "4b" [] = .ok ["4b"] := rfl
  have hmatching : keysWithMosaic sampleKeys "K" ["4b"] = .ok ["4b"] := by
    simp [keysWithMosaic, hmosaic, bind, Except.bind]
  have hverify (message : List Char) :
      verifyGovernor sampleKeys "4b" message "signed by 4b" = true := by
    have hset : ¬"4b".startsWith "GOVERNOR_KEY_UNSET" = true := by decide
    rw [verifyGovernor, if_neg hset]
    exact beq_self_eq_true _
  have hsignature : ¬(lawRecord kind prior successor).signature = "" := by
    show ¬"signed by 4b" = ""
    decide
  exact authorityObjection_of hsignature hkeys hmatching rfl (hverify _)

/-- A law move from the head to a new frame is admitted, whatever its kind. -/
theorem submit_lawMove {kind prior successor : String}
    (hkind : kind = "genesis" ∨ kind = "ordinary")
    (hhead : ∀ last, archive.getLast? = some last →
      last.successorFrame = ⟨prior, "legend", "schema"⟩)
    (hfresh : ∀ e ∈ archive, e.successorFrame ≠ ⟨successor, "legend", "schema"⟩) :
    ∃ detail, submit sampleKeys "4b" archive (lawMove kind prior successor) = .ok (true, detail) := by
  have hbody : bodyObjection sampleKeys (lawRecord kind prior successor)
      ⟨prior, "legend", "schema"⟩ ⟨successor, "legend", "schema"⟩ = none := by
    have hk : ¬((lawRecord kind prior successor).amendmentKind ≠ "genesis" ∧
        (lawRecord kind prior successor).amendmentKind ≠ "ordinary") := by
      show ¬(kind ≠ "genesis" ∧ kind ≠ "ordinary")
      tauto
    have hhash : ¬(!(lawRecord kind prior successor).verifyHash sampleKeys.toEnv) = true := by
      have hverify : (lawRecord kind prior successor).verifyHash sampleKeys.toEnv = true :=
        verifyHash_create _ _
      rw [hverify]
      decide
    rw [bodyObjection, if_neg hk, if_neg hhash, if_neg (fun h => h rfl), if_neg (fun h => h rfl)]
    rfl
  have hlineage : lineageObjection (lawRecord kind prior successor) ⟨prior, "legend", "schema"⟩
      ⟨successor, "legend", "schema"⟩ (archiveLineage archive) = none := by
    have hnew : LineageKey.frame ⟨successor, "legend", "schema"⟩ ∉
        (archiveLineage archive).existingSuccessors := by
      intro hmem
      obtain ⟨e, he, heq⟩ := List.mem_map.mp hmem
      exact hfresh e he (LineageKey.frame.inj heq)
    have hnolaw (law : String) :
        LineageKey.law law ∉ (archiveLineage archive).existingSuccessors := by
      intro hmem
      obtain ⟨e, _, heq⟩ := List.mem_map.mp hmem
      cases heq
    rw [lineageObjection, Option.or_eq_none_iff, Option.or_eq_none_iff]
    refine ⟨⟨?_, ?_⟩, if_pos rfl⟩
    · cases hlast : archive.getLast? with
      | none => simp [archiveLineage, hlast]
      | some last => simp [archiveLineage, hlast, hhead last hlast]
    · rw [if_neg hnew, if_neg (hnolaw _)]
      exact ite_self _
  exact isAdmissible_of hbody (authority_lawMove kind prior successor) hlineage

/-- A second law move from the first one's frame is admitted, whatever its kind. -/
theorem built_two {kind : String} (hkind : kind = "genesis" ∨ kind = "ordinary") :
    Built sampleKeys "4b" [lawMove "genesis" "L0" "L1", lawMove kind "L1" "L2"] := by
  have hfirst : ∃ detail, submit sampleKeys "4b" [] (lawMove "genesis" "L0" "L1") =
      .ok (true, detail) :=
    submit_lawMove (.inl rfl) (by simp) (by simp)
  have hsecond : ∃ detail, submit sampleKeys "4b" [lawMove "genesis" "L0" "L1"]
      (lawMove kind "L1" "L2") = .ok (true, detail) := by
    apply submit_lawMove hkind
    · intro last hlast
      obtain rfl : lawMove "genesis" "L0" "L1" = last := by simpa using hlast
      rfl
    · intro e he
      rw [List.mem_singleton.mp he]
      simp [lawMove]
  exact stepwise_concat.mpr ⟨stepwise_concat.mpr ⟨.nil, hfirst⟩, hsecond⟩

/-- Genesis and an amendment after it. -/
theorem genesis_ordinary_accounted :
    Accounted sampleKeys "4b" [lawMove "genesis" "L0" "L1", lawMove "ordinary" "L1" "L2"] := by
  apply (accounted_iff (built_two (.inr rfl))).mpr
  have hmoves {kind prior successor : String} (hne : prior ≠ successor) (l : Leg)
      (hd : (lawMove kind prior successor).record.Declares l) :
      (lawMove kind prior successor).record.priorLeg l ≠
        (lawMove kind prior successor).record.successorLeg l := by
    cases l with
    | law => exact hne
    | legend => exact absurd rfl hd
    | schema => exact absurd rfl hd
  have hfirst : Careful [] (lawMove "genesis" "L0" "L1") := by
    refine ⟨iff_of_true (beq_self_eq_true _) rfl, ?_, hmoves (by decide)⟩
    simp [lawMove, origin]
  have hsecond : Careful [lawMove "genesis" "L0" "L1"] (lawMove "ordinary" "L1" "L2") := by
    refine ⟨iff_of_false ?_ (by simp), ?_, hmoves (by decide)⟩
    · show ¬("ordinary" == "genesis") = true
      decide
    · simp [lawMove, origin]
  exact ⟨by simp, stepwise_concat.mpr ⟨stepwise_concat.mpr ⟨.nil, hfirst⟩, hsecond⟩⟩

/-- A second genesis record is admitted like any other. -/
theorem second_genesis : ∃ env K₀ archive, Built env K₀ archive ∧ ¬Accounted env K₀ archive := by
  refine ⟨sampleKeys, "4b", _, built_two (.inl rfl), fun hacc => ?_⟩
  have htwo : [lawMove "genesis" "L0" "L1", lawMove "genesis" "L1" "L2"].countP
      Submission.isGenesis = 2 := rfl
  have hone := hacc.genesis
  rw [htwo] at hone
  omega

end Amendment

end Ugk
