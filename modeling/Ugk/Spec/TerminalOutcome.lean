import Ugk.Native.Deferral
import Ugk.Spec.Written

/-!
# Terminal outcomes

Which outcome, continuation and bridge a stored receipt commits.  The store derives the outcome from
the operation, or takes the caller's override as it is when the override is emittable; whether the
two agree is left to verification.  The operations of the kernel that commit an outcome never
disagree.

## Key results

- `committed_of_readsAs`: what a stored receipt commits, by the arguments of its write
- `terminal_outcome`: when it is the outcome of the receipt, and what is refused
-/

namespace Ugk

open Store

variable {env : Env} {cfg : Config} {clock : Clock} {a : WriteArgs} {row : Row} {read : Receipt}

/-! ## What the arguments ask for -/

/-- The call carries a continuation in state HELD. -/
def Held (a : WriteArgs) : Prop :=
  ∃ d, a.continuation = some (.dict d) ∧ PyDict.get d "state" = .str "HELD"

/-- The call carries a bridge surface that its verifier accepts. -/
def BridgeAccepted (a : WriteArgs) : Prop :=
  ∃ b verifier reason, a.bridge = some b ∧ a.bridgeVerifier = some verifier ∧
    verifier b = .ok (true, reason)

/-- The outcome and reason the call commits. -/
def requested (a : WriteArgs) : String × String :=
  deriveCommittedOutcome a.op a.failed a.terminalOutcomeOverride a.intentText

/-- The outcome and reason recomputed from the stored operation, failed flag and intent. -/
def recomputed (a : WriteArgs) : String × String :=
  deriveCommittedOutcome a.op a.failed none a.intentText

/-- What an outcome needs to be emitted. -/
def Emittable (a : WriteArgs) (outcome : String) : Prop :=
  outcome ∈ emittableOutcomes ∨ outcome = "DEFER" ∧ Held a ∨ outcome = "BRIDGE" ∧ BridgeAccepted a

theorem recomputed_emittable (a : WriteArgs) : (recomputed a).1 ∈ emittableOutcomes := by
  unfold recomputed deriveCommittedOutcome
  dsimp only
  split_ifs <;> simp [emittableOutcomes]

theorem not_special_of_emittable {o : String} (h : o ∈ emittableOutcomes) :
    o ≠ "DEFER" ∧ o ≠ "BRIDGE" ∧ o ≠ "CRISIS" := by
  simp only [emittableOutcomes, List.mem_cons, List.not_mem_nil, or_false] at h
  obtain rfl | rfl | rfl := h <;> decide

theorem Emittable.ne_crisis {o : String} (h : Emittable a o) : o ≠ "CRISIS" := by
  obtain hplain | ⟨rfl, -⟩ | ⟨rfl, -⟩ := h
  · exact (not_special_of_emittable hplain).2.2
  · decide
  · decide

/-- What `_assert_emittable` lets through. -/
theorem emittable_of_assert {o : String}
    (h : assertEmittable env o a.continuation a.bridge a.bridgeVerifier = .ok ()) :
    Emittable a o := by
  unfold assertEmittable at h
  split at h
  · exact nomatch h
  split at h
  · -- DEFER
    rename_i hdefer
    split at h
    · rename_i d hcont
      split at h
      · rename_i hheld
        refine .inr (.inl ⟨hdefer, d, hcont, ?_⟩)
        exact isStr_iff.mp hheld
      · exact nomatch h
    · exact nomatch h
  split at h
  · -- BRIDGE
    rename_i hbridge
    split at h
    · rename_i b hsurface
      split at h
      · exact nomatch h
      split at h
      · exact nomatch h
      rename_i verifier hverifier
      split at h
      · exact nomatch h
      · rename_i reason hverdict
        exact .inr (.inr ⟨hbridge, _, verifier, reason, hsurface, hverifier, hverdict⟩)
      · exact nomatch h
    · exact nomatch h
  · split at h
    · exact nomatch h
    · rename_i hmem
      exact .inl (not_not.mp hmem)

/-! ## What a stored receipt commits -/

/-- What the stored receipt of a call commits. -/
structure Committed (a : WriteArgs) (read : Receipt) : Prop where
  outcome : read.terminalOutcome = .ofOpt (if a.commitsOutcome then some (requested a).1 else none)
  reason : read.terminalOutcomeReason =
    .ofOpt (if a.commitsOutcome then some (requested a).2 else none)
  emittable : a.commitsOutcome = true → Emittable a (requested a).1
  no_crisis : read.terminalOutcome ≠ .str "CRISIS"
  held : read.continuationState = .str "HELD" ↔ Held a
  bridged : read.bridgeRecordId ≠ .none ↔ a.bridge.isSome = true

theorem continuation_held {cols : ContinuationColumns} (h : continuationSurface env a = .ok cols) :
    cols.state = .str "HELD" ↔ Held a := by
  unfold continuationSurface at h
  unfold Held
  cases hc : a.continuation with
  | none =>
    rw [hc] at h
    cases h
    simp
  | some c =>
    rw [hc] at h
    obtain ⟨-, d, rfl, -⟩ := validateContinuation_ok h
    obtain ⟨⟨⟩, -, h⟩ := Except.bind_eq_ok h
    have hstate : cols.state = PyDict.get d "state" := by
      split at h
      · split at h
        · exact nomatch h
        · obtain ⟨_, -, h⟩ := Except.bind_eq_ok h
          obtain ⟨_, -, h⟩ := Except.bind_eq_ok h
          obtain ⟨_, -, h⟩ := Except.bind_eq_ok h
          obtain ⟨_, -, h⟩ := Except.bind_eq_ok h
          rw [← Except.ok.inj h]
      · exact nomatch h
    rw [hstate]
    simp

theorem bridge_carried {cols : BridgeColumns} (h : bridgeSurface a = .ok cols) :
    cols.recordId ≠ .none ↔ a.bridge.isSome = true := by
  unfold bridgeSurface at h
  cases hb : a.bridge with
  | none =>
    rw [hb] at h
    cases h
    simp
  | some b =>
    rw [hb] at h
    simp only [Option.isSome_some, iff_true]
    cases b with
    | dict d =>
      dsimp only at h
      unfold validateBridgeRecord at h
      dsimp only at h
      split at h
      · exact nomatch h
      rename_i hid
      split at h
      · exact nomatch h
      split at h
      · exact nomatch h
      · exact nomatch h
      rw [← Except.ok.inj h]
      show PyDict.get d "bridge_record_id" ≠ .none
      intro hnone
      rw [hnone] at hid
      exact hid rfl
    | _ => exact nomatch h

theorem committed_of_readsAs (h : ReadsAs cfg a row read) : Committed a read := by
  obtain ⟨-, id, tip, time, c, r, sf, hBody, trace, q, -, hs, -, rfl⟩ := h
  obtain ⟨htextC, htextB, -⟩ := surfaces_ok hs
  obtain ⟨outcome, hout, hs⟩ := Except.bind_eq_ok hs
  obtain ⟨capability, -, hs⟩ := Except.bind_eq_ok hs
  obtain ⟨continuation, hcont, hs⟩ := Except.bind_eq_ok hs
  obtain ⟨bridge, hbridge, hs⟩ := Except.bind_eq_ok hs
  obtain rfl := Except.ok.inj hs
  have houtcome : outcome = (if a.commitsOutcome then some (requested a) else none) ∧
      (a.commitsOutcome = true → Emittable a (requested a).1) := by
    unfold outcomeSurface at hout
    split at hout
    · rename_i hcommits
      obtain ⟨⟨⟩, hassert, rfl⟩ := Except.map_eq_ok hout
      exact ⟨by rw [if_pos hcommits]; rfl, fun _ => emittable_of_assert hassert⟩
    · rename_i hcommits
      obtain rfl := Except.ok.inj hout
      exact ⟨by rw [if_neg hcommits], fun h => absurd h hcommits⟩
  have hstored : PyVal.ofOpt (columnText cfg.toEnv (.ofOpt (outcome.map Prod.fst))) =
      .ofOpt (if a.commitsOutcome then some (requested a).1 else none) := by
    rw [ofOpt_columnText (isText_ofOpt _), houtcome.1]
    split <;> rfl
  refine ⟨hstored, ?_, houtcome.2, ?_, ?_, ?_⟩
  · show PyVal.ofOpt (columnText _ (.ofOpt (outcome.map Prod.snd))) = _
    rw [ofOpt_columnText (isText_ofOpt _), houtcome.1]
    split <;> rfl
  · show PyVal.ofOpt (columnText _ (.ofOpt (outcome.map Prod.fst))) ≠ _
    rw [hstored]
    split
    · rename_i hcommits
      exact fun h => (houtcome.2 hcommits).ne_crisis (PyVal.str.inj h)
    · exact fun h => nomatch h
  · show PyVal.ofOpt (columnText _ continuation.state) = _ ↔ _
    rw [ofOpt_columnText htextC.state]
    exact continuation_held hcont
  · show PyVal.ofOpt (columnText _ bridge.recordId) ≠ _ ↔ _
    rw [ofOpt_columnText htextB.recordId]
    exact bridge_carried hbridge

/-! ## When the outcome is the receipt's own -/

/-- The committed outcome is the receipt's own: the recomputed one, but DEFER exactly with a HELD
    continuation and BRIDGE exactly with an accepted bridge surface. -/
structure Ratified (a : WriteArgs) (read : Receipt) : Prop where
  deferred : read.terminalOutcome = .str "DEFER" ↔ read.continuationState = .str "HELD"
  bridged : read.terminalOutcome = .str "BRIDGE" ↔
    read.bridgeRecordId ≠ .none ∧ BridgeAccepted a
  ordinary : read.terminalOutcome ≠ .str "DEFER" → read.terminalOutcome ≠ .str "BRIDGE" →
    read.terminalOutcome = .str (recomputed a).1 ∧ read.terminalOutcomeReason = .str (recomputed a).2

/-- The override, the continuation and the bridge of a call agree with its operation. -/
structure Aligned (a : WriteArgs) : Prop where
  deferred : (requested a).1 = "DEFER" ↔ Held a
  bridged : (requested a).1 = "BRIDGE" ↔ BridgeAccepted a
  ordinary : (requested a).1 ≠ "DEFER" → (requested a).1 ≠ "BRIDGE" → requested a = recomputed a

theorem ratified_iff (h : Committed a read) (hcommits : a.commitsOutcome = true) :
    Ratified a read ↔ Aligned a := by
  have houtcome (o : String) : read.terminalOutcome = .str o ↔ (requested a).1 = o := by
    rw [h.outcome, if_pos hcommits]
    exact ⟨PyVal.str.inj, fun heq => congrArg PyVal.str heq⟩
  have hreason (t : String) : read.terminalOutcomeReason = .str t ↔ (requested a).2 = t := by
    rw [h.reason, if_pos hcommits]
    exact ⟨PyVal.str.inj, fun heq => congrArg PyVal.str heq⟩
  have hsurface : read.bridgeRecordId ≠ .none ∧ BridgeAccepted a ↔ BridgeAccepted a := by
    refine ⟨And.right, fun hacc => ⟨h.bridged.mpr ?_, hacc⟩⟩
    obtain ⟨b, _, _, hb, _⟩ := hacc
    rw [hb]
    rfl
  constructor
  · intro hr
    refine ⟨?_, ?_, fun hd hb => ?_⟩
    · rw [← houtcome, hr.deferred, h.held]
    · rw [← houtcome, hr.bridged, hsurface]
    · obtain ⟨ho, ht⟩ := hr.ordinary (mt (houtcome _).mp hd) (mt (houtcome _).mp hb)
      exact Prod.ext ((houtcome _).mp ho) ((hreason _).mp ht)
  · intro hal
    refine ⟨?_, ?_, fun hd hb => ?_⟩
    · rw [houtcome, hal.deferred, h.held]
    · rw [houtcome, hal.bridged, hsurface]
    · have heq := hal.ordinary (mt (houtcome _).mpr hd) (mt (houtcome _).mpr hb)
      exact ⟨(houtcome _).mpr (congrArg Prod.fst heq), (hreason _).mpr (congrArg Prod.snd heq)⟩

/-! ## The kernel's own calls -/

/-- The calls of `write` in `ugk/kernel.py` that commit an outcome. -/
inductive KernelCommit (env : Env) : WriteArgs → Prop
  | deferred (w : World) (d : Kernel.DeferArgs) (cid : String) :
      KernelCommit env (Kernel.deferWriteArgs w d cid)
  | bridged (k : Kernel) (b : Kernel.BridgeArgs) : KernelCommit env (Kernel.bridgeWriteArgs k b)
  | marked (k : Kernel) (cid : String) (src : Receipt) (state : String) (refuse : Bool)
      (reason : String) (record : PyVal) (hstate : state ≠ "HELD")
      (hrecord : Kernel.markerRecord env cid src state = .ok record) :
      KernelCommit env (Kernel.markerArgs k cid src refuse reason record)

theorem KernelCommit.commits (h : KernelCommit env a) : a.commitsOutcome = true := by
  cases h <;> rfl

/-- A kernel call asks for DEFER with a HELD record, for BRIDGE with a bridge that has to be
    accepted, or for nothing out of the ordinary. -/
theorem KernelCommit.aligned (h : KernelCommit env a) (hemit : Emittable a (requested a).1) :
    Aligned a := by
  have hnobridge (hb : a.bridge = none) : ¬BridgeAccepted a := by
    rintro ⟨b, _, _, hsome, _⟩
    rw [hb] at hsome
    exact nomatch hsome
  cases h with
  | deferred w d cid =>
    have hheld : Held (Kernel.deferWriteArgs w d cid) := ⟨_, rfl, rfl⟩
    have hrequested : (requested (Kernel.deferWriteArgs w d cid)).1 = "DEFER" := rfl
    refine ⟨iff_of_true rfl hheld, iff_of_false ?_ (hnobridge rfl), fun hne => absurd rfl hne⟩
    rw [hrequested]
    decide
  | bridged k b =>
    have hrequested : (requested (Kernel.bridgeWriteArgs k b)).1 = "BRIDGE" := rfl
    have haccepted : BridgeAccepted (Kernel.bridgeWriteArgs k b) := by
      rw [hrequested] at hemit
      obtain hplain | ⟨hdefer, -⟩ | ⟨-, hacc⟩ := hemit
      · exact absurd rfl (not_special_of_emittable hplain).2.1
      · exact absurd hdefer (by decide)
      · exact hacc
    have hnotheld : ¬Held (Kernel.bridgeWriteArgs k b) := by
      rintro ⟨_, hsome, _⟩
      exact nomatch hsome
    refine ⟨iff_of_false ?_ hnotheld, iff_of_true rfl haccepted, fun _ hne => absurd rfl hne⟩
    rw [hrequested]
    decide
  | marked k cid src state refuse reason record hstate hrecord =>
    have hplain := not_special_of_emittable
      (recomputed_emittable (Kernel.markerArgs k cid src refuse reason record))
    have hnotheld : ¬Held (Kernel.markerArgs k cid src refuse reason record) := by
      rintro ⟨d, hsome, hd⟩
      obtain ⟨parameters, -, hrecord⟩ := Except.bind_eq_ok hrecord
      obtain ⟨expiry, -, hrecord⟩ := Except.bind_eq_ok hrecord
      rw [← Except.ok.inj hrecord] at hsome
      obtain rfl := PyVal.dict.inj (Option.some.inj hsome)
      exact hstate (PyVal.str.inj hd)
    exact ⟨iff_of_false hplain.1 hnotheld, iff_of_false hplain.2.1 (hnobridge rfl),
      fun _ _ => rfl⟩

/-! ## The outcome of a write -/

/-- Whatever a write leaves in the store commits what its arguments ask for, that is the receipt's
    own outcome exactly when the arguments are aligned, as the kernel's always are; and an outcome
    that may not be emitted is refused. -/
theorem terminal_outcome (cfg : Config) (clock : Clock) (a : WriteArgs) (s : StoreState) :
    (rows (Store.write cfg clock a s).2 = rows s ∨
      ∃ row read, rows (Store.write cfg clock a s).2 = rows s ++ [row] ∧
        rowToReceipt cfg.toEnv row = .ok read ∧ Committed a read ∧
        (a.commitsOutcome = true → (Ratified a read ↔ Aligned a)) ∧
        (KernelCommit cfg.toEnv a → Ratified a read)) ∧
    (a.commitsOutcome = true → ¬Emittable a (requested a).1 →
      ∃ e s', Store.write cfg clock a s = (.error e, s') ∧ rows s' = rows s) := by
  constructor
  · obtain hsame | ⟨row, read, hrows, hread⟩ := @rows_of_write cfg clock a s
    · exact .inl hsame
    · have hcommitted := committed_of_readsAs hread
      refine .inr ⟨row, read, hrows, hread.reads, hcommitted, ratified_iff hcommitted, fun hk => ?_⟩
      have hcommits := hk.commits
      exact (ratified_iff hcommitted hcommits).mpr (hk.aligned (hcommitted.emittable hcommits))
  · intro hcommits hnot
    -- a row of this call would be a committed outcome that is emittable
    have hno {row : Row} {read : Receipt} (hread : ReadsAs cfg a row read) : False :=
      hnot ((committed_of_readsAs hread).emittable hcommits)
    cases hw : Store.write cfg clock a s with
    | mk result s' =>
      cases result with
      | ok receipt =>
        obtain ⟨_, _, _, hread, _⟩ := rows_of_write_ok hw
        exact (hno hread).elim
      | error e =>
        obtain hsame | ⟨_, _, _, hread⟩ := @rows_of_write cfg clock a s
        · rw [hw] at hsame
          exact ⟨e, s', rfl, hsame⟩
        · exact (hno hread).elim

/-- A refusal written with the outcome ADMIT. -/
def overriddenRefusal : WriteArgs :=
  { sampleWrite with
    op := "gate_refuse"
    commitTerminalOutcome := true
    terminalOutcomeOverride := some "ADMIT" }

theorem isOk_write_overriddenRefusal :
    isOk (Store.write (configOf sampleEnv) sampleClock overriddenRefusal Store.empty).1 = true :=
  (write_isOk_iff rfl).mpr (by decide +kernel)

/-- The store takes it. -/
theorem refusal_stored_as_admit : ∃ row read,
    rows (Store.write (configOf sampleEnv) sampleClock overriddenRefusal Store.empty).2 = [row] ∧
      rowToReceipt sampleEnv row = .ok read ∧ overriddenRefusal.commitsOutcome = true ∧
      read.terminalOutcome = .str "ADMIT" ∧ ¬Ratified overriddenRefusal read := by
  obtain ⟨row, read, hrows, hread⟩ := row_of_isOk isOk_write_overriddenRefusal
  have hcommitted := committed_of_readsAs hread
  have hrequested : (requested overriddenRefusal).1 = "ADMIT" := rfl
  have hrecomputed : (recomputed overriddenRefusal).1 = "REFUSE" := rfl
  have houtcome : read.terminalOutcome = .str "ADMIT" := by
    rw [hcommitted.outcome, if_pos (show overriddenRefusal.commitsOutcome = true from rfl),
      hrequested]
    rfl
  refine ⟨row, read, hrows, hread.reads, rfl, houtcome, fun hr => ?_⟩
  have hne : read.terminalOutcome ≠ .str "DEFER" ∧ read.terminalOutcome ≠ .str "BRIDGE" := by
    rw [houtcome]
    exact ⟨fun h => absurd (PyVal.str.inj h) (by decide),
      fun h => absurd (PyVal.str.inj h) (by decide)⟩
  have hown := (hr.ordinary hne.1 hne.2).1
  rw [houtcome, hrecomputed] at hown
  exact absurd (PyVal.str.inj hown) (by decide)

end Ugk
