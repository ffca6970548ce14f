import Ugk.ForStd.Saga
import Ugk.Spec.EffectRuns
import Ugk.Spec.StructuralLinkage

/-!
# The compensation protocol

The receipts of reversible effects are a log of attempts and offsets, and every operation of the
kernel writes the next entry only where the entries before allow it.  A commit that fails breaks
this: its row is pending, and the retry of a compensation terminal settles the offset a second time.

## Key results

- `orphanForward_isOpen`, `orphanCompensate_isUnsettled`: what the detectors find in the log
- `steady_write`, `steady_loop`: one more receipt, or none
- `compensation_protocol`: what holds of the receipts after every run without a failed commit
- `compensation_terminal_twice`: a run with one
-/

namespace Ugk

open Store

namespace Kernel

variable {rt : Runtime} {env : Env} {cfg : Config} {clock : Clock}

/-! ## Receipts as entries of a log -/

/-- The receipt is of this phase of a reversible effect. -/
abbrev inReversible (phase : String) (r : Receipt) : Bool := inPhase "external_reversible" [phase] r

/-- What a receipt of a phase says, under its root and its columns. -/
def phaseEntry (root : PyVal) (column : Marker → PyVal) : String → Option (Saga.Entry PyVal PyVal)
  | "prepare" => some (.attempt root (column .idempotencyKey))
  | "commit" => some (.close true (column .prepareRef) (column .idempotencyKey))
  | "abort" => some (.close false (column .prepareRef) (column .idempotencyKey))
  | "compensate" => some (.offset (column .compensateRef) (column .idempotencyKey)
      (column .compensationIdempotencyKey))
  | "compensated" => some (.settle true (column .compensateRef) (column .idempotencyKey)
      (column .compensationIdempotencyKey))
  | "compensation_failed" => some (.settle false (column .compensateRef) (column .idempotencyKey)
      (column .compensationIdempotencyKey))
  | _ => none

/-- The entry of a receipt; one that is not of a phase of a reversible effect has none. -/
def sagaEntry (r : Receipt) : Option (Saga.Entry PyVal PyVal) :=
  if (effectParam r .effectAtomicity).isStr "external_reversible" then
    match effectParam r .phase with
    | .str phase => phaseEntry (.str r.hR) (effectParam r) phase
    | _ => none
  else none

/-- The log of the receipts. -/
def entries (rs : List Receipt) : List (Saga.Entry PyVal PyVal) := rs.filterMap sagaEntry

theorem inReversible_iff {phase : String} {r : Receipt} : inReversible phase r = true ↔
    effectParam r .effectAtomicity = .str "external_reversible" ∧
      effectParam r .phase = .str phase := by
  simp [inReversible, inPhase, isStr_iff]

theorem sagaEntry_of_phase {phase : String} {r : Receipt} (h : inReversible phase r = true) :
    sagaEntry r = phaseEntry (.str r.hR) (effectParam r) phase := by
  obtain ⟨hclass, hphase⟩ := inReversible_iff.mp h
  unfold sagaEntry
  rw [hclass, hphase]
  rfl

theorem phase_of_sagaEntry {r : Receipt} {e : Saga.Entry PyVal PyVal} (h : sagaEntry r = some e) :
    ∃ phase, inReversible phase r = true ∧ phaseEntry (.str r.hR) (effectParam r) phase = some e := by
  unfold sagaEntry at h
  split at h
  · rename_i hclass
    split at h
    · rename_i phase hphase
      exact ⟨phase, inReversible_iff.mpr ⟨isStr_iff.mp hclass, hphase⟩, h⟩
    · exact nomatch h
  · exact nomatch h

theorem mem_entries {rs : List Receipt} {e : Saga.Entry PyVal PyVal} :
    e ∈ entries rs ↔ ∃ r ∈ rs, ∃ phase, inReversible phase r = true ∧
      phaseEntry (.str r.hR) (effectParam r) phase = some e := by
  unfold entries
  rw [List.mem_filterMap]
  constructor
  · rintro ⟨r, hr, hentry⟩
    exact ⟨r, hr, phase_of_sagaEntry hentry⟩
  · rintro ⟨r, hr, phase, hphase, hentry⟩
    exact ⟨r, hr, (sagaEntry_of_phase hphase).trans hentry⟩

theorem entries_append (rs rs' : List Receipt) : entries (rs ++ rs') = entries rs ++ entries rs' :=
  List.filterMap_append

theorem attempt_mem_entries {rs : List Receipt} {ref key : PyVal} :
    .attempt ref key ∈ entries rs ↔ ∃ r ∈ rs, inReversible "prepare" r = true ∧ .str r.hR = ref ∧
      effectParam r .idempotencyKey = key := by
  rw [mem_entries]
  constructor
  · rintro ⟨r, hr, phase, hphase, hentry⟩
    unfold phaseEntry at hentry
    split at hentry <;> cases hentry
    exact ⟨r, hr, hphase, rfl, rfl⟩
  · rintro ⟨r, hr, hphase, rfl, rfl⟩
    exact ⟨r, hr, _, hphase, rfl⟩

/-- The phase of the terminal of an attempt. -/
def closePhase (performed : Bool) : String := if performed then "commit" else "abort"

theorem close_mem_entries {rs : List Receipt} {performed : Bool} {ref key : PyVal} :
    .close performed ref key ∈ entries rs ↔ ∃ r ∈ rs, inReversible (closePhase performed) r = true ∧
      effectParam r .prepareRef = ref ∧ effectParam r .idempotencyKey = key := by
  rw [mem_entries]
  constructor
  · rintro ⟨r, hr, phase, hphase, hentry⟩
    unfold phaseEntry at hentry
    split at hentry <;> cases hentry
    · exact ⟨r, hr, hphase, rfl, rfl⟩
    · exact ⟨r, hr, hphase, rfl, rfl⟩
  · rintro ⟨r, hr, hphase, rfl, rfl⟩
    refine ⟨r, hr, _, hphase, ?_⟩
    cases performed <;> rfl

theorem offset_mem_entries {rs : List Receipt} {ref key own : PyVal} :
    .offset ref key own ∈ entries rs ↔ ∃ r ∈ rs, inReversible "compensate" r = true ∧
      effectParam r .compensateRef = ref ∧ effectParam r .idempotencyKey = key ∧
      effectParam r .compensationIdempotencyKey = own := by
  rw [mem_entries]
  constructor
  · rintro ⟨r, hr, phase, hphase, hentry⟩
    unfold phaseEntry at hentry
    split at hentry <;> cases hentry
    exact ⟨r, hr, hphase, rfl, rfl, rfl⟩
  · rintro ⟨r, hr, hphase, rfl, rfl, rfl⟩
    exact ⟨r, hr, _, hphase, rfl⟩

/-- The phase of the terminal of an offset. -/
def settlePhase (performed : Bool) : String :=
  if performed then "compensated" else "compensation_failed"

theorem settle_mem_entries {rs : List Receipt} {performed : Bool} {ref key own : PyVal} :
    .settle performed ref key own ∈ entries rs ↔
      ∃ r ∈ rs, inReversible (settlePhase performed) r = true ∧
        effectParam r .compensateRef = ref ∧ effectParam r .idempotencyKey = key ∧
        effectParam r .compensationIdempotencyKey = own := by
  rw [mem_entries]
  constructor
  · rintro ⟨r, hr, phase, hphase, hentry⟩
    unfold phaseEntry at hentry
    split at hentry <;> cases hentry
    · exact ⟨r, hr, hphase, rfl, rfl, rfl⟩
    · exact ⟨r, hr, hphase, rfl, rfl, rfl⟩
  · rintro ⟨r, hr, hphase, rfl, rfl, rfl⟩
    refine ⟨r, hr, _, hphase, ?_⟩
    cases performed <;> rfl

/-! ## What the receipts of a kernel keep -/

/-- The receipts have text in their effect columns, phases belong to reversible effects, and every
    entry was allowed by the ones before it. -/
structure Orderly (rs : List Receipt) : Prop where
  text : ∀ r ∈ rs, ∀ m, IsText (effectParam r m)
  phased : ∀ r ∈ rs, effectParam r .phase ≠ .none →
    effectParam r .effectAtomicity = .str "external_reversible"
  lawful : Saga.Lawful (entries rs)

theorem orderly_nil : Orderly [] :=
  ⟨fun _ h => absurd h List.not_mem_nil, fun _ h => absurd h List.not_mem_nil, Stepwise.nil⟩

/-- One more receipt, with an entry that is allowed or none. -/
theorem Orderly.concat {rs : List Receipt} (h : Orderly rs) {r : Receipt}
    (htext : ∀ m, IsText (effectParam r m))
    (hphased : effectParam r .phase ≠ .none →
      effectParam r .effectAtomicity = .str "external_reversible")
    (hentry : ∀ e, sagaEntry r = some e → Saga.Allowed (entries rs) e) : Orderly (rs ++ [r]) where
  text := by
    intro r' hr'
    rcases List.mem_append.mp hr' with hold | hnew
    · exact h.text r' hold
    · rw [List.mem_singleton.mp hnew]
      exact htext
  phased := by
    intro r' hr'
    rcases List.mem_append.mp hr' with hold | hnew
    · exact h.phased r' hold
    · rw [List.mem_singleton.mp hnew]
      exact hphased
  lawful := by
    rw [entries_append]
    cases hr : sagaEntry r with
    | none =>
      have hnil : entries [r] = [] := by
        unfold entries
        rw [List.filterMap_cons_none hr, List.filterMap_nil]
      rw [hnil, List.append_nil]
      exact h.lawful
    | some e =>
      have hone : entries [r] = [e] := by
        unfold entries
        rw [List.filterMap_cons_some hr, List.filterMap_nil]
      rw [hone]
      exact stepwise_concat.mpr ⟨h.lawful, hentry e hr⟩

/-! ## Detectors -/

theorem pyEq_self_of_isText {v : PyVal} (h : IsText v) : pyEq env v v = true := by
  cases v with
  | none => rfl
  | str s => exact beq_self_eq_true s
  | _ => exact absurd h id

theorem mem_sortOrphans {α : Type} {key : α → PyVal} {orphans : List α} {o : α} :
    o ∈ sortOrphans env key orphans ↔ o ∈ orphans := List.mem_insertionSort _

theorem mem_orphans {arc : Arc} {rs : List Receipt} {r : Receipt} :
    r ∈ arc.orphans env rs ↔ r ∈ rs ∧ arc.opens r = true ∧
      ∀ t ∈ rs, arc.isTerminal t = true → arc.names env t (arc.attempt r) = false := by
  unfold Arc.orphans Arc.resolved
  rw [List.mem_filter, Bool.and_eq_true, Bool.not_eq_true', List.any_eq_false]
  simp

/-- The forward detector finds an attempt that is open. -/
theorem orphanForward_isOpen {rs : List Receipt} (h : Orderly rs) {ref op : String} {key : PyVal}
    (hfound : orphanForward env rs ref = some (op, key)) :
    .attempt (.str ref) key ∈ entries rs ∧ Saga.IsOpen (entries rs) (.str ref) ∧ IsText key := by
  obtain ⟨o, ho, hkey⟩ := Option.map_eq_some_iff.mp hfound
  have hfirst := List.find?_some ho
  have href : o.prepareRef = ref := beq_iff_eq.mp hfirst
  have hmem := List.mem_of_find?_eq_some ho
  unfold detectOrphanForwards at hmem
  obtain ⟨r, hr, rfl⟩ := List.mem_map.mp (mem_sortOrphans.mp hmem)
  obtain ⟨hrs, hopens, hnone⟩ := mem_orphans.mp hr
  obtain rfl : effectParam r .idempotencyKey = key := (Prod.mk.inj hkey).2
  obtain rfl : r.hR = ref := href
  have htext := h.text r hrs .idempotencyKey
  have hattempt := attempt_mem_entries.mpr ⟨r, hrs, hopens, rfl, rfl⟩
  refine ⟨hattempt, h.lawful.isOpen_of_key hattempt fun p hclose => ?_, htext⟩
  -- a terminal under the key and the root would have closed it for the detector
  obtain ⟨t, ht, hphase, href, hkey⟩ := close_mem_entries.mp hclose
  have hterminal : reversibleForward.isTerminal t = true := by
    obtain ⟨hclass, hph⟩ := inReversible_iff.mp hphase
    cases p <;> simp [Arc.isTerminal, reversibleForward, irreversible, inPhase, hclass, hph,
      PyVal.isStr, closePhase]
  have hnames : reversibleForward.names env t (reversibleForward.attempt r) = true := by
    show (pyEq env (effectParam t .idempotencyKey) (effectParam r .idempotencyKey) &&
      pyEq env (effectParam t .prepareRef) (.str r.hR)) = true
    rw [hkey, href, pyEq_self_of_isText htext, pyEq_self_of_isText (isText_str r.hR)]
    rfl
  exact absurd (hnames.symm.trans (hnone t ht hterminal)) (by decide)

/-- The compensation detector finds an offset that is not settled. -/
theorem orphanCompensate_isUnsettled {rs : List Receipt} (h : Orderly rs) {ref : String}
    {o : OrphanCompensate} (hfound : orphanCompensate env rs ref = some o) :
    ∃ key, .offset (.str ref) key o.compensationIdempotencyKey ∈ entries rs ∧
      Saga.IsUnsettled (entries rs) (.str ref) ∧ IsText key ∧ IsText o.compensationIdempotencyKey ∧
      forwardKeyOf env rs o ref = key := by
  have hfirst := List.find?_some hfound
  have href : o.compensateRef = .str ref := isStr_iff.mp hfirst
  have hmem := List.mem_of_find?_eq_some hfound
  unfold detectOrphanCompensates at hmem
  obtain ⟨r, hr, rfl⟩ := List.mem_map.mp (mem_sortOrphans.mp hmem)
  obtain ⟨hrs, hopens, hnone⟩ := mem_orphans.mp hr
  have href' : effectParam r .compensateRef = .str ref := href
  have hown := h.text r hrs .compensationIdempotencyKey
  have hoffset := offset_mem_entries.mpr ⟨r, hrs, hopens, href', rfl, rfl⟩
  refine ⟨_, hoffset, fun p k own hsettle => ?_, h.text r hrs .idempotencyKey, hown, ?_⟩
  · -- a terminal of the offset carries its keys, and would have settled it for the detector
    obtain ⟨-, hsame⟩ := h.lawful.offset_keys hoffset (h.lawful.offset_of_settle hsettle)
    obtain ⟨t, ht, hphase, htref, -, htown⟩ := settle_mem_entries.mp hsettle
    have hterminal : reversibleCompensation.isTerminal t = true := by
      obtain ⟨hclass, hph⟩ := inReversible_iff.mp hphase
      cases p <;> simp [Arc.isTerminal, reversibleCompensation, inPhase, hclass, hph, PyVal.isStr,
        settlePhase]
    have hnames :
        reversibleCompensation.names env t (reversibleCompensation.attempt r) = true := by
      show (pyEq env (effectParam t .compensateRef) (effectParam r .compensateRef) &&
        pyEq env (effectParam t .compensationIdempotencyKey)
          (effectParam r .compensationIdempotencyKey)) = true
      rw [htref, htown, href', ← hsame, pyEq_self_of_isText (isText_str ref),
        pyEq_self_of_isText hown]
      rfl
    exact absurd (hnames.symm.trans (hnone t ht hterminal)) (by decide)
  · -- the COMPENSATE that is found has the one entry of the reference
    unfold forwardKeyOf
    cases hfind : rs.find? fun r' => (effectParam r' .phase).isStr "compensate" &&
        (effectParam r' .compensateRef).isStr ref &&
        pyEq env (effectParam r' .compensationIdempotencyKey)
          (describeCompensate r).compensationIdempotencyKey with
    | none =>
      obtain ⟨-, hph⟩ := inReversible_iff.mp hopens
      refine absurd ?_ (List.find?_eq_none.mp hfind r hrs)
      rw [Bool.and_eq_true, Bool.and_eq_true, isStr_iff, isStr_iff]
      exact ⟨⟨hph, href'⟩, pyEq_self_of_isText hown⟩
    | some r' =>
      have hfirst' := List.find?_some hfind
      rw [Bool.and_eq_true, Bool.and_eq_true, isStr_iff, isStr_iff] at hfirst'
      obtain ⟨⟨hph, htref⟩, -⟩ := hfirst'
      have hrs' := List.mem_of_find?_eq_some hfind
      have hclass := h.phased r' hrs' (by rw [hph]; exact fun h => (by cases h))
      have hoffset' := offset_mem_entries.mpr
        ⟨r', hrs', inReversible_iff.mpr ⟨hclass, hph⟩, htref, rfl, rfl⟩
      exact (h.lawful.offset_keys hoffset' hoffset).1

/-- What may be compensated is a closed attempt without an offset. -/
theorem findCommittedForward_close {rs : List Receipt} {ref op : String} {key : PyVal}
    (hfound : findCommittedForward rs ref = some (op, key)) :
    .close true (.str ref) key ∈ entries rs ∧ ∀ k own, .offset (.str ref) k own ∉ entries rs := by
  unfold findCommittedForward at hfound
  dsimp only at hfound
  split at hfound
  · exact nomatch hfound
  · rename_i hno
    rw [Bool.or_eq_true, not_or] at hno
    obtain ⟨r, hr, hkey⟩ := Option.map_eq_some_iff.mp hfound
    have hcommit := List.find?_some hr
    rw [Bool.and_eq_true, isStr_iff] at hcommit
    have hmem := List.mem_reverse.mp (List.mem_of_find?_eq_some hr)
    refine ⟨close_mem_entries.mpr
      ⟨r, hmem, hcommit.1, hcommit.2, (Prod.mk.inj hkey).2⟩, fun k own hoffset => hno.2 ?_⟩
    obtain ⟨r', hr', hphase, href, -⟩ := offset_mem_entries.mp hoffset
    rw [List.any_eq_true]
    exact ⟨r', hr', Bool.and_eq_true_iff.mpr ⟨hphase, isStr_iff.mpr href⟩⟩

/-- A committed attempt that was neither closed otherwise nor offset may be compensated. -/
theorem findCommittedForward_of_close {rs : List Receipt} {ref : String} {key : PyVal}
    (hclose : .close true (.str ref) key ∈ entries rs)
    (hopen : ∀ k, .close false (.str ref) k ∉ entries rs)
    (hnone : ∀ k own, .offset (.str ref) k own ∉ entries rs) :
    ∃ op key, findCommittedForward rs ref = some (op, key) := by
  unfold findCommittedForward
  dsimp only
  split
  · rename_i hfound
    rcases Bool.or_eq_true_iff.mp hfound with habort | hoffset
    · obtain ⟨r, hr, hp⟩ := List.any_eq_true.mp habort
      rw [Bool.and_eq_true, isStr_iff] at hp
      have hmem : .close false (.str ref) (effectParam r .idempotencyKey) ∈ entries rs :=
        close_mem_entries.mpr ⟨r, hr, hp.1, hp.2, rfl⟩
      exact absurd hmem (hopen _)
    · obtain ⟨r, hr, hp⟩ := List.any_eq_true.mp hoffset
      rw [Bool.and_eq_true, isStr_iff] at hp
      exact absurd (offset_mem_entries.mpr ⟨r, hr, hp.1, hp.2, rfl, rfl⟩) (hnone _ _)
  · obtain ⟨r, hr, hphase, href, -⟩ := close_mem_entries.mp hclose
    cases hfind : rs.reverse.find? fun r =>
        inPhase reversibleForward.atomicity ["commit"] r && (effectParam r .prepareRef).isStr ref with
    | some r' => exact ⟨_, _, rfl⟩
    | none =>
      have hno := List.find?_eq_none.mp hfind r (List.mem_reverse.mpr hr)
      exact absurd (Bool.and_eq_true_iff.mpr ⟨hphase, isStr_iff.mpr href⟩) hno

/-! ## Stores on which no commit fails -/

/-- No commit of a run of writes at depth 0 meets a failure: each INSERT that goes through is
    followed by a commit that does. -/
def commitsHold : List Bool → Bool
  | true :: fs => commitsHold fs
  | false :: true :: _ => false
  | false :: false :: fs => commitsHold fs
  | _ => true

theorem commitsHold_drop {fs : List Bool} (hhead : fs.head? ≠ some true)
    (htail : fs.tail.head? ≠ some true) (h : commitsHold fs = true) :
    commitsHold (fs.drop 2) = true := by
  match fs, h with
  | [], _ => rfl
  | [_], _ => rfl
  | true :: _ :: _, _ => exact absurd rfl hhead
  | false :: true :: _, _ => exact absurd rfl htail
  | false :: false :: _, h => exact h

/-- A store outside every transaction whose rows are an honest chain up to its tip, and read back as
    these receipts. -/
structure Steady (cfg : Config) (s : StoreState) (rs : List Receipt) : Prop where
  depth : s.txnDepth = 0
  commits : commitsHold s.faults = true
  chain : HonestChain cfg.toEnv (rows s)
  tip : s.tip.priorHR = Chain.tip Row.hR genesis (rows s)
  reads : allReceipts cfg.toEnv (rows s) = .ok rs

/-- No root comes twice. -/
theorem Steady.nodup {s : StoreState} {rs : List Receipt}
    (hinj : Function.Injective cfg.sha256) (hhash : ∀ m, (cfg.sha256 m).hex ≠ genesis)
    (h : Steady cfg s rs) : (rs.map Receipt.hR).Nodup := by
  have hroots : rs.map Receipt.hR = (rows s).map Row.hR := by
    rw [← List.forall₂_eq_eq_eq, List.forall₂_map_left_iff, List.forall₂_map_right_iff]
    exact (hashes_of_allReceipts h.reads).imp fun _ _ => And.left
  rw [hroots]
  exact nodup_roots hinj h.chain fun row hrow => hR_ne_genesis hhash (h.chain.written row hrow)

/-- A write raises and leaves the receipts alone, or returns one more. -/
theorem steady_write {s : StoreState} {rs : List Receipt} (h : Steady cfg s rs) {a : WriteArgs}
    (hp : NoMarkers a.parameters) :
    (∃ e s', Store.write cfg clock a s = (.error e, s') ∧ Steady cfg s' rs) ∨
    ∃ receipt s' row read, Store.write cfg clock a s = (.ok receipt, s') ∧ Asked a row read ∧
      row.hR = receipt.hR ∧ Steady cfg s' (rs ++ [read]) := by
  cases hacc : accepted cfg (ensureDefaultEdgeFor cfg s.built a.authority) a with
  | false =>
    obtain ⟨e, s', hw, htables, htip, hdepth, hfaults, -⟩ := write_rejected clock hacc
    refine .inl ⟨e, s', hw, hdepth.trans h.depth, hfaults ▸ h.commits, ?_, ?_, ?_⟩
    · exact htables.rows_eq ▸ h.chain
    · exact htip ▸ htables.rows_eq ▸ h.tip
    · exact htables.rows_eq ▸ h.reads
  | true =>
    rcases write_accepted clock h.depth hacc with
      ⟨fs, s', hfaults, hw, htables, htip, hdepth, hfs, -⟩ | ⟨fs, s', row, hfaults, -⟩ |
      ⟨receipt, s', row, read, hhead, htail, hw, hrows, -, hdepth, hread, hroot, hparent, -, htip⟩
    · -- the INSERT failed
      have hcommits := h.commits
      rw [hfaults] at hcommits
      refine .inl ⟨locked, s', hw, hdepth, hfs ▸ hcommits, ?_, ?_, ?_⟩
      · exact htables.rows_eq ▸ h.chain
      · exact htip ▸ htables.rows_eq ▸ h.tip
      · exact htables.rows_eq ▸ h.reads
    · -- a commit failed
      have hcommits := h.commits
      rw [hfaults] at hcommits
      exact nomatch hcommits
    · obtain ⟨row', read', hrows', hreads, -, -⟩ := rows_of_write_ok hw
      obtain rfl : row' = row := by
        simpa using List.append_cancel_left (hrows'.symm.trans hrows)
      have hfaults : s'.faults = s.faults.drop 2 := by
        rw [(write_after hw).2.2, statements, if_pos h.depth]
      refine .inr ⟨receipt, s', row', read', hw, asked_of_readsAs hreads hp, hroot, hdepth, ?_, ?_,
        ?_, ?_⟩
      · rw [hfaults]
        exact commitsHold_drop hhead htail h.commits
      · rw [hrows]
        refine ⟨fun row hrow => ?_, ?_⟩
        · rcases List.mem_append.mp hrow with hold | hnew
          · exact h.chain.written row hold
          · rw [List.mem_singleton.mp hnew]
            refine ⟨cfg, a, rfl, clock, s, ?_⟩
            rw [hw]
            exact hrows
        · rw [Chain.linked_concat]
          exact ⟨h.chain.linked, hparent.trans h.tip⟩
      · rw [hrows, Chain.tip_concat]
        exact htip
      · rw [hrows, allReceipts_append _ hreads.reads, h.reads]
        rfl

/-- The loop of a terminal raises and leaves the receipts alone, or returns one more. -/
theorem steady_loop (phase ref : String) {a : WriteArgs} (hp : NoMarkers a.parameters) (n : Nat)
    {s : StoreState} {rs : List Receipt} (h : Steady cfg s rs) :
    (∃ e s', terminalLoop cfg clock phase ref a n s = (.error e, s') ∧ Steady cfg s' rs) ∨
    ∃ receipt s' row read, terminalLoop cfg clock phase ref a n s = (.ok receipt, s') ∧
      Asked a row read ∧ Steady cfg s' (rs ++ [read]) := by
  induction n generalizing s with
  | zero => exact .inl ⟨_, s, rfl, h⟩
  | succ n ih =>
    rw [terminalLoop_succ]
    rcases @steady_write cfg clock s rs h a hp with
      ⟨e, s', hw, hs'⟩ | ⟨receipt, s', row, read, hw, hasked, -, hs'⟩
    · rw [hw]
      dsimp only
      split
      · exact ih hs'
      · exact .inl ⟨e, s', rfl, hs'⟩
    · rw [hw]
      exact .inr ⟨receipt, s', row, read, rfl, hasked, hs'⟩

/-! ## Steps -/

/-- A step adds receipts to the orderly ones of a steady store.  Inside an effect it settles nothing
    that was begun outside. -/
def Extends (cfg : Config) (inside : Bool) (s s' : StoreState) : Prop :=
  ∀ rs, Steady cfg s rs → Orderly rs → ∃ new, Steady cfg s' (rs ++ new) ∧ Orderly (rs ++ new) ∧
    (inside = true → Saga.Contained (entries new))

variable {inside : Bool}

theorem extends_refl (s : StoreState) : Extends cfg inside s s := by
  intro rs hs ho
  refine ⟨[], ?_, ?_, fun _ => Saga.contained_nil⟩
  · rw [List.append_nil]
    exact hs
  · rw [List.append_nil]
    exact ho

theorem extends_trans {s s' s'' : StoreState} (h : Extends cfg inside s s')
    (h' : Extends cfg inside s' s'') : Extends cfg inside s s'' := by
  intro rs hs ho
  obtain ⟨new, hs', ho', hnew⟩ := h rs hs ho
  obtain ⟨new', hs'', ho'', hnew'⟩ := h' _ hs' ho'
  refine ⟨new ++ new', ?_, ?_, fun hin => ?_⟩
  · rw [← List.append_assoc]
    exact hs''
  · rw [← List.append_assoc]
    exact ho''
  · rw [entries_append]
    exact (hnew hin).append (hnew' hin)

/-- What stands on its own may stand anywhere. -/
theorem Extends.anywhere {s s' : StoreState} (h : Extends cfg true s s') :
    Extends cfg inside s s' := by
  intro rs hs ho
  obtain ⟨new, hs', ho', hnew⟩ := h rs hs ho
  exact ⟨new, hs', ho', fun _ => hnew rfl⟩

/-! ## Receipts of one write -/

/-- A receipt that asked for no phase has no entry. -/
theorem sagaEntry_of_plain {a : WriteArgs} {row : Row} {read : Receipt} (h : Asked a row read)
    (hphase : asked a .phase = .none) : sagaEntry read = none := by
  unfold sagaEntry
  rw [h.param .phase, hphase]
  split <;> rfl

theorem entries_singleton {r : Receipt} : entries [r] = (sagaEntry r).toList := by
  unfold entries
  cases hr : sagaEntry r with
  | none =>
    rw [List.filterMap_cons_none hr]
    rfl
  | some e =>
    rw [List.filterMap_cons_some hr]
    rfl

theorem Orderly.plain {rs : List Receipt} (h : Orderly rs) {a : WriteArgs} {row : Row}
    {read : Receipt} (hasked : Asked a row read) (hphase : asked a .phase = .none) :
    Orderly (rs ++ [read]) := by
  refine h.concat (fun m => ?_) (fun hne => ?_) fun e he => ?_
  · rw [hasked.param m]
    exact isText_asked a m
  · rw [hasked.param .phase] at hne
    exact absurd hphase hne
  · rw [sagaEntry_of_plain hasked hphase] at he
    exact nomatch he

/-- The entry of a phase receipt of a reversible effect. -/
theorem sagaEntry_of_asked {k : Kernel} {t : Trail} {p : Phase} {row : Row} {read : Receipt}
    (h : Asked (phaseArgs k .reversible t p) row read) : sagaEntry read =
      phaseEntry (.str row.hR) (fun m => .ofOpt (phaseColumns .reversible t p m)) p.phase := by
  have hcolumns : effectParam read = fun m => .ofOpt (phaseColumns .reversible t p m) :=
    funext h.param
  have hphase : inReversible p.phase read = true :=
    inReversible_iff.mpr ⟨h.param .effectAtomicity, h.param .phase⟩
  rw [sagaEntry_of_phase hphase, hcolumns, h.hR]

theorem Orderly.phase {rs : List Receipt} (h : Orderly rs) {k : Kernel} {t : Trail} {p : Phase}
    {row : Row} {read : Receipt} (hasked : Asked (phaseArgs k .reversible t p) row read)
    (hentry : ∀ e, sagaEntry read = some e → Saga.Allowed (entries rs) e) :
    Orderly (rs ++ [read]) := by
  refine h.concat (fun m => ?_) (fun _ => hasked.param .effectAtomicity) hentry
  rw [hasked.param m]
  exact isText_asked _ m

/-- A write without a phase. -/
theorem extends_write {a : WriteArgs} (hp : NoMarkers a.parameters)
    (hphase : asked a .phase = .none) (s : StoreState) :
    Extends cfg inside s (Store.write cfg clock a s).2 := by
  intro rs hs ho
  rcases @steady_write cfg clock s rs hs a hp with
    ⟨e, s', hw, hs'⟩ | ⟨receipt, s', row, read, hw, hasked, -, hs'⟩
  · rw [hw]
    exact extends_refl s' rs hs' ho
  · rw [hw]
    refine ⟨[read], hs', ho.plain hasked hphase, fun _ => ?_⟩
    rw [entries_singleton, sagaEntry_of_plain hasked hphase]
    exact Saga.contained_nil

theorem extends_rejected {w w' : World} (h : Rejected rt w w') :
    Extends rt.toConfig inside w.store w'.store := by
  rcases h.store with hsame | ⟨a, hnote, hwrite⟩
  · rw [hsame]
    exact extends_refl _
  · rw [hwrite]
    refine extends_write hnote.unmarked ?_ _
    unfold asked
    rw [hnote.columns]

/-- A phase receipt is written, or the call raises. -/
theorem steady_emitPhase {pr : Protocol} {t : Trail} {p : Phase} {w : World} {rs : List Receipt}
    (h : Steady rt.toConfig w.store rs) (hp : NoMarkers (.dict t.baseParams)) :
    (∃ e w', emitPhase rt pr t p w = (.error e, w') ∧ Steady rt.toConfig w'.store rs) ∨
    ∃ receipt w' row read, emitPhase rt pr t p w = (.ok receipt, w') ∧
      Asked (phaseArgs w.kernel pr t p) row read ∧ row.hR = receipt.hR ∧
      Steady rt.toConfig w'.store (rs ++ [read]) := by
  rw [emitPhase_apply]
  unfold onStore
  rw [Proc.zoom_apply]
  rcases @steady_write rt.toConfig rt.clock w.store rs h (phaseArgs w.kernel pr t p) hp with
    ⟨e, s', hw, hs'⟩ | ⟨receipt, s', row, read, hw, hasked, hroot, hs'⟩
  · rw [hw]
    exact .inl ⟨e, _, rfl, hs'⟩
  · rw [hw]
    exact .inr ⟨receipt, _, row, read, rfl, hasked, hroot, hs'⟩

/-- A durable terminal is written, or not. -/
theorem steady_terminal {pr : Protocol} {t : Trail} {p : Phase} {w : World} {rs : List Receipt}
    (h : Steady rt.toConfig w.store rs) (hp : NoMarkers (.dict t.baseParams)) :
    Steady rt.toConfig (terminalDurable rt pr t p w).2.store rs ∨
    ∃ row read, Asked (phaseArgs w.kernel pr t p) row read ∧
      Steady rt.toConfig (terminalDurable rt pr t p w).2.store (rs ++ [read]) := by
  rcases terminalDurable_cases rt pr t p w with ⟨-, e, hraise⟩ | ⟨-, ref, hloop⟩
  · rw [hraise]
    exact .inl h
  · rw [hloop]
    unfold onStore
    rw [Proc.zoom_apply]
    rcases @steady_loop rt.toConfig rt.clock p.phase ref (phaseArgs w.kernel pr t p) hp
        maxOutcomeWriteAttempts w.store rs h with
      ⟨e, s', hrun, hs'⟩ | ⟨receipt, s', row, read, hrun, hasked, hs'⟩
    · rw [hrun]
      exact .inl hs'
    · rw [hrun]
      exact .inr ⟨row, read, hasked, hs'⟩

/-! ## Operations -/

/-- The relation of the stores of two worlds. -/
abbrev Kept (rt : Runtime) (inside : Bool) (w w' : World) : Prop :=
  Extends rt.toConfig inside w.store w'.store

/-- Text that went through a column is what it was. -/
theorem ofOpt_str? {v : PyVal} (h : IsText v) : .ofOpt v.str? = v := by
  cases v with
  | none => rfl
  | str s => rfl
  | _ => exact absurd h id

/-- The columns a phase receipt asks for. -/
abbrev phaseColumn (t : Trail) (p : Phase) (m : Marker) : PyVal :=
  .ofOpt (phaseColumns .reversible t p m)

/-- The entry of a terminal of an attempt. -/
theorem phaseEntry_forwardTerminal {t : Trail} {p : Phase} {ref : String}
    (h : ForwardTerminal ref p) : ∃ performed, ∀ root,
      phaseEntry root (phaseColumn t p) p.phase =
        some (.close performed (.str ref) (.ofOpt t.idempotencyKey)) := by
  have href : phaseColumn t p .prepareRef = .str ref := congrArg PyVal.ofOpt h.prepareRef
  rcases h.outcome with ⟨hphase, -⟩ | ⟨hphase, -⟩
  · refine ⟨true, fun root => ?_⟩
    rw [hphase, ← href]
    rfl
  · refine ⟨false, fun root => ?_⟩
    rw [hphase, ← href]
    rfl

/-- The entry of a terminal of an offset. -/
theorem phaseEntry_offsetTerminal {t : Trail} {p : Phase} {ref : String} {key : Option String}
    (h : OffsetTerminal ref key p) : ∃ performed, ∀ root,
      phaseEntry root (phaseColumn t p) p.phase =
        some (.settle performed (.str ref) (.ofOpt t.idempotencyKey) (.ofOpt key)) := by
  have href : phaseColumn t p .compensateRef = .str ref := congrArg PyVal.ofOpt h.compensateRef
  have hown : phaseColumn t p .compensationIdempotencyKey = .ofOpt key :=
    congrArg PyVal.ofOpt h.compensationKey
  rcases h.outcome with ⟨hphase, -⟩ | ⟨hphase, -⟩
  · refine ⟨true, fun root => ?_⟩
    rw [hphase, ← href, ← hown]
    rfl
  · refine ⟨false, fun root => ?_⟩
    rw [hphase, ← href, ← hown]
    rfl

/-- A terminal whose entry is allowed. -/
theorem orderly_terminal {t : Trail} (hp : NoMarkers (.dict t.baseParams)) {p : Phase} {w : World}
    {rs : List Receipt} {e : Saga.Entry PyVal PyVal} (hs : Steady rt.toConfig w.store rs)
    (ho : Orderly rs) (hentry : ∀ root, phaseEntry root (phaseColumn t p) p.phase = some e)
    (hallowed : Saga.Allowed (entries rs) e) :
    ∃ new, Steady rt.toConfig (terminalDurable rt .reversible t p w).2.store (rs ++ new) ∧
      Orderly (rs ++ new) ∧ (entries new = [] ∨ entries new = [e]) := by
  rcases @steady_terminal rt .reversible t p w rs hs hp with hs' | ⟨row, read, hasked, hs'⟩
  · refine ⟨[], ?_, ?_, .inl rfl⟩
    · rw [List.append_nil]
      exact hs'
    · rw [List.append_nil]
      exact ho
  · have hread := (sagaEntry_of_asked hasked).trans (hentry _)
    refine ⟨[read], hs', ho.phase hasked fun e' he' => ?_, .inr ?_⟩
    · rw [hread] at he'
      rw [← Option.some.inj he']
      exact hallowed
    · rw [entries_singleton, hread]
      rfl

/-- An announcement, an effect that stands on its own, and its terminal stand on their own. -/
theorem orderly_bracket {t : Trail} (hp : NoMarkers (.dict t.baseParams)) {p : Phase}
    {effect : Proc World Exc PyVal} (heffect : Proc.Steps (Kept rt true) effect) {w : World}
    {rs : List Receipt} {read : Receipt} {first last : Saga.Entry PyVal PyVal}
    (hs : Steady rt.toConfig w.store (rs ++ [read])) (ho : Orderly (rs ++ [read]))
    (hfirst : sagaEntry read = some first)
    (hlast : ∀ root, phaseEntry root (phaseColumn t p) p.phase = some last)
    (hclose : ∀ mid, Saga.Lawful (entries rs ++ first :: mid) → Saga.Contained mid →
      Saga.Allowed (entries rs ++ first :: mid) last ∧ Saga.Contained (first :: mid) ∧
        Saga.Contained (first :: mid ++ [last])) :
    ∃ new, Steady rt.toConfig (terminalDurable rt .reversible t p (effect w).2).2.store (rs ++ new) ∧
      Orderly (rs ++ new) ∧ Saga.Contained (entries new) := by
  obtain ⟨mid, hs₁, ho₁, hmid⟩ := heffect w _ hs ho
  have hentries : entries (rs ++ [read] ++ mid) = entries rs ++ first :: entries mid := by
    rw [entries_append, entries_append, entries_singleton, hfirst, List.append_assoc]
    rfl
  have hlawful := ho₁.lawful
  rw [hentries] at hlawful
  obtain ⟨hallowed, hopen, hclosed⟩ := hclose _ hlawful (hmid rfl)
  rw [← hentries] at hallowed
  obtain ⟨new, hs₂, ho₂, hnew⟩ := orderly_terminal hp hs₁ ho₁ hlast hallowed
  refine ⟨[read] ++ mid ++ new, ?_, ?_, ?_⟩
  · rw [← List.append_assoc, ← List.append_assoc]
    exact hs₂
  · rw [← List.append_assoc, ← List.append_assoc]
    exact ho₂
  · rw [entries_append, entries_append, entries_singleton, hfirst]
    rcases hnew with hnew | hnew
    · rw [hnew, List.append_nil]
      exact hopen
    · rw [hnew]
      exact hclosed

section Operations

variable (hinj : Function.Injective rt.sha256) (hhash : ∀ m, (rt.sha256 m).hex ≠ genesis)

include hinj hhash

/-- The root of a PREPARE is a new one. -/
theorem allowed_prepare {rs : List Receipt} {s : StoreState} {read : Receipt} {key : PyVal}
    (h : Steady rt.toConfig s (rs ++ [read])) :
    Saga.Allowed (entries rs) (.attempt (.str read.hR) key) := by
  intro k hmem
  obtain ⟨r, hr, -, hroot, -⟩ := attempt_mem_entries.mp hmem
  have hnodup := h.nodup hinj hhash
  rw [List.map_append, List.nodup_append] at hnodup
  exact hnodup.2.2 r.hR (List.mem_map_of_mem hr) read.hR (by simp) (PyVal.str.inj hroot)

/-- PREPARE, the effect and its terminal stand on their own. -/
theorem extends_executeExternal {t : Trail} (hp : NoMarkers (.dict t.baseParams))
    {effect : Proc World Exc PyVal} (heffect : Proc.Steps (Kept rt true) effect)
    (admitRef : String) :
    Proc.Steps (Kept rt true) (executeExternal rt .reversible t admitRef effect) := by
  intro w rs hs ho
  rcases @executeExternal_ends rt w t .reversible admitRef effect with
    ⟨e, herror, hend⟩ | ⟨prepare, w₁, hemit, hend⟩
  · rw [hend]
    rcases @steady_emitPhase rt .reversible t (preparePhase admitRef) w rs hs hp with
      ⟨e', w', hrun, hs'⟩ | ⟨prepare, w', _, _, hrun, -⟩
    · rw [hrun]
      exact extends_refl _ rs hs' ho
    · rw [hrun] at herror
      exact nomatch herror
  · rcases @steady_emitPhase rt .reversible t (preparePhase admitRef) w rs hs hp with
      ⟨e', w', hrun, -⟩ | ⟨prepare', w', row, read, hrun, hasked, hroot, hs₁⟩
    · exact nomatch hrun.symm.trans hemit
    · rw [hemit] at hrun
      obtain ⟨hprepare, rfl⟩ := Prod.mk.inj hrun
      obtain rfl := Except.ok.inj hprepare
      have hread : read.hR = prepare.hR := hasked.hR.trans hroot
      have hfirst : sagaEntry read =
          some (.attempt (.str prepare.hR) (.ofOpt t.idempotencyKey)) := by
        rw [sagaEntry_of_asked hasked, hroot]
        rfl
      have ho₁ : Orderly (rs ++ [read]) := by
        refine ho.phase hasked fun e he => ?_
        rw [hfirst] at he
        rw [← Option.some.inj he, ← hread]
        exact allowed_prepare hinj hhash hs₁
      rcases hend with hend | ⟨p, hterminal, hend⟩
      · rw [hend]
        obtain ⟨mid, hs₂, ho₂, hmid⟩ := heffect w₁ _ hs₁ ho₁
        refine ⟨[read] ++ mid, ?_, ?_, fun _ => ?_⟩
        · rw [← List.append_assoc]
          exact hs₂
        · rw [← List.append_assoc]
          exact ho₂
        · rw [entries_append, entries_singleton, hfirst]
          exact (Saga.contained_announce (.inl ⟨_, _, rfl⟩)).append (hmid rfl)
      · rw [hend]
        obtain ⟨performed, hlast⟩ := @phaseEntry_forwardTerminal t p _ hterminal
        obtain ⟨new, hs₂, ho₂, hnew⟩ := orderly_bracket hp heffect hs₁ ho₁ hfirst hlast
          fun mid hlawful hmid => ⟨(hlawful.close_after hmid).1,
            (Saga.contained_announce (.inl ⟨_, _, rfl⟩)).append hmid,
            (hlawful.close_after hmid).2⟩
        exact ⟨new, hs₂, ho₂, fun _ => hnew⟩

/-- A call of `execute` for a reversible effect, whose gate and effect are themselves steps. -/
theorem extends_execute {a : ExecuteArgs} (hclass : a.effectAtomicity = some .externalReversible)
    (hp : NoMarkers a.parameters)
    (hgate : ∀ gate, a.gate = some gate → Proc.Steps (Kept rt inside) gate)
    (heffect : ∀ effect, a.effect = some effect → Proc.Steps (Kept rt true) effect) :
    Proc.Steps (Kept rt inside) (execute rt a) := by
  intro w
  have hgate' : Kept rt inside w (runGate a w).2 := by
    unfold runGate
    cases hg : a.gate with
    | none => exact extends_refl _
    | some gate => exact hgate gate hg w
  rcases @execute_ends rt w a with
    hrejected | hrejected | ⟨authority, parameters, hpre, hend⟩
  · exact extends_rejected hrejected
  · exact extends_trans hgate' (extends_rejected hrejected)
  · -- the admission has a class at most
    have hadmit : Kept rt inside w (write rt (admitArgs (runGate a w).2.kernel a authority parameters)
        (runGate a w).2).2 := by
      refine extends_trans hgate' (extends_write
        (a := admitArgs (runGate a w).2.kernel a authority parameters)
        (noMarkers_admitArgs _ a authority parameters) ?_ _)
      unfold asked admitArgs effectColumns
      dsimp only
      cases a.effect.isSome with
      | false => rfl
      | true =>
        rw [hclass]
        rfl
    rcases hend with hend | ⟨w₂, adm, hstore, -, houtcome, hend⟩
    · rw [Kept, hend]
      exact hadmit
    · rw [hend]
      have hadmit' : Extends rt.toConfig inside w.store w₂.store := hstore ▸ hadmit
      refine extends_trans hadmit' ?_
      have hparams : NoMarkers (.dict adm.outcomeParams) := by
        rw [houtcome]
        exact noMarkers_outcomeParams (noMarkers_preflight hpre hp)
      cases heff : a.effect with
      | some effect =>
        have hrun : outcome rt a adm =
            executeExternal rt .reversible (externalTrail a adm) adm.admitRef effect := by
          unfold outcome
          rw [heff, hclass]
        rw [hrun]
        exact (extends_executeExternal hinj hhash hparams (heffect effect heff) adm.admitRef
          w₂).anywhere
      | none =>
        have hrun : (outcome rt a adm w₂).2 = (write rt (successArgs w₂.kernel a adm) w₂).2 := by
          unfold outcome executeLegacy
          rw [heff]
          dsimp only
          rw [Proc.bind_of_ok (Proc.get_apply _)]
          exact Proc.bind_snd (fun _ _ => rfl) w₂
        rw [hrun]
        refine extends_write hparams ?_ _
        unfold asked successArgs effectColumns
        rw [heff]
        rfl

omit hinj hhash

/-- A compensation stands on its own. -/
theorem extends_compensate {a : CompensateArgs}
    (heffect : ∀ effect, a.compensationEffect = some effect → Proc.Steps (Kept rt true) effect) :
    Proc.Steps (Kept rt true) (compensateExternalReversible rt a) := by
  intro w rs hs ho
  rcases @compensate_ends rt w a with ⟨e, -, hend⟩ | ⟨c, hcheck, hend⟩
  · rw [hend]
    exact extends_refl _ rs hs ho
  · obtain ⟨hcall, receipts, hread, hfound, hne⟩ := checkCompensation_ok hcheck
    obtain rfl : receipts = rs := Except.ok.inj (hread.symm.trans hs.reads)
    obtain ⟨hcommitted, hnone⟩ := findCommittedForward_close hfound
    have hp : NoMarkers (.dict (compensationTrail a c).baseParams) :=
      @noMarkers_of_names [("compensates_prepare_ref", .str c.prepareRef)]
        (show Unmarked ["compensates_prepare_ref"] by decide)
    -- the keys of a committed attempt are text
    have hkey : PyVal.ofOpt (compensationTrail a c).idempotencyKey = c.fwdKey := by
      obtain ⟨r, hr, -, -, hkey⟩ := close_mem_entries.mp hcommitted
      exact ofOpt_str? (hkey ▸ ho.text r hr .idempotencyKey)
    have hallowed : Saga.Allowed (entries receipts)
        (.offset (.str c.prepareRef) c.fwdKey (.str c.compensationIdempotencyKey)) :=
      ⟨hcommitted, fun heq => hne heq.symm, hnone⟩
    rcases hend with ⟨e, herror, hend⟩ | ⟨receipt, w₁, hemit, p, hterminal, hend⟩
    · rw [hend]
      rcases @steady_emitPhase rt .reversible (compensationTrail a c)
          (compensationPhase c "compensate") w receipts hs hp with
        ⟨e', w', hrun, hs'⟩ | ⟨receipt, w', _, _, hrun, -⟩
      · have hrun' : emitReversible rt (compensationTrail a c) (compensationPhase c "compensate") w =
          (.error e', w') := hrun
        rw [hrun']
        exact extends_refl _ receipts hs' ho
      · exact nomatch (congrArg Prod.fst hrun).symm.trans herror
    · rw [hend]
      rcases @steady_emitPhase rt .reversible (compensationTrail a c)
          (compensationPhase c "compensate") w receipts hs hp with
        ⟨e', w', hrun, -⟩ | ⟨receipt', w', row, read, hrun, hasked, -, hs₁⟩
      · exact nomatch hrun.symm.trans hemit
      · obtain ⟨-, rfl⟩ := Prod.mk.inj (hrun.symm.trans hemit)
        have hfirst : sagaEntry read = some (.offset (.str c.prepareRef) c.fwdKey
            (.str c.compensationIdempotencyKey)) := by
          rw [sagaEntry_of_asked hasked, ← hkey]
          rfl
        have ho₁ : Orderly (receipts ++ [read]) := by
          refine ho.phase hasked fun e he => ?_
          rw [hfirst] at he
          rw [← Option.some.inj he]
          exact hallowed
        obtain ⟨performed, hlast⟩ := @phaseEntry_offsetTerminal (compensationTrail a c) p _ _ hterminal
        rw [hkey] at hlast
        obtain ⟨new, hs₂, ho₂, hnew⟩ := orderly_bracket hp (heffect c.effect hcall) hs₁ ho₁ hfirst
          hlast fun mid hlawful hmid => ⟨(hlawful.settle_after hmid).1,
            (Saga.contained_announce (.inr ⟨_, _, _, rfl⟩)).append hmid,
            (hlawful.settle_after hmid).2⟩
        exact ⟨new, hs₂, ho₂, fun _ => hnew⟩

/-- A reconciliation closes an open attempt, or changes nothing. -/
theorem extends_reconcileForward (a : ReconcileArgs) :
    Proc.Steps (Kept rt false) (reconcileExternalReversibleForward rt a) := by
  intro w rs hs ho
  rcases @reconcileForward_ends rt w .reversible (some "forward") (orphanForward rt.toEnv) a with
    hsame | ⟨receipts, ref, op, key, t, p, hread, hfound, hkey, hp, hterminal, hend⟩
  · have hsame' : (reconcileExternalReversibleForward rt a w).2 = w := hsame
    rw [hsame']
    exact extends_refl _ rs hs ho
  · obtain rfl : receipts = rs := Except.ok.inj (hread.symm.trans hs.reads)
    obtain ⟨hattempt, hopen, htext⟩ := orphanForward_isOpen ho hfound
    obtain ⟨performed, hlast⟩ := @phaseEntry_forwardTerminal t p _ hterminal
    rw [hkey, ofOpt_str? htext] at hlast
    obtain ⟨new, hs', ho', -⟩ := orderly_terminal hp hs ho hlast ⟨hattempt, hopen⟩
    have hend' : (reconcileExternalReversibleForward rt a w).2 =
      (terminalDurable rt .reversible t p w).2 := hend
    rw [hend']
    exact ⟨new, hs', ho', fun h => nomatch h⟩

/-- A reconciliation settles an unsettled offset, or changes nothing. -/
theorem extends_reconcileCompensation (a : ReconcileArgs) :
    Proc.Steps (Kept rt false) (reconcileExternalReversibleCompensation rt a) := by
  intro w rs hs ho
  rcases @reconcileCompensation_ends rt w a with
    hsame | ⟨receipts, ref, o, t, p, hread, hfound, hkey, hp, hterminal, hend⟩
  · rw [hsame]
    exact extends_refl _ rs hs ho
  · obtain rfl : receipts = rs := Except.ok.inj (hread.symm.trans hs.reads)
    obtain ⟨key, hoffset, hopen, htext, hown, hforward⟩ := orphanCompensate_isUnsettled ho hfound
    obtain ⟨performed, hlast⟩ := @phaseEntry_offsetTerminal t p _ _ hterminal
    rw [hkey, hforward, ofOpt_str? htext, ofOpt_str? hown] at hlast
    obtain ⟨new, hs', ho', -⟩ := orderly_terminal hp hs ho hlast ⟨hoffset, hopen⟩
    rw [hend]
    exact ⟨new, hs', ho', fun h => nomatch h⟩

end Operations

/-! ## Runs -/

/-- Runs of calls for reversible effects, compensations and reconciliations, in any order, which may
    look at the world, raise, and catch what a call raised.  Gates, effects and compensations are such
    runs themselves; `inside` an effect that is still open nothing is reconciled. -/
inductive SagaProgram (rt : Runtime) : Bool → ∀ {α : Type}, Proc World Exc α → Prop
  | ret {inside : Bool} {α : Type} (a : α) : SagaProgram rt inside (Proc.ret a)
  | raise {inside : Bool} {α : Type} (e : Exc) :
      SagaProgram rt inside (Proc.raise e : Proc World Exc α)
  | look {inside : Bool} : SagaProgram rt inside Proc.get
  | bind {inside : Bool} {α β : Type} {m : Proc World Exc α} {f : α → Proc World Exc β}
      (hm : SagaProgram rt inside m) (hf : ∀ a, SagaProgram rt inside (f a)) :
      SagaProgram rt inside (m >>= f)
  | attempt {inside : Bool} {α : Type} {m : Proc World Exc α} (hm : SagaProgram rt inside m) :
      SagaProgram rt inside (Proc.attempt m)
  | execute {inside : Bool} (a : ExecuteArgs)
      (hclass : a.effectAtomicity = some .externalReversible) (hp : NoMarkers a.parameters)
      (hgate : ∀ gate, a.gate = some gate → SagaProgram rt inside gate)
      (heffect : ∀ effect, a.effect = some effect → SagaProgram rt true effect) :
      SagaProgram rt inside (execute rt a)
  | compensate {inside : Bool} (a : CompensateArgs)
      (heffect : ∀ effect, a.compensationEffect = some effect → SagaProgram rt true effect) :
      SagaProgram rt inside (compensateExternalReversible rt a)
  | reconcileForward (a : ReconcileArgs) :
      SagaProgram rt false (reconcileExternalReversibleForward rt a)
  | reconcileCompensation (a : ReconcileArgs) :
      SagaProgram rt false (reconcileExternalReversibleCompensation rt a)

/-- What every step keeps, every run keeps. -/
theorem kept_of_program (hinj : Function.Injective rt.sha256)
    (hhash : ∀ m, (rt.sha256 m).hex ≠ genesis) {α : Type} {m : Proc World Exc α}
    (hm : SagaProgram rt inside m) : Proc.Steps (Kept rt inside) m := by
  induction hm with
  | ret a => exact Proc.Steps.ret (fun w => extends_refl w.store) a
  | raise e => exact Proc.Steps.raise (fun w => extends_refl w.store) e
  | look => exact Proc.Steps.get fun w => extends_refl w.store
  | bind _ _ ihm ihf => exact Proc.Steps.bind (R := Kept rt _) extends_trans ihm ihf
  | attempt _ ih => exact ih.attempt
  | execute a hclass hp _ _ ihgate iheffect =>
    exact extends_execute hinj hhash hclass hp ihgate iheffect
  | compensate a _ iheffect => exact fun w => (extends_compensate iheffect w).anywhere
  | reconcileForward a => exact extends_reconcileForward a
  | reconcileCompensation a => exact extends_reconcileCompensation a

/-! ## What the receipts say -/

/-- A COMPENSATE of the PREPARE with this root. -/
def compensates (ref : String) (r : Receipt) : Bool :=
  inReversible "compensate" r && (effectParam r .compensateRef).isStr ref

/-- A terminal of a compensation. -/
def compensationTerminated (r : Receipt) : Bool :=
  inReversible "compensated" r || inReversible "compensation_failed" r

/-- A terminal of the compensation of the PREPARE with this root. -/
def settles (ref : String) (r : Receipt) : Bool :=
  compensationTerminated r && (effectParam r .compensateRef).isStr ref

/-- The safety of the compensation protocol. -/
structure CompensationSafe (rs : List Receipt) : Prop where
  /-- a reference is to one receipt -/
  roots : (rs.map Receipt.hR).Nodup
  /-- a COMPENSATE comes after a COMMIT of the PREPARE it references, which is never aborted, and has
      a key of its own -/
  committed : ∀ pre r post, rs = pre ++ r :: post → inReversible "compensate" r = true →
    ∃ prepare ∈ pre, ∃ commit ∈ pre, inReversible "prepare" prepare = true ∧
      effectParam r .compensateRef = .str prepare.hR ∧ inReversible "commit" commit = true ∧
      effectParam commit .prepareRef = .str prepare.hR ∧
      effectParam r .idempotencyKey = effectParam prepare .idempotencyKey ∧
      effectParam r .compensationIdempotencyKey ≠ effectParam prepare .idempotencyKey ∧
      ∀ abort ∈ rs, inReversible "abort" abort = true →
        effectParam abort .prepareRef ≠ .str prepare.hR
  once : ∀ ref, rs.countP (compensates ref) ≤ 1
  settledOnce : ∀ ref, rs.countP (settles ref) ≤ 1
  /-- a terminal comes after the COMPENSATE whose keys it carries -/
  settled : ∀ pre t post, rs = pre ++ t :: post → compensationTerminated t = true →
    ∃ c ∈ pre, inReversible "compensate" c = true ∧
      effectParam t .compensateRef = effectParam c .compensateRef ∧
      effectParam t .idempotencyKey = effectParam c .idempotencyKey ∧
      effectParam t .compensationIdempotencyKey = effectParam c .compensationIdempotencyKey

theorem sagaEntry_compensate {r : Receipt} (h : inReversible "compensate" r = true) :
    sagaEntry r = some (.offset (effectParam r .compensateRef) (effectParam r .idempotencyKey)
      (effectParam r .compensationIdempotencyKey)) := sagaEntry_of_phase h

theorem sagaEntry_terminated {r : Receipt} (h : compensationTerminated r = true) :
    ∃ performed, sagaEntry r = some (.settle performed (effectParam r .compensateRef)
      (effectParam r .idempotencyKey) (effectParam r .compensationIdempotencyKey)) := by
  rcases Bool.or_eq_true_iff.mp h with h | h
  · exact ⟨true, sagaEntry_of_phase h⟩
  · exact ⟨false, sagaEntry_of_phase h⟩

/-- An orderly log of distinct receipts is safe. -/
theorem Orderly.safe {rs : List Receipt} (h : Orderly rs) (hroots : (rs.map Receipt.hR).Nodup) :
    CompensationSafe rs where
  roots := hroots
  committed := by
    intro pre r post hsplit hr
    have hlog : entries rs = entries pre ++ .offset (effectParam r .compensateRef)
        (effectParam r .idempotencyKey) (effectParam r .compensationIdempotencyKey) ::
          entries post := by
      rw [hsplit, entries_append]
      unfold entries
      rw [List.filterMap_cons_some (sagaEntry_compensate hr)]
    obtain ⟨hattempt, hclose, hne, hnone⟩ := h.lawful.offset_spec hlog
    obtain ⟨prepare, hprepare, hphase, href, hkey⟩ := attempt_mem_entries.mp hattempt
    obtain ⟨commit, hcommit, hphase', href', -⟩ := close_mem_entries.mp hclose
    refine ⟨prepare, hprepare, commit, hcommit, hphase, href.symm, hphase', href'.trans href.symm,
      hkey.symm, hkey ▸ hne, fun abort habort hphase'' heq => ?_⟩
    refine hnone (effectParam abort .idempotencyKey) (close_mem_entries.mpr
      ⟨abort, habort, hphase'', heq.trans href, rfl⟩)
  once := by
    intro ref
    refine countP_le_one ((stepwise_filterMap.mp h.lawful).mono fun pre r hr hp b hb => ?_)
    rw [compensates, Bool.and_eq_true, isStr_iff] at hp
    rw [Bool.eq_false_iff]
    intro hb'
    rw [compensates, Bool.and_eq_true, isStr_iff] at hb'
    have hallowed := hr _ (sagaEntry_compensate hp.1)
    refine hallowed.2.2 _ _ (offset_mem_entries.mpr ⟨b, hb, hb'.1, ?_, rfl, rfl⟩)
    rw [hb'.2, hp.2]
  settledOnce := by
    intro ref
    refine countP_le_one ((stepwise_filterMap.mp h.lawful).mono fun pre r hr hp b hb => ?_)
    rw [settles, Bool.and_eq_true, isStr_iff] at hp
    rw [Bool.eq_false_iff]
    intro hb'
    rw [settles, Bool.and_eq_true, isStr_iff] at hb'
    obtain ⟨performed, hentry⟩ := sagaEntry_terminated hp.1
    obtain ⟨performed', hentry'⟩ := sagaEntry_terminated hb'.1
    have hallowed := hr _ hentry
    rw [hp.2] at hallowed
    rw [hb'.2] at hentry'
    exact hallowed.2 _ _ _ (List.mem_filterMap.mpr ⟨b, hb, hentry'⟩)
  settled := by
    intro pre t post hsplit ht
    obtain ⟨performed, hentry⟩ := sagaEntry_terminated ht
    have hallowed := stepwise_filterMap.mp h.lawful pre t post hsplit _ hentry
    obtain ⟨c, hc, hphase, href, hkey, hown⟩ := offset_mem_entries.mp hallowed.1
    exact ⟨c, hc, hphase, href.symm, hkey.symm, hown.symm⟩

/-- A composed key is never the key it was composed from. -/
theorem composeCompensationKey_ne (key phase : String) :
    composeCompensationKey key phase ≠ key := by
  intro h
  have hlength := congrArg String.length h
  rw [composeCompensationKey, String.length_append, String.length_append] at hlength
  have hcolons : "::".length = 2 := rfl
  omega

/-- Which callable a compensation has does not matter to its checks. -/
theorem checkCompensation_withEffect {rows : List Row} {a : CompensateArgs}
    (h : a.compensationEffect.isSome = true) (effect : Proc World Exc PyVal) :
    checkCompensation env rows { a with compensationEffect := some effect } =
      (checkCompensation env rows a).map fun c => { c with effect := effect } := by
  obtain ⟨effect', heffect⟩ := Option.isSome_iff_exists.mp h
  unfold checkCompensation
  rw [heffect]
  dsimp only
  cases nonBlank env a.authority (.compensationRefused "authority-required") with
  | error e => rfl
  | ok authority =>
    cases nonBlank env a.compensationIdempotencyKey
        (.compensationRefused "compensation-key-required") with
    | error e => rfl
    | ok key =>
      cases nonEmpty a.prepareRef (.compensationRefused "prepare_ref-required") with
      | error e => rfl
      | ok prepareRef =>
        cases hread : allReceipts env rows with
        | error e => rfl
        | ok receipts =>
          dsimp only [bind, Except.bind]
          cases findCommittedForward receipts prepareRef with
          | none => rfl
          | some x =>
            dsimp only
            split <;> rfl

/-- After every run on a new store on which no commit fails the compensation protocol is safe; a
    compensation that is refused has done nothing, its action included. -/
theorem compensation_protocol (hinj : Function.Injective rt.sha256)
    (hhash : ∀ m, (rt.sha256 m).hex ≠ genesis) :
    (∀ {α : Type} {m : Proc World Exc α} {w : World} {faults : List Bool},
      SagaProgram rt false m → w.store = { faults := faults } → commitsHold faults = true →
        ∃ rs, allReceipts rt.toEnv (rows (m w).2.store) = .ok rs ∧ CompensationSafe rs) ∧
    (∀ a w e, checkCompensation rt.toEnv (rows w.store) a = .error e →
      compensateExternalReversible rt a w = (.error e, w) ∧
      ∀ effect, a.compensationEffect.isSome = true →
        compensateExternalReversible rt { a with compensationEffect := some effect } w =
          (.error e, w)) ∧
    ∀ key phase, composeCompensationKey key phase ≠ key := by
  refine ⟨fun {α m w faults} hm hstore hcommits => ?_, fun a w e hcheck => ?_,
    composeCompensationKey_ne⟩
  · have hsteady : Steady rt.toConfig w.store [] := by
      rw [hstore]
      exact ⟨rfl, hcommits, ⟨fun _ h => absurd h List.not_mem_nil, trivial⟩, rfl, rfl⟩
    obtain ⟨new, hs, ho, -⟩ := kept_of_program hinj hhash hm w [] hsteady orderly_nil
    exact ⟨[] ++ new, hs.reads, ho.safe (hs.nodup hinj hhash)⟩
  · have hrefused (b : CompensateArgs)
        (hb : checkCompensation rt.toEnv (rows w.store) b = .error e) :
        compensateExternalReversible rt b w = (.error e, w) := by
      rcases @compensate_ends rt w b with ⟨e', he', hend⟩ | ⟨c, hc, -⟩
      · rw [hend, Except.error.inj (he'.symm.trans hb)]
      · exact nomatch hb.symm.trans hc
    refine ⟨hrefused a hcheck, fun effect heffect => hrefused _ ?_⟩
    rw [checkCompensation_withEffect heffect effect, hcheck]
    rfl

/-! ## An offset that is settled twice -/

/-- A forward effect that is performed. -/
def sampleForward : ExecuteArgs where
  op := "attest"
  effect := some (Proc.ret .none)
  effectAtomicity := some .externalReversible
  idempotencyKey := .str "order"

/-- Its compensation, which is performed too. -/
def sampleOffset (root : String) : CompensateArgs where
  prepareRef := .str root
  compensationEffect := some (Proc.ret .none)
  compensationIdempotencyKey := .str (composeCompensationKey "order")
  authority := .str "system"

/-- The compensation of the PREPARE in the second row. -/
def sampleCompensate : Proc World Exc PyVal := do
  let w ← Proc.get
  compensateExternalReversible sampleRuntime
    (sampleOffset (((rows w.store)[1]?.map Row.hR).getD ""))

def sampleSaga : Proc World Exc PyVal := do
  let _ ← execute sampleRuntime sampleForward
  sampleCompensate

theorem sagaProgram_sampleSaga : SagaProgram sampleRuntime false sampleSaga := by
  refine .bind (.execute sampleForward rfl (fun d hd => nomatch hd) (fun g hg => nomatch hg) ?_)
    fun _ => .bind .look fun w => .compensate _ ?_
  · intro effect heffect
    obtain rfl := Option.some.inj heffect
    exact .ret _
  · intro effect heffect
    obtain rfl := Option.some.inj heffect
    exact .ret _

/-- An active kernel whose new store meets these failures. -/
def sagaWorld (faults : List Bool) : World :=
  { kernel := { active := true }, store := { faults := faults } }

/-- A run without failures is safe. -/
theorem compensation_protocol_sampleSaga :
    ∃ rs, allReceipts sampleEnv (rows (sampleSaga (sagaWorld [])).2.store) = .ok rs ∧
      CompensationSafe rs :=
  (@compensation_protocol sampleRuntime sampleHash_injective
    (fun m => sampleHash_hex_ne m (by decide))).1 sagaProgram_sampleSaga rfl rfl

/-- A store at depth 0 with these rows and failures. -/
structure Stands (s : StoreState) (before : List Row) (faults : List Bool) : Prop where
  depth : s.txnDepth = 0
  rows : Store.rows s = before
  faults : s.faults = faults

/-- The sample deployment accepts phase receipts of any authority. -/
theorem accepted_samplePhase (k : Kernel) (t : Trail) (p : Phase) (s : StoreState)
    {kvs : List (String × PyVal)} (hbase : .dict t.baseParams = strDict kvs)
    (hunmarked : Unmarked (kvs.map Prod.fst))
    (hreserved : ∀ name ∈ reservedNames, name ∉ kvs.map Prod.fst)
    (hplain : PlainNames (kvs.map Prod.fst)) (hvalues : ∀ kv ∈ kvs, Writable sampleEnv kv.2)
    (hphase : p.phase ∈ effectPhaseDomain) :
    accepted sampleRuntime.toConfig (ensureDefaultEdgeFor sampleRuntime.toConfig s.built t.authority)
      (phaseArgs k .reversible t p) = true :=
  accepted_phaseArgs hbase hunmarked hreserved (writable_strDict hplain hvalues) hphase
    (isOk_path_of_no_edges rfl _ _)

/-- An accepted write that meets no failure. -/
theorem Stands.write {s : StoreState} {before : List Row} {fs : List Bool} {a : WriteArgs}
    (h : Stands s before (false :: false :: fs)) (hp : NoMarkers a.parameters)
    (hacc : accepted cfg (ensureDefaultEdgeFor cfg s.built a.authority) a = true) :
    ∃ receipt s' row read, Store.write cfg clock a s = (.ok receipt, s') ∧
      Stands s' (before ++ [row]) fs ∧ rowToReceipt cfg.toEnv row = .ok read ∧ Asked a row read ∧
      row.hR = receipt.hR ∧ row.hR ≠ "" := by
  have hquiet : Quiet (statements s) s := by
    unfold Quiet statements
    rw [if_pos h.depth, h.faults]
    simp
  obtain ⟨receipt, s', hw⟩ := (@write_returns_iff cfg clock a s).mpr ⟨hacc, hquiet⟩
  obtain ⟨row, read, hrows, hreads, hroot, hdepth⟩ := rows_of_write_ok hw
  refine ⟨receipt, s', row, read, hw, ⟨hdepth.trans h.depth, hrows.trans (by rw [h.rows]), ?_⟩,
    hreads.reads, asked_of_readsAs hreads hp, hroot, ?_⟩
  · rw [(write_after hw).2.2, statements, if_pos h.depth, h.faults]
    rfl
  · have hwritten : Written cfg.toEnv row := by
      refine ⟨cfg, a, rfl, clock, s, ?_⟩
      rw [hw]
      exact hrows
    obtain ⟨r, hr, hne⟩ := reads_of_written hwritten
    rw [← (hashes_of_rowToReceipt hr).1]
    exact hne

theorem emitPhase_of_write {pr : Protocol} {t : Trail} {p : Phase} {w : World} {receipt : Receipt}
    {s : StoreState} (h : Store.write rt.toConfig rt.clock (phaseArgs w.kernel pr t p) w.store =
      (.ok receipt, s)) : emitPhase rt pr t p w = (.ok receipt, { w with store := s }) := by
  rw [emitPhase_apply, onStore, Proc.zoom_apply, h]

/-- A terminal whose first write goes through. -/
theorem terminalDurable_of_write {pr : Protocol} {t : Trail} {p : Phase} {w : World}
    {receipt : Receipt} {s : StoreState} (hp : p.phase ∈ terminalPhases pr)
    (h : Store.write rt.toConfig rt.clock (phaseArgs w.kernel pr t p) w.store = (.ok receipt, s)) :
    terminalDurable rt pr t p w = (.ok receipt, { w with store := s }) := by
  rcases terminalDurable_cases rt pr t p w with ⟨hout, -⟩ | ⟨-, ref, hloop⟩
  · exact absurd hp hout
  · have hrun : terminalLoop rt.toConfig rt.clock p.phase ref (phaseArgs w.kernel pr t p)
        maxOutcomeWriteAttempts w.store = (.ok receipt, s) := by
      rw [maxOutcomeWriteAttempts, terminalLoop_succ, h]
    rw [hloop, onStore, Proc.zoom_apply, hrun]

/-- A terminal whose first commit fails is written twice. -/
theorem terminal_of_failed_commit {pr : Protocol} {t : Trail} {p : Phase} {w : World}
    {before : List Row} (hp : p.phase ∈ terminalPhases pr) (hparams : NoMarkers (.dict t.baseParams))
    (hs : Stands w.store before [false, true])
    (hacc : ∀ s : StoreState, accepted rt.toConfig (ensureDefaultEdgeFor rt.toConfig s.built t.authority)
      (phaseArgs w.kernel pr t p) = true) :
    ∃ row row' read read', rows (terminalDurable rt pr t p w).2.store = before ++ [row] ++ [row'] ∧
      rowToReceipt rt.toEnv row = .ok read ∧ rowToReceipt rt.toEnv row' = .ok read' ∧
      Asked (phaseArgs w.kernel pr t p) row read ∧ Asked (phaseArgs w.kernel pr t p) row' read' := by
  rcases terminalDurable_cases rt pr t p w with ⟨hout, -⟩ | ⟨-, ref, hloop⟩
  · exact absurd hp hout
  · obtain ⟨s₁, hfirst, hdepth₁, hfaults₁, row, hrows₁⟩ :=
      write_failed_commit rt.clock hs.depth (hacc w.store) hs.faults
    obtain ⟨read, hread⟩ : ∃ read, ReadsAs rt.toConfig (phaseArgs w.kernel pr t p) row read := by
      have hrows := @rows_of_write rt.toConfig rt.clock (phaseArgs w.kernel pr t p) w.store
      rw [hfirst, hrows₁] at hrows
      rcases hrows with hsame | ⟨row', read', hrow, hreads⟩
      · exact absurd hsame (by simp)
      · obtain rfl : row = row' := by simpa using List.append_cancel_left hrow
        exact ⟨read', hreads⟩
    obtain ⟨receipt, s₂, hsecond⟩ := (@write_returns_iff rt.toConfig rt.clock
      (phaseArgs w.kernel pr t p) s₁).mpr ⟨hacc s₁, by
        unfold Quiet
        rw [hfaults₁]
        simp⟩
    obtain ⟨row', read', hrows₂, hread', -, -⟩ := rows_of_write_ok hsecond
    have hrun : terminalLoop rt.toConfig rt.clock p.phase ref (phaseArgs w.kernel pr t p)
        maxOutcomeWriteAttempts w.store = (.ok receipt, s₂) := by
      rw [maxOutcomeWriteAttempts, terminalLoop_succ, hfirst]
      dsimp only
      rw [if_pos isRetryable_locked, terminalLoop_succ, hsecond]
    rw [hloop, onStore, Proc.zoom_apply, hrun]
    refine ⟨row, row', read, read', ?_, hread.reads, hread'.reads, asked_of_readsAs hread hparams,
      asked_of_readsAs hread' hparams⟩
    rw [hrows₂, hrows₁, hs.rows]

/-- The forward effect of the sample run: an admission, a PREPARE and its COMMIT. -/
theorem sampleForward_run (fs : List Bool) :
    ∃ w₁ rs row₀ row₁ row₂, execute sampleRuntime sampleForward
        (sagaWorld (false :: false :: false :: false :: false :: false :: fs)) = (.ok .none, w₁) ∧
      Stands w₁.store [row₀, row₁, row₂] fs ∧ row₁.hR ≠ "" ∧
      allReceipts sampleEnv [row₀, row₁, row₂] = .ok rs ∧
      entries rs = [.attempt (.str row₁.hR) (.str "order"),
        .close true (.str row₁.hR) (.str "order")] := by
  have hpasses : Passes sampleRuntime sampleForward
      (sagaWorld (false :: false :: false :: false :: false :: false :: fs)) "system" [] ""
      (sagaWorld (false :: false :: false :: false :: false :: false :: fs)) := ⟨rfl, rfl, rfl, rfl⟩
  rw [hpasses.execute_eq]
  generalize hw : sagaWorld (false :: false :: false :: false :: false :: false :: fs) = w
  have hs : Stands w.store [] (false :: false :: false :: false :: false :: false :: fs) := by
    rw [← hw]
    exact ⟨rfl, rfl, rfl⟩
  have hnames : PlainNames ["op", "parameters"] ∧
      (∀ name ∈ reservedNames, name ∉ ["op", "parameters"]) ∧ Unmarked ["op", "parameters"] := by
    decide
  have hempty : Writable sampleRuntime.toEnv (strDict []) :=
    writable_strDict (by decide) (fun _ h => nomatch h)
  have hadmit : accepted sampleRuntime.toConfig
      (ensureDefaultEdgeFor sampleRuntime.toConfig w.store.built "system")
      (admitArgs w.kernel sampleForward "system" []) = true :=
    @accepted_typed _ _ _ [("op", .str "attest"), ("parameters", strDict [])]
      ⟨rfl, rfl, rfl, rfl, rfl⟩ rfl hnames.2.2 hnames.2.1
      (writable_strDict hnames.1 (by simp [writable_str, hempty])) _ _ rfl rfl (by decide)
      (fun ph hph => nomatch hph) (isOk_path_of_no_edges rfl _ _)
  obtain ⟨adm, s₁, row₀, r₀, hwrite₀, hs₁, hread₀, hasked₀, -⟩ :=
    @Stands.write sampleRuntime.toConfig sampleRuntime.clock w.store [] _ _ hs
      (noMarkers_admitArgs w.kernel sampleForward "system" []) hadmit
  have hadmission : gateAdmission sampleRuntime sampleForward "system" [] w =
      (.ok adm.hR, { w with store := s₁ }) := by
    have hwrite : write sampleRuntime (admitArgs w.kernel sampleForward "system" []) w =
        (.ok adm, { w with store := s₁ }) := by rw [write_apply, hwrite₀]
    unfold gateAdmission
    rw [Proc.bind_of_ok (Proc.get_apply _), Proc.bind_of_ok hwrite]
    rfl
  -- the trail of the call
  generalize hadm : ({
    authority := "system"
    parameters := []
    outcomeParams := []
    intentRef := ""
    admitRef := adm.hR
    warrantId := "" } : Admission) = admission
  have htrail : (externalTrail sampleForward admission).idempotencyKey = some "order" := by
    rw [← hadm]
    rfl
  have hbase : .dict (externalTrail sampleForward admission).baseParams = strDict [] := by
    rw [← hadm]
    rfl
  have hphase (p : Phase) (s : StoreState) (hp : p.phase ∈ effectPhaseDomain) :=
    accepted_samplePhase w.kernel (externalTrail sampleForward admission) p s hbase
      (by decide) (by decide) (by decide) (fun _ h => nomatch h) hp
  have hparams : NoMarkers (.dict (externalTrail sampleForward admission).baseParams) := by
    rw [hbase]
    exact noMarkers_of_names (by decide)
  obtain ⟨prepare, s₂, row₁, r₁, hwrite₁, hs₂, hread₁, hasked₁, hroot₁, hne₁⟩ :=
    @Stands.write sampleRuntime.toConfig sampleRuntime.clock s₁ _ _ _ hs₁ hparams
      (hphase (preparePhase admission.admitRef) s₁ (show "prepare" ∈ effectPhaseDomain by decide))
  obtain ⟨commit, s₃, row₂, r₂, hwrite₂, hs₃, hread₂, hasked₂, -⟩ :=
    @Stands.write sampleRuntime.toConfig sampleRuntime.clock s₂ _ _ _ hs₂ hparams
      (hphase (commitPhase prepare.hR) s₂ (show "commit" ∈ effectPhaseDomain by decide))
  have hrun : executeExternal sampleRuntime .reversible (externalTrail sampleForward admission)
      admission.admitRef (Proc.ret .none) { w with store := s₁ } = (.ok .none, { w with store := s₃ }) := by
    have hemit : emitPhase sampleRuntime .reversible (externalTrail sampleForward admission)
        (preparePhase admission.admitRef) { w with store := s₁ } = (.ok prepare, { w with store := s₂ }) :=
      emitPhase_of_write hwrite₁
    have hterminal : terminalDurable sampleRuntime .reversible
        (externalTrail sampleForward admission) (commitPhase prepare.hR) { w with store := s₂ } =
          (.ok commit, { w with store := s₃ }) :=
      terminalDurable_of_write (show "commit" ∈ terminalPhases .reversible by decide) hwrite₂
    unfold executeExternal
    rw [Proc.bind_of_ok hemit, Proc.bind_of_ok (Proc.attempt_apply _ _)]
    show (terminalDurable sampleRuntime .reversible (externalTrail sampleForward admission)
      (commitPhase prepare.hR) >>= _) { w with store := s₂ } = _
    rw [Proc.bind_of_ok hterminal]
    rfl
  refine ⟨{ w with store := s₃ }, [r₀, r₁, r₂], row₀, row₁, row₂, ?_, hs₃, hne₁, ?_, ?_⟩
  · unfold admitted
    rw [Proc.bind_of_ok hadmission,
      Proc.bind_of_ok (show materializeWarrant sampleRuntime _ sampleForward
        { w with store := s₁ } = (.ok "", { w with store := s₁ }) from rfl),
      Proc.bind_of_ok (Proc.get_apply _)]
    have hout : outcomeParams w.kernel sampleForward [] = [] := by
      rw [← hw]
      rfl
    show outcome sampleRuntime sampleForward _ _ = _
    rw [hout, hadm]
    exact hrun
  · show List.mapM (rowToReceipt sampleRuntime.toEnv) [row₀, row₁, row₂] = _
    rw [List.mapM_cons, hread₀, List.mapM_cons, hread₁, List.mapM_cons, hread₂]
    rfl
  · have hplain : asked (admitArgs w.kernel sampleForward "system" []) .phase = .none := rfl
    have he₀ : entries [r₀] = [] := by
      rw [entries_singleton, sagaEntry_of_plain hasked₀ hplain]
      rfl
    have he₁ : entries [r₁] = [.attempt (.str row₁.hR) (.str "order")] := by
      rw [entries_singleton, sagaEntry_of_asked hasked₁]
      show [Saga.Entry.attempt _
        (PyVal.ofOpt (externalTrail sampleForward admission).idempotencyKey)] = _
      rw [htrail]
      rfl
    have he₂ : entries [r₂] = [.close true (.str row₁.hR) (.str "order")] := by
      rw [entries_singleton, sagaEntry_of_asked hasked₂, hroot₁]
      show [Saga.Entry.close true (PyVal.str prepare.hR)
        (PyVal.ofOpt (externalTrail sampleForward admission).idempotencyKey)] = _
      rw [htrail]
      rfl
    show entries ([r₀] ++ ([r₁] ++ [r₂])) = _
    rw [entries_append, entries_append, he₀, he₁, he₂]
    rfl

theorem nonBlank_str {s : String} {e : Exc} (h : strip env s ≠ "") :
    nonBlank env (.str s) e = .ok s := if_neg h

/-- The commit of a COMPENSATED fails once: its row is pending, the retry writes another one, and both
    are published. -/
theorem compensation_settled_twice :
    SagaProgram sampleRuntime false sampleSaga ∧
      ∃ rs, allReceipts sampleEnv (rows (sampleSaga (sagaWorld
          [false, false, false, false, false, false, false, false, false, true])).2.store) = .ok rs ∧
        ¬CompensationSafe rs := by
  refine ⟨sagaProgram_sampleSaga, ?_⟩
  obtain ⟨w₁, rs, row₀, row₁, row₂, hforward, hs₁, hne, hread, hentries⟩ :=
    sampleForward_run [false, false, false, true]
  have hrun : sampleSaga (sagaWorld
      [false, false, false, false, false, false, false, false, false, true]) =
        compensateExternalReversible sampleRuntime (sampleOffset row₁.hR) w₁ := by
    have hrow : ((rows w₁.store)[1]?.map Row.hR).getD "" = row₁.hR := by
      rw [hs₁.rows]
      rfl
    unfold sampleSaga sampleCompensate
    rw [Proc.bind_of_ok hforward, Proc.bind_of_ok (Proc.get_apply _), hrow]
  -- the checks pass
  obtain ⟨op, key, hfound⟩ : ∃ op key, findCommittedForward rs row₁.hR = some (op, key) := by
    refine @findCommittedForward_of_close rs row₁.hR (.str "order") ?_ ?_ ?_ <;> simp [hentries]
  obtain rfl : key = .str "order" := by
    have hclose := (findCommittedForward_close hfound).1
    rw [hentries] at hclose
    simpa using hclose
  have hcheck : checkCompensation sampleRuntime.toEnv (rows w₁.store) (sampleOffset row₁.hR) = .ok {
      authority := "system"
      compensationIdempotencyKey := composeCompensationKey "order"
      prepareRef := row₁.hR
      effect := Proc.ret .none
      fwdOp := op
      fwdKey := .str "order" } := by
    have href : nonEmpty (sampleOffset row₁.hR).prepareRef
        (.compensationRefused "prepare_ref-required") = .ok row₁.hR := if_neg hne
    have hread' : allReceipts sampleRuntime.toEnv (rows w₁.store) = .ok rs := by
      rw [hs₁.rows]
      exact hread
    have hauthority : nonBlank sampleRuntime.toEnv (sampleOffset row₁.hR).authority
        (.compensationRefused "authority-required") = .ok "system" :=
      nonBlank_str (show strip sampleEnv "system" ≠ "" by decide +kernel)
    have hkey : nonBlank sampleRuntime.toEnv (sampleOffset row₁.hR).compensationIdempotencyKey
        (.compensationRefused "compensation-key-required") =
          .ok (composeCompensationKey "order") :=
      nonBlank_str (show strip sampleEnv (composeCompensationKey "order") ≠ "" by decide +kernel)
    unfold checkCompensation
    rw [hauthority, hkey, href, hread']
    dsimp only [bind, Except.bind, sampleOffset]
    rw [hfound]
    rfl
  rw [hrun]
  rcases @compensate_ends sampleRuntime w₁ (sampleOffset row₁.hR) with ⟨e, he, -⟩ | ⟨c, hc, hend⟩
  · exact nomatch he.symm.trans hcheck
  · obtain rfl := Except.ok.inj (hc.symm.trans hcheck)
    generalize hcomp : ({
      authority := "system"
      compensationIdempotencyKey := composeCompensationKey "order"
      prepareRef := row₁.hR
      effect := Proc.ret .none
      fwdOp := op
      fwdKey := .str "order" } : Compensation) = c at hend
    have hbase : .dict (compensationTrail (sampleOffset row₁.hR) c).baseParams =
      strDict [("compensates_prepare_ref", .str c.prepareRef)] := rfl
    have hparams : NoMarkers (.dict (compensationTrail (sampleOffset row₁.hR) c).baseParams) := by
      rw [hbase]
      exact noMarkers_of_names (show Unmarked ["compensates_prepare_ref"] by decide)
    have hacc (p : Phase) (s : StoreState) (hp : p.phase ∈ effectPhaseDomain) :=
      accepted_samplePhase w₁.kernel (compensationTrail (sampleOffset row₁.hR) c) p s hbase
        (show Unmarked ["compensates_prepare_ref"] by decide)
        (show ∀ name ∈ reservedNames, name ∉ ["compensates_prepare_ref"] by decide)
        (show PlainNames ["compensates_prepare_ref"] by decide)
        (by simp [writable_str]) hp
    obtain ⟨intent, s₂, row₃, r₃, hwrite₃, hs₂, hread₃, -⟩ :=
      @Stands.write sampleRuntime.toConfig sampleRuntime.clock w₁.store _ _
        (phaseArgs w₁.kernel .reversible (compensationTrail (sampleOffset row₁.hR) c)
          (compensationPhase c "compensate")) hs₁ hparams
        (hacc (compensationPhase c "compensate") w₁.store
          (show "compensate" ∈ effectPhaseDomain by decide))
    have hemit : emitReversible sampleRuntime (compensationTrail (sampleOffset row₁.hR) c)
        (compensationPhase c "compensate") w₁ = (.ok intent, { w₁ with store := s₂ }) :=
      emitPhase_of_write hwrite₃
    rcases hend with ⟨e, he, -⟩ | ⟨receipt, w₂, hemit', p, hterminal, hend⟩
    · rw [hemit] at he
      exact nomatch he
    · obtain ⟨-, rfl⟩ := Prod.mk.inj (hemit.symm.trans hemit')
      have hphase : p.phase ∈ terminalPhases .reversible ∧ p.phase ∈ effectPhaseDomain := by
        rcases hterminal.outcome with ⟨hp, -⟩ | ⟨hp, -⟩
        · rw [hp]
          decide
        · rw [hp]
          decide
      have heffect : c.effect = Proc.ret .none := by
        rw [← hcomp]
      have hstands : Stands (c.effect { w₁ with store := s₂ }).2.store
          ([row₀, row₁, row₂] ++ [row₃]) [false, true] := by
        rw [heffect]
        exact hs₂
      have hkernel : (c.effect { w₁ with store := s₂ }).2.kernel = w₁.kernel := by
        rw [heffect]
        rfl
      obtain ⟨row₄, row₅, r₄, r₅, hrows, hread₄, hread₅, hasked₄, hasked₅⟩ :=
        terminal_of_failed_commit hphase.1 hparams hstands fun s => hkernel ▸ hacc p s hphase.2
      obtain ⟨performed, hentry⟩ := @phaseEntry_offsetTerminal
        (compensationTrail (sampleOffset row₁.hR) c) p _ _ hterminal
      have hrows' : rows (emitReversibleTerminalDurable sampleRuntime
          (compensationTrail (sampleOffset row₁.hR) c) p (c.effect { w₁ with store := s₂ }).2).2.store =
            [row₀, row₁, row₂] ++ [row₃] ++ [row₄] ++ [row₅] := hrows
      rw [hend, hrows']
      refine ⟨rs ++ [r₃] ++ [r₄] ++ [r₅], ?_, fun hsafe => ?_⟩
      · have hread' : allReceipts sampleRuntime.toEnv [row₀, row₁, row₂] = .ok rs := hread
        show allReceipts sampleRuntime.toEnv _ = _
        rw [allReceipts_append _ hread₅, allReceipts_append _ hread₄, allReceipts_append _ hread₃,
          hread']
        rfl
      · -- both rows settle the offset
        have hsettles {row : Row} {r : Receipt} (hasked : Asked (phaseArgs
            (c.effect { w₁ with store := s₂ }).2.kernel .reversible
              (compensationTrail (sampleOffset row₁.hR) c) p) row r) :
            settles c.prepareRef r = true := by
          have hclass : effectParam r .effectAtomicity = .str "external_reversible" :=
            hasked.param .effectAtomicity
          have hphase' : effectParam r .phase = .str p.phase := hasked.param .phase
          have href : effectParam r .compensateRef = .str c.prepareRef :=
            (hasked.param .compensateRef).trans (congrArg PyVal.ofOpt hterminal.compensateRef)
          have hin : inReversible p.phase r = true := inReversible_iff.mpr ⟨hclass, hphase'⟩
          refine Bool.and_eq_true_iff.mpr ⟨?_, isStr_iff.mpr href⟩
          rcases hterminal.outcome with ⟨hp, -⟩ | ⟨hp, -⟩
          · exact Bool.or_eq_true_iff.mpr (.inl (hp ▸ hin))
          · exact Bool.or_eq_true_iff.mpr (.inr (hp ▸ hin))
        have hcount := hsafe.settledOnce c.prepareRef
        rw [List.countP_append, List.countP_append, List.countP_singleton, List.countP_singleton,
          hsettles hasked₄, hsettles hasked₅] at hcount
        simp at hcount

end Kernel

end Ugk
