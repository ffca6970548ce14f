import Ugk.Spec.Prune

/-!
# Closing and reopening the file

A store keeps its chain tip in memory and reads it from the last row when it is constructed.  Between
operations that met no failure the two agree, so reopening changes nothing but what was pending.
Something is pending at depth 0 when an earlier write failed to bind a value: its implicit BEGIN is
still open, and the RELEASE of a block inside it does not commit.

## Key results

- `Sound`, `level_of_program`: what every operation keeps when nothing fails
- `respects_program`: no operation looks at what is durable
- `persistence_invisible`: a run with reopenings at which nothing is pending is the run without them
-/

namespace Ugk

open Store

variable {cfg : Config} {clock : Clock}

/-! ## Operations -/

/-- Bodies of blocks: writes, blocks and prunes in any order, which may look at what a step returned,
    raise, and catch what a step raised. -/
inductive EpochProgram (cfg : Config) (clock : Clock) : ∀ {α : Type}, Proc StoreState Exc α → Prop
  | ret {α : Type} (a : α) : EpochProgram cfg clock (Proc.ret a)
  | raise {α : Type} (e : Exc) : EpochProgram cfg clock (Proc.raise e : Proc StoreState Exc α)
  | bind {α β : Type} {m : Proc StoreState Exc α} {f : α → Proc StoreState Exc β}
      (hm : EpochProgram cfg clock m) (hf : ∀ a, EpochProgram cfg clock (f a)) :
      EpochProgram cfg clock (m >>= f)
  | attempt {α : Type} {m : Proc StoreState Exc α} (hm : EpochProgram cfg clock m) :
      EpochProgram cfg clock (Proc.attempt m)
  | write (a : WriteArgs) : EpochProgram cfg clock (Store.write cfg clock a)
  | block {α : Type} {m : Proc StoreState Exc α} (hm : EpochProgram cfg clock m) :
      EpochProgram cfg clock (Store.block m)
  | prune (sealHash intent description : String) :
      EpochProgram cfg clock (sealAndPruneEpoch cfg clock sealHash intent description)

/-- A top-level operation of the store. -/
inductive StoreOp (cfg : Config) (clock : Clock) where
  | write (a : WriteArgs)
  | block (body : Proc StoreState Exc Unit) (hbody : EpochProgram cfg clock body)
  | prune (sealHash intent description : String)

/-- What an operation returned or raised. -/
inductive StoreOutcome where
  | wrote (result : Except Exc Receipt)
  | left (result : Except Exc Unit)
  | pruned (result : Except Exc PruneReport)

/-- Run an operation. -/
def StoreOp.run : StoreOp cfg clock → StoreState → StoreOutcome × StoreState
  | .write a, s => ((.wrote (Store.write cfg clock a s).1), (Store.write cfg clock a s).2)
  | .block body _, s => (.left (Store.block body s).1, (Store.block body s).2)
  | .prune sealHash intent description, s =>
    (.pruned (sealAndPruneEpoch cfg clock sealHash intent description s).1,
      (sealAndPruneEpoch cfg clock sealHash intent description s).2)

/-- A step of a session: an operation, or the file is closed and opened again. -/
inductive SessionStep (cfg : Config) (clock : Clock) where
  | op (o : StoreOp cfg clock)
  | reopen

/-- The outcomes of a session and the state it ends in. -/
def session : List (SessionStep cfg clock) → StoreState → List StoreOutcome × StoreState
  | [], s => ([], s)
  | .op o :: steps, s =>
    ((o.run s).1 :: (session steps (o.run s).2).1, (session steps (o.run s).2).2)
  | .reopen :: steps, s => session steps (Store.reopen s)

/-- The session without the reopenings. -/
def straight : List (SessionStep cfg clock) → List (SessionStep cfg clock)
  | [] => []
  | .op o :: steps => .op o :: straight steps
  | .reopen :: steps => straight steps

/-- Whenever the file is closed, nothing is pending: the tables of the connection are those on disk. -/
def Flushed : List (SessionStep cfg clock) → StoreState → Prop
  | [], _ => True
  | .op o :: steps, s => Flushed steps (o.run s).2
  | .reopen :: steps, s => s.conn.current = s.conn.durable ∧ Flushed steps (Store.reopen s)

/-! ## Without failures -/

/-- A store on which nothing has failed to execute: every savepoint on the stack belongs to an open
    block. -/
structure Sound (s : StoreState) : Prop where
  faults : s.faults = []
  wellNested : WellNested s
  consistent : Consistent s.conn
  level : s.conn.savepoints.length = s.txnDepth

/-- A store that is still sound, with the same open blocks.  Inside a block no transaction begins. -/
structure Levelled (s s' : StoreState) : Prop where
  sound : Sound s'
  stack : s'.conn.savepoints = s.conn.savepoints
  counter : s.spCounter ≤ s'.spCounter
  begun : s.conn.savepoints ≠ [] → s'.conn.begun = s.conn.begun

/-- A step that leaves a sound store level. -/
def Level (s s' : StoreState) : Prop := Sound s → Levelled s s'

theorem level_refl (s : StoreState) : Level s s := fun h => ⟨h, rfl, le_rfl, fun _ => rfl⟩

theorem level_trans {a b c : StoreState} (hab : Level a b) (hbc : Level b c) : Level a c := by
  intro ha
  have hb := hab ha
  have hc := hbc hb.sound
  refine ⟨hc.sound, hc.stack.trans hb.stack, hb.counter.trans hc.counter, fun hne => ?_⟩
  rw [hc.begun (hb.stack ▸ hne), hb.begun hne]

theorem level_write (a : WriteArgs) : Proc.Steps Level (Store.write cfg clock a) := by
  intro s hs
  have hwell : WellNested (Store.write cfg clock a s).2 := by
    by_cases hdepth : s.txnDepth = 0
    · refine wellNested_write hs.wellNested hdepth a (.inr ?_)
      exact not_faulty_of_nil (congrArg List.tail hs.faults)
    · exact (inBlock_write a s hs.wellNested (Nat.pos_of_ne_zero hdepth)).wellNested
  have hkeeps : Consistent (Store.write cfg clock a s).2.conn := keeps_write a s hs.consistent
  cases hr : resolveWrite cfg.toEnv a with
  | error e =>
    rw [write_of_unresolved hr]
    exact level_refl s hs
  | ok r =>
    cases hp : planned cfg clock a r s with
    | error e =>
      rw [write_of_unplanned hr hp] at hwell hkeeps ⊢
      rcases unplanned_cases cfg clock a r s with hstop | hstop
      · rw [hstop] at hwell hkeeps ⊢
        exact ⟨⟨hs.faults, hwell, hkeeps, hs.level⟩, rfl, le_rfl, fun _ => rfl⟩
      · rw [hstop] at hwell hkeeps ⊢
        refine ⟨⟨hs.faults, hwell, hkeeps, hs.level⟩, rfl, le_rfl, fun hne => ?_⟩
        rw [began_of_nested (s := sampled cfg a s) hne]
        rfl
    | ok x =>
      obtain ⟨receipt, row⟩ := x
      rw [write_of_planned hr hp] at hwell hkeeps ⊢
      have hclear : ¬Faulty (sampled cfg a s) := not_faulty_of_nil hs.faults
      have hclear' : ¬Faulty (inserted row (sampled cfg a s)) :=
        not_faulty_of_nil (congrArg List.tail hs.faults)
      rcases append_cases receipt row (sampled cfg a s) with
        ⟨hf, _⟩ | ⟨_, _, hc, _⟩ | ⟨_, _, happ⟩
      · exact absurd hf hclear
      · exact absurd hc hclear'
      · rw [happ] at hwell hkeeps ⊢
        have hfaults := @faults_appended (sampled cfg a s) receipt row hs.faults
        have hstack : (appended receipt row (sampled cfg a s)).conn.savepoints =
            s.conn.savepoints := by
          rw [appended]
          split
          · -- at depth 0 the stack was empty
            rename_i hzero
            have hlength : s.conn.savepoints.length = 0 := hs.level.trans hzero
            exact (List.length_eq_zero_iff.mp hlength).symm
          · rfl
        have hdepth : (appended receipt row (sampled cfg a s)).txnDepth = s.txnDepth :=
          txnDepth_appended _ _ _
        refine ⟨⟨hfaults, hwell, hkeeps, ?_⟩, hstack, ?_, fun hne => ?_⟩
        · rw [hstack, hdepth]
          exact hs.level
        · rw [appended]
          split <;> exact le_rfl
        · have hdeep : (sampled cfg a s).txnDepth ≠ 0 := fun hzero =>
            hne (List.length_eq_zero_iff.mp (hs.level.trans hzero))
          rw [appended, if_neg hdeep]
          show (s.conn.begun || s.conn.savepoints.isEmpty) = s.conn.begun
          rw [List.isEmpty_eq_false_iff.mpr hne, Bool.or_false]

theorem Sound.opened {s : StoreState} (h : Sound s) : Sound (opened s) :=
  ⟨h.faults, h.wellNested.opened, h.consistent.savepoint s.spCounter, congrArg (· + 1) h.level⟩

/-- The state after a block, by the outcome of its body. -/
def blockEnd (s mid : StoreState) (raised : Bool) : StoreState :=
  if raised then
    { mid with
      tip := s.tip
      txnDepth := mid.txnDepth - 1
      conn := released s.conn.savepoints
        (rolledBack s.spCounter s.conn.current s.conn.savepoints mid.conn) }
  else { mid with txnDepth := mid.txnDepth - 1, conn := released s.conn.savepoints mid.conn }

/-- The exit after an exception, when nothing fails. -/
theorem abortTxn_clear {t : Txn} {saved : Tables} {rest : List (Nat × Tables)} {s : StoreState}
    (h : Holds t.name saved rest s.conn) (hfaults : s.faults = []) :
    abortTxn t s = (.ok (), { s with
      tip := t.tip
      txnDepth := s.txnDepth - 1
      conn := released rest (rolledBack t.name saved rest s.conn) }) := by
  have hrelease := (@Holds.rolledBack t.name saved rest s.conn).release
  simp [abortTxn, leaveTxn, restoreTip, rollbackAndRelease, Store.rollbackTo, Store.release,
    statement, Proc.bind_apply, h.rollbackTo, hrelease, hfaults]

/-- Without a failure a block has the outcome of its body. -/
theorem block_clear {α : Type} {body : Proc StoreState Exc α} {s mid : StoreState}
    {result : Except Exc α} (h : body (opened s) = (result, mid)) (hfaults : mid.faults = [])
    (hstack : mid.conn.savepoints = (opened s).conn.savepoints) :
    block body s = (result, blockEnd s mid (!isOk result)) := by
  have hholds : Holds s.spCounter s.conn.current s.conn.savepoints mid.conn :=
    ⟨[], hstack, by simp⟩
  cases result with
  | ok a =>
    have hpass : passFault mid = mid := by
      rw [passFault, hfaults, List.tail_nil, ← hfaults]
    rw [block_of_ok h]
    rcases @commitTxn_apply ⟨s.spCounter, s.tip⟩ _ _ mid hholds with ⟨_, hcommit⟩ | ⟨hf, _⟩
    · rw [hpass] at hcommit
      exact Proc.bind_of_ok hcommit
    · exact absurd hf (not_faulty_of_nil hfaults)
  | error e =>
    rw [block_of_error h]
    exact Proc.bind_of_ok (@abortTxn_clear ⟨s.spCounter, s.tip⟩ _ _ mid hholds hfaults)

/-- What a connection with no block open and no transaction begun has released is on disk. -/
theorem settled_released {c : Conn} {rest : List (Nat × Tables)}
    (hidle : (released rest c).Idle) : (released rest c).current = (released rest c).durable := by
  obtain ⟨hempty, hbegun⟩ := hidle
  have hempty' : rest = [] := hempty
  have hbegun' : c.begun = false := hbegun
  show c.current = if rest.isEmpty && !c.begun then c.current else c.durable
  rw [hempty', hbegun']
  rfl

/-- What a block leaves is level, and no transaction has begun in it. -/
theorem level_block {α : Type} {body : Proc StoreState Exc α} {s : StoreState}
    (h : Level (opened s) (body (opened s)).2) (hs : Sound s) :
    Levelled s (block body s).2 ∧ (block body s).2.conn.begun = s.conn.begun := by
  cases hrun : body (opened s) with
  | mk result mid =>
    rw [hrun] at h
    obtain ⟨hmid, hstack, hcounter, hbegun⟩ := h hs.opened
    have hsame : mid.conn.begun = s.conn.begun := hbegun (List.cons_ne_nil _ _)
    have hdepth : mid.txnDepth = s.txnDepth + 1 := by
      rw [← hmid.level, hstack, hs.opened.level]
      rfl
    have hnames : ∀ sp ∈ s.conn.savepoints, sp.1 < mid.spCounter := fun sp hsp =>
      (hs.wellNested.names sp hsp).trans hcounter
    have hlevel : s.conn.savepoints.length = mid.txnDepth - 1 := by
      rw [hdepth, Nat.add_sub_cancel]
      exact hs.level
    have hnested : 0 < mid.txnDepth - 1 → s.conn.savepoints ≠ [] := by
      rw [hdepth, Nat.add_sub_cancel]
      exact hs.wellNested.nested
    have hholds : Holds s.spCounter s.conn.current s.conn.savepoints mid.conn :=
      ⟨[], hstack, by simp⟩
    have hcounter' : s.spCounter ≤ mid.spCounter := (Nat.le_succ _).trans hcounter
    rw [block_clear hrun hmid.faults hstack]
    cases result with
    | ok a =>
      exact ⟨⟨⟨hmid.faults, ⟨hnames, hnested, settled_released, hmid.wellNested.frontier⟩,
        hmid.consistent.release hholds.release, hlevel⟩, rfl, hcounter', fun _ => hsame⟩, hsame⟩
    | error e =>
      have hrolled : Consistent (rolledBack s.spCounter s.conn.current s.conn.savepoints mid.conn) :=
        hmid.consistent.rollbackTo hholds.rollbackTo
      exact ⟨⟨⟨hmid.faults, ⟨hnames, hnested, settled_released, hs.wellNested.frontier⟩,
        hrolled.release Holds.rolledBack.release, hlevel⟩, rfl, hcounter', fun _ => hsame⟩, hsame⟩

theorem hydrateTip_append_pair (xs : List Row) (a b : Row) :
    hydrateTip (xs ++ [a, b]) = hydrateTip [b] := by
  rw [List.append_cons, hydrateTip, List.getLast?_concat]
  rfl

/-- The deletion of a prune leaves the last row. -/
theorem level_pruneBody {cut : EpochCut} {sealHash intent description : String} {s : StoreState}
    (hne : s.conn.savepoints ≠ []) (hbound : cut.boundaryId ≤ s.conn.current.seq) :
    Level s (pruneBody cfg clock cut sealHash intent description s).2 := by
  cases hw₁ : Store.write cfg clock (epochSealedArgs cut sealHash intent description) s with
  | mk result₁ s₁ =>
    have h₁ : Level s s₁ := by
      have hlevel := @level_write cfg clock (epochSealedArgs cut sealHash intent description) s
      rwa [hw₁] at hlevel
    cases result₁ with
    | error e =>
      rw [pruneBody, Proc.bind_of_error hw₁]
      exact h₁
    | ok r₁ =>
      cases hw₂ : Store.write cfg clock (epochPrunedArgs cut sealHash intent) s₁ with
      | mk result₂ s₂ =>
        have h₂ : Level s s₂ := by
          have hlevel := @level_write cfg clock (epochPrunedArgs cut sealHash intent) s₁
          rw [hw₂] at hlevel
          exact level_trans h₁ hlevel
        cases result₂ with
        | error e =>
          rw [pruneBody, Proc.bind_of_ok hw₁, Proc.bind_of_error hw₂]
          exact h₂
        | ok r₂ =>
          intro hs
          obtain ⟨hs₂, hstack, hcounter, hbegun⟩ := h₂ hs
          rcases pruneBody_after hw₁ hw₂ with ⟨hf, _⟩ | ⟨result, hrun, _⟩
          · exact absurd hf (not_faulty_of_nil hs₂.faults)
          · obtain ⟨row₁, row₂, _, _, hrows, hid₁, hid₂, _⟩ := rows_of_sealed
              (sealed_of_write (provenance_epochSealed cut sealHash intent description) hw₁)
              (sealed_of_write (provenance_epochPruned cut sealHash intent) hw₂)
            have hpruned := rows_pruned hbound hrows hid₁ hid₂
            have hfrontier : s₂.tip =
                hydrateTip (prunedTables cut.boundaryId s₂.conn.current).rows := by
              rw [hs₂.wellNested.frontier, hpruned, hrows, hydrateTip_append_pair,
                hydrateTip_append_pair]
            rw [hrun]
            refine ⟨⟨congrArg List.tail hs₂.faults, ⟨hs₂.wellNested.names, hs₂.wellNested.nested,
              fun hidle => absurd hidle (not_idle_change _ _), hfrontier⟩, ?_, hs₂.level⟩, hstack,
              hcounter, fun _ => ?_⟩
            · exact hs₂.consistent.change fun hnum => numbered_filter hnum _
            · show (s₂.conn.begun || s₂.conn.savepoints.isEmpty) = s.conn.begun
              rw [hstack, List.isEmpty_eq_false_iff.mpr hne, Bool.or_false, hbegun hne]

theorem level_prune (sealHash intent description : String) {s : StoreState} (hs : Sound s) :
    Levelled s (sealAndPruneEpoch cfg clock sealHash intent description s).2 ∧
      (sealAndPruneEpoch cfg clock sealHash intent description s).2.conn.begun = s.conn.begun := by
  cases hcut : epochCut cfg.toEnv (rows s) sealHash intent with
  | error e =>
    have hlift : (Proc.lift (epochCut cfg.toEnv (rows s) sealHash intent) :
        Proc StoreState Exc EpochCut) s = (.error e, s) := by rw [hcut, Proc.lift_error]
    rw [sealAndPruneEpoch, Proc.bind_of_ok (Proc.get_apply _), Proc.bind_of_error hlift]
    exact ⟨level_refl s hs, rfl⟩
  | ok cut =>
    have hlift : (Proc.lift (epochCut cfg.toEnv (rows s) sealHash intent) :
        Proc StoreState Exc EpochCut) s = (.ok cut, s) := by rw [hcut, Proc.lift_ok]
    obtain ⟨_, hbound, _⟩ := epochCut_ok hs.consistent.numbered hcut
    have hblock := level_block (@level_pruneBody cfg clock cut sealHash intent description (opened s)
      (List.cons_ne_nil _ _) hbound) hs
    rw [sealAndPruneEpoch, Proc.bind_of_ok (Proc.get_apply _), Proc.bind_of_ok hlift]
    cases hrun : block (pruneBody cfg clock cut sealHash intent description) s with
    | mk result s' =>
      rw [hrun] at hblock
      cases result with
      | error e =>
        rw [Proc.bind_of_error hrun]
        exact hblock
      | ok tips =>
        rw [Proc.bind_of_ok hrun]
        exact hblock

theorem level_program {α : Type} {m : Proc StoreState Exc α} (hm : EpochProgram cfg clock m) :
    Proc.Steps Level m := by
  induction hm with
  | ret a => exact Proc.Steps.ret level_refl a
  | raise e => exact Proc.Steps.raise level_refl e
  | bind _ _ ihm ihf => exact Proc.Steps.bind (R := Level) level_trans ihm ihf
  | attempt _ ih => exact ih.attempt
  | write a => exact level_write a
  | block _ ih => exact fun s hs => (level_block (ih (opened s)) hs).1
  | prune sealHash intent description =>
    exact fun _ hs => (level_prune sealHash intent description hs).1

theorem level_run (o : StoreOp cfg clock) (s : StoreState) : Level s (o.run s).2 := by
  cases o with
  | write a => exact level_write a s
  | block body hbody => exact fun hs => (level_block (level_program hbody (opened s)) hs).1
  | prune sealHash intent description =>
    exact fun hs => (level_prune sealHash intent description hs).1

/-! ## What is durable is not looked at -/

/-- States that differ in what is durable and whether a transaction has begun, at most. -/
structure Alike (s s' : StoreState) : Prop where
  current : s.conn.current = s'.conn.current
  savepoints : s.conn.savepoints = s'.conn.savepoints
  tip : s.tip = s'.tip
  txnDepth : s.txnDepth = s'.txnDepth
  spCounter : s.spCounter = s'.spCounter
  ticks : s.ticks = s'.ticks
  faults : s.faults = s'.faults
  built : s.built = s'.built

theorem Alike.refl (s : StoreState) : Alike s s := ⟨rfl, rfl, rfl, rfl, rfl, rfl, rfl, rfl⟩

theorem Alike.trans {a b c : StoreState} (hab : Alike a b) (hbc : Alike b c) : Alike a c :=
  ⟨hab.current.trans hbc.current, hab.savepoints.trans hbc.savepoints, hab.tip.trans hbc.tip,
    hab.txnDepth.trans hbc.txnDepth, hab.spCounter.trans hbc.spCounter, hab.ticks.trans hbc.ticks,
    hab.faults.trans hbc.faults, hab.built.trans hbc.built⟩

theorem Alike.rows {s s' : StoreState} (h : Alike s s') : Store.rows s = Store.rows s' :=
  congrArg Tables.rows h.current

theorem statement_of_error {f : StoreState → Except Exc StoreState} {s : StoreState} {e : Exc}
    (h : ¬Faulty s) (hf : f { s with faults := s.faults.tail } = .error e) :
    statement f s = (.error e, passFault s) := by
  rw [statement]
  split
  · rename_i rest heq
    exact absurd (congrArg List.head? heq) h
  · rw [hf]
    rfl

theorem respects_statement {f : StoreState → Except Exc StoreState}
    (hf : ∀ s s', Alike s s' → (∃ t t', f s = .ok t ∧ f s' = .ok t' ∧ Alike t t') ∨
      ∃ e, f s = .error e ∧ f s' = .error e) : Proc.Respects Alike (statement f) := by
  intro s s' h
  have hpass : Alike (passFault s) (passFault s') :=
    ⟨h.current, h.savepoints, h.tip, h.txnDepth, h.spCounter, h.ticks,
      congrArg List.tail h.faults, h.built⟩
  by_cases hfault : Faulty s
  · have hfault' : Faulty s' := by
      rw [Faulty, ← h.faults]
      exact hfault
    rw [statement_of_fault hfault.cons, statement_of_fault hfault'.cons]
    exact ⟨rfl, hpass⟩
  · have hfault' : ¬Faulty s' := by
      rw [Faulty, ← h.faults]
      exact hfault
    rcases hf _ _ hpass with ⟨t, t', ht, ht', halike⟩ | ⟨e, he, he'⟩
    · rw [statement_of_clear hfault ht, statement_of_clear hfault' ht']
      exact ⟨rfl, halike⟩
    · rw [statement_of_error hfault he, statement_of_error hfault' he']
      exact ⟨rfl, hpass⟩

theorem respects_implicitBegin : Proc.Respects Alike Store.implicitBegin :=
  fun _ _ h => ⟨rfl, h.current, h.savepoints, h.tip, h.txnDepth, h.spCounter, h.ticks, h.faults,
    h.built⟩

theorem respects_changeTables (f : Tables → Tables) : Proc.Respects Alike (changeTables f) := by
  refine respects_implicitBegin.bind fun _ => respects_statement fun s s' h => .inl ?_
  exact ⟨_, _, rfl, rfl, congrArg f h.current, h.savepoints, h.tip, h.txnDepth, h.spCounter,
    h.ticks, h.faults, h.built⟩

theorem respects_commit : Proc.Respects Alike commit :=
  respects_statement fun _ _ h => .inl ⟨_, _, rfl, rfl, h.current, rfl, h.tip, h.txnDepth,
    h.spCounter, h.ticks, h.faults, h.built⟩

theorem respects_commitUnlessNested : Proc.Respects Alike commitUnlessNested := by
  refine Proc.Respects.get_bind (fun s s' h => by rw [h.txnDepth]) fun s => ?_
  split
  · exact respects_commit
  · exact Proc.Respects.ret ()

theorem respects_write (a : WriteArgs) : Proc.Respects Alike (Store.write cfg clock a) := by
  have hnow : Proc.Respects Alike (now clock) := fun s s' h =>
    ⟨congrArg (fun n => Except.ok (clock n)) h.ticks, h.current, h.savepoints, h.tip, h.txnDepth,
      h.spCounter, congrArg (· + 1) h.ticks, h.faults, h.built⟩
  have hedge : Proc.Respects Alike (ensureEdge cfg a.authority) := fun s s' h =>
    ⟨rfl, h.current, h.savepoints, h.tip, h.txnDepth, h.spCounter, h.ticks, h.faults,
      congrArg (fun built => ensureDefaultEdgeFor cfg built a.authority) h.built⟩
  have hadvance (receipt : Receipt) : Proc.Respects Alike (advanceTip receipt) := fun s s' h =>
    ⟨rfl, h.current, h.savepoints, rfl, h.txnDepth, h.spCounter, h.ticks, h.faults, h.built⟩
  refine (Proc.Respects.lift _).bind fun r => hnow.bind fun time => hedge.bind fun _ => ?_
  refine Proc.Respects.get_bind (fun s s' h => by rw [h.built, h.tip]) fun s => ?_
  refine (Proc.Respects.lift _).bind fun receipt => respects_implicitBegin.bind fun _ => ?_
  refine (Proc.Respects.lift _).bind fun row => (respects_changeTables _).bind fun _ => ?_
  refine Proc.Respects.get_bind (fun s s' h => by rw [h.current]) fun s => ?_
  exact respects_commitUnlessNested.bind fun _ => (hadvance receipt).bind fun _ =>
    Proc.Respects.ret _

theorem respects_beginTxn : Proc.Respects Alike beginTxn := by
  intro s s' h
  refine ⟨?_, h.current, ?_, h.tip, congrArg (· + 1) h.txnDepth, congrArg (· + 1) h.spCounter,
    h.ticks, h.faults, h.built⟩
  · show Except.ok (Txn.mk s.spCounter s.tip) = Except.ok (Txn.mk s'.spCounter s'.tip)
    rw [h.spCounter, h.tip]
  · show (s.spCounter, s.conn.current) :: s.conn.savepoints =
      (s'.spCounter, s'.conn.current) :: s'.conn.savepoints
    rw [h.spCounter, h.current, h.savepoints]

theorem respects_rollbackTo (name : Nat) : Proc.Respects Alike (Store.rollbackTo name) := by
  intro s s' h
  rw [Store.rollbackTo, Store.rollbackTo, Conn.rollbackTo, Conn.rollbackTo, ← h.savepoints]
  cases s.conn.savepoints.dropWhile fun sp => sp.1 != name with
  | nil => exact ⟨rfl, h⟩
  | cons sp rest =>
    exact ⟨rfl, rfl, rfl, h.tip, h.txnDepth, h.spCounter, h.ticks, h.faults, h.built⟩

theorem respects_release (name : Nat) : Proc.Respects Alike (Store.release name) := by
  refine respects_statement fun s s' h => ?_
  rw [Conn.release, Conn.release, ← h.savepoints]
  cases s.conn.savepoints.dropWhile fun sp => sp.1 != name with
  | nil => exact .inr ⟨_, rfl, rfl⟩
  | cons sp rest =>
    exact .inl ⟨_, _, rfl, rfl, h.current, rfl, h.tip, h.txnDepth, h.spCounter, h.ticks, h.faults,
      h.built⟩

theorem respects_leaveTxn : Proc.Respects Alike leaveTxn := fun _ _ h =>
  ⟨rfl, h.current, h.savepoints, h.tip, congrArg (· - 1) h.txnDepth, h.spCounter, h.ticks, h.faults,
    h.built⟩

theorem respects_restoreTip (tip : Tip) : Proc.Respects Alike (restoreTip tip) := fun _ _ h =>
  ⟨rfl, h.current, h.savepoints, rfl, h.txnDepth, h.spCounter, h.ticks, h.faults, h.built⟩

theorem respects_rollbackAndRelease (name : Nat) :
    Proc.Respects Alike (rollbackAndRelease name) :=
  (respects_rollbackTo name).bind fun _ => respects_release name

theorem respects_abortTxn (t : Txn) : Proc.Respects Alike (abortTxn t) :=
  respects_leaveTxn.bind fun _ => (respects_rollbackAndRelease t.name).attempt.bind fun r =>
    (respects_restoreTip t.tip).bind fun _ => Proc.Respects.lift r

theorem respects_commitTxn (t : Txn) : Proc.Respects Alike (commitTxn t) := by
  refine respects_leaveTxn.bind fun _ => (respects_release t.name).attempt.bind fun r => ?_
  cases r with
  | ok u => exact Proc.Respects.ret ()
  | error e =>
    exact (respects_rollbackAndRelease t.name).attempt.bind fun _ =>
      (respects_restoreTip t.tip).bind fun _ => Proc.Respects.raise releaseFailed

theorem respects_block {α : Type} {m : Proc StoreState Exc α} (hm : Proc.Respects Alike m) :
    Proc.Respects Alike (block m) := by
  refine respects_beginTxn.bind fun t => hm.attempt.bind fun result => ?_
  cases result with
  | ok a => exact (respects_commitTxn t).bind fun _ => Proc.Respects.ret a
  | error e => exact (respects_abortTxn t).bind fun _ => Proc.Respects.raise e

theorem respects_pruneBody (cut : EpochCut) (sealHash intent description : String) :
    Proc.Respects Alike (pruneBody cfg clock cut sealHash intent description) := by
  refine (respects_write _).bind fun _ => (respects_write _).bind fun _ => ?_
  refine Proc.Respects.get_bind (fun s s' h => by rw [h.rows]) fun before => ?_
  refine (respects_changeTables _).bind fun _ => ?_
  refine Proc.Respects.get_bind (fun s s' h => by rw [h.rows]) fun after => ?_
  split
  · exact Proc.Respects.raise _
  · refine (Proc.Respects.lift _).bind fun chained => ?_
    split
    · exact Proc.Respects.ret _
    · exact Proc.Respects.raise _

theorem respects_prune (sealHash intent description : String) :
    Proc.Respects Alike (sealAndPruneEpoch cfg clock sealHash intent description) := by
  refine Proc.Respects.get_bind (fun s s' h => by rw [h.rows]) fun s => ?_
  refine (Proc.Respects.lift _).bind fun cut => ?_
  exact (respects_block (respects_pruneBody cut sealHash intent description)).bind fun _ =>
    Proc.Respects.ret _

theorem respects_program {α : Type} {m : Proc StoreState Exc α} (hm : EpochProgram cfg clock m) :
    Proc.Respects Alike m := by
  induction hm with
  | ret a => exact Proc.Respects.ret a
  | raise e => exact Proc.Respects.raise e
  | bind _ _ ihm ihf => exact ihm.bind ihf
  | attempt _ ih => exact ih.attempt
  | write a => exact respects_write a
  | block _ ih => exact respects_block ih
  | prune sealHash intent description => exact respects_prune sealHash intent description

theorem respects_run (o : StoreOp cfg clock) {s s' : StoreState} (h : Alike s s') :
    (o.run s).1 = (o.run s').1 ∧ Alike (o.run s).2 (o.run s').2 := by
  cases o with
  | write a =>
    obtain ⟨houtcome, hstate⟩ := @respects_write cfg clock a s s' h
    exact ⟨congrArg StoreOutcome.wrote houtcome, hstate⟩
  | block body hbody =>
    obtain ⟨houtcome, hstate⟩ := respects_block (respects_program hbody) s s' h
    exact ⟨congrArg StoreOutcome.left houtcome, hstate⟩
  | prune sealHash intent description =>
    obtain ⟨houtcome, hstate⟩ := @respects_prune cfg clock sealHash intent description s s' h
    exact ⟨congrArg StoreOutcome.pruned houtcome, hstate⟩

/-! ## Between operations -/

/-- A sound store between two operations. -/
def AtRest (s : StoreState) : Prop := Sound s ∧ s.txnDepth = 0

/-- A store that has just been opened on numbered tables. -/
theorem AtRest.opened {s : StoreState} (hfaults : s.faults = []) (hdepth : s.txnDepth = 0)
    (hstack : s.conn.savepoints = []) (htables : s.conn.current = s.conn.durable)
    (htip : s.tip = hydrateTip (rows s)) (hnum : Numbered s.conn.current) : AtRest s := by
  have hnone : ∀ sp, sp ∉ s.conn.savepoints := fun sp hsp => by
    rw [hstack] at hsp
    exact nomatch hsp
  refine ⟨⟨hfaults, ⟨?_, ?_, fun _ => htables, htip⟩, ⟨fun _ => htables, hnum, ?_⟩, ?_⟩, hdepth⟩
  · exact fun sp hsp => absurd hsp (hnone sp)
  · exact fun hpos => absurd hdepth (Nat.pos_iff_ne_zero.mp hpos)
  · exact fun sp hsp => absurd hsp (hnone sp)
  · rw [hstack, hdepth]
    rfl

theorem AtRest.empty : AtRest Store.empty :=
  AtRest.opened rfl rfl rfl rfl rfl ⟨.nil, fun _ hrow => absurd hrow List.not_mem_nil⟩

theorem AtRest.run {s : StoreState} (h : AtRest s) (o : StoreOp cfg clock) : AtRest (o.run s).2 := by
  obtain ⟨hs, hdepth⟩ := h
  have hlevel := level_run o s hs
  refine ⟨hlevel.sound, ?_⟩
  rw [← hlevel.sound.level, hlevel.stack, hs.level, hdepth]

/-- Reopening a store at rest with nothing pending. -/
theorem AtRest.reopen {s : StoreState} (h : AtRest s) (hflushed : s.conn.current = s.conn.durable) :
    AtRest (Store.reopen s) ∧ Alike (Store.reopen s) s := by
  obtain ⟨hs, hdepth⟩ := h
  have htip : hydrateTip s.conn.durable.rows = s.tip := by
    rw [← hflushed]
    exact hs.wellNested.frontier.symm
  have hstack : s.conn.savepoints = [] := List.length_eq_zero_iff.mp (hs.level.trans hdepth)
  have hnumbered : Numbered s.conn.durable := hflushed ▸ hs.consistent.numbered
  refine ⟨AtRest.opened hs.faults rfl rfl rfl rfl hnumbered, ?_⟩
  exact ⟨hflushed.symm, hstack.symm, htip, hdepth.symm, rfl, rfl, rfl, rfl⟩

/-- The values of the row a write plans can be bound. -/
def Binds (cfg : Config) (clock : Clock) (a : WriteArgs) (s : StoreState) : Prop :=
  ∀ r receipt, resolveWrite cfg.toEnv a = .ok r →
    planReceipt cfg (sampled cfg a s).built s.tip (clock s.ticks) a r = .ok receipt →
    isOk (rowOfReceipt cfg.toEnv a.compress r.parametersJson receipt) = true

/-- A write at rest that can bind its values leaves the connection idle. -/
theorem idle_write {a : WriteArgs} {s : StoreState} (h : AtRest s) (hidle : s.conn.Idle)
    (hbinds : Binds cfg clock a s) : (Store.write cfg clock a s).2.conn.Idle := by
  obtain ⟨hs, hdepth⟩ := h
  cases hr : resolveWrite cfg.toEnv a with
  | error e =>
    rw [write_of_unresolved hr]
    exact hidle
  | ok r =>
    cases hp : planned cfg clock a r s with
    | error e =>
      have hstop : unplanned cfg clock a r s = sampled cfg a s := by
        unfold unplanned
        split
        · rfl
        · rename_i receipt hreceipt
          obtain ⟨row, hrow⟩ := isOk_iff.mp (hbinds r receipt hr hreceipt)
          rw [planned, planWrite, hreceipt] at hp
          have hok : (rowOfReceipt cfg.toEnv a.compress r.parametersJson receipt >>= fun row =>
            Except.ok (receipt, row)) = .error e := hp
          rw [hrow] at hok
          cases hok
      rw [write_of_unplanned hr hp, hstop]
      exact hidle
    | ok x =>
      obtain ⟨receipt, row⟩ := x
      rw [write_of_planned hr hp]
      rcases append_cases receipt row (sampled cfg a s) with
        ⟨hf, _⟩ | ⟨_, _, hc, _⟩ | ⟨_, _, happ⟩
      · exact absurd hf (not_faulty_of_nil hs.faults)
      · exact absurd hc (not_faulty_of_nil (congrArg List.tail hs.faults))
      · rw [happ, appended, if_pos (show (sampled cfg a s).txnDepth = 0 from hdepth)]
        exact ⟨rfl, rfl⟩

/-- Every write of the session can bind its values. -/
def Bound : List (SessionStep cfg clock) → StoreState → Prop
  | [], _ => True
  | .op o :: steps, s => (∀ a, o = .write a → Binds cfg clock a s) ∧ Bound steps (o.run s).2
  | .reopen :: steps, s => Bound steps (Store.reopen s)

/-- Nothing is ever pending in a session whose writes can bind their values. -/
theorem flushed_of_bound {steps : List (SessionStep cfg clock)} {s : StoreState} (h : AtRest s)
    (hidle : s.conn.Idle) (hbound : Bound steps s) : Flushed steps s := by
  induction steps generalizing s with
  | nil => trivial
  | cons step steps ih =>
    cases step with
    | op o =>
      refine ih (h.run o) ?_ hbound.2
      have hstack : (o.run s).2.conn.savepoints = [] :=
        (level_run o s h.1).stack.trans hidle.1
      cases o with
      | write a => exact idle_write h hidle (hbound.1 a rfl)
      | block body hbody =>
        exact ⟨hstack, (level_block (level_program hbody (opened s)) h.1).2.trans hidle.2⟩
      | prune sealHash intent description =>
        exact ⟨hstack, (level_prune sealHash intent description h.1).2.trans hidle.2⟩
    | reopen =>
      have hflushed := h.1.wellNested.settled hidle
      exact ⟨hflushed, ih (h.reopen hflushed).1 ⟨rfl, rfl⟩ hbound⟩

/-! ## Sessions -/

theorem session_straight {steps : List (SessionStep cfg clock)} {s s' : StoreState}
    (h : AtRest s) (halike : Alike s s') (hflushed : Flushed steps s) :
    (session steps s).1 = (session (straight steps) s').1 ∧
      Alike (session steps s).2 (session (straight steps) s').2 := by
  induction steps generalizing s s' with
  | nil => exact ⟨rfl, halike⟩
  | cons step steps ih =>
    cases step with
    | op o =>
      obtain ⟨houtcome, hstate⟩ := respects_run o halike
      obtain ⟨houtcomes, hend⟩ := ih (h.run o) hstate hflushed
      exact ⟨congrArg₂ List.cons houtcome houtcomes, hend⟩
    | reopen =>
      obtain ⟨hrest, hsame⟩ := h.reopen hflushed.1
      exact ih hrest (hsame.trans halike) hflushed.2

/-- A session of a new store in which nothing is pending whenever the file is closed has the outcomes
    of the session without the reopenings, and leaves the same rows and the same tip. -/
theorem persistence_invisible (steps : List (SessionStep cfg clock))
    (hflushed : Flushed steps Store.empty) :
    (session steps Store.empty).1 = (session (straight steps) Store.empty).1 ∧
      rows (session steps Store.empty).2 = rows (session (straight steps) Store.empty).2 ∧
      (session steps Store.empty).2.tip = (session (straight steps) Store.empty).2.tip := by
  obtain ⟨houtcomes, hend⟩ := session_straight AtRest.empty (Alike.refl _) hflushed
  exact ⟨houtcomes, hend.rows, hend.tip⟩

theorem binds_of_isOk {a : WriteArgs} {s : StoreState}
    (h : isOk (Store.write cfg clock a s).1 = true) : Binds cfg clock a s := by
  obtain ⟨receipt', hw⟩ := isOk_iff.mp h
  obtain ⟨r', planned', row, hr', hplan, -⟩ := write_ok hw
  intro r receipt hr hreceipt
  obtain rfl := Except.ok.inj (hr'.symm.trans hr)
  obtain ⟨receipt'', hreceipt'', hrow⟩ := Except.bind_eq_ok hplan
  obtain rfl := Except.ok.inj (hreceipt''.symm.trans hreceipt)
  obtain ⟨row', hrow', -⟩ := Except.bind_eq_ok hrow
  exact isOk_iff.mpr ⟨row', hrow'⟩

theorem flushed_between {a b : WriteArgs} (hbinds : Binds cfg clock a Store.empty) :
    Flushed [.op (.write a), .reopen, .op (.write b : StoreOp cfg clock)] Store.empty :=
  ⟨(AtRest.empty.run (.write a)).1.wellNested.settled
    (idle_write AtRest.empty ⟨rfl, rfl⟩ hbinds), trivial⟩

/-- A write, a reopening and another write. -/
def reopenedSteps : List (SessionStep (configOf sampleEnv) sampleClock) :=
  [.op (.write sampleWrite), .reopen, .op (.write sampleWrite)]

theorem persistence_invisible_reopenedSteps :
    (session reopenedSteps Store.empty).1 = (session (straight reopenedSteps) Store.empty).1 ∧
      rows (session reopenedSteps Store.empty).2 =
        rows (session (straight reopenedSteps) Store.empty).2 ∧
      (session reopenedSteps Store.empty).2.tip =
        (session (straight reopenedSteps) Store.empty).2.tip :=
  persistence_invisible reopenedSteps (flushed_between (binds_of_isOk isOk_write_sampleWrite))

/-- A value that cannot be bound. -/
def unboundWrite : WriteArgs :=
  { sampleWrite with parameters := .dict [(.str "reconciliation_grade", .list [.str "verified"])] }

def sampleBody : Proc StoreState Exc Unit :=
  Store.write (configOf sampleEnv) sampleClock sampleWrite >>= fun _ => Proc.ret ()

/-- A write that cannot bind its values, a block that returns, and a reopening. -/
def lostSteps : List (SessionStep (configOf sampleEnv) sampleClock) :=
  [.op (.write unboundWrite), .op (.block sampleBody (.bind (.write _) fun _ => .ret ())), .reopen]

/-- The write that cannot bind its values leaves its transaction open. -/
theorem computable_unboundWrite : (match resolveWrite sampleEnv unboundWrite with
    | .ok r => computable (configOf sampleEnv)
      (ensureDefaultEdgeFor (configOf sampleEnv) [] unboundWrite.authority) unboundWrite r &&
      !acceptable (configOf sampleEnv)
        (ensureDefaultEdgeFor (configOf sampleEnv) [] unboundWrite.authority) unboundWrite r
    | .error _ => false) = true := by
  decide +kernel

theorem write_unboundWrite :
    (Store.write (configOf sampleEnv) sampleClock unboundWrite Store.empty).2 =
      began (sampled (configOf sampleEnv) unboundWrite Store.empty) := by
  have hcomputable := computable_unboundWrite
  cases hr : resolveWrite sampleEnv unboundWrite with
  | error e =>
    rw [hr] at hcomputable
    cases hcomputable
  | ok r =>
    rw [hr] at hcomputable
    simp only [Bool.and_eq_true, Bool.not_eq_true'] at hcomputable
    obtain ⟨hplanned, hrefused⟩ := hcomputable
    obtain ⟨receipt, hreceipt⟩ := isOk_iff.mp (@planReceipt_isOk_iff (configOf sampleEnv) _
      Store.empty.tip (sampleClock 0) unboundWrite r |>.mpr hplanned)
    cases hp : planned (configOf sampleEnv) sampleClock unboundWrite r Store.empty with
    | ok x =>
      have hacc := planWrite_isOk_iff.mp (isOk_iff.mpr ⟨x, hp⟩)
      have hacc' := hrefused.symm.trans hacc
      cases hacc'
    | error e =>
      rw [@write_of_unplanned (configOf sampleEnv) sampleClock unboundWrite Store.empty r e hr hp]
      unfold unplanned
      have hreceipt' : planReceipt (configOf sampleEnv)
          (sampled (configOf sampleEnv) unboundWrite Store.empty).built Store.empty.tip
          (sampleClock Store.empty.ticks) unboundWrite r = .ok receipt := hreceipt
      rw [hreceipt']

/-- A block in an open transaction leaves what it wrote pending. -/
theorem pending_block {a : WriteArgs} {s : StoreState} (hs : Sound s) (hbegun : s.conn.begun = true)
    (hok : isOk (Store.write cfg clock a (opened s)).1 = true) :
    ∃ row, rows (block (Store.write cfg clock a >>= fun _ => Proc.ret ()) s).2 = rows s ++ [row] ∧
      durableRows (block (Store.write cfg clock a >>= fun _ => Proc.ret ()) s).2 =
        durableRows s := by
  obtain ⟨receipt, hw⟩ := isOk_iff.mp hok
  obtain ⟨row, read, hrows, -⟩ := row_of_isOk hok
  have hinside := @inBlock_write cfg clock a (opened s) hs.opened.wellNested (Nat.succ_pos _)
  have hlevel := @level_write cfg clock a (opened s) hs.opened
  have hbody : (Store.write cfg clock a >>= fun _ => Proc.ret ()) (opened s) =
      (.ok (), (Store.write cfg clock a (opened s)).2) :=
    Proc.bind_of_ok (Prod.ext hw rfl)
  rw [block_clear hbody hlevel.sound.faults hlevel.stack]
  refine ⟨row, hrows, ?_⟩
  have hopen : (Store.write cfg clock a (opened s)).2.conn.begun = true :=
    hinside.begun.trans hbegun
  show Tables.rows (if s.conn.savepoints.isEmpty &&
    !(Store.write cfg clock a (opened s)).2.conn.begun then _ else _) = _
  rw [hopen, Bool.not_true, Bool.and_false]
  exact congrArg Tables.rows hinside.durable

/-- Reopening after such a block loses what it wrote. -/
theorem lost_of_pending {a b : WriteArgs}
    (hbegun : (Store.write cfg clock a Store.empty).2.conn.begun = true)
    (hok : isOk (Store.write cfg clock b (opened (Store.write cfg clock a Store.empty).2)).1 = true)
    (hsame : durableRows (Store.write cfg clock a Store.empty).2 =
      rows (Store.write cfg clock a Store.empty).2)
    (hbody : EpochProgram cfg clock (Store.write cfg clock b >>= fun _ => Proc.ret ())) :
    rows (session [.op (.write a), .op (.block _ hbody), .reopen] Store.empty).2 ≠
      rows (session [.op (.write a), .op (.block _ hbody)] Store.empty).2 := by
  have hrest : AtRest (Store.write cfg clock a Store.empty).2 := AtRest.empty.run (.write a)
  obtain ⟨row, hrows, hdurable⟩ := pending_block hrest.1 hbegun hok
  intro heq
  have hlost : durableRows (block (Store.write cfg clock b >>= fun _ => Proc.ret ())
      (Store.write cfg clock a Store.empty).2).2 =
      rows (block (Store.write cfg clock b >>= fun _ => Proc.ret ())
        (Store.write cfg clock a Store.empty).2).2 := heq
  rw [hrows, hdurable, hsame] at hlost
  have hlength := congrArg List.length hlost
  rw [List.length_append, List.length_singleton] at hlength
  omega

theorem lostSteps_lost : rows (session lostSteps Store.empty).2 ≠
    rows (session (straight lostSteps) Store.empty).2 := by
  apply lost_of_pending
  · rw [write_unboundWrite]
    rfl
  · rw [write_unboundWrite]
    exact (write_isOk_iff rfl).mpr (by decide +kernel)
  · rw [write_unboundWrite]
    rfl

end Ugk
