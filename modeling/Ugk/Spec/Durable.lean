import Ugk.Native.Kernel
import Ugk.Spec.Acceptance
import Ugk.Spec.Linkage
import Ugk.Spec.Sample

/-!
# Durable terminals

A terminal writer retries the whole `write`.  A failed INSERT leaves nothing behind, so it can be
retried.  A failed commit leaves the inserted row pending: a retry, or any later write, publishes it
beside its own.

## Key results

- `write_step`: what one depth-0 write does to the rows, the durable rows and the tip
- `retryWrite_clean`, `retryWrite_pending`: the loop without and after a failed commit
- `terminal_durable_iff`: a terminal is all-or-nothing exactly when no commit of the call fails
-/

namespace Ugk

open Store Kernel

/-! ## One write at depth 0 -/

/-- Building a default edge twice is building it once. -/
theorem ensureDefaultEdgeFor_idem (cfg : Config) (built : List String) (a : String) :
    ensureDefaultEdgeFor cfg (ensureDefaultEdgeFor cfg built a) a =
      ensureDefaultEdgeFor cfg built a := by
  by_cases hgov : a = governorAuthority
  · simp only [ensureDefaultEdgeFor, hgov, if_true]
  · by_cases hedge : (edgeFor cfg built a).isSome = true
    · simp only [ensureDefaultEdgeFor, hgov, hedge, if_true, if_false]
    · -- the edge that was missing is now the default one
      have hbuilt : (edgeFor cfg (a :: built) a).isSome = true := by
        rw [edgeFor]
        split
        · rfl
        · simp
      have hensure : ensureDefaultEdgeFor cfg built a = a :: built := by
        rw [ensureDefaultEdgeFor, if_neg hgov, if_neg hedge]
      rw [hensure, ensureDefaultEdgeFor, if_neg hgov, if_pos hbuilt]

variable {cfg : Config} {clock : Clock} {a : WriteArgs} {s : StoreState}

@[simp] theorem durableRows_passFault (s : StoreState) :
    durableRows (passFault s) = durableRows s := rfl

@[simp] theorem rows_passFault (s : StoreState) : rows (passFault s) = rows s := rfl

/-- A write the store does not accept raises and changes neither the tables nor the tip nor the
    schedule of failures. -/
theorem write_rejected (clock : Clock)
    (h : accepted cfg (ensureDefaultEdgeFor cfg s.built a.authority) a = false) :
    ∃ e s', Store.write cfg clock a s = (.error e, s') ∧ SameTables s s' ∧ s'.tip = s.tip ∧
      s'.txnDepth = s.txnDepth ∧ s'.faults = s.faults ∧
      ensureDefaultEdgeFor cfg s'.built a.authority =
        ensureDefaultEdgeFor cfg s.built a.authority := by
  cases hr : resolveWrite cfg.toEnv a with
  | error e => exact ⟨e, s, write_of_unresolved hr, SameTables.refl s, rfl, rfl, rfl, rfl⟩
  | ok r =>
    cases hp : planned cfg clock a r s with
    | error e =>
      refine ⟨e, _, write_of_unplanned hr hp, ?_⟩
      rcases unplanned_cases cfg clock a r s with hstop | hstop
      · rw [hstop]
        exact ⟨⟨rfl, rfl⟩, rfl, rfl, rfl, ensureDefaultEdgeFor_idem ..⟩
      · rw [hstop]
        exact ⟨⟨rfl, rfl⟩, rfl, rfl, rfl, ensureDefaultEdgeFor_idem ..⟩
    | ok x =>
      have hacc : accepted cfg (ensureDefaultEdgeFor cfg s.built a.authority) a = true :=
        accepted_iff.mpr ⟨r, hr, planWrite_isOk_iff.mp (isOk_iff.mpr ⟨x, hp⟩)⟩
      rw [h] at hacc
      exact nomatch hacc

/-- An accepted write plans a row. -/
theorem planned_of_accepted (clock : Clock)
    (h : accepted cfg (ensureDefaultEdgeFor cfg s.built a.authority) a = true) :
    ∃ r receipt row, resolveWrite cfg.toEnv a = .ok r ∧
      planned cfg clock a r s = .ok (receipt, row) := by
  obtain ⟨r, hr, hacc⟩ := accepted_iff.mp h
  have hplanned : isOk (planned cfg clock a r s) = true := planWrite_isOk_iff.mpr hacc
  obtain ⟨⟨receipt, row⟩, hplan⟩ := isOk_iff.mp hplanned
  exact ⟨r, receipt, row, hr, hplan⟩

/-- The outcomes of an accepted write at depth 0, by the next failures of the schedule. -/
theorem write_accepted (clock : Clock) (hd : s.txnDepth = 0)
    (h : accepted cfg (ensureDefaultEdgeFor cfg s.built a.authority) a = true) :
    (∃ fs s', s.faults = true :: fs ∧ Store.write cfg clock a s = (.error locked, s') ∧
      SameTables s s' ∧ s'.tip = s.tip ∧ s'.txnDepth = 0 ∧ s'.faults = fs ∧
      ensureDefaultEdgeFor cfg s'.built a.authority =
        ensureDefaultEdgeFor cfg s.built a.authority) ∨
    (∃ fs s' row, s.faults = false :: true :: fs ∧
      Store.write cfg clock a s = (.error locked, s') ∧
      rows s' = rows s ++ [row] ∧ durableRows s' = durableRows s ∧ s'.tip = s.tip ∧
      s'.txnDepth = 0) ∨
    (∃ receipt s' row read, s.faults.head? ≠ some true ∧ s.faults.tail.head? ≠ some true ∧
      Store.write cfg clock a s = (.ok receipt, s') ∧ rows s' = rows s ++ [row] ∧
      durableRows s' = rows s' ∧ s'.txnDepth = 0 ∧ rowToReceipt cfg.toEnv row = .ok read ∧
      row.hR = receipt.hR ∧ row.parentHR = s.tip.priorHR ∧ row.hR ≠ "" ∧
      s'.tip.priorHR = row.hR) := by
  obtain ⟨r, receipt, row, hr, hplan⟩ := planned_of_accepted clock h
  obtain ⟨⟨read, hread⟩, hroot, hparent, hne⟩ :=
    linkage_of_planned (s.conn.current.seq + 1) hr hplan
  rw [write_of_planned hr hplan]
  rcases append_cases receipt row (sampled cfg a s) with
    ⟨hf, happ⟩ | ⟨hf, _, hc, happ⟩ | ⟨hf, hc, happ⟩
  · -- the INSERT fails
    have hfaults : s.faults = true :: s.faults.tail := Faulty.cons hf
    exact .inl ⟨s.faults.tail, _, hfaults, happ, ⟨rfl, rfl⟩, rfl, hd, rfl,
      ensureDefaultEdgeFor_idem ..⟩
  · -- the commit fails
    have htail : s.faults.tail = true :: s.faults.tail.tail := Faulty.cons hc
    have hfaults : s.faults = false :: true :: s.faults.tail.tail := by
      cases hs : s.faults with
      | nil => rw [hs] at htail; exact nomatch htail
      | cons b fs =>
        cases b with
        | true =>
          have hhead : Faulty (sampled cfg a s) := congrArg List.head? hs
          exact absurd hhead hf
        | false =>
          rw [hs] at htail
          exact congrArg (false :: ·) htail
    exact .inr (.inl ⟨_, _, _, hfaults, happ, rfl, rfl, rfl, hd⟩)
  · -- both succeed
    have hrows := rows_appended receipt row (sampled cfg a s)
    refine .inr (.inr ⟨_, _, _, read, hf, hc hd, happ, hrows, ?_, ?_, hread, hroot, hparent, hne,
      hroot.symm⟩)
    · rw [appended, if_pos (show (sampled cfg a s).txnDepth = 0 from hd)]
      rfl
    · rw [txnDepth_appended]
      exact hd

/-- The commit of an accepted write fails, and the rest of the schedule is still to come. -/
theorem write_failed_commit (clock : Clock) (hd : s.txnDepth = 0)
    (h : accepted cfg (ensureDefaultEdgeFor cfg s.built a.authority) a = true) {fs : List Bool}
    (hfaults : s.faults = false :: true :: fs) :
    ∃ s', Store.write cfg clock a s = (.error locked, s') ∧ s'.txnDepth = 0 ∧ s'.faults = fs ∧
      ∃ row, rows s' = rows s ++ [row] := by
  obtain ⟨r, receipt, row, hr, hplan⟩ := planned_of_accepted clock h
  rw [write_of_planned hr hplan]
  have hhead : (sampled cfg a s).faults = false :: true :: fs := hfaults
  rcases append_cases receipt row (sampled cfg a s) with
    ⟨hf, -⟩ | ⟨-, -, -, happ⟩ | ⟨-, hc, -⟩
  · rw [Faulty, hhead] at hf
    cases hf
  · refine ⟨_, happ, hd, ?_, _, rfl⟩
    show s.faults.tail.tail = fs
    rw [hfaults]
    rfl
  · refine absurd ?_ (hc hd)
    show s.faults.tail.head? = some true
    rw [hfaults]
    rfl

/-- What one write at depth 0 does, whatever fails: the rows it leaves behind the durable ones are
    there for the next commit. -/
theorem write_step (cfg : Config) (clock : Clock) (a : WriteArgs) (hd : s.txnDepth = 0) :
    ∃ extra, (Store.write cfg clock a s).2.txnDepth = 0 ∧
      rows (Store.write cfg clock a s).2 = rows s ++ extra ∧
      (match (Store.write cfg clock a s).1 with
        | .ok _ => extra ≠ [] ∧ durableRows (Store.write cfg clock a s).2 = rows s ++ extra
        | .error _ => durableRows (Store.write cfg clock a s).2 = durableRows s) := by
  cases hacc : accepted cfg (ensureDefaultEdgeFor cfg s.built a.authority) a with
  | false =>
    obtain ⟨e, s', hw, htables, _, hdepth, _⟩ := write_rejected clock hacc
    refine ⟨[], ?_⟩
    rw [hw]
    refine ⟨hdepth.trans hd, ?_, ?_⟩
    · rw [List.append_nil, htables.rows_eq]
    · exact htables.durableRows_eq
  | true =>
    rcases write_accepted clock hd hacc with
      ⟨fs, s', _, hw, htables, _, hdepth, _⟩ | ⟨fs, s', row, _, hw, hrows, hdur, _, hdepth⟩ |
      ⟨receipt, s', row, _, _, _, hw, hrows, hdur, hdepth, _⟩
    · refine ⟨[], ?_⟩
      rw [hw]
      refine ⟨hdepth, ?_, ?_⟩
      · rw [List.append_nil, htables.rows_eq]
      · exact htables.durableRows_eq
    · refine ⟨[row], ?_⟩
      rw [hw]
      exact ⟨hdepth, hrows, hdur⟩
    · refine ⟨[row], ?_⟩
      rw [hw]
      exact ⟨hdepth, hrows, by simp, hdur.trans hrows⟩

/-! ## The retry loop -/

/-- The store-level loop of a terminal writer. -/
def terminalLoop (cfg : Config) (clock : Clock) (phase ref : String) (a : WriteArgs) (n : Nat) :
    Proc StoreState Exc Receipt :=
  retryWrite phase ref (Store.write cfg clock a) n

theorem isRetryable_locked : isRetryableTerminalWriteError locked = true := by decide +kernel

variable {phase ref : String}

/-- One round of the loop. -/
theorem terminalLoop_succ (cfg : Config) (clock : Clock) (phase ref : String) (a : WriteArgs)
    (n : Nat) (s : StoreState) :
    terminalLoop cfg clock phase ref a (n + 1) s =
      match Store.write cfg clock a s with
      | (.ok receipt, s') => (.ok receipt, s')
      | (.error e, s') =>
        if isRetryableTerminalWriteError e then terminalLoop cfg clock phase ref a n s'
        else (.error e, s') := by
  rw [terminalLoop, retryWrite, Proc.bind_of_ok (Proc.attempt_apply _ _)]
  cases hw : Store.write cfg clock a s with
  | mk result s' =>
    cases result with
    | ok receipt => rfl
    | error e =>
      dsimp only
      split <;> rfl

/-- Whatever fails, the loop keeps the depth and only adds rows, published when it returns. -/
theorem retryWrite_pending (cfg : Config) (clock : Clock) (phase ref : String) (a : WriteArgs)
    (n : Nat) (s : StoreState) (hd : s.txnDepth = 0) :
    ∃ more, (terminalLoop cfg clock phase ref a n s).2.txnDepth = 0 ∧
      rows (terminalLoop cfg clock phase ref a n s).2 = rows s ++ more ∧
      (match (terminalLoop cfg clock phase ref a n s).1 with
        | .ok _ =>
          more ≠ [] ∧ durableRows (terminalLoop cfg clock phase ref a n s).2 = rows s ++ more
        | .error _ =>
          durableRows (terminalLoop cfg clock phase ref a n s).2 = durableRows s) := by
  induction n generalizing s with
  | zero => exact ⟨[], hd, (List.append_nil _).symm, rfl⟩
  | succ n ih =>
    obtain ⟨extra, hdepth, hrows, hres⟩ := write_step cfg clock a hd
    rw [terminalLoop_succ]
    cases hw : Store.write cfg clock a s with
    | mk result s' =>
      rw [hw] at hdepth hrows hres
      cases result with
      | ok receipt => exact ⟨extra, hdepth, hrows, hres⟩
      | error e =>
        dsimp only at hdepth hrows hres ⊢
        split
        · -- the next attempts start from the rows this one left
          obtain ⟨more, hdepth', hrows', hres'⟩ := ih s' hdepth
          refine ⟨extra ++ more, hdepth', ?_, ?_⟩
          · rw [hrows', hrows, List.append_assoc]
          · cases hloop : (terminalLoop cfg clock phase ref a n s').1 with
            | ok receipt =>
              rw [hloop] at hres'
              refine ⟨by simp [hres'.1], ?_⟩
              rw [hres'.2, hrows, List.append_assoc]
            | error e' =>
              rw [hloop] at hres'
              exact hres'.trans hres
        · exact ⟨extra, hdepth, hrows, hres⟩

/-- Within `n` attempts a commit meets a failure: some failed INSERTs, an INSERT, and the failure. -/
def commitFails : Nat → List Bool → Bool
  | n + 1, true :: fs => commitFails n fs
  | _ + 1, false :: true :: _ => true
  | _, _ => false

/-- The loop of a rejected terminal raises and leaves the store as it was. -/
theorem retryWrite_rejected (clock : Clock) (phase ref : String) (n : Nat) (s : StoreState)
    (h : accepted cfg (ensureDefaultEdgeFor cfg s.built a.authority) a = false) :
    ∃ e s', terminalLoop cfg clock phase ref a n s = (.error e, s') ∧ SameTables s s' ∧
      s'.tip = s.tip ∧ s'.txnDepth = s.txnDepth := by
  induction n generalizing s with
  | zero => exact ⟨_, s, rfl, SameTables.refl s, rfl, rfl⟩
  | succ n ih =>
    obtain ⟨e, s', hw, htables, htip, hdepth, _, hbuilt⟩ := write_rejected clock h
    rw [terminalLoop_succ, hw]
    dsimp only
    split
    · obtain ⟨e', s'', hloop, htables', htip', hdepth'⟩ := ih s' (hbuilt ▸ h)
      exact ⟨e', s'', hloop, htables.trans htables', htip'.trans htip, hdepth'.trans hdepth⟩
    · exact ⟨e, s', rfl, htables, htip, hdepth⟩

/-- Without a failed commit the loop of an accepted terminal either gives up with the store as it
    was, or appends one row. -/
theorem retryWrite_clean (clock : Clock) (phase ref : String) (n : Nat) (s : StoreState)
    (hd : s.txnDepth = 0)
    (hacc : accepted cfg (ensureDefaultEdgeFor cfg s.built a.authority) a = true)
    (hc : commitFails n s.faults = false) :
    (∃ e s', terminalLoop cfg clock phase ref a n s = (.error e, s') ∧ SameTables s s' ∧
      s'.tip = s.tip ∧ s'.txnDepth = 0) ∨
    (∃ receipt s' row read, terminalLoop cfg clock phase ref a n s = (.ok receipt, s') ∧
      rows s' = rows s ++ [row] ∧ durableRows s' = rows s' ∧
      rowToReceipt cfg.toEnv row = .ok read ∧ row.hR = receipt.hR ∧
      row.parentHR = s.tip.priorHR ∧ row.hR ≠ "" ∧ s'.tip.priorHR = row.hR) := by
  induction n generalizing s with
  | zero => exact .inl ⟨_, s, rfl, SameTables.refl s, rfl, hd⟩
  | succ n ih =>
    rcases write_accepted clock hd hacc with
      ⟨fs, s', hfaults, hw, htables, htip, hdepth, hfs, hbuilt⟩ | ⟨fs, s', row, hfaults, hw, _⟩ |
      ⟨receipt, s', row, read, _, _, hw, hrows, hdur, _, hread, hroot, hparent, hne, htip⟩
    · -- a failed INSERT: the next attempt starts from the same tables
      rw [terminalLoop_succ, hw]
      dsimp only
      rw [if_pos isRetryable_locked]
      have hc' : commitFails n s'.faults = false := by
        rw [hfaults] at hc
        rw [hfs]
        exact hc
      have hrowseq : rows s' = rows s := htables.rows_eq
      rcases ih s' hdepth (hbuilt ▸ hacc) hc' with
        ⟨e, s'', hloop, htables', htip', hdepth'⟩ |
        ⟨receipt, s'', row, read, hloop, hrows, hdur, hread, hroot, hparent, hne, htip'⟩
      · exact .inl ⟨e, s'', hloop, htables.trans htables', htip'.trans htip, hdepth'⟩
      · exact .inr ⟨receipt, s'', row, read, hloop, hrowseq ▸ hrows, hdur, hread, hroot,
          htip ▸ hparent, hne, htip'⟩
    · rw [hfaults] at hc
      exact nomatch hc
    · rw [terminalLoop_succ, hw]
      exact .inr ⟨receipt, s', row, read, rfl, hrows, hdur, hread, hroot, hparent, hne, htip⟩

/-- After a failed commit the loop leaves a second row beside the one it reports, or a pending one. -/
theorem retryWrite_failed_commit (clock : Clock) (phase ref : String) (n : Nat) (s : StoreState) (hd : s.txnDepth = 0)
    (hset : rows s = durableRows s)
    (hacc : accepted cfg (ensureDefaultEdgeFor cfg s.built a.authority) a = true)
    (hc : commitFails n s.faults = true) :
    ∃ row more, (terminalLoop cfg clock phase ref a n s).2.txnDepth = 0 ∧
      rows (terminalLoop cfg clock phase ref a n s).2 = durableRows s ++ row :: more ∧
      ∀ receipt, (terminalLoop cfg clock phase ref a n s).1 = .ok receipt → more ≠ [] ∧
        durableRows (terminalLoop cfg clock phase ref a n s).2 = durableRows s ++ row :: more := by
  induction n generalizing s with
  | zero => exact nomatch hc
  | succ n ih =>
    rcases write_accepted clock hd hacc with
      ⟨fs, s', hfaults, hw, htables, htip, hdepth, hfs, hbuilt⟩ |
      ⟨fs, s', row, hfaults, hw, hrows, hdur, _, hdepth⟩ |
      ⟨_, _, _, _, hhead, htail, _⟩
    · -- a failed INSERT
      rw [terminalLoop_succ, hw]
      dsimp only
      rw [if_pos isRetryable_locked]
      have hc' : commitFails n s'.faults = true := by
        rw [hfaults] at hc
        rw [hfs]
        exact hc
      have hset' : rows s' = durableRows s' := by
        rw [htables.rows_eq, htables.durableRows_eq]
        exact hset
      have hdur : durableRows s' = durableRows s := htables.durableRows_eq
      rw [← hdur]
      exact ih s' hdepth hset' (hbuilt ▸ hacc) hc'
    · -- the failed commit: its row is pending when the other attempts run
      rw [terminalLoop_succ, hw]
      dsimp only
      rw [if_pos isRetryable_locked]
      obtain ⟨more, hdepth', hrows', hres⟩ := retryWrite_pending cfg clock phase ref a n s' hdepth
      have hall : rows s' ++ more = durableRows s ++ row :: more := by
        rw [hrows, hset, List.append_assoc, List.singleton_append]
      refine ⟨row, more, hdepth', hrows'.trans hall, fun receipt hok => ?_⟩
      rw [hok] at hres
      exact ⟨hres.1, hres.2.trans hall⟩
    · -- an attempt without a failure contradicts the schedule
      cases hf : s.faults with
      | nil => rw [hf] at hc; exact nomatch hc
      | cons b fs =>
        rw [hf] at hc hhead htail
        cases b with
        | true => exact absurd rfl hhead
        | false =>
          cases fs with
          | nil => exact nomatch hc
          | cons b fs =>
            cases b with
            | true => exact absurd rfl htail
            | false => exact nomatch hc

/-! ## All or nothing -/

/-- The durable stream has exactly one new row, that of the receipt, after the previous tip, and
    still verifies. -/
def Published (env : Env) (s s' : StoreState) (receipt : Receipt) : Prop :=
  ∃ row, durableRows s' = durableRows s ++ [row] ∧ row.hR = receipt.hR ∧
    row.parentHR = s.tip.priorHR ∧ verifyStreamHash env (durableRows s') = .ok true

/-- The durable stream and the tip are as they were, and a later write that succeeds adds its own
    row to that stream and nothing else. -/
def Traceless (cfg : Config) (s s' : StoreState) : Prop :=
  durableRows s' = durableRows s ∧ s'.tip = s.tip ∧
    ∀ clock later receipt, (Store.write cfg clock later { s' with faults := [] }).1 = .ok receipt →
      ∃ row, durableRows (Store.write cfg clock later { s' with faults := [] }).2 =
        durableRows s ++ [row] ∧ row.hR = receipt.hR

/-- A terminal is published when its call returns and leaves no trace when it raises. -/
def AllOrNothing (cfg : Config) (s : StoreState) (result : Except Exc Receipt) (s' : StoreState) :
    Prop :=
  match result with
  | .ok receipt => Published cfg.toEnv s s' receipt
  | .error _ => Traceless cfg s s'

/-- A call that left the tables and the tip alone left no trace. -/
theorem traceless_of_unchanged {s s' : StoreState} (hd : s'.txnDepth = 0)
    (hset : rows s = durableRows s) (htables : SameTables s s') (htip : s'.tip = s.tip) :
    Traceless cfg s s' := by
  have hdur : durableRows s' = durableRows s := htables.durableRows_eq
  refine ⟨hdur, htip, fun clock later receipt hw => ?_⟩
  obtain ⟨r, planned', row, hr, hplan, rfl, hstate⟩ := write_ok hw
  obtain ⟨_, hroot, _⟩ := linkage_of_planned (s'.conn.current.seq + 1) hr hplan
  have hrows : rows (sampled cfg later { s' with faults := [] }) = durableRows s := by
    rw [← hset]
    exact htables.rows_eq
  refine ⟨{ row with receiptId := s'.conn.current.seq + 1 }, ?_, hroot⟩
  have happ : (appended planned' row (sampled cfg later { s' with faults := [] })).conn.durable =
      (appended planned' row (sampled cfg later { s' with faults := [] })).conn.current := by
    rw [appended, if_pos (show (sampled cfg later { s' with faults := [] }).txnDepth = 0 from hd)]
    rfl
  rw [hstate, durableRows, happ]
  exact (rows_appended planned' row _).trans (by rw [hrows]; rfl)

/-- A plain write by the root authority. -/
def plainWrite : WriteArgs :=
  { op := "attest", authority := governorAuthority, parameters := .dict [] }

/-- Every deployment accepts it. -/
theorem accepted_plainWrite (cfg : Config) (built : List String) :
    accepted cfg built plainWrite = true := by
  have hstate : isOk (hS cfg.toEnv "attest" (.dict [])) = true :=
    isOk_hS_iff.mpr ⟨⟨[], rfl⟩, rfl⟩
  have hpath : isOk (canonicalPathFor cfg built governorAuthority >>= effectiveCapabilities) =
      true := by
    rw [canonicalPathFor, walkPath, if_pos rfl]
    rfl
  refine accepted_iff.mpr ⟨⟨none, .dict [], .none, .none, "\x7b\x7d"⟩, rfl, ?_⟩
  rw [acceptable]
  simp only [Bool.and_eq_true]
  exact ⟨⟨hpath, hstate⟩, rfl⟩

/-- A pending row is published by the next write. -/
theorem not_traceless_of_pending {s s' : StoreState} {row : Row} {more : List Row}
    (hd : s'.txnDepth = 0) (hrows : rows s' = durableRows s ++ row :: more) :
    ¬Traceless cfg s s' := by
  rintro ⟨-, -, hlater⟩
  have hok : isOk (Store.write cfg sampleClock plainWrite { s' with faults := [] }).1 = true :=
    (write_isOk_iff rfl).mpr (accepted_plainWrite cfg _)
  obtain ⟨receipt, hw⟩ := isOk_iff.mp hok
  obtain ⟨row', hdur, -⟩ := hlater sampleClock plainWrite receipt hw
  have hdepth : ({ s' with faults := [] } : StoreState).txnDepth = 0 := hd
  obtain ⟨extra, -, -, hres⟩ := write_step cfg sampleClock plainWrite hdepth
  rw [hw] at hres
  -- two rows at least against one
  have hlen := congrArg List.length (hres.2.symm.trans hdur)
  have hextra : extra.length ≠ 0 := fun h => hres.1 (List.length_eq_zero_iff.mp h)
  have hrows' : rows { s' with faults := [] } = durableRows s ++ row :: more := hrows
  rw [hrows'] at hlen
  simp only [List.length_append, List.length_cons, List.length_nil] at hlen
  omega

/-- A failed commit breaks all-or-nothing, whatever the other attempts do. -/
theorem not_allOrNothing_of_failed_commit {n : Nat} {s : StoreState} (hd : s.txnDepth = 0)
    (hset : rows s = durableRows s)
    (hacc : accepted cfg (ensureDefaultEdgeFor cfg s.built a.authority) a = true)
    (hc : commitFails n s.faults = true) :
    ¬AllOrNothing cfg s (terminalLoop cfg clock phase ref a n s).1
      (terminalLoop cfg clock phase ref a n s).2 := by
  obtain ⟨row, more, hdepth, hrows, hok⟩ := retryWrite_failed_commit clock phase ref n s hd hset
    hacc hc
  unfold AllOrNothing
  split
  · -- two rows were published where one was reported
    rename_i receipt hres
    rintro ⟨row', hdur, -⟩
    obtain ⟨hmore, hdur'⟩ := hok receipt hres
    have hlen := congrArg List.length (hdur'.symm.trans hdur)
    have hne : more.length ≠ 0 := fun h => hmore (List.length_eq_zero_iff.mp h)
    simp only [List.length_append, List.length_cons, List.length_nil] at hlen
    omega
  · exact not_traceless_of_pending hdepth hrows

/-- On a settled store the loop is all-or-nothing exactly when no commit of an accepted terminal
    fails. -/
theorem terminalLoop_allOrNothing_iff (clock : Clock) (phase ref : String) (a : WriteArgs) (n : Nat)
    {s : StoreState} (hd : s.txnDepth = 0) (hset : rows s = durableRows s) (hlinked : LinkedRows cfg.toEnv (durableRows s) s.tip) :
    AllOrNothing cfg s (terminalLoop cfg clock phase ref a n s).1
        (terminalLoop cfg clock phase ref a n s).2 ↔
      (accepted cfg (ensureDefaultEdgeFor cfg s.built a.authority) a = true →
        commitFails n s.faults = false) := by
  constructor
  · intro h hacc
    by_contra hc
    exact not_allOrNothing_of_failed_commit hd hset hacc (by simpa using hc) h
  · intro h
    cases hacc : accepted cfg (ensureDefaultEdgeFor cfg s.built a.authority) a with
    | false =>
      obtain ⟨e, s', hloop, htables, htip, hdepth⟩ := retryWrite_rejected clock phase ref n s hacc
      rw [hloop]
      exact traceless_of_unchanged (hdepth.trans hd) hset htables htip
    | true =>
      rcases retryWrite_clean clock phase ref n s hd hacc (h hacc) with ⟨e, s', hloop, htables, htip, hdepth⟩ |
          ⟨receipt, s', row, read, hloop, hrows, hdur, hread, hroot, hparent, hne, htip⟩
      · rw [hloop]
        exact traceless_of_unchanged hdepth hset htables htip
      · rw [hloop]
        have hstream := (hlinked.concat hread hne hparent htip).verified
        refine ⟨row, ?_, hroot, hparent, ?_⟩
        · rw [hdur, hrows, hset]
        · rw [hdur, hrows, hset]
          exact hstream

/-! ## The terminal writers of the kernel -/

/-- The phases the durable writer of a protocol is for. -/
def terminalPhases : Protocol → List String
  | .irreversible => ["commit", "abort"]
  | .reversible => ["commit", "abort", "compensated", "compensation_failed"]

/-- A phase receipt is one store write, of the arguments the kernel had on entry. -/
theorem emitPhase_apply (rt : Runtime) (pr : Protocol) (t : Trail) (p : Phase) (w : World) :
    emitPhase rt pr t p w =
      onStore (Store.write rt.toConfig rt.clock (phaseArgs w.kernel pr t p)) w := rfl

/-- The loop of the kernel is the loop of the store. -/
theorem retryWrite_onStore (rt : Runtime) (pr : Protocol) (t : Trail) (p : Phase) (phase ref : String)
    (n : Nat) (w : World) :
    retryWrite phase ref (emitPhase rt pr t p) n w =
      onStore (terminalLoop rt.toConfig rt.clock phase ref (phaseArgs w.kernel pr t p) n) w := by
  induction n generalizing w with
  | zero => rfl
  | succ n ih =>
    have hloop := terminalLoop_succ rt.toConfig rt.clock phase ref (phaseArgs w.kernel pr t p) n
      w.store
    rw [retryWrite, Proc.bind_of_ok (Proc.attempt_apply _ _), emitPhase_apply]
    simp only [onStore, Proc.zoom_apply, hloop]
    cases hw : Store.write rt.toConfig rt.clock (phaseArgs w.kernel pr t p) w.store with
    | mk result s' =>
      cases result with
      | ok receipt => rfl
      | error e =>
        dsimp only
        split
        · exact ih { w with store := s' }
        · rfl

/-- A durable writer asserts its phases and runs its loop. -/
theorem terminalDurable_cases (rt : Runtime) (pr : Protocol) (t : Trail) (p : Phase) (w : World) :
    (p.phase ∉ terminalPhases pr ∧ ∃ e, terminalDurable rt pr t p w = (.error e, w)) ∨
      (p.phase ∈ terminalPhases pr ∧ ∃ ref, terminalDurable rt pr t p w =
        onStore (terminalLoop rt.toConfig rt.clock p.phase ref (phaseArgs w.kernel pr t p)
          maxOutcomeWriteAttempts) w) := by
  cases pr with
  | irreversible =>
    show (p.phase ∉ ["commit", "abort"] ∧ ∃ e, emitTerminalDurable rt t p w = _) ∨
      (p.phase ∈ ["commit", "abort"] ∧ ∃ ref, emitTerminalDurable rt t p w = _)
    by_cases hp : p.phase ∈ ["commit", "abort"]
    · rw [emitTerminalDurable, if_pos hp]
      exact .inr ⟨hp, _, retryWrite_onStore ..⟩
    · rw [emitTerminalDurable, if_neg hp]
      exact .inl ⟨hp, _, rfl⟩
  | reversible =>
    show (p.phase ∉ ["commit", "abort", "compensated", "compensation_failed"] ∧
        ∃ e, emitReversibleTerminalDurable rt t p w = _) ∨
      (p.phase ∈ ["commit", "abort", "compensated", "compensation_failed"] ∧
        ∃ ref, emitReversibleTerminalDurable rt t p w = _)
    by_cases hp : p.phase ∈ ["commit", "abort", "compensated", "compensation_failed"]
    · rw [emitReversibleTerminalDurable, if_pos hp]
      exact .inr ⟨hp, _, retryWrite_onStore ..⟩
    · rw [emitReversibleTerminalDurable, if_neg hp]
      exact .inl ⟨hp, _, rfl⟩

/-- A terminal write on a settled store at depth 0 is all-or-nothing exactly when no commit of the
    call fails. -/
theorem terminal_durable_iff {rt : Runtime} {pr : Protocol} {t : Trail} {p : Phase} {w : World}
    (hd : w.store.txnDepth = 0) (hset : rows w.store = durableRows w.store)
    (hlinked : LinkedRows rt.toEnv (durableRows w.store) w.store.tip) :
    AllOrNothing rt.toConfig w.store (terminalDurable rt pr t p w).1
        (terminalDurable rt pr t p w).2.store ↔
      (p.phase ∈ terminalPhases pr →
        accepted rt.toConfig (ensureDefaultEdgeFor rt.toConfig w.store.built t.authority)
          (phaseArgs w.kernel pr t p) = true →
        commitFails maxOutcomeWriteAttempts w.store.faults = false) := by
  rcases terminalDurable_cases rt pr t p w with ⟨hp, e, hraise⟩ | ⟨hp, ref, hloop⟩
  · rw [hraise]
    exact iff_of_true (traceless_of_unchanged hd hset (SameTables.refl w.store) rfl) fun h => absurd h hp
  · rw [hloop]
    have hiff := terminalLoop_allOrNothing_iff rt.clock p.phase ref (phaseArgs w.kernel pr t p)
      maxOutcomeWriteAttempts hd hset hlinked
    exact hiff.trans ⟨fun h _ => h, fun h => h hp⟩

/-- An effect that has committed after its PREPARE. -/
def sampleTrail : Trail :=
  { op := "attest", authority := "Governor", baseParams := [], idempotencyKey := some "k",
    jurisdiction := "session", intentRef := "", warrantId := "" }

def sampleCommit : Phase := { phase := "commit", prepareRef := some "p" }

/-- A new kernel whose store meets the given failures. -/
def faultyWorld (faults : List Bool) : World := { store := { faults := faults } }

theorem linkedRows_faultyWorld (rt : Runtime) (faults : List Bool) :
    LinkedRows rt.toEnv (durableRows (faultyWorld faults).store) (faultyWorld faults).store.tip :=
  ⟨rfl, rfl⟩

/-- A commit of a terminal that fails breaks the writer's promise, whatever happens afterwards. -/
theorem not_allOrNothing_terminalDurable {rt : Runtime} {pr : Protocol} {t : Trail} {p : Phase}
    {w : World} (hd : w.store.txnDepth = 0) (hset : rows w.store = durableRows w.store)
    (hp : p.phase ∈ terminalPhases pr)
    (hacc : accepted rt.toConfig (ensureDefaultEdgeFor rt.toConfig w.store.built t.authority)
      (phaseArgs w.kernel pr t p) = true)
    (hfail : commitFails maxOutcomeWriteAttempts w.store.faults = true) :
    ¬AllOrNothing rt.toConfig w.store (terminalDurable rt pr t p w).1
        (terminalDurable rt pr t p w).2.store := by
  rcases terminalDurable_cases rt pr t p w with ⟨hout, _⟩ | ⟨_, ref, hloop⟩
  · exact absurd hp hout
  · rw [hloop]
    exact not_allOrNothing_of_failed_commit hd hset hacc hfail

theorem accepted_sampleCommit (faults : List Bool) :
    accepted sampleRuntime.toConfig
      (ensureDefaultEdgeFor sampleRuntime.toConfig (faultyWorld faults).store.built
        sampleTrail.authority)
      (phaseArgs (faultyWorld faults).kernel .irreversible sampleTrail sampleCommit) = true := by
  have hempty : accepted sampleRuntime.toConfig
      (ensureDefaultEdgeFor sampleRuntime.toConfig [] sampleTrail.authority)
      (phaseArgs ({} : Kernel) .irreversible sampleTrail sampleCommit) = true := by
    decide +kernel
  exact hempty

theorem mem_terminalPhases_sampleCommit :
    sampleCommit.phase ∈ terminalPhases .irreversible := by
  decide

/-- Two failed INSERTs are retried. -/
theorem terminal_durable_two_inserts :
    AllOrNothing sampleRuntime.toConfig (faultyWorld [true, true]).store
      (terminalDurable sampleRuntime .irreversible sampleTrail sampleCommit
        (faultyWorld [true, true])).1
      (terminalDurable sampleRuntime .irreversible sampleTrail sampleCommit
        (faultyWorld [true, true])).2.store := by
  have hset : rows (faultyWorld [true, true]).store = durableRows (faultyWorld [true, true]).store :=
    rfl
  have hfail : commitFails maxOutcomeWriteAttempts (faultyWorld [true, true]).store.faults = false := by
    decide +kernel
  have hiff := @terminal_durable_iff sampleRuntime .irreversible sampleTrail sampleCommit
    (faultyWorld [true, true]) rfl hset (linkedRows_faultyWorld sampleRuntime [true, true])
  rw [hiff]
  intro _ _
  exact hfail

/-- A failed commit is retried too, over the row it left pending. -/
theorem terminal_durable_failed_commit :
    ¬AllOrNothing sampleRuntime.toConfig (faultyWorld [false, true]).store
      (terminalDurable sampleRuntime .irreversible sampleTrail sampleCommit
        (faultyWorld [false, true])).1
      (terminalDurable sampleRuntime .irreversible sampleTrail sampleCommit
        (faultyWorld [false, true])).2.store := by
  have hset : rows (faultyWorld [false, true]).store =
      durableRows (faultyWorld [false, true]).store := rfl
  have hfail : commitFails maxOutcomeWriteAttempts (faultyWorld [false, true]).store.faults = true := by
    decide +kernel
  exact not_allOrNothing_terminalDurable rfl hset mem_terminalPhases_sampleCommit
    (accepted_sampleCommit [false, true]) hfail

end Ugk
