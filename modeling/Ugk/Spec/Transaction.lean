import Ugk.Spec.Durable

/-!
# Transaction blocks

Inside a block a write does not commit, so the savepoint of the block is still on the stack when the
block ends and takes the tables back to where they were.  The stack of a run inside a block only
grows above the stack it started from, with names that are new.

A seal commits.  The commit takes the savepoints of every open block with it.

## Key results

- `Inside`, `inside_of_program`: what a program that does not seal does inside a block
- `block_cases`: how a block ends
- `block_atomic`: a block whose body does not seal is all-or-nothing
-/

namespace Ugk

open Store

/-! ## Programs -/

/-- The bodies of blocks: sequences of writes, blocks and, when `seals` allows it, seals, which may
    look at what a step returned, raise, and catch what a step raised. -/
inductive StoreProgram (cfg : Config) (clock : Clock) (seals : Bool) :
    ∀ {α : Type}, Proc StoreState Exc α → Prop
  | ret {α : Type} (a : α) : StoreProgram cfg clock seals (Proc.ret a)
  | raise {α : Type} (e : Exc) : StoreProgram cfg clock seals (Proc.raise e : Proc StoreState Exc α)
  | bind {α β : Type} {m : Proc StoreState Exc α} {f : α → Proc StoreState Exc β}
      (hm : StoreProgram cfg clock seals m) (hf : ∀ a, StoreProgram cfg clock seals (f a)) :
      StoreProgram cfg clock seals (m >>= f)
  | attempt {α : Type} {m : Proc StoreState Exc α} (hm : StoreProgram cfg clock seals m) :
      StoreProgram cfg clock seals (Proc.attempt m)
  | write (a : WriteArgs) : StoreProgram cfg clock seals (Store.write cfg clock a)
  | block {α : Type} {m : Proc StoreState Exc α} (hm : StoreProgram cfg clock seals m) :
      StoreProgram cfg clock seals (Store.block m)
  | sealArchive (hseals : seals = true) (row : ArchiveRow) :
      StoreProgram cfg clock seals (Store.sealArchive row)

/-! ## Well-nested states -/

/-- The connection has no transaction open. -/
def Conn.Idle (c : Conn) : Prop := c.savepoints = [] ∧ c.begun = false

/-- What a block relies on: the names of the open savepoints are used up, every block has its
    savepoint on the stack, nothing is pending on an idle connection, and the tip is the one of the
    last row. -/
structure WellNested (s : StoreState) : Prop where
  names : ∀ sp ∈ s.conn.savepoints, sp.1 < s.spCounter
  nested : 0 < s.txnDepth → s.conn.savepoints ≠ []
  settled : s.conn.Idle → s.conn.current = s.conn.durable
  frontier : s.tip = hydrateTip (rows s)

/-- A step inside a block: nothing becomes durable, and the stack keeps the part it had. -/
structure Inside (s s' : StoreState) : Prop where
  durable : s'.conn.durable = s.conn.durable
  begun : s'.conn.begun = s.conn.begun
  depth : s'.txnDepth = s.txnDepth
  stack : ∃ above, s'.conn.savepoints = above ++ s.conn.savepoints ∧
    ∀ sp ∈ above, s.spCounter ≤ sp.1
  counter : s.spCounter ≤ s'.spCounter
  wellNested : WellNested s'

/-- A step that is `Inside` when it starts in a block. -/
def InBlock (s s' : StoreState) : Prop := WellNested s → 0 < s.txnDepth → Inside s s'

theorem Inside.refl {s : StoreState} (h : WellNested s) : Inside s s :=
  ⟨rfl, rfl, rfl, ⟨[], rfl, by simp⟩, le_rfl, h⟩

theorem Inside.trans {a b c : StoreState} (hab : Inside a b) (hbc : Inside b c) : Inside a c := by
  obtain ⟨low, hlow, hlownames⟩ := hab.stack
  obtain ⟨high, hhigh, hhighnames⟩ := hbc.stack
  refine ⟨hbc.durable.trans hab.durable, hbc.begun.trans hab.begun, hbc.depth.trans hab.depth,
    ⟨high ++ low, ?_, ?_⟩, hab.counter.trans hbc.counter, hbc.wellNested⟩
  · rw [hhigh, hlow, List.append_assoc]
  · intro sp hsp
    rcases List.mem_append.mp hsp with h | h
    · exact hab.counter.trans (hhighnames sp h)
    · exact hlownames sp h

theorem inBlock_refl (s : StoreState) : InBlock s s := fun h _ => Inside.refl h

/-- A change of the clock, the graph or the schedule of failures. -/
theorem Inside.of_conn {s s' : StoreState} (h : WellNested s) (hconn : s'.conn = s.conn)
    (htip : s'.tip = s.tip) (hdepth : s'.txnDepth = s.txnDepth)
    (hcounter : s'.spCounter = s.spCounter) : Inside s s' := by
  have hwell : WellNested s' := by
    constructor
    · rw [hconn, hcounter]
      exact h.names
    · rw [hconn, hdepth]
      exact h.nested
    · rw [hconn]
      exact h.settled
    · rw [htip, rows, hconn]
      exact h.frontier
  exact ⟨by rw [hconn], by rw [hconn], hdepth, ⟨[], by rw [hconn]; rfl, by simp⟩, hcounter.ge, hwell⟩

/-- Inside a block the transaction has begun already. -/
theorem began_of_nested {s : StoreState} (h : s.conn.savepoints ≠ []) : began s = s := by
  have hempty : s.conn.savepoints.isEmpty = false := List.isEmpty_eq_false_iff.mpr h
  have hbegin : s.conn.implicitBegin = s.conn := by
    rw [Conn.implicitBegin, hempty, Bool.or_false]
  rw [began, hbegin]

/-- A connection on which a transaction has begun is not idle. -/
theorem not_idle_implicitBegin (c : Conn) : ¬c.implicitBegin.Idle := by
  rintro ⟨hempty, hbegun⟩
  have hempty' : c.savepoints = [] := hempty
  have hbegun' : (c.begun || c.savepoints.isEmpty) = false := hbegun
  rw [hempty', List.isEmpty_nil, Bool.or_true] at hbegun'
  exact nomatch hbegun'

theorem not_idle_change (f : Tables → Tables) (c : Conn) : ¬(c.change f).Idle :=
  not_idle_implicitBegin c

theorem wellNested_began {s : StoreState} (h : WellNested s) : WellNested (began s) :=
  ⟨h.names, h.nested, fun hidle => absurd hidle (not_idle_implicitBegin s.conn), h.frontier⟩

theorem inBlock_trans {a b c : StoreState} (hab : InBlock a b) (hbc : InBlock b c) : InBlock a c := by
  intro ha hdepth
  have hb := hab ha hdepth
  have hdepth' : 0 < b.txnDepth := by rw [hb.depth]; exact hdepth
  exact hb.trans (hbc hb.wellNested hdepth')

/-! ## A write -/

variable {cfg : Config} {clock : Clock}

/-- The tip of a planned receipt is the one a constructor would read from its row. -/
theorem hydrateTip_of_planned {built : List String} {tip : Tip} {time : FloatLit} {a : WriteArgs}
    {r : Resolved} {receipt : Receipt} {row : Row} (id : Nat) (rows : List Row)
    (hplan : planWrite cfg built tip time a r = .ok (receipt, row)) :
    hydrateTip (rows ++ [{ row with receiptId := id }]) = tipOf receipt := by
  obtain ⟨c, s, hBody, trace, _, _, _, _, rfl, hrow⟩ := planWrite_ok hplan
  obtain ⟨_, rfl⟩ := rowOfReceipt_ok hrow
  have hroot : orText c.hR.hex genesis = c.hR.hex := if_neg c.hR.nonempty
  have hmeaning : textOrNone c.hM.hex = some c.hM.hex := if_neg c.hM.nonempty
  rw [hydrateTip, List.getLast?_concat]
  show Tip.mk (orText c.hR.hex genesis) (textOrNone c.hM.hex) (some a.intentRef) =
    Tip.mk c.hR.hex (some c.hM.hex) (some a.intentRef)
  rw [hroot, hmeaning]

/-- An appended row stays pending in the block. -/
theorem inside_appended {s : StoreState} {receipt : Receipt} {row : Row} (h : WellNested s)
    (hdepth : 0 < s.txnDepth)
    (htip : hydrateTip (rows s ++ [{ row with receiptId := s.conn.current.seq + 1 }]) =
      tipOf receipt) : Inside s (appended receipt row s) := by
  have hstack := h.nested hdepth
  have happ : appended receipt row s = { inserted row s with tip := tipOf receipt } := by
    rw [appended, if_neg (Nat.pos_iff_ne_zero.mp hdepth)]
  have hbegun : (s.conn.begun || s.conn.savepoints.isEmpty) = s.conn.begun := by
    rw [List.isEmpty_eq_false_iff.mpr hstack, Bool.or_false]
  rw [happ]
  refine ⟨rfl, hbegun, rfl, ⟨[], rfl, by simp⟩, le_rfl, ?_⟩
  constructor
  · exact h.names
  · exact fun _ => hstack
  · exact fun hidle => absurd hidle.1 hstack
  · exact htip.symm

/-- What a write does inside a block. -/
theorem inBlock_write (a : WriteArgs) : Proc.Steps InBlock (Store.write cfg clock a) := by
  intro s hs hdepth
  cases hr : resolveWrite cfg.toEnv a with
  | error e =>
    rw [write_of_unresolved hr]
    exact Inside.refl hs
  | ok r =>
    have hsampled : Inside s (sampled cfg a s) := Inside.of_conn hs rfl rfl rfl rfl
    cases hp : planned cfg clock a r s with
    | error e =>
      have hbegan : began (sampled cfg a s) = sampled cfg a s := began_of_nested (hs.nested hdepth)
      rw [write_of_unplanned hr hp]
      rcases unplanned_cases cfg clock a r s with hstop | hstop
      · rw [hstop]
        exact hsampled
      · rw [hstop, hbegan]
        exact hsampled
    | ok x =>
      obtain ⟨receipt, row⟩ := x
      rw [write_of_planned hr hp]
      rcases append_cases receipt row (sampled cfg a s) with
        ⟨_, happ⟩ | ⟨_, hzero, _⟩ | ⟨_, _, happ⟩
      · have hbegan : began (sampled cfg a s) = sampled cfg a s := began_of_nested (hs.nested hdepth)
        rw [happ, hbegan]
        exact Inside.of_conn hs rfl rfl rfl rfl
      · -- the commit of depth 0 is not reached
        exact absurd hzero (Nat.pos_iff_ne_zero.mp hdepth)
      · rw [happ]
        exact hsampled.trans (inside_appended hsampled.wellNested hdepth
          (hydrateTip_of_planned _ _ hp))

/-! ## The ends of a block -/

/-- The state in which the body of a block starts. -/
def opened (s : StoreState) : StoreState :=
  { s with
    conn := s.conn.savepoint s.spCounter
    spCounter := s.spCounter + 1
    txnDepth := s.txnDepth + 1 }

/-- A block whose body returns is closed by the clean exit. -/
theorem block_of_ok {α : Type} {body : Proc StoreState Exc α} {s s' : StoreState} {a : α}
    (h : body (opened s) = (.ok a, s')) :
    block body s = (commitTxn ⟨s.spCounter, s.tip⟩ >>= fun _ => pure a) s' := by
  have hbegin : beginTxn s = (.ok ⟨s.spCounter, s.tip⟩, opened s) := rfl
  rw [block, transaction, Proc.bind_of_ok hbegin, Proc.bind_of_ok (Proc.attempt_apply _ _), h]

/-- A block whose body raises is closed by the other one. -/
theorem block_of_error {α : Type} {body : Proc StoreState Exc α} {s s' : StoreState} {e : Exc}
    (h : body (opened s) = (.error e, s')) :
    block body s = (abortTxn ⟨s.spCounter, s.tip⟩ >>= fun _ => Proc.raise e) s' := by
  have hbegin : beginTxn s = (.ok ⟨s.spCounter, s.tip⟩, opened s) := rfl
  rw [block, transaction, Proc.bind_of_ok hbegin, Proc.bind_of_ok (Proc.attempt_apply _ _), h]

/-- The stack of a connection, split at the savepoint of a block. -/
structure Holds (name : Nat) (saved : Tables) (rest : List (Nat × Tables)) (c : Conn) : Prop where
  stack : ∃ above, c.savepoints = above ++ (name, saved) :: rest ∧ ∀ sp ∈ above, sp.1 ≠ name

theorem Holds.dropWhile {name : Nat} {saved : Tables} {rest : List (Nat × Tables)} {c : Conn}
    (h : Holds name saved rest c) :
    c.savepoints.dropWhile (fun sp => sp.1 != name) = (name, saved) :: rest := by
  obtain ⟨above, hstack, hnames⟩ := h.stack
  rw [hstack]
  have habove : above.dropWhile (fun sp => sp.1 != name) = [] :=
    List.dropWhile_eq_nil_iff.mpr fun sp hsp => bne_iff_ne.mpr (hnames sp hsp)
  rw [List.dropWhile_append, habove]
  simp

/-- The connection after ROLLBACK TO. -/
def rolledBack (name : Nat) (saved : Tables) (rest : List (Nat × Tables)) (c : Conn) : Conn :=
  { c with savepoints := (name, saved) :: rest, current := saved }

/-- The connection after RELEASE. -/
def released (rest : List (Nat × Tables)) (c : Conn) : Conn :=
  { c with
    savepoints := rest
    durable := if rest.isEmpty && !c.begun then c.current else c.durable }

theorem Holds.rollbackTo {name : Nat} {saved : Tables} {rest : List (Nat × Tables)} {c : Conn}
    (h : Holds name saved rest c) : c.rollbackTo name = some (rolledBack name saved rest c) := by
  rw [Conn.rollbackTo, h.dropWhile]
  rfl

theorem Holds.release {name : Nat} {saved : Tables} {rest : List (Nat × Tables)} {c : Conn}
    (h : Holds name saved rest c) : c.release name = some (released rest c) := by
  rw [Conn.release, h.dropWhile]
  rfl

theorem Holds.rolledBack {name : Nat} {saved : Tables} {rest : List (Nat × Tables)} {c : Conn} :
    Holds name saved rest (rolledBack name saved rest c) :=
  ⟨[], rfl, by simp⟩

/-- RELEASE of a savepoint on the stack. -/
theorem release_apply {name : Nat} {saved : Tables} {rest : List (Nat × Tables)} {s : StoreState}
    (h : Holds name saved rest s.conn) :
    Store.release name s =
      if Faulty s then (.error locked, passFault s)
      else (.ok (), { passFault s with conn := released rest s.conn }) := by
  split
  · rename_i hf
    rw [Store.release, statement_of_fault hf.cons]
    rfl
  · rename_i hf
    rw [Store.release]
    refine statement_of_clear hf ?_
    dsimp only
    rw [h.release]
    rfl

/-- What is left of a state whose block was rolled back.  A RELEASE that fails leaves the savepoint
    on the stack. -/
structure TakenBack (t : Txn) (saved : Tables) (rest : List (Nat × Tables)) (s s' : StoreState) :
    Prop where
  tip : s'.tip = t.tip
  depth : s'.txnDepth = s.txnDepth - 1
  counter : s'.spCounter = s.spCounter
  begun : s'.conn.begun = s.conn.begun
  current : s'.conn.current = saved
  stack : (s'.conn.savepoints = (t.name, saved) :: rest ∧ s'.conn.durable = s.conn.durable) ∨
    (s'.conn.savepoints = rest ∧
      s'.conn.durable = if rest.isEmpty && !s.conn.begun then saved else s.conn.durable)

/-- ROLLBACK TO and RELEASE of a savepoint on the stack. -/
theorem rollbackAndRelease_apply {t : Txn} {saved : Tables} {rest : List (Nat × Tables)}
    {s : StoreState} (h : Holds t.name saved rest s.conn) :
    ∃ result s', rollbackAndRelease t.name s = (result, s') ∧ s'.txnDepth = s.txnDepth ∧
      s'.spCounter = s.spCounter ∧ s'.conn.begun = s.conn.begun ∧ s'.conn.current = saved ∧
      ((s'.conn.savepoints = (t.name, saved) :: rest ∧ s'.conn.durable = s.conn.durable) ∨
        (s'.conn.savepoints = rest ∧
          s'.conn.durable = if rest.isEmpty && !s.conn.begun then saved else s.conn.durable)) := by
  have hback : Store.rollbackTo t.name s =
      (.ok (), { s with conn := rolledBack t.name saved rest s.conn }) := by
    rw [Store.rollbackTo, h.rollbackTo]
  rw [rollbackAndRelease, Proc.bind_of_ok hback, release_apply Holds.rolledBack]
  split
  · exact ⟨_, _, rfl, rfl, rfl, rfl, rfl, .inl ⟨rfl, rfl⟩⟩
  · exact ⟨_, _, rfl, rfl, rfl, rfl, rfl, .inr ⟨rfl, rfl⟩⟩

/-- The exit after an exception. -/
theorem abortTxn_apply {t : Txn} {saved : Tables} {rest : List (Nat × Tables)} {s : StoreState}
    (h : Holds t.name saved rest s.conn) :
    ∃ result s', abortTxn t s = (result, s') ∧ TakenBack t saved rest s s' := by
  obtain ⟨result, s', hrun, hdepth, hcounter, hbegun, hcurrent, hstack⟩ :=
    @rollbackAndRelease_apply t saved rest { s with txnDepth := s.txnDepth - 1 } h
  have hleave : leaveTxn s = (.ok (), { s with txnDepth := s.txnDepth - 1 }) := rfl
  refine ⟨result, { s' with tip := t.tip }, ?_, rfl, hdepth, hcounter, hbegun, hcurrent, hstack⟩
  rw [abortTxn, Proc.bind_of_ok hleave, Proc.bind_of_ok (Proc.attempt_apply _ _), hrun,
    Proc.bind_of_ok (m := restoreTip t.tip) rfl, Proc.lift_apply]

/-- The clean exit. -/
theorem commitTxn_apply {t : Txn} {saved : Tables} {rest : List (Nat × Tables)} {s : StoreState}
    (h : Holds t.name saved rest s.conn) :
    (¬Faulty s ∧ commitTxn t s = (.ok (),
      { passFault s with txnDepth := s.txnDepth - 1, conn := released rest s.conn })) ∨
    (Faulty s ∧ ∃ e s', commitTxn t s = (.error e, s') ∧ TakenBack t saved rest s s') := by
  have hleave : leaveTxn s = (.ok (), { s with txnDepth := s.txnDepth - 1 }) := rfl
  have hrelease := @release_apply t.name saved rest { s with txnDepth := s.txnDepth - 1 } h
  rw [commitTxn, Proc.bind_of_ok hleave, Proc.bind_of_ok (Proc.attempt_apply _ _), hrelease]
  by_cases hf : Faulty s
  · have hf' : Faulty { s with txnDepth := s.txnDepth - 1 } := hf
    obtain ⟨result, s', hrun, hdepth, hcounter, hbegun, hcurrent, hstack⟩ :=
      @rollbackAndRelease_apply t saved rest
        (passFault { s with txnDepth := s.txnDepth - 1 }) h
    rw [if_pos hf']
    refine .inr ⟨hf, releaseFailed, { s' with tip := t.tip }, ?_, rfl, hdepth, hcounter,
      hbegun, hcurrent, hstack⟩
    show (Proc.attempt (rollbackAndRelease t.name) >>= fun _ => _) _ = _
    rw [Proc.bind_of_ok (Proc.attempt_apply _ _), hrun,
      Proc.bind_of_ok (m := restoreTip t.tip) rfl]
    rfl
  · have hf' : ¬Faulty { s with txnDepth := s.txnDepth - 1 } := hf
    rw [if_neg hf']
    exact .inl ⟨hf, rfl⟩

/-! ## A block -/

/-- The tables and the tip are the ones of the entry. -/
structure Undone (s s' : StoreState) : Prop where
  durable : s'.conn.durable = s.conn.durable
  current : s'.conn.current = s.conn.current
  tip : s'.tip = s.tip

/-- The tables and the tip are the ones the body left, the tip is the one of the last row, and the
    outermost block has made all of it durable. -/
structure Kept (s mid s' : StoreState) : Prop where
  current : s'.conn.current = mid.conn.current
  tip : s'.tip = mid.tip
  frontier : s'.tip = hydrateTip (rows s')
  durable : s.txnDepth = 0 → s'.conn.durable = s'.conn.current

theorem WellNested.opened {s : StoreState} (h : WellNested s) : WellNested (opened s) := by
  constructor
  · intro sp hsp
    show sp.1 < s.spCounter + 1
    rcases List.mem_cons.mp hsp with rfl | hsp
    · exact Nat.lt_succ_self _
    · exact (h.names sp hsp).trans (Nat.lt_succ_self _)
  · intro _
    exact List.cons_ne_nil _ _
  · intro hidle
    exact absurd hidle.1 (List.cons_ne_nil _ _)
  · exact h.frontier

/-- The savepoint of a block is still on the stack at its end. -/
theorem holds_of_inside {s s' : StoreState} (h : Inside (opened s) s') :
    Holds s.spCounter s.conn.current s.conn.savepoints s'.conn := by
  obtain ⟨above, hstack, hnames⟩ := h.stack
  refine ⟨above, hstack, fun sp hsp => ?_⟩
  have hnew : s.spCounter + 1 ≤ sp.1 := hnames sp hsp
  omega

/-- A block that was rolled back has undone itself. -/
theorem undone_of_takenBack {s mid s' : StoreState} (hs : WellNested s) (hin : Inside (opened s) mid)
    (h : TakenBack ⟨s.spCounter, s.tip⟩ s.conn.current s.conn.savepoints mid s') :
    Undone s s' ∧ Inside s s' := by
  have hbegun : mid.conn.begun = s.conn.begun := hin.begun
  have hdurable : mid.conn.durable = s.conn.durable := hin.durable
  have hcounter : s.spCounter + 1 ≤ s'.spCounter := h.counter ▸ hin.counter
  have hdepth : s'.txnDepth = s.txnDepth := by
    have hmid : mid.txnDepth = s.txnDepth + 1 := hin.depth
    rw [h.depth, hmid, Nat.add_sub_cancel]
  -- RELEASE makes durable what was there on entry
  have hsame : s'.conn.durable = s.conn.durable := by
    rcases h.stack with ⟨_, hd⟩ | ⟨_, hd⟩
    · exact hd.trans hdurable
    · rw [hd]
      split
      · rename_i hout
        rw [Bool.and_eq_true, List.isEmpty_iff, Bool.not_eq_true', hbegun] at hout
        exact hs.settled hout
      · exact hdurable
  have hstack : ∃ above, s'.conn.savepoints = above ++ s.conn.savepoints ∧
      ∀ sp ∈ above, s.spCounter ≤ sp.1 ∧ sp.1 < s'.spCounter := by
    rcases h.stack with ⟨hsp, _⟩ | ⟨hsp, _⟩
    · refine ⟨[(s.spCounter, s.conn.current)], hsp, ?_⟩
      intro sp hmem
      obtain rfl := List.mem_singleton.mp hmem
      exact ⟨le_rfl, hcounter⟩
    · exact ⟨[], hsp, by simp⟩
  obtain ⟨above, habove, hnames⟩ := hstack
  have hwell : WellNested s' := by
    constructor
    · intro sp hsp
      rw [habove, List.mem_append] at hsp
      rcases hsp with hsp | hsp
      · exact (hnames sp hsp).2
      · exact (hs.names sp hsp).trans hcounter
    · intro hpos hempty
      rw [habove] at hempty
      exact hs.nested (hdepth ▸ hpos) (List.append_eq_nil_iff.mp hempty).2
    · rintro ⟨hempty, hbeg⟩
      rw [habove] at hempty
      rw [h.current, hsame]
      exact hs.settled ⟨(List.append_eq_nil_iff.mp hempty).2, hbegun ▸ h.begun ▸ hbeg⟩
    · rw [h.tip, rows, h.current]
      exact hs.frontier
  exact ⟨⟨hsame, h.current, h.tip⟩, hsame, h.begun.trans hbegun, hdepth,
    ⟨above, habove, fun sp hsp => (hnames sp hsp).1⟩, (Nat.le_succ _).trans hcounter, hwell⟩

/-- The state after the clean exit of a block. -/
theorem wellNested_released {s mid : StoreState} (hs : WellNested s) (hin : Inside (opened s) mid) :
    WellNested { passFault mid with
      txnDepth := mid.txnDepth - 1, conn := released s.conn.savepoints mid.conn } := by
  have hmid : mid.txnDepth = s.txnDepth + 1 := hin.depth
  constructor
  · intro sp hsp
    have hcounter : s.spCounter + 1 ≤ mid.spCounter := hin.counter
    exact (hs.names sp hsp).trans hcounter
  · intro hpos
    refine hs.nested ?_
    have hpos' : 0 < mid.txnDepth - 1 := hpos
    omega
  · rintro ⟨hempty, hbeg⟩
    have hout : (s.conn.savepoints.isEmpty && !mid.conn.begun) = true := by
      have hempty' : s.conn.savepoints = [] := hempty
      have hbeg' : mid.conn.begun = false := hbeg
      rw [hempty', hbeg']
      rfl
    show mid.conn.current = if s.conn.savepoints.isEmpty && !mid.conn.begun then _ else _
    rw [if_pos hout]
  · exact hin.wellNested.frontier

/-- The two ways a block ends. -/
theorem block_cases {α : Type} {body : Proc StoreState Exc α} {s : StoreState} (hs : WellNested s)
    (hin : Inside (opened s) (body (opened s)).2) :
    (∃ e s', block body s = (.error e, s') ∧
      (∀ a, (body (opened s)).1 = .ok a → Faulty (body (opened s)).2) ∧
      Undone s s' ∧ Inside s s') ∨
    (∃ a, (body (opened s)).1 = .ok a ∧ block body s = (.ok a,
      { passFault (body (opened s)).2 with
        txnDepth := (body (opened s)).2.txnDepth - 1
        conn := released s.conn.savepoints (body (opened s)).2.conn })) := by
  have hholds := holds_of_inside hin
  cases hrun : body (opened s) with
  | mk result mid =>
    rw [hrun] at hin hholds
    cases result with
    | error e =>
      obtain ⟨outcome, s', habort, htaken⟩ :=
        @abortTxn_apply ⟨s.spCounter, s.tip⟩ _ _ mid hholds
      obtain ⟨hundone, hinside⟩ := undone_of_takenBack hs hin htaken
      refine .inl ?_
      rw [block_of_error hrun]
      cases outcome with
      | ok u => exact ⟨e, s', Proc.bind_of_ok habort, fun a h => (nomatch h), hundone, hinside⟩
      | error e' => exact ⟨e', s', Proc.bind_of_error habort, fun a h => (nomatch h), hundone, hinside⟩
    | ok a =>
      rw [block_of_ok hrun]
      rcases @commitTxn_apply ⟨s.spCounter, s.tip⟩ _ _ mid hholds with
        ⟨_, hcommit⟩ | ⟨hf, e, s', hcommit, htaken⟩
      · exact .inr ⟨a, rfl, Proc.bind_of_ok hcommit⟩
      · obtain ⟨hundone, hinside⟩ := undone_of_takenBack hs hin htaken
        exact .inl ⟨e, s', Proc.bind_of_error hcommit, fun _ _ => hf, hundone, hinside⟩

/-- What a block does inside a block. -/
theorem inBlock_block {α : Type} {m : Proc StoreState Exc α} (hm : Proc.Steps InBlock m) :
    Proc.Steps InBlock (block m) := by
  intro s hs hdepth
  have hin : Inside (opened s) (m (opened s)).2 := hm (opened s) hs.opened (Nat.succ_pos _)
  rcases block_cases hs hin with ⟨e, s', hrun, _, _, hinside⟩ | ⟨a, _, hrun⟩
  · rw [hrun]
    exact hinside
  · rw [hrun]
    have hmid : (m (opened s)).2.txnDepth = s.txnDepth + 1 := hin.depth
    refine ⟨?_, hin.begun, ?_, ⟨[], rfl, by simp⟩, (Nat.le_succ _).trans hin.counter,
      wellNested_released hs hin⟩
    · -- the savepoint below keeps RELEASE from committing
      have hbelow : (s.conn.savepoints.isEmpty && !(m (opened s)).2.conn.begun) = false := by
        rw [List.isEmpty_eq_false_iff.mpr (hs.nested hdepth), Bool.false_and]
      show (if s.conn.savepoints.isEmpty && !(m (opened s)).2.conn.begun then _ else _) = _
      rw [hbelow]
      exact hin.durable
    · show (m (opened s)).2.txnDepth - 1 = s.txnDepth
      rw [hmid, Nat.add_sub_cancel]

/-- A program that does not seal, run inside a block, leaves the block to its end. -/
theorem inside_of_program {α : Type} {m : Proc StoreState Exc α}
    (hm : StoreProgram cfg clock false m) : Proc.Steps InBlock m := by
  induction hm with
  | ret a => exact Proc.Steps.ret inBlock_refl a
  | raise e => exact Proc.Steps.raise inBlock_refl e
  | bind _ _ ihm ihf => exact Proc.Steps.bind (R := InBlock) inBlock_trans ihm ihf
  | attempt _ ih => exact ih.attempt
  | write a => exact inBlock_write a
  | block _ ih => exact inBlock_block ih
  | sealArchive hseals row => exact nomatch hseals

/-! ## Atomicity -/

/-- A block is atomic: when it raises, the tables and the tip are the ones of the entry, it raises
    when its body does and otherwise only for a RELEASE that failed, and when it returns, all of its
    writes are there, with the tip of the last row. -/
structure Atomic {α : Type} (s : StoreState) (body : Proc StoreState Exc α) : Prop where
  raises : ∀ e, (body (opened s)).1 = .error e → ∃ e', (block body s).1 = .error e'
  undone : ∀ e, (block body s).1 = .error e → Undone s (block body s).2
  returns : ∀ a, (body (opened s)).1 = .ok a → ¬Faulty (body (opened s)).2 →
    (block body s).1 = .ok a
  kept : ∀ a, (block body s).1 = .ok a →
    (body (opened s)).1 = .ok a ∧ Kept s (body (opened s)).2 (block body s).2

/-- The states of runs in which no seal happens inside a block and no commit of a write fails. -/
inductive Governed (cfg : Config) (clock : Clock) : StoreState → Prop
  | start (faults : List Bool) : Governed cfg clock { faults := faults }
  | write {s : StoreState} (h : Governed cfg clock s) (a : WriteArgs)
      (hcommit : s.txnDepth = 0 → Faulty s ∨ ¬Faulty (passFault s)) :
      Governed cfg clock (Store.write cfg clock a s).2
  | sealArchive {s : StoreState} (h : Governed cfg clock s) (hdepth : s.txnDepth = 0)
      (row : ArchiveRow) : Governed cfg clock (Store.sealArchive row s).2
  | enter {s : StoreState} (h : Governed cfg clock s) : Governed cfg clock (beginTxn s).2
  | inside {s : StoreState} {α : Type} {m : Proc StoreState Exc α} (h : Governed cfg clock s)
      (hdepth : 0 < s.txnDepth) (hm : StoreProgram cfg clock false m) : Governed cfg clock (m s).2
  | block {s : StoreState} {α : Type} {m : Proc StoreState Exc α} (h : Governed cfg clock s)
      (hm : StoreProgram cfg clock false m) : Governed cfg clock (Store.block m s).2

/-- A commit of everything that is pending. -/
theorem wellNested_commit {s : StoreState} (hdepth : s.txnDepth = 0)
    (hfrontier : s.tip = hydrateTip (rows s)) : WellNested { s with conn := s.conn.commit } := by
  constructor
  · intro sp hsp
    exact absurd hsp List.not_mem_nil
  · intro hpos
    exact absurd hdepth (Nat.pos_iff_ne_zero.mp hpos)
  · intro _
    rfl
  · exact hfrontier

theorem wellNested_write {s : StoreState} (hs : WellNested s) (hdepth : s.txnDepth = 0)
    (a : WriteArgs) (hcommit : Faulty s ∨ ¬Faulty (passFault s)) :
    WellNested (Store.write cfg clock a s).2 := by
  cases hr : resolveWrite cfg.toEnv a with
  | error e =>
    rw [write_of_unresolved hr]
    exact hs
  | ok r =>
    have hsampled : Inside s (sampled cfg a s) := Inside.of_conn hs rfl rfl rfl rfl
    cases hp : planned cfg clock a r s with
    | error e =>
      rw [write_of_unplanned hr hp]
      rcases unplanned_cases cfg clock a r s with hstop | hstop
      · rw [hstop]
        exact hsampled.wellNested
      · rw [hstop]
        exact wellNested_began hsampled.wellNested
    | ok x =>
      obtain ⟨receipt, row⟩ := x
      rw [write_of_planned hr hp]
      rcases append_cases receipt row (sampled cfg a s) with
        ⟨_, happ⟩ | ⟨hf, _, hc, _⟩ | ⟨_, _, happ⟩
      · have hpass : Inside (began (sampled cfg a s)) (passFault (began (sampled cfg a s))) :=
          Inside.of_conn (wellNested_began hsampled.wellNested) rfl rfl rfl rfl
        rw [happ]
        exact hpass.wellNested
      · -- the INSERT met no failure and the commit none either
        rcases hcommit with h | h
        · exact absurd h hf
        · exact absurd hc h
      · have hzero : (sampled cfg a s).txnDepth = 0 := hdepth
        have htip := hydrateTip_of_planned (s.conn.current.seq + 1) (rows s) hp
        rw [happ, appended, if_pos hzero]
        exact @wellNested_commit { passFault (inserted row (sampled cfg a s)) with
          tip := tipOf receipt } hdepth htip.symm

/-- The archive with one more row, unless its key is there. -/
def archived (row : ArchiveRow) (t : Tables) : Tables :=
  if t.archive.any (fun old => old.key == row.key) then t
  else { t with archive := t.archive ++ [row] }

theorem rows_archived (row : ArchiveRow) (t : Tables) : (archived row t).rows = t.rows := by
  rw [archived]
  split <;> rfl

/-- What a seal leaves: nothing, a pending archive row, or a commit. -/
theorem sealArchive_cases (row : ArchiveRow) (s : StoreState) :
    (Faulty s ∧ Store.sealArchive row s = (.ok (), passFault (began s))) ∨
    (¬Faulty s ∧ Faulty (passFault s) ∧ Store.sealArchive row s =
      (.ok (), passFault { passFault s with conn := s.conn.change (archived row) })) ∨
    (¬Faulty s ∧ ¬Faulty (passFault s) ∧ Store.sealArchive row s =
      (.ok (), committed { passFault s with conn := s.conn.change (archived row) })) := by
  have hchange := changeTables_apply (archived row) s
  by_cases hf : Faulty s
  · refine .inl ⟨hf, ?_⟩
    rw [if_pos hf] at hchange
    rw [Store.sealArchive, Proc.bind_of_ok (Proc.attempt_apply _ _)]
    show (_, ((changeTables (archived row)) >>= fun _ => commit) s |>.2) = _
    rw [Proc.bind_of_error hchange]
  · refine .inr ?_
    rw [if_neg hf] at hchange
    have hcommit := commit_apply { passFault s with conn := s.conn.change (archived row) }
    have hseal : Store.sealArchive row s = (.ok (),
        (commit { passFault s with conn := s.conn.change (archived row) }).2) := by
      rw [Store.sealArchive, Proc.bind_of_ok (Proc.attempt_apply _ _)]
      show (_, ((changeTables (archived row)) >>= fun _ => commit) s |>.2) = _
      rw [Proc.bind_of_ok hchange]
    by_cases hc : Faulty (passFault s)
    · have hc' : Faulty { passFault s with conn := s.conn.change (archived row) } := hc
      rw [if_pos hc'] at hcommit
      exact .inl ⟨hf, hc, by rw [hseal, hcommit]⟩
    · have hc' : ¬Faulty { passFault s with conn := s.conn.change (archived row) } := hc
      rw [if_neg hc'] at hcommit
      exact .inr ⟨hf, hc, by rw [hseal, hcommit]⟩

theorem wellNested_sealArchive {s : StoreState} (hs : WellNested s) (hdepth : s.txnDepth = 0)
    (row : ArchiveRow) : WellNested (Store.sealArchive row s).2 := by
  have hrows : (archived row s.conn.current).rows = rows s := rows_archived row _
  have hfrontier : s.tip = hydrateTip (archived row s.conn.current).rows := by
    rw [hrows]
    exact hs.frontier
  rcases sealArchive_cases row s with ⟨_, hrun⟩ | ⟨_, _, hrun⟩ | ⟨_, _, hrun⟩
  · have hpass : Inside (began s) (passFault (began s)) :=
      Inside.of_conn (wellNested_began hs) rfl rfl rfl rfl
    rw [hrun]
    exact hpass.wellNested
  · -- the archive row is pending in an open transaction
    rw [hrun]
    constructor
    · exact hs.names
    · exact hs.nested
    · exact fun hidle => absurd hidle (not_idle_change _ _)
    · exact hfrontier
  · rw [hrun]
    exact @wellNested_commit (passFault { passFault s with conn := s.conn.change (archived row) })
      hdepth hfrontier

theorem wellNested_of_governed {s : StoreState} (h : Governed cfg clock s) : WellNested s := by
  induction h with
  | start faults =>
    exact ⟨fun sp hsp => absurd hsp List.not_mem_nil, fun hpos => absurd hpos (lt_irrefl 0),
      fun _ => rfl, rfl⟩
  | @write s _ a hcommit ih =>
    by_cases hdepth : s.txnDepth = 0
    · exact wellNested_write ih hdepth a (hcommit hdepth)
    · exact (inBlock_write a s ih (Nat.pos_of_ne_zero hdepth)).wellNested
  | sealArchive _ hdepth row ih => exact wellNested_sealArchive ih hdepth row
  | enter _ ih => exact ih.opened
  | inside _ hdepth hm ih => exact (inside_of_program hm _ ih hdepth).wellNested
  | @block s _ m _ hm ih =>
    have hin := inside_of_program hm (opened s) ih.opened (Nat.succ_pos _)
    rcases block_cases ih hin with ⟨e, s', hrun, _, _, hinside⟩ | ⟨a, _, hrun⟩
    · rw [hrun]
      exact hinside.wellNested
    · rw [hrun]
      exact wellNested_released ih hin

/-- A block whose body does not seal is atomic, at every depth: from a state no commit of a write
    has failed before, with no transaction open on the connection when the block is outermost. -/
theorem block_atomic {α : Type} {body : Proc StoreState Exc α} {s : StoreState}
    (hs : Governed cfg clock s) (hidle : s.txnDepth = 0 → s.conn.Idle)
    (hbody : StoreProgram cfg clock false body) : Atomic s body := by
  have hwell := wellNested_of_governed hs
  have hin := inside_of_program hbody (opened s) hwell.opened (Nat.succ_pos _)
  rcases block_cases hwell hin with ⟨e, s', hrun, hfault, hundone, _⟩ | ⟨a, ha, hrun⟩
  · constructor
    · exact fun _ _ => ⟨e, by rw [hrun]⟩
    · intro _ _
      rw [hrun]
      exact hundone
    · exact fun a ha hclear => absurd (hfault a ha) hclear
    · intro a ha
      rw [hrun] at ha
      exact nomatch ha
  · constructor
    · intro e he
      rw [ha] at he
      exact nomatch he
    · intro e he
      rw [hrun] at he
      exact nomatch he
    · intro a' ha' _
      rw [hrun]
      exact ha.symm.trans ha'
    · intro a' ha'
      rw [hrun] at ha' ⊢
      refine ⟨ha.trans ha', rfl, rfl, hin.wellNested.frontier, fun hdepth => ?_⟩
      -- the outermost RELEASE commits
      obtain ⟨hempty, hbegun⟩ := hidle hdepth
      have hout : (s.conn.savepoints.isEmpty && !(body (opened s)).2.conn.begun) = true := by
        have hbegun' : (body (opened s)).2.conn.begun = false := hin.begun.trans hbegun
        rw [hempty, hbegun']
        rfl
      show (if s.conn.savepoints.isEmpty && !(body (opened s)).2.conn.begun then _ else _) = _
      rw [if_pos hout]
      rfl

/-- A block in a new store that writes and then raises. -/
def raisingBody (cfg : Config) (clock : Clock) : Proc StoreState Exc Unit := do
  let _ ← Store.write cfg clock plainWrite
  Proc.raise (.userException "stop")

theorem storeProgram_raisingBody (cfg : Config) (clock : Clock) (seals : Bool) :
    StoreProgram cfg clock seals (raisingBody cfg clock) :=
  .bind (.write plainWrite) fun _ => .raise _

/-- It leaves nothing. -/
theorem block_atomic_raisingBody :
    Atomic {} (raisingBody sampleRuntime.toConfig sampleRuntime.clock) :=
  block_atomic (.start []) (fun _ => ⟨rfl, rfl⟩)
    (storeProgram_raisingBody sampleRuntime.toConfig sampleRuntime.clock false)

/-! ## A seal inside a block -/

/-- The same block with a seal after its write. -/
def sealedBody (cfg : Config) (clock : Clock) (model : AuthorityModel) :
    Proc StoreState Exc Unit := do
  let _ ← Store.write cfg clock plainWrite
  sealAuthorityModel model
  Proc.raise (.userException "stop")

theorem storeProgram_sealedBody (cfg : Config) (clock : Clock) (model : AuthorityModel) :
    StoreProgram cfg clock true (sealedBody cfg clock model) :=
  .bind (.write plainWrite) fun _ => .bind (.sealArchive rfl (.authorityModel model)) fun _ => .raise _

/-- The exit after an exception, when the savepoint is gone. -/
theorem abortTxn_of_empty {t : Txn} {s : StoreState} (h : s.conn.savepoints = []) :
    abortTxn t s =
      (.error noSuchSavepoint, { s with txnDepth := s.txnDepth - 1, tip := t.tip }) := by
  have hleave : leaveTxn s = (.ok (), { s with txnDepth := s.txnDepth - 1 }) := rfl
  have hback : Store.rollbackTo t.name { s with txnDepth := s.txnDepth - 1 } =
      (.error noSuchSavepoint, { s with txnDepth := s.txnDepth - 1 }) := by
    rw [Store.rollbackTo, Conn.rollbackTo, h]
    rfl
  have hrun : rollbackAndRelease t.name { s with txnDepth := s.txnDepth - 1 } =
      (.error noSuchSavepoint, { s with txnDepth := s.txnDepth - 1 }) := by
    rw [rollbackAndRelease, Proc.bind_of_error hback]
  rw [abortTxn, Proc.bind_of_ok hleave, Proc.bind_of_ok (Proc.attempt_apply _ _), hrun,
    Proc.bind_of_ok (m := restoreTip t.tip) rfl, Proc.lift_apply]

/-- The seal makes the row of the write durable, and the savepoint that would take it back is gone. -/
theorem sealedBody_apply (cfg : Config) (clock : Clock) (model : AuthorityModel) :
    ∃ s' row, sealedBody cfg clock model (opened {}) = (.error (.userException "stop"), s') ∧
      s'.conn.savepoints = [] ∧ s'.conn.durable.rows = [row] := by
  obtain ⟨r, receipt, row, hr, hplan⟩ :=
    @planned_of_accepted cfg plainWrite (opened {}) clock (accepted_plainWrite cfg _)
  have hclear : ¬Faulty (sampled cfg plainWrite (opened {})) := by
    intro hf
    exact nomatch hf.cons
  have hwrite := write_of_planned hr hplan
  rcases append_cases receipt row (sampled cfg plainWrite (opened {})) with
    ⟨hf, _⟩ | ⟨_, hzero, _⟩ | ⟨_, _, happ⟩
  · exact absurd hf hclear
  · exact nomatch hzero
  · rw [happ] at hwrite
    rcases sealArchive_cases (.authorityModel model)
      (appended receipt row (sampled cfg plainWrite (opened {}))) with
      ⟨hf, _⟩ | ⟨_, hf, _⟩ | ⟨_, _, hseal⟩
    · exact nomatch hf.cons
    · exact nomatch hf.cons
    · refine ⟨_, { row with receiptId := 1 },
        (Proc.bind_of_ok hwrite).trans (Proc.bind_of_ok hseal), rfl, ?_⟩
      exact (rows_archived _ _).trans (rows_appended receipt row _)

theorem not_atomic_sealedBody (cfg : Config) (clock : Clock) (model : AuthorityModel) :
    ¬Atomic {} (sealedBody cfg clock model) := by
  intro h
  obtain ⟨s', row, hbody, hempty, hdurable⟩ := sealedBody_apply cfg clock model
  have hrun := block_of_error hbody
  rw [Proc.bind_of_error (abortTxn_of_empty hempty)] at hrun
  have hundone := (h.undone _ (congrArg Prod.fst hrun)).durable
  rw [hrun] at hundone
  have hnone : s'.conn.durable.rows = [] := congrArg Tables.rows hundone
  rw [hdurable] at hnone
  exact nomatch hnone

/-- A seal inside a block commits what the block wrote before it. -/
theorem sealed_block_not_atomic :
    ¬∀ body : Proc StoreState Exc Unit,
      StoreProgram sampleRuntime.toConfig sampleRuntime.clock true body → Atomic {} body := by
  intro h
  exact not_atomic_sealedBody sampleRuntime.toConfig sampleRuntime.clock ⟨"m", "custom", false, false⟩
    (h _ (storeProgram_sealedBody _ _ _))

end Ugk
