import Ugk.Native.Store

/-!
# What one write can do

`Store.write` is a pure plan followed by the append of the planned row.  `write_eq` splits it so;
`append_cases` lists the outcomes of the append: locked at the INSERT, locked at the commit with the
row pending, or done.

## Key results

- `write_eq`, `append_cases`
- `write_ok`: a write that returns appends the row it planned and moves the tip to it
-/

namespace Ugk

/-! ## Exceptions -/

/-- A computation that returns has returned at its first step. -/
theorem Except.bind_eq_ok {ε α β : Type} {x : Except ε α} {f : α → Except ε β} {b : β}
    (h : x >>= f = .ok b) : ∃ a, x = .ok a ∧ f a = .ok b := by
  cases x with
  | error e => exact nomatch h
  | ok a => exact ⟨a, rfl, h⟩

theorem Except.map_eq_ok {ε α β : Type} {x : Except ε α} {f : α → β} {b : β}
    (h : x.map f = .ok b) : ∃ a, x = .ok a ∧ f a = b := by
  cases x with
  | error e => exact nomatch h
  | ok a => exact ⟨a, rfl, Except.ok.inj h⟩

theorem isStr_iff {s : String} {v : PyVal} : v.isStr s = true ↔ v = .str s := by
  cases v <;> simp [PyVal.isStr]

namespace Store

/-! ## The statements -/

theorem statement_of_fault {f : StoreState → Except Exc StoreState} {s : StoreState}
    {rest : List Bool} (h : s.faults = true :: rest) :
    statement f s = (.error locked, { s with faults := rest }) := by
  rw [statement, h]

theorem statement_of_clear {f : StoreState → Except Exc StoreState} {s s' : StoreState}
    (h : s.faults.head? ≠ some true) (hf : f { s with faults := s.faults.tail } = .ok s') :
    statement f s = (.ok (), s') := by
  rw [statement]
  split
  · rename_i rest heq
    rw [heq] at h
    exact absurd rfl h
  · rw [hf]

/-- The next statement meets a transient failure. -/
def Faulty (s : StoreState) : Prop := s.faults.head? = some true

instance (s : StoreState) : Decidable (Faulty s) := by unfold Faulty; infer_instance

theorem not_faulty_of_nil {s : StoreState} (h : s.faults = []) : ¬Faulty s := by
  rw [Faulty, h]
  exact fun hf => nomatch hf

theorem Faulty.cons {s : StoreState} (h : Faulty s) : s.faults = true :: s.faults.tail := by
  rw [Faulty] at h
  cases hf : s.faults with
  | nil => rw [hf] at h; exact nomatch h
  | cons b rest => rw [hf] at h; cases h; rfl

/-- One entry of the failure schedule is used up. -/
def passFault (s : StoreState) : StoreState := { s with faults := s.faults.tail }

/-- The state after the implicit BEGIN. -/
def began (s : StoreState) : StoreState := { s with conn := s.conn.implicitBegin }

/-- The state after the INSERT. -/
def inserted (row : Row) (s : StoreState) : StoreState :=
  { passFault s with
    conn := s.conn.change fun t =>
      { t with rows := t.rows ++ [{ row with receiptId := t.seq + 1 }], seq := t.seq + 1 } }

/-- The state after a commit. -/
def committed (s : StoreState) : StoreState := { passFault s with conn := s.conn.commit }

/-- The tables are the ones of before, on the connection and on disk. -/
structure SameTables (s s' : StoreState) : Prop where
  current : s'.conn.current = s.conn.current
  durable : s'.conn.durable = s.conn.durable

theorem SameTables.refl (s : StoreState) : SameTables s s := ⟨rfl, rfl⟩

theorem SameTables.trans {a b c : StoreState} (hab : SameTables a b) (hbc : SameTables b c) :
    SameTables a c :=
  ⟨hbc.current.trans hab.current, hbc.durable.trans hab.durable⟩

theorem SameTables.rows_eq {s s' : StoreState} (h : SameTables s s') : rows s' = rows s :=
  congrArg Tables.rows h.current

theorem SameTables.durableRows_eq {s s' : StoreState} (h : SameTables s s') :
    durableRows s' = durableRows s :=
  congrArg Tables.rows h.durable

/-- A second BEGIN does nothing. -/
theorem implicitBegin_idem (c : Conn) : c.implicitBegin.implicitBegin = c.implicitBegin := by
  simp [Conn.implicitBegin]

theorem change_implicitBegin (f : Tables → Tables) (c : Conn) :
    c.implicitBegin.change f = c.change f := by
  simp [Conn.implicitBegin, Conn.change]

/-- What a data-changing statement does. -/
theorem changeTables_apply (f : Tables → Tables) (s : StoreState) :
    changeTables f s = if Faulty s then (.error locked, passFault (began s))
      else (.ok (), { passFault s with conn := s.conn.change f }) := by
  have hbegin : implicitBegin s = (.ok (), began s) := rfl
  rw [changeTables, Proc.bind_of_ok hbegin]
  split
  · rename_i h
    have h' : Faulty (began s) := h
    rw [statement_of_fault h'.cons]
    rfl
  · rename_i h
    refine statement_of_clear h ?_
    show Except.ok { passFault s with conn := s.conn.implicitBegin.change f } = _
    rw [change_implicitBegin]

theorem insert_apply (row : Row) (s : StoreState) :
    insert row s = if Faulty s then (.error locked, passFault (began s))
      else (.ok (), inserted row s) :=
  changeTables_apply _ s

theorem commit_apply (s : StoreState) :
    commit s = if Faulty s then (.error locked, passFault s) else (.ok (), committed s) := by
  split
  · rename_i h
    rw [commit, statement_of_fault h.cons]
    rfl
  · rename_i h
    rw [commit, statement_of_clear h]
    rfl

/-! ## The append -/

/-- The effectful tail of `write`: INSERT, commit at depth 0, tip update. -/
def append (receipt : Receipt) (row : Row) : Proc StoreState Exc Receipt := do
  insert row
  let s ← Proc.get
  commitUnlessNested
  advanceTip receipt
  pure { receipt with receiptId := s.conn.current.seq }

/-- The tip a receipt leaves. -/
def tipOf (receipt : Receipt) : Tip :=
  { priorHR := receipt.hR, priorHM := some receipt.hM, priorIntentRef := some receipt.intentRef }

/-- The state after a write that returned. -/
def appended (receipt : Receipt) (row : Row) (s : StoreState) : StoreState :=
  { (if s.txnDepth = 0 then committed (inserted row s) else inserted row s) with
    tip := tipOf receipt }

/-- The outcomes of the append. -/
theorem append_cases (receipt : Receipt) (row : Row) (s : StoreState) :
    (Faulty s ∧ append receipt row s = (.error locked, passFault (began s))) ∨
    (¬Faulty s ∧ s.txnDepth = 0 ∧ Faulty (inserted row s) ∧
      append receipt row s = (.error locked, passFault (inserted row s))) ∨
    (¬Faulty s ∧ (s.txnDepth = 0 → ¬Faulty (inserted row s)) ∧
      append receipt row s =
        (.ok { receipt with receiptId := s.conn.current.seq + 1 }, appended receipt row s)) := by
  by_cases hf : Faulty s
  · refine .inl ⟨hf, ?_⟩
    have hins : insert row s = (.error locked, passFault (began s)) := by
      rw [insert_apply, if_pos hf]
    rw [append, Proc.bind_of_error hins]
  · have hins : insert row s = (.ok (), inserted row s) := by rw [insert_apply, if_neg hf]
    have hdepth : (inserted row s).txnDepth = s.txnDepth := rfl
    refine .inr ?_
    by_cases hd : s.txnDepth = 0
    · by_cases hc : Faulty (inserted row s)
      · refine .inl ⟨hf, hd, hc, ?_⟩
        have hcommit : commitUnlessNested (inserted row s) =
            (.error locked, passFault (inserted row s)) := by
          rw [commitUnlessNested, Proc.bind_of_ok (Proc.get_apply _), if_pos (hdepth.trans hd),
            commit_apply, if_pos hc]
        rw [append, Proc.bind_of_ok hins, Proc.bind_of_ok (Proc.get_apply _),
          Proc.bind_of_error hcommit]
      · refine .inr ⟨hf, fun _ => hc, ?_⟩
        have hcommit : commitUnlessNested (inserted row s) =
            (.ok (), committed (inserted row s)) := by
          rw [commitUnlessNested, Proc.bind_of_ok (Proc.get_apply _), if_pos (hdepth.trans hd),
            commit_apply, if_neg hc]
        rw [append, Proc.bind_of_ok hins, Proc.bind_of_ok (Proc.get_apply _),
          Proc.bind_of_ok hcommit, appended, if_pos hd]
        rfl
    · refine .inr ⟨hf, fun h => absurd h hd, ?_⟩
      have hskip : commitUnlessNested (inserted row s) = (.ok (), inserted row s) := by
        rw [commitUnlessNested, Proc.bind_of_ok (Proc.get_apply _), if_neg (hdepth ▸ hd)]
        rfl
      rw [append, Proc.bind_of_ok hins, Proc.bind_of_ok (Proc.get_apply _), Proc.bind_of_ok hskip,
        appended, if_neg hd]
      rfl

/-! ## The write -/

/-- The state in which a write plans its receipt: the clock has been read and the default edge of
    the authority is in place. -/
def sampled (cfg : Config) (a : WriteArgs) (s : StoreState) : StoreState :=
  { s with ticks := s.ticks + 1, built := ensureDefaultEdgeFor cfg s.built a.authority }

/-- The receipt and row a write plans in a state. -/
def planned (cfg : Config) (clock : Clock) (a : WriteArgs) (r : Resolved) (s : StoreState) :
    Except Exc (Receipt × Row) :=
  planWrite cfg (sampled cfg a s).built s.tip (clock s.ticks) a r

/-- The append begins its transaction itself. -/
theorem append_began (receipt : Receipt) (row : Row) (s : StoreState) :
    append receipt row (began s) = append receipt row s := by
  have hins : insert row (began s) = insert row s := by
    have hbegan : began (began s) = began s :=
      congrArg (fun c => { s with conn := c }) (implicitBegin_idem s.conn)
    have hinserted : inserted row (began s) = inserted row s :=
      congrArg (fun c => { passFault s with conn := c }) (change_implicitBegin _ _)
    rw [insert_apply, insert_apply, hbegan, hinserted]
    rfl
  rw [append, Proc.bind_apply, Proc.bind_apply, hins]

/-- Where a write stops that plans no row: it has begun a transaction when a value cannot be bound. -/
def unplanned (cfg : Config) (clock : Clock) (a : WriteArgs) (r : Resolved) (s : StoreState) :
    StoreState :=
  match planReceipt cfg (sampled cfg a s).built s.tip (clock s.ticks) a r with
  | .error _ => sampled cfg a s
  | .ok _ => began (sampled cfg a s)

/-- A write is its resolution, its plan, and the append of the planned row. -/
theorem write_eq (cfg : Config) (clock : Clock) (a : WriteArgs) (s : StoreState) :
    write cfg clock a s =
      match resolveWrite cfg.toEnv a with
      | .error e => (.error e, s)
      | .ok r =>
        match planned cfg clock a r s with
        | .error e => (.error e, unplanned cfg clock a r s)
        | .ok (receipt, row) => append receipt row (sampled cfg a s) := by
  cases hr : resolveWrite cfg.toEnv a with
  | error e =>
    have hlift : (Proc.lift (resolveWrite cfg.toEnv a) : Proc StoreState Exc Resolved) s =
        (.error e, s) := by rw [hr, Proc.lift_error]
    rw [write, Proc.bind_of_error hlift]
  | ok r =>
    have hlift : (Proc.lift (resolveWrite cfg.toEnv a) : Proc StoreState Exc Resolved) s =
        (.ok r, s) := by rw [hr, Proc.lift_ok]
    rw [write, Proc.bind_of_ok hlift, Proc.bind_of_ok (m := now clock) rfl,
      Proc.bind_of_ok (m := ensureEdge cfg a.authority) rfl, Proc.bind_of_ok (Proc.get_apply _)]
    change (Proc.lift (planReceipt cfg (sampled cfg a s).built s.tip (clock s.ticks) a r) >>= _)
      (sampled cfg a s) = _
    unfold planned planWrite unplanned
    dsimp only
    cases hplan : planReceipt cfg (sampled cfg a s).built s.tip (clock s.ticks) a r with
    | error e => rfl
    | ok receipt =>
      have hbegin : implicitBegin (sampled cfg a s) = (.ok (), began (sampled cfg a s)) := rfl
      rw [Proc.bind_of_ok (Proc.lift_ok receipt _), Proc.bind_of_ok hbegin]
      show _ = match (rowOfReceipt cfg.toEnv a.compress r.parametersJson receipt >>= fun row =>
          Except.ok (receipt, row)) with
        | Except.error e => (Except.error e, began (sampled cfg a s))
        | Except.ok (receipt, row) => append receipt row (sampled cfg a s)
      cases hrow : rowOfReceipt cfg.toEnv a.compress r.parametersJson receipt with
      | error e => rfl
      | ok row => exact append_began receipt row (sampled cfg a s)

theorem write_of_unresolved {cfg : Config} {clock : Clock} {a : WriteArgs} {s : StoreState} {e : Exc}
    (hr : resolveWrite cfg.toEnv a = .error e) : write cfg clock a s = (.error e, s) := by
  rw [write_eq, hr]

theorem write_of_unplanned {cfg : Config} {clock : Clock} {a : WriteArgs} {s : StoreState}
    {r : Resolved} {e : Exc} (hr : resolveWrite cfg.toEnv a = .ok r)
    (hp : planned cfg clock a r s = .error e) :
    write cfg clock a s = (.error e, unplanned cfg clock a r s) := by
  rw [write_eq, hr]
  dsimp only
  rw [hp]

theorem unplanned_cases (cfg : Config) (clock : Clock) (a : WriteArgs) (r : Resolved)
    (s : StoreState) : unplanned cfg clock a r s = sampled cfg a s ∨
      unplanned cfg clock a r s = began (sampled cfg a s) := by
  unfold unplanned
  split
  · exact .inl rfl
  · exact .inr rfl

theorem unplanned_tables (cfg : Config) (clock : Clock) (a : WriteArgs) (r : Resolved)
    (s : StoreState) : SameTables s (unplanned cfg clock a r s) := by
  rcases unplanned_cases cfg clock a r s with hstop | hstop
  · rw [hstop]
    exact ⟨rfl, rfl⟩
  · rw [hstop]
    exact ⟨rfl, rfl⟩

theorem write_of_planned {cfg : Config} {clock : Clock} {a : WriteArgs} {s : StoreState}
    {r : Resolved} {receipt : Receipt} {row : Row} (hr : resolveWrite cfg.toEnv a = .ok r)
    (hp : planned cfg clock a r s = .ok (receipt, row)) :
    write cfg clock a s = append receipt row (sampled cfg a s) := by
  rw [write_eq, hr]
  dsimp only
  rw [hp]

/-- A write that returns has planned a row, met no failure and appended the row. -/
theorem write_ok {cfg : Config} {clock : Clock} {a : WriteArgs} {s : StoreState} {receipt : Receipt}
    (h : (write cfg clock a s).1 = .ok receipt) :
    ∃ r planned' row, resolveWrite cfg.toEnv a = .ok r ∧
      planned cfg clock a r s = .ok (planned', row) ∧
      receipt = { planned' with receiptId := s.conn.current.seq + 1 } ∧
      (write cfg clock a s).2 = appended planned' row (sampled cfg a s) := by
  cases hr : resolveWrite cfg.toEnv a with
  | error e => rw [write_of_unresolved hr] at h; exact nomatch h
  | ok r =>
    cases hp : planned cfg clock a r s with
    | error e => rw [write_of_unplanned hr hp] at h; exact nomatch h
    | ok x =>
      obtain ⟨planned', row⟩ := x
      rw [write_of_planned hr hp] at h ⊢
      rcases append_cases planned' row (sampled cfg a s) with
        ⟨_, happ⟩ | ⟨_, _, _, happ⟩ | ⟨_, _, happ⟩
      · rw [happ] at h; exact nomatch h
      · rw [happ] at h; exact nomatch h
      · rw [happ] at h ⊢
        exact ⟨r, planned', row, rfl, hp, (Except.ok.inj h).symm, rfl⟩

@[simp] theorem rows_appended (receipt : Receipt) (row : Row) (s : StoreState) :
    rows (appended receipt row s) =
      rows s ++ [{ row with receiptId := s.conn.current.seq + 1 }] := by
  rw [appended]
  split <;> rfl

@[simp] theorem tip_appended (receipt : Receipt) (row : Row) (s : StoreState) :
    (appended receipt row s).tip = tipOf receipt := rfl

@[simp] theorem seq_appended (receipt : Receipt) (row : Row) (s : StoreState) :
    (appended receipt row s).conn.current.seq = s.conn.current.seq + 1 := by
  rw [appended]
  split <;> rfl

@[simp] theorem built_appended (receipt : Receipt) (row : Row) (s : StoreState) :
    (appended receipt row s).built = s.built := by
  rw [appended]
  split <;> rfl

/-- A store without pending failures has none after a write. -/
theorem faults_appended {s : StoreState} (receipt : Receipt) (row : Row) (h : s.faults = []) :
    (appended receipt row s).faults = [] := by
  rw [appended]
  split
  · show s.faults.tail.tail = []
    rw [h]
    rfl
  · show s.faults.tail = []
    rw [h]
    rfl

@[simp] theorem txnDepth_appended (receipt : Receipt) (row : Row) (s : StoreState) :
    (appended receipt row s).txnDepth = s.txnDepth := by
  rw [appended]
  split <;> rfl

end Store

end Ugk
