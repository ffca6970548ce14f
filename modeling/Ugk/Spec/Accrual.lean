import Ugk.ForStd.Stepwise
import Ugk.Spec.Transaction
import Ugk.Spec.Written

/-!
# Receipts that only accrue

A law says what may be receipted after which receipts.  Whatever a program does to the store with
writes that follow the law, seals, and blocks that end either way, the receipts it finds stay where
they are and the new ones follow the law.  A block takes back what came after its savepoint and no
more: older savepoints are the ones that were there, and a seal that commits leaves none to go back
to.

## Key results

- `Accrues`, `AccruesFrom`: what one step keeps, from where some receipts are
- `accruesFrom_write`, `accruesFrom_sealArchive`, `accruesFrom_transaction`
-/

namespace Ugk

open Store

variable {env : Env} {law : List Receipt → Receipt → Prop}

/-! ## Ledgers -/

/-- The table reads as these receipts, each of which the law allows after the ones before. -/
structure Ledger (env : Env) (law : List Receipt → Receipt → Prop) (t : Tables)
    (rs : List Receipt) : Prop where
  reads : allReceipts env t.rows = .ok rs
  lawful : Stepwise law rs

theorem ledger_empty {t : Tables} (h : t.rows = []) : Ledger env law t [] := by
  refine ⟨?_, Stepwise.nil⟩
  rw [h]
  rfl

theorem Ledger.unique {t : Tables} {rs rs' : List Receipt} (h : Ledger env law t rs)
    (h' : Ledger env law t rs') : rs = rs' := Except.ok.inj (h.reads.symm.trans h'.reads)

theorem Ledger.of_rows {t t' : Tables} {rs : List Receipt} (h : Ledger env law t rs)
    (hrows : t'.rows = t.rows) : Ledger env law t' rs := ⟨hrows ▸ h.reads, h.lawful⟩

theorem Ledger.concat {t t' : Tables} {rs : List Receipt} {row : Row} {read : Receipt}
    (h : Ledger env law t rs) (hrows : t'.rows = t.rows ++ [row])
    (hread : rowToReceipt env row = .ok read) (hlaw : law rs read) :
    Ledger env law t' (rs ++ [read]) := by
  refine ⟨?_, stepwise_concat.mpr ⟨h.lawful, hlaw⟩⟩
  rw [hrows, allReceipts_append _ hread, h.reads]
  rfl

/-! ## One step -/

/-- The names of the open savepoints are used up. -/
def NamesUsed (s : StoreState) : Prop := ∀ sp ∈ s.conn.savepoints, sp.1 < s.spCounter

/-- Receipts are only added, on the connection and on disk, and every savepoint is an old one or has
    a new name. -/
structure Accrues (env : Env) (law : List Receipt → Receipt → Prop) (s s' : StoreState) : Prop where
  counter : s.spCounter ≤ s'.spCounter
  stack : ∀ sp ∈ s'.conn.savepoints,
    sp ∈ s.conn.savepoints ∨ s.spCounter ≤ sp.1 ∧ sp.1 < s'.spCounter
  current : ∀ rs, Ledger env law s.conn.current rs → ∃ new, Ledger env law s'.conn.current (rs ++ new)
  durable : (∃ rs, Ledger env law s.conn.current rs) → (∃ rs, Ledger env law s.conn.durable rs) →
    ∃ rs, Ledger env law s'.conn.durable rs

theorem Accrues.fresh {s s' : StoreState} (h : Accrues env law s s') (hs : NamesUsed s) :
    NamesUsed s' := by
  intro sp hsp
  rcases h.stack sp hsp with hold | ⟨-, hnew⟩
  · exact (hs sp hold).trans_le h.counter
  · exact hnew

theorem Accrues.trans {a b c : StoreState} (hab : Accrues env law a b) (hbc : Accrues env law b c) :
    Accrues env law a c where
  counter := hab.counter.trans hbc.counter
  stack := by
    intro sp hsp
    rcases hbc.stack sp hsp with hold | ⟨hlow, hhigh⟩
    · rcases hab.stack sp hold with hold | ⟨hlow, hhigh⟩
      · exact .inl hold
      · exact .inr ⟨hlow, hhigh.trans_le hbc.counter⟩
    · exact .inr ⟨hab.counter.trans hlow, hhigh⟩
  current := by
    intro rs hrs
    obtain ⟨new, hnew⟩ := hab.current rs hrs
    obtain ⟨new', hnew'⟩ := hbc.current _ hnew
    refine ⟨new ++ new', ?_⟩
    rw [← List.append_assoc]
    exact hnew'
  durable := by
    rintro ⟨rs, hrs⟩ hdurable
    obtain ⟨new, hnew⟩ := hab.current rs hrs
    exact hbc.durable ⟨_, hnew⟩ (hab.durable ⟨rs, hrs⟩ hdurable)

/-- A step that adds no receipt and opens no savepoint. -/
theorem accrues_of_rows {s s' : StoreState} (hcounter : s'.spCounter = s.spCounter)
    (hstack : ∀ sp ∈ s'.conn.savepoints, sp ∈ s.conn.savepoints)
    (hrows : s'.conn.current.rows = s.conn.current.rows)
    (hdurable : s'.conn.durable = s.conn.durable ∨ s'.conn.durable = s'.conn.current) :
    Accrues env law s s' where
  counter := hcounter.ge
  stack sp hsp := .inl (hstack sp hsp)
  current rs hrs := ⟨[], by rw [List.append_nil]; exact hrs.of_rows hrows⟩
  durable := by
    rintro ⟨rs, hrs⟩ hd
    rcases hdurable with hsame | hcommit
    · rw [hsame]
      exact hd
    · rw [hcommit]
      exact ⟨rs, hrs.of_rows hrows⟩

theorem accrues_of_conn {s s' : StoreState} (hcounter : s'.spCounter = s.spCounter)
    (hconn : s'.conn = s.conn) : Accrues env law s s' := by
  apply accrues_of_rows hcounter
  · rw [hconn]
    exact fun _ h => h
  · rw [hconn]
  · rw [hconn]
    exact .inl rfl

theorem accrues_refl (s : StoreState) : Accrues env law s s := accrues_of_conn rfl rfl

/-! ## Steps from where some receipts are -/

/-- What the step does where every one of the given kinds of receipt is in the table. -/
def AccruesFrom (env : Env) (law : List Receipt → Receipt → Prop) (kinds : List (Receipt → Prop))
    (s s' : StoreState) : Prop :=
  NamesUsed s → (∃ rs, Ledger env law s.conn.current rs ∧ ∀ kind ∈ kinds, ∃ r ∈ rs, kind r) →
    Accrues env law s s'

variable {kinds : List (Receipt → Prop)}

theorem accruesFrom_refl (s : StoreState) : AccruesFrom env law kinds s s := fun _ _ => accrues_refl s

/-- What was there is still there. -/
theorem Accrues.present {s s' : StoreState} (h : Accrues env law s s')
    (hs : ∃ rs, Ledger env law s.conn.current rs ∧ ∀ kind ∈ kinds, ∃ r ∈ rs, kind r) :
    ∃ rs, Ledger env law s'.conn.current rs ∧ ∀ kind ∈ kinds, ∃ r ∈ rs, kind r := by
  obtain ⟨rs, hrs, hkinds⟩ := hs
  obtain ⟨new, hnew⟩ := h.current rs hrs
  refine ⟨rs ++ new, hnew, fun kind hkind => ?_⟩
  obtain ⟨r, hr, hr'⟩ := hkinds kind hkind
  exact ⟨r, List.mem_append_left new hr, hr'⟩

theorem accruesFrom_trans {a b c : StoreState} (hab : AccruesFrom env law kinds a b)
    (hbc : AccruesFrom env law kinds b c) : AccruesFrom env law kinds a c := by
  intro hfresh hpresent
  have h := hab hfresh hpresent
  exact h.trans (hbc (h.fresh hfresh) (h.present hpresent))

/-- What holds wherever there is a ledger holds where some receipts are. -/
theorem AccruesFrom.of_any {s s' : StoreState} (h : AccruesFrom env law [] s s') :
    AccruesFrom env law kinds s s' := by
  rintro hfresh ⟨rs, hrs, -⟩
  exact h hfresh ⟨rs, hrs, fun _ hkind => absurd hkind List.not_mem_nil⟩

/-! ## Writes and seals -/

section Statements

variable {cfg : Config} {clock : Clock}

/-- What a write does to the connection besides its row. -/
theorem write_conn (a : WriteArgs) (s : StoreState) :
    (Store.write cfg clock a s).2.spCounter = s.spCounter ∧
      (∀ sp ∈ (Store.write cfg clock a s).2.conn.savepoints, sp ∈ s.conn.savepoints) ∧
      ((Store.write cfg clock a s).2.conn.durable = s.conn.durable ∨
        (Store.write cfg clock a s).2.conn.durable =
          (Store.write cfg clock a s).2.conn.current) := by
  cases hr : resolveWrite cfg.toEnv a with
  | error e =>
    rw [write_of_unresolved hr]
    exact ⟨rfl, fun _ h => h, .inl rfl⟩
  | ok r =>
    cases hp : planned cfg clock a r s with
    | error e =>
      rw [write_of_unplanned hr hp]
      rcases unplanned_cases cfg clock a r s with hstop | hstop
      · rw [hstop]
        exact ⟨rfl, fun _ h => h, .inl rfl⟩
      · rw [hstop]
        exact ⟨rfl, fun _ h => h, .inl rfl⟩
    | ok x =>
      obtain ⟨receipt, row⟩ := x
      rw [write_of_planned hr hp]
      rcases append_cases receipt row (sampled cfg a s) with
        ⟨_, happ⟩ | ⟨_, _, _, happ⟩ | ⟨_, _, happ⟩
      · rw [happ]
        exact ⟨rfl, fun _ h => h, .inl rfl⟩
      · rw [happ]
        exact ⟨rfl, fun _ h => h, .inl rfl⟩
      · rw [happ]
        unfold appended
        split
        · exact ⟨rfl, fun _ h => absurd h List.not_mem_nil, .inr rfl⟩
        · exact ⟨rfl, fun _ h => h, .inl rfl⟩

/-- A write whose row the law allows. -/
theorem accruesFrom_write {a : WriteArgs} (hlaw : ∀ rs row read, (∀ kind ∈ kinds, ∃ r ∈ rs, kind r) →
      ReadsAs cfg a row read → law rs read) :
    Proc.Steps (AccruesFrom cfg.toEnv law kinds) (Store.write cfg clock a) := by
  rintro s - ⟨rs, hrs, hkinds⟩
  obtain ⟨hcounter, hstack, hdurable⟩ := @write_conn cfg clock a s
  rcases @rows_of_write cfg clock a s with hrows | ⟨row, read, hrows, hread⟩
  · exact accrues_of_rows hcounter hstack hrows hdurable
  · have hledger := hrs.concat hrows hread.reads (hlaw rs row read hkinds hread)
    refine ⟨hcounter.ge, fun sp hsp => .inl (hstack sp hsp), fun rs' hrs' => ?_, fun _ hd => ?_⟩
    · rw [hrs'.unique hrs]
      exact ⟨[read], hledger⟩
    · rcases hdurable with hsame | hcommit
      · rw [hsame]
        exact hd
      · rw [hcommit]
        exact ⟨_, hledger⟩

/-- What comes after a write that returned has its receipt. -/
theorem AccruesFrom.after_write {a : WriteArgs} {s mid s' : StoreState} {receipt : Receipt}
    {kind : Receipt → Prop} (hw : Store.write cfg clock a s = (.ok receipt, mid))
    (hlaw : ∀ rs row read, (∀ kind ∈ kinds, ∃ r ∈ rs, kind r) → ReadsAs cfg a row read → law rs read)
    (hkind : ∀ row read, ReadsAs cfg a row read → row.hR = receipt.hR → kind read)
    (h : AccruesFrom cfg.toEnv law (kind :: kinds) mid s') : AccruesFrom cfg.toEnv law kinds s s' := by
  rintro hnames ⟨rs, hrs, hkinds⟩
  have hstep := @accruesFrom_write law kinds cfg clock a hlaw s hnames ⟨rs, hrs, hkinds⟩
  rw [hw] at hstep
  obtain ⟨row, read, hrows, hread, hroot, -⟩ := rows_of_write_ok hw
  refine hstep.trans (h (hstep.fresh hnames) ⟨_, hrs.concat hrows hread.reads
    (hlaw rs row read hkinds hread), fun kind' hkind' => ?_⟩)
  rcases List.mem_cons.mp hkind' with rfl | hkind'
  · exact ⟨read, List.mem_append_right rs (List.mem_singleton_self read), hkind row read hread hroot⟩
  · obtain ⟨r, hr, hr'⟩ := hkinds kind' hkind'
    exact ⟨r, List.mem_append_left _ hr, hr'⟩

/-- The retries of a terminal write. -/
theorem accruesFrom_terminalLoop {a : WriteArgs} (phase ref : String)
    (hlaw : ∀ rs row read, (∀ kind ∈ kinds, ∃ r ∈ rs, kind r) → ReadsAs cfg a row read → law rs read)
    (n : Nat) : Proc.Steps (AccruesFrom cfg.toEnv law kinds)
      (terminalLoop cfg clock phase ref a n) := by
  induction n with
  | zero => exact Proc.Steps.raise accruesFrom_refl _
  | succ n ih =>
    refine Proc.Steps.bind (R := AccruesFrom cfg.toEnv law kinds) accruesFrom_trans
      (accruesFrom_write hlaw).attempt fun result => ?_
    cases result with
    | ok receipt => exact Proc.Steps.ret accruesFrom_refl receipt
    | error e =>
      dsimp only
      split
      · exact ih
      · exact Proc.Steps.raise accruesFrom_refl e

theorem accruesFrom_sealArchive (row : ArchiveRow) :
    Proc.Steps (AccruesFrom env law kinds) (Store.sealArchive row) := by
  intro s _ _
  rcases sealArchive_cases row s with ⟨_, hrun⟩ | ⟨_, _, hrun⟩ | ⟨_, _, hrun⟩
  · rw [hrun]
    exact accrues_of_rows rfl (fun _ h => h) rfl (.inl rfl)
  · rw [hrun]
    exact accrues_of_rows rfl (fun _ h => h) (rows_archived row _) (.inl rfl)
  · rw [hrun]
    exact accrues_of_rows rfl (fun _ h => absurd h List.not_mem_nil) (rows_archived row _) (.inr rfl)

end Statements

/-! ## Blocks -/

/-- What the exit of a block keeps: the receipts have accrued since its entry, and the savepoint of
    the block, if there is one, goes back to the entry. -/
structure Closing (env : Env) (law : List Receipt → Receipt → Prop) (s x : StoreState) : Prop where
  accrues : Accrues env law s x
  back : ∀ sp ∈ x.conn.savepoints, sp.1 = s.spCounter → sp.2.rows = s.conn.current.rows

variable {s : StoreState}

/-- What the body of a block leaves. -/
theorem closing_of_body {mid : StoreState} (hs : NamesUsed s) (h : Accrues env law (opened s) mid) :
    Closing env law s mid := by
  have hcounter : s.spCounter + 1 ≤ mid.spCounter := h.counter
  constructor
  · refine ⟨(Nat.le_succ _).trans hcounter, fun sp hsp => ?_, h.current, h.durable⟩
    rcases h.stack sp hsp with hold | ⟨hlow, hhigh⟩
    · rcases List.mem_cons.mp hold with rfl | hold
      · exact .inr ⟨le_rfl, hcounter⟩
      · exact .inl hold
    · exact .inr ⟨(Nat.le_succ _).trans hlow, hhigh⟩
  · intro sp hsp hname
    rcases h.stack sp hsp with hold | ⟨hlow, -⟩
    · rcases List.mem_cons.mp hold with rfl | hold
      · rfl
      · exact absurd hname (hs sp hold).ne
    · have hlow' : s.spCounter + 1 ≤ sp.1 := hlow
      omega

/-- A step on the way out of a block. -/
abbrev Closes (env : Env) (law : List Receipt → Receipt → Prop) (s x y : StoreState) : Prop :=
  (∃ rs, Ledger env law s.conn.current rs) → Closing env law s x → Closing env law s y

theorem closes_refl (x : StoreState) : Closes env law s x x := fun _ h => h

theorem closes_trans {a b c : StoreState} (hab : Closes env law s a b) (hbc : Closes env law s b c) :
    Closes env law s a c := fun hs h => hbc hs (hab hs h)

theorem closes_bind {α β : Type} {m : Proc StoreState Exc α} {f : α → Proc StoreState Exc β}
    (hm : Proc.Steps (Closes env law s) m) (hf : ∀ a, Proc.Steps (Closes env law s) (f a)) :
    Proc.Steps (Closes env law s) (m >>= f) :=
  Proc.Steps.bind (R := Closes env law s) closes_trans hm hf

theorem closes_modify {f : StoreState → StoreState}
    (h : ∀ x, (f x).conn = x.conn ∧ (f x).spCounter = x.spCounter) :
    Proc.Steps (Closes env law s) (Proc.modify f : Proc StoreState Exc Unit) := by
  intro x _ hx
  obtain ⟨hconn, hcounter⟩ := h x
  refine ⟨hx.accrues.trans (accrues_of_conn hcounter hconn), ?_⟩
  show ∀ sp ∈ (f x).conn.savepoints, _
  rw [hconn]
  exact hx.back

/-- ROLLBACK TO takes the table back to the entry of the block, or finds no savepoint. -/
theorem closes_rollbackTo : Proc.Steps (Closes env law s) (Store.rollbackTo s.spCounter) := by
  intro x _ hx
  unfold Store.rollbackTo Conn.rollbackTo
  cases hdrop : x.conn.savepoints.dropWhile fun sp => sp.1 != s.spCounter with
  | nil => exact hx
  | cons sp rest =>
    have hmem (sp' : Nat × Tables) (hsp' : sp' ∈ sp :: rest) : sp' ∈ x.conn.savepoints := by
      have hsuffix := List.dropWhile_suffix (fun sp : Nat × Tables => sp.1 != s.spCounter)
        (l := x.conn.savepoints)
      rw [hdrop] at hsuffix
      exact hsuffix.subset hsp'
    have hname : sp.1 = s.spCounter := by
      have hhead := List.head?_dropWhile_not (fun sp : Nat × Tables => sp.1 != s.spCounter)
        x.conn.savepoints
      rw [hdrop] at hhead
      simpa using hhead
    have hrows := hx.back sp (hmem sp List.mem_cons_self) hname
    refine ⟨⟨hx.accrues.counter, fun sp' hsp' => hx.accrues.stack sp' (hmem sp' hsp'), ?_,
      hx.accrues.durable⟩, fun sp' hsp' => hx.back sp' (hmem sp' hsp')⟩
    intro rs hrs
    refine ⟨[], ?_⟩
    rw [List.append_nil]
    exact hrs.of_rows hrows

/-- RELEASE makes the table durable, or not. -/
theorem closes_release : Proc.Steps (Closes env law s) (Store.release s.spCounter) := by
  intro x hledger hx
  have hpass : Closing env law s (passFault x) :=
    ⟨hx.accrues.trans (accrues_of_conn rfl rfl), hx.back⟩
  by_cases hf : Faulty x
  · rw [Store.release, statement_of_fault hf.cons]
    exact hpass
  · cases hrelease : x.conn.release s.spCounter with
    | none =>
      have hrun : (Store.release s.spCounter x).2 = passFault x := by
        unfold Store.release statement
        split
        · rename_i heq
          exact absurd (congrArg List.head? heq) hf
        · dsimp only
          rw [hrelease]
          rfl
      rw [hrun]
      exact hpass
    | some conn =>
      have hrun : Store.release s.spCounter x = (.ok (), { passFault x with conn := conn }) := by
        rw [Store.release]
        refine statement_of_clear hf ?_
        dsimp only
        rw [hrelease]
        rfl
      rw [hrun]
      unfold Conn.release at hrelease
      cases hdrop : x.conn.savepoints.dropWhile fun sp => sp.1 != s.spCounter with
      | nil =>
        rw [hdrop] at hrelease
        cases hrelease
      | cons sp rest =>
        rw [hdrop] at hrelease
        obtain rfl := Option.some.inj hrelease
        have hmem (sp' : Nat × Tables) (hsp' : sp' ∈ rest) : sp' ∈ x.conn.savepoints := by
          have hsuffix := List.dropWhile_suffix (fun sp : Nat × Tables => sp.1 != s.spCounter)
            (l := x.conn.savepoints)
          rw [hdrop] at hsuffix
          exact hsuffix.subset (List.mem_cons_of_mem sp hsp')
        refine ⟨hx.accrues.trans (accrues_of_rows rfl hmem rfl ?_),
          fun sp' hsp' => hx.back sp' (hmem sp' hsp')⟩
        dsimp only
        split
        · exact .inr rfl
        · exact .inl rfl

theorem closes_rollbackAndRelease :
    Proc.Steps (Closes env law s) (rollbackAndRelease s.spCounter) :=
  closes_bind closes_rollbackTo fun _ => closes_release

theorem closes_abortTxn (tip : Tip) :
    Proc.Steps (Closes env law s) (abortTxn ⟨s.spCounter, tip⟩) := by
  refine closes_bind (closes_modify fun _ => ⟨rfl, rfl⟩) fun _ => ?_
  refine closes_bind (Proc.Steps.attempt closes_rollbackAndRelease) fun result => ?_
  refine closes_bind (closes_modify fun _ => ⟨rfl, rfl⟩) fun _ => ?_
  exact Proc.Steps.lift closes_refl result

theorem closes_commitTxn (tip : Tip) :
    Proc.Steps (Closes env law s) (commitTxn ⟨s.spCounter, tip⟩) := by
  refine closes_bind (closes_modify fun _ => ⟨rfl, rfl⟩) fun _ => ?_
  refine closes_bind (Proc.Steps.attempt closes_release) fun result => ?_
  cases result with
  | ok u => exact Proc.Steps.ret closes_refl ()
  | error e =>
    refine closes_bind (Proc.Steps.attempt closes_rollbackAndRelease) fun _ => ?_
    refine closes_bind (closes_modify fun _ => ⟨rfl, rfl⟩) fun _ => ?_
    exact Proc.Steps.raise closes_refl _

/-- A block whose body accrues receipts accrues them or takes them all back, whatever state the body
    keeps beside the store. -/
theorem accruesFrom_transaction {σ α : Type} {p : σ → StoreState}
    {o : ∀ {β : Type}, Proc StoreState Exc β → Proc σ Exc β}
    (hon : ∀ {β : Type} (m : Proc StoreState Exc β) (x : σ),
      (o m x).1 = (m (p x)).1 ∧ p (o m x).2 = (m (p x)).2)
    {body : Proc σ Exc α}
    (hbody : Proc.Steps (fun x y => AccruesFrom env law kinds (p x) (p y)) body) :
    Proc.Steps (fun x y => AccruesFrom env law kinds (p x) (p y))
      (transaction o body) := by
  intro x hfresh hpresent
  obtain ⟨rs, hrs, -⟩ := id hpresent
  obtain ⟨hbegin, hopen⟩ := hon beginTxn x
  have hopened : p (o beginTxn x).2 = opened (p x) := hopen
  have hfresh' : NamesUsed (opened (p x)) := by
    intro sp hsp
    show sp.1 < (p x).spCounter + 1
    rcases List.mem_cons.mp hsp with rfl | hold
    · exact Nat.lt_succ_self _
    · exact (hfresh sp hold).trans (Nat.lt_succ_self _)
  have hmid : AccruesFrom env law kinds (p (o beginTxn x).2)
      (p (body (o beginTxn x).2).2) := hbody _
  rw [hopened] at hmid
  have hclosing := closing_of_body hfresh (hmid hfresh' hpresent)
  have hbegin' : o beginTxn x =
      (.ok ⟨(p x).spCounter, (p x).tip⟩, (o beginTxn x).2) := Prod.ext hbegin rfl
  unfold transaction
  rw [Proc.bind_of_ok hbegin', Proc.bind_of_ok (Proc.attempt_apply _ _)]
  -- the exit, by how the body ended
  have hexit {β : Type} {exit : Proc StoreState Exc β}
      (hexit : Proc.Steps (Closes env law (p x)) exit) :
      Accrues env law (p x) (p (o exit (body (o beginTxn x).2).2).2) := by
    rw [(hon exit _).2]
    exact (hexit _ ⟨rs, hrs⟩ hclosing).accrues
  cases (body (o beginTxn x).2).1 with
  | ok a =>
    dsimp only
    rw [Proc.bind_snd (fun _ _ => rfl)]
    exact hexit (closes_commitTxn (p x).tip)
  | error e =>
    dsimp only
    rw [Proc.bind_snd (fun _ _ => rfl)]
    exact hexit (closes_abortTxn (p x).tip)

end Ugk
