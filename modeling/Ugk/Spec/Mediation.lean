import Ugk.Spec.ReceiptLaw
import Ugk.Spec.WarrantStore

/-!
# No operation without its admission

What application code can do to a kernel is a program over its operations: it executes, compensates,
reconciles, defers, resumes, bridges, opens and closes sessions and runs blocks, from within gates and
effects too.  Whatever it passes, and whatever the database does, no receipt of an operation is there
without an earlier admission of it.  Where it passes no columns among its parameters, every phase of an
effect follows the phase it names and no reconciliation is verified without its warrant.

## Key results

- `accrue_execute`, `accrue_compensate`, `accrue_reconcileForward`, `accrue_resumeContinuation`, …: what
  each operation adds to the ledger
- `KernelProgram`, `KernelRun`: programs over the operations, and runs with failures and restarts
- `mediated_of_run`, `custody_of_run`, `verified_of_run`
-/

namespace Ugk

open Store

namespace Kernel

variable {rt : Runtime} {clean : Prop}

/-! ## Writes -/

/-- A step of the world, by what it does to the receipts. -/
abbrev Accrue (rt : Runtime) (clean : Prop) (kinds : List (Receipt → Prop)) (w w' : World) : Prop :=
  AccruesFrom rt.toEnv (Lawful rt clean) kinds w.store w'.store

variable {kinds : List (Receipt → Prop)}

theorem accrue_refl (w : World) : Accrue rt clean kinds w w := accruesFrom_refl w.store

theorem accrue_bind {α β : Type} {m : Proc World Exc α} {f : α → Proc World Exc β}
    (hm : Proc.Steps (Accrue rt clean kinds) m) (hf : ∀ x, Proc.Steps (Accrue rt clean kinds) (f x)) :
    Proc.Steps (Accrue rt clean kinds) (m >>= f) :=
  Proc.Steps.bind (R := Accrue rt clean kinds) accruesFrom_trans hm hf

/-- What leaves the store alone. -/
theorem accrue_of_store {α : Type} {m : Proc World Exc α} (h : ∀ w, (m w).2.store = w.store) :
    Proc.Steps (Accrue rt clean kinds) m := by
  intro w
  show AccruesFrom _ _ _ _ _
  rw [h w]
  exact accruesFrom_refl w.store

theorem accrue_get : Proc.Steps (Accrue rt clean kinds) (Proc.get : Proc World Exc World) :=
  accrue_of_store fun _ => rfl

theorem accrue_raise {α : Type} (e : Exc) :
    Proc.Steps (Accrue rt clean kinds) (Proc.raise e : Proc World Exc α) :=
  accrue_of_store fun _ => rfl

theorem accrue_ret {α : Type} (x : α) :
    Proc.Steps (Accrue rt clean kinds) (Proc.ret x : Proc World Exc α) :=
  accrue_of_store fun _ => rfl

theorem accrue_lift {α : Type} (x : Except Exc α) :
    Proc.Steps (Accrue rt clean kinds) (Proc.lift x : Proc World Exc α) :=
  Proc.Steps.lift accrue_refl x

theorem accrue_write {a : WriteArgs} (h : Allowed rt clean kinds a) :
    Proc.Steps (Accrue rt clean kinds) (write rt a) := fun w => accruesFrom_write h w.store

/-- A rejection. -/
theorem accrue_rejected {w w' : World} (h : Rejected rt w w') : Accrue rt clean kinds w w' := by
  rcases h.store with hsame | ⟨a, hnote, hwrite⟩
  · show AccruesFrom _ _ _ _ _
    rw [hsame]
    exact accruesFrom_refl w.store
  · have hop : a.op ∈ ownOps := by
      rcases hnote.op with hop | hop <;> rw [hop] <;> simp [ownOps]
    have hphase : asked a .phase = .none := by
      unfold asked
      rw [hnote.columns]
    show AccruesFrom _ _ _ _ _
    rw [hwrite]
    exact accrue_write (allowed_note hop hnote.compress hnote.unmarked hphase hnote.continuation) w

/-- A write that returned, and what comes after it. -/
theorem accrue_after {a : WriteArgs} {w w₁ w₂ : World} {receipt : Receipt} (kind : Receipt → Prop)
    (hw : write rt a w = (.ok receipt, w₁)) (h : Allowed rt clean kinds a)
    (hkind : ∀ row read, ReadsAs rt.toConfig a row read → row.hR = receipt.hR → kind read)
    (hrest : Accrue rt clean (kind :: kinds) w₁ w₂) : Accrue rt clean kinds w w₂ := by
  have hstore : Store.write rt.toConfig rt.clock a w.store = (.ok receipt, w₁.store) := by
    rw [write_apply] at hw
    obtain ⟨hresult, rfl⟩ := Prod.mk.inj hw
    exact Prod.ext hresult rfl
  exact AccruesFrom.after_write hstore h hkind hrest

/-- The terminal of a phase, under its retries. -/
theorem accrue_terminal {pr : Protocol} {t : Trail} {p : Phase} {w : World}
    (h : Allowed rt clean kinds (phaseArgs w.kernel pr t p)) :
    Accrue rt clean kinds w (terminalDurable rt pr t p w).2 := by
  rcases terminalDurable_cases rt pr t p w with ⟨-, e, hraise⟩ | ⟨-, ref, hloop⟩
  · rw [hraise]
    exact accrue_refl w
  · rw [hloop]
    exact accruesFrom_terminalLoop p.phase ref h maxOutcomeWriteAttempts w.store

/-! ## Outcomes -/

section Outcomes

variable {op authority : String} (hg : Granted rt op authority kinds)

include hg

omit hg in
theorem op_of_phase {k : Kernel} {pr : Protocol} {t : Trail} {p : Phase} {row : Row} {read : Receipt}
    (h : ReadsAs rt.toConfig (phaseArgs k pr t p) row read) : read.op = expand rt.toEnv t.op := by
  have hexpand := op_of_readsAs h rfl
  exact hexpand

omit hg in
theorem outcomeArgs_phase {k : Kernel} {pr : Protocol} {t : Trail} {p : Phase} (hop : t.op = op)
    (hauthority : t.authority = authority) : OutcomeArgs rt op authority (phaseArgs k pr t p) := by
  refine ⟨?_, rfl, .inl hauthority⟩
  show expand rt.toEnv t.op = expand rt.toEnv op
  rw [hop]

/-- A PREPARE may be written where its admission is. -/
theorem allowed_preparePhase {k : Kernel} {pr : Protocol} {t : Trail} {admitRef : String}
    (hadmission : (fun g => Grants op authority g ∧ g.hR = admitRef) ∈ kinds)
    (hop : t.op = op) (hauthority : t.authority = authority)
    (hbase : clean → Clean (.dict t.baseParams)) :
    Allowed rt clean kinds (phaseArgs k pr t (preparePhase admitRef)) := by
  refine allowed_phase hg (outcomeArgs_phase hop hauthority) (fun hc => (hbase hc).noMarkers) ?_
  intro hc rs row read hkinds hread hasked
  obtain ⟨g, hmem, hgrants, href⟩ := hkinds _ hadmission
  exact ⟨custody_prepare hmem hgrants href (hop ▸ op_of_phase hread) hasked,
    graded_of_clean hread rfl (hbase hc)⟩

/-- A COMMIT or an ABORT may be written where its PREPARE is. -/
theorem allowed_closePhase {k : Kernel} {pr : Protocol} {t : Trail} {p : Phase} {ref : String}
    (hp : ForwardTerminal ref p) (hop : t.op = op) (hauthority : t.authority = authority)
    (hbase : clean → Clean (.dict t.baseParams)) :
    Allowed rt clean
      ((fun q => clean → Prepared pr (expand rt.toEnv t.op) t.idempotencyKey ref q) :: kinds)
      (phaseArgs k pr t p) := by
  refine allowed_phase (hg.cons _) (outcomeArgs_phase hop hauthority)
    (fun hc => (hbase hc).noMarkers) ?_
  intro hc rs row read hkinds hread hasked
  obtain ⟨q, hq, hprepared⟩ := hkinds _ List.mem_cons_self
  refine ⟨custody_close hp hasked hq ?_, graded_of_clean hread rfl (hbase hc)⟩
  rw [op_of_phase hread]
  exact hprepared hc

/-- PREPARE, the effect, and its terminal. -/
theorem accrue_executeExternal {pr : Protocol} {t : Trail} {effect : Proc World Exc PyVal}
    {admitRef : String} (hadmission : (fun g => Grants op authority g ∧ g.hR = admitRef) ∈ kinds)
    (hop : t.op = op) (hauthority : t.authority = authority)
    (hbase : clean → Clean (.dict t.baseParams)) (heffect : Proc.Steps (Accrue rt clean []) effect) :
    Proc.Steps (Accrue rt clean kinds) (executeExternal rt pr t admitRef effect) := by
  intro w
  have hprepare := @allowed_preparePhase rt clean kinds op authority hg w.kernel pr t admitRef hadmission
    hop hauthority hbase
  rcases @executeExternal_ends rt w t pr admitRef effect with
    ⟨e, -, hend⟩ | ⟨prepare, w₁, hemit, hend⟩
  · rw [hend]
    exact accrue_write hprepare w
  · -- the PREPARE is there while the effect runs and when its terminal is written
    have hkind (row : Row) (read : Receipt)
        (h : ReadsAs rt.toConfig (phaseArgs w.kernel pr t (preparePhase admitRef)) row read)
        (hroot : row.hR = prepare.hR) :
        clean → Prepared pr (expand rt.toEnv t.op) t.idempotencyKey prepare.hR read := by
      intro hc
      have hasked := asked_of_readsAs h (hbase hc).noMarkers
      exact ⟨inTrail_of_asked hasked, op_of_phase h, hasked.column .idempotencyKey,
        hasked.hR.trans hroot⟩
    refine accrue_after _ hemit hprepare hkind ?_
    rcases hend with hend | ⟨p, hp, hend⟩
    · rw [hend]
      exact (heffect w₁).of_any
    · rw [hend]
      exact accruesFrom_trans (heffect w₁).of_any
        (accrue_terminal (allowed_closePhase hg hp hop hauthority hbase))

omit hg in
/-- What runs beside a local variable. -/
theorem accrue_besides {α τ : Type} {m : Proc World Exc α}
    (hm : Proc.Steps (Accrue rt clean kinds) m) :
    Proc.Steps (fun x y : World × τ => Accrue rt clean kinds x.1 y.1) (Proc.besides m) :=
  fun x => hm x.1

omit hg in
theorem asked_phase_effectColumns (a : ExecuteArgs) {args : WriteArgs}
    (h : args.effectColumns = effectColumns a) : asked args .phase = .none := by
  unfold asked
  rw [h]
  unfold effectColumns
  cases a.effect with
  | none => rfl
  | some effect =>
    cases a.effectAtomicity with
    | none => rfl
    | some ea => rfl

theorem allowed_success {a : ExecuteArgs} {adm : Admission} (hop : a.op = op)
    (hauthority : adm.authority = authority) (hbase : clean → Clean (.dict adm.outcomeParams))
    (k : Kernel) : Allowed rt clean kinds (successArgs k a adm) := by
  refine allowed_outcome hg ⟨congrArg (expand rt.toEnv) hop, rfl, .inl hauthority⟩ fun hc => ?_
  exact ⟨(hbase hc).noMarkers, asked_phase_effectColumns a rfl, captures_of_none rfl,
    .inr ⟨rfl, hbase hc⟩⟩

/-- The effect and the success receipt in one block, or an abort. -/
theorem accrue_executeSeam {a : ExecuteArgs} {adm : Admission} (hop : a.op = op)
    (hauthority : adm.authority = authority) (hbase : clean → Clean (.dict adm.outcomeParams))
    (hparams : clean → Clean (.dict adm.parameters)) {effect : Proc World Exc PyVal}
    (heffect : Proc.Steps (Accrue rt clean []) effect) (ea : EffectAtomicity) :
    Proc.Steps (Accrue rt clean kinds) (executeSeam rt a adm ea effect) := by
  have heffect' : Proc.Steps (Accrue rt clean kinds) effect := fun w => (heffect w).of_any
  have hbody : Proc.Steps (fun x y : World × String => Accrue rt clean kinds x.1 y.1)
      (seamBody rt a adm effect) := by
    have hbind {α β : Type} {m : Proc (World × String) Exc α} {f : α → Proc (World × String) Exc β}
        (hm : Proc.Steps (fun x y : World × String => Accrue rt clean kinds x.1 y.1) m)
        (hf : ∀ x, Proc.Steps (fun x y : World × String => Accrue rt clean kinds x.1 y.1) (f x)) :
        Proc.Steps (fun x y : World × String => Accrue rt clean kinds x.1 y.1) (m >>= f) :=
      Proc.Steps.bind (R := fun x y : World × String => Accrue rt clean kinds x.1 y.1)
        accruesFrom_trans hm hf
    refine hbind (accrue_besides heffect'.mapError) fun result => ?_
    refine hbind (fun x => accrue_refl x.1) fun _ => ?_
    refine hbind (fun x => accrue_refl x.1) fun x => ?_
    refine hbind (accrue_besides (accrue_write ?_)) fun _ => fun x => accrue_refl x.1
    exact allowed_success hg hop hauthority hbase _
  have htransaction := accruesFrom_transaction (p := fun x : World × String => x.1.store)
    (o := fun m => Proc.besides (onStore m)) (fun _ _ => ⟨rfl, rfl⟩) hbody
  refine accrue_bind (fun w => htransaction (w, "effect")) fun x => ?_
  obtain ⟨result, phase⟩ := x
  cases result with
  | ok value => exact accrue_ret value
  | error e =>
    refine accrue_bind ?_ fun _ => accrue_raise e
    refine accrue_bind accrue_get fun w => accrue_bind (accrue_write ?_) fun _ => accrue_ret ()
    refine allowed_outcome hg ⟨congrArg (expand rt.toEnv) hop, rfl, .inl hauthority⟩ fun hc => ?_
    have hclean : Clean (.dict (PyDict.set adm.parameters (.str "effect_aborted") (.bool true))) :=
      clean_set (hparams hc) (by decide)
    exact ⟨hclean.noMarkers, rfl, captures_of_none rfl, .inr ⟨rfl, hclean⟩⟩

theorem accrue_executeLegacy {a : ExecuteArgs} {adm : Admission} (hop : a.op = op)
    (hauthority : adm.authority = authority) (hbase : clean → Clean (.dict adm.outcomeParams))
    (hparams : clean → Clean (.dict adm.parameters))
    (heffect : ∀ effect, a.effect = some effect → Proc.Steps (Accrue rt clean []) effect) :
    Proc.Steps (Accrue rt clean kinds) (executeLegacy rt a adm) := by
  refine accrue_bind accrue_get fun w => ?_
  refine accrue_bind (accrue_write (allowed_success hg hop hauthority hbase w.kernel)) fun _ => ?_
  cases heff : a.effect with
  | none => exact accrue_ret _
  | some effect =>
    have heffect' : Proc.Steps (Accrue rt clean kinds) effect :=
      fun w => (heffect effect heff w).of_any
    refine accrue_bind heffect'.mapError.attempt fun result => ?_
    cases result with
    | ok value => exact accrue_ret value
    | error e =>
      refine accrue_bind accrue_get fun w => ?_
      refine accrue_bind (accrue_write ?_) fun _ => accrue_raise e
      refine allowed_outcome hg ⟨congrArg (expand rt.toEnv) hop, rfl, .inl hauthority⟩ fun hc => ?_
      exact ⟨(hparams hc).noMarkers, rfl, captures_of_none rfl, .inr ⟨rfl, hparams hc⟩⟩

/-- Whatever follows an admission is under it. -/
theorem accrue_outcome {a : ExecuteArgs} {adm : Admission}
    (hadmission : (fun g => Grants op authority g ∧ g.hR = adm.admitRef) ∈ kinds) (hop : a.op = op)
    (hauthority : adm.authority = authority) (hbase : clean → Clean (.dict adm.outcomeParams))
    (hparams : clean → Clean (.dict adm.parameters))
    (heffect : ∀ effect, a.effect = some effect → Proc.Steps (Accrue rt clean []) effect) :
    Proc.Steps (Accrue rt clean kinds) (outcome rt a adm) := by
  unfold outcome
  split
  · exact accrue_executeExternal hg hadmission hop hauthority hbase (heffect _ ‹_›)
  · exact accrue_executeExternal hg hadmission hop hauthority hbase (heffect _ ‹_›)
  · exact accrue_executeSeam hg hop hauthority hbase hparams (heffect _ ‹_›) .pure
  · exact accrue_executeSeam hg hop hauthority hbase hparams (heffect _ ‹_›) .storeLocal
  · exact accrue_executeLegacy hg hop hauthority hbase hparams heffect

end Outcomes

/-! ## Calls -/

/-- How a call goes on that passes the refusal horizon: its admission is not written, or it is, and the
    call ends there or in its outcome. -/
theorem Passes.ends {a : ExecuteArgs} {w w₁ : World} {authority ref : String} {parameters : PyDict}
    (h : Passes rt a w authority parameters ref w₁) :
    (∃ e s, Store.write rt.toConfig rt.clock (admitArgs w₁.kernel a authority parameters) w₁.store =
        (.error e, s) ∧ execute rt a w = (.error e, { w₁ with store := s })) ∨
    ∃ receipt s rows,
      Store.write rt.toConfig rt.clock (admitArgs w₁.kernel a authority parameters) w₁.store =
        (.ok receipt, s) ∧
      ((∃ e, execute rt a w = (.error e, { w₁ with store := s, warrants := rows })) ∨
        ∃ warrantId, execute rt a w = outcome rt a {
            authority := authority
            parameters := parameters
            outcomeParams := outcomeParams w₁.kernel a parameters
            intentRef := ref
            admitRef := receipt.hR
            warrantId := warrantId } { w₁ with store := s, warrants := rows }) := by
  rw [h.execute_eq]
  cases hw : Store.write rt.toConfig rt.clock (admitArgs w₁.kernel a authority parameters)
      w₁.store with
  | mk result s =>
    cases result with
    | error e => exact .inl ⟨e, s, rfl, admitted_of_not_admitted _ hw⟩
    | ok receipt =>
      have hwrite : write rt (admitArgs w₁.kernel a authority parameters) w₁ =
          (.ok receipt, { w₁ with store := s }) := by rw [write_apply, hw]
      have hadmission : gateAdmission rt a authority parameters w₁ =
          (.ok receipt.hR, { w₁ with store := s }) := by
        unfold gateAdmission
        rw [Proc.bind_of_ok (Proc.get_apply _), Proc.bind_of_ok hwrite]
        rfl
      obtain ⟨rows, hrows⟩ := @materializeWarrant_store rt (governingModel w.kernel a.op) a
        { w₁ with store := s }
      refine .inr ⟨receipt, s, rows, rfl, ?_⟩
      unfold admitted
      rw [Proc.bind_of_ok hadmission]
      cases hwarrant : materializeWarrant rt (governingModel w.kernel a.op) a
          { w₁ with store := s } with
      | mk result w₂ =>
        rw [hwarrant] at hrows
        obtain rfl : w₂ = _ := hrows
        cases result with
        | error e => exact .inl ⟨e, Proc.bind_of_error hwarrant⟩
        | ok warrantId =>
          rw [Proc.bind_of_ok hwarrant, Proc.bind_of_ok (Proc.get_apply _)]
          exact .inr ⟨warrantId, rfl⟩

/-- An op that passes the checks before the gate is declared and none of the kernel's. -/
theorem declared_of_static {k : Kernel} {a : ExecuteArgs} {parameters : PyDict}
    (h : staticOk rt k a parameters = true) :
    declared rt.toConfig a.op = true ∧ a.op ∉ kernelOps := by
  unfold staticOk at h
  rw [Bool.and_eq_true, Bool.and_eq_true] at h
  obtain ⟨htier, hdecl, -⟩ := h
  refine ⟨hdecl, fun hkernel => ?_⟩
  unfold tierOk at htier
  rw [if_pos hkernel] at htier
  cases htier

theorem allowed_admit (k : Kernel) (a : ExecuteArgs) (authority : String) (parameters : PyDict) :
    Allowed rt clean kinds (admitArgs k a authority parameters) := by
  have hop : (admitArgs k a authority parameters).op ∈ ownOps := by simp [admitArgs, ownOps]
  have hphase := asked_phase_effectColumns a
    (show (admitArgs k a authority parameters).effectColumns = effectColumns a from rfl)
  exact allowed_note hop rfl (noMarkers_admitArgs k a authority parameters) hphase rfl

/-- A call accrues receipts when its gate and its effect do. -/
theorem accrue_execute {a : ExecuteArgs} (hclean : clean → Clean a.parameters)
    (hgate : ∀ gate, a.gate = some gate → Proc.Steps (Accrue rt clean []) gate)
    (heffect : ∀ effect, a.effect = some effect → Proc.Steps (Accrue rt clean []) effect) :
    Proc.Steps (Accrue rt clean []) (execute rt a) := by
  intro w
  have hrun : Accrue rt clean [] w (runGate a w).2 := by
    unfold runGate
    cases hg : a.gate with
    | none => exact accrue_refl w
    | some gate => exact hgate gate hg w
  rcases execute_cases rt a w with
    ⟨authority, parameters, ref, w₁, hpasses⟩ | ⟨e, w', hend, hrejected | hrejected⟩
  · have hworld : (runGate a w).2 = w₁ := congrArg Prod.snd hpasses.gate
    rw [hworld] at hrun
    refine accruesFrom_trans hrun ?_
    obtain ⟨hdecl, hkernel⟩ := declared_of_static hpasses.static
    have hadmission : Allowed rt clean [] (admitArgs w₁.kernel a authority parameters) :=
      allowed_admit w₁.kernel a authority parameters
    rcases hpasses.ends with ⟨e, s, hw, hend⟩ | ⟨receipt, s, rows, hw, hend⟩
    · have hwritten : Accrue rt clean [] w₁ _ := accrue_write hadmission w₁
      rw [write_apply, hw] at hwritten
      rw [hend]
      exact hwritten
    · have hwrite : write rt (admitArgs w₁.kernel a authority parameters) w₁ =
          (.ok receipt, { w₁ with store := s }) := by
        rw [write_apply, hw]
      -- the admission is there when the outcome is written
      refine accrue_after (fun g => Grants a.op authority g ∧ g.hR = receipt.hR) hwrite hadmission
        (fun row read hread hroot => ⟨grants_of_readsAs hread,
          (hashes_of_rowToReceipt hread.reads).1.trans hroot⟩) ?_
      rcases hend with ⟨e, hend⟩ | ⟨warrantId, hend⟩
      · rw [hend]
        exact accruesFrom_refl s
      · rw [hend]
        have hgranted : Granted rt a.op authority
            [fun g => Grants a.op authority g ∧ g.hR = receipt.hR] :=
          ⟨hdecl, hkernel, _, List.mem_singleton_self _, fun _ h => h.1⟩
        have hparams (hc : clean) : Clean (.dict parameters) :=
          clean_preflight hpasses.preflight (hclean hc)
        exact accrue_outcome hgranted (List.mem_singleton_self _) rfl rfl
          (fun hc => clean_outcomeParams (hparams hc)) hparams heffect
          { w₁ with store := s, warrants := rows }
  · rw [hend]
    exact accrue_rejected hrejected
  · rw [hend]
    exact accruesFrom_trans hrun (accrue_rejected hrejected)

/-! ## Receipts that are found -/

/-- What follows where some receipt of the ledger was found. -/
theorem accrue_of_mem {α : Type} {m : Proc World Exc α} {w : World} {receipts : List Receipt}
    {r : Receipt} (hreads : allReceipts rt.toEnv (rows w.store) = .ok receipts) (hr : r ∈ receipts)
    (hm : (clean → ∃ pre, Sound rt.toEnv pre r) → Proc.Steps (Accrue rt clean []) m) :
    Accrue rt clean [] w (m w).2 := by
  rintro hnames ⟨rs, hrs, hnone⟩
  obtain rfl : receipts = rs := Except.ok.inj (hreads.symm.trans hrs.reads)
  exact hm (sound_of_mem hrs.lawful hr) w hnames ⟨_, hrs, hnone⟩

theorem inPhase_iff {cls phase : String} {r : Receipt} : inPhase cls [phase] r = true ↔
    effectParam r .effectAtomicity = .str cls ∧ effectParam r .phase = .str phase := by
  simp [inPhase, isStr_iff]

theorem phase_ne_none {cls phase : String} {r : Receipt} (h : inPhase cls [phase] r = true) :
    effectParam r .phase ≠ .none := by
  rw [(inPhase_iff.mp h).2]
  exact fun heq => PyVal.noConfusion heq

theorem Typed.inTrail {cls phase : String} {r : Receipt} (h : Typed r)
    (hr : inPhase cls [phase] r = true) : InTrail cls phase r := by
  obtain ⟨hcls, hphase⟩ := inPhase_iff.mp hr
  exact ⟨(h.column .effectAtomicity).symm.trans hcls, (h.column .phase).symm.trans hphase⟩

/-- What follows for an op that some receipt in a phase is of. -/
theorem accrue_of_phase {w w' : World} {receipts : List Receipt} {r : Receipt}
    (hreads : allReceipts rt.toEnv (rows w.store) = .ok receipts) (hr : r ∈ receipts)
    (hphase : effectParam r .phase ≠ .none)
    (h : ∀ op authority, r.op = expand rt.toEnv op →
      Granted rt op authority [Grants op authority, (· = r)] → (clean → Typed r) →
        Accrue rt clean [Grants op authority, (· = r)] w w') : Accrue rt clean [] w w' := by
  rintro hnames ⟨rs, hrs, -⟩
  obtain rfl : receipts = rs := Except.ok.inj (hreads.symm.trans hrs.reads)
  obtain ⟨op, authority, hdecl, hkernel, hop, g, hg, hgrant⟩ := vouched_of_phase hrs.lawful hr hphase
  have htyped (hc : clean) : Typed r := by
    obtain ⟨pre, hsound⟩ := sound_of_mem hrs.lawful hr hc
    exact hsound.typed
  refine h op authority hop ⟨hdecl, hkernel, _, List.mem_cons_self, fun _ h => h⟩ htyped hnames
    ⟨_, hrs, fun kind hkind => ?_⟩
  rcases List.mem_cons.mp hkind with rfl | hkind
  · exact ⟨g, hg, hgrant⟩
  · rw [List.mem_singleton.mp hkind]
    exact ⟨r, hr, rfl⟩

/-- The phase receipts that settle an effect of the op. -/
theorem outcomeArgs_settling {op authority : String} {k : Kernel} {pr : Protocol} {t : Trail}
    {p : Phase} (hop : t.op = expand rt.toEnv op) (hbase : NoMarkers (.dict t.baseParams))
    (hphase : p.phase ∈ settlingPhases) : OutcomeArgs rt op authority (phaseArgs k pr t p) := by
  refine ⟨?_, rfl, .inr ⟨hbase, p.phase, hphase, rfl⟩⟩
  show expand rt.toEnv t.op = _
  rw [hop, expand_expand]

/-- An op that was read is read as it is. -/
theorem op_of_settling {a : WriteArgs} {row : Row} {read r : Receipt} {op : String}
    (h : ReadsAs rt.toConfig a row read) (hcompress : a.compress = false) (ha : a.op = r.op)
    (hop : r.op = expand rt.toEnv op) : read.op = r.op := by
  rw [op_of_readsAs h hcompress, ha, hop, expand_expand]

theorem ForwardTerminal.settling {ref : String} {p : Phase} (h : ForwardTerminal ref p) :
    p.phase ∈ settlingPhases := by
  rcases h.outcome with ⟨hphase, -⟩ | ⟨hphase, -⟩ <;> rw [hphase] <;> simp [settlingPhases]

theorem OffsetTerminal.settling {ref : String} {key : Option String} {p : Phase}
    (h : OffsetTerminal ref key p) : p.phase ∈ settlingPhases := by
  rcases h.outcome with ⟨hphase, -⟩ | ⟨hphase, -⟩ <;> rw [hphase] <;> simp [settlingPhases]

/-! ## Compensations -/

theorem committedForward_mem {rs : List Receipt} {ref op : String} {key : PyVal}
    (h : findCommittedForward rs ref = some (op, key)) :
    ∃ r ∈ rs, r.op = op ∧ effectParam r .idempotencyKey = key ∧
      inPhase "external_reversible" ["commit"] r = true ∧ effectParam r .prepareRef = .str ref := by
  unfold findCommittedForward at h
  dsimp only at h
  split at h
  · cases h
  · obtain ⟨r, hr, hfound⟩ := Option.map_eq_some_iff.mp h
    obtain ⟨hop, hkey⟩ := Prod.mk.inj hfound
    have hcommit := List.find?_some hr
    rw [Bool.and_eq_true, isStr_iff] at hcommit
    exact ⟨r, List.mem_reverse.mp (List.mem_of_find?_eq_some hr), hop, hkey, hcommit⟩

theorem prepareRef_ne_of_checked {rows : List Row} {a : CompensateArgs} {c : Compensation}
    (h : checkCompensation rt.toEnv rows a = .ok c) : c.prepareRef ≠ "" := by
  unfold checkCompensation at h
  obtain ⟨authority, -, h⟩ := Except.bind_eq_ok h
  obtain ⟨key, -, h⟩ := Except.bind_eq_ok h
  obtain ⟨prepareRef, href, h⟩ := Except.bind_eq_ok h
  have hne : prepareRef ≠ "" := by
    unfold nonEmpty at href
    split at href
    · split at href
      · cases href
      · rw [← Except.ok.inj href]
        assumption
    · cases href
  split at h
  · cases h
  · obtain ⟨receipts, -, h⟩ := Except.bind_eq_ok h
    split at h
    · cases h
    · split at h
      · cases h
      · obtain rfl := Except.ok.inj h
        exact hne

/-- The COMMIT of an op that a compensation offsets. -/
structure Offsets (rt : Runtime) (c : Compensation) (op : String) (r : Receipt) : Prop where
  same : r.op = c.fwdOp
  expanded : r.op = expand rt.toEnv op
  key : effectParam r .idempotencyKey = c.fwdKey
  commit : inPhase "external_reversible" ["commit"] r = true
  named : effectParam r .prepareRef = .str c.prepareRef

section Compensations

variable {a : CompensateArgs} {c : Compensation} {r : Receipt} {op authority : String} {k : Kernel}
  {p : Phase} {row : Row} {read : Receipt}

theorem clean_compensationTrail (a : CompensateArgs) (c : Compensation) :
    Clean (.dict (compensationTrail a c).baseParams) :=
  @clean_of_names [("compensates_prepare_ref", .str c.prepareRef)]
    (show ∀ name ∈ columnNames, name ∉ ["compensates_prepare_ref"] by decide)

theorem Offsets.op_of_readsAs (h : Offsets rt c op r)
    (hread : ReadsAs rt.toConfig (phaseArgs k .reversible (compensationTrail a c) p) row read) :
    read.op = r.op := op_of_settling hread rfl h.same.symm h.expanded

theorem Offsets.outcomeArgs (h : Offsets rt c op r) (hp : p.phase ∈ settlingPhases) :
    OutcomeArgs rt op authority (phaseArgs k .reversible (compensationTrail a c) p) :=
  outcomeArgs_settling (show c.fwdOp = expand rt.toEnv op from h.same ▸ h.expanded)
    (clean_compensationTrail a c).noMarkers hp

/-- The COMPENSATE may be written where the COMMIT is. -/
theorem allowed_compensatePhase (h : Offsets rt c op r) (htyped : clean → Typed r)
    (hg : Granted rt op authority [Grants op authority, (· = r)]) :
    Allowed rt clean [Grants op authority, (· = r)]
      (phaseArgs k .reversible (compensationTrail a c) (compensationPhase c "compensate")) := by
  refine allowed_phase hg (h.outcomeArgs (by simp [compensationPhase, settlingPhases]))
    (fun _ => (clean_compensationTrail a c).noMarkers) ?_
  intro hc rs row read hkinds hread hasked
  obtain ⟨_, hmem, rfl⟩ := hkinds (· = r) (List.mem_cons_of_mem _ List.mem_cons_self)
  have hcolumn := ((htyped hc).column .idempotencyKey).symm.trans h.key
  have htext : .ofOpt c.fwdKey.str? = c.fwdKey := by
    rw [← hcolumn]
    exact ofOpt_str? ((htyped hc).text .idempotencyKey)
  refine ⟨custody_offset rfl rfl hasked hmem ?_,
    graded_of_clean hread rfl (clean_compensationTrail a c)⟩
  exact ⟨(htyped hc).inTrail h.commit, (h.op_of_readsAs hread).symm, hcolumn.trans htext.symm,
    ((htyped hc).column .prepareRef).symm.trans h.named⟩

theorem compensating_of_readsAs (h : Offsets rt c op r)
    (hread : ReadsAs rt.toConfig (phaseArgs k .reversible (compensationTrail a c)
      (compensationPhase c "compensate")) row read) :
    Compensating r.op c.prepareRef (some c.compensationIdempotencyKey) read := by
  have hasked := asked_of_readsAs hread (clean_compensationTrail a c).noMarkers
  exact ⟨inTrail_of_asked hasked, h.op_of_readsAs hread, hasked.column .compensateRef,
    hasked.column .compensationIdempotencyKey⟩

/-- The terminal may be written where the COMPENSATE is. -/
theorem allowed_settlePhase (h : Offsets rt c op r) (hg : Granted rt op authority kinds)
    (hp : OffsetTerminal c.prepareRef (some c.compensationIdempotencyKey) p)
    (hne : c.prepareRef ≠ "") :
    Allowed rt clean (Compensating r.op c.prepareRef (some c.compensationIdempotencyKey) :: kinds)
      (phaseArgs k .reversible (compensationTrail a c) p) := by
  refine allowed_phase (hg.cons _) (h.outcomeArgs hp.settling)
    (fun _ => (clean_compensationTrail a c).noMarkers) ?_
  intro hc rs row read hkinds hread hasked
  obtain ⟨q, hq, hcompensating⟩ := hkinds _ List.mem_cons_self
  have herasure : claimsErasure read = false :=
    @claimsErasure_of_names _ _ _ _ [("compensates_prepare_ref", .str c.prepareRef)] rfl
      (show ∀ name ∈ erasureMarkers, name ∉ ["compensates_prepare_ref"] by decide) hread
  refine ⟨custody_settle hp hne hasked herasure hq ?_,
    graded_of_clean hread rfl (clean_compensationTrail a c)⟩
  rw [h.op_of_readsAs hread]
  exact hcompensating

end Compensations

theorem accrue_compensate {a : CompensateArgs}
    (heffect : ∀ effect, a.compensationEffect = some effect →
      Proc.Steps (Accrue rt clean []) effect) :
    Proc.Steps (Accrue rt clean []) (compensateExternalReversible rt a) := by
  intro w
  rcases @compensate_ends rt w a with ⟨e, -, hend⟩ | ⟨c, hcheck, hend⟩
  · rw [hend]
    exact accrue_refl w
  · obtain ⟨hcall, receipts, hreads, hfound, -⟩ := checkCompensation_ok hcheck
    obtain ⟨r, hr, hop, hkey, hcommit, href⟩ := committedForward_mem hfound
    refine accrue_of_phase hreads hr (phase_ne_none hcommit) fun op authority hexpand hg htyped => ?_
    have hoffsets : Offsets rt c op r := ⟨hop, hexpand, hkey, hcommit, href⟩
    rcases hend with ⟨e, -, hend⟩ | ⟨receipt, w₁, hemit, p, hp, hend⟩
    · rw [hend]
      exact accrue_write (allowed_compensatePhase hoffsets htyped hg) w
    · rw [hend]
      -- the COMPENSATE is there while the offset runs and when its terminal is written
      refine accrue_after _ hemit (allowed_compensatePhase hoffsets htyped hg)
        (fun _ _ hread _ => compensating_of_readsAs hoffsets hread) ?_
      exact accruesFrom_trans (heffect c.effect hcall w₁).of_any (@accrue_terminal rt clean _ .reversible
        _ _ _ (allowed_settlePhase hoffsets hg hp (prepareRef_ne_of_checked hcheck)))

/-! ## Reconciliations -/

section Reconciliations

variable {w : World} {a : ReconcileArgs} {c : Reconciliation} {arc : Option String}
  {verified : List (String × PyVal)}

theorem ref_ne_of_checked {code : String}
    (h : checkReconciliation rt.toEnv code a = .ok c) : c.ref ≠ "" := by
  unfold checkReconciliation at h
  obtain ⟨authority, -, h⟩ := Except.bind_eq_ok h
  obtain ⟨evidence, -, h⟩ := Except.bind_eq_ok h
  obtain ⟨performed, -, h⟩ := Except.bind_eq_ok h
  obtain ⟨ref, href, h⟩ := Except.bind_eq_ok h
  obtain rfl := Except.ok.inj h
  unfold nonEmpty at href
  split at href
  · split at href
    · cases href
    · rw [← Except.ok.inj href]
      assumption
  · cases href

theorem forwardTerminal_spec (c : Reconciliation) : ForwardTerminal c.ref (forwardTerminal c) := by
  unfold forwardTerminal
  split
  · exact ⟨rfl, rfl, rfl, .inl ⟨rfl, rfl⟩⟩
  · exact ⟨rfl, rfl, rfl, .inr ⟨rfl, rfl⟩⟩

theorem compensationTerminal_spec (c : Reconciliation) (key : Option String) :
    OffsetTerminal c.ref key (compensationTerminal c key) := by
  unfold compensationTerminal
  split
  · exact ⟨rfl, rfl, rfl, .inl ⟨rfl, rfl⟩⟩
  · exact ⟨rfl, rfl, rfl, .inr ⟨rfl, rfl⟩⟩

/-- The markers of the verified grade: none, or the body of a warrant that passed. -/
theorem verifiedMarkers_cases (h : verifiedMarkers rt.toEnv w a = .ok verified) :
    verified = [] ∨ ∃ warrant body, verifyReconciliationWarrant rt.toEnv w a.warrantId = .ok warrant ∧
      bindingCanonicalJson rt.toEnv warrant.bodyDict = .ok body ∧
      verified = [("reconciliation_grade", .str "verified"),
        ("reconciliation_warrant_snapshot", .str (String.ofList body))] := by
  unfold verifiedMarkers at h
  split at h
  · obtain ⟨warrant, hwarrant, h⟩ := Except.bind_eq_ok h
    obtain ⟨body, hbody, h⟩ := Except.bind_eq_ok h
    exact .inr ⟨warrant, body, hwarrant, hbody, (Except.ok.inj h).symm⟩
  · exact .inl (Except.ok.inj h).symm

/-- A warrant that passes is valid, has the id that was given, and is of the frame of the kernel. -/
theorem warrant_of_verified {warrant : DecisionWarrant}
    (h : verifyReconciliationWarrant rt.toEnv w a.warrantId = .ok warrant) :
    warrant.verifyHash rt.toEnv = .ok true ∧ a.warrantId.getD "" = warrant.warrantHash ∧
      w.kernel.lawHash = warrant.lawHash ∧ w.kernel.legendHash = warrant.legendHash ∧
      warrant.constitutionalBasis ≠ [] := by
  unfold verifyReconciliationWarrant at h
  split at h
  · cases h
  · obtain ⟨id, hid, h⟩ := Except.bind_eq_ok h
    obtain ⟨found, hfound, h⟩ := Except.bind_eq_ok h
    split at h
    · cases h
    · obtain ⟨valid, hvalid, h⟩ := Except.bind_eq_ok h
      split_ifs at h with hok hframe hbasis
      obtain rfl := Except.ok.inj h
      rw [Bool.not_eq_true, Bool.not_eq_false'] at hok
      rw [not_or, not_not, not_not] at hframe
      obtain ⟨row, -, hrow, hread⟩ := getWarrant_eq_some hfound
      have hnamed : a.warrantId.getD "" = id := by
        cases hw : a.warrantId with
        | none =>
          rw [hw] at hid
          cases hid
        | some s =>
          rw [hw] at hid
          unfold nonBlank at hid
          simp only [PyVal.ofOpt] at hid
          split_ifs at hid
          exact Except.ok.inj hid
      refine ⟨hok ▸ hvalid, ?_, hframe.1.symm, hframe.2.symm, fun hnil => hbasis ?_⟩
      · rw [hnamed, ← hrow]
        exact (hash_of_toWarrant hread).symm
      · rw [hnil]
        rfl

theorem names_reconciliationMarkers : (reconciliationMarkers a c arc verified).map Prod.fst ⊆
    ["reconciled", "reconciled_by", "reconciliation_evidence_ref", "determination", "arc"] ++
      verified.map Prod.fst := by
  intro name hname
  unfold reconciliationMarkers at hname
  rw [List.map_append, List.map_append, List.mem_append, List.mem_append] at hname
  rcases hname with (hname | hname) | hname
  · exact List.mem_append_left _ (List.mem_append_left ["arc"] hname)
  · cases arc with
    | none => cases hname
    | some x =>
      obtain rfl := List.mem_singleton.mp hname
      simp
  · exact List.mem_append_right _ hname

theorem reconciliationMarkers_erase_nothing (hverified : verifiedMarkers rt.toEnv w a = .ok verified) :
    ∀ name ∈ erasureMarkers, name ∉ (reconciliationMarkers a c arc verified).map Prod.fst := by
  intro name hname hmem
  replace hmem := names_reconciliationMarkers hmem
  have hnames : verified.map Prod.fst ⊆ ["reconciliation_grade", "reconciliation_warrant_snapshot"] := by
    rcases verifiedMarkers_cases hverified with rfl | ⟨_, _, -, -, rfl⟩
    · exact List.nil_subset _
    · exact List.Subset.refl _
  exact (show ∀ name ∈ erasureMarkers, name ∉ ["reconciled", "reconciled_by",
    "reconciliation_evidence_ref", "determination", "arc", "reconciliation_grade",
      "reconciliation_warrant_snapshot"] by decide) name hname
        (List.append_subset.mpr ⟨List.subset_append_left _ _,
          List.Subset.trans hnames (List.subset_append_right _ _)⟩ hmem)

/-- A reconciliation claims a grade only with its warrant. -/
theorem graded_of_reconciliation {pr : Protocol} {p : Phase} {op : String} {key : PyVal} {row : Row}
    {read : Receipt} (hverified : verifiedMarkers rt.toEnv w a = .ok verified)
    (h : ReadsAs rt.toConfig (phaseArgs w.kernel pr (reconciliationTrail a c op key
      (reconciliationMarkers a c arc verified)) p) row read) : Graded rt.toEnv read := by
  rcases verifiedMarkers_cases hverified with rfl | ⟨warrant, body, hwarrant, hbody, rfl⟩
  · refine graded_of_clean h rfl (clean_of_names fun name hname hmem => ?_)
    exact (show ∀ name ∈ columnNames, name ∉ ["reconciled", "reconciled_by",
      "reconciliation_evidence_ref", "determination", "arc"] by decide) name hname
        (names_reconciliationMarkers hmem)
  · intro _ _
    obtain ⟨-, hlaw, hlegend, hid⟩ := frame_of_readsAs h
    obtain ⟨hhash, hnamed, hwlaw, hwlegend, hbasis⟩ := warrant_of_verified hwarrant
    refine ⟨warrant, hhash, hid.trans hnamed, ⟨body, hbody, ?_⟩, hlaw.trans hwlaw,
      hlegend.trans hwlegend, hbasis⟩
    rw [(grade_of_readsAs h).2]
    cases arc <;> rfl

/-- The reconciliation of a forward effect, with a detector that finds its PREPARE. -/
theorem accrue_reconcileForward {pr : Protocol}
    {detect : List Receipt → String → Option (String × PyVal)}
    (hdetect : ∀ rs ref op key, detect rs ref = some (op, key) →
      ∃ r ∈ rs, r.op = op ∧ inPhase pr.atomicity.value ["prepare"] r = true ∧
        effectParam r .idempotencyKey = key ∧ r.hR = ref) (a : ReconcileArgs) :
    Proc.Steps (Accrue rt clean []) (reconcileForward rt pr arc detect a) := by
  intro w
  unfold reconcileForward
  rw [Proc.bind_of_ok (Proc.get_apply _)]
  cases checkReconciliation rt.toEnv "prepare_ref-required" a with
  | error e => exact accrue_refl w
  | ok c =>
    rw [Proc.bind_of_ok (Proc.lift_ok c w)]
    cases hreads : allReceipts rt.toEnv (rows w.store) with
    | error e => exact accrue_refl w
    | ok receipts =>
      rw [Proc.bind_of_ok (Proc.lift_ok receipts w)]
      cases hfound : detect receipts c.ref with
      | none => exact accrue_refl w
      | some x =>
        obtain ⟨op, key⟩ := x
        dsimp only
        cases hverified : verifiedMarkers rt.toEnv w a with
        | error e => exact accrue_refl w
        | ok verified =>
          rw [Proc.bind_of_ok (Proc.lift_ok verified w)]
          obtain ⟨r, hr, rfl, hphase, rfl, hroot⟩ := hdetect receipts c.ref op key hfound
          refine accrue_of_phase hreads hr (phase_ne_none hphase) fun op authority hexpand hg htyped =>
            accrue_terminal ?_
          have hp := forwardTerminal_spec c
          refine allowed_phase hg (outcomeArgs_settling hexpand
            (unmarked_reconciliationMarkers hverified) hp.settling)
            (fun _ => unmarked_reconciliationMarkers hverified) ?_
          intro hc rs row read hkinds hread hasked
          obtain ⟨_, hmem, rfl⟩ := hkinds (· = r) (List.mem_cons_of_mem _ List.mem_cons_self)
          have hkey := ((htyped hc).column .idempotencyKey).symm
          refine ⟨custody_close hp hasked hmem ⟨(htyped hc).inTrail hphase,
            (op_of_settling hread rfl rfl hexpand).symm, ?_, hroot⟩,
            graded_of_reconciliation hverified hread⟩
          refine hkey.trans (ofOpt_str? ?_).symm
          rw [← hkey]
          exact (htyped hc).text .idempotencyKey

/-- What a search among sorted orphans finds describes an attempt that is open. -/
theorem orphan_mem {α : Type} {env : Env} {arc : Arc} {key : α → PyVal} {describe : Receipt → α}
    {rs : List Receipt} {p : α → Bool} {o : α}
    (h : (sortOrphans env key ((arc.orphans env rs).map describe)).find? p = some o) :
    ∃ r ∈ rs, arc.opens r = true ∧ describe r = o ∧ p o = true := by
  have hmem := List.mem_of_find?_eq_some h
  obtain ⟨r, hr, hdescribe⟩ := List.mem_map.mp (mem_sortOrphans.mp hmem)
  obtain ⟨hrs, hopens, -⟩ := mem_orphans.mp hr
  exact ⟨r, hrs, hopens, hdescribe, List.find?_some h⟩

theorem orphanPrepare_mem {rs : List Receipt} {ref op : String} {key : PyVal}
    (h : orphanPrepare rt.toEnv rs ref = some (op, key)) :
    ∃ r ∈ rs, r.op = op ∧ inPhase "external_irreversible" ["prepare"] r = true ∧
      effectParam r .idempotencyKey = key ∧ r.hR = ref := by
  obtain ⟨o, ho, hkey⟩ := Option.map_eq_some_iff.mp h
  obtain ⟨r, hrs, hopens, rfl, href⟩ := orphan_mem ho
  exact ⟨r, hrs, (Prod.mk.inj hkey).1, hopens, (Prod.mk.inj hkey).2, beq_iff_eq.mp href⟩

theorem orphanForward_mem {rs : List Receipt} {ref op : String} {key : PyVal}
    (h : orphanForward rt.toEnv rs ref = some (op, key)) :
    ∃ r ∈ rs, r.op = op ∧ inPhase "external_reversible" ["prepare"] r = true ∧
      effectParam r .idempotencyKey = key ∧ r.hR = ref := by
  obtain ⟨o, ho, hkey⟩ := Option.map_eq_some_iff.mp h
  obtain ⟨r, hrs, hopens, rfl, href⟩ := orphan_mem ho
  exact ⟨r, hrs, (Prod.mk.inj hkey).1, hopens, (Prod.mk.inj hkey).2, beq_iff_eq.mp href⟩

theorem orphanCompensate_mem {rs : List Receipt} {ref : String} {o : OrphanCompensate}
    (h : orphanCompensate rt.toEnv rs ref = some o) :
    ∃ r ∈ rs, r.op = o.op ∧ inPhase "external_reversible" ["compensate"] r = true ∧
      effectParam r .compensateRef = .str ref ∧
      effectParam r .compensationIdempotencyKey = o.compensationIdempotencyKey := by
  obtain ⟨r, hrs, hopens, rfl, href⟩ := orphan_mem h
  exact ⟨r, hrs, rfl, hopens, isStr_iff.mp href, rfl⟩

theorem accrue_reconcileCompensation (a : ReconcileArgs) :
    Proc.Steps (Accrue rt clean []) (reconcileExternalReversibleCompensation rt a) := by
  intro w
  unfold reconcileExternalReversibleCompensation
  rw [Proc.bind_of_ok (Proc.get_apply _)]
  cases hcheck : checkReconciliation rt.toEnv "compensate_ref-required" a with
  | error e => exact accrue_refl w
  | ok c =>
    rw [Proc.bind_of_ok (Proc.lift_ok c w)]
    cases hreads : allReceipts rt.toEnv (rows w.store) with
    | error e => exact accrue_refl w
    | ok receipts =>
      rw [Proc.bind_of_ok (Proc.lift_ok receipts w)]
      cases hfound : orphanCompensate rt.toEnv receipts c.ref with
      | none => exact accrue_refl w
      | some o =>
        dsimp only
        cases hverified : verifiedMarkers rt.toEnv w a with
        | error e => exact accrue_refl w
        | ok verified =>
          rw [Proc.bind_of_ok (Proc.lift_ok verified w)]
          obtain ⟨r, hr, hop, hphase, href, hkey⟩ := orphanCompensate_mem hfound
          refine accrue_of_phase hreads hr (phase_ne_none hphase) fun op authority hexpand hg htyped =>
            @accrue_terminal rt clean _ .reversible _ _ _ ?_
          have hp := compensationTerminal_spec c o.compensationIdempotencyKey.str?
          have hmarkers := @unmarked_reconciliationMarkers w rt.toEnv a c (some "compensation") verified
            hverified
          refine allowed_phase hg (outcomeArgs_settling (hop ▸ hexpand) hmarkers hp.settling)
            (fun _ => hmarkers) ?_
          intro hc rs row read hkinds hread hasked
          obtain ⟨_, hmem, rfl⟩ := hkinds (· = r) (List.mem_cons_of_mem _ List.mem_cons_self)
          have hcolumn := ((htyped hc).column .compensationIdempotencyKey).symm.trans hkey
          refine ⟨custody_settle hp (ref_ne_of_checked hcheck) hasked ?_ hmem
            ⟨(htyped hc).inTrail hphase, (op_of_settling hread rfl hop.symm hexpand).symm,
              ((htyped hc).column .compensateRef).symm.trans href, ?_⟩,
            graded_of_reconciliation hverified hread⟩
          · exact claimsErasure_of_names rfl (reconciliationMarkers_erase_nothing hverified) hread
          · refine hcolumn.trans (ofOpt_str? ?_).symm
            rw [← hcolumn]
            exact (htyped hc).text .compensationIdempotencyKey

end Reconciliations

/-! ## Sessions, continuations and bridges -/

theorem accrue_closeSession : Proc.Steps (Accrue rt clean []) (closeSession rt) := by
  refine accrue_bind accrue_get fun w => accrue_bind (accrue_write ?_) fun _ => accrue_ret ()
  have hop : (sessionCloseArgs w.kernel).op ∈ ownOps := by simp [sessionCloseArgs, ownOps]
  have hmarkers : NoMarkers (sessionCloseArgs w.kernel).parameters :=
    noMarkers_of_names (show Unmarked ["session_id"] by decide)
  exact allowed_note hop rfl hmarkers rfl rfl

theorem accrue_openSession (sessionId : Option String) (uuid priorScopeId : String) :
    Proc.Steps (Accrue rt clean []) (openSession rt sessionId uuid priorScopeId) := by
  refine accrue_bind (accrue_of_store fun _ => rfl) fun _ => ?_
  refine accrue_bind accrue_get fun w => accrue_bind (accrue_write ?_) fun _ => ?_
  · let args := sessionOpenArgs rt.toConfig w.kernel
      (if sessionId.getD "" = "" then uuid else sessionId.getD "")
    have hop : args.op ∈ ownOps := by simp [args, sessionOpenArgs, ownOps]
    have hmarkers : NoMarkers args.parameters :=
      noMarkers_of_names (show Unmarked ["session_id", "session_dkn", "phase_code",
        "authority_model_hash", "manifest_hash"] by decide)
    exact allowed_note hop rfl hmarkers rfl rfl
  · refine accrue_bind ?_ fun _ => accrue_ret _
    refine accrue_bind (accrue_of_store fun _ => rfl) fun _ => accrue_bind accrue_get fun w => ?_
    cases createScope rt.toEnv w.kernel priorScopeId (rt.isoTime w.store.ticks) with
    | error e => exact accrue_ret ()
    | ok scope =>
      exact accrue_bind (fun w => accruesFrom_sealArchive (.scope scope) w.store) fun _ =>
        accrue_of_store fun _ => rfl

/-- A deferral captures an operation, and is no admission of it. -/
theorem accrue_deferOperation {a : DeferArgs} (hp : NoMarkers (.dict (deferParameters a)))
    (hclean : clean → Clean (.dict (deferParameters a))) :
    Proc.Steps (Accrue rt clean []) (deferOperation rt a) := by
  refine accrue_bind accrue_get fun w => accrue_bind (accrue_lift _) fun cid => ?_
  refine accrue_bind (accrue_write (allowed_own ⟨.inr rfl, rfl, hp, rfl⟩ fun hc => ?_)) fun _ =>
    accrue_ret _
  refine ⟨hp, rfl, fun d hd => ?_, .inr ⟨rfl, hclean hc⟩⟩
  obtain rfl := PyVal.dict.inj (Option.some.inj hd)
  exact hclean hc

/-- The record of a transition captures what the one before it did. -/
theorem parameters_of_markerRecord {cid state : String} {src : Receipt} {record : PyVal}
    (h : markerRecord rt.toEnv cid src state = .ok record) : ∃ v,
      loadsColumn rt.toEnv (.dict []) src.continuationParameters = .ok v ∧
        ∀ d, record = .dict d → PyDict.get d "parameters" = v := by
  obtain ⟨v, hv, h⟩ := Except.bind_eq_ok h
  obtain ⟨_, -, h⟩ := Except.bind_eq_ok h
  refine ⟨v, hv, fun d hd => ?_⟩
  obtain rfl := PyVal.dict.inj ((Except.ok.inj h).trans hd)
  rfl

theorem accrue_continuationMarker {src : Receipt} (hsrc : clean → Captured rt.toEnv src)
    (cid state : String) (refuse : Bool) (reason : String) :
    Proc.Steps (Accrue rt clean []) (continuationMarker rt cid src state refuse reason) := by
  intro w
  unfold continuationMarker
  rw [Proc.bind_of_ok (Proc.get_apply _)]
  cases hrecord : markerRecord rt.toEnv cid src state with
  | error e => exact accrue_refl w
  | ok record =>
    rw [Proc.bind_of_ok (Proc.lift_ok record w)]
    obtain ⟨v, hv, hparameters⟩ := parameters_of_markerRecord hrecord
    have hmarkers : NoMarkers (markerArgs w.kernel cid src refuse reason record).parameters :=
      noMarkers_of_names (show Unmarked ["continuation_id", "reason"] by decide)
    have hnames : Clean (markerArgs w.kernel cid src refuse reason record).parameters :=
      clean_of_names (show ∀ name ∈ columnNames, name ∉ ["continuation_id", "reason"] by decide)
    refine accrue_bind (accrue_write (allowed_own ⟨.inr rfl, rfl, hmarkers, rfl⟩ fun hc => ?_))
      (fun _ => accrue_ret ()) w
    refine ⟨hmarkers, rfl, fun d hd => ?_, .inr ⟨rfl, hnames⟩⟩
    rw [hparameters d (Option.some.inj hd)]
    exact hsrc hc v hv

/-- A resume is the call of what was deferred. -/
theorem accrue_resumeContinuation (cid : String) {gate : Option (Proc World Exc Bool)}
    {effect : Option (Proc World Exc PyVal)} (ea : Option EffectAtomicity)
    (hgate : ∀ g, gate = some g → Proc.Steps (Accrue rt clean []) g)
    (heffect : ∀ e, effect = some e → Proc.Steps (Accrue rt clean []) e) :
    Proc.Steps (Accrue rt clean []) (resumeContinuation rt cid gate effect ea) := by
  intro w
  unfold resumeContinuation
  rw [Proc.bind_of_ok (Proc.get_apply _)]
  cases hfound : findContinuation rt.toEnv (rows w.store) cid with
  | error e => exact accrue_refl w
  | ok found =>
    rw [Proc.bind_of_ok (Proc.lift_ok found w)]
    cases found with
    | none => exact accrue_refl w
    | some rec =>
      dsimp only
      unfold findContinuation at hfound
      by_cases hcid : cid = ""
      · rw [if_pos hcid] at hfound
        cases hfound
      rw [if_neg hcid] at hfound
      obtain ⟨receipts, hreads, hlatest⟩ := Except.map_eq_ok hfound
      refine accrue_of_mem hreads (List.mem_reverse.mp (List.mem_of_find?_eq_some hlatest))
        fun hsound => ?_
      have hcaptured (hc : clean) : Captured rt.toEnv rec := by
        obtain ⟨pre, hrec⟩ := hsound hc
        exact hrec.captured
      split
      · refine accrue_bind (accrue_lift _) fun expired => ?_
        split
        · exact accrue_bind (accrue_continuationMarker hcaptured _ _ _ _) fun _ => accrue_raise _
        · intro w
          unfold resumeHeld
          cases hparameters : loadsColumn rt.toEnv (.dict []) rec.continuationParameters with
          | error e => exact accrue_refl w
          | ok parameters =>
            rw [Proc.bind_of_ok (Proc.lift_ok parameters w)]
            have hclean (hc : clean) : Clean parameters := hcaptured hc parameters hparameters
            refine accrue_bind (accrue_execute hclean hgate heffect) (fun result => ?_) w
            exact accrue_bind (accrue_continuationMarker hcaptured _ _ _ _) fun _ => accrue_ret result
      · exact accrue_bind (accrue_continuationMarker hcaptured _ _ _ _) fun _ => accrue_raise _

theorem accrue_emitBridge {a : BridgeArgs} (hp : NoMarkers (.dict (a.parameters.getD [])))
    (hclean : clean → Clean (.dict (a.parameters.getD []))) :
    Proc.Steps (Accrue rt clean []) (emitBridge rt a) :=
  accrue_bind accrue_get fun _ => accrue_write (allowed_own ⟨.inr rfl, rfl, hp, rfl⟩ fun hc =>
    ⟨hp, rfl, captures_of_none rfl, .inr ⟨rfl, hclean hc⟩⟩)

/-! ## Runs -/

/-- What application code may do to the world: anything that leaves the receipts alone, the operations
    of the kernel with any arguments, in any order and caught or not, and blocks of the store.  Gates,
    effects and compensations are such code themselves.  The parameters of a deferral and of a bridge
    carry no effect markers; where it is clean, no parameters claim a column. -/
inductive KernelProgram (rt : Runtime) (clean : Prop) : ∀ {α : Type}, Proc World Exc α → Prop
  | aside {α : Type} {m : Proc World Exc α} (h : ∀ w, (m w).2.store = w.store) :
      KernelProgram rt clean m
  | bind {α β : Type} {m : Proc World Exc α} {f : α → Proc World Exc β}
      (hm : KernelProgram rt clean m) (hf : ∀ x, KernelProgram rt clean (f x)) :
      KernelProgram rt clean (m >>= f)
  | attempt {α : Type} {m : Proc World Exc α} (hm : KernelProgram rt clean m) :
      KernelProgram rt clean (Proc.attempt m)
  | block {α : Type} {m : Proc World Exc α} (hm : KernelProgram rt clean m) :
      KernelProgram rt clean (Store.transaction onStore m)
  | execute (a : ExecuteArgs) (hclean : clean → Clean a.parameters)
      (hgate : ∀ gate, a.gate = some gate → KernelProgram rt clean gate)
      (heffect : ∀ effect, a.effect = some effect → KernelProgram rt clean effect) :
      KernelProgram rt clean (execute rt a)
  | compensate (a : CompensateArgs)
      (heffect : ∀ effect, a.compensationEffect = some effect → KernelProgram rt clean effect) :
      KernelProgram rt clean (compensateExternalReversible rt a)
  | reconcileIrreversible (a : ReconcileArgs) :
      KernelProgram rt clean (reconcileExternalIrreversible rt a)
  | reconcileForward (a : ReconcileArgs) :
      KernelProgram rt clean (reconcileExternalReversibleForward rt a)
  | reconcileCompensation (a : ReconcileArgs) :
      KernelProgram rt clean (reconcileExternalReversibleCompensation rt a)
  | openSession (sessionId : Option String) (uuid priorScopeId : String) :
      KernelProgram rt clean (openSession rt sessionId uuid priorScopeId)
  | closeSession : KernelProgram rt clean (closeSession rt)
  | deferOperation (a : DeferArgs) (hp : NoMarkers (.dict (deferParameters a)))
      (hclean : clean → Clean (.dict (deferParameters a))) :
      KernelProgram rt clean (deferOperation rt a)
  | resumeContinuation (cid : String) (gate : Option (Proc World Exc Bool))
      (effect : Option (Proc World Exc PyVal)) (ea : Option EffectAtomicity)
      (hgate : ∀ g, gate = some g → KernelProgram rt clean g)
      (heffect : ∀ e, effect = some e → KernelProgram rt clean e) :
      KernelProgram rt clean (resumeContinuation rt cid gate effect ea)
  | emitBridge (a : BridgeArgs) (hp : NoMarkers (.dict (a.parameters.getD [])))
      (hclean : clean → Clean (.dict (a.parameters.getD []))) :
      KernelProgram rt clean (emitBridge rt a)

/-- The worlds of runs: a new store that meets any failures, programs one after the other, and
    restarts on what is durable with another kernel object and other stores beside it. -/
inductive KernelRun (rt : Runtime) (clean : Prop) : World → Prop
  | start (w : World) (faults : List Bool) (hstore : w.store = { faults := faults }) :
      KernelRun rt clean w
  | program {α : Type} {w : World} {m : Proc World Exc α} (h : KernelRun rt clean w)
      (hm : KernelProgram rt clean m) : KernelRun rt clean (m w).2
  | restart {w : World} (h : KernelRun rt clean w) (k : Kernel) (warrants : Option (List WarrantRow))
      (intents : Option (List IntentDeclaration)) : KernelRun rt clean
        { kernel := k, store := reopen w.store, warrants := warrants, intents := intents }

/-- What every operation keeps, every program keeps. -/
theorem accrue_of_program {α : Type} {m : Proc World Exc α} (hm : KernelProgram rt clean m) :
    Proc.Steps (Accrue rt clean []) m := by
  induction hm with
  | aside h => exact accrue_of_store h
  | bind _ _ ihm ihf => exact accrue_bind ihm ihf
  | attempt _ ih => exact ih.attempt
  | block _ ih => exact accruesFrom_transaction (p := World.store) (fun _ _ => ⟨rfl, rfl⟩) ih
  | execute a hclean _ _ ihgate iheffect => exact accrue_execute hclean ihgate iheffect
  | compensate a _ iheffect => exact accrue_compensate iheffect
  | reconcileIrreversible a =>
    exact accrue_reconcileForward (fun _ _ _ _ h => orphanPrepare_mem h) a
  | reconcileForward a => exact accrue_reconcileForward (fun _ _ _ _ h => orphanForward_mem h) a
  | reconcileCompensation a => exact accrue_reconcileCompensation a
  | openSession sessionId uuid priorScopeId => exact accrue_openSession sessionId uuid priorScopeId
  | closeSession => exact accrue_closeSession
  | deferOperation a hp hclean => exact accrue_deferOperation hp hclean
  | resumeContinuation cid gate effect ea _ _ ihgate iheffect =>
    exact accrue_resumeContinuation cid ea ihgate iheffect
  | emitBridge a hp hclean => exact accrue_emitBridge hp hclean

/-- The ledgers of a run follow the law, on the connection and on disk. -/
theorem lawful_of_run {w : World} (h : KernelRun rt clean w) : NamesUsed w.store ∧
    (∃ rs, Ledger rt.toEnv (Lawful rt clean) w.store.conn.current rs) ∧
    ∃ rs, Ledger rt.toEnv (Lawful rt clean) w.store.conn.durable rs := by
  induction h with
  | start w faults hstore =>
    rw [hstore]
    exact ⟨fun _ h => absurd h List.not_mem_nil, ⟨[], ledger_empty rfl⟩, [], ledger_empty rfl⟩
  | program _ hm ih =>
    obtain ⟨hnames, ⟨rs, hrs⟩, hdurable⟩ := ih
    have hstep := accrue_of_program hm _ hnames ⟨rs, hrs, fun _ h => absurd h List.not_mem_nil⟩
    obtain ⟨new, hnew⟩ := hstep.current rs hrs
    exact ⟨hstep.fresh hnames, ⟨_, hnew⟩, hstep.durable ⟨rs, hrs⟩ hdurable⟩
  | restart _ k warrants intents ih =>
    obtain ⟨-, -, hdurable⟩ := ih
    exact ⟨fun _ h => absurd h List.not_mem_nil, hdurable, hdurable⟩

/-- What follows from the law holds of the receipts of a run, on the connection and on disk. -/
theorem ledgers_of_run {w : World} {P : List Receipt → Prop} (h : KernelRun rt clean w)
    (hP : ∀ rs, Stepwise (Lawful rt clean) rs → P rs) :
    (∃ rs, allReceipts rt.toEnv (rows w.store) = .ok rs ∧ P rs) ∧
    ∃ rs, allReceipts rt.toEnv (durableRows w.store) = .ok rs ∧ P rs := by
  obtain ⟨-, ⟨rs, hrs⟩, rs', hrs'⟩ := lawful_of_run h
  exact ⟨⟨rs, hrs.reads, hP rs hrs.lawful⟩, rs', hrs'.reads, hP rs' hrs'.lawful⟩

/-! ## A recovery -/

/-- The warrant of the recovery. -/
def sampleWarrants : List WarrantRow :=
  ((DecisionWarrant.create sampleEnv [.str "carrier"] "" "" "2026-01-01T00:00:00Z"
    1).toOption.map fun warrant => warrant.row "[\"carrier\"]").toList

/-- The verified reconciliation of the PREPARE in the second row, under the first warrant. -/
def sampleReconcile : Proc World Exc Receipt := do
  let w ← Proc.get
  reconcileExternalReversibleForward sampleRuntime {
    ref := .str (((rows w.store)[1]?.map Row.hR).getD "")
    determination := .str "performed"
    evidenceRef := .str "carrier log"
    authority := .str "system"
    warrantId := (w.warrants.getD []).head?.map WarrantRow.warrantHash
    verified := true }

/-- An attempt that cannot record its COMMIT. -/
def sampleCrash : Except Exc PyVal × World :=
  execute sampleRuntime sampleForward (sagaWorld [false, false, false, false, true, true, true])

/-- The restart after it. -/
def sampleRestart : World :=
  { kernel := { active := true }
    store := reopen sampleCrash.2.store
    warrants := some sampleWarrants
    intents := none }

/-- The reconciliation of what was left in doubt. -/
def sampleRecovery : Except Exc Receipt × World := sampleReconcile sampleRestart

theorem kernelProgram_sampleForward : KernelProgram sampleRuntime True
    (execute sampleRuntime sampleForward) := by
  refine .execute _ (fun _ d hd => by cases hd) (fun gate hgate => by cases hgate)
    fun effect heffect => ?_
  obtain rfl := Option.some.inj heffect
  exact .aside fun _ => rfl

theorem kernelProgram_sampleReconcile : KernelProgram sampleRuntime True sampleReconcile :=
  .bind (.aside fun _ => rfl) fun _ => .reconcileForward _

theorem kernelRun_sampleCrash : KernelRun sampleRuntime True sampleCrash.2 :=
  .program (.start _ _ rfl) kernelProgram_sampleForward

theorem kernelRun_sampleRestart : KernelRun sampleRuntime True sampleRestart :=
  .restart kernelRun_sampleCrash _ _ _

theorem kernelRun_sampleRecovery : KernelRun sampleRuntime True sampleRecovery.2 :=
  .program kernelRun_sampleRestart kernelProgram_sampleReconcile

/-! ## Every run -/

/-- In every run whose parameters claim no column, every phase of an effect follows the receipt that it
    names, and the verifier of effect trails accepts the ledger. -/
theorem custody_of_run {w : World} (h : KernelRun rt True w) :
    (∃ rs, allReceipts rt.toEnv (rows w.store) = .ok rs ∧ Stepwise (Custody rt.toEnv) rs ∧
      verifyEffectTrailIntegrityTyped rt.toEnv rs = []) ∧
    ∃ rs, allReceipts rt.toEnv (durableRows w.store) = .ok rs ∧ Stepwise (Custody rt.toEnv) rs ∧
      verifyEffectTrailIntegrityTyped rt.toEnv rs = [] := by
  refine ledgers_of_run h fun rs hrs => ⟨fun pre r post hsplit => ?_, conforms_of_lawful hrs⟩
  exact ((hrs pre r post hsplit).sound trivial).custody

theorem custody_of_run_recovery :
    ∃ rs, allReceipts sampleEnv (rows sampleRecovery.2.store) = .ok rs ∧ Stepwise (Custody sampleEnv) rs ∧
      verifyEffectTrailIntegrityTyped sampleEnv rs = [] :=
  (custody_of_run kernelRun_sampleRecovery).1

/-- In every run whose parameters claim no column, what is recorded as verified has its warrant. -/
theorem verified_of_run {w : World} (h : KernelRun rt True w) :
    (∃ rs, allReceipts rt.toEnv (rows w.store) = .ok rs ∧ ∀ r ∈ rs, Graded rt.toEnv r) ∧
    ∃ rs, allReceipts rt.toEnv (durableRows w.store) = .ok rs ∧ ∀ r ∈ rs, Graded rt.toEnv r := by
  refine ledgers_of_run h fun rs hrs r hr => ?_
  obtain ⟨pre, hsound⟩ := sound_of_mem hrs hr trivial
  exact hsound.graded

theorem verified_of_run_recovery :
    ∃ rs, allReceipts sampleEnv (rows sampleRecovery.2.store) = .ok rs ∧
      ∀ r ∈ rs, Graded sampleEnv r :=
  (verified_of_run kernelRun_sampleRecovery).1

end Kernel

end Ugk
