import Ugk.Native.Reconciliation
import Ugk.Spec.Durable
import Ugk.Spec.Horizon

/-!
# How the effect operations end

One lemma for each operation that runs or resolves an external effect: the writes its final state
comes from, in their order, and what their phases carry.

## Key results

- `execute_ends`, `executeExternal_ends`
- `compensate_ends`
- `reconcileForward_ends`, `reconcileCompensation_ends`
-/

namespace Ugk

open Store

namespace Kernel

variable {rt : Runtime} {w : World} {t : Trail}

/-! ## Phases -/

/-- A terminal of the attempt with this root. -/
structure ForwardTerminal (ref : String) (p : Phase) : Prop where
  prepareRef : p.prepareRef = some ref
  compensateRef : p.compensateRef = none
  compensationKey : p.compensationIdempotencyKey = none
  outcome : p.phase = "commit" ∧ p.failed = false ∨ p.phase = "abort" ∧ p.failed = true

/-- A terminal of the compensation of the attempt with this root. -/
structure OffsetTerminal (ref : String) (key : Option String) (p : Phase) : Prop where
  prepareRef : p.prepareRef = none
  compensateRef : p.compensateRef = some ref
  compensationKey : p.compensationIdempotencyKey = key
  outcome : p.phase = "compensated" ∧ p.failed = false ∨
    p.phase = "compensation_failed" ∧ p.failed = true

/-- The PREPARE of an attempt. -/
abbrev preparePhase (admitRef : String) : Phase :=
  { phase := "prepare", gateAdmitRef := some admitRef }

/-- The COMMIT of an attempt. -/
abbrev commitPhase (ref : String) : Phase := { phase := "commit", prepareRef := some ref }

/-- The ABORT of an attempt whose effect was not performed. -/
abbrev abortPhase (ref : String) : Phase :=
  { phase := "abort", failed := true, prepareRef := some ref
    abortReason := some "external_effect_not_performed" }

/-! ## The external trail -/

theorem runEffect_snd (effect : Proc World Exc PyVal) (w : World) :
    (runEffect effect w).2 = (effect w).2 := Proc.mapError_snd ..

/-- PREPARE, then the effect, then a terminal or none. -/
theorem executeExternal_ends (pr : Protocol) (admitRef : String) (effect : Proc World Exc PyVal) :
    (∃ e, (emitPhase rt pr t (preparePhase admitRef) w).1 = .error e ∧
      (executeExternal rt pr t admitRef effect w).2 =
        (emitPhase rt pr t (preparePhase admitRef) w).2) ∨
    ∃ prepare w₁, emitPhase rt pr t (preparePhase admitRef) w = (.ok prepare, w₁) ∧
      ((executeExternal rt pr t admitRef effect w).2 = (effect w₁).2 ∨
        ∃ p, ForwardTerminal prepare.hR p ∧ (executeExternal rt pr t admitRef effect w).2 =
          (terminalDurable rt pr t p (effect w₁).2).2) := by
  unfold executeExternal
  cases hprepare : emitPhase rt pr t (preparePhase admitRef) w with
  | mk result w₁ =>
    cases result with
    | error e =>
      rw [Proc.bind_of_error hprepare]
      exact .inl ⟨e, rfl, rfl⟩
    | ok prepare =>
      rw [Proc.bind_of_ok hprepare, Proc.bind_of_ok (Proc.attempt_apply _ _)]
      refine .inr ⟨prepare, w₁, rfl, ?_⟩
      rw [← runEffect_snd effect w₁]
      cases (runEffect effect w₁).1 with
      | ok result =>
        refine .inr ⟨commitPhase prepare.hR, ⟨rfl, rfl, rfl, .inl ⟨rfl, rfl⟩⟩, ?_⟩
        exact Proc.bind_snd (fun _ _ => rfl) _
      | error e =>
        dsimp only
        split
        · refine .inr ⟨abortPhase prepare.hR, ⟨rfl, rfl, rfl, .inr ⟨rfl, rfl⟩⟩, ?_⟩
          exact Proc.bind_snd (fun _ _ => rfl) _
        · exact .inl rfl

/-! ## Calls -/

/-- A dictionary that passes is the one that is used. -/
theorem dict_of_checked {env : Env} {op : String} {d p : PyDict} (h : (match paramsJson env (.dict d) with
    | .error _ => Except.error (Exc.protocolError op "parameters not JSON-serializable")
    | .ok _ => do
      rejectFloats op "parameters" (.dict d)
      .ok d) = .ok p) : p = d := by
  cases hpj : paramsJson env (.dict d) with
  | error e =>
    rw [hpj] at h
    cases h
  | ok pj =>
    rw [hpj] at h
    obtain ⟨_, _, h⟩ := Except.bind_eq_ok h
    exact (Except.ok.inj h).symm

/-- Parameters that passed the preflight are the ones of the call, or none. -/
theorem parameters_of_preflight {k : Kernel} {a : ExecuteArgs} {authority : String}
    {parameters : PyDict} (h : preflight rt.toEnv k a = .ok (authority, parameters)) :
    parameters = [] ∨ a.parameters = .dict parameters := by
  unfold preflight at h
  obtain ⟨_, _, h⟩ := Except.bind_eq_ok h
  obtain ⟨p, hp, h⟩ := Except.bind_eq_ok h
  obtain ⟨_, _, h⟩ := Except.bind_eq_ok h
  obtain ⟨_, _, h⟩ := Except.bind_eq_ok h
  obtain ⟨_, _, h⟩ := Except.bind_eq_ok h
  obtain rfl := (Prod.mk.inj (Except.ok.inj h)).2
  unfold checkParameters at hp
  cases hparams : a.parameters with
  | none =>
    rw [hparams] at hp
    exact .inl (@dict_of_checked rt.toEnv a.op [] p hp)
  | dict d =>
    rw [hparams] at hp
    exact .inr (congrArg PyVal.dict (@dict_of_checked rt.toEnv a.op d p hp).symm)
  | _ =>
    rw [hparams] at hp
    cases hp

theorem noMarkers_preflight {k : Kernel} {a : ExecuteArgs} {authority : String}
    {parameters : PyDict} (h : preflight rt.toEnv k a = .ok (authority, parameters))
    (hp : NoMarkers a.parameters) : NoMarkers (.dict parameters) := by
  rcases parameters_of_preflight h with rfl | hparams
  · exact noMarkers_dict.mpr fun _ hm => absurd hm List.not_mem_nil
  · exact hparams ▸ hp

theorem noMarkers_withAuthoritySet {authoritySet : PyVal} {parameters : PyDict}
    (h : NoMarkers (.dict parameters)) : NoMarkers (.dict (match sequence? authoritySet with
      | some (x :: xs) => PyDict.set parameters (.str "authority_set") (.list (x :: xs))
      | _ => parameters)) := by
  cases sequence? authoritySet with
  | none => exact h
  | some xs =>
    cases xs with
    | nil => exact h
    | cons x xs => exact noMarkers_set h (by decide)

theorem noMarkers_outcomeParams {k : Kernel} {a : ExecuteArgs} {parameters : PyDict}
    (h : NoMarkers (.dict parameters)) : NoMarkers (.dict (outcomeParams k a parameters)) := by
  have hset := @noMarkers_withAuthoritySet a.authoritySet parameters h
  unfold outcomeParams
  dsimp only
  split
  · split
    · exact hset
    · exact noMarkers_set hset (by decide)
  · exact hset

/-- What materializing a warrant leaves: the store as it was. -/
theorem materializeWarrant_store (am : Option AuthorityModel) (a : ExecuteArgs) (w : World) :
    ∃ rows, (materializeWarrant rt am a w).2 = { w with warrants := rows } := by
  unfold materializeWarrant
  split
  · exact ⟨w.warrants, rfl⟩
  · dsimp only
    split
    · exact ⟨_, rfl⟩
    · split <;> exact ⟨_, rfl⟩

/-- The arguments of the admission have no effect markers. -/
theorem noMarkers_admitArgs (k : Kernel) (a : ExecuteArgs) (authority : String)
    (parameters : PyDict) : NoMarkers (admitArgs k a authority parameters).parameters := by
  unfold admitArgs
  refine noMarkers_of_names ?_
  split
  · exact (show Unmarked ["op", "parameters"] by decide)
  · exact (show Unmarked ["op", "parameters", "gate_margin"] by decide)

/-- A call is rejected, before its gate or after it, or its admission is written; an admission that
    is written is followed by nothing or by the outcome of the call. -/
theorem execute_ends (a : ExecuteArgs) :
    Rejected rt w (execute rt a w).2 ∨ Rejected rt (runGate a w).2 (execute rt a w).2 ∨
    ∃ authority parameters, preflight rt.toEnv w.kernel a = .ok (authority, parameters) ∧
      ((execute rt a w).2.store = (write rt (admitArgs (runGate a w).2.kernel a authority parameters)
          (runGate a w).2).2.store ∨
        ∃ w₂ adm, w₂.store = (write rt (admitArgs (runGate a w).2.kernel a authority parameters)
            (runGate a w).2).2.store ∧ adm.parameters = parameters ∧
          adm.outcomeParams = outcomeParams w₂.kernel a parameters ∧
          (execute rt a w).2 = (outcome rt a adm w₂).2) := by
  rcases execute_cases rt a w with
    ⟨authority, parameters, ref, w₁, hpasses⟩ | ⟨e, w', hrun, hrejected | hrejected⟩
  · refine .inr (.inr ⟨authority, parameters, hpasses.preflight, ?_⟩)
    have hworld : (runGate a w).2 = w₁ := congrArg Prod.snd hpasses.gate
    rw [hpasses.execute_eq, hworld]
    cases hw : Store.write rt.toConfig rt.clock (admitArgs w₁.kernel a authority parameters)
        w₁.store with
    | mk result s =>
      have hwrite : write rt (admitArgs w₁.kernel a authority parameters) w₁ =
          (result, { w₁ with store := s }) := by rw [write_apply, hw]
      rw [hwrite]
      cases result with
      | error e =>
        rw [admitted_of_not_admitted _ hw]
        exact .inl rfl
      | ok receipt =>
        have hadmission : gateAdmission rt a authority parameters w₁ =
            (.ok receipt.hR, { w₁ with store := s }) := by
          unfold gateAdmission
          rw [Proc.bind_of_ok (Proc.get_apply _), Proc.bind_of_ok hwrite]
          rfl
        unfold admitted
        rw [Proc.bind_of_ok hadmission]
        obtain ⟨rows, hrows⟩ := @materializeWarrant_store rt (governingModel w.kernel a.op) a
          { w₁ with store := s }
        cases hwarrant : materializeWarrant rt (governingModel w.kernel a.op) a
            { w₁ with store := s } with
        | mk result w₂ =>
          rw [hwarrant] at hrows
          obtain rfl : w₂ = _ := hrows
          cases result with
          | error e =>
            rw [Proc.bind_of_error hwarrant]
            exact .inl rfl
          | ok warrantId =>
            rw [Proc.bind_of_ok hwarrant, Proc.bind_of_ok (Proc.get_apply _)]
            exact .inr ⟨{ w₁ with store := s, warrants := rows }, _, rfl, rfl, rfl, rfl⟩
  · rw [hrun]
    exact .inl hrejected
  · rw [hrun]
    exact .inr (.inl hrejected)

/-! ## Compensations -/

/-- The checks of a compensation that did not refuse it: the forward effect is committed, and the
    key is another one. -/
theorem checkCompensation_ok {env : Env} {rows : List Row} {a : CompensateArgs} {c : Compensation}
    (h : checkCompensation env rows a = .ok c) :
    a.compensationEffect = some c.effect ∧ ∃ receipts, allReceipts env rows = .ok receipts ∧
      findCommittedForward receipts c.prepareRef = some (c.fwdOp, c.fwdKey) ∧
      c.fwdKey ≠ .str c.compensationIdempotencyKey := by
  unfold checkCompensation at h
  obtain ⟨authority, _, h⟩ := Except.bind_eq_ok h
  obtain ⟨key, _, h⟩ := Except.bind_eq_ok h
  obtain ⟨prepareRef, _, h⟩ := Except.bind_eq_ok h
  split at h
  · exact nomatch h
  · rename_i effect heffect
    obtain ⟨receipts, hreceipts, h⟩ := Except.bind_eq_ok h
    split at h
    · exact nomatch h
    · rename_i fwdOp fwdKey hfound
      split at h
      · exact nomatch h
      · rename_i hkey
        obtain rfl := Except.ok.inj h
        exact ⟨heffect, receipts, hreceipts, hfound, fun heq => hkey (isStr_iff.mpr heq)⟩

/-- A compensation is refused by its checks, and then nothing has happened, or it is a COMPENSATE,
    the offsetting action and a terminal. -/
theorem compensate_ends (a : CompensateArgs) :
    (∃ e, checkCompensation rt.toEnv (rows w.store) a = .error e ∧
      compensateExternalReversible rt a w = (.error e, w)) ∨
    ∃ c, checkCompensation rt.toEnv (rows w.store) a = .ok c ∧
      ((∃ e, (emitReversible rt (compensationTrail a c) (compensationPhase c "compensate") w).1 =
          .error e ∧ compensateExternalReversible rt a w = (.error e,
            (emitReversible rt (compensationTrail a c) (compensationPhase c "compensate") w).2)) ∨
        ∃ receipt w₁, emitReversible rt (compensationTrail a c) (compensationPhase c "compensate") w =
            (.ok receipt, w₁) ∧
          ∃ p, OffsetTerminal c.prepareRef (some c.compensationIdempotencyKey) p ∧
            (compensateExternalReversible rt a w).2 =
              (emitReversibleTerminalDurable rt (compensationTrail a c) p (c.effect w₁).2).2) := by
  unfold compensateExternalReversible
  rw [Proc.bind_of_ok (Proc.get_apply _)]
  cases hcheck : checkCompensation rt.toEnv (rows w.store) a with
  | error e => exact .inl ⟨e, rfl, rfl⟩
  | ok c =>
    refine .inr ⟨c, rfl, ?_⟩
    rw [Proc.bind_of_ok (Proc.lift_ok c w)]
    cases hemit : emitReversible rt (compensationTrail a c) (compensationPhase c "compensate") w with
    | mk result w₁ =>
      cases result with
      | error e => exact .inl ⟨e, rfl, Proc.bind_of_error hemit⟩
      | ok receipt =>
        refine .inr ⟨receipt, w₁, rfl, ?_⟩
        show ∃ p, _ ∧ ((emitReversible rt (compensationTrail a c)
          (compensationPhase c "compensate") >>= _) w).2 = _
        rw [Proc.bind_of_ok hemit, Proc.bind_of_ok (Proc.attempt_apply _ _),
          ← runEffect_snd c.effect w₁]
        cases (runEffect c.effect w₁).1 with
        | ok result =>
          refine ⟨compensationPhase c "compensated", ⟨rfl, rfl, rfl, .inl ⟨rfl, rfl⟩⟩, ?_⟩
          exact Proc.bind_snd (fun _ _ => rfl) _
        | error e =>
          refine ⟨{ compensationPhase c "compensation_failed" with
            failed := true
            abortReason := some "compensation_effect_failed" },
            ⟨rfl, rfl, rfl, .inr ⟨rfl, rfl⟩⟩, ?_⟩
          exact Proc.bind_snd (fun _ _ => rfl) _

/-! ## Reconciliations -/

theorem unmarked_reconciliationMarkers {env : Env} {a : ReconcileArgs} {c : Reconciliation}
    {arc : Option String} {verified : List (String × PyVal)}
    (h : verifiedMarkers env w a = .ok verified) :
    NoMarkers (strDict (reconciliationMarkers a c arc verified)) := by
  have hnames : verified.map Prod.fst = [] ∨
      verified.map Prod.fst = ["reconciliation_grade", "reconciliation_warrant_snapshot"] := by
    unfold verifiedMarkers at h
    split at h
    · obtain ⟨_, _, h⟩ := Except.bind_eq_ok h
      obtain ⟨_, _, h⟩ := Except.bind_eq_ok h
      obtain rfl := Except.ok.inj h
      exact .inr rfl
    · obtain rfl := Except.ok.inj h
      exact .inl rfl
  refine noMarkers_of_names ?_
  unfold reconciliationMarkers
  rw [List.map_append, List.map_append]
  cases arc with
  | none =>
    rcases hnames with hnames | hnames <;> rw [hnames]
    · exact (show Unmarked ["reconciled", "reconciled_by", "reconciliation_evidence_ref",
        "determination"] by decide)
    · exact (show Unmarked ["reconciled", "reconciled_by", "reconciliation_evidence_ref",
        "determination", "reconciliation_grade", "reconciliation_warrant_snapshot"] by decide)
  | some name =>
    rcases hnames with hnames | hnames <;> rw [hnames]
    · exact (show Unmarked ["reconciled", "reconciled_by", "reconciliation_evidence_ref",
        "determination", "arc"] by decide)
    · exact (show Unmarked ["reconciled", "reconciled_by", "reconciliation_evidence_ref",
        "determination", "arc", "reconciliation_grade", "reconciliation_warrant_snapshot"] by decide)

/-- A reconciliation of a forward effect changes nothing, or writes the terminal of the orphan that
    its detector found. -/
theorem reconcileForward_ends (pr : Protocol) (arc : Option String)
    (detect : List Receipt → String → Option (String × PyVal)) (a : ReconcileArgs) :
    (reconcileForward rt pr arc detect a w).2 = w ∨
    ∃ receipts ref op key t p, allReceipts rt.toEnv (rows w.store) = .ok receipts ∧
      detect receipts ref = some (op, key) ∧ t.idempotencyKey = key.str? ∧
      NoMarkers (.dict t.baseParams) ∧ ForwardTerminal ref p ∧
      (reconcileForward rt pr arc detect a w).2 = (terminalDurable rt pr t p w).2 := by
  unfold reconcileForward
  rw [Proc.bind_of_ok (Proc.get_apply _)]
  cases checkReconciliation rt.toEnv "prepare_ref-required" a with
  | error e => exact .inl rfl
  | ok c =>
    rw [Proc.bind_of_ok (Proc.lift_ok c w)]
    cases hreceipts : allReceipts rt.toEnv (rows w.store) with
    | error e => exact .inl rfl
    | ok receipts =>
      rw [Proc.bind_of_ok (Proc.lift_ok receipts w)]
      cases hfound : detect receipts c.ref with
      | none => exact .inl rfl
      | some x =>
        obtain ⟨op, key⟩ := x
        dsimp only
        cases hverified : verifiedMarkers rt.toEnv w a with
        | error e => exact .inl rfl
        | ok verified =>
          rw [Proc.bind_of_ok (Proc.lift_ok verified w)]
          refine .inr ⟨receipts, c.ref, op, key,
            reconciliationTrail a c op key (reconciliationMarkers a c arc verified),
            forwardTerminal c, rfl, hfound, rfl, unmarked_reconciliationMarkers hverified, ?_, rfl⟩
          unfold forwardTerminal
          split
          · exact ⟨rfl, rfl, rfl, .inl ⟨rfl, rfl⟩⟩
          · exact ⟨rfl, rfl, rfl, .inr ⟨rfl, rfl⟩⟩

/-- A reconciliation of a compensation changes nothing, or writes the terminal of the orphan that the
    detector found. -/
theorem reconcileCompensation_ends (a : ReconcileArgs) :
    (reconcileExternalReversibleCompensation rt a w).2 = w ∨
    ∃ receipts ref o t p, allReceipts rt.toEnv (rows w.store) = .ok receipts ∧
      orphanCompensate rt.toEnv receipts ref = some o ∧
      t.idempotencyKey = (forwardKeyOf rt.toEnv receipts o ref).str? ∧
      NoMarkers (.dict t.baseParams) ∧ OffsetTerminal ref o.compensationIdempotencyKey.str? p ∧
      (reconcileExternalReversibleCompensation rt a w).2 =
        (emitReversibleTerminalDurable rt t p w).2 := by
  unfold reconcileExternalReversibleCompensation
  rw [Proc.bind_of_ok (Proc.get_apply _)]
  cases checkReconciliation rt.toEnv "compensate_ref-required" a with
  | error e => exact .inl rfl
  | ok c =>
    rw [Proc.bind_of_ok (Proc.lift_ok c w)]
    cases hreceipts : allReceipts rt.toEnv (rows w.store) with
    | error e => exact .inl rfl
    | ok receipts =>
      rw [Proc.bind_of_ok (Proc.lift_ok receipts w)]
      cases hfound : orphanCompensate rt.toEnv receipts c.ref with
      | none => exact .inl rfl
      | some o =>
        dsimp only
        cases hverified : verifiedMarkers rt.toEnv w a with
        | error e => exact .inl rfl
        | ok verified =>
          rw [Proc.bind_of_ok (Proc.lift_ok verified w)]
          refine .inr ⟨receipts, c.ref, o,
            reconciliationTrail a c o.op (forwardKeyOf rt.toEnv receipts o c.ref)
              (reconciliationMarkers a c (some "compensation") verified),
            compensationTerminal c o.compensationIdempotencyKey.str?, rfl, hfound, rfl,
            unmarked_reconciliationMarkers hverified, ?_, rfl⟩
          unfold compensationTerminal
          split
          · exact ⟨rfl, rfl, rfl, .inl ⟨rfl, rfl⟩⟩
          · exact ⟨rfl, rfl, rfl, .inr ⟨rfl, rfl⟩⟩

end Kernel

end Ugk
