import Ugk.ForStd.Callback
import Ugk.Spec.Mediation

/-!
# Receipts before effects

An effect callable is run where its call has receipted its decision: after the admission, and after
the PREPARE, the COMPENSATE or the legacy success receipt of its class, all of them durable unless the
caller has a block open.  A call that does not get so far does not run it.

## Key results

- `calls_execute`, `calls_compensate`, `calls_resume`: where a call runs its effect, if it does
- `receipt_before_effect`
-/

namespace Ugk

open Store

namespace Kernel

variable {rt : Runtime}

/-! ## The receipts before an effect -/

/-- The call with this effect. -/
def ExecuteArgs.withEffect (a : ExecuteArgs) (effect : Proc World Exc PyVal) : ExecuteArgs :=
  { a with effect := some effect }

/-- What a class writes between the admission and the effect. -/
def announced (k : Kernel) (a : ExecuteArgs) (adm : Admission) : List WriteArgs :=
  match a.effectAtomicity with
  | some .externalReversible =>
    [phaseArgs k .reversible (externalTrail a adm) (preparePhase adm.admitRef)]
  | some .externalIrreversible =>
    [phaseArgs k .irreversible (externalTrail a adm) (preparePhase adm.admitRef)]
  | some .pure => []
  | some .storeLocal => []
  | _ => [successArgs k a adm]

/-- What a call writes before its effect. -/
def heralds (k : Kernel) (a : ExecuteArgs) (adm : Admission) : List WriteArgs :=
  admitArgs k a adm.authority adm.parameters :: announced k a adm

/-- The rows are the ones of these writes, and on disk unless a block is open. -/
structure Written (rt : Runtime) (args : List WriteArgs) (s s' : StoreState) : Prop where
  rows : ∃ new, Store.rows s' = Store.rows s ++ new ∧
    List.Forall₂ (fun a row => ∃ read, ReadsAs rt.toConfig a row read) args new
  depth : s'.txnDepth = s.txnDepth
  durable : s.txnDepth = 0 → args ≠ [] ∨ durableRows s = Store.rows s → durableRows s' = Store.rows s'

/-- A world in which the effect of a call starts: the call has passed everything before its admission,
    and what goes before its effect is written. -/
def Poised (rt : Runtime) (a : ExecuteArgs) (w x : World) : Prop :=
  ∃ adm w₁ s, Passes rt a w adm.authority adm.parameters adm.intentRef w₁ ∧
    adm.outcomeParams = outcomeParams w₁.kernel a adm.parameters ∧
    Written rt (heralds w₁.kernel a adm) w₁.store s ∧
    (Store.rows s)[(Store.rows w₁.store).length]?.map Row.hR = some adm.admitRef ∧
    x.kernel = w₁.kernel ∧ (x.store = s ∨ x.store = opened s)

/-! ## Writes that returned -/

theorem durable_of_write {cfg : Config} {clock : Clock} {a : WriteArgs} {s s' : StoreState}
    {receipt : Receipt} (h : Store.write cfg clock a s = (.ok receipt, s'))
    (hdepth : s.txnDepth = 0) :
    durableRows s' = Store.rows s' := by
  obtain ⟨r, planned', row, -, -, -, hstate⟩ := write_ok (congrArg Prod.fst h)
  rw [h] at hstate
  dsimp only at hstate
  rw [hstate]
  unfold appended
  rw [if_pos (show (sampled cfg a s).txnDepth = 0 from hdepth)]
  rfl

theorem written_nil (s : StoreState) : Written rt [] s s :=
  ⟨⟨[], (List.append_nil _).symm, .nil⟩, rfl, fun _ h => h.resolve_left fun hne => hne rfl⟩

/-- One row. -/
theorem written_of_write {a : WriteArgs} {s s' : StoreState} {receipt : Receipt}
    (h : Store.write rt.toConfig rt.clock a s = (.ok receipt, s')) : Written rt [a] s s' := by
  obtain ⟨row, read, hrows, hread, -, hdepth⟩ := rows_of_write_ok h
  exact ⟨⟨[row], hrows, .cons ⟨read, hread⟩ .nil⟩, hdepth, fun hzero _ => durable_of_write h hzero⟩

theorem Written.append {args args' : List WriteArgs} {s s' s'' : StoreState}
    (h : Written rt args s s') (h' : Written rt args' s' s'') : Written rt (args ++ args') s s'' := by
  obtain ⟨new, hnew, hreads⟩ := h.rows
  obtain ⟨new', hnew', hreads'⟩ := h'.rows
  refine ⟨⟨new ++ new', ?_, List.rel_append hreads hreads'⟩, h'.depth.trans h.depth,
    fun hzero hsome => h'.durable (h.depth.trans hzero) ?_⟩
  · rw [hnew', hnew, List.append_assoc]
  · by_cases hargs : args' = []
    · refine .inr (h.durable hzero ?_)
      rw [hargs, List.append_nil] at hsome
      exact hsome
    · exact .inl hargs

theorem write_of_store {a : WriteArgs} {w : World} {result : Except Exc Receipt} {s : StoreState}
    (h : Store.write rt.toConfig rt.clock a w.store = (result, s)) :
    write rt a w = (result, { w with store := s }) := by rw [write_apply, h]

/-! ## Outcomes -/

section Outcomes

variable {w : World}

/-- An external effect runs after its PREPARE. -/
theorem calls_external (pr : Protocol) (t : Trail) (admitRef : String) :
    Proc.Ignores (fun effect => executeExternal rt pr t admitRef effect) w ∨
    ∃ receipt s, Store.write rt.toConfig rt.clock (phaseArgs w.kernel pr t (preparePhase admitRef))
        w.store = (.ok receipt, s) ∧
      Proc.CallsAt (fun effect => executeExternal rt pr t admitRef effect) w
        { w with store := s } := by
  unfold executeExternal
  cases hw : Store.write rt.toConfig rt.clock (phaseArgs w.kernel pr t (preparePhase admitRef))
      w.store with
  | mk result s =>
    have hemit : emitPhase rt pr t (preparePhase admitRef) w = (result, { w with store := s }) := by
      unfold emitPhase
      rw [Proc.bind_of_ok (Proc.get_apply _), write_of_store hw]
    cases result with
    | error e => exact .inl (Proc.ignores_of_error hemit)
    | ok receipt =>
      refine .inr ⟨receipt, s, rfl, Proc.callsAt_of_ok hemit ?_⟩
      exact (((Proc.callsAt_self _).mapError _).attempt).bind _

/-- A PURE or STORE_LOCAL effect runs in a block of its own. -/
theorem calls_seam (a : ExecuteArgs) (adm : Admission) (ea : EffectAtomicity) :
    Proc.CallsAt (fun effect => executeSeam rt a adm ea effect) w
      { w with store := opened w.store } := by
  unfold executeSeam
  refine Proc.CallsAt.bind (Proc.CallsAt.withLocal ?_) _
  unfold transaction
  have hbegin : Proc.besides (onStore beginTxn) (w, "effect") =
      (.ok ⟨w.store.spCounter, w.store.tip⟩, ({ w with store := opened w.store }, "effect")) := rfl
  refine Proc.callsAt_of_ok hbegin (Proc.CallsAt.bind (Proc.CallsAt.attempt ?_) _)
  unfold seamBody
  exact Proc.CallsAt.bind (Proc.CallsAt.besides ((Proc.callsAt_self _).mapError _)) _

/-- A legacy effect runs after the success receipt. -/
theorem calls_legacy (a : ExecuteArgs) (adm : Admission) :
    Proc.Ignores (fun effect => executeLegacy rt (a.withEffect effect) adm) w ∨
    ∃ receipt s, Store.write rt.toConfig rt.clock
        (successArgs w.kernel (a.withEffect (Proc.ret .none)) adm) w.store = (.ok receipt, s) ∧
      Proc.CallsAt (fun effect => executeLegacy rt (a.withEffect effect) adm) w
        { w with store := s } := by
  unfold executeLegacy
  cases hw : Store.write rt.toConfig rt.clock
      (successArgs w.kernel (a.withEffect (Proc.ret .none)) adm) w.store with
  | mk result s =>
    cases result with
    | error e =>
      exact .inl (Proc.ignores_of_ok (Proc.get_apply w) (Proc.ignores_of_error (write_of_store hw)))
    | ok receipt =>
      refine .inr ⟨receipt, s, rfl, ?_⟩
      refine Proc.callsAt_of_ok (Proc.get_apply w) (Proc.callsAt_of_ok (write_of_store hw) ?_)
      exact (((Proc.callsAt_self _).mapError _).attempt).bind_of_eq fun _ _ => rfl

/-- What comes after an admission runs the effect where its class has announced it. -/
theorem calls_outcome (a : ExecuteArgs) (adm : Admission) :
    Proc.Ignores (fun effect => outcome rt (a.withEffect effect) adm) w ∨
    ∃ x s, Proc.CallsAt (fun effect => outcome rt (a.withEffect effect) adm) w x ∧
      Written rt (announced w.kernel (a.withEffect (Proc.ret .none)) adm) w.store s ∧
      x.kernel = w.kernel ∧ (x.store = s ∨ x.store = opened s) := by
  have hexternal (pr : Protocol) (t : Trail) :
      Proc.Ignores (fun effect => executeExternal rt pr t adm.admitRef effect) w ∨
      ∃ x s, Proc.CallsAt (fun effect => executeExternal rt pr t adm.admitRef effect) w x ∧
        Written rt [phaseArgs w.kernel pr t (preparePhase adm.admitRef)] w.store s ∧
        x.kernel = w.kernel ∧ (x.store = s ∨ x.store = opened s) := by
    rcases @calls_external rt w pr t adm.admitRef with hno | ⟨receipt, s, hw, hcalls⟩
    · exact .inl hno
    · exact .inr ⟨_, s, hcalls, written_of_write hw, rfl, .inl rfl⟩
  have hlegacy :
      Proc.Ignores (fun effect => executeLegacy rt (a.withEffect effect) adm) w ∨
      ∃ x s, Proc.CallsAt (fun effect => executeLegacy rt (a.withEffect effect) adm) w x ∧
        Written rt [successArgs w.kernel (a.withEffect (Proc.ret .none)) adm] w.store s ∧
        x.kernel = w.kernel ∧ (x.store = s ∨ x.store = opened s) := by
    rcases @calls_legacy rt w a adm with hno | ⟨receipt, s, hw, hcalls⟩
    · exact .inl hno
    · exact .inr ⟨_, s, hcalls, written_of_write hw, rfl, .inl rfl⟩
  have hseam (ea : EffectAtomicity) :
      ∃ x s, Proc.CallsAt (fun effect =>
          executeSeam rt (a.withEffect (Proc.ret .none)) adm ea effect) w x ∧
        Written rt [] w.store s ∧ x.kernel = w.kernel ∧ (x.store = s ∨ x.store = opened s) := by
    refine ⟨{ w with store := opened w.store }, w.store, ?_, written_nil w.store, rfl, .inr rfl⟩
    exact calls_seam (a.withEffect (Proc.ret .none)) adm ea
  have hreversible := hexternal .reversible (externalTrail (a.withEffect (Proc.ret .none)) adm)
  have hirreversible := hexternal .irreversible (externalTrail (a.withEffect (Proc.ret .none)) adm)
  obtain ⟨op, authority, parameters, gate, effect, ea, key, margin, layer, jurisdiction, sig, basis,
    intentRef, authoritySet, verdicts, locality⟩ := a
  cases ea with
  | none => exact hlegacy
  | some ea =>
    cases ea with
    | pure => exact .inr (hseam .pure)
    | storeLocal => exact .inr (hseam .storeLocal)
    | externalReversible => exact hreversible
    | externalIrreversible => exact hirreversible
    | nonAtomic => exact hlegacy

end Outcomes

/-! ## Calls -/

/-- Everything before the admission of a call. -/
def horizon (rt : Runtime) (a : ExecuteArgs) :
    Proc World Exc (Option AuthorityModel × (String × PyDict) × String) := do
  let w ← Proc.get
  let checked ← Proc.lift (preflight rt.toEnv w.kernel a)
  let ref ← refusalHorizon rt a checked.1 checked.2
  pure (governingModel w.kernel a.op, checked, ref)

theorem execute_eq_horizon (a : ExecuteArgs) : execute rt a =
    horizon rt a >>= fun x => admitted rt x.1 a x.2.1.1 x.2.1.2 x.2.2 := by
  unfold horizon execute
  simp only [Proc.bind_assoc]
  rfl

theorem passes_of_horizon {a : ExecuteArgs} {w w₁ : World} {am : Option AuthorityModel}
    {authority ref : String} {parameters : PyDict}
    (h : horizon rt a w = (.ok (am, (authority, parameters), ref), w₁)) :
    Passes rt a w authority parameters ref w₁ := by
  unfold horizon at h
  rw [Proc.bind_of_ok (Proc.get_apply w)] at h
  cases hpre : preflight rt.toEnv w.kernel a with
  | error e =>
    rw [hpre, Proc.bind_of_error (Proc.lift_error e w)] at h
    cases h
  | ok checked =>
    rw [hpre, Proc.bind_of_ok (Proc.lift_ok checked w)] at h
    obtain ⟨authority', parameters'⟩ := checked
    rcases @refusalHorizon_cases rt a authority' parameters' w with
      ⟨-, e, w', hrun, -⟩ | ⟨-, -, e, w', hrun, -⟩ | ⟨-, -, -, e, w', hrun, -⟩ |
      ⟨hstatic, hgate, found, hcoverage, hrun⟩
    · rw [Proc.bind_of_error hrun] at h
      cases h
    · rw [Proc.bind_of_error hrun] at h
      cases h
    · rw [Proc.bind_of_error hrun] at h
      cases h
    · rw [Proc.bind_of_ok hrun] at h
      cases h
      exact ⟨hpre, hstatic, Prod.ext hgate rfl, hcoverage⟩

theorem admission_of_error {a : ExecuteArgs} {authority : String} {parameters : PyDict} {w : World}
    {e : Exc} {s : StoreState}
    (h : Store.write rt.toConfig rt.clock (admitArgs w.kernel a authority parameters) w.store =
      (.error e, s)) :
    gateAdmission rt a authority parameters w = (.error e, { w with store := s }) := by
  unfold gateAdmission
  rw [Proc.bind_of_ok (Proc.get_apply _), Proc.bind_of_error (write_of_store h)]

theorem admission_of_ok {a : ExecuteArgs} {authority : String} {parameters : PyDict} {w : World}
    {receipt : Receipt} {s : StoreState}
    (h : Store.write rt.toConfig rt.clock (admitArgs w.kernel a authority parameters) w.store =
      (.ok receipt, s)) :
    gateAdmission rt a authority parameters w = (.ok receipt.hR, { w with store := s }) := by
  unfold gateAdmission
  rw [Proc.bind_of_ok (Proc.get_apply _), Proc.bind_of_ok (write_of_store h)]
  rfl

/-- A call runs its effect from where it is poised, or not at all. -/
theorem calls_execute (a : ExecuteArgs) (w : World) :
    Proc.Ignores (fun effect => execute rt (a.withEffect effect)) w ∨
    ∃ x, (∀ effect, Poised rt (a.withEffect effect) w x) ∧
      Proc.CallsAt (fun effect => execute rt (a.withEffect effect)) w x := by
  have hexecute : (fun effect => execute rt (a.withEffect effect)) = fun effect =>
      horizon rt (a.withEffect (Proc.ret .none)) >>= fun x =>
        gateAdmission rt (a.withEffect (Proc.ret .none)) x.2.1.1 x.2.1.2 >>= fun admitRef =>
          materializeWarrant rt x.1 (a.withEffect (Proc.ret .none)) >>= fun warrantId =>
            Proc.get >>= fun w => outcome rt (a.withEffect effect) {
              authority := x.2.1.1
              parameters := x.2.1.2
              outcomeParams := outcomeParams w.kernel (a.withEffect (Proc.ret .none)) x.2.1.2
              intentRef := x.2.2
              admitRef := admitRef
              warrantId := warrantId } := funext fun effect => execute_eq_horizon _
  rw [hexecute]
  cases hhorizon : horizon rt (a.withEffect (Proc.ret .none)) w with
  | mk result w₁ =>
    cases result with
    | error e => exact .inl (Proc.ignores_of_error hhorizon)
    | ok x =>
      obtain ⟨am, ⟨authority, parameters⟩, ref⟩ := x
      have hhorizon' (effect : Proc World Exc PyVal) :
          horizon rt (a.withEffect effect) w = (.ok (am, (authority, parameters), ref), w₁) :=
        hhorizon
      cases hw : Store.write rt.toConfig rt.clock
          (admitArgs w₁.kernel (a.withEffect (Proc.ret .none)) authority parameters) w₁.store with
      | mk result s =>
        cases result with
        | error e =>
          exact .inl (Proc.ignores_of_ok hhorizon (Proc.ignores_of_error (admission_of_error hw)))
        | ok receipt =>
          have hadmission := admission_of_ok hw
          obtain ⟨rows, hrows⟩ := @materializeWarrant_store rt am (a.withEffect (Proc.ret .none))
            { w₁ with store := s }
          cases hwarrant : materializeWarrant rt am (a.withEffect (Proc.ret .none))
              { w₁ with store := s } with
          | mk result w₂ =>
            rw [hwarrant] at hrows
            obtain rfl : w₂ = _ := hrows
            cases result with
            | error e =>
              exact .inl (Proc.ignores_of_ok hhorizon
                (Proc.ignores_of_ok hadmission (Proc.ignores_of_error hwarrant)))
            | ok warrantId =>
              let adm : Admission :=
                { authority := authority
                  parameters := parameters
                  outcomeParams := outcomeParams w₁.kernel (a.withEffect (Proc.ret .none)) parameters
                  intentRef := ref
                  admitRef := receipt.hR
                  warrantId := warrantId }
              rcases @calls_outcome rt { w₁ with store := s, warrants := rows } a adm with
                hno | ⟨x, s', hcalls, hwritten, hkernel, hstore⟩
              · exact .inl (Proc.ignores_of_ok hhorizon (Proc.ignores_of_ok hadmission
                  (Proc.ignores_of_ok hwarrant (Proc.ignores_of_ok (Proc.get_apply _) hno))))
              · have hall : Written rt (heralds w₁.kernel (a.withEffect (Proc.ret .none)) adm)
                    w₁.store s' := (written_of_write hw).append hwritten
                refine .inr ⟨x, fun effect => ⟨adm, w₁, s', passes_of_horizon (hhorizon' effect), rfl,
                  hall, ?_, hkernel, hstore⟩, ?_⟩
                · obtain ⟨row, read, hrows, -, hroot, -⟩ := rows_of_write_ok hw
                  obtain ⟨new, hnew, -⟩ := hwritten.rows
                  have hstored : Store.rows s' = Store.rows w₁.store ++ row :: new := by
                    rw [hnew]
                    show Store.rows s ++ new = _
                    rw [hrows, List.append_assoc]
                    rfl
                  rw [hstored, List.getElem?_append_right le_rfl, Nat.sub_self]
                  exact congrArg some hroot
                · exact Proc.callsAt_of_ok hhorizon (Proc.callsAt_of_ok hadmission
                    (Proc.callsAt_of_ok hwarrant (Proc.callsAt_of_ok (Proc.get_apply _) hcalls)))

/-! ## Compensations and resumes -/

/-- The compensation with this effect. -/
def CompensateArgs.withEffect (a : CompensateArgs) (effect : Proc World Exc PyVal) :
    CompensateArgs := { a with compensationEffect := some effect }

/-- A compensation runs its effect after its COMPENSATE. -/
theorem calls_compensate (a : CompensateArgs) (w : World) :
    Proc.Ignores (fun effect => compensateExternalReversible rt (a.withEffect effect)) w ∨
    ∃ c s, (∀ effect, checkCompensation rt.toEnv (rows w.store) (a.withEffect effect) =
        .ok { c with effect := effect }) ∧
      Written rt [phaseArgs w.kernel .reversible (compensationTrail a c)
        (compensationPhase c "compensate")] w.store s ∧
      Proc.CallsAt (fun effect => compensateExternalReversible rt (a.withEffect effect)) w
        { w with store := s } := by
  have hwith (effect : Proc World Exc PyVal) := @checkCompensation_withEffect rt.toEnv
    (rows w.store) (a.withEffect (Proc.ret .none)) rfl effect
  unfold compensateExternalReversible
  cases hcheck : checkCompensation rt.toEnv (rows w.store) (a.withEffect (Proc.ret .none)) with
  | error e =>
    rw [hcheck] at hwith
    have hlift (effect : Proc World Exc PyVal) : (Proc.lift (checkCompensation rt.toEnv
        (rows w.store) (a.withEffect effect)) : Proc World Exc Compensation) w = (.error e, w) := by
      rw [show checkCompensation rt.toEnv (rows w.store) (a.withEffect effect) = .error e from
        hwith effect, Proc.lift_error]
    exact .inl (Proc.ignores_of_ok (Proc.get_apply w) (Proc.ignores_of_forall_error hlift))
  | ok c =>
    rw [hcheck] at hwith
    have hpassed (effect : Proc World Exc PyVal) :
        checkCompensation rt.toEnv (rows w.store) (a.withEffect effect) =
          .ok { c with effect := effect } := hwith effect
    have hlift (effect : Proc World Exc PyVal) : (Proc.lift (checkCompensation rt.toEnv
        (rows w.store) (a.withEffect effect)) : Proc World Exc Compensation) w =
          (.ok { c with effect := effect }, w) := by
      rw [hpassed effect, Proc.lift_ok]
    cases hw : Store.write rt.toConfig rt.clock (phaseArgs w.kernel .reversible
        (compensationTrail a c) (compensationPhase c "compensate")) w.store with
    | mk result s =>
      have hemit : emitReversible rt (compensationTrail a c) (compensationPhase c "compensate") w =
          (result, { w with store := s }) := by
        unfold emitReversible emitPhase
        rw [Proc.bind_of_ok (Proc.get_apply _), write_of_store hw]
      cases result with
      | error e =>
        exact .inl (Proc.ignores_of_ok (Proc.get_apply w)
          (Proc.ignores_of_forall_ok hlift (Proc.ignores_of_error hemit)))
      | ok receipt =>
        refine .inr ⟨c, s, hpassed, written_of_write hw, Proc.callsAt_of_ok (Proc.get_apply w)
          (Proc.callsAt_of_forall_ok hlift (Proc.callsAt_of_ok hemit ?_))⟩
        exact (((Proc.callsAt_self _).mapError _).attempt).bind_of_eq fun _ _ => rfl

/-- A record that is held and not expired is resumed by the call of what it captured. -/
theorem calls_resumeHeld (cid : String) (rec : Receipt) (gate : Option (Proc World Exc Bool))
    (ea : Option EffectAtomicity) (w : World) :
    Proc.Ignores (fun effect => resumeHeld rt cid rec gate (some effect) ea) w ∨
    ∃ parameters x, loadsColumn rt.toEnv (.dict []) rec.continuationParameters = .ok parameters ∧
      (∀ effect, Poised rt (resumeArgs cid rec parameters gate (some effect) ea) w x) ∧
      Proc.CallsAt (fun effect => resumeHeld rt cid rec gate (some effect) ea) w x := by
  unfold resumeHeld
  cases hloads : loadsColumn rt.toEnv (.dict []) rec.continuationParameters with
  | error e => exact .inl (Proc.ignores_of_error (Proc.lift_error e w))
  | ok parameters =>
    rcases @calls_execute rt (resumeArgs cid rec parameters gate none ea) w with
      hno | ⟨x, hpoised, hcalls⟩
    · exact .inl (Proc.ignores_of_ok (Proc.lift_ok parameters w) (hno.bind _))
    · exact .inr ⟨parameters, x, rfl, hpoised,
        Proc.callsAt_of_ok (Proc.lift_ok parameters w) (hcalls.bind _)⟩

/-- A resume runs its effect in the call of what was deferred, out of a record that is held. -/
theorem calls_resume (cid : String) (gate : Option (Proc World Exc Bool))
    (ea : Option EffectAtomicity) (w : World) :
    Proc.Ignores (fun effect => resumeContinuation rt cid gate (some effect) ea) w ∨
    ∃ rec parameters x, findContinuation rt.toEnv (rows w.store) cid = .ok (some rec) ∧
      rec.continuationState = .str "HELD" ∧
      continuationExpired rt.toEnv rec.continuationExpiryBasis
        (committedHeight (rows w.store)) = .ok false ∧
      loadsColumn rt.toEnv (.dict []) rec.continuationParameters = .ok parameters ∧
      (∀ effect, Poised rt (resumeArgs cid rec parameters gate (some effect) ea) w x) ∧
      Proc.CallsAt (fun effect => resumeContinuation rt cid gate (some effect) ea) w x := by
  cases hfound : findContinuation rt.toEnv (rows w.store) cid with
  | error e =>
    have hlift : (Proc.lift (findContinuation rt.toEnv (rows w.store) cid) :
        Proc World Exc (Option Receipt)) w = (.error e, w) := by rw [hfound, Proc.lift_error]
    have hrun (f : Proc World Exc PyVal) : resumeContinuation rt cid gate (some f) ea w =
        (.error e, w) := by
      unfold resumeContinuation
      rw [Proc.bind_of_ok (Proc.get_apply w), Proc.bind_of_error hlift]
    left
    intro f g
    show resumeContinuation rt cid gate (some f) ea w = resumeContinuation rt cid gate (some g) ea w
    rw [hrun f, hrun g]
  | ok found =>
    have hlift : (Proc.lift (findContinuation rt.toEnv (rows w.store) cid) :
        Proc World Exc (Option Receipt)) w = (.ok found, w) := by rw [hfound, Proc.lift_ok]
    cases found with
    | none =>
      have hrun (f : Proc World Exc PyVal) : resumeContinuation rt cid gate (some f) ea w =
          (.error (.gateRefusal "resume_continuation" "continuation-not-resumable"), w) := by
        unfold resumeContinuation
        rw [Proc.bind_of_ok (Proc.get_apply w), Proc.bind_of_ok hlift]
        exact Proc.raise_apply _ _
      left
      intro f g
      show resumeContinuation rt cid gate (some f) ea w = resumeContinuation rt cid gate (some g) ea w
      rw [hrun f, hrun g]
    | some rec =>
      by_cases hstate : rec.continuationState.isStr "HELD" = true
      · -- the rest of the resume, by whether the record has expired
        have hrest (f : Proc World Exc PyVal) : resumeContinuation rt cid gate (some f) ea w =
            (Proc.lift (continuationExpired rt.toEnv rec.continuationExpiryBasis
                (committedHeight (rows w.store))) >>= fun expired =>
              if expired then
                continuationMarker rt cid rec "EXPIRED" true "continuation-expired" >>= fun _ =>
                  Proc.raise (.gateRefusal "resume_continuation" "continuation-expired")
              else resumeHeld rt cid rec gate (some f) ea) w := by
          unfold resumeContinuation
          rw [Proc.bind_of_ok (Proc.get_apply w), Proc.bind_of_ok hlift]
          dsimp only
          rw [if_pos hstate]
        cases hexpired : continuationExpired rt.toEnv rec.continuationExpiryBasis
            (committedHeight (rows w.store)) with
        | error e =>
          left
          intro f g
          show resumeContinuation rt cid gate (some f) ea w =
            resumeContinuation rt cid gate (some g) ea w
          rw [hrest f, hrest g, hexpired, Proc.bind_of_error (Proc.lift_error e w),
            Proc.bind_of_error (Proc.lift_error e w)]
        | ok expired =>
          rw [hexpired] at hrest
          have hended (f : Proc World Exc PyVal) : resumeContinuation rt cid gate (some f) ea w =
              (if expired = true then
                  continuationMarker rt cid rec "EXPIRED" true "continuation-expired" >>= fun _ =>
                    Proc.raise (.gateRefusal "resume_continuation" "continuation-expired")
                else resumeHeld rt cid rec gate (some f) ea) w := by
            rw [hrest f, Proc.bind_of_ok (Proc.lift_ok expired w)]
          by_cases hpast : expired = true
          · left
            intro f g
            show resumeContinuation rt cid gate (some f) ea w =
            resumeContinuation rt cid gate (some g) ea w
            rw [hended f, hended g, if_pos hpast, if_pos hpast]
          · have hheld (f : Proc World Exc PyVal) : resumeContinuation rt cid gate (some f) ea w =
                resumeHeld rt cid rec gate (some f) ea w := by
              rw [hended f, if_neg hpast]
            rw [Bool.not_eq_true] at hpast
            rcases @calls_resumeHeld rt cid rec gate ea w with
              hno | ⟨parameters, x, hloads, hpoised, hcalls⟩
            · left
              intro f g
              show resumeContinuation rt cid gate (some f) ea w =
                resumeContinuation rt cid gate (some g) ea w
              rw [hheld f, hheld g]
              exact hno f g
            · refine .inr ⟨rec, parameters, x, rfl, isStr_iff.mp hstate, by rw [hexpired, hpast],
                hloads, hpoised, ?_⟩
              intro f g hfg
              show resumeContinuation rt cid gate (some f) ea w =
                resumeContinuation rt cid gate (some g) ea w
              rw [hheld f, hheld g]
              exact hcalls f g hfg
      · have hrefused (f : Proc World Exc PyVal) : resumeContinuation rt cid gate (some f) ea w =
            (continuationMarker rt cid rec "REFUSED" true "continuation-not-resumable" >>= fun _ =>
              Proc.raise (.gateRefusal "resume_continuation" "continuation-not-resumable")) w := by
          unfold resumeContinuation
          rw [Proc.bind_of_ok (Proc.get_apply w), Proc.bind_of_ok hlift]
          dsimp only
          rw [if_neg hstate]
        left
        intro f g
        show resumeContinuation rt cid gate (some f) ea w =
          resumeContinuation rt cid gate (some g) ea w
        rw [hrefused f, hrefused g]

/-! ## Receipts before effects -/

/-- Every effect is run, if at all, in one world only: where its call has passed the refusal horizon
    and has written its admission and what its class announces, where its compensation has written its
    COMPENSATE, or where the call of a record is that was held and not expired. -/
theorem receipt_before_effect (rt : Runtime) (w : World) :
    (∀ a : ExecuteArgs, Proc.Ignores (fun effect => execute rt (a.withEffect effect)) w ∨
      ∃ x, (∀ effect, Poised rt (a.withEffect effect) w x) ∧
        Proc.CallsAt (fun effect => execute rt (a.withEffect effect)) w x) ∧
    (∀ a : CompensateArgs,
      Proc.Ignores (fun effect => compensateExternalReversible rt (a.withEffect effect)) w ∨
      ∃ c s, (∀ effect, checkCompensation rt.toEnv (rows w.store) (a.withEffect effect) =
          .ok { c with effect := effect }) ∧
        Written rt [phaseArgs w.kernel .reversible (compensationTrail a c)
          (compensationPhase c "compensate")] w.store s ∧
        Proc.CallsAt (fun effect => compensateExternalReversible rt (a.withEffect effect)) w
          { w with store := s }) ∧
    ∀ (cid : String) (gate : Option (Proc World Exc Bool)) (ea : Option EffectAtomicity),
      Proc.Ignores (fun effect => resumeContinuation rt cid gate (some effect) ea) w ∨
      ∃ rec parameters x, findContinuation rt.toEnv (rows w.store) cid = .ok (some rec) ∧
        rec.continuationState = .str "HELD" ∧
        continuationExpired rt.toEnv rec.continuationExpiryBasis
          (committedHeight (rows w.store)) = .ok false ∧
        loadsColumn rt.toEnv (.dict []) rec.continuationParameters = .ok parameters ∧
        (∀ effect, Poised rt (resumeArgs cid rec parameters gate (some effect) ea) w x) ∧
        Proc.CallsAt (fun effect => resumeContinuation rt cid gate (some effect) ea) w x :=
  ⟨fun a => calls_execute a w, fun a => calls_compensate a w,
    fun cid gate ea => calls_resume cid gate ea w⟩

end Kernel

end Ugk
