import Ugk.Native.Execute
import Ugk.Spec.EffectColumns

/-!
# The refusal horizon

What `execute` does before its admission: it passes every check and leaves the world as the gate
left it, or it raises and has written one receipt at most, a protocol error or a gate refusal.

## Key results

- `refusalHorizon_cases`: how the horizon ends
- `execute_cases`: how a call ends, up to its admission
-/

namespace Ugk

open Store

namespace Kernel

variable {rt : Runtime}

/-! ## Rejections -/

/-- The receipts of rejections and refusals. -/
structure Note (a : WriteArgs) : Prop where
  op : a.op = "protocol_error" ∨ a.op = "gate_refuse"
  failed : a.failed = true
  columns : a.effectColumns = none
  continuation : a.continuation = none
  compress : a.compress = false
  unmarked : NoMarkers a.parameters

/-- A rejection leaves one note at most. -/
structure Rejected (rt : Runtime) (w w' : World) : Prop where
  store : w'.store = w.store ∨
    ∃ a, Note a ∧ w'.store = (Store.write rt.toConfig rt.clock a w.store).2
  kernel : w'.kernel = { w.kernel with refusedByLayer := w'.kernel.refusedByLayer }
  intents : w'.intents = w.intents

theorem Rejected.refl (w : World) : Rejected rt w w := ⟨.inl rfl, rfl, rfl⟩

/-- The procedure raises, after a rejection. -/
structure Rejects (rt : Runtime) {α : Type} (m : Proc World Exc α) : Prop where
  run : ∀ w, ∃ e w', m w = (.error e, w') ∧ Rejected rt w w'

theorem rejects_raise {α : Type} (e : Exc) : Rejects rt (Proc.raise e : Proc World Exc α) :=
  ⟨fun w => ⟨e, w, rfl, .refl w⟩⟩

/-- What comes after a procedure that raises does not happen. -/
theorem Rejects.bind {α β : Type} {m : Proc World Exc α} {f : α → Proc World Exc β}
    (h : Rejects rt m) : Rejects rt (m >>= f) := by
  constructor
  intro w
  obtain ⟨e, w', hrun, hrejected⟩ := h.run w
  exact ⟨e, w', Proc.bind_of_error hrun, hrejected⟩

theorem write_apply (a : WriteArgs) (w : World) : write rt a w =
    ((Store.write rt.toConfig rt.clock a w.store).1,
      { w with store := (Store.write rt.toConfig rt.clock a w.store).2 }) := rfl

theorem note_protocolError (k : Kernel) (op reason authority : String) :
    Note (protocolErrorArgs k op reason authority) :=
  ⟨.inl rfl, rfl, rfl, rfl, rfl,
    noMarkers_of_names (show Unmarked ["op", "reason"] by decide)⟩

theorem note_refuse (k : Kernel) (authority : String) {parameters : List (String × PyVal)}
    (h : Unmarked (parameters.map Prod.fst)) : Note (refuseArgs k authority parameters) :=
  ⟨.inr rfl, rfl, rfl, rfl, rfl, noMarkers_of_names h⟩

theorem rejects_rejectWith (op reason authority : String) (e : Exc) :
    Rejects rt (rejectWith rt op reason authority e) := by
  constructor
  intro w
  refine ⟨e, { w with store := (Store.write rt.toConfig rt.clock
    (protocolErrorArgs w.kernel op reason authority) w.store).2 }, rfl, ?_, rfl, rfl⟩
  exact .inr ⟨_, note_protocolError .., rfl⟩

/-- A refusal whose receipt is written first: the receipt may not be accepted, or meet a failure. -/
theorem rejects_write {α : Type} (args : World → WriteArgs) {m : Receipt → Proc World Exc α}
    (hnote : ∀ w, Note (args w))
    (hm : ∀ receipt w, ∃ e w', m receipt w = (.error e, w') ∧ w'.store = w.store ∧
      w'.kernel = { w.kernel with refusedByLayer := w'.kernel.refusedByLayer } ∧
      w'.intents = w.intents) :
    Rejects rt (Proc.get >>= fun w => write rt (args w) >>= m) := by
  constructor
  intro w
  rw [Proc.bind_of_ok (Proc.get_apply _)]
  cases hw : Store.write rt.toConfig rt.clock (args w) w.store with
  | mk result s' =>
    have hrun : write rt (args w) w = (result, { w with store := s' }) := by rw [write_apply, hw]
    have hs' : s' = (Store.write rt.toConfig rt.clock (args w) w.store).2 := by rw [hw]
    cases result with
    | error e =>
      exact ⟨e, _, Proc.bind_of_error hrun, .inr ⟨_, hnote w, hs'⟩, rfl, rfl⟩
    | ok receipt =>
      obtain ⟨e, w', hm, hstore, hkernel, hintents⟩ := hm receipt { w with store := s' }
      rw [Proc.bind_of_ok hrun]
      exact ⟨e, w', hm, .inr ⟨_, hnote w, hstore.trans hs'⟩, hkernel, hintents⟩

theorem rejects_refuseWith (layer authority : String) {parameters : List (String × PyVal)}
    (h : Unmarked (parameters.map Prod.fst)) (e : Exc) : Rejects rt (refuseWith rt layer authority parameters e) :=
  rejects_write (fun w => refuseArgs w.kernel authority parameters)
    (fun w => note_refuse w.kernel authority h) fun _ _ => ⟨e, _, rfl, rfl, rfl, rfl⟩

theorem rejects_refuseIntent (op reason : String) : Rejects rt (refuseIntent rt op reason) := by
  refine rejects_write (fun w => { refuseArgs w.kernel w.kernel.authority [("op", .str op),
    ("reason", .str reason), ("refusal_axis", .str "intent"),
    ("refusal_reason", .str "intent_required_missing")] with
      intent := some "conform", legendHash := w.kernel.legendHash }) (fun _ => ?_)
    fun _ w => ⟨_, w, rfl, rfl, rfl, rfl⟩
  exact ⟨.inr rfl, rfl, rfl, rfl, rfl, noMarkers_of_names
    (show Unmarked ["op", "reason", "refusal_axis", "refusal_reason"] by decide)⟩

/-! ## Checks -/

/-- The procedure lets the call pass and does nothing, or rejects it, as the test says. -/
structure Guards (rt : Runtime) (p : Bool) (m : Proc World Exc Unit) : Prop where
  passes : p = true → ∀ w, m w = (.ok (), w)
  rejects : p = false → Rejects rt m

theorem guards_pass : Guards rt true (pure ()) := ⟨fun _ _ => rfl, fun h => Bool.noConfusion h⟩

theorem guards_of_rejects {m : Proc World Exc Unit} (h : Rejects rt m) : Guards rt false m :=
  ⟨fun hfalse => Bool.noConfusion hfalse, fun _ => h⟩

theorem Guards.and {p q : Bool} {m n : Proc World Exc Unit} (hm : Guards rt p m)
    (hn : Guards rt q n) : Guards rt (p && q) (m >>= fun _ => n) := by
  cases p with
  | false => exact guards_of_rejects (hm.rejects rfl).bind
  | true =>
    constructor
    · intro hq w
      rw [Proc.bind_of_ok (hm.passes rfl w)]
      exact hn.passes hq w
    · intro hq
      constructor
      intro w
      rw [Proc.bind_of_ok (hm.passes rfl w)]
      exact (hn.rejects hq).run w

/-- Steps 1, 2 and 2b let the call pass. -/
def tierOk (rt : Runtime) (k : Kernel) (a : ExecuteArgs) (parameters : PyDict) : Bool :=
  if a.op ∈ kernelOps then false
  else if a.op ∉ universalOps ∧ k.active = false then false
  else if k.requireGovernorSig ∧ a.op ∉ universalOps ∧ k.active then
    match a.governorSig with
    | none => false
    | some sig =>
      match governorMessage rt.toEnv a.op parameters with
      | .ok msg => rt.verifyGovernor msg sig
      | .error _ => false
  else true

theorem guards_checkTier (k : Kernel) (a : ExecuteArgs) (authority : String) (parameters : PyDict) :
    Guards rt (tierOk rt k a parameters) (checkTier rt k a authority parameters) := by
  unfold tierOk checkTier
  split
  · exact guards_of_rejects (rejects_rejectWith ..)
  split
  · exact guards_of_rejects (rejects_rejectWith ..)
  split
  · cases a.governorSig with
    | none => exact guards_of_rejects (rejects_rejectWith ..)
    | some sig =>
      cases hmsg : governorMessage rt.toEnv a.op parameters with
      | error e => exact guards_of_rejects (rejects_raise e)
      | ok msg =>
        show Guards rt (rt.verifyGovernor msg sig)
          (if rt.verifyGovernor msg sig = true then pure () else _)
        cases rt.verifyGovernor msg sig with
        | true => exact guards_pass
        | false => exact guards_of_rejects (rejects_rejectWith ..)
  · exact guards_pass

theorem guards_checkDeclared (a : ExecuteArgs) (authority : String) :
    Guards rt (declared rt.toConfig a.op) (checkDeclared rt a authority) := by
  unfold checkDeclared
  cases declared rt.toConfig a.op with
  | true => exact guards_pass
  | false => exact guards_of_rejects (rejects_rejectWith ..)

/-- The authority model lets the call pass. -/
def modelOk (k : Kernel) (a : ExecuteArgs) : Bool :=
  match governingModel k a.op with
  | none => true
  | some am => !(am.requireGate && a.gate.isNone) && !(am.requireWarrant && !a.warrantBasis.truthy)

theorem guards_checkAuthorityModel (k : Kernel) (a : ExecuteArgs) (authority : String) :
    Guards rt (modelOk k a) (checkAuthorityModel rt k a authority) := by
  unfold modelOk checkAuthorityModel
  cases governingModel k a.op with
  | none => exact guards_pass
  | some am =>
    dsimp only
    by_cases hgate : am.requireGate = true ∧ a.gate.isNone = true
    · rw [if_pos hgate, hgate.1, hgate.2]
      exact guards_of_rejects (rejects_rejectWith ..)
    · have hgate' : (am.requireGate && a.gate.isNone) = false := by
        rw [Bool.eq_false_iff, ne_eq, Bool.and_eq_true]
        exact hgate
      rw [if_neg hgate, hgate']
      by_cases hwarrant : am.requireWarrant = true ∧ a.warrantBasis.truthy = false
      · rw [if_pos hwarrant, hwarrant.1, hwarrant.2]
        exact guards_of_rejects (rejects_rejectWith ..)
      · have hwarrant' : (am.requireWarrant && !a.warrantBasis.truthy) = false := by
          rw [Bool.eq_false_iff, ne_eq, Bool.and_eq_true, Bool.not_eq_true']
          exact hwarrant
        rw [if_neg hwarrant, hwarrant']
        exact guards_pass

/-- The capability policy lets the call pass. -/
def capabilityOk (a : ExecuteArgs) : Bool :=
  !(findEnforcedEntry a.jurisdiction a.op && capabilityRefused a.capabilityVerdicts)

theorem guards_checkCapability (a : ExecuteArgs) (authority : String) (parameters : PyDict) :
    Guards rt (capabilityOk a) (checkCapability rt a authority parameters) := by
  unfold capabilityOk checkCapability
  by_cases h : findEnforcedEntry a.jurisdiction a.op = true ∧
      capabilityRefused a.capabilityVerdicts = true
  · rw [if_pos h, h.1, h.2]
    refine guards_of_rejects (rejects_refuseWith _ _ ?_ _)
    exact (show Unmarked ["op", "parameters", "refusal_cause", "capability_class",
      "enforced_jurisdiction", "refusal_axis", "refusal_reason"] by decide)
  · have h' : (findEnforcedEntry a.jurisdiction a.op &&
        capabilityRefused a.capabilityVerdicts) = false := by
      rw [Bool.eq_false_iff, ne_eq, Bool.and_eq_true]
      exact h
    rw [if_neg h, h']
    exact guards_pass

/-- The locality requirement lets the call pass. -/
def localityOk (a : ExecuteArgs) : Bool :=
  match a.requiredLocality with
  | none => true
  | some locality => a.jurisdiction == locality

theorem guards_checkLocality (a : ExecuteArgs) (authority : String) (parameters : PyDict) :
    Guards rt (localityOk a) (checkLocality rt a authority parameters) := by
  unfold localityOk checkLocality
  cases a.requiredLocality with
  | none => exact guards_pass
  | some locality =>
    dsimp only
    by_cases h : a.jurisdiction = locality
    · rw [if_pos h, beq_iff_eq.mpr h]
      exact guards_pass
    · rw [if_neg h, beq_eq_false_iff_ne.mpr h]
      refine guards_of_rejects (rejects_refuseWith _ _ ?_ _)
      exact (show Unmarked ["op", "parameters", "required_locality", "supplied_jurisdiction",
        "refusal_axis", "refusal_reason"] by decide)

/-! ## Intent -/

/-- The intent reference of a call in a world, when there is one. -/
def intentOf (w : World) (a : ExecuteArgs) : Option String :=
  match w.intents with
  | none => some (a.intentRef.getD "")
  | some intents =>
    if isApplication a.op then
      match intentCoverage w.kernel intents a with
      | .ok ref => some ref
      | .error _ => none
    else some (a.intentRef.getD "")

theorem resolveIntent_cases (a : ExecuteArgs) (w : World) :
    (∃ ref, intentOf w a = some ref ∧ resolveIntent rt a w = (.ok ref, w)) ∨
    (intentOf w a = none ∧ ∃ e w', resolveIntent rt a w = (.error e, w') ∧ Rejected rt w w') := by
  unfold intentOf resolveIntent
  rw [Proc.bind_of_ok (Proc.get_apply _)]
  cases w.intents with
  | none => exact .inl ⟨_, rfl, rfl⟩
  | some intents =>
    dsimp only
    split
    · cases intentCoverage w.kernel intents a with
      | ok ref => exact .inl ⟨_, rfl, rfl⟩
      | error code => exact .inr ⟨rfl, (rejects_refuseIntent a.op code).run w⟩
    · exact .inl ⟨_, rfl, rfl⟩

/-! ## The gate -/

/-- The gate of the call; a call without one is admitted. -/
def runGate (a : ExecuteArgs) : Proc World Exc Bool := a.gate.getD (pure true)

theorem evaluateGate_of_true {a : ExecuteArgs} {w w₁ : World} (authority : String)
    (parameters : PyDict) (h : runGate a w = (.ok true, w₁)) :
    evaluateGate rt a authority parameters w = (.ok (), w₁) := by
  unfold runGate at h
  unfold evaluateGate
  cases hg : a.gate with
  | none =>
    rw [hg] at h
    exact congrArg (Prod.mk (Except.ok ())) (Prod.mk.inj h).2
  | some gate =>
    rw [hg] at h
    have hrun : gate w = (.ok true, w₁) := h
    show (Proc.attempt gate >>= _) w = _
    rw [Proc.bind_of_ok (Proc.attempt_apply _ _), hrun]
    rfl

/-- The refusal warrant touches the warrant store only. -/
theorem refusalWarrant_apply (rt : Runtime) (basis : PyVal) (w : World) :
    ∃ rows, refusalWarrant rt basis w = (.ok (), { w with warrants := rows }) := by
  unfold refusalWarrant
  split
  · split
    · exact ⟨_, rfl⟩
    · exact ⟨w.warrants, rfl⟩
  · exact ⟨w.warrants, rfl⟩

theorem evaluateGate_of_not_true {a : ExecuteArgs} {w : World} (authority : String)
    (parameters : PyDict) (h : (runGate a w).1 ≠ .ok true) :
    ∃ e w', evaluateGate rt a authority parameters w = (.error e, w') ∧
      Rejected rt (runGate a w).2 w' := by
  unfold runGate at h ⊢
  unfold evaluateGate
  cases hg : a.gate with
  | none =>
    rw [hg] at h
    exact absurd rfl h
  | some gate =>
    rw [hg] at h
    dsimp only [Option.getD_some] at h ⊢
    show ∃ e w', (Proc.attempt gate >>= _) w = (Except.error e, w') ∧ _
    rw [Proc.bind_of_ok (Proc.attempt_apply _ _)]
    cases hrun : gate w with
    | mk result w₁ =>
      rw [hrun] at h
      cases result with
      | error e => exact (rejects_rejectWith a.op "gate_exception" authority _).run w₁
      | ok admitted =>
        cases admitted with
        | true => exact absurd rfl h
        | false =>
          have hrejects : Rejects rt (show Proc World Exc Unit from do
              let w ← Proc.get
              let _ ← write rt (refuseArgs w.kernel authority
                [("op", .str a.op), ("parameters", .dict parameters)])
              countRefusal a.layer
              refusalWarrant rt a.warrantBasis
              Proc.raise (.gateRefusal a.op "gate returned False")) := by
            refine rejects_write _ (fun w => note_refuse w.kernel authority
              (show Unmarked ["op", "parameters"] by decide)) fun _ w => ?_
            obtain ⟨rows, hrows⟩ := refusalWarrant_apply rt a.warrantBasis { w with
              kernel := { w.kernel with
                refusedByLayer := w.kernel.refusedByLayer.map fun x =>
                  if x.1 = a.layer then (x.1, x.2 + 1) else x } }
            have hrun := Proc.bind_of_ok (m := countRefusal a.layer) (f := fun _ =>
              refusalWarrant rt a.warrantBasis >>= fun _ =>
                (Proc.raise (.gateRefusal a.op "gate returned False") : Proc World Exc Unit))
              (s := w) rfl
            rw [Proc.bind_of_ok hrows] at hrun
            exact ⟨_, _, hrun, rfl, rfl, rfl⟩
          exact hrejects.run w₁

/-! ## The horizon -/

/-- The checks before the gate. -/
def staticOk (rt : Runtime) (k : Kernel) (a : ExecuteArgs) (parameters : PyDict) : Bool :=
  tierOk rt k a parameters && (declared rt.toConfig a.op && modelOk k a)

/-- The checks after the gate, with the intent reference they end in. -/
def coverage (w : World) (a : ExecuteArgs) : Option String :=
  if capabilityOk a && localityOk a then intentOf w a else none

theorem Guards.run {p : Bool} {m : Proc World Exc Unit} (h : Guards rt p m) {α : Type}
    (f : Unit → Proc World Exc α) (w : World) :
    (p = true ∧ (m >>= f) w = f () w) ∨
    (p = false ∧ ∃ e w', (m >>= f) w = (.error e, w') ∧ Rejected rt w w') := by
  cases p with
  | true => exact .inl ⟨rfl, Proc.bind_of_ok (h.passes rfl w)⟩
  | false => exact .inr ⟨rfl, ((h.rejects rfl).bind (f := f)).run w⟩

/-- The horizon is the checks before the gate, the gate, and the checks after it. -/
theorem refusalHorizon_apply (a : ExecuteArgs) (authority : String) (parameters : PyDict)
    (w : World) : refusalHorizon rt a authority parameters w =
      ((checkTier rt w.kernel a authority parameters >>= fun _ =>
          checkDeclared rt a authority >>= fun _ =>
          checkAuthorityModel rt w.kernel a authority) >>= fun _ =>
        evaluateGate rt a authority parameters >>= fun _ =>
        (checkCapability rt a authority parameters >>= fun _ =>
          checkLocality rt a authority parameters) >>= fun _ =>
        resolveIntent rt a) w := by
  simp only [Proc.bind_assoc]
  rfl

/-- How the refusal horizon ends. -/
theorem refusalHorizon_cases (a : ExecuteArgs) (authority : String) (parameters : PyDict)
    (w : World) :
    (staticOk rt w.kernel a parameters = false ∧
      ∃ e w', refusalHorizon rt a authority parameters w = (.error e, w') ∧ Rejected rt w w') ∨
    (staticOk rt w.kernel a parameters = true ∧ (runGate a w).1 ≠ .ok true ∧
      ∃ e w', refusalHorizon rt a authority parameters w = (.error e, w') ∧
        Rejected rt (runGate a w).2 w') ∨
    (staticOk rt w.kernel a parameters = true ∧ (runGate a w).1 = .ok true ∧
      coverage (runGate a w).2 a = none ∧
      ∃ e w', refusalHorizon rt a authority parameters w = (.error e, w') ∧
        Rejected rt (runGate a w).2 w') ∨
    (staticOk rt w.kernel a parameters = true ∧ (runGate a w).1 = .ok true ∧
      ∃ ref, coverage (runGate a w).2 a = some ref ∧
        refusalHorizon rt a authority parameters w = (.ok ref, (runGate a w).2)) := by
  have hstatic : Guards rt (staticOk rt w.kernel a parameters)
      (checkTier rt w.kernel a authority parameters >>= fun _ =>
        checkDeclared rt a authority >>= fun _ => checkAuthorityModel rt w.kernel a authority) :=
    (guards_checkTier ..).and ((guards_checkDeclared ..).and (guards_checkAuthorityModel ..))
  have hpost := (@guards_checkCapability rt a authority parameters).and
    (guards_checkLocality a authority parameters)
  rw [refusalHorizon_apply]
  rcases hstatic.run _ w with ⟨hs, hrun⟩ | ⟨hs, e, w', hrun, hrejected⟩
  · rw [hrun]
    by_cases hgate : (runGate a w).1 = .ok true
    · rw [Proc.bind_of_ok (evaluateGate_of_true authority parameters (Prod.ext hgate rfl))]
      refine .inr (.inr ?_)
      unfold coverage
      rcases hpost.run _ (runGate a w).2 with ⟨hp, hrun⟩ | ⟨hp, e, w', hrun, hrejected⟩
      · rw [hrun, if_pos hp]
        rcases @resolveIntent_cases rt a (runGate a w).2 with
          ⟨ref, href, hrun⟩ | ⟨href, e, w', hrun, hrejected⟩
        · exact .inr ⟨hs, hgate, ref, href, hrun⟩
        · exact .inl ⟨hs, hgate, href, e, w', hrun, hrejected⟩
      · rw [hrun, if_neg (by rw [hp]; decide)]
        exact .inl ⟨hs, hgate, rfl, e, w', rfl, hrejected⟩
    · obtain ⟨e, w', hrun, hrejected⟩ := @evaluateGate_of_not_true rt a w authority
        parameters hgate
      exact .inr (.inl ⟨hs, hgate, e, w', Proc.bind_of_error hrun, hrejected⟩)
  · exact .inl ⟨hs, e, w', hrun, hrejected⟩

/-- The call passes everything before its admission: the authority and the parameters of its
    receipts, their intent reference and the world its gate leaves. -/
structure Passes (rt : Runtime) (a : ExecuteArgs) (w : World) (authority : String)
    (parameters : PyDict) (ref : String) (w₁ : World) : Prop where
  preflight : Kernel.preflight rt.toEnv w.kernel a = .ok (authority, parameters)
  static : staticOk rt w.kernel a parameters = true
  gate : runGate a w = (.ok true, w₁)
  coverage : Kernel.coverage w₁ a = some ref

variable {a : ExecuteArgs} {w w₁ : World} {authority ref : String} {parameters : PyDict}

/-- A call that passes goes on to its admission. -/
theorem Passes.execute_eq (h : Passes rt a w authority parameters ref w₁) :
    execute rt a w =
      admitted rt (governingModel w.kernel a.op) a authority parameters ref w₁ := by
  have hhorizon : refusalHorizon rt a authority parameters w = (.ok ref, w₁) := by
    have hworld : (runGate a w).2 = w₁ := congrArg Prod.snd h.gate
    have hadmitted : (runGate a w).1 = .ok true := congrArg Prod.fst h.gate
    rcases @refusalHorizon_cases rt a authority parameters w with
      ⟨hs, _⟩ | ⟨_, hg, _⟩ | ⟨_, _, hc, _⟩ | ⟨_, _, found, hc, hrun⟩
    · exact absurd (h.static.symm.trans hs) (by decide)
    · exact absurd hadmitted hg
    · rw [hworld, h.coverage] at hc
      exact nomatch hc
    · rw [hworld] at hc hrun
      rw [hrun, Option.some.inj (hc.symm.trans h.coverage)]
  unfold execute
  rw [Proc.bind_of_ok (Proc.get_apply _), h.preflight,
    Proc.bind_of_ok (Proc.lift_ok (authority, parameters) w)]
  exact Proc.bind_of_ok hhorizon

/-- A call that does not pass raises, after a rejection. -/
theorem execute_cases (rt : Runtime) (a : ExecuteArgs) (w : World) :
    (∃ authority parameters ref w₁, Passes rt a w authority parameters ref w₁) ∨
    (∃ e w', execute rt a w = (.error e, w') ∧
      (Rejected rt w w' ∨ Rejected rt (runGate a w).2 w')) := by
  unfold execute
  rw [Proc.bind_of_ok (Proc.get_apply _)]
  cases hpre : preflight rt.toEnv w.kernel a with
  | error e => exact .inr ⟨e, w, rfl, .inl (.refl w)⟩
  | ok x =>
    obtain ⟨authority, parameters⟩ := x
    rw [Proc.bind_of_ok (Proc.lift_ok (authority, parameters) w)]
    rcases @refusalHorizon_cases rt a authority parameters w with
      ⟨_, e, w', hrun, hrejected⟩ | ⟨_, _, e, w', hrun, hrejected⟩ |
      ⟨_, _, _, e, w', hrun, hrejected⟩ | ⟨hs, hg, ref, hc, _⟩
    · exact .inr ⟨e, w', Proc.bind_of_error hrun, .inl hrejected⟩
    · exact .inr ⟨e, w', Proc.bind_of_error hrun, .inr hrejected⟩
    · exact .inr ⟨e, w', Proc.bind_of_error hrun, .inr hrejected⟩
    · exact .inl ⟨authority, parameters, ref, _, hpre, hs, Prod.ext hg rfl, hc⟩

/-! ## Calls without an effect -/

/-- The arguments of the success receipt of a call without an effect or a warrant basis. -/
def plainArgs (k : Kernel) (a : ExecuteArgs) (authority : String) (parameters : PyDict)
    (ref : String) : WriteArgs :=
  successArgs k a
    { authority := authority
      parameters := parameters
      outcomeParams := outcomeParams k a parameters
      intentRef := ref
      admitRef := ""
      warrantId := "" }

section Plain

variable (am : Option AuthorityModel) {s : StoreState}

theorem admitted_of_not_admitted {e : Exc}
    (h : Store.write rt.toConfig rt.clock (admitArgs w.kernel a authority parameters) w.store =
      (.error e, s)) :
    admitted rt am a authority parameters ref w = (.error e, { w with store := s }) := by
  have hwrite : write rt (admitArgs w.kernel a authority parameters) w =
      (.error e, { w with store := s }) := by rw [write_apply, h]
  have hadmission : gateAdmission rt a authority parameters w = (.error e, { w with store := s }) := by
    unfold gateAdmission
    rw [Proc.bind_of_ok (Proc.get_apply _), Proc.bind_of_error hwrite]
  exact Proc.bind_of_error hadmission

/-- After its admission such a call writes its success receipt and is done. -/
theorem admitted_plain (heffect : a.effect = none) (hbasis : a.warrantBasis = .none)
    {receipt : Receipt}
    (h : Store.write rt.toConfig rt.clock (admitArgs w.kernel a authority parameters) w.store =
      (.ok receipt, s)) :
    admitted rt am a authority parameters ref w =
      ((Store.write rt.toConfig rt.clock (plainArgs w.kernel a authority parameters ref) s).1.map
          fun _ => PyVal.none,
        { w with store :=
          (Store.write rt.toConfig rt.clock (plainArgs w.kernel a authority parameters ref) s).2 }) := by
  have hwrite : write rt (admitArgs w.kernel a authority parameters) w =
      (.ok receipt, { w with store := s }) := by rw [write_apply, h]
  have hadmission : gateAdmission rt a authority parameters w =
      (.ok receipt.hR, { w with store := s }) := by
    unfold gateAdmission
    rw [Proc.bind_of_ok (Proc.get_apply _), Proc.bind_of_ok hwrite]
    rfl
  have hwarrant : materializeWarrant rt am a { w with store := s } =
      (.ok "", { w with store := s }) := by
    unfold materializeWarrant
    rw [hbasis]
    rfl
  unfold admitted
  rw [Proc.bind_of_ok hadmission, Proc.bind_of_ok hwarrant, Proc.bind_of_ok (Proc.get_apply _)]
  unfold outcome
  rw [heffect]
  show executeLegacy rt a _ { w with store := s } = _
  unfold executeLegacy
  rw [Proc.bind_of_ok (Proc.get_apply _), heffect]
  show (write rt (plainArgs w.kernel a authority parameters ref) >>= fun _ =>
    (pure .none : Proc World Exc PyVal)) { w with store := s } = _
  rw [Proc.bind_apply, write_apply]
  cases (Store.write rt.toConfig rt.clock (plainArgs w.kernel a authority parameters ref) s).1 <;> rfl

end Plain

end Kernel

end Ugk
