import Ugk.Native.CapabilitySufficiency
import Ugk.Spec.Horizon
import Ugk.Spec.Sample

/-!
# What the capability precondition enforces

`find_enforced_entry` returns the first entry of a scope and an op, and `execute` asks for the verdict
of that entry's class only.  A policy that enumerates further classes for the same scope and op does
not enforce them.

## Key results

- `executeUnder_default`: `execute` is the instance at the policy the package ships
- `enforceDecision_iff`: the decision is about the first entry
- `enforced_iff`: when an admission satisfies every entry that matches it
-/

namespace Ugk

namespace Capability

variable {policy : Policy} {jurisdiction op : String} {verdict : PyVal} {census : Option PyDict}
  {e first : EnforcedEntry}

/-- What the entry asks of a verdict: proven, by construction with a proof the entry names, or waived
    where the entry permits it. -/
def EnforcedEntry.Suffices (e : EnforcedEntry) (verdict : PyVal) : Prop :=
  verdict.isStr "PROVEN" = true ∨
    (verdict.isStr "BY-CONSTRUCTION" = true ∧ e.namedProof.isSome = true) ∨
    (verdict.isStr "WAIVED" = true ∧ e.waiverPermits = true)

/-- The census has a sufficient verdict of the entry's class. -/
def EnforcedEntry.Satisfied (e : EnforcedEntry) (census : Option PyDict) : Prop :=
  e.Suffices (verdictOf census e.capabilityClass)

theorem isStr_eq {s t : String} (hs : verdict.isStr s = true) (ht : verdict.isStr t = true) :
    s = t := by
  cases verdict <;> simp_all [PyVal.isStr]

theorem isStr_of_isNone {s : String} (h : verdict.isNone = true) : verdict.isStr s = false := by
  cases verdict <;> simp_all [PyVal.isStr, PyVal.isNone]

/-- The disposition that lets an entry pass. -/
theorem classify_iff (e : EnforcedEntry) (verdict : PyVal) : e.Suffices verdict ↔
    (classify verdict (some e)).1 = .sufficient ∨
      (classify verdict (some e)).1 = .byConstructionAdmitted ∨
      ((classify verdict (some e)).1 = .waiverDisposition ∧ e.waiverPermits = true) := by
  unfold EnforcedEntry.Suffices classify
  by_cases hproven : verdict.isStr "PROVEN" = true
  · simp [hproven]
  · by_cases hwaived : verdict.isStr "WAIVED" = true
    · have hconstruction : ¬ verdict.isStr "BY-CONSTRUCTION" = true := fun h =>
        absurd (isStr_eq hwaived h) (by decide)
      simp [hproven, hwaived, hconstruction]
    · by_cases hconstruction : verdict.isStr "BY-CONSTRUCTION" = true
      · cases hproof : e.namedProof with
        | none => simp [hproven, hwaived, hconstruction, hproof]
        | some proof => simp [hproven, hwaived, hconstruction, hproof]
      · simp [hproven, hwaived, hconstruction]

/-- The decision of an enumerated scope is about its first entry. -/
theorem enforceDecision_iff : (enforceDecision policy jurisdiction op verdict).1 = false ↔
    ∀ first, findEnforcedEntry policy jurisdiction op = some first → first.Suffices verdict := by
  unfold enforceDecision
  cases hfind : findEnforcedEntry policy jurisdiction op with
  | none => simp
  | some entry =>
    dsimp only
    have hone : (∀ first, some entry = some first → first.Suffices verdict) ↔
        entry.Suffices verdict := by
      constructor
      · intro h
        exact h entry rfl
      · rintro h first ⟨⟩
        exact h
    rw [hone]
    by_cases hnone : verdict.isNone = true
    · rw [if_pos hnone]
      unfold EnforcedEntry.Suffices
      simp [isStr_of_isNone hnone]
    · rw [if_neg hnone, classify_iff]
      cases (classify verdict (some entry)).1 with
      | sufficient => simp
      | failClosed => simp
      | waiverDisposition => cases entry.waiverPermits <;> simp
      | byConstructionAdmitted => simp
      | byConstructionUnbacked => simp

/-- A refusal has the one cause. -/
theorem enforceDecision_cause (h : (enforceDecision policy jurisdiction op verdict).1 = true) :
    enforceDecision policy jurisdiction op verdict = (true, refusalCause) := by
  unfold enforceDecision at h ⊢
  split at h
  · exact nomatch h
  · split at h
    · rename_i hnone
      rw [if_pos hnone]
    · rename_i hnone
      rw [if_neg hnone]
      split at h
      · exact nomatch h
      · exact nomatch h
      · split at h
        · exact nomatch h
        · rename_i hpermits
          exact if_neg hpermits
      · rfl

end Capability

namespace Kernel

open Capability

variable {rt : Runtime} {policy : Capability.Policy} {a : ExecuteArgs} {w : World}
  {authority : String} {parameters : PyDict}

/-! ## The instance of the package -/

/-- The entry of the shipped policy for a scope and an op. -/
theorem findEnforcedEntry_default (jurisdiction op : String) :
    Capability.findEnforcedEntry capabilitySufficiencyPolicy jurisdiction op =
      if findEnforcedEntry jurisdiction op then
        some { jurisdiction := jurisdiction, op := op, capabilityClass := capabilityClass }
      else none := by
  unfold Capability.findEnforcedEntry capabilitySufficiencyPolicy findEnforcedEntry
  by_cases hscope : jurisdiction = "external-consequential"
  · subst hscope
    by_cases hset : op = "authority_model_set"
    · subst hset
      rfl
    by_cases hallocate : op = "namespace_allocate"
    · subst hallocate
      rfl
    by_cases hdelegate : op = "namespace_delegate"
    · subst hdelegate
      rfl
    by_cases hrevoke : op = "namespace_revoke"
    · subst hrevoke
      rfl
    simp [EnforcedEntry.covers, Ne.symm hset, Ne.symm hallocate, Ne.symm hdelegate,
      Ne.symm hrevoke, hset, hallocate, hdelegate, hrevoke]
  · simp [EnforcedEntry.covers, Ne.symm hscope, hscope]

/-- The enumerated ops are no kernel ops. -/
theorem not_kernelOp_of_enforced {jurisdiction op : String}
    (h : findEnforcedEntry jurisdiction op = true) : op ∉ kernelOps := by
  unfold findEnforcedEntry at h
  have hmem := (of_decide_eq_true h).2
  have hall : ∀ op ∈ ["authority_model_set", "namespace_allocate", "namespace_delegate",
      "namespace_revoke"], op ∉ kernelOps := by decide
  exact hall op hmem

/-- Step 4a at the policy the package ships. -/
theorem checkSufficiency_default (rt : Runtime) (a : ExecuteArgs) (authority : String)
    (parameters : PyDict) :
    checkSufficiency rt capabilitySufficiencyPolicy a authority parameters =
      checkCapability rt a authority parameters := by
  unfold checkSufficiency checkCapability
  rw [findEnforcedEntry_default]
  by_cases henforced : findEnforcedEntry a.jurisdiction a.op = true
  · rw [if_neg (not_kernelOp_of_enforced henforced), if_pos henforced]
    dsimp only
    -- the entry names no proof and permits no waiver, so only PROVEN passes
    have hpasses : (enforceDecision capabilitySufficiencyPolicy a.jurisdiction a.op
        (verdictOf a.capabilityVerdicts capabilityClass)).1 = false ↔
        capabilityRefused a.capabilityVerdicts = false := by
      rw [enforceDecision_iff, findEnforcedEntry_default, if_pos henforced]
      simp [EnforcedEntry.Suffices, EnforcedEntry.namedProof, capabilityRefused, verdictOf]
    cases hrefused : capabilityRefused a.capabilityVerdicts with
    | false =>
      rw [if_neg (by rw [hpasses.mpr hrefused]; exact Bool.false_ne_true),
        if_neg (fun h => absurd h.2 Bool.false_ne_true)]
    | true =>
      have hdecision : (enforceDecision capabilitySufficiencyPolicy a.jurisdiction a.op
          (verdictOf a.capabilityVerdicts capabilityClass)).1 = true := by
        rw [← Bool.not_eq_false, hpasses, hrefused]
        exact Bool.noConfusion
      rw [if_pos hdecision, if_pos ⟨henforced, rfl⟩, enforceDecision_cause hdecision]
      rfl
  · have hpasses : ¬ (findEnforcedEntry a.jurisdiction a.op = true ∧
        capabilityRefused a.capabilityVerdicts = true) := fun h => henforced h.1
    rw [if_neg henforced, if_neg hpasses]
    split <;> rfl

/-- `execute` is the instance at the policy the package ships. -/
theorem executeUnder_default (rt : Runtime) (a : ExecuteArgs) :
    executeUnder rt capabilitySufficiencyPolicy a = execute rt a := by
  unfold executeUnder execute refusalHorizonUnder refusalHorizon
  simp only [checkSufficiency_default]

/-! ## The precondition -/

/-- Does the precondition let the call pass? -/
def sufficiencyOk (policy : Capability.Policy) (a : ExecuteArgs) : Bool :=
  a.op ∈ kernelOps || match Capability.findEnforcedEntry policy a.jurisdiction a.op with
    | none => true
    | some entry => !(enforceDecision policy a.jurisdiction a.op
        (verdictOf a.capabilityVerdicts entry.capabilityClass)).1

theorem guards_checkSufficiency (policy : Capability.Policy) (a : ExecuteArgs) (authority : String)
    (parameters : PyDict) :
    Guards rt (sufficiencyOk policy a) (checkSufficiency rt policy a authority parameters) := by
  unfold sufficiencyOk checkSufficiency
  by_cases hop : a.op ∈ kernelOps
  · rw [if_pos hop, decide_eq_true hop]
    exact guards_pass
  · rw [if_neg hop, decide_eq_false hop]
    cases Capability.findEnforcedEntry policy a.jurisdiction a.op with
    | none => exact guards_pass
    | some entry =>
      dsimp only
      cases hdecision : (enforceDecision policy a.jurisdiction a.op
          (verdictOf a.capabilityVerdicts entry.capabilityClass)).1 with
      | false => exact guards_pass
      | true =>
        refine guards_of_rejects (rejects_refuseWith _ _ ?_ _)
        exact (show Unmarked ["op", "parameters", "refusal_cause", "capability_class",
          "enforced_jurisdiction", "refusal_axis", "refusal_reason"] by decide)

/-! ## Admissions under a policy -/

/-- The call is admitted: it passes the refusal horizon and its gate_admit receipt is written. -/
def AdmittedUnder (rt : Runtime) (policy : Capability.Policy) (a : ExecuteArgs) (w : World) : Prop :=
  ∃ authority parameters ref w₁ receipt s,
    preflight rt.toEnv w.kernel a = .ok (authority, parameters) ∧
    refusalHorizonUnder rt policy a authority parameters w = (.ok ref, w₁) ∧
    Store.write rt.toConfig rt.clock (admitArgs w₁.kernel a authority parameters) w₁.store =
      (.ok receipt, s)

/-- A call that returns was admitted. -/
theorem admittedUnder_of_ok {result : PyVal} {w' : World}
    (h : executeUnder rt policy a w = (.ok result, w')) : AdmittedUnder rt policy a w := by
  unfold executeUnder at h
  rw [Proc.bind_of_ok (Proc.get_apply _)] at h
  obtain ⟨⟨authority, parameters⟩, w₀, hlift, h⟩ := Proc.of_bind_ok h
  rw [Proc.lift_apply] at hlift
  obtain ⟨hpreflight, rfl⟩ := Prod.mk.inj hlift
  obtain ⟨ref, w₁, hhorizon, h⟩ := Proc.of_bind_ok h
  unfold admitted at h
  obtain ⟨admitRef, w₂, hadmission, -⟩ := Proc.of_bind_ok h
  unfold gateAdmission at hadmission
  rw [Proc.bind_of_ok (Proc.get_apply _)] at hadmission
  obtain ⟨receipt, w₃, hwrite, -⟩ := Proc.of_bind_ok hadmission
  rw [write_apply] at hwrite
  have hreceipt : (Store.write rt.toConfig rt.clock
      (admitArgs w₁.kernel a authority parameters) w₁.store).1 = .ok receipt :=
    congrArg Prod.fst hwrite
  exact ⟨authority, parameters, ref, w₁, receipt, _, hpreflight, hhorizon, Prod.ext hreceipt rfl⟩

theorem sufficiencyOk_iff (hop : a.op ∉ kernelOps) : sufficiencyOk policy a = true ↔
    ∀ first, Capability.findEnforcedEntry policy a.jurisdiction a.op = some first →
      first.Satisfied a.capabilityVerdicts := by
  unfold sufficiencyOk
  rw [decide_eq_false hop, Bool.false_or]
  cases hfind : Capability.findEnforcedEntry policy a.jurisdiction a.op with
  | none => simp
  | some entry =>
    dsimp only
    rw [Bool.not_eq_true', enforceDecision_iff, hfind]
    constructor
    · rintro h first ⟨⟩
      exact h entry rfl
    · rintro h first ⟨⟩
      exact h entry rfl

/-- A call that passes the horizon passes the precondition. -/
theorem sufficiencyOk_of_horizon {ref : String} {w₁ : World}
    (h : refusalHorizonUnder rt policy a authority parameters w = (.ok ref, w₁)) :
    sufficiencyOk policy a = true := by
  unfold refusalHorizonUnder at h
  obtain ⟨_, _, -, h⟩ := Proc.of_bind_ok h
  obtain ⟨_, _, -, h⟩ := Proc.of_bind_ok h
  obtain ⟨_, _, -, h⟩ := Proc.of_bind_ok h
  obtain ⟨_, _, -, h⟩ := Proc.of_bind_ok h
  obtain ⟨_, w₂, -, h⟩ := Proc.of_bind_ok h
  obtain ⟨_, _, hcheck, -⟩ := Proc.of_bind_ok h
  by_contra hfails
  obtain ⟨e, w', hrejected, -⟩ := ((guards_checkSufficiency policy a authority parameters).rejects
    (Bool.not_eq_true _ ▸ hfails)).run w₂
  rw [hrejected] at hcheck
  exact nomatch hcheck

/-- Is the call about this scope, op and census? -/
def Asks (jurisdiction op : String) (census : Option PyDict) (a : ExecuteArgs) : Prop :=
  a.jurisdiction = jurisdiction ∧ a.op = op ∧ a.capabilityVerdicts = census

/-- A deployment that declares the op. -/
def declaring (op : String) : Runtime := { sampleRuntime with applicationOps := [op] }

/-- A call of an active kernel for the op in the scope, with nothing but its census. -/
def askingCall (jurisdiction op : String) (census : Option PyDict) : ExecuteArgs where
  op := op
  jurisdiction := jurisdiction
  capabilityVerdicts := census

/-- The gate_admit receipt of such a call is written. -/
theorem write_askingCall (jurisdiction op : String) (census : Option PyDict) :
    ∃ receipt s, Store.write (declaring op).toConfig (declaring op).clock
      (admitArgs { active := true } (askingCall jurisdiction op census) "system" [])
      (World.store { kernel := { active := true } }) = (.ok receipt, s) := by
  have hnames : PlainNames ["op", "parameters"] ∧
      ∀ name ∈ reservedNames, name ∉ ["op", "parameters"] := by decide
  have hwhole : Writable (declaring op).toEnv
      (strDict [("op", .str op), ("parameters", strDict [])]) := by
    have hempty : Writable (declaring op).toEnv (strDict []) :=
      writable_strDict (by decide) (fun _ h => nomatch h)
    exact writable_strDict hnames.1 (by simp [writable_str, hempty])
  have hacc : accepted (declaring op).toConfig
      (ensureDefaultEdgeFor (declaring op).toConfig
        (World.store { kernel := { active := true } }).built "system")
      (admitArgs { active := true } (askingCall jurisdiction op census) "system" []) = true :=
    accepted_strDict hwhole rfl rfl hnames.2 rfl rfl rfl rfl
      (isOk_path_of_no_edges rfl _ _)
  exact write_returns_iff.mpr ⟨hacc, fun _ h => absurd h List.not_mem_nil⟩

/-- A call that is admitted whenever the precondition lets it pass. -/
theorem exists_admitted (policy : Capability.Policy) {jurisdiction op : String}
    {census : Option PyDict} (hop : op ∉ kernelOps)
    (hfirst : ∀ first, Capability.findEnforcedEntry policy jurisdiction op = some first →
      first.Satisfied census) :
    ∃ rt a w, Asks jurisdiction op census a ∧ AdmittedUnder rt policy a w := by
  obtain ⟨receipt, s, hwrite⟩ := write_askingCall jurisdiction op census
  refine ⟨declaring op, askingCall jurisdiction op census, { kernel := { active := true } },
    ⟨rfl, rfl, rfl⟩, "system", [], "", { kernel := { active := true } }, receipt, s, rfl, ?_, hwrite⟩
  have htier : tierOk (declaring op) { active := true } (askingCall jurisdiction op census) [] =
      true := by
    simp [tierOk, askingCall, hop]
  have hdeclared : declared (declaring op).toConfig (askingCall jurisdiction op census).op =
      true := by
    simp [declared, declaring, askingCall]
  have hmodel : modelOk { active := true } (askingCall jurisdiction op census) = true := by
    simp [modelOk, governingModel]
  have hsufficient := (@sufficiencyOk_iff policy (askingCall jurisdiction op census) hop).mpr hfirst
  unfold refusalHorizonUnder
  rw [Proc.bind_of_ok (Proc.get_apply _),
    Proc.bind_of_ok ((guards_checkTier _ _ _ _).passes htier _),
    Proc.bind_of_ok ((guards_checkDeclared _ _).passes hdeclared _),
    Proc.bind_of_ok ((guards_checkAuthorityModel _ _ _).passes hmodel _),
    Proc.bind_of_ok (evaluateGate_of_true "system" [] rfl),
    Proc.bind_of_ok ((guards_checkSufficiency _ _ _ _).passes hsufficient _),
    Proc.bind_of_ok ((guards_checkLocality _ _ _).passes rfl _)]
  rfl

/-- Under which policies and censuses an admission of the op in the scope satisfies every entry that
    matches; and without such an entry the policy does not matter. -/
theorem enforced_iff (policy : Capability.Policy) (jurisdiction op : String)
    (census : Option PyDict) (hop : op ∉ kernelOps) :
    ((∀ rt a w, Asks jurisdiction op census a → AdmittedUnder rt policy a w →
        ∀ e ∈ policy.enforcedScopes, e.covers jurisdiction op = true → e.Satisfied census) ↔
      ∀ first, Capability.findEnforcedEntry policy jurisdiction op = some first →
        first.Satisfied census →
        ∀ e ∈ policy.enforcedScopes, e.covers jurisdiction op = true → e.Satisfied census) ∧
    ((∀ e ∈ policy.enforcedScopes, e.covers jurisdiction op = false) →
      ∀ rt a, a.jurisdiction = jurisdiction → a.op = op →
        executeUnder rt policy a = executeUnder rt {} a) := by
  refine ⟨⟨fun hall first hfind hfirst => ?_, fun hfirst rt a w hasks hadmitted => ?_⟩, ?_⟩
  · obtain ⟨rt, a, w, hasks, hadmitted⟩ := exists_admitted policy hop
      (fun first' hfind' => Option.some.inj (hfind.symm.trans hfind') ▸ hfirst)
    exact hall rt a w hasks hadmitted
  · obtain ⟨rfl, rfl, rfl⟩ := hasks
    obtain ⟨authority, parameters, ref, w₁, receipt, s, -, hhorizon, -⟩ := hadmitted
    have hpasses := (sufficiencyOk_iff hop).mp (sufficiencyOk_of_horizon hhorizon)
    intro e he hcovers
    -- an entry that matches is found, itself or an earlier one
    have hsome : (Capability.findEnforcedEntry policy a.jurisdiction a.op).isSome = true :=
      List.find?_isSome.mpr ⟨e, he, hcovers⟩
    obtain ⟨first, hfind⟩ := Option.isSome_iff_exists.mp hsome
    exact hfirst first hfind (hpasses first hfind) e he hcovers
  · rintro hnone rt a rfl rfl
    have hfind : Capability.findEnforcedEntry policy a.jurisdiction a.op = none :=
      List.find?_eq_none.mpr fun e he => by
        rw [hnone e he]
        exact Bool.false_ne_true
    have hcheck (authority : String) (parameters : PyDict) :
        checkSufficiency rt policy a authority parameters =
          checkSufficiency rt {} a authority parameters := by
      unfold checkSufficiency
      rw [hfind]
      rfl
    unfold executeUnder refusalHorizonUnder
    simp only [hcheck]

/-- Under the shipped policy an enumerated op is not admitted without evidence. -/
theorem not_admitted_without_verdicts :
    ¬ ∃ rt a w, Asks "external-consequential" "namespace_allocate" none a ∧
      AdmittedUnder rt capabilitySufficiencyPolicy a w := by
  rintro ⟨rt, a, w, hasks, hadmitted⟩
  have hone : ∀ first, Capability.findEnforcedEntry capabilitySufficiencyPolicy
      "external-consequential" "namespace_allocate" = some first → first.Satisfied none →
      ∀ e ∈ capabilitySufficiencyPolicy.enforcedScopes,
        e.covers "external-consequential" "namespace_allocate" = true → e.Satisfied none := by
    intro first hfind hfirst
    have hnone : ¬ first.Satisfied none := by
      obtain rfl := Option.some.inj ((findEnforcedEntry_default _ _).symm.trans hfind)
      rintro (h | ⟨h, -⟩ | ⟨h, -⟩)
      · exact nomatch h
      · exact nomatch h
      · exact nomatch h
    exact absurd hfirst hnone
  have hsatisfied := (enforced_iff capabilitySufficiencyPolicy "external-consequential"
    "namespace_allocate" none (by decide)).1.mpr hone rt a w hasks hadmitted
    ⟨"external-consequential", "namespace_allocate", "fail_closed_governance", none, false⟩
    (by decide) (by decide)
  rcases hsatisfied with h | ⟨h, -⟩ | ⟨h, -⟩
  · exact nomatch h
  · exact nomatch h
  · exact nomatch h

/-- Two classes for one op in one scope. -/
def twoClasses : Capability.Policy where
  enforcedScopes :=
    [{ jurisdiction := "session", op := "crp_evidence", capabilityClass := "kept" },
     { jurisdiction := "session", op := "crp_evidence", capabilityClass := "ignored" }]

/-- A census in which the second of them has failed. -/
def mixedCensus : Option PyDict :=
  some [(.str "kept", .str "PROVEN"), (.str "ignored", .str "FAIL")]

/-- The op is admitted on the first class, the second one having failed. -/
theorem second_class_ignored : ∃ rt a w, a.op ∉ kernelOps ∧
    Asks "session" "crp_evidence" mixedCensus a ∧
    AdmittedUnder rt twoClasses a w ∧
    ¬ ∀ e ∈ twoClasses.enforcedScopes, e.covers "session" "crp_evidence" = true →
      e.Satisfied a.capabilityVerdicts := by
  have hfirst : ∀ first, Capability.findEnforcedEntry twoClasses "session" "crp_evidence" =
      some first → first.Satisfied mixedCensus := by
    intro first hfind
    obtain rfl := Option.some.inj hfind
    exact .inl rfl
  obtain ⟨rt, a, w, hasks, hadmitted⟩ := exists_admitted twoClasses (by decide) hfirst
  refine ⟨rt, a, w, by rw [hasks.2.1]; decide, hasks, hadmitted, fun hall => ?_⟩
  have hsecond := hall ⟨"session", "crp_evidence", "ignored", none, false⟩ (by decide) (by decide)
  rw [hasks.2.2] at hsecond
  rcases hsecond with h | ⟨h, -⟩ | ⟨h, -⟩
  · exact nomatch h
  · exact nomatch h
  · exact nomatch h

end Kernel

end Ugk
