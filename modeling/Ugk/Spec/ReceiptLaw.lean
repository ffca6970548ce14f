import Ugk.Native.Deferral
import Ugk.Native.EffectTrail
import Ugk.Native.Will
import Ugk.Spec.Accrual
import Ugk.Spec.Compensation
import Ugk.Spec.LegendReads
import Ugk.Spec.TerminalOutcome

/-!
# What a receipt of the kernel stands on

The law of the ledger, receipt by receipt: what an earlier receipt has to say for one to be there.  A
receipt of an operation needs its admission, a phase of an effect the phase it follows, and a verified
reconciliation the warrant that was checked.  Callers can put columns among their parameters; what
depends on the columns is claimed where they do not.

## Key results

- `Accounted`, `Custody`, `Graded`: the parts of the law
- `allowed_own`, `allowed_outcome`, `allowed_phase`: which writes it allows
- `conforms_of_lawful`: the verifier of effect trails accepts what follows the law
-/

namespace Ugk

open Store

namespace Kernel

variable {rt : Runtime} {env : Env}

/-! ## Parameters -/

/-- The names of parameters that a write takes for columns. -/
def columnNames : List String :=
  Marker.all.map Marker.key ++ ["reconciliation_grade", "reconciliation_warrant_snapshot"]

/-- The parameters claim no column. -/
def Clean (v : PyVal) : Prop :=
  ∀ d, v = .dict d → ∀ name ∈ columnNames, PyKey.str name ∉ d.map Prod.fst

theorem clean_dict {d : PyDict} :
    Clean (.dict d) ↔ ∀ name ∈ columnNames, PyKey.str name ∉ d.map Prod.fst := by
  constructor
  · intro h
    exact h d rfl
  · rintro h _ ⟨⟩
    exact h

theorem clean_nil : Clean (.dict []) := clean_dict.mpr fun _ _ h => absurd h List.not_mem_nil

theorem Clean.noMarkers {v : PyVal} (h : Clean v) : NoMarkers v :=
  fun d hd m => h d hd m.key (List.mem_append_left _ (List.mem_map_of_mem (Marker.mem_all m)))

theorem clean_of_names {kvs : List (String × PyVal)}
    (h : ∀ name ∈ columnNames, name ∉ kvs.map Prod.fst) : Clean (strDict kvs) := by
  unfold strDict
  rw [clean_dict]
  intro name hname hmem
  rw [List.map_map] at hmem
  obtain ⟨kv, hkv, heq⟩ := List.mem_map.mp hmem
  exact h name hname (PyKey.str.inj heq ▸ List.mem_map_of_mem hkv)

theorem clean_set {d : PyDict} {k : String} {v : PyVal} (h : Clean (.dict d))
    (hk : k ∉ columnNames) : Clean (.dict (PyDict.set d (.str k) v)) := by
  rw [clean_dict] at h ⊢
  intro name hname hmem
  rcases PyDict.mem_keys_set hmem with heq | hmem
  · rw [PyKey.str.inj heq] at hname
    exact hk hname
  · exact h name hname hmem

theorem promoted_of_clean {v : PyVal} (h : Clean v) {name : String} (hname : name ∈ columnNames) :
    promoted v name = .none := by
  unfold promoted
  cases v with
  | dict d => exact PyDict.get_of_not_mem (clean_dict.mp h name hname)
  | _ => rfl

/-- No other key is printed as one of the names. -/
theorem key_of_columnText {key : PyKey} {name : String} (hname : name ∈ columnNames)
    (h : keyText true key = .ok name) : key = .str name := by
  have hwords : ∀ name ∈ columnNames, name.toList.all isNumChar = false ∧
      name ∉ ["null", "true", "false", "NaN", "Infinity", "-Infinity"] := by decide
  obtain ⟨hnumber, hword⟩ := hwords name hname
  have hnot {cs : List Char} (hcs : cs.all isNumChar = true) (heq : String.ofList cs = name) :
      False := by
    rw [← heq, String.toList_ofList, hcs] at hnumber
    exact Bool.noConfusion hnumber
  cases key with
  | none =>
    obtain rfl := Except.ok.inj h
    exact absurd (by simp) hword
  | bool b =>
    obtain rfl := Except.ok.inj h
    cases b <;> exact absurd (by simp) hword
  | int n => exact (hnot (Json.all_isNumChar_intText n) (Except.ok.inj h)).elim
  | float x =>
    cases x with
    | fin x =>
      have hall : x.text.all isNumChar = true := by
        have hwf := x.wf
        unfold isFloatLit at hwf
        rw [Bool.and_eq_true] at hwf
        exact hwf.1
      exact (hnot hall (Except.ok.inj h)).elim
    | nonFinite k =>
      obtain rfl := Except.ok.inj h
      cases k <;> exact absurd (by decide) hword
  | str s => rw [Except.ok.inj h]
  | other _ => cases h

/-- What is read back of parameters that claim no column claims none. -/
theorem clean_of_loads {v v' : PyVal} {pj : String} (h : Clean v) (hpj : paramsJson env v = .ok pj)
    (hq : loads env pj = .ok v') : Clean v' := by
  rintro q rfl name hname hmem
  obtain ⟨d, rfl⟩ := dict_of_loads hpj hq
  obtain ⟨key, hkey, htext⟩ := key_of_loads hpj hq hmem
  rw [key_of_columnText hname htext] at hkey
  exact clean_dict.mp h name hname hkey

/-- The parameters of a call that passes are the ones it was made with, or none. -/
theorem clean_preflight {k : Kernel} {a : ExecuteArgs} {authority : String} {parameters : PyDict}
    (h : preflight rt.toEnv k a = .ok (authority, parameters)) (hp : Clean a.parameters) :
    Clean (.dict parameters) := by
  rcases parameters_of_preflight h with rfl | hparams
  · exact clean_nil
  · exact hparams ▸ hp

theorem clean_outcomeParams {k : Kernel} {a : ExecuteArgs} {parameters : PyDict}
    (h : Clean (.dict parameters)) : Clean (.dict (outcomeParams k a parameters)) := by
  unfold outcomeParams
  dsimp only
  split
  · split
    · split
      · exact clean_set h (by decide)
      · exact h
    · refine clean_set ?_ (by decide)
      split
      · exact clean_set h (by decide)
      · exact h
  · split
    · exact clean_set h (by decide)
    · exact h

/-! ## Admissions -/

/-- The ops of the receipts the kernel writes on its own account. -/
def ownOps : List String :=
  ["gate_admit", "gate_refuse", "protocol_error", "session_open", "session_close"]

/-- The phases of receipts that end or offset what another receipt began. -/
def settlingPhases : List String :=
  ["commit", "abort", "compensate", "compensated", "compensation_failed"]

/-- An admission of the op under the authority. -/
structure Grants (op authority : String) (g : Receipt) : Prop where
  admission : g.op = "gate_admit"
  authority : g.authority = authority
  failed : g.failed = false
  outcome : g.terminalOutcome = .none
  parameters : ∃ d, g.parameters = .dict d ∧ d.lookup (.str "op") = some (.str op)

/-- The receipt is of an op that was declared and that an earlier receipt admits, under the same
    authority unless the receipt ends or offsets what another one began. -/
def Vouched (rt : Runtime) (pre : List Receipt) (r : Receipt) : Prop :=
  ∃ op authority, declared rt.toConfig op = true ∧ op ∉ kernelOps ∧ r.op = expand rt.toEnv op ∧
    (∃ g ∈ pre, Grants op authority g) ∧
    (r.authority = authority ∨ ∃ phase ∈ settlingPhases, effectParam r .phase = .str phase)

/-- A receipt is one of the kernel's own or commits an outcome, and then it is no phase of an effect,
    or it is vouched for. -/
def Accounted (rt : Runtime) (pre : List Receipt) (r : Receipt) : Prop :=
  (r.op ∈ ownOps ∨ r.terminalOutcome ≠ .none) ∧ effectParam r .phase = .none ∨ Vouched rt pre r

/-- What the trail readers see of the receipt are its columns. -/
structure Typed (r : Receipt) : Prop where
  version : 4 ≤ r.version
  root : r.hR ≠ ""
  column : ∀ m, effectParam r m = r.markerColumn m
  text : ∀ m, IsText (r.markerColumn m)

/-- The receipt is in this phase of an effect of this class. -/
structure InTrail (cls phase : String) (r : Receipt) : Prop where
  atomicity : r.effectAtomicity = .str cls
  phase : r.effectPhase = .str phase

/-- Which earlier receipt a phase of an effect follows: the PREPARE its admission, a COMMIT or an ABORT
    its PREPARE, a COMPENSATE the COMMIT it offsets, and the terminal of a compensation its COMPENSATE,
    all of one op and one class, with the references and the keys the later one names. -/
inductive Custody (env : Env) (pre : List Receipt) (r : Receipt) : Prop
  | outside (h : r.effectPhase = .none)
  | prepare {cls : String} (hcls : cls ∈ external) (hr : InTrail cls "prepare" r) {g : Receipt}
      (hg : g ∈ pre) {op authority : String} (hgrants : Grants op authority g)
      (hop : r.op = expand env op) (href : r.effectGateAdmitRef = .str g.hR)
  | close {cls phase : String} {failed : Bool} (hcls : cls ∈ external)
      (hphase : (phase, failed) ∈ [("commit", false), ("abort", true)]) (hr : InTrail cls phase r)
      (hfailed : r.failed = failed) {p : Receipt} (hp : p ∈ pre) (hprepare : InTrail cls "prepare" p)
      (hop : r.op = p.op) (hkey : r.effectIdempotencyKey = p.effectIdempotencyKey)
      (href : r.effectPrepareRef = .str p.hR)
  | offset (hr : InTrail "external_reversible" "compensate" r) {c : Receipt} (hc : c ∈ pre)
      (hcommit : InTrail "external_reversible" "commit" c) (hop : r.op = c.op)
      (hkey : r.effectIdempotencyKey = c.effectIdempotencyKey)
      (href : r.effectCompensateRef = c.effectPrepareRef)
  | settle {phase : String} {failed : Bool}
      (hphase : (phase, failed) ∈ [("compensated", false), ("compensation_failed", true)])
      (hr : InTrail "external_reversible" phase r) (hfailed : r.failed = failed)
      (herasure : claimsErasure r = false) {c : Receipt} (hc : c ∈ pre)
      (hcompensate : InTrail "external_reversible" "compensate" c) (hop : r.op = c.op)
      (href : r.effectCompensateRef = c.effectCompensateRef) {ref : String} (hne : ref ≠ "")
      (hnamed : r.effectCompensateRef = .str ref)
      (hkey : r.effectCompensationIdempotencyKey = c.effectCompensationIdempotencyKey)

/-! ## Continuations and grades -/

/-- The parameters that the receipt captured for later claim no column. -/
def Captured (env : Env) (r : Receipt) : Prop :=
  ∀ v, loadsColumn env (.dict []) r.continuationParameters = .ok v → Clean v

/-- The warrant stands behind the receipt: its body, in the snapshot, has the hash that the receipt
    names, and it was issued for the frame of the receipt. -/
structure Warranted (env : Env) (r : Receipt) (warrant : DecisionWarrant) : Prop where
  hash : warrant.verifyHash env = .ok true
  named : r.warrantId = warrant.warrantHash
  snapshot : ∃ body, bindingCanonicalJson env warrant.bodyDict = .ok body ∧
    r.reconciliationWarrantSnapshot = .str (String.ofList body)
  law : r.lawHash = warrant.lawHash
  legend : r.legendHash = warrant.legendHash
  basis : warrant.constitutionalBasis ≠ []

/-- A verified receipt of an operation has its warrant. -/
def Graded (env : Env) (r : Receipt) : Prop :=
  r.op ∉ ownOps → r.reconciliationGrade = .str "verified" → ∃ warrant, Warranted env r warrant

/-! ## The law -/

/-- What the columns of a receipt stand on. -/
structure Sound (env : Env) (pre : List Receipt) (r : Receipt) : Prop where
  typed : Typed r
  custody : Custody env pre r
  captured : Captured env r
  graded : Graded env r

/-- The law of the ledger. -/
structure Lawful (rt : Runtime) (clean : Prop) (pre : List Receipt) (r : Receipt) : Prop where
  accounted : Accounted rt pre r
  sound : clean → Sound rt.toEnv pre r

/-- A receipt in some phase of an effect is vouched for. -/
theorem vouched_of_phase {clean : Prop} {rs : List Receipt} (h : Stepwise (Lawful rt clean) rs)
    {r : Receipt} (hr : r ∈ rs) (hphase : effectParam r .phase ≠ .none) :
    ∃ op authority, declared rt.toConfig op = true ∧ op ∉ kernelOps ∧ r.op = expand rt.toEnv op ∧
      ∃ g ∈ rs, Grants op authority g := by
  obtain ⟨pre, post, rfl⟩ := List.append_of_mem hr
  rcases (h pre r post rfl).accounted with
    ⟨-, hnone⟩ | ⟨op, authority, hdecl, hkernel, hop, ⟨g, hg, hgrant⟩, -⟩
  · exact absurd hnone hphase
  · exact ⟨op, authority, hdecl, hkernel, hop, g, List.mem_append_left _ hg, hgrant⟩

theorem sound_of_mem {clean : Prop} {rs : List Receipt} (h : Stepwise (Lawful rt clean) rs)
    {r : Receipt} (hr : r ∈ rs) (hclean : clean) : ∃ pre, Sound rt.toEnv pre r := by
  obtain ⟨pre, post, rfl⟩ := List.append_of_mem hr
  exact ⟨pre, (h pre r post rfl).sound hclean⟩

/-! ## The verifier of effect trails -/

theorem columnIn_iff {names : List String} {v : PyVal} :
    columnIn names v = true ↔ ∃ name ∈ names, v = .str name := by
  unfold columnIn
  rw [List.any_eq_true]
  exact exists_congr fun name => and_congr_right fun _ => isStr_iff

/-- An anchor among the receipts is found. -/
theorem anchored_of_mem {anchors : List (PyVal × PyVal)} {ref : String} {key : PyVal} (hne : ref ≠ "")
    (htext : IsText key) (h : (.str ref, key) ∈ anchors) : anchored env anchors (.str ref) key = true := by
  unfold anchored
  rw [Bool.and_eq_true, List.any_eq_true]
  refine ⟨bne_iff_ne.mpr hne, _, h, ?_⟩
  rw [Bool.and_eq_true]
  exact ⟨pyEq_self_of_isText trivial, pyEq_self_of_isText htext⟩

theorem mem_prepareAnchors {rs : List Receipt} {cls : String} {p : Receipt} (hp : p ∈ rs)
    (htyped : Typed p) (hcls : cls ∈ external) (h : InTrail cls "prepare" p) :
    (.str p.hR, p.effectIdempotencyKey) ∈ prepareAnchors rs := by
  refine List.mem_map.mpr ⟨p, List.mem_filter.mpr ⟨hp, ?_⟩, rfl⟩
  rw [Bool.and_eq_true, Bool.and_eq_true]
  exact ⟨⟨decide_eq_true htyped.version, columnIn_iff.mpr ⟨cls, hcls, h.atomicity⟩⟩,
    isStr_iff.mpr h.phase⟩

theorem mem_compensateAnchors {rs : List Receipt} {c : Receipt} (hc : c ∈ rs) (htyped : Typed c)
    (h : InTrail "external_reversible" "compensate" c) :
    (c.effectCompensateRef, c.effectCompensationIdempotencyKey) ∈ compensateAnchors rs := by
  refine List.mem_map.mpr ⟨c, List.mem_filter.mpr ⟨hc, ?_⟩, rfl⟩
  rw [Bool.and_eq_true, Bool.and_eq_true]
  exact ⟨⟨decide_eq_true htyped.version, isStr_iff.mpr h.atomicity⟩, isStr_iff.mpr h.phase⟩

/-- What a receipt of an external class in a phase may violate. -/
theorem receiptViolations_of_phase {prepares compensates : List (PyVal × PyVal)} {cls phase : String}
    {r : Receipt} (hcls : cls ∈ external) (hphase : phase ∈ twoPhasePhases) (hr : InTrail cls phase r)
    (hcomp : cls = "external_irreversible" → phase ∉ compPhases)
    (hforward : phase ∈ forwardTerminals → forwardViolations env prepares phase r = [])
    (hsettle : phase ∈ compTerminals → compensationViolations env compensates phase r = []) :
    receiptViolations env prepares compensates r = [] := by
  unfold receiptViolations
  split
  · rfl
  · rw [hr.phase]
    dsimp only
    rw [if_neg (not_not_intro hphase), if_neg, if_neg]
    · by_cases hf : phase ∈ forwardTerminals
      · rw [if_pos hf, hforward hf]
        by_cases hs : phase ∈ compTerminals
        · rw [if_pos hs, hsettle hs]
          rfl
        · rw [if_neg hs]
          rfl
      · rw [if_neg hf]
        by_cases hs : phase ∈ compTerminals
        · rw [if_pos hs, hsettle hs]
          rfl
        · rw [if_neg hs]
          rfl
    · rintro ⟨hirreversible, hmem⟩
      rw [hr.atomicity, isStr_iff] at hirreversible
      exact hcomp (PyVal.str.inj hirreversible) hmem
    · rw [columnIn_iff.mpr ⟨cls, hcls, hr.atomicity⟩]
      exact Bool.false_ne_true

/-- A receipt whose custody is among the receipts violates nothing. -/
theorem receiptViolations_of_custody {rs pre : List Receipt} {r : Receipt} (hpre : pre ⊆ rs)
    (htyped : ∀ r ∈ rs, Typed r) (hr : Typed r) (h : Custody env pre r) :
    receiptViolations env (prepareAnchors rs) (compensateAnchors rs) r = [] := by
  cases h with
  | outside hnone =>
    unfold receiptViolations
    split
    · rfl
    · rw [hnone]
  | prepare hcls hin =>
    exact receiptViolations_of_phase hcls (by decide) hin (fun _ => by decide)
      (fun h => absurd h (by decide)) fun h => absurd h (by decide)
  | @close cls phase failed hcls hphase hin hfailed p hp hprepare _ hkey href =>
    have hanchored : anchored env (prepareAnchors rs) r.effectPrepareRef r.effectIdempotencyKey =
        true := by
      rw [href, hkey]
      exact anchored_of_mem (htyped p (hpre hp)).root ((htyped p (hpre hp)).text .idempotencyKey)
        (mem_prepareAnchors (hpre hp) (htyped p (hpre hp)) hcls hprepare)
    rcases List.mem_cons.mp hphase with heq | hphase
    · obtain ⟨rfl, rfl⟩ := Prod.mk.inj heq
      refine receiptViolations_of_phase hcls (by decide) hin (fun _ => by decide) (fun _ => ?_)
        fun h => absurd h (by decide)
      unfold forwardViolations
      rw [hanchored, hfailed]
      rfl
    · obtain ⟨rfl, rfl⟩ := Prod.mk.inj (List.mem_singleton.mp hphase)
      refine receiptViolations_of_phase hcls (by decide) hin (fun _ => by decide) (fun _ => ?_)
        fun h => absurd h (by decide)
      unfold forwardViolations
      rw [hanchored, hfailed]
      rfl
  | offset hin =>
    exact receiptViolations_of_phase (by decide) (by decide) hin (fun h => absurd h (by decide))
      (fun h => absurd h (by decide)) fun h => absurd h (by decide)
  | @settle phase failed hphase hin hfailed herasure c hc hcompensate _ href ref hne hnamed hkey =>
    have hanchored : anchored env (compensateAnchors rs) r.effectCompensateRef
        r.effectCompensationIdempotencyKey = true := by
      have hmem := mem_compensateAnchors (hpre hc) (htyped c (hpre hc)) hcompensate
      rw [← href, ← hkey, hnamed] at hmem
      rw [hnamed]
      exact anchored_of_mem hne (hr.text .compensationIdempotencyKey) hmem
    rcases List.mem_cons.mp hphase with heq | hphase
    · obtain ⟨rfl, rfl⟩ := Prod.mk.inj heq
      refine receiptViolations_of_phase (by decide) (by decide) hin (fun h => absurd h (by decide))
        (fun h => absurd h (by decide)) fun _ => ?_
      unfold compensationViolations
      rw [hanchored, hfailed, herasure]
      rfl
    · obtain ⟨rfl, rfl⟩ := Prod.mk.inj (List.mem_singleton.mp hphase)
      refine receiptViolations_of_phase (by decide) (by decide) hin (fun h => absurd h (by decide))
        (fun h => absurd h (by decide)) fun _ => ?_
      unfold compensationViolations
      rw [hanchored, hfailed, herasure]
      rfl

/-- The verifier finds nothing in what follows the law. -/
theorem conforms_of_lawful {rs : List Receipt} (h : Stepwise (Lawful rt True) rs) :
    verifyEffectTrailIntegrityTyped rt.toEnv rs = [] := by
  have htyped (r : Receipt) (hr : r ∈ rs) : Typed r := by
    obtain ⟨pre, hsound⟩ := sound_of_mem h hr trivial
    exact hsound.typed
  have hviolations : rs.flatMap (receiptViolations rt.toEnv (prepareAnchors rs)
      (compensateAnchors rs)) = [] := by
    rw [List.flatMap_eq_nil_iff]
    intro r hr
    obtain ⟨pre, post, hsplit⟩ := List.append_of_mem hr
    refine @receiptViolations_of_custody rt.toEnv rs pre r ?_ htyped (htyped r hr)
      ((h pre r post hsplit).sound trivial).custody
    rw [hsplit]
    exact List.subset_append_left _ _
  unfold verifyEffectTrailIntegrityTyped
  rw [hviolations]
  rfl

/-! ## Ops as they are read -/

theorem expand_expand (env : Env) (v : String) : expand env (expand env v) = expand env v := by
  by_cases h : IsCode env v
  · obtain ⟨cid, entry, hint, hentry⟩ := h
    rw [expand_of_code hint hentry, expand_eq_self_iff]
    rintro ⟨cid', entry', hint', -⟩
    rw [pyInt_render hentry] at hint'
    cases hint'
  · rw [expand_eq_self_iff.mpr h, expand_eq_self_iff.mpr h]

theorem expand_ownOps (env : Env) : ∀ op ∈ ownOps, expand env op = op := by
  simp only [ownOps, List.forall_mem_cons, List.not_mem_nil, false_implies, implies_true, and_true]
  exact ⟨rfl, rfl, rfl, rfl, rfl⟩

/-! ## Rows -/

section Rows

variable {cfg : Config} {a : WriteArgs} {row : Row} {read : Receipt} {pre : List Receipt}

theorem op_of_readsAs (h : ReadsAs cfg a row read) (hcompress : a.compress = false) :
    read.op = expand cfg.toEnv a.op := by
  rw [h.op, hcompress]
  rfl

/-- What a receipt says that depends on the plan of its write in no way. -/
theorem frame_of_readsAs (h : ReadsAs cfg a row read) : read.hR ≠ "" ∧ read.lawHash = a.lawHash ∧
    read.legendHash = a.legendHash ∧ read.warrantId = a.warrantId := by
  obtain ⟨id, tip, time, c, r, sf, hBody, trace, q, -, -, -, rfl⟩ := h.stored
  exact ⟨c.hR.nonempty, rfl, rfl, rfl⟩

/-- The two columns of a reconciliation. -/
theorem grade_of_readsAs (h : ReadsAs cfg a row read) :
    read.reconciliationGrade = .ofOpt (columnText cfg.toEnv
      (typedOr a.reconciliationGrade (promoted a.parameters "reconciliation_grade"))) ∧
    read.reconciliationWarrantSnapshot = .ofOpt (columnText cfg.toEnv
      (typedOr a.reconciliationWarrantSnapshot
        (promoted a.parameters "reconciliation_warrant_snapshot"))) := by
  obtain ⟨id, tip, time, c, r, sf, hBody, trace, q, hr, -, -, rfl⟩ := h.stored
  obtain ⟨-, -, -, -, hgrade, hsnapshot⟩ := resolveWrite_ok hr
  rw [← hgrade, ← hsnapshot]
  exact ⟨rfl, rfl⟩

theorem typed_of_asked (h : ReadsAs cfg a row read) (hasked : Asked a row read) : Typed read := by
  refine ⟨hasked.version, (frame_of_readsAs h).1, fun m => ?_, fun m => ?_⟩
  · rw [hasked.param m, hasked.column m]
  · rw [hasked.column m]
    exact isText_asked a m

/-- What a write captures for later claims no column. -/
def Captures (a : WriteArgs) : Prop :=
  ∀ d, a.continuation = some (.dict d) → Clean (PyDict.get d "parameters")

theorem captures_of_none (h : a.continuation = none) : Captures a := by
  intro d hd
  rw [h] at hd
  cases hd

/-- The parameters of a record that is stored are the JSON text of the ones it was made with. -/
theorem parameters_of_validated {env : Env} {record : PyVal} {cols : ContinuationColumns}
    (h : validateContinuation env record = .ok cols) :
    ∃ d, record = .dict d ∧ canonEb env (PyDict.get d "parameters") = .ok cols.parameters := by
  obtain ⟨-, d, rfl, -⟩ := validateContinuation_ok h
  refine ⟨d, rfl, ?_⟩
  obtain ⟨⟨⟩, -, h⟩ := Except.bind_eq_ok h
  split at h
  · split at h
    · cases h
    · obtain ⟨_, -, h⟩ := Except.bind_eq_ok h
      obtain ⟨_, -, h⟩ := Except.bind_eq_ok h
      obtain ⟨_, -, h⟩ := Except.bind_eq_ok h
      obtain ⟨_, hparameters, h⟩ := Except.bind_eq_ok h
      obtain rfl := Except.ok.inj h
      exact hparameters
  · cases h

/-- What is loaded from the JSON text of clean parameters is clean. -/
theorem clean_of_column {env : Env} {v p v' : PyVal} (hv : Clean v) (h : canonEb env v = .ok p)
    (hload : loadsColumn env (.dict []) (.ofOpt (columnText env p)) = .ok v') : Clean v' := by
  unfold canonEb at h
  split at h
  · obtain rfl := Except.ok.inj h
    obtain rfl := Except.ok.inj hload
    exact clean_nil
  · obtain ⟨pj, hpj, rfl⟩ := Except.map_eq_ok h
    replace hload : (if pj = "" then Except.ok (.dict []) else loads env pj) = .ok v' := hload
    split at hload
    · obtain rfl := Except.ok.inj hload
      exact clean_nil
    · exact clean_of_loads hv hpj hload

theorem captured_of_readsAs (h : ReadsAs cfg a row read) (hc : Captures a) :
    Captured cfg.toEnv read := by
  intro v hv
  obtain ⟨id, tip, time, c, r, sf, hBody, trace, q, -, hs, -, rfl⟩ := h.stored
  obtain ⟨outcome, -, hs⟩ := Except.bind_eq_ok hs
  obtain ⟨capability, -, hs⟩ := Except.bind_eq_ok hs
  obtain ⟨continuation, hcontinuation, hs⟩ := Except.bind_eq_ok hs
  obtain ⟨bridge, -, hs⟩ := Except.bind_eq_ok hs
  obtain rfl := Except.ok.inj hs
  replace hv : loadsColumn cfg.toEnv (.dict [])
      (.ofOpt (columnText cfg.toEnv continuation.parameters)) = .ok v := hv
  unfold continuationSurface at hcontinuation
  cases hrecord : a.continuation with
  | none =>
    rw [hrecord] at hcontinuation
    obtain rfl := Except.ok.inj hcontinuation
    obtain rfl := Except.ok.inj hv
    exact clean_nil
  | some record =>
    rw [hrecord] at hcontinuation
    obtain ⟨d, rfl, hparameters⟩ := parameters_of_validated hcontinuation
    exact clean_of_column (hc d hrecord) hparameters hv

/-- No grade without a claim. -/
theorem graded_of_clean (h : ReadsAs cfg a row read) (hgrade : a.reconciliationGrade = none)
    (hp : Clean a.parameters) : Graded cfg.toEnv read := by
  intro _ hverified
  rw [(grade_of_readsAs h).1, hgrade] at hverified
  have hnone : promoted a.parameters "reconciliation_grade" = .none :=
    promoted_of_clean hp (by decide)
  rw [show typedOr none (promoted a.parameters "reconciliation_grade") = .none from hnone] at hverified
  cases hverified

/-- What the kernel writes on its own account, without a phase. -/
structure OwnArgs (a : WriteArgs) : Prop where
  own : a.op ∈ ownOps ∨ a.commitsOutcome = true
  compress : a.compress = false
  unmarked : NoMarkers a.parameters
  phase : asked a .phase = .none

theorem accounted_own (h : OwnArgs a) (hread : ReadsAs rt.toConfig a row read) :
    Accounted rt pre read := by
  refine .inl ⟨?_, ?_⟩
  · rcases h.own with hop | hcommits
    · left
      rw [op_of_readsAs hread h.compress, expand_ownOps rt.toEnv _ hop]
      exact hop
    · right
      rw [(committed_of_readsAs hread).outcome, if_pos hcommits]
      exact fun heq => PyVal.noConfusion heq
  · rw [(asked_of_readsAs hread h.unmarked).param]
    exact h.phase

/-- A write that claims no phase and no grade of an operation, and captures nothing that does. -/
structure Plain (a : WriteArgs) : Prop where
  unmarked : NoMarkers a.parameters
  phase : asked a .phase = .none
  captures : Captures a
  ungraded : a.op ∈ ownOps ∨ a.reconciliationGrade = none ∧ Clean a.parameters

theorem sound_plain (h : Plain a) (hcompress : a.compress = false)
    (hread : ReadsAs cfg a row read) : Sound cfg.toEnv pre read := by
  have hasked := asked_of_readsAs hread h.unmarked
  refine ⟨typed_of_asked hread hasked, .outside ((hasked.column .phase).trans h.phase),
    captured_of_readsAs hread h.captures, ?_⟩
  rcases h.ungraded with hown | ⟨hgrade, hclean⟩
  · intro hop
    rw [op_of_readsAs hread hcompress, expand_ownOps cfg.toEnv _ hown] at hop
    exact absurd hown hop
  · exact graded_of_clean hread hgrade hclean

/-- What the kernel writes for an op under an admission. -/
structure OutcomeArgs (rt : Runtime) (op authority : String) (a : WriteArgs) : Prop where
  op : expand rt.toEnv a.op = expand rt.toEnv op
  compress : a.compress = false
  authority : a.authority = authority ∨
    NoMarkers a.parameters ∧ ∃ phase ∈ settlingPhases, asked a .phase = .str phase

theorem accounted_outcome {op authority : String} (hdecl : declared rt.toConfig op = true)
    (hkernel : op ∉ kernelOps) (hgrant : ∃ g ∈ pre, Grants op authority g)
    (h : OutcomeArgs rt op authority a) (hread : ReadsAs rt.toConfig a row read) :
    Accounted rt pre read := by
  refine .inr ⟨op, authority, hdecl, hkernel, ?_, hgrant, ?_⟩
  · rw [op_of_readsAs hread h.compress]
    exact h.op
  · rcases h.authority with hauth | ⟨hmarkers, phase, hphase, hasked⟩
    · exact .inl (hread.authority.trans hauth)
    · refine .inr ⟨phase, hphase, ?_⟩
      rw [(asked_of_readsAs hread hmarkers).param]
      exact hasked

/-- Parameters without markers are stored as they are, beside effect columns too. -/
theorem resolved_unmarked {env : Env} {kvs : List (String × PyVal)} {r : Resolved}
    (hp : a.parameters = strDict kvs) (hunmarked : Unmarked (kvs.map Prod.fst))
    (hreserved : ∀ name ∈ reservedNames, name ∉ kvs.map Prod.fst)
    (hr : resolveWrite env a = .ok r) : r.parameters = strDict kvs := by
  cases hcolumns : a.effectColumns with
  | none => exact resolved_strDict hreserved hp hcolumns hr
  | some columns =>
    obtain ⟨p, hsurface, hparams, -⟩ := resolveWrite_ok hr
    have hstrip : stripMarkers (kvs.map fun kv => (.str kv.1, kv.2)) =
        kvs.map fun kv => (.str kv.1, kv.2) := by
      refine List.filter_eq_self.mpr fun kv hkv => ?_
      rw [Bool.not_eq_true', isMarkerKey, List.any_eq_false]
      intro m hm heq
      obtain ⟨kv', hkv', rfl⟩ := List.mem_map.mp hkv
      have hname : kv'.1 = m.key := PyKey.str.inj (beq_iff_eq.mp heq)
      exact hunmarked m.key (List.mem_map_of_mem hm) (hname ▸ List.mem_map_of_mem hkv')
    have hsame : p = strDict kvs := by
      rw [hp, hcolumns] at hsurface
      unfold resolveEffectSurface at hsurface
      dsimp only at hsurface
      split at hsurface
      · exact (Prod.mk.inj (Except.ok.inj hsurface)).2.symm
      · split_ifs at hsurface
        rw [← (Prod.mk.inj (Except.ok.inj hsurface)).2]
        exact congrArg PyVal.dict hstrip
    rw [hparams, hsame, stripReconciliation_strDict hreserved]

/-- The receipt of an admission. -/
theorem grants_of_readsAs {k : Kernel} {e : ExecuteArgs} {authority : String} {parameters : PyDict}
    (h : ReadsAs rt.toConfig (admitArgs k e authority parameters) row read) :
    Grants e.op authority read := by
  have hop : read.op = "gate_admit" := (op_of_readsAs h rfl).trans
    (expand_ownOps rt.toEnv "gate_admit" (by simp [ownOps]))
  refine ⟨hop, h.authority, h.failed, (committed_of_readsAs h).outcome, ?_⟩
  obtain ⟨r, q, hr, hq, hread⟩ := h.parameters
  obtain ⟨_, _, _, hpj, _⟩ := resolveWrite_ok hr
  let kvs : List (String × PyVal) := [("op", .str e.op), ("parameters", .dict parameters)] ++
    if e.gateMargin.isNone then [] else [("gate_margin", e.gateMargin)]
  have hnames : kvs.map Prod.fst = ["op", "parameters"] ∨
      kvs.map Prod.fst = ["op", "parameters", "gate_margin"] := by
    show List.map Prod.fst ([("op", _), ("parameters", _)] ++ if _ then _ else _) = _ ∨
      List.map Prod.fst ([("op", _), ("parameters", _)] ++ if _ then _ else _) = _
    by_cases hmargin : e.gateMargin.isNone = true
    · rw [if_pos hmargin]
      exact .inl rfl
    · rw [if_neg hmargin]
      exact .inr rfl
  have hparams : r.parameters = strDict kvs := by
    apply resolved_unmarked
      (rfl : (admitArgs k e authority parameters).parameters = strDict kvs) _ _ hr
    · rcases hnames with hnames | hnames <;> rw [hnames] <;> decide
    · rcases hnames with hnames | hnames <;> rw [hnames] <;> decide
  have hnodup : (kvs.map Prod.fst).Nodup := by
    rcases hnames with hnames | hnames <;> rw [hnames] <;> decide
  rw [hparams] at hpj
  exact ⟨q, hread, lookup_of_loads hnodup hpj hq List.mem_cons_self rfl⟩

/-! ## Phases -/

variable {k : Kernel} {pr : Protocol} {t : Trail} {p : Phase}

theorem atomicity_mem_external (pr : Protocol) : pr.atomicity.value ∈ external := by
  cases pr <;> decide

theorem inTrail_of_asked (h : Asked (phaseArgs k pr t p) row read) :
    InTrail pr.atomicity.value p.phase read := ⟨h.column .effectAtomicity, h.column .phase⟩

theorem custody_prepare {g : Receipt} {op authority admitRef : String} (hg : g ∈ pre)
    (hgrants : Grants op authority g) (href : g.hR = admitRef) (hop : read.op = expand env op)
    (h : Asked (phaseArgs k pr t (preparePhase admitRef)) row read) : Custody env pre read := by
  refine .prepare (atomicity_mem_external pr) (inTrail_of_asked h) hg hgrants hop ?_
  rw [href]
  exact h.column .gateAdmitRef

/-- The PREPARE with this root. -/
structure Prepared (pr : Protocol) (op : String) (key : Option String) (ref : String) (p : Receipt) :
    Prop where
  trail : InTrail pr.atomicity.value "prepare" p
  op : p.op = op
  key : p.effectIdempotencyKey = .ofOpt key
  root : p.hR = ref

theorem custody_close {ref : String} (hp : ForwardTerminal ref p)
    (h : Asked (phaseArgs k pr t p) row read) {q : Receipt} (hq : q ∈ pre)
    (hprepared : Prepared pr read.op t.idempotencyKey ref q) : Custody env pre read := by
  have hkey : read.effectIdempotencyKey = q.effectIdempotencyKey :=
    (h.column .idempotencyKey).trans hprepared.key.symm
  have href : read.effectPrepareRef = .str q.hR := by
    rw [hprepared.root]
    exact (h.column .prepareRef).trans (congrArg PyVal.ofOpt hp.prepareRef)
  have hphase : (p.phase, p.failed) ∈ [("commit", false), ("abort", true)] := by
    rcases hp.outcome with ⟨hphase, hfailed⟩ | ⟨hphase, hfailed⟩ <;> rw [hphase, hfailed] <;> simp
  exact .close (atomicity_mem_external pr) hphase (inTrail_of_asked h) h.failed hq hprepared.trail
    hprepared.op.symm hkey href

/-- The COMMIT of the attempt with this root. -/
structure Performed (op : String) (key : PyVal) (ref : String) (c : Receipt) : Prop where
  trail : InTrail "external_reversible" "commit" c
  op : c.op = op
  key : c.effectIdempotencyKey = key
  named : c.effectPrepareRef = .str ref

theorem custody_offset {ref : String} (hphase : p.phase = "compensate")
    (hnamed : p.compensateRef = some ref) (h : Asked (phaseArgs k .reversible t p) row read)
    {c : Receipt} (hc : c ∈ pre) (hperformed : Performed read.op (.ofOpt t.idempotencyKey) ref c) :
    Custody env pre read := by
  have href : read.effectCompensateRef = .str ref :=
    (h.column .compensateRef).trans (congrArg PyVal.ofOpt hnamed)
  exact .offset (hphase ▸ inTrail_of_asked h) hc hperformed.trail hperformed.op.symm
    ((h.column .idempotencyKey).trans hperformed.key.symm) (href.trans hperformed.named.symm)

/-- The COMPENSATE of the attempt with this root, under this key of its own. -/
structure Compensating (op ref : String) (key : Option String) (c : Receipt) : Prop where
  trail : InTrail "external_reversible" "compensate" c
  op : c.op = op
  named : c.effectCompensateRef = .str ref
  key : c.effectCompensationIdempotencyKey = .ofOpt key

theorem custody_settle {ref : String} {key : Option String} (hp : OffsetTerminal ref key p)
    (hne : ref ≠ "") (h : Asked (phaseArgs k .reversible t p) row read)
    (herasure : claimsErasure read = false) {c : Receipt} (hc : c ∈ pre)
    (hcompensating : Compensating read.op ref key c) : Custody env pre read := by
  have href : read.effectCompensateRef = .str ref :=
    (h.column .compensateRef).trans (congrArg PyVal.ofOpt hp.compensateRef)
  have hkey : read.effectCompensationIdempotencyKey = c.effectCompensationIdempotencyKey :=
    (h.column .compensationIdempotencyKey).trans
      ((congrArg PyVal.ofOpt hp.compensationKey).trans hcompensating.key.symm)
  have hphase : (p.phase, p.failed) ∈ [("compensated", false), ("compensation_failed", true)] := by
    rcases hp.outcome with ⟨hphase, hfailed⟩ | ⟨hphase, hfailed⟩ <;> rw [hphase, hfailed] <;> simp
  exact .settle hphase (inTrail_of_asked h) h.failed herasure hc hcompensating.trail
    hcompensating.op.symm (href.trans hcompensating.named.symm) hne href hkey

/-- Entries are only taken out of the parameters on their way into the store. -/
theorem sublist_of_surface {d : PyDict} {columns : Option EffectDescriptor}
    {effect : Option EffectColumns} {v : PyVal}
    (h : resolveEffectSurface (.dict d) columns = .ok (effect, v)) :
    ∃ d', stripReconciliation v = .dict d' ∧ d'.Sublist d := by
  have hv : ∃ d', v = .dict d' ∧ d'.Sublist d := by
    simp only [resolveEffectSurface] at h
    split at h
    · split at h
      · cases h
      · exact ⟨d, (Prod.mk.inj (Except.ok.inj h)).2.symm, List.Sublist.refl d⟩
      · exact ⟨_, (Prod.mk.inj (Except.ok.inj h)).2.symm, List.filter_sublist⟩
    · split at h
      · exact ⟨d, (Prod.mk.inj (Except.ok.inj h)).2.symm, List.Sublist.refl d⟩
      · split_ifs at h
        exact ⟨_, (Prod.mk.inj (Except.ok.inj h)).2.symm, List.filter_sublist⟩
  obtain ⟨d', rfl, hsub⟩ := hv
  unfold stripReconciliation
  dsimp only
  split
  · exact ⟨_, rfl, (List.filter_sublist.trans List.filter_sublist).trans hsub⟩
  · exact ⟨d', rfl, hsub⟩

/-- The keys of the stored parameters are the texts of keys that were passed. -/
theorem keys_of_readsAs {d : PyDict} (hd : a.parameters = .dict d) (h : ReadsAs cfg a row read) :
    ∃ q, read.parameters = .dict q ∧ ∀ name, PyKey.str name ∈ q.map Prod.fst →
      ∃ key ∈ d.map Prod.fst, keyText true key = .ok name := by
  obtain ⟨id, tip, time, c, r, sf, hBody, trace, q, hr, -, hq, rfl⟩ := h.stored
  obtain ⟨v, hsurface, hparams, hpj, -⟩ := resolveWrite_ok hr
  refine ⟨q, rfl, fun name hname => ?_⟩
  rw [hd] at hsurface
  obtain ⟨d', hd', hsub⟩ := sublist_of_surface hsurface
  rw [hparams, hd'] at hpj
  obtain ⟨key, hkey, htext⟩ := key_of_loads hpj hq hname
  exact ⟨key, (hsub.map Prod.fst).subset hkey, htext⟩

/-- Parameters under other names claim no erasure. -/
theorem claimsErasure_of_names {kvs : List (String × PyVal)} (hp : a.parameters = strDict kvs)
    (hnames : ∀ name ∈ erasureMarkers, name ∉ kvs.map Prod.fst) (h : ReadsAs cfg a row read) :
    claimsErasure read = false := by
  obtain ⟨q, hq, hkeys⟩ := keys_of_readsAs hp h
  unfold claimsErasure
  rw [hq]
  dsimp only
  rw [List.any_eq_false]
  intro name hname
  rw [PyDict.get_of_not_mem fun hmem => ?_]
  · exact Bool.false_ne_true
  · obtain ⟨key, hkey, htext⟩ := hkeys name hmem
    rw [List.map_map] at hkey
    obtain ⟨kv, hkv, rfl⟩ := List.mem_map.mp hkey
    obtain rfl : kv.1 = name := Except.ok.inj htext
    exact hnames _ hname (List.mem_map_of_mem hkv)

end Rows

/-! ## What may be written -/

section Allowed

variable {clean : Prop} {kinds : List (Receipt → Prop)} {op authority : String} {a : WriteArgs}

/-- The law allows the write wherever receipts of these kinds are. -/
def Allowed (rt : Runtime) (clean : Prop) (kinds : List (Receipt → Prop)) (a : WriteArgs) : Prop :=
  ∀ rs row read, (∀ kind ∈ kinds, ∃ r ∈ rs, kind r) → ReadsAs rt.toConfig a row read →
    Lawful rt clean rs read

/-- What a call has been granted. -/
structure Granted (rt : Runtime) (op authority : String) (kinds : List (Receipt → Prop)) : Prop where
  declared : declared rt.toConfig op = true
  kernel : op ∉ kernelOps
  present : ∃ kind ∈ kinds, ∀ g, kind g → Grants op authority g

theorem Granted.mem (h : Granted rt op authority kinds) {rs : List Receipt}
    (hkinds : ∀ kind ∈ kinds, ∃ r ∈ rs, kind r) : ∃ g ∈ rs, Grants op authority g := by
  obtain ⟨kind, hkind, hgrants⟩ := h.present
  obtain ⟨g, hg, hg'⟩ := hkinds kind hkind
  exact ⟨g, hg, hgrants g hg'⟩

theorem Granted.cons (h : Granted rt op authority kinds) (kind : Receipt → Prop) :
    Granted rt op authority (kind :: kinds) := by
  obtain ⟨kind', hkind, hgrants⟩ := h.present
  exact ⟨h.declared, h.kernel, kind', List.mem_cons_of_mem _ hkind, hgrants⟩

theorem allowed_own (h : OwnArgs a) (hplain : clean → Plain a) : Allowed rt clean kinds a :=
  fun _ _ _ _ hread => ⟨accounted_own h hread, fun hc => sound_plain (hplain hc) h.compress hread⟩

/-- An own write without a phase whose parameters and continuation claim nothing. -/
theorem allowed_note (hop : a.op ∈ ownOps) (hcompress : a.compress = false)
    (hmarkers : NoMarkers a.parameters) (hphase : asked a .phase = .none)
    (hcontinuation : a.continuation = none) : Allowed rt clean kinds a :=
  allowed_own ⟨.inl hop, hcompress, hmarkers, hphase⟩ fun _ =>
    ⟨hmarkers, hphase, captures_of_none hcontinuation, .inl hop⟩

theorem allowed_outcome (hg : Granted rt op authority kinds) (h : OutcomeArgs rt op authority a)
    (hplain : clean → Plain a) : Allowed rt clean kinds a :=
  fun _ _ _ hkinds hread => ⟨accounted_outcome hg.declared hg.kernel (hg.mem hkinds) h hread,
    fun hc => sound_plain (hplain hc) h.compress hread⟩

theorem allowed_phase {k : Kernel} {pr : Protocol} {t : Trail} {p : Phase}
    (hg : Granted rt op authority kinds) (h : OutcomeArgs rt op authority (phaseArgs k pr t p))
    (hbase : clean → NoMarkers (.dict t.baseParams))
    (hsound : clean → ∀ rs row read, (∀ kind ∈ kinds, ∃ r ∈ rs, kind r) →
      ReadsAs rt.toConfig (phaseArgs k pr t p) row read → Asked (phaseArgs k pr t p) row read →
        Custody rt.toEnv rs read ∧ Graded rt.toEnv read) :
    Allowed rt clean kinds (phaseArgs k pr t p) := by
  refine fun rs row read hkinds hread => ⟨accounted_outcome hg.declared hg.kernel (hg.mem hkinds) h
    hread, fun hc => ?_⟩
  have hasked := asked_of_readsAs hread (hbase hc)
  obtain ⟨hcustody, hgraded⟩ := hsound hc rs row read hkinds hread hasked
  exact ⟨typed_of_asked hread hasked, hcustody, captured_of_readsAs hread (captures_of_none rfl),
    hgraded⟩

end Allowed

end Kernel

end Ugk
