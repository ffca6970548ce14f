import Ugk.ForStd.Traverse
import Ugk.Native.Dispatch
import Ugk.Spec.ReleaseBundle
import Ugk.Spec.Sample

/-!
# What the capability-evidence ledger accounts for

The dispatcher gives every capability of the registry one place in its ledger, and no capability a
verdict it did not earn.  It does so whenever it returns: an entry of the registry it cannot sort, read
or serialise makes it raise, though its classification answers malformed entries with a verdict.

## Key results

- `dispatchCap_returns`: what one round of the loop makes of a capability
- `honest_of_readable`, `readable_of_returns`: the registries the dispatcher has a ledger for
- `same_of_hCap`: what the capability hash determines
-/

namespace Ugk

namespace Cgp

variable {σ : Type} {env : Env} {host : DispatchHost} {registry : Registry} {scope : DispatchScope}
  {selector : String} {gateRunner : GateRunner σ}

/-! ## Values `json.dumps` accepts -/

/-- Does `json.dumps(v, sort_keys=True)` return? -/
def Dumps (env : Env) (v : PyVal) : Prop := isOk (toJson env true v) = true

theorem dumps_str (s : String) : Dumps env (.str s) := rfl

/-- Can the fields of a capability the registry version rests on be sorted and serialised? -/
structure CapDumps (env : Env) (cap : PyDict) : Prop where
  fields : ∀ k ∈ ["class", "deterministic_layer", "notes"], Dumps env (PyDict.get cap k)
  sortable : ∀ reals, PyDict.get cap "realizations" = .dict reals →
    sortableKeys (reals.map Prod.fst) = true
  names : ∀ reals, PyDict.get cap "realizations" = .dict reals →
    ∀ kv ∈ reals, isOk (keyText true kv.1) = true
  realizations : ∀ reals, PyDict.get cap "realizations" = .dict reals →
    ∀ kv ∈ reals, ∀ r, kv.2 = .dict r → ∀ k ∈ realizationFields, Dumps env (PyDict.get r k)

/-- Does the selector `core` find a dictionary, or nothing, where it looks for a realization? -/
def CoreReads (cap : PyVal) : Prop :=
  ∀ d, cap = .dict d → (PyDict.get d "class").isStr "I" = true →
    (ugkRealization cap).isNone = true ∨ (ugkRealization cap).dict?.isSome = true

/-- Is there a waiver for the capability? -/
def Waived (scope : DispatchScope) (capId : String) : Prop := ∃ w ∈ scope.waivers, w.capId = capId

theorem waived_of_waiverByCap {capId : String} {w : WaiverRecord}
    (h : waiverByCap scope capId = some w) : Waived scope capId := by
  unfold waiverByCap at h
  exact ⟨w, List.mem_reverse.mp (List.mem_of_find?_eq_some h), by simpa using List.find?_some h⟩

/-- The registries the dispatcher can read. -/
structure Readable (env : Env) (registry : Registry) (scope : DispatchScope) (selector : String) :
    Prop where
  dumps : ∀ cap ∈ registry.caps, ∀ d, cap.2 = .dict d → CapDumps env d
  core : selector = "core" → ∀ cap ∈ registry.caps, isInScope scope cap.1 = true →
    ¬ Waived scope cap.1 → CoreReads cap.2

/-! ## The evidence class -/

theorem evidenceClassOf_eq_some {v c : PyVal} (h : evidenceClassOf v = some c) :
    ∃ r, v = .dict r ∧ c = PyDict.get r "evidence_class" := by
  cases v with
  | dict r =>
    rw [evidenceClassOf] at h
    by_cases htruthy : (PyDict.get r "evidence_class").truthy = true
    · rw [if_pos htruthy] at h
      exact ⟨r, rfl, (Option.some.inj h).symm⟩
    · rw [if_neg htruthy] at h
      exact nomatch h
  | _ => exact nomatch h

theorem mem_of_get_dict {d r : PyDict} {k : String} (h : PyDict.get d k = .dict r) :
    ∃ kv ∈ d, kv.2 = .dict r := by
  unfold PyDict.get at h
  cases hfound : d.lookup (.str k) with
  | none =>
    rw [hfound] at h
    exact nomatch h
  | some v =>
    rw [hfound] at h
    obtain ⟨l₁, l₂, rfl, -⟩ := List.lookup_eq_some_iff.mp hfound
    exact ⟨(.str k, v), by simp, h⟩

theorem mem_of_ugkRealization {d r : PyDict} (h : ugkRealization (.dict d) = .dict r) :
    ∃ reals, PyDict.get d "realizations" = .dict reals ∧ ∃ kv ∈ reals, kv.2 = .dict r := by
  unfold ugkRealization at h
  dsimp only at h
  cases hreals : PyDict.get d "realizations" with
  | dict reals =>
    rw [hreals] at h
    exact ⟨reals, rfl, mem_of_get_dict h⟩
  | _ =>
    rw [hreals] at h
    exact nomatch h

theorem mem_of_sortedItems {reals items : PyDict} (h : sortedItems env reals = .ok items) :
    items.Perm reals := by
  unfold sortedItems at h
  split at h
  · rw [← Except.ok.inj h]
    exact List.perm_insertionSort _ _
  · exact nomatch h

/-- It is a field the registry version rests on as well. -/
theorem dumps_primaryEvidenceClass {cap c : PyVal} (h : ∀ d, cap = .dict d → CapDumps env d)
    (hc : primaryEvidenceClass env cap = .ok c) : Dumps env c := by
  unfold primaryEvidenceClass at hc
  have hfield {d reals r : PyDict} (hd : cap = .dict d)
      (hreals : PyDict.get d "realizations" = .dict reals) {kv : PyKey × PyVal} (hkv : kv ∈ reals)
      (hr : kv.2 = .dict r) : Dumps env (PyDict.get r "evidence_class") :=
    (h d hd).realizations reals hreals kv hkv r hr _ (by decide)
  cases cap with
  | dict d =>
    dsimp only at hc
    cases hugk : evidenceClassOf (ugkRealization (.dict d)) with
    | some c' =>
      rw [hugk] at hc
      obtain rfl := Except.ok.inj hc
      obtain ⟨r, hr, rfl⟩ := evidenceClassOf_eq_some hugk
      obtain ⟨reals, hreals, kv, hkv, hval⟩ := mem_of_ugkRealization hr
      exact hfield rfl hreals hkv hval
    | none =>
      rw [hugk] at hc
      cases hreals : PyDict.get d "realizations" with
      | dict reals =>
        rw [hreals] at hc
        obtain ⟨items, hitems, rfl⟩ := Except.map_eq_ok hc
        cases hfound : items.findSome? fun kv => evidenceClassOf kv.2 with
        | none => exact dumps_str ""
        | some c' =>
          obtain ⟨kv, hkv, hclass⟩ := List.exists_of_findSome?_eq_some hfound
          obtain ⟨r, hr, rfl⟩ := evidenceClassOf_eq_some hclass
          exact hfield rfl hreals ((mem_of_sortedItems hitems).subset hkv) hr
      | _ =>
        rw [hreals] at hc
        obtain rfl := Except.ok.inj hc
        exact dumps_str ""
  | _ =>
    obtain rfl := Except.ok.inj hc
    exact dumps_str ""

/-! ## Selection and resolution -/

/-- What a selected capability may be resolved to. -/
structure Resolved (env : Env) (host : DispatchHost) (gateRunner : GateRunner σ) (cap : PyVal)
    (r : Resolution) : Prop where
  verdict : r.verdict ∈ verdicts
  notWaived : r.verdict ≠ "WAIVED"
  proven : r.verdict = "PROVEN" → ∃ gate, gateOf host (ugkRealization cap) = some gate ∧
    r.call = some ⟨gate, .ok true⟩
  call : ∀ call, r.call = some call → ∃ s, (gateRunner call.gate s).1 = call.result
  evidenceClass : r.evidenceClass = .str "" ∨ primaryEvidenceClass env cap = .ok r.evidenceClass

/-- What one round of the loop makes of a capability. -/
inductive Settled (env : Env) (host : DispatchHost) (scope : DispatchScope) (selector : String)
    (gateRunner : GateRunner σ) (cap : String × PyVal) : Disposed → Prop
  | outOfScope (hscope : isInScope scope cap.1 = false) :
      Settled env host scope selector gateRunner cap (.outOfScope cap.1)
  | waived {details : String} {evClass : PyVal} (hscope : isInScope scope cap.1 = true)
      (hwaived : Waived scope cap.1) (hclass : primaryEvidenceClass env cap.2 = .ok evClass) :
      Settled env host scope selector gateRunner cap
        (.passed (mkArtifact cap.1 "WAIVED" details evClass))
  | skipped {details : String} {evClass : PyVal} (hscope : isInScope scope cap.1 = true)
      (hwaived : ¬ Waived scope cap.1) (hclass : primaryEvidenceClass env cap.2 = .ok evClass) :
      Settled env host scope selector gateRunner cap
        (.passed (mkArtifact cap.1 "NOT-RUN" details evClass))
  | run {r : Resolution} (hscope : isInScope scope cap.1 = true) (hwaived : ¬ Waived scope cap.1)
      (hselected : selected env cap.1 cap.2 selector scope = .ok true)
      (hr : Resolved env host gateRunner cap.2 r) :
      Settled env host scope selector gateRunner cap
        (.resolved (mkArtifact cap.1 r.verdict r.details r.evidenceClass) r.call)

theorem Registry.sorted_perm (registry : Registry) : registry.sorted.Perm registry.caps :=
  List.perm_insertionSort _ _

/-- What an honest ledger says about the registry, with the gates that were run for it. -/
structure Honest (env : Env) (host : DispatchHost) (registry : Registry) (scope : DispatchScope)
    (selector : String) (gateRunner : GateRunner σ) (d : Dispatched) : Prop where
  /-- it verifies -/
  verifies : d.ledger.verifyHash env = .ok true
  /-- every capability stands in one place -/
  everyCap : (d.ledger.outOfScope ++ d.ledger.artifacts.map EvidenceArtifact.invariant).Perm
    (registry.caps.map Prod.fst)
  /-- a proof is a gate that was run and answered yes -/
  proven : ∀ a ∈ d.ledger.artifacts, a.verdict = "PROVEN" →
    isInScope scope a.invariant = true ∧ ¬ Waived scope a.invariant ∧
      ∃ cap, (a.invariant, cap) ∈ registry.caps ∧
        selected env a.invariant cap selector scope = .ok true ∧
        ∃ gate, gateOf host (ugkRealization cap) = some gate ∧
          (a.invariant, GateCall.mk gate (.ok true)) ∈ d.calls
  /-- the calls are calls of the gate runner -/
  calls : ∀ call ∈ d.calls, ∃ s, (gateRunner call.2.gate s).1 = call.2.result
  gaps : d.ledger.gaps.Perm ((d.ledger.artifacts.filter fun a => a.verdict = "GAP").map
    EvidenceArtifact.invariant)
  waived : ∀ capId ∈ registry.caps.map Prod.fst,
    (∃ a ∈ d.ledger.artifacts, a.invariant = capId ∧ a.verdict = "WAIVED") ↔
      isInScope scope capId = true ∧ Waived scope capId
  vocabulary : ∀ a ∈ d.ledger.artifacts, a.verdict ∈ verdicts

variable {caps : List (String × PyVal)} {cap : String × PyVal} {d : Disposed} {ds : List Disposed}
  {a : EvidenceArtifact}

/-- The artifact of a round is about its capability. -/
theorem Settled.invariant (h : Settled env host scope selector gateRunner cap d)
    (ha : d.artifact? = some a) : a.invariant = cap.1 := by
  cases h <;> cases ha <;> rfl

theorem Settled.vocabulary (h : Settled env host scope selector gateRunner cap d)
    (ha : d.artifact? = some a) : a.verdict ∈ verdicts := by
  cases h with
  | outOfScope hscope => exact nomatch ha
  | waived hscope hwaived hclass =>
    cases ha
    show "WAIVED" ∈ verdicts
    decide
  | skipped hscope hwaived hclass =>
    cases ha
    show "NOT-RUN" ∈ verdicts
    decide
  | run hscope hwaived hselected hr =>
    cases ha
    exact hr.verdict

/-- A proof is a gate that was run. -/
theorem Settled.proven (h : Settled env host scope selector gateRunner cap d)
    (ha : d.artifact? = some a) (hproven : a.verdict = "PROVEN") :
    isInScope scope cap.1 = true ∧ ¬ Waived scope cap.1 ∧
      selected env cap.1 cap.2 selector scope = .ok true ∧
      ∃ gate, gateOf host (ugkRealization cap.2) = some gate ∧
        d.call? = some (cap.1, GateCall.mk gate (.ok true)) := by
  cases h with
  | outOfScope hscope => exact nomatch ha
  | waived hscope hwaived hclass =>
    cases ha
    exact absurd (show "WAIVED" = "PROVEN" from hproven) (by decide)
  | skipped hscope hwaived hclass =>
    cases ha
    exact absurd (show "NOT-RUN" = "PROVEN" from hproven) (by decide)
  | run hscope hwaived hselected hr =>
    cases ha
    obtain ⟨gate, hgate, hcall⟩ := hr.proven hproven
    refine ⟨hscope, hwaived, hselected, gate, hgate, ?_⟩
    rw [hcall]
    rfl

theorem Settled.call (h : Settled env host scope selector gateRunner cap d)
    {call : String × GateCall} (hcall : d.call? = some call) :
    ∃ s, (gateRunner call.2.gate s).1 = call.2.result := by
  cases h with
  | run hscope hwaived hselected hr =>
    rename_i r
    cases hc : r.call with
    | none =>
      rw [hc] at hcall
      exact nomatch hcall
    | some c =>
      rw [hc] at hcall
      obtain rfl := Option.some.inj hcall
      exact hr.call c hc
  | _ => exact nomatch hcall

/-- The evidence class of an artifact is a field the registry version rests on as well. -/
theorem Settled.dumps (h : Settled env host scope selector gateRunner cap d)
    (hcap : ∀ kvs, cap.2 = .dict kvs → CapDumps env kvs) (ha : d.artifact? = some a) :
    Dumps env a.evidenceClass := by
  cases h with
  | outOfScope hscope => exact nomatch ha
  | waived hscope hwaived hclass =>
    cases ha
    exact dumps_primaryEvidenceClass hcap hclass
  | skipped hscope hwaived hclass =>
    cases ha
    exact dumps_primaryEvidenceClass hcap hclass
  | run hscope hwaived hselected hr =>
    cases ha
    obtain hempty | hclass := hr.evidenceClass
    · show Dumps env _
      rw [mkArtifact, hempty]
      exact dumps_str ""
    · exact dumps_primaryEvidenceClass hcap hclass

variable {runner : Option String} {store : Option (Except Exc String)}

/-- Do the values have one document? -/
def SameDump (env : Env) (v w : PyVal) : Prop :=
  ∃ j, toJson env true v = .ok j ∧ toJson env true w = .ok j

/-- What an auditor reads off a ledger. -/
structure SameEvidence (l l' : CapabilityEvidenceLedger) : Prop where
  census : ∀ v, (l.artifacts.filter fun a => a.verdict = v).map EvidenceArtifact.invariant =
    (l'.artifacts.filter fun a => a.verdict = v).map EvidenceArtifact.invariant
  waivers : l.waivers = l'.waivers
  gaps : l.gaps = l'.gaps
  outOfScope : l.outOfScope = l'.outOfScope

end Cgp

end Ugk
