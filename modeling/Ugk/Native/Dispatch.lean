import Mathlib.Data.List.Infix
import Ugk.ForStd.Proc
import Ugk.Native.Outcome

/-!
# The capability-evidence dispatcher

`cgp/dispatch.py`: the registry of capabilities is turned into a ledger with a verdict for every
capability in scope.  A registry entry is any Python value, and the gate runner is any procedure that
returns or raises.  Beside its result a capability keeps the call of the gate runner it caused, which
the source does not record.
-/

namespace Ugk

namespace Cgp

/-! ## The vocabulary -/

/-- `_LIVE_CLASSES` -/
def liveClasses : List String := ["gate-suite", "scenario-sweep", "receipt-aggregation"]

/-- `_BY_CONSTRUCTION_MARKERS` -/
def byConstructionMarkers : List String :=
  ["implicit", "by construction", "by-construction", "substrate level", "structural"]

/-- `DispatchScope`, the fields the dispatcher reads -/
structure DispatchScope where
  scopeId : String
  inScope : Option (List String) := none
  waivers : List WaiverRecord := []
  customSet : Option (List String) := none

/-- The registry: entries of any shape, each under a name of its own. -/
structure Registry where
  caps : List (String × PyVal)
  nodup : (caps.map Prod.fst).Nodup

/-- What the dispatcher takes from the Python runtime and the installed package. -/
structure DispatchHost where
  /-- `str(v)`, also in an f-string -/
  str : PyVal → String
  /-- `s.lower()` -/
  lower : String → String
  /-- `importlib.util.find_spec("ugk.conformance." + name) is not None` -/
  gateExists : String → Bool

/-- `v in xs` for a tuple of strings. -/
def isOneOf (xs : List String) (v : PyVal) : Bool := xs.any fun s => v.isStr s

/-- `d.get(k, default)` -/
def getOr (d : PyDict) (k : String) (default : PyVal) : PyVal := (d.lookup (.str k)).getD default

/-! ## Resolving the binding of a capability -/

/-- `_ugk_realization` -/
def ugkRealization : PyVal → PyVal
  | .dict cap =>
    match PyDict.get cap "realizations" with
    | .dict reals => PyDict.get reals "UGK"
    | _ => .none
  | _ => .none

/-- The evidence class of a realization, when it is a dictionary that has one. -/
def evidenceClassOf : PyVal → Option PyVal
  | .dict r =>
    if (PyDict.get r "evidence_class").truthy then some (PyDict.get r "evidence_class") else none
  | _ => none

/-- `sorted(d)`, with what stands under the keys. -/
def sortedItems (env : Env) (d : PyDict) : Except Exc PyDict :=
  if sortableKeys (d.map Prod.fst) then .ok (sortItems env d)
  else .error (.typeError "'<' not supported between instances")

/-- `_primary_evidence_class` -/
def primaryEvidenceClass (env : Env) : PyVal → Except Exc PyVal
  | .dict cap =>
    match evidenceClassOf (ugkRealization (.dict cap)) with
    | some c => .ok c
    | none =>
      match PyDict.get cap "realizations" with
      | .dict reals =>
        (sortedItems env reals).map fun items =>
          (items.findSome? fun kv => evidenceClassOf kv.2).getD (.str "")
      | _ => .ok (.str "")
  | _ => .ok (.str "")

/-- `_by_construction_marker` -/
def byConstructionMarker (host : DispatchHost) (cap : PyDict) (ugk : PyVal) : Option String :=
  let ofUgk : List PyVal :=
    match ugk with
    | .dict u => [getOr u "gate" (.str ""), getOr u "notes" (.str "")]
    | _ => []
  let haystacks := ofUgk ++ [getOr cap "deterministic_layer" (.str ""), getOr cap "notes" (.str "")]
  let blob := host.lower (String.intercalate " " (haystacks.map host.str))
  byConstructionMarkers.find? fun m => decide (m.toList <:+: blob.toList)

/-- A character of `[A-Za-z0-9_]`. -/
def isTokenChar (c : Char) : Bool := c.isAlphanum || c == '_'

/-- The longest prefix of a run that matches `[A-Za-z0-9_]+_gate`. -/
def gateToken (run : List Char) : Option (List Char) :=
  (((List.range (run.length + 1)).reverse).map run.take).find? fun p =>
    6 ≤ p.length && "_gate".toList.isSuffixOf p

/-- `_GATE_TOKEN.findall(text)`: a run of token characters holds one match at most. -/
def gateTokens (s : String) : List String :=
  ((s.toList.splitOnP fun c => !isTokenChar c).filterMap gateToken).map String.ofList

/-- `resolve_gate_name` -/
def resolveGateName (host : DispatchHost) (realization : PyDict) : Option String :=
  let text := String.intercalate " " (["gate", "evidence", "notes"].map fun k =>
    host.str (getOr realization k (.str "")))
  (gateTokens text).find? host.gateExists

/-- The gate a capability names, if its realization is a dictionary with items. -/
def gateOf (host : DispatchHost) (ugk : PyVal) : Option String :=
  match ugk with
  | .dict u => if u.isEmpty then none else resolveGateName host u
  | _ => none

/-! ## Planning and selection -/

/-- `_selected` -/
def selected (env : Env) (capId : String) (cap : PyVal) (selector : String)
    (scope : DispatchScope) : Except Exc Bool :=
  if selector = "full" then .ok true
  else if selector = "custom" then
    match scope.customSet with
    | none => .ok false
    | some names => .ok (decide (capId ∈ names))
  else if selector = "core" then
    match cap with
    | .dict d =>
      if (PyDict.get d "class").isStr "I" then
        match ugkRealization cap with
        | .none => .ok false
        | .dict u =>
          .ok ((PyDict.get u "deterministic").truthy &&
            (PyDict.get u "evidence_class").isStr "gate-suite")
        -- `.get` of a realization that is no dictionary
        | _ => .error (.userException "AttributeError")
      else .ok false
    | _ => .ok false
  else if selector = "live" then (primaryEvidenceClass env cap).map (isOneOf liveClasses)
  else .ok false

/-- The `scope.in_scope` test. -/
def isInScope (scope : DispatchScope) (capId : String) : Bool :=
  match scope.inScope with
  | none => true
  | some names => decide (capId ∈ names)

/-- `waiver_by_cap.get(cap_id)`: of waivers for one capability the last one counts. -/
def waiverByCap (scope : DispatchScope) (capId : String) : Option WaiverRecord :=
  scope.waivers.reverse.find? fun w => w.capId = capId

/-- What is to be done with a capability. -/
inductive Disposition where
  | outOfScope
  | waived (w : WaiverRecord)
  | notRunSelector
  | inScope

/-- A call of the gate runner: the truth of the `ok` it returned, or the type of what it raised. -/
structure GateCall where
  gate : String
  result : Except String Bool

/-- A gate runner, over a state of its own. -/
abbrev GateRunner (σ : Type) := String → Proc σ String Bool

/-- What becomes of a selected capability. -/
structure Resolution where
  verdict : String
  details : String
  evidenceClass : PyVal
  call : Option GateCall

variable {σ : Type}

/-- `_mk_artifact` -/
def mkArtifact (capId verdict details : String) (evClass : PyVal) : EvidenceArtifact :=
  ⟨capId, verdict, evClass, details, none⟩

/-- What the loop makes of one capability. -/
inductive Disposed where
  | outOfScope (capId : String)
  | passed (a : EvidenceArtifact)
  | resolved (a : EvidenceArtifact) (call : Option GateCall)

/-- The fields of a realization the projection keeps. -/
def realizationFields : List String := ["evidence_class", "gate", "deterministic", "status", "notes"]

/-- `_realization_projection` -/
def realizationProjection : PyVal → PyVal
  | .dict r => strDict (realizationFields.map fun k => (k, PyDict.get r k))
  | _ => strDict [("_malformed", .bool true)]

/-- The projection of the realizations of a capability. -/
def realizationsProjection (env : Env) : PyVal → Except Exc PyVal
  | .dict reals =>
    (sortedItems env reals).map fun items =>
      .dict (items.map fun kv => (kv.1, realizationProjection kv.2))
  | reals => .ok (strDict [("_malformed", .bool !reals.isNone)])

/-- The projection of one capability. -/
def capProjection (env : Env) : PyVal → Except Exc PyVal
  | .dict d => do
    let rp ← realizationsProjection env (PyDict.get d "realizations")
    let primary ← primaryEvidenceClass env (.dict d)
    .ok (strDict [("class", PyDict.get d "class"), ("realizations", rp),
      ("primary_evidence_class", primary),
      ("deterministic_layer", PyDict.get d "deterministic_layer"),
      ("notes", PyDict.get d "notes"),
      ("interpretive_template", .bool !(PyDict.get d "interpretive_evidence_template").isNone)])
  | _ => .ok (strDict [("_malformed", .bool true)])

/-- `sorted(registry.keys())`, with the entries. -/
def Registry.sorted (registry : Registry) : List (String × PyVal) :=
  registry.caps.insertionSort fun a b => a.1 ≤ b.1

/-- `_registry_projection` -/
def registryProjection (env : Env) (registry : Registry) : Except Exc PyVal :=
  (registry.sorted.mapM fun cap => (capProjection env cap.2).map fun p => (cap.1, p)).map strDict

/-- `_registry_version` -/
def registryVersion (env : Env) (registry : Registry) : Except Exc String := do
  let proj ← registryProjection env registry
  let cj ← bindingCanonicalJson env proj
  .ok ("caps:" ++ toString registry.caps.length ++ ":" ++
    String.ofList ((env.sha256 (text cj)).hex.toList.take 12))

/-! ## The ledger -/

/-- `_store_head`, of what `store.stream_hash()` returns or raises, if there is a store. -/
def storeHead : Option (Except Exc String) → String
  | some (.ok h) => h
  | _ => "no-store"

/-- `_runner_id`, of the name of the runner's type, if there is a runner. -/
def runnerId (runner : Option String) : String := runner.getD "no-runner"

/-- The order of waivers: the tuple of the four fields. -/
def WaiverRecord.key (w : WaiverRecord) : List String :=
  [w.capId, w.authority, w.reason, w.evidenceRef]

/-- The artifact of a capability in scope. -/
def Disposed.artifact? : Disposed → Option EvidenceArtifact
  | .outOfScope _ => none
  | .passed a => some a
  | .resolved a _ => some a

/-- The call of the gate runner a capability caused, with its name. -/
def Disposed.call? : Disposed → Option (String × GateCall)
  | .resolved a (some call) => some (a.invariant, call)
  | _ => none

/-- A ledger, and the calls of the gate runner it rests on. -/
structure Dispatched where
  ledger : CapabilityEvidenceLedger
  calls : List (String × GateCall)

end Cgp

end Ugk
