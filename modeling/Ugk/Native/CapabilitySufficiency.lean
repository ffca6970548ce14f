import Ugk.Native.Execute

/-!
# Capability sufficiency

The policy artifact of `ugk/cgp/capability_sufficiency.py` for any list of enforced entries, and
`execute` with the policy its kernel carries in `_dcap_policy`.  `Kernel.execute` is the instance at the
policy the package ships.
-/

namespace Ugk

namespace Capability

/-- An entry of `enforced_scopes`. -/
structure EnforcedEntry where
  jurisdiction : String
  op : String
  capabilityClass : String
  /-- the named proof or gate that backs BY-CONSTRUCTION -/
  byConstructionProof : Option String := none
  waiverPermits : Bool := false
deriving DecidableEq

/-- A policy artifact; nothing reads its other keys. -/
structure Policy where
  enforcedScopes : List EnforcedEntry := []
deriving DecidableEq

/-- `VERDICTS` -/
def verdicts : List String :=
  ["PROVEN", "FAIL", "GAP", "WAIVED", "BY-CONSTRUCTION", "NOT-RUN", "ERROR"]

/-- The disposition labels. -/
inductive Disposition where
  | sufficient
  | failClosed
  | waiverDisposition
  | byConstructionAdmitted
  | byConstructionUnbacked
deriving DecidableEq

/-- The proof an entry names, when its text is not empty. -/
def EnforcedEntry.namedProof (e : EnforcedEntry) : Option String :=
  e.byConstructionProof.filter fun proof => proof != ""

/-- `classify`, with its reason. -/
def classify (verdict : PyVal) (policyEntry : Option EnforcedEntry) : Disposition × String :=
  if verdict.isStr "PROVEN" then (.sufficient, "evidence-sufficient:PROVEN")
  else if verdict.isStr "WAIVED" then
    (.waiverDisposition, "authority-disposition:WAIVED:not-evidence")
  else if verdict.isStr "BY-CONSTRUCTION" then
    match policyEntry.bind EnforcedEntry.namedProof with
    | some proof => (.byConstructionAdmitted, "by-construction:named-proof:" ++ proof)
    | none => (.byConstructionUnbacked, "by-construction:unbacked:non-sufficient")
  else
    let shown := (verdicts.find? fun v => verdict.isStr v).getD "unknown"
    (.failClosed, "non-sufficient:fail-closed:" ++ shown)

/-- Is the entry about this scope and op? -/
def EnforcedEntry.covers (jurisdiction op : String) (e : EnforcedEntry) : Bool :=
  e.jurisdiction == jurisdiction && e.op == op

/-- `find_enforced_entry` -/
def findEnforcedEntry (policy : Policy) (jurisdiction op : String) : Option EnforcedEntry :=
  policy.enforcedScopes.find? (EnforcedEntry.covers jurisdiction op)

/-- `REFUSAL_CAUSE_INSUFFICIENT_CAPABILITY` -/
def refusalCause : String := "insufficient-capability"

/-- `enforce_decision` -/
def enforceDecision (policy : Policy) (jurisdiction op : String) (verdict : PyVal) : Bool × String :=
  match findEnforcedEntry policy jurisdiction op with
  | none => (false, "")
  | some entry =>
    if verdict.isNone then (true, refusalCause)
    else
      match (classify verdict (some entry)).1 with
      | .sufficient => (false, "")
      | .byConstructionAdmitted => (false, "")
      | .waiverDisposition => if entry.waiverPermits then (false, "") else (true, refusalCause)
      | _ => (true, refusalCause)

/-- The verdict of a capability class in a census. -/
def verdictOf (census : Option PyDict) (capabilityClass : String) : PyVal :=
  PyDict.get (census.getD []) capabilityClass

/-- `CAPABILITY_SUFFICIENCY_POLICY` -/
def capabilitySufficiencyPolicy : Policy where
  enforcedScopes :=
    [{ jurisdiction := "external-consequential", op := "authority_model_set",
       capabilityClass := "fail_closed_governance" },
     { jurisdiction := "external-consequential", op := "namespace_allocate",
       capabilityClass := "fail_closed_governance" },
     { jurisdiction := "external-consequential", op := "namespace_delegate",
       capabilityClass := "fail_closed_governance" },
     { jurisdiction := "external-consequential", op := "namespace_revoke",
       capabilityClass := "fail_closed_governance" }]

end Capability

namespace Kernel

variable (rt : Runtime) (policy : Capability.Policy)

/-- Step 4a under a policy. -/
def checkSufficiency (a : ExecuteArgs) (authority : String) (parameters : PyDict) :
    Proc World Exc Unit :=
  if a.op ∈ kernelOps then pure ()
  else
    match Capability.findEnforcedEntry policy a.jurisdiction a.op with
    | none => pure ()
    | some entry =>
      let verdict := Capability.verdictOf a.capabilityVerdicts entry.capabilityClass
      let decision := Capability.enforceDecision policy a.jurisdiction a.op verdict
      if decision.1 then
        refuseWith rt a.layer authority [("op", .str a.op), ("parameters", .dict parameters),
          ("refusal_cause", .str decision.2),
          ("capability_class", .str entry.capabilityClass),
          ("enforced_jurisdiction", .str a.jurisdiction),
          ("refusal_axis", .str "authority"), ("refusal_reason", .str "authority_missing")]
          (.gateRefusal a.op "authority_missing")
      else pure ()

/-- The refusal horizon under a policy. -/
def refusalHorizonUnder (a : ExecuteArgs) (authority : String) (parameters : PyDict) :
    Proc World Exc String := do
  let w ← Proc.get
  checkTier rt w.kernel a authority parameters
  checkDeclared rt a authority
  checkAuthorityModel rt w.kernel a authority
  evaluateGate rt a authority parameters
  checkSufficiency rt policy a authority parameters
  checkLocality rt a authority parameters
  resolveIntent rt a

/-- `execute` of a kernel that carries the policy. -/
def executeUnder (a : ExecuteArgs) : Proc World Exc PyVal := do
  let w ← Proc.get
  let (authority, parameters) ← Proc.lift (preflight rt.toEnv w.kernel a)
  let intentRef ← refusalHorizonUnder rt policy a authority parameters
  admitted rt (governingModel w.kernel a.op) a authority parameters intentRef

end Kernel

end Ugk
