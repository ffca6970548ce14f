import Ugk.Native.Kernel

/-!
# The W/G/E reactor

`GovernanceKernel.execute` of `ugk/kernel.py` with the checks it makes on its way: the op tiers of
`ugk/schema.py`, the capability policy of `ugk/cgp/capability_sufficiency.py`, the intent coverage
of `ugk/intent.py` and `ugk/will.py`, and the two external trails.

Effects and gates are arbitrary procedures on the world.  What an effect raises is marked on its way
out, which Python does not do: the mark is for statements about where an exception came from.
-/

namespace Ugk

/-! ## Exceptions -/

/-- The exception itself, without the marks of the effects it came through. -/
def Exc.origin : Exc → Exc
  | .fromEffect e => e.origin
  | e => e

/-- `isinstance(e, ExternalEffectNotPerformed)` -/
def Exc.isNotPerformed (e : Exc) : Bool := e.origin matches .externalEffectNotPerformed _

/-- `isinstance(e, TransactionCommitError)` -/
def Exc.isCommitError (e : Exc) : Bool := e.origin matches .transactionCommitError _

namespace Kernel

/-! ## Ops -/

/-- `_KERNEL_OPS` -/
def kernelOps : List String := ["gate_admit", "gate_refuse"]

/-- `_UNIVERSAL_OPS` -/
def universalOps : List String :=
  ["session_open", "session_close", "crp_evidence", "test_checkpoint", "legend_seal",
    "session_summary"]

/-- `op in GOVERNANCE_OPS` -/
def declared (cfg : Config) (op : String) : Bool := op ∈ universalOps ∨ op ∈ cfg.applicationOps

/-- An op of the deployment: neither kernel-internal nor universal. -/
def isApplication (op : String) : Bool := op ∉ kernelOps ∧ op ∉ universalOps

/-! ## The call -/

/-- The arguments of `execute`, with its defaults.  The types are the ones its annotations promise,
    except where it checks them itself. -/
structure ExecuteArgs where
  op : String
  authority : PyVal := .none
  parameters : PyVal := .none
  gate : Option (Proc World Exc Bool) := none
  effect : Option (Proc World Exc PyVal) := none
  effectAtomicity : Option EffectAtomicity := none
  idempotencyKey : PyVal := .none
  gateMargin : PyVal := .none
  layer : String := "I"
  jurisdiction : String := "session"
  governorSig : Option String := none
  warrantBasis : PyVal := .none
  intentRef : Option String := none
  authoritySet : PyVal := .none
  capabilityVerdicts : Option PyDict := none
  requiredLocality : Option String := none

/-! ## Preflight -/

/-- `"%s" % k` -/
def keyName : PyKey → String
  | .none => "None"
  | .bool b => if b then "True" else "False"
  | .int n => String.ofList (Json.intText n)
  | .float (.fin x) => String.ofList x.text
  | .float (.nonFinite .nan) => "nan"
  | .float (.nonFinite .posInf) => "inf"
  | .float (.nonFinite .negInf) => "-inf"
  | .str s => s
  | .other name => name

/-- The refusal of a float. -/
def floatPresent (op path : String) : Exc :=
  .protocolError op ("float_present: non-integer number at " ++ path ++ " is banned by " ++
    "CK-CANON-0.1 (use an integer in a declared unit or a [num,den] integer pair)")

mutual

/-- `_reject_floats_in_governance_input` -/
def rejectFloats (op path : String) : PyVal → Except Exc Unit
  | .float _ => .error (floatPresent op path)
  | .dict kvs => rejectFloatsItems op path kvs
  | .list xs => rejectFloatsList op path 0 xs
  | .tuple xs => rejectFloatsList op path 0 xs
  | _ => .ok ()
termination_by structural v => v

/-- Its loop over the elements of a sequence. -/
def rejectFloatsList (op path : String) (i : Nat) : List PyVal → Except Exc Unit
  | [] => .ok ()
  | x :: xs =>
    match rejectFloats op (path ++ "[" ++ String.ofList (Json.intText i) ++ "]") x with
    | .error e => .error e
    | .ok () => rejectFloatsList op path (i + 1) xs
termination_by structural xs => xs

/-- Its loop over the items of a dictionary. -/
def rejectFloatsItems (op path : String) : List (PyKey × PyVal) → Except Exc Unit
  | [] => .ok ()
  | m :: ms =>
    match rejectFloatsItem op path m with
    | .error e => .error e
    | .ok () => rejectFloatsItems op path ms
termination_by structural ms => ms

/-- One item. -/
def rejectFloatsItem (op path : String) : PyKey × PyVal → Except Exc Unit
  | (k, v) => rejectFloats op (path ++ "." ++ keyName k) v
termination_by structural m => m

end

/-- The elements of a list or a tuple. -/
def sequence? : PyVal → Option (List PyVal)
  | .list xs => some xs
  | .tuple xs => some xs
  | _ => none

/-- The authority of the receipts. -/
def checkAuthority (k : Kernel) (op : String) : PyVal → Except Exc String
  | .none => .ok k.authority
  | .str s => if s = "" then .error (.protocolError op "authority must be a non-empty string")
      else .ok s
  | _ => .error (.protocolError op "authority must be a non-empty string")

def checkParameters (env : Env) (op : String) (parameters : PyVal) : Except Exc PyDict := do
  let d ← match parameters with
    | .none => .ok []
    | .dict d => .ok d
    | _ => .error (.protocolError op "parameters must be a dict or None")
  match paramsJson env (.dict d) with
  | .error _ => .error (.protocolError op "parameters not JSON-serializable")
  | .ok _ =>
    rejectFloats op "parameters" (.dict d)
    .ok d

def checkWarrantBasis (env : Env) (op : String) (basis : PyVal) : Except Exc Unit :=
  if basis.isNone then .ok ()
  else
    match sequence? basis with
    | none => .error (.protocolError op "warrant_basis must be a list")
    | some xs =>
      match pySorted env xs with
      | .error _ => .error (.protocolError op "warrant_basis is not sortable")
      | .ok _ => .ok ()

def checkAuthoritySet (env : Env) (op : String) (authoritySet : PyVal) : Except Exc Unit :=
  if authoritySet.isNone then .ok ()
  else
    match sequence? authoritySet with
    | none => .error (.protocolError op "authority_set must be a list")
    | some xs =>
      match paramsJson env (strDict [("authority_set", .list xs)]) with
      | .error _ => .error (.protocolError op "authority_set not JSON-serializable")
      | .ok _ => .ok ()

/-- A non-empty string. -/
def isKey : PyVal → Bool
  | .str s => s != ""
  | _ => false

/-- An effect declares its class, and an external one carries a key. -/
def checkEffect (a : ExecuteArgs) : Except Exc Unit :=
  if a.effect.isNone then .ok ()
  else
    match a.effectAtomicity with
    | none => .error (.protocolError a.op
        "effect supplied without an EffectAtomicity declaration; undeclared effects fail closed (r102-a / AD-37)")
    | some .externalReversible => if isKey a.idempotencyKey then .ok () else
        .error (.protocolError a.op
          "EXTERNAL_REVERSIBLE requires a non-empty idempotency_key for the forward effect (r132/AD-55; a missing key fails closed before gate_admit)")
    | some .externalIrreversible => if isKey a.idempotencyKey then .ok () else
        .error (.protocolError a.op
          "EXTERNAL_IRREVERSIBLE requires a non-empty idempotency_key (r115/AD-44; no auto-retry; a missing key fails closed before gate_admit)")
    | some _ => .ok ()

/-- The protocol boundary: the authority and the parameters of the receipts. -/
def preflight (env : Env) (k : Kernel) (a : ExecuteArgs) : Except Exc (String × PyDict) := do
  let authority ← checkAuthority k a.op a.authority
  let parameters ← checkParameters env a.op a.parameters
  checkWarrantBasis env a.op a.warrantBasis
  checkAuthoritySet env a.op a.authoritySet
  checkEffect a
  .ok (authority, parameters)

variable (rt : Runtime)

/-! ## Structural rejections -/

/-- The message a Governor signs. -/
def governorMessage (env : Env) (op : String) (parameters : PyDict) : Except Exc (List Char) :=
  bindingCanonicalJson env (strDict [("op", .str op), ("parameters", .dict parameters)])

/-- Reject with a protocol-error receipt. -/
def rejectWith (op reason authority : String) (e : Exc) : Proc World Exc Unit := do
  emitProtocolError rt op reason authority
  Proc.raise e

/-- Steps 1, 2 and 2b. -/
def checkTier (k : Kernel) (a : ExecuteArgs) (authority : String) (parameters : PyDict) :
    Proc World Exc Unit := do
  if a.op ∈ kernelOps then
    rejectWith rt a.op "kernel_internal" authority (.kernelInternalOp a.op)
  else if a.op ∉ universalOps ∧ k.active = false then
    rejectWith rt a.op "not_founded" authority (.governanceNotFounded a.op)
  else if k.requireGovernorSig ∧ a.op ∉ universalOps ∧ k.active then
    match a.governorSig with
    | none =>
      rejectWith rt a.op "governor_sig" authority
        (.governorSignatureRequired a.op "no signature provided")
    | some sig =>
      let msg ← Proc.lift (governorMessage rt.toEnv a.op parameters)
      if rt.verifyGovernor msg sig then pure ()
      else
        rejectWith rt a.op "governor_sig" authority
          (.governorSignatureRequired a.op "signature verification failed")
  else pure ()

/-- Step 3. -/
def checkDeclared (a : ExecuteArgs) (authority : String) : Proc World Exc Unit :=
  if declared rt.toConfig a.op then pure ()
  else rejectWith rt a.op "undeclared" authority (.undeclaredOp a.op)

/-- The authority model, for the ops it governs. -/
def governingModel (k : Kernel) (op : String) : Option AuthorityModel :=
  if isApplication op then k.authorityModel else none

/-- What the authority model requires of the call. -/
def checkAuthorityModel (k : Kernel) (a : ExecuteArgs) (authority : String) : Proc World Exc Unit :=
  match governingModel k a.op with
  | none => pure ()
  | some am =>
    if am.requireGate ∧ a.gate.isNone then
      rejectWith rt a.op "require_gate" authority (.kernelInternalOp "require_gate=True")
    else if am.requireWarrant ∧ a.warrantBasis.truthy = false then
      rejectWith rt a.op "require_warrant" authority (.kernelInternalOp "require_warrant=True")
    else pure ()

/-! ## Refusals -/

/-- The arguments of a gate_refuse receipt. -/
def refuseArgs (k : Kernel) (authority : String) (parameters : List (String × PyVal)) :
    Store.WriteArgs :=
  { op := "gate_refuse"
    authority := authority
    parameters := strDict parameters
    failed := true
    intent := some "gate_refuse"
    jurisdiction := "kernel"
    sessionDkn := k.sessionDkn
    lawHash := k.lawHash }

/-- `self._refused_by_layer[layer] += 1`, for a layer that is there. -/
def countRefusal (layer : String) : Proc World Exc Unit :=
  Proc.modify fun w => { w with kernel := { w.kernel with
    refusedByLayer := w.kernel.refusedByLayer.map fun x =>
      if x.1 = layer then (x.1, x.2 + 1) else x } }

/-- A refusal with its receipt. -/
def refuseWith (layer authority : String) (parameters : List (String × PyVal)) (e : Exc) :
    Proc World Exc Unit := do
  let w ← Proc.get
  let _ ← write rt (refuseArgs w.kernel authority parameters)
  countRefusal layer
  Proc.raise e

/-- The refusal warrant of a caller that declared a basis; nothing it raises gets out. -/
def refusalWarrant (basis : PyVal) : Proc World Exc Unit := fun w =>
  match sequence? basis, w.warrants with
  | some xs, some rows =>
    match DecisionWarrant.create rt.toEnv xs w.kernel.lawHash w.kernel.legendHash
      (rt.isoTime w.store.ticks) resultRefuse with
    | .ok rw => (.ok (), { w with warrants := some (writeWarrant rt.toEnv rows rw).2 })
    | .error _ => (.ok (), w)
  | _, _ => (.ok (), w)

/-- Step 4. -/
def evaluateGate (a : ExecuteArgs) (authority : String) (parameters : PyDict) :
    Proc World Exc Unit :=
  match a.gate with
  | none => pure ()
  | some gate => do
    match ← Proc.attempt gate with
    | .error _ =>
      rejectWith rt a.op "gate_exception" authority (.protocolError a.op "gate callable raised")
    | .ok true => pure ()
    | .ok false =>
      let w ← Proc.get
      let _ ← write rt (refuseArgs w.kernel authority
        [("op", .str a.op), ("parameters", .dict parameters)])
      countRefusal a.layer
      refusalWarrant rt a.warrantBasis
      Proc.raise (.gateRefusal a.op "gate returned False")

/-- The capability class of the enumerated scopes. -/
def capabilityClass : String := "fail_closed_governance"

/-- `find_enforced_entry` of `CAPABILITY_SUFFICIENCY_POLICY`, whose entries name one class. -/
def findEnforcedEntry (jurisdiction op : String) : Bool :=
  jurisdiction = "external-consequential" ∧
    op ∈ ["authority_model_set", "namespace_allocate", "namespace_delegate", "namespace_revoke"]

/-- `enforce_decision` for an enumerated entry, which permits neither a waiver nor a construction:
    only a proven capability is sufficient. -/
def capabilityRefused (verdicts : Option PyDict) : Bool :=
  !((PyDict.get (verdicts.getD []) capabilityClass).isStr "PROVEN")

/-- Step 4a. -/
def checkCapability (a : ExecuteArgs) (authority : String) (parameters : PyDict) :
    Proc World Exc Unit :=
  if findEnforcedEntry a.jurisdiction a.op ∧ capabilityRefused a.capabilityVerdicts then
    refuseWith rt a.layer authority [("op", .str a.op), ("parameters", .dict parameters),
      ("refusal_cause", .str "insufficient-capability"),
      ("capability_class", .str capabilityClass), ("enforced_jurisdiction", .str a.jurisdiction),
      ("refusal_axis", .str "authority"), ("refusal_reason", .str "authority_missing")]
      (.gateRefusal a.op "authority_missing")
  else pure ()

/-- Step 4c. -/
def checkLocality (a : ExecuteArgs) (authority : String) (parameters : PyDict) :
    Proc World Exc Unit :=
  match a.requiredLocality with
  | none => pure ()
  | some locality =>
    if a.jurisdiction = locality then pure ()
    else refuseWith rt a.layer authority [("op", .str a.op), ("parameters", .dict parameters),
      ("required_locality", .str locality), ("supplied_jurisdiction", .str a.jurisdiction),
      ("refusal_axis", .str "locality"), ("refusal_reason", .str "locality_required")]
      (.gateRefusal a.op "locality_required")

/-! ## Intent coverage -/

/-- `active_declarations` -/
def activeDeclarations (intents : List IntentDeclaration) (scopeRef : String) :
    List IntentDeclaration :=
  intents.filter fun d => !d.revoked && (d.scopeRef == "" || d.scopeRef == scopeRef)

/-- `WillChecker().covers(op, declarations)`, without production edges: the reference of the
    smallest declaration with the op, or the code of the refusal. -/
def covers (op : String) (declarations : List IntentDeclaration) : Except String String :=
  if declarations.all fun d => d.declaredOps.isEmpty then .error "WL-005"
  else
    match (declarations.insertionSort fun a b => a.declaredOps.length ≤ b.declaredOps.length).find?
      fun d => d.declaredOps.contains op with
    | some d => .ok d.declarationHash
    | none => .error "WL-001"

/-- The intent refusal. -/
def refuseIntent (op reason : String) : Proc World Exc String := do
  let w ← Proc.get
  let _ ← write rt { refuseArgs w.kernel w.kernel.authority [("op", .str op), ("reason", .str reason),
      ("refusal_axis", .str "intent"), ("refusal_reason", .str "intent_required_missing")] with
    intent := some "conform"
    legendHash := w.kernel.legendHash }
  Proc.raise (.gateRefusal op "intent_required_missing")

/-- What the intent store says about the call: the reference of its receipts, or the code of the
    refusal. -/
def intentCoverage (k : Kernel) (intents : List IntentDeclaration) (a : ExecuteArgs) :
    Except String String :=
  let active := activeDeclarations intents k.sessionDkn
  let active := if k.requireScopedIntent then active.filter fun d => d.scopeRef != "" else active
  let ref := a.intentRef.getD ""
  if ref ≠ "" then
    match intents.find? fun d => d.declarationHash == ref with
    | some d =>
      if d.declaredOps.contains a.op then .ok ref
      else if k.requireIntent then .error "WL-002 intent_ref unresolvable"
      else .ok ref
    | none => if k.requireIntent then .error "WL-002 intent_ref unresolvable" else .ok ref
  else
    match covers a.op active with
    | .ok found => .ok found
    | .error code => if k.requireIntent then .error code else .ok ref

/-- Step 4b: the intent reference of the receipts. -/
def resolveIntent (a : ExecuteArgs) : Proc World Exc String := do
  let w ← Proc.get
  match w.intents with
  | none => pure (a.intentRef.getD "")
  | some intents =>
    if isApplication a.op then
      match intentCoverage w.kernel intents a with
      | .ok ref => pure ref
      | .error code => refuseIntent rt a.op code
    else pure (a.intentRef.getD "")

/-! ## Admission -/

/-- The typed descriptor of a declared effect. -/
def effectColumns (a : ExecuteArgs) : Option EffectDescriptor :=
  if a.effect.isSome then a.effectAtomicity.map atomicityColumns else none

/-- The arguments of the gate_admit receipt. -/
def admitArgs (k : Kernel) (a : ExecuteArgs) (authority : String) (parameters : PyDict) :
    Store.WriteArgs :=
  { op := "gate_admit"
    authority := authority
    parameters := strDict ([("op", .str a.op), ("parameters", .dict parameters)] ++
      if a.gateMargin.isNone then [] else [("gate_margin", a.gateMargin)])
    intent := some "gate_admit"
    jurisdiction := "kernel"
    sessionDkn := k.sessionDkn
    lawHash := k.lawHash
    legendHash := k.legendHash
    effectColumns := effectColumns a }

/-- Step 5: the root of the admission. -/
def gateAdmission (a : ExecuteArgs) (authority : String) (parameters : PyDict) : Proc World Exc String := do
  let w ← Proc.get
  let receipt ← write rt (admitArgs w.kernel a authority parameters)
  pure receipt.hR

/-- The warrant of an admission: its hash, or what went wrong.  The rows of the warrant store may
    have grown either way. -/
def createWarrant (basis : List PyVal) (requireWarrant : Bool) (w : World) :
    Except Exc String × Option (List WarrantRow) :=
  match DecisionWarrant.create rt.toEnv basis w.kernel.lawHash w.kernel.legendHash
    (rt.isoTime w.store.ticks) resultAdmit with
  | .error e => (.error e, w.warrants)
  | .ok warrant =>
    match w.warrants with
    | none => (if requireWarrant then .error (.runtimeError "no WarrantStore attached") else .ok "",
        none)
    | some rows =>
      match writeWarrant rt.toEnv rows warrant with
      | (.error e, rows') => (.error e, some rows')
      | (.ok (), rows') =>
        match getWarrant rt.toEnv rows' warrant.warrantHash with
        | .error e => (.error e, some rows')
        | .ok none => (.error (.runtimeError "warrant write not durably readable"), some rows')
        | .ok (some _) => (.ok warrant.warrantHash, some rows')

/-- The warrant id of the outcome receipts.  Under `require_warrant` a warrant that does not
    materialize is an error, elsewhere there is none. -/
def materializeWarrant (am : Option AuthorityModel) (a : ExecuteArgs) : Proc World Exc String :=
    fun w =>
  match sequence? a.warrantBasis with
  | none => (.ok "", w)
  | some basis =>
    let requireWarrant := am.any AuthorityModel.requireWarrant
    match createWarrant rt basis requireWarrant w with
    | (.ok warrantId, rows) => (.ok warrantId, { w with warrants := rows })
    | (.error _, rows) =>
      if requireWarrant then
        (.error (.kernelInternalOp "warrant materialization failed under require_warrant=True"),
          { w with warrants := rows })
      else (.ok "", { w with warrants := rows })

/-! ## Outcomes -/

/-- The parameters of the outcome receipts. -/
def outcomeParams (k : Kernel) (a : ExecuteArgs) (parameters : PyDict) : PyDict :=
  let p := match sequence? a.authoritySet with
    | some (x :: xs) => PyDict.set parameters (.str "authority_set") (.list (x :: xs))
    | _ => parameters
  match k.opCsilRegistry.lookup a.op with
  | some n => if n = 0 then p else PyDict.set p (.str "op_csil") (.int n)
  | none => p

/-- What every later receipt of the call carries. -/
structure Admission where
  authority : String
  parameters : PyDict
  outcomeParams : PyDict
  intentRef : String
  admitRef : String
  warrantId : String

/-- The arguments of the success receipt. -/
def successArgs (k : Kernel) (a : ExecuteArgs) (adm : Admission) : Store.WriteArgs :=
  { op := a.op
    authority := adm.authority
    parameters := .dict adm.outcomeParams
    intent := some a.op
    jurisdiction := a.jurisdiction
    sessionDkn := k.sessionDkn
    lawHash := k.lawHash
    legendHash := k.legendHash
    warrantId := adm.warrantId
    intentRef := adm.intentRef
    effectColumns := effectColumns a }

/-- Run an effect, and mark what it raises. -/
def runEffect (effect : Proc World Exc PyVal) : Proc World Exc PyVal :=
  Proc.mapError .fromEffect effect

/-- `_execute_external_irreversible` and `_execute_external_reversible`: PREPARE, the effect, and its
    terminal.  An exception that proves nothing leaves no terminal. -/
def executeExternal (pr : Protocol) (t : Trail) (admitRef : String)
    (effect : Proc World Exc PyVal) : Proc World Exc PyVal := do
  let prepare ← emitPhase rt pr t { phase := "prepare", gateAdmitRef := some admitRef }
  match ← Proc.attempt (runEffect effect) with
  | .ok result =>
    let _ ← terminalDurable rt pr t { phase := "commit", prepareRef := some prepare.hR }
    pure result
  | .error e =>
    if e.isNotPerformed then
      let _ ← terminalDurable rt pr t {
        phase := "abort"
        failed := true
        prepareRef := some prepare.hR
        abortReason := some "external_effect_not_performed" }
      Proc.raise e
    else Proc.raise e

/-- The trail of an external effect. -/
def externalTrail (a : ExecuteArgs) (adm : Admission) : Trail :=
  { op := a.op
    authority := adm.authority
    baseParams := adm.outcomeParams
    idempotencyKey := a.idempotencyKey.str?
    jurisdiction := a.jurisdiction
    intentRef := adm.intentRef
    warrantId := adm.warrantId }

/-- The body of the seam, with the phase it has reached. -/
def seamBody (a : ExecuteArgs) (adm : Admission) (effect : Proc World Exc PyVal) :
    Proc (World × String) Exc PyVal := do
  let result ← Proc.besides (runEffect effect)
  Proc.modify fun x => (x.1, "success_receipt")
  let x ← Proc.get
  let _ ← Proc.besides (write rt (successArgs x.1.kernel a adm))
  pure result

/-- The classified reason of a structural abort. -/
def abortReason (e : Exc) (phase : String) : String :=
  if e.isCommitError then "commit_release_failure"
  else if phase = "effect" then "effect_failure"
  else "success_receipt_failure"

/-- PURE and STORE_LOCAL: the effect and the success receipt in one transaction, or an abort. -/
def executeSeam (a : ExecuteArgs) (adm : Admission) (ea : EffectAtomicity)
    (effect : Proc World Exc PyVal) : Proc World Exc PyVal := do
  let (outcome, phase) ← Proc.withLocal "effect"
    (Store.transaction (fun m => Proc.besides (onStore m)) (seamBody rt a adm effect))
  match outcome with
  | .ok result => pure result
  | .error e =>
    emitEffectAbort rt a.op adm.authority adm.parameters (some ea) (abortReason e phase)
      a.jurisdiction adm.intentRef adm.admitRef
    Proc.raise e

/-- The arguments of the failure receipt of the legacy path. -/
def failureArgs (k : Kernel) (a : ExecuteArgs) (adm : Admission) : Store.WriteArgs :=
  { op := a.op
    authority := adm.authority
    parameters := .dict adm.parameters
    failed := true
    intent := some a.op
    jurisdiction := a.jurisdiction
    sessionDkn := k.sessionDkn
    lawHash := k.lawHash }

/-- The legacy order: the success receipt, then the effect. -/
def executeLegacy (a : ExecuteArgs) (adm : Admission) : Proc World Exc PyVal := do
  let w ← Proc.get
  let _ ← write rt (successArgs w.kernel a adm)
  match a.effect with
  | none => pure .none
  | some effect =>
    match ← Proc.attempt (runEffect effect) with
    | .ok result => pure result
    | .error e =>
      let w ← Proc.get
      let _ ← write rt (failureArgs w.kernel a adm)
      Proc.raise e

/-- Step 6: the outcome, by effect class. -/
def outcome (a : ExecuteArgs) (adm : Admission) : Proc World Exc PyVal :=
  match a.effect, a.effectAtomicity with
  | some effect, some .externalReversible =>
    executeExternal rt .reversible (externalTrail a adm) adm.admitRef effect
  | some effect, some .externalIrreversible =>
    executeExternal rt .irreversible (externalTrail a adm) adm.admitRef effect
  | some effect, some .pure => executeSeam rt a adm .pure effect
  | some effect, some .storeLocal => executeSeam rt a adm .storeLocal effect
  | _, _ => executeLegacy rt a adm

/-! ## `execute` -/

/-- The refusal horizon: everything that is checked before the admission. -/
def refusalHorizon (a : ExecuteArgs) (authority : String) (parameters : PyDict) :
    Proc World Exc String := do
  let w ← Proc.get
  checkTier rt w.kernel a authority parameters
  checkDeclared rt a authority
  checkAuthorityModel rt w.kernel a authority
  evaluateGate rt a authority parameters
  checkCapability rt a authority parameters
  checkLocality rt a authority parameters
  resolveIntent rt a

/-- Everything from the admission on. -/
def admitted (am : Option AuthorityModel) (a : ExecuteArgs) (authority : String)
    (parameters : PyDict) (intentRef : String) : Proc World Exc PyVal := do
  let admitRef ← gateAdmission rt a authority parameters
  let warrantId ← materializeWarrant rt am a
  let w ← Proc.get
  outcome rt a {
    authority := authority
    parameters := parameters
    outcomeParams := outcomeParams w.kernel a parameters
    intentRef := intentRef
    admitRef := admitRef
    warrantId := warrantId }

/-- `execute` -/
def execute (a : ExecuteArgs) : Proc World Exc PyVal := do
  let w ← Proc.get
  let (authority, parameters) ← Proc.lift (preflight rt.toEnv w.kernel a)
  let intentRef ← refusalHorizon rt a authority parameters
  admitted rt (governingModel w.kernel a.op) a authority parameters intentRef

end Kernel

end Ugk
