import Mathlib.Data.String.Basic
import Ugk.ForStd.Closure
import Ugk.ForStd.Latest
import Ugk.Native.Execute

/-!
# The will layer

`WillChecker` of `ugk/will.py`, the `IntentStore` of `ugk/intent.py`, and the session lifecycle of
`ugk/kernel.py`, which moves the scope declarations are active in.
-/

namespace Ugk

/-! ## `WillChecker` -/

namespace WillChecker

/-- `CoverageOutcome`: COVERED with the hash of a declaration, or OUTSIDE with a refusal code. -/
inductive CoverageOutcome where
  | covered (intentRef : String)
  | outside (refusalCode : String)
deriving DecidableEq

/-- The `while` loop of `_closure`, for at most `fuel` tests of its condition; `none` when they do not
    do. -/
def closureLoop (edges : List (String × List String)) (depth : Option Int) :
    Nat → Nat → List String → Option (List String)
  | 0, _, _ => none
  | fuel + 1, steps, covered =>
    if depth.all fun d => decide ((steps : Int) < d) then
      let new := Closure.fresh edges covered
      if new = [] then some covered else closureLoop edges depth fuel (steps + 1) (covered ++ new)
    else some covered

/-- `_closure`: all rounds, or `depth` of them.  A round for every target is enough. -/
def closure (edges : List (String × List String)) (depth : Option Nat) (seed : List String) :
    List String :=
  Closure.rounds edges (depth.getD (edges.flatMap Prod.snd).length) seed

/-- `sorted(declarations, key=lambda d: len(d.declared_ops))` -/
def smallestFirst (declarations : List IntentDeclaration) : List IntentDeclaration :=
  declarations.insertionSort fun a b => a.declaredOps.length ≤ b.declaredOps.length

/-- `_find_cover`: the smallest declaration with the op, or else the smallest one whose closure has
    it. -/
def findCover (op : String) (declarations : List IntentDeclaration)
    (edges : List (String × List String)) (depth : Option Nat) : String :=
  match (smallestFirst declarations).find? fun d => d.declaredOps.contains op with
  | some d => d.declarationHash
  | none =>
    match (smallestFirst declarations).find? fun d =>
      (closure edges depth d.declaredOps).contains op with
    | some d => d.declarationHash
    | none => ""

/-- `covers` -/
def covers (op : String) (declarations : List IntentDeclaration)
    (edges : List (String × List String) := []) (depth : Option Nat := none) : CoverageOutcome :=
  let seed := declarations.flatMap IntentDeclaration.declaredOps
  if seed = [] then .outside "WL-005"
  else if op ∈ closure edges depth seed then .covered (findCover op declarations edges depth)
  else .outside "WL-001"

end WillChecker

/-! ## `IntentStore` -/

namespace IntentStore

/-- `get` -/
def get (intents : List IntentDeclaration) (declarationHash : String) : Option IntentDeclaration :=
  intents.find? fun d => d.declarationHash == declarationHash

/-- `declare`: INSERT OR IGNORE, unrevoked. -/
def declare (d : IntentDeclaration) (intents : List IntentDeclaration) : List IntentDeclaration :=
  if (get intents d.declarationHash).isSome then intents else intents ++ [{ d with revoked := false }]

/-- `revoke`; nothing reads the `intent_revocations` table. -/
def revoke (declarationHash : String) (intents : List IntentDeclaration) :
    List IntentDeclaration :=
  intents.map fun d => if d.declarationHash = declarationHash then { d with revoked := true } else d

end IntentStore

/-! ## The scope archive -/

/-- The scope of an archive row. -/
def ArchiveRow.scope? : ArchiveRow → Option ProvenanceScope
  | .scope s => some s
  | _ => none

/-- The scopes stored for an authority surface. -/
def scopesFor (t : Tables) (surface : String) : List ProvenanceScope :=
  (t.archive.filterMap ArchiveRow.scope?).filter fun s => s.authoritySurface == surface

/-- What `latest_scope_id` may return: of the scopes of the latest second SQLite may choose any. -/
def LatestScopeId (t : Tables) (surface id : String) : Prop :=
  (scopesFor t surface = [] ∧ id = "") ∨
    ∃ s, Latest.IsLatest ProvenanceScope.timestamp (scopesFor t surface) s ∧ s.scopeId = id

/-- What `scopes_for_authority` may return: scopes of one second come in any order. -/
def ScopesForAuthority (t : Tables) (surface : String) (l : List ProvenanceScope) : Prop :=
  Latest.Ordered ProvenanceScope.timestamp (scopesFor t surface) l

/-! ## Sessions -/

namespace Kernel

/-- `mosaic_id` -/
def mosaicId (env : Env) (governorPubkey : String) : String :=
  (env.sha256 (strMsg governorPubkey)).hex

/-- The `session_dkn` of `spawn_session_identity`. -/
def spawnSessionIdentity (cfg : Config) (sessionId : String) : String :=
  (cfg.sha256 (strMsg
    (mosaicId cfg.toEnv cfg.governorPubkey ++ ":" ++ cfg.phaseCode ++ ":" ++ sessionId))).hex

/-- The arguments of the session_open receipt. -/
def sessionOpenArgs (cfg : Config) (k : Kernel) (sessionId : String) : Store.WriteArgs :=
  { op := "session_open"
    authority := k.authority
    parameters := strDict [("session_id", .str sessionId), ("session_dkn", .str k.sessionDkn),
      ("phase_code", .str cfg.phaseCode),
      ("authority_model_hash", .str ((k.authorityModel.map AuthorityModel.modelHash).getD "")),
      ("manifest_hash", .str k.manifestHash)]
    intent := some "session_open"
    jurisdiction := "kernel"
    sessionDkn := k.sessionDkn
    lawHash := k.lawHash
    legendHash := k.legendHash }

/-- `ProvenanceScope.create` -/
def createScope (env : Env) (k : Kernel) (priorScopeId timestamp : String) :
    Except Exc ProvenanceScope :=
  (bindingCanonicalJson env (strDict [("authority_surface", .str k.mosaicRoot),
    ("law_hash", .str k.lawHash), ("legend_hash", .str k.legendHash),
    ("prior_scope_id", .str priorScopeId), ("scope_type", .str "session"),
    ("session_dkn", .str k.sessionDkn), ("timestamp", .str timestamp)])).map fun body =>
      { scopeId := (env.sha256 (text body)).hex
        scopeType := "session"
        authoritySurface := k.mosaicRoot
        sessionDkn := k.sessionDkn
        lawHash := k.lawHash
        legendHash := k.legendHash
        priorScopeId := priorScopeId
        timestamp := timestamp }

variable (rt : Runtime)

/-- The scope of a session that has opened; nothing it raises gets out. -/
def emitScope (priorScopeId : String) : Proc World Exc Unit := do
  Proc.modify fun w => { w with kernel := { w.kernel with currentScopeId := "" } }
  let w ← Proc.get
  match createScope rt.toEnv w.kernel priorScopeId (rt.isoTime w.store.ticks) with
  | .error _ => pure ()
  | .ok scope =>
    onStore (Store.sealScope scope)
    Proc.modify fun w => { w with kernel := { w.kernel with currentScopeId := scope.scopeId } }

/-- `open_session`.  `uuid` is the session id it makes up when it is given none, `priorScopeId` what
    `latest_scope_id` finds: of the scopes of the latest second SQLite may choose any. -/
def openSession (sessionId : Option String) (uuid priorScopeId : String) :
    Proc World Exc String := do
  let sid := if sessionId.getD "" = "" then uuid else sessionId.getD ""
  Proc.modify fun w => { w with kernel := { w.kernel with
    sessionId := some sid
    sessionDkn := spawnSessionIdentity rt.toConfig sid
    sessionOpenCount := (Store.rows w.store).length } }
  let w ← Proc.get
  let _ ← write rt (sessionOpenArgs rt.toConfig w.kernel sid)
  emitScope rt priorScopeId
  pure sid

/-- The arguments of the session_close receipt. -/
def sessionCloseArgs (k : Kernel) : Store.WriteArgs :=
  { op := "session_close"
    authority := k.authority
    parameters := strDict [("session_id", k.sessionId.elim .none .str)]
    intent := some "session_close"
    jurisdiction := "kernel"
    sessionDkn := k.sessionDkn
    lawHash := k.lawHash
    legendHash := k.legendHash }

/-- `close_session`, up to its summary.  The session stays the current one. -/
def closeSession : Proc World Exc Unit := do
  let w ← Proc.get
  let _ ← write rt (sessionCloseArgs w.kernel)
  pure ()

/-! ## Steps -/

/-- A call on a kernel and its intent store.  `lands` is false when the database fails and the
    intent store swallows it. -/
inductive WillStep where
  | declare (d : IntentDeclaration) (lands : Bool)
  | revoke (declarationHash : String) (lands : Bool)
  | openSession (sessionId : Option String) (uuid priorScopeId : String)
  | closeSession
  | execute (a : ExecuteArgs)

/-- The world after a step, whatever the step returned or raised. -/
def WillStep.run : WillStep → World → World
  | .declare d lands, w =>
    if lands then { w with intents := w.intents.map (IntentStore.declare d) } else w
  | .revoke declarationHash lands, w =>
    if lands then { w with intents := w.intents.map (IntentStore.revoke declarationHash) } else w
  | .openSession sessionId uuid priorScopeId, w =>
    (Kernel.openSession rt sessionId uuid priorScopeId w).2
  | .closeSession, w => (Kernel.closeSession rt w).2
  | .execute a, w => (Kernel.execute rt a w).2

end Kernel

end Ugk
