import Ugk.Native.BindingM2
import Ugk.Native.Warrant

/-!
# Release bundles

`tools/grbsa/g6_bundle.py`: the sealed sections of a release-certification bundle and the consumer that
renders a verdict over a finished one.  A bundle is what `json.load` gives back for its file.

A check gives the reasons it finds, in order; the flag `fail` is set as soon as there is one.
-/

namespace Ugk

namespace ReleaseBundle

/-- `BUNDLE_SCHEMA` -/
def bundleSchema : String := "ugk-release-cert-bundle/1"

/-- `SECTION_NAMES` -/
def sectionNames : List String := ["conformance", "gates", "migration_receipts",
  "registry_identity", "hygiene", "continuity_frontier"]

/-- `EXPECTED_GRBSA_GATES` -/
def expectedGrbsaGates : List String := ["g1_core_shape_gate", "g1_separation_symmetry_gate",
  "g2_substrate_naming_gate", "g3_adapter_equivalence_gate", "g4a_adapter_generality_gate",
  "g4b_projection_adapter_gate", "g4c_explain_adapter_gate", "category_separation_gate",
  "g5_execution_adapter_gate"]

/-- `EXPECTED_MIGRATION_RECEIPTS` -/
def expectedMigrationReceipts : List String := ["migration_receipt_a1",
  "migration_receipt_determinism", "migration_receipt_projection", "migration_receipt_explain",
  "migration_receipt_execution"]

/-- The frame values a registry identity is compared with. -/
def frameKeys : List String := ["law", "schema", "legend", "codex", "adr_count", "registry_count"]

/-- Python's `%s` and `%r` of a value. -/
structure Format where
  str : PyVal → String
  repr : PyVal → String

/-! ## Python -/

/-- `raise AttributeError`, of a value that has no `get`. -/
def noGet : Exc := .userException "AttributeError"

/-- `d.get(k, default)` -/
def getOr (d : PyDict) (k : String) (default : PyVal) : PyVal := (d.lookup (.str k)).getD default

/-- `v.get` needs a dictionary. -/
def asDict : PyVal → Except Exc PyDict
  | .dict d => .ok d
  | _ => .error noGet

/-- A key as a value. -/
def keyVal : PyKey → PyVal
  | .none => .none
  | .bool b => .bool b
  | .int n => .int n
  | .float x => .float x
  | .str s => .str s
  | .other name => .other name

/-- What a `for` runs over. -/
def iterate : PyVal → Except Exc (List PyVal)
  | .list xs => .ok xs
  | .tuple xs => .ok xs
  | .dict d => .ok (d.map fun kv => keyVal kv.1)
  | .str s => .ok (s.toList.map fun c => .str (String.singleton c))
  | _ => .error (.typeError "object is not iterable")

/-- `set(v)`, as a list. -/
def toSet (v : PyVal) : Except Exc (List PyVal) := do
  let xs ← iterate v
  if xs.any PyVal.unhashable then .error (.typeError "unhashable type")
  else .ok xs

/-- The set has exactly these strings. -/
def sameSet (xs : List PyVal) (names : List String) : Bool :=
  (xs.all fun x => names.any fun n => x.isStr n) && names.all fun n => xs.any fun x => x.isStr n

/-- One reason, unless the condition holds. -/
def note (ok : Bool) (msg : String) : List String := if ok then [] else [msg]

/-! ## Hashes -/

variable (env : Env) (fmt : Format)

/-- `_canon` -/
def canon (v : PyVal) : Except Exc (List Char) := (toJson env true v).map (Json.render ⟨true, false⟩)

/-- `section_hash` -/
def sectionHash (sec : PyDict) : Except Exc String :=
  (canon env (.dict (PyDict.erase sec "section_hash"))).map fun cs => (env.sha256 (text cs)).hex

/-- `bundle.get("sections", {}).get(n, {}).get("section_hash")` -/
def sealOf (bundle : PyDict) (n : String) : Except Exc PyVal := do
  let sections ← asDict (getOr bundle "sections" (.dict []))
  let sec ← asDict (getOr sections n (.dict []))
  .ok (PyDict.get sec "section_hash")

/-- What the bundle hash is taken over. -/
def material (bundle : PyDict) (seals : List PyVal) : PyVal :=
  strDict [("schema", PyDict.get bundle "schema"), ("release", PyDict.get bundle "release"),
    ("archive_sha256", PyDict.get bundle "archive_sha256"),
    ("sections", strDict (sectionNames.zip seals))]

/-- `compute_bundle_hash` -/
def computeBundleHash (bundle : PyDict) : Except Exc String := do
  let seals ← sectionNames.mapM (sealOf bundle)
  let cs ← canon env (material bundle seals)
  .ok (env.sha256 (text cs)).hex

/-- `expectation_profile_hash` -/
def expectationProfileHash (gateIds : List String) : Except Exc String :=
  (canon env (strList (gateIds.insertionSort (· ≤ ·)))).map fun cs => (env.sha256 (text cs)).hex

/-! ## Structure and integrity -/

/-- `sorted(a - b)` for sets of strings. -/
def missing (a : List String) (b : List PyVal) : PyVal :=
  strList ((a.filter fun n => !b.any fun x => x.isStr n).insertionSort (· ≤ ·))

/-- The section set against the canonical one. -/
def checkSections (sections : PyDict) : List String :=
  let keys := sections.map fun kv => keyVal kv.1
  let extra := sections.filterMap fun kv =>
    match kv.1 with
    | .str s => if s ∈ sectionNames then none else some s
    | _ => none
  note (sameSet keys sectionNames) ("section set mismatch: missing=" ++
    fmt.str (missing sectionNames keys) ++ " extra=" ++ fmt.str (strList (extra.insertionSort (· ≤ ·))))

/-- One section's seal. -/
def checkSeal (sections : PyDict) (name : String) : Except Exc (List String) :=
  match PyDict.get sections name with
  | .dict sec =>
    if PyDict.has sec "section_hash" then do
      let h ← sectionHash env sec
      .ok (note ((PyDict.get sec "section_hash").isStr h)
        ("section " ++ name ++ " integrity hash mismatch (tampered or unsealed)"))
    else .ok ["section " ++ name ++ " missing section_hash"]
  | _ => .ok ["section " ++ name ++ " missing/not-an-object"]

/-- The structure, every seal and the bundle hash. -/
def checkIntegrity (bundle sections : PyDict) : Except Exc (List String) := do
  let seals ← sectionNames.mapM (checkSeal env sections)
  let h ← computeBundleHash env bundle
  .ok (checkSections fmt sections ++ seals.flatten ++
    note ((PyDict.get bundle "bundle_hash").isStr h)
      "bundle_hash mismatch (top-level tamper or stale section seal)")

/-! ## The sections -/

/-- The section of a bundle whose integrity was established. -/
def sectionOf (sections : PyDict) (name : String) : PyDict :=
  ((PyDict.get sections name).dict?).getD []

/-- Conformance against the live gates. -/
def checkConformance (conf : PyDict) (liveGates : List String) : Except Exc (List String) := do
  let profile ← expectationProfileHash env liveGates
  let ids ← toSet (getOr conf "gate_ids" (.list []))
  .ok (note (pyEq env (PyDict.get conf "count") (.int liveGates.length))
      ("conformance count " ++ fmt.str (PyDict.get conf "count") ++ " != live GATES " ++
        fmt.str (.int liveGates.length) ++ " (stale gate count)") ++
    note (sameSet ids liveGates) "conformance gate-id set does not match live GATES registry" ++
    note ((PyDict.get conf "expectation_profile_hash").isStr profile)
      "expectation profile hash drifted from live registry (stale expectation profile)" ++
    note ((PyDict.get conf "verdict").isStr "PASS")
      ("conformance verdict is not PASS: " ++ fmt.repr (PyDict.get conf "verdict")))

/-- The records of a summary, in order; their names have to be hashable. -/
def records (recs : PyVal) : Except Exc (List PyDict) := do
  let rs ← iterate recs
  rs.mapM fun r => do
    let d ← asDict r
    if (PyDict.get d "name").unhashable then .error (.typeError "unhashable type") else .ok d

/-- The record under a name: the last one of that name. -/
def byName (rs : List PyDict) (name : String) : Option PyDict :=
  rs.reverse.find? fun r => (PyDict.get r "name").isStr name

/-- One gate summary. -/
def checkGate (rs : List PyDict) (g : String) : List String :=
  match byName rs g with
  | none => ["GRBSA gate summary missing: " ++ g]
  | some r => note ((PyDict.get r "verdict").isStr "PASS") ("GRBSA gate " ++ g ++ " verdict is " ++
      fmt.repr (PyDict.get r "verdict") ++ " (exit=" ++ fmt.str (PyDict.get r "exit_code") ++ ")")

/-- `v is True` -/
def isTrue : PyVal → Bool
  | .bool b => b
  | _ => false

/-- One migration receipt summary. -/
def checkReceipt (rs : List PyDict) (m : String) : List String :=
  match byName rs m with
  | none => ["MigrationReceipt summary missing: " ++ m]
  | some r => note (isTrue (PyDict.get r "present")) ("MigrationReceipt " ++ m ++ " not present") ++
      note (isTrue (PyDict.get r "equivalent"))
        ("MigrationReceipt " ++ m ++ " equivalent != true: " ++ fmt.repr (PyDict.get r "equivalent"))

def checkGates (gates : PyDict) : Except Exc (List String) :=
  (records (getOr gates "gates" (.list []))).map fun rs => expectedGrbsaGates.flatMap (checkGate fmt rs)

def checkMigrationReceipts (receipts : PyDict) : Except Exc (List String) :=
  (records (getOr receipts "receipts" (.list []))).map fun rs =>
    expectedMigrationReceipts.flatMap (checkReceipt fmt rs)

/-- The registry identity against the values of the frame that are there. -/
def checkIdentity (ri frame : PyDict) : List String :=
  frameKeys.flatMap fun key =>
    if (PyDict.get frame key).isNone then []
    else note (pyEq env (PyDict.get ri key) (PyDict.get frame key)) ("registry " ++ key ++
      " drift: bundle=" ++ fmt.repr (PyDict.get ri key) ++ " expected=" ++
        fmt.repr (PyDict.get frame key))

/-- `expected_frame.get("archive_sha256") or bundle.get("archive_sha256")` -/
def expectedArchive (frame bundle : PyDict) : PyVal :=
  if (PyDict.get frame "archive_sha256").truthy then PyDict.get frame "archive_sha256"
  else PyDict.get bundle "archive_sha256"

def checkHygiene (hyg frame bundle : PyDict) : List String :=
  note ((PyDict.get hyg "hygiene_verdict").isStr "PASS")
      ("hygiene verdict is not PASS: " ++ fmt.repr (PyDict.get hyg "hygiene_verdict")) ++
    note ((PyDict.get hyg "nodrift_verdict").isStr "PASS")
      ("no-drift verdict is not PASS: " ++ fmt.repr (PyDict.get hyg "nodrift_verdict")) ++
    if (expectedArchive frame bundle).isNone then []
    else note (pyEq env (PyDict.get hyg "archive_sha256") (expectedArchive frame bundle))
      ("hygiene archive sha " ++ fmt.repr (PyDict.get hyg "archive_sha256") ++
        " != certified archive " ++ fmt.repr (expectedArchive frame bundle))

/-- The embedded receipt; a falsy one is an empty dictionary. -/
def frontierReceipt (cf : PyDict) : Except Exc PyDict :=
  if (PyDict.get cf "receipt").truthy then asDict (PyDict.get cf "receipt") else .ok []

/-- The candidate of the last link's identity. -/
def terminalCandidate : PyVal → Except Exc PyVal
  | .list xs =>
    match xs.getLast? with
    | some last => do
      let d ← asDict last
      let identity ← asDict (getOr d "identity" (.dict []))
      .ok (PyDict.get identity "candidate_sha256")
    | none => .error (.userException "IndexError")
  | .dict _ => .error (.userException "KeyError")
  | .str _ => .error noGet
  | _ => .error (.typeError "object is not subscriptable")

/-- What the frontier says it covers: the last link's candidate, or without links the attested
    head. -/
def frontierArchive (receipt : PyDict) : Except Exc PyVal :=
  if (getOr receipt "frontier" (.list [])).truthy then
    terminalCandidate (getOr receipt "frontier" (.list []))
  else do
    let attested ← asDict (getOr receipt "attested" (.dict []))
    .ok (PyDict.get attested "head_candidate_sha256")

/-- The staleness of the frontier, for a bundle that names an archive. -/
def checkStale (receipt : PyDict) (certSha : PyVal) : Except Exc (List String) :=
  if certSha.isNone then .ok []
  else do
    let covered ← frontierArchive receipt
    .ok (note (pyEq env covered certSha)
      (if (getOr receipt "frontier" (.list [])).truthy then "frontier terminal candidate " ++
        fmt.repr covered ++ " != certified archive " ++ fmt.repr certSha ++ " (stale frontier)"
      else "no frontier and attested head " ++ fmt.repr covered ++ " != certified archive " ++
        fmt.repr certSha ++ " (stale frontier)"))

def checkFrontier (cf : PyDict) (certSha : PyVal) : Except Exc (List String) := do
  let receipt ← frontierReceipt cf
  let stale ← checkStale env fmt receipt certSha
  .ok (note (pyEq env (PyDict.get cf "verdict") (PyDict.get receipt "verdict"))
    ("frontier section verdict " ++ fmt.repr (PyDict.get cf "verdict") ++
      " disagrees with embedded receipt " ++ fmt.repr (PyDict.get receipt "verdict")) ++ stale)

/-- Everything after the integrity checks. -/
def checkContents (bundle sections frame : PyDict) (liveGates : List String) :
    Except Exc (List String) := do
  let conf ← checkConformance env fmt (sectionOf sections "conformance") liveGates
  let gates ← checkGates fmt (sectionOf sections "gates")
  let receipts ← checkMigrationReceipts fmt (sectionOf sections "migration_receipts")
  let frontier ← checkFrontier env fmt (sectionOf sections "continuity_frontier")
    (PyDict.get bundle "archive_sha256")
  .ok (conf ++ gates ++ receipts ++
    checkIdentity env fmt (sectionOf sections "registry_identity") frame ++
    checkHygiene env fmt (sectionOf sections "hygiene") frame bundle ++ frontier)

/-! ## The verdict -/

inductive Verdict where
  | pass
  | fail
  | unfinished
deriving DecidableEq, Repr

/-- What `verify_bundle` returns; the last two members are not always there. -/
structure Report where
  verdict : Verdict
  reasons : List String
  release : Option PyVal := none
  archiveSha256 : Option PyVal := none

/-- The verdict over contents without a reason: that of the frontier. -/
def propagate (fv : PyVal) : Verdict × List String :=
  if fv.isStr "HOLD" then (.pass, [])
  else if fv.isStr "UNFINISHED" then
    (.unfinished, ["continuity frontier UNFINISHED (bounded recompute incomplete)"])
  else (.fail, ["continuity frontier verdict is " ++ fmt.repr fv])

/-- `verify_bundle` of a bundle that was loaded. -/
def verifyLoaded (bundle : PyDict) (liveGates : List String) (frame : PyDict) :
    Except Exc Report :=
  if (PyDict.get bundle "schema").isStr bundleSchema then do
    let sections ← asDict (getOr bundle "sections" (.dict []))
    let integrity ← checkIntegrity env fmt bundle sections
    if integrity ≠ [] then
      .ok { verdict := .fail, reasons := integrity, release := some (PyDict.get bundle "release") }
    else
      let reasons ← checkContents env fmt bundle sections frame liveGates
      let fv := PyDict.get (sectionOf sections "continuity_frontier") "verdict"
      let result := if reasons = [] then propagate fmt fv else (.fail, reasons)
      .ok {
        verdict := result.1
        reasons := result.2
        release := some (PyDict.get bundle "release")
        archiveSha256 := some (PyDict.get bundle "archive_sha256") }
  else .ok {
    verdict := .fail
    reasons := ["wrong bundle schema: " ++ fmt.repr (PyDict.get bundle "schema")] }

/-- `verify_bundle`; a file that is no JSON text is `none`, with the reason `error`. -/
def verifyBundle (file : Option Json) (error : String) (liveGates : List String) (frame : PyDict) :
    Except Exc Report :=
  match file with
  | none => .ok { verdict := .fail, reasons := ["bundle unreadable: " ++ error] }
  | some j => do
    let bundle ← asDict (ofJson env j)
    verifyLoaded env fmt bundle liveGates frame

end ReleaseBundle

end Ugk
