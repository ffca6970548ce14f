import Ugk.Native.ProofModelB

/-!
# The incremental frontier verifier

`tools/grbsa/g6_proof_cache.py`: the cache of link verdicts and `verify_frontier`.  The file system is
given by what the paths lead to; the clock by the links before which the budget was found exhausted.
-/

namespace Ugk

namespace Continuity

open ReleaseBundle (asDict getOr canon)

/-- `CACHE_SCHEMA` -/
def cacheSchema : String := "ugk-g6-proof-cache/1"

/-- `_GENESIS_RUNTIME` -/
def genesisRuntime : List String := ["GENESIS_PRIVKEY.hex", "GENESIS_KEY.pub",
  "DEPLOYMENT_MANIFEST.json", "LAUNCH_IC.json", "VALIDATOR_SET.json"]

/-- Python's `%s` and `%r` of a value. -/
abbrev Format := ReleaseBundle.Format

/-- A cache file: `none` when there is none or it is no JSON text. -/
abbrev CacheFile := Option Json

variable (env : Env)

/-! ## The cache -/

/-- `link_body_hash` -/
def linkBodyHash (spec : PyDict) : Except Exc String :=
  (canon env (.dict spec)).map fun cs => (env.sha256 (text cs)).hex

/-- `_identity`, with the proof-model version. -/
structure Identity where
  label : String
  baselineSha256 : PyVal
  candidateSha256 : PyVal
  linkBodyHash : String

/-- The items of an identity. -/
def Identity.items (ident : Identity) : List (String × PyVal) :=
  [("label", .str ident.label), ("baseline_sha256", ident.baselineSha256),
    ("candidate_sha256", ident.candidateSha256), ("link_body_hash", .str ident.linkBodyHash),
    ("proof_model_version", .str proofModelVersion)]

/-- `_identity_key` -/
def identityKey (ident : Identity) : Except Exc String :=
  (canon env (.list (ident.items.map Prod.snd))).map String.ofList

/-- `entry_hash` -/
def entryHash (ident : Identity) (verdict path legs : PyVal) : Except Exc String :=
  (canon env (strDict [("identity", strDict ident.items), ("verdict", verdict), ("path", path),
    ("legs", legs)])).map fun cs => (env.sha256 (text cs)).hex

/-- `make_entry` -/
def makeEntry (ident : Identity) (verdict path legs : PyVal) : Except Exc PyVal := do
  let hash ← entryHash env ident verdict path legs
  .ok (strDict (ident.items ++ [("verdict", verdict), ("path", path), ("legs", legs),
    ("entry_hash", .str hash)]))

/-- A cache without entries. -/
def emptyCache : PyVal := strDict [("schema", .str cacheSchema),
  ("proof_model_version", .str proofModelVersion), ("entries", .dict [])]

/-- `load_cache`: a cache of another schema or version, or without an object of entries, is empty. -/
def loadCache (file : CacheFile) : PyDict :=
  let base := (emptyCache.dict?).getD []
  match file with
  | none => base
  | some j =>
    match ofJson env j with
    | .dict d =>
      match PyDict.get d "entries" with
      | .dict _ =>
        if (PyDict.get d "schema").isStr cacheSchema &&
            (PyDict.get d "proof_model_version").isStr proofModelVersion then d
        else base
      | _ => base
    | _ => base

/-- `cache_get` -/
def cacheGet (cache : PyDict) (ident : Identity) : Except Exc (Option PyDict) := do
  let key ← identityKey env ident
  let entries ← asDict (getOr cache "entries" (.dict []))
  let e := PyDict.get entries key
  if e.truthy then do
    let e ← asDict e
    if ident.items.all fun kv => pyEq env (PyDict.get e kv.1) kv.2 then do
      let hash ← entryHash env ident (PyDict.get e "verdict") (PyDict.get e "path")
        (PyDict.get e "legs")
      .ok (if (PyDict.get e "entry_hash").isStr hash then some e else none)
    else .ok none
  else .ok none

/-- `cache_put` -/
def cachePut (cache : PyDict) (ident : Identity) (entry : PyVal) : Except Exc PyDict := do
  let key ← identityKey env ident
  let entries ← asDict (getOr cache "entries" (.dict []))
  .ok (PyDict.set cache (.str "entries") (.dict (PyDict.set entries (.str key) entry)))

/-! ## Genesis contamination -/

variable {Bytes Tree : Type} (rt : Runtime Bytes Tree)

/-- A member that carries founding or key material. -/
def contaminated (name : String) : Bool :=
  let parts := ((px name).toList.splitOn '/').map String.ofList
  let base := (parts.getLast?).getD ""
  if parts.contains "genesis" then genesisRuntime.contains base || hasSuffix base ".hex"
  else hasStart base "GENESIS_PRIVKEY" || hasSuffix base ".hex"

/-- `archive_genesis_contamination` -/
def archiveGenesisContamination (archive : Bytes) : List String :=
  match rt.getnames archive with
  | .error e => ["<unreadable: " ++ e ++ ">"]
  | .ok names => ((names.filter contaminated).dedup).insertionSort (· ≤ ·)

/-! ## The frontier -/

inductive Verdict where
  | hold
  | fail
  | unfinished
deriving DecidableEq, Repr

def Verdict.text : Verdict → String
  | .hold => "HOLD"
  | .fail => "FAIL"
  | .unfinished => "UNFINISHED"

/-- What is reported of one link; what is not there was not set. -/
structure Item where
  label : String
  baseline : PyVal
  candidate : PyVal
  verdict : PyVal
  source : String
  identity : Option Identity := none
  path : Option PyVal := none
  legs : Option PyVal := none
  contamination : Option (List String) := none

/-- The checkpoint as the receipt describes it. -/
structure Attested where
  composed : String
  nLinks : Nat
  headCandidate : PyVal
  headCandidateSha256 : PyVal

/-- The frontier receipt, without the echo of the arguments. -/
structure Receipt where
  verdict : Verdict
  reasons : List String
  attested : Option Attested := none
  frontier : List Item := []

/-- The arguments of `verify_frontier`.  The attestation is absent, unreadable or a document; `late i`
    says that the budget is exhausted when the link `i` of the frontier is reached; the errors are the
    texts of what reading a file raised. -/
structure Inputs (Bytes : Type) where
  attestation : Option (Option Json)
  attestationError : String := ""
  surfaces : Option Json
  surfacesError : String := ""
  archives : Archives Bytes
  recompute : Bool
  late : Nat → Bool

/-- The state of the loop over the frontier. -/
structure Progress where
  cache : PyDict
  items : List Item := []
  reasons : List String := []
  anyFail : Bool := false
  anyUnfinished : Bool := false

namespace Progress

def append (p : Progress) (it : Item) : Progress := { p with items := p.items ++ [it] }

def fail (p : Progress) (reason : String) : Progress :=
  { p with reasons := p.reasons ++ [reason], anyFail := true }

def unfinished (p : Progress) (reason : String) : Progress :=
  { p with reasons := p.reasons ++ [reason], anyUnfinished := true }

end Progress

/-- An effective hash: that of the bytes when there are bytes, else the declared one. -/
def effectiveSha (bytes : Option Bytes) (declared : PyVal) : PyVal :=
  match bytes with
  | some b => .str (rt.sha256File b)
  | none => declared

variable (fmt : Format) (inputs : Inputs Bytes) (index : List (String × String))

/-- The link under an entry of the cache. -/
def fromCache (it : Item) (hit : PyDict) (p : Progress) : Except Exc Progress := do
  let verdict ← item hit "verdict"
  let p := p.append { it with
    verdict := verdict
    source := "cache"
    legs := some (PyDict.get hit "legs")
    path := some (PyDict.get hit "path") }
  .ok (if verdict.isStr "HOLD" then p
    else p.fail ("cached verdict for " ++ it.label ++ " is " ++ fmt.str verdict))

/-- The link recomputed over its two archives. -/
def recomputed (it : Item) (ident : Identity) (spec : PyDict) (base cand : Bytes) (p : Progress) :
    Except Exc Progress :=
  let contam := archiveGenesisContamination rt cand ++ archiveGenesisContamination rt base
  if contam ≠ [] then
    .ok ((p.append { it with
      verdict := .str "FAIL"
      source := "genesis_contamination"
      contamination := some (contam.take 10) }).fail
        (it.label ++ ": genesis/key contamination in archive: " ++ fmt.str (strList (contam.take 5))))
  else do
    let j ← evaluateLink rt inputs.archives spec index
    let verdict := PyVal.str (if j.verdict then "HOLD" else "FAIL")
    let entry ← makeEntry env ident verdict (.str j.path) j.legs
    let cache ← cachePut env p.cache ident entry
    let p := { (p.append { it with
      verdict := verdict
      source := "recompute"
      path := some (.str j.path)
      legs := some j.legs }) with cache := cache }
    .ok (if j.verdict then p
      else p.fail (it.label ++ ": behavioural recompute FAILED (path=" ++ j.path ++ " legs=" ++
        fmt.str j.legs ++ ")"))

/-- One link of the frontier. -/
def checkLink (label : String) (spec : PyDict) (p : Progress) : Except Exc Progress := do
  let baseArch ← resolveArch inputs.archives (PyDict.get spec "baseline_sha256")
    (PyDict.get spec "baseline") index
  let candArch ← resolveArch inputs.archives (PyDict.get spec "candidate_sha256")
    (PyDict.get spec "candidate") index
  let base ← readArchive inputs.archives baseArch
  let cand ← readArchive inputs.archives candArch
  let lbh ← linkBodyHash env spec
  let ident : Identity := {
    label := label
    baselineSha256 := effectiveSha rt base (PyDict.get spec "baseline_sha256")
    candidateSha256 := effectiveSha rt cand (PyDict.get spec "candidate_sha256")
    linkBodyHash := lbh }
  let it : Item := {
    label := label
    baseline := PyDict.get spec "baseline"
    candidate := PyDict.get spec "candidate"
    verdict := .none
    source := ""
    identity := some ident }
  let hit ← cacheGet env p.cache ident
  match hit with
  | some hit => fromCache fmt it hit p
  | none =>
    match base, cand, inputs.recompute with
    | some base, some cand, true => recomputed env rt fmt inputs index it ident spec base cand p
    | _, _, _ => .ok ((p.append { it with
        verdict := .str "UNFINISHED"
        source := "archives_absent" }).unfinished (label ++
          ": baseline/candidate archive absent — behavioural recompute deferred to full-audit"))

/-- The loop over the frontier; it stops at the first link for which there is no budget left. -/
def checkLinks : Nat → List (String × PyVal) → Progress → Except Exc Progress
  | _, [], p => .ok p
  | i, (label, spec) :: rest, p => do
    let spec ← asDict spec
    if inputs.late i then
      .ok ((p.append {
        label := label
        baseline := PyDict.get spec "baseline"
        candidate := PyDict.get spec "candidate"
        verdict := .str "UNFINISHED"
        source := "budget_exhausted" }).unfinished
          ("bounded budget exhausted before completing " ++ label))
    else do
      let p ← checkLink env rt fmt inputs index label spec p
      checkLinks (i + 1) rest p

/-- The links not yet attested. -/
def frontierOf (alinks : List PyDict) (links : PyDict) : List (String × PyVal) :=
  links.filterMap fun kv =>
    match kv.1 with
    | .str label =>
      if labelled (alinks.map fun a => PyDict.get a "label") (.str label) then none
      else some (label, kv.2)
    | _ => none

/-- `json.load(..)["links"]` -/
def surfaceLinks (surfaces : Option Json) : Option PyVal := do
  let j ← surfaces
  let d ← (ofJson env j).dict?
  d.lookup (.str "links")

/-- The verdict over a loop that came to its end. -/
def Progress.verdict (p : Progress) : Verdict :=
  if p.anyFail then .fail else if p.anyUnfinished then .unfinished else .hold

/-- `save_cache` to the file, where a path for one is given. -/
def saveCache (cache : PyDict) (file : Option CacheFile) : Except Exc (Option CacheFile) :=
  match file with
  | none => .ok none
  | some _ => (toJson env true (.dict cache)).map fun j => some (some j)

/-- The part behind a valid checkpoint; the cache is saved when it has a path. -/
def verifyLinks (attested : Attested) (frontier : List (String × PyVal)) (cache : Option CacheFile) :
    Except Exc (Receipt × Option CacheFile) := do
  let start : Progress := { cache := loadCache env (cache.getD none) }
  let p ← checkLinks env rt fmt inputs (contentIndex rt inputs.archives) 0 frontier start
  let saved ← saveCache env p.cache cache
  .ok ({ verdict := p.verdict, reasons := p.reasons, attested := some attested, frontier := p.items },
    saved)

/-- `verify_frontier`: the receipt, and the cache file afterwards when a path for one is given. -/
def verifyFrontier (cache : Option CacheFile) : Except Exc (Receipt × Option CacheFile) :=
  match surfaceLinks env inputs.surfaces with
  | none => .ok ({ verdict := .fail, reasons := ["surfaces unreadable: " ++ inputs.surfacesError] }, cache)
  | some links =>
    match inputs.attestation with
    | none => .ok ({ verdict := .fail, reasons :=
        ["attestation ABSENT (no rolling checkpoint to anchor the frontier)"] }, cache)
    | some none => .ok ({ verdict := .fail, reasons :=
        ["attestation unreadable: " ++ inputs.attestationError] }, cache)
    | some (some j) => do
      let att ← asDict (ofJson env j)
      let composed := fmt.str (getOr att "composed" (.str ""))
      let alinks ← attestedLinks (getOr att "links" (.list []))
      let head := (alinks.getLast?).getD []
      let attested : Attested := {
        composed := composed
        nLinks := alinks.length
        headCandidate := PyDict.get head "candidate"
        headCandidateSha256 := PyDict.get head "candidate_sha256" }
      if hasSubstring composed "HOLD" then do
        let ok ← verifyAttestation env alinks links
        if ok then do
          let links ← asDict links
          let frontier := frontierOf alinks links
          if frontier = [] then
            .ok ({ verdict := .hold
                   reasons := ["no unattested frontier (attestation covers head) -> HOLD"]
                   attested := some attested }, cache)
          else verifyLinks env rt fmt inputs attested frontier cache
        else .ok ({ verdict := .fail
                    reasons := ["attestation failed internal-consistency / content-chaining"]
                    attested := some attested }, cache)
      else .ok ({ verdict := .fail
                  reasons := ["attestation composed verdict is not HOLD: " ++ fmt.repr (.str composed)]
                  attested := some attested }, cache)

end Continuity

end Ugk
