import Ugk.Native.ReleaseBundle

/-!
# Continuity of two archives

`tools/grbsa/proof_model_b.py`: release archives found by content, the attested chain, and the verdict
on one link.  What runs outside of the module, the extraction of an archive and the processes started
over the extracted tree, is a `Runtime` of functions.
-/

namespace Ugk

namespace Continuity

open ReleaseBundle (iterate asDict getOr noGet)

/-- `PROOF_MODEL_VERSION` -/
def proofModelVersion : String := "ContinuityB/proof_model_b/v2"

/-! ## Archives -/

/-- What a path leads to. -/
inductive Node (Bytes : Type) where
  | file (bytes : Bytes)
  | unreadable

/-- The archive directory: the names `os.listdir` gives, and what a name leads to. -/
structure Archives (Bytes : Type) where
  listing : List String
  node : String → Option (Node Bytes)

/-- `_frame_triad` -/
structure Triad where
  lawHash : String
  legendHash : String
  schemaHash : String
deriving DecidableEq

/-- What is taken from `tarfile`, from `hashlib` and from the processes over an extracted tree. -/
structure Runtime (Bytes Tree : Type) where
  /-- `_sha256_file` -/
  sha256File : Bytes → String
  /-- `tarfile.open(..).getnames()`, or the text of what it raises -/
  getnames : Bytes → Except String (List String)
  /-- `_safe_extract` -/
  safeExtract : Bytes → Except Exc Tree
  /-- `_ugk_files` -/
  ugkFiles : Tree → List (String × String)
  /-- `_frame_triad` -/
  frameTriad : Tree → Except Exc Triad
  /-- `_amendment_link` -/
  amendmentLink : Tree → Triad → Triad → Bool
  /-- `_run_behavioral_gates` -/
  runBehavioralGates : Tree → List (String × Bool)
  /-- `_run_conformance` -/
  runConformance : Tree → List (String × Bool)

variable {Bytes Tree : Type}

/-- `name.endswith(suffix)` -/
def hasSuffix (name suffix : String) : Bool := suffix.toList.isSuffixOf name.toList

/-- `name.startswith(start)` -/
def hasStart (name start : String) : Bool := start.toList.isPrefixOf name.toList

/-- `needle in haystack` -/
def hasSubstring (haystack needle : String) : Bool :=
  haystack.toList.tails.any fun cs => needle.toList.isPrefixOf cs

/-- `_content_index`, the last archive of the listing first. -/
def contentIndex (rt : Runtime Bytes Tree) (archives : Archives Bytes) : List (String × String) :=
  (archives.listing.filterMap fun f =>
    if hasSuffix f ".tar.gz" then
      match archives.node f with
      | some (.file bytes) => some (rt.sha256File bytes, f)
      | _ => none
    else none).reverse

/-- `index[sha]` where `sha and sha in index` -/
def byContent (index : List (String × String)) (sha : PyVal) : Except Exc (Option String) :=
  if sha.truthy then
    if sha.unhashable then .error (.typeError "unhashable type")
    else
      match sha with
      | .str s => .ok (index.lookup s)
      | _ => .ok none
  else .ok none

/-- The fallback to the name of a file that exists. -/
def byFilename (archives : Archives Bytes) (fname : PyVal) : Except Exc (Option String) :=
  if fname.truthy then
    match fname with
    | .str f => .ok (if (archives.node f).isSome then some f else none)
    | _ => .error (.typeError "join() argument must be str, bytes, or os.PathLike object")
  else .ok none

/-- `_resolve_arch` -/
def resolveArch (archives : Archives Bytes) (sha fname : PyVal) (index : List (String × String)) :
    Except Exc (Option String) := do
  let found ← byContent index sha
  match found with
  | some f => .ok (some f)
  | none => byFilename archives fname

/-- The bytes of a resolved archive; one that exists can still be unreadable. -/
def readArchive (archives : Archives Bytes) (arch : Option String) : Except Exc (Option Bytes) :=
  match arch.bind archives.node with
  | none => .ok none
  | some (.file bytes) => .ok (some bytes)
  | some .unreadable => .error (.userException "OSError")

/-! ## The attestation -/

/-- `d[k]` -/
def item (d : PyDict) (k : String) : Except Exc PyVal :=
  match d.lookup (.str k) with
  | some v => .ok v
  | none => .error (.userException "KeyError")

/-- The attested links; their labels have to be hashable. -/
def attestedLinks (alinks : PyVal) : Except Exc (List PyDict) := do
  let xs ← iterate alinks
  xs.mapM fun x => do
    let a ← asDict x
    if (PyDict.get a "label").unhashable then .error (.typeError "unhashable type") else .ok a

/-- `label in labels` -/
def labelled (labels : List PyVal) (label : PyKey) : Bool :=
  labels.any fun v =>
    match label with
    | .str s => v.isStr s
    | _ => false

variable (env : Env)

/-- The labels of the links that are not attested HOLD. -/
def notHeld (alinks : List PyDict) : Except Exc (List PyVal) :=
  (alinks.filter fun a => !(PyDict.get a "verdict").isStr "HOLD").mapM fun a => item a "label"

/-- Each candidate is the next baseline; the report of a break names both links. -/
def contiguous : List PyDict → Except Exc Bool
  | a :: b :: rest => do
    let candidate ← item a "candidate_sha256"
    let baseline ← item b "baseline_sha256"
    if pyEq env candidate baseline then contiguous (b :: rest)
    else do
      let _ ← item a "label"
      let _ ← item b "label"
      let _ ← contiguous (b :: rest)
      .ok false
  | _ => .ok true

/-- Every link that is not attested has the attested head for baseline. -/
def chainsToHead (labels : List PyVal) (headSha : PyVal) : PyDict → Except Exc Bool
  | [] => .ok true
  | (label, spec) :: rest =>
    if labelled labels label then chainsToHead labels headSha rest
    else do
      let spec ← asDict spec
      let ok ← chainsToHead labels headSha rest
      .ok (pyEq env (PyDict.get spec "baseline_sha256") headSha && ok)

/-- `alinks[-1]["candidate"]` and `alinks[-1]["candidate_sha256"]` -/
def headCandidate (alinks : List PyDict) : Except Exc PyVal :=
  match alinks.getLast? with
  | none => .ok .none
  | some head => do
    let _ ← item head "candidate"
    item head "candidate_sha256"

/-- `_verify_attestation` of the links that were read. -/
def verifyAttestation (alinks : List PyDict) (links : PyVal) : Except Exc Bool := do
  let bad ← notHeld alinks
  let chain ← contiguous env alinks
  let labels ← alinks.mapM fun a => item a "label"
  let headSha ← headCandidate alinks
  let links ← asDict links
  let current ← chainsToHead env labels headSha links
  .ok (!alinks.isEmpty && bad.isEmpty && chain && current)

/-! ## One link -/

/-- `_px`, on a system whose separator is the slash. -/
def px (f : String) : String := String.ofList (f.toList.map fun c => if c = '\\' then '/' else c)

/-- `{_px(x) for x in spec.get(name, [])}` -/
def surface (spec : PyDict) (name : String) : Except Exc (List String) := do
  let xs ← iterate (getOr spec name (.list []))
  xs.mapM fun x =>
    match x with
    | .str s => .ok (px s)
    | _ => .error noGet

/-- Two dictionaries are equal. -/
def sameFiles (bu cu : List (String × String)) : Bool :=
  (bu.all fun kv => cu.lookup kv.1 == some kv.2) && cu.all fun kv => bu.lookup kv.1 == some kv.2

/-- The files of the candidate that are not the baseline's, and those of the baseline that are gone. -/
def changedFiles (bu cu : List (String × String)) : List String :=
  ((cu.filter fun kv => bu.lookup kv.1 != some kv.2).map fun kv => px kv.1) ++
    (bu.filter fun kv => (cu.lookup kv.1).isNone).map fun kv => px kv.1

/-- B4: every changed file is declared in the surface of its kind. -/
def confined (spec : PyDict) (changed : List String) : Except Exc Bool := do
  let sub ← surface spec "substrate_surface"
  let ver ← surface spec "verification_surface"
  let cdx ← surface spec "codex_surface"
  .ok (changed.all fun f =>
    if hasStart f "ugk/conformance/" then ver.contains f
    else if hasStart f "ugk/codex/" then cdx.contains f
    else sub.contains f)

/-- What `evaluate_link` returns, without the report. -/
structure Judgement where
  verdict : Bool
  path : String
  legs : PyVal

/-- `evaluate_link` of two archives that were found. -/
def judge (rt : Runtime Bytes Tree) (spec : PyDict) (base cand : Bytes) : Except Exc Judgement := do
  let bdir ← rt.safeExtract base
  let cdir ← rt.safeExtract cand
  let bu := rt.ugkFiles bdir
  let cu := rt.ugkFiles cdir
  if sameFiles bu cu then .ok ⟨true, "shortcut(S)", strDict [("shortcut", .bool true)]⟩
  else do
    let bt ← rt.frameTriad bdir
    let ct ← rt.frameTriad cdir
    let amended := bt ≠ ct && rt.amendmentLink cdir bt ct
    let b1 := bt = ct || amended
    let b2 := (rt.runBehavioralGates cdir).all Prod.snd
    let b3 := (rt.runConformance cdir).all Prod.snd
    let b4 ← confined spec (changedFiles bu cu)
    .ok ⟨b1 && b2 && b3 && b4, if amended then "amendment(A)" else "behavioral(B)",
      strDict [("B1", .bool b1), ("B2", .bool b2), ("B3", .bool b3), ("B4", .bool b4)]⟩

/-- `(v or "")[:12]` in the report of an archive that was not found. -/
def shortSha (v : PyVal) : Except Exc Unit :=
  if v.truthy then
    match v with
    | .str _ => .ok ()
    | _ => .error (.typeError "object is not subscriptable")
  else .ok ()

/-- `evaluate_link` -/
def evaluateLink (rt : Runtime Bytes Tree) (archives : Archives Bytes) (spec : PyDict)
    (index : List (String × String)) : Except Exc Judgement := do
  let baseArch ← resolveArch archives (PyDict.get spec "baseline_sha256")
    (PyDict.get spec "baseline") index
  let candArch ← resolveArch archives (PyDict.get spec "candidate_sha256")
    (PyDict.get spec "candidate") index
  if (baseArch.bind archives.node).isNone then do
    shortSha (PyDict.get spec "baseline_sha256")
    .ok ⟨false, "missing", .none⟩
  else if (candArch.bind archives.node).isNone then do
    shortSha (PyDict.get spec "candidate_sha256")
    .ok ⟨false, "missing", .none⟩
  else do
    let base ← readArchive archives baseArch
    let cand ← readArchive archives candArch
    match base, cand with
    | some base, some cand => judge rt spec base cand
    | _, _ => .ok ⟨false, "missing", .none⟩

end Continuity

end Ugk
