import Ugk.Native.CkValue

/-!
# Projection currency

`tools/smh/smh_projection_registry.py`: the identities of cited sources, the envelope of a
projection descriptor, and `assess_projection`.  Envelopes and references are any Python values; of
bytes there are those a resolver may answer with.
-/

namespace Ugk

/-- `raise KeyError` -/
def SmhExc.keyError : SmhExc := .python (.userException "KeyError")

namespace Projection

open CkValue

/-- The environment with what the registry takes from Python besides. -/
structure Host extends Env where
  /-- `hashlib.sha256(..).hexdigest()` of bytes that are no text -/
  sha256Bytes : List UInt8 → String
  /-- `str(v)` -/
  strOf : Raw → PyStr
  /-- `"%r" % v` -/
  repr : Raw → String

/-- `SMH_DESCRIPTOR_TAG` -/
def smhDescriptorTag : String := "smh.projection.descriptor.v1"

/-- `SMH_ARCHIVE_TAG` -/
def smhArchiveTag : String := "smh.archive.v1"

/-! ## Values -/

/-- `d.get(k)`, where absent is not `None`. -/
def find (d : List (Key × Raw)) (k : String) : Option Raw := d.lookup (.str (PyStr.lit k))

/-- `d.get(k)` -/
def get (d : List (Key × Raw)) (k : String) : Raw := (find d k).getD .none

/-- `d[k]` -/
def item (d : List (Key × Raw)) (k : String) : Except SmhExc Raw :=
  match find d k with
  | some v => .ok v
  | none => .error .keyError

/-- `v == s` for a text `s` -/
def isText (v : Raw) (s : String) : Bool :=
  match v with
  | .str t => t == PyStr.lit s
  | _ => false

/-- `v is None` -/
def isNone : Raw → Bool
  | .none => true
  | _ => false

/-- Python truth of a value. -/
def truthy : Raw → Bool
  | .none => false
  | .bool b => b
  | .int n => n != 0
  | .float x => (PyVal.float x).truthy
  | .str s => !s.isEmpty
  | .arr xs => !xs.isEmpty
  | .dict kvs => !kvs.isEmpty
  | .other _ => true

/-- A key as a value. -/
def keyValue : Key → Raw
  | .str s => .str s
  | .other name => .other name

/-- `for r in v` -/
def iterate : Raw → Except SmhExc (List Raw)
  | .arr xs => .ok xs
  | .dict kvs => .ok (kvs.map fun kv => keyValue kv.1)
  | .str s => .ok (s.map fun p => .str [p])
  | _ => .error (.python (.typeError "object is not iterable"))

/-! ## Identities -/

/-- The current content of a source. -/
inductive Current where
  | bytes (b : List UInt8)
  | value (v : Raw)

/-- ASCII text as bytes. -/
def asciiBytes (s : String) : List UInt8 := s.toList.map fun c => c.toNat.toUInt8

/-- `smh_archive_hash` -/
def smhArchiveHash (host : Host) : Current → Except SmhExc String
  | .bytes b => .ok (host.sha256Bytes (asciiBytes smhArchiveTag ++ 0 :: b))
  | .value _ => .error (.smhError "smh_archive_hash: bytes required")

/-- `ck_canon.domain_hash`, of a tag that may be no string and of bytes, which have no canonical
    form. -/
def domainHash (host : Host) (domainTag : Raw) (current : Current) : Except SmhExc String :=
  match domainTag with
  | .str tag =>
    match current with
    | .value v => CkValue.domainHash host.toEnv tag v
    | .bytes _ => CkValue.domainHash host.toEnv tag (.other "bytes")
  | _ => .error (.canonError "bad_domain_tag")

/-- `dt.encode("ascii")` -/
def encodeAscii : Raw → Except SmhExc String
  | .str s =>
    match PyStr.text? s with
    | some t => if isAscii t then .ok t else .error .unicodeEncodeError
    | none => .error .unicodeEncodeError
  | _ => .error .attributeError

/-- The hash of bytes, or of a text in UTF-8, behind a tag in ASCII and a zero byte if there is
    one. -/
def externalHash (host : Host) (tag : Option String) : List UInt8 ⊕ String → String
  | .inl b => host.sha256Bytes ((tag.map fun t => asciiBytes t ++ [0]).getD [] ++ b)
  | .inr s =>
    (host.sha256 (text ((tag.map fun t => t.toList ++ [Char.ofNat 0]).getD [] ++ s.toList))).hex

/-- `current if isinstance(current, (bytes, bytearray)) else str(current).encode("utf-8")` -/
def externalBytes (host : Host) : Current → Except SmhExc (List UInt8 ⊕ String)
  | .bytes b => .ok (.inl b)
  | .value v =>
    match PyStr.text? (host.strOf v) with
    | some t => .ok (.inr t)
    | none => .error .unicodeEncodeError

/-- `_recompute_source_identity` -/
def recomputeSourceIdentity (host : Host) (ref : List (Key × Raw)) (current : Current) :
    Except SmhExc String := do
  let t ← item ref "ref_type"
  if isText t "ck_ref" then
    let tag ← item ref "domain_tag"
    domainHash host tag current
  else if isText t "smh_archive_ref" then smhArchiveHash host current
  else if isText t "external_hash_ref" then
    let regime := get ref "regime"
    if isText regime "sha-256" then
      let b ← externalBytes host current
      let dt := get ref "domain_tag"
      if isNone dt then .ok (externalHash host none b)
      else (encodeAscii dt).map fun tag => externalHash host (some tag) b
    else .error (.smhError ("external_hash_ref: unsupported declared regime " ++ host.repr regime))
  else .error (.smhError ("unknown ref_type " ++ host.repr t))

/-! ## Descriptors -/

/-- `compute_projection_id` -/
def computeProjectionId (host : Host) (body : List (Key × Raw)) : Except SmhExc String :=
  if (find body "projection_id").isSome then
    .error (.smhError "projection_id must NOT be a member of the body (self-hash forbidden)")
  else CkValue.domainHash host.toEnv (PyStr.lit smhDescriptorTag) (.dict body)

/-- The verdicts of `verify_envelope`. -/
inductive DescriptorVerdict where
  | malformed
  | forbidden (detail : String)
  | mismatch (declared : PyStr) (recomputed : String)
  | intact (projectionId : PyStr)
deriving DecidableEq

/-- `v["valid"]` -/
def DescriptorVerdict.valid : DescriptorVerdict → Bool
  | .intact _ => true
  | _ => false

/-- `verify_envelope` -/
def verifyEnvelope (host : Host) : Raw → Except SmhExc DescriptorVerdict
  | .dict envelope =>
    match get envelope "descriptor_body", get envelope "projection_id" with
    | .dict body, .str pid =>
      match computeProjectionId host body with
      | .error (.smhError detail) => .ok (.forbidden detail)
      | .error e => .error e
      | .ok recomputed =>
        if PyStr.lit recomputed ≠ pid then .ok (.mismatch pid recomputed) else .ok (.intact pid)
    | _, _ => .ok .malformed
  | _ => .error .attributeError

/-! ## Freshness -/

/-- What a resolver answers: any value, or a dictionary with bytes under `current`. -/
inductive Answer where
  | value (v : Raw)
  | record (items : List (Key × Raw)) (current : List UInt8)

/-- `not resolved` -/
def Answer.falsy : Answer → Bool
  | .value v => !truthy v
  | .record _ _ => false

/-- The items of an answer that is a dictionary. -/
def Answer.items? : Answer → Option (List (Key × Raw))
  | .value (.dict kvs) => some kvs
  | .value _ => none
  | .record kvs _ => some kvs

/-- `resolved["current"]` -/
def Answer.current : Answer → Except SmhExc Current
  | .value (.dict kvs) => (item kvs "current").map .value
  | .value _ => .error .attributeError
  | .record _ b => .ok (.bytes b)

/-- The findings of `assess_source`. -/
inductive SourceFinding where
  | missing (refType hCited : Raw)
  | corrupt (refType hSelf : Raw) (hRecomputed : String) (hCited : Raw)
  | fresh (refType hSelf : Raw)
  | stale (refType hSelf hCited : Raw)

/-- The finding of a source that is present. -/
def compareIdentities (refType hCited declared : Raw) (hRecomputed : String) : SourceFinding :=
  let hSelf := if isNone declared then .str (PyStr.lit hRecomputed) else declared
  if !isText hSelf hRecomputed then .corrupt refType hSelf hRecomputed hCited
  -- `h_self` is the text `h_recomputed` here
  else if isText hCited hRecomputed then .fresh refType hSelf
  else .stale refType hSelf hCited

/-- `assess_source` -/
def assessSource (host : Host) (ref : Raw) (resolved : Answer) : Except SmhExc SourceFinding :=
  match ref with
  | .dict r =>
    let hCited := get r "digest"
    let missing := (item r "ref_type").map fun t => .missing t hCited
    if resolved.falsy then missing
    else
      match resolved.items? with
      | none => .error .attributeError
      | some kvs =>
        if !truthy (get kvs "present") then missing
        else do
          let current ← resolved.current
          let hRecomputed ← recomputeSourceIdentity host r current
          let t ← item r "ref_type"
          .ok (compareIdentities t hCited (get kvs "declared_identity") hRecomputed)
  | _ => .error .attributeError

/-- `[assess_source(r, resolver(r)) for r in refs]`: the resolver may answer every call in its own
    way, and `i` counts them. -/
def assessSources (host : Host) (resolver : Nat → Raw → Answer) :
    Nat → List Raw → Except SmhExc (List SourceFinding)
  | _, [] => .ok []
  | i, r :: refs => do
    let finding ← assessSource host r (resolver i r)
    (assessSources host resolver (i + 1) refs).map (finding :: ·)

/-- The findings of `assess_projection`. -/
inductive ProjectionFinding where
  | corruptDescriptor
  | undeterminedMissingSource
  | undeterminedCorruptSource
  | stale
  | fresh
deriving DecidableEq

/-- The value of `findings` the precedence order picks. -/
def aggregate (src : List SourceFinding) : ProjectionFinding :=
  if src.any (fun s => s matches .missing ..) then .undeterminedMissingSource
  else if src.any (fun s => s matches .corrupt ..) then .undeterminedCorruptSource
  else if src.any (fun s => s matches .stale ..) then .stale
  else .fresh

/-- What `assess_projection` returns. -/
structure Assessment where
  projectionFinding : ProjectionFinding
  descriptor : DescriptorVerdict
  sources : List SourceFinding
  authorityNote : Option String := none

/-- `envelope["descriptor_body"]["canonical_source_refs"]`, of an intact envelope. -/
def citedRefs (envelope : Raw) : Except SmhExc (List Raw) :=
  match envelope with
  | .dict kvs =>
    match get kvs "descriptor_body" with
    | .dict body => (item body "canonical_source_refs").bind iterate
    | _ => .error .keyError
  | _ => .error .attributeError

/-- `assess_projection` -/
def assessProjection (host : Host) (resolver : Nat → Raw → Answer) (envelope : Raw) :
    Except SmhExc Assessment := do
  let v ← verifyEnvelope host envelope
  if !v.valid then .ok { projectionFinding := .corruptDescriptor, descriptor := v, sources := [] }
  else
    let refs ← citedRefs envelope
    let src ← assessSources host resolver 0 refs
    let agg := aggregate src
    .ok {
      projectionFinding := agg
      descriptor := v
      sources := src
      authorityNote :=
        if agg = .stale then
          some "resolve to cited canonical (now advanced); flag projection for rebuild"
        else none }

end Projection

end Ugk
