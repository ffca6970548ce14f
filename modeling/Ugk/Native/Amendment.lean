import Ugk.Native.Csh

/-!
# Amendment records

`ugk/amendment.py`: the signed record of a transition between two constitutional frames, the keys
the succession lineage authorises, and `is_admissible`.  Of `ugk/successor.py` it needs
`SuccessorLineage.verify_succession`, of `ugk/governance/governor.py` `verify_governor`.
-/

namespace Ugk

namespace Amendment

/-- The runtime with what `amendment.py` takes from Python besides. -/
structure Keys extends Csh.Signing where
  /-- `hashlib.sha256(..).hexdigest()` of bytes that are no text -/
  sha256Bytes : List UInt8 → String
  /-- `repr` of a string -/
  repr : String → String

/-! ## Keys and signatures -/

/-- The value of a hex digit. -/
def hexDigit? (c : Char) : Option UInt8 :=
  if '0' ≤ c ∧ c ≤ '9' then some (c.toNat - 48).toUInt8
  else if 'a' ≤ c ∧ c ≤ 'f' then some (c.toNat - 87).toUInt8
  else if 'A' ≤ c ∧ c ≤ 'F' then some (c.toNat - 55).toUInt8
  else none

/-- `bytes.fromhex(s)`, `none` for a `ValueError`: white space may stand between two bytes. -/
def bytesFromHex : List Char → Option (List UInt8)
  | [] => some []
  | [c] => if c == ' ' || (9 ≤ c.toNat && c.toNat ≤ 13) then some [] else none
  | c :: d :: cs =>
    if c == ' ' || (9 ≤ c.toNat && c.toNat ≤ 13) then bytesFromHex (d :: cs)
    else do
      let hi ← hexDigit? c
      let lo ← hexDigit? d
      let rest ← bytesFromHex cs
      some ((16 * hi + lo) :: rest)

/-- `_mosaic` -/
def mosaic (env : Keys) (pubkeyHex : String) : Except Exc String :=
  match bytesFromHex pubkeyHex.toList with
  | some bytes => .ok (env.sha256Bytes bytes)
  | none => .error (.valueError "non-hexadecimal number found in fromhex() arg")

/-- `verify_governor`: a key that was never set verifies nothing. -/
def verifyGovernor (env : Keys) (pubkeyHex : String) (message : List Char) (sigHex : String) :
    Bool :=
  if pubkeyHex.startsWith "GOVERNOR_KEY_UNSET" then false
  else env.verify message sigHex pubkeyHex

/-- `SuccessorLineage` -/
structure SuccessorLineage where
  lineageHash : String
  predecessorMosaic : String
  successorMosaic : String
  successorPubkey : String
  successionProof : String
  authority : String
  amendmentHash : String
  timestamp : String

namespace SuccessorLineage

/-- `_body` -/
def body (link : SuccessorLineage) : PyVal := strDict [
  ("amendment_hash", .str link.amendmentHash), ("authority", .str link.authority),
  ("predecessor_mosaic", .str link.predecessorMosaic),
  ("successor_mosaic", .str link.successorMosaic),
  ("successor_pubkey", .str link.successorPubkey), ("timestamp", .str link.timestamp)]

/-- `verify_succession`: under the predecessor's key. -/
def verifySuccession (env : Keys) (link : SuccessorLineage) (predecessorPubkey : String) : Bool :=
  verifyGovernor env predecessorPubkey (spacedText env.toEnv link.body) link.successionProof

end SuccessorLineage

/-- The walk of `_authorized_keys` over the links, from the key authorised last. -/
def walkSuccession (env : Keys) (current : String) : List SuccessorLineage →
    Except Exc (List String)
  | [] => .ok []
  | link :: chain => do
    let currentMosaic ← mosaic env current
    if link.predecessorMosaic ≠ currentMosaic then .ok []
    else if !link.verifySuccession env current then .ok []
    else do
      let keys ← walkSuccession env link.successorPubkey chain
      .ok (link.successorPubkey :: keys)

/-- `_authorized_keys` -/
def authorizedKeys (env : Keys) (governorPubkey : String) (succession : List SuccessorLineage) :
    Except Exc (List String) :=
  (walkSuccession env governorPubkey succession).map (governorPubkey :: ·)

/-! ## Frames and records -/

/-- The three legs of a constitutional frame. -/
structure Frame where
  lawHash : String
  legendHash : String
  schemaHash : String
deriving DecidableEq

/-- `AmendmentRecord` -/
structure AmendmentRecord where
  amendmentHash : String
  priorLawHash : String
  successorLawHash : String
  invariantsAdded : List String
  invariantsRemoved : List String
  authority : String
  signature : String
  phaseCode : String
  timestamp : String
  amendmentKind : String := "ordinary"
  priorLegendHash : String := ""
  successorLegendHash : String := ""
  priorSchemaHash : String := ""
  successorSchemaHash : String := ""
  priorAmendmentHash : String := ""

namespace AmendmentRecord

/-- The fields a record commits only when they are not empty. -/
def committed (r : AmendmentRecord) : List (String × PyVal) :=
  ([("prior_legend_hash", r.priorLegendHash), ("successor_legend_hash", r.successorLegendHash),
    ("prior_schema_hash", r.priorSchemaHash), ("successor_schema_hash", r.successorSchemaHash),
    ("prior_amendment_hash", r.priorAmendmentHash)].filter fun e => e.2 ≠ "").map
      fun e => (e.1, .str e.2)

/-- The body `amendment_hash` is taken over. -/
def body (r : AmendmentRecord) : PyVal := strDict ([
  ("amendment_kind", .str r.amendmentKind), ("authority", .str r.authority),
  ("invariants_added", strList r.invariantsAdded),
  ("invariants_removed", strList r.invariantsRemoved), ("phase_code", .str r.phaseCode),
  ("prior_law_hash", .str r.priorLawHash), ("signature", .str r.signature),
  ("successor_law_hash", .str r.successorLawHash), ("timestamp", .str r.timestamp)]
  ++ r.committed)

/-- `signed_payload`: the body without the signature, with the invariants in order. -/
def signedPayload (env : Env) (r : AmendmentRecord) : List Char := spacedText env (strDict ([
  ("amendment_kind", .str r.amendmentKind), ("authority", .str r.authority),
  ("invariants_added", strList (r.invariantsAdded.insertionSort (· ≤ ·))),
  ("invariants_removed", strList (r.invariantsRemoved.insertionSort (· ≤ ·))),
  ("phase_code", .str r.phaseCode), ("prior_law_hash", .str r.priorLawHash),
  ("successor_law_hash", .str r.successorLawHash), ("timestamp", .str r.timestamp)]
  ++ r.committed))

/-- The hash of the body. -/
def bodyHash (env : Env) (r : AmendmentRecord) : String :=
  (env.sha256 (text (spacedText env r.body))).hex

/-- `create`: the invariants are sorted and the hash is filled in. -/
def create (env : Env) (r : AmendmentRecord) : AmendmentRecord :=
  let sorted := { r with
    invariantsAdded := r.invariantsAdded.insertionSort (· ≤ ·)
    invariantsRemoved := r.invariantsRemoved.insertionSort (· ≤ ·) }
  { sorted with amendmentHash := sorted.bodyHash env }

/-- `verify_hash` -/
def verifyHash (env : Env) (r : AmendmentRecord) : Bool := r.bodyHash env == r.amendmentHash

end AmendmentRecord

/-! ## Admissibility -/

/-- An entry of `existing_successors`, or `prior_successor`: a frame triple, or the law hash of a
    caller from before the frame-keyed lineage. -/
inductive LineageKey where
  | law (lawHash : String)
  | frame (f : Frame)
deriving DecidableEq

/-- `isinstance(e, tuple)` -/
def LineageKey.isFrame : LineageKey → Bool
  | .law _ => false
  | .frame _ => true

/-- What the caller of `is_admissible` takes from the archive. -/
structure Lineage where
  priorSuccessor : Option LineageKey
  existingSuccessors : List LineageKey
  predecessorAmendmentHash : Option String

/-- The first twelve characters of a hash. -/
def short (hash : String) : String := String.ofList (hash.toList.take 12)

/-- Condition (2b) for one leg: the objection, if there is one. -/
def legObjection (leg committedPrior committedSuccessor prior successor : String) :
    Option String :=
  if committedSuccessor ≠ "" then
    if committedPrior ≠ prior then some (leg ++ ": committed prior != c_n " ++ leg)
    else if committedSuccessor ≠ successor then
      some (leg ++ ": committed successor != c_\x7bn+1\x7d " ++ leg ++
        " — successor-frame-leg hash is the authoritative transition proof")
    else none
  else if prior ≠ successor then
    some (leg ++ " moved but the record commits no successor for it — a moved leg " ++
      "must be committed (frame-general admissibility)")
  else none

/-- The kind, the hash and conditions (1), (2) and (2b). -/
def bodyObjection (env : Keys) (r : AmendmentRecord) (priorFrame successorFrame : Frame) :
    Option String :=
  if r.amendmentKind ≠ "genesis" ∧ r.amendmentKind ≠ "ordinary" then
    some ("amendment_kind=" ++ env.repr r.amendmentKind ++ " invalid (must be genesis|ordinary)")
  else if !r.verifyHash env.toEnv then some "amendment_hash does not match body (integrity)"
  else if r.priorLawHash ≠ priorFrame.lawHash then some "prior_law_hash != c_n law leg"
  else if r.successorLawHash ≠ successorFrame.lawHash then
    some ("successor_law_hash != c_\x7bn+1\x7d law leg — the successor law-frame hash is the " ++
      "AUTHORITATIVE transition proof; invariants_added/removed are documentary only")
  else (legObjection "legend_hash" r.priorLegendHash r.successorLegendHash priorFrame.legendHash
      successorFrame.legendHash).or
    (legObjection "schema_hash" r.priorSchemaHash r.successorSchemaHash priorFrame.schemaHash
      successorFrame.schemaHash)

/-- `matches`: the authorised keys with a given identity. -/
def keysWithMosaic (env : Keys) (authority : String) : List String → Except Exc (List String)
  | [] => .ok []
  | key :: keys => do
    let keyMosaic ← mosaic env key
    let rest ← keysWithMosaic env authority keys
    .ok (if keyMosaic = authority then key :: rest else rest)

/-- Condition (3). -/
def authorityObjection (env : Keys) (r : AmendmentRecord) (governorPubkey : String)
    (succession : List SuccessorLineage) (recordIsHistorical : Bool) :
    Except Exc (Option String) :=
  if r.signature = "" then
    .ok (some "no Governor signature (admission requires signed authority)")
  else do
    let authorized ← authorizedKeys env governorPubkey succession
    let matching ← keysWithMosaic env r.authority authorized
    match matching with
    | [] =>
      .ok (some ("authority not authorized by the succession lineage — signing key is neither " ++
        "the genesis key nor a validly predecessor-signed successor " ++
        "(forged/unlinked → fail-closed)"))
    | signingKey :: _ =>
      if signingKey ≠ authorized.getLastD governorPubkey ∧ !recordIsHistorical then
        .ok (some ("retired era key used for a new amendment — after Governor key rotation only " ++
          "the active successor key authorizes new amendments (historical records excepted)"))
      else if !verifyGovernor env signingKey (r.signedPayload env.toEnv) r.signature then
        .ok (some "Governor signature does not verify under the resolved era-appropriate key")
      else .ok none

/-- Conditions (4) and (4b).  Any frame among the existing successors makes the test one of
    frames. -/
def lineageObjection (r : AmendmentRecord) (priorFrame successorFrame : Frame)
    (lineage : Lineage) : Option String :=
  let order : Option String :=
    match lineage.priorSuccessor with
    | none => none
    | some (.frame f) =>
      if priorFrame ≠ f then
        some "append-only lineage broken: prior frame != predecessor successor frame"
      else none
    | some (.law h) =>
      if r.priorLawHash ≠ h then some "append-only lineage broken: prior != predecessor successor"
      else none
  let uniqueness : Option String :=
    if lineage.existingSuccessors.any LineageKey.isFrame then
      if .frame successorFrame ∈ lineage.existingSuccessors then
        some "successor frame already present (not append-only)"
      else none
    else if .law r.successorLawHash ∈ lineage.existingSuccessors then
      some "successor already present (not append-only)"
    else none
  let recordHash : Option String :=
    if r.priorAmendmentHash = "" then none
    else match lineage.predecessorAmendmentHash with
      | none => some ("record commits prior_amendment_hash but no predecessor record was " ++
          "supplied to verify the record-hash lineage")
      | some hash =>
        if r.priorAmendmentHash ≠ hash then
          some ("prior_amendment_hash != predecessor record amendment_hash — record-hash " ++
            "lineage broken (additive tamper-evidence; law-hash lineage authoritative)")
        else none
  (order.or uniqueness).or recordHash

/-- `is_admissible` -/
def isAdmissible (env : Keys) (r : AmendmentRecord) (priorFrame successorFrame : Frame)
    (governorPubkey : String) (lineage : Lineage) (succession : List SuccessorLineage)
    (recordIsHistorical : Bool) : Except Exc (Bool × String) :=
  match bodyObjection env r priorFrame successorFrame with
  | some detail => .ok (false, detail)
  | none => do
    match ← authorityObjection env r governorPubkey succession recordIsHistorical with
    | some detail => .ok (false, detail)
    | none =>
      match lineageObjection r priorFrame successorFrame lineage with
      | some detail => .ok (false, detail)
      | none => .ok (true, "ADMITTED (" ++ r.amendmentKind ++ ") " ++ short r.priorLawHash ++
          "->" ++ short r.successorLawHash)

/-! ## The archive -/

/-- A record with the arguments it was submitted with. -/
structure Submission where
  record : AmendmentRecord
  priorFrame : Frame
  successorFrame : Frame
  succession : List SuccessorLineage
  recordIsHistorical : Bool

/-- What the archive walk of `amendment_admissibility_gate` passes to `is_admissible`: the successor
    frame of the last record, those of all records and the last record's hash. -/
def archiveLineage (archive : List Submission) : Lineage :=
  { priorSuccessor := archive.getLast?.map fun e => .frame e.successorFrame
    existingSuccessors := archive.map fun e => .frame e.successorFrame
    predecessorAmendmentHash := archive.getLast?.map fun e => e.record.amendmentHash }

/-- `is_admissible` of a submission against the archive of the records admitted before it. -/
def submit (env : Keys) (governorPubkey : String) (archive : List Submission) (e : Submission) :
    Except Exc (Bool × String) :=
  isAdmissible env e.record e.priorFrame e.successorFrame governorPubkey (archiveLineage archive)
    e.succession e.recordIsHistorical

end Amendment

end Ugk
