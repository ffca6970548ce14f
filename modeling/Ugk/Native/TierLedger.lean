import Ugk.Native.BindingM2
import Ugk.Native.CkCanon

/-!
# The tier-transition ledger

`tools/smh/smh_tier_ledger.py`: which movements between the storage tiers are receipted, the receipt
of a movement, and the append-only ledger with its verification.  The file of a ledger is the document
in it; its white space does not matter.
-/

namespace Ugk

namespace TierLedger

/-- `TIER_TRANSITION_TAG` -/
def tierTransitionTag : String := "smh.tier.transition.receipt.v1"

/-- `MOVEMENT_KINDS` -/
def movementKinds : List String :=
  ["hydration", "eviction", "tier_transition", "projection_rebuild", "deep_export", "restore"]

/-- `TIERS` -/
def tiers : List String := ["HOT", "WARM", "COLD", "DEEP"]

/-- The types a subject reference may have. -/
def refTypes : List String := ["ck_ref", "smh_archive_ref", "external_hash_ref"]

/-! ## Movements -/

/-- `REQUIRED`, `OPTIONAL`, `NO_RECEIPT` -/
inductive ReceiptClass where
  | required
  | optional
  | noReceipt
deriving DecidableEq, Repr

/-- The arguments of `record_movement`. -/
structure Movement where
  movement : String
  fromTier : Option String := none
  toTier : Option String := none
  subjectRefs : Option (List PyVal) := none
  evictionTarget : Option String := none
  emitOptional : Bool := false

/-- `classify_movement`; `repr` is Python's. -/
def classifyMovement (repr : String → String) (movement : String) (evictionTarget : Option String) :
    Except SmhExc ReceiptClass :=
  if movement = "hot_frontier_update" ∨ movement = "readonly_cold_access" then .ok .noReceipt
  else if movement = "hydration" then .ok .required
  else if movement = "deep_export" then .ok .required
  else if movement = "restore" then .ok .required
  else if movement = "eviction" then
    if evictionTarget = some "canonical" then .ok .required
    else if evictionTarget = some "rebuildable_projection" then .ok .optional
    else .error (.smhError
      "eviction requires eviction_target in \x7bcanonical, rebuildable_projection\x7d")
  else if movement = "tier_transition" then .ok .optional
  else if movement = "projection_rebuild" then .ok .optional
  else .error (.smhError ("unknown movement " ++ repr movement))

/-! ## Receipts -/

/-- The check of the subject references. -/
def checkSubjectRefs : List PyVal → Except SmhExc Unit
  | [] => .ok ()
  | .dict r :: rest =>
    if refTypes.any fun t => (PyDict.get r "ref_type").isStr t then checkSubjectRefs rest
    else .error (.smhError "bad subject ref type")
  | _ :: _ => .error .attributeError

/-- The items of a dictionary with string keys. -/
def items (kvs : List (String × PyVal)) : PyDict := kvs.map fun kv => (.str kv.1, kv.2)

/-- The body with all its members; the link is a member when there is a receipt before. -/
def bodyOf (kind fromTier toTier : String) (refs : List PyVal) (prior : PyVal) : PyDict :=
  items ([("movement_kind", .str kind), ("from_tier", .str fromTier), ("to_tier", .str toTier),
    ("subject_refs", .list refs)] ++ if prior.isNone then [] else [("prior_ref", prior)])

/-- `make_receipt_body` -/
def makeReceiptBody (repr : String → String) (kind : String) (fromTier toTier : Option String)
    (refs : List PyVal) (prior : PyVal) : Except SmhExc PyDict :=
  if kind ∉ movementKinds then .error (.smhError ("bad movement_kind " ++ repr kind))
  else
    match fromTier, toTier with
    | some f, some t =>
      if f ∉ tiers ∨ t ∉ tiers then .error (.smhError "bad tier")
      else if refs = [] then .error (.smhError "at least one subject_ref required (fail-closed)")
      else (checkSubjectRefs refs).map fun _ => bodyOf kind f t refs prior
    | _, _ => .error (.smhError "bad tier")

/-- `compute_receipt_id` -/
def computeReceiptId (env : Env) (body : PyDict) : Except SmhExc String :=
  if body.has "receipt_id" then
    .error (.smhError "receipt_id must NOT be a member of the body (self-hash forbidden)")
  else CkCanon.domainHash env tierTransitionTag (.dict body)

/-- The receipt of a body under its id. -/
def envelopeOf (id : String) (body : PyDict) : PyVal :=
  strDict [("receipt_id", .str id), ("receipt_body", .dict body)]

/-- `make_envelope` -/
def makeEnvelope (env : Env) (body : PyDict) : Except SmhExc PyVal :=
  (computeReceiptId env body).map fun id => envelopeOf id body

/-- The verdicts of `verify_envelope`. -/
inductive EnvelopeVerdict where
  | malformed
  | forbidden (detail : String)
  | mismatch (declared recomputed : String)
  | intact (receiptId : String)
deriving DecidableEq, Repr

/-- The finding of a verdict. -/
def EnvelopeVerdict.finding : EnvelopeVerdict → String
  | .intact _ => "intact_receipt"
  | _ => "corrupt_receipt"

/-- `verify_envelope`, of an envelope with the items `d`. -/
def verifyEnvelopeItems (env : Env) (d : PyDict) : Except SmhExc EnvelopeVerdict :=
  match PyDict.get d "receipt_body", PyDict.get d "receipt_id" with
  | .dict body, .str rid =>
    match computeReceiptId env body with
    | .error (.smhError detail) => .ok (.forbidden detail)
    | .error e => .error e
    | .ok recomputed =>
      if recomputed ≠ rid then .ok (.mismatch rid recomputed) else .ok (.intact rid)
  | _, _ => .ok .malformed

/-- `verify_envelope` -/
def verifyEnvelope (env : Env) : PyVal → Except SmhExc EnvelopeVerdict
  | .dict d => verifyEnvelopeItems env d
  | _ => .error .attributeError

/-! ## The ledger -/

/-- The file of a ledger. -/
inductive LedgerFile where
  | absent
  | unreadable
  | holds (doc : Json)

/-- A `TierTransitionLedger`: whether it has a path, the chain in memory, the file. -/
structure Ledger where
  persistent : Bool
  chain : List PyVal := []
  file : LedgerFile := .absent

/-- `json.load(open(path)).get("receipts", [])`.  What is no list of receipts cannot be used as
    one. -/
def receiptsOf (env : Env) (doc : Json) : Except SmhExc (List PyVal) :=
  match ofJson env doc with
  | .dict d =>
    if PyDict.has d "receipts" then
      match PyDict.get d "receipts" with
      | .list es => .ok es
      | _ => .error (.python (.typeError "receipts"))
    else .ok []
  | _ => .error .attributeError

/-- A ledger opened on the file of another one. -/
def reopen (env : Env) (l : Ledger) : Except SmhExc Ledger :=
  match l.file with
  | .absent => .ok { l with chain := [] }
  | .unreadable => .error (.python (.valueError "JSONDecodeError"))
  | .holds doc =>
    if l.persistent then (receiptsOf env doc).map fun es => { l with chain := es }
    else .ok { l with chain := [] }

/-- `self._chain[-1]["receipt_id"] if self._chain else None` -/
def priorRef (chain : List PyVal) : Except SmhExc PyVal :=
  match chain.getLast? with
  | none => .ok .none
  | some (.dict d) =>
    if PyDict.has d "receipt_id" then .ok (PyDict.get d "receipt_id")
    else .error (.python (.userException "KeyError"))
  | some _ => .error (.python (.typeError "receipt is not subscriptable"))

/-- What the file holds. -/
def document (chain : List PyVal) : PyVal :=
  strDict [("model", .str "smh.tier.transition.ledger.v1"), ("receipts", .list chain)]

/-- `_flush`: the file is opened for writing before it is known whether the chain can be dumped. -/
def flush (env : Env) (l : Ledger) : Except SmhExc Unit × Ledger :=
  if l.persistent then
    match toJson env true (document l.chain) with
    | .ok doc => (.ok (), { l with file := .holds doc })
    | .error e => (.error (.python e), { l with file := .unreadable })
  else (.ok (), l)

/-- What `record_movement` returns. -/
inductive Emission where
  | notEmitted (cls : ReceiptClass) (reason : String)
  | emitted (cls : ReceiptClass) (receiptId : String) (movementKind : String)
deriving DecidableEq, Repr

/-- The receipt of a movement, before it is appended. -/
def receiptOf (env : Env) (repr : String → String) (m : Movement) (chain : List PyVal) :
    Except SmhExc (String × PyVal) := do
  let prior ← priorRef chain
  let body ← makeReceiptBody repr m.movement m.fromTier m.toTier (m.subjectRefs.getD []) prior
  let id ← computeReceiptId env body
  .ok (id, envelopeOf id body)

/-- `record_movement` -/
def recordMovement (env : Env) (repr : String → String) (m : Movement) (l : Ledger) :
    Except SmhExc Emission × Ledger :=
  match classifyMovement repr m.movement m.evictionTarget with
  | .error e => (.error e, l)
  | .ok .noReceipt => (.ok (.notEmitted .noReceipt
      "ordinary HOT frontier / read-only cold access — no tier receipt (anti-spam)"), l)
  | .ok cls =>
    if cls = .optional ∧ m.emitOptional = false then
      (.ok (.notEmitted .optional "optional movement not requested (anti-spam default)"), l)
    else
      match receiptOf env repr m l.chain with
      | .error e => (.error e, l)
      | .ok (id, envelope) =>
        match flush env { l with chain := l.chain ++ [envelope] } with
        | (.error e, l') => (.error e, l')
        | (.ok (), l') => (.ok (.emitted cls id m.movement), l')

/-- `env["receipt_body"]` of an intact envelope. -/
def receiptBody (e : PyVal) : PyDict :=
  ((PyDict.get ((e.dict?).getD []) "receipt_body").dict?).getD []

/-- The verdicts of `verify_chain`. -/
inductive ChainVerdict where
  | corrupt (at_ : Nat) (finding : String)
  | brokenLineage (at_ : Nat) (expected : Option String) (got : PyVal)
  | established (n : Nat)

/-- The loop of `verify_chain` from receipt `i` on, after the id `prev`. -/
def verifyFrom (env : Env) (n : Nat) (i : Nat) (prev : Option String) :
    List PyVal → Except SmhExc ChainVerdict
  | [] => .ok (.established n)
  | e :: rest =>
    match verifyEnvelope env e with
    | .error err => .error err
    | .ok (.intact rid) =>
      let pr := PyDict.get (receiptBody e) "prior_ref"
      if pr.agrees prev then verifyFrom env n (i + 1) (some rid) rest
      else .ok (.brokenLineage i prev pr)
    | .ok verdict => .ok (.corrupt i verdict.finding)

/-- `verify_chain` -/
def verifyChain (env : Env) (chain : List PyVal) : Except SmhExc ChainVerdict :=
  verifyFrom env chain.length 0 none chain

end TierLedger

end Ugk
