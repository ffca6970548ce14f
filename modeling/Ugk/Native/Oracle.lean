import Ugk.Native.PyValue

/-!
# The dependency oracle

`ugk/scale/oracle.py`: the minimal chain of committed receipts, the candidates that wait for a
position on it, and `independent`, which decides whether two of them may be reordered.

The indexes of `Chain` are dictionaries; here they are tables with the newest entry of a key first.
-/

namespace Ugk

namespace Scale

/-- What `oracle.py` takes from Python. -/
structure Host where
  /-- `hashlib.sha256(..).hexdigest()` -/
  sha256 : Message → Digest
  /-- `repr` of a string -/
  repr : String → String

/-- `(effect_id, authority)` -/
abbrev BindingKey := String × String

/-! ## Candidates -/

/-- The subject of a refusal: the hash of a receipt, an effect id, `ALL_PENDING`, or a key. -/
inductive Subject where
  | name (s : String)
  | key (k : BindingKey)
deriving DecidableEq

/-- `Candidate`: a proposal without a position. -/
structure Candidate where
  op : String
  agent : String
  session : Option String := none
  inputRefs : Option (List String) := none
  warrantBasisRefs : Option (List String) := none
  bindingKey : List BindingKey := []
  refusalSubject : Option Subject := none
  postureAffecting : Option Bool := none
  sessionMarker : Option String := none
  memberRange : Option (List String) := none
  producesEffects : List String := []
  grantClass : Bool := false
  isAggregate : Bool := false
deriving DecidableEq

/-- `SAFETY_OPS` -/
def safetyOps : List String :=
  ["gate_refuse", "invariant_violation", "replay_detect", "rollback", "corruption_alert"]

/-- `POSTURE_OPS` -/
def postureOps : List String :=
  ["authority_model_set", "a1_posture_set", "rho_posture_set", "constitution_set"]

/-! ## The chain -/

/-- `Receipt` -/
structure Receipt where
  pos : Nat
  rhash : String
  priorHash : String
  op : String
  agent : String
  session : Option String
  bindingKeys : List BindingKey
  producesEffects : List String
  grantClass : Bool
  failed : Bool
deriving DecidableEq

/-- `Chain` -/
structure Chain where
  receipts : List Receipt := []
  byHash : List (String × Receipt) := []
  effects : List (String × Nat) := []

namespace Chain

/-- `Chain.GENESIS` -/
def genesis : String := "0000000000000000000000000000000000000000000000000000000000000000"

/-- `tip` -/
def tip (chain : Chain) : String := (chain.receipts.getLast?.map Receipt.rhash).getD genesis

/-- `receipt` -/
def receipt (chain : Chain) (h : String) : Option Receipt := chain.byHash.lookup h

/-- `has_hash` -/
def hasHash (chain : Chain) (h : String) : Bool := (chain.receipt h).isSome

/-- `has_effect` -/
def hasEffect (chain : Chain) (eid : String) : Bool := (chain.effects.lookup eid).isSome

end Chain

/-- `str` of a tuple of strings, from the `repr`s of its entries. -/
def reprTuple : List String → String
  | [] => "()"
  | [item] => "(" ++ item ++ ",)"
  | items => "(" ++ ", ".intercalate items ++ ")"

/-- `f"{akeys}"` -/
def reprKeys (env : Host) (keys : List BindingKey) : String :=
  reprTuple (keys.map fun k => reprTuple [env.repr k.1, env.repr k.2])

/-- The text `Chain.append` hashes. -/
def appendBody (env : Host) (pos : Nat) (prior : String) (cand : Candidate)
    (akeys : List BindingKey) : List Char :=
  Nat.toDigits 10 pos ++ '|' :: (prior ++ "|" ++ cand.op ++ "|" ++ cand.agent ++ "|" ++
    cand.session.getD "None" ++ "|" ++ reprKeys env akeys).toList

/-- The arguments of one call of `Chain.append`. -/
structure Append where
  cand : Candidate
  actualBindingKeys : Option (List BindingKey) := none
  failed : Bool := false

/-- The keys the receipt records. -/
def Append.akeys (a : Append) : List BindingKey := a.actualBindingKeys.getD a.cand.bindingKey

/-- The receipt `Chain.append` mints. -/
def Chain.mint (env : Host) (chain : Chain) (a : Append) : Receipt where
  pos := chain.receipts.length
  rhash :=
    (env.sha256 (text (appendBody env chain.receipts.length chain.tip a.cand a.akeys))).hex
  priorHash := chain.tip
  op := a.cand.op
  agent := a.cand.agent
  session := a.cand.session
  bindingKeys := a.akeys
  producesEffects := a.cand.producesEffects
  grantClass := a.cand.grantClass
  failed := a.failed

/-- `Chain.append` -/
def Chain.append (env : Host) (chain : Chain) (a : Append) : Chain :=
  let r := chain.mint env a
  { receipts := chain.receipts ++ [r]
    byHash := (r.rhash, r) :: chain.byHash
    effects := a.cand.producesEffects.foldl (fun effects eid => (eid, r.pos) :: effects)
      chain.effects }

/-! ## The oracle -/

/-- `DEPENDENT`, `INDEPENDENT` -/
inductive Verdict where
  | dependent
  | independent
deriving DecidableEq

/-- `OracleRefusal` -/
structure OracleRefusal where
  code : String
deriving DecidableEq

/-- `_posture_check` -/
def postureCheck (c : Candidate) : Except OracleRefusal Bool :=
  let inClass := postureOps.contains c.op
  if inClass && c.postureAffecting != some true then .error ⟨"D5-POSTURE-UNDERDECLARED"⟩
  else .ok (inClass || c.postureAffecting == some true)

/-- `_refusal_subject_verifiable`: a key is no entry of either index. -/
def refusalSubjectVerifiable (c : Candidate) (chain : Chain) : Bool :=
  match c.refusalSubject with
  | none => false
  | some (.name s) => s != "ALL_PENDING" && (chain.hasHash s || chain.hasEffect s)
  | some (.key _) => false

/-- `_is_barrier` -/
def isBarrier (c : Candidate) (chain : Chain) : Except OracleRefusal Bool := do
  if ← postureCheck c then .ok true
  else .ok (safetyOps.contains c.op && !refusalSubjectVerifiable c chain)

/-- `_verified_input_refs` -/
def verifiedInputRefs (c : Candidate) (chain : Chain) : Option (List String) :=
  match c.inputRefs with
  | none => none
  | some refs =>
    if refs.isEmpty then none
    else if refs.all fun ref => chain.hasHash ref || chain.hasEffect ref then some refs
    else none

/-- `_verified_warrant` -/
def verifiedWarrant (c : Candidate) (chain : Chain) : Option (List String) :=
  match c.warrantBasisRefs with
  | none => none
  | some refs =>
    if refs.all fun ref => (chain.receipt ref).any Receipt.grantClass then some refs else none

/-- D7: an aggregate that names members. -/
def aggregatesMembers (a : Candidate) : Bool :=
  a.isAggregate && a.memberRange.any fun members => !members.isEmpty

/-- D4: `b` is the declared subject of the safety operation `a`. -/
def isSubjectOf (a b : Candidate) : Bool :=
  safetyOps.contains a.op && match a.refusalSubject with
    | none => false
    | some (.name s) => s != "ALL_PENDING" && b.producesEffects.contains s
    | some (.key k) => b.bindingKey.contains k

/-- D6: `a` opens or closes the session of `b`. -/
def marksSessionOf (a b : Candidate) : Bool :=
  (a.sessionMarker == some "open" || a.sessionMarker == some "close") && b.session == a.session

/-- Do two sets share an entry? -/
def meet {α : Type} [BEq α] (xs ys : List α) : Bool := xs.any fun x => ys.contains x

/-- `_is_barrier(x, chain) or _is_barrier(y, chain)` -/
def eitherBarrier (x y : Candidate) (chain : Chain) : Except OracleRefusal Bool := do
  if ← isBarrier x chain then .ok true else isBarrier y chain

/-- The checks of `independent` after the barriers. -/
def checkDeclarations (x y : Candidate) (chain : Chain) : Verdict :=
  if isSubjectOf x y || isSubjectOf y x then .dependent
  else if meet x.bindingKey y.bindingKey then .dependent
  else if x.bindingKey.isEmpty || y.bindingKey.isEmpty then .dependent
  else match verifiedInputRefs x chain, verifiedInputRefs y chain with
    | some xin, some yin =>
      if meet y.producesEffects xin || meet x.producesEffects yin then .dependent
      else match verifiedWarrant x chain, verifiedWarrant y chain with
        | some _, some _ =>
          if marksSessionOf x y || marksSessionOf y x then .dependent else .independent
        | _, _ => .dependent
    | _, _ => .dependent

/-- `independent` -/
def independent (x y : Candidate) (chain : Chain) : Except OracleRefusal Verdict :=
  if aggregatesMembers x || aggregatesMembers y then .ok .dependent
  else do
    if ← eitherBarrier x y chain then .ok .dependent else .ok (checkDeclarations x y chain)

end Scale

end Ugk
