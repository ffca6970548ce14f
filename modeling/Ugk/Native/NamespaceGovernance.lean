import Ugk.ForStd.KeyTable
import Ugk.Native.Receipt
import Ugk.Native.Warrant

/-!
# Namespace ownership governance

`ugk/namespace_governance.py`: the canonical form of a name and `_project`, the fold of the receipt
chain into owners, revocations and delegations.

The parameters of a receipt are what their author wrote, so the fold meets values of every type:
its dictionaries compare keys the way Python does, a key it cannot hash raises, and parameters that
are no dictionary raise too.
-/

namespace Ugk

/-- `raise AttributeError` -/
def attributeError : Exc := .userException "AttributeError"

/-! ## Keys -/

/-- `a is b or a == b`, the test of containers: `json.loads` makes one NaN object. -/
def containerEq (env : Env) (a b : PyVal) : Bool :=
  pyEq env a b || (a matches .float (.nonFinite .nan)) && (b matches .float (.nonFinite .nan))

/-! ## Canonical names -/

/-- The text functions of Python that only this module calls. -/
structure NameText where
  /-- `s.casefold()` for a string outside ASCII -/
  casefoldNonAscii : String → String
  /-- `str(v)` for a list, a tuple, a dictionary or another object -/
  strOfObject : PyVal → String

/-- `s.casefold()` -/
def casefold (names : NameText) (s : String) : String :=
  if isAscii s then s.map Char.toLower else names.casefoldNonAscii s

/-- `s.strip()` -/
def strip (env : Env) (s : String) : String :=
  let front (cs : List Char) := cs.dropWhile (isSpace env)
  String.ofList (front (front s.toList).reverse).reverse

/-- `str(v)` -/
def pyStr (names : NameText) : PyVal → String
  | .none => "None"
  | .bool b => if b then "True" else "False"
  | .int n => String.ofList (Json.intText n)
  | .float (.fin x) => String.ofList x.text
  | .float (.nonFinite .nan) => "nan"
  | .float (.nonFinite .posInf) => "inf"
  | .float (.nonFinite .negInf) => "-inf"
  | .str s => s
  | v => names.strOfObject v

/-- `canonicalize` -/
def canonicalize (env : Env) (names : NameText) (name : PyVal) : String :=
  if name.isNone then "" else casefold names (strip env (nfc env (pyStr names name)))

/-! ## The fold -/

def opClaim : String := "namespace_claim"
def opAllocate : String := "namespace_allocate"
def opDelegate : String := "namespace_delegate"
def opRevoke : String := "namespace_revoke"
def opInvalidate : String := "namespace_invalidate"
def opSupersede : String := "namespace_supersede"
def opAdjudicate : String := "namespace_adjudicate"

/-- `_params`, with the `p.get` of its callers: parameters that are no dictionary have none. -/
def receiptParams (env : Env) (r : Receipt) : Except Exc PyDict :=
  let p := match r.parameters with
    | .str s =>
      match loads env (orText s "\x7b\x7d") with
      | .ok v => v
      | .error _ => .dict []
    | v => v
  match p with
  | .dict d => .ok d
  | v => if v.truthy then .error attributeError else .ok []

/-- `p.get("name", "")` -/
def nameParam (d : PyDict) : PyVal := (d.lookup (.str "name")).getD (.str "")

/-- `p.get("canonical") or canonicalize(p.get("name", ""))` -/
def canonParam (env : Env) (names : NameText) (d : PyDict) : PyVal :=
  if (d.get "canonical").truthy then d.get "canonical"
  else .str (canonicalize env names (nameParam d))

/-- A value of the `owners` dictionary. -/
structure OwnerRecord where
  owner : PyVal
  name : PyVal
  index : Nat

/-- What `_project` computes. -/
structure NamespaceState where
  owners : List (PyVal × OwnerRecord) := []
  revoked : List PyVal := []
  delegates : List (PyVal × List PyVal) := []

namespace NamespaceState

variable (env : Env) (st : NamespaceState)

/-- `owners.get(canon)` -/
def ownerRecord (canon : PyVal) : Option OwnerRecord := KeyTable.get (containerEq env) st.owners canon

/-- `canon in revoked` -/
def isRevoked (canon : PyVal) : Bool := st.revoked.any fun k => containerEq env k canon

/-- `delegates.get(canon, [])` -/
def delegatesOf (canon : PyVal) : List PyVal :=
  (KeyTable.get (containerEq env) st.delegates canon).getD []

/-- `cur is not None and r.authority == cur["owner"]` -/
def ownedBy (canon : PyVal) (authority : String) : Bool :=
  match st.ownerRecord env canon with
  | some cur => cur.owner.isStr authority
  | none => false

/-- `owners[canon] = {"owner": owner, "name": .., "index": i}` -/
def setOwner (canon owner name : PyVal) (i : Nat) : NamespaceState :=
  { st with owners := KeyTable.put (containerEq env) st.owners canon ⟨owner, name, i⟩ }

/-- `delegates.pop(canon, None)` -/
def dropDelegates (canon : PyVal) : NamespaceState :=
  { st with delegates := KeyTable.drop (containerEq env) st.delegates canon }

/-- `d = delegates.setdefault(canon, [])`, and `d.append(da)` unless `da in d`. -/
def addDelegate (canon da : PyVal) : NamespaceState :=
  let d := st.delegatesOf env canon
  { st with
    delegates := KeyTable.put (containerEq env) st.delegates canon
      (if d.any fun x => containerEq env x da then d else d ++ [da]) }

/-- `del owners[canon]`, `revoked.add(canon)`, `delegates.pop(canon, None)` -/
def remove (canon : PyVal) : NamespaceState :=
  { owners := KeyTable.drop (containerEq env) st.owners canon
    revoked := if st.isRevoked env canon then st.revoked else st.revoked ++ [canon]
    delegates := KeyTable.drop (containerEq env) st.delegates canon }

end NamespaceState

/-- A dictionary or set operation hashes its key first. -/
def hashed (canon : PyVal) (st : NamespaceState) : Except Exc NamespaceState :=
  if canon.unhashable then .error (.typeError "unhashable type") else .ok st

section Fold

variable (env : Env) (names : NameText) (i : Nat) (r : Receipt) (d : PyDict) (canon : PyVal)
  (st : NamespaceState)

def foldAllocate : Except Exc NamespaceState :=
  -- permanent revocation blocks re-grant
  hashed canon (if (st.ownerRecord env canon).isNone && !st.isRevoked env canon then
    st.setOwner env canon (.str r.authority) (nameParam d) i else st)

def foldDelegate : Except Exc NamespaceState :=
  let da := d.get "delegate_authority"
  hashed canon (if st.ownedBy env canon r.authority && da.truthy then
    st.addDelegate env canon da else st)

def foldRemove : Except Exc NamespaceState :=
  hashed canon (if st.ownedBy env canon r.authority then st.remove env canon else st)

def foldSupersede : Except Exc NamespaceState :=
  let new := d.get "new_owner"
  hashed canon (if st.ownedBy env canon r.authority && new.truthy then
    (st.setOwner env canon new (nameParam d) i).dropDelegates env canon else st)

def foldAdjudicate : Except Exc NamespaceState :=
  let award := d.get "awarded_owner"
  if award.truthy then
    hashed canon (if !st.isRevoked env canon then
      (st.setOwner env canon award (nameParam d) i).dropDelegates env canon else st)
  else .ok st

/-- One receipt of the loop of `_project`. -/
def foldReceipt : Except Exc NamespaceState :=
  if r.failed then .ok st
  else
    match receiptParams env r with
    | .error e => .error e
    | .ok d =>
      let canon := canonParam env names d
      if !canon.truthy then .ok st
      else if r.op = opAllocate then foldAllocate env i r d canon st
      else if r.op = opDelegate then foldDelegate env r d canon st
      else if r.op = opRevoke ∨ r.op = opInvalidate then foldRemove env r canon st
      else if r.op = opSupersede then foldSupersede env i r d canon st
      else if r.op = opAdjudicate then foldAdjudicate env i d canon st
      else .ok st

/-- The loop, from a receipt of index `i` on. -/
def projectFrom : Nat → NamespaceState → List Receipt → Except Exc NamespaceState
  | _, st, [] => .ok st
  | i, st, r :: rs =>
    match foldReceipt env names i r st with
    | .error e => .error e
    | .ok st' => projectFrom (i + 1) st' rs

/-- `_project` -/
def project (receipts : List Receipt) : Except Exc NamespaceState :=
  projectFrom env names 0 {} receipts

/-! ## Reads -/

/-- `owner_of` -/
def ownerOf (receipts : List Receipt) (name : PyVal) : Except Exc PyVal :=
  (project env names receipts).map fun st =>
    match st.ownerRecord env (.str (canonicalize env names name)) with
    | some cur => cur.owner
    | none => .none

end Fold

end Ugk
