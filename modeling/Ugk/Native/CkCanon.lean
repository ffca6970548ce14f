import Mathlib.Data.List.Lex
import Ugk.Native.PyValue

/-!
# The CK-CANON canonicaliser

`tools/smh/ck_canon.py`: the canonical text of a value of the restricted model (objects, arrays,
strings, integers, booleans, null) and its domain-separated hash.  The text is that of a document,
printed compactly and with raw characters; what differs from `_canonical_json` is the order of the
members, the refusal of floats and of integers that no JSON number holds, and the excluded `ext`.
-/

namespace Ugk

/-- The exceptions of the SMH tools. -/
inductive SmhExc where
  | canonError (reason : String)
  | smhError (msg : String)
  | python (e : Exc)
deriving DecidableEq

/-- `raise AttributeError` -/
def SmhExc.attributeError : SmhExc := .python (.userException "AttributeError")

namespace CkCanon

/-- `_MAX_SAFE` -/
def maxSafe : Nat := 2 ^ 53 - 1

/-- The code units of a string in UTF-16. -/
def utf16 (s : String) : List Nat :=
  s.toList.flatMap fun c =>
    if c.toNat < 0x10000 then [c.toNat]
    else [0xd800 + (c.toNat - 0x10000) / 0x400, 0xdc00 + (c.toNat - 0x10000) % 0x400]

/-- The code units a key is sorted by. -/
def keyUnits : PyKey → List Nat
  | .str s => utf16 s
  | _ => []

/-- `sorted(value.keys(), key=lambda k: k.encode("utf-16-be"))`, with what stands under the keys. -/
def sortUnits {β : Type} (kvs : List (PyKey × β)) : List (PyKey × β) :=
  kvs.insertionSort fun a b => keyUnits a.1 ≤ keyUnits b.1

/-- `_encode_integer` -/
def encodeInteger (n : Int) : Except SmhExc Json :=
  if maxSafe < n.natAbs then .error (.canonError "oversized_integer_as_number") else .ok (.int n)

/-- The member loop of an object, in the order of the keys. -/
def members (env : Env) : List (PyKey × Except SmhExc Json) → Except SmhExc (List (String × Json))
  | [] => .ok []
  | (.str k, .ok j) :: rest => (members env rest).map ((nfc env k, j) :: ·)
  | (.str _, .error e) :: _ => .error e
  | _ :: _ => .error (.canonError "invalid_string_encoding")

/-- The elements of an array, up to the first that fails. -/
def elements : List (Except SmhExc Json) → Except SmhExc (List Json)
  | [] => .ok []
  | .ok j :: rest => (elements rest).map (j :: ·)
  | .error e :: _ => .error e

/-- `k.encode(..)` finds no such method on a key that is no string. -/
def isStrKey : PyKey → Bool
  | .str _ => true
  | _ => false

mutual

/-- The document `_serialize` prints. -/
def serialize (env : Env) : PyVal → Except SmhExc Json
  | .bool b => .ok (.bool b)
  | .none => .ok .null
  | .str s => .ok (.str (nfc env s))
  | .float _ => .error (.canonError "float_present")
  | .int n => encodeInteger n
  | .dict kvs =>
    if kvs.all fun kv => isStrKey kv.1 then
      (members env (sortUnits (serializeItems env kvs))).map .obj
    else .error .attributeError
  | .list xs => (elements (serializeList env xs)).map .arr
  | .tuple xs => (elements (serializeList env xs)).map .arr
  | .other _ => .error (.canonError "unsupported_type")
termination_by structural v => v

/-- What becomes of each element. -/
def serializeList (env : Env) : List PyVal → List (Except SmhExc Json)
  | [] => []
  | x :: xs => serialize env x :: serializeList env xs
termination_by structural xs => xs

/-- What becomes of the value under each key. -/
def serializeItems (env : Env) : List (PyKey × PyVal) → List (PyKey × Except SmhExc Json)
  | [] => []
  | m :: ms => serializeItem env m :: serializeItems env ms
termination_by structural ms => ms

/-- One item. -/
def serializeItem (env : Env) : PyKey × PyVal → PyKey × Except SmhExc Json
  | (k, v) => (k, serialize env v)
termination_by structural m => m

end

/-- The governance region: a top-level `ext` member is excluded. -/
def governed : PyVal → PyVal
  | .dict d => .dict (PyDict.erase d "ext")
  | v => v

/-- `canonical_bytes` -/
def canonicalBytes (env : Env) (v : PyVal) : Except SmhExc (List Char) :=
  (serialize env (governed v)).map (Json.render ⟨false, false⟩)

/-- `domain_hash` -/
def domainHash (env : Env) (domainTag : String) (v : PyVal) : Except SmhExc String :=
  if isAscii domainTag then
    (canonicalBytes env v).map fun cs =>
      (env.sha256 (text (domainTag.toList ++ Char.ofNat 0 :: cs))).hex
  else .error (.canonError "bad_domain_tag")

end CkCanon

end Ugk
