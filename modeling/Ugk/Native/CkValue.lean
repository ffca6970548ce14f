import Ugk.Native.CkCanon
import Ugk.Native.PyStr

/-!
# The CK-CANON canonicaliser on any value

`tools/smh/ck_canon.py` again, on values as an API hands them over: strings and keys may have lone
surrogates, and keys may be no strings.  Sorting the keys of an object comes before the check of
their types, so that some of them raise in the sort.  Sequences are lists and tuples, which the
canonicaliser treats alike; the interpreter's recursion limit is left out.
-/

namespace Ugk

/-- `raise UnicodeEncodeError` -/
def SmhExc.unicodeEncodeError : SmhExc := .python (.userException "UnicodeEncodeError")

namespace CkValue

/-- A dictionary key.  `other` is one that is no string. -/
inductive Key where
  | str (s : PyStr)
  | other (name : String)
deriving DecidableEq

/-- A Python value.  `other` is one of a type the canonicaliser does not know. -/
inductive Raw where
  | none
  | bool (b : Bool)
  | int (n : Int)
  | float (x : PyFloat)
  | str (s : PyStr)
  | arr (xs : List Raw)
  | dict (kvs : List (Key × Raw))
  | other (name : String)

/-! ## Keys -/

/-- `k.encode("utf-16-be")`, as code units. -/
def encodeKey : Key → Except SmhExc (List Nat)
  | .str s =>
    match PyStr.text? s with
    | some t => .ok (CkCanon.utf16 t)
    | none => .error .unicodeEncodeError
  | .other _ => .error .attributeError

/-- The code units of a key that has them. -/
def units (k : Key) : List Nat :=
  match encodeKey k with
  | .ok us => us
  | .error _ => []

/-- Items in the order of the code units of their keys. -/
def byUnits {β : Type} (kvs : List (Key × β)) : List (Key × β) :=
  kvs.insertionSort fun a b => units a.1 ≤ units b.1

/-- `sorted(value.keys(), key=lambda k: k.encode("utf-16-be"))`, with what stands under the keys:
    every key is encoded before the first comparison. -/
def sortKeys {β : Type} (kvs : List (Key × β)) : Except SmhExc (List (Key × β)) :=
  (kvs.mapM fun kv => encodeKey kv.1).map fun _ => byUnits kvs

/-! ## Serialisation -/

/-- The string `_escape_string` prints.  A lone surrogate is one before and after normalisation. -/
def escapeString (env : Env) (s : PyStr) : Except SmhExc String :=
  match PyStr.text? s with
  | some t => .ok (nfc env t)
  | none => .error (.canonError "invalid_string_encoding")

/-- The member loop of an object, in the order of the keys. -/
def members (env : Env) : List (Key × Except SmhExc Json) → Except SmhExc (List (String × Json))
  | [] => .ok []
  | (.str k, v) :: rest => do
    let name ← escapeString env k
    let j ← v
    (members env rest).map ((name, j) :: ·)
  | (.other _, _) :: _ => .error (.canonError "invalid_string_encoding")

mutual

/-- The document `_serialize` prints. -/
def serialize (env : Env) : Raw → Except SmhExc Json
  | .bool b => .ok (.bool b)
  | .none => .ok .null
  | .str s => (escapeString env s).map .str
  | .float _ => .error (.canonError "float_present")
  | .int n => CkCanon.encodeInteger n
  | .dict kvs => (sortKeys (serializeItems env kvs)).bind fun items => (members env items).map .obj
  | .arr xs => (CkCanon.elements (serializeList env xs)).map .arr
  | .other _ => .error (.canonError "unsupported_type")
termination_by structural v => v

/-- What becomes of each element. -/
def serializeList (env : Env) : List Raw → List (Except SmhExc Json)
  | [] => []
  | x :: xs => serialize env x :: serializeList env xs
termination_by structural xs => xs

/-- What becomes of the value under each key. -/
def serializeItems (env : Env) : List (Key × Raw) → List (Key × Except SmhExc Json)
  | [] => []
  | m :: ms => serializeItem env m :: serializeItems env ms
termination_by structural ms => ms

/-- One item. -/
def serializeItem (env : Env) : Key × Raw → Key × Except SmhExc Json
  | (k, v) => (k, serialize env v)
termination_by structural m => m

end

/-- The governance region: a top-level `ext` member is excluded. -/
def governed : Raw → Raw
  | .dict kvs => .dict (kvs.filter fun kv => kv.1 ≠ .str (PyStr.lit "ext"))
  | v => v

/-- `canonical_bytes` -/
def canonicalBytes (env : Env) (v : Raw) : Except SmhExc (List Char) :=
  (serialize env (governed v)).map (Json.render ⟨false, false⟩)

/-! ## The hash -/

/-- `domain_tag.encode("ascii")` -/
def encodeTag (domainTag : PyStr) : Except SmhExc (List Char) :=
  match PyStr.text? domainTag with
  | some t => if isAscii t then .ok t.toList else .error (.canonError "bad_domain_tag")
  | none => .error (.canonError "bad_domain_tag")

/-- `tag + b"\x00" + cb` -/
def preimage (env : Env) (domainTag : PyStr) (v : Raw) : Except SmhExc Message := do
  let tag ← encodeTag domainTag
  let cb ← canonicalBytes env v
  .ok (text (tag ++ Char.ofNat 0 :: cb))

/-- `domain_hash` -/
def domainHash (env : Env) (domainTag : PyStr) (v : Raw) : Except SmhExc String :=
  (preimage env domainTag v).map fun m => (env.sha256 m).hex

end CkValue

end Ugk
