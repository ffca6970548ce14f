import Mathlib.Data.List.Sort
import Mathlib.Data.String.Basic
import Ugk.ForStd.Json

/-!
# Python values and the JSON encoders of the package

The values the package passes to `json.dumps`, what `json.loads` gives back, and the three
encoders built on them: `_params_json`, `_canonical_json` (Unicode-normalised) and
`binding.canonical_json`.

A Python `str` is a `String`.  A finite float is its decimal text, an object `json.dumps` has no
encoding for is `PyVal.other`.  The hash function, the Unicode tables, float parsing and Ed25519
signing are fields of `Env`.
-/

namespace Ugk

/-! ## The environment -/

/-- A string of ASCII characters. -/
def isAscii (s : String) : Bool := s.toList.all fun c => c.toNat < 128

/-- A hex digest. -/
structure Digest where
  hex : String
  nonempty : hex ≠ ""
  ascii : isAscii hex = true
deriving DecidableEq

/-- A hash preimage is text with raw digests in it. -/
inductive Sym where
  | ch (c : Char)
  | dg (d : Digest)
deriving DecidableEq

abbrev Message := List Sym

/-- Text as a hash preimage. -/
def text (cs : List Char) : Message := cs.map Sym.ch

/-- A Python float. -/
inductive PyFloat where
  | fin (x : FloatLit)
  | nonFinite (k : NonFinite)
deriving DecidableEq

/-- What the package takes from the Python runtime and the vendored Ed25519 code. -/
structure Env where
  /-- `hashlib.sha256(..).hexdigest()` -/
  sha256 : Message → Digest
  /-- `unicodedata.normalize("NFC", s)` for a string outside ASCII -/
  nfcNonAscii : String → String
  /-- `float(text)` for a float token of a JSON text -/
  floatOfText : FloatLit → PyFloat
  /-- `a < b` between two numbers, one of them a float -/
  floatLt : Int ⊕ PyFloat → Int ⊕ PyFloat → Bool
  /-- the digit value of a decimal character outside ASCII -/
  decimalNonAscii : Char → Option Nat
  /-- white space outside ASCII -/
  isSpaceNonAscii : Char → Bool
  /-- SQLite's text for a float bound to a TEXT column; `none` is NULL -/
  sqliteFloatText : PyFloat → Option String
  /-- `ed25519.sign(message, private key)` -/
  sign : List Char → String → String

/-- `unicodedata.normalize("NFC", s)`: ASCII text is in normal form. -/
def nfc (env : Env) (s : String) : String :=
  if isAscii s then s else env.nfcNonAscii s

/-! ## Exceptions -/

/-- The exceptions of the package and of the Python code under it.  `fromEffect` marks one that an
    effect callable raised and the kernel let through. -/
inductive Exc where
  | typeError (msg : String)
  | valueError (msg : String)
  | nonCanonical (msg : String)
  | effectDomainError (msg : String)
  | reservedOutcomeError (msg : String)
  | bindError (column : String)
  | operationalError (msg : String)
  | transactionCommitError (detail : String)
  | warrantStoreError (msg : String)
  | runtimeError (msg : String)
  | assertionError (msg : String)
  | gateRefusal (op reason : String)
  | kernelInternalOp (msg : String)
  | governanceNotFounded (op : String)
  | undeclaredOp (op : String)
  | protocolError (op reason : String)
  | governorSignatureRequired (op reason : String)
  | externalEffectNotPerformed (reason : String)
  | terminalWriteExhausted (phase ref : String) (attempts : Nat)
  | reconciliationRefused (reason : String)
  | compensationRefused (reason : String)
  | userException (name : String)
  | fromEffect (e : Exc)
deriving DecidableEq

/-! ## Values -/

/-- A dictionary key.  `other` is a hashable key `json.dumps` rejects. -/
inductive PyKey where
  | none
  | bool (b : Bool)
  | int (n : Int)
  | float (x : PyFloat)
  | str (s : String)
  | other (name : String)
deriving DecidableEq

/-- A Python value.  `other` is an object `json.dumps` rejects. -/
inductive PyVal where
  | none
  | bool (b : Bool)
  | int (n : Int)
  | float (x : PyFloat)
  | str (s : String)
  | list (xs : List PyVal)
  | tuple (xs : List PyVal)
  | dict (kvs : List (PyKey × PyVal))
  | other (name : String)
deriving Inhabited

/-- The items of a dictionary, in insertion order. -/
abbrev PyDict := List (PyKey × PyVal)

namespace PyVal

/-- An `Optional[str]`. -/
def ofOpt : Option String → PyVal
  | .none => .none
  | .some s => .str s

/-- `v is None` -/
def isNone : PyVal → Bool
  | .none => true
  | _ => false

/-- `v == s` for a string `s`. -/
def isStr (s : String) : PyVal → Bool
  | .str t => t == s
  | _ => false

mutual

/-- Values a `frozenset` membership test cannot hash. -/
def unhashable : PyVal → Bool
  | .list _ => true
  | .dict _ => true
  | .tuple xs => unhashableAny xs
  | _ => false
termination_by structural v => v

/-- A tuple with such a value in it cannot be hashed either. -/
def unhashableAny : List PyVal → Bool
  | [] => false
  | x :: xs => unhashable x || unhashableAny xs
termination_by structural xs => xs

end

/-- `v in frozenset(dom)` -/
def memberOf (dom : List String) (v : PyVal) : Except Exc Bool :=
  if v.unhashable then .error (.typeError "unhashable type")
  else .ok (dom.any fun s => v.isStr s)

/-- `v == o` for an optional string `o`. -/
def agrees : PyVal → Option String → Bool
  | .none, .none => true
  | .str s, .some t => s == t
  | _, _ => false

/-- `isinstance(v, dict)`, with the items. -/
def dict? : PyVal → Option PyDict
  | .dict d => some d
  | _ => Option.none

/-- `isinstance(v, str)`, with the string. -/
def str? : PyVal → Option String
  | .str s => some s
  | _ => Option.none

/-- Python truth of a value. -/
def truthy : PyVal → Bool
  | .none => false
  | .bool b => b
  | .int n => n != 0
  | .float (.fin x) => x.text.any fun c => c.isDigit && c != '0'
  | .float (.nonFinite _) => true
  | .str s => s != ""
  | .list xs => !xs.isEmpty
  | .tuple xs => !xs.isEmpty
  | .dict kvs => !kvs.isEmpty
  | .other _ => true

end PyVal

namespace PyDict

/-- `d.get(k)` -/
def get (d : PyDict) (k : String) : PyVal := (d.lookup (.str k)).getD .none

/-- `k in d` -/
def has (d : PyDict) (k : String) : Bool := d.any fun kv => kv.1 == .str k

/-- `d[k] = v`: a present key keeps its place. -/
def set (d : PyDict) (k : PyKey) (v : PyVal) : PyDict :=
  if d.any (fun kv => kv.1 == k) then d.map fun kv => if kv.1 == k then (k, v) else kv
  else d ++ [(k, v)]

/-- `d` without the key `k`. -/
def erase (d : PyDict) (k : String) : PyDict := d.filter fun kv => kv.1 != .str k

/-- The dictionary built by inserting items one after the other. -/
def ofPairs (kvs : List (PyKey × PyVal)) : PyDict :=
  kvs.foldl (fun d kv => PyDict.set d kv.1 kv.2) []

end PyDict

/-! ## `json.dumps` -/

/-- A numeric dictionary key as a number. -/
def PyKey.num? : PyKey → Option (Int ⊕ PyFloat)
  | .bool b => some (.inl (if b then 1 else 0))
  | .int n => some (.inl n)
  | .float x => some (.inr x)
  | _ => Option.none

/-- `a < b` between numbers. -/
def numLt (env : Env) : Int ⊕ PyFloat → Int ⊕ PyFloat → Bool
  | .inl a, .inl b => a < b
  | a, b => env.floatLt a b

/-- Order of two keys of one kind, as `sorted` leaves them. -/
def keyLe (env : Env) : PyKey → PyKey → Bool
  | .str a, .str b => decide (a ≤ b)
  | a, b =>
    match a.num?, b.num? with
    | some x, some y => !numLt env y x
    | _, _ => true

/-- Keys `sorted` can compare: at most one, all strings, or all numbers. -/
def sortableKeys (ks : List PyKey) : Bool :=
  ks.length ≤ 1 || ks.all (fun k => k matches .str _) || ks.all (fun k => k.num?.isSome)

/-- `sorted(d.items())` -/
def sortItems (env : Env) {β : Type} (kvs : List (PyKey × β)) : List (PyKey × β) :=
  kvs.insertionSort fun a b => keyLe env a.1 b.1

/-- A float as `json.dumps` writes it. -/
def floatJson (allowNan : Bool) : PyFloat → Except Exc Json
  | .fin x => .ok (.float x)
  | .nonFinite k =>
    if allowNan then .ok (.nonFinite k)
    else .error (.valueError "Out of range float values are not JSON compliant")

/-- A dictionary key as member name. -/
def keyText (allowNan : Bool) : PyKey → Except Exc String
  | .none => .ok "null"
  | .bool b => .ok (if b then "true" else "false")
  | .int n => .ok (String.ofList (Json.intText n))
  | .float (.fin x) => .ok (String.ofList x.text)
  | .float (.nonFinite k) =>
    if allowNan then .ok (String.ofList (Json.nonFiniteText k))
    else .error (.valueError "Out of range float values are not JSON compliant")
  | .str s => .ok s
  | .other _ => .error (.typeError "keys must be str, int, float, bool or None")

mutual

/-- The document `json.dumps(v, sort_keys=True)` prints. -/
def toJson (env : Env) (allowNan : Bool) : PyVal → Except Exc Json
  | .none => .ok .null
  | .bool b => .ok (.bool b)
  | .int n => .ok (.int n)
  | .float x => floatJson allowNan x
  | .str s => .ok (.str s)
  | .list xs => (toJsonList env allowNan xs).map .arr
  | .tuple xs => (toJsonList env allowNan xs).map .arr
  | .dict kvs =>
    if sortableKeys (kvs.map Prod.fst) then
      (toJsonItems env allowNan kvs).map fun items =>
        .obj ((sortItems env items).map Prod.snd)
    else .error (.typeError "'<' not supported between instances")
  | .other _ => .error (.typeError "Object is not JSON serializable")
termination_by structural v => v

/-- The documents of a list's elements. -/
def toJsonList (env : Env) (allowNan : Bool) : List PyVal → Except Exc (List Json)
  | [] => .ok []
  | x :: xs =>
    match toJson env allowNan x with
    | .error e => .error e
    | .ok j => (toJsonList env allowNan xs).map (j :: ·)
termination_by structural xs => xs

/-- The members of a dictionary, each beside the key it is sorted by. -/
def toJsonItems (env : Env) (allowNan : Bool) :
    List (PyKey × PyVal) → Except Exc (List (PyKey × (String × Json)))
  | [] => .ok []
  | m :: ms =>
    match toJsonItem env allowNan m with
    | .error e => .error e
    | .ok item => (toJsonItems env allowNan ms).map (item :: ·)
termination_by structural ms => ms

/-- One member. -/
def toJsonItem (env : Env) (allowNan : Bool) :
    PyKey × PyVal → Except Exc (PyKey × (String × Json))
  | (k, v) =>
    match keyText allowNan k with
    | .error e => .error e
    | .ok name => (toJson env allowNan v).map fun j => (k, (name, j))
termination_by structural m => m

end

/-! ## `json.loads` -/

mutual

/-- The value of a parsed document: of members with one name, the last one counts. -/
def ofJson (env : Env) : Json → PyVal
  | .null => .none
  | .bool b => .bool b
  | .int n => .int n
  | .float x => .float (env.floatOfText x)
  | .nonFinite k => .float (.nonFinite k)
  | .str s => .str s
  | .arr xs => .list (ofJsonList env xs)
  | .obj kvs => .dict (PyDict.ofPairs (ofJsonMembers env kvs))
termination_by structural j => j

/-- The values of an array's items. -/
def ofJsonList (env : Env) : List Json → List PyVal
  | [] => []
  | x :: xs => ofJson env x :: ofJsonList env xs
termination_by structural xs => xs

/-- The items of an object. -/
def ofJsonMembers (env : Env) : List (String × Json) → List (PyKey × PyVal)
  | [] => []
  | m :: ms => ofJsonMember env m :: ofJsonMembers env ms
termination_by structural ms => ms

/-- One item. -/
def ofJsonMember (env : Env) : String × Json → PyKey × PyVal
  | (k, v) => (.str k, ofJson env v)
termination_by structural m => m

end

/-- `json.loads(s)` -/
def loads (env : Env) (s : String) : Except Exc PyVal :=
  match Json.parse s.toList with
  | some j => .ok (ofJson env j)
  | none => .error (.valueError "JSONDecodeError")

/-! ## The encoders of the package -/

mutual

/-- `normalize` of `_canonical_json`: NFC on every string, tuples become lists. -/
def normalize (env : Env) : PyVal → PyVal
  | .str s => .str (nfc env s)
  | .list xs => .list (normalizeList env xs)
  | .tuple xs => .list (normalizeList env xs)
  | .dict kvs => .dict (PyDict.ofPairs (normalizeItems env kvs))
  | .none => .none
  | .bool b => .bool b
  | .int n => .int n
  | .float x => .float x
  | .other name => .other name
termination_by structural v => v

/-- The elements of a list, normalised. -/
def normalizeList (env : Env) : List PyVal → List PyVal
  | [] => []
  | x :: xs => normalize env x :: normalizeList env xs
termination_by structural xs => xs

/-- The items of a dictionary, normalised. -/
def normalizeItems (env : Env) : List (PyKey × PyVal) → List (PyKey × PyVal)
  | [] => []
  | m :: ms => normalizeItem env m :: normalizeItems env ms
termination_by structural ms => ms

/-- One item, normalised. -/
def normalizeItem (env : Env) : PyKey × PyVal → PyKey × PyVal
  | (.str s, v) => (.str (nfc env s), normalize env v)
  | (k, v) => (k, normalize env v)
termination_by structural m => m

end

/-- The document `_canonical_json` prints. -/
def canonicalDoc (env : Env) (v : PyVal) : Except Exc Json := toJson env false (normalize env v)

/-- `binding_m2._canonical_json` -/
def canonicalJson (env : Env) (v : PyVal) : Except Exc (List Char) :=
  (canonicalDoc env v).map (Json.render ⟨false, false⟩)

/-- `store._params_json`, also `_canon_eb` of a value that is not `None`. -/
def paramsJson (env : Env) (v : PyVal) : Except Exc String :=
  (toJson env true v).map fun j => String.ofList (Json.render ⟨true, false⟩ j)

/-- `binding.canonical_json` -/
def bindingCanonicalJson (env : Env) (v : PyVal) : Except Exc (List Char) :=
  (toJson env true v).map (Json.render ⟨true, true⟩)

/-- `_canonical_json_bytes` of the signed artifacts. -/
def canonicalJsonBytes (env : Env) (v : PyVal) : Except Exc (List Char) :=
  (toJson env false v).map (Json.render ⟨false, false⟩)

/-! ## `int(text)` -/

/-- ASCII white space `str.strip` removes. -/
def isSpace (env : Env) (c : Char) : Bool :=
  if c.toNat < 128 then
    c == ' ' || (9 ≤ c.toNat && c.toNat ≤ 13) || (28 ≤ c.toNat && c.toNat ≤ 31)
  else env.isSpaceNonAscii c

/-- The value of a decimal digit. -/
def decimal? (env : Env) (c : Char) : Option Nat :=
  if c.toNat < 128 then (if c.isDigit then some (c.toNat - 48) else none)
  else env.decimalNonAscii c

/-- Digits with single underscores between them, most significant first. -/
def intDigits (env : Env) : List Char → Nat → Option Nat
  | [], _ => none
  | [c], acc => (decimal? env c).map fun d => 10 * acc + d
  | c :: '_' :: cs, acc => (decimal? env c).bind fun d => intDigits env cs (10 * acc + d)
  | c :: cs, acc => (decimal? env c).bind fun d => intDigits env cs (10 * acc + d)

/-- `int(s)`, `none` for a `ValueError`. -/
def pyInt (env : Env) (s : String) : Option Int :=
  let strip (cs : List Char) := cs.dropWhile (isSpace env)
  let cs := (strip (strip s.toList).reverse).reverse
  match cs with
  | '-' :: ds => (intDigits env ds 0).map fun n => -(n : Int)
  | '+' :: ds => (intDigits env ds 0).map fun n => (n : Int)
  | ds => (intDigits env ds 0).map fun n => (n : Int)

end Ugk
