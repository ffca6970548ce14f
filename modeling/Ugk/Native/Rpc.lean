import Ugk.ForStd.Calls
import Ugk.Native.PyStr
import Ugk.Native.PyValue

/-!
# The JSON-RPC surface

`transport/rpc.py`: `handle_request` parses a request, hands it to one of four method handlers and
answers in JSON.  A handler is a program that asks its surroundings: the nonce set, which it reads
and extends in one step under the server's lock, and the kernel, which may answer or raise anything.
Several requests are served at once by threads that share the nonce set.
-/

namespace Ugk

namespace Rpc

/-! ## Values -/

/-- A value as `json.loads` builds it.  An object has one item for each key. -/
inductive JsonVal where
  | null
  | bool (b : Bool)
  | int (n : Int)
  | float (x : PyFloat)
  | str (s : PyStr)
  | arr (xs : List JsonVal)
  | obj (kvs : List (PyStr × JsonVal))
deriving Inhabited

/-- The items of an object. -/
abbrev JsonObj := List (PyStr × JsonVal)

/-- `d.get(key, default)` -/
def JsonObj.getD (kvs : JsonObj) (key : String) (default : JsonVal) : JsonVal :=
  (kvs.lookup (PyStr.lit key)).getD default

/-- A string constant. -/
def JsonVal.lit (s : String) : JsonVal := .str (PyStr.lit s)

/-! ### `json.dumps` -/

/-- A code point inside a string literal. -/
def quotePoint : CodePoint → List Char
  | .char c => Json.quoteChar true c
  | .surrogate n => '\\' :: 'u' :: Json.hexDigits (0xd800 + n)

/-- A string literal. -/
def quote (s : PyStr) : List Char := '"' :: (s.flatMap quotePoint ++ ['"'])

/-- The text of a float. -/
def floatText : PyFloat → List Char
  | .fin x => x.text
  | .nonFinite k => Json.nonFiniteText k

mutual

/-- `json.dumps(v)` -/
def dumps : JsonVal → List Char
  | .null => "null".toList
  | .bool true => "true".toList
  | .bool false => "false".toList
  | .int n => Json.intText n
  | .float x => floatText x
  | .str s => quote s
  | .arr [] => ['[', ']']
  | .arr (x :: xs) => '[' :: (dumps x ++ dumpsItems xs)
  | .obj [] => ['\x7b', '\x7d']
  | .obj (m :: ms) => '\x7b' :: (dumpsMember m ++ dumpsMembers ms)
termination_by structural v => v

/-- The items after the first one and the closing bracket. -/
def dumpsItems : List JsonVal → List Char
  | [] => [']']
  | x :: xs => ',' :: ' ' :: (dumps x ++ dumpsItems xs)
termination_by structural xs => xs

/-- The members after the first one and the closing brace. -/
def dumpsMembers : List (PyStr × JsonVal) → List Char
  | [] => ['\x7d']
  | m :: ms => ',' :: ' ' :: (dumpsMember m ++ dumpsMembers ms)
termination_by structural ms => ms

/-- One member. -/
def dumpsMember : PyStr × JsonVal → List Char
  | (k, v) => quote k ++ (':' :: ' ' :: dumps v)
termination_by structural m => m

end

/-! ## The kernel as the handlers see it -/

/-- The `except` clause of `_handle_govern` an exception of the kernel falls under. -/
inductive KernelExcKind where
  | gateRefusal
  | governanceNotFounded
  | undeclaredOp
  | kernelInternalOp
  | other
deriving DecidableEq

/-- An exception of the kernel, with its `str(e)`. -/
structure KernelExc where
  kind : KernelExcKind
  text : PyStr

/-- A value in a snapshot.  `object` is one `json.dumps` has no text for, `container` a list or a
    dictionary with such a value inside; `text` is its `str(v)`. -/
inductive Field where
  | json (v : JsonVal)
  | object (container : Bool) (text : PyStr)

/-- The dictionary a snapshot or a handler returns. -/
abbrev Fields := List (PyStr × Field)

/-- `d.get(key, default)` -/
def Fields.getD (fs : Fields) (key : String) (default : Field) : Field :=
  (fs.lookup (PyStr.lit key)).getD default

/-- What a handler raises. -/
inductive RpcExc where
  /-- `AttributeError`: `.get` of a value that is no object -/
  | noAttribute (v : JsonVal)
  /-- `TypeError`: a list or an object looked up in the nonce set -/
  | unhashable (v : JsonVal)
  /-- `TypeError`: a slice of a value that has none -/
  | notSubscriptable (v : Field)
  /-- `KeyError` -/
  | keyError (key : String)
  /-- `TypeError` of `json.dumps` -/
  | notSerializable
  | kernel (e : KernelExc)

/-- An element of the nonce set: values that compare equal are one element. -/
inductive NonceKey where
  | none
  | num (n : Int)
  | float (x : PyFloat)
  | str (s : PyStr)
deriving DecidableEq

/-- What the surface takes from the Python runtime. -/
structure RpcHost where
  /-- `json.loads(raw)`; `none` when it raises -/
  loads : PyStr → Option JsonVal
  /-- `format(v)`, as in an f-string -/
  format : JsonVal → PyStr
  /-- `repr(s)` -/
  repr : PyStr → PyStr
  /-- `str(e)` of an exception the interpreter raised -/
  excText : RpcExc → PyStr
  /-- the integer a float is equal to -/
  floatInt : PyFloat → Option Int

/-- The nonce as an element of the set; `none` if it has no hash. -/
def nonceKey (host : RpcHost) : JsonVal → Option NonceKey
  | .null => some .none
  | .bool b => some (.num (if b then 1 else 0))
  | .int n => some (.num n)
  | .float x =>
    match host.floatInt x with
    | some n => some (.num n)
    | none => some (.float x)
  | .str s => some (.str s)
  | .arr _ => none
  | .obj _ => none

/-- What a handler asks: `claim` is the section under the lock, the others call the kernel. -/
inductive Query where
  | claim (key : NonceKey)
  | snapshotFast
  | snapshot
  | execute (op authority : JsonVal) (parameters : JsonObj)
  | verifyStreamHash
  | receiptCount
  | streamHash

/-- What it is answered. -/
abbrev Reply : Query → Type
  | .claim _ => Bool
  | .snapshotFast => Except KernelExc Fields
  | .snapshot => Except KernelExc Fields
  | .execute _ _ _ => Except KernelExc Unit
  | .verifyStreamHash => Except KernelExc Bool
  | .receiptCount => Except KernelExc Int
  | .streamHash => Except KernelExc PyStr

/-- A method handler. -/
abbrev Handler := Calls Query Reply (Except RpcExc Fields)

/-! ## Handlers -/

/-- `bool(v)` -/
def truthy (host : RpcHost) : Field → Bool
  | .json .null => false
  | .json (.bool b) => b
  | .json (.int n) => n != 0
  | .json (.float x) => host.floatInt x != some 0
  | .json (.str s) => !s.isEmpty
  | .json (.arr xs) => !xs.isEmpty
  | .json (.obj kvs) => !kvs.isEmpty
  | .object _ _ => true

/-- `f"{v[:16]}"` -/
def sliced (host : RpcHost) : Field → Except RpcExc PyStr
  | .json (.str s) => .ok (s.take 16)
  | .json (.arr xs) => .ok (host.format (.arr (xs.take 16)))
  | v => .error (.notSubscriptable v)

/-- The DKN envelope: `f"{authority}@{dim_id[:16]}"` where there is a dimension. -/
def envelope (host : RpcHost) (authority : JsonVal) (dimId : Field) : Except RpcExc JsonVal :=
  if truthy host dimId then
    (sliced host dimId).map fun d => .str (host.format authority ++ PyStr.lit "@" ++ d)
  else .ok authority

/-- The four `except` clauses of `_handle_govern`; another exception goes on. -/
def refused (e : KernelExc) : Except RpcExc Fields :=
  let detail (label : String) : Fields :=
    [(PyStr.lit "admitted", .json (.bool false)), (PyStr.lit "error", .json (.lit label)),
      (PyStr.lit "detail", .json (.str e.text))]
  match e.kind with
  | .gateRefusal =>
    .ok [(PyStr.lit "admitted", .json (.bool false)), (PyStr.lit "reason", .json (.str e.text))]
  | .governanceNotFounded => .ok (detail "governance_not_founded")
  | .undeclaredOp => .ok (detail "undeclared_op")
  | .kernelInternalOp => .ok (detail "kernel_internal_op")
  | .other => .error (.kernel e)

/-- The answer to a nonce that was seen before. -/
def replayDetected (nonce : JsonVal) : Fields :=
  [(PyStr.lit "admitted", .json (.bool false)), (PyStr.lit "error", .json (.lit "replay_detected")),
    (PyStr.lit "nonce", .json nonce)]

/-- The answer to an executed request, from the snapshot after it. -/
def admitted (op : JsonVal) (dimId : Field) (after : Fields) : Except RpcExc Fields :=
  match after.lookup (PyStr.lit "stream_hash") with
  | none => .error (.keyError "stream_hash")
  | some streamHash =>
    .ok [(PyStr.lit "admitted", .json (.bool true)), (PyStr.lit "op", .json op),
      (PyStr.lit "stream_hash", streamHash), (PyStr.lit "dimension_id", dimId)]

/-- `_handle_govern` past the replay check. -/
def governFresh (host : RpcHost) (op authority : JsonVal) (parameters : JsonObj) : Handler :=
  .ask .snapshotFast fun snap =>
    match snap with
    | .error e => .ret (.error (.kernel e))
    | .ok snap =>
      let dimId := Fields.getD snap "dimension_id" (.json (.lit ""))
      match envelope host authority dimId with
      | .error e => .ret (.error e)
      | .ok authority =>
        .ask (.execute op authority parameters) fun outcome =>
          match outcome with
          | .error e => .ret (refused e)
          | .ok () =>
            -- the second snapshot stands inside the `try` as well
            .ask .snapshotFast fun after =>
              match after with
              | .error e => .ret (refused e)
              | .ok after => .ret (admitted op dimId after)

/-- `_handle_govern` -/
def handleGovern (host : RpcHost) (serverAuthority : PyStr) : JsonVal → Handler
  | .obj params =>
    let intent := JsonObj.getD params "intent" (.lit "observe")
    let subject := JsonObj.getD params "subject" (.lit "")
    let authority := JsonObj.getD params "authority" (.str serverAuthority)
    let op := JsonObj.getD params "op" (.lit "crp_evidence")
    let nonce := JsonObj.getD params "nonce" (.lit "")
    match nonceKey host nonce with
    | none => .ret (.error (.unhashable nonce))
    | some key =>
      .ask (.claim key) fun (fresh : Bool) =>
        if fresh then
          governFresh host op authority [(PyStr.lit "intent", intent),
            (PyStr.lit "subject", subject), (PyStr.lit "nonce", nonce)]
        else .ret (.ok (replayDetected nonce))
  | params => .ret (.error (.noAttribute params))

/-- A snapshot value as `_handle_status` shows it. -/
def shown : Field → Field
  | .object false text => .json (.str text)
  | v => v

/-- `_handle_status` -/
def handleStatus : Handler :=
  .ask .snapshotFast fun snap =>
    match snap with
    | .error e => .ret (.error (.kernel e))
    | .ok snap => .ret (.ok (snap.map fun kv => (kv.1, shown kv.2)))

/-- `_handle_verify` -/
def handleVerify : Handler :=
  .ask .verifyStreamHash fun intact =>
    match intact with
    | .error e => .ret (.error (.kernel e))
    | .ok intact =>
      .ask .receiptCount fun count =>
        match count with
        | .error e => .ret (.error (.kernel e))
        | .ok count =>
          .ask .streamHash fun streamHash =>
            match streamHash with
            | .error e => .ret (.error (.kernel e))
            | .ok streamHash =>
              .ret (.ok [(PyStr.lit "chain_intact", .json (.bool intact)),
                (PyStr.lit "receipt_count", .json (.int count)),
                (PyStr.lit "stream_hash", .json (.str streamHash))])

/-- The attestation of a snapshot. -/
def attestation (snap : Fields) : Except RpcExc Fields :=
  match snap.lookup (PyStr.lit "stream_hash") with
  | none => .error (.keyError "stream_hash")
  | some streamHash =>
    match snap.lookup (PyStr.lit "hash_verified") with
    | none => .error (.keyError "hash_verified")
    | some hashVerified =>
      .ok [(PyStr.lit "stream_hash", streamHash), (PyStr.lit "hash_verified", hashVerified),
        (PyStr.lit "law_hash", Fields.getD snap "law_hash" (.json (.lit ""))),
        (PyStr.lit "csh_finality_hash", Fields.getD snap "csh_finality_hash" (.json (.lit ""))),
        (PyStr.lit "csh_quorum_achieved", Fields.getD snap "csh_quorum_achieved" (.json (.bool false))),
        (PyStr.lit "mosaic_root", Fields.getD snap "mosaic_root" (.json (.lit ""))),
        (PyStr.lit "dimension_id", Fields.getD snap "dimension_id" (.json (.lit "")))]

/-- `_handle_attest` -/
def handleAttest : Handler :=
  .ask .snapshot fun snap =>
    match snap with
    | .error e => .ret (.error (.kernel e))
    | .ok snap => .ret (attestation snap)

/-! ## Requests -/

/-- `_ok` -/
def ok (requestId : JsonVal) (result : JsonObj) : JsonVal :=
  .obj [(PyStr.lit "jsonrpc", .lit "2.0"), (PyStr.lit "id", requestId),
    (PyStr.lit "result", .obj result)]

/-- `_err` -/
def err (requestId : JsonVal) (code : Int) (message : PyStr) (data : Option PyStr) : JsonVal :=
  let error : JsonObj := [(PyStr.lit "code", .int code), (PyStr.lit "message", .str message)] ++
    (data.map fun d => (PyStr.lit "data", JsonVal.str d)).toList
  .obj [(PyStr.lit "jsonrpc", .lit "2.0"), (PyStr.lit "id", requestId),
    (PyStr.lit "error", .obj error)]

/-- `_PARSE_ERROR` -/
def parseError : Int := -32700
/-- `_INVALID_REQUEST` -/
def invalidRequest : Int := -32600
/-- `_METHOD_NOT_FOUND` -/
def methodNotFound : Int := -32601
/-- `_INTERNAL_ERROR` -/
def internalError : Int := -32603

/-- The result as `json.dumps` takes it. -/
def dumpable : Fields → Except RpcExc JsonObj
  | [] => .ok []
  | (k, .json v) :: rest => (dumpable rest).map ((k, v) :: ·)
  | (_, .object _ _) :: _ => .error .notSerializable

/-- `str(e)` -/
def excText (host : RpcHost) : RpcExc → PyStr
  | .kernel e => e.text
  | e => host.excText e

/-- The response to what the handler returned or raised. -/
def respond (host : RpcHost) (requestId : JsonVal) (outcome : Except RpcExc Fields) : JsonVal :=
  match outcome.bind dumpable with
  | .ok result => ok requestId result
  | .error e =>
    err requestId internalError (PyStr.lit "Internal error") (some (excText host e))

/-- The handler of a method. -/
def handlerOf (host : RpcHost) (serverAuthority : PyStr) (method : PyStr) (params : JsonVal) :
    Option Handler :=
  if method = PyStr.lit "ugk.govern" then some (handleGovern host serverAuthority params)
  else if method = PyStr.lit "ugk.status" then some handleStatus
  else if method = PyStr.lit "ugk.verify" then some handleVerify
  else if method = PyStr.lit "ugk.attest" then some handleAttest
  else none

/-- `handle_request`: the text it returns, or the exception it lets through. -/
def handleRequest (host : RpcHost) (serverAuthority raw : PyStr) :
    Calls Query Reply (Except RpcExc (List Char)) :=
  match host.loads raw with
  | none => .ret (.ok (dumps (err .null parseError (PyStr.lit "Parse error") none)))
  | some (.obj req) =>
    let requestId := JsonObj.getD req "id" .null
    let params := JsonObj.getD req "params" (.obj [])
    match JsonObj.getD req "method" (.lit "") with
    | .str method =>
      match handlerOf host serverAuthority method params with
      | none => .ret (.ok (dumps (err requestId methodNotFound
          (PyStr.lit "Method not found: " ++ host.repr method) none)))
      | some handler => handler.map fun outcome => .ok (dumps (respond host requestId outcome))
    | _ => .ret (.ok (dumps (err requestId invalidRequest (PyStr.lit "Invalid method") none)))
  | some req => .ret (.error (.noAttribute req))

/-! ## Serving several requests -/

/-- The section under the lock: whether the nonce is new, and the set afterwards. -/
def consume (seen : List NonceKey) (key : NonceKey) : Bool × List NonceKey :=
  if key ∈ seen then (false, seen) else (true, key :: seen)

/-- How questions are answered: the nonce set as it stands, the kernel in any way. -/
def Answers (seen : List NonceKey) : (q : Query) → Reply q → List NonceKey → Prop
  | .claim key, fresh, seen' => (fresh, seen') = consume seen key
  | _, _, seen' => seen' = seen

/-- A new server with a thread for each request. -/
def serve (host : RpcHost) (serverAuthority : PyStr) (raws : List PyStr) :
    Pool (List NonceKey) Query Reply (Except RpcExc (List Char)) :=
  ⟨[], raws.map (handleRequest host serverAuthority)⟩

end Rpc

end Ugk
