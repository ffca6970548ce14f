import Ugk.Native.Receipt

/-!
# Decision warrants

`ugk/governance/warrant.py`: content-addressed warrants and the store that keeps them, with the
Python orders and equalities they rest on.
-/

namespace Ugk

/-! ## `==`, `<` and `sorted` -/

/-- A number as a value. -/
def PyVal.num? : PyVal → Option (Int ⊕ PyFloat)
  | .bool b => some (.inl (if b then 1 else 0))
  | .int n => some (.inl n)
  | .float x => some (.inr x)
  | _ => Option.none

/-- Whether a number is NaN. -/
def isNan : Int ⊕ PyFloat → Bool
  | .inr (.nonFinite .nan) => true
  | _ => false

/-- `a == b` between numbers. -/
def numEq (env : Env) (a b : Int ⊕ PyFloat) : Bool :=
  !isNan a && !isNan b && !numLt env a b && !numLt env b a

mutual

/-- `a == b` -/
def pyEq (env : Env) : PyVal → PyVal → Bool
  | .none, .none => true
  | .str a, .str b => a == b
  | .list xs, .list ys => pyEqList env xs ys
  | .tuple xs, .tuple ys => pyEqList env xs ys
  | .dict kvs, .dict kvs' => kvs.length == kvs'.length && pyEqItems env kvs kvs'
  | .other a, .other b => a == b
  | a, b =>
    match a.num?, b.num? with
    | some x, some y => numEq env x y
    | _, _ => false
termination_by structural a => a

/-- `xs == ys` for the elements of sequences. -/
def pyEqList (env : Env) : List PyVal → List PyVal → Bool
  | [], [] => true
  | x :: xs, y :: ys => pyEq env x y && pyEqList env xs ys
  | _, _ => false
termination_by structural xs => xs

/-- Every item of a dictionary is in another one. -/
def pyEqItems (env : Env) : List (PyKey × PyVal) → PyDict → Bool
  | [], _ => true
  | m :: ms, d => pyEqItem env m d && pyEqItems env ms d
termination_by structural ms => ms

/-- One item is in a dictionary. -/
def pyEqItem (env : Env) : PyKey × PyVal → PyDict → Bool
  | (k, v), d =>
    match d.lookup k with
    | some v' => pyEq env v v'
    | Option.none => false
termination_by structural m => m

end

mutual

/-- `a < b`; `none` is a `TypeError`. -/
def pyLt (env : Env) : PyVal → PyVal → Option Bool
  | .str a, .str b => some (decide (a < b))
  | .list xs, .list ys => pyLtList env xs ys
  | .tuple xs, .tuple ys => pyLtList env xs ys
  | a, b =>
    match a.num?, b.num? with
    | some x, some y => some (numLt env x y)
    | _, _ => Option.none
termination_by structural a => a

/-- Sequences compare at their first different elements. -/
def pyLtList (env : Env) : List PyVal → List PyVal → Option Bool
  | [], ys => some (!ys.isEmpty)
  | _ :: _, [] => some false
  | x :: xs, y :: ys => if pyEq env x y then pyLtList env xs ys else pyLt env x y
termination_by structural xs => xs

end

/-- Every two elements, in both orders, can be compared. -/
def comparable (env : Env) : List PyVal → Bool
  | [] => true
  | x :: xs => xs.all (fun y => (pyLt env x y).isSome && (pyLt env y x).isSome) && comparable env xs

/-- `sorted(xs)` -/
def pySorted (env : Env) (xs : List PyVal) : Except Exc (List PyVal) :=
  if comparable env xs then .ok (xs.insertionSort fun a b => (pyLt env b a).getD false = false)
  else .error (.typeError "'<' not supported between instances")

/-! ## `DecisionWarrant` -/

def resultAdmit : Int := 9001
def resultRefuse : Int := 9002
def analysisAuthSufficient : Int := 9101
def analysisJurisValid : Int := 9102

/-- `GENESIS_WARRANT_HASH` -/
def genesisWarrantHash : String :=
  "0000000000000000000000000000000000000000000000000000000000000000"

/-- `DecisionWarrant` -/
structure DecisionWarrant where
  warrantHash : String
  priorWarrantHash : String
  constitutionalBasis : List PyVal
  authorityResult : Int
  jurisdictionResult : Int
  result : Int
  lawHash : String
  legendHash : String
  timestamp : String

namespace DecisionWarrant

/-- `body_dict` -/
def bodyDict (w : DecisionWarrant) : PyVal := strDict [
  ("authority_result", .int w.authorityResult),
  ("constitutional_basis", .list w.constitutionalBasis),
  ("jurisdiction_result", .int w.jurisdictionResult),
  ("law_hash", .str w.lawHash), ("legend_hash", .str w.legendHash),
  ("prior_warrant_hash", .str w.priorWarrantHash), ("result", .int w.result),
  ("timestamp", .str w.timestamp)]

/-- `hashlib.sha256(_cj(body)).hexdigest()` -/
def bodyHash (env : Env) (w : DecisionWarrant) : Except Exc String :=
  (bindingCanonicalJson env w.bodyDict).map fun cs => (env.sha256 (text cs)).hex

/-- `create`, with the basis already sorted once by its callers. -/
def create (env : Env) (basis : List PyVal) (lawHash legendHash timestamp : String)
    (result : Int) : Except Exc DecisionWarrant := do
  let sortedBasis ← pySorted env basis
  let w : DecisionWarrant := {
    warrantHash := ""
    priorWarrantHash := genesisWarrantHash
    constitutionalBasis := sortedBasis
    authorityResult := analysisAuthSufficient
    jurisdictionResult := analysisJurisValid
    result := result
    lawHash := lawHash
    legendHash := legendHash
    timestamp := timestamp }
  let h ← bodyHash env w
  .ok { w with warrantHash := h }

/-- `verify_hash` -/
def verifyHash (env : Env) (w : DecisionWarrant) : Except Exc Bool :=
  (bodyHash env w).map fun h => w.warrantHash == h

end DecisionWarrant

/-! ## `WarrantStore` -/

/-- A row of the `warrants` table: the basis is JSON text. -/
structure WarrantRow where
  warrantHash : String
  priorWarrantHash : String
  basisJson : String
  authorityResult : Int
  jurisdictionResult : Int
  result : Int
  lawHash : String
  legendHash : String
  timestamp : String

/-- `_row_to_warrant` -/
def WarrantRow.toWarrant (env : Env) (row : WarrantRow) : Except Exc DecisionWarrant := do
  let v ← loads env row.basisJson
  let basis ← match v with
    | .list xs => pySorted env xs
    | _ => .error (.typeError "object is not iterable")
  .ok {
    warrantHash := row.warrantHash
    priorWarrantHash := row.priorWarrantHash
    constitutionalBasis := basis
    authorityResult := row.authorityResult
    jurisdictionResult := row.jurisdictionResult
    result := row.result
    lawHash := row.lawHash
    legendHash := row.legendHash
    timestamp := row.timestamp }

/-- `WarrantStore.get` -/
def getWarrant (env : Env) (rows : List WarrantRow) (warrantHash : String) :
    Except Exc (Option DecisionWarrant) :=
  match rows.find? fun r => r.warrantHash == warrantHash with
  | some row => (row.toWarrant env).map some
  | none => .ok none

/-- `INSERT OR IGNORE INTO warrants` -/
def insertWarrant (rows : List WarrantRow) (row : WarrantRow) : List WarrantRow :=
  if rows.any fun r => r.warrantHash == row.warrantHash then rows else rows ++ [row]

/-- The row of a warrant whose basis is dumped as `basisJson`. -/
def DecisionWarrant.row (w : DecisionWarrant) (basisJson : String) : WarrantRow where
  warrantHash := w.warrantHash
  priorWarrantHash := w.priorWarrantHash
  basisJson := basisJson
  authorityResult := w.authorityResult
  jurisdictionResult := w.jurisdictionResult
  result := w.result
  lawHash := w.lawHash
  legendHash := w.legendHash
  timestamp := w.timestamp

/-- `sqlite3` takes the three results as parameters. -/
def DecisionWarrant.bindable (w : DecisionWarrant) : Bool :=
  [w.authorityResult, w.jurisdictionResult, w.result].all fun n => Ugk.bindable (.int n)

/-- The rows after an insert, and whether the write ends well: the warrant must read back equal. -/
def writeWarrant (env : Env) (rows : List WarrantRow) (w : DecisionWarrant) :
    Except Exc Unit × List WarrantRow :=
  match w.verifyHash env with
  | .error e => (.error e, rows)
  | .ok false => (.error (.warrantStoreError "warrant_hash does not verify"), rows)
  | .ok true =>
    -- `json.dumps` here does not sort keys, which `==` on what it reads back cannot tell
    match paramsJson env (.list w.constitutionalBasis) with
    | .error e => (.error e, rows)
    | .ok basisJson =>
      if !w.bindable then
        (.error (.warrantStoreError
          "warrant write failed: Python int too large to convert to SQLite INTEGER"), rows)
      else
        let rows' := insertWarrant rows (w.row basisJson)
        match getWarrant env rows' w.warrantHash with
        | .error e => (.error e, rows')
        | .ok none =>
          (.error (.warrantStoreError "warrant write did not materialize durably"), rows')
        | .ok (some stored) =>
          if pyEq env stored.bodyDict w.bodyDict then (.ok (), rows')
          else (.error (.warrantStoreError "warrant write did not materialize durably"), rows')

end Ugk
