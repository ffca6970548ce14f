import Ugk.Native.NamespaceGovernance
import Ugk.Native.Store

/-!
# Reading by operation

The readers of `ugk/storage/store.py` whose SQL selects rows by the stored text of the operation:
`receipts_by_op` and `refusal_rate_by_op`.  (`refusal_count` stands with the other counts.)
-/

namespace Ugk

/-- `receipts_by_op`: the text is compared as it is stored. -/
def receiptsByOp (env : Env) (rows : List Row) (op : String) : Except Exc (List Receipt) :=
  (rows.filter fun r => r.op == op).mapM (rowToReceipt env)

/-- The entry of `counts` for one operation. -/
structure RateCounts where
  admitted : Nat := 0
  refused : Nat := 0

/-- `json.loads(pj).get("op", "unknown")` -/
def governedOp : PyVal → Except Exc PyVal
  | .dict d => .ok (if PyDict.has d "op" then PyDict.get d "op" else .str "unknown")
  | _ => .error attributeError

/-- `counts.setdefault(governed_op, ..)`, and one more. -/
def countUnder (env : Env) (bump : RateCounts → RateCounts) (counts : List (PyVal × RateCounts))
    (op : PyVal) : Except Exc (List (PyVal × RateCounts)) :=
  if op.unhashable then .error (.typeError "unhashable type")
  else .ok (KeyTable.put (containerEq env) counts op
    (bump ((KeyTable.get (containerEq env) counts op).getD {})))

/-- One loop over parameter documents. -/
def countAll (env : Env) (bump : RateCounts → RateCounts) (counts : List (PyVal × RateCounts))
    (documents : List (Except Exc PyVal)) : Except Exc (List (PyVal × RateCounts)) :=
  documents.foldlM (fun counts document => do
    let parameters ← document
    let op ← governedOp parameters
    countUnder env bump counts op) counts

/-- The rates of some admissions and refusals; a quotient stands for the float division. -/
def refusalRates (env : Env) (admits refuses : List (Except Exc PyVal)) :
    Except Exc (List (PyVal × Rat)) := do
  let counts ← countAll env (fun c => { c with admitted := c.admitted + 1 }) [] admits
  let counts ← countAll env (fun c => { c with refused := c.refused + 1 }) counts refuses
  .ok (counts.map fun e =>
    (e.1, if e.2.admitted + e.2.refused > 0 then
      (e.2.refused : Rat) / (e.2.admitted + e.2.refused) else 0))

/-- `refusal_rate_by_op` -/
def refusalRateByOp (env : Env) (rows : List Row) : Except Exc (List (PyVal × Rat)) :=
  let documents (op : String) := (rows.filter fun r => r.op == op).map fun r => loads env r.parameters
  refusalRates env (documents "gate_admit") (documents "gate_refuse")

end Ugk
