import Ugk.Native.Warrant

/-!
# Lineage and cycles of the warrant store

`all_warrants`, `lineage_from` and `is_acyclic` of `WarrantStore` (`ugk/governance/warrant.py`): the
walk along the prior links and the depth-first search over them.
-/

namespace Ugk

/-- `all_warrants` -/
def allWarrants (env : Env) (rows : List WarrantRow) : Except Exc (List DecisionWarrant) :=
  rows.mapM (WarrantRow.toWarrant env)

/-- The loop of `lineage_from`, over the depth that is left. -/
def lineageLoop (env : Env) (rows : List WarrantRow) : Nat → List String → List DecisionWarrant →
    String → Except Exc (List DecisionWarrant)
  | 0, _, result, _ => .ok result
  | depth + 1, visited, result, currentHash =>
    if currentHash = "" ∨ currentHash = genesisWarrantHash ∨ currentHash ∈ visited then .ok result
    else
      match getWarrant env rows currentHash with
      | .error e => .error e
      | .ok none => .ok result
      | .ok (some w) =>
        lineageLoop env rows depth (visited ++ [currentHash]) (result ++ [w]) w.priorWarrantHash

/-- `by_hash` of `is_acyclic`: of warrants with one hash the last one counts. -/
def byHash (warrants : List DecisionWarrant) (wh : String) : Option DecisionWarrant :=
  warrants.reverse.find? fun w => w.warrantHash == wh

end Ugk
