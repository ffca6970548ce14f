import Ugk.ForStd.KeyTable
import Ugk.Native.Authority

/-!
# The authority graph

`AuthorityGraph` of `ugk/authority/authority_graph.py`: one incoming edge for each subject, replaced
when another one is added, and the walk from a target up to the Governor.
-/

namespace Ugk

/-- `AuthorityGraph`: the edges under their subjects. -/
structure AuthorityGraph where
  edges : List (String × AuthorityEdge) := []

namespace AuthorityGraph

/-- `add_edge` -/
def addEdge (g : AuthorityGraph) (edge : AuthorityEdge) : AuthorityGraph where
  edges := KeyTable.put (· == ·) g.edges edge.subject edge

/-- `get_edge_for` -/
def getEdgeFor (g : AuthorityGraph) (subject : String) : Option AuthorityEdge :=
  KeyTable.get (· == ·) g.edges subject

/-- The graph after a sequence of `add_edge` calls. -/
def ofCalls (calls : List AuthorityEdge) : AuthorityGraph := calls.foldl addEdge {}

/-- The loop of `canonical_path`; `none` when it has no rounds left. -/
def pathLoop (g : AuthorityGraph) : Nat → List String → List AuthorityEdge → String →
    Option (Except Exc (List AuthorityEdge))
  | 0, _, _, _ => none
  | rounds + 1, seen, path, cursor =>
    if cursor = governorAuthority then some (.ok path)
    else if cursor ∈ seen then some (.error (.valueError "cycle detected"))
    else
      match g.getEdgeFor cursor with
      | none => some (.error (.valueError "no incoming edge"))
      | some edge => pathLoop g rounds (seen ++ [cursor]) (path ++ [edge]) edge.issuer

/-- `canonical_path` with a number of rounds for its loop. -/
def canonicalPath (g : AuthorityGraph) (rounds : Nat) (target : String) :
    Option (Except Exc (List AuthorityEdge)) :=
  if target = governorAuthority then some (.ok [])
  else (pathLoop g rounds [] [] target).map fun result => result.map List.reverse

end AuthorityGraph

end Ugk
