import Mathlib.Data.List.Infix
import Mathlib.Data.List.Nodup

/-!
# Binary trees over a row of nodes

A row is folded level by level: neighbours are combined, and the last node of a row of odd length is
combined with itself.  A path lists the siblings met on the way up from one position.

The same fold over syntax trees says which nodes were combined.  The leaves of that tree are the row
followed by copies, so a row without repetitions can be read off.

## Key results

- `fold_path`: the path of a position climbs to the root
- `exists_prefix_of_fold_eq_root`: a path that ends at the root has passed through the row
- `eq_of_root_eq`: a row without repetitions is determined by its tree
-/

namespace PairTree

variable {α β γ : Type}

/-! ## Rows -/

/-- The row above: neighbours are combined, an odd last node with itself. -/
def pairUp (node : β → β → β) : List β → List β
  | [] => []
  | [a] => [node a a]
  | a :: b :: rest => node a b :: pairUp node rest

theorem length_pairUp (node : β → β → β) (row : List β) :
    (pairUp node row).length = (row.length + 1) / 2 := by
  induction row using pairUp.induct with
  | case1 => simp [pairUp]
  | case2 => simp [pairUp]
  | case3 a b rest ih => simp only [pairUp, List.length_cons, ih]; omega

/-- The root over a row, `d` over the empty one. -/
def root (node : β → β → β) (d : β) : List β → β
  | [] => d
  | [a] => a
  | a :: b :: rest => root node d (pairUp node (a :: b :: rest))
termination_by row => row.length
decreasing_by
  rw [length_pairUp]
  simp only [List.length_cons]
  omega

/-- The nodes that are combined from the right: every second one, and an odd last one. -/
def rights : List β → List β
  | [] => []
  | [a] => [a]
  | _ :: b :: rest => b :: rights rest

theorem rights_subset (row : List β) : rights row ⊆ row := by
  induction row using rights.induct with
  | case1 => exact fun _ h => h
  | case2 a => exact fun _ h => h
  | case3 a b rest ih =>
    intro c hc
    rcases List.mem_cons.mp hc with rfl | hc
    · simp
    · simp [ih hc]

theorem map_rights (f : β → γ) (row : List β) : (rights row).map f = rights (row.map f) := by
  induction row using rights.induct with
  | case1 => rfl
  | case2 a => rfl
  | case3 a b rest ih => simp [rights, ih]

/-- A node of the row above was combined from the right with one of `rights`. -/
theorem mem_pairUp {node : β → β → β} {row : List β} {c : β} (h : c ∈ pairUp node row) :
    ∃ a ∈ row, ∃ b ∈ rights row, c = node a b := by
  induction row using pairUp.induct with
  | case1 => exact absurd h List.not_mem_nil
  | case2 a =>
    obtain rfl := List.mem_singleton.mp h
    exact ⟨a, by simp, a, by simp [rights], rfl⟩
  | case3 a b rest ih =>
    rcases List.mem_cons.mp h with rfl | h
    · exact ⟨a, by simp, b, by simp [rights], rfl⟩
    · obtain ⟨x, hx, y, hy, rfl⟩ := ih h
      exact ⟨x, by simp [hx], y, by simp [rights, hy], rfl⟩

/-- Each of them has its node in the row above. -/
theorem exists_mem_pairUp {row : List β} {b : β} (node : β → β → β) (h : b ∈ rights row) :
    ∃ a ∈ row, node a b ∈ pairUp node row := by
  induction row using rights.induct with
  | case1 => exact absurd h List.not_mem_nil
  | case2 a =>
    obtain rfl := List.mem_singleton.mp h
    exact ⟨b, by simp, by simp [pairUp]⟩
  | case3 a c rest ih =>
    rcases List.mem_cons.mp h with rfl | h
    · exact ⟨a, by simp, by simp [pairUp]⟩
    · obtain ⟨x, hx, hnode⟩ := ih h
      exact ⟨x, by simp [hx], by simp [pairUp, hnode]⟩

theorem pairUp_ne_nil {node : β → β → β} {row : List β} (h : row ≠ []) : pairUp node row ≠ [] := by
  intro hnil
  have hlen := length_pairUp node row
  rw [hnil, List.length_nil] at hlen
  have hpos := List.length_pos_of_ne_nil h
  omega

/-- The value over the empty row does not matter for another one. -/
theorem root_default (node : β → β → β) (d d' : β) {row : List β} (h : row ≠ []) :
    root node d row = root node d' row := by
  induction row using root.induct node with
  | case1 => exact absurd rfl h
  | case2 a => rw [root, root]
  | case3 a b rest ih => rw [root, root, ih (pairUp_ne_nil h)]

theorem map_pairUp {node : β → β → β} {node' : γ → γ → γ} {f : β → γ}
    (hf : ∀ a b, f (node a b) = node' (f a) (f b)) (row : List β) :
    (pairUp node row).map f = pairUp node' (row.map f) := by
  induction row using pairUp.induct with
  | case1 => rfl
  | case2 a => simp [pairUp, hf]
  | case3 a b rest ih => simp [pairUp, hf, ih]

/-- A homomorphism of the combination carries roots to roots. -/
theorem map_root {node : β → β → β} {node' : γ → γ → γ} {f : β → γ}
    (hf : ∀ a b, f (node a b) = node' (f a) (f b)) (d : β) (row : List β) :
    f (root node d row) = root node' (f d) (row.map f) := by
  induction row using root.induct node with
  | case1 => simp [root]
  | case2 a => simp [root]
  | case3 a b rest ih =>
    rw [root, ih, map_pairUp hf]
    simp [root]

/-- The root is a node when the row is one of nodes. -/
theorem root_of_forall {node : β → β → β} {d : β} {good : β → Prop}
    (hnode : ∀ a b, good (node a b)) {row : List β} (hrow : row ≠ []) (hall : ∀ a ∈ row, good a) :
    good (root node d row) := by
  induction row using root.induct node with
  | case1 => exact absurd rfl hrow
  | case2 a => rw [root]; exact hall a (by simp)
  | case3 a b rest ih =>
    rw [root]
    refine ih (pairUp_ne_nil hrow) ?_
    intro c hc
    obtain ⟨x, _, y, _, rfl⟩ := mem_pairUp hc
    exact hnode x y

/-! ## Paths -/

/-- Which side of the climbing node a sibling is on. -/
inductive Side where
  | left
  | right
deriving DecidableEq, Repr

/-- One step up. -/
def climb (node : β → β → β) (c : β) : β × Side → β
  | (s, .left) => node s c
  | (s, .right) => node c s

/-- The node a path leads to. -/
def fold (node : β → β → β) (c : β) (path : List (β × Side)) : β := path.foldl (climb node) c

@[simp] theorem fold_nil (node : β → β → β) (c : β) : fold node c [] = c := rfl

@[simp] theorem fold_cons (node : β → β → β) (c : β) (s : β × Side) (path : List (β × Side)) :
    fold node c (s :: path) = fold node (climb node c s) path := rfl

theorem fold_append (node : β → β → β) (c : β) (p q : List (β × Side)) :
    fold node c (p ++ q) = fold node (fold node c p) q := List.foldl_append

theorem fold_concat (node : β → β → β) (c : β) (p : List (β × Side)) (s : β × Side) :
    fold node c (p ++ [s]) = climb node (fold node c p) s := by
  rw [fold_append, fold_cons, fold_nil]

/-- The sibling of a position; a last node without one is its own. -/
def sibling (d : β) (row : List β) (i : Nat) : β × Side :=
  if i % 2 = 0 then (row.getD (if i + 1 < row.length then i + 1 else i) d, .right)
  else (row.getD (i - 1) d, .left)

/-- The path of a position. -/
def path (node : β → β → β) (d : β) : List β → Nat → List (β × Side)
  | [], _ => []
  | [_], _ => []
  | a :: b :: rest, i =>
    sibling d (a :: b :: rest) i :: path node d (pairUp node (a :: b :: rest)) (i / 2)
termination_by row => row.length
decreasing_by
  rw [length_pairUp]
  simp only [List.length_cons]
  omega

/-- One step up along the sibling leads to the node above. -/
theorem climb_sibling (node : β → β → β) (d : β) {row : List β} {i : Nat} (h : i < row.length) :
    climb node (row.getD i d) (sibling d row i) = (pairUp node row).getD (i / 2) d := by
  induction row using pairUp.induct generalizing i with
  | case1 => exact absurd h (Nat.not_lt_zero i)
  | case2 a =>
    obtain rfl : i = 0 := by simpa using h
    simp [sibling, climb, pairUp]
  | case3 a b rest ih =>
    match i, h with
    | 0, _ => simp [sibling, climb, pairUp]
    | 1, _ => simp [sibling, climb, pairUp]
    | i + 2, h =>
      have hi : i < rest.length := by simpa using h
      have hhalf : (i + 2) / 2 = i / 2 + 1 := by omega
      have hsib : sibling d (a :: b :: rest) (i + 2) = sibling d rest i := by
        unfold sibling
        by_cases heven : i % 2 = 0
        · have heven' : (i + 2) % 2 = 0 := by omega
          rw [if_pos heven, if_pos heven']
          by_cases hlast : i + 1 < rest.length
          · have hlast' : i + 2 + 1 < (a :: b :: rest).length := by
              simp only [List.length_cons]
              omega
            rw [if_pos hlast, if_pos hlast']
            rfl
          · have hlast' : ¬i + 2 + 1 < (a :: b :: rest).length := by
              simp only [List.length_cons]
              omega
            rw [if_neg hlast, if_neg hlast']
            rfl
        · have hodd : ¬(i + 2) % 2 = 0 := by omega
          have hpred : i + 2 - 1 = i - 1 + 2 := by omega
          rw [if_neg heven, if_neg hodd, hpred]
          rfl
      rw [hsib, hhalf]
      exact ih hi

/-- The path of a position climbs from it to the root. -/
theorem fold_path (node : β → β → β) (d : β) {row : List β} {i : Nat} (h : i < row.length) :
    fold node (row.getD i d) (path node d row i) = root node d row := by
  induction row using root.induct node generalizing i with
  | case1 => exact absurd h (Nat.not_lt_zero i)
  | case2 a =>
    obtain rfl : i = 0 := by simpa using h
    simp [path, root]
  | case3 a b rest ih =>
    have habove : i / 2 < (pairUp node (a :: b :: rest)).length := by
      rw [length_pairUp]
      omega
    rw [path, fold_cons, climb_sibling node d h, ih habove, root]

/-- Every node of a row has a path to the root. -/
theorem exists_path (node : β → β → β) (d : β) {row : List β} {c : β} (h : c ∈ row) :
    ∃ p, fold node c p = root node d row := by
  obtain ⟨i, hi, rfl⟩ := List.getElem_of_mem h
  have hget : row.getD i d = row[i] := by
    rw [List.getD_eq_getElem?_getD, List.getElem?_eq_getElem hi]
    rfl
  exact ⟨path node d row i, hget ▸ fold_path node d hi⟩

/-- A path that ends at the root of a row has passed through the row, when no step below a node of
    the tree could have started anywhere else. -/
theorem exists_prefix_of_fold_eq_root {node : β → β → β} {d t : β} {inner : β → Prop}
    (hinner : ∀ a b, inner a → inner b → inner (node a b))
    (hstart : ∀ a b, inner a → inner b → t ≠ node a b)
    (hstep : ∀ q s a b, inner a → inner b → climb node (fold node t q) s = node a b →
      fold node t q = a ∨ fold node t q = b)
    {row : List β} (hrow : row ≠ []) (hall : ∀ a ∈ row, inner a) {p : List (β × Side)}
    (h : fold node t p = root node d row) : ∃ q, q <+: p ∧ fold node t q ∈ row := by
  induction row using root.induct node with
  | case1 => exact absurd rfl hrow
  | case2 a =>
    rw [root] at h
    exact ⟨p, List.prefix_rfl, by rw [h]; simp⟩
  | case3 a b rest ih =>
    rw [root] at h
    have habove : ∀ c ∈ pairUp node (a :: b :: rest), inner c := by
      intro c hc
      obtain ⟨x, hx, y, hy, rfl⟩ := mem_pairUp hc
      exact hinner x y (hall x hx) (hall y (rights_subset _ hy))
    obtain ⟨q, hq, hmem⟩ := ih (pairUp_ne_nil hrow) habove h
    obtain ⟨x, hx, y, hright, hnode⟩ := mem_pairUp hmem
    have hy := rights_subset _ hright
    cases q using List.reverseRecOn with
    | nil => exact absurd hnode (hstart x y (hall x hx) (hall y hy))
    | append_singleton q s =>
      rw [fold_concat] at hnode
      refine ⟨q, (List.prefix_append q [s]).trans hq, ?_⟩
      rcases hstep q s x y (hall x hx) (hall y hy) hnode with hx' | hy'
      · exact hx' ▸ hx
      · exact hy' ▸ hy

/-! ## Syntax trees -/

/-- What was combined. -/
inductive Tree (α : Type) where
  | leaf (a : α)
  | node (l r : Tree α)

namespace Tree

/-- The value of a tree. -/
def eval (node : β → β → β) (f : α → β) : Tree α → β
  | .leaf a => f a
  | .node l r => node (l.eval node f) (r.eval node f)

/-- The leaves of a tree, from left to right. -/
def fringe : Tree α → List α
  | .leaf a => [a]
  | .node l r => l.fringe ++ r.fringe

end Tree

/-- The leaves one level up: the same, and those of an odd last node once more. -/
theorem fringe_pairUp (row : List (Tree α)) :
    row.flatMap Tree.fringe <+: (pairUp Tree.node row).flatMap Tree.fringe ∧
      ∀ a ∈ (pairUp Tree.node row).flatMap Tree.fringe, a ∈ row.flatMap Tree.fringe := by
  induction row using pairUp.induct with
  | case1 => exact ⟨List.prefix_rfl, fun a h => h⟩
  | case2 t =>
    simp only [pairUp, List.flatMap_cons, List.flatMap_nil, Tree.fringe, List.append_nil]
    exact ⟨List.prefix_append _ _, fun a h => (List.mem_append.mp h).elim id id⟩
  | case3 t u rest ih =>
    obtain ⟨hle, hmem⟩ := ih
    simp only [pairUp, List.flatMap_cons, Tree.fringe, List.append_assoc]
    constructor
    · exact (List.prefix_append_right_inj _).mpr ((List.prefix_append_right_inj _).mpr hle)
    · intro a h
      simp only [List.mem_append] at h ⊢
      rcases h with h | h | h
      · exact .inl h
      · exact .inr (.inl h)
      · exact .inr (.inr (hmem a h))

/-- The leaves of the root: those of the row, and then copies. -/
theorem fringe_root (d : Tree α) {row : List (Tree α)} (hrow : row ≠ []) :
    row.flatMap Tree.fringe <+: (root Tree.node d row).fringe ∧
      ∀ a ∈ (root Tree.node d row).fringe, a ∈ row.flatMap Tree.fringe := by
  induction row using root.induct Tree.node with
  | case1 => exact absurd rfl hrow
  | case2 t => simp [root]
  | case3 t u rest ih =>
    obtain ⟨hle, hmem⟩ := ih (pairUp_ne_nil hrow)
    obtain ⟨hlevel, hmemlevel⟩ := fringe_pairUp (t :: u :: rest)
    rw [root]
    exact ⟨hlevel.trans hle, fun a h => hmemlevel a (hmem a h)⟩

/-- Of two prefixes of one list that name all its elements, the one without repetitions is not the
    longer. -/
theorem eq_of_prefix_of_mem {xs ys zs : List α} (hx : xs <+: zs) (hy : ys <+: zs)
    (hmem : ∀ a ∈ zs, a ∈ xs) (hle : xs.length ≤ ys.length) (hnodup : ys.Nodup) : xs = ys := by
  obtain ⟨more, rfl⟩ := List.prefix_of_prefix_length_le hx hy hle
  cases more with
  | nil => rw [List.append_nil]
  | cons a more =>
    have ha : a ∈ xs := hmem a (hy.subset (by simp))
    exact absurd rfl ((List.nodup_append.mp hnodup).2.2 a ha a (by simp))

/-- A row without repetitions is determined by its tree. -/
theorem eq_of_root_eq (d : Tree α) {xs ys : List α} (hx : xs ≠ []) (hy : ys ≠ [])
    (hxs : xs.Nodup) (hys : ys.Nodup)
    (h : root Tree.node d (xs.map .leaf) = root Tree.node d (ys.map .leaf)) : xs = ys := by
  have hleaves (zs : List α) : (zs.map Tree.leaf).flatMap Tree.fringe = zs := by
    simp [List.flatMap_map, Tree.fringe]
  obtain ⟨hpx, hmx⟩ := @fringe_root α d (xs.map .leaf) (by simpa using hx)
  obtain ⟨hpy, hmy⟩ := @fringe_root α d (ys.map .leaf) (by simpa using hy)
  rw [hleaves] at hpx hpy
  simp only [hleaves] at hmx hmy
  rw [h] at hpx hmx
  rcases Nat.le_total xs.length ys.length with hle | hle
  · exact eq_of_prefix_of_mem hpx hpy hmx hle hys
  · exact (eq_of_prefix_of_mem hpy hpx hmy hle hxs).symm

end PairTree
