import Mathlib.Data.List.Basic

/-!
# Least closures under edges

A finite set is grown round by round: whatever the edges of its members lead to is added, until a
round adds nothing.  With a round for every target there is, the result is the least set with the
seed that is closed under the edges.

## Key results

- `mem_rounds_reachIn`: what a number of rounds reaches
- `mem_rounds_iff`: what enough rounds reach
- `rounds_subset`: the result is below every closed set with the seed
-/

namespace Closure

variable {α : Type*} [DecidableEq α]

/-- What one round adds: the targets of the members that are not members yet. -/
def fresh (edges : List (α × List α)) (covered : List α) : List α :=
  ((edges.filter fun e => e.1 ∈ covered).flatMap Prod.snd).filter fun x => x ∉ covered

/-- At most `n` rounds, until one adds nothing. -/
def rounds (edges : List (α × List α)) : Nat → List α → List α
  | 0, covered => covered
  | n + 1, covered =>
    if fresh edges covered = [] then covered else rounds edges n (covered ++ fresh edges covered)

/-- What the edges reach from the seed. -/
inductive Reach (edges : List (α × List α)) (seed : List α) : α → Prop
  | seed {x : α} (h : x ∈ seed) : Reach edges seed x
  | edge {x : α} {e : α × List α} (h : Reach edges seed e.1) (he : e ∈ edges) (hx : x ∈ e.2) :
      Reach edges seed x

variable {edges : List (α × List α)} {covered seed : List α}

theorem mem_fresh {x : α} :
    x ∈ fresh edges covered ↔ (∃ e ∈ edges, e.1 ∈ covered ∧ x ∈ e.2) ∧ x ∉ covered := by
  simp [fresh, and_assoc]

theorem subset_rounds (n : Nat) (covered : List α) : covered ⊆ rounds edges n covered := by
  induction n generalizing covered with
  | zero => exact List.Subset.refl covered
  | succ n ih =>
    unfold rounds
    split
    · exact List.Subset.refl covered
    · exact fun x hx => ih _ (List.mem_append_left _ hx)

/-- The result is below every set that has the seed and is closed under the edges. -/
theorem rounds_subset {S : α → Prop} (hclosed : ∀ e ∈ edges, S e.1 → ∀ x ∈ e.2, S x) (n : Nat)
    (covered : List α) (hseed : ∀ x ∈ covered, S x) : ∀ x ∈ rounds edges n covered, S x := by
  induction n generalizing covered with
  | zero => exact hseed
  | succ n ih =>
    unfold rounds
    split
    · exact hseed
    · refine ih _ fun x hx => ?_
      rcases List.mem_append.mp hx with hx | hx
      · exact hseed x hx
      · obtain ⟨⟨e, he, hsource, htarget⟩, _⟩ := mem_fresh.mp hx
        exact hclosed e he (hseed e.1 hsource) x htarget

/-- The targets that are still missing. -/
def missing (edges : List (α × List α)) (covered : List α) : List α :=
  (edges.flatMap Prod.snd).filter fun x => x ∉ covered

/-- A round that adds something leaves fewer targets missing. -/
theorem length_missing_lt (h : fresh edges covered ≠ []) :
    (missing edges (covered ++ fresh edges covered)).length < (missing edges covered).length := by
  obtain ⟨x, hx⟩ := List.exists_mem_of_ne_nil _ h
  obtain ⟨⟨e, he, -, htarget⟩, hnew⟩ := mem_fresh.mp hx
  have hsplit : missing edges (covered ++ fresh edges covered) =
      (missing edges covered).filter fun y => y ∉ fresh edges covered := by
    unfold missing
    rw [List.filter_filter]
    refine List.filter_congr fun y _ => ?_
    simp [Bool.and_comm]
  rw [hsplit]
  refine List.length_filter_lt_length_iff_exists.mpr ⟨x, ?_, by simpa using hx⟩
  refine List.mem_filter.mpr ⟨List.mem_flatMap.mpr ⟨e, he, htarget⟩, by simpa using hnew⟩

/-- Enough rounds end in a round that adds nothing. -/
theorem fresh_rounds (n : Nat) (covered : List α) (h : (missing edges covered).length ≤ n) :
    fresh edges (rounds edges n covered) = [] := by
  induction n generalizing covered with
  | zero =>
    -- no target is missing, so a round has nothing to add
    refine List.eq_nil_iff_forall_not_mem.mpr fun x hx => ?_
    unfold rounds at hx
    obtain ⟨⟨e, he, -, htarget⟩, hnew⟩ := mem_fresh.mp hx
    have hmissing : x ∈ missing edges covered :=
      List.mem_filter.mpr ⟨List.mem_flatMap.mpr ⟨e, he, htarget⟩, by simpa using hnew⟩
    rw [List.length_eq_zero_iff.mp (Nat.le_zero.mp h)] at hmissing
    exact nomatch hmissing
  | succ n ih =>
    unfold rounds
    split
    · rename_i hfresh
      exact hfresh
    · rename_i hfresh
      have hlt := length_missing_lt hfresh
      exact ih _ (by omega)

/-- A set to which a round adds nothing is closed under the edges. -/
theorem closed_of_fresh (h : fresh edges covered = []) :
    ∀ e ∈ edges, e.1 ∈ covered → ∀ x ∈ e.2, x ∈ covered := by
  intro e he hsource x hx
  by_contra hnew
  have hmem : x ∈ fresh edges covered := mem_fresh.mpr ⟨⟨e, he, hsource, hx⟩, hnew⟩
  rw [h] at hmem
  exact nomatch hmem

/-- With a round for every target, the result is what the edges reach from the seed. -/
theorem mem_rounds_iff {n : Nat} (h : (edges.flatMap Prod.snd).length ≤ n) {x : α} :
    x ∈ rounds edges n seed ↔ Reach edges seed x := by
  constructor
  · exact rounds_subset (fun e he hsource y hy => .edge hsource he hy) n seed
      (fun y hy => .seed hy) x
  · intro hx
    have hbound : (missing edges seed).length ≤ n := Nat.le_trans (List.length_filter_le _ _) h
    have hclosed := closed_of_fresh (fresh_rounds n seed hbound)
    induction hx with
    | seed h => exact subset_rounds n seed h
    | edge _ he hx ih => exact hclosed _ he ih _ hx

/-! ## A bounded number of edges -/

/-- What the edges reach from the seed in a number of steps. -/
inductive ReachIn (edges : List (α × List α)) (seed : List α) : Nat → α → Prop
  | seed {x : α} (h : x ∈ seed) : ReachIn edges seed 0 x
  | edge {k : Nat} {x : α} {e : α × List α} (h : ReachIn edges seed k e.1) (he : e ∈ edges)
      (hx : x ∈ e.2) : ReachIn edges seed (k + 1) x

omit [DecidableEq α] in
theorem reach_iff {x : α} : Reach edges seed x ↔ ∃ k, ReachIn edges seed k x := by
  constructor
  · intro h
    induction h with
    | seed h => exact ⟨0, .seed h⟩
    | edge _ he hx ih =>
      obtain ⟨k, hk⟩ := ih
      exact ⟨k + 1, hk.edge he hx⟩
  · rintro ⟨k, h⟩
    induction h with
    | seed h => exact .seed h
    | edge _ he hx ih => exact ih.edge he hx

/-- What the first round adds to the seed is one step nearer. -/
theorem reachIn_grown {k : Nat} {x : α} (h : ReachIn edges (covered ++ fresh edges covered) k x) :
    ∃ k' ≤ k + 1, ReachIn edges covered k' x := by
  induction h with
  | seed h =>
    rcases List.mem_append.mp h with h | h
    · exact ⟨0, by omega, .seed h⟩
    · obtain ⟨⟨e, he, hsource, hx⟩, -⟩ := mem_fresh.mp h
      exact ⟨1, by omega, .edge (.seed hsource) he hx⟩
  | edge _ he hx ih =>
    obtain ⟨k', hk', hreach⟩ := ih
    exact ⟨k' + 1, by omega, hreach.edge he hx⟩

theorem reachIn_grow {k : Nat} {x : α} (h : ReachIn edges covered k x) :
    ∃ k' ≤ k - 1, ReachIn edges (covered ++ fresh edges covered) k' x := by
  induction h with
  | seed h => exact ⟨0, by omega, .seed (List.mem_append_left _ h)⟩
  | @edge k x e hsource he hx ih =>
    obtain ⟨k', hk', hreach⟩ := ih
    cases hsource with
    | seed hsource =>
      -- one edge from the seed: the first round has it
      refine ⟨0, by omega, .seed ?_⟩
      by_cases hold : x ∈ covered
      · exact List.mem_append_left _ hold
      · exact List.mem_append_right _ (mem_fresh.mpr ⟨⟨e, he, hsource, hx⟩, hold⟩)
    | edge _ _ _ => exact ⟨k' + 1, by omega, hreach.edge he hx⟩

/-- A closed set has all it reaches. -/
theorem mem_of_reachIn (h : fresh edges covered = []) {k : Nat} {x : α}
    (hx : ReachIn edges covered k x) : x ∈ covered := by
  induction hx with
  | seed h => exact h
  | edge _ he hx ih => exact closed_of_fresh h _ he ih _ hx

/-- Some number of rounds adds what is reached in as many steps. -/
theorem mem_rounds_reachIn (n : Nat) {covered : List α} {x : α} :
    x ∈ rounds edges n covered ↔ ∃ k ≤ n, ReachIn edges covered k x := by
  induction n generalizing covered with
  | zero =>
    constructor
    · intro h
      exact ⟨0, Nat.le_refl _, .seed h⟩
    · rintro ⟨k, hk, h⟩
      obtain rfl := Nat.le_zero.mp hk
      cases h with
      | seed h => exact h
  | succ n ih =>
    unfold rounds
    split
    · rename_i hfresh
      constructor
      · intro h
        exact ⟨0, Nat.zero_le _, .seed h⟩
      · rintro ⟨k, -, h⟩
        exact mem_of_reachIn hfresh h
    · rw [ih]
      constructor
      · rintro ⟨k, hk, h⟩
        obtain ⟨k', hk', h⟩ := reachIn_grown h
        exact ⟨k', by omega, h⟩
      · rintro ⟨k, hk, h⟩
        obtain ⟨k', hk', h⟩ := reachIn_grow h
        exact ⟨k', by omega, h⟩

/-- Every edge of the first graph is an edge of the second. -/
def EdgesLe (edges edges' : List (α × List α)) : Prop :=
  ∀ e ∈ edges, ∀ x ∈ e.2, ∃ e' ∈ edges', e'.1 = e.1 ∧ x ∈ e'.2

omit [DecidableEq α] in
theorem ReachIn.mono {edges' : List (α × List α)} {seed' : List α} (hedges : EdgesLe edges edges')
    (hseed : seed ⊆ seed') {k : Nat} {x : α} (h : ReachIn edges seed k x) :
    ReachIn edges' seed' k x := by
  induction h with
  | seed h => exact .seed (hseed h)
  | edge _ he hx ih =>
    obtain ⟨e', he', hsource, hx'⟩ := hedges _ he _ hx
    exact .edge (hsource ▸ ih) he' hx'

omit [DecidableEq α] in
/-- A step starts from one member of the seed, so the seed may be taken apart. -/
theorem reachIn_flatMap {β : Type*} {parts : List β} {f : β → List α} {k : Nat} {x : α} :
    ReachIn edges (parts.flatMap f) k x ↔ ∃ p ∈ parts, ReachIn edges (f p) k x := by
  constructor
  · intro h
    induction h with
    | seed h =>
      obtain ⟨p, hp, hx⟩ := List.mem_flatMap.mp h
      exact ⟨p, hp, .seed hx⟩
    | edge _ he hx ih =>
      obtain ⟨p, hp, hreach⟩ := ih
      exact ⟨p, hp, hreach.edge he hx⟩
  · rintro ⟨p, hp, h⟩
    apply h.mono
    · exact fun e he x hx => ⟨e, he, rfl, hx⟩
    · exact fun y hy => List.mem_flatMap.mpr ⟨p, hp, hy⟩

/-- Without edges nothing is added. -/
theorem rounds_nil (n : Nat) : rounds [] n seed = seed := by
  cases n <;> rfl

end Closure
