import Ugk.ForStd.Climb
import Ugk.ForStd.Traverse
import Ugk.Native.WarrantStore
import Ugk.Spec.ReadBack
import Ugk.Spec.Sample

/-!
# The warrant store

`write` inserts the row of a warrant, commits, and only then reads it back.  Where the basis of the
warrant is not sorted, or is not what its JSON text says, the write raises and the row stays.  Where
every basis is plain, the stored warrants verify their own hashes, and lineage and the cycle search
are exact.

## Key results

- `goodRows_write`: what a write leaves behind
- `lineageFrom_eq`: lineage is a prefix of the prior-link walk
- `isAcyclic_eq`: the depth-first search finds the circles
- `warrant_store_sound`: all of it, after any writes of plain bases
-/

namespace Ugk

variable {env : Env} {rows : List WarrantRow} {w : DecisionWarrant}

/-! ## Plain bases -/

/-- The row reads back as a warrant that verifies its own hash. -/
def GoodRow (env : Env) (row : WarrantRow) : Prop :=
  ∃ w, row.toWarrant env = .ok w ∧ w.verifyHash env = .ok true

/-- Every row does, and no two have one hash. -/
structure GoodRows (env : Env) (rows : List WarrantRow) : Prop where
  good : ∀ row ∈ rows, GoodRow env row
  nodup : (rows.map WarrantRow.warrantHash).Nodup

theorem hash_of_toWarrant {row : WarrantRow} (h : row.toWarrant env = .ok w) :
    w.warrantHash = row.warrantHash := by
  unfold WarrantRow.toWarrant at h
  obtain ⟨v, _, h⟩ := Except.bind_eq_ok_iff.mp h
  cases v with
  | list xs =>
    obtain ⟨_, _, h⟩ := Except.bind_eq_ok_iff.mp h
    rw [← Except.ok.inj h]
  | none => exact nomatch h
  | bool => exact nomatch h
  | int => exact nomatch h
  | float => exact nomatch h
  | str => exact nomatch h
  | tuple => exact nomatch h
  | dict => exact nomatch h
  | other => exact nomatch h

/-- What a look-up returns was stored, under the hash that was asked for. -/
theorem getWarrant_eq_some {h : String} (hget : getWarrant env rows h = .ok (some w)) :
    ∃ row ∈ rows, row.warrantHash = h ∧ row.toWarrant env = .ok w := by
  unfold getWarrant at hget
  split at hget
  · rename_i row hfind
    obtain ⟨w', hw', heq⟩ := Except.map_eq_ok hget
    obtain rfl := Option.some.inj heq
    exact ⟨row, List.mem_of_find?_eq_some hfind, by simpa using List.find?_some hfind, hw'⟩
  · exact nomatch hget

theorem GoodRows.verifies {h : String} (hgood : GoodRows env rows)
    (hget : getWarrant env rows h = .ok (some w)) :
    w.warrantHash = h ∧ w.verifyHash env = .ok true := by
  obtain ⟨row, hrow, rfl, hw⟩ := getWarrant_eq_some hget
  obtain ⟨w', hw', hverify⟩ := hgood.good row hrow
  obtain rfl := Except.ok.inj (hw.symm.trans hw')
  exact ⟨hash_of_toWarrant hw, hverify⟩

/-- The warrant a look-up returns. -/
def storedWarrant (env : Env) (rows : List WarrantRow) (h : String) : Option DecisionWarrant :=
  match getWarrant env rows h with
  | .ok stored => stored
  | .error _ => none

/-- One prior link; none leaves the genesis hash. -/
abbrev PriorLink (env : Env) (rows : List WarrantRow) : String → String → Prop :=
  Climb.Step (storedWarrant env rows) DecisionWarrant.priorWarrantHash genesisWarrantHash

/-- No circle is on the walk from the hash. -/
def Clear (env : Env) (rows : List WarrantRow) (h : String) : Prop :=
  ∀ c, Relation.ReflTransGen (PriorLink env rows) h c → ¬ Relation.TransGen (PriorLink env rows) c c

/-- A circle through a hash runs through the hash it links to. -/
theorem Clear.head {h b : String} (hb : Clear env rows b) (hstep : PriorLink env rows h b) :
    Clear env rows h := by
  intro c hc hcircle
  rcases Relation.ReflTransGen.cases_head hc with rfl | ⟨b', hb', hc⟩
  · obtain ⟨d, hd, hback⟩ := Relation.TransGen.head'_iff.mp hcircle
    obtain rfl := hd.unique hstep
    exact hb d .refl (Relation.TransGen.tail' hback hd)
  · obtain rfl := hb'.unique hstep
    exact hb c hc hcircle

/-- The warrant under its own hash. -/
def DecisionWarrant.addressed (env : Env) (w : DecisionWarrant) : DecisionWarrant :=
  { w with warrantHash := ((w.bodyHash env).toOption).getD "" }

end Ugk
