import Ugk.Native.EffectSurface
import Ugk.Native.Warrant

/-!
# The two modes of the effect surface

`_derive_effect_markers` and `_resolve_effect_surface` of `ugk/storage/store.py` for columns with
any values, with and without the mirror of the markers.  `write` calls the resolver with strings for
columns and without the mirror; `resolveEffectSurface_eq` says that the resolver of `write` is this
one there.
-/

namespace Ugk

/-- The closed-domain checks of a class and a phase. -/
def checkDomains (effectAtomicity phase : PyVal) : Except Exc Unit :=
  match effectAtomicity.memberOf effectAtomicityDomain with
  | .error e => .error e
  | .ok false => .error (.effectDomainError "effect_atomicity not in closed domain")
  | .ok true =>
    if phase.isNone then .ok ()
    else
      match phase.memberOf effectPhaseDomain with
      | .error e => .error e
      | .ok false => .error (.effectDomainError "effect_phase not in closed domain")
      | .ok true => .ok ()

/-- `_derive_effect_markers`: a marker is there when its column is truthy. -/
def deriveMarkerDict (columns : EffectColumns) : PyDict :=
  Marker.all.filterMap fun m =>
    if (columns m).truthy then some (.str m.key, columns m) else none

/-- A marker of the caller that is not the one derived from the columns. -/
def disagrees (env : Env) (pin : PyDict) (columns : EffectColumns) (m : Marker) : Bool :=
  PyDict.has pin m.key &&
    !pyEq env (PyDict.get pin m.key) (PyDict.get (deriveMarkerDict columns) m.key)

/-- `d.update(items)` -/
def PyDict.update (d items : PyDict) : PyDict :=
  items.foldl (fun d kv => PyDict.set d kv.1 kv.2) d

/-- `_resolve_effect_surface` -/
def resolveEffectSurfaceWith (env : Env) (mirrorMarkers : Bool) (parameters : PyVal)
    (effectColumns : Option EffectColumns) : Except Exc (Option EffectColumns × PyVal) :=
  let pin := (parameters.dict?).getD []
  match effectColumns with
  | none =>
    (deriveEffectColumns parameters).map fun cols =>
      if mirrorMarkers || cols.isNone then (cols, parameters)
      else (cols, .dict (stripMarkers pin))
  | some columns =>
    if (columns .effectAtomicity).isNone then .ok (none, parameters)
    else
      match checkDomains (columns .effectAtomicity) (columns .phase) with
      | .error e => .error e
      | .ok () =>
        if Marker.all.any (disagrees env pin columns) then
          .error (.effectDomainError "parameter marker diverges from the canonical typed column")
        else
          let committed := stripMarkers pin
          .ok (some columns, .dict (if mirrorMarkers then
            PyDict.update committed (deriveMarkerDict columns) else committed))

end Ugk
