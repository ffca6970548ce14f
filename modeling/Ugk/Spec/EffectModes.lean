import Ugk.Native.EffectModes
import Ugk.Spec.EffectColumns
import Ugk.Spec.Sample

/-!
# Columns and markers are one surface

The two derivations are inverse to each other and the two modes of the resolver agree, as far as
every marker is truthy: `_derive_effect_markers` has no marker for an empty column, and it is with
the derived markers that the caller's are compared.

## Key results

- `deriveEffectColumns_deriveMarkerDict`: what a round trip through the markers keeps
- `sameSurface_iff`: where the two modes return the same columns and parameters
- `isOk_columnPrimary`: the disagreements that raise
- `committed_of_unmirrored`: what is committed without the mirror
-/

namespace Ugk

variable {env : Env} {d pin : PyDict} {columns : EffectColumns}

/-! ## The derived markers -/

/-- The column as the markers tell it: a falsy one is told as `None`. -/
def told (columns : EffectColumns) (m : Marker) : PyVal :=
  if (columns m).truthy then columns m else .none

theorem told_eq_self {m : Marker} : told columns m = columns m ↔
    ((columns m).truthy = false → columns m = .none) := by
  unfold told
  split
  · rename_i h
    simp [h]
  · rename_i h
    simp [h, eq_comm]

/-- The markers derived from the columns of a list of markers. -/
theorem lookup_filterMap_markers (columns : EffectColumns) (ms : List Marker) (m : Marker) :
    (ms.filterMap fun m => if (columns m).truthy then some (PyKey.str m.key, columns m) else
      none).lookup (.str m.key) =
      if m ∈ ms ∧ (columns m).truthy then some (columns m) else none := by
  induction ms with
  | nil => simp
  | cons a rest ih =>
    by_cases ha : (columns a).truthy
    · rw [List.filterMap_cons_some (by rw [if_pos ha]), List.lookup_cons, ih]
      by_cases hm : m = a
      · subst hm
        simp [ha]
      · have hne : (PyKey.str m.key == PyKey.str a.key) = false :=
          beq_eq_false_iff_ne.mpr fun h => hm (Marker.key_injective (PyKey.str.inj h))
        simp [hne, hm]
    · rw [List.filterMap_cons_none (by rw [if_neg ha]), ih]
      by_cases hm : m = a
      · subst hm
        simp [ha]
      · simp [hm]

theorem lookup_deriveMarkerDict (columns : EffectColumns) (m : Marker) :
    (deriveMarkerDict columns).lookup (.str m.key) =
      if (columns m).truthy then some (columns m) else none := by
  unfold deriveMarkerDict
  rw [lookup_filterMap_markers]
  simp [Marker.mem_all]

theorem get_deriveMarkerDict (columns : EffectColumns) (m : Marker) :
    PyDict.get (deriveMarkerDict columns) m.key = told columns m := by
  unfold PyDict.get told
  rw [lookup_deriveMarkerDict]
  split <;> rfl

/-- Every derived marker has a marker key. -/
theorem isMarkerKey_of_derived {kv : PyKey × PyVal} (h : kv ∈ deriveMarkerDict columns) :
    isMarkerKey kv.1 = true := by
  obtain ⟨m, _, hm⟩ := List.mem_filterMap.mp h
  split at hm
  · obtain rfl := Option.some.inj hm
    rw [isMarkerKey, List.any_eq_true]
    exact ⟨m, Marker.mem_all m, beq_self_eq_true _⟩
  · cases hm

theorem nodup_deriveMarkerDict (columns : EffectColumns) :
    ((deriveMarkerDict columns).map Prod.fst).Nodup := by
  have hsub : ((deriveMarkerDict columns).map Prod.fst).Sublist
      (Marker.all.map fun m => PyKey.str m.key) := by
    unfold deriveMarkerDict
    induction Marker.all with
    | nil => exact List.nil_sublist _
    | cons a rest ih =>
      by_cases ha : (columns a).truthy
      · rw [List.filterMap_cons_some (by rw [if_pos ha])]
        exact ih.cons_cons _
      · rw [List.filterMap_cons_none (by rw [if_neg ha])]
        exact ih.cons _
  exact hsub.nodup (by decide)

/-- Updating stripped parameters puts the markers behind them. -/
theorem update_stripMarkers (d : PyDict) (columns : EffectColumns) :
    PyDict.update (stripMarkers d) (deriveMarkerDict columns) =
      stripMarkers d ++ deriveMarkerDict columns := by
  refine foldl_set_append ?_ (nodup_deriveMarkerDict columns)
  intro kv hkv hmem
  obtain ⟨kv', hkv', heq⟩ := List.mem_map.mp hmem
  have hkept := (List.mem_filter.mp hkv').2
  rw [heq, isMarkerKey_of_derived hkv] at hkept
  exact nomatch hkept

theorem isMarkerKey_iff {k : PyKey} : isMarkerKey k = true ↔ ∃ m : Marker, k = .str m.key := by
  unfold isMarkerKey
  rw [List.any_eq_true]
  constructor
  · rintro ⟨m, _, h⟩
    exact ⟨m, eq_of_beq h⟩
  · rintro ⟨m, rfl⟩
    exact ⟨m, Marker.mem_all m, beq_self_eq_true _⟩

theorem lookup_stripMarkers (d : PyDict) (k : PyKey) :
    (stripMarkers d).lookup k = if isMarkerKey k then none else d.lookup k := by
  split
  · rename_i hk
    rw [List.lookup_eq_none_iff]
    intro kv hkv
    rw [bne_iff_ne]
    rintro rfl
    have hkept := (List.mem_filter.mp hkv).2
    rw [hk] at hkept
    exact nomatch hkept
  · rename_i hk
    exact PyDict.lookup_filter fun v => by simpa using hk

/-! ## From columns to markers and back -/

theorem str_of_memberOf {v : PyVal} {dom : List String} (h : v.memberOf dom = .ok true) :
    ∃ s ∈ dom, v = .str s := by
  unfold PyVal.memberOf at h
  split at h
  · exact nomatch h
  · obtain ⟨s, hs, hv⟩ := List.any_eq_true.mp (Except.ok.inj h)
    cases v with
    | str t => exact ⟨s, hs, congrArg PyVal.str (eq_of_beq hv)⟩
    | _ => exact nomatch hv

/-- The class is one of the closed domain, and so is the phase if there is one. -/
def InDomains (columns : EffectColumns) : Prop :=
  checkDomains (columns .effectAtomicity) (columns .phase) = .ok ()

theorem InDomains.class_mem (h : InDomains columns) :
    ∃ s ∈ effectAtomicityDomain, columns .effectAtomicity = .str s := by
  unfold InDomains checkDomains at h
  split at h
  · exact nomatch h
  · exact nomatch h
  · rename_i hmem
    exact str_of_memberOf hmem

theorem InDomains.phase_mem (h : InDomains columns) :
    columns .phase = .none ∨ ∃ s ∈ effectPhaseDomain, columns .phase = .str s := by
  unfold InDomains checkDomains at h
  split at h
  · exact nomatch h
  · exact nomatch h
  · split at h
    · rename_i hnone
      refine .inl ?_
      cases hphase : columns .phase with
      | none => rfl
      | _ => rw [hphase] at hnone; exact nomatch hnone
    · split at h
      · exact nomatch h
      · exact nomatch h
      · rename_i hmem
        exact .inr (str_of_memberOf hmem)

/-- No class and no phase of the closed domains is falsy. -/
theorem InDomains.told_class (h : InDomains columns) :
    told columns .effectAtomicity = columns .effectAtomicity := by
  obtain ⟨s, hs, heq⟩ := h.class_mem
  have htruthy : ∀ s ∈ effectAtomicityDomain, (PyVal.str s).truthy = true := by decide
  rw [told, heq, if_pos (htruthy s hs)]

theorem InDomains.told_phase (h : InDomains columns) : told columns .phase = columns .phase := by
  rcases h.phase_mem with heq | ⟨s, hs, heq⟩
  · rw [told, heq]
    rfl
  · have htruthy : ∀ s ∈ effectPhaseDomain, (PyVal.str s).truthy = true := by decide
    rw [told, heq, if_pos (htruthy s hs)]

theorem InDomains.not_none (h : InDomains columns) :
    (columns .effectAtomicity).isNone = false := by
  obtain ⟨s, _, heq⟩ := h.class_mem
  rw [heq]
  rfl

/-- The derivation from markers is the domain check, and reads one marker for each column. -/
theorem deriveEffectColumns_dict (d : PyDict) :
    deriveEffectColumns (.dict d) =
      if (PyDict.get d Marker.effectAtomicity.key).isNone then .ok none
      else (checkDomains (PyDict.get d Marker.effectAtomicity.key)
        (PyDict.get d Marker.phase.key)).map fun _ => some fun m => PyDict.get d m.key := by
  unfold deriveEffectColumns checkDomains
  dsimp only
  split
  · rfl
  · cases (PyDict.get d Marker.effectAtomicity.key).memberOf effectAtomicityDomain with
    | error e => rfl
    | ok b =>
      cases b with
      | false => rfl
      | true =>
        dsimp only
        split
        · rfl
        · cases (PyDict.get d Marker.phase.key).memberOf effectPhaseDomain with
          | error e => rfl
          | ok b => cases b <;> rfl

/-- Columns that were derived are in the closed domains, and each is its marker. -/
theorem of_deriveEffectColumns (h : deriveEffectColumns (.dict d) = .ok (some columns)) :
    InDomains columns ∧ ∀ m, columns m = PyDict.get d m.key := by
  rw [deriveEffectColumns_dict] at h
  split at h
  · exact nomatch h
  · obtain ⟨⟨⟩, hcheck, heq⟩ := Except.map_eq_ok h
    obtain rfl := Option.some.inj heq
    exact ⟨hcheck, fun _ => rfl⟩

/-- The columns derived from derived markers are the columns the markers tell. -/
theorem deriveEffectColumns_deriveMarkerDict (h : InDomains columns) :
    deriveEffectColumns (.dict (deriveMarkerDict columns)) = .ok (some (told columns)) := by
  have htold : checkDomains (told columns .effectAtomicity) (told columns .phase) = .ok () := by
    rw [h.told_class, h.told_phase]
    exact h
  rw [deriveEffectColumns_dict]
  simp only [get_deriveMarkerDict]
  rw [h.told_class, h.not_none, ← h.told_class, htold]
  rfl

/-! ## The column-primary mode -/

theorem has_iff_lookup {k : String} :
    PyDict.has pin k = true ↔ ∃ v, pin.lookup (.str k) = some v := by
  constructor
  · intro h
    obtain ⟨kv, hkv, heq⟩ := List.any_eq_true.mp h
    cases hlookup : pin.lookup (.str k) with
    | some v => exact ⟨v, rfl⟩
    | none =>
      have hne := List.lookup_eq_none_iff.mp hlookup kv hkv
      rw [eq_of_beq heq, bne_self_eq_false] at hne
      exact nomatch hne
  · rintro ⟨v, hv⟩
    obtain ⟨before, after, rfl, -⟩ := List.lookup_eq_some_iff.mp hv
    exact List.any_eq_true.mpr ⟨(.str k, v), by simp, beq_self_eq_true _⟩

/-- A marker of the caller disagrees when it is not the one the columns tell. -/
theorem disagrees_iff {m : Marker} : disagrees env pin columns m = true ↔
    ∃ v, pin.lookup (.str m.key) = some v ∧ pyEq env v (told columns m) = false := by
  unfold disagrees
  rw [Bool.and_eq_true, has_iff_lookup, Bool.not_eq_true', get_deriveMarkerDict]
  constructor
  · rintro ⟨⟨v, hv⟩, hne⟩
    unfold PyDict.get at hne
    rw [hv] at hne
    exact ⟨v, hv, hne⟩
  · rintro ⟨v, hv, hne⟩
    unfold PyDict.get
    rw [hv]
    exact ⟨⟨v, rfl⟩, hne⟩

/-- What is committed beside the columns. -/
def committedWith (mirrorMarkers : Bool) (pin : PyDict) (columns : EffectColumns) : PyDict :=
  if mirrorMarkers then PyDict.update (stripMarkers pin) (deriveMarkerDict columns)
  else stripMarkers pin

/-- Every marker of the caller equals the one the columns tell. -/
def Agree (env : Env) (pin : PyDict) (columns : EffectColumns) : Prop :=
  ∀ m v, pin.lookup (.str m.key) = some v → pyEq env v (told columns m) = true

theorem any_disagrees : Marker.all.any (disagrees env pin columns) = false ↔
    Agree env pin columns := by
  rw [← Bool.not_eq_true, List.any_eq_true]
  simp only [disagrees_iff, Marker.mem_all, true_and, not_exists, not_and, Bool.not_eq_false]
  rfl

/-- The column-primary mode returns the columns it was given, for markers that agree with them. -/
theorem columnPrimary_of_agree {mirrorMarkers : Bool} {parameters : PyVal} (h : InDomains columns)
    (hagree : Agree env ((parameters.dict?).getD []) columns) :
    resolveEffectSurfaceWith env mirrorMarkers parameters (some columns) =
      .ok (some columns, .dict (committedWith mirrorMarkers ((parameters.dict?).getD []) columns)) := by
  unfold resolveEffectSurfaceWith
  dsimp only
  rw [h.not_none, any_disagrees.mpr hagree, show checkDomains _ _ = _ from h]
  rfl

/-- It raises for every other marker, and for columns outside the closed domains. -/
theorem isOk_columnPrimary {mirrorMarkers : Bool} {parameters : PyVal}
    (heffect : (columns .effectAtomicity).isNone = false) :
    isOk (resolveEffectSurfaceWith env mirrorMarkers parameters (some columns)) = true ↔
      InDomains columns ∧ Agree env ((parameters.dict?).getD []) columns := by
  constructor
  · intro hok
    unfold resolveEffectSurfaceWith at hok
    dsimp only at hok
    rw [heffect] at hok
    have hin : InDomains columns := by
      unfold InDomains
      cases hcheck : checkDomains (columns .effectAtomicity) (columns .phase) with
      | ok _ => rfl
      | error e => rw [hcheck] at hok; exact nomatch hok
    refine ⟨hin, any_disagrees.mp ?_⟩
    rw [show checkDomains _ _ = _ from hin] at hok
    cases hany : Marker.all.any (disagrees env ((parameters.dict?).getD []) columns) with
    | false => rfl
    | true => rw [hany] at hok; exact nomatch hok
  · rintro ⟨hin, hagree⟩
    rw [columnPrimary_of_agree hin hagree]
    rfl

/-! ## The two modes side by side -/

/-- Both calls return, the columns are the same, and the committed parameters are dictionaries with
    the same items. -/
def SameSurface (r r' : Except Exc (Option EffectColumns × PyVal)) : Prop :=
  ∃ columns p p', r = .ok (some columns, .dict p) ∧ r' = .ok (some columns, .dict p') ∧
    ∀ k, p.lookup k = p'.lookup k

theorem markerPrimary_of_derived {mirrorMarkers : Bool}
    (h : deriveEffectColumns (.dict d) = .ok (some columns)) :
    resolveEffectSurfaceWith env mirrorMarkers (.dict d) none =
      .ok (some columns, .dict (if mirrorMarkers then d else stripMarkers d)) := by
  unfold resolveEffectSurfaceWith
  dsimp only
  rw [h]
  cases mirrorMarkers <;> rfl

theorem lookup_committedWith (mirrorMarkers : Bool) (pin : PyDict) (columns : EffectColumns)
    (k : PyKey) : (committedWith mirrorMarkers pin columns).lookup k =
      if isMarkerKey k then
        (if mirrorMarkers then (deriveMarkerDict columns).lookup k else none)
      else pin.lookup k := by
  unfold committedWith
  cases mirrorMarkers with
  | false =>
    rw [if_neg (by decide), lookup_stripMarkers]
    simp
  | true =>
    rw [if_pos rfl, update_stripMarkers, List.lookup_append, lookup_stripMarkers]
    split
    · simp
    · rename_i hk
      have hnone : (deriveMarkerDict columns).lookup k = none := by
        rw [List.lookup_eq_none_iff]
        intro kv hkv
        rw [bne_iff_ne]
        rintro rfl
        exact hk (isMarkerKey_of_derived hkv)
      rw [hnone, Option.or_none]

theorem pyEq_none {v : PyVal} : pyEq env v .none = true ↔ v = .none := by
  cases v <;> simp [pyEq, PyVal.num?]

/-- A marker both modes treat alike: a truthy one (not a NaN, which differs from itself), and where
    nothing is mirrored also `None`. -/
def Plain (env : Env) (mirrorMarkers : Bool) (v : PyVal) : Prop :=
  (v.truthy = true ∧ pyEq env v v = true) ∨ (v = .none ∧ mirrorMarkers = false)

/-- The modes agree on the dictionaries whose markers are plain, and only on them. -/
theorem sameSurface_iff {mirrorMarkers : Bool}
    (h : deriveEffectColumns (.dict d) = .ok (some columns)) :
    SameSurface (resolveEffectSurfaceWith env mirrorMarkers (.dict d) (some columns))
        (resolveEffectSurfaceWith env mirrorMarkers (.dict d) none) ↔
      ∀ m v, d.lookup (.str (Marker.key m)) = some v → Plain env mirrorMarkers v := by
  obtain ⟨hin, hcolumns⟩ := of_deriveEffectColumns h
  have hcolumn {m : Marker} {v : PyVal} (hv : d.lookup (.str m.key) = some v) : columns m = v := by
    rw [hcolumns, PyDict.get, hv]
    rfl
  rw [markerPrimary_of_derived h]
  constructor
  · rintro ⟨cols, p, p', hprimary, hmarker, hsame⟩ m v hv
    have hagree := ((isOk_columnPrimary hin.not_none).mp (by rw [hprimary]; rfl)).2
    have heq : pyEq env v (told columns m) = true := hagree m v hv
    by_cases htruthy : v.truthy = true
    · refine .inl ⟨htruthy, ?_⟩
      rw [told, hcolumn hv, if_pos htruthy] at heq
      exact heq
    · -- a falsy marker is compared with `None`, and not mirrored
      rw [told, hcolumn hv, if_neg htruthy, pyEq_none] at heq
      refine .inr ⟨heq, ?_⟩
      cases mirrorMarkers with
      | false => rfl
      | true =>
        rw [columnPrimary_of_agree hin hagree] at hprimary
        obtain ⟨-, rfl⟩ : _ ∧ committedWith true d columns = p := by
          simpa [PyVal.dict?] using hprimary
        obtain ⟨-, rfl⟩ : _ ∧ d = p' := by simpa using hmarker
        have hlookup := hsame (.str m.key)
        rw [lookup_committedWith, if_pos (isMarkerKey_iff.mpr ⟨m, rfl⟩), if_pos rfl,
          lookup_deriveMarkerDict, hcolumn hv, if_neg htruthy, hv] at hlookup
        cases hlookup
  · intro hplain
    have hagree : Agree env d columns := by
      intro m v hv
      rw [told, hcolumn hv]
      rcases hplain m v hv with ⟨htruthy, hself⟩ | ⟨rfl, -⟩
      · rw [if_pos htruthy]
        exact hself
      · rfl
    refine ⟨columns, _, _, columnPrimary_of_agree hin hagree, rfl, fun k => ?_⟩
    rw [lookup_committedWith]
    by_cases hk : isMarkerKey k = true
    · obtain ⟨m, rfl⟩ := isMarkerKey_iff.mp hk
      rw [if_pos hk]
      cases mirrorMarkers with
      | false =>
        rw [if_neg (by decide), if_neg (by decide), lookup_stripMarkers, if_pos hk]
      | true =>
        rw [if_pos rfl, if_pos rfl, lookup_deriveMarkerDict]
        cases hv : d.lookup (.str m.key) with
        | none =>
          have hnone : columns m = .none := by
            rw [hcolumns, PyDict.get, hv]
            rfl
          rw [hnone]
          rfl
        | some v =>
          obtain ⟨htruthy, -⟩ := (hplain m v hv).resolve_right (by simp)
          rw [hcolumn hv, if_pos htruthy]
    · rw [if_neg hk]
      cases mirrorMarkers with
      | false =>
        rw [if_neg (by decide), lookup_stripMarkers, if_neg hk]
        rfl
      | true =>
        rw [if_pos rfl]
        rfl

/-! ## Without the mirror -/

/-- Without the mirror no marker is committed beside the columns, and nothing else is left out. -/
theorem committed_of_unmirrored {parameters p : PyVal} {effectColumns : Option EffectColumns}
    (h : resolveEffectSurfaceWith env false parameters effectColumns = .ok (some columns, p)) :
    ∃ q, p = .dict q ∧ ∀ k, q.lookup k =
      if isMarkerKey k then none else ((parameters.dict?).getD []).lookup k := by
  have hstrip : p = .dict (stripMarkers ((parameters.dict?).getD [])) := by
    cases effectColumns with
    | none =>
      unfold resolveEffectSurfaceWith at h
      obtain ⟨cols, _, heq⟩ := Except.map_eq_ok h
      cases cols with
      | none => exact nomatch heq
      | some cols => exact (Prod.mk.inj heq).2.symm
    | some cols =>
      have heffect : (cols .effectAtomicity).isNone = false := by
        cases hclass : (cols .effectAtomicity).isNone with
        | false => rfl
        | true =>
          unfold resolveEffectSurfaceWith at h
          dsimp only at h
          rw [hclass] at h
          exact nomatch h
      obtain ⟨hin, hagree⟩ := (isOk_columnPrimary heffect).mp (by rw [h]; rfl)
      rw [columnPrimary_of_agree hin hagree, Except.ok.injEq, Prod.mk.injEq] at h
      exact h.2.symm
  exact ⟨_, hstrip, fun k => lookup_stripMarkers _ k⟩

/-! ## The resolver of `write` -/

theorem pyEq_ofOpt (v : PyVal) (o : Option String) : pyEq env v (.ofOpt o) = v.agrees o := by
  cases o <;> cases v <;> simp [pyEq, PyVal.num?, PyVal.ofOpt, PyVal.agrees]

theorem told_ofOpt (descriptor : EffectDescriptor) (m : Marker) :
    told (fun m => .ofOpt (descriptor m)) m = .ofOpt (deriveEffectMarkers descriptor m) := by
  show (if (PyVal.ofOpt (descriptor m)).truthy then PyVal.ofOpt (descriptor m) else .none) = _
  unfold deriveEffectMarkers
  cases descriptor m with
  | none => rfl
  | some s =>
    by_cases hs : s = ""
    · subst hs
      rfl
    · simp [PyVal.ofOpt, PyVal.truthy, hs]

theorem disagrees_ofOpt (pin : PyDict) (descriptor : EffectDescriptor) :
    disagrees env pin (fun m => .ofOpt (descriptor m)) = diverges pin descriptor := by
  funext m
  unfold disagrees diverges
  rw [get_deriveMarkerDict, told_ofOpt, pyEq_ofOpt]

theorem memberOf_str (s : String) (dom : List String) :
    (PyVal.str s).memberOf dom = .ok (decide (s ∈ dom)) := by
  refine congrArg Except.ok ?_
  rw [Bool.eq_iff_iff, List.any_eq_true, decide_eq_true_iff]
  constructor
  · rintro ⟨t, ht, heq⟩
    exact eq_of_beq heq ▸ ht
  · intro hs
    exact ⟨s, hs, beq_self_eq_true s⟩

theorem checkDomains_ofOpt (ea : String) (ph : Option String) :
    checkDomains (.str ea) (.ofOpt ph) =
      if ea ∉ effectAtomicityDomain then
        .error (.effectDomainError "effect_atomicity not in closed domain")
      else if ph.any fun ph => !effectPhaseDomain.contains ph then
        .error (.effectDomainError "effect_phase not in closed domain")
      else .ok () := by
  unfold checkDomains
  rw [memberOf_str]
  by_cases hea : ea ∈ effectAtomicityDomain
  · rw [if_neg (not_not.mpr hea), decide_eq_true hea]
    cases ph with
    | none => rfl
    | some ph =>
      by_cases hph : ph ∈ effectPhaseDomain <;>
        simp [PyVal.ofOpt, PyVal.isNone, memberOf_str, hph]
  · rw [if_pos hea, decide_eq_false hea]

/-- `write` resolves the effect surface with string columns and without the mirror. -/
theorem resolveEffectSurface_eq (env : Env) (parameters : PyVal)
    (descriptor : Option EffectDescriptor) :
    resolveEffectSurface parameters descriptor =
      resolveEffectSurfaceWith env false parameters
        (descriptor.map fun columns m => .ofOpt (columns m)) := by
  unfold resolveEffectSurface resolveEffectSurfaceWith
  cases descriptor with
  | none =>
    dsimp only [Option.map_none]
    cases deriveEffectColumns parameters with
    | error e => rfl
    | ok cols => cases cols <;> rfl
  | some columns =>
    dsimp only [Option.map_some]
    rw [disagrees_ofOpt]
    obtain ⟨ea, hea⟩ : ∃ ea, columns .effectAtomicity = ea := ⟨_, rfl⟩
    cases ea with
    | none => simp only [hea, PyVal.ofOpt, PyVal.isNone, if_pos]
    | some ea =>
      simp only [hea, show PyVal.ofOpt (some ea) = .str ea from rfl, PyVal.isNone,
        checkDomains_ofOpt]
      split
      · rfl
      · split <;> rfl

/-! ## The laws -/

/-- Columns and markers are one surface as far as every marker is truthy: the round trip through the
    markers, the two modes, the disagreements and the committed parameters. -/
theorem effect_surface_laws (env : Env) :
    (∀ columns, InDomains columns →
      deriveEffectColumns (.dict (deriveMarkerDict columns)) = .ok (some (told columns)) ∧
      ∀ m, told columns m = columns m ↔
        ((columns m).truthy = false → columns m = .none)) ∧
    (∀ mirrorMarkers d columns, deriveEffectColumns (.dict d) = .ok (some columns) →
      (SameSurface (resolveEffectSurfaceWith env mirrorMarkers (.dict d) (some columns))
          (resolveEffectSurfaceWith env mirrorMarkers (.dict d) none) ↔
        ∀ m v, d.lookup (.str (Marker.key m)) = some v → Plain env mirrorMarkers v)) ∧
    (∀ mirrorMarkers parameters columns, (columns Marker.effectAtomicity).isNone = false →
      (isOk (resolveEffectSurfaceWith env mirrorMarkers parameters (some columns)) = true ↔
        InDomains columns ∧ Agree env ((parameters.dict?).getD []) columns)) ∧
    ∀ parameters effectColumns columns p,
      resolveEffectSurfaceWith env false parameters effectColumns = .ok (some columns, p) →
      ∃ q, p = .dict q ∧ ∀ k, q.lookup k =
        if isMarkerKey k then none else ((parameters.dict?).getD []).lookup k :=
  ⟨fun _ h => ⟨deriveEffectColumns_deriveMarkerDict h, fun _ => told_eq_self⟩,
    fun _ _ _ h => sameSurface_iff h, fun _ _ _ h => isOk_columnPrimary h,
    fun _ _ _ _ h => committed_of_unmirrored h⟩

/-- A store-local descriptor with an empty `effect_prepare_ref`. -/
def emptyRef : EffectColumns
  | .effectAtomicity => .str "store_local"
  | .prepareRef => .str ""
  | _ => .none

/-- The markers of such a descriptor, the empty one spelt out. -/
def emptyRefMarkers : PyDict :=
  [(.str "effect_atomicity", .str "store_local"), (.str "prepare_ref", .str "")]

/-- The empty reference is lost on the way through the markers; the marker-primary mode takes an
    empty marker that the column-primary mode refuses; a marker that is `None` passes for it. -/
theorem empty_ref_is_lost :
    (InDomains emptyRef ∧
        deriveEffectColumns (.dict (deriveMarkerDict emptyRef)) ≠ .ok (some emptyRef)) ∧
      (∃ columns, deriveEffectColumns (.dict emptyRefMarkers) = .ok (some columns) ∧
        ¬ SameSurface (resolveEffectSurfaceWith sampleEnv true (.dict emptyRefMarkers) (some columns))
          (resolveEffectSurfaceWith sampleEnv true (.dict emptyRefMarkers) none)) ∧
      pyEq sampleEnv .none (emptyRef .prepareRef) = false ∧
        isOk (resolveEffectSurfaceWith sampleEnv true (.dict [(.str "prepare_ref", .none)])
          (some emptyRef)) = true := by
  refine ⟨⟨rfl, fun h => ?_⟩, ⟨_, rfl, ?_⟩, rfl, rfl⟩
  · have hround := deriveEffectColumns_deriveMarkerDict (show InDomains emptyRef from rfl)
    have hlost := congrFun (Option.some.inj (Except.ok.inj (hround.symm.trans h))) Marker.prepareRef
    exact nomatch hlost
  · rw [sameSurface_iff rfl]
    intro hplain
    rcases hplain .prepareRef (.str "") rfl with ⟨htruthy, -⟩ | ⟨heq, -⟩
    · exact absurd htruthy (by decide)
    · exact nomatch heq

end Ugk
