import Ugk.ForStd.Traverse
import Ugk.Native.ReleaseBundle
import Ugk.Spec.Reload
import Ugk.Spec.Sample

/-!
# What a release bundle certifies

A bundle passes when every check passes, and every check can be read off the bundle.  What the checks
leave open is what stands behind the last entry of a name, and whether the archive the bundle names is
the expected one.  What they take for granted is the shape of the fields they read.

## Key results

- `verifyLoaded_pass_iff`: the bundles that pass
- `verifyLoaded_isOk_iff`: the bundles that get a verdict
- `bundle_certifies_iff`: when a verdict is given and PASS means what it says
-/

namespace Ugk

namespace ReleaseBundle

variable {env : Env} {fmt : Format}

/-! ## Reasons -/

@[simp] theorem note_eq_nil {ok : Bool} {msg : String} : note ok msg = [] ↔ ok = true := by
  cases ok <;> simp [note]

theorem isTrue_iff {v : PyVal} : isTrue v = true ↔ v = .bool true := by
  cases v <;> simp [isTrue]

theorem pyEq_str {v : PyVal} {s : String} : pyEq env v (.str s) = true ↔ v = .str s := by
  cases v <;> simp [pyEq, PyVal.num?]

/-! ## Documents -/

/-- The value came out of a JSON text. -/
def Loaded (env : Env) (v : PyVal) : Prop := ∃ j, v = ofJson env j

theorem Loaded.isOk {v : PyVal} (h : Loaded env v) : isOk (toJson env true v) = true := by
  obtain ⟨j, rfl⟩ := h
  exact isOk_toJson_ofJson j

theorem Loaded.get {d : PyDict} (h : Loaded env (.dict d)) (k : String) :
    Loaded env (PyDict.get d k) := by
  obtain ⟨j, hj⟩ := h
  obtain ⟨hnodup, hvalues⟩ := dict_of_loaded hj.symm
  cases hv : (PyDict.get d k).isNone with
  | true =>
    refine ⟨.null, ?_⟩
    cases hget : PyDict.get d k with
    | none => rfl
    | _ =>
      rw [hget] at hv
      exact nomatch hv
  | false =>
    obtain ⟨j', hj'⟩ := hvalues _ (PyDict.mem_of_get hnodup rfl hv)
    exact ⟨j', hj'⟩

/-- A dictionary with strings for keys dumps when its values do. -/
theorem isOk_toJson_dict {kvs : PyDict} (hstr : ∀ kv ∈ kvs, ∃ s, kv.1 = .str s)
    (h : ∀ kv ∈ kvs, isOk (toJson env true kv.2) = true) :
    isOk (toJson env true (.dict kvs)) = true := by
  have hsortable : sortableKeys (kvs.map Prod.fst) = true := by
    rw [sortableKeys, Bool.or_eq_true, Bool.or_eq_true]
    refine .inl (.inr (List.all_eq_true.mpr fun k hk => ?_))
    obtain ⟨kv, hkv, rfl⟩ := List.mem_map.mp hk
    obtain ⟨s, hs⟩ := hstr kv hkv
    rw [hs]
  rw [toJson, if_pos hsortable, isOk_map, isOk_toJsonItems, List.all_eq_true]
  intro kv hkv
  obtain ⟨s, hs⟩ := hstr kv hkv
  rw [hs, h kv hkv]
  rfl

theorem isOk_toJson_strDict {kvs : List (String × PyVal)}
    (h : ∀ kv ∈ kvs, isOk (toJson env true kv.2) = true) :
    isOk (toJson env true (strDict kvs)) = true := by
  refine isOk_toJson_dict (fun kv hkv => ?_) fun kv hkv => ?_
  · obtain ⟨m, -, rfl⟩ := List.mem_map.mp hkv
    exact ⟨m.1, rfl⟩
  · obtain ⟨m, hm, rfl⟩ := List.mem_map.mp hkv
    exact h m hm

theorem isOk_canon {v : PyVal} : isOk (canon env v) = isOk (toJson env true v) := isOk_map ..

theorem keys_of_loaded {j : Json} {d : PyDict} (h : ofJson env j = .dict d) :
    ∀ kv ∈ d, ∃ s, kv.1 = .str s := by
  intro kv hkv
  cases j with
  | obj ms =>
    rw [ofJson] at h
    obtain rfl := PyVal.dict.inj h
    obtain ⟨m, -, rfl⟩ := str_of_mem_loaded hkv
    exact ⟨m.1, rfl⟩
  | _ => cases h

/-- A section of a loaded bundle has a hash. -/
theorem sectionHash_total {sec : PyDict} (h : Loaded env (.dict sec)) :
    ∃ hash, sectionHash env sec = .ok hash := by
  obtain ⟨j, hj⟩ := h
  obtain ⟨-, hvalues⟩ := dict_of_loaded hj.symm
  have hkeys := keys_of_loaded hj.symm
  have hok : isOk (sectionHash env sec) = true := by
    rw [sectionHash, isOk_map, isOk_canon]
    refine isOk_toJson_dict (fun kv hkv => hkeys kv (List.mem_of_mem_filter hkv)) fun kv hkv => ?_
    obtain ⟨j', hj'⟩ := hvalues kv (List.mem_of_mem_filter hkv)
    rw [hj']
    exact isOk_toJson_ofJson j'
  exact isOk_iff.mp hok

theorem expectationProfileHash_total (gateIds : List String) :
    ∃ profile, expectationProfileHash env gateIds = .ok profile := by
  have hok : isOk (expectationProfileHash env gateIds) = true := by
    rw [expectationProfileHash, isOk_map, isOk_canon, toJson_strList]
    rfl
  exact isOk_iff.mp hok

theorem Loaded.getOr {d : PyDict} (h : Loaded env (.dict d)) (k : String) {default : PyVal}
    (hdefault : Loaded env default) : Loaded env (getOr d k default) := by
  cases hlookup : d.lookup (.str k) with
  | none =>
    rw [ReleaseBundle.getOr, hlookup]
    exact hdefault
  | some v =>
    have hv := h.get k
    rw [PyDict.get, hlookup] at hv
    rw [ReleaseBundle.getOr, hlookup]
    exact hv

theorem loaded_nil_list : Loaded env (.list []) := ⟨.arr [], rfl⟩

theorem loaded_nil_dict : Loaded env (.dict []) := ⟨.obj [], rfl⟩

/-- A JSON text has no tuples and no other objects. -/
theorem Loaded.ne_tuple {xs : List PyVal} : ¬ Loaded env (.tuple xs) := by
  rintro ⟨j, hj⟩
  cases j <;> exact nomatch hj

/-! ## Shapes -/

/-- The sections that are there are objects. -/
def Regular (sections : PyDict) : Prop :=
  ∀ n ∈ sectionNames, ∃ sec, getOr sections n (.dict []) = .dict sec

/-- Gate ids a set can be made of. -/
def IdList (v : PyVal) : Prop :=
  (∃ xs, v = .list xs ∧ ∀ x ∈ xs, x.unhashable = false) ∨ (∃ d, v = .dict d) ∨ ∃ s, v = .str s

/-- Summaries: objects with a name a table can be keyed by. -/
def RecordList (v : PyVal) : Prop :=
  (∃ xs, v = .list xs ∧ ∀ x ∈ xs, ∃ d, x = .dict d ∧ (PyDict.get d "name").unhashable = false) ∨
    v = .dict [] ∨ v = .str ""

/-- A frontier that says which archive it covers. -/
structure FrontierShaped (receipt : PyDict) : Prop where
  links : (getOr receipt "frontier" (.list [])).truthy = true → ∃ xs last identity,
    getOr receipt "frontier" (.list []) = .list xs ∧ xs.getLast? = some (.dict last) ∧
      getOr last "identity" (.dict []) = .dict identity
  attested : (getOr receipt "frontier" (.list [])).truthy = false →
    ∃ d, getOr receipt "attested" (.dict []) = .dict d

/-- The embedded receipt of a frontier section. -/
def receiptOf (cf : PyDict) : PyDict := ((PyDict.get cf "receipt").dict?).getD []

/-- The fields of a sealed bundle have the types they are read at. -/
structure Shaped (b sections : PyDict) : Prop where
  gateIds : IdList (getOr (sectionOf sections "conformance") "gate_ids" (.list []))
  gates : RecordList (getOr (sectionOf sections "gates") "gates" (.list []))
  receipts : RecordList (getOr (sectionOf sections "migration_receipts") "receipts" (.list []))
  receipt : (PyDict.get (sectionOf sections "continuity_frontier") "receipt").truthy = true →
    ∃ d, PyDict.get (sectionOf sections "continuity_frontier") "receipt" = .dict d
  frontier : (PyDict.get b "archive_sha256").isNone = false →
    FrontierShaped (receiptOf (sectionOf sections "continuity_frontier"))

theorem isOk_asDict {v : PyVal} : isOk (asDict v) = true ↔ ∃ d, v = .dict d := by
  cases v <;> simp [asDict, isOk]

theorem asDict_eq_ok {v : PyVal} {d : PyDict} : asDict v = .ok d ↔ v = .dict d := by
  cases v <;> simp [asDict]

/-! ## Integrity -/

/-- The six sections and no other one are there, each under its own hash, and the bundle hash is that
    of their seals. -/
structure Intact (env : Env) (b sections : PyDict) : Prop where
  canonical : ∀ kv ∈ sections, ∃ n ∈ sectionNames, kv.1 = .str n
  seals : ∀ n ∈ sectionNames, ∃ sec h, PyDict.get sections n = .dict sec ∧
    sectionHash env sec = .ok h ∧ PyDict.get sec "section_hash" = .str h
  bound : ∃ h, computeBundleHash env b = .ok h ∧ PyDict.get b "bundle_hash" = .str h

theorem has_of_get_str {d : PyDict} {k s : String} (h : PyDict.get d k = .str s) :
    PyDict.has d k = true := by
  cases hhas : PyDict.has d k with
  | true => rfl
  | false =>
    have hnot : PyKey.str k ∉ d.map Prod.fst := by
      intro hmem
      obtain ⟨kv, hkv, hk⟩ := List.mem_map.mp hmem
      have hany : PyDict.has d k = true := List.any_eq_true.mpr ⟨kv, hkv, beq_iff_eq.mpr hk⟩
      rw [hhas] at hany
      exact nomatch hany
    rw [PyDict.get_of_not_mem hnot] at h
    exact nomatch h

/-- A seal can be computed for every section that is an object, and it is found or named. -/
theorem checkSeal_spec {sections : PyDict} (h : Loaded env (.dict sections)) (n : String) :
    ∃ rs, checkSeal env sections n = .ok rs ∧ (rs = [] ↔ ∃ sec hash, PyDict.get sections n = .dict sec ∧
      sectionHash env sec = .ok hash ∧ PyDict.get sec "section_hash" = .str hash) := by
  cases hsec : PyDict.get sections n with
  | dict sec =>
    obtain ⟨hash, hhash⟩ := sectionHash_total (hsec ▸ h.get n)
    unfold checkSeal
    rw [hsec]
    dsimp only
    split
    · rw [hhash]
      refine ⟨_, rfl, ?_⟩
      rw [note_eq_nil, isStr_iff]
      constructor
      · exact fun heq => ⟨sec, hash, rfl, hhash, heq⟩
      · rintro ⟨sec', hash', hsec', hhash', heq⟩
        obtain rfl := PyVal.dict.inj hsec'
        obtain rfl := Except.ok.inj (hhash.symm.trans hhash')
        exact heq
    · rename_i hnot
      refine ⟨_, rfl, iff_of_false (List.cons_ne_nil _ _) ?_⟩
      rintro ⟨sec', hash', hsec', -, heq⟩
      obtain rfl := PyVal.dict.inj hsec'
      exact hnot (has_of_get_str heq)
  | _ =>
    unfold checkSeal
    rw [hsec]
    refine ⟨_, rfl, iff_of_false (List.cons_ne_nil _ _) ?_⟩
    rintro ⟨sec', hash', hsec', -⟩
    exact nomatch hsec'

theorem sealOf_eq_ok {b sections : PyDict} (hs : getOr b "sections" (.dict []) = .dict sections)
    {n : String} {v : PyVal} : sealOf b n = .ok v ↔
      ∃ sec, getOr sections n (.dict []) = .dict sec ∧ PyDict.get sec "section_hash" = v := by
  have hval : sealOf b n = (asDict (getOr sections n (.dict []))).map
      fun sec => PyDict.get sec "section_hash" := by
    unfold sealOf
    rw [hs]
    rfl
  rw [hval]
  cases getOr sections n (.dict []) <;> simp [asDict, Except.map, noGet]

/-- The bundle hash is computed when the sections that are there are objects. -/
theorem isOk_computeBundleHash_iff {b sections : PyDict} (hb : Loaded env (.dict b))
    (hs : getOr b "sections" (.dict []) = .dict sections) :
    (∃ h, computeBundleHash env b = .ok h) ↔ Regular sections := by
  have hsections : Loaded env (.dict sections) := hs ▸ hb.getOr "sections" loaded_nil_dict
  have hseals : (∃ seals, sectionNames.mapM (sealOf b) = .ok seals) ↔ Regular sections := by
    rw [exists_mapM_iff]
    refine forall₂_congr fun n _ => ?_
    simp only [sealOf_eq_ok hs]
    exact ⟨fun ⟨_, sec, hsec, _⟩ => ⟨sec, hsec⟩, fun ⟨sec, hsec⟩ => ⟨_, sec, hsec, rfl⟩⟩
  rw [← hseals]
  constructor
  · rintro ⟨h, hh⟩
    unfold computeBundleHash at hh
    obtain ⟨seals, hmap, -⟩ := Except.bind_eq_ok hh
    exact ⟨seals, hmap⟩
  · rintro ⟨seals, hmap⟩
    -- the seals were loaded with the sections
    have hdumps : ∀ v ∈ seals, isOk (toJson env true v) = true := by
      intro v hv
      obtain ⟨n, -, hn⟩ := forall₂_mem_right (mapM_ok_iff.mp hmap) hv
      obtain ⟨sec, hsec, rfl⟩ := (sealOf_eq_ok hs).mp hn
      have hloaded : Loaded env (.dict sec) := hsec ▸ hsections.getOr n loaded_nil_dict
      exact (hloaded.get "section_hash").isOk
    have hcanon : isOk (canon env (material b seals)) = true := by
      rw [isOk_canon]
      refine isOk_toJson_strDict ?_
      simp only [List.forall_mem_cons]
      refine ⟨(hb.get _).isOk, (hb.get _).isOk, (hb.get _).isOk, ?_, fun _ hkv => nomatch hkv⟩
      exact isOk_toJson_strDict fun kv hkv => hdumps kv.2 (List.of_mem_zip hkv).2
    obtain ⟨cs, hcs⟩ := isOk_iff.mp hcanon
    refine ⟨(env.sha256 (text cs)).hex, ?_⟩
    unfold computeBundleHash
    rw [hmap]
    show (canon env (material b seals)).bind _ = _
    rw [hcs]
    rfl

theorem keyVal_isStr {k : PyKey} {s : String} : (keyVal k).isStr s = true ↔ k = .str s := by
  cases k <;> simp [keyVal, PyVal.isStr]

theorem checkSections_eq_nil {sections : PyDict} : checkSections fmt sections = [] ↔
    (∀ kv ∈ sections, ∃ n ∈ sectionNames, kv.1 = .str n) ∧
      ∀ n ∈ sectionNames, ∃ kv ∈ sections, kv.1 = .str n := by
  simp [checkSections, sameSet, keyVal_isStr]

/-- The integrity checks end when every section that is there is an object, without a reason when the
    bundle is intact. -/
theorem checkIntegrity_spec {b sections : PyDict} (hb : Loaded env (.dict b))
    (hs : getOr b "sections" (.dict []) = .dict sections) :
    ((∃ rs, checkIntegrity env fmt b sections = .ok rs) ↔ Regular sections) ∧
      (checkIntegrity env fmt b sections = .ok [] ↔ Intact env b sections) := by
  have hsections : Loaded env (.dict sections) := hs ▸ hb.getOr "sections" loaded_nil_dict
  obtain ⟨seals, hseals⟩ := exists_mapM_iff.mpr fun n (_ : n ∈ sectionNames) =>
    (checkSeal_spec hsections n).imp fun _ h => h.1
  have hsealed : seals.flatten = [] ↔ ∀ n ∈ sectionNames, ∃ sec hash,
      PyDict.get sections n = .dict sec ∧ sectionHash env sec = .ok hash ∧
        PyDict.get sec "section_hash" = .str hash := by
    have hrel := mapM_ok_iff.mp hseals
    rw [List.flatten_eq_nil_iff]
    constructor
    · intro hnil n hn
      obtain ⟨rs, hrs, hn'⟩ := forall₂_mem_left hrel hn
      obtain ⟨rs', hrs', hiff⟩ := checkSeal_spec hsections n
      obtain rfl := Except.ok.inj (hn'.symm.trans hrs')
      exact hiff.mp (hnil rs hrs)
    · intro hall rs hrs
      obtain ⟨n, hn, hn'⟩ := forall₂_mem_right hrel hrs
      obtain ⟨rs', hrs', hiff⟩ := checkSeal_spec hsections n
      obtain rfl := Except.ok.inj (hn'.symm.trans hrs')
      exact hiff.mpr (hall n hn)
  have hbind : checkIntegrity env fmt b sections = (computeBundleHash env b).map fun h =>
      checkSections fmt sections ++ seals.flatten ++ note ((PyDict.get b "bundle_hash").isStr h)
        "bundle_hash mismatch (top-level tamper or stale section seal)" := by
    unfold checkIntegrity
    rw [hseals]
    cases computeBundleHash env b <;> rfl
  constructor
  · rw [← isOk_computeBundleHash_iff hb hs, hbind, ← isOk_iff, isOk_map, isOk_iff]
  · rw [hbind, Except.map_eq_ok_iff]
    simp only [List.append_eq_nil_iff, note_eq_nil, isStr_iff, hsealed, checkSections_eq_nil]
    constructor
    · rintro ⟨h, hh, ⟨⟨hcanonical, -⟩, hall⟩, hbound⟩
      exact ⟨hcanonical, hall, h, hh, hbound⟩
    · rintro ⟨hcanonical, hall, h, hh, hbound⟩
      refine ⟨h, hh, ⟨⟨hcanonical, fun n hn => ?_⟩, hall⟩, hbound⟩
      -- a sealed section is there
      obtain ⟨sec, -, hsec, -⟩ := hall n hn
      obtain ⟨j, hj⟩ := hsections
      exact ⟨_, PyDict.mem_of_get (dict_of_loaded hj.symm).1 hsec rfl, rfl⟩

/-! ## Checks -/

/-- The check ends on the shape, and finds no reason when its condition holds as well. -/
structure Decides (check : Except Exc (List String)) (shape pass : Prop) : Prop where
  ends : (∃ rs, check = .ok rs) ↔ shape
  clean : check = .ok [] ↔ shape ∧ pass

theorem Decides.of_clean {check : Except Exc (List String)} {shape pass : Prop}
    (hends : (∃ rs, check = .ok rs) ↔ shape) (hclean : check = .ok [] ↔ pass) :
    Decides check shape pass :=
  ⟨hends, hclean.trans ⟨fun h => ⟨hends.mp ⟨_, hclean.mpr h⟩, h⟩, And.right⟩⟩

/-! ## Conformance -/

/-- The conformance section describes the live gates and passed. -/
structure Conforms (env : Env) (conf : PyDict) (liveGates : List String) : Prop where
  count : pyEq env (PyDict.get conf "count") (.int liveGates.length) = true
  gateIds : ∃ ids, toSet (getOr conf "gate_ids" (.list [])) = .ok ids ∧ sameSet ids liveGates = true
  profile : ∃ h, expectationProfileHash env liveGates = .ok h ∧
    PyDict.get conf "expectation_profile_hash" = .str h
  verdict : PyDict.get conf "verdict" = .str "PASS"

theorem keyVal_hashable (k : PyKey) : (keyVal k).unhashable = false := by
  cases k <;> rfl

theorem toSet_of_iterate {v : PyVal} {xs : List PyVal} (h : iterate v = .ok xs) :
    (∃ ys, toSet v = .ok ys) ↔ ∀ x ∈ xs, x.unhashable = false := by
  have hval : toSet v = if xs.any PyVal.unhashable then .error (.typeError "unhashable type")
      else .ok xs := by
    unfold toSet
    rw [h]
    rfl
  rw [hval]
  by_cases hany : xs.any PyVal.unhashable
  · rw [if_pos hany]
    obtain ⟨x, hx, hun⟩ := List.any_eq_true.mp hany
    refine iff_of_false (fun ⟨_, hys⟩ => nomatch hys) fun hall => ?_
    rw [hall x hx] at hun
    exact nomatch hun
  · rw [if_neg hany]
    refine iff_of_true ⟨xs, rfl⟩ fun x hx => ?_
    exact Bool.eq_false_iff.mpr fun hun => hany (List.any_eq_true.mpr ⟨x, hx, hun⟩)

theorem isOk_toSet_iff {v : PyVal} (hloaded : Loaded env v) : (∃ ids, toSet v = .ok ids) ↔ IdList v := by
  cases v with
  | list xs =>
    rw [@toSet_of_iterate _ xs rfl]
    exact ⟨fun h => .inl ⟨xs, rfl, h⟩, by rintro (⟨_, ⟨⟩, h⟩ | ⟨_, ⟨⟩⟩ | ⟨_, ⟨⟩⟩); exact h⟩
  | dict d =>
    rw [@toSet_of_iterate _ (d.map fun kv => keyVal kv.1) rfl]
    refine iff_of_true (fun x hx => ?_) (.inr (.inl ⟨d, rfl⟩))
    obtain ⟨kv, -, rfl⟩ := List.mem_map.mp hx
    exact keyVal_hashable kv.1
  | str s =>
    rw [@toSet_of_iterate _ (s.toList.map fun c => .str (String.singleton c)) rfl]
    refine iff_of_true (fun x hx => ?_) (.inr (.inr ⟨s, rfl⟩))
    obtain ⟨c, -, rfl⟩ := List.mem_map.mp hx
    rfl
  | tuple xs => exact absurd hloaded Loaded.ne_tuple
  | _ =>
    refine iff_of_false (fun ⟨_, h⟩ => nomatch h) ?_
    rintro (⟨_, ⟨⟩, -⟩ | ⟨_, ⟨⟩⟩ | ⟨_, ⟨⟩⟩)

theorem checkConformance_spec {conf : PyDict} {liveGates : List String}
    (hconf : Loaded env (.dict conf)) :
    Decides (checkConformance env fmt conf liveGates) (IdList (getOr conf "gate_ids" (.list [])))
      (Conforms env conf liveGates) := by
  obtain ⟨profile, hprofile⟩ := @expectationProfileHash_total env liveGates
  have hids := isOk_toSet_iff (hconf.getOr "gate_ids" loaded_nil_list)
  unfold checkConformance
  rw [hprofile]
  apply Decides.of_clean
  · rw [← hids]
    constructor
    · rintro ⟨rs, hrs⟩
      obtain ⟨_, h₁, hrs⟩ := Except.bind_eq_ok hrs
      obtain ⟨ids, h₂, -⟩ := Except.bind_eq_ok hrs
      exact ⟨ids, h₂⟩
    · rintro ⟨ids, h⟩
      rw [h]
      exact ⟨_, rfl⟩
  · constructor
    · intro hrs
      obtain ⟨_, h₁, hrs⟩ := Except.bind_eq_ok hrs
      obtain rfl := Except.ok.inj h₁
      obtain ⟨ids, h₂, hrs⟩ := Except.bind_eq_ok hrs
      have hnil := Except.ok.inj hrs
      simp only [List.append_eq_nil_iff, note_eq_nil, isStr_iff] at hnil
      obtain ⟨⟨⟨hcount, hsame⟩, hprof⟩, hverdict⟩ := hnil
      exact ⟨hcount, ⟨ids, h₂, hsame⟩, ⟨profile, hprofile, hprof⟩, hverdict⟩
    · rintro ⟨hcount, ⟨ids, h₂, hsame⟩, ⟨profile', hprofile', hprof⟩, hverdict⟩
      obtain rfl := Except.ok.inj (hprofile.symm.trans hprofile')
      rw [h₂]
      refine congrArg Except.ok ?_
      simp only [List.append_eq_nil_iff, note_eq_nil, isStr_iff]
      exact ⟨⟨⟨hcount, hsame⟩, hprof⟩, hverdict⟩

/-! ## Summaries -/

/-- The objects of a summary. -/
def entries : PyVal → List PyDict
  | .list xs => xs.filterMap PyVal.dict?
  | _ => []

/-- What is recorded under a name. -/
def Entry (summary : PyVal) (name : String) (r : PyDict) : Prop :=
  r ∈ entries summary ∧ PyDict.get r "name" = .str name

theorem records_eq {v : PyVal} (h : RecordList v) : records v = .ok (entries v) := by
  obtain ⟨xs, rfl, hxs⟩ | rfl | rfl := h
  · show xs.mapM _ = _
    rw [mapM_ok_iff]
    show List.Forall₂ _ xs (xs.filterMap PyVal.dict?)
    induction xs with
    | nil => exact .nil
    | cons x xs ih =>
      obtain ⟨d, rfl, hname⟩ := hxs x List.mem_cons_self
      rw [show (PyVal.dict d :: xs).filterMap PyVal.dict? = d :: xs.filterMap PyVal.dict? from rfl]
      refine .cons ?_ (ih fun y hy => hxs y (List.mem_cons_of_mem _ hy))
      show (if (PyDict.get d "name").unhashable = true then _ else _) = _
      rw [hname]
      rfl
  · rfl
  · rfl

theorem isOk_records_iff {v : PyVal} (hloaded : Loaded env v) :
    (∃ rs, records v = .ok rs) ↔ RecordList v := by
  constructor
  · rintro ⟨rs, hrs⟩
    unfold records at hrs
    obtain ⟨xs, hxs, hrs⟩ := Except.bind_eq_ok hrs
    have hall : ∀ x ∈ xs, ∃ d, x = .dict d ∧ (PyDict.get d "name").unhashable = false := by
      intro x hx
      obtain ⟨r, -, hr⟩ := forall₂_mem_left (mapM_ok_iff.mp hrs) hx
      obtain ⟨d, hd, hr⟩ := Except.bind_eq_ok hr
      refine ⟨d, asDict_eq_ok.mp hd, ?_⟩
      cases hname : (PyDict.get d "name").unhashable with
      | false => rfl
      | true =>
        rw [hname] at hr
        exact nomatch hr
    cases v with
    | list ys =>
      obtain rfl := Except.ok.inj hxs
      exact .inl ⟨ys, rfl, hall⟩
    | dict d =>
      -- the keys of a dictionary are no objects
      obtain rfl := Except.ok.inj hxs
      cases d with
      | nil => exact .inr (.inl rfl)
      | cons kv rest =>
        obtain ⟨d, hd, -⟩ := hall _ List.mem_cons_self
        obtain ⟨k, w⟩ := kv
        cases k <;> exact nomatch hd
    | str s =>
      obtain rfl := Except.ok.inj hxs
      cases hs : s.toList with
      | nil => exact .inr (.inr (congrArg PyVal.str (String.toList_eq_nil_iff.mp hs)))
      | cons c cs =>
        rw [hs] at hall
        obtain ⟨d, hd, -⟩ := hall _ List.mem_cons_self
        exact nomatch hd
    | tuple xs => exact absurd hloaded Loaded.ne_tuple
    | _ => exact nomatch hxs
  · exact fun h => ⟨_, records_eq h⟩

/-- The last entry under every expected name is there and has the property. -/
def LastPass (summary : PyVal) (names : List String) (P : PyDict → Prop) : Prop :=
  ∀ n ∈ names, ∃ r, byName (entries summary) n = some r ∧ P r

theorem checkGate_eq_nil {rs : List PyDict} {g : String} : checkGate fmt rs g = [] ↔
    ∃ r, byName rs g = some r ∧ PyDict.get r "verdict" = .str "PASS" := by
  unfold checkGate
  cases byName rs g <;> simp [isStr_iff]

theorem checkReceipt_eq_nil {rs : List PyDict} {m : String} : checkReceipt fmt rs m = [] ↔
    ∃ r, byName rs m = some r ∧
      (PyDict.get r "present" = .bool true ∧ PyDict.get r "equivalent" = .bool true) := by
  unfold checkReceipt
  cases byName rs m <;> simp [isTrue_iff]

theorem byName_spec {summary : PyVal} {name : String} {r : PyDict}
    (h : byName (entries summary) name = some r) : Entry summary name r := by
  have hfound : (entries summary).reverse.find? (fun r => (PyDict.get r "name").isStr name) = some r := h
  have hname := List.find?_some hfound
  exact ⟨List.mem_reverse.mp (List.mem_of_find?_eq_some hfound), isStr_iff.mp hname⟩

theorem decides_records {v : PyVal} (hloaded : Loaded env v) {names : List String}
    {f : List PyDict → String → List String} {P : PyDict → Prop}
    (hf : ∀ rs n, f rs n = [] ↔ ∃ r, byName rs n = some r ∧ P r) :
    Decides ((records v).map fun rs => names.flatMap (f rs)) (RecordList v) (LastPass v names P) := by
  constructor
  · rw [← isOk_records_iff hloaded, ← isOk_iff, isOk_map, isOk_iff]
  · rw [Except.map_eq_ok_iff]
    constructor
    · rintro ⟨rs, hrs, hnil⟩
      have hshape := (isOk_records_iff hloaded).mp ⟨rs, hrs⟩
      obtain rfl := Except.ok.inj ((records_eq hshape).symm.trans hrs)
      exact ⟨hshape, fun n hn => (hf _ n).mp (List.flatMap_eq_nil_iff.mp hnil n hn)⟩
    · rintro ⟨hshape, hall⟩
      exact ⟨_, records_eq hshape, List.flatMap_eq_nil_iff.mpr fun n hn => (hf _ n).mpr (hall n hn)⟩

theorem checkGates_spec {gates : PyDict} (h : Loaded env (.dict gates)) :
    Decides (checkGates fmt gates) (RecordList (getOr gates "gates" (.list [])))
      (LastPass (getOr gates "gates" (.list [])) expectedGrbsaGates fun r =>
        PyDict.get r "verdict" = .str "PASS") :=
  decides_records (h.getOr "gates" loaded_nil_list) fun _ _ => checkGate_eq_nil

theorem checkMigrationReceipts_spec {receipts : PyDict} (h : Loaded env (.dict receipts)) :
    Decides (checkMigrationReceipts fmt receipts)
      (RecordList (getOr receipts "receipts" (.list [])))
      (LastPass (getOr receipts "receipts" (.list [])) expectedMigrationReceipts fun r =>
        PyDict.get r "present" = .bool true ∧ PyDict.get r "equivalent" = .bool true) :=
  decides_records (h.getOr "receipts" loaded_nil_list) fun _ _ => checkReceipt_eq_nil

/-! ## Identity and hygiene -/

/-- The identity has the values of the frame. -/
def FrameMatches (env : Env) (ri frame : PyDict) : Prop :=
  ∀ key ∈ frameKeys, (PyDict.get frame key).isNone = false →
    pyEq env (PyDict.get ri key) (PyDict.get frame key) = true

theorem checkIdentity_eq_nil {ri frame : PyDict} :
    checkIdentity env fmt ri frame = [] ↔ FrameMatches env ri frame := by
  unfold checkIdentity
  rw [List.flatMap_eq_nil_iff]
  refine forall₂_congr fun key _ => ?_
  cases (PyDict.get frame key).isNone <;> simp

/-- The hygiene section passed, over the archive it is compared with. -/
structure Clean (env : Env) (hyg frame b : PyDict) : Prop where
  hygiene : PyDict.get hyg "hygiene_verdict" = .str "PASS"
  nodrift : PyDict.get hyg "nodrift_verdict" = .str "PASS"
  archive : (expectedArchive frame b).isNone = false →
    pyEq env (PyDict.get hyg "archive_sha256") (expectedArchive frame b) = true

theorem checkHygiene_eq_nil {hyg frame b : PyDict} :
    checkHygiene env fmt hyg frame b = [] ↔ Clean env hyg frame b := by
  unfold checkHygiene
  rw [List.append_eq_nil_iff, List.append_eq_nil_iff, note_eq_nil, note_eq_nil, isStr_iff, isStr_iff]
  constructor
  · rintro ⟨⟨hhygiene, hnodrift⟩, harchive⟩
    refine ⟨hhygiene, hnodrift, fun hnone => ?_⟩
    rw [if_neg (Bool.eq_false_iff.mp hnone), note_eq_nil] at harchive
    exact harchive
  · rintro ⟨hhygiene, hnodrift, harchive⟩
    refine ⟨⟨hhygiene, hnodrift⟩, ?_⟩
    split
    · rfl
    · rename_i hnone
      exact note_eq_nil.mpr (harchive (Bool.eq_false_iff.mpr hnone))

/-! ## The frontier -/

/-- The frontier covers this archive. -/
def Covers (env : Env) (receipt : PyDict) (archive : PyVal) : Prop :=
  ∃ covered, frontierArchive receipt = .ok covered ∧ pyEq env covered archive = true

theorem isOk_terminalCandidate_iff {v : PyVal} (hloaded : Loaded env v) :
    (∃ covered, terminalCandidate v = .ok covered) ↔ ∃ xs last identity, v = .list xs ∧
      xs.getLast? = some (.dict last) ∧ getOr last "identity" (.dict []) = .dict identity := by
  cases v with
  | list xs =>
    unfold terminalCandidate
    dsimp only
    cases hlast : xs.getLast? with
    | none =>
      refine iff_of_false (fun ⟨_, h⟩ => nomatch h) ?_
      rintro ⟨ys, last, identity, hys, hlast', -⟩
      obtain rfl := PyVal.list.inj hys
      rw [hlast] at hlast'
      exact nomatch hlast'
    | some last =>
      constructor
      · rintro ⟨covered, h⟩
        obtain ⟨d, hd, h⟩ := Except.bind_eq_ok h
        obtain ⟨identity, hidentity, -⟩ := Except.bind_eq_ok h
        obtain rfl := asDict_eq_ok.mp hd
        exact ⟨xs, d, identity, rfl, hlast, asDict_eq_ok.mp hidentity⟩
      · rintro ⟨ys, d, identity, hys, hlast', hidentity⟩
        obtain rfl := PyVal.list.inj hys
        obtain rfl := Option.some.inj (hlast.symm.trans hlast')
        show ∃ covered, Except.bind (asDict (getOr d "identity" (.dict []))) _ = .ok covered
        rw [hidentity]
        exact ⟨_, rfl⟩
  | tuple xs => exact absurd hloaded Loaded.ne_tuple
  | _ =>
    refine iff_of_false (fun ⟨_, h⟩ => nomatch h) ?_
    rintro ⟨_, _, _, ⟨⟩, -⟩

theorem isOk_frontierArchive_iff {receipt : PyDict} (h : Loaded env (.dict receipt)) :
    (∃ covered, frontierArchive receipt = .ok covered) ↔ FrontierShaped receipt := by
  unfold frontierArchive
  split
  · rename_i htruthy
    rw [isOk_terminalCandidate_iff (h.getOr "frontier" loaded_nil_list)]
    refine ⟨fun hlinks => ⟨fun _ => hlinks, fun hfalse => ?_⟩, fun hshaped => hshaped.links htruthy⟩
    rw [htruthy] at hfalse
    exact nomatch hfalse
  · rename_i hfalsy
    constructor
    · rintro ⟨covered, hcovered⟩
      obtain ⟨attested, hattested, -⟩ := Except.bind_eq_ok hcovered
      exact ⟨fun htruthy => absurd htruthy hfalsy, fun _ => ⟨attested, asDict_eq_ok.mp hattested⟩⟩
    · intro hshaped
      obtain ⟨attested, hattested⟩ := hshaped.attested (Bool.eq_false_iff.mpr hfalsy)
      show ∃ covered, Except.bind (asDict (getOr receipt "attested" (.dict []))) _ = .ok covered
      rw [hattested]
      exact ⟨_, rfl⟩

/-- The staleness check of a shaped frontier. -/
theorem checkStale_spec {receipt : PyDict} (h : Loaded env (.dict receipt)) (archive : PyVal) :
    Decides (checkStale env fmt receipt archive) (archive.isNone = false → FrontierShaped receipt)
      (archive.isNone = false → Covers env receipt archive) := by
  unfold checkStale
  cases harchive : archive.isNone with
  | true => exact ⟨iff_of_true ⟨_, rfl⟩ nofun, iff_of_true rfl ⟨nofun, nofun⟩⟩
  | false =>
    simp only [Bool.false_eq_true, if_false, true_implies]
    rw [← isOk_frontierArchive_iff h]
    apply Decides.of_clean
    · constructor
      · rintro ⟨rs, hrs⟩
        obtain ⟨covered, hcovered, -⟩ := Except.bind_eq_ok hrs
        exact ⟨covered, hcovered⟩
      · rintro ⟨covered, hcovered⟩
        rw [hcovered]
        exact ⟨_, rfl⟩
    · rw [Except.bind_eq_ok_iff]
      refine exists_congr fun covered => and_congr_right fun _ => ?_
      rw [Except.ok.injEq, note_eq_nil]

/-- The section says what the embedded receipt says, and the frontier covers the archive of the
    bundle. -/
structure FrontierHolds (env : Env) (cf : PyDict) (archive : PyVal) : Prop where
  agrees : pyEq env (PyDict.get cf "verdict") (PyDict.get (receiptOf cf) "verdict") = true
  covers : archive.isNone = false → Covers env (receiptOf cf) archive

theorem dict_of_falsy {v : PyVal} (h : v.truthy = false) : v.dict?.getD [] = [] := by
  cases v with
  | dict d =>
    cases d with
    | nil => rfl
    | cons kv rest => exact nomatch h
  | _ => rfl

theorem frontierReceipt_eq_ok {cf receipt : PyDict} : frontierReceipt cf = .ok receipt ↔
    ((PyDict.get cf "receipt").truthy = true → ∃ d, PyDict.get cf "receipt" = .dict d) ∧
      receipt = receiptOf cf := by
  unfold frontierReceipt receiptOf
  generalize PyDict.get cf "receipt" = v
  cases htruthy : v.truthy with
  | true =>
    rw [if_pos rfl, asDict_eq_ok]
    constructor
    · rintro rfl
      exact ⟨fun _ => ⟨receipt, rfl⟩, rfl⟩
    · rintro ⟨hdict, rfl⟩
      obtain ⟨d, rfl⟩ := hdict rfl
      rfl
  | false =>
    rw [if_neg Bool.false_ne_true, dict_of_falsy htruthy, Except.ok.injEq]
    exact ⟨fun h => ⟨nofun, h.symm⟩, fun h => h.2.symm⟩

theorem Loaded.receiptOf {cf : PyDict} (h : Loaded env (.dict cf)) :
    Loaded env (.dict (receiptOf cf)) := by
  have hget := h.get "receipt"
  unfold ReleaseBundle.receiptOf
  cases hreceipt : PyDict.get cf "receipt" with
  | dict d => exact hreceipt ▸ hget
  | _ => exact loaded_nil_dict

theorem checkFrontier_spec {cf : PyDict} (h : Loaded env (.dict cf)) (archive : PyVal) :
    Decides (checkFrontier env fmt cf archive)
      (((PyDict.get cf "receipt").truthy = true → ∃ d, PyDict.get cf "receipt" = .dict d) ∧
        (archive.isNone = false → FrontierShaped (receiptOf cf)))
      (FrontierHolds env cf archive) := by
  have hstale := @checkStale_spec env fmt _ h.receiptOf archive
  constructor
  · rw [← hstale.ends]
    constructor
    · rintro ⟨rs, hrs⟩
      obtain ⟨receipt, hreceipt, hrs⟩ := Except.bind_eq_ok hrs
      obtain ⟨stale, hs, -⟩ := Except.bind_eq_ok hrs
      obtain ⟨hdict, rfl⟩ := frontierReceipt_eq_ok.mp hreceipt
      exact ⟨hdict, stale, hs⟩
    · rintro ⟨hdict, stale, hs⟩
      unfold checkFrontier
      rw [frontierReceipt_eq_ok.mpr ⟨hdict, rfl⟩]
      show ∃ rs, Except.bind (checkStale env fmt (ReleaseBundle.receiptOf cf) archive) _ = .ok rs
      rw [hs]
      exact ⟨_, rfl⟩
  · constructor
    · intro hrs
      obtain ⟨receipt, hreceipt, hrs⟩ := Except.bind_eq_ok hrs
      obtain ⟨stale, hs, hrs⟩ := Except.bind_eq_ok hrs
      obtain ⟨hdict, rfl⟩ := frontierReceipt_eq_ok.mp hreceipt
      obtain ⟨hagrees, rfl⟩ := List.append_eq_nil_iff.mp (Except.ok.inj hrs)
      obtain ⟨hshaped, hcovers⟩ := hstale.clean.mp hs
      exact ⟨⟨hdict, hshaped⟩, note_eq_nil.mp hagrees, hcovers⟩
    · rintro ⟨⟨hdict, hshaped⟩, hagrees, hcovers⟩
      unfold checkFrontier
      rw [frontierReceipt_eq_ok.mpr ⟨hdict, rfl⟩]
      show Except.bind (checkStale env fmt (ReleaseBundle.receiptOf cf) archive) _ = .ok []
      rw [hstale.clean.mpr ⟨hshaped, hcovers⟩]
      exact congrArg Except.ok (List.append_eq_nil_iff.mpr ⟨note_eq_nil.mpr hagrees, rfl⟩)

/-! ## The verdict -/

/-- The gate summaries of a bundle. -/
def gateSummary (sections : PyDict) : PyVal := getOr (sectionOf sections "gates") "gates" (.list [])

/-- The receipt summaries of a bundle. -/
def receiptSummary (sections : PyDict) : PyVal :=
  getOr (sectionOf sections "migration_receipts") "receipts" (.list [])

/-- A gate that passed. -/
def GatePass (r : PyDict) : Prop := PyDict.get r "verdict" = .str "PASS"

/-- A migration receipt that is present and equivalent. -/
def ReceiptPass (r : PyDict) : Prop :=
  PyDict.get r "present" = .bool true ∧ PyDict.get r "equivalent" = .bool true

/-- The contents of the sections pass. -/
structure Passing (env : Env) (liveGates : List String) (frame b sections : PyDict) : Prop where
  conforms : Conforms env (sectionOf sections "conformance") liveGates
  gates : LastPass (gateSummary sections) expectedGrbsaGates GatePass
  receipts : LastPass (receiptSummary sections) expectedMigrationReceipts ReceiptPass
  identity : FrameMatches env (sectionOf sections "registry_identity") frame
  hygiene : Clean env (sectionOf sections "hygiene") frame b
  frontier : FrontierHolds env (sectionOf sections "continuity_frontier")
    (PyDict.get b "archive_sha256")

theorem Loaded.sectionOf {sections : PyDict} (h : Loaded env (.dict sections)) (n : String) :
    Loaded env (.dict (sectionOf sections n)) := by
  have hget := h.get n
  unfold ReleaseBundle.sectionOf
  cases hsec : PyDict.get sections n with
  | dict sec => exact hsec ▸ hget
  | _ => exact loaded_nil_dict

theorem checkContents_spec {b sections frame : PyDict} {liveGates : List String}
    (h : Loaded env (.dict sections)) :
    Decides (checkContents env fmt b sections frame liveGates) (Shaped b sections)
      (Passing env liveGates frame b sections) := by
  have hconf := @checkConformance_spec env fmt _ liveGates (h.sectionOf "conformance")
  have hgates := @checkGates_spec env fmt _ (h.sectionOf "gates")
  have hreceipts := @checkMigrationReceipts_spec env fmt _ (h.sectionOf "migration_receipts")
  have hfrontier := @checkFrontier_spec env fmt _ (h.sectionOf "continuity_frontier")
    (PyDict.get b "archive_sha256")
  constructor
  · constructor
    · rintro ⟨rs, hrs⟩
      obtain ⟨conf, h₁, hrs⟩ := Except.bind_eq_ok hrs
      obtain ⟨gates, h₂, hrs⟩ := Except.bind_eq_ok hrs
      obtain ⟨receipts, h₃, hrs⟩ := Except.bind_eq_ok hrs
      obtain ⟨frontier, h₄, -⟩ := Except.bind_eq_ok hrs
      obtain ⟨hreceipt, hshaped⟩ := hfrontier.ends.mp ⟨frontier, h₄⟩
      exact ⟨hconf.ends.mp ⟨conf, h₁⟩, hgates.ends.mp ⟨gates, h₂⟩, hreceipts.ends.mp ⟨receipts, h₃⟩,
        hreceipt, hshaped⟩
    · rintro ⟨h₁, h₂, h₃, hreceipt, hshaped⟩
      obtain ⟨conf, h₁⟩ := hconf.ends.mpr h₁
      obtain ⟨gates, h₂⟩ := hgates.ends.mpr h₂
      obtain ⟨receipts, h₃⟩ := hreceipts.ends.mpr h₃
      obtain ⟨frontier, h₄⟩ := hfrontier.ends.mpr ⟨hreceipt, hshaped⟩
      unfold checkContents
      rw [h₁, h₂, h₃, h₄]
      exact ⟨_, rfl⟩
  · constructor
    · intro hrs
      obtain ⟨conf, h₁, hrs⟩ := Except.bind_eq_ok hrs
      obtain ⟨gates, h₂, hrs⟩ := Except.bind_eq_ok hrs
      obtain ⟨receipts, h₃, hrs⟩ := Except.bind_eq_ok hrs
      obtain ⟨frontier, h₄, hrs⟩ := Except.bind_eq_ok hrs
      have hnil := Except.ok.inj hrs
      simp only [List.append_eq_nil_iff, checkIdentity_eq_nil, checkHygiene_eq_nil] at hnil
      obtain ⟨⟨⟨⟨⟨rfl, rfl⟩, rfl⟩, hidentity⟩, hhygiene⟩, rfl⟩ := hnil
      obtain ⟨hids, hconforms⟩ := hconf.clean.mp h₁
      obtain ⟨hgateList, hgatePass⟩ := hgates.clean.mp h₂
      obtain ⟨hreceiptList, hreceiptPass⟩ := hreceipts.clean.mp h₃
      obtain ⟨⟨hreceipt, hshaped⟩, hholds⟩ := hfrontier.clean.mp h₄
      exact ⟨⟨hids, hgateList, hreceiptList, hreceipt, hshaped⟩,
        hconforms, hgatePass, hreceiptPass, hidentity, hhygiene, hholds⟩
    · rintro ⟨⟨hids, hgateList, hreceiptList, hreceipt, hshaped⟩,
        hconforms, hgatePass, hreceiptPass, hidentity, hhygiene, hholds⟩
      unfold checkContents
      rw [hconf.clean.mpr ⟨hids, hconforms⟩, hgates.clean.mpr ⟨hgateList, hgatePass⟩,
        hreceipts.clean.mpr ⟨hreceiptList, hreceiptPass⟩,
        hfrontier.clean.mpr ⟨⟨hreceipt, hshaped⟩, hholds⟩, checkIdentity_eq_nil.mpr hidentity,
        checkHygiene_eq_nil.mpr hhygiene]
      rfl

theorem propagate_pass {fv : PyVal} : (propagate fmt fv).1 = .pass ↔ fv = .str "HOLD" := by
  unfold propagate
  rw [← isStr_iff]
  cases fv.isStr "HOLD" <;> cases fv.isStr "UNFINISHED" <;> simp

/-- The verifier can read the bundle: one of this schema has an object of sections, the six that are
    there are objects, and behind intact seals the fields have the types they are read at. -/
def Readable (env : Env) (b : PyDict) : Prop :=
  PyDict.get b "schema" = .str bundleSchema → ∃ sections,
    getOr b "sections" (.dict []) = .dict sections ∧ Regular sections ∧
      (Intact env b sections → Shaped b sections)

/-- The bundle has every property the verifier looks for. -/
structure Passes (env : Env) (b sections : PyDict) (liveGates : List String) (frame : PyDict) :
    Prop where
  schema : PyDict.get b "schema" = .str bundleSchema
  object : getOr b "sections" (.dict []) = .dict sections
  intact : Intact env b sections
  shaped : Shaped b sections
  passing : Passing env liveGates frame b sections
  hold : PyDict.get (sectionOf sections "continuity_frontier") "verdict" = .str "HOLD"

section

variable {b : PyDict} {liveGates : List String} {frame : PyDict}

/-- The report over the reasons found behind intact seals. -/
def conclude (fmt : Format) (b sections : PyDict) (reasons : List String) : Report :=
  let fv := PyDict.get (sectionOf sections "continuity_frontier") "verdict"
  let result := if reasons = [] then propagate fmt fv else (.fail, reasons)
  { verdict := result.1
    reasons := result.2
    release := some (PyDict.get b "release")
    archiveSha256 := some (PyDict.get b "archive_sha256") }

/-- Every way to a report on a bundle of this schema. -/
theorem verifyLoaded_eq_ok {report : Report} (hschema : PyDict.get b "schema" = .str bundleSchema) :
    verifyLoaded env fmt b liveGates frame = .ok report ↔ ∃ sections,
      getOr b "sections" (.dict []) = .dict sections ∧ ∃ integrity,
        checkIntegrity env fmt b sections = .ok integrity ∧
          ((integrity ≠ [] ∧ report =
              { verdict := .fail, reasons := integrity, release := some (PyDict.get b "release") }) ∨
            (integrity = [] ∧ ∃ reasons, checkContents env fmt b sections frame liveGates = .ok reasons ∧
              report = conclude fmt b sections reasons)) := by
  rw [verifyLoaded, if_pos (isStr_iff.mpr hschema), Except.bind_eq_ok_iff]
  refine exists_congr fun sections => ?_
  rw [asDict_eq_ok, Except.bind_eq_ok_iff]
  refine and_congr_right fun _ => exists_congr fun integrity => and_congr_right fun _ => ?_
  by_cases hnil : integrity = []
  · rw [if_neg (not_not_intro hnil), Except.bind_eq_ok_iff]
    simp only [hnil, ne_eq, not_true_eq_false, false_and, false_or, true_and]
    refine exists_congr fun reasons => and_congr_right fun _ => ?_
    rw [Except.ok.injEq, eq_comm]
    exact Iff.rfl
  · rw [if_pos hnil, Except.ok.injEq, eq_comm]
    simp only [hnil, ne_eq, not_false_eq_true, true_and, false_and, or_false]

/-- The bundles that get a verdict. -/
theorem verifyLoaded_isOk_iff (hb : Loaded env (.dict b)) :
    (∃ report, verifyLoaded env fmt b liveGates frame = .ok report) ↔ Readable env b := by
  by_cases hschema : PyDict.get b "schema" = .str bundleSchema
  case neg =>
    rw [verifyLoaded, if_neg fun h => hschema (isStr_iff.mp h)]
    exact iff_of_true ⟨_, rfl⟩ fun h => absurd h hschema
  simp only [verifyLoaded_eq_ok hschema]
  constructor
  · rintro ⟨report, sections, hs, integrity, hintegrity, hreport⟩ -
    have hspec := @checkIntegrity_spec env fmt _ _ hb hs
    refine ⟨sections, hs, hspec.1.mp ⟨_, hintegrity⟩, fun hintact => ?_⟩
    obtain rfl := Except.ok.inj (hintegrity.symm.trans (hspec.2.mpr hintact))
    obtain ⟨hne, -⟩ | ⟨-, reasons, hreasons, -⟩ := hreport
    · exact absurd rfl hne
    · exact (checkContents_spec (hs ▸ hb.getOr "sections" loaded_nil_dict)).ends.mp ⟨_, hreasons⟩
  · intro hreadable
    obtain ⟨sections, hs, hregular, hshaped⟩ := hreadable hschema
    have hspec := @checkIntegrity_spec env fmt _ _ hb hs
    obtain ⟨integrity, hintegrity⟩ := hspec.1.mpr hregular
    by_cases hnil : integrity = []
    · subst hnil
      have hcontents := @checkContents_spec env fmt b _ frame liveGates
        (hs ▸ hb.getOr "sections" loaded_nil_dict)
      obtain ⟨reasons, hreasons⟩ := hcontents.ends.mpr (hshaped (hspec.2.mp hintegrity))
      exact ⟨_, sections, hs, [], hintegrity, .inr ⟨rfl, reasons, hreasons, rfl⟩⟩
    · exact ⟨_, sections, hs, integrity, hintegrity, .inl ⟨hnil, rfl⟩⟩

/-- The bundles that pass. -/
theorem verifyLoaded_pass_iff (hb : Loaded env (.dict b)) :
    (∃ report, verifyLoaded env fmt b liveGates frame = .ok report ∧ report.verdict = .pass) ↔
      ∃ sections, Passes env b sections liveGates frame := by
  by_cases hschema : PyDict.get b "schema" = .str bundleSchema
  case neg =>
    rw [verifyLoaded, if_neg fun h => hschema (isStr_iff.mp h)]
    refine iff_of_false ?_ fun ⟨_, h⟩ => hschema h.schema
    rintro ⟨report, hreport, hpass⟩
    rw [← Except.ok.inj hreport] at hpass
    exact nomatch hpass
  simp only [verifyLoaded_eq_ok hschema]
  constructor
  · rintro ⟨report, ⟨sections, hs, integrity, hintegrity, hreport⟩, hpass⟩
    have hspec := @checkIntegrity_spec env fmt _ _ hb hs
    obtain ⟨-, rfl⟩ | ⟨rfl, reasons, hreasons, rfl⟩ := hreport
    · exact nomatch hpass
    have hnil : reasons = [] := by
      by_contra hne
      rw [conclude, if_neg hne] at hpass
      exact nomatch hpass
    subst hnil
    have hcontents := @checkContents_spec env fmt b _ frame liveGates
      (hs ▸ hb.getOr "sections" loaded_nil_dict)
    obtain ⟨hshaped, hpassing⟩ := hcontents.clean.mp hreasons
    exact ⟨sections, hschema, hs, hspec.2.mp hintegrity, hshaped, hpassing, propagate_pass.mp hpass⟩
  · rintro ⟨sections, -, hs, hintact, hshaped, hpassing, hhold⟩
    have hspec := @checkIntegrity_spec env fmt _ _ hb hs
    have hcontents := @checkContents_spec env fmt b _ frame liveGates
      (hs ▸ hb.getOr "sections" loaded_nil_dict)
    exact ⟨conclude fmt b sections [], ⟨sections, hs, [], hspec.2.mpr hintact,
      .inr ⟨rfl, [], hcontents.clean.mpr ⟨hshaped, hpassing⟩, rfl⟩⟩, propagate_pass.mpr hhold⟩

end

/-! ## What a pass certifies -/

/-- The bundle certifies its archive: it is intact, every entry of an expected gate passed, every entry
    of an expected migration receipt is present and equivalent, the values of the frame are those of
    the bundle, and one archive is named throughout. -/
structure Certifies (env : Env) (b sections frame : PyDict) : Prop where
  intact : Intact env b sections
  gates : ∀ g ∈ expectedGrbsaGates, (∃ r, Entry (gateSummary sections) g r) ∧
    ∀ r, Entry (gateSummary sections) g r → GatePass r
  receipts : ∀ m ∈ expectedMigrationReceipts, (∃ r, Entry (receiptSummary sections) m r) ∧
    ∀ r, Entry (receiptSummary sections) m r → ReceiptPass r
  identity : FrameMatches env (sectionOf sections "registry_identity") frame
  named : (PyDict.get b "archive_sha256").isNone = false
  hygiene : pyEq env (PyDict.get (sectionOf sections "hygiene") "archive_sha256")
    (PyDict.get b "archive_sha256") = true
  frontier : Covers env (receiptOf (sectionOf sections "continuity_frontier"))
    (PyDict.get b "archive_sha256")
  expected : (PyDict.get frame "archive_sha256").truthy = true →
    pyEq env (PyDict.get b "archive_sha256") (PyDict.get frame "archive_sha256") = true

/-- The entries of one expected name agree on whether they pass. -/
structure Unanimous (sections : PyDict) : Prop where
  gates : ∀ g ∈ expectedGrbsaGates, ∀ r r', Entry (gateSummary sections) g r →
    Entry (gateSummary sections) g r' → (GatePass r ↔ GatePass r')
  receipts : ∀ m ∈ expectedMigrationReceipts, ∀ r r', Entry (receiptSummary sections) m r →
    Entry (receiptSummary sections) m r' → (ReceiptPass r ↔ ReceiptPass r')

/-- The bundle names an archive, and where one is expected the bundle and the hygiene section name
    it. -/
structure OneArchive (env : Env) (b sections frame : PyDict) : Prop where
  named : (PyDict.get b "archive_sha256").isNone = false
  expected : (PyDict.get frame "archive_sha256").truthy = true →
    pyEq env (PyDict.get b "archive_sha256") (PyDict.get frame "archive_sha256") = true ∧
      pyEq env (PyDict.get (sectionOf sections "hygiene") "archive_sha256")
        (PyDict.get b "archive_sha256") = true

/-- The file is no JSON text, or a bundle the verifier can read that names one archive, with entries
    that agree, when it has every property the verifier looks for. -/
def HoldsWhen (env : Env) (file : Option Json) (liveGates : List String) (frame : PyDict) : Prop :=
  ∀ j, file = some j → ∃ b, ofJson env j = .dict b ∧ Readable env b ∧
    ∀ sections, Passes env b sections liveGates frame →
      Unanimous sections ∧ OneArchive env b sections frame

/-- With the last entry of a name passing, all pass when the entries agree. -/
theorem LastPass.all_iff {summary : PyVal} {names : List String} {P : PyDict → Prop}
    (h : LastPass summary names P) :
    (∀ n ∈ names, (∃ r, Entry summary n r) ∧ ∀ r, Entry summary n r → P r) ↔
      ∀ n ∈ names, ∀ r r', Entry summary n r → Entry summary n r' → (P r ↔ P r') := by
  refine forall₂_congr fun n hn => ?_
  obtain ⟨last, hlast, hpass⟩ := h n hn
  have hentry := byName_spec hlast
  constructor
  · rintro ⟨-, hall⟩ r r' hr hr'
    exact iff_of_true (hall r hr) (hall r' hr')
  · exact fun hagree => ⟨⟨last, hentry⟩, fun r hr => (hagree r last hr hentry).mpr hpass⟩

/-- What a passing bundle certifies beyond the checks. -/
theorem Passes.certifies_iff {b sections : PyDict} {liveGates : List String} {frame : PyDict}
    (h : Passes env b sections liveGates frame) :
    Certifies env b sections frame ↔ Unanimous sections ∧ OneArchive env b sections frame := by
  constructor
  · intro hcert
    exact ⟨⟨h.passing.gates.all_iff.mp hcert.gates, h.passing.receipts.all_iff.mp hcert.receipts⟩,
      hcert.named, fun hgiven => ⟨hcert.expected hgiven, hcert.hygiene⟩⟩
  · rintro ⟨hunanimous, harchive⟩
    have hhygiene : pyEq env (PyDict.get (sectionOf sections "hygiene") "archive_sha256")
        (PyDict.get b "archive_sha256") = true := by
      by_cases hgiven : (PyDict.get frame "archive_sha256").truthy = true
      · exact (harchive.expected hgiven).2
      · -- without an expected archive the section is compared with the bundle
        have heq : expectedArchive frame b = PyDict.get b "archive_sha256" := if_neg hgiven
        have hclean := h.passing.hygiene.archive
        rw [heq] at hclean
        exact hclean harchive.named
    exact {
      intact := h.intact
      gates := h.passing.gates.all_iff.mpr hunanimous.gates
      receipts := h.passing.receipts.all_iff.mpr hunanimous.receipts
      identity := h.passing.identity
      named := harchive.named
      hygiene := hhygiene
      frontier := h.passing.frontier.covers harchive.named
      expected := fun hgiven => (harchive.expected hgiven).1 }

/-- A verdict is given, and PASS certifies the archive, exactly for these files. -/
theorem bundle_certifies_iff (env : Env) (fmt : Format) (file : Option Json) (error : String)
    (liveGates : List String) (frame : PyDict) :
    (∃ report, verifyBundle env fmt file error liveGates frame = .ok report ∧
      (report.verdict = .pass → ∃ j b sections, file = some j ∧ ofJson env j = .dict b ∧
        getOr b "sections" (.dict []) = .dict sections ∧ Certifies env b sections frame)) ↔
      HoldsWhen env file liveGates frame := by
  cases file with
  | none => exact iff_of_true ⟨_, rfl, nofun⟩ nofun
  | some j =>
    have hbind (report : Report) : verifyBundle env fmt (some j) error liveGates frame = .ok report ↔
        ∃ b, ofJson env j = .dict b ∧ verifyLoaded env fmt b liveGates frame = .ok report := by
      unfold verifyBundle
      dsimp only
      rw [Except.bind_eq_ok_iff]
      exact exists_congr fun b => and_congr_left fun _ => asDict_eq_ok
    constructor
    · rintro ⟨report, hreport, hcert⟩ _ ⟨⟩
      obtain ⟨b, hb, hloaded⟩ := (hbind report).mp hreport
      refine ⟨b, hb, (verifyLoaded_isOk_iff ⟨j, hb.symm⟩).mp ⟨report, hloaded⟩, fun sections hpasses => ?_⟩
      -- a bundle that passes has one report
      obtain ⟨report', hloaded', hpass⟩ := (verifyLoaded_pass_iff ⟨j, hb.symm⟩).mpr ⟨sections, hpasses⟩
      obtain rfl := Except.ok.inj (hloaded.symm.trans hloaded')
      obtain ⟨_, b', sections', ⟨⟩, hb', hs', hc⟩ := hcert hpass
      obtain rfl := PyVal.dict.inj (hb.symm.trans hb')
      obtain rfl := PyVal.dict.inj (hpasses.object.symm.trans hs')
      exact hpasses.certifies_iff.mp hc
    · intro h
      obtain ⟨b, hb, hreadable, hpasses⟩ := h j rfl
      obtain ⟨report, hloaded⟩ := (verifyLoaded_isOk_iff ⟨j, hb.symm⟩).mpr hreadable
      refine ⟨report, (hbind report).mpr ⟨b, hb, hloaded⟩, fun hpass => ?_⟩
      obtain ⟨sections, hp⟩ := (verifyLoaded_pass_iff ⟨j, hb.symm⟩).mp ⟨report, hloaded, hpass⟩
      exact ⟨j, b, sections, rfl, hb, hp.object, hp.certifies_iff.mpr (hpasses sections hp)⟩

/-- A section that is a number is not reported as one that is no object: the bundle hash is asked for
    its seal. -/
theorem number_section_raises : ¬ ∃ report, verifyBundle sampleEnv ⟨fun _ => "", fun _ => ""⟩
    (some (.obj [("schema", .str "ugk-release-cert-bundle/1"),
      ("sections", .obj [("conformance", .int 1)])])) "" [] [] = .ok report := by
  rw [← isOk_iff]
  decide +kernel

end ReleaseBundle

end Ugk
