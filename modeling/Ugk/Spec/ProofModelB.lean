import Ugk.Native.ProofModelB
import Ugk.Spec.CkCanon
import Ugk.Spec.ReleaseBundle

/-!
# The attested chain and the verdict on a link

An attestation that verifies is one chain by content with every link HOLD.  The verdict on two archives
depends on a link specification only through its document.

## Key results

- `attested_chain`: what a verified attestation says
- `judge_of_document`: specifications with one document have one verdict
- `found_or_declared`: an archive that was not found by its name has the declared hash
-/

namespace Ugk

namespace Continuity

open ReleaseBundle (iterate asDict getOr noGet Loaded asDict_eq_ok loaded_nil_list)

variable {env : Env} {Bytes Tree : Type} {rt : Runtime Bytes Tree}

/-! ## The attestation -/

theorem item_eq_ok {d : PyDict} {k : String} {v : PyVal} (h : item d k = .ok v) :
    PyDict.get d k = v := by
  unfold item at h
  unfold PyDict.get
  cases hlookup : d.lookup (.str k) with
  | none =>
    rw [hlookup] at h
    exact nomatch h
  | some w =>
    rw [hlookup] at h
    exact Except.ok.inj h

/-- Each candidate is the next baseline. -/
def Linked (env : Env) (a b : PyDict) : Prop :=
  pyEq env (PyDict.get a "candidate_sha256") (PyDict.get b "baseline_sha256") = true

theorem isChain_of_contiguous {alinks : List PyDict} (h : contiguous env alinks = .ok true) :
    alinks.IsChain (Linked env) := by
  fun_induction contiguous env alinks with
  | case1 a b rest ih =>
    obtain ⟨candidate, hcandidate, h⟩ := Except.bind_eq_ok h
    obtain ⟨baseline, hbaseline, h⟩ := Except.bind_eq_ok h
    split at h
    · rename_i heq
      refine .cons_cons ?_ (ih h)
      rw [Linked, item_eq_ok hcandidate, item_eq_ok hbaseline]
      exact heq
    · -- the report of a break ends in `False`
      obtain ⟨_, -, h⟩ := Except.bind_eq_ok h
      obtain ⟨_, -, h⟩ := Except.bind_eq_ok h
      obtain ⟨_, -, h⟩ := Except.bind_eq_ok h
      exact nomatch h
  | case2 alinks hshort =>
    match alinks, hshort with
    | [], _ => exact .nil
    | [a], _ => exact .singleton a
    | a :: b :: rest, hshort => exact absurd rfl (hshort a b rest)

theorem chained_of_chainsToHead {labels : List PyVal} {headSha : PyVal} {links : PyDict}
    (h : chainsToHead env labels headSha links = .ok true) {label : PyKey} {spec : PyVal}
    (hmem : (label, spec) ∈ links) (hlabel : labelled labels label = false) :
    ∃ d, spec = .dict d ∧ pyEq env (PyDict.get d "baseline_sha256") headSha = true := by
  induction links with
  | nil => exact nomatch hmem
  | cons kv rest ih =>
    obtain ⟨label', spec'⟩ := kv
    unfold chainsToHead at h
    split at h
    · rename_i hattested
      obtain heq | hmem := List.mem_cons.mp hmem
      · obtain ⟨rfl, rfl⟩ := Prod.mk.inj heq
        rw [hattested] at hlabel
        exact nomatch hlabel
      · exact ih h hmem
    · obtain ⟨d, hd, h⟩ := Except.bind_eq_ok h
      obtain ⟨ok, hok, h⟩ := Except.bind_eq_ok h
      obtain ⟨heq, rfl⟩ := Bool.and_eq_true_iff.mp (Except.ok.inj h)
      obtain hkv | hmem := List.mem_cons.mp hmem
      · obtain ⟨rfl, rfl⟩ := Prod.mk.inj hkv
        exact ⟨d, asDict_eq_ok.mp hd, heq⟩
      · exact ih hok hmem

/-- The labels of the attested links. -/
def labelsOf (alinks : List PyDict) : List PyVal := alinks.map fun a => PyDict.get a "label"

/-- The checkpoint: one chain by content, every link HOLD, with the links that are not attested each
    on its head. -/
structure Checkpoint (env : Env) (alinks : List PyDict) (links : PyDict) (head : PyDict) : Prop where
  last : alinks.getLast? = some head
  held : ∀ a ∈ alinks, PyDict.get a "verdict" = .str "HOLD"
  chain : alinks.IsChain (Linked env)
  current : ∀ label spec, (label, spec) ∈ links → labelled (labelsOf alinks) label = false →
    ∃ d, spec = .dict d ∧
      pyEq env (PyDict.get d "baseline_sha256") (PyDict.get head "candidate_sha256") = true

/-- What a verified attestation says. -/
theorem attested_chain {alinks : List PyDict} {links : PyVal}
    (h : verifyAttestation env alinks links = .ok true) :
    ∃ d head, links = .dict d ∧ Checkpoint env alinks d head := by
  obtain ⟨bad, hbad, h⟩ := Except.bind_eq_ok h
  obtain ⟨chain, hchain, h⟩ := Except.bind_eq_ok h
  obtain ⟨labels, hlabels, h⟩ := Except.bind_eq_ok h
  obtain ⟨headSha, hhead, h⟩ := Except.bind_eq_ok h
  obtain ⟨d, hd, h⟩ := Except.bind_eq_ok h
  obtain ⟨current, hcurrent, h⟩ := Except.bind_eq_ok h
  have hall := Except.ok.inj h
  simp only [Bool.and_eq_true, Bool.not_eq_true', List.isEmpty_eq_false_iff, List.isEmpty_iff] at hall
  obtain ⟨⟨⟨hne, rfl⟩, rfl⟩, rfl⟩ := hall
  have hlabels' : labels = labelsOf alinks := by
    have hmap := map_of_mapM (g := fun a => PyDict.get a "label") (k := id) hlabels
      fun _ _ hlabel => (item_eq_ok hlabel).symm
    rw [List.map_id] at hmap
    exact hmap
  subst hlabels'
  cases hlast : alinks.getLast? with
  | none => exact absurd (List.getLast?_eq_none_iff.mp hlast) hne
  | some head =>
    rw [headCandidate, hlast] at hhead
    obtain ⟨_, -, hsha⟩ := Except.bind_eq_ok hhead
    obtain rfl := item_eq_ok hsha
    refine ⟨d, head, asDict_eq_ok.mp hd, hlast, fun a ha => ?_, isChain_of_contiguous hchain, ?_⟩
    · by_contra hverdict
      -- a link that is not HOLD would have been listed
      have hmem : a ∈ alinks.filter fun a => !(PyDict.get a "verdict").isStr "HOLD" := by
        rw [List.mem_filter, Bool.not_eq_true', Bool.eq_false_iff]
        exact ⟨ha, fun hstr => hverdict (isStr_iff.mp hstr)⟩
      obtain ⟨v, hv, -⟩ := forall₂_mem_left (mapM_ok_iff.mp hbad) hmem
      exact nomatch hv
    · exact fun label spec hmem hlabel => chained_of_chainsToHead hcurrent hmem hlabel

/-! ## Declared surfaces -/

/-- The name an entry of a surface declares. -/
def nameOf : PyVal → Except Exc String
  | .str s => .ok (px s)
  | _ => .error noGet

/-- The names a declared surface gives. -/
def names (v : PyVal) : Except Exc (List String) := do
  let xs ← iterate v
  xs.mapM nameOf

theorem surface_eq (spec : PyDict) (name : String) :
    surface spec name = names (getOr spec name (.list [])) := rfl

/-- Both raise the same, or both give the same set of names. -/
def SameNames : Except Exc (List String) → Except Exc (List String) → Prop
  | .error e, .error e' => e = e'
  | .ok fs, .ok fs' => ∀ f, f ∈ fs ↔ f ∈ fs'
  | _, _ => False

theorem SameNames.refl (x : Except Exc (List String)) : SameNames x x := by
  cases x with
  | error e => exact rfl
  | ok fs => exact fun _ => Iff.rfl

theorem SameNames.of_common {x y z : Except Exc (List String)} (hx : SameNames x z)
    (hy : SameNames y z) : SameNames x y := by
  cases x <;> cases y <;> cases z
  case error.error.error => exact Eq.trans hx (Eq.symm hy)
  case ok.ok.ok => exact fun f => (hx f).trans (hy f).symm
  all_goals first | exact (hx : False).elim | exact (hy : False).elim

theorem name_reloaded {v : PyVal} {j : Json} (h : toJson env true v = .ok j) :
    nameOf v = nameOf (ofJson env j) := by
  cases v with
  | list xs =>
    rw [toJson] at h
    obtain ⟨js, -, rfl⟩ := Except.map_eq_ok h
    rfl
  | tuple xs =>
    rw [toJson] at h
    obtain ⟨js, -, rfl⟩ := Except.map_eq_ok h
    rfl
  | dict d =>
    obtain ⟨_, _, _, rfl, _⟩ := toJson_dict_ok h
    rfl
  | float x =>
    cases x <;> cases h <;> rfl
  | other name => exact nomatch h
  | _ =>
    cases h
    rfl

/-- The names of a dictionary of strings are its keys. -/
theorem names_dict {d : PyDict} (hstr : ∀ kv ∈ d, ∃ s, kv.1 = .str s) :
    ∃ fs, names (.dict d) = .ok fs ∧ ∀ f, f ∈ fs ↔ ∃ s, .str s ∈ d.map Prod.fst ∧ px s = f := by
  have hval : names (.dict d) = (d.map fun kv => ReleaseBundle.keyVal kv.1).mapM nameOf := rfl
  rw [hval]
  clear hval
  induction d with
  | nil => exact ⟨[], rfl, fun f => by simp⟩
  | cons kv rest ih =>
    obtain ⟨k, v⟩ := kv
    obtain ⟨s, hs⟩ := hstr (k, v) List.mem_cons_self
    obtain rfl : k = .str s := hs
    obtain ⟨fs, hfs, hmem⟩ := ih fun kv hkv => hstr kv (List.mem_cons_of_mem _ hkv)
    refine ⟨px s :: fs, ?_, fun f => ?_⟩
    · rw [List.map_cons, List.mapM_cons, hfs]
      rfl
    · rw [List.mem_cons, hmem, List.map_cons]
      simp [eq_comm]

/-- A surface declares the same names after a detour through its document. -/
theorem names_reloaded {v : PyVal} (hv : Loaded env v) :
    SameNames (names v) (names (CkCanon.reloaded env v)) := by
  obtain ⟨j, hj⟩ := isOk_iff.mp hv.isOk
  rw [CkCanon.reloaded_of_toJson hj]
  cases v with
  | list xs =>
    rw [toJson] at hj
    obtain ⟨js, hjs, rfl⟩ := Except.map_eq_ok hj
    rw [ofJson, ofJsonList_eq]
    have heq : names (.list xs) = names (.list (js.map (ofJson env))) := by
      show xs.mapM nameOf = (js.map (ofJson env)).mapM nameOf
      refine mapM_congr_forall₂ ?_
      rw [List.forall₂_map_right_iff]
      exact (forall₂_of_toJsonList hjs).imp fun _ _ hdump => name_reloaded hdump
    rw [heq]
    exact .refl _
  | dict d =>
    obtain ⟨j', hj'⟩ := hv
    have hstr : ∀ kv ∈ d, ∃ s, kv.1 = .str s := ReleaseBundle.keys_of_loaded hj'.symm
    obtain ⟨r, hr, hdetour⟩ := CkCanon.detour_of_toJson hj
      (CkCanon.distinctNames_of_loaded (hj' ▸ hj)) fun kv hkv => by
        obtain ⟨s, hs⟩ := hstr kv hkv
        rw [hs]
        rfl
    have hkeys : (r.map Prod.fst).Perm (d.map Prod.fst) := by
      have hmap := hdetour.items.map Prod.fst
      rw [List.map_map] at hmap
      exact hmap
    have hstr' : ∀ kv ∈ r, ∃ s, kv.1 = .str s := by
      intro kv hkv
      obtain ⟨kv', hkv', heq⟩ := List.mem_map.mp (hkeys.mem_iff.mp (List.mem_map_of_mem hkv))
      obtain ⟨s, hs⟩ := hstr kv' hkv'
      exact ⟨s, heq.symm.trans hs⟩
    obtain ⟨fs, hfs, hmem⟩ := names_dict hstr
    obtain ⟨fs', hfs', hmem'⟩ := names_dict hstr'
    rw [hr, hfs, hfs']
    intro f
    rw [hmem, hmem']
    simp only [hkeys.mem_iff]
  | str s =>
    cases hj
    exact .refl _
  | tuple xs => exact absurd hv Loaded.ne_tuple
  | float x =>
    cases x <;> cases hj <;> exact rfl
  | other name => cases hj
  | _ =>
    cases hj
    exact rfl

/-! ## The verdict on a link -/

theorem SameNames.bind {x y : Except Exc (List String)} {β : Type} {g g' : List String → Except Exc β}
    (h : SameNames x y) (hg : ∀ fs fs', (∀ f, f ∈ fs ↔ f ∈ fs') → g fs = g' fs') :
    x >>= g = y >>= g' := by
  cases x <;> cases y
  case error.error => exact congrArg Except.error h
  case ok.ok fs fs' => exact hg fs fs' h
  all_goals exact (h : False).elim

/-- Specifications whose surfaces declare the same names have one verdict. -/
theorem judge_congr {spec spec' : PyDict}
    (h : ∀ name, SameNames (surface spec name) (surface spec' name)) (base cand : Bytes) :
    judge rt spec base cand = judge rt spec' base cand := by
  have hconfined (changed : List String) : confined spec changed = confined spec' changed := by
    unfold confined
    refine (h _).bind fun sub sub' hsub => (h _).bind fun ver ver' hver =>
      (h _).bind fun cdx cdx' hcdx => ?_
    have hcontains {fs fs' : List String} (hsame : ∀ f, f ∈ fs ↔ f ∈ fs') (f : String) :
        fs.contains f = fs'.contains f := by
      rw [Bool.eq_iff_iff, List.contains_iff_mem, List.contains_iff_mem, hsame]
    simp only [hcontains hsub, hcontains hver, hcontains hcdx]
  unfold judge
  simp only [hconfined]

theorem reloaded_getOr {d r : PyDict} (h : CkCanon.Detour env d r) (k : String) :
    getOr r k (.list []) = CkCanon.reloaded env (getOr d k (.list [])) := by
  unfold getOr
  rw [h.lookup]
  cases d.lookup (.str k) with
  | none => rfl
  | some v => rfl

theorem detour_of_loaded {d : PyDict} (hd : Loaded env (.dict d)) {j : Json}
    (hj : toJson env true (.dict d) = .ok j) :
    ∃ r, ofJson env j = .dict r ∧ CkCanon.Detour env d r := by
  obtain ⟨j', hj'⟩ := hd
  refine CkCanon.detour_of_toJson hj (CkCanon.distinctNames_of_loaded (hj' ▸ hj)) fun kv hkv => ?_
  obtain ⟨s, hs⟩ := ReleaseBundle.keys_of_loaded hj'.symm kv hkv
  rw [hs]
  rfl

/-- The verdict depends on a specification only through its document. -/
theorem judge_of_document {spec spec' : PyDict} (hspec : Loaded env (.dict spec))
    (hspec' : Loaded env (.dict spec'))
    (h : toJson env true (.dict spec) = toJson env true (.dict spec')) (base cand : Bytes) :
    judge rt spec base cand = judge rt spec' base cand := by
  obtain ⟨j, hj⟩ := isOk_iff.mp hspec.isOk
  obtain ⟨r, hr, hdetour⟩ := detour_of_loaded hspec hj
  obtain ⟨r', hr', hdetour'⟩ := detour_of_loaded hspec' (h ▸ hj)
  obtain rfl := PyVal.dict.inj (hr.symm.trans hr')
  refine judge_congr (fun name => ?_) base cand
  rw [surface_eq, surface_eq]
  have h₁ := names_reloaded (hspec.getOr name loaded_nil_list)
  have h₂ := names_reloaded (hspec'.getOr name loaded_nil_list)
  rw [← reloaded_getOr hdetour] at h₁
  rw [← reloaded_getOr hdetour'] at h₂
  exact h₁.of_common h₂

/-! ## Archives -/

/-- No archive of the directory has the declared hash, and a file of the declared name is there. -/
structure FoundByName (rt : Runtime Bytes Tree) (archives : Archives Bytes) (sha fname : PyVal) :
    Prop where
  unknown : sha.truthy = true → ∀ f ∈ archives.listing, hasSuffix f ".tar.gz" = true →
    ∀ bytes, archives.node f = some (.file bytes) → sha ≠ .str (rt.sha256File bytes)
  file : ∃ f, fname = .str f ∧ (archives.node f).isSome = true

theorem mem_contentIndex {archives : Archives Bytes} {s f : String} :
    (s, f) ∈ contentIndex rt archives ↔ f ∈ archives.listing ∧ hasSuffix f ".tar.gz" = true ∧
      ∃ bytes, archives.node f = some (.file bytes) ∧ rt.sha256File bytes = s := by
  unfold contentIndex
  rw [List.mem_reverse, List.mem_filterMap]
  constructor
  · rintro ⟨f', hf', hentry⟩
    split at hentry
    case isFalse => exact nomatch hentry
    case isTrue hsuffix =>
      split at hentry
      case h_1 bytes hnode =>
        obtain ⟨rfl, rfl⟩ := Prod.mk.inj (Option.some.inj hentry)
        exact ⟨hf', hsuffix, bytes, hnode, rfl⟩
      case h_2 => exact nomatch hentry
  · rintro ⟨hf, hsuffix, bytes, hnode, rfl⟩
    refine ⟨f, hf, ?_⟩
    rw [if_pos hsuffix, hnode]

theorem byContent_eq_some {index : List (String × String)} {sha : PyVal} {f : String}
    (h : byContent index sha = .ok (some f)) : ∃ s, sha = .str s ∧ (s, f) ∈ index := by
  unfold byContent at h
  split at h
  case isFalse => exact nomatch h
  case isTrue =>
    split at h
    · exact nomatch h
    · split at h
      case h_1 =>
        obtain ⟨l₁, l₂, rfl, -⟩ := List.lookup_eq_some_iff.mp (Except.ok.inj h)
        exact ⟨_, rfl, List.mem_append_right _ List.mem_cons_self⟩
      case h_2 => exact nomatch h

theorem byContent_eq_none {index : List (String × String)} {sha : PyVal}
    (h : byContent index sha = .ok none) (htruthy : sha.truthy = true) (s f : String)
    (hmem : (s, f) ∈ index) : sha ≠ .str s := by
  rintro rfl
  rw [byContent, if_pos htruthy] at h
  have hnone : index.lookup s = none := Except.ok.inj h
  rw [List.lookup_eq_none_iff] at hnone
  have hne := hnone _ hmem
  simp at hne

/-- An archive that was not found by its name has the declared hash. -/
theorem found_or_declared {archives : Archives Bytes} {sha fname : PyVal} {arch : Option String}
    {bytes : Option Bytes} (harch : resolveArch archives sha fname (contentIndex rt archives) = .ok arch)
    (hbytes : readArchive archives arch = .ok bytes) :
    FoundByName rt archives sha fname ∨ ∀ b, bytes = some b → sha = .str (rt.sha256File b) := by
  obtain ⟨found, hfound, harch⟩ := Except.bind_eq_ok harch
  cases found with
  | some f =>
    obtain rfl := Except.ok.inj harch
    obtain ⟨s, rfl, hmem⟩ := byContent_eq_some hfound
    obtain ⟨-, -, b, hnode, rfl⟩ := mem_contentIndex.mp hmem
    refine .inr fun b' hb' => ?_
    unfold readArchive at hbytes
    rw [Option.bind_some, hnode] at hbytes
    obtain rfl := Except.ok.inj hbytes
    rw [Option.some.inj hb']
  | none =>
    have hunknown : sha.truthy = true → ∀ f ∈ archives.listing, hasSuffix f ".tar.gz" = true →
        ∀ bytes, archives.node f = some (.file bytes) → sha ≠ .str (rt.sha256File bytes) :=
      fun htruthy f hf hsuffix b hnode =>
        byContent_eq_none hfound htruthy _ f (mem_contentIndex.mpr ⟨hf, hsuffix, b, hnode, rfl⟩)
    cases arch with
    | none =>
      refine .inr fun b hb => ?_
      obtain rfl := Except.ok.inj hbytes
      exact nomatch hb
    | some f =>
      refine .inl ⟨hunknown, ?_⟩
      replace harch : byFilename archives fname = .ok (some f) := harch
      unfold byFilename at harch
      split at harch
      case isFalse => exact nomatch harch
      case isTrue =>
        split at harch
        case h_1 =>
          have hf := Except.ok.inj harch
          split at hf
          · rename_i hsome
            exact ⟨_, rfl, Option.some.inj hf ▸ hsome⟩
          · exact nomatch hf
        case h_2 => exact nomatch harch

/-- The archive of a role of the link is read, or is not there. -/
def Reads (rt : Runtime Bytes Tree) (archives : Archives Bytes) (spec : PyDict) (role : String)
    (bytes : Option Bytes) : Prop :=
  ∃ arch, resolveArch archives (PyDict.get spec (role ++ "_sha256")) (PyDict.get spec role)
    (contentIndex rt archives) = .ok arch ∧ readArchive archives arch = .ok bytes

theorem node_of_readArchive {archives : Archives Bytes} {arch : Option String} {bytes : Bytes}
    (h : readArchive archives arch = .ok (some bytes)) :
    arch.bind archives.node = some (.file bytes) := by
  unfold readArchive at h
  split at h
  case h_1 => exact nomatch h
  case h_2 b hnode =>
    rw [hnode, Option.some.inj (Except.ok.inj h)]
  case h_3 => exact nomatch h

/-- The verdict on a link whose archives are there. -/
theorem evaluateLink_eq {archives : Archives Bytes} {spec : PyDict} {base cand : Bytes}
    (hbase : Reads rt archives spec "baseline" (some base))
    (hcand : Reads rt archives spec "candidate" (some cand)) :
    evaluateLink rt archives spec (contentIndex rt archives) = judge rt spec base cand := by
  obtain ⟨baseArch, hbaseArch, hbase⟩ := hbase
  obtain ⟨candArch, hcandArch, hcand⟩ := hcand
  unfold evaluateLink
  show (resolveArch archives (PyDict.get spec ("baseline" ++ "_sha256")) (PyDict.get spec "baseline")
    (contentIndex rt archives)).bind _ = _
  rw [hbaseArch]
  show (resolveArch archives (PyDict.get spec ("candidate" ++ "_sha256"))
    (PyDict.get spec "candidate") (contentIndex rt archives)).bind _ = _
  rw [hcandArch]
  dsimp only [Except.bind]
  rw [node_of_readArchive hbase, node_of_readArchive hcand, hbase, hcand]
  rfl

end Continuity

end Ugk
