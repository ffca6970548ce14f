import Ugk.Native.ProofCache
import Ugk.Spec.ProofModelB
import Ugk.Spec.Sample

/-!
# What a HOLD frontier says

A cache that earlier runs have written holds verdicts of the judgement on archives with the recorded
hashes, and stays so over saving, loading and running.  So an entry stands for a judgement of the link
in hand, and a run with such a cache comes to the verdict of a run without one.

## Key results

- `Honest.saved`, `checkLinks_honest`: what a cache keeps
- `checkLink_present`: one link with both archives there, with or without an entry
- `hold_is_continuity`: a HOLD frontier
-/

namespace Ugk

namespace Continuity

open ReleaseBundle (asDict getOr canon Loaded asDict_eq_ok isOk_canon pyEq_str)
open CkCanon (Keyed isStrKey)

variable {env : Env} {Bytes Tree : Type} {rt : Runtime Bytes Tree} {fmt : Format}

/-! ## Dictionaries that can be saved -/

/-- A dictionary of strings whose values dump. -/
structure Plain (env : Env) (d : PyDict) : Prop where
  nodup : (d.map Prod.fst).Nodup
  str : ∀ kv ∈ d, isStrKey kv.1 = true
  keyed : ∀ kv ∈ d, Keyed env kv.2
  dumps : ∀ kv ∈ d, isOk (toJson env true kv.2) = true

theorem Plain.isOk {d : PyDict} (h : Plain env d) : isOk (toJson env true (.dict d)) = true :=
  ReleaseBundle.isOk_toJson_dict (fun kv hkv => CkCanon.isStrKey_iff.mp (h.str kv hkv)) h.dumps

theorem Plain.keyed_dict {d : PyDict} (h : Plain env d) : Keyed env (.dict d) :=
  CkCanon.keyed_dict h.str h.nodup h.keyed

theorem Plain.set {d : PyDict} (h : Plain env d) (k : String) {v : PyVal} (hkeyed : Keyed env v)
    (hdumps : Ugk.isOk (toJson env true v) = true) : Plain env (PyDict.set d (.str k) v) := by
  refine ⟨PyDict.keys_set d _ v h.nodup, fun kv hkv => ?_, fun kv hkv => ?_, fun kv hkv => ?_⟩
  all_goals obtain rfl | hmem := PyDict.mem_of_mem_set hkv
  · rfl
  · exact h.str kv hmem
  · exact hkeyed
  · exact h.keyed kv hmem
  · exact hdumps
  · exact h.dumps kv hmem

theorem plain_of_loaded {d : PyDict} (h : Loaded env (.dict d)) : Plain env d := by
  obtain ⟨j, hj⟩ := h
  obtain ⟨hnodup, hvalues⟩ := dict_of_loaded hj.symm
  refine ⟨hnodup, fun kv hkv => ?_, fun kv hkv => ?_, fun kv hkv => ?_⟩
  · exact CkCanon.isStrKey_iff.mpr (ReleaseBundle.keys_of_loaded hj.symm kv hkv)
  · obtain ⟨j', hj'⟩ := hvalues kv hkv
    rw [hj']
    exact fun _ => CkCanon.distinctNames_of_loaded
  · obtain ⟨j', hj'⟩ := hvalues kv hkv
    rw [hj']
    exact isOk_toJson_ofJson j'

theorem plain_strDict {kvs : List (String × PyVal)} (hnodup : (kvs.map Prod.fst).Nodup)
    (hkeyed : ∀ kv ∈ kvs, Keyed env kv.2) (hdumps : ∀ kv ∈ kvs, Ugk.isOk (toJson env true kv.2) = true) :
    Plain env (kvs.map fun kv => (.str kv.1, kv.2)) := by
  have hinj : Function.Injective PyKey.str := fun _ _ heq => PyKey.str.inj heq
  refine ⟨?_, fun kv hkv => ?_, fun kv hkv => ?_, fun kv hkv => ?_⟩
  · have hmap := hnodup.map hinj
    rw [List.map_map] at hmap ⊢
    exact hmap
  all_goals obtain ⟨m, hm, rfl⟩ := List.mem_map.mp hkv
  · rfl
  · exact hkeyed m hm
  · exact hdumps m hm

/-- Saving a dictionary and loading it is a detour. -/
theorem Plain.detour {d : PyDict} (h : Plain env d) {j : Json}
    (hj : toJson env true (.dict d) = .ok j) : ∃ r, ofJson env j = .dict r ∧ CkCanon.Detour env d r :=
  CkCanon.detour_of_toJson hj (h.keyed_dict j hj) h.str

theorem Plain.get_dumps {d : PyDict} (h : Plain env d) (k : String) :
    Ugk.isOk (toJson env true (PyDict.get d k)) = true := by
  cases hv : (PyDict.get d k).isNone with
  | true =>
    cases hget : PyDict.get d k with
    | none => rfl
    | _ =>
      rw [hget] at hv
      exact nomatch hv
  | false => exact h.dumps _ (PyDict.mem_of_get h.nodup rfl hv)

/-! ## Honest caches -/

/-- Neither archive carries founding or key material. -/
def Uncontaminated (rt : Runtime Bytes Tree) (base cand : Bytes) : Prop :=
  archiveGenesisContamination rt cand ++ archiveGenesisContamination rt base = []

instance (base cand : Bytes) : Decidable (Uncontaminated rt base cand) := by
  unfold Uncontaminated
  infer_instance

/-- The text of a verdict. -/
def verdictText (b : Bool) : PyVal := .str (if b then "HOLD" else "FAIL")

/-- The entry records a judgement on two archives with these hashes, of a specification with this
    document. -/
def Judged (env : Env) (rt : Runtime Bytes Tree) (e : PyDict) : Prop :=
  ∃ spec base cand lbh j, Loaded env (.dict spec) ∧ linkBodyHash env spec = .ok lbh ∧
    Uncontaminated rt base cand ∧ judge rt spec base cand = .ok j ∧
    PyDict.get e "baseline_sha256" = .str (rt.sha256File base) ∧
    PyDict.get e "candidate_sha256" = .str (rt.sha256File cand) ∧
    PyDict.get e "link_body_hash" = .str lbh ∧
    PyDict.get e "verdict" = verdictText j.verdict

/-- Every entry of the cache records a judgement. -/
structure Honest (env : Env) (rt : Runtime Bytes Tree) (cache : PyDict) : Prop where
  plain : Plain env cache
  judged : ∃ entries, PyDict.get cache "entries" = .dict entries ∧ Plain env entries ∧
    ∀ kv ∈ entries, ∃ e, kv.2 = .dict e ∧ Plain env e ∧ Judged env rt e

theorem reloaded_str (s : String) : CkCanon.reloaded env (.str s) = .str s := rfl

theorem Judged.detour {e r : PyDict} (h : Judged env rt e) (hr : CkCanon.Detour env e r) :
    Judged env rt r := by
  obtain ⟨spec, base, cand, lbh, j, hspec, hlbh, hclean, hjudge, hbase, hcand, hbody, hverdict⟩ := h
  refine ⟨spec, base, cand, lbh, j, hspec, hlbh, hclean, hjudge, ?_, ?_, ?_, ?_⟩
  · rw [hr.get, hbase, reloaded_str]
  · rw [hr.get, hcand, reloaded_str]
  · rw [hr.get, hbody, reloaded_str]
  · rw [hr.get, hverdict, verdictText, reloaded_str]

theorem honest_empty : Honest env rt ((emptyCache.dict?).getD []) := by
  have hstr (s : String) : Keyed env (.str s) := fun j hj => by
    cases hj
    rfl
  have hnil : Keyed env (.dict []) :=
    CkCanon.keyed_dict (fun _ h => nomatch h) List.nodup_nil fun _ h => nomatch h
  refine ⟨plain_strDict (by decide) ?_ ?_, [], rfl, ⟨List.nodup_nil, ?_, ?_, ?_⟩, ?_⟩
  · simp only [List.forall_mem_cons]
    exact ⟨hstr _, hstr _, hnil, fun _ h => nomatch h⟩
  · simp only [List.forall_mem_cons]
    exact ⟨rfl, rfl, rfl, fun _ h => nomatch h⟩
  all_goals exact fun _ h => nomatch h

/-- A saved cache is loaded with the same judgements. -/
theorem Honest.saved {cache : PyDict} (h : Honest env rt cache) {j : Json}
    (hj : toJson env true (.dict cache) = .ok j) : Honest env rt (loadCache env (some j)) := by
  obtain ⟨r, hr, hdetour⟩ := h.plain.detour hj
  have hloaded : Loaded env (.dict r) := ⟨j, hr.symm⟩
  have hhonest : Honest env rt r := by
    refine ⟨plain_of_loaded hloaded, ?_⟩
    obtain ⟨entries, hentries, hplain, hjudged⟩ := h.judged
    obtain ⟨je, hje⟩ := isOk_iff.mp hplain.isOk
    obtain ⟨entries', hentries', hdetour'⟩ := hplain.detour hje
    refine ⟨entries', ?_, plain_of_loaded ⟨je, hentries'.symm⟩, fun kv hkv => ?_⟩
    · rw [hdetour.get, hentries, CkCanon.reloaded_of_toJson hje, hentries']
    · obtain ⟨kv', hkv', rfl⟩ := List.mem_map.mp (hdetour'.items.mem_iff.mp hkv)
      obtain ⟨e, he, heplain, hejudged⟩ := hjudged kv' hkv'
      obtain ⟨jv, hjv⟩ := isOk_iff.mp heplain.isOk
      obtain ⟨e', he', hdetour''⟩ := heplain.detour hjv
      refine ⟨e', ?_, plain_of_loaded ⟨jv, he'.symm⟩, hejudged.detour hdetour''⟩
      show CkCanon.reloaded env kv'.2 = .dict e'
      rw [he, CkCanon.reloaded_of_toJson hjv, he']
  unfold loadCache
  dsimp only
  rw [hr]
  dsimp only
  split
  · split
    · exact hhonest
    · exact honest_empty
  · exact honest_empty

theorem Honest.save {cache : PyDict} (h : Honest env rt cache) :
    ∃ j, toJson env true (.dict cache) = .ok j :=
  isOk_iff.mp h.plain.isOk

/-! ## Reading and writing entries -/

theorem getOr_of_get {d : PyDict} {k : String} {v default : PyVal} (h : PyDict.get d k = v)
    (hv : v.isNone = false) : getOr d k default = v := by
  unfold PyDict.get at h
  unfold getOr
  cases hlookup : d.lookup (.str k) with
  | none =>
    rw [hlookup] at h
    rw [← h] at hv
    exact nomatch hv
  | some w =>
    rw [hlookup] at h
    exact h

theorem item_of_get {d : PyDict} {k : String} {v : PyVal} (h : PyDict.get d k = v)
    (hv : v.isNone = false) : item d k = .ok v := by
  unfold PyDict.get at h
  unfold item
  cases hlookup : d.lookup (.str k) with
  | none =>
    rw [hlookup] at h
    rw [← h] at hv
    exact nomatch hv
  | some w =>
    rw [hlookup] at h
    exact congrArg Except.ok h

theorem PyDict.get_set_self {d : PyDict} (hnodup : (d.map Prod.fst).Nodup) (k : String) (v : PyVal) :
    PyDict.get (PyDict.set d (.str k) v) k = v := by
  have hmem : (PyKey.str k, v) ∈ PyDict.set d (.str k) v := by
    unfold PyDict.set
    split
    · rename_i hany
      obtain ⟨kv, hkv, heq⟩ := List.any_eq_true.mp hany
      refine List.mem_map.mpr ⟨kv, hkv, ?_⟩
      rw [if_pos heq]
    · exact List.mem_append_right _ List.mem_cons_self
  rw [PyDict.get, lookup_of_mem (PyDict.keys_set d _ v hnodup) hmem]
  rfl

/-- The parts of the identity dump. -/
def Identity.Dumps (env : Env) (ident : Identity) : Prop :=
  ∀ kv ∈ ident.items, isOk (toJson env true kv.2) = true

theorem identityKey_total {ident : Identity} (h : ident.Dumps env) :
    ∃ key, identityKey env ident = .ok key := by
  rw [← isOk_iff, identityKey, isOk_map, isOk_canon, toJson, isOk_map, isOk_toJsonList,
    List.all_eq_true]
  intro v hv
  obtain ⟨kv, hkv, rfl⟩ := List.mem_map.mp hv
  exact h kv hkv

theorem entryHash_total {ident : Identity} (h : ident.Dumps env) {verdict path legs : PyVal}
    (hverdict : isOk (toJson env true verdict) = true) (hpath : isOk (toJson env true path) = true)
    (hlegs : isOk (toJson env true legs) = true) :
    ∃ hash, entryHash env ident verdict path legs = .ok hash := by
  rw [← isOk_iff, entryHash, isOk_map, isOk_canon]
  refine ReleaseBundle.isOk_toJson_strDict ?_
  simp only [List.forall_mem_cons]
  exact ⟨ReleaseBundle.isOk_toJson_strDict h, hverdict, hpath, hlegs, fun _ hkv => nomatch hkv⟩

/-- An entry that an honest cache gives for an identity is a judgement under that identity. -/
theorem cacheGet_spec {cache : PyDict} (h : Honest env rt cache) {ident : Identity}
    (hident : ident.Dumps env) : ∃ hit, cacheGet env cache ident = .ok hit ∧
      ∀ e, hit = some e → Judged env rt e ∧ ∀ kv ∈ ident.items, pyEq env (PyDict.get e kv.1) kv.2 = true := by
  obtain ⟨key, hkey⟩ := identityKey_total hident
  obtain ⟨entries, hentries, hplain, hjudged⟩ := h.judged
  unfold cacheGet
  rw [hkey, getOr_of_get hentries rfl]
  show ∃ hit, (if (PyDict.get entries key).truthy then _ else _) = _ ∧ _
  split
  case isFalse => exact ⟨none, rfl, nofun⟩
  case isTrue htruthy =>
    have hsome : (PyDict.get entries key).isNone = false := by
      cases hget : PyDict.get entries key with
      | none =>
        rw [hget] at htruthy
        exact nomatch htruthy
      | _ => rfl
    obtain ⟨e, he, heplain, hejudged⟩ := hjudged _ (PyDict.mem_of_get hplain.nodup rfl hsome)
    replace he : PyDict.get entries key = .dict e := he
    rw [he]
    show ∃ hit, (if (ident.items.all _) = true then _ else _) = _ ∧ _
    split
    case isFalse => exact ⟨none, rfl, nofun⟩
    case isTrue hall =>
      obtain ⟨hash, hhash⟩ := entryHash_total hident (heplain.get_dumps "verdict")
        (heplain.get_dumps "path") (heplain.get_dumps "legs")
      rw [hhash]
      refine ⟨_, rfl, fun e' he' => ?_⟩
      split at he'
      · obtain rfl := Option.some.inj he'
        exact ⟨hejudged, List.all_eq_true.mp hall⟩
      · exact nomatch he'

/-- A judgement that is put in keeps the cache honest. -/
theorem cachePut_spec {cache : PyDict} (h : Honest env rt cache) {ident : Identity}
    (hident : ident.Dumps env) {e : PyDict} (hplain : Plain env e) (hjudged : Judged env rt e) :
    ∃ cache', cachePut env cache ident (.dict e) = .ok cache' ∧ Honest env rt cache' := by
  obtain ⟨key, hkey⟩ := identityKey_total hident
  obtain ⟨entries, hentries, heplain, hejudged⟩ := h.judged
  have hset : Plain env (PyDict.set entries (.str key) (.dict e)) :=
    heplain.set key hplain.keyed_dict hplain.isOk
  refine ⟨PyDict.set cache (.str "entries") (.dict (PyDict.set entries (.str key) (.dict e))), ?_,
    h.plain.set "entries" hset.keyed_dict hset.isOk, _,
    PyDict.get_set_self h.plain.nodup _ _, hset, fun kv hkv => ?_⟩
  · unfold cachePut
    rw [hkey, getOr_of_get hentries rfl]
    rfl
  · obtain rfl | hmem := PyDict.mem_of_mem_set hkv
    · exact ⟨e, rfl, hplain, hjudged⟩
    · exact hejudged kv hmem

theorem keyed_str (s : String) : Keyed env (.str s) := by
  intro j hj
  cases hj
  rfl

theorem keyed_bool (b : Bool) : Keyed env (.bool b) := by
  intro j hj
  cases hj
  rfl

/-- The legs of a judgement can be saved. -/
theorem judge_legs {spec : PyDict} {base cand : Bytes} {j : Judgement}
    (h : judge rt spec base cand = .ok j) :
    Keyed env j.legs ∧ isOk (toJson env true j.legs) = true := by
  have hlegs (kvs : List (String × PyVal)) (hnodup : (kvs.map Prod.fst).Nodup)
      (hbool : ∀ kv ∈ kvs, ∃ b, kv.2 = .bool b) :
      Keyed env (strDict kvs) ∧ isOk (toJson env true (strDict kvs)) = true := by
    have hplain : Plain env (kvs.map fun kv => (.str kv.1, kv.2)) := by
      refine plain_strDict hnodup (fun kv hkv => ?_) fun kv hkv => ?_
      all_goals obtain ⟨b, hb⟩ := hbool kv hkv
      · rw [hb]
        exact keyed_bool b
      · rw [hb]
        rfl
    exact ⟨hplain.keyed_dict, hplain.isOk⟩
  unfold judge at h
  obtain ⟨bdir, -, h⟩ := Except.bind_eq_ok h
  obtain ⟨cdir, -, h⟩ := Except.bind_eq_ok h
  dsimp only at h
  split at h
  · obtain rfl := Except.ok.inj h
    refine hlegs _ (by decide) fun kv hkv => ?_
    rw [List.mem_singleton.mp hkv]
    exact ⟨true, rfl⟩
  · obtain ⟨bt, -, h⟩ := Except.bind_eq_ok h
    obtain ⟨ct, -, h⟩ := Except.bind_eq_ok h
    obtain ⟨b4, -, h⟩ := Except.bind_eq_ok h
    obtain rfl := Except.ok.inj h
    refine hlegs _ (by simp) ?_
    simp only [List.forall_mem_cons]
    exact ⟨⟨_, rfl⟩, ⟨_, rfl⟩, ⟨_, rfl⟩, ⟨_, rfl⟩, fun _ hkv => nomatch hkv⟩

/-- The entry made for a judgement. -/
theorem makeEntry_spec {ident : Identity} (hident : ident.Dumps env)
    (hkeyed : ∀ kv ∈ ident.items, Keyed env kv.2) (b : Bool) (path : String) {legs : PyVal}
    (hlegs : Keyed env legs ∧ isOk (toJson env true legs) = true) :
    ∃ e, makeEntry env ident (verdictText b) (.str path) legs = .ok (.dict e) ∧ Plain env e ∧
      PyDict.get e "baseline_sha256" = ident.baselineSha256 ∧
      PyDict.get e "candidate_sha256" = ident.candidateSha256 ∧
      PyDict.get e "link_body_hash" = .str ident.linkBodyHash ∧
      PyDict.get e "verdict" = verdictText b := by
  obtain ⟨hash, hhash⟩ := @entryHash_total env _ hident (verdictText b) (.str path) legs rfl rfl hlegs.2
  refine ⟨_, ?_, @plain_strDict env (ident.items ++ [("verdict", verdictText b),
    ("path", .str path), ("legs", legs), ("entry_hash", .str hash)]) ?_ ?_ ?_, rfl, rfl, rfl, rfl⟩
  · unfold makeEntry
    rw [hhash]
    rfl
  · show ["label", "baseline_sha256", "candidate_sha256", "link_body_hash", "proof_model_version",
      "verdict", "path", "legs", "entry_hash"].Nodup
    decide
  · simp only [List.forall_mem_append, List.forall_mem_cons]
    exact ⟨hkeyed, keyed_str _, keyed_str _, hlegs.1, keyed_str _, fun _ hkv => nomatch hkv⟩
  · simp only [List.forall_mem_append, List.forall_mem_cons]
    exact ⟨hident, rfl, rfl, hlegs.2, rfl, fun _ hkv => nomatch hkv⟩

/-! ## One link -/

/-- The verdict on a link with both archives: contamination fails it, the judgement decides it. -/
def linkVerdict (rt : Runtime Bytes Tree) (spec : PyDict) (base cand : Bytes) : Except Exc Bool :=
  if Uncontaminated rt base cand then (judge rt spec base cand).map Judgement.verdict else .ok false

/-- The loop goes on with this verdict on the link, or raises what the judgement raises. -/
def Advances (env : Env) (rt : Runtime Bytes Tree) (p : Progress) (x : Except Exc Progress) :
    Except Exc Bool → Prop
  | .error e => x = .error e
  | .ok b => ∃ p', x = .ok p' ∧ Honest env rt p'.cache ∧ p'.anyFail = (p.anyFail || !b) ∧
      p'.anyUnfinished = p.anyUnfinished

theorem fromCache_spec {it : Item} {e : PyDict} {p : Progress} {b : Bool}
    (h : PyDict.get e "verdict" = verdictText b) : ∃ p', fromCache fmt it e p = .ok p' ∧
      p'.cache = p.cache ∧ p'.anyFail = (p.anyFail || !b) ∧ p'.anyUnfinished = p.anyUnfinished := by
  unfold fromCache
  rw [item_of_get h rfl]
  cases b with
  | true => exact ⟨_, rfl, rfl, (Bool.or_false _).symm, rfl⟩
  | false => exact ⟨_, rfl, rfl, (Bool.or_true _).symm, rfl⟩

theorem linkBodyHash_total {spec : PyDict} (h : Loaded env (.dict spec)) :
    ∃ lbh, linkBodyHash env spec = .ok lbh := by
  rw [← isOk_iff, linkBodyHash, isOk_map, isOk_canon]
  exact h.isOk

/-- Under an injective hash, specifications with one body hash have one document. -/
theorem document_of_linkBodyHash (hinj : Function.Injective env.sha256) {spec spec' : PyDict}
    {lbh : String} (h : linkBodyHash env spec = .ok lbh) (h' : linkBodyHash env spec' = .ok lbh) :
    toJson env true (.dict spec) = toJson env true (.dict spec') := by
  obtain ⟨cs, hcs, hhash⟩ := Except.map_eq_ok h
  obtain ⟨cs', hcs', hhash'⟩ := Except.map_eq_ok h'
  have htext := text_injective (hinj (Digest.ext_hex (hhash.trans hhash'.symm)))
  obtain ⟨j, hj, rfl⟩ := Except.map_eq_ok hcs
  obtain ⟨j', hj', rfl⟩ := Except.map_eq_ok hcs'
  rw [hj, hj', Json.render_injective _ htext]

/-- The identity of a link whose effective hashes can be saved. -/
theorem dumps_identity {label lbh : String} {base cand : PyVal}
    (hbase : isOk (toJson env true base) = true) (hcand : isOk (toJson env true cand) = true) :
    Identity.Dumps env ⟨label, base, cand, lbh⟩ := by
  unfold Identity.Dumps Identity.items
  simp only [List.forall_mem_cons]
  exact ⟨rfl, hbase, hcand, rfl, rfl, fun _ hkv => nomatch hkv⟩

section

variable {inputs : Inputs Bytes} {label : String} {spec : PyDict} {p : Progress}

/-- A link that is recomputed. -/
theorem recomputed_spec {it : Item} {lbh : String} {base cand : Bytes}
    (hbase : Reads rt inputs.archives spec "baseline" (some base))
    (hcand : Reads rt inputs.archives spec "candidate" (some cand)) (hspec : Loaded env (.dict spec))
    (hlbh : linkBodyHash env spec = .ok lbh) (h : Honest env rt p.cache) :
    Advances env rt p (recomputed env rt fmt inputs (contentIndex rt inputs.archives) it
      ⟨label, .str (rt.sha256File base), .str (rt.sha256File cand), lbh⟩ spec base cand p)
      (linkVerdict rt spec base cand) := by
  unfold recomputed linkVerdict
  dsimp only
  by_cases hclean : Uncontaminated rt base cand
  · have hnil : ¬ archiveGenesisContamination rt cand ++ archiveGenesisContamination rt base ≠ [] :=
      not_not_intro hclean
    rw [if_pos hclean, if_neg hnil, evaluateLink_eq hbase hcand]
    cases hj : judge rt spec base cand with
    | error e => exact rfl
    | ok j =>
      have hident : Identity.Dumps env
          ⟨label, .str (rt.sha256File base), .str (rt.sha256File cand), lbh⟩ := dumps_identity rfl rfl
      have hkeyed : ∀ kv ∈ Identity.items
          ⟨label, .str (rt.sha256File base), .str (rt.sha256File cand), lbh⟩, Keyed env kv.2 := by
        unfold Identity.items
        simp only [List.forall_mem_cons]
        exact ⟨keyed_str _, keyed_str _, keyed_str _, keyed_str _, keyed_str _,
          fun _ hkv => nomatch hkv⟩
      obtain ⟨e, he, heplain, hbaseSha, hcandSha, hbody, hverdict⟩ :=
        makeEntry_spec hident hkeyed j.verdict j.path (judge_legs hj)
      obtain ⟨cache', hput, hhonest⟩ := cachePut_spec h hident heplain
        ⟨spec, base, cand, lbh, j, hspec, hlbh, hclean, hj, hbaseSha, hcandSha, hbody, hverdict⟩
      dsimp only [bind, Except.bind]
      rw [show PyVal.str (if j.verdict = true then "HOLD" else "FAIL") = verdictText j.verdict from rfl,
        he]
      dsimp only
      rw [hput]
      dsimp only [Except.map, Advances]
      cases hholds : j.verdict with
      | true => exact ⟨_, rfl, hhonest, (Bool.or_false _).symm, rfl⟩
      | false => exact ⟨_, rfl, hhonest, (Bool.or_true _).symm, rfl⟩
  · have hfound : archiveGenesisContamination rt cand ++ archiveGenesisContamination rt base ≠ [] :=
      hclean
    rw [if_neg hclean, if_pos hfound]
    exact ⟨_, rfl, h, (Bool.or_true _).symm, rfl⟩

/-- The identity a link is looked up under. -/
def identityOf (rt : Runtime Bytes Tree) (label : String) (spec : PyDict) (base cand : Option Bytes)
    (lbh : String) : Identity :=
  ⟨label, effectiveSha rt base (PyDict.get spec "baseline_sha256"),
    effectiveSha rt cand (PyDict.get spec "candidate_sha256"), lbh⟩

/-- A link whose archives are read is looked up in the cache. -/
theorem checkLink_eq {base cand : Option Bytes} {lbh : String}
    (hbase : Reads rt inputs.archives spec "baseline" base)
    (hcand : Reads rt inputs.archives spec "candidate" cand) (hlbh : linkBodyHash env spec = .ok lbh) :
    ∃ it reason, checkLink env rt fmt inputs (contentIndex rt inputs.archives) label spec p =
      (cacheGet env p.cache (identityOf rt label spec base cand lbh)).bind fun hit =>
        match hit with
        | some hit => fromCache fmt it hit p
        | none =>
          match base, cand, inputs.recompute with
          | some base, some cand, true =>
            recomputed env rt fmt inputs (contentIndex rt inputs.archives) it
              (identityOf rt label spec (some base) (some cand) lbh) spec base cand p
          | _, _, _ => .ok ((p.append { it with
              verdict := .str "UNFINISHED"
              source := "archives_absent" }).unfinished reason) := by
  obtain ⟨baseArch, hbaseArch, hbase⟩ := hbase
  obtain ⟨candArch, hcandArch, hcand⟩ := hcand
  replace hbaseArch : resolveArch inputs.archives (PyDict.get spec "baseline_sha256")
    (PyDict.get spec "baseline") (contentIndex rt inputs.archives) = .ok baseArch := hbaseArch
  replace hcandArch : resolveArch inputs.archives (PyDict.get spec "candidate_sha256")
    (PyDict.get spec "candidate") (contentIndex rt inputs.archives) = .ok candArch := hcandArch
  unfold checkLink
  rw [hbaseArch, hcandArch]
  dsimp only [bind, Except.bind]
  rw [hbase, hcand, hlbh]
  refine ⟨{
    label := label
    baseline := PyDict.get spec "baseline"
    candidate := PyDict.get spec "candidate"
    verdict := .none
    source := ""
    identity := some (identityOf rt label spec base cand lbh) }, label ++
      ": baseline/candidate archive absent — behavioural recompute deferred to full-audit", ?_⟩
  cases hrecompute : inputs.recompute <;> cases base <;> cases cand <;> rfl

theorem dumps_effectiveSha (hspec : Loaded env (.dict spec)) (bytes : Option Bytes) (k : String) :
    isOk (toJson env true (effectiveSha rt bytes (PyDict.get spec k))) = true := by
  cases bytes with
  | none => exact (hspec.get k).isOk
  | some b => rfl

theorem dumps_identityOf (hspec : Loaded env (.dict spec)) (base cand : Option Bytes) (lbh : String) :
    (identityOf rt label spec base cand lbh).Dumps env :=
  dumps_identity (dumps_effectiveSha hspec base _) (dumps_effectiveSha hspec cand _)

theorem str_pyEq {s : String} {v : PyVal} : pyEq env (.str s) v = true ↔ v = .str s := by
  cases v with
  | str t =>
    rw [pyEq, beq_iff_eq, PyVal.str.injEq]
    exact eq_comm
  | _ => simp [pyEq, PyVal.num?]

/-- A judgement under the identity of a link is one of the link itself, on archives with the
    effective hashes. -/
theorem Judged.of_identity (hinj : Function.Injective env.sha256) {e : PyDict} (h : Judged env rt e)
    (hspec : Loaded env (.dict spec)) {base cand : Option Bytes} {lbh : String}
    (hlbh : linkBodyHash env spec = .ok lbh)
    (hitems : ∀ kv ∈ (identityOf rt label spec base cand lbh).items,
      pyEq env (PyDict.get e kv.1) kv.2 = true) :
    ∃ b c j, effectiveSha rt base (PyDict.get spec "baseline_sha256") = .str (rt.sha256File b) ∧
      effectiveSha rt cand (PyDict.get spec "candidate_sha256") = .str (rt.sha256File c) ∧
      Uncontaminated rt b c ∧ judge rt spec b c = .ok j ∧
      PyDict.get e "verdict" = verdictText j.verdict := by
  obtain ⟨spec', b, c, lbh', j, hspec', hlbh', hclean, hjudge, hb, hc, hbody, hverdict⟩ := h
  unfold Identity.items at hitems
  simp only [List.forall_mem_cons] at hitems
  obtain ⟨-, hbase, hcand, hbodyEq, -, -⟩ := hitems
  rw [hb, str_pyEq] at hbase
  rw [hc, str_pyEq] at hcand
  rw [hbody, str_pyEq] at hbodyEq
  obtain rfl : lbh = lbh' := PyVal.str.inj hbodyEq
  refine ⟨b, c, j, hbase, hcand, hclean, ?_, hverdict⟩
  rw [judge_of_document hspec hspec' (document_of_linkBodyHash hinj hlbh hlbh')]
  exact hjudge

/-- With both archives there, a link gets its verdict whether it has an entry or not. -/
theorem checkLink_present (hinj : Function.Injective env.sha256)
    (hfile : Function.Injective rt.sha256File) (hspec : Loaded env (.dict spec)) {base cand : Bytes}
    (hbase : Reads rt inputs.archives spec "baseline" (some base))
    (hcand : Reads rt inputs.archives spec "candidate" (some cand)) (hrecompute : inputs.recompute = true)
    (h : Honest env rt p.cache) :
    Advances env rt p (checkLink env rt fmt inputs (contentIndex rt inputs.archives) label spec p)
      (linkVerdict rt spec base cand) := by
  obtain ⟨lbh, hlbh⟩ := linkBodyHash_total hspec
  obtain ⟨it, reason, heq⟩ := @checkLink_eq env _ _ rt fmt inputs label spec p _ _ lbh hbase hcand hlbh
  obtain ⟨hit, hget, hhit⟩ := cacheGet_spec h
    (@dumps_identityOf env _ _ rt label spec hspec (some base) (some cand) lbh)
  rw [heq, hget]
  cases hit with
  | none =>
    dsimp only [Except.bind]
    rw [hrecompute]
    exact recomputed_spec hbase hcand hspec hlbh h
  | some e =>
    obtain ⟨hjudged, hitems⟩ := hhit e rfl
    obtain ⟨b, c, j, hb, hc, hclean, hjudge, hverdict⟩ := hjudged.of_identity hinj hspec hlbh hitems
    -- the recorded archives are those that are there
    obtain rfl := hfile (PyVal.str.inj hb)
    obtain rfl := hfile (PyVal.str.inj hc)
    obtain ⟨p', hp', hcache, hfail, hunfinished⟩ := @fromCache_spec fmt it e p _ hverdict
    rw [linkVerdict, if_pos hclean, hjudge]
    exact ⟨p', hp', hcache ▸ h, hfail, hunfinished⟩

/-- The archive stands in a role of the link: it has the declared hash unless another one was found by
    its name, and it is the one that is there. -/
structure Archived (rt : Runtime Bytes Tree) (archives : Archives Bytes) (spec : PyDict)
    (role : String) (b : Bytes) : Prop where
  declared : FoundByName rt archives (PyDict.get spec (role ++ "_sha256")) (PyDict.get spec role) ∨
    PyDict.get spec (role ++ "_sha256") = .str (rt.sha256File b)
  there : ∀ b', Reads rt archives spec role (some b') → rt.sha256File b' = rt.sha256File b

/-- The link was judged HOLD on archives that stand in its roles. -/
def Held (rt : Runtime Bytes Tree) (archives : Archives Bytes) (spec : PyDict) : Prop :=
  ∃ base cand j, Archived rt archives spec "baseline" base ∧ Archived rt archives spec "candidate" cand ∧
    Uncontaminated rt base cand ∧ judge rt spec base cand = .ok j ∧ j.verdict = true

theorem reads_unique {archives : Archives Bytes} {role : String} {b b' : Option Bytes}
    (h : Reads rt archives spec role b) (h' : Reads rt archives spec role b') : b = b' := by
  obtain ⟨arch, harch, hb⟩ := h
  obtain ⟨arch', harch', hb'⟩ := h'
  obtain rfl := Except.ok.inj (harch.symm.trans harch')
  exact Except.ok.inj (hb.symm.trans hb')

theorem archived_of_effective {archives : Archives Bytes} {role : String} {bytes : Option Bytes}
    {b : Bytes} (h : Reads rt archives spec role bytes)
    (heff : effectiveSha rt bytes (PyDict.get spec (role ++ "_sha256")) = .str (rt.sha256File b)) :
    Archived rt archives spec role b := by
  constructor
  · obtain ⟨arch, harch, hread⟩ := h
    refine (found_or_declared harch hread).imp_right fun hdeclared => ?_
    cases bytes with
    | none => exact heff
    | some b' => exact (hdeclared b' rfl).trans heff
  · intro b' h'
    obtain rfl := reads_unique h h'
    exact PyVal.str.inj heff

/-- A link that was checked leaves the cache honest; without failure and delay it was judged HOLD. -/
theorem checkLink_ok (hinj : Function.Injective env.sha256) (hspec : Loaded env (.dict spec))
    (h : Honest env rt p.cache) {p' : Progress}
    (hok : checkLink env rt fmt inputs (contentIndex rt inputs.archives) label spec p = .ok p') :
    Honest env rt p'.cache ∧ (p'.anyFail = false → p'.anyUnfinished = false →
      p.anyFail = false ∧ p.anyUnfinished = false ∧ Held rt inputs.archives spec) := by
  have hreads : ∃ base cand, Reads rt inputs.archives spec "baseline" base ∧
      Reads rt inputs.archives spec "candidate" cand := by
    obtain ⟨baseArch, hbaseArch, hok⟩ := Except.bind_eq_ok hok
    obtain ⟨candArch, hcandArch, hok⟩ := Except.bind_eq_ok hok
    obtain ⟨base, hbase, hok⟩ := Except.bind_eq_ok hok
    obtain ⟨cand, hcand, -⟩ := Except.bind_eq_ok hok
    exact ⟨base, cand, ⟨baseArch, hbaseArch, hbase⟩, candArch, hcandArch, hcand⟩
  obtain ⟨base, cand, hbase, hcand⟩ := hreads
  obtain ⟨lbh, hlbh⟩ := linkBodyHash_total hspec
  obtain ⟨it, reason, heq⟩ := @checkLink_eq env _ _ rt fmt inputs label spec p _ _ lbh hbase hcand hlbh
  obtain ⟨hit, hget, hhit⟩ := cacheGet_spec h
    (@dumps_identityOf env _ _ rt label spec hspec base cand lbh)
  rw [heq, hget] at hok
  cases hit with
  | some e =>
    obtain ⟨hjudged, hitems⟩ := hhit e rfl
    obtain ⟨b, c, j, hb, hc, hclean, hjudge, hverdict⟩ := hjudged.of_identity hinj hspec hlbh hitems
    obtain ⟨_, hp', hcache, hfail, hunfinished⟩ := @fromCache_spec fmt it e p _ hverdict
    obtain rfl := Except.ok.inj (hp'.symm.trans hok)
    refine ⟨hcache ▸ h, fun hf hu => ?_⟩
    rw [hfail, Bool.or_eq_false_iff, Bool.not_eq_false'] at hf
    exact ⟨hf.1, hunfinished ▸ hu, b, c, j, archived_of_effective hbase hb,
      archived_of_effective hcand hc, hclean, hjudge, hf.2⟩
  | none =>
    dsimp only [Except.bind] at hok
    split at hok
    case h_1 b c hrecompute =>
      have hadvances := @recomputed_spec env _ _ rt fmt inputs label spec p it lbh b c hbase hcand
        hspec hlbh h
      cases hv : linkVerdict rt spec b c with
      | error e =>
        rw [hv] at hadvances
        exact nomatch hadvances.symm.trans hok
      | ok holds =>
        rw [hv] at hadvances
        obtain ⟨_, hp', hhonest, hfail, hunfinished⟩ := hadvances
        obtain rfl := Except.ok.inj (hp'.symm.trans hok)
        refine ⟨hhonest, fun hf hu => ?_⟩
        rw [hfail, Bool.or_eq_false_iff, Bool.not_eq_false'] at hf
        obtain ⟨hf, rfl⟩ := hf
        unfold linkVerdict at hv
        split at hv
        · rename_i hclean
          obtain ⟨j, hjudge, hholds⟩ := Except.map_eq_ok hv
          exact ⟨hf, hunfinished ▸ hu, b, c, j, archived_of_effective hbase rfl,
            archived_of_effective hcand rfl, hclean, hjudge, hholds⟩
        · exact nomatch hv
    case h_2 =>
      obtain rfl := Except.ok.inj hok
      exact ⟨h, fun _ hu => nomatch hu⟩

/-! ## The loop -/

variable {links : List (String × PyVal)}

theorem checkLinks_ok (hinj : Function.Injective env.sha256) (hlinks : ∀ kv ∈ links, Loaded env kv.2)
    {i : Nat} (h : Honest env rt p.cache) {p' : Progress}
    (hok : checkLinks env rt fmt inputs (contentIndex rt inputs.archives) i links p = .ok p') :
    Honest env rt p'.cache ∧ (p'.anyFail = false → p'.anyUnfinished = false →
      p.anyFail = false ∧ p.anyUnfinished = false ∧
        ∀ kv ∈ links, ∃ d, kv.2 = .dict d ∧ Held rt inputs.archives d) := by
  induction links generalizing i p with
  | nil =>
    obtain rfl := Except.ok.inj hok
    exact ⟨h, fun hf hu => ⟨hf, hu, fun _ hkv => nomatch hkv⟩⟩
  | cons kv rest ih =>
    obtain ⟨label, spec⟩ := kv
    rw [List.forall_mem_cons] at hlinks
    obtain ⟨d, hd, hstep⟩ := Except.bind_eq_ok hok
    obtain rfl := asDict_eq_ok.mp hd
    split at hstep
    · -- the budget is exhausted
      obtain rfl := Except.ok.inj hstep
      exact ⟨h, fun _ hu => nomatch hu⟩
    · obtain ⟨q, hq, hrun⟩ := Except.bind_eq_ok hstep
      obtain ⟨hhonest, hheld⟩ := checkLink_ok hinj hlinks.1 h hq
      obtain ⟨hhonest', hrest⟩ := ih hlinks.2 hhonest hrun
      refine ⟨hhonest', fun hf hu => ?_⟩
      obtain ⟨hqf, hqu, hall⟩ := hrest hf hu
      obtain ⟨hpf, hpu, hthis⟩ := hheld hqf hqu
      exact ⟨hpf, hpu, List.forall_mem_cons.mpr ⟨⟨d, rfl, hthis⟩, hall⟩⟩

/-- Two loops over the same links with honest caches come to one verdict, or raise the same. -/
theorem checkLinks_agree (hinj : Function.Injective env.sha256)
    (hfile : Function.Injective rt.sha256File) {late late' : Nat → Bool} (hlate : ∀ i, late i = false)
    (hlate' : ∀ i, late' i = false) (hrecompute : inputs.recompute = true)
    (hlinks : ∀ kv ∈ links, Loaded env kv.2)
    (hpresent : ∀ kv ∈ links, ∀ d, kv.2 = .dict d → ∃ base cand,
      Reads rt inputs.archives d "baseline" (some base) ∧
        Reads rt inputs.archives d "candidate" (some cand))
    {i : Nat} {q : Progress} (hp : Honest env rt p.cache) (hq : Honest env rt q.cache)
    (hfail : p.anyFail = q.anyFail) (hunfinished : p.anyUnfinished = q.anyUnfinished) :
    (checkLinks env rt fmt { inputs with late := late } (contentIndex rt inputs.archives) i links p).map
        Progress.verdict =
      (checkLinks env rt fmt { inputs with late := late' } (contentIndex rt inputs.archives) i links q).map
        Progress.verdict := by
  induction links generalizing i p q with
  | nil =>
    show Except.ok p.verdict = Except.ok q.verdict
    rw [Progress.verdict, Progress.verdict, hfail, hunfinished]
  | cons kv rest ih =>
    obtain ⟨label, spec⟩ := kv
    rw [List.forall_mem_cons] at hlinks hpresent
    unfold checkLinks
    cases hd : asDict spec with
    | error e => rfl
    | ok d =>
      obtain rfl := asDict_eq_ok.mp hd
      obtain ⟨base, cand, hbase, hcand⟩ := hpresent.1 d rfl
      dsimp only [bind, Except.bind]
      rw [if_neg (show ¬ late i = true from Bool.eq_false_iff.mp (hlate i)),
        if_neg (show ¬ late' i = true from Bool.eq_false_iff.mp (hlate' i))]
      have h₁ := @checkLink_present env _ _ rt fmt { inputs with late := late } label d p hinj hfile
        hlinks.1 base cand hbase hcand hrecompute hp
      have h₂ := @checkLink_present env _ _ rt fmt { inputs with late := late' } label d q hinj hfile
        hlinks.1 base cand hbase hcand hrecompute hq
      cases hv : linkVerdict rt d base cand with
      | error e =>
        rw [hv] at h₁ h₂
        replace h₁ : checkLink env rt fmt { inputs with late := late }
          (contentIndex rt inputs.archives) label d p = .error e := h₁
        replace h₂ : checkLink env rt fmt { inputs with late := late' }
          (contentIndex rt inputs.archives) label d q = .error e := h₂
        rw [h₁, h₂]
      | ok b =>
        rw [hv] at h₁ h₂
        obtain ⟨p', hp', hhonest, hfail', hunfinished'⟩ := h₁
        obtain ⟨q', hq', hhonest', hfail'', hunfinished''⟩ := h₂
        replace hp' : checkLink env rt fmt { inputs with late := late }
          (contentIndex rt inputs.archives) label d p = .ok p' := hp'
        replace hq' : checkLink env rt fmt { inputs with late := late' }
          (contentIndex rt inputs.archives) label d q = .ok q' := hq'
        rw [hp', hq']
        refine ih hlinks.2 hpresent.2 hhonest hhonest' ?_ ?_
        · rw [hfail', hfail'', hfail]
        · rw [hunfinished', hunfinished'', hunfinished]

/-! ## The verifier -/

/-- The links of the surfaces that are not attested. -/
def frontierIn (env : Env) (inputs : Inputs Bytes) : List (String × PyVal) :=
  match surfaceLinks env inputs.surfaces, inputs.attestation with
  | some (.dict links), some (some j) =>
    match ofJson env j with
    | .dict att =>
      match attestedLinks (getOr att "links" (.list [])) with
      | .ok alinks => frontierOf alinks links
      | .error _ => []
    | _ => []
  | _, _ => []

/-- The documents behind a run that gets to the links. -/
structure Documents (env : Env) (inputs : Inputs Bytes) (alinks : List PyDict) (links : PyDict) :
    Prop where
  attestation : ∃ j att, inputs.attestation = some (some j) ∧ ofJson env j = .dict att ∧
    attestedLinks (getOr att "links" (.list [])) = .ok alinks
  surfaces : surfaceLinks env inputs.surfaces = some (.dict links)

theorem Documents.frontierIn_eq {alinks : List PyDict} {links : PyDict}
    (h : Documents env inputs alinks links) : frontierIn env inputs = frontierOf alinks links := by
  obtain ⟨j, att, hj, hatt, halinks⟩ := h.attestation
  unfold frontierIn
  rw [h.surfaces, hj]
  dsimp only
  rw [hatt]
  dsimp only
  rw [halinks]

theorem loaded_surfaceLinks {surfaces : Option Json} {v : PyVal}
    (h : surfaceLinks env surfaces = some v) : Loaded env v := by
  cases surfaces with
  | none => exact nomatch h
  | some j =>
    obtain ⟨d, hd, hlookup⟩ := Option.bind_eq_some_iff.mp h
    have hdict : ofJson env j = .dict d := by
      cases hj : ofJson env j with
      | dict d' =>
        rw [hj] at hd
        rw [Option.some.inj hd]
      | _ =>
        rw [hj] at hd
        exact nomatch hd
    have hloaded : Loaded env (.dict d) := ⟨j, hdict.symm⟩
    have hget : PyDict.get d "links" = v := by rw [PyDict.get, hlookup]; rfl
    exact hget ▸ hloaded.get "links"

theorem mem_frontierOf {alinks : List PyDict} {links : PyDict} {label : String} {v : PyVal} :
    (label, v) ∈ frontierOf alinks links ↔
      (.str label, v) ∈ links ∧ labelled (labelsOf alinks) (.str label) = false := by
  unfold frontierOf
  rw [List.mem_filterMap]
  constructor
  · rintro ⟨⟨k, w⟩, hmem, heq⟩
    cases k with
    | str s =>
      dsimp only at heq
      split at heq
      · exact nomatch heq
      · rename_i hlabel
        obtain ⟨rfl, rfl⟩ := Prod.mk.inj (Option.some.inj heq)
        exact ⟨hmem, Bool.eq_false_iff.mpr hlabel⟩
    | _ => exact nomatch heq
  · rintro ⟨hmem, hlabel⟩
    refine ⟨_, hmem, ?_⟩
    exact if_neg (Bool.eq_false_iff.mp hlabel)

theorem loaded_frontierIn {kv : String × PyVal} (h : kv ∈ frontierIn env inputs) : Loaded env kv.2 := by
  unfold frontierIn at h
  split at h
  case h_1 links j hlinks hj =>
    split at h
    case h_1 att hatt =>
      split at h
      case h_1 alinks halinks =>
        obtain ⟨j', hj'⟩ := loaded_surfaceLinks hlinks
        exact (dict_of_loaded hj'.symm).2 _ (mem_frontierOf.mp h).1
      case h_2 => exact nomatch h
    case h_2 => exact nomatch h
  case h_2 => exact nomatch h

/-- A run that returns has failed before the links, has no links left, or goes through them. -/
theorem verifyFrontier_cases {cache after : Option CacheFile} {receipt : Receipt}
    (h : verifyFrontier env rt fmt inputs cache = .ok (receipt, after)) :
    (receipt.verdict = .fail ∧ after = cache) ∨
      ∃ alinks links, Documents env inputs alinks links ∧
        verifyAttestation env alinks (.dict links) = .ok true ∧
        ((frontierOf alinks links = [] ∧ after = cache) ∨
          ∃ attested, verifyLinks env rt fmt inputs attested (frontierOf alinks links) cache =
            .ok (receipt, after)) := by
  have hfail {r : Receipt} (hverdict : r.verdict = .fail)
      (heq : (Except.ok (r, cache) : Except Exc (Receipt × Option CacheFile)) = .ok (receipt, after)) :
      receipt.verdict = .fail ∧ after = cache := by
    obtain ⟨rfl, rfl⟩ := Prod.mk.inj (Except.ok.inj heq)
    exact ⟨hverdict, rfl⟩
  unfold verifyFrontier at h
  cases hsurfaces : surfaceLinks env inputs.surfaces with
  | none =>
    rw [hsurfaces] at h
    exact .inl (hfail rfl h)
  | some v =>
    rw [hsurfaces] at h
    dsimp only at h
    cases hattestation : inputs.attestation with
    | none =>
      rw [hattestation] at h
      exact .inl (hfail rfl h)
    | some doc =>
      cases doc with
      | none =>
        rw [hattestation] at h
        exact .inl (hfail rfl h)
      | some j =>
        rw [hattestation] at h
        obtain ⟨att, hatt, h⟩ := Except.bind_eq_ok h
        obtain ⟨alinks, halinks, h⟩ := Except.bind_eq_ok h
        split at h
        case isFalse => exact .inl (hfail rfl h)
        obtain ⟨ok, hverified, h⟩ := Except.bind_eq_ok h
        cases ok with
        | false => exact .inl (hfail rfl h)
        | true =>
          rw [if_pos rfl] at h
          obtain ⟨links, hlinks, hrest⟩ := Except.bind_eq_ok h
          obtain rfl := asDict_eq_ok.mp hlinks
          refine .inr ⟨alinks, links, ⟨⟨j, att, hattestation, asDict_eq_ok.mp hatt, halinks⟩, hsurfaces⟩,
            hverified, ?_⟩
          split at hrest
          · rename_i hnil
            exact .inl ⟨hnil, (Prod.mk.inj (Except.ok.inj hrest)).2.symm⟩
          · exact .inr ⟨_, hrest⟩

/-- The files earlier runs leave: none, or what a run over any inputs saves. -/
inductive Written (env : Env) (rt : Runtime Bytes Tree) : CacheFile → Prop
  | absent : Written env rt none
  | run {fmt : Format} {inputs : Inputs Bytes} {file after : CacheFile} {receipt : Receipt}
      (earlier : Written env rt file)
      (ran : verifyFrontier env rt fmt inputs (some file) = .ok (receipt, some after)) :
      Written env rt after

/-- The cache of earlier runs, or none. -/
def FromRuns (env : Env) (rt : Runtime Bytes Tree) (cache : Option CacheFile) : Prop :=
  ∀ file, cache = some file → Written env rt file

theorem Written.honest (hinj : Function.Injective env.sha256) {file : CacheFile}
    (h : Written env rt file) : Honest env rt (loadCache env file) := by
  induction h with
  | absent => exact honest_empty
  | @run fmt inputs file after receipt _ ran ih =>
    obtain ⟨-, hafter⟩ | ⟨alinks, links, hdocs, -, ⟨-, hafter⟩ | ⟨attested, hran⟩⟩ :=
      verifyFrontier_cases ran
    · exact Option.some.inj hafter ▸ ih
    · exact Option.some.inj hafter ▸ ih
    · obtain ⟨p, hp, hran⟩ := Except.bind_eq_ok hran
      obtain ⟨saved, hsaved, hran⟩ := Except.bind_eq_ok hran
      obtain ⟨-, rfl⟩ := Prod.mk.inj (Except.ok.inj hran)
      obtain ⟨j, hj, hfile⟩ := Except.map_eq_ok hsaved
      obtain rfl := Option.some.inj hfile
      rw [← hdocs.frontierIn_eq] at hp
      exact (checkLinks_ok hinj (fun kv hkv => loaded_frontierIn hkv) ih hp).1.saved hj

theorem FromRuns.honest (hinj : Function.Injective env.sha256) {cache : Option CacheFile}
    (h : FromRuns env rt cache) : Honest env rt (loadCache env (cache.getD none)) := by
  cases cache with
  | none => exact honest_empty
  | some file => exact (h file rfl).honest hinj

/-! ## A HOLD frontier -/

/-- One attested chain by content with every link HOLD, the other links on its head, each judged HOLD
    on archives that stand in its roles. -/
structure HeldChain (env : Env) (rt : Runtime Bytes Tree) (inputs : Inputs Bytes)
    (alinks : List PyDict) (links head : PyDict) : Prop where
  documents : Documents env inputs alinks links
  checkpoint : Checkpoint env alinks links head
  frontier : ∀ label spec, (.str label, spec) ∈ links →
    labelled (labelsOf alinks) (.str label) = false →
      ∃ d, spec = .dict d ∧ Held rt inputs.archives d

/-- The archives of the links that are not attested are in the directory. -/
def Present (env : Env) (rt : Runtime Bytes Tree) (inputs : Inputs Bytes) : Prop :=
  ∀ kv ∈ frontierIn env inputs, ∀ d, kv.2 = .dict d → ∃ base cand,
    Reads rt inputs.archives d "baseline" (some base) ∧
      Reads rt inputs.archives d "candidate" (some cand)

/-- The verdict of a run that returns. -/
def verdictOf (x : Except Exc (Receipt × Option CacheFile)) : Except Exc Verdict :=
  x.map fun r => r.1.verdict

theorem heldChain_of_hold (hinj : Function.Injective env.sha256) {cache after : Option CacheFile}
    (hcache : Honest env rt (loadCache env (cache.getD none))) {receipt : Receipt}
    (h : verifyFrontier env rt fmt inputs cache = .ok (receipt, after))
    (hhold : receipt.verdict = .hold) : ∃ alinks links head, HeldChain env rt inputs alinks links head := by
  obtain ⟨hfail, -⟩ | ⟨alinks, links, hdocs, hverified, hrun⟩ := verifyFrontier_cases h
  · rw [hfail] at hhold
    exact nomatch hhold
  obtain ⟨links', head, hlinks, hcheckpoint⟩ := attested_chain hverified
  obtain rfl := PyVal.dict.inj hlinks
  refine ⟨alinks, links, head, hdocs, hcheckpoint, fun label spec hmem hlabel => ?_⟩
  have hfrontier := mem_frontierOf.mpr ⟨hmem, hlabel⟩
  obtain ⟨hnil, -⟩ | ⟨attested, hran⟩ := hrun
  · rw [hnil] at hfrontier
    exact nomatch hfrontier
  · obtain ⟨p, hp, hran⟩ := Except.bind_eq_ok hran
    obtain ⟨saved, -, hran⟩ := Except.bind_eq_ok hran
    obtain ⟨rfl, -⟩ := Prod.mk.inj (Except.ok.inj hran)
    rw [← hdocs.frontierIn_eq] at hp hfrontier
    obtain ⟨-, hheld⟩ := checkLinks_ok hinj (fun kv hkv => loaded_frontierIn hkv) hcache hp
    replace hhold : p.verdict = .hold := hhold
    unfold Progress.verdict at hhold
    cases hf : p.anyFail with
    | true =>
      rw [hf] at hhold
      exact nomatch hhold
    | false =>
      cases hu : p.anyUnfinished with
      | true =>
        rw [hf, hu] at hhold
        exact nomatch hhold
      | false => exact (hheld hf hu).2.2 _ hfrontier

/-- With an honest cache the verdict over the links is that of the loop. -/
theorem verdictOf_verifyLinks (hinj : Function.Injective env.sha256) {attested : Attested}
    {cache : Option CacheFile} (hlinks : ∀ kv ∈ links, Loaded env kv.2)
    (hcache : Honest env rt (loadCache env (cache.getD none))) :
    verdictOf (verifyLinks env rt fmt inputs attested links cache) =
      (checkLinks env rt fmt inputs (contentIndex rt inputs.archives) 0 links
        { cache := loadCache env (cache.getD none) }).map Progress.verdict := by
  unfold verifyLinks
  dsimp only
  cases hp : checkLinks env rt fmt inputs (contentIndex rt inputs.archives) 0 links
    { cache := loadCache env (cache.getD none) } with
  | error e => rfl
  | ok p =>
    cases cache with
    | none => rfl
    | some file =>
      obtain ⟨j, hj⟩ := (checkLinks_ok hinj hlinks hcache hp).1.save
      have hsave : saveCache env p.cache (some file) = .ok (some (some j)) := by
        rw [saveCache, hj]
        rfl
      dsimp only [bind, Except.bind]
      rw [hsave]
      rfl

theorem verdict_of_any_cache (hinj : Function.Injective env.sha256)
    (hfile : Function.Injective rt.sha256File) {cache : Option CacheFile}
    (hcache : Honest env rt (loadCache env (cache.getD none))) {late late' : Nat → Bool}
    (hlate : ∀ i, late i = false) (hlate' : ∀ i, late' i = false)
    (hrecompute : inputs.recompute = true) (hpresent : Present env rt inputs) :
    verdictOf (verifyFrontier env rt fmt { inputs with late := late } cache) =
      verdictOf (verifyFrontier env rt fmt { inputs with late := late' } none) := by
  have hrun {attested : Attested} {alinks : List PyDict} {links : PyDict}
      (hdocs : Documents env inputs alinks links) :
      verdictOf (verifyLinks env rt fmt { inputs with late := late } attested
          (frontierOf alinks links) cache) =
        verdictOf (verifyLinks env rt fmt { inputs with late := late' } attested
          (frontierOf alinks links) none) := by
    rw [← hdocs.frontierIn_eq]
    have hloaded : ∀ kv ∈ frontierIn env inputs, Loaded env kv.2 := fun kv hkv => loaded_frontierIn hkv
    rw [verdictOf_verifyLinks hinj hloaded hcache, verdictOf_verifyLinks hinj hloaded honest_empty]
    exact checkLinks_agree hinj hfile hlate hlate' hrecompute hloaded hpresent hcache honest_empty rfl rfl
  unfold verifyFrontier
  cases hsurfaces : surfaceLinks env inputs.surfaces with
  | none => rfl
  | some v =>
    cases hattestation : inputs.attestation with
    | none => rfl
    | some doc =>
      cases doc with
      | none => rfl
      | some j =>
        dsimp only
        cases hatt : asDict (ofJson env j) with
        | error e => rfl
        | ok att =>
          dsimp only [bind, Except.bind]
          cases halinks : attestedLinks (getOr att "links" (.list [])) with
          | error e => rfl
          | ok alinks =>
            dsimp only
            split
            case isFalse => rfl
            cases hverified : verifyAttestation env alinks v with
            | error e => rfl
            | ok ok =>
              cases ok with
              | false => rfl
              | true =>
                dsimp only
                cases hlinks : asDict v with
                | error e => rfl
                | ok links =>
                  dsimp only
                  rw [if_pos rfl, if_pos rfl]
                  split
                  · rfl
                  · obtain rfl := asDict_eq_ok.mp hlinks
                    rw [← hattestation]
                    exact hrun ⟨⟨j, att, hattestation, asDict_eq_ok.mp hatt, halinks⟩, hsurfaces⟩

/-- A HOLD frontier is one attested chain with judged links on its head, and the cache of earlier runs
    does not change the verdict. -/
theorem hold_is_continuity (env : Env) (rt : Runtime Bytes Tree) (fmt : Format)
    (hinj : Function.Injective env.sha256) (hfile : Function.Injective rt.sha256File)
    (inputs : Inputs Bytes) (cache : Option CacheFile) (hcache : FromRuns env rt cache) :
    (∀ receipt after, verifyFrontier env rt fmt inputs cache = .ok (receipt, after) →
      receipt.verdict = .hold → ∃ alinks links head, HeldChain env rt inputs alinks links head) ∧
    (∀ late late', (∀ i, late i = false) → (∀ i, late' i = false) → inputs.recompute = true →
      Present env rt inputs →
        verdictOf (verifyFrontier env rt fmt { inputs with late := late } cache) =
          verdictOf (verifyFrontier env rt fmt { inputs with late := late' } none)) :=
  ⟨fun _ _ h hhold => heldChain_of_hold hinj (hcache.honest hinj) h hhold,
    fun _ _ hlate hlate' hrecompute hpresent =>
      verdict_of_any_cache hinj hfile (hcache.honest hinj) hlate hlate' hrecompute hpresent⟩

end

/-! ## Samples -/

/-- Archives are their own hashes, and every tree has the same files. -/
def plainRuntime : Runtime String Unit where
  sha256File := id
  getnames _ := .ok []
  safeExtract _ := .ok ()
  ugkFiles _ := []
  frameTriad _ := .ok ⟨"", "", ""⟩
  amendmentLink _ _ _ := false
  runBehavioralGates _ := []
  runConformance _ := []

/-- Strings print as they are. -/
def plainFormat : Format where
  str
    | .str s => s
    | _ => ""
  repr _ := ""

def plainLink (base cand : String) : Json := .obj [("baseline", .str (base ++ ".tar.gz")),
  ("baseline_sha256", .str base), ("candidate", .str (cand ++ ".tar.gz")), ("candidate_sha256", .str cand)]

/-- One attested link from A to B, and archives B, C and D; the file `E.tar.gz` holds F. -/
def plainInputs (links : List (String × Json)) : Inputs String where
  attestation := some (some (.obj [("composed", .str "HOLD"), ("links", .arr [.obj [("label", .str "a->b"),
    ("verdict", .str "HOLD"), ("baseline_sha256", .str "A"), ("candidate", .str "B.tar.gz"),
    ("candidate_sha256", .str "B")]])]))
  surfaces := some (.obj [("links", .obj links)])
  archives := {
    listing := ["B.tar.gz", "C.tar.gz", "D.tar.gz", "E.tar.gz"]
    node f := [("B.tar.gz", Node.file "B"), ("C.tar.gz", .file "C"), ("D.tar.gz", .file "D"),
      ("E.tar.gz", .file "F")].lookup f }
  recompute := true
  late _ := false

theorem receipt_of_verdictOf {x : Except Exc (Receipt × Option CacheFile)} {v : Verdict}
    (h : verdictOf x = .ok v) : ∃ receipt after, x = .ok (receipt, after) ∧ receipt.verdict = v := by
  obtain ⟨⟨receipt, after⟩, hx, hv⟩ := Except.map_eq_ok h
  exact ⟨receipt, after, hx, hv⟩

/-- A cache file whose entry says HOLD for a link from B to Z, sealed as `make_entry` seals one. -/
def forgedCache : CacheFile :=
  let forged : Except Exc Json := do
    let spec ← asDict (ofJson shortEnv (plainLink "B" "Z"))
    let lbh ← linkBodyHash shortEnv spec
    let ident : Identity := ⟨"b->z", .str "B", .str "Z", lbh⟩
    let entry ← makeEntry shortEnv ident (.str "HOLD") .none .none
    let cache ← cachePut shortEnv (loadCache shortEnv none) ident entry
    toJson shortEnv true (.dict cache)
  forged.toOption

/-- A HOLD that is no contiguous chain: two links on the attested head; an attested label with another
    link behind it in the surfaces; a candidate whose bytes are not those of the declared hash; a link
    that only a forged entry has judged.  Out of budget the verdict is another one. -/
theorem hold_of_fork :
    (verdictOf (verifyFrontier shortEnv plainRuntime plainFormat
        (plainInputs [("b->c", plainLink "B" "C"), ("b->d", plainLink "B" "D")]) none) = .ok .hold ∧
      ∀ c d, ofJson shortEnv (plainLink "B" "C") = .dict c → ofJson shortEnv (plainLink "B" "D") = .dict d →
        ¬ Linked shortEnv c d) ∧
    verdictOf (verifyFrontier shortEnv plainRuntime plainFormat
        (plainInputs [("a->b", plainLink "X" "Y")]) none) = .ok .hold ∧
    (verdictOf (verifyFrontier shortEnv plainRuntime plainFormat
        (plainInputs [("b->e", plainLink "B" "E")]) none) = .ok .hold ∧
      ∀ f bytes, (plainInputs []).archives.node f = some (.file bytes) →
        plainRuntime.sha256File bytes ≠ "E") ∧
    (verdictOf (verifyFrontier shortEnv plainRuntime plainFormat
        (plainInputs [("b->z", plainLink "B" "Z")]) (some forgedCache)) = .ok .hold ∧
      (plainInputs []).archives.node "Z.tar.gz" = none) ∧
    verdictOf (verifyFrontier shortEnv plainRuntime plainFormat
      { plainInputs [("b->c", plainLink "B" "C")] with late := fun _ => true } none) =
        .ok .unfinished := by
  refine ⟨⟨by decide +kernel, ?_⟩, by decide +kernel, ⟨by decide +kernel, fun f bytes hf => ?_⟩,
    ⟨by decide +kernel, rfl⟩, by decide +kernel⟩
  · intro c d hc hd
    obtain rfl := PyVal.dict.inj hc
    obtain rfl := PyVal.dict.inj hd
    rw [Linked]
    decide
  · obtain ⟨l₁, l₂, heq, -⟩ := List.lookup_eq_some_iff.mp hf
    have hmem : (f, Node.file bytes) ∈ [("B.tar.gz", Node.file "B"), ("C.tar.gz", .file "C"),
        ("D.tar.gz", .file "D"), ("E.tar.gz", .file "F")] := by
      rw [heq]
      exact List.mem_append_right _ List.mem_cons_self
    simp only [List.mem_cons, Prod.mk.injEq, Node.file.injEq, List.not_mem_nil, or_false] at hmem
    rcases hmem with ⟨-, rfl⟩ | ⟨-, rfl⟩ | ⟨-, rfl⟩ | ⟨-, rfl⟩ <;> decide

theorem hold_is_continuity_plain :
    (∃ alinks links head, HeldChain sampleEnv plainRuntime (plainInputs [("b->c", plainLink "B" "C")])
      alinks links head) ∧
    verdictOf (verifyFrontier sampleEnv plainRuntime plainFormat
        (plainInputs [("b->c", plainLink "B" "C")]) (some none)) =
      verdictOf (verifyFrontier sampleEnv plainRuntime plainFormat
        (plainInputs [("b->c", plainLink "B" "C")]) none) := by
  obtain ⟨hhold, hsame⟩ := hold_is_continuity sampleEnv plainRuntime plainFormat sampleHash_injective
    (fun _ _ h => h) (plainInputs [("b->c", plainLink "B" "C")]) (some none)
    (fun file h => Option.some.inj h ▸ .absent)
  have hverdict : verdictOf (verifyFrontier sampleEnv plainRuntime plainFormat
      (plainInputs [("b->c", plainLink "B" "C")]) (some none)) = .ok .hold := by
    decide +kernel
  obtain ⟨receipt, after, hrun, hv⟩ := receipt_of_verdictOf hverdict
  refine ⟨hhold receipt after hrun hv, hsame _ _ (fun _ => rfl) (fun _ => rfl) rfl fun kv hkv d hd => ?_⟩
  have hfrontier : frontierIn sampleEnv (plainInputs [("b->c", plainLink "B" "C")]) =
      [("b->c", ofJson sampleEnv (plainLink "B" "C"))] := rfl
  rw [hfrontier] at hkv
  obtain rfl := List.mem_singleton.mp hkv
  obtain rfl := PyVal.dict.inj hd
  exact ⟨"B", "C", ⟨some "B.tar.gz", rfl, rfl⟩, some "C.tar.gz", rfl, rfl⟩

end Continuity

end Ugk
