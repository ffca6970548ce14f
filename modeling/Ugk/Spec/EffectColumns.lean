import Ugk.Native.ExternalEffects
import Ugk.Spec.Written

/-!
# The effect columns of a stored receipt

A call asks for effect columns with its typed descriptor.  Where no marker is among its parameters,
the stored receipt has the columns it asked for and nothing else, and the column-first readers of the
trails see just these.

## Key results

- `key_of_markerText`: no other key is printed as a marker
- `Asked`, `asked_of_readsAs`: what the trail readers see of a stored receipt
-/

namespace Ugk

open Store

variable {env : Env} {cfg : Config} {clock : Clock} {a : WriteArgs} {row : Row} {read : Receipt}

/-! ## Parameters without markers -/

/-- No key of the parameters is an effect marker. -/
def NoMarkers (parameters : PyVal) : Prop :=
  ∀ d, parameters = .dict d → ∀ m : Marker, PyKey.str m.key ∉ d.map Prod.fst

theorem noMarkers_dict {d : PyDict} :
    NoMarkers (.dict d) ↔ ∀ m : Marker, PyKey.str m.key ∉ d.map Prod.fst := by
  constructor
  · intro h
    exact h d rfl
  · rintro h _ ⟨⟩
    exact h

theorem noMarkers_strDict {kvs : List (String × PyVal)} :
    NoMarkers (strDict kvs) ↔ ∀ m : Marker, m.key ∉ kvs.map Prod.fst := by
  unfold strDict
  rw [noMarkers_dict]
  refine forall_congr' fun m => not_congr ?_
  simp

/-- None of the names is an effect marker. -/
abbrev Unmarked (names : List String) : Prop := ∀ name ∈ Marker.all.map Marker.key, name ∉ names

theorem noMarkers_of_names {kvs : List (String × PyVal)} (h : Unmarked (kvs.map Prod.fst)) :
    NoMarkers (strDict kvs) :=
  noMarkers_strDict.mpr fun m => h m.key (List.mem_map_of_mem (Marker.mem_all m))

theorem noMarkers_set {d : PyDict} {k : String} {v : PyVal} (h : NoMarkers (.dict d))
    (hk : k ∉ Marker.all.map Marker.key) : NoMarkers (.dict (PyDict.set d (.str k) v)) := by
  rw [noMarkers_dict] at h ⊢
  intro m hm
  rcases PyDict.mem_keys_set hm with heq | hm
  · rw [← PyKey.str.inj heq] at hk
    exact hk (List.mem_map_of_mem (Marker.mem_all m))
  · exact h m hm

theorem noMarkers_filter {d : PyDict} (p : PyKey × PyVal → Bool) (h : NoMarkers (.dict d)) :
    NoMarkers (.dict (d.filter p)) := by
  rw [noMarkers_dict] at h ⊢
  intro m hm
  exact h m ((List.filter_sublist.map Prod.fst).subset hm)

/-- Stripping the markers leaves none. -/
theorem noMarkers_stripMarkers (d : PyDict) : NoMarkers (.dict (stripMarkers d)) := by
  rw [noMarkers_dict]
  intro m hm
  obtain ⟨kv, hkv, heq⟩ := List.mem_map.mp hm
  have hmarker : isMarkerKey kv.1 = true := by
    rw [heq, isMarkerKey, List.any_eq_true]
    exact ⟨m, Marker.mem_all m, beq_self_eq_true _⟩
  simp [stripMarkers, hmarker] at hkv

theorem noMarkers_stripReconciliation {v : PyVal} (h : NoMarkers v) :
    NoMarkers (stripReconciliation v) := by
  unfold stripReconciliation
  split
  · split
    · exact noMarkers_filter _ (noMarkers_filter _ h)
    · exact h
  · exact h

/-- A marker key has a character that no number has. -/
theorem not_number_of_marker (m : Marker) : m.key.toList.all isNumChar = false := by
  cases m <;> decide

/-- No other key is printed as a marker. -/
theorem key_of_markerText {key : PyKey} {m : Marker} (h : keyText true key = .ok m.key) :
    key = .str m.key := by
  have hnumber {cs : List Char} (hcs : cs.all isNumChar = true)
      (heq : String.ofList cs = m.key) : False := by
    have hnot := not_number_of_marker m
    rw [← heq, String.toList_ofList, hcs] at hnot
    exact nomatch hnot
  cases key with
  | none => cases m <;> exact absurd (Except.ok.inj h) (by decide)
  | bool b => cases b <;> cases m <;> exact absurd (Except.ok.inj h) (by decide)
  | int n => exact (hnumber (Json.all_isNumChar_intText n) (Except.ok.inj h)).elim
  | float x =>
    cases x with
    | fin x =>
      have hall : x.text.all isNumChar = true := by
        have hwf := x.wf
        unfold isFloatLit at hwf
        rw [Bool.and_eq_true] at hwf
        exact hwf.1
      exact (hnumber hall (Except.ok.inj h)).elim
    | nonFinite k => cases k <;> cases m <;> exact absurd (Except.ok.inj h) (by decide)
  | str s => rw [Except.ok.inj h]
  | other _ => exact nomatch h

/-- What is loaded as a dictionary was written from one. -/
theorem dict_of_loads {v : PyVal} {q : PyDict} {pj : String} (hpj : paramsJson env v = .ok pj)
    (hq : loads env pj = .ok (.dict q)) : ∃ d, v = .dict d := by
  obtain ⟨j, hj, hprint⟩ := paramsJson_ok hpj
  rw [loads_paramsJson hprint] at hq
  cases v with
  | dict d => exact ⟨d, rfl⟩
  | none => obtain rfl := Except.ok.inj hj; exact nomatch hq
  | bool b => obtain rfl := Except.ok.inj hj; exact nomatch hq
  | int n => obtain rfl := Except.ok.inj hj; exact nomatch hq
  | str s => obtain rfl := Except.ok.inj hj; exact nomatch hq
  | other _ => exact nomatch hj
  | float x => cases x <;> (obtain rfl := Except.ok.inj hj; exact nomatch hq)
  | list xs => obtain ⟨_, _, rfl⟩ := Except.map_eq_ok hj; exact nomatch hq
  | tuple xs => obtain ⟨_, _, rfl⟩ := Except.map_eq_ok hj; exact nomatch hq

/-- What parameters without markers are stored as has none. -/
theorem noMarkers_of_loads {d q : PyDict} {pj : String} (h : NoMarkers (.dict d))
    (hpj : paramsJson env (.dict d) = .ok pj) (hq : loads env pj = .ok (.dict q)) :
    NoMarkers (.dict q) := by
  rw [noMarkers_dict] at h ⊢
  intro m hm
  obtain ⟨key, hkey, htext⟩ := key_of_loads hpj hq hm
  rw [key_of_markerText htext] at hkey
  exact h m hkey

/-! ## What a call asks for -/

/-- The value of an effect column that a call asks for.  A descriptor without a class asks for
    nothing. -/
def asked (a : WriteArgs) (m : Marker) : PyVal :=
  match a.effectColumns with
  | some columns => if (columns .effectAtomicity).isSome then .ofOpt (columns m) else .none
  | none => .none

theorem isText_asked (a : WriteArgs) (m : Marker) : IsText (asked a m) := by
  unfold asked
  split
  · split
    · exact isText_ofOpt _
    · trivial
  · trivial

/-- The effect surface of a call without markers is what it asks for. -/
theorem asked_of_resolved {p : PyVal} {effect : Option EffectColumns} (hp : NoMarkers a.parameters)
    (h : resolveEffectSurface a.parameters a.effectColumns = .ok (effect, p)) :
    (∀ m, (effect.map fun cols => cols m).getD .none = asked a m) ∧ NoMarkers p := by
  unfold asked
  unfold resolveEffectSurface at h
  split at h
  · rename_i hnone
    -- without a class marker nothing is derived
    have hderive : deriveEffectColumns a.parameters = .ok none := by
      unfold deriveEffectColumns
      split
      · rename_i d hd
        have hget : PyDict.get d Marker.effectAtomicity.key = .none :=
          PyDict.get_of_not_mem (hp d hd .effectAtomicity)
        dsimp only
        rw [hget]
        rfl
      · rfl
    rw [hderive] at h
    obtain ⟨rfl, rfl⟩ := Prod.mk.inj (Except.ok.inj h)
    rw [hnone]
    exact ⟨fun _ => rfl, hp⟩
  · rename_i columns hcolumns
    rw [hcolumns]
    dsimp only
    split at h
    · rename_i hclass
      obtain ⟨rfl, rfl⟩ := Prod.mk.inj (Except.ok.inj h)
      rw [hclass]
      exact ⟨fun _ => rfl, hp⟩
    · rename_i ea hclass
      rw [hclass]
      dsimp only at h
      split_ifs at h
      obtain ⟨rfl, rfl⟩ := Prod.mk.inj (Except.ok.inj h)
      exact ⟨fun _ => rfl, noMarkers_stripMarkers _⟩

/-! ## What is stored -/

/-- The trail readers see the columns that the call asked for, its failed flag and the root of its
    row. -/
structure Asked (a : WriteArgs) (row : Row) (read : Receipt) : Prop where
  column : ∀ m, read.markerColumn m = asked a m
  param : ∀ m, effectParam read m = asked a m
  failed : read.failed = a.failed
  hR : read.hR = row.hR
  version : 4 ≤ read.version

theorem asked_of_readsAs (h : ReadsAs cfg a row read) (hp : NoMarkers a.parameters) :
    Asked a row read := by
  obtain ⟨id, tip, time, c, r, sf, hBody, trace, q, hr, _, hq, hread⟩ := h.stored
  obtain ⟨p, hsurface, hparams, hpj, _⟩ := resolveWrite_ok hr
  obtain ⟨hasked, hp'⟩ := asked_of_resolved hp hsurface
  have hcolumn (m : Marker) : read.markerColumn m = asked a m := by
    have hvalue : r.effectValue m = asked a m := by
      rw [← hasked m, Resolved.effectValue]
      cases r.effect <;> rfl
    rw [← @ofOpt_columnText cfg.toEnv _ (isText_asked a m), ← hvalue, hread]
    cases m <;> rfl
  have hstored : NoMarkers (.dict q) := by
    rw [hparams] at hpj
    obtain ⟨d, hd⟩ := dict_of_loads hpj hq
    have hstrip := noMarkers_stripReconciliation hp'
    rw [hd] at hpj hstrip
    exact noMarkers_of_loads hstrip hpj hq
  refine ⟨hcolumn, fun m => ?_, ?_, ?_, ?_⟩
  · unfold effectParam
    rw [hcolumn m]
    split
    · rename_i hnone
      have hget : PyDict.get q m.key = .none := PyDict.get_of_not_mem (noMarkers_dict.mp hstored m)
      rw [hread]
      show PyDict.get q m.key = asked a m
      rw [hget]
      cases ha : asked a m with
      | none => rfl
      | _ => rw [ha] at hnone; cases hnone
    · rfl
  · rw [hread]
    rfl
  · exact (hashes_of_rowToReceipt h.reads).1
  · rw [hread]
    show 4 ≤ (if a.bridge.isSome then 8 else 7)
    split <;> omega

/-! ## Typed writes that are accepted -/

/-- Parameters without markers do not diverge from any descriptor, and stripping leaves them alone. -/
theorem resolveEffectSurface_typed {d : PyDict} (hp : NoMarkers (.dict d))
    {columns : EffectDescriptor} {ea : String} (hclass : columns .effectAtomicity = some ea)
    (hea : ea ∈ effectAtomicityDomain)
    (hphase : ∀ ph, columns .phase = some ph → ph ∈ effectPhaseDomain) :
    resolveEffectSurface (.dict d) (some columns) = .ok (some fun m => .ofOpt (columns m), .dict d) := by
  rw [noMarkers_dict] at hp
  have hstrip : stripMarkers d = d := by
    refine List.filter_eq_self.mpr fun kv hkv => ?_
    rw [Bool.not_eq_true', isMarkerKey, List.any_eq_false]
    intro m _ heq
    exact hp m (beq_iff_eq.mp heq ▸ List.mem_map_of_mem hkv)
  have hdiverge : Marker.all.any (diverges d columns) = false := by
    rw [List.any_eq_false]
    intro m _ heq
    rw [diverges, Bool.and_eq_true, PyDict.has, List.any_eq_true] at heq
    obtain ⟨⟨kv, hkv, hkey⟩, -⟩ := heq
    exact hp m (beq_iff_eq.mp hkey ▸ List.mem_map_of_mem hkv)
  have hdomain : ((columns .phase).any fun ph => !effectPhaseDomain.contains ph) = false := by
    cases hph : columns .phase with
    | none => rfl
    | some ph =>
      rw [Option.any_some, List.contains_iff_mem.mpr (hphase ph hph)]
      rfl
  unfold resolveEffectSurface
  dsimp only
  rw [hclass]
  dsimp only
  rw [if_neg (fun h => h hea), hdomain]
  show (if Marker.all.any (diverges d columns) = true then _ else
    Except.ok (some fun m => PyVal.ofOpt (columns m), PyVal.dict (stripMarkers d))) = _
  rw [hdiverge, hstrip]
  rfl

/-- An ordinary write of named values with a typed descriptor. -/
theorem accepted_typed {built : List String} {kvs : List (String × PyVal)} (h : Ordinary a)
    (hp : a.parameters = strDict kvs) (hunmarked : Unmarked (kvs.map Prod.fst))
    (hreserved : ∀ name ∈ reservedNames, name ∉ kvs.map Prod.fst)
    (hwritable : Writable cfg.toEnv (strDict kvs)) {columns : EffectDescriptor} {ea : String}
    (hcolumns : a.effectColumns = some columns) (hclass : columns .effectAtomicity = some ea)
    (hea : ea ∈ effectAtomicityDomain)
    (hphase : ∀ ph, columns .phase = some ph → ph ∈ effectPhaseDomain)
    (hpath : isOk (canonicalPathFor cfg built a.authority >>= effectiveCapabilities) = true) :
    accepted cfg built a = true := by
  have hpromoted {name : String} (hname : name ∈ reservedNames) :
      storable cfg.toEnv (promoted a.parameters name) = true := by
    have hnone : promoted a.parameters name = .none := by
      rw [hp]
      exact get_strDict (hreserved name hname)
    rw [hnone]
    rfl
  rw [accepted_ordinary_iff h]
  refine ⟨hpath, some fun m => .ofOpt (columns m), strDict kvs, ?_, ⟨_, rfl⟩, ?_, ?_,
    hpromoted (by simp [reservedNames]), hpromoted (by simp [reservedNames])⟩
  · rw [hp, hcolumns]
    exact resolveEffectSurface_typed (noMarkers_of_names hunmarked) hclass hea hphase
  · rw [stripReconciliation_strDict hreserved]
    exact hwritable
  · rintro c hc m
    obtain rfl := Option.some.inj hc
    have htext : IsText (.ofOpt (columns m)) := isText_ofOpt _
    exact Bool.and_eq_true_iff.mpr ⟨canonical_of_isText htext, bindable_of_isText htext⟩

/-- A phase receipt whose base parameters are named values. -/
theorem Kernel.accepted_phaseArgs {built : List String} {k : Kernel} {pr : Protocol} {t : Trail}
    {p : Phase} {kvs : List (String × PyVal)} (hbase : .dict t.baseParams = strDict kvs)
    (hunmarked : Unmarked (kvs.map Prod.fst))
    (hreserved : ∀ name ∈ reservedNames, name ∉ kvs.map Prod.fst)
    (hwritable : Writable cfg.toEnv (strDict kvs)) (hphase : p.phase ∈ effectPhaseDomain)
    (hpath : isOk (canonicalPathFor cfg built t.authority >>= effectiveCapabilities) = true) :
    accepted cfg built (phaseArgs k pr t p) = true := by
  have hordinary : Ordinary (phaseArgs k pr t p) := ⟨rfl, rfl, rfl, rfl, rfl⟩
  have hclass : pr.atomicity.value ∈ effectAtomicityDomain := by cases pr <;> decide
  refine accepted_typed hordinary hbase hunmarked hreserved hwritable rfl rfl hclass ?_ hpath
  rintro ph hph
  obtain rfl := Option.some.inj hph
  exact hphase

end Ugk
