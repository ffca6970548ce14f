import Ugk.ForStd.JsonTree
import Ugk.Native.Execute
import Ugk.Spec.Written

/-!
# Parameters read back from their text

What `json.loads` gives back for the text `_params_json` made of a value: names are strings, nothing
foreign is left, and there is a number with a fraction in it exactly when the value had one, unless
two keys of one dictionary have the same text.

## Key results

- `isOk_rejectFloats`: the float check is `floatFree`
- `plain_ofJson`: what was loaded is plain as soon as it is free of floats
- `writable_of_plain`: a plain value has both documents
- `floatFree_reloaded`, `floatFree_reloaded_iff`: floats survive the round trip
-/

namespace Ugk

variable {env : Env}

/-! ## Recursion over values -/

/-- Induction over a value, with the hypothesis for everything inside it. -/
@[elab_as_elim]
theorem PyVal.nested {motive : PyVal → Prop} (none : motive .none) (bool : ∀ b, motive (.bool b))
    (int : ∀ n, motive (.int n)) (float : ∀ x, motive (.float x)) (str : ∀ s, motive (.str s))
    (list : ∀ xs, (∀ x ∈ xs, motive x) → motive (.list xs))
    (tuple : ∀ xs, (∀ x ∈ xs, motive x) → motive (.tuple xs))
    (dict : ∀ kvs : PyDict, (∀ kv ∈ kvs, motive kv.2) → motive (.dict kvs))
    (other : ∀ name, motive (.other name)) (v : PyVal) : motive v := by
  induction hsize : sizeOf v using Nat.strongRecOn generalizing v with
  | _ n ih =>
    subst hsize
    have hlist (xs : List PyVal) (hle : sizeOf xs < sizeOf v) (x : PyVal) (hx : x ∈ xs) :
        motive x := by
      have hlt := List.sizeOf_lt_of_mem hx
      exact ih _ (by omega) x rfl
    cases v with
    | none => exact none
    | bool b => exact bool b
    | int n => exact int n
    | float x => exact float x
    | str s => exact str s
    | list xs => exact list xs (hlist xs (by simp))
    | tuple xs => exact tuple xs (hlist xs (by simp))
    | dict kvs =>
      refine dict kvs fun kv hkv => ?_
      obtain ⟨k, w⟩ := kv
      have hlt := List.sizeOf_lt_of_mem hkv
      refine ih _ ?_ w rfl
      simp at hlt ⊢
      omega
    | other name => exact other name

mutual

/-- The test holds of a value and of everything inside it. -/
def PyVal.every (p : PyVal → Bool) : PyVal → Bool
  | .list xs => p (.list xs) && everyList p xs
  | .tuple xs => p (.tuple xs) && everyList p xs
  | .dict kvs => p (.dict kvs) && everyItems p kvs
  | v => p v
termination_by structural v => v

def PyVal.everyList (p : PyVal → Bool) : List PyVal → Bool
  | [] => true
  | x :: xs => every p x && everyList p xs
termination_by structural xs => xs

def PyVal.everyItems (p : PyVal → Bool) : List (PyKey × PyVal) → Bool
  | [] => true
  | m :: ms => everyItem p m && everyItems p ms
termination_by structural ms => ms

def PyVal.everyItem (p : PyVal → Bool) : PyKey × PyVal → Bool
  | (_, v) => every p v
termination_by structural m => m

end

namespace PyVal

variable (p : PyVal → Bool)

theorem everyList_eq (xs : List PyVal) : everyList p xs = xs.all (every p) := by
  induction xs with
  | nil => rfl
  | cons x xs ih => rw [everyList, ih, List.all_cons]

theorem everyItems_eq (kvs : List (PyKey × PyVal)) :
    everyItems p kvs = kvs.all fun kv => every p kv.2 := by
  induction kvs with
  | nil => rfl
  | cons kv kvs ih => rw [everyItems, ih, everyItem, List.all_cons]

theorem every_list (xs : List PyVal) :
    every p (.list xs) = (p (.list xs) && xs.all (every p)) := by rw [every, everyList_eq]

theorem every_tuple (xs : List PyVal) :
    every p (.tuple xs) = (p (.tuple xs) && xs.all (every p)) := by rw [every, everyList_eq]

theorem every_dict (kvs : PyDict) :
    every p (.dict kvs) = (p (.dict kvs) && kvs.all fun kv => every p kv.2) := by
  rw [every, everyItems_eq]

end PyVal

/-! ## Floats -/

/-- `isinstance(v, float)` -/
def isFloat : PyVal → Bool
  | .float _ => true
  | _ => false

/-- There is no float in the value; a dictionary key does not count. -/
def floatFree (v : PyVal) : Bool := v.every fun v => !isFloat v

theorem floatFree_list (xs : List PyVal) : floatFree (.list xs) = xs.all floatFree :=
  PyVal.every_list _ xs

theorem floatFree_tuple (xs : List PyVal) : floatFree (.tuple xs) = xs.all floatFree :=
  PyVal.every_tuple _ xs

theorem floatFree_dict (kvs : PyDict) :
    floatFree (.dict kvs) = kvs.all fun kv => floatFree kv.2 := PyVal.every_dict _ kvs

/-- The float check of the protocol boundary. -/
theorem isOk_rejectFloats (op path : String) (v : PyVal) :
    isOk (Kernel.rejectFloats op path v) = floatFree v := by
  have hlist (xs : List PyVal)
      (ih : ∀ x ∈ xs, ∀ path, isOk (Kernel.rejectFloats op path x) = floatFree x) (path : String)
      (i : Nat) : isOk (Kernel.rejectFloatsList op path i xs) = xs.all floatFree := by
    induction xs generalizing i with
    | nil => rfl
    | cons x xs ihxs =>
      rw [List.forall_mem_cons] at ih
      rw [Kernel.rejectFloatsList, List.all_cons, ← ih.1]
      cases Kernel.rejectFloats op _ x with
      | error e => rfl
      | ok u => exact ihxs ih.2 (i + 1)
  induction v using PyVal.nested generalizing path with
  | list xs ih => rw [Kernel.rejectFloats, hlist xs ih path 0, floatFree_list]
  | tuple xs ih => rw [Kernel.rejectFloats, hlist xs ih path 0, floatFree_tuple]
  | dict kvs ih =>
    rw [Kernel.rejectFloats, floatFree_dict]
    induction kvs with
    | nil => rfl
    | cons kv kvs ihkvs =>
      obtain ⟨k, w⟩ := kv
      rw [List.forall_mem_cons] at ih
      rw [Kernel.rejectFloatsItems, Kernel.rejectFloatsItem, List.all_cons, ← ih.1]
      cases Kernel.rejectFloats op _ w with
      | error e => rfl
      | ok u => exact ihkvs ih.2
  | _ => rfl

/-! ## Dictionaries built item by item -/

theorem PyDict.mem_of_mem_set {d : PyDict} {k : PyKey} {v : PyVal} {kv : PyKey × PyVal}
    (h : kv ∈ PyDict.set d k v) : kv = (k, v) ∨ kv ∈ d := by
  rw [PyDict.set] at h
  split at h
  · obtain ⟨kv', hkv', rfl⟩ := List.mem_map.mp h
    split
    · exact .inl rfl
    · exact .inr hkv'
  · rw [List.mem_append, List.mem_singleton] at h
    exact h.symm

/-- Every item of the dictionary was inserted. -/
theorem PyDict.mem_of_mem_ofPairs {kvs : List (PyKey × PyVal)} {kv : PyKey × PyVal}
    (h : kv ∈ PyDict.ofPairs kvs) : kv ∈ kvs := by
  have hfold (acc : PyDict) (h : kv ∈ kvs.foldl (fun d kv => PyDict.set d kv.1 kv.2) acc) :
      kv ∈ acc ∨ kv ∈ kvs := by
    clear * - h
    induction kvs generalizing acc with
    | nil => exact .inl h
    | cons m rest ih =>
      rcases ih _ h with hacc | hrest
      · rcases PyDict.mem_of_mem_set hacc with rfl | hacc
        · exact .inr List.mem_cons_self
        · exact .inl hacc
      · exact .inr (List.mem_cons_of_mem _ hrest)
  rcases hfold [] h with hnil | hmem
  · exact absurd hnil List.not_mem_nil
  · exact hmem

/-! ## Loaded values -/

theorem ofJsonList_eq (js : List Json) : ofJsonList env js = js.map (ofJson env) := by
  induction js with
  | nil => rfl
  | cons j js ih => rw [ofJsonList, ih, List.map_cons]

theorem ofJsonMembers_eq (ms : List (String × Json)) :
    ofJsonMembers env ms = ms.map fun m => (.str m.1, ofJson env m.2) := by
  induction ms with
  | nil => rfl
  | cons m ms ih =>
    obtain ⟨k, v⟩ := m
    rw [ofJsonMembers, ofJsonMember, ih, List.map_cons]

/-- A value as `json.loads` builds it, less the floats. -/
def isPlain : PyVal → Bool
  | .float _ => false
  | .other _ => false
  | .dict kvs => kvs.all fun kv => (kv.1 matches .str _)
  | _ => true

/-- No floats, no foreign objects, and strings for keys. -/
def plain (v : PyVal) : Bool := v.every isPlain

theorem plain_list (xs : List PyVal) : plain (.list xs) = xs.all plain := PyVal.every_list _ xs

theorem plain_tuple (xs : List PyVal) : plain (.tuple xs) = xs.all plain := PyVal.every_tuple _ xs

theorem plain_dict_iff (kvs : PyDict) : plain (.dict kvs) = true ↔
    (∀ kv ∈ kvs, ∃ s, kv.1 = .str s) ∧ ∀ kv ∈ kvs, plain kv.2 = true := by
  have hkey (k : PyKey) : (k matches .str _) = true ↔ ∃ s, k = .str s := by
    cases k <;> simp
  rw [plain, PyVal.every_dict, Bool.and_eq_true, List.all_eq_true, isPlain, List.all_eq_true]
  simp only [hkey]
  rfl

theorem all_congr_mem {α : Type} {p q : α → Bool} {xs : List α} (h : ∀ x ∈ xs, p x = q x) :
    xs.all p = xs.all q := by
  induction xs with
  | nil => rfl
  | cons x xs ih =>
    rw [List.forall_mem_cons] at h
    rw [List.all_cons, List.all_cons, h.1, ih h.2]

/-- What was loaded is plain as soon as it is free of floats. -/
theorem plain_ofJson (j : Json) : plain (ofJson env j) = floatFree (ofJson env j) := by
  induction j using Json.nested with
  | arr xs ih =>
    rw [ofJson, ofJsonList_eq, plain_list, floatFree_list, List.all_map, List.all_map]
    exact all_congr_mem fun x hx => ih x hx
  | obj ms ih =>
    have hitem : ∀ kv ∈ PyDict.ofPairs (ofJsonMembers env ms),
        ∃ m ∈ ms, kv = (.str m.1, ofJson env m.2) := by
      intro kv hkv
      have hmem := PyDict.mem_of_mem_ofPairs hkv
      rw [ofJsonMembers_eq] at hmem
      obtain ⟨m, hm, rfl⟩ := List.mem_map.mp hmem
      exact ⟨m, hm, rfl⟩
    rw [ofJson, Bool.eq_iff_iff, plain_dict_iff, floatFree_dict, List.all_eq_true]
    constructor
    · rintro ⟨_, h⟩ kv hkv
      obtain ⟨m, hm, rfl⟩ := hitem kv hkv
      rw [← ih m hm]
      exact h _ hkv
    · intro h
      refine ⟨fun kv hkv => ?_, fun kv hkv => ?_⟩
      · obtain ⟨m, _, rfl⟩ := hitem kv hkv
        exact ⟨m.1, rfl⟩
      · obtain ⟨m, hm, rfl⟩ := hitem kv hkv
        rw [ih m hm]
        exact h _ hkv
  | _ => rfl

/-! ## Plain values have documents -/

theorem isOk_toJsonList (allowNan : Bool) (xs : List PyVal) :
    isOk (toJsonList env allowNan xs) = xs.all fun x => isOk (toJson env allowNan x) := by
  induction xs with
  | nil => rfl
  | cons x xs ih =>
    rw [toJsonList, List.all_cons, ← ih]
    cases toJson env allowNan x with
    | error e => rfl
    | ok j => simp

theorem isOk_toJsonItems (allowNan : Bool) (kvs : PyDict) :
    isOk (toJsonItems env allowNan kvs) =
      kvs.all fun kv => isOk (keyText allowNan kv.1) && isOk (toJson env allowNan kv.2) := by
  induction kvs with
  | nil => rfl
  | cons kv kvs ih =>
    obtain ⟨k, v⟩ := kv
    rw [toJsonItems, toJsonItem, List.all_cons, ← ih]
    cases keyText allowNan k with
    | error e => rfl
    | ok name =>
      cases toJson env allowNan v with
      | error e => rfl
      | ok j =>
        show isOk ((toJsonItems env allowNan kvs).map _) = (true && true && _)
        rw [isOk_map, Bool.and_self, Bool.true_and]

theorem isOk_toJson_of_plain (allowNan : Bool) {v : PyVal} (h : plain v = true) :
    isOk (toJson env allowNan v) = true := by
  induction v using PyVal.nested with
  | list xs ih =>
    rw [plain_list, List.all_eq_true] at h
    rw [toJson, isOk_map, isOk_toJsonList, List.all_eq_true]
    exact fun x hx => ih x hx (h x hx)
  | tuple xs ih =>
    rw [plain_tuple, List.all_eq_true] at h
    rw [toJson, isOk_map, isOk_toJsonList, List.all_eq_true]
    exact fun x hx => ih x hx (h x hx)
  | dict kvs ih =>
    obtain ⟨hkeys, hvalues⟩ := (plain_dict_iff kvs).mp h
    have hsortable : sortableKeys (kvs.map Prod.fst) = true := by
      have hall : ∀ k ∈ kvs.map Prod.fst, ∃ s, k = .str s := by
        intro k hk
        obtain ⟨kv, hkv, rfl⟩ := List.mem_map.mp hk
        exact hkeys kv hkv
      rw [sortableKeys, Bool.or_eq_true, Bool.or_eq_true]
      refine .inl (.inr (List.all_eq_true.mpr fun k hk => ?_))
      obtain ⟨s, rfl⟩ := hall k hk
      rfl
    rw [toJson, if_pos hsortable, isOk_map, isOk_toJsonItems, List.all_eq_true]
    intro kv hkv
    obtain ⟨s, hs⟩ := hkeys kv hkv
    rw [hs, ih kv hkv (hvalues kv hkv)]
    rfl
  | float x => cases h
  | other name => cases h
  | _ => rfl

/-! ## Keys of loaded values -/

theorem PyDict.keys_set (d : PyDict) (k : PyKey) (v : PyVal) (h : (d.map Prod.fst).Nodup) :
    ((PyDict.set d k v).map Prod.fst).Nodup := by
  unfold PyDict.set
  split
  · have hsame : (d.map fun kv => if (kv.1 == k) = true then (k, v) else kv).map Prod.fst =
        d.map Prod.fst := by
      rw [List.map_map]
      refine List.map_congr_left fun kv _ => ?_
      show (if (kv.1 == k) = true then (k, v) else kv).1 = kv.1
      split
      · rename_i heq
        exact (eq_of_beq heq).symm
      · rfl
    rw [hsame]
    exact h
  · rename_i hnot
    rw [List.map_append, List.nodup_append]
    refine ⟨h, List.nodup_singleton _, ?_⟩
    rintro _ ha _ hb rfl
    obtain rfl : _ = k := by simpa using hb
    obtain ⟨kv, hkv, hk⟩ := List.mem_map.mp ha
    exact hnot (List.any_eq_true.mpr ⟨kv, hkv, beq_iff_eq.mpr hk⟩)

/-- A dictionary built item by item has each key once. -/
theorem PyDict.keys_ofPairs (kvs : List (PyKey × PyVal)) : ((PyDict.ofPairs kvs).map Prod.fst).Nodup := by
  have hfold (acc : PyDict) (h : (acc.map Prod.fst).Nodup) :
      ((kvs.foldl (fun d kv => PyDict.set d kv.1 kv.2) acc).map Prod.fst).Nodup := by
    induction kvs generalizing acc with
    | nil => exact h
    | cons kv rest ih => exact ih _ (PyDict.keys_set acc kv.1 kv.2 h)
  exact hfold [] List.nodup_nil

/-- With each key once, looking a key up is finding its item. -/
theorem PyDict.lookup_iff {d : PyDict} (h : (d.map Prod.fst).Nodup) {k : PyKey} {v : PyVal} :
    d.lookup k = some v ↔ (k, v) ∈ d := by
  constructor
  · intro hv
    clear h
    induction d with
    | nil => exact nomatch hv
    | cons kv rest ih =>
      obtain ⟨k', v'⟩ := kv
      rw [List.lookup_cons] at hv
      split at hv
      · rename_i heq
        rw [eq_of_beq heq, ← Option.some.inj hv]
        exact List.mem_cons_self
      · exact List.mem_cons_of_mem _ (ih hv)
  · exact lookup_of_mem h

/-- What was loaded is a dictionary of strings when it is a dictionary. -/
theorem str_of_mem_loaded {ms : List (String × Json)} {kv : PyKey × PyVal}
    (h : kv ∈ PyDict.ofPairs (ofJsonMembers env ms)) :
    ∃ m ∈ ms, kv = (.str m.1, ofJson env m.2) := by
  have hmem := PyDict.mem_of_mem_ofPairs h
  rw [ofJsonMembers_eq] at hmem
  obtain ⟨m, hm, rfl⟩ := List.mem_map.mp hmem
  exact ⟨m, hm, rfl⟩

theorem dict_of_loaded {j : Json} {d : PyDict} (h : ofJson env j = .dict d) :
    (d.map Prod.fst).Nodup ∧ ∀ kv ∈ d, ∃ j', kv.2 = ofJson env j' := by
  cases j with
  | obj ms =>
    rw [ofJson] at h
    obtain rfl := PyVal.dict.inj h
    refine ⟨PyDict.keys_ofPairs _, fun kv hkv => ?_⟩
    obtain ⟨m, -, rfl⟩ := str_of_mem_loaded hkv
    exact ⟨m.2, rfl⟩
  | _ => cases h

theorem PyDict.mem_of_get {d : PyDict} {k : String} {v : PyVal} (hnodup : (d.map Prod.fst).Nodup)
    (h : PyDict.get d k = v) (hv : v.isNone = false) : (.str k, v) ∈ d := by
  rw [← PyDict.lookup_iff hnodup]
  unfold PyDict.get at h
  cases hlookup : d.lookup (.str k) with
  | none =>
    rw [hlookup] at h
    rw [← h] at hv
    exact nomatch hv
  | some w =>
    rw [hlookup] at h
    exact congrArg some h

/-- A loaded value dumps. -/
theorem isOk_toJson_ofJson (j : Json) : isOk (toJson env true (ofJson env j)) = true := by
  induction j using Json.nested with
  | arr xs ih =>
    rw [ofJson, ofJsonList_eq, toJson, isOk_map, isOk_toJsonList, List.all_map, List.all_eq_true]
    exact fun x hx => ih x hx
  | obj ms ih =>
    have hsortable : sortableKeys ((PyDict.ofPairs (ofJsonMembers env ms)).map Prod.fst) = true := by
      rw [sortableKeys, Bool.or_eq_true, Bool.or_eq_true]
      refine .inl (.inr (List.all_eq_true.mpr fun k hk => ?_))
      obtain ⟨kv, hkv, rfl⟩ := List.mem_map.mp hk
      obtain ⟨m, -, rfl⟩ := str_of_mem_loaded hkv
      rfl
    rw [ofJson, toJson, if_pos hsortable, isOk_map, isOk_toJsonItems, List.all_eq_true]
    intro kv hkv
    obtain ⟨m, hm, rfl⟩ := str_of_mem_loaded hkv
    rw [ih m hm]
    rfl
  | float x =>
    rw [ofJson, toJson]
    cases env.floatOfText x <;> rfl
  | _ => rfl

theorem normalizeList_eq (xs : List PyVal) : normalizeList env xs = xs.map (normalize env) := by
  induction xs with
  | nil => rfl
  | cons x xs ih => rw [normalizeList, ih, List.map_cons]

theorem plain_normalize {v : PyVal} (h : plain v = true) : plain (normalize env v) = true := by
  induction v using PyVal.nested with
  | list xs ih =>
    rw [plain_list, List.all_eq_true] at h
    rw [normalize, normalizeList_eq, plain_list, List.all_map, List.all_eq_true]
    exact fun x hx => ih x hx (h x hx)
  | tuple xs ih =>
    rw [plain_tuple, List.all_eq_true] at h
    rw [normalize, normalizeList_eq, plain_list, List.all_map, List.all_eq_true]
    exact fun x hx => ih x hx (h x hx)
  | dict kvs ih =>
    obtain ⟨hkeys, hvalues⟩ := (plain_dict_iff kvs).mp h
    have hitem : ∀ kv ∈ PyDict.ofPairs (normalizeItems env kvs),
        ∃ m ∈ kvs, kv = (nfcKey env m.1, normalize env m.2) := by
      intro kv hkv
      have hmem := PyDict.mem_of_mem_ofPairs hkv
      rw [normalizeItems_eq] at hmem
      obtain ⟨m, hm, rfl⟩ := List.mem_map.mp hmem
      exact ⟨m, hm, rfl⟩
    rw [normalize, plain_dict_iff]
    refine ⟨fun kv hkv => ?_, fun kv hkv => ?_⟩
    · obtain ⟨m, hm, rfl⟩ := hitem kv hkv
      obtain ⟨s, hs⟩ := hkeys m hm
      exact ⟨nfc env s, by rw [hs]; rfl⟩
    · obtain ⟨m, hm, rfl⟩ := hitem kv hkv
      exact ih m hm (hvalues m hm)
  | float x => cases h
  | other name => cases h
  | _ => rfl

/-- A plain value has both documents of a write. -/
theorem writable_of_plain {v : PyVal} (h : plain v = true) : Writable env v :=
  ⟨isOk_toJson_of_plain false (plain_normalize h), isOk_toJson_of_plain true h⟩

/-! ## Floats in the text -/

theorem forall₂_of_toJsonList {allowNan : Bool} {xs : List PyVal} {js : List Json}
    (h : toJsonList env allowNan xs = .ok js) :
    List.Forall₂ (fun x j => toJson env allowNan x = .ok j) xs js := by
  induction js generalizing xs with
  | nil => rw [toJsonList_ok_nil h]; exact .nil
  | cons j js ih =>
    obtain ⟨x, rest, rfl, hx, hrest⟩ := toJsonList_ok_cons h
    exact .cons hx (ih hrest)

theorem all_of_forall₂ {α β : Type} {R : α → β → Prop} {p : α → Bool} {q : β → Bool} {xs : List α}
    {ys : List β} (h : List.Forall₂ R xs ys) (hpq : ∀ x ∈ xs, ∀ y, R x y → p x = q y) :
    xs.all p = ys.all q := by
  induction h with
  | nil => rfl
  | cons hab _ ih =>
    rw [List.forall_mem_cons] at hpq
    rw [List.all_cons, List.all_cons, hpq.1 _ hab, ih hpq.2]

/-- A document has a fraction in it exactly when the value has a float. -/
theorem floatFree_of_toJson {allowNan : Bool} {v : PyVal} {j : Json}
    (h : toJson env allowNan v = .ok j) : j.floatFree = floatFree v := by
  induction v using PyVal.nested generalizing j with
  | list xs ih =>
    rw [toJson] at h
    obtain ⟨js, hjs, rfl⟩ := Except.map_eq_ok h
    rw [Json.floatFree_arr, floatFree_list]
    exact (all_of_forall₂ (forall₂_of_toJsonList hjs) fun x hx j hj => (ih x hx hj).symm).symm
  | tuple xs ih =>
    rw [toJson] at h
    obtain ⟨js, hjs, rfl⟩ := Except.map_eq_ok h
    rw [Json.floatFree_arr, floatFree_tuple]
    exact (all_of_forall₂ (forall₂_of_toJsonList hjs) fun x hx j hj => (ih x hx hj).symm).symm
  | dict kvs ih =>
    obtain ⟨items, hitems, members, rfl, hperm⟩ := toJson_dict_ok h
    rw [Json.floatFree_obj, floatFree_dict, hperm.all_eq, List.all_map]
    exact (all_of_forall₂ hitems fun kv hkv item hitem => (ih kv hkv hitem.2.2).symm).symm
  | float x =>
    rw [toJson] at h
    cases x with
    | fin x => cases h; rfl
    | nonFinite k =>
      cases allowNan with
      | true => cases h; rfl
      | false => cases h
  | other name => cases h
  | _ =>
    rw [toJson] at h
    cases h
    rfl

/-- What is loaded from a document without fractions is free of floats. -/
theorem floatFree_ofJson {j : Json} (h : j.floatFree = true) :
    floatFree (ofJson env j) = true := by
  induction j using Json.nested with
  | arr xs ih =>
    rw [Json.floatFree_arr, List.all_eq_true] at h
    rw [ofJson, ofJsonList_eq, floatFree_list, List.all_map, List.all_eq_true]
    exact fun x hx => ih x hx (h x hx)
  | obj ms ih =>
    rw [Json.floatFree_obj, List.all_eq_true] at h
    rw [ofJson, floatFree_dict, List.all_eq_true]
    intro kv hkv
    have hmem := PyDict.mem_of_mem_ofPairs hkv
    rw [ofJsonMembers_eq] at hmem
    obtain ⟨m, hm, rfl⟩ := List.mem_map.mp hmem
    exact ih m hm (h m hm)
  | float x => cases h
  | nonFinite k => cases h
  | _ => rfl

/-- Where no object has two members of one name, nothing is lost in loading. -/
theorem floatFree_ofJson_of_distinctNames {j : Json} (h : j.distinctNames = true) :
    floatFree (ofJson env j) = j.floatFree := by
  induction j using Json.nested with
  | arr xs ih =>
    rw [Json.distinctNames_arr, List.all_eq_true] at h
    rw [ofJson, ofJsonList_eq, floatFree_list, Json.floatFree_arr, List.all_map]
    exact all_congr_mem fun x hx => ih x hx (h x hx)
  | obj ms ih =>
    rw [Json.distinctNames_obj, Bool.and_eq_true, decide_eq_true_iff, List.all_eq_true] at h
    have hkeys : ((ofJsonMembers env ms).map Prod.fst).Nodup := by
      rw [keys_ofJsonMembers]
      have hinj : Function.Injective PyKey.str := fun _ _ heq => PyKey.str.inj heq
      have hnodup := h.1.map hinj
      rw [List.map_map] at hnodup
      exact hnodup
    rw [ofJson, PyDict.ofPairs_of_nodup hkeys, floatFree_dict, ofJsonMembers_eq, List.all_map,
      Json.floatFree_obj]
    exact all_congr_mem fun m hm => ih m hm (h.2 m hm)
  | _ => rfl

/-- The parameters as their text loads, when they have no floats. -/
theorem floatFree_reloaded {d q : PyDict} {pj : String} (h : paramsJson env (.dict d) = .ok pj)
    (hq : loads env pj = .ok (.dict q)) (hfree : floatFree (.dict d) = true) :
    floatFree (.dict q) = true := by
  obtain ⟨j, hj, hpj⟩ := paramsJson_ok h
  rw [loads_paramsJson hpj] at hq
  rw [← Except.ok.inj hq]
  exact floatFree_ofJson ((floatFree_of_toJson hj).trans hfree)

/-- The float check does not see the detour when no two keys of a dictionary have one text. -/
theorem floatFree_reloaded_eq {d q : PyDict} {j : Json} (hj : toJson env true (.dict d) = .ok j)
    (hnames : j.distinctNames = true) (hq : ofJson env j = .dict q) :
    floatFree (.dict q) = floatFree (.dict d) := by
  rw [← hq, floatFree_ofJson_of_distinctNames hnames, floatFree_of_toJson hj]

end Ugk
