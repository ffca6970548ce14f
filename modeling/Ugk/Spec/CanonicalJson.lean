import Ugk.Native.BindingM2
import Ugk.ForStd.JsonRoundTrip

/-!
# Canonical documents of dictionaries

The canonical text of a dictionary with distinct ASCII names is a function of the names and of the
canonical documents of the values, and it determines them.

## Key results

- `canonicalDoc_strDict`: the document of such a dictionary, member by member
- `objOf_injective`: members listed under the same names are read off the document
- `canonicalJson_inj`: equal canonical texts come from equal documents
-/

namespace Ugk

variable {env : Env}

/-! ## Dictionaries with distinct keys -/

theorem PyDict.set_of_not_mem {d : PyDict} {k : PyKey} (v : PyVal) (h : k ∉ d.map Prod.fst) :
    PyDict.set d k v = d ++ [(k, v)] := by
  have hany : d.any (fun kv => kv.1 == k) = false := by
    rw [List.any_eq_false]
    intro kv hkv heq
    rw [beq_iff_eq] at heq
    exact h (heq ▸ List.mem_map_of_mem hkv)
  rw [PyDict.set, hany]
  rfl

/-- Items with fresh, distinct keys are inserted behind the others. -/
theorem foldl_set_append {kvs acc : PyDict} (hfresh : ∀ kv ∈ kvs, kv.1 ∉ acc.map Prod.fst)
    (hnodup : (kvs.map Prod.fst).Nodup) :
    kvs.foldl (fun d kv => PyDict.set d kv.1 kv.2) acc = acc ++ kvs := by
  induction kvs generalizing acc with
  | nil => simp
  | cons kv rest ih =>
    obtain ⟨hk, hrest⟩ := List.forall_mem_cons.mp hfresh
    rw [List.map_cons, List.nodup_cons] at hnodup
    have hfresh' : ∀ kv' ∈ rest, kv'.1 ∉ (acc ++ [kv]).map Prod.fst := by
      intro kv' hkv' hmem
      rw [List.map_append, List.mem_append, List.map_singleton, List.mem_singleton] at hmem
      rcases hmem with hmem | heq
      · exact hrest kv' hkv' hmem
      · exact hnodup.1 (heq ▸ List.mem_map_of_mem hkv')
    rw [List.foldl_cons, PyDict.set_of_not_mem _ hk, ih hfresh' hnodup.2, List.append_assoc]
    rfl

/-- Building a dictionary from items with distinct keys keeps the items. -/
theorem PyDict.ofPairs_of_nodup {kvs : PyDict} (h : (kvs.map Prod.fst).Nodup) :
    PyDict.ofPairs kvs = kvs := by
  exact foldl_set_append (by simp) h

/-! ## Documents -/

/-- The members of a dictionary's document, in the order of the dictionary. -/
def docItems (env : Env) : List (String × PyVal) → Except Exc (List (String × Json))
  | [] => .ok []
  | kv :: rest =>
    match canonicalDoc env kv.2 with
    | .error e => .error e
    | .ok j => (docItems env rest).map ((kv.1, j) :: ·)

/-- The document with these members, in the order of their names. -/
def objOf (items : List (String × Json)) : Json :=
  .obj (items.insertionSort fun a b => a.1 ≤ b.1)

theorem nfc_of_isAscii {s : String} (h : isAscii s = true) : nfc env s = s := by
  rw [nfc, if_pos h]

/-- Names that are distinct and ASCII. -/
def PlainNames (names : List String) : Prop := names.Nodup ∧ ∀ s ∈ names, isAscii s = true

instance (names : List String) : Decidable (PlainNames names) := by
  unfold PlainNames; infer_instance

private theorem normalizeItems_strDict (kvs : List (String × PyVal))
    (h : ∀ s ∈ kvs.map Prod.fst, isAscii s = true) :
    normalizeItems env (kvs.map fun kv => (.str kv.1, kv.2)) =
      kvs.map fun kv => (.str kv.1, normalize env kv.2) := by
  induction kvs with
  | nil => rfl
  | cons kv rest ih =>
    have hk : nfc env kv.1 = kv.1 := nfc_of_isAscii (h _ (by simp))
    simp only [List.map_cons, normalizeItems, normalizeItem, hk]
    rw [ih fun s hs => h s (by simp only [List.map_cons, List.mem_cons]; exact .inr hs)]

/-- The members of a dictionary's document before normalisation. -/
def jsonItems (env : Env) (allowNan : Bool) :
    List (String × PyVal) → Except Exc (List (String × Json))
  | [] => .ok []
  | kv :: rest =>
    match toJson env allowNan kv.2 with
    | .error e => .error e
    | .ok j => (jsonItems env allowNan rest).map ((kv.1, j) :: ·)

theorem docItems_eq (kvs : List (String × PyVal)) :
    docItems env kvs = jsonItems env false (kvs.map fun kv => (kv.1, normalize env kv.2)) := by
  induction kvs with
  | nil => rfl
  | cons kv rest ih => simp only [docItems, List.map_cons, jsonItems, canonicalDoc, ih]

private theorem toJsonItems_str (allowNan : Bool) (kvs : List (String × PyVal)) :
    toJsonItems env allowNan (kvs.map fun kv => (.str kv.1, kv.2)) =
      (jsonItems env allowNan kvs).map fun items => items.map fun kv => (.str kv.1, kv) := by
  induction kvs with
  | nil => rfl
  | cons kv rest ih =>
    simp only [List.map_cons, toJsonItems, toJsonItem, keyText, jsonItems]
    cases toJson env allowNan kv.2 with
    | error e => rfl
    | ok j =>
      simp only [Except.map, ih]
      cases jsonItems env allowNan rest <;> rfl

private theorem sortItems_str (items : List (String × Json)) :
    (sortItems env (items.map fun kv => ((.str kv.1 : PyKey), kv))).map Prod.snd =
      items.insertionSort fun a b => a.1 ≤ b.1 := by
  rw [sortItems, ← List.map_insertionSort (fun a b : String × Json => a.1 ≤ b.1)]
  · rw [List.map_map]
    exact List.map_id _
  · intro a _ b _
    simp [keyLe]

private theorem sortableKeys_str (kvs : List (String × PyVal)) :
    sortableKeys ((kvs.map fun kv => ((.str kv.1 : PyKey), kv.2)).map Prod.fst) = true := by
  simp [sortableKeys]

/-- The document of a dictionary with string keys. -/
theorem toJson_strDict (allowNan : Bool) (kvs : List (String × PyVal)) :
    toJson env allowNan (strDict kvs) = (jsonItems env allowNan kvs).map objOf := by
  rw [strDict, toJson, if_pos (sortableKeys_str kvs), toJsonItems_str]
  cases jsonItems env allowNan kvs with
  | error e => rfl
  | ok items => simp only [Except.map, sortItems_str, objOf]

theorem toJson_strList (allowNan : Bool) (xs : List String) :
    toJson env allowNan (strList xs) = .ok (.arr (xs.map .str)) := by
  have hlist : toJsonList env allowNan (xs.map .str) = .ok (xs.map .str) := by
    induction xs with
    | nil => rfl
    | cons x xs ih => simp only [List.map_cons, toJsonList, toJson, ih, Except.map]
  rw [strList, toJson, hlist]
  rfl

/-- The document of a dictionary with distinct ASCII names. -/
theorem canonicalDoc_strDict {kvs : List (String × PyVal)} (h : PlainNames (kvs.map Prod.fst)) :
    canonicalDoc env (strDict kvs) = (docItems env kvs).map objOf := by
  have hnodup : ((kvs.map fun kv => ((.str kv.1 : PyKey), normalize env kv.2)).map
      Prod.fst).Nodup := by
    rw [List.map_map]
    have : (Prod.fst ∘ fun kv : String × PyVal => ((.str kv.1 : PyKey), normalize env kv.2)) =
        PyKey.str ∘ Prod.fst := rfl
    rw [this, ← List.map_map]
    exact h.1.map (fun a b hab => PyKey.str.inj hab)
  rw [canonicalDoc, strDict, normalize, normalizeItems_strDict kvs h.2,
    PyDict.ofPairs_of_nodup hnodup, docItems_eq, ← toJson_strDict, strDict, List.map_map]
  rfl

theorem jsonItems_names {allowNan : Bool} {kvs : List (String × PyVal)}
    {items : List (String × Json)} (h : jsonItems env allowNan kvs = .ok items) :
    items.map Prod.fst = kvs.map Prod.fst := by
  induction kvs generalizing items with
  | nil => cases h; rfl
  | cons kv rest ih =>
    rw [jsonItems] at h
    cases hj : toJson env allowNan kv.2 with
    | error e => rw [hj] at h; exact nomatch h
    | ok j =>
      rw [hj] at h
      cases hr : jsonItems env allowNan rest with
      | error e => rw [hr] at h; exact nomatch h
      | ok more =>
        rw [hr] at h
        cases h
        simp only [List.map_cons, ih hr]

theorem docItems_names {kvs : List (String × PyVal)} {items : List (String × Json)}
    (h : docItems env kvs = .ok items) : items.map Prod.fst = kvs.map Prod.fst := by
  rw [docItems_eq] at h
  rw [jsonItems_names h, List.map_map]
  rfl

/-- Dictionaries with the same names and the same documents under them have the same items. -/
theorem docItems_congr {kvs kvs' : List (String × PyVal)}
    (h : List.Forall₂ (fun a b => a.1 = b.1 ∧ canonicalDoc env a.2 = canonicalDoc env b.2) kvs kvs') :
    docItems env kvs = docItems env kvs' := by
  induction h with
  | nil => rfl
  | cons hab _ ih => rw [docItems, docItems, hab.1, hab.2, ih]

/-- The documents under two equal member lists agree name by name. -/
theorem jsonItems_inj {allowNan : Bool} {kvs kvs' : List (String × PyVal)}
    {items : List (String × Json)} (h : jsonItems env allowNan kvs = .ok items)
    (h' : jsonItems env allowNan kvs' = .ok items) :
    List.Forall₂ (fun a b => a.1 = b.1 ∧ toJson env allowNan a.2 = toJson env allowNan b.2)
      kvs kvs' := by
  induction kvs generalizing kvs' items with
  | nil =>
    cases h
    cases kvs' with
    | nil => exact .nil
    | cons kv rest => exact absurd (jsonItems_names h') (by simp)
  | cons kv rest ih =>
    cases kvs' with
    | nil => cases h'; exact absurd (jsonItems_names h) (by simp)
    | cons kv' rest' =>
      rw [jsonItems] at h h'
      split at h
      · exact nomatch h
      rename_i j hj
      split at h'
      · exact nomatch h'
      rename_i j' hj'
      cases hr : jsonItems env allowNan rest with
      | error e => rw [hr] at h; exact nomatch h
      | ok more =>
        cases hr' : jsonItems env allowNan rest' with
        | error e => rw [hr'] at h'; exact nomatch h'
        | ok more' =>
          rw [hr] at h
          rw [hr'] at h'
          have hitems : (kv.1, j) :: more = items := Except.ok.inj h
          have hitems' : (kv'.1, j') :: more' = items := Except.ok.inj h'
          obtain ⟨hhead, htail⟩ := List.cons.inj (hitems.trans hitems'.symm)
          obtain ⟨hname, hdoc⟩ := Prod.mk.inj hhead
          refine .cons ⟨hname, ?_⟩ (ih hr (htail ▸ hr'))
          rw [hj, hj', hdoc]

/-- The documents under two equal item lists agree name by name. -/
theorem docItems_inj {kvs kvs' : List (String × PyVal)} {items : List (String × Json)}
    (h : docItems env kvs = .ok items) (h' : docItems env kvs' = .ok items) :
    List.Forall₂ (fun a b => a.1 = b.1 ∧ canonicalDoc env a.2 = canonicalDoc env b.2) kvs kvs' := by
  rw [docItems_eq] at h h'
  have hitems := jsonItems_inj h h'
  rw [List.forall₂_map_left_iff, List.forall₂_map_right_iff] at hitems
  exact hitems

/-- Members listed in one order of distinct names are read off the sorted document. -/
theorem objOf_injective {items items' : List (String × Json)}
    (hnames : items.map Prod.fst = items'.map Prod.fst) (hnodup : (items.map Prod.fst).Nodup)
    (h : objOf items = objOf items') : items = items' := by
  have hsort : items.insertionSort (fun a b => a.1 ≤ b.1) =
      items'.insertionSort fun a b => a.1 ≤ b.1 := Json.obj.inj h
  have hperm : items.Perm items' :=
    (List.perm_insertionSort _ items).symm.trans (hsort ▸ List.perm_insertionSort _ items')
  clear h hsort
  induction items generalizing items' with
  | nil => exact (List.nil_perm.mp hperm).symm
  | cons a rest ih =>
    cases items' with
    | nil => exact absurd hnames (by simp)
    | cons b rest' =>
      simp only [List.map_cons, List.cons.injEq, List.nodup_cons] at hnames hnodup
      have hab : a = b := by
        have hmem : a ∈ b :: rest' := hperm.subset (by simp)
        rcases List.mem_cons.mp hmem with h | h
        · exact h
        · have : b.1 ∈ rest'.map Prod.fst := hnames.1 ▸ List.mem_map_of_mem h
          exact absurd (hnames.1 ▸ hnames.2 ▸ this) hnodup.1
      subst hab
      rw [ih hnames.2 hnodup.2 (hperm.cons_inv)]

/-- Equal canonical texts come from equal documents. -/
theorem canonicalJson_inj {v w : PyVal} {cs : List Char} (hv : canonicalJson env v = .ok cs)
    (hw : canonicalJson env w = .ok cs) : canonicalDoc env v = canonicalDoc env w := by
  rw [canonicalJson] at hv hw
  cases hdv : canonicalDoc env v with
  | error e => rw [hdv] at hv; exact nomatch hv
  | ok j =>
    cases hdw : canonicalDoc env w with
    | error e => rw [hdw] at hw; exact nomatch hw
    | ok j' =>
      rw [hdv] at hv
      rw [hdw] at hw
      have hj : Json.render ⟨false, false⟩ j = cs := Except.ok.inj hv
      have hj' : Json.render ⟨false, false⟩ j' = cs := Except.ok.inj hw
      rw [Json.render_injective _ (hj.trans hj'.symm)]

theorem canonicalJson_congr {v w : PyVal} (h : canonicalDoc env v = canonicalDoc env w) :
    canonicalJson env v = canonicalJson env w := by
  rw [canonicalJson, canonicalJson, h]

end Ugk
