import Ugk.ForStd.Traverse
import Ugk.Native.CkValue
import Ugk.Spec.CkCanon

/-!
# CK-CANON as a canonical form

Members are sorted by the keys as they came and printed under the normal forms of the keys.  So the
text is canonical where normalising keeps the order, and the keys apart; elsewhere two spellings of
one object have two texts, or one object has two members of one name.

## Key results

- `serialize_eq`: a value has a document, or the first of its defects is reported
- `canonicalBytes_ofPyVal`: on text values this is `CkCanon.canonicalBytes`
- `canonicalBytes_eq_iff`: on ordered values, one text means one value up to spelling
- `canonical_iff`: the values on which the text is canonical
-/

namespace Ugk

namespace CkValue

variable {env : Env}

/-- Induction over a value, with the hypothesis for everything inside it. -/
@[elab_as_elim]
theorem Raw.nested {motive : Raw → Prop} (none : motive .none) (bool : ∀ b, motive (.bool b))
    (int : ∀ n, motive (.int n)) (float : ∀ x, motive (.float x)) (str : ∀ s, motive (.str s))
    (arr : ∀ xs, (∀ x ∈ xs, motive x) → motive (.arr xs))
    (dict : ∀ kvs : List (Key × Raw), (∀ kv ∈ kvs, motive kv.2) → motive (.dict kvs))
    (other : ∀ name, motive (.other name)) (v : Raw) : motive v := by
  induction hsize : sizeOf v using Nat.strongRecOn generalizing v with
  | _ n ih =>
    subst hsize
    cases v with
    | none => exact none
    | bool b => exact bool b
    | int n => exact int n
    | float x => exact float x
    | str s => exact str s
    | other name => exact other name
    | arr xs =>
      refine arr xs fun x hx => ?_
      have hlt := List.sizeOf_lt_of_mem hx
      refine ih _ ?_ x rfl
      simp
      omega
    | dict kvs =>
      refine dict kvs fun kv hkv => ?_
      obtain ⟨k, v⟩ := kv
      have hlt := List.sizeOf_lt_of_mem hkv
      refine ih _ ?_ v rfl
      simp at hlt ⊢
      omega

/-! ## Sorting -/

variable {β γ : Type}

theorem perm_byUnits (kvs : List (Key × β)) : (byUnits kvs).Perm kvs :=
  List.perm_insertionSort _ kvs

theorem map_byUnits (f : β → γ) (kvs : List (Key × β)) :
    byUnits (kvs.map fun kv => (kv.1, f kv.2)) = (byUnits kvs).map fun kv => (kv.1, f kv.2) :=
  (List.map_insertionSort (fun a b : Key × β => units a.1 ≤ units b.1)
    (fun a b : Key × γ => units a.1 ≤ units b.1) _ kvs fun _ _ _ _ => Iff.rfl).symm

theorem sorted_byUnits (kvs : List (Key × β)) :
    (byUnits kvs).Pairwise fun a b => units a.1 ≤ units b.1 := by
  have htotal : Std.Total fun a b : Key × β => units a.1 ≤ units b.1 := ⟨fun a b => le_total _ _⟩
  have htrans : IsTrans (Key × β) fun a b => units a.1 ≤ units b.1 :=
    ⟨fun _ _ _ hab hbc => le_trans hab hbc⟩
  exact List.pairwise_insertionSort _ kvs

/-! ## Defects -/

/-- What puts a value outside the CK value model. -/
inductive Defect where
  /-- a key that is no string -/
  | keyType
  /-- a key with a lone surrogate -/
  | keyEncoding
  | float
  | oversized
  /-- a string with a lone surrogate -/
  | encoding
  | unsupported
deriving DecidableEq

/-- What the canonicaliser raises for a defect. -/
def Defect.exc : Defect → SmhExc
  | .keyType => .attributeError
  | .keyEncoding => .unicodeEncodeError
  | .float => .canonError "float_present"
  | .oversized => .canonError "oversized_integer_as_number"
  | .encoding => .canonError "invalid_string_encoding"
  | .unsupported => .canonError "unsupported_type"

/-- A malformed key. -/
def Defect.isKey : Defect → Bool
  | .keyType => true
  | .keyEncoding => true
  | _ => false

/-- The defects of a key. -/
def keyDefects : Key → List Defect
  | .str s => if (PyStr.text? s).isSome then [] else [.keyEncoding]
  | .other _ => [.keyType]

mutual

/-- The defects of a value: those of its keys first, then those of its members in the order of the
    keys. -/
def defects : Raw → List Defect
  | .none => []
  | .bool _ => []
  | .int n => if CkCanon.maxSafe < n.natAbs then [.oversized] else []
  | .float _ => [.float]
  | .str s => if (PyStr.text? s).isSome then [] else [.encoding]
  | .arr xs => (defectsList xs).flatten
  | .dict kvs =>
    kvs.flatMap (fun kv => keyDefects kv.1) ++ (byUnits (defectsItems kvs)).flatMap Prod.snd
  | .other _ => [.unsupported]
termination_by structural v => v

/-- The defects of each element. -/
def defectsList : List Raw → List (List Defect)
  | [] => []
  | x :: xs => defects x :: defectsList xs
termination_by structural xs => xs

/-- The defects of the value under each key. -/
def defectsItems : List (Key × Raw) → List (Key × List Defect)
  | [] => []
  | m :: ms => defectsItem m :: defectsItems ms
termination_by structural ms => ms

/-- Those of one item. -/
def defectsItem : Key × Raw → Key × List Defect
  | (k, v) => (k, defects v)
termination_by structural m => m

end

/-- A value of the CK value model: objects with string keys, arrays, strings, integers a JSON number
    holds, booleans and null. -/
def InModel (v : Raw) : Prop := defects v = []

theorem defectsList_eq (xs : List Raw) : defectsList xs = xs.map defects := by
  induction xs with
  | nil => rfl
  | cons x xs ih => rw [defectsList, ih, List.map_cons]

theorem defectsItems_eq (kvs : List (Key × Raw)) :
    defectsItems kvs = kvs.map fun kv => (kv.1, defects kv.2) := by
  induction kvs with
  | nil => rfl
  | cons kv kvs ih =>
    obtain ⟨k, v⟩ := kv
    rw [defectsItems, defectsItem, ih, List.map_cons]

theorem defects_arr (xs : List Raw) : defects (.arr xs) = xs.flatMap defects := by
  rw [defects, defectsList_eq, List.flatMap_def]

theorem defects_dict (kvs : List (Key × Raw)) : defects (.dict kvs) =
    kvs.flatMap (fun kv => keyDefects kv.1) ++ (byUnits kvs).flatMap fun kv => defects kv.2 := by
  rw [defects, defectsItems_eq, map_byUnits, List.flatMap_map]

theorem inModel_arr {xs : List Raw} : InModel (.arr xs) ↔ ∀ x ∈ xs, InModel x := by
  unfold InModel
  rw [defects_arr, List.flatMap_eq_nil_iff]

theorem inModel_dict {kvs : List (Key × Raw)} :
    InModel (.dict kvs) ↔ ∀ kv ∈ kvs, keyDefects kv.1 = [] ∧ InModel kv.2 := by
  unfold InModel
  rw [defects_dict, List.append_eq_nil_iff, List.flatMap_eq_nil_iff, List.flatMap_eq_nil_iff]
  constructor
  · intro h kv hkv
    exact ⟨h.1 kv hkv, h.2 kv ((perm_byUnits kvs).mem_iff.mpr hkv)⟩
  · intro h
    exact ⟨fun kv hkv => (h kv hkv).1,
      fun kv hkv => (h kv ((perm_byUnits kvs).mem_iff.mp hkv)).2⟩

/-- A key without defects is text. -/
theorem keyDefects_eq_nil {k : Key} : keyDefects k = [] ↔ ∃ t, k = .str (PyStr.lit t) := by
  cases k with
  | str s =>
    unfold keyDefects
    cases hs : PyStr.text? s with
    | none =>
      refine iff_of_false (by simp [hs]) ?_
      rintro ⟨t, ht⟩
      rw [Key.str.inj ht, PyStr.text?_lit] at hs
      exact nomatch hs
    | some t => exact iff_of_true (by simp [hs]) ⟨t, by rw [PyStr.text?_eq_some.mp hs]⟩
  | other name => exact iff_of_false (by simp [keyDefects]) (by simp)

/-! ## Documents -/

/-- The name a key is printed as. -/
def name (env : Env) : Key → String
  | .str s => nfc env ((PyStr.text? s).getD "")
  | .other n => n

mutual

/-- The document of a value of the model. -/
def doc (env : Env) : Raw → Json
  | .none => .null
  | .bool b => .bool b
  | .int n => .int n
  | .float _ => .null
  | .str s => .str (nfc env ((PyStr.text? s).getD ""))
  | .arr xs => .arr (docList env xs)
  | .dict kvs => .obj ((byUnits (docItems env kvs)).map fun m => (name env m.1, m.2))
  | .other _ => .null
termination_by structural v => v

/-- The document of each element. -/
def docList (env : Env) : List Raw → List Json
  | [] => []
  | x :: xs => doc env x :: docList env xs
termination_by structural xs => xs

/-- The document of the value under each key. -/
def docItems (env : Env) : List (Key × Raw) → List (Key × Json)
  | [] => []
  | m :: ms => docItem env m :: docItems env ms
termination_by structural ms => ms

/-- That of one item. -/
def docItem (env : Env) : Key × Raw → Key × Json
  | (k, v) => (k, doc env v)
termination_by structural m => m

end

theorem docItems_eq (kvs : List (Key × Raw)) :
    docItems env kvs = kvs.map fun kv => (kv.1, doc env kv.2) := by
  induction kvs with
  | nil => rfl
  | cons kv kvs ih =>
    obtain ⟨k, v⟩ := kv
    rw [docItems, docItem, ih, List.map_cons]

theorem doc_arr (xs : List Raw) : doc env (.arr xs) = .arr (xs.map (doc env)) := by
  have hlist : docList env xs = xs.map (doc env) := by
    induction xs with
    | nil => rfl
    | cons x xs ih => rw [docList, ih, List.map_cons]
  rw [doc, hlist]

/-- A member of an object's document. -/
def member (env : Env) (kv : Key × Raw) : String × Json := (name env kv.1, doc env kv.2)

theorem name_lit (t : String) : name env (.str (PyStr.lit t)) = nfc env t := by
  rw [name, PyStr.text?_lit, Option.getD_some]

theorem doc_dict (kvs : List (Key × Raw)) :
    doc env (.dict kvs) = .obj ((byUnits kvs).map (member env)) := by
  rw [doc, docItems_eq, map_byUnits, List.map_map]
  rfl

/-! ## The first defect is reported -/

/-- A value, or what the first defect raises. -/
def report {α : Type} (ds : List Defect) (a : α) : Except SmhExc α :=
  match ds with
  | [] => .ok a
  | d :: _ => .error d.exc

theorem report_map {α β : Type} (ds : List Defect) (a : α) (f : α → β) :
    (report ds a).map f = report ds (f a) := by
  cases ds <;> rfl

theorem report_bind {α β : Type} (ds es : List Defect) (a : α) (b : β) :
    ((report ds a).bind fun _ => report es b) = report (ds ++ es) b := by
  cases ds <;> rfl

theorem escapeString_eq (s : PyStr) : escapeString env s =
    report (if (PyStr.text? s).isSome then [] else [Defect.encoding])
      (nfc env ((PyStr.text? s).getD "")) := by
  unfold escapeString
  cases PyStr.text? s <;> rfl

theorem encodeKey_eq (k : Key) : encodeKey k = report (keyDefects k) (units k) := by
  unfold units
  cases k with
  | str s =>
    dsimp only [encodeKey, keyDefects]
    cases hs : PyStr.text? s with
    | none => rfl
    | some t => rfl
  | other n => rfl

theorem sortKeys_eq (kvs : List (Key × β)) :
    sortKeys kvs = report (kvs.flatMap fun kv => keyDefects kv.1) (byUnits kvs) := by
  have hkeys : (kvs.mapM fun kv => encodeKey kv.1) =
      report (kvs.flatMap fun kv => keyDefects kv.1) (kvs.map fun kv => units kv.1) := by
    induction kvs with
    | nil => rfl
    | cons kv kvs ih =>
      rw [List.mapM_cons, ih, encodeKey_eq, List.flatMap_cons, List.map_cons]
      cases keyDefects kv.1 with
      | nil => cases kvs.flatMap fun kv => keyDefects kv.1 <;> rfl
      | cons d ds => rfl
  rw [sortKeys, hkeys, report_map]

theorem elements_eq (xs : List Raw)
    (ih : ∀ x ∈ xs, serialize env x = report (defects x) (doc env x)) :
    CkCanon.elements (xs.map (serialize env)) =
      report (xs.flatMap defects) (xs.map (doc env)) := by
  induction xs with
  | nil => rfl
  | cons x xs ihxs =>
    rw [List.forall_mem_cons] at ih
    rw [List.map_cons, ih.1, List.flatMap_cons, List.map_cons]
    cases defects x with
    | nil =>
      show (CkCanon.elements (xs.map (serialize env))).map (doc env x :: ·) = _
      rw [ihxs ih.2, report_map, List.nil_append]
    | cons d ds => rfl

theorem members_eq (kvs : List (Key × Raw))
    (ih : ∀ kv ∈ kvs, serialize env kv.2 = report (defects kv.2) (doc env kv.2))
    (hkeys : ∀ kv ∈ kvs, keyDefects kv.1 = []) :
    members env (kvs.map fun kv => (kv.1, serialize env kv.2)) =
      report (kvs.flatMap fun kv => defects kv.2) (kvs.map (member env)) := by
  induction kvs with
  | nil => rfl
  | cons kv kvs ihkvs =>
    obtain ⟨k, v⟩ := kv
    rw [List.forall_mem_cons] at ih hkeys
    obtain ⟨t, ht⟩ := keyDefects_eq_nil.mp hkeys.1
    dsimp only at ht
    subst ht
    rw [List.map_cons, List.flatMap_cons, List.map_cons, members, escapeString_eq, ih.1,
      PyStr.text?_lit, ihkvs ih.2 hkeys.2]
    dsimp only
    cases defects v with
    | nil =>
      show (report (kvs.flatMap fun kv => defects kv.2) (kvs.map (member env))).map
        ((nfc env t, doc env v) :: ·) = _
      rw [report_map, List.nil_append, member, name_lit]
    | cons d ds => rfl

/-- A value has a document, or the first of its defects is reported. -/
theorem serialize_eq (v : Raw) : serialize env v = report (defects v) (doc env v) := by
  induction v using Raw.nested with
  | none => rfl
  | bool b => rfl
  | float x => rfl
  | other name => rfl
  | int n =>
    unfold serialize CkCanon.encodeInteger defects
    split <;> rfl
  | str s => rw [serialize, escapeString_eq, report_map, defects, doc]
  | arr xs ih =>
    have hlist : serializeList env xs = xs.map (serialize env) := by
      clear ih
      induction xs with
      | nil => rfl
      | cons x xs ih => rw [serializeList, ih, List.map_cons]
    rw [serialize, hlist, elements_eq xs ih, report_map, defects_arr, doc_arr]
  | dict kvs ih =>
    have hitems : serializeItems env kvs = kvs.map fun kv => (kv.1, serialize env kv.2) := by
      clear ih
      induction kvs with
      | nil => rfl
      | cons kv kvs ih =>
        obtain ⟨k, v⟩ := kv
        rw [serializeItems, serializeItem, ih, List.map_cons]
    rw [serialize, hitems, sortKeys_eq, List.flatMap_map, map_byUnits, defects_dict, doc_dict]
    dsimp only
    cases hkeys : kvs.flatMap fun kv => keyDefects kv.1 with
    | cons d ds => rfl
    | nil =>
      -- every key is text, so the loop meets no key it cannot print
      rw [List.flatMap_eq_nil_iff] at hkeys
      show (members env ((byUnits kvs).map fun kv => (kv.1, serialize env kv.2))).map _ = _
      rw [members_eq (byUnits kvs) (fun kv hkv => ih kv ((perm_byUnits kvs).mem_iff.mp hkv))
        (fun kv hkv => hkeys kv ((perm_byUnits kvs).mem_iff.mp hkv)), report_map, List.nil_append]

/-! ## Text values

On values whose strings are text this is the canonicaliser of the tools' models. -/

/-- A key of a text value. -/
def ofKey : PyKey → Key
  | .str s => .str (PyStr.lit s)
  | .none => .other "None"
  | .bool _ => .other "bool"
  | .int _ => .other "int"
  | .float _ => .other "float"
  | .other n => .other n

mutual

/-- A text value. -/
def ofPyVal : PyVal → Raw
  | .none => .none
  | .bool b => .bool b
  | .int n => .int n
  | .float x => .float x
  | .str s => .str (PyStr.lit s)
  | .list xs => .arr (ofPyVals xs)
  | .tuple xs => .arr (ofPyVals xs)
  | .dict kvs => .dict (ofItems kvs)
  | .other n => .other n
termination_by structural v => v

def ofPyVals : List PyVal → List Raw
  | [] => []
  | x :: xs => ofPyVal x :: ofPyVals xs
termination_by structural xs => xs

def ofItems : List (PyKey × PyVal) → List (Key × Raw)
  | [] => []
  | m :: ms => ofItem m :: ofItems ms
termination_by structural ms => ms

def ofItem : PyKey × PyVal → Key × Raw
  | (k, v) => (ofKey k, ofPyVal v)
termination_by structural m => m

end

theorem ofPyVals_eq (xs : List PyVal) : ofPyVals xs = xs.map ofPyVal := by
  induction xs with
  | nil => rfl
  | cons x xs ih => rw [ofPyVals, ih, List.map_cons]

theorem ofItems_eq (kvs : PyDict) : ofItems kvs = kvs.map fun kv => (ofKey kv.1, ofPyVal kv.2) := by
  induction kvs with
  | nil => rfl
  | cons kv kvs ih =>
    obtain ⟨k, v⟩ := kv
    rw [ofItems, ofItem, ih, List.map_cons]

theorem encodeKey_ofKey (k : PyKey) : encodeKey (ofKey k) =
    if CkCanon.isStrKey k then .ok (CkCanon.keyUnits k) else .error .attributeError := by
  cases k with
  | str s => rw [ofKey, encodeKey, PyStr.text?_lit]; rfl
  | _ => rfl

theorem byUnits_ofKey (kvs : List (PyKey × β)) (hstr : ∀ kv ∈ kvs, CkCanon.isStrKey kv.1 = true) :
    byUnits (kvs.map fun kv => (ofKey kv.1, kv.2)) =
      (CkCanon.sortUnits kvs).map fun kv => (ofKey kv.1, kv.2) := by
  refine (List.map_insertionSort (fun a b : PyKey × β => CkCanon.keyUnits a.1 ≤
    CkCanon.keyUnits b.1) (fun a b : Key × β => units a.1 ≤ units b.1) _ kvs ?_).symm
  intro a ha b hb
  show CkCanon.keyUnits a.1 ≤ CkCanon.keyUnits b.1 ↔ units (ofKey a.1) ≤ units (ofKey b.1)
  rw [units, units, encodeKey_ofKey, encodeKey_ofKey, if_pos (hstr a ha), if_pos (hstr b hb)]

theorem sortKeys_ofKey (kvs : List (PyKey × β)) :
    sortKeys (kvs.map fun kv => (ofKey kv.1, kv.2)) =
      if kvs.all fun kv => CkCanon.isStrKey kv.1 then
        .ok ((CkCanon.sortUnits kvs).map fun kv => (ofKey kv.1, kv.2))
      else .error .attributeError := by
  have hkeys : (kvs.mapM fun kv => encodeKey (ofKey kv.1)) =
      if kvs.all fun kv => CkCanon.isStrKey kv.1 then .ok (kvs.map fun kv => CkCanon.keyUnits kv.1)
      else .error .attributeError := by
    induction kvs with
    | nil => rfl
    | cons kv kvs ih =>
      rw [List.mapM_cons, ih, encodeKey_ofKey, List.all_cons]
      cases CkCanon.isStrKey kv.1 with
      | false => rfl
      | true =>
        cases kvs.all fun kv => CkCanon.isStrKey kv.1 with
        | false => rfl
        | true => rfl
  rw [sortKeys, List.mapM_map]
  show ((kvs.mapM fun kv => encodeKey (ofKey kv.1)).map fun _ => _) = _
  rw [hkeys]
  split
  · rename_i hall
    rw [byUnits_ofKey kvs (List.all_eq_true.mp hall)]
    rfl
  · rfl

theorem members_ofKey (kvs : List (PyKey × Except SmhExc Json))
    (hstr : ∀ kv ∈ kvs, CkCanon.isStrKey kv.1 = true) :
    members env (kvs.map fun kv => (ofKey kv.1, kv.2)) = CkCanon.members env kvs := by
  induction kvs with
  | nil => rfl
  | cons kv kvs ih =>
    obtain ⟨k, v⟩ := kv
    rw [List.forall_mem_cons] at hstr
    obtain ⟨s, rfl⟩ := CkCanon.isStrKey_iff.mp hstr.1
    rw [List.map_cons, ofKey, members, ih hstr.2, escapeString, PyStr.text?_lit]
    cases v <;> rfl

/-- The two canonicalisers agree on text values. -/
theorem serialize_ofPyVal (v : PyVal) : serialize env (ofPyVal v) = CkCanon.serialize env v := by
  have hlist (xs : List PyVal)
      (ih : ∀ x ∈ xs, serialize env (ofPyVal x) = CkCanon.serialize env x) :
      serialize env (.arr (ofPyVals xs)) =
        (CkCanon.elements (CkCanon.serializeList env xs)).map .arr := by
    have hmap : serializeList env (xs.map ofPyVal) = xs.map (CkCanon.serialize env) := by
      induction xs with
      | nil => rfl
      | cons x xs ihxs =>
        rw [List.forall_mem_cons] at ih
        rw [List.map_cons, serializeList, ih.1, ihxs ih.2, List.map_cons]
    rw [serialize, ofPyVals_eq, hmap, CkCanon.serializeList_eq]
  induction v using PyVal.nested with
  | none => rfl
  | bool b => rfl
  | int n => rfl
  | float x => rfl
  | other n => rfl
  | str s =>
    rw [ofPyVal, serialize, escapeString, PyStr.text?_lit]
    rfl
  | list xs ih => exact hlist xs ih
  | tuple xs ih => exact hlist xs ih
  | dict kvs ih =>
    have hitems : serializeItems env (ofItems kvs) =
        (CkCanon.serializeItems env kvs).map fun kv => (ofKey kv.1, kv.2) := by
      induction kvs with
      | nil => rfl
      | cons kv kvs ihkvs =>
        obtain ⟨k, v⟩ := kv
        rw [List.forall_mem_cons] at ih
        rw [ofItems, ofItem, serializeItems, serializeItem, ih.1, ihkvs ih.2,
          CkCanon.serializeItems, CkCanon.serializeItem, List.map_cons]
    have hkeys : ((CkCanon.serializeItems env kvs).all fun kv => CkCanon.isStrKey kv.1) =
        kvs.all fun kv => CkCanon.isStrKey kv.1 := by
      rw [CkCanon.serializeItems_eq, List.all_map]
      rfl
    rw [ofPyVal, serialize, hitems, sortKeys_ofKey, hkeys, CkCanon.serialize]
    by_cases hall : (kvs.all fun kv => CkCanon.isStrKey kv.1) = true
    · rw [if_pos hall, if_pos hall]
      show (members env _).map _ = _
      rw [members_ofKey]
      intro kv hkv
      have hmem := (CkCanon.perm_sortUnits _).mem_iff.mp hkv
      exact List.all_eq_true.mp (hkeys.trans hall) kv hmem
    · rw [if_neg hall, if_neg hall]
      rfl

theorem ofKey_eq_lit {k : PyKey} {s : String} : ofKey k = .str (PyStr.lit s) ↔ k = .str s := by
  cases k with
  | str t => rw [ofKey, Key.str.injEq, PyStr.lit_inj, PyKey.str.injEq]
  | _ => exact iff_of_false (fun h => nomatch h) (fun h => nomatch h)

theorem canonicalBytes_ofPyVal (v : PyVal) :
    canonicalBytes env (ofPyVal v) = CkCanon.canonicalBytes env v := by
  have hgoverned : governed (ofPyVal v) = ofPyVal (CkCanon.governed v) := by
    cases v with
    | dict kvs =>
      rw [CkCanon.governed, ofPyVal, ofPyVal, governed, ofItems_eq, ofItems_eq, List.filter_map]
      refine congrArg Raw.dict (congrArg _ (List.filter_congr fun kv _ => ?_))
      show decide (ofKey kv.1 ≠ .str (PyStr.lit "ext")) = (kv.1 != .str "ext")
      rw [Bool.eq_iff_iff, decide_eq_true_iff, bne_iff_ne, ne_eq, ne_eq, ofKey_eq_lit]
    | _ => rfl
  rw [canonicalBytes, hgoverned, serialize_ofPyVal, CkCanon.canonicalBytes]

/-! ## One value in two spellings -/

/-- `unicodedata.normalize("NFC", s)` -/
def normalString (env : Env) (s : PyStr) : PyStr :=
  match PyStr.text? s with
  | some t => PyStr.lit (nfc env t)
  | none => s

/-- A key with its string normalised. -/
def normalKey (env : Env) : Key → Key
  | .str s => .str (normalString env s)
  | .other n => .other n

mutual

/-- A value with every string and every key normalised. -/
def normalize (env : Env) : Raw → Raw
  | .none => .none
  | .bool b => .bool b
  | .int n => .int n
  | .float x => .float x
  | .str s => .str (normalString env s)
  | .arr xs => .arr (normalizeList env xs)
  | .dict kvs => .dict (normalizeItems env kvs)
  | .other name => .other name
termination_by structural v => v

def normalizeList (env : Env) : List Raw → List Raw
  | [] => []
  | x :: xs => normalize env x :: normalizeList env xs
termination_by structural xs => xs

def normalizeItems (env : Env) : List (Key × Raw) → List (Key × Raw)
  | [] => []
  | m :: ms => normalizeItem env m :: normalizeItems env ms
termination_by structural ms => ms

def normalizeItem (env : Env) : Key × Raw → Key × Raw
  | (k, v) => (normalKey env k, normalize env v)
termination_by structural m => m

end

mutual

/-- Equality of values: the order of the items of a dictionary plays no part. -/
def Equal : Raw → Raw → Prop
  | .arr xs, w => ∃ ys, w = .arr ys ∧ EqualList xs ys
  | .dict kvs, w => ∃ kvs' ms, w = .dict kvs' ∧ ms.Perm kvs' ∧ EqualItems kvs ms
  | .none, w => w = .none
  | .bool b, w => w = .bool b
  | .int n, w => w = .int n
  | .float x, w => w = .float x
  | .str s, w => w = .str s
  | .other name, w => w = .other name
termination_by structural v => v

/-- Element by element. -/
def EqualList : List Raw → List Raw → Prop
  | [], ys => ys = []
  | x :: xs, ys => ∃ z zs, ys = z :: zs ∧ Equal x z ∧ EqualList xs zs
termination_by structural xs => xs

/-- Item by item. -/
def EqualItems : List (Key × Raw) → List (Key × Raw) → Prop
  | [], ms => ms = []
  | m :: rest, ms => ∃ n ns, ms = n :: ns ∧ EqualItem m n ∧ EqualItems rest ns
termination_by structural ms => ms

/-- One key, and equal values under it. -/
def EqualItem : Key × Raw → Key × Raw → Prop
  | (k, v), n => n.1 = k ∧ Equal v n.2
termination_by structural m => m

end

/-- Equal after normalising every string and every key and dropping a root `ext` member. -/
def Same (env : Env) (v w : Raw) : Prop :=
  Equal (normalize env (governed v)) (normalize env (governed w))

theorem normalize_arr (xs : List Raw) : normalize env (.arr xs) = .arr (xs.map (normalize env)) := by
  have hlist : normalizeList env xs = xs.map (normalize env) := by
    induction xs with
    | nil => rfl
    | cons x xs ih => rw [normalizeList, ih, List.map_cons]
  rw [normalize, hlist]

/-- An item with its key and its value normalised. -/
def normalItem (env : Env) (kv : Key × Raw) : Key × Raw := (normalKey env kv.1, normalize env kv.2)

theorem normalize_dict (kvs : List (Key × Raw)) :
    normalize env (.dict kvs) = .dict (kvs.map (normalItem env)) := by
  have hitems : normalizeItems env kvs = kvs.map (normalItem env) := by
    induction kvs with
    | nil => rfl
    | cons kv kvs ih => rw [normalizeItems, ih, normalizeItem, List.map_cons, normalItem]
  rw [normalize, hitems]

theorem equal_arr {xs : List Raw} {w : Raw} :
    Equal (.arr xs) w ↔ ∃ ys, w = .arr ys ∧ List.Forall₂ Equal xs ys := by
  have hlist (xs ys : List Raw) : EqualList xs ys ↔ List.Forall₂ Equal xs ys := by
    induction xs generalizing ys with
    | nil => rw [EqualList, List.forall₂_nil_left_iff]
    | cons x xs ih =>
      rw [EqualList, List.forall₂_cons_left_iff]
      simp only [ih]
      exact ⟨fun ⟨z, zs, hys, hz, hzs⟩ => ⟨z, zs, hz, hzs, hys⟩,
        fun ⟨z, zs, hz, hzs, hys⟩ => ⟨z, zs, hys, hz, hzs⟩⟩
  rw [Equal]
  simp only [hlist]

theorem equal_dict {kvs : List (Key × Raw)} {w : Raw} :
    Equal (.dict kvs) w ↔ ∃ kvs' ms, w = .dict kvs' ∧ ms.Perm kvs' ∧
      List.Forall₂ (fun m n => n.1 = m.1 ∧ Equal m.2 n.2) kvs ms := by
  have hitems (kvs ms : List (Key × Raw)) : EqualItems kvs ms ↔
      List.Forall₂ (fun m n => n.1 = m.1 ∧ Equal m.2 n.2) kvs ms := by
    induction kvs generalizing ms with
    | nil => rw [EqualItems, List.forall₂_nil_left_iff]
    | cons m kvs ih =>
      obtain ⟨k, v⟩ := m
      rw [EqualItems, List.forall₂_cons_left_iff]
      simp only [ih, EqualItem]
      exact ⟨fun ⟨n, ns, hms, hn, hns⟩ => ⟨n, ns, hn, hns, hms⟩,
        fun ⟨n, ns, hn, hns, hms⟩ => ⟨n, ns, hms, hn, hns⟩⟩
  rw [Equal]
  simp only [hitems]

theorem equal_refl (v : Raw) : Equal v v := by
  induction v using Raw.nested with
  | arr xs ih => exact equal_arr.mpr ⟨xs, rfl, List.forall₂_same.mpr ih⟩
  | dict kvs ih =>
    exact equal_dict.mpr ⟨kvs, kvs, rfl, List.Perm.refl _,
      List.forall₂_same.mpr fun kv hkv => ⟨rfl, ih kv hkv⟩⟩
  | none => rfl
  | bool b => rfl
  | int n => rfl
  | float x => rfl
  | str s => rfl
  | other name => rfl

/-- The string of a key that is text is printed as it is normalised. -/
theorem normalKey_eq {k : Key} (h : keyDefects k = []) :
    normalKey env k = .str (PyStr.lit (name env k)) := by
  obtain ⟨t, rfl⟩ := keyDefects_eq_nil.mp h
  rw [name_lit, normalKey, normalString, PyStr.text?_lit]

theorem name_eq_iff {k k' : Key} (h : keyDefects k = []) (h' : keyDefects k' = []) :
    name env k = name env k' ↔ normalKey env k = normalKey env k' := by
  rw [normalKey_eq h, normalKey_eq h', Key.str.injEq, PyStr.lit_inj]

/-- A string of the model. -/
theorem inModel_str {s : PyStr} : InModel (.str s) ↔ ∃ t, s = PyStr.lit t := by
  unfold InModel
  rw [defects]
  cases hs : PyStr.text? s with
  | none =>
    refine iff_of_false (by simp) ?_
    rintro ⟨t, rfl⟩
    rw [PyStr.text?_lit] at hs
    exact nomatch hs
  | some t => exact iff_of_true (by simp) ⟨t, PyStr.text?_eq_some.mp hs⟩

theorem doc_lit (t : String) : doc env (.str (PyStr.lit t)) = .str (nfc env t) := by
  rw [doc, PyStr.text?_lit, Option.getD_some]

theorem normalize_lit (t : String) :
    normalize env (.str (PyStr.lit t)) = .str (PyStr.lit (nfc env t)) := by
  rw [normalize, normalString, PyStr.text?_lit]

/-! ## One document, one value -/

/-- The values with one document: what stands in them, constructor by constructor. -/
theorem inModel_of_doc {w : Raw} (hw : InModel w) :
    (doc env w = .null → w = .none) ∧ (∀ b, doc env w = .bool b → w = .bool b) ∧
      (∀ n, doc env w = .int n → w = .int n) ∧
      (∀ s, doc env w = .str s → ∃ t, w = .str (PyStr.lit t) ∧ nfc env t = s) ∧
      (∀ js, doc env w = .arr js → ∃ xs, w = .arr xs ∧ xs.map (doc env) = js) ∧
      (∀ ms, doc env w = .obj ms → ∃ kvs, w = .dict kvs ∧ (byUnits kvs).map (member env) = ms) := by
  cases w with
  | float x => exact nomatch hw
  | other name => exact nomatch hw
  | str s =>
    obtain ⟨t, rfl⟩ := inModel_str.mp hw
    rw [doc_lit]
    simp
  | arr xs =>
    rw [doc_arr]
    simp
  | dict kvs =>
    rw [doc_dict]
    simp
  | none => simp [doc]
  | bool b => simp [doc]
  | int n => simp [doc]

/-- Values with one document are equal up to spelling. -/
theorem equal_of_doc {v w : Raw} (hv : InModel v) (hw : InModel w) (h : doc env v = doc env w) :
    Equal (normalize env v) (normalize env w) := by
  induction v using Raw.nested generalizing w with
  | float x => exact nomatch hv
  | other name => exact nomatch hv
  | none => rw [(inModel_of_doc hw).1 h.symm]; exact equal_refl _
  | bool b => rw [(inModel_of_doc hw).2.1 b h.symm]; exact equal_refl _
  | int n => rw [(inModel_of_doc hw).2.2.1 n h.symm]; exact equal_refl _
  | str s =>
    obtain ⟨t, rfl⟩ := inModel_str.mp hv
    rw [doc_lit] at h
    obtain ⟨t', rfl, ht⟩ := (inModel_of_doc hw).2.2.2.1 _ h.symm
    rw [normalize_lit, normalize_lit, ht]
    exact equal_refl _
  | arr xs ih =>
    rw [doc_arr] at h
    obtain ⟨ys, rfl, hys⟩ := (inModel_of_doc hw).2.2.2.2.1 _ h.symm
    rw [inModel_arr] at hv hw
    rw [normalize_arr, normalize_arr]
    refine equal_arr.mpr ⟨_, rfl, ?_⟩
    rw [List.forall₂_map_left_iff, List.forall₂_map_right_iff]
    have hdocs : List.Forall₂ (fun x y => doc env x = doc env y) xs ys :=
      forall₂_eq_iff_map.mpr hys.symm
    refine (List.forall₂_iff_zip.mpr ⟨hdocs.length_eq, fun {x y} hxy => ?_⟩)
    obtain ⟨hx, hy⟩ := List.of_mem_zip hxy
    exact ih x hx (hv x hx) (hw y hy) ((List.forall₂_iff_zip.mp hdocs).2 hxy)
  | dict kvs ih =>
    rw [doc_dict] at h
    obtain ⟨kvs', rfl, hms⟩ := (inModel_of_doc hw).2.2.2.2.2 _ h.symm
    rw [inModel_dict] at hv hw
    rw [normalize_dict, normalize_dict]
    have hmembers : List.Forall₂ (fun a b => member env a = member env b) (byUnits kvs)
        (byUnits kvs') := forall₂_eq_iff_map.mpr hms.symm
    -- the items of one side, in the order of the other
    obtain ⟨ms, hms, hperm⟩ := List.perm_comp_forall₂ (perm_byUnits kvs).symm hmembers
    have hperm' : ms.Perm kvs' := hperm.trans (perm_byUnits kvs')
    refine equal_dict.mpr ⟨_, ms.map (normalItem env), rfl, hperm'.map _, ?_⟩
    rw [List.forall₂_map_left_iff, List.forall₂_map_right_iff]
    refine (List.forall₂_iff_zip.mpr ⟨hms.length_eq, fun {a b} hab => ?_⟩)
    obtain ⟨ha, hb⟩ := List.of_mem_zip hab
    obtain ⟨hname, hdoc⟩ := Prod.mk.inj ((List.forall₂_iff_zip.mp hms).2 hab)
    have hb' := hw b (hperm'.mem_iff.mp hb)
    exact ⟨((name_eq_iff (hv a ha).1 hb'.1).mp hname).symm, ih a ha (hv a ha).2 hb'.2 hdoc⟩

/-! ## Where normalising keeps the order -/

mutual

/-- The objects inside a value. -/
def objects : Raw → List (List (Key × Raw))
  | .arr xs => objectsList xs
  | .dict kvs => kvs :: objectsItems kvs
  | _ => []
termination_by structural v => v

def objectsList : List Raw → List (List (Key × Raw))
  | [] => []
  | x :: xs => objects x ++ objectsList xs
termination_by structural xs => xs

def objectsItems : List (Key × Raw) → List (List (Key × Raw))
  | [] => []
  | m :: ms => objectsItem m ++ objectsItems ms
termination_by structural ms => ms

def objectsItem : Key × Raw → List (List (Key × Raw))
  | (_, v) => objects v
termination_by structural m => m

end

/-- Something holds of every object inside a value. -/
def EveryObject (P : List (Key × Raw) → Prop) (v : Raw) : Prop := ∀ kvs ∈ objects v, P kvs

variable {P : List (Key × Raw) → Prop}

theorem everyObject_arr {xs : List Raw} :
    EveryObject P (.arr xs) ↔ ∀ x ∈ xs, EveryObject P x := by
  have hlist : objectsList xs = xs.flatMap objects := by
    induction xs with
    | nil => rfl
    | cons x xs ih => rw [objectsList, ih, List.flatMap_cons]
  unfold EveryObject
  rw [objects, hlist]
  simp only [List.mem_flatMap]
  exact ⟨fun h x hx kvs hkvs => h kvs ⟨x, hx, hkvs⟩, fun h kvs ⟨x, hx, hkvs⟩ => h x hx kvs hkvs⟩

theorem everyObject_dict {kvs : List (Key × Raw)} :
    EveryObject P (.dict kvs) ↔ P kvs ∧ ∀ kv ∈ kvs, EveryObject P kv.2 := by
  have hitems : objectsItems kvs = kvs.flatMap fun kv => objects kv.2 := by
    induction kvs with
    | nil => rfl
    | cons kv kvs ih =>
      obtain ⟨k, v⟩ := kv
      rw [objectsItems, ih, objectsItem, List.flatMap_cons]
  unfold EveryObject
  rw [objects, hitems, List.forall_mem_cons]
  simp only [List.mem_flatMap]
  exact and_congr_right fun _ => ⟨fun h kv hkv kvs hkvs => h kvs ⟨kv, hkv, hkvs⟩,
    fun h kvs ⟨kv, hkv, hkvs⟩ => h kv hkv kvs hkvs⟩

/-- In every object, the names of the members grow strictly in UTF-16 when the members are taken in
    the order of the keys as they came. -/
def Ordered (env : Env) : Raw → Prop := EveryObject fun kvs =>
  ((byUnits kvs).map fun kv => name env kv.1).Pairwise fun a b => CkCanon.utf16 a < CkCanon.utf16 b

/-- Every object has a key once, as Python's dictionaries have. -/
def KeysOnce : Raw → Prop := EveryObject fun kvs => (kvs.map Prod.fst).Nodup

theorem names_member (kvs : List (Key × Raw)) :
    ((byUnits kvs).map (member env)).map Prod.fst = (byUnits kvs).map fun kv => name env kv.1 := by
  rw [List.map_map]
  rfl

/-- Members with growing names are determined by what they are. -/
theorem members_eq_of_perm {ms ns : List (String × Json)} (hperm : ms.Perm ns)
    (hms : (ms.map Prod.fst).Pairwise fun a b => CkCanon.utf16 a < CkCanon.utf16 b)
    (hns : (ns.map Prod.fst).Pairwise fun a b => CkCanon.utf16 a < CkCanon.utf16 b) : ms = ns := by
  rw [List.pairwise_map] at hms hns
  refine @List.Perm.eq_of_pairwise _ (fun a b => CkCanon.utf16 a.1 < CkCanon.utf16 b.1) _ _ ?_
    hms hns hperm
  intro a b _ _ hab hba
  exact absurd hab (lt_asymm hba)

/-- Ordered values that are equal up to spelling have one document. -/
theorem doc_of_equal {v w : Raw} (hv : InModel v) (hw : InModel w) (hov : Ordered env v)
    (how : Ordered env w) (h : Equal (normalize env v) (normalize env w)) :
    doc env v = doc env w := by
  induction v using Raw.nested generalizing w with
  | float x => exact nomatch hv
  | other name => exact nomatch hv
  | none =>
    have heq : normalize env w = .none := h
    cases w with
    | none => rfl
    | _ => exact nomatch heq
  | bool b =>
    have heq : normalize env w = .bool b := h
    cases w with
    | bool c => rw [Raw.bool.inj heq]
    | _ => exact nomatch heq
  | int n =>
    have heq : normalize env w = .int n := h
    cases w with
    | int m => rw [Raw.int.inj heq]
    | _ => exact nomatch heq
  | str s =>
    obtain ⟨t, rfl⟩ := inModel_str.mp hv
    rw [normalize_lit] at h
    have heq : normalize env w = .str (PyStr.lit (nfc env t)) := h
    cases w with
    | str s' =>
      obtain ⟨t', rfl⟩ := inModel_str.mp hw
      rw [normalize_lit, Raw.str.injEq, PyStr.lit_inj] at heq
      rw [doc_lit, doc_lit, heq]
    | _ => exact nomatch heq
  | arr xs ih =>
    rw [normalize_arr] at h
    obtain ⟨ys', heq, hforall⟩ := equal_arr.mp h
    cases w with
    | arr ys =>
      rw [normalize_arr, Raw.arr.injEq] at heq
      subst heq
      rw [List.forall₂_map_left_iff, List.forall₂_map_right_iff] at hforall
      rw [inModel_arr] at hv hw
      have hov := everyObject_arr.mp hov
      have how := everyObject_arr.mp how
      rw [doc_arr, doc_arr, Json.arr.injEq, ← forall₂_eq_iff_map]
      refine (List.forall₂_iff_zip.mpr ⟨hforall.length_eq, fun {x y} hxy => ?_⟩)
      obtain ⟨hx, hy⟩ := List.of_mem_zip hxy
      exact ih x hx (hv x hx) (hw y hy) (hov x hx) (how y hy)
        ((List.forall₂_iff_zip.mp hforall).2 hxy)
    | _ => exact nomatch heq
  | dict kvs ih =>
    rw [normalize_dict] at h
    obtain ⟨ns, ms, heq, hperm, hforall⟩ := equal_dict.mp h
    cases w with
    | dict kvs' =>
      rw [normalize_dict, Raw.dict.injEq] at heq
      subst heq
      rw [List.forall₂_map_left_iff] at hforall
      rw [inModel_dict] at hv hw
      obtain ⟨hnames, hov⟩ := everyObject_dict.mp hov
      obtain ⟨hnames', how⟩ := everyObject_dict.mp how
      -- the items of the right side, in the order of the left one
      obtain ⟨rest, hrest, hms⟩ := List.perm_comp_forall₂ hperm
        (forall₂_eq_iff_map.mpr (by rw [List.map_id] : ((kvs'.map (normalItem env)).map id) =
          kvs'.map (normalItem env)))
      have hrest' := forall₂_eq_iff_map.mp hrest
      rw [List.map_id] at hrest'
      subst hrest'
      rw [List.forall₂_map_right_iff] at hforall
      have hmembers : kvs.map (member env) = rest.map (member env) := by
        rw [← forall₂_eq_iff_map]
        refine (List.forall₂_iff_zip.mpr ⟨hforall.length_eq, fun {a b} hab => ?_⟩)
        obtain ⟨ha, hb⟩ := List.of_mem_zip hab
        obtain ⟨hkey, hequal⟩ := (List.forall₂_iff_zip.mp hforall).2 hab
        have hb := hms.mem_iff.mp hb
        refine Prod.ext ?_ ?_
        · exact (name_eq_iff (hv a ha).1 (hw b hb).1).mpr hkey.symm
        · exact ih a ha (hv a ha).2 (hw b hb).2 (hov a ha) (how b hb) hequal
      rw [doc_dict, doc_dict, Json.obj.injEq]
      refine members_eq_of_perm ?_ ?_ ?_
      · calc (byUnits kvs).map (member env)
            |>.Perm (kvs.map (member env)) := (perm_byUnits kvs).map _
          _ |>.Perm (kvs'.map (member env)) := hmembers ▸ hms.map _
          _ |>.Perm ((byUnits kvs').map (member env)) := ((perm_byUnits kvs').map _).symm
      · rw [names_member]
        exact hnames
      · rw [names_member]
        exact hnames'
    | _ => exact nomatch heq

/-! ## Names, once and in order -/

/-- An ordered value has no name twice in an object. -/
theorem distinctNames_doc {v : Raw} (h : Ordered env v) : (doc env v).distinctNames = true := by
  induction v using Raw.nested with
  | arr xs ih =>
    rw [doc_arr, Json.distinctNames_arr, List.all_map, List.all_eq_true]
    exact fun x hx => ih x hx (everyObject_arr.mp h x hx)
  | dict kvs ih =>
    obtain ⟨hnames, hmembers⟩ := everyObject_dict.mp h
    rw [doc_dict, Json.distinctNames_obj, Bool.and_eq_true, decide_eq_true_iff, names_member]
    constructor
    · exact hnames.imp fun {a b} hab heq => absurd (heq ▸ hab) (lt_irrefl _)
    · rw [List.all_map, List.all_eq_true]
      intro kv hkv
      have hkv := (perm_byUnits kvs).mem_iff.mp hkv
      exact ih kv hkv (hmembers kv hkv)
  | _ => rfl

theorem units_eq {k : Key} (h : keyDefects k = []) (hnormal : normalKey env k = k) :
    units k = CkCanon.utf16 (name env k) := by
  rw [normalKey_eq h] at hnormal
  show units k = _
  conv_lhs => rw [← hnormal]
  rw [units, encodeKey, PyStr.text?_lit]

/-- A value whose strings and keys are in normal form is ordered. -/
theorem ordered_of_normal {v : Raw} (hv : InModel v) (honce : KeysOnce v)
    (hnormal : normalize env v = v) : Ordered env v := by
  induction v using Raw.nested with
  | arr xs ih =>
    rw [normalize_arr, Raw.arr.injEq] at hnormal
    have hfix : ∀ x ∈ xs, normalize env x = x :=
      List.map_inj_left.mp (hnormal.trans (List.map_id xs).symm)
    exact everyObject_arr.mpr fun x hx =>
      ih x hx (inModel_arr.mp hv x hx) (everyObject_arr.mp honce x hx) (hfix x hx)
  | dict kvs ih =>
    rw [normalize_dict, Raw.dict.injEq] at hnormal
    have hfix : ∀ kv ∈ kvs, normalItem env kv = kv :=
      List.map_inj_left.mp (hnormal.trans (List.map_id kvs).symm)
    rw [inModel_dict] at hv
    obtain ⟨hnodup, honce⟩ := everyObject_dict.mp honce
    refine everyObject_dict.mpr ⟨?_, fun kv hkv =>
      ih kv hkv (hv kv hkv).2 (honce kv hkv) (Prod.mk.inj (hfix kv hkv)).2⟩
    have hunits : ∀ kv ∈ byUnits kvs, units kv.1 = CkCanon.utf16 (name env kv.1) := by
      intro kv hkv
      have hkv := (perm_byUnits kvs).mem_iff.mp hkv
      exact units_eq (hv kv hkv).1 (Prod.mk.inj (hfix kv hkv)).1
    have hkeys : (byUnits kvs).Pairwise fun a b => a.1 ≠ b.1 := by
      have hperm := ((perm_byUnits kvs).map Prod.fst).nodup_iff.mpr hnodup
      exact List.pairwise_map.mp hperm
    rw [List.pairwise_map]
    refine ((sorted_byUnits kvs).and hkeys).imp_of_mem ?_
    intro a b ha hb hab
    rw [← hunits a ha, ← hunits b hb]
    refine lt_of_le_of_ne hab.1 fun heq => hab.2 ?_
    -- keys with the same units are the same text
    obtain ⟨s, hs⟩ := keyDefects_eq_nil.mp (hv a ((perm_byUnits kvs).mem_iff.mp ha)).1
    obtain ⟨t, ht⟩ := keyDefects_eq_nil.mp (hv b ((perm_byUnits kvs).mem_iff.mp hb)).1
    rw [hunits a ha, hunits b hb] at heq
    have hname := CkCanon.utf16_injective heq
    have ha' := (Prod.mk.inj (hfix a ((perm_byUnits kvs).mem_iff.mp ha))).1
    have hb' := (Prod.mk.inj (hfix b ((perm_byUnits kvs).mem_iff.mp hb))).1
    rw [← ha', ← hb', normalKey_eq (hs ▸ keyDefects_eq_nil.mpr ⟨s, rfl⟩),
      normalKey_eq (ht ▸ keyDefects_eq_nil.mpr ⟨t, rfl⟩), hname]
  | _ => exact fun kvs hkvs => nomatch hkvs

/-! ## Normal forms -/

theorem keyDefects_normalKey {k : Key} (h : keyDefects k = []) :
    keyDefects (normalKey env k) = [] := by
  rw [normalKey_eq h]
  exact keyDefects_eq_nil.mpr ⟨_, rfl⟩

theorem inModel_normalize {v : Raw} (hv : InModel v) : InModel (normalize env v) := by
  induction v using Raw.nested with
  | str s =>
    obtain ⟨t, rfl⟩ := inModel_str.mp hv
    rw [normalize_lit]
    exact inModel_str.mpr ⟨_, rfl⟩
  | arr xs ih =>
    rw [inModel_arr] at hv
    rw [normalize_arr, inModel_arr, List.forall_mem_map]
    exact fun x hx => ih x hx (hv x hx)
  | dict kvs ih =>
    rw [inModel_dict] at hv
    rw [normalize_dict, inModel_dict, List.forall_mem_map]
    exact fun kv hkv => ⟨keyDefects_normalKey (hv kv hkv).1, ih kv hkv (hv kv hkv).2⟩
  | _ => exact hv

variable (hnfc : ∀ s, nfc env (nfc env s) = nfc env s)

include hnfc in
theorem name_normalKey {k : Key} (h : keyDefects k = []) :
    name env (normalKey env k) = name env k := by
  obtain ⟨t, rfl⟩ := keyDefects_eq_nil.mp h
  rw [normalKey_eq h, name_lit, name_lit, hnfc]

include hnfc in
theorem normalize_normalize {v : Raw} (hv : InModel v) :
    normalize env (normalize env v) = normalize env v := by
  induction v using Raw.nested with
  | str s =>
    obtain ⟨t, rfl⟩ := inModel_str.mp hv
    rw [normalize_lit, normalize_lit, hnfc]
  | arr xs ih =>
    rw [inModel_arr] at hv
    rw [normalize_arr, normalize_arr, List.map_map]
    exact congrArg Raw.arr (List.map_congr_left fun x hx => ih x hx (hv x hx))
  | dict kvs ih =>
    rw [inModel_dict] at hv
    rw [normalize_dict, normalize_dict, List.map_map]
    refine congrArg Raw.dict (List.map_congr_left fun kv hkv => ?_)
    have hkey := (hv kv hkv).1
    refine Prod.ext ?_ (ih kv hkv (hv kv hkv).2)
    show normalKey env (normalKey env kv.1) = normalKey env kv.1
    rw [normalKey_eq (keyDefects_normalKey hkey), @name_normalKey env hnfc kv.1 hkey,
      normalKey_eq hkey]
  | _ => rfl

/-- A document with each name once is that of a value whose normal form is a value as well. -/
theorem keysOnce_normalize {v : Raw} (hv : InModel v) (h : (doc env v).distinctNames = true) :
    KeysOnce (normalize env v) := by
  induction v using Raw.nested with
  | arr xs ih =>
    rw [doc_arr, Json.distinctNames_arr, List.all_map, List.all_eq_true] at h
    rw [normalize_arr]
    refine everyObject_arr.mpr ?_
    rw [List.forall_mem_map]
    exact fun x hx => ih x hx (inModel_arr.mp hv x hx) (h x hx)
  | dict kvs ih =>
    rw [inModel_dict] at hv
    rw [doc_dict, Json.distinctNames_obj, Bool.and_eq_true, decide_eq_true_iff, names_member,
      List.all_map, List.all_eq_true] at h
    obtain ⟨hnames, hmembers⟩ := h
    rw [normalize_dict]
    refine everyObject_dict.mpr ⟨?_, ?_⟩
    · have hperm := ((perm_byUnits kvs).map fun kv => name env kv.1).nodup_iff.mp hnames
      have hkeys : (kvs.map (normalItem env)).map Prod.fst =
          (kvs.map fun kv => name env kv.1).map fun s => Key.str (PyStr.lit s) := by
        rw [List.map_map, List.map_map]
        exact List.map_congr_left fun kv hkv => normalKey_eq (hv kv hkv).1
      rw [hkeys]
      exact hperm.map fun s t hst => PyStr.lit_injective (Key.str.inj hst)
    · rw [List.forall_mem_map]
      exact fun kv hkv => ih kv hkv (hv kv hkv).2
        (hmembers kv ((perm_byUnits kvs).mem_iff.mpr hkv))
  | _ => exact fun kvs hkvs => nomatch hkvs

include hnfc in
/-- A value that has the document of its normal form, with each name once, is ordered. -/
theorem ordered_of_doc {v : Raw} (hv : InModel v) (h : (doc env v).distinctNames = true)
    (hdoc : doc env v = doc env (normalize env v)) : Ordered env v := by
  induction v using Raw.nested with
  | arr xs ih =>
    rw [doc_arr, Json.distinctNames_arr, List.all_map, List.all_eq_true] at h
    rw [normalize_arr, doc_arr, doc_arr, Json.arr.injEq, List.map_map, List.map_inj_left] at hdoc
    exact everyObject_arr.mpr fun x hx => ih x hx (inModel_arr.mp hv x hx) (h x hx) (hdoc x hx)
  | dict kvs ih =>
    rw [inModel_dict] at hv
    rw [doc_dict, Json.distinctNames_obj, Bool.and_eq_true, decide_eq_true_iff, List.all_map,
      List.all_eq_true] at h
    obtain ⟨hnames, hmembers⟩ := h
    rw [normalize_dict, doc_dict, doc_dict, Json.obj.injEq] at hdoc
    refine everyObject_dict.mpr ⟨?_, fun kv hkv => ?_⟩
    · -- the names of the normal form are sorted, and they are the names of the value
      have hsorted : (((byUnits (kvs.map (normalItem env))).map (member env)).map
          Prod.fst).Pairwise fun a b => CkCanon.utf16 a ≤ CkCanon.utf16 b := by
        rw [names_member, List.pairwise_map]
        refine (sorted_byUnits _).imp_of_mem ?_
        intro a b ha hb hab
        have hunits (c : Key × Raw) (hc : c ∈ byUnits (kvs.map (normalItem env))) :
            units c.1 = CkCanon.utf16 (name env c.1) := by
          obtain ⟨kv, hkv, rfl⟩ := List.mem_map.mp ((perm_byUnits _).mem_iff.mp hc)
          have hkey := (hv kv hkv).1
          show units (normalKey env kv.1) = CkCanon.utf16 (name env (normalKey env kv.1))
          refine units_eq (keyDefects_normalKey hkey) ?_
          rw [normalKey_eq (keyDefects_normalKey hkey), @name_normalKey env hnfc kv.1 hkey,
            normalKey_eq hkey]
        rw [← hunits a ha, ← hunits b hb]
        exact hab
      rw [← hdoc] at hsorted
      rw [← names_member]
      refine (hsorted.and hnames).imp ?_
      intro a b hab
      exact lt_of_le_of_ne hab.1 fun heq => hab.2 (CkCanon.utf16_injective heq)
    · have hmem : member env kv ∈ (byUnits kvs).map (member env) :=
        List.mem_map_of_mem ((perm_byUnits kvs).mem_iff.mpr hkv)
      have hmem' : member env (normalItem env kv) ∈ (byUnits kvs).map (member env) := by
        rw [hdoc]
        exact List.mem_map_of_mem ((perm_byUnits _).mem_iff.mpr (List.mem_map_of_mem hkv))
      have hname : (member env kv).1 = (member env (normalItem env kv)).1 :=
        (@name_normalKey env hnfc kv.1 (hv kv hkv).1).symm
      have heq := List.inj_on_of_nodup_map hnames hmem hmem' hname
      exact ih kv hkv (hv kv hkv).2 (hmembers kv ((perm_byUnits kvs).mem_iff.mpr hkv))
        (Prod.mk.inj heq).2
  | _ => exact fun kvs hkvs => nomatch hkvs

/-! ## What CK-CANON promises -/

/-- A Python value: its dictionaries have every key once. -/
structure Value where
  raw : Raw
  once : KeysOnce raw

theorem everyObject_governed {v : Raw} (hP : ∀ kvs kvs', kvs'.Sublist kvs → P kvs → P kvs')
    (h : EveryObject P v) : EveryObject P (governed v) := by
  cases v with
  | dict kvs =>
    obtain ⟨hkvs, hmembers⟩ := everyObject_dict.mp h
    exact everyObject_dict.mpr ⟨hP _ _ List.filter_sublist hkvs,
      fun kv hkv => hmembers kv (List.mem_filter.mp hkv).1⟩
  | _ => exact h

theorem canonicalBytes_eq (v : Raw) : canonicalBytes env v =
    report (defects (governed v)) (Json.render ⟨false, false⟩ (doc env (governed v))) := by
  rw [canonicalBytes, serialize_eq, report_map]

theorem canonicalBytes_ok {v : Raw} (hv : InModel (governed v)) :
    canonicalBytes env v = .ok (Json.render ⟨false, false⟩ (doc env (governed v))) := by
  rw [canonicalBytes_eq, show defects (governed v) = [] from hv]
  rfl

theorem canonicalBytes_eq_iff_doc {v w : Raw} (hv : InModel (governed v))
    (hw : InModel (governed w)) : canonicalBytes env v = canonicalBytes env w ↔
      doc env (governed v) = doc env (governed w) := by
  rw [canonicalBytes_ok hv, canonicalBytes_ok hw, Except.ok.injEq]
  exact (Json.render_injective _).eq_iff

/-- Only a malformed key is reported by another exception than `CanonError`. -/
theorem report_canonError_iff {α : Type} {d : Defect} {ds : List Defect} {a : α} :
    (∃ reason, report (d :: ds) a = .error (.canonError reason)) ↔ d.isKey = false := by
  cases d <;> simp [report, Defect.exc, Defect.isKey, SmhExc.attributeError,
    SmhExc.unicodeEncodeError]

/-- The promise for one value: outside the model it is rejected with `CanonError`; in the model it
    has a text without a name twice in an object and without a raw NUL, and it shares the text with
    exactly those normalised values that it is equal to up to spelling. -/
structure Canonical (env : Env) (v : Value) : Prop where
  rejected : ¬InModel (governed v.raw) →
    ∃ reason, canonicalBytes env v.raw = .error (.canonError reason)
  printed : InModel (governed v.raw) → ∃ j : Json,
    canonicalBytes env v.raw = .ok (Json.render ⟨false, false⟩ j) ∧ j.distinctNames = true ∧
      Char.ofNat 0 ∉ Json.render ⟨false, false⟩ j
  canonical : InModel (governed v.raw) → ∀ w : Value, InModel (governed w.raw) →
    normalize env w.raw = w.raw →
      (canonicalBytes env v.raw = canonicalBytes env w.raw ↔ Same env v.raw w.raw)

/-- When the promise is kept: no malformed key is the first defect of the value, and in each of its
    objects the normalised names of the members grow in the order of the keys. -/
structure Meets (env : Env) (v : Value) : Prop where
  keys : ∀ d ds, defects (governed v.raw) = d :: ds → d.isKey = false
  ordered : InModel (governed v.raw) → Ordered env (governed v.raw)

/-- On ordered values, one text means one value up to spelling. -/
theorem canonicalBytes_eq_iff {v w : Raw} (hv : InModel (governed v)) (hw : InModel (governed w))
    (hov : Ordered env (governed v)) (how : Ordered env (governed w)) :
    canonicalBytes env v = canonicalBytes env w ↔ Same env v w := by
  rw [canonicalBytes_eq_iff_doc hv hw]
  exact ⟨equal_of_doc hv hw, doc_of_equal hv hw hov how⟩

theorem nul_not_mem_render (j : Json) : Char.ofNat 0 ∉ Json.render ⟨false, false⟩ j := by
  intro h
  have hle := Json.le_of_mem_render _ j h
  exact absurd hle (by decide)

/-- A normalised value without a root `ext` has none after normalising either. -/
theorem governed_normalize (hext : ∀ s, nfc env s = "ext" → s = "ext") {v : Raw}
    (hv : InModel (governed v)) :
    governed (normalize env (governed v)) = normalize env (governed v) := by
  cases v with
  | dict kvs =>
    have hkeys := inModel_dict.mp hv
    unfold governed at hkeys ⊢
    dsimp only
    rw [normalize_dict]
    dsimp only
    refine congrArg Raw.dict (List.filter_eq_self.mpr fun kv hkv => ?_)
    obtain ⟨item, hitem, rfl⟩ := List.mem_map.mp hkv
    have hnot := of_decide_eq_true (List.mem_filter.mp hitem).2
    obtain ⟨t, ht⟩ := keyDefects_eq_nil.mp (hkeys item hitem).1
    refine decide_eq_true fun heq => hnot ?_
    have hname : normalKey env item.1 = .str (PyStr.lit "ext") := heq
    rw [normalKey_eq (hkeys item hitem).1, ht, name_lit, Key.str.injEq, PyStr.lit_inj] at hname
    rw [ht, hext t hname]
  | _ => rfl

include hnfc in
/-- The values on which the text is canonical. -/
theorem canonical_iff (hext : ∀ s, nfc env s = "ext" → s = "ext") (v : Value) :
    Canonical env v ↔ Meets env v := by
  constructor
  · intro h
    constructor
    · intro d ds hdefects
      have hrejected := h.rejected (by rw [InModel, hdefects]; exact fun heq => nomatch heq)
      rw [canonicalBytes_eq, hdefects] at hrejected
      exact report_canonError_iff.mp hrejected
    · intro hv
      obtain ⟨j, hj, hdistinct, -⟩ := h.printed hv
      rw [canonicalBytes_ok hv, Except.ok.injEq] at hj
      rw [← Json.render_injective _ hj] at hdistinct
      -- the promise is tested on the value's own normal form
      have hgov := governed_normalize hext hv
      have hnormal := normalize_normalize hnfc hv
      have hmodel : InModel (governed (normalize env (governed v.raw))) := by
        rw [hgov]
        exact inModel_normalize hv
      have hsame : Same env v.raw (normalize env (governed v.raw)) := by
        rw [Same, hgov, hnormal]
        exact equal_refl _
      have hbytes := (h.canonical hv ⟨_, keysOnce_normalize hv hdistinct⟩ hmodel hnormal).mpr hsame
      rw [canonicalBytes_eq_iff_doc hv hmodel, hgov] at hbytes
      exact ordered_of_doc hnfc hv hdistinct hbytes
  · intro h
    refine ⟨fun hv => ?_, fun hv => ?_, fun hv w hw hnormal => ?_⟩
    · rw [canonicalBytes_eq]
      cases hdefects : defects (governed v.raw) with
      | nil => exact absurd hdefects hv
      | cons d ds => exact report_canonError_iff.mpr (h.keys d ds hdefects)
    · exact ⟨_, canonicalBytes_ok hv, distinctNames_doc (h.ordered hv), nul_not_mem_render _⟩
    · refine canonicalBytes_eq_iff hv hw (h.ordered hv) (ordered_of_normal hw ?_ ?_)
      · exact everyObject_governed (fun _ _ hsub => (hsub.map Prod.fst).nodup) w.once
      · cases hraw : w.raw with
        | dict kvs =>
          rw [hraw, normalize_dict, Raw.dict.injEq] at hnormal
          have hfix := List.map_inj_left.mp (hnormal.trans (List.map_id kvs).symm)
          show normalize env (.dict _) = .dict _
          rw [normalize_dict]
          refine congrArg Raw.dict ((List.map_inj_left.mpr fun kv hkv => ?_).trans (List.map_id _))
          exact hfix kv (List.mem_filter.mp hkv).1
        | _ =>
          rw [hraw] at hnormal
          exact hnormal

/-! ## The hash -/

/-- A domain tag: ASCII, without NUL. -/
def IsTag (tag : PyStr) : Prop := ∃ cs, encodeTag tag = .ok cs ∧ Char.ofNat 0 ∉ cs

theorem encodeTag_ok {tag : PyStr} {cs : List Char} (h : encodeTag tag = .ok cs) :
    tag = cs.map .char := by
  unfold encodeTag at h
  cases ht : PyStr.text? tag with
  | none =>
    rw [ht] at h
    exact nomatch h
  | some t =>
    rw [ht] at h
    dsimp only at h
    split at h
    · rw [PyStr.text?_eq_some.mp ht, ← Except.ok.inj h]
      rfl
    · exact nomatch h

/-- The tag ends at the first NUL. -/
theorem append_nul_inj {xs ys cs ds : List Char} (hx : Char.ofNat 0 ∉ xs) (hy : Char.ofNat 0 ∉ ys)
    (h : xs ++ Char.ofNat 0 :: cs = ys ++ Char.ofNat 0 :: ds) : xs = ys ∧ cs = ds := by
  induction xs generalizing ys with
  | nil =>
    cases ys with
    | nil => exact ⟨rfl, (List.cons.inj h).2⟩
    | cons y ys => exact absurd (List.cons.inj h).1 (fun heq => hy (heq ▸ List.mem_cons_self))
  | cons x xs ih =>
    cases ys with
    | nil => exact absurd (List.cons.inj h).1 (fun heq => hx (heq ▸ List.mem_cons_self))
    | cons y ys =>
      obtain ⟨rfl, htail⟩ := List.cons.inj h
      obtain ⟨rfl, hcs⟩ := ih (fun hmem => hx (List.mem_cons_of_mem _ hmem))
        (fun hmem => hy (List.mem_cons_of_mem _ hmem)) htail
      exact ⟨rfl, hcs⟩

/-- The preimage of the hash is the tag and the text. -/
theorem preimage_eq_iff {tag tag' : PyStr} (htag : IsTag tag) (htag' : IsTag tag') {v w : Raw}
    (hv : InModel (governed v)) (hw : InModel (governed w)) :
    preimage env tag v = preimage env tag' w ↔
      tag = tag' ∧ canonicalBytes env v = canonicalBytes env w := by
  obtain ⟨cs, hcs, hnul⟩ := htag
  obtain ⟨cs', hcs', hnul'⟩ := htag'
  have hpre {tag : PyStr} {cs : List Char} {v : Raw} (hcs : encodeTag tag = .ok cs)
      (hv : InModel (governed v)) : preimage env tag v = .ok (text (cs ++ Char.ofNat 0 ::
        Json.render ⟨false, false⟩ (doc env (governed v)))) := by
    rw [preimage, hcs, canonicalBytes_ok hv]
    rfl
  rw [hpre hcs hv, hpre hcs' hw, canonicalBytes_ok hv, canonicalBytes_ok hw, Except.ok.injEq,
    Except.ok.injEq]
  constructor
  · intro h
    obtain ⟨rfl, hbytes⟩ := append_nul_inj hnul hnul' (text_injective h)
    rw [encodeTag_ok hcs, encodeTag_ok hcs']
    exact ⟨rfl, hbytes⟩
  · rintro ⟨rfl, hbytes⟩
    rw [hcs, Except.ok.injEq] at hcs'
    rw [hcs', hbytes]

/-- When CK-CANON keeps its promise, and what it then says of two values and their hashes. -/
theorem ck_canon_laws (env : Env) (hnfc : ∀ s, nfc env (nfc env s) = nfc env s)
    (hext : ∀ s, nfc env s = "ext" → s = "ext") :
    (∀ v : Value, Canonical env v ↔ Meets env v) ∧
      ∀ v w : Value, InModel (governed v.raw) → InModel (governed w.raw) → Meets env v →
        Meets env w →
          (canonicalBytes env v.raw = canonicalBytes env w.raw ↔ Same env v.raw w.raw) ∧
          ∀ tag tag', IsTag tag → IsTag tag' →
            (preimage env tag v.raw = preimage env tag' w.raw ↔
              tag = tag' ∧ Same env v.raw w.raw) := by
  refine ⟨canonical_iff hnfc hext, fun v w hv hw hmv hmw => ?_⟩
  have hiff := canonicalBytes_eq_iff hv hw (hmv.ordered hv) (hmw.ordered hw)
  refine ⟨hiff, fun tag tag' htag htag' => ?_⟩
  rw [preimage_eq_iff htag htag' hv hw, hiff]

/-! ### Values the promise is broken for -/

/-- The sample environment with one composition: an `e` and an acute accent. -/
def composingEnv : Env :=
  { sampleEnv with nfcNonAscii := fun s => if s = "e\u0301" then "\u00e9" else s }

theorem nfc_composing (s : String) :
    nfc composingEnv s = if s = "e\u0301" then "\u00e9" else s := by
  unfold nfc
  by_cases hs : isAscii s = true
  · rw [if_pos hs, if_neg]
    rintro rfl
    exact absurd hs (by decide)
  · rw [if_neg hs]
    rfl

theorem nfc_nfc_composing (s : String) :
    nfc composingEnv (nfc composingEnv s) = nfc composingEnv s := by
  rw [nfc_composing s]
  split
  · decide
  · rename_i hs
    rw [nfc_composing, if_neg hs]

theorem nfc_composing_ext (s : String) (h : nfc composingEnv s = "ext") : s = "ext" := by
  rw [nfc_composing] at h
  split at h
  · exact absurd h (by decide)
  · exact h

/-- An object with two members of the given keys, with the values 1 and 2. -/
def pairOf (k l : Key) (h : k ≠ l) : Value where
  raw := .dict [(k, .int 1), (l, .int 2)]
  once := by
    refine everyObject_dict.mpr ⟨by simpa using h, ?_⟩
    intro kv hkv
    rw [List.mem_pair] at hkv
    rcases hkv with rfl | rfl
    · exact fun kvs hkvs => nomatch hkvs
    · exact fun kvs hkvs => nomatch hkvs

theorem ordered_pairOf {k l : Key} {h : k ≠ l}
    (hnames : ((byUnits [(k, Raw.int 1), (l, Raw.int 2)]).map fun kv =>
      name env kv.1).Pairwise fun a b => CkCanon.utf16 a < CkCanon.utf16 b) :
    Ordered env (pairOf k l h).raw := by
  refine everyObject_dict.mpr ⟨hnames, ?_⟩
  intro kv hkv
  rw [List.mem_pair] at hkv
  rcases hkv with rfl | rfl
  · exact fun kvs hkvs => nomatch hkvs
  · exact fun kvs hkvs => nomatch hkvs

/-- Two spellings of one object, in the order of their normal forms. -/
theorem ck_canon_laws_spellings :
    Canonical composingEnv (pairOf (.str (PyStr.lit "a")) (.str (PyStr.lit "e\u0301")) (by decide)) ∧
      (canonicalBytes composingEnv
          (pairOf (.str (PyStr.lit "a")) (.str (PyStr.lit "e\u0301")) (by decide)).raw =
        canonicalBytes composingEnv
          (pairOf (.str (PyStr.lit "a")) (.str (PyStr.lit "\u00e9")) (by decide)).raw ↔
        Same composingEnv
          (pairOf (.str (PyStr.lit "a")) (.str (PyStr.lit "e\u0301")) (by decide)).raw
          (pairOf (.str (PyStr.lit "a")) (.str (PyStr.lit "\u00e9")) (by decide)).raw) := by
  obtain ⟨hcanonical, hpair⟩ :=
    ck_canon_laws composingEnv nfc_nfc_composing nfc_composing_ext
  have hmeets (l : Key) (h : .str (PyStr.lit "a") ≠ l)
      (hmodel : InModel (governed (pairOf (.str (PyStr.lit "a")) l h).raw))
      (hordered : Ordered composingEnv (governed (pairOf (.str (PyStr.lit "a")) l h).raw)) :
      Meets composingEnv (pairOf (.str (PyStr.lit "a")) l h) := by
    refine ⟨fun d ds hdefects => ?_, fun _ => hordered⟩
    rw [show defects _ = [] from hmodel] at hdefects
    exact nomatch hdefects
  have hv : InModel (governed
      (pairOf (.str (PyStr.lit "a")) (.str (PyStr.lit "e\u0301")) (by decide)).raw) := by
    show defects _ = []
    decide +kernel
  have hw : InModel (governed
      (pairOf (.str (PyStr.lit "a")) (.str (PyStr.lit "\u00e9")) (by decide)).raw) := by
    show defects _ = []
    decide +kernel
  have hmv := hmeets _ _ hv
    (@ordered_pairOf composingEnv (.str (PyStr.lit "a")) (.str (PyStr.lit "e\u0301")) (by decide)
      (by decide +kernel))
  have hmw := hmeets _ _ hw
    (@ordered_pairOf composingEnv (.str (PyStr.lit "a")) (.str (PyStr.lit "\u00e9")) (by decide)
      (by decide +kernel))
  exact ⟨(hcanonical _).mpr hmv, (hpair _ _ hv hw hmv hmw).1⟩

/-- Two spellings of one object with two texts, an object with one name twice, and two malformed
    keys that the sort meets first. -/
theorem spellings_not_canonical :
    (canonicalBytes composingEnv
          (.dict [(.str (PyStr.lit "e\u0301"), .int 1), (.str (PyStr.lit "f"), .int 2)]) =
        .ok "\x7b\"\u00e9\":1,\"f\":2\x7d".toList ∧
      canonicalBytes composingEnv
          (.dict [(.str (PyStr.lit "\u00e9"), .int 1), (.str (PyStr.lit "f"), .int 2)]) =
        .ok "\x7b\"f\":2,\"\u00e9\":1\x7d".toList ∧
      Same composingEnv
        (.dict [(.str (PyStr.lit "e\u0301"), .int 1), (.str (PyStr.lit "f"), .int 2)])
        (.dict [(.str (PyStr.lit "\u00e9"), .int 1), (.str (PyStr.lit "f"), .int 2)])) ∧
      canonicalBytes composingEnv
          (.dict [(.str (PyStr.lit "e\u0301"), .int 1), (.str (PyStr.lit "\u00e9"), .int 2)]) =
        .ok "\x7b\"\u00e9\":1,\"\u00e9\":2\x7d".toList ∧
      canonicalBytes composingEnv (.dict [(.other "3", .int 1)]) = .error .attributeError ∧
      canonicalBytes composingEnv (.dict [(.str [.surrogate 0], .int 1)]) =
        .error .unicodeEncodeError ∧
      ¬∀ v : Value, Canonical composingEnv v := by
  have hkey : canonicalBytes composingEnv (.dict [(.other "3", .int 1)]) =
      .error .attributeError := by decide +kernel
  refine ⟨⟨by decide +kernel, by decide +kernel, ?_⟩, by decide +kernel, hkey, by decide +kernel,
    fun h => ?_⟩
  · have hnormal : normalize composingEnv (governed
          (.dict [(.str (PyStr.lit "e\u0301"), .int 1), (.str (PyStr.lit "f"), .int 2)])) =
        normalize composingEnv (governed
          (.dict [(.str (PyStr.lit "\u00e9"), .int 1), (.str (PyStr.lit "f"), .int 2)])) := by
      simp [governed, normalize_dict, normalItem, normalKey, normalString, nfc_composing, normalize]
    rw [Same, hnormal]
    exact equal_refl _
  · have honce : KeysOnce (.dict [(.other "3", .int 1)]) := by
      refine everyObject_dict.mpr ⟨by simp, ?_⟩
      intro kv hkv
      rw [List.mem_singleton] at hkv
      subst hkv
      exact fun kvs hkvs => nomatch hkvs
    have hmodel : ¬InModel (governed (.dict [(.other "3", .int 1)])) := by
      show defects _ ≠ []
      decide +kernel
    obtain ⟨reason, hreason⟩ := (h ⟨_, honce⟩).rejected hmodel
    rw [hkey] at hreason
    exact nomatch hreason

end CkValue

end Ugk
