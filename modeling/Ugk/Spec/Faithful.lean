import Ugk.Spec.Durable
import Ugk.Spec.History

/-!
# What a canonical text determines

The canonical text of a value determines its document, and the document determines the normalised
value up to the order of dictionary entries and the way JSON writes a key.  Normalisation itself
keeps every entry exactly when no two keys of a dictionary have one normal form.

## Key results

- `same_of_toJson`: values with one document are the same
- `entryCount_normalize`, `memberCount_of_toJson`: no entry is lost
- `canonicalJson_faithful`: the canonical text and the state commitment determine their input
-/

namespace Ugk

open Store

variable {env : Env}

/-! ## The same value -/

mutual

/-- Equality of values as JSON documents see them: dictionaries by the entries under the names
    JSON writes, in any order, and a tuple as the list of its elements. -/
def Same : PyVal → PyVal → Prop
  | .none, .none => True
  | .bool a, .bool b => a = b
  | .int a, .int b => a = b
  | .float a, .float b => a = b
  | .str a, .str b => a = b
  | .list xs, .list ys => SameList xs ys
  | .list xs, .tuple ys => SameList xs ys
  | .tuple xs, .list ys => SameList xs ys
  | .tuple xs, .tuple ys => SameList xs ys
  | .dict kvs, .dict kvs' => kvs.length = kvs'.length ∧ SameItems kvs kvs'
  | _, _ => False
termination_by structural v => v

/-- Equality of lists, element by element. -/
def SameList : List PyVal → List PyVal → Prop
  | [], [] => True
  | x :: xs, y :: ys => Same x y ∧ SameList xs ys
  | _, _ => False
termination_by structural xs => xs

/-- Every entry has a counterpart. -/
def SameItems : List (PyKey × PyVal) → List (PyKey × PyVal) → Prop
  | [], _ => True
  | m :: ms, other => SameItem m other ∧ SameItems ms other
termination_by structural ms => ms

/-- An entry has a counterpart. -/
def SameItem : PyKey × PyVal → List (PyKey × PyVal) → Prop
  | (k, v), other => ∃ m ∈ other, keyText false k = keyText false m.1 ∧ Same v m.2
termination_by structural m => m

end

/-- One member of a dictionary and of its document. -/
def MemberDoc (env : Env) (allowNan : Bool) (m : PyKey × PyVal) (item : PyKey × (String × Json)) :
    Prop :=
  item.1 = m.1 ∧ keyText allowNan m.1 = .ok item.2.1 ∧ toJson env allowNan m.2 = .ok item.2.2

theorem toJsonItem_ok {allowNan : Bool} {m : PyKey × PyVal} {item : PyKey × (String × Json)}
    (h : toJsonItem env allowNan m = .ok item) : MemberDoc env allowNan m item := by
  obtain ⟨k, v⟩ := m
  rw [toJsonItem] at h
  cases hk : keyText allowNan k with
  | error e => rw [hk] at h; cases h
  | ok name =>
    rw [hk] at h
    obtain ⟨j, hj, rfl⟩ := Except.map_eq_ok h
    exact ⟨rfl, hk, hj⟩

theorem toJsonItems_ok {allowNan : Bool} {kvs : List (PyKey × PyVal)}
    {items : List (PyKey × (String × Json))} (h : toJsonItems env allowNan kvs = .ok items) :
    List.Forall₂ (MemberDoc env allowNan) kvs items := by
  induction kvs generalizing items with
  | nil => rw [toJsonItems] at h; cases h; exact .nil
  | cons m ms ih =>
    rw [toJsonItems] at h
    cases hm : toJsonItem env allowNan m with
    | error e => rw [hm] at h; cases h
    | ok item =>
      rw [hm] at h
      obtain ⟨more, hmore, rfl⟩ := Except.map_eq_ok h
      exact .cons (toJsonItem_ok hm) (ih hmore)

/-- A dictionary's document lists its members in some order. -/
theorem toJson_dict_ok {allowNan : Bool} {kvs : List (PyKey × PyVal)} {j : Json}
    (h : toJson env allowNan (.dict kvs) = .ok j) :
    ∃ items, List.Forall₂ (MemberDoc env allowNan) kvs items ∧
      ∃ members, j = .obj members ∧ members.Perm (items.map Prod.snd) := by
  rw [toJson] at h
  split at h
  · obtain ⟨items, hitems, rfl⟩ := Except.map_eq_ok h
    exact ⟨items, toJsonItems_ok hitems, _, rfl, (List.perm_insertionSort _ _).map _⟩
  · cases h

theorem toJsonList_ok_nil {allowNan : Bool} {ys : List PyVal}
    (h : toJsonList env allowNan ys = .ok []) : ys = [] := by
  cases ys with
  | nil => rfl
  | cons y ys =>
    rw [toJsonList] at h
    split at h
    · cases h
    · obtain ⟨_, _, h⟩ := Except.map_eq_ok h
      cases h

theorem toJsonList_ok_cons {allowNan : Bool} {ys : List PyVal} {j : Json} {js : List Json}
    (h : toJsonList env allowNan ys = .ok (j :: js)) :
    ∃ y rest, ys = y :: rest ∧ toJson env allowNan y = .ok j ∧
      toJsonList env allowNan rest = .ok js := by
  cases ys with
  | nil => rw [toJsonList] at h; cases h
  | cons y rest =>
    rw [toJsonList] at h
    cases hy : toJson env allowNan y with
    | error e => rw [hy] at h; cases h
    | ok k =>
      rw [hy] at h
      obtain ⟨more, hmore, hcons⟩ := Except.map_eq_ok h
      obtain ⟨rfl, rfl⟩ := List.cons.inj hcons
      exact ⟨y, rest, rfl, hy, hmore⟩

/-- What a value with a given document looks like. -/
def Documented (env : Env) (w : PyVal) : Json → Prop
  | .null => w = .none
  | .bool b => w = .bool b
  | .int n => w = .int n
  | .float x => w = .float (.fin x)
  | .nonFinite _ => False
  | .str s => w = .str s
  | .arr js => ∃ ys, (w = .list ys ∨ w = .tuple ys) ∧ toJsonList env false ys = .ok js
  | .obj _ => ∃ kvs, w = .dict kvs

theorem documented_of_toJson {w : PyVal} {j : Json} (h : toJson env false w = .ok j) :
    Documented env w j := by
  cases w with
  | none => rw [toJson] at h; cases h; rfl
  | bool b => rw [toJson] at h; cases h; rfl
  | int n => rw [toJson] at h; cases h; rfl
  | float x =>
    rw [toJson] at h
    cases x with
    | fin x => cases h; rfl
    | nonFinite k => cases h
  | str s => rw [toJson] at h; cases h; rfl
  | list ys =>
    rw [toJson] at h
    obtain ⟨js, hjs, rfl⟩ := Except.map_eq_ok h
    exact ⟨ys, .inl rfl, hjs⟩
  | tuple ys =>
    rw [toJson] at h
    obtain ⟨js, hjs, rfl⟩ := Except.map_eq_ok h
    exact ⟨ys, .inr rfl, hjs⟩
  | dict kvs =>
    obtain ⟨_, _, _, rfl, _⟩ := toJson_dict_ok h
    exact ⟨kvs, rfl⟩
  | other name => rw [toJson] at h; cases h

/-- An element on the left has its partner on the right. -/
theorem exists_mem_of_forall₂ {α β : Type} {R : α → β → Prop} {xs : List α} {ys : List β}
    (h : List.Forall₂ R xs ys) {x : α} (hx : x ∈ xs) : ∃ y ∈ ys, R x y := by
  induction h with
  | nil => exact absurd hx List.not_mem_nil
  | cons hab _ ih =>
    rcases List.mem_cons.mp hx with rfl | hx
    · exact ⟨_, by simp, hab⟩
    · obtain ⟨y, hy, hR⟩ := ih hx
      exact ⟨y, by simp [hy], hR⟩

/-- Two entries under one name with one document. -/
def SameDocEntry (env : Env) (m m' : PyKey × PyVal) : Prop :=
  keyText false m.1 = keyText false m'.1 ∧
    ∃ j, toJson env false m.2 = .ok j ∧ toJson env false m'.2 = .ok j

/-- Dictionaries with one document have their entries in common. -/
theorem entries_of_toJson {kvs kvs' : List (PyKey × PyVal)} {j : Json}
    (h : toJson env false (.dict kvs) = .ok j) (h' : toJson env false (.dict kvs') = .ok j) :
    kvs.length = kvs'.length ∧ ∀ m ∈ kvs, ∃ m' ∈ kvs', SameDocEntry env m m' := by
  obtain ⟨items, hitems, members, rfl, hperm⟩ := toJson_dict_ok h
  obtain ⟨items', hitems', members', hj, hperm'⟩ := toJson_dict_ok h'
  obtain rfl := Json.obj.inj hj
  have hitemperm := hperm.symm.trans hperm'
  constructor
  · have hlen := hitemperm.length_eq
    rw [List.length_map, List.length_map] at hlen
    rw [hitems.length_eq, hitems'.length_eq, hlen]
  · intro m hm
    obtain ⟨item, hitem, _, hname, hdoc⟩ := exists_mem_of_forall₂ hitems hm
    have hmem : item.2 ∈ items'.map Prod.snd := hitemperm.subset (List.mem_map_of_mem hitem)
    obtain ⟨item', hitem', hsnd⟩ := List.mem_map.mp hmem
    obtain ⟨m', hm', _, hname', hdoc'⟩ := exists_mem_of_forall₂ hitems'.flip hitem'
    rw [hsnd] at hname' hdoc'
    exact ⟨m', hm', hname.trans hname'.symm, _, hdoc, hdoc'⟩

mutual

/-- Values with one document are the same. -/
theorem same_of_toJson : (v w : PyVal) → {j : Json} → toJson env false v = .ok j →
    toJson env false w = .ok j → Same v w
  | .none, w, j, hv, hw => by
    rw [toJson] at hv
    cases hv
    cases documented_of_toJson hw
    exact trivial
  | .bool b, w, j, hv, hw => by
    rw [toJson] at hv
    cases hv
    cases documented_of_toJson hw
    exact rfl
  | .int n, w, j, hv, hw => by
    rw [toJson] at hv
    cases hv
    cases documented_of_toJson hw
    exact rfl
  | .float x, w, j, hv, hw => by
    rw [toJson] at hv
    cases x with
    | fin x =>
      cases hv
      cases documented_of_toJson hw
      exact rfl
    | nonFinite k => exact nomatch hv
  | .str s, w, j, hv, hw => by
    rw [toJson] at hv
    cases hv
    cases documented_of_toJson hw
    exact rfl
  | .list xs, w, j, hv, hw => by
    rw [toJson] at hv
    obtain ⟨js, hjs, rfl⟩ := Except.map_eq_ok hv
    obtain ⟨ys, hw, hys⟩ := documented_of_toJson hw
    have hsame := sameList_of_toJson xs ys hjs hys
    rcases hw with rfl | rfl
    · exact hsame
    · exact hsame
  | .tuple xs, w, j, hv, hw => by
    rw [toJson] at hv
    obtain ⟨js, hjs, rfl⟩ := Except.map_eq_ok hv
    obtain ⟨ys, hw, hys⟩ := documented_of_toJson hw
    have hsame := sameList_of_toJson xs ys hjs hys
    rcases hw with rfl | rfl
    · exact hsame
    · exact hsame
  | .dict kvs, w, j, hv, hw => by
    obtain ⟨_, _, members, rfl, _⟩ := toJson_dict_ok hv
    obtain ⟨kvs', rfl⟩ := documented_of_toJson hw
    obtain ⟨hlen, hentries⟩ := entries_of_toJson hv hw
    exact ⟨hlen, sameItems_of_entries kvs kvs' hentries⟩
  | .other name, w, j, hv, hw => by
    rw [toJson] at hv
    exact nomatch hv
termination_by structural v => v

theorem sameList_of_toJson : (xs ys : List PyVal) → {js : List Json} →
    toJsonList env false xs = .ok js → toJsonList env false ys = .ok js → SameList xs ys
  | [], ys, js, hx, hy => by
    rw [toJsonList] at hx
    cases hx
    cases toJsonList_ok_nil hy
    exact trivial
  | x :: xs, ys, js, hx, hy => by
    cases js with
    | nil => exact nomatch toJsonList_ok_nil hx
    | cons j js =>
      obtain ⟨y, rest, rfl, hyj, hrest⟩ := toJsonList_ok_cons hy
      obtain ⟨x', xs', hcons, hxj, hxs⟩ := toJsonList_ok_cons hx
      obtain ⟨rfl, rfl⟩ := List.cons.inj hcons
      exact ⟨same_of_toJson x y hxj hyj, sameList_of_toJson xs rest hxs hrest⟩
termination_by structural xs => xs

theorem sameItems_of_entries : (ms other : List (PyKey × PyVal)) →
    (∀ m ∈ ms, ∃ m' ∈ other, SameDocEntry env m m') → SameItems ms other
  | [], _, _ => trivial
  | m :: ms, other, h =>
    ⟨sameItem_of_entry m other (h m (by simp)),
      sameItems_of_entries ms other fun m' hm' => h m' (by simp [hm'])⟩
termination_by structural ms => ms

theorem sameItem_of_entry : (m : PyKey × PyVal) → (other : List (PyKey × PyVal)) →
    (∃ m' ∈ other, SameDocEntry env m m') → SameItem m other
  | (k, v), other, h => by
    obtain ⟨m', hm', hname, j, hj, hj'⟩ := h
    exact ⟨m', hm', hname, same_of_toJson v m'.2 hj hj'⟩
termination_by structural m => m

end

/-! ## No entry is lost -/

mutual

/-- The dictionary entries of a value, at all depths. -/
def entryCount : PyVal → Nat
  | .list xs => entryCountList xs
  | .tuple xs => entryCountList xs
  | .dict kvs => kvs.length + entryCountItems kvs
  | _ => 0
termination_by structural v => v

def entryCountList : List PyVal → Nat
  | [] => 0
  | x :: xs => entryCount x + entryCountList xs
termination_by structural xs => xs

def entryCountItems : List (PyKey × PyVal) → Nat
  | [] => 0
  | m :: ms => entryCountItem m + entryCountItems ms
termination_by structural ms => ms

def entryCountItem : PyKey × PyVal → Nat
  | (_, v) => entryCount v
termination_by structural m => m

end

mutual

/-- The object members of a document, at all depths. -/
def memberCount : Json → Nat
  | .arr xs => memberCountList xs
  | .obj ms => ms.length + memberCountMembers ms
  | _ => 0
termination_by structural j => j

def memberCountList : List Json → Nat
  | [] => 0
  | x :: xs => memberCount x + memberCountList xs
termination_by structural xs => xs

def memberCountMembers : List (String × Json) → Nat
  | [] => 0
  | m :: ms => memberCountMember m + memberCountMembers ms
termination_by structural ms => ms

def memberCountMember : String × Json → Nat
  | (_, j) => memberCount j
termination_by structural m => m

end

theorem memberCountMembers_eq (ms : List (String × Json)) :
    memberCountMembers ms = (ms.map fun m => memberCount m.2).sum := by
  induction ms with
  | nil => rfl
  | cons m ms ih =>
    rw [memberCountMembers, memberCountMember, List.map_cons, List.sum_cons, ih]

/-- The members of an object count the same in every order. -/
theorem memberCountMembers_perm {ms ms' : List (String × Json)} (h : ms.Perm ms') :
    memberCountMembers ms = memberCountMembers ms' := by
  rw [memberCountMembers_eq, memberCountMembers_eq, (h.map _).sum_nat]

mutual

/-- The document of a value has as many members as the value has entries. -/
theorem memberCount_of_toJson : (v : PyVal) → {j : Json} → toJson env false v = .ok j →
    memberCount j = entryCount v
  | .none, j, h => by rw [toJson] at h; cases h; rfl
  | .bool b, j, h => by rw [toJson] at h; cases h; rfl
  | .int n, j, h => by rw [toJson] at h; cases h; rfl
  | .float (.fin x), j, h => by rw [toJson] at h; cases h; rfl
  | .float (.nonFinite k), j, h => by rw [toJson] at h; exact nomatch h
  | .str s, j, h => by rw [toJson] at h; cases h; rfl
  | .list xs, j, h => by
    rw [toJson] at h
    obtain ⟨js, hjs, rfl⟩ := Except.map_eq_ok h
    exact memberCountList_of_toJson xs hjs
  | .tuple xs, j, h => by
    rw [toJson] at h
    obtain ⟨js, hjs, rfl⟩ := Except.map_eq_ok h
    exact memberCountList_of_toJson xs hjs
  | .dict kvs, j, h => by
    obtain ⟨items, hitems, members, rfl, hperm⟩ := toJson_dict_ok h
    have hlen := hperm.length_eq
    rw [List.length_map, ← hitems.length_eq] at hlen
    rw [memberCount, entryCount, hlen, memberCountMembers_perm hperm,
      memberCountMembers_of_items kvs hitems]
  | .other name, j, h => by rw [toJson] at h; exact nomatch h
termination_by structural v => v

theorem memberCountList_of_toJson : (xs : List PyVal) → {js : List Json} →
    toJsonList env false xs = .ok js → memberCountList js = entryCountList xs
  | [], js, h => by rw [toJsonList] at h; cases h; rfl
  | x :: xs, js, h => by
    cases js with
    | nil => exact nomatch toJsonList_ok_nil h
    | cons j js =>
      obtain ⟨x', xs', hcons, hj, hjs⟩ := toJsonList_ok_cons h
      obtain ⟨rfl, rfl⟩ := List.cons.inj hcons
      rw [memberCountList, entryCountList, memberCount_of_toJson x hj,
        memberCountList_of_toJson xs hjs]
termination_by structural xs => xs

theorem memberCountMembers_of_items : (kvs : List (PyKey × PyVal)) →
    {items : List (PyKey × (String × Json))} → List.Forall₂ (MemberDoc env false) kvs items →
    memberCountMembers (items.map Prod.snd) = entryCountItems kvs
  | [], items, h => by cases h; rfl
  | m :: ms, items, h => by
    cases h with
    | cons hm hms =>
      rw [List.map_cons, memberCountMembers, entryCountItems, memberCountMember_of_item m hm,
        memberCountMembers_of_items ms hms]
termination_by structural kvs => kvs

theorem memberCountMember_of_item : (m : PyKey × PyVal) → {item : PyKey × (String × Json)} →
    MemberDoc env false m item → memberCountMember item.2 = entryCountItem m
  | (k, v), item, h => by
    rw [memberCountMember, entryCountItem]
    exact memberCount_of_toJson v h.2.2
termination_by structural m => m

end

/-- A key under normalisation. -/
def nfcKey (env : Env) : PyKey → PyKey
  | .str s => .str (nfc env s)
  | k => k

mutual

/-- In every dictionary of the value the keys stay distinct under normalisation. -/
def distinctKeys (env : Env) : PyVal → Bool
  | .list xs => distinctKeysList env xs
  | .tuple xs => distinctKeysList env xs
  | .dict kvs =>
    decide (kvs.map fun m => nfcKey env m.1).Nodup && distinctKeysItems env kvs
  | _ => true
termination_by structural v => v

def distinctKeysList (env : Env) : List PyVal → Bool
  | [] => true
  | x :: xs => distinctKeys env x && distinctKeysList env xs
termination_by structural xs => xs

def distinctKeysItems (env : Env) : List (PyKey × PyVal) → Bool
  | [] => true
  | m :: ms => distinctKeysItem env m && distinctKeysItems env ms
termination_by structural ms => ms

def distinctKeysItem (env : Env) : PyKey × PyVal → Bool
  | (_, v) => distinctKeys env v
termination_by structural m => m

end

theorem normalizeItem_eq (m : PyKey × PyVal) :
    normalizeItem env m = (nfcKey env m.1, normalize env m.2) := by
  obtain ⟨k, v⟩ := m
  cases k <;> rfl

theorem normalizeItems_eq (kvs : List (PyKey × PyVal)) :
    normalizeItems env kvs = kvs.map fun m => (nfcKey env m.1, normalize env m.2) := by
  induction kvs with
  | nil => rfl
  | cons m ms ih => rw [normalizeItems, normalizeItem_eq, ih, List.map_cons]

/-- Normalisation keeps the entries of a dictionary whose keys stay distinct. -/
theorem normalize_dict {kvs : List (PyKey × PyVal)}
    (h : (kvs.map fun m => nfcKey env m.1).Nodup) :
    normalize env (.dict kvs) = .dict (kvs.map fun m => (nfcKey env m.1, normalize env m.2)) := by
  rw [normalize, normalizeItems_eq, PyDict.ofPairs_of_nodup (by rw [List.map_map]; exact h)]

mutual

/-- Normalisation loses no entry when the keys stay distinct. -/
theorem entryCount_normalize : (v : PyVal) → distinctKeys env v = true →
    entryCount (normalize env v) = entryCount v
  | .none, _ => rfl
  | .bool b, _ => rfl
  | .int n, _ => rfl
  | .float x, _ => rfl
  | .str s, _ => rfl
  | .other name, _ => rfl
  | .list xs, h => entryCountList_normalize xs h
  | .tuple xs, h => entryCountList_normalize xs h
  | .dict kvs, h => by
    rw [distinctKeys, Bool.and_eq_true, decide_eq_true_eq] at h
    rw [normalize_dict h.1, entryCount, entryCount, List.length_map,
      entryCountItems_normalize kvs h.2]
termination_by structural v => v

theorem entryCountList_normalize : (xs : List PyVal) → distinctKeysList env xs = true →
    entryCountList (normalizeList env xs) = entryCountList xs
  | [], _ => rfl
  | x :: xs, h => by
    rw [distinctKeysList, Bool.and_eq_true] at h
    rw [normalizeList, entryCountList, entryCountList, entryCount_normalize x h.1,
      entryCountList_normalize xs h.2]
termination_by structural xs => xs

theorem entryCountItems_normalize : (kvs : List (PyKey × PyVal)) →
    distinctKeysItems env kvs = true →
    entryCountItems (kvs.map fun m => (nfcKey env m.1, normalize env m.2)) = entryCountItems kvs
  | [], _ => rfl
  | m :: ms, h => by
    rw [distinctKeysItems, Bool.and_eq_true] at h
    rw [List.map_cons, entryCountItems, entryCountItems, entryCountItem_normalize m h.1,
      entryCountItems_normalize ms h.2]
termination_by structural kvs => kvs

theorem entryCountItem_normalize : (m : PyKey × PyVal) → distinctKeysItem env m = true →
    entryCountItem (nfcKey env m.1, normalize env m.2) = entryCountItem m
  | (k, v), h => by
    rw [entryCountItem, entryCountItem]
    exact entryCount_normalize v h
termination_by structural m => m

end

/-! ## The text and the state commitment -/

/-- Values with one document are the same after normalisation. -/
theorem same_of_sameDoc {v w : PyVal} {j : Json} (hj : canonicalDoc env v = .ok j)
    (h : SameDoc env v w) : Same (normalize env v) (normalize env w) := by
  have hw : canonicalDoc env w = .ok j := Eq.trans (Eq.symm h) hj
  exact same_of_toJson _ _ hj hw

/-- A canonical text is the rendering of a document. -/
theorem canonicalDoc_of_canonicalJson {v : PyVal} {cs : List Char}
    (h : canonicalJson env v = .ok cs) :
    ∃ j, canonicalDoc env v = .ok j ∧ cs = Json.render ⟨false, false⟩ j := by
  rw [canonicalJson] at h
  obtain ⟨j, hj, rfl⟩ := Except.map_eq_ok h
  exact ⟨j, hj, rfl⟩

/-- Where the keys of every dictionary stay distinct, the text has every entry. -/
theorem memberCount_of_canonicalJson {v : PyVal} {cs : List Char}
    (hkeys : distinctKeys env v = true) (h : canonicalJson env v = .ok cs) :
    ∃ j, cs = Json.render ⟨false, false⟩ j ∧ memberCount j = entryCount v := by
  obtain ⟨j, hj, hcs⟩ := canonicalDoc_of_canonicalJson h
  refine ⟨j, hcs, ?_⟩
  rw [memberCount_of_toJson _ hj, entryCount_normalize v hkeys]

/-- The parameters of a state commitment have a document. -/
theorem canonicalDoc_of_hS {op : String} {v : PyVal} {d : Digest} (h : hS env op v = .ok d) :
    ∃ j, canonicalDoc env v = .ok j := by
  obtain ⟨_, hcanon⟩ := isOk_hS_iff.mp (isOk_iff.mpr ⟨d, h⟩)
  exact isOk_iff.mp hcanon

/-- The canonical text determines its value after normalisation, it loses no entry of a value
    whose keys stay distinct, and under an injective hash the state commitment determines the
    operation and the parameters. -/
theorem canonicalJson_faithful (hinj : Function.Injective env.sha256) :
    (∀ v w cs, canonicalJson env v = .ok cs → canonicalJson env w = .ok cs →
      Same (normalize env v) (normalize env w)) ∧
    (∀ v cs, distinctKeys env v = true → canonicalJson env v = .ok cs →
      ∃ j, cs = Json.render ⟨false, false⟩ j ∧ memberCount j = entryCount v) ∧
    (∀ op op' v w d, hS env op v = .ok d → hS env op' w = .ok d →
      nfc env op = nfc env op' ∧ Same (normalize env v) (normalize env w)) := by
  refine ⟨?_, ?_, ?_⟩
  · intro v w cs hv hw
    obtain ⟨j, hj, _⟩ := canonicalDoc_of_canonicalJson hv
    exact same_of_sameDoc hj (canonicalJson_inj hv hw)
  · intro v cs hkeys hv
    exact memberCount_of_canonicalJson hkeys hv
  · intro op op' v w d hv hw
    obtain ⟨hop, hdoc⟩ := hS_determines hinj hv hw
    obtain ⟨j, hj⟩ := canonicalDoc_of_hS hv
    exact ⟨nfc_eq_of_sameDoc hop, same_of_sameDoc hj hdoc⟩

/-- The sample environment has an injective hash. -/
theorem canonicalJson_faithful_sample :
    (∀ v w cs, canonicalJson sampleEnv v = .ok cs → canonicalJson sampleEnv w = .ok cs →
      Same (normalize sampleEnv v) (normalize sampleEnv w)) ∧
    (∀ v cs, distinctKeys sampleEnv v = true → canonicalJson sampleEnv v = .ok cs →
      ∃ j, cs = Json.render ⟨false, false⟩ j ∧ memberCount j = entryCount v) ∧
    (∀ op op' v w d, hS sampleEnv op v = .ok d → hS sampleEnv op' w = .ok d →
      nfc sampleEnv op = nfc sampleEnv op' ∧
        Same (normalize sampleEnv v) (normalize sampleEnv w)) :=
  canonicalJson_faithful sampleHash_injective

/-! ## What the text leaves open -/

/-- An environment that composes one accented letter. -/
def composingEnv : Env :=
  { sampleEnv with nfcNonAscii := fun s => if s = "e\u0301" then "\u00e9" else s }

/-- A dictionary with the letter under both its spellings. -/
def twoSpellings : PyVal := .dict [(.str "e\u0301", .int 0), (.str "\u00e9", .int 1)]

/-- The commitments of a plain write in a deployment without registered edges. -/
theorem exists_commitments_plainWrite {authority : String} (hne : authority ≠ governorAuthority) :
    ∃ c, commitments (configOf sampleEnv) [authority] {} { plainWrite with authority := authority }
      (.dict []) = .ok c := by
  have hedge : edgeFor (configOf sampleEnv) [authority] authority =
      some (defaultEdge sampleEnv authority) := by
    rw [edgeFor]
    exact if_pos (List.mem_singleton.mpr rfl)
  have hwalk : walkPath (configOf sampleEnv) [authority] 3 [] authority =
      .ok [defaultEdge sampleEnv authority] := by
    rw [walkPath, if_neg hne, if_neg List.not_mem_nil, hedge]
    show Except.map _ (walkPath (configOf sampleEnv) [authority] 2 [authority]
      governorAuthority) = _
    rw [walkPath, if_pos rfl]
    rfl
  have hpath : canonicalPathFor (configOf sampleEnv) [authority] authority =
      .ok [defaultEdge sampleEnv authority] := by
    show Except.map List.reverse
      (walkPath (configOf sampleEnv) [authority] 3 [] authority) = _
    rw [hwalk]
    rfl
  refine isOk_iff.mp (isOk_commitments_iff.mpr ⟨?_, isOk_hS_iff.mpr ⟨⟨[], rfl⟩, rfl⟩⟩)
  show isOk (canonicalPathFor (configOf sampleEnv) [authority] authority >>=
    effectiveCapabilities) = true
  rw [hpath]
  show isOk (effectiveCapabilities [defaultEdge sampleEnv authority]) = true
  rw [effectiveCapabilities]
  rfl

/-- A key that is a number has the text of the key that spells it, two spellings of one key leave
    one entry, and writes under two authorities have one state commitment. -/
theorem canonicalJson_not_injective :
    (canonicalJson sampleEnv (.dict [(.int 1, .int 0)]) =
        canonicalJson sampleEnv (.dict [(.str "1", .int 0)]) ∧
      isOk (canonicalJson sampleEnv (.dict [(.int 1, .int 0)])) = true ∧
      nfcKey sampleEnv (.int 1) ≠ nfcKey sampleEnv (.str "1")) ∧
    (canonicalJson composingEnv twoSpellings = .ok "\x7b\"\u00e9\":1\x7d".toList ∧
      entryCount twoSpellings = 2) ∧
    (∃ c c', commitments (configOf sampleEnv) ["alice"] {}
        { plainWrite with authority := "alice" } (.dict []) = .ok c ∧
      commitments (configOf sampleEnv) ["mallory"] {}
        { plainWrite with authority := "mallory" } (.dict []) = .ok c' ∧ c.hS = c'.hS) := by
  refine ⟨⟨?_, ?_, ?_⟩, ⟨?_, ?_⟩, ?_⟩
  · decide +kernel
  · decide +kernel
  · decide
  · decide +kernel
  · decide
  · obtain ⟨c, hc⟩ := @exists_commitments_plainWrite "alice" (by decide)
    obtain ⟨c', hc'⟩ := @exists_commitments_plainWrite "mallory" (by decide)
    have hs := commitments_hS hc
    have hs' := commitments_hS hc'
    exact ⟨c, c', hc, hc', Except.ok.inj (hs.symm.trans hs')⟩

end Ugk
