import Mathlib.Data.List.Basic

/-!
# Tables under a key comparison

An insertion-ordered table whose keys are compared by a Boolean function, as the dictionaries of a
dynamic language compare theirs.  The comparison need not be lawful: the laws hold for the keys it
tells apart from every other key.

## Key results

- `get_put_self`, `get_put_of_ne`: a lookup after an insertion
- `get_drop_self`, `get_drop_of_ne`: a lookup after a removal
-/

namespace KeyTable

variable {κ ν : Type} (eq : κ → κ → Bool)

/-- The value under a key. -/
def get (t : List (κ × ν)) (k : κ) : Option ν := (t.find? fun e => eq e.1 k).map Prod.snd

/-- Is the key present? -/
def has (t : List (κ × ν)) (k : κ) : Bool := (get eq t k).isSome

/-- A present key keeps its place, and the spelling it has there. -/
def put (t : List (κ × ν)) (k : κ) (v : ν) : List (κ × ν) :=
  if has eq t k then t.map fun e => if eq e.1 k then (e.1, v) else e else t ++ [(k, v)]

/-- Remove a key. -/
def drop (t : List (κ × ν)) (k : κ) : List (κ × ν) := t.filter fun e => !eq e.1 k

/-- A key the comparison tells apart from every other key. -/
structure Exact (q : κ) : Prop where
  left : ∀ k, eq k q = true ↔ k = q
  right : ∀ k, eq q k = true ↔ k = q

variable {eq} {q : κ}

theorem get_nil : get eq ([] : List (κ × ν)) q = none := rfl

theorem get_cons (e : κ × ν) (t : List (κ × ν)) :
    get eq (e :: t) q = if eq e.1 q then some e.2 else get eq t q := by
  unfold get
  rw [List.find?_cons]
  cases eq e.1 q <;> rfl

theorem get_concat (t : List (κ × ν)) (e : κ × ν) :
    get eq (t ++ [e]) q = (get eq t q).or (if eq e.1 q then some e.2 else none) := by
  induction t with
  | nil => rw [List.nil_append, get_cons, get_nil, Option.none_or]
  | cons e' t ih =>
    rw [List.cons_append, get_cons, get_cons, ih]
    split
    · rfl
    · rfl

/-- Replacing the values under other keys leaves a lookup alone. -/
theorem get_map_of_ne (hq : Exact eq q) {k : κ} (hne : k ≠ q) (t : List (κ × ν)) (v : ν) :
    get eq (t.map fun e => if eq e.1 k then (e.1, v) else e) q = get eq t q := by
  induction t with
  | nil => rfl
  | cons e t ih =>
    rw [List.map_cons, get_cons, get_cons, ih]
    by_cases hk : eq e.1 k = true
    · rw [if_pos hk]
      have hfalse : ¬eq e.1 q = true := by
        intro h
        rw [(hq.left _).mp h] at hk
        exact hne ((hq.right k).mp hk)
      rw [if_neg hfalse, if_neg hfalse]
    · rw [if_neg hk]

/-- Replacing the value under the key itself. -/
theorem get_map_self (t : List (κ × ν)) (v : ν) (h : has eq t q = true) :
    get eq (t.map fun e => if eq e.1 q then (e.1, v) else e) q = some v := by
  induction t with
  | nil => exact absurd h (by simp [has, get_nil])
  | cons e t ih =>
    rw [List.map_cons, get_cons]
    by_cases hk : eq e.1 q = true
    · rw [if_pos hk, if_pos hk]
    · rw [if_neg hk, if_neg hk]
      rw [has, get_cons, if_neg hk] at h
      exact ih h

theorem get_put_self (hq : Exact eq q) (t : List (κ × ν)) (v : ν) :
    get eq (put eq t q v) q = some v := by
  unfold put
  by_cases h : has eq t q = true
  · rw [if_pos h]
    exact get_map_self t v h
  · rw [if_neg h, get_concat, if_pos ((hq.left q).mpr rfl)]
    have hnone : get eq t q = none := by
      rw [has, Bool.not_eq_true, Option.isSome_eq_false_iff, Option.isNone_iff_eq_none] at h
      exact h
    rw [hnone, Option.none_or]

theorem get_put_of_ne (hq : Exact eq q) {k : κ} (hne : k ≠ q) (t : List (κ × ν)) (v : ν) :
    get eq (put eq t k v) q = get eq t q := by
  unfold put
  split
  · exact get_map_of_ne hq hne t v
  · have hfalse : ¬eq k q = true := fun h => hne ((hq.left k).mp h)
    rw [get_concat, if_neg hfalse, Option.or_none]

theorem get_drop_self (t : List (κ × ν)) : get eq (drop eq t q) q = none := by
  unfold get drop
  rw [List.find?_filter, List.find?_eq_none.mpr]
  · rfl
  · intro e _ h
    cases hk : eq e.1 q <;> simp [hk] at h

theorem get_drop_of_ne (hq : Exact eq q) {k : κ} (hne : k ≠ q) (t : List (κ × ν)) :
    get eq (drop eq t k) q = get eq t q := by
  induction t with
  | nil => rfl
  | cons e t ih =>
    unfold drop at ih ⊢
    rw [List.filter_cons, get_cons]
    by_cases hk : eq e.1 k = true
    · have hfalse : ¬eq e.1 q = true := by
        intro h
        rw [(hq.left _).mp h] at hk
        exact hne ((hq.right k).mp hk)
      rw [if_neg (by rw [hk]; decide), if_neg hfalse, ih]
    · rw [if_pos (by simpa using hk), get_cons, ih]

/-- The keys of a table after an insertion. -/
theorem keys_put (t : List (κ × ν)) (k : κ) (v : ν) {x : κ}
    (h : x ∈ (put eq t k v).map Prod.fst) : x ∈ t.map Prod.fst ∨ x = k := by
  unfold put at h
  split at h
  · left
    rw [List.map_map] at h
    obtain ⟨e, he, rfl⟩ := List.mem_map.mp h
    refine List.mem_map.mpr ⟨e, he, ?_⟩
    simp only [Function.comp]
    split <;> rfl
  · rw [List.map_append, List.mem_append] at h
    exact h.imp id (by simp)

/-- The keys of a table after a removal. -/
theorem keys_drop (t : List (κ × ν)) (k : κ) {x : κ} (h : x ∈ (drop eq t k).map Prod.fst) :
    x ∈ t.map Prod.fst := by
  obtain ⟨e, he, rfl⟩ := List.mem_map.mp h
  exact List.mem_map_of_mem (List.mem_of_mem_filter he)

/-- The values of a table after an insertion. -/
theorem values_put (t : List (κ × ν)) (k : κ) (v : ν) {x : ν}
    (h : x ∈ (put eq t k v).map Prod.snd) : x ∈ t.map Prod.snd ∨ x = v := by
  unfold put at h
  split at h
  · obtain ⟨e', he', rfl⟩ := List.mem_map.mp h
    obtain ⟨e, he, rfl⟩ := List.mem_map.mp he'
    split
    · exact .inr rfl
    · exact .inl (List.mem_map_of_mem he)
  · rw [List.map_append, List.mem_append] at h
    exact h.imp id (by simp)

/-- The values of a table after a removal. -/
theorem values_drop (t : List (κ × ν)) (k : κ) {x : ν} (h : x ∈ (drop eq t k).map Prod.snd) :
    x ∈ t.map Prod.snd := by
  obtain ⟨e, he, rfl⟩ := List.mem_map.mp h
  exact List.mem_map_of_mem (List.mem_of_mem_filter he)

/-- What is found is a value of the table. -/
theorem mem_of_get {t : List (κ × ν)} {v : ν} (h : get eq t q = some v) : v ∈ t.map Prod.snd := by
  obtain ⟨e, he, rfl⟩ := Option.map_eq_some_iff.mp h
  exact List.mem_map_of_mem (List.mem_of_find?_eq_some he)

end KeyTable
