import Mathlib.Data.List.Forall2

/-!
# Traversals that may fail

`xs.mapM f` for an `f` that may raise: it returns exactly when `f` returns on every entry, and then
entry by entry.

## Key results

- `mapM_ok_iff`: a traversal that returns, entry by entry
- `exists_mapM_iff`: when a traversal returns
- `mapM_filter`: filtering before a traversal is filtering after it
-/

/-- A mapped result is there when the result is. -/
theorem Except.map_eq_ok_iff {ε α β : Type} {x : Except ε α} {g : α → β} {b : β} :
    x.map g = .ok b ↔ ∃ a, x = .ok a ∧ g a = b := by
  cases x <;> simp [Except.map]

/-- A sequence of two steps returns when both do. -/
theorem Except.bind_eq_ok_iff {ε α β : Type} {x : Except ε α} {g : α → Except ε β} {b : β} :
    x >>= g = .ok b ↔ ∃ a, x = .ok a ∧ g a = .ok b := by
  cases x <;> simp [bind, Except.bind]

variable {ε α β : Type} {f : α → Except ε β} {xs : List α} {ys : List β}

theorem forall₂_mem_left {R : α → β → Prop} (h : List.Forall₂ R xs ys) {x : α} (hx : x ∈ xs) :
    ∃ y ∈ ys, R x y := by
  induction h with
  | nil => exact nomatch hx
  | @cons x' y xs ys hxy _ ih =>
    obtain rfl | hx := List.mem_cons.mp hx
    · exact ⟨y, List.mem_cons_self, hxy⟩
    · obtain ⟨z, hz, hR⟩ := ih hx
      exact ⟨z, List.mem_cons_of_mem y hz, hR⟩

theorem forall₂_mem_right {R : α → β → Prop} (h : List.Forall₂ R xs ys) {y : β} (hy : y ∈ ys) :
    ∃ x ∈ xs, R x y :=
  forall₂_mem_left (R := flip R) h.flip hy

/-- Two lists with one image, entry by entry. -/
theorem forall₂_eq_iff_map {γ : Type} {g : α → γ} {k : β → γ} :
    List.Forall₂ (fun x y => g x = k y) xs ys ↔ xs.map g = ys.map k := by
  rw [← List.forall₂_eq_eq_eq, List.forall₂_map_left_iff, List.forall₂_map_right_iff]

/-- A traversal returns exactly when it does on every entry. -/
theorem mapM_ok_iff : xs.mapM f = .ok ys ↔ List.Forall₂ (fun x y => f x = .ok y) xs ys := by
  induction xs generalizing ys with
  | nil =>
    rw [List.forall₂_nil_left_iff]
    exact ⟨fun h => (Except.ok.inj h).symm, fun h => h ▸ rfl⟩
  | cons x xs ih =>
    rw [List.mapM_cons, List.forall₂_cons_left_iff]
    constructor
    · intro h
      cases hx : f x with
      | error e =>
        rw [hx] at h
        exact nomatch h
      | ok y =>
        cases hxs : xs.mapM f with
        | error e =>
          rw [hx, hxs] at h
          exact nomatch h
        | ok zs =>
          rw [hx, hxs] at h
          exact ⟨y, zs, rfl, ih.mp hxs, (Except.ok.inj h).symm⟩
    · rintro ⟨y, zs, hy, hzs, rfl⟩
      rw [hy, ih.mpr hzs]
      rfl

/-- Without the results: a traversal returns when `f` does on every entry. -/
theorem exists_mapM_iff : (∃ ys, xs.mapM f = .ok ys) ↔ ∀ x ∈ xs, ∃ y, f x = .ok y := by
  constructor
  · rintro ⟨ys, h⟩ x hx
    obtain ⟨y, -, hy⟩ := forall₂_mem_left (mapM_ok_iff.mp h) hx
    exact ⟨y, hy⟩
  · intro h
    induction xs with
    | nil => exact ⟨[], rfl⟩
    | cons x xs ih =>
      obtain ⟨y, hy⟩ := h x List.mem_cons_self
      obtain ⟨ys, hys⟩ := ih fun z hz => h z (List.mem_cons_of_mem x hz)
      exact ⟨y :: ys, mapM_ok_iff.mpr (.cons hy (mapM_ok_iff.mp hys))⟩

theorem length_of_mapM (h : xs.mapM f = .ok ys) : ys.length = xs.length :=
  (mapM_ok_iff.mp h).length_eq.symm

/-- Filtering before a traversal is filtering after it. -/
theorem mapM_filter {p : α → Bool} {q : β → Bool} (h : xs.mapM f = .ok ys)
    (hpq : ∀ x y, f x = .ok y → p x = q y) : (xs.filter p).mapM f = .ok (ys.filter q) := by
  rw [mapM_ok_iff] at h ⊢
  refine List.rel_filter (fun x y hxy => ?_) h
  show p x = true ↔ q y = true
  rw [hpq x y hxy]

/-- What `f` leaves alone is the same before and after a traversal. -/
theorem map_of_mapM {γ : Type} {g : α → γ} {k : β → γ} (h : xs.mapM f = .ok ys)
    (hgk : ∀ x y, f x = .ok y → k y = g x) : ys.map k = xs.map g := by
  rw [mapM_ok_iff] at h
  induction h with
  | nil => rfl
  | cons hxy _ ih => rw [List.map_cons, List.map_cons, hgk _ _ hxy, ih]

/-- Traversals that agree entry by entry are the same. -/
theorem mapM_congr_forall₂ {γ : Type} {g : γ → Except ε β} {zs : List γ}
    (h : List.Forall₂ (fun x z => f x = g z) xs zs) : xs.mapM f = zs.mapM g := by
  induction h with
  | nil => rfl
  | cons hxz _ ih => rw [List.mapM_cons, List.mapM_cons, hxz, ih]
