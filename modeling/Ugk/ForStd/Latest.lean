import Mathlib.Data.List.Pairwise
import Mathlib.Data.List.Sort
import Mathlib.Order.Defs.LinearOrder

/-!
# Latest entries

A table of entries in the order they were added, read back by a key: `ORDER BY key` may list the
entries of one key in any order, and the first of the descending order may be any of the latest.
When the keys increase from entry to entry, both readings are the order of the table.

## Key results

- `latest_concat_iff`: of increasing entries the last one is the latest
- `ordered_unique_iff`: the reading by key is the order of the table exactly when the keys increase
-/

namespace Latest

variable {α κ : Type*} [LinearOrder κ] (key : α → κ)

/-- One of the entries with the greatest key. -/
def IsLatest (xs : List α) (x : α) : Prop := x ∈ xs ∧ ∀ y ∈ xs, key y ≤ key x

/-- A reading of the table in the order of the keys. -/
def Ordered (xs l : List α) : Prop := l.Perm xs ∧ l.Pairwise fun x y => key x ≤ key y

/-- The keys increase from entry to entry. -/
def Increasing (xs : List α) : Prop := xs.Pairwise fun x y => key x < key y

variable {key} {xs : List α} {x y : α}

theorem increasing_concat :
    Increasing key (xs ++ [x]) ↔ Increasing key xs ∧ ∀ y ∈ xs, key y < key x := by
  unfold Increasing
  rw [List.pairwise_append]
  simp

theorem latest_concat_iff (h : Increasing key (xs ++ [x])) :
    IsLatest key (xs ++ [x]) y ↔ y = x := by
  obtain ⟨-, hlast⟩ := increasing_concat.mp h
  constructor
  · rintro ⟨hmem, hmax⟩
    rcases List.mem_append.mp hmem with hy | hy
    · exact absurd (hmax x (by simp)) (not_le.mpr (hlast y hy))
    · exact List.mem_singleton.mp hy
  · rintro rfl
    refine ⟨by simp, fun z hz => ?_⟩
    rcases List.mem_append.mp hz with hz | hz
    · exact le_of_lt (hlast z hz)
    · exact le_of_eq (congrArg key (List.mem_singleton.mp hz))

theorem ordered_self (h : Increasing key xs) : Ordered key xs xs :=
  ⟨List.Perm.refl xs, h.imp le_of_lt⟩

theorem ordered_of_increasing (h : Increasing key xs) {l : List α} (hl : Ordered key xs l) :
    l = xs := by
  have hdistinct : xs.Pairwise fun a b => key a ≠ key b := h.imp ne_of_lt
  refine @List.Perm.eq_of_pairwise _ (fun a b => key a ≤ key b) _ _ ?_ hl.2 (h.imp le_of_lt) hl.1
  intro a b ha hb hab hba
  have hsame : key a = key b := le_antisymm hab hba
  have ha' : a ∈ xs := hl.1.mem_iff.mp ha
  have hsymm : Std.Symm fun a b : α => key a ≠ key b := ⟨fun _ _ h => h.symm⟩
  by_contra hne
  exact hdistinct.forall ha' hb hne hsame

/-- There is always a reading. -/
theorem exists_ordered (xs : List α) : ∃ l, Ordered key xs l := by
  refine ⟨xs.insertionSort fun a b => key a ≤ key b, List.perm_insertionSort _ xs, ?_⟩
  have htotal : Std.Total fun a b : α => key a ≤ key b := ⟨fun a b => le_total (key a) (key b)⟩
  have htrans : IsTrans α fun a b => key a ≤ key b := ⟨fun a b c => le_trans⟩
  exact List.pairwise_insertionSort _ xs

/-- Two neighbours with one key could be read in either order. -/
theorem increasing_of_unique (hnodup : xs.Nodup) (h : ∀ l, Ordered key xs l → l = xs) :
    Increasing key xs := by
  induction xs with
  | nil => exact List.Pairwise.nil
  | cons a t ih =>
    obtain ⟨l, hl⟩ := @exists_ordered _ _ _ key (a :: t)
    have hsorted : (a :: t).Pairwise fun x y => key x ≤ key y := h l hl ▸ hl.2
    obtain ⟨hhead, htail⟩ := List.pairwise_cons.mp hsorted
    have hunique : ∀ l, Ordered key t l → l = t := by
      intro l hl
      have hcons : Ordered key (a :: t) (a :: l) := by
        refine ⟨hl.1.cons a, List.pairwise_cons.mpr ⟨fun y hy => ?_, hl.2⟩⟩
        exact hhead y (hl.1.mem_iff.mp hy)
      exact (List.cons.inj (h _ hcons)).2
    refine List.pairwise_cons.mpr ⟨fun y hy => ?_, ih (List.nodup_cons.mp hnodup).2 hunique⟩
    refine lt_of_le_of_ne (hhead y hy) fun heq => ?_
    cases t with
    | nil => exact List.not_mem_nil hy
    | cons b t =>
      -- the head of the rest lies between `a` and `y`
      have hby : key b ≤ key y := by
        rcases List.mem_cons.mp hy with rfl | hy
        · exact le_rfl
        · exact (List.pairwise_cons.mp htail).1 y hy
      have hswap : Ordered key (a :: b :: t) (b :: a :: t) := by
        refine ⟨List.Perm.swap a b t, ?_⟩
        rw [List.pairwise_cons, List.pairwise_cons]
        refine ⟨fun z hz => ?_, fun z hz => hhead z (List.mem_cons_of_mem b hz),
          (List.pairwise_cons.mp htail).2⟩
        rcases List.mem_cons.mp hz with rfl | hz
        · exact heq ▸ hby
        · exact (List.pairwise_cons.mp htail).1 z hz
      have hab : b = a := (List.cons.inj (h _ hswap)).1
      exact (List.nodup_cons.mp hnodup).1 (hab ▸ List.mem_cons_self)

theorem ordered_unique_iff (hnodup : xs.Nodup) :
    (∀ l, Ordered key xs l → l = xs) ↔ Increasing key xs :=
  ⟨increasing_of_unique hnodup, fun h _ hl => ordered_of_increasing h hl⟩

end Latest
