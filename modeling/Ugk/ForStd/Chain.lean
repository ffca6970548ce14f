import Mathlib.Data.List.Chain
import Mathlib.Data.List.Forall2
import Mathlib.Data.List.Induction

/-!
# Hash chains

Entries that each carry a hash of their own and the hash of the entry before them.  When the own
hash of a valid entry determines the entry and its parent, the hash at the tip determines the whole
chain.
-/

namespace Chain

variable {α H : Type*} (own parent : α → H)

/-- Every entry names the hash of the one before it, the first one names `g`. -/
def Linked : H → List α → Prop
  | _, [] => True
  | g, x :: xs => parent x = g ∧ Linked (own x) xs

/-- The hash the next entry has to name. -/
def tip : H → List α → H
  | g, [] => g
  | _, x :: xs => tip (own x) xs

theorem linked_append (g : H) (xs ys : List α) :
    Linked own parent g (xs ++ ys) ↔
      Linked own parent g xs ∧ Linked own parent (tip own g xs) ys := by
  induction xs generalizing g with
  | nil => simp [Linked, tip]
  | cons x xs ih => simp [Linked, tip, ih, and_assoc]

theorem tip_append (g : H) (xs ys : List α) :
    tip own g (xs ++ ys) = tip own (tip own g xs) ys := by
  induction xs generalizing g with
  | nil => rfl
  | cons x xs ih => simp [tip, ih]

/-- One more entry extends a linked chain exactly when it names the tip. -/
theorem linked_concat (g : H) (xs : List α) (x : α) :
    Linked own parent g (xs ++ [x]) ↔ Linked own parent g xs ∧ parent x = tip own g xs := by
  rw [linked_append]
  simp [Linked]

@[simp] theorem tip_concat (g : H) (xs : List α) (x : α) : tip own g (xs ++ [x]) = own x := by
  rw [tip_append]
  rfl

variable {own parent}

/-- Chains of entries that carry the same hashes are linked together or not at all. -/
theorem linked_congr {β : Type*} {own' parent' : β → H} {xs : List α} {ys : List β} (g : H)
    (h : List.Forall₂ (fun x y => own x = own' y ∧ parent x = parent' y) xs ys) :
    Linked own parent g xs ↔ Linked own' parent' g ys := by
  induction h generalizing g with
  | nil => exact Iff.rfl
  | cons hxy _ ih =>
    show _ ∧ _ ↔ _ ∧ _
    rw [hxy.1, hxy.2, ih]

theorem tip_of_getLast? {g : H} {xs : List α} {x : α} (h : xs.getLast? = some x) :
    tip own g xs = own x := by
  obtain ⟨init, rfl⟩ := List.getLast?_eq_some_iff.mp h
  exact tip_concat own g init x

/-- Only the empty chain has the anchor as its tip. -/
theorem eq_nil_of_tip_eq {g : H} {xs : List α} (hg : ∀ x ∈ xs, own x ≠ g)
    (h : tip own g xs = g) : xs = [] := by
  cases xs using List.reverseRecOn with
  | nil => rfl
  | append_singleton xs x =>
    rw [tip_concat] at h
    exact absurd h (hg x (by simp))

section Binding

variable {R : α → α → Prop} {Valid : α → Prop} {g : H}
    (hown : ∀ x y, Valid x → Valid y → own x = own y → R x y ∧ parent x = parent y)
    (hg : ∀ x, Valid x → own x ≠ g)

include hown hg

/-- The tip binds the history back to where it is anchored: when the own hash of a valid entry
    determines its parent and the entry up to `R`, entries linked from any anchor to the tip of a
    chain are the end of that chain up to `R`, and the anchor is the tip of what is before them. -/
theorem suffix_of_tip_eq {a : H} (xs ys : List α) (hvx : ∀ x ∈ xs, Valid x)
    (hvy : ∀ y ∈ ys, Valid y) (hx : Linked own parent a xs) (hy : Linked own parent g ys)
    (htip : tip own a xs = tip own g ys) :
    ∃ pre post, ys = pre ++ post ∧ tip own g pre = a ∧ List.Forall₂ R xs post := by
  -- the last entries are forced by the tip, and their parents are the tips of what is before them
  induction xs using List.reverseRecOn generalizing ys with
  | nil => exact ⟨ys, [], (List.append_nil ys).symm, htip.symm, .nil⟩
  | append_singleton xs x ih =>
    cases ys using List.reverseRecOn with
    | nil =>
      rw [tip_concat] at htip
      exact absurd htip (hg x (hvx x (by simp)))
    | append_singleton ys y =>
      rw [tip_concat, tip_concat] at htip
      rw [linked_concat] at hx hy
      obtain ⟨hpay, hpar⟩ := hown x y (hvx x (by simp)) (hvy y (by simp)) htip
      obtain ⟨pre, post, rfl, hpre, hpost⟩ := ih ys (fun x' h => hvx x' (by simp [h]))
        (fun y' h => hvy y' (by simp [h])) hx.1 hy.1 (by rw [← hx.2, ← hy.2, hpar])
      exact ⟨pre, post ++ [y], List.append_assoc .., hpre, List.rel_append hpost (.cons hpay .nil)⟩

/-- The tip binds the history: chains with one anchor and one tip are the same up to `R`, entry by
    entry. -/
theorem forall₂_of_tip_eq (xs ys : List α) (hvx : ∀ x ∈ xs, Valid x)
    (hvy : ∀ y ∈ ys, Valid y) (hx : Linked own parent g xs) (hy : Linked own parent g ys)
    (htip : tip own g xs = tip own g ys) : List.Forall₂ R xs ys := by
  obtain ⟨pre, post, rfl, hpre, hpost⟩ := suffix_of_tip_eq hown hg xs ys hvx hvy hx hy htip
  have hnil : pre = [] :=
    eq_nil_of_tip_eq (fun y hy => hg y (hvy y (List.mem_append_left post hy))) hpre
  rw [hnil]
  exact hpost

/-- No hash occurs twice in a chain. -/
theorem nodup_own (xs : List α) (hv : ∀ x ∈ xs, Valid x) (hx : Linked own parent g xs) :
    (xs.map own).Nodup := by
  induction xs using List.reverseRecOn with
  | nil => exact List.nodup_nil
  | append_singleton xs x ih =>
    have hrest := ih (fun y hy => hv y (by simp [hy])) ((linked_concat own parent g xs x).mp hx).1
    rw [List.map_append, List.nodup_append]
    refine ⟨hrest, by simp, ?_⟩
    intro b hb c hc heq
    obtain ⟨y, hy, rfl⟩ := List.mem_map.mp hb
    obtain rfl : c = own x := by simpa using hc
    -- the chain up to the earlier entry has the same tip and is shorter
    obtain ⟨before, after, rfl⟩ := List.append_of_mem hy
    have hsplit : before ++ y :: after ++ [x] = (before ++ [y]) ++ (after ++ [x]) := by simp
    rw [hsplit] at hx hv
    have hall := forall₂_of_tip_eq hown hg (before ++ [y]) (before ++ [y] ++ (after ++ [x]))
      (fun z hz => hv z (List.mem_append_left _ hz)) hv ((linked_append own parent g _ _).mp hx).1 hx
      (by rw [tip_concat, ← List.append_assoc, tip_concat, heq])
    have hlength := hall.length_eq
    simp at hlength

end Binding

end Chain
