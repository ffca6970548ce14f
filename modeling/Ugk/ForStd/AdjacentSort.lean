import Mathlib.Data.List.Basic
import Mathlib.Data.List.Perm.Basic

/-!
# Sorting by adjacent exchanges

Bubble passes that exchange two neighbours only where a relation lets the second one pass the first.
The relation need not be transitive: neighbours may be blocked now and exchangeable once others have
moved.  An element that rests in one pass rests in every later one, so each element moves in the
first passes only, one place a pass, and a pass for every element is enough.

## Key results

- `pairwise_sort`: what stands before what after the passes
- `movers_pass_subset`: no element starts to move after it has rested
- `isChain_sort`: with a pass for every element no exchangeable neighbours are left
-/

namespace AdjacentSort

variable {α : Type*} (passes : α → α → Bool)

/-- The rest of a pass that carries an element to the right: what may pass the carried element goes
    in front of it, what may not is carried from there on.  The flag tells whether anything moved. -/
def carry : α → List α → List α × Bool
  | c, [] => ([c], false)
  | c, b :: rest =>
    if passes c b then (b :: (carry c rest).1, true)
    else (c :: (carry b rest).1, (carry b rest).2)

/-- One pass from left to right. -/
def pass : List α → List α × Bool
  | [] => ([], false)
  | c :: rest => carry passes c rest

/-- At most `n` passes, until one moves nothing. -/
def sort : Nat → List α → List α
  | 0, order => order
  | n + 1, order =>
    if (pass passes order).2 then sort n (pass passes order).1 else (pass passes order).1

variable {passes}

/-! ## A permutation -/

theorem perm_carry (c : α) (rest : List α) : (carry passes c rest).1.Perm (c :: rest) := by
  induction rest generalizing c with
  | nil => exact List.Perm.refl _
  | cons b rest ih =>
    unfold carry
    split
    · exact ((ih c).cons b).trans (List.Perm.swap ..)
    · exact (ih b).cons c

theorem perm_pass (order : List α) : (pass passes order).1.Perm order := by
  cases order with
  | nil => exact List.Perm.refl _
  | cons c rest => exact perm_carry c rest

theorem perm_sort (n : Nat) (order : List α) : (sort passes n order).Perm order := by
  induction n generalizing order with
  | zero => exact List.Perm.refl _
  | succ n ih =>
    unfold sort
    split
    · exact (ih _).trans (perm_pass order)
    · exact perm_pass order

/-! ## What stands before what -/

theorem pairwise_carry {R : α → α → Prop} (hR : ∀ a b, passes a b = true → R b a) {c : α}
    {rest : List α} (h : (c :: rest).Pairwise R) : (carry passes c rest).1.Pairwise R := by
  induction rest generalizing c with
  | nil => exact h
  | cons b rest ih =>
    rw [List.pairwise_cons, List.pairwise_cons] at h
    obtain ⟨hc, hb, hrest⟩ := h
    unfold carry
    split
    · rename_i hpass
      refine List.pairwise_cons.mpr ⟨?_, ih (List.pairwise_cons.mpr ⟨?_, hrest⟩)⟩
      · intro x hx
        rcases List.mem_cons.mp ((perm_carry c rest).mem_iff.mp hx) with rfl | hx
        · exact hR _ _ hpass
        · exact hb x hx
      · exact fun x hx => hc x (List.mem_cons_of_mem _ hx)
    · refine List.pairwise_cons.mpr ⟨?_, ih (List.pairwise_cons.mpr ⟨hb, hrest⟩)⟩
      intro x hx
      exact hc x ((perm_carry b rest).mem_iff.mp hx)

theorem pairwise_pass {R : α → α → Prop} (hR : ∀ a b, passes a b = true → R b a) {order : List α}
    (h : order.Pairwise R) : (pass passes order).1.Pairwise R := by
  cases order with
  | nil => exact h
  | cons c rest => exact pairwise_carry hR h

/-- What holds of every pair in its order at the start, and of every exchanged pair in its new order,
    holds of every pair in its order at the end. -/
theorem pairwise_sort {R : α → α → Prop} (hR : ∀ a b, passes a b = true → R b a) (n : Nat)
    {order : List α} (h : order.Pairwise R) : (sort passes n order).Pairwise R := by
  induction n generalizing order with
  | zero => exact h
  | succ n ih =>
    unfold sort
    split
    · exact ih (pairwise_pass hR h)
    · exact pairwise_pass hR h

/-! ## Who moves -/

variable (passes)

/-- The elements that go in front of the carried one in the rest of a pass. -/
def moved : α → List α → List α
  | _, [] => []
  | c, b :: rest => if passes c b then b :: moved c rest else moved b rest

/-- The elements that move in a pass. -/
def movers : List α → List α
  | [] => []
  | c :: rest => moved passes c rest

variable {passes}

theorem carry_snd (c : α) (rest : List α) :
    (carry passes c rest).2 = true ↔ moved passes c rest ≠ [] := by
  induction rest generalizing c with
  | nil => simp [carry, moved]
  | cons b rest ih =>
    unfold carry moved
    split
    · simp
    · exact ih b

theorem pass_snd (order : List α) : (pass passes order).2 = true ↔ movers passes order ≠ [] := by
  cases order with
  | nil => simp [pass, movers]
  | cons c rest => exact carry_snd c rest

/-- A pass that moves nothing leaves no exchangeable neighbours. -/
theorem isChain_of_moved {c : α} {rest : List α} (h : moved passes c rest = []) :
    (carry passes c rest).1 = c :: rest ∧
      (c :: rest).IsChain fun a b => passes a b = false := by
  induction rest generalizing c with
  | nil => exact ⟨rfl, .singleton _⟩
  | cons b rest ih =>
    unfold moved at h
    split at h
    · exact nomatch h
    · rename_i hpass
      obtain ⟨hsame, hchain⟩ := ih h
      rw [carry, if_neg hpass, hsame]
      exact ⟨rfl, List.isChain_cons_cons.mpr ⟨Bool.eq_false_iff.mpr hpass, hchain⟩⟩

theorem isChain_of_movers {order : List α} (h : movers passes order = []) :
    (pass passes order).1 = order ∧ order.IsChain fun a b => passes a b = false := by
  cases order with
  | nil => exact ⟨rfl, .nil⟩
  | cons c rest => exact isChain_of_moved h

variable (hasymm : ∀ a b, passes a b = true → passes b a = false)

include hasymm

/-- Behind a carried element that the first one of a pass may not pass, the next pass moves only what
    this one moved. -/
theorem moved_carry_subset {d c : α} (hd : passes d c = false) (rest : List α) :
    moved passes d (carry passes c rest).1 ⊆ moved passes c rest := by
  induction rest generalizing c d with
  | nil =>
    unfold carry moved
    rw [if_neg (by rw [hd]; exact Bool.false_ne_true)]
    exact List.Subset.refl _
  | cons b rest ih =>
    unfold carry
    rw [moved.eq_2 passes c]
    by_cases hcb : passes c b = true
    · rw [if_pos hcb, if_pos hcb, moved]
      by_cases hdb : passes d b = true
      · -- both passes move `b` and go on with what they carried
        rw [if_pos hdb]
        exact List.cons_subset_cons _ (ih hd)
      · -- now `b` is carried, and `c` cannot pass it back
        rw [if_neg hdb]
        exact List.Subset.trans (ih (hasymm c b hcb)) (List.subset_cons_self ..)
    · rw [if_neg hcb, if_neg hcb, moved, if_neg (by rw [hd]; exact Bool.false_ne_true)]
      exact ih (Bool.eq_false_iff.mpr hcb)

/-- An element that rests in a pass rests in the next one. -/
theorem movers_pass_subset (order : List α) :
    movers passes (pass passes order).1 ⊆ movers passes order := by
  cases order with
  | nil => exact List.Subset.refl _
  | cons c rest =>
    cases rest with
    | nil => exact List.Subset.refl _
    | cons b rest =>
      show movers passes (carry passes c (b :: rest)).1 ⊆ moved passes c (b :: rest)
      unfold carry moved
      by_cases hcb : passes c b = true
      · rw [if_pos hcb, if_pos hcb]
        exact List.Subset.trans (moved_carry_subset hasymm (hasymm c b hcb) rest)
          (List.subset_cons_self ..)
      · rw [if_neg hcb, if_neg hcb]
        exact moved_carry_subset hasymm (Bool.eq_false_iff.mpr hcb) rest

omit hasymm

theorem moved_subset (c : α) (rest : List α) : moved passes c rest ⊆ rest := by
  induction rest generalizing c with
  | nil => exact List.Subset.refl _
  | cons b rest ih =>
    unfold moved
    split
    · exact List.cons_subset_cons _ (ih c)
    · exact List.Subset.trans (ih b) (List.subset_cons_self ..)

theorem movers_subset (order : List α) : movers passes order ⊆ order := by
  cases order with
  | nil => exact List.Subset.refl _
  | cons c rest => exact List.Subset.trans (moved_subset c rest) (List.subset_cons_self ..)

variable [DecidableEq α]

/-- What moves in a pass goes one place to the left. -/
theorem idxOf_carry {c b : α} {rest : List α} (hnodup : (c :: rest).Nodup)
    (hb : b ∈ moved passes c rest) :
    (carry passes c rest).1.idxOf b + 1 = (c :: rest).idxOf b := by
  induction rest generalizing c with
  | nil => exact nomatch hb
  | cons x rest ih =>
    have hcb : c ≠ b := by
      rintro rfl
      exact (List.nodup_cons.mp hnodup).1 (moved_subset _ _ hb)
    rw [List.nodup_cons, List.nodup_cons] at hnodup
    obtain ⟨hc, hx, hrest⟩ := hnodup
    rw [List.idxOf_cons_ne _ hcb]
    unfold moved at hb
    unfold carry
    split at hb
    · rename_i hpass
      rw [if_pos hpass]
      rcases List.mem_cons.mp hb with rfl | hb
      · rw [List.idxOf_cons_self, List.idxOf_cons_self]
      · have hxb : x ≠ b := by
          rintro rfl
          exact hx (moved_subset _ _ hb)
        have hrec := ih (List.nodup_cons.mpr ⟨fun h => hc (List.mem_cons_of_mem _ h), hrest⟩) hb
        rw [List.idxOf_cons_ne _ hcb] at hrec
        rw [List.idxOf_cons_ne _ hxb, List.idxOf_cons_ne _ hxb]
        omega
    · rename_i hpass
      rw [if_neg hpass, List.idxOf_cons_ne _ hcb]
      have hrec := ih (List.nodup_cons.mpr ⟨hx, hrest⟩) hb
      omega

theorem idxOf_pass {b : α} {order : List α} (hnodup : order.Nodup)
    (hb : b ∈ movers passes order) :
    (pass passes order).1.idxOf b + 1 = order.idxOf b := by
  cases order with
  | nil => exact nomatch hb
  | cons c rest => exact idxOf_carry hnodup hb

/-- A pass for every place a mover can still go leaves no exchangeable neighbours. -/
theorem isChain_sort_of_movers (hasymm : ∀ a b, passes a b = true → passes b a = false) (n : Nat)
    {order : List α} (hnodup : order.Nodup)
    (hmovers : ∀ b ∈ movers passes order, order.idxOf b < n + 1) :
    (sort passes (n + 1) order).IsChain fun a b => passes a b = false := by
  induction n generalizing order with
  | zero =>
    -- a mover does not stand in front
    have hnone : movers passes order = [] := by
      rw [List.eq_nil_iff_forall_not_mem]
      intro b hb
      have := idxOf_pass hnodup hb
      have := hmovers b hb
      omega
    obtain ⟨hsame, hchain⟩ := isChain_of_movers hnone
    unfold sort
    split
    · rw [hsame]
      exact hchain
    · rw [hsame]
      exact hchain
  | succ n ih =>
    unfold sort
    split
    · apply ih ((perm_pass order).nodup_iff.mpr hnodup)
      intro b hb
      have hb := movers_pass_subset hasymm order hb
      have := idxOf_pass hnodup hb
      have := hmovers b hb
      omega
    · rename_i hrest
      have hnone : movers passes order = [] := by
        by_contra hne
        exact hrest ((pass_snd order).mpr hne)
      obtain ⟨hsame, hchain⟩ := isChain_of_movers hnone
      rw [hsame]
      exact hchain

/-- As many passes as there are elements leave no exchangeable neighbours. -/
theorem isChain_sort (hasymm : ∀ a b, passes a b = true → passes b a = false) {order : List α}
    (hnodup : order.Nodup) :
    (sort passes order.length order).IsChain fun a b => passes a b = false := by
  cases order with
  | nil => exact .nil
  | cons c rest =>
    apply isChain_sort_of_movers hasymm _ hnodup
    intro b hb
    exact List.idxOf_lt_length_of_mem (movers_subset _ hb)

end AdjacentSort
