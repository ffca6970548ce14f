import Mathlib.Data.List.Induction

/-!
# Lists built entry by entry

`Stepwise P l`: each entry of `l` stands in `P` to the entries before it.  A history in which every
entry was admitted against the ones before it is such a list.

## Key results

- `stepwise_concat`: one more entry
- `nodup_iff_stepwise`: no value occurs twice exactly when each is new where it is added
- `unique_first_iff`: exactly one entry has a property, and the others have one before them, exactly
  when the first entry has it and no later one
- `eq_of_stepwise`, `countP_le_one`: entries of a kind that never comes a second time
- `stepwise_filterMap`: a translated part of a list
-/

/-- Each entry stands in `P` to the list of the entries before it. -/
def Stepwise {α : Type*} (P : List α → α → Prop) (l : List α) : Prop :=
  ∀ pre a post, l = pre ++ a :: post → P pre a

namespace Stepwise

variable {α β : Type*} {P Q : List α → α → Prop} {l : List α} {a : α}

theorem nil : Stepwise P [] := by
  intro pre a post h
  simp at h

theorem mono (h : Stepwise P l) (himp : ∀ pre a, P pre a → Q pre a) : Stepwise Q l :=
  fun pre a post hl => himp pre a (h pre a post hl)

theorem and_iff : Stepwise (fun pre a => P pre a ∧ Q pre a) l ↔ Stepwise P l ∧ Stepwise Q l :=
  ⟨fun h => ⟨h.mono fun _ _ => And.left, h.mono fun _ _ => And.right⟩,
    fun ⟨hp, hq⟩ pre a post hl => ⟨hp pre a post hl, hq pre a post hl⟩⟩

theorem of_prefix {post : List α} (h : Stepwise P (l ++ post)) : Stepwise P l := by
  intro pre a rest hl
  apply h pre a (rest ++ post)
  rw [hl, List.append_assoc, List.cons_append]

end Stepwise

variable {α β : Type*} {P : List α → α → Prop} {l : List α} {a : α}

theorem stepwise_concat : Stepwise P (l ++ [a]) ↔ Stepwise P l ∧ P l a := by
  constructor
  · intro h
    exact ⟨h.of_prefix, h l a [] rfl⟩
  · rintro ⟨hl, ha⟩ pre b post heq
    -- the split falls at the new entry or inside `l`
    cases post using List.reverseRecOn with
    | nil =>
      obtain ⟨rfl, hb⟩ := List.append_inj' heq rfl
      obtain rfl := List.singleton_inj.mp hb
      exact ha
    | append_singleton post c =>
      rw [← List.cons_append, ← List.append_assoc] at heq
      exact hl pre b post (List.append_inj' heq rfl).1

theorem stepwise_forall {p : α → Prop} : Stepwise (fun _ a => p a) l ↔ ∀ a ∈ l, p a := by
  constructor
  · intro h a ha
    obtain ⟨pre, post, rfl⟩ := List.append_of_mem ha
    exact h pre a post rfl
  · rintro h pre a post rfl
    exact h a (by simp)

/-- No value occurs twice exactly when each is new where it is added. -/
theorem nodup_iff_stepwise {f : α → β} :
    (l.map f).Nodup ↔ Stepwise (fun pre a => f a ∉ pre.map f) l := by
  induction l using List.reverseRecOn with
  | nil => simp [Stepwise.nil]
  | append_singleton l a ih =>
    rw [stepwise_concat, ← ih, List.map_append, List.map_singleton, List.nodup_append]
    simp

/-- Exactly one entry has `p` and the others have an entry before them, exactly when the first entry
    has `p` and no later one. -/
theorem unique_first_iff {p : α → Bool} :
    (l.countP p = 1 ∧ Stepwise (fun pre a => p a = false → pre ≠ []) l) ↔
      l ≠ [] ∧ Stepwise (fun pre a => p a = true ↔ pre = []) l := by
  induction l using List.reverseRecOn with
  | nil => simp
  | append_singleton l a ih =>
    rw [stepwise_concat, stepwise_concat, List.countP_append, List.countP_singleton]
    by_cases hl : l = []
    · subst hl
      cases p a <;> simp [Stepwise.nil]
    · -- the entries before `a` hold the one with `p` already
      have hpos (hs : Stepwise (fun pre a => p a = false → pre ≠ []) l) : 0 < l.countP p := by
        obtain ⟨b, rest, rfl⟩ := List.exists_cons_of_ne_nil hl
        have hb : p b = true := by
          by_contra hb
          exact hs [] b rest rfl (by simpa using hb) rfl
        simp [hb]
      cases hp : p a with
      | true =>
        simp only [hl, ↓reduceIte, iff_false, not_true_eq_false, and_false]
        rintro ⟨hcount, hs, _⟩
        have := hpos hs
        omega
      | false => simpa [hl] using ih

/-- Entries of a kind that never comes a second time are one entry. -/
theorem eq_of_stepwise {p : α → Prop} (h : Stepwise (fun pre a => p a → ∀ b ∈ pre, ¬p b) l)
    {b : α} (ha : a ∈ l) (hb : b ∈ l) (hpa : p a) (hpb : p b) : a = b := by
  induction l using List.reverseRecOn with
  | nil => exact absurd ha List.not_mem_nil
  | append_singleton l c ih =>
    obtain ⟨hl, hc⟩ := stepwise_concat.mp h
    rcases List.mem_append.mp ha with hal | hac <;> rcases List.mem_append.mp hb with hbl | hbc
    · exact ih hl hal hbl
    · obtain rfl := List.mem_singleton.mp hbc
      exact absurd hpa (hc hpb a hal)
    · obtain rfl := List.mem_singleton.mp hac
      exact absurd hpb (hc hpa b hbl)
    · rw [List.mem_singleton.mp hac, List.mem_singleton.mp hbc]

/-- There is at most one entry of a kind that never comes a second time. -/
theorem countP_le_one {p : α → Bool}
    (h : Stepwise (fun pre a => p a = true → ∀ b ∈ pre, p b = false) l) : l.countP p ≤ 1 := by
  induction l using List.reverseRecOn with
  | nil => simp
  | append_singleton l a ih =>
    obtain ⟨hl, ha⟩ := stepwise_concat.mp h
    rw [List.countP_append, List.countP_singleton]
    cases hp : p a with
    | false => simpa using ih hl
    | true =>
      have hzero : l.countP p = 0 := by
        rw [List.countP_eq_zero]
        intro b hb
        rw [ha hp b hb]
        exact Bool.false_ne_true
      rw [hzero]
      decide

/-- A part of the entries, translated, is built entry by entry exactly when the list is, where the
    other entries are let through. -/
theorem stepwise_filterMap {P : List β → β → Prop} {f : α → Option β} :
    Stepwise P (l.filterMap f) ↔
      Stepwise (fun pre a => ∀ b, f a = some b → P (pre.filterMap f) b) l := by
  induction l using List.reverseRecOn with
  | nil => exact iff_of_true Stepwise.nil Stepwise.nil
  | append_singleton l a ih =>
    rw [stepwise_concat, ← ih, List.filterMap_append]
    cases hf : f a with
    | none => simp [hf]
    | some b => simp [hf, stepwise_concat]
