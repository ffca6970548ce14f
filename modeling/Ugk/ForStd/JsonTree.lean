import Mathlib.Data.List.Nodup
import Ugk.ForStd.Json

/-!
# Recursion over JSON documents

An induction principle that reaches through arrays and objects, and tests that hold of a document
and of everything inside it.

## Key results

- `Json.nested`: induction over a document
- `Json.every_arr`, `Json.every_obj`: a test of a document, part by part
-/

namespace Json

/-- Induction over a document, with the hypothesis for everything inside it. -/
@[elab_as_elim]
theorem nested {motive : Json → Prop} (null : motive .null) (bool : ∀ b, motive (.bool b))
    (int : ∀ n, motive (.int n)) (float : ∀ x, motive (.float x))
    (nonFinite : ∀ k, motive (.nonFinite k)) (str : ∀ s, motive (.str s))
    (arr : ∀ xs, (∀ x ∈ xs, motive x) → motive (.arr xs))
    (obj : ∀ ms : List (String × Json), (∀ m ∈ ms, motive m.2) → motive (.obj ms)) (j : Json) :
    motive j := by
  induction hsize : sizeOf j using Nat.strongRecOn generalizing j with
  | _ n ih =>
    subst hsize
    cases j with
    | null => exact null
    | bool b => exact bool b
    | int n => exact int n
    | float x => exact float x
    | nonFinite k => exact nonFinite k
    | str s => exact str s
    | arr xs =>
      refine arr xs fun x hx => ?_
      have hlt := List.sizeOf_lt_of_mem hx
      refine ih _ ?_ x rfl
      simp
      omega
    | obj ms =>
      refine obj ms fun m hm => ?_
      obtain ⟨k, v⟩ := m
      have hlt := List.sizeOf_lt_of_mem hm
      refine ih _ ?_ v rfl
      simp at hlt ⊢
      omega

mutual

/-- The test holds of a document and of everything inside it. -/
def every (p : Json → Bool) : Json → Bool
  | .arr xs => p (.arr xs) && everyList p xs
  | .obj ms => p (.obj ms) && everyMembers p ms
  | j => p j
termination_by structural j => j

def everyList (p : Json → Bool) : List Json → Bool
  | [] => true
  | x :: xs => every p x && everyList p xs
termination_by structural xs => xs

def everyMembers (p : Json → Bool) : List (String × Json) → Bool
  | [] => true
  | m :: ms => everyMember p m && everyMembers p ms
termination_by structural ms => ms

def everyMember (p : Json → Bool) : String × Json → Bool
  | (_, j) => every p j
termination_by structural m => m

end

section Every

variable (p : Json → Bool)

theorem everyList_eq (xs : List Json) : everyList p xs = xs.all (every p) := by
  induction xs with
  | nil => rfl
  | cons x xs ih => rw [everyList, ih, List.all_cons]

theorem everyMembers_eq (ms : List (String × Json)) :
    everyMembers p ms = ms.all fun m => every p m.2 := by
  induction ms with
  | nil => rfl
  | cons m ms ih => rw [everyMembers, ih, everyMember, List.all_cons]

theorem every_arr (xs : List Json) : every p (.arr xs) = (p (.arr xs) && xs.all (every p)) := by
  rw [every, everyList_eq]

theorem every_obj (ms : List (String × Json)) :
    every p (.obj ms) = (p (.obj ms) && ms.all fun m => every p m.2) := by
  rw [every, everyMembers_eq]

end Every

/-! ## Tests -/

/-- A number token with a fraction or an exponent, or a non-finite one. -/
def isFraction : Json → Bool
  | .float _ => true
  | .nonFinite _ => true
  | _ => false

/-- There is no such token in the document. -/
def floatFree (j : Json) : Bool := every (fun j => !isFraction j) j

theorem floatFree_arr (xs : List Json) : floatFree (.arr xs) = xs.all floatFree :=
  every_arr _ xs

theorem floatFree_obj (ms : List (String × Json)) :
    floatFree (.obj ms) = ms.all fun m => floatFree m.2 := every_obj _ ms

/-- No object has two members of one name. -/
def distinctNames (j : Json) : Bool := every
  (fun
    | .obj ms => decide (ms.map Prod.fst).Nodup
    | _ => true) j

theorem distinctNames_arr (xs : List Json) : distinctNames (.arr xs) = xs.all distinctNames :=
  every_arr _ xs

theorem distinctNames_obj (ms : List (String × Json)) : distinctNames (.obj ms) =
    (decide (ms.map Prod.fst).Nodup && ms.all fun m => distinctNames m.2) := every_obj _ ms

end Json
