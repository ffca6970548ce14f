import Mathlib.Data.List.Basic

/-!
# Programs that ask, and pools of them

A program asks its surroundings questions, one after the other, and ends in a value.  A pool has one
program per thread; its threads take turns in any order, and what they share answers the questions,
one at a time.

The rule `Pool.keeps_of_run` lifts facts about one program to every interleaving: a thread's own
exchanges form a path of its own program, whatever the other threads did in between.

## Key results

- `Calls.Keeps`: every path of a program satisfies an invariant, and its value a postcondition
- `Pool.keeps_of_run`: in every run, every thread keeps what its program keeps
- `Pool.count_le_one`: a bound over all threads, from one over each thread
-/

/-- A program that asks questions `q : Q`, each answered by an `A q`, and ends in an `α`. -/
inductive Calls (Q : Type) (A : Q → Type) (α : Type) where
  | ret (a : α)
  | ask (q : Q) (k : A q → Calls Q A α)

namespace Calls

variable {Q : Type} {A : Q → Type} {α β : Type}

/-- A function of the value a program ends in. -/
def map (f : α → β) : Calls Q A α → Calls Q A β
  | .ret a => .ret (f a)
  | .ask q k => .ask q fun a => map f (k a)

/-- A question with its answer. -/
abbrev Exchange (A : Q → Type) := (q : Q) × A q

/-- Whatever the answers are: after each exchange the invariant `I` holds of the exchanges so far,
    and at the end `Post` holds of them and the value. -/
def Keeps (I : List (Exchange A) → Prop) (Post : List (Exchange A) → α → Prop)
    (past : List (Exchange A)) : Calls Q A α → Prop
  | .ret a => I past ∧ Post past a
  | .ask q k => I past ∧ ∀ a, Keeps I Post (past ++ [⟨q, a⟩]) (k a)

variable {I : List (Exchange A) → Prop} {Post : List (Exchange A) → α → Prop}
  {past : List (Exchange A)}

theorem Keeps.inv {c : Calls Q A α} (h : Keeps I Post past c) : I past := by
  cases c with
  | ret a => exact h.1
  | ask q k => exact h.1

theorem Keeps.post {a : α} (h : Keeps I Post past (.ret a)) : Post past a := h.2

theorem Keeps.answered {q : Q} {k : A q → Calls Q A α} (h : Keeps I Post past (.ask q k))
    (a : A q) : Keeps I Post (past ++ [⟨q, a⟩]) (k a) := h.2 a

theorem Keeps.map {f : α → β} {PostF : List (Exchange A) → β → Prop} {c : Calls Q A α}
    (h : Keeps I (fun es a => PostF es (f a)) past c) : Keeps I PostF past (Calls.map f c) := by
  induction c generalizing past with
  | ret a => exact h
  | ask q k ih => exact ⟨h.1, fun a => ih a (h.2 a)⟩

theorem Keeps.mono {J : List (Exchange A) → Prop} {PostJ : List (Exchange A) → α → Prop}
    {c : Calls Q A α} (h : Keeps I Post past c) (hinv : ∀ es, I es → J es)
    (hpost : ∀ es a, I es → Post es a → PostJ es a) : Keeps J PostJ past c := by
  induction c generalizing past with
  | ret a => exact ⟨hinv past h.1, hpost past a h.1 h.2⟩
  | ask q k ih => exact ⟨hinv past h.1, fun a => ih a (h.2 a)⟩

end Calls

/-! ## Pools -/

/-- Threads and what they share. -/
structure Pool (σ : Type) (Q : Type) (A : Q → Type) (α : Type) where
  shared : σ
  threads : List (Calls Q A α)

namespace Pool

open Calls (Exchange Keeps)

variable {σ Q : Type} {A : Q → Type} {α : Type}

/-- The exchanges of one thread. -/
def own (i : Nat) (trace : List (Nat × Exchange A)) : List (Exchange A) :=
  trace.filterMap fun e => if e.1 = i then some e.2 else none

/-- The runs from a pool: at each step one thread's question is answered. -/
inductive Run (answers : σ → (q : Q) → A q → σ → Prop) (start : Pool σ Q A α) :
    List (Nat × Exchange A) → Pool σ Q A α → Prop
  | refl : Run answers start [] start
  | step {trace : List (Nat × Exchange A)} {p : Pool σ Q A α} {i : Nat} {q : Q}
      {k : A q → Calls Q A α} {a : A q} {s : σ} (before : Run answers start trace p)
      (asks : p.threads[i]? = some (.ask q k)) (answer : answers p.shared q a s) :
      Run answers start (trace ++ [(i, ⟨q, a⟩)]) ⟨s, p.threads.set i (k a)⟩

variable {answers : σ → (q : Q) → A q → σ → Prop} {start p : Pool σ Q A α}
  {trace : List (Nat × Exchange A)}

@[simp] theorem own_nil (i : Nat) : own i ([] : List (Nat × Exchange A)) = [] := rfl

theorem own_append_self (i : Nat) (trace : List (Nat × Exchange A)) (e : Exchange A) :
    own i (trace ++ [(i, e)]) = own i trace ++ [e] := by
  simp [own, List.filterMap_append]

theorem own_append_other {i j : Nat} (hij : j ≠ i) (trace : List (Nat × Exchange A))
    (e : Exchange A) : own i (trace ++ [(j, e)]) = own i trace := by
  simp [own, List.filterMap_append, hij]

theorem mem_own_iff {i : Nat} {e : Exchange A} : e ∈ own i trace ↔ (i, e) ∈ trace := by
  unfold own
  rw [List.mem_filterMap]
  constructor
  · rintro ⟨⟨j, e'⟩, hmem, heq⟩
    split at heq
    · rename_i hj
      cases heq
      exact hj ▸ hmem
    · exact nomatch heq
  · intro hmem
    exact ⟨(i, e), hmem, if_pos rfl⟩

/-- No thread comes or goes. -/
theorem length_of_run (h : Run answers start trace p) :
    p.threads.length = start.threads.length := by
  induction h with
  | refl => rfl
  | step before asks answer ih => rw [List.length_set, ih]

/-- In every run, every thread keeps what its program keeps. -/
theorem keeps_of_run {I : List (Exchange A) → Prop} {Post : List (Exchange A) → α → Prop}
    {i : Nat} {c : Calls Q A α} (hi : start.threads[i]? = some c) (hc : Keeps I Post [] c)
    (h : Run answers start trace p) :
    ∃ c', p.threads[i]? = some c' ∧ Keeps I Post (own i trace) c' := by
  induction h with
  | refl => exact ⟨c, hi, hc⟩
  | @step trace p j q k a s before asks answer ih =>
    obtain ⟨c', hc', hkeeps⟩ := ih
    by_cases hji : j = i
    · -- the thread's own step follows its program
      subst hji
      rw [hc'] at asks
      cases asks
      have hlt : j < p.threads.length := (List.getElem?_eq_some_iff.mp hc').1
      refine ⟨k a, List.getElem?_set_self hlt, ?_⟩
      rw [own_append_self]
      exact hkeeps.answered a
    · refine ⟨c', ?_, ?_⟩
      · rw [List.getElem?_set_ne hji]
        exact hc'
      · rw [own_append_other hji]
        exact hkeeps

/-- The thread of an exchange is one of the pool. -/
theorem lt_of_mem {i : Nat} {e : Exchange A} (h : Run answers start trace p)
    (hmem : (i, e) ∈ trace) : i < start.threads.length := by
  induction h with
  | refl => exact nomatch hmem
  | @step trace p j q k a s before asks answer ih =>
    rcases List.mem_append.mp hmem with hold | hnew
    · exact ih hold
    · cases List.mem_singleton.mp hnew
      rw [← length_of_run before]
      exact (List.getElem?_eq_some_iff.mp asks).1

/-- Exchanges that only one thread makes, and makes at most once, are made at most once. -/
theorem count_le_one {P : Exchange A → Bool} {i : Nat}
    (honly : ∀ j e, (j, e) ∈ trace → P e = true → j = i) (hown : (own i trace).countP P ≤ 1) :
    trace.countP (fun e => P e.2) ≤ 1 := by
  have heq : trace.countP (fun e => P e.2) = (own i trace).countP P := by
    clear hown
    induction trace with
    | nil => rfl
    | cons e trace ih =>
      obtain ⟨j, e⟩ := e
      have ih := ih fun j e hmem => honly j e (List.mem_cons_of_mem _ hmem)
      unfold own at ih ⊢
      rw [List.countP_cons, ih, List.filterMap_cons]
      by_cases hji : j = i
      · rw [if_pos hji, List.countP_cons]
      · rw [if_neg hji]
        have hnot : P e ≠ true := fun hP => hji (honly j e List.mem_cons_self hP)
        simp [hnot]
  rw [heq]
  exact hown

end Pool
