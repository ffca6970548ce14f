import Mathlib.Data.List.Forall2

/-!
# Procedures with state and exceptions

A procedure runs on a state and ends in a value or an exception.  Unlike a transactional monad it
keeps the state it reached when it raises: undoing is something a program does explicitly.

The rules below lift facts about the steps of a program to the whole program: `Proc.Steps` says that
every run relates the states before and after, for a reflexive and transitive relation;
`Proc.Respects` says that runs from related states have one outcome and end in related states.
-/

/-- A procedure over states `σ` with exceptions `ε` and result `α`. -/
def Proc (σ ε α : Type) := σ → Except ε α × σ

namespace Proc

variable {σ τ ε α β : Type}

/-- Return a value. -/
def ret (a : α) : Proc σ ε α := fun s => (.ok a, s)

/-- Raise an exception. -/
def raise (e : ε) : Proc σ ε α := fun s => (.error e, s)

/-- Run one procedure, and another on its value. -/
def andThen (m : Proc σ ε α) (f : α → Proc σ ε β) : Proc σ ε β := fun s =>
  match m s with
  | (.ok a, s') => f a s'
  | (.error e, s') => (.error e, s')

instance : Monad (Proc σ ε) where
  pure := ret
  bind := andThen

/-- The current state. -/
def get : Proc σ ε σ := fun s => (.ok s, s)

/-- Change the state. -/
def modify (f : σ → σ) : Proc σ ε Unit := fun s => (.ok (), f s)

/-- A computation that does not touch the state. -/
def lift : Except ε α → Proc σ ε α
  | .ok a => ret a
  | .error e => raise e

/-- Run a procedure and hand its outcome, value or exception, to the caller. -/
def attempt (m : Proc σ ε α) : Proc σ ε (Except ε α) := fun s => (.ok (m s).1, (m s).2)

/-- Run a procedure on a part of the state. -/
def zoom (part : σ → τ) (put : τ → σ → σ) (m : Proc τ ε α) : Proc σ ε α := fun s =>
  ((m (part s)).1, put (m (part s)).2 s)

/-- Rename the exceptions of a procedure. -/
def mapError (f : ε → ε) (m : Proc σ ε α) : Proc σ ε α := fun s =>
  match m s with
  | (.ok a, s') => (.ok a, s')
  | (.error e, s') => (.error (f e), s')

/-- Run a procedure that keeps a local variable beside the state, and hand over its outcome with the
    last value of the variable. -/
def withLocal (init : τ) (m : Proc (σ × τ) ε α) : Proc σ ε (Except ε α × τ) := fun s =>
  (.ok ((m (s, init)).1, (m (s, init)).2.2), (m (s, init)).2.1)

/-- A procedure beside which a local variable stands still. -/
def besides (m : Proc σ ε α) : Proc (σ × τ) ε α := zoom Prod.fst (fun s x => (s, x.2)) m

/-! ## Running -/

@[simp] theorem pure_apply (a : α) (s : σ) : (pure a : Proc σ ε α) s = (.ok a, s) := rfl

@[simp] theorem ret_apply (a : α) (s : σ) : (ret a : Proc σ ε α) s = (.ok a, s) := rfl

@[simp] theorem raise_apply (e : ε) (s : σ) : (raise e : Proc σ ε α) s = (.error e, s) := rfl

theorem bind_apply (m : Proc σ ε α) (f : α → Proc σ ε β) (s : σ) :
    (m >>= f) s = match m s with
      | (.ok a, s') => f a s'
      | (.error e, s') => (.error e, s') := rfl

/-- A program whose first step returns goes on with the value. -/
theorem bind_of_ok {m : Proc σ ε α} {f : α → Proc σ ε β} {s s' : σ} {a : α}
    (h : m s = (.ok a, s')) : (m >>= f) s = f a s' := by
  rw [bind_apply, h]

/-- A program whose first step raises ends there. -/
theorem bind_of_error {m : Proc σ ε α} {f : α → Proc σ ε β} {s s' : σ} {e : ε}
    (h : m s = (.error e, s')) : (m >>= f) s = (.error e, s') := by
  rw [bind_apply, h]

/-- A program that returns has returned from its first step. -/
theorem of_bind_ok {m : Proc σ ε α} {f : α → Proc σ ε β} {s s' : σ} {b : β}
    (h : (m >>= f) s = (.ok b, s')) : ∃ a mid, m s = (.ok a, mid) ∧ f a mid = (.ok b, s') := by
  rw [bind_apply] at h
  split at h
  · rename_i a mid heq
    exact ⟨a, mid, heq, h⟩
  · exact nomatch h

theorem bind_assoc {γ : Type} (m : Proc σ ε α) (f : α → Proc σ ε β) (g : β → Proc σ ε γ) :
    (m >>= f) >>= g = m >>= fun a => f a >>= g := by
  funext s
  rw [bind_apply, bind_apply, bind_apply]
  cases hrun : m s with
  | mk result s' =>
    cases result with
    | ok a => rfl
    | error e => rfl

@[simp] theorem get_apply (s : σ) : (get : Proc σ ε σ) s = (.ok s, s) := rfl

@[simp] theorem modify_apply (f : σ → σ) (s : σ) :
    (modify f : Proc σ ε Unit) s = (.ok (), f s) := rfl

@[simp] theorem lift_ok (a : α) (s : σ) : (lift (.ok a) : Proc σ ε α) s = (.ok a, s) := rfl

@[simp] theorem lift_error (e : ε) (s : σ) :
    (lift (.error e) : Proc σ ε α) s = (.error e, s) := rfl

theorem lift_apply (x : Except ε α) (s : σ) : (lift x : Proc σ ε α) s = (x, s) := by
  cases x <;> rfl

@[simp] theorem attempt_apply (m : Proc σ ε α) (s : σ) :
    attempt m s = (.ok (m s).1, (m s).2) := rfl

@[simp] theorem zoom_apply (part : σ → τ) (put : τ → σ → σ) (m : Proc τ ε α) (s : σ) :
    zoom part put m s = ((m (part s)).1, put (m (part s)).2 s) := rfl

theorem mapError_snd (f : ε → ε) (m : Proc σ ε α) (s : σ) : (mapError f m s).2 = (m s).2 := by
  unfold mapError
  split <;> simp_all

/-- What follows a step and leaves the state alone does not matter to the final state. -/
theorem bind_snd {m : Proc σ ε α} {f : α → Proc σ ε β} (hf : ∀ a s, (f a s).2 = s) (s : σ) :
    ((m >>= f) s).2 = (m s).2 := by
  rw [bind_apply]
  split
  · rename_i a s' heq
    rw [hf, heq]
  · rename_i e s' heq
    rw [heq]

/-! ## Traversals -/

/-- Run `f` on the entries of a list, one after the other. -/
def traverse (f : α → Proc σ ε β) : List α → Proc σ ε (List β)
  | [] => pure []
  | x :: xs => do
    let y ← f x
    let ys ← traverse f xs
    pure (y :: ys)

/-- Every run of `m` takes a state to a related one, however it ends. -/
def Steps (R : σ → σ → Prop) (m : Proc σ ε α) : Prop := ∀ s, R s (m s).2

section Steps

variable {R : σ → σ → Prop}

theorem Steps.ret (hrefl : ∀ s, R s s) (a : α) : Steps R (Proc.ret a : Proc σ ε α) :=
  fun s => hrefl s

theorem Steps.raise (hrefl : ∀ s, R s s) (e : ε) : Steps R (Proc.raise e : Proc σ ε α) :=
  fun s => hrefl s

theorem Steps.get (hrefl : ∀ s, R s s) : Steps R (Proc.get : Proc σ ε σ) := fun s => hrefl s

theorem Steps.modify {f : σ → σ} (h : ∀ s, R s (f s)) : Steps R (Proc.modify f : Proc σ ε Unit) :=
  fun s => h s

theorem Steps.lift (hrefl : ∀ s, R s s) (x : Except ε α) :
    Steps R (Proc.lift x : Proc σ ε α) := by
  intro s
  rw [lift_apply]
  exact hrefl s

theorem Steps.bind (htrans : ∀ {a b c}, R a b → R b c → R a c) {m : Proc σ ε α}
    {f : α → Proc σ ε β} (hm : Steps R m) (hf : ∀ a, Steps R (f a)) : Steps R (m >>= f) := by
  intro s
  have h := hm s
  rw [bind_apply]
  split
  · rename_i a s' heq
    rw [heq] at h
    exact htrans h (hf a s')
  · rename_i e s' heq
    rw [heq] at h
    exact h

theorem Steps.traverse (hrefl : ∀ s, R s s) (htrans : ∀ {a b c}, R a b → R b c → R a c)
    {f : α → Proc σ ε β} (hf : ∀ a, Steps R (f a)) (xs : List α) :
    Steps R (Proc.traverse f xs) := by
  induction xs with
  | nil => exact Steps.ret hrefl []
  | cons x xs ih =>
    have hrest (y : β) : Steps R (Proc.traverse f xs >>= fun ys => (pure (y :: ys) : Proc σ ε _)) :=
      Steps.bind (R := R) htrans ih fun ys => Steps.ret hrefl (y :: ys)
    exact Steps.bind (R := R) htrans (hf x) hrest

theorem Steps.attempt {m : Proc σ ε α} (hm : Steps R m) : Steps R (Proc.attempt m) :=
  fun s => hm s

theorem Steps.mapError {f : ε → ε} {m : Proc σ ε α} (hm : Steps R m) :
    Steps R (Proc.mapError f m) := by
  intro s
  rw [mapError_snd]
  exact hm s

end Steps

/-! ## What a run does not look at -/

/-- Runs of `m` from related states have the same outcome and end in related states. -/
def Respects (R : σ → σ → Prop) (m : Proc σ ε α) : Prop :=
  ∀ s s', R s s' → (m s).1 = (m s').1 ∧ R (m s).2 (m s').2

section Respects

variable {R : σ → σ → Prop}

theorem Respects.ret (a : α) : Respects R (Proc.ret a : Proc σ ε α) := fun _ _ h => ⟨rfl, h⟩

theorem Respects.raise (e : ε) : Respects R (Proc.raise e : Proc σ ε α) := fun _ _ h => ⟨rfl, h⟩

theorem Respects.modify {f : σ → σ} (hf : ∀ s s', R s s' → R (f s) (f s')) :
    Respects R (Proc.modify f : Proc σ ε Unit) :=
  fun s s' h => ⟨rfl, hf s s' h⟩

theorem Respects.lift (x : Except ε α) : Respects R (Proc.lift x : Proc σ ε α) := by
  intro s s' h
  rw [lift_apply, lift_apply]
  exact ⟨rfl, h⟩

theorem Respects.bind {m : Proc σ ε α} {f : α → Proc σ ε β} (hm : Respects R m)
    (hf : ∀ a, Respects R (f a)) : Respects R (m >>= f) := by
  intro s s' h
  obtain ⟨houtcome, hstate⟩ := hm s s' h
  rw [bind_apply, bind_apply]
  cases hrun : m s with
  | mk result mid =>
    cases hrun' : m s' with
    | mk result' mid' =>
      rw [hrun, hrun'] at houtcome hstate
      obtain rfl : result = result' := houtcome
      cases result with
      | ok a => exact hf a mid mid' hstate
      | error e => exact ⟨rfl, hstate⟩

/-- A program that reads the state may use what related states agree on. -/
theorem Respects.get_bind {f : σ → Proc σ ε β} (hread : ∀ s s', R s s' → f s = f s')
    (hf : ∀ s, Respects R (f s)) : Respects R (Proc.get >>= f) := by
  intro s s' h
  rw [bind_of_ok (get_apply s), bind_of_ok (get_apply s'), hread s s' h]
  exact hf s' s s' h

theorem Respects.attempt {m : Proc σ ε α} (hm : Respects R m) : Respects R (Proc.attempt m) := by
  intro s s' h
  obtain ⟨houtcome, hstate⟩ := hm s s' h
  exact ⟨congrArg Except.ok houtcome, hstate⟩

end Respects

end Proc
