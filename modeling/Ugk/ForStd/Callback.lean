import Ugk.ForStd.Proc

/-!
# Procedures that run a callback

Where a procedure takes another one as a callback, the rules below say from which state it runs it:
`Ignores` that a run does not get to its callback, `CallsAt` that it depends on the callback only by
what the callback does from one state.  Everything before the callback is run symbolically; what comes
after it may use what it returned or raised.
-/

namespace Proc

variable {σ τ ε α β γ : Type}

/-- The run from `s` does not get to its callback. -/
def Ignores (m : Proc τ ε γ → Proc σ ε α) (s : σ) : Prop := ∀ f g, m f s = m g s

/-- The run from `s` runs its callback from `x`, if at all, and nowhere else. -/
def CallsAt (m : Proc τ ε γ → Proc σ ε α) (s : σ) (x : τ) : Prop := ∀ f g, f x = g x → m f s = m g s

section Ignores

variable {p : Proc σ ε α} {k : Proc τ ε γ → α → Proc σ ε β} {s s' : σ}

theorem ignores_of_error {e : ε} (h : p s = (.error e, s')) :
    Ignores (fun f : Proc τ ε γ => p >>= k f) s := by
  intro f g
  show (p >>= k f) s = (p >>= k g) s
  rw [bind_of_error h, bind_of_error h]

theorem ignores_of_ok {a : α} (h : p s = (.ok a, s')) (hk : Ignores (fun f => k f a) s') :
    Ignores (fun f : Proc τ ε γ => p >>= k f) s := by
  intro f g
  show (p >>= k f) s = (p >>= k g) s
  rw [bind_of_ok h, bind_of_ok h]
  exact hk f g

/-- Where the step before the callback names it and gets to the same state whatever it is. -/
theorem ignores_of_forall_ok {p : Proc τ ε γ → Proc σ ε α} {r : Proc τ ε γ → α}
    (h : ∀ f, p f s = (.ok (r f), s')) (hk : Ignores (fun f => k f (r f)) s') :
    Ignores (fun f => p f >>= k f) s := by
  intro f g
  show (p f >>= k f) s = (p g >>= k g) s
  rw [bind_of_ok (h f), bind_of_ok (h g)]
  exact hk f g

theorem ignores_of_forall_error {p : Proc τ ε γ → Proc σ ε α} {e : ε}
    (h : ∀ f, p f s = (.error e, s')) : Ignores (fun f => p f >>= k f) s := by
  intro f g
  show (p f >>= k f) s = (p g >>= k g) s
  rw [bind_of_error (h f), bind_of_error (h g)]

theorem Ignores.bind {m : Proc τ ε γ → Proc σ ε α} (h : Ignores m s) (k : α → Proc σ ε β) :
    Ignores (fun f => m f >>= k) s := by
  intro f g
  show (m f >>= k) s = (m g >>= k) s
  rw [bind_apply, bind_apply, h f g]

end Ignores

section CallsAt

variable {m : Proc τ ε γ → Proc σ ε α} {s s' : σ} {x : τ}

theorem callsAt_self (s : σ) : CallsAt (fun f : Proc σ ε γ => f) s s := fun _ _ h => h

/-- What comes before the callback. -/
theorem callsAt_of_ok {p : Proc σ ε α} {k : Proc τ ε γ → α → Proc σ ε β} {a : α}
    (h : p s = (.ok a, s')) (hk : CallsAt (fun f => k f a) s' x) :
    CallsAt (fun f => p >>= k f) s x := by
  intro f g hfg
  show (p >>= k f) s = (p >>= k g) s
  rw [bind_of_ok h, bind_of_ok h]
  exact hk f g hfg

theorem callsAt_of_forall_ok {p : Proc τ ε γ → Proc σ ε α} {k : Proc τ ε γ → α → Proc σ ε β}
    {r : Proc τ ε γ → α} (h : ∀ f, p f s = (.ok (r f), s'))
    (hk : CallsAt (fun f => k f (r f)) s' x) : CallsAt (fun f => p f >>= k f) s x := by
  intro f g hfg
  show (p f >>= k f) s = (p g >>= k g) s
  rw [bind_of_ok (h f), bind_of_ok (h g)]
  exact hk f g hfg

/-- What comes after it. -/
theorem CallsAt.bind (h : CallsAt m s x) (k : α → Proc σ ε β) : CallsAt (fun f => m f >>= k) s x := by
  intro f g hfg
  show (m f >>= k) s = (m g >>= k) s
  rw [bind_apply, bind_apply, h f g hfg]

/-- What comes after it, where that names the callback and does not use it. -/
theorem CallsAt.bind_of_eq (h : CallsAt m s x) {k : Proc τ ε γ → α → Proc σ ε β}
    (hk : ∀ f g, k f = k g) : CallsAt (fun f => m f >>= k f) s x := by
  intro f g hfg
  show (m f >>= k f) s = (m g >>= k g) s
  rw [hk f g, bind_apply, bind_apply, h f g hfg]

theorem CallsAt.attempt (h : CallsAt m s x) : CallsAt (fun f => Proc.attempt (m f)) s x := by
  intro f g hfg
  show Proc.attempt (m f) s = Proc.attempt (m g) s
  rw [attempt_apply, attempt_apply, h f g hfg]

theorem CallsAt.mapError (h : CallsAt m s x) (rename : ε → ε) :
    CallsAt (fun f => Proc.mapError rename (m f)) s x := by
  intro f g hfg
  show Proc.mapError rename (m f) s = Proc.mapError rename (m g) s
  unfold Proc.mapError
  rw [h f g hfg]

/-- Beside a local variable. -/
theorem CallsAt.besides {ρ : Type} {v : ρ} (h : CallsAt m s x) :
    CallsAt (fun f => Proc.besides (m f)) (s, v) x := by
  intro f g hfg
  show Proc.besides (m f) (s, v) = Proc.besides (m g) (s, v)
  unfold Proc.besides
  rw [zoom_apply, zoom_apply, h f g hfg]

theorem CallsAt.withLocal {ρ : Type} {m : Proc τ ε γ → Proc (σ × ρ) ε α} {init : ρ}
    (h : CallsAt m (s, init) x) : CallsAt (fun f => Proc.withLocal init (m f)) s x := by
  intro f g hfg
  show Proc.withLocal init (m f) s = Proc.withLocal init (m g) s
  unfold Proc.withLocal
  rw [h f g hfg]

end CallsAt

end Proc
