import Mathlib.Data.List.Prime
import Mathlib.Data.Nat.Sqrt
import Mathlib.NumberTheory.LucasPrimality

/-!
# Modular powers and primality

`powMod` squares and multiplies, so that a power with an exponent of some hundred bits is evaluated
by some hundred products.  With it a list of witnesses is checked to be a chain of primes, by
Lucas's criterion: the factors of `n - 1` stand earlier in the list or are small.

## Key results

- `powMod_eq`: the value is `b ^ e % m`
- `prime_of_chain`: every number of a checked chain is prime
-/

namespace ModularPower

/-- The loop over the bits of the exponent, from the lowest. -/
def powLoop (m : ℕ) : ℕ → ℕ → ℕ → ℕ → ℕ
  | 0, acc, _, _ => acc
  | fuel + 1, acc, b, e =>
    if e = 0 then acc
    else powLoop m fuel (if e % 2 = 1 then acc * b % m else acc) (b * b % m) (e / 2)

/-- `b ^ e % m` -/
def powMod (b e m : ℕ) : ℕ := powLoop m (e.log2 + 1) (1 % m) b e % m

theorem powLoop_mod (m fuel acc b e : ℕ) (he : e < 2 ^ fuel) :
    powLoop m fuel acc b e % m = acc * b ^ e % m := by
  induction fuel generalizing acc b e with
  | zero =>
    have he0 : e = 0 := by simpa using he
    rw [powLoop, he0, pow_zero, mul_one]
  | succ fuel ih =>
    have hhalf : e / 2 < 2 ^ fuel := by
      rw [pow_succ] at he
      omega
    unfold powLoop
    by_cases he0 : e = 0
    · rw [if_pos he0, he0, pow_zero, mul_one]
    · rw [if_neg he0, ih _ _ _ hhalf]
      have hsq : (b * b % m) ^ (e / 2) ≡ b ^ (2 * (e / 2)) [MOD m] := by
        rw [pow_mul, sq]
        exact (Nat.mod_modEq _ _).pow _
      by_cases hodd : e % 2 = 1
      · rw [if_pos hodd]
        have hsplit : e = 2 * (e / 2) + 1 := by omega
        have hacc : acc * b % m * (b * b % m) ^ (e / 2) ≡ acc * b * b ^ (2 * (e / 2)) [MOD m] :=
          (Nat.mod_modEq _ _).mul hsq
        have hpow : acc * b ^ e = acc * b * b ^ (2 * (e / 2)) := by
          nth_rewrite 1 [hsplit]
          rw [pow_succ]
          ring
        rw [hpow]
        exact hacc
      · rw [if_neg hodd]
        have hsplit : e = 2 * (e / 2) := by omega
        nth_rewrite 2 [hsplit]
        exact hsq.mul_left acc

theorem powMod_eq (b e m : ℕ) : powMod b e m = b ^ e % m := by
  unfold powMod
  rw [powLoop_mod m _ _ b e Nat.lt_log2_self, Nat.mod_mul_mod, one_mul]

/-! ## Primality -/

/-- Trial division. -/
def smallPrime (n : ℕ) : Bool :=
  decide (2 ≤ n) && decide (n < 100 * 100) &&
    (List.range 100).all fun k => decide (k < 2) || decide (n ≤ k) || n % k != 0

theorem prime_of_smallPrime {n : ℕ} (h : smallPrime n = true) : n.Prime := by
  unfold smallPrime at h
  simp only [Bool.and_eq_true, decide_eq_true_eq, List.all_eq_true, List.mem_range,
    Bool.or_eq_true, bne_iff_ne] at h
  obtain ⟨⟨htwo, hlt⟩, hall⟩ := h
  refine Nat.prime_def_le_sqrt.mpr ⟨htwo, fun k hk hsqrt hdvd => ?_⟩
  have hkk : k * k ≤ n := Nat.le_sqrt.mp hsqrt
  have hk100 : k < 100 := by
    by_contra hge
    have := Nat.mul_le_mul (not_lt.mp hge) (not_lt.mp hge)
    omega
  have hkn : k < n := by
    have := Nat.mul_le_mul_right k hk
    omega
  rcases hall k hk100 with (h | h) | h
  · omega
  · omega
  · exact h (Nat.mod_eq_zero_of_dvd hdvd)

/-- A number with a base for Lucas's criterion and the prime factors of its predecessor. -/
structure Link where
  n : ℕ
  base : ℕ
  factors : List ℕ

/-- Lucas's criterion, where the factors are among the `known` primes or small. -/
def Link.check (known : List ℕ) (l : Link) : Bool :=
  decide (2 ≤ l.n) && l.factors.prod == l.n - 1 && powMod l.base (l.n - 1) l.n == 1 &&
    l.factors.all fun q =>
      (smallPrime q || known.contains q) && powMod l.base ((l.n - 1) / q) l.n != 1

/-- The links in order, each with the numbers before it. -/
def checkChain : List ℕ → List Link → Bool
  | _, [] => true
  | known, l :: rest => l.check known && checkChain (l.n :: known) rest

private theorem cast_pow_eq_one {n : ℕ} (hn : 2 ≤ n) (b e : ℕ) :
    (b : ZMod n) ^ e = 1 ↔ powMod b e n = 1 := by
  rw [powMod_eq, ← Nat.cast_pow, ← Nat.cast_one, ZMod.natCast_eq_natCast_iff, Nat.ModEq,
    Nat.mod_eq_of_lt hn]

theorem Link.prime_of_check {known : List ℕ} {l : Link} (hknown : ∀ q ∈ known, q.Prime)
    (h : l.check known = true) : l.n.Prime := by
  unfold Link.check at h
  simp only [Bool.and_eq_true, decide_eq_true_eq, beq_iff_eq, List.all_eq_true, Bool.or_eq_true,
    bne_iff_ne, List.contains_iff_mem] at h
  obtain ⟨⟨⟨htwo, hprod⟩, hone⟩, hfactors⟩ := h
  apply lucas_primality l.n (l.base : ZMod l.n)
  · exact (cast_pow_eq_one htwo _ _).mpr hone
  · intro q hq hdvd
    -- a prime divisor of the product is one of its factors
    rw [← hprod, Prime.dvd_prod_iff hq.prime] at hdvd
    obtain ⟨r, hr, hqr⟩ := hdvd
    obtain ⟨hsmall, hne⟩ := hfactors r hr
    have hrprime : r.Prime := hsmall.elim prime_of_smallPrime (hknown r)
    have hqr : q = r := (Nat.prime_dvd_prime_iff_eq hq hrprime).mp hqr
    rw [hqr, Ne, cast_pow_eq_one htwo]
    exact hne

theorem prime_of_chain {known : List ℕ} {links : List Link} (hknown : ∀ q ∈ known, q.Prime)
    (h : checkChain known links = true) : ∀ l ∈ links, l.n.Prime := by
  induction links generalizing known with
  | nil => simp
  | cons l rest ih =>
    unfold checkChain at h
    rw [Bool.and_eq_true] at h
    have hl : l.n.Prime := Link.prime_of_check hknown h.1
    have hknown' : ∀ q ∈ l.n :: known, q.Prime := by
      intro q hq
      cases List.mem_cons.mp hq with
      | inl heq => rw [heq]; exact hl
      | inr hmem => exact hknown q hmem
    intro l' hl'
    cases List.mem_cons.mp hl' with
    | inl heq => rw [heq]; exact hl
    | inr hmem => exact ih hknown' h.2 l' hmem

end ModularPower
