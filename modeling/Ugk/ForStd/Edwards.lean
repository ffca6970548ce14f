import Mathlib.Algebra.Field.Basic
import Mathlib.Algebra.Group.Even
import Mathlib.Tactic.FieldSimp
import Mathlib.Tactic.LinearCombination
import Mathlib.Tactic.Ring

/-!
# Complete twisted Edwards curves

The points of `-x² + y² = 1 + d x² y²` over a field in which `-1` is a square and `d` is not.  There
the denominators of the addition law never vanish, so one formula adds any two points, and the
points form a commutative group.

## Key results

- `one_add_ne`, `one_sub_ne`: the addition law has no exceptional points
- `Point.instAddCommGroup`: the group law
- `Point.eq_of_y_eq`: a point is determined by `y` up to the sign of `x`
-/

namespace Edwards

variable {K : Type} [Field K]

/-- The constants of a complete curve, `i` a square root of `-1`. -/
structure Curve (K : Type) [Field K] where
  d : K
  i : K
  i_mul_i : i * i = -1
  two_ne : (2 : K) ≠ 0
  not_isSquare_d : ¬ IsSquare d

variable {C : Curve K}

/-- The affine equation. -/
def Curve.On (C : Curve K) (x y : K) : Prop := y ^ 2 - x ^ 2 = 1 + C.d * x ^ 2 * y ^ 2

/-! ## Completeness -/

/-- If `d x₁ x₂ y₁ y₂ = ε` with `ε² = 1`, then `y₂ + c i x₂` vanishes for each square root `c` of
one: otherwise `d` would be the square of a quotient. -/
private theorem add_eq_zero {x₁ y₁ x₂ y₂ ε : K} (h₁ : C.On x₁ y₁) (h₂ : C.On x₂ y₂)
    (hε : ε * ε = 1) (ht : C.d * x₁ * x₂ * y₁ * y₂ = ε) (c : K) (hc : c * c = 1) :
    y₂ + c * C.i * x₂ = 0 := by
  by_contra hne
  have hε0 : ε ≠ 0 := by
    intro h
    rw [h] at hε
    simp at hε
  have hx₁ : x₁ ≠ 0 := by
    rintro rfl
    exact hε0 (by rw [← ht]; ring)
  have hy₁ : y₁ ≠ 0 := by
    rintro rfl
    exact hε0 (by rw [← ht]; ring)
  unfold Curve.On at h₁ h₂
  -- both sides of the equation are expanded with the curve equations of the two points
  have key : (y₁ + c * ε * C.i * x₁) ^ 2 = C.d * (x₁ * y₁ * (y₂ + c * C.i * x₂)) ^ 2 := by
    have hi := C.i_mul_i
    linear_combination h₁ - C.d * x₁ ^ 2 * y₁ ^ 2 * h₂
      + (c ^ 2 * ε ^ 2 * x₁ ^ 2 - C.d * x₁ ^ 2 * y₁ ^ 2 * c ^ 2 * x₂ ^ 2) * hi
      - (x₁ ^ 2 * ε ^ 2 - C.d * x₁ ^ 2 * y₁ ^ 2 * x₂ ^ 2) * hc
      - (C.d * x₁ * x₂ * y₁ * y₂ + ε + 2 * c * C.i * x₁ * y₁) * ht
      + (- x₁ ^ 2 - 1) * hε
  apply C.not_isSquare_d
  refine ⟨(y₁ + c * ε * C.i * x₁) / (x₁ * y₁ * (y₂ + c * C.i * x₂)), ?_⟩
  have hden : x₁ * y₁ * (y₂ + c * C.i * x₂) ≠ 0 := mul_ne_zero (mul_ne_zero hx₁ hy₁) hne
  rw [div_mul_div_comm, eq_div_iff (mul_ne_zero hden hden)]
  linear_combination -key

private theorem mul_ne_of_sq_eq_one {x₁ y₁ x₂ y₂ ε : K} (h₁ : C.On x₁ y₁) (h₂ : C.On x₂ y₂)
    (hε : ε * ε = 1) : C.d * x₁ * x₂ * y₁ * y₂ ≠ ε := by
  intro ht
  have hp := add_eq_zero h₁ h₂ hε ht 1 (by ring)
  have hm := add_eq_zero h₁ h₂ hε ht (-1) (by ring)
  have hy₂ : 2 * y₂ = 0 := by linear_combination hp + hm
  have hy₂ : y₂ = 0 := (mul_eq_zero.mp hy₂).resolve_left C.two_ne
  have hε0 : ε = 0 := by rw [← ht, hy₂, mul_zero]
  rw [hε0] at hε
  simp at hε

theorem one_add_ne {x₁ y₁ x₂ y₂ : K} (h₁ : C.On x₁ y₁) (h₂ : C.On x₂ y₂) :
    1 + C.d * x₁ * x₂ * y₁ * y₂ ≠ 0 := by
  intro h
  apply mul_ne_of_sq_eq_one (ε := -1) h₁ h₂ (by ring)
  linear_combination h

theorem one_sub_ne {x₁ y₁ x₂ y₂ : K} (h₁ : C.On x₁ y₁) (h₂ : C.On x₂ y₂) :
    1 - C.d * x₁ * x₂ * y₁ * y₂ ≠ 0 := by
  intro h
  apply mul_ne_of_sq_eq_one (ε := 1) h₁ h₂ (by ring)
  linear_combination -h

/-! ## Points -/

/-- An affine point. -/
@[ext]
structure Point (C : Curve K) where
  x : K
  y : K
  on : C.On x y

namespace Point

theorem on_neg {x y : K} (h : C.On x y) : C.On (-x) y := by
  unfold Curve.On at h ⊢
  linear_combination h

/-- The sum of two points is on the curve, with the denominators cleared. -/
private theorem on_add_cleared {x₁ y₁ x₂ y₂ t : K} (h₁ : C.On x₁ y₁) (h₂ : C.On x₂ y₂)
    (ht : C.d * x₁ * x₂ * y₁ * y₂ = t) :
    (y₁ * y₂ + x₁ * x₂) ^ 2 * (1 + t) ^ 2 - (x₁ * y₂ + y₁ * x₂) ^ 2 * (1 - t) ^ 2 =
      (1 + t) ^ 2 * (1 - t) ^ 2
        + C.d * (x₁ * y₂ + y₁ * x₂) ^ 2 * (y₁ * y₂ + x₁ * x₂) ^ 2 := by
  subst ht
  unfold Curve.On at h₁ h₂
  -- the remainder of the difference by the equation of the second point, then of the first
  linear_combination
    (1 + (y₁ ^ 2 - x₁ ^ 2) + (2 + C.d) * x₁ ^ 2 * y₁ ^ 2 - (y₁ ^ 2 - x₁ ^ 2) * (y₂ ^ 2 - x₂ ^ 2)
      - 2 * (1 + C.d) * x₁ ^ 2 * y₁ ^ 2 * (y₂ ^ 2 - x₂ ^ 2)
      + C.d * x₁ ^ 2 * y₁ ^ 2 * (y₂ ^ 4 + x₂ ^ 4)) * h₁
    + (y₁ ^ 4 + x₁ ^ 4 - (4 + 2 * C.d) * x₁ ^ 2 * y₁ ^ 2 + 2 * x₁ ^ 2 * y₁ ^ 2 * (y₁ ^ 2 - x₁ ^ 2)
      - (2 * C.d + C.d ^ 2) * x₁ ^ 4 * y₁ ^ 4
      - C.d * x₁ ^ 2 * y₁ ^ 2 * (y₁ ^ 2 - x₁ ^ 2) * (y₂ ^ 2 - x₂ ^ 2)
      + C.d ^ 2 * x₁ ^ 4 * y₁ ^ 4 * (y₂ ^ 2 - x₂ ^ 2)
      + C.d ^ 3 * x₁ ^ 4 * y₁ ^ 4 * x₂ ^ 2 * y₂ ^ 2) * h₂

theorem on_add {x₁ y₁ x₂ y₂ : K} (h₁ : C.On x₁ y₁) (h₂ : C.On x₂ y₂) :
    C.On ((x₁ * y₂ + y₁ * x₂) / (1 + C.d * x₁ * x₂ * y₁ * y₂))
      ((y₁ * y₂ + x₁ * x₂) / (1 - C.d * x₁ * x₂ * y₁ * y₂)) := by
  have hp := one_add_ne h₁ h₂
  have hm := one_sub_ne h₁ h₂
  have key := on_add_cleared h₁ h₂ rfl
  unfold Curve.On
  generalize C.d * x₁ * x₂ * y₁ * y₂ = t at hp hm key
  field_simp
  linear_combination key

instance : Zero (Point C) := ⟨⟨0, 1, by unfold Curve.On; ring⟩⟩

instance : Neg (Point C) := ⟨fun P => ⟨-P.x, P.y, on_neg P.on⟩⟩

/-! The numerators and denominators of a sum. -/

def xNum (P Q : Point C) : K := P.x * Q.y + P.y * Q.x

def yNum (P Q : Point C) : K := P.y * Q.y + P.x * Q.x

def xDen (P Q : Point C) : K := 1 + C.d * P.x * Q.x * P.y * Q.y

def yDen (P Q : Point C) : K := 1 - C.d * P.x * Q.x * P.y * Q.y

theorem xDen_ne (P Q : Point C) : xDen P Q ≠ 0 := one_add_ne P.on Q.on

theorem yDen_ne (P Q : Point C) : yDen P Q ≠ 0 := one_sub_ne P.on Q.on

instance : Add (Point C) := ⟨fun P Q =>
  ⟨xNum P Q / xDen P Q, yNum P Q / yDen P Q, on_add P.on Q.on⟩⟩

@[simp] theorem zero_x : (0 : Point C).x = 0 := rfl
@[simp] theorem zero_y : (0 : Point C).y = 1 := rfl
@[simp] theorem neg_x (P : Point C) : (-P).x = -P.x := rfl
@[simp] theorem neg_y (P : Point C) : (-P).y = P.y := rfl

theorem add_x (P Q : Point C) : (P + Q).x = xNum P Q / xDen P Q := rfl

theorem add_y (P Q : Point C) : (P + Q).y = yNum P Q / yDen P Q := rfl

protected theorem add_comm (P Q : Point C) : P + Q = Q + P := by
  ext
  · rw [add_x, add_x]
    unfold xNum xDen
    congr 1 <;> ring
  · rw [add_y, add_y]
    unfold yNum yDen
    congr 1 <;> ring

protected theorem zero_add (P : Point C) : 0 + P = P := by
  ext
  · rw [add_x]
    simp [xNum, xDen]
  · rw [add_y]
    simp [yNum, yDen]

protected theorem neg_add_cancel (P : Point C) : -P + P = 0 := by
  have hon := P.on
  unfold Curve.On at hon
  ext
  · rw [add_x, zero_x, div_eq_zero_iff]
    left
    show -P.x * P.y + P.y * P.x = 0
    ring
  · rw [add_y, zero_y, div_eq_one_iff_eq (yDen_ne _ _)]
    show P.y * P.y + -P.x * P.x = 1 - C.d * -P.x * P.x * P.y * P.y
    linear_combination hon

/-! ## Associativity -/

/-- The sum of three points, as one quotient. -/
private theorem add_add (P Q R : Point C) :
    (P + Q + R).x = (xNum P Q * yDen P Q * R.y + yNum P Q * xDen P Q * R.x) /
        (xDen P Q * yDen P Q + C.d * xNum P Q * yNum P Q * R.x * R.y) ∧
      (P + Q + R).y = (yNum P Q * xDen P Q * R.y + xNum P Q * yDen P Q * R.x) /
        (xDen P Q * yDen P Q - C.d * xNum P Q * yNum P Q * R.x * R.y) ∧
      xDen P Q * yDen P Q + C.d * xNum P Q * yNum P Q * R.x * R.y ≠ 0 ∧
      xDen P Q * yDen P Q - C.d * xNum P Q * yNum P Q * R.x * R.y ≠ 0 := by
  have hp := xDen_ne P Q
  have hm := yDen_ne P Q
  have hpm := mul_ne_zero hp hm
  have hx : xDen P Q * yDen P Q * xDen (P + Q) R =
      xDen P Q * yDen P Q + C.d * xNum P Q * yNum P Q * R.x * R.y := by
    unfold xDen at hp ⊢
    unfold yDen at hm ⊢
    rw [add_x, add_y]
    unfold xDen yDen
    field_simp
  have hy : xDen P Q * yDen P Q * yDen (P + Q) R =
      xDen P Q * yDen P Q - C.d * xNum P Q * yNum P Q * R.x * R.y := by
    unfold xDen at hp ⊢
    unfold yDen at hm ⊢
    rw [add_x, add_y]
    unfold xDen yDen
    field_simp
  refine ⟨?_, ?_, ?_, ?_⟩
  · rw [← hx, add_x, div_eq_div_iff (xDen_ne _ _) (mul_ne_zero hpm (xDen_ne _ _))]
    show (_ * R.y + _ * R.x) * _ = _
    rw [add_x, add_y]
    field_simp
  · rw [← hy, add_y, div_eq_div_iff (yDen_ne _ _) (mul_ne_zero hpm (yDen_ne _ _))]
    show (_ * R.y + _ * R.x) * _ = _
    rw [add_x, add_y]
    field_simp
  · rw [← hx]
    exact mul_ne_zero hpm (xDen_ne _ _)
  · rw [← hy]
    exact mul_ne_zero hpm (yDen_ne _ _)

/-- The abscissas of the two sums agree after cross-multiplication.  The coefficients are the
quotients by the equations of the first, the third and the second point, in this order. -/
private theorem assoc_x (P Q R : Point C) :
    (xNum P Q * yDen P Q * R.y + yNum P Q * xDen P Q * R.x) *
        (xDen Q R * yDen Q R + C.d * xNum Q R * yNum Q R * P.x * P.y) =
      (xNum Q R * yDen Q R * P.y + yNum Q R * xDen Q R * P.x) *
        (xDen P Q * yDen P Q + C.d * xNum P Q * yNum P Q * R.x * R.y) := by
  obtain ⟨x₁, y₁, h₁⟩ := P
  obtain ⟨x₂, y₂, h₂⟩ := Q
  obtain ⟨x₃, y₃, h₃⟩ := R
  unfold Curve.On at h₁ h₂ h₃
  simp only [xNum, yNum, xDen, yDen]
  linear_combination
    C.d * x₂ * y₂ *
        ((x₁ * y₃ - y₁ * x₃) * x₃ * y₃ * y₂ ^ 3 * (1 - C.d * x₂ ^ 2)
          + (y₁ * y₃ - x₁ * x₃) * x₃ * y₃ * x₂ ^ 3 * (1 + C.d * y₂ ^ 2)
          - (y₁ * x₃ * (1 + x₃ ^ 2) + x₁ * y₃ * (1 - y₃ ^ 2)) * x₂ * y₂ ^ 2
          - (y₁ * y₃ * (1 - y₃ ^ 2) + x₁ * x₃ * (1 + x₃ ^ 2)) * x₂ ^ 2 * y₂) * h₁
    + C.d * x₂ * y₂ *
        (x₁ * (1 + x₁ ^ 2) * x₃ * y₃ * (y₂ * y₃ + x₂ * x₃)
          - y₁ * (1 - y₁ ^ 2) * x₃ * y₃ * (y₂ * x₃ + x₂ * y₃)
          + x₁ * y₁ ^ 2 * (x₂ * y₃ * (1 - y₃ ^ 2) - y₂ * x₃ * (1 + x₃ ^ 2))
          + x₁ ^ 2 * y₁ * (y₂ * y₃ * (1 - y₃ ^ 2) - x₂ * x₃ * (1 + x₃ ^ 2))) * h₂
    + C.d * x₂ * y₂ *
        (y₁ * (1 - y₁ ^ 2) * x₂ * y₂ * (y₂ * x₃ + x₂ * y₃)
          + x₁ * (1 + x₁ ^ 2) * x₂ * y₂ * (y₂ * y₃ + x₂ * x₃)
          + x₁ * y₁ * ((x₁ * y₃ - y₁ * x₃) * y₂ ^ 3 * (1 - C.d * x₂ ^ 2)
            + (x₁ * x₃ - y₁ * y₃) * x₂ ^ 3 * (1 + C.d * y₂ ^ 2))) * h₃

private theorem assoc_y (P Q R : Point C) :
    (yNum P Q * xDen P Q * R.y + xNum P Q * yDen P Q * R.x) *
        (xDen Q R * yDen Q R - C.d * xNum Q R * yNum Q R * P.x * P.y) =
      (yNum Q R * xDen Q R * P.y + xNum Q R * yDen Q R * P.x) *
        (xDen P Q * yDen P Q - C.d * xNum P Q * yNum P Q * R.x * R.y) := by
  obtain ⟨x₁, y₁, h₁⟩ := P
  obtain ⟨x₂, y₂, h₂⟩ := Q
  obtain ⟨x₃, y₃, h₃⟩ := R
  unfold Curve.On at h₁ h₂ h₃
  simp only [xNum, yNum, xDen, yDen]
  linear_combination
    C.d * x₂ * y₂ *
        ((y₁ * y₃ - x₁ * x₃) * x₃ * y₃ * y₂ ^ 3 * (1 - C.d * x₂ ^ 2)
          + (x₁ * y₃ - y₁ * x₃) * x₃ * y₃ * x₂ ^ 3 * (1 + C.d * y₂ ^ 2)
          - (x₁ * x₃ * (1 + x₃ ^ 2) + y₁ * y₃ * (1 - y₃ ^ 2)) * x₂ * y₂ ^ 2
          - (x₁ * y₃ * (1 - y₃ ^ 2) + y₁ * x₃ * (1 + x₃ ^ 2)) * x₂ ^ 2 * y₂) * h₁
    + C.d * x₂ * y₂ *
        (y₁ * (1 - y₁ ^ 2) * x₃ * y₃ * (y₂ * y₃ + x₂ * x₃)
          - x₁ * (1 + x₁ ^ 2) * x₃ * y₃ * (y₂ * x₃ + x₂ * y₃)
          + x₁ * y₁ ^ 2 * (x₂ * x₃ * (1 + x₃ ^ 2) - y₂ * y₃ * (1 - y₃ ^ 2))
          + x₁ ^ 2 * y₁ * (y₂ * x₃ * (1 + x₃ ^ 2) - x₂ * y₃ * (1 - y₃ ^ 2))) * h₂
    + C.d * x₂ * y₂ *
        (y₁ * (1 - y₁ ^ 2) * x₂ * y₂ * (y₂ * y₃ + x₂ * x₃)
          + x₁ * (1 + x₁ ^ 2) * x₂ * y₂ * (y₂ * x₃ + x₂ * y₃)
          + x₁ * y₁ * ((x₁ * x₃ - y₁ * y₃) * y₂ ^ 3 * (1 - C.d * x₂ ^ 2)
            + (x₁ * y₃ - y₁ * x₃) * x₂ ^ 3 * (1 + C.d * y₂ ^ 2))) * h₃

protected theorem add_assoc (P Q R : Point C) : P + Q + R = P + (Q + R) := by
  rw [Point.add_comm P (Q + R)]
  obtain ⟨hx, hy, hxne, hyne⟩ := add_add P Q R
  obtain ⟨hx', hy', hxne', hyne'⟩ := add_add Q R P
  ext
  · rw [hx, hx', div_eq_div_iff hxne hxne']
    exact assoc_x P Q R
  · rw [hy, hy', div_eq_div_iff hyne hyne']
    exact assoc_y P Q R

/-- The group of points. -/
instance instAddCommGroup : AddCommGroup (Point C) where
  add_assoc := Point.add_assoc
  zero_add := Point.zero_add
  add_zero P := by rw [Point.add_comm, Point.zero_add]
  neg_add_cancel := Point.neg_add_cancel
  add_comm := Point.add_comm
  nsmul := nsmulRec
  zsmul := zsmulRec

/-! ## The ordinate -/

/-- The factor of `x²` in the equation never vanishes. -/
theorem coeff_ne (C : Curve K) (y : K) : C.d * y ^ 2 + 1 ≠ 0 := by
  intro h
  have hy : y ≠ 0 := by
    rintro rfl
    simp at h
  apply C.not_isSquare_d
  refine ⟨C.i / y, ?_⟩
  rw [div_mul_div_comm, eq_div_iff (mul_ne_zero hy hy)]
  linear_combination h - C.i_mul_i

/-- The equation, solved for `x²`. -/
theorem on_iff {C : Curve K} {x y : K} : C.On x y ↔ x ^ 2 * (C.d * y ^ 2 + 1) = y ^ 2 - 1 := by
  unfold Curve.On
  constructor
  · intro h
    linear_combination -h
  · intro h
    linear_combination -h

theorem eq_of_y_eq {P Q : Point C} (h : P.y = Q.y) : P = Q ∨ P = -Q := by
  have hP := on_iff.mp P.on
  have hQ := on_iff.mp Q.on
  rw [h] at hP
  have hsq : P.x ^ 2 = Q.x ^ 2 := mul_right_cancel₀ (coeff_ne C Q.y) (hP.trans hQ.symm)
  cases sq_eq_sq_iff_eq_or_eq_neg.mp hsq with
  | inl hx =>
    left
    exact Point.ext hx h
  | inr hx =>
    right
    exact Point.ext hx h

end Point

end Edwards
