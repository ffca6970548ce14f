import Mathlib.NumberTheory.LegendreSymbol.Basic
import Mathlib.GroupTheory.OrderOfElement
import Ugk.ForStd.Edwards
import Ugk.Native.Ed25519

/-!
# The curve of Ed25519

The field modulus and the group order are prime, and the curve is complete: `_D` is no square.  Then
`_recover_x` finds the abscissa of the wanted parity whenever there is one, and the 32 bytes of
`_compress` and `_decompress` are one encoding of each point.

## Key results

- `recoverX_eq_some_iff`: `_recover_x`, exactly
- `encode_inj`: two points have different encodings
- `decompress_eq_ok_iff`: what `_decompress` accepts, and what it returns
-/

namespace Ugk

namespace Ed25519

open Edwards ModularPower

/-! ## Primes -/

/-- Witnesses for the two primes, with those of the factors met on the way. -/
def primeChain : List Link := [
  ⟨17231, 13, [2, 5, 1723]⟩,
  ⟨22111, 6, [2, 3, 5, 11, 67]⟩,
  ⟨30703, 3, [2, 3, 7, 17, 43]⟩,
  ⟨32573, 2, [2, 2, 17, 479]⟩,
  ⟨34123, 2, [2, 3, 11, 11, 47]⟩,
  ⟨37853, 2, [2, 2, 9463]⟩,
  ⟨41081, 3, [2, 2, 2, 5, 13, 79]⟩,
  ⟨57467, 2, [2, 59, 487]⟩,
  ⟨65147, 2, [2, 32573]⟩,
  ⟨75707, 2, [2, 37853]⟩,
  ⟨82163, 2, [2, 41081]⟩,
  ⟨132049, 26, [2, 2, 2, 2, 3, 3, 7, 131]⟩,
  ⟨132667, 5, [2, 3, 22111]⟩,
  ⟨137849, 3, [2, 2, 2, 17231]⟩,
  ⟨409477, 2, [2, 2, 3, 34123]⟩,
  ⟨430751, 17, [2, 5, 5, 5, 1723]⟩,
  ⟨531581, 2, [2, 2, 5, 7, 3797]⟩,
  ⟨569003, 2, [2, 7, 97, 419]⟩,
  ⟨1224481, 13, [2, 2, 2, 2, 2, 3, 5, 2551]⟩,
  ⟨1923133, 2, [2, 2, 3, 43, 3727]⟩,
  ⟨8574133, 2, [2, 2, 3, 7, 103, 991]⟩,
  ⟨14741173, 2, [2, 2, 3, 3, 409477]⟩,
  ⟨58964693, 2, [2, 2, 14741173]⟩,
  ⟨292386187, 2, [2, 3, 3, 3, 3, 307, 5879]⟩,
  ⟨2773320623, 5, [2, 2437, 569003]⟩,
  ⟨72106336199, 7, [2, 13, 2773320623]⟩,
  ⟨213441916511, 13, [2, 5, 73, 292386187]⟩,
  ⟨1257559732178653, 2, [2, 2, 3, 7, 23, 531581, 1224481]⟩,
  ⟨1919519569386763, 2, [2, 3, 7, 19, 47, 47, 127, 8574133]⟩,
  ⟨31757755568855353, 10, [2, 2, 2, 3, 31, 107, 223, 4153, 430751]⟩,
  ⟨4434155615661930479, 17, [2, 41, 43, 1257559732178653]⟩,
  ⟨3044861653679985063343, 5, [2, 3, 11, 30703, 82163, 132667, 137849]⟩,
  ⟨172054593956031949258510691, 2, [2, 5, 1361, 2851, 4434155615661930479]⟩,
  ⟨198211423230930754013084525763697, 5, [2, 2, 2, 2, 3, 23, 58964693, 3044861653679985063343]⟩,
  ⟨75445702479781427272750846543864801, 7,
    [2, 2, 2, 2, 2, 3, 3, 5, 5, 75707, 72106336199, 1919519569386763]⟩,
  ⟨19757330305831588566944191468367130476339, 2,
    [2, 269, 213441916511, 172054593956031949258510691]⟩,
  ⟨276602624281642239937218680557139826668747, 2,
    [2, 7, 19757330305831588566944191468367130476339]⟩,
  ⟨74058212732561358302231226437062788676166966415465897661863160754340907, 2,
    [2, 3, 353, 57467, 132049, 1923133, 31757755568855353, 75445702479781427272750846543864801]⟩,
  ⟨L, 2,
    [2, 2, 3, 11, 198211423230930754013084525763697, 276602624281642239937218680557139826668747]⟩,
  ⟨P, 2,
    [2, 2, 3, 65147, 74058212732561358302231226437062788676166966415465897661863160754340907]⟩]

/-- The long computations with the constants, evaluated together: the two primes, `_SQRT_M1`, Euler's
    criterion for `_D`, the search for `_G_X`, and the multiple by `_L` of the base point. -/
theorem evaluations : checkChain [] primeChain = true ∧ sqrtM1 * sqrtM1 % P = P - 1 ∧
    pow D (P / 2) P = P - 1 ∧ recoverX gY 0 = some gX ∧ gX % P ≠ 0 ∧
    (pointMul L G).x = 0 ∧ (pointMul L G).y = (pointMul L G).z := by decide +kernel

theorem prime_of_mem {l : Link} (h : l ∈ primeChain) : l.n.Prime :=
  prime_of_chain (by simp) evaluations.1 l h

theorem prime_P : P.Prime :=
  prime_of_mem (l := ⟨P, 2, [2, 2, 3, 65147,
    74058212732561358302231226437062788676166966415465897661863160754340907]⟩)
    (by simp [primeChain])

theorem prime_L : L.Prime :=
  prime_of_mem (l := ⟨L, 2, [2, 2, 3, 11, 198211423230930754013084525763697,
    276602624281642239937218680557139826668747]⟩) (by simp [primeChain])

theorem P_mod_eight : P % 8 = 5 := by norm_num [P]

theorem P_lt : P < 2 ^ 255 := by norm_num [P]

theorem two_lt_P : 2 < P := by norm_num [P]

instance : Fact P.Prime := ⟨prime_P⟩

/-- The field. -/
abbrev F := ZMod P

/-! ## Residues -/

/-- A number that stands for itself. -/
def Reduced (n : Int) : Prop := 0 ≤ n ∧ n < P

theorem reduced_mod (n : Int) : Reduced (n % P) :=
  ⟨Int.emod_nonneg _ (by exact_mod_cast prime_P.ne_zero),
    Int.emod_lt_of_pos _ (by exact_mod_cast prime_P.pos)⟩

theorem reduced_val (a : F) : Reduced (a.val : Int) :=
  ⟨Int.natCast_nonneg _, by exact_mod_cast ZMod.val_lt a⟩

@[simp] theorem cast_mod (n : Int) : ((n % P : Int) : F) = n := ZMod.intCast_mod n P

theorem Reduced.cast_inj {m n : Int} (hm : Reduced m) (hn : Reduced n) (h : (m : F) = n) :
    m = n := by
  have hmod := (ZMod.intCast_eq_intCast_iff m n P).mp h
  unfold Int.ModEq at hmod
  rwa [Int.emod_eq_of_lt hm.1 hm.2, Int.emod_eq_of_lt hn.1 hn.2] at hmod

theorem Reduced.val_cast {n : Int} (hn : Reduced n) : ((n : F).val : Int) = n := by
  apply (reduced_val _).cast_inj hn
  simp

theorem mod_eq_zero_iff (n : Int) : n % P = 0 ↔ (n : F) = 0 := by
  rw [ZMod.intCast_zmod_eq_zero_iff_dvd, Int.dvd_iff_emod_eq_zero]

theorem reduced_pow (b : Int) (e : Nat) : Reduced (pow b e P) := by
  unfold pow Reduced
  rw [powMod_eq]
  constructor
  · exact Int.natCast_nonneg _
  · exact_mod_cast Nat.mod_lt _ prime_P.pos

@[simp] theorem cast_pow (b : Int) (e : Nat) : ((pow b e P : Int) : F) = (b : F) ^ e := by
  unfold pow
  have hb : ((b % P).toNat : Int) = b % P := Int.toNat_of_nonneg (reduced_mod b).1
  have hcast : (((b % P).toNat : ℕ) : F) = b := by
    rw [← Int.cast_natCast, hb, cast_mod]
  rw [powMod_eq, Int.cast_natCast, ZMod.natCast_mod, Nat.cast_pow, hcast]

/-- The inverse by Fermat, of zero too. -/
theorem pow_sub_two (a : F) : a ^ (P - 2) = a⁻¹ := by
  by_cases ha : a = 0
  · have hlt := two_lt_P
    rw [ha, inv_zero, zero_pow (by omega)]
  · have hlt := two_lt_P
    have hexp : P - 2 + 1 = P - 1 := by omega
    apply eq_inv_of_mul_eq_one_left
    rw [← pow_succ, hexp]
    exact ZMod.pow_card_sub_one_eq_one ha

/-! ## The curve -/

theorem two_ne : (2 : F) ≠ 0 := by
  intro h
  have h2 : ((2 : ℕ) : F) = 0 := by exact_mod_cast h
  rw [ZMod.natCast_eq_zero_iff] at h2
  have hle := Nat.le_of_dvd (by omega) h2
  have hlt := two_lt_P
  omega

theorem cast_P_sub_one : (((P : Int) - 1 : Int) : F) = -1 := by
  push_cast
  rw [ZMod.natCast_self]
  ring

theorem D_pow_half : (D : F) ^ (P / 2) = -1 := by
  rw [← cast_pow, evaluations.2.2.1, cast_P_sub_one]

/-- Euler's criterion decides that `_D` is no square. -/
theorem not_isSquare_D : ¬ IsSquare (D : F) := by
  have hD := D_pow_half
  have hlt := two_lt_P
  have hne : (D : F) ≠ 0 := by
    intro h
    rw [h, zero_pow (by omega)] at hD
    exact two_ne (by linear_combination 2 * hD)
  rw [ZMod.euler_criterion P hne, hD]
  intro h
  apply two_ne
  linear_combination -h

/-- The curve of Ed25519. -/
def curve : Curve F where
  d := D
  i := sqrtM1
  i_mul_i := by
    rw [← Int.cast_mul, ← cast_mod, evaluations.2.1, cast_P_sub_one]
  two_ne := two_ne
  not_isSquare_d := not_isSquare_D

@[simp] theorem curve_d : curve.d = (D : F) := rfl

/-! ## The abscissa -/

/-- `x²` by the equation. -/
def xSquared (y : F) : F := (y ^ 2 - 1) * (D * y ^ 2 + 1)⁻¹

theorem on_iff_sq {x y : F} : curve.On x y ↔ x ^ 2 = xSquared y := by
  have hne : (D : F) * y ^ 2 + 1 ≠ 0 := Point.coeff_ne curve y
  rw [Point.on_iff, curve_d]
  unfold xSquared
  rw [eq_mul_inv_iff_mul_eq₀ hne]

/-- The number `_recover_x` computes for `x²`. -/
theorem cast_x2 (y : Int) :
    (((y * y % P - 1) * pow (D * (y * y % P) + 1) (P - 2) P % P : Int) : F) = xSquared y := by
  rw [cast_mod, Int.cast_mul, cast_pow, pow_sub_two]
  unfold xSquared
  push_cast
  ring

/-- The power of `w` is a root of `w` or of `-w`. -/
theorem power_sq {w s : F} (hw : w ≠ 0) (hs : s ^ 2 = w) :
    (w ^ ((P + 3) / 8)) ^ 2 = w ∨ (w ^ ((P + 3) / 8)) ^ 2 = -w := by
  have hs0 : s ≠ 0 := by
    rintro rfl
    exact hw (by rw [← hs]; ring)
  have hmod := P_mod_eight
  have hexp : (P + 3) / 8 * 2 = (P - 1) / 4 + 1 := by omega
  have hquarter : (w ^ ((P - 1) / 4)) ^ 2 = 1 := by
    rw [← hs, ← pow_mul, ← pow_mul]
    have he : 2 * ((P - 1) / 4 * 2) = P - 1 := by omega
    rw [he]
    exact ZMod.pow_card_sub_one_eq_one hs0
  rw [← pow_mul, hexp, pow_succ]
  cases sq_eq_sq_iff_eq_or_eq_neg.mp (hquarter.trans (one_pow 2).symm) with
  | inl h =>
    left
    rw [h, one_mul]
  | inr h =>
    right
    rw [h, neg_one_mul]

/-- The candidate of `_recover_x`, corrected by `_SQRT_M1`. -/
def candidate (x2 : Int) : Int :=
  let x := pow x2 ((P + 3) / 8) P
  if (x * x - x2) % P ≠ 0 then x * sqrtM1 % P else x

/-- The rest of `_recover_x` once `x²` is known. -/
def rootOf (x2 sign : Int) : Option Int :=
  if x2 = 0 then (if sign = 0 then some 0 else none)
  else if (candidate x2 * candidate x2 - x2) % P ≠ 0 then none
  else if candidate x2 % 2 ≠ sign then some (P - candidate x2)
  else some (candidate x2)

theorem recoverX_eq (y sign : Int) : recoverX y sign =
    if y ≥ P then none
    else rootOf ((y * y % P - 1) * pow (D * (y * y % P) + 1) (P - 2) P % P) sign := rfl

theorem reduced_candidate (x2 : Int) : Reduced (candidate x2) := by
  unfold candidate
  dsimp only
  split
  · exact reduced_mod _
  · exact reduced_pow _ _

theorem sub_mod_eq_zero_iff (x x2 : Int) : (x * x - x2) % P = 0 ↔ (x : F) ^ 2 = x2 := by
  rw [mod_eq_zero_iff, Int.cast_sub, Int.cast_mul, sub_eq_zero, sq]

theorem candidate_sq {x2 : Int} {s : F} (h0 : (x2 : F) ≠ 0) (hs : s ^ 2 = (x2 : F)) :
    (candidate x2 : F) ^ 2 = x2 := by
  have hpower := power_sq h0 hs
  unfold candidate
  dsimp only
  by_cases hsq : (pow x2 ((P + 3) / 8) P * pow x2 ((P + 3) / 8) P - x2) % P = 0
  · rw [if_neg (not_not.mpr hsq)]
    exact (sub_mod_eq_zero_iff _ _).mp hsq
  · rw [if_pos hsq]
    rw [sub_mod_eq_zero_iff, cast_pow] at hsq
    have hneg := hpower.resolve_left hsq
    have hi : (sqrtM1 : F) * sqrtM1 = -1 := curve.i_mul_i
    rw [cast_mod, Int.cast_mul, cast_pow]
    rw [mul_pow, hneg, sq, hi, neg_mul_neg, mul_one]

/-- Of the two roots one is even and one is odd. -/
theorem eq_or_eq_sub_of_sq_eq {x x' : Int} (hx : Reduced x) (hx' : Reduced x') (h0 : (x : F) ≠ 0)
    (h : (x' : F) ^ 2 = (x : F) ^ 2) : x' = x ∨ x' = P - x := by
  have hx0 : x ≠ 0 := by
    rintro rfl
    exact h0 Int.cast_zero
  cases sq_eq_sq_iff_eq_or_eq_neg.mp h with
  | inl heq =>
    left
    exact hx'.cast_inj hx heq
  | inr hneg =>
    right
    apply hx'.cast_inj
    · unfold Reduced at hx ⊢
      omega
    · rw [hneg]
      push_cast
      rw [ZMod.natCast_self, zero_sub]

theorem rootOf_eq_some_iff {x2 sign x : Int} (hx2 : Reduced x2) (hsign : sign = 0 ∨ sign = 1) :
    rootOf x2 sign = some x ↔ Reduced x ∧ x % 2 = sign ∧ (x : F) ^ 2 = x2 := by
  have hmod := P_mod_eight
  unfold rootOf
  by_cases h0 : x2 = 0
  · -- the only root of zero is zero, which is even
    rw [if_pos h0, h0, Int.cast_zero, sq_eq_zero_iff]
    constructor
    · intro h
      by_cases hs : sign = 0
      · rw [if_pos hs, Option.some.injEq] at h
        subst h
        exact ⟨by rw [← h0]; exact hx2, by omega, Int.cast_zero⟩
      · rw [if_neg hs] at h
        cases h
    · rintro ⟨hx, hpar, hcast⟩
      have hx0 : x = 0 := hx.cast_inj (h0 ▸ hx2) (hcast.trans Int.cast_zero.symm)
      rw [if_pos (by omega), hx0]
  · have hcast0 : (x2 : F) ≠ 0 := by
      intro h
      apply h0
      exact hx2.cast_inj (reduced_mod 0) (by rw [h]; simp)
    have hcand := reduced_candidate x2
    rw [if_neg h0]
    by_cases hsq : (candidate x2 : F) ^ 2 = x2
    · rw [if_neg (not_not.mpr ((sub_mod_eq_zero_iff _ _).mpr hsq))]
      have hc0 : (candidate x2 : F) ≠ 0 := by
        intro h
        rw [h] at hsq
        exact hcast0 (by rw [← hsq]; ring)
      have hcne : candidate x2 ≠ 0 := by
        intro h
        rw [h] at hc0
        exact hc0 Int.cast_zero
      constructor
      · intro h
        by_cases hpar : candidate x2 % 2 = sign
        · rw [if_neg (not_not.mpr hpar), Option.some.injEq] at h
          subst h
          exact ⟨hcand, hpar, hsq⟩
        · rw [if_pos hpar, Option.some.injEq] at h
          subst h
          refine ⟨?_, by omega, ?_⟩
          · unfold Reduced at hcand ⊢
            omega
          · push_cast
            rw [ZMod.natCast_self, zero_sub, neg_sq, hsq]
      · rintro ⟨hx, hpar, hroot⟩
        cases eq_or_eq_sub_of_sq_eq hcand hx hc0 (hroot.trans hsq.symm) with
        | inl heq =>
          subst heq
          rw [if_neg (not_not.mpr hpar)]
        | inr heq => rw [if_pos (by omega), heq]
    · rw [if_pos (mt (sub_mod_eq_zero_iff _ _).mp hsq)]
      constructor
      · intro h
        cases h
      · rintro ⟨-, -, hroot⟩
        exact absurd (candidate_sq hcast0 hroot) hsq

/-- What `_recover_x` returns is the root of the wanted parity. -/
theorem recoverX_eq_some_iff {y sign x : Int} (hsign : sign = 0 ∨ sign = 1) :
    recoverX y sign = some x ↔ y < P ∧ Reduced x ∧ x % 2 = sign ∧ curve.On (x : F) (y : F) := by
  rw [recoverX_eq]
  by_cases hy : y ≥ P
  · rw [if_pos hy]
    constructor
    · intro h
      cases h
    · rintro ⟨hlt, -⟩
      omega
  · have hlt : y < P := not_le.mp hy
    rw [if_neg hy, rootOf_eq_some_iff (reduced_mod _) hsign, cast_x2, on_iff_sq]
    simp only [hlt, true_and]

/-! ## Bytes -/

theorem length_toBytes (k n : Nat) : (toBytes k n).length = k := by
  induction k generalizing n with
  | zero => rfl
  | succ k ih => rw [toBytes, List.length_cons, ih]

theorem toNat_toUInt8 {n : Nat} (h : n < 256) : n.toUInt8.toNat = n := by
  show n % 2 ^ 8 = n
  omega

theorem fromBytes_toBytes (k n : Nat) : fromBytes (toBytes k n) = n % 256 ^ k := by
  induction k generalizing n with
  | zero => simp [toBytes, fromBytes, Nat.mod_one]
  | succ k ih =>
    rw [toBytes, fromBytes, ih, toNat_toUInt8 (Nat.mod_lt _ (by omega)), pow_succ', Nat.mod_mul]

theorem fromBytes_lt (b : List UInt8) : fromBytes b < 256 ^ b.length := by
  induction b with
  | nil => simp [fromBytes]
  | cons c b ih =>
    have hc : c.toNat < 256 := c.toNat_lt
    rw [fromBytes, List.length_cons, pow_succ]
    omega

theorem toBytes_fromBytes (b : List UInt8) : toBytes b.length (fromBytes b) = b := by
  induction b with
  | nil => rfl
  | cons c b ih =>
    have hc : c.toNat < 256 := c.toNat_lt
    have hmod : (c.toNat + 256 * fromBytes b) % 256 = c.toNat := by omega
    have hdiv : (c.toNat + 256 * fromBytes b) / 256 = fromBytes b := by omega
    rw [List.length_cons, fromBytes, toBytes, hmod, hdiv, ih]
    congr 1
    exact UInt8.ofNat_toNat

/-! ## Encodings -/

/-- The number behind the 32 bytes of a point: the ordinate, and the parity of the abscissa above
    it. -/
def code (A : Point curve) : Nat := A.y.val + 2 ^ 255 * (A.x.val % 2)

/-- The 32 bytes of a point. -/
def encode (A : Point curve) : List UInt8 := toBytes 32 (code A)

/-- The point with `Z = 1`. -/
def ofPoint (A : Point curve) : Ext := ⟨A.x.val, A.y.val, 1, ((A.x * A.y).val : Int)⟩

theorem val_lt (a : F) : a.val < 2 ^ 255 := lt_trans (ZMod.val_lt a) P_lt

@[simp] theorem length_encode (A : Point curve) : (encode A).length = 32 := length_toBytes _ _

theorem code_lt (A : Point curve) : code A < 256 ^ 32 := by
  have hy := val_lt A.y
  unfold code
  omega

theorem fromBytes_encode (A : Point curve) : fromBytes (encode A) = code A := by
  unfold encode
  rw [fromBytes_toBytes, Nat.mod_eq_of_lt (code_lt A)]

theorem val_neg_add_val {a : F} (h : a ≠ 0) : (-a).val + a.val = P := by
  have hne : NeZero a := ⟨h⟩
  have hlt := ZMod.val_lt a
  rw [ZMod.val_neg_of_ne_zero]
  omega

theorem encode_inj {A B : Point curve} (h : encode A = encode B) : A = B := by
  have hcode : code A = code B := by rw [← fromBytes_encode, ← fromBytes_encode, h]
  have hA := val_lt A.y
  have hB := val_lt B.y
  unfold code at hcode
  have hy : A.y = B.y := ZMod.val_injective P (by omega)
  cases Point.eq_of_y_eq hy with
  | inl heq => exact heq
  | inr hneg =>
    -- of two opposite abscissas one is even and one is odd, unless both are zero
    have hx : A.x = -B.x := by rw [hneg, Point.neg_x]
    by_cases h0 : B.x = 0
    · apply Point.ext
      · rw [hx, h0, neg_zero]
      · exact hy
    · have hsum := val_neg_add_val h0
      have hmod := P_mod_eight
      rw [← hx] at hsum
      omega

/-- Whatever `_decompress` accepts is the encoding of a point. -/
theorem exists_of_decompress {b : List UInt8} {p : Ext} (h : decompress b = .ok p) :
    ∃ A, b = encode A ∧ p = ofPoint A := by
  unfold decompress at h
  by_cases hlen : b.length = 32
  · rw [if_neg (not_not.mpr hlen)] at h
    dsimp only at h
    have hlt := fromBytes_lt b
    have hback := toBytes_fromBytes b
    rw [hlen] at hlt hback
    rw [Nat.shiftRight_eq_div_pow] at h
    cases hr : recoverX ((fromBytes b % 2 ^ 255 : Nat) : Int) (fromBytes b / 2 ^ 255 : Nat) with
    | none =>
      rw [hr] at h
      cases h
    | some x =>
      rw [hr] at h
      have hsign : ((fromBytes b / 2 ^ 255 : Nat) : Int) = 0 ∨
          ((fromBytes b / 2 ^ 255 : Nat) : Int) = 1 := by omega
      obtain ⟨hy, hx, hpar, hon⟩ := (recoverX_eq_some_iff hsign).mp hr
      have hyr : Reduced ((fromBytes b % 2 ^ 255 : Nat) : Int) := ⟨by omega, hy⟩
      have hxv := hx.val_cast
      have hyv := hyr.val_cast
      refine ⟨⟨x, _, hon⟩, ?_, ?_⟩
      · refine hback.symm.trans (congrArg (toBytes 32) ?_)
        show fromBytes b = ((_ : Int) : F).val + 2 ^ 255 * ((x : F).val % 2)
        omega
      · rw [← Except.ok.inj h]
        unfold ofPoint
        simp only [Ext.mk.injEq, true_and]
        refine ⟨hxv.symm, hyv.symm, ?_⟩
        apply (reduced_mod _).cast_inj (reduced_val _)
        simp
  · rw [if_pos hlen] at h
    cases h

/-- The encoding of a point is accepted. -/
theorem decompress_encode (A : Point curve) : decompress (encode A) = .ok (ofPoint A) := by
  have hy := val_lt A.y
  have hsign : ((A.x.val % 2 : Nat) : Int) = 0 ∨ ((A.x.val % 2 : Nat) : Int) = 1 := by omega
  have hcode : fromBytes (encode A) = A.y.val + 2 ^ 255 * (A.x.val % 2) := fromBytes_encode A
  have hhigh : fromBytes (encode A) >>> 255 = A.x.val % 2 := by
    rw [hcode, Nat.shiftRight_eq_div_pow]
    omega
  have hlow : fromBytes (encode A) % 2 ^ 255 = A.y.val := by
    rw [hcode]
    omega
  have hx : recoverX A.y.val (A.x.val % 2 : Nat) = some (A.x.val : Int) := by
    rw [recoverX_eq_some_iff hsign]
    refine ⟨(reduced_val _).2, reduced_val _, by omega, ?_⟩
    simpa using A.on
  unfold decompress
  rw [if_neg (not_not.mpr (length_encode A))]
  dsimp only
  rw [hhigh, hlow, hx]
  unfold ofPoint
  simp only [Except.ok.injEq, Ext.mk.injEq, true_and]
  apply (reduced_mod _).cast_inj (reduced_val _)
  simp

end Ed25519

end Ugk
