import Ugk.ForStd.Traverse
import Ugk.Spec.EdwardsPoints

/-!
# Signing and verification with Ed25519

`_point_add` and `_point_mul` compute the group of the curve on extended coordinates, so `verify`
decides one equation of that group, for every three strings.  The base point has the prime order
`_L`; from this follow that signatures of `sign` verify, and that no second scalar fits a signature.

## Key results

- `pointMul_represents`: double-and-add is the multiple in the group
- `verify_iff`: what `verify` accepts, exactly
- `verify_sign`: a signature verifies under the key of its seed
-/

namespace Ugk

namespace Ed25519

open Edwards

/-! ## Extended coordinates -/

/-- `p` stands for the point `A`. -/
structure Represents (p : Ext) (A : Point curve) : Prop where
  z_ne : (p.z : F) ≠ 0
  x_eq : (p.x : F) = A.x * p.z
  y_eq : (p.y : F) = A.y * p.z
  t_eq : (p.t : F) = A.x * A.y * p.z

theorem neutral_represents : Represents neutral 0 where
  z_ne := by simp [neutral]
  x_eq := by simp [neutral]
  y_eq := by simp [neutral]
  t_eq := by simp [neutral]

theorem ofPoint_represents (A : Point curve) : Represents (ofPoint A) A where
  z_ne := by simp [ofPoint]
  x_eq := by simp [ofPoint]
  y_eq := by simp [ofPoint]
  t_eq := by simp [ofPoint]

/-- `_point_add`, without the reductions. -/
theorem cast_pointAdd (p q : Ext) :
    ((pointAdd p q).x : F) = 2 * (p.x * q.y + p.y * q.x) * (2 * p.z * q.z - 2 * D * p.t * q.t) ∧
      ((pointAdd p q).y : F) = 2 * (p.y * q.y + p.x * q.x) * (2 * p.z * q.z + 2 * D * p.t * q.t) ∧
      ((pointAdd p q).z : F) =
        (2 * p.z * q.z - 2 * D * p.t * q.t) * (2 * p.z * q.z + 2 * D * p.t * q.t) ∧
      ((pointAdd p q).t : F) =
        2 * (p.x * q.y + p.y * q.x) * (2 * (p.y * q.y + p.x * q.x)) := by
  unfold pointAdd
  dsimp only
  push_cast
  refine ⟨?_, ?_, ?_, ?_⟩ <;> ring

theorem pointAdd_represents {p q : Ext} {A B : Point curve} (hp : Represents p A)
    (hq : Represents q B) : Represents (pointAdd p q) (A + B) := by
  obtain ⟨hx, hy, hz, ht⟩ := cast_pointAdd p q
  have hplus := Point.xDen_ne A B
  have hminus := Point.yDen_ne A B
  have hxm : (A + B).x * Point.xDen A B = A.x * B.y + A.y * B.x := div_mul_cancel₀ _ hplus
  have hym : (A + B).y * Point.yDen A B = A.y * B.y + A.x * B.x := div_mul_cancel₀ _ hminus
  -- the coordinates with the denominators of the sum taken out
  have hzz : (2 : F) * p.z * q.z ≠ 0 := mul_ne_zero (mul_ne_zero two_ne hp.z_ne) hq.z_ne
  have hsub : (2 : F) * p.z * q.z - 2 * D * p.t * q.t = 2 * p.z * q.z * Point.yDen A B := by
    rw [hp.t_eq, hq.t_eq]
    unfold Point.yDen
    rw [curve_d]
    ring
  have hadd : (2 : F) * p.z * q.z + 2 * D * p.t * q.t = 2 * p.z * q.z * Point.xDen A B := by
    rw [hp.t_eq, hq.t_eq]
    unfold Point.xDen
    rw [curve_d]
    ring
  have hxy : (2 : F) * (p.x * q.y + p.y * q.x) =
      2 * p.z * q.z * ((A + B).x * Point.xDen A B) := by
    rw [hxm, hp.x_eq, hp.y_eq, hq.x_eq, hq.y_eq]
    ring
  have hyx : (2 : F) * (p.y * q.y + p.x * q.x) =
      2 * p.z * q.z * ((A + B).y * Point.yDen A B) := by
    rw [hym, hp.x_eq, hp.y_eq, hq.x_eq, hq.y_eq]
    ring
  rw [hsub, hxy] at hx
  rw [hadd, hyx] at hy
  rw [hsub, hadd] at hz
  rw [hxy, hyx] at ht
  refine ⟨?_, ?_, ?_, ?_⟩
  · rw [hz]
    exact mul_ne_zero (mul_ne_zero hzz hminus) (mul_ne_zero hzz hplus)
  · rw [hx, hz]
    ring
  · rw [hy, hz]
    ring
  · rw [ht, hz]
    ring

/-- The loop adds `s` times the second point to the first: `q + s * p` is the same before and after
    each round. -/
theorem pointMulLoop_represents {fuel s : Nat} (hs : s < 2 ^ fuel) {q p : Ext}
    {B A : Point curve} (hq : Represents q B) (hp : Represents p A) :
    Represents (pointMulLoop fuel s q p) (B + s • A) := by
  induction fuel generalizing s q p B A with
  | zero =>
    have hs0 : s = 0 := by simpa using hs
    rw [hs0, zero_smul, add_zero]
    exact hq
  | succ fuel ih =>
    have hhalf : s / 2 < 2 ^ fuel := by
      rw [pow_succ] at hs
      omega
    unfold pointMulLoop
    by_cases hpos : s > 0
    · rw [if_pos hpos]
      have hdouble := pointAdd_represents hp hp
      by_cases hodd : s % 2 = 1
      · rw [if_pos hodd]
        have hsplit : B + s • A = B + A + (s / 2) • (A + A) := by
          have he : s = 1 + 2 * (s / 2) := by omega
          nth_rewrite 1 [he]
          rw [add_smul, one_smul, mul_smul, two_smul, add_assoc, smul_add]
        rw [hsplit]
        exact ih hhalf (pointAdd_represents hq hp) hdouble
      · rw [if_neg hodd]
        have hsplit : B + s • A = B + (s / 2) • (A + A) := by
          have he : s = 2 * (s / 2) := by omega
          nth_rewrite 1 [he]
          rw [mul_smul, two_smul, smul_add]
        rw [hsplit]
        exact ih hhalf hq hdouble
    · rw [if_neg hpos]
      have hs0 : s = 0 := by omega
      rw [hs0, zero_smul, add_zero]
      exact hq

theorem pointMul_represents (s : Nat) {p : Ext} {A : Point curve} (hp : Represents p A) :
    Represents (pointMul s p) (s • A) := by
  have h := pointMulLoop_represents (Nat.lt_log2_self (n := s)) neutral_represents hp
  rwa [zero_add] at h

theorem compress_of_represents {p : Ext} {A : Point curve} (hp : Represents p A) :
    compress p = encode A := by
  have hinv : (p.z : F) * (p.z : F)⁻¹ = 1 := mul_inv_cancel₀ hp.z_ne
  have hx : p.x * pow p.z (P - 2) P % P = (A.x.val : Int) := by
    apply (reduced_mod _).cast_inj (reduced_val _)
    rw [cast_mod, Int.cast_mul, cast_pow, pow_sub_two, hp.x_eq, mul_assoc, hinv]
    simp
  have hy : p.y * pow p.z (P - 2) P % P = (A.y.val : Int) := by
    apply (reduced_mod _).cast_inj (reduced_val _)
    rw [cast_mod, Int.cast_mul, cast_pow, pow_sub_two, hp.y_eq, mul_assoc, hinv]
    simp
  have hlt := val_lt A.y
  unfold compress
  dsimp only
  rw [hx, hy, Int.toNat_natCast, Int.toNat_natCast, Nat.or_comm, Nat.shiftLeft_eq,
    Nat.mul_comm (A.x.val % 2), ← Nat.two_pow_add_eq_or_of_lt hlt]
  unfold encode code
  rw [Nat.add_comm]

/-! ## The base point -/

/-- The base point as a point of the curve. -/
def base : Point curve := ⟨gX, gY, ((recoverX_eq_some_iff (Or.inl rfl)).mp evaluations.2.2.2.1).2.2.2⟩

theorem G_represents : Represents G base where
  z_ne := by simp [G]
  x_eq := by simp [G, base]
  y_eq := by simp [G, base]
  t_eq := by simp [G, base]

theorem L_smul_base : L • base = 0 := by
  have h := pointMul_represents L G_represents
  obtain ⟨-, -, -, -, -, hx, hy⟩ := evaluations
  apply Point.ext
  · have hx' := h.x_eq
    rw [hx, Int.cast_zero] at hx'
    exact (mul_eq_zero.mp hx'.symm).resolve_right h.z_ne
  · have hy' := h.y_eq
    rw [hy] at hy'
    exact mul_right_cancel₀ h.z_ne (hy'.symm.trans (one_mul _).symm)

theorem base_x : base.x = (gX : F) := rfl

theorem base_ne_zero : base ≠ 0 := by
  intro h
  apply evaluations.2.2.2.2.1
  rw [mod_eq_zero_iff, ← base_x, h, Point.zero_x]

instance : Fact L.Prime := ⟨prime_L⟩

/-- The base point generates a group of prime order. -/
theorem addOrderOf_base : addOrderOf base = L := addOrderOf_eq_prime L_smul_base base_ne_zero

theorem smul_base_eq_iff {s s' : Nat} : s • base = s' • base ↔ s % L = s' % L := by
  rw [nsmul_inj_mod, addOrderOf_base]

/-! ## Hex -/

theorem hexDigit_hexChar {n : Nat} (h : n < 16) :
    Amendment.hexDigit? (hexChar n) = some n.toUInt8 := by
  revert n
  decide

theorem hexChar_not_space {n : Nat} (h : n < 16) :
    (hexChar n == ' ' || (9 ≤ (hexChar n).toNat && (hexChar n).toNat ≤ 13)) = false := by
  revert n
  decide

theorem join_digits (b : UInt8) :
    16 * (b.toNat / 16).toUInt8 + (b.toNat % 16).toUInt8 = b := by
  have hb : b.toNat < 256 := b.toNat_lt
  apply UInt8.toNat_inj.mp
  rw [UInt8.toNat_add, UInt8.toNat_mul, toNat_toUInt8 (by omega), toNat_toUInt8 (by omega)]
  show (16 * (b.toNat / 16) % 2 ^ 8 + b.toNat % 16) % 2 ^ 8 = b.toNat
  omega

theorem bytesFromHex_hexChars (bs : List UInt8) :
    Amendment.bytesFromHex (hexChars bs) = some bs := by
  induction bs with
  | nil => rfl
  | cons b bs ih =>
    have hb : b.toNat < 256 := b.toNat_lt
    have hhi : b.toNat / 16 < 16 := by omega
    have hlo : b.toNat % 16 < 16 := by omega
    rw [hexChars, Amendment.bytesFromHex.eq_3, hexChar_not_space hhi, if_neg Bool.false_ne_true,
      hexDigit_hexChar hhi, hexDigit_hexChar hlo, ih]
    show some (_ :: bs) = some (b :: bs)
    rw [join_digits]

@[simp] theorem fromHex_hex (bs : List UInt8) : fromHex (hex bs) = .ok bs := by
  unfold fromHex hex
  rw [String.toList_ofList, bytesFromHex_hexChars]

/-! ## Verification -/

theorem L_lt : L < 256 ^ 32 := by norm_num [L]

/-- The number `h` of a signature. -/
def challenge (sha : Sha512) (R A : Point curve) (message : List UInt8) : Nat :=
  fromBytes (sha.digest (encode R ++ encode A ++ message)) % L

/-- The equation `s·G = R + h·A`. -/
def Signed (sha : Sha512) (message : List UInt8) (R : Point curve) (s : Nat) (A : Point curve) :
    Prop :=
  s • base = R + challenge sha R A message • A

/-- The two encodings `verify` compares are those of the two sides. -/
theorem compare_iff (sha : Sha512) (message : List UInt8) (R : Point curve) (s : Nat)
    (A : Point curve) :
    compress (pointMul s G) = compress (pointAdd (ofPoint R)
        (pointMul (challenge sha R A message) (ofPoint A))) ↔ Signed sha message R s A := by
  have hright := pointAdd_represents (ofPoint_represents R)
    (pointMul_represents (challenge sha R A message) (ofPoint_represents A))
  rw [compress_of_represents (pointMul_represents s G_represents), compress_of_represents hright]
  constructor
  · intro h
    exact encode_inj h
  · intro h
    exact congrArg encode h

theorem verify_eq_true_iff (sha : Sha512) (message : List UInt8) (sigHex pubkeyHex : String) :
    verify sha message sigHex pubkeyHex = true ↔
      verifyBody sha message sigHex pubkeyHex = .ok true := by
  unfold verify
  cases verifyBody sha message sigHex pubkeyHex with
  | error e => simp
  | ok b => simp

theorem take_drop_signature (R : Point curve) {s : Nat} (hs : s < L) :
    (encode R ++ toBytes 32 s).length = 64 ∧ (encode R ++ toBytes 32 s).take 32 = encode R ∧
      fromBytes ((encode R ++ toBytes 32 s).drop 32) = s := by
  refine ⟨?_, List.take_left' (length_encode R), ?_⟩
  · rw [List.length_append, length_encode, length_toBytes]
  · rw [List.drop_left' (length_encode R), fromBytes_toBytes, Nat.mod_eq_of_lt (lt_trans hs L_lt)]

/-- What `verify` accepts is a point, a scalar below `_L` and a key that satisfy the equation. -/
theorem signed_of_verify {sha : Sha512} {message : List UInt8} {sigHex pubkeyHex : String}
    (h : verify sha message sigHex pubkeyHex = true) :
    ∃ (R A : Point curve) (s : Nat), fromHex sigHex = .ok (encode R ++ toBytes 32 s) ∧
      fromHex pubkeyHex = .ok (encode A) ∧ s < L ∧ Signed sha message R s A := by
  rw [verify_eq_true_iff] at h
  unfold verifyBody at h
  obtain ⟨sig, hsig, h⟩ := Except.bind_eq_ok_iff.mp h
  obtain ⟨pk, hpk, h⟩ := Except.bind_eq_ok_iff.mp h
  by_cases hlen : sig.length ≠ 64 ∨ pk.length ≠ 32
  · rw [if_pos hlen] at h
    cases h
  rw [if_neg hlen] at h
  rw [not_or, not_not, not_not] at hlen
  dsimp only at h
  by_cases hs : fromBytes (sig.drop 32) ≥ L
  · rw [if_pos hs] at h
    cases h
  rw [if_neg hs] at h
  obtain ⟨r, hr, h⟩ := Except.bind_eq_ok_iff.mp h
  obtain ⟨a, ha, h⟩ := Except.bind_eq_ok_iff.mp h
  obtain ⟨R, hR, rfl⟩ := exists_of_decompress hr
  obtain ⟨A, rfl, rfl⟩ := exists_of_decompress ha
  rw [hR, Except.ok.injEq, beq_iff_eq] at h
  have hbytes := toBytes_fromBytes (sig.drop 32)
  rw [List.length_drop, hlen.1] at hbytes
  refine ⟨R, A, fromBytes (sig.drop 32), ?_, hpk, not_le.mp hs, ?_⟩
  · rw [hbytes, ← hR, List.take_append_drop, hsig]
  · exact (compare_iff sha message R _ A).mp h

theorem verify_of_signed {sha : Sha512} {message : List UInt8} {sigHex pubkeyHex : String}
    {R A : Point curve} {s : Nat} (hsig : fromHex sigHex = .ok (encode R ++ toBytes 32 s))
    (hpk : fromHex pubkeyHex = .ok (encode A)) (hs : s < L) (h : Signed sha message R s A) :
    verify sha message sigHex pubkeyHex = true := by
  obtain ⟨hlen, htake, hscalar⟩ := take_drop_signature R hs
  rw [verify_eq_true_iff]
  unfold verifyBody
  refine Except.bind_eq_ok_iff.mpr ⟨_, hsig, Except.bind_eq_ok_iff.mpr ⟨_, hpk, ?_⟩⟩
  rw [if_neg (by rw [hlen, length_encode]; simp)]
  dsimp only
  rw [htake, hscalar, if_neg (not_le.mpr hs), decompress_encode, decompress_encode]
  show Except.ok (_ == _) = Except.ok true
  rw [Except.ok.injEq, beq_iff_eq]
  exact (compare_iff sha message R s A).mpr h

/-- `verify` accepts a point, a scalar below `_L` and a key that satisfy the equation, each in its
    encoding, and nothing else. -/
theorem verify_iff (sha : Sha512) (message : List UInt8) (sigHex pubkeyHex : String) :
    verify sha message sigHex pubkeyHex = true ↔
      ∃ (R A : Point curve) (s : Nat), fromHex sigHex = .ok (encode R ++ toBytes 32 s) ∧
        fromHex pubkeyHex = .ok (encode A) ∧ s < L ∧ Signed sha message R s A := by
  constructor
  · intro h
    exact signed_of_verify h
  · rintro ⟨R, A, s, hsig, hpk, hs, heq⟩
    exact verify_of_signed hsig hpk hs heq

/-- A signature with another scalar, on the same point and for the same key, verifies nothing. -/
theorem signed_unique {sha : Sha512} {message : List UInt8} {R A : Point curve} {s s' : Nat}
    (hs : s < L) (hs' : s' < L) (h : Signed sha message R s A) (h' : Signed sha message R s' A) :
    s = s' := by
  have heq : s • base = s' • base := h.trans h'.symm
  rw [smul_base_eq_iff, Nat.mod_eq_of_lt hs, Nat.mod_eq_of_lt hs'] at heq
  exact heq

/-! ## The secret scalar -/

theorem fromBytes_append (b c : List UInt8) :
    fromBytes (b ++ c) = fromBytes b + 256 ^ b.length * fromBytes c := by
  induction b with
  | nil => simp [fromBytes]
  | cons x b ih =>
    rw [List.cons_append, fromBytes, ih, fromBytes, List.length_cons, pow_succ]
    ring

theorem clamp_low (b : UInt8) : (b &&& 248).toNat % 8 = 0 := by
  have h : (b.toNat &&& 248) % 2 ^ 3 = (b.toNat % 2 ^ 3) &&& (248 % 2 ^ 3) := Nat.and_mod_two_pow
  rw [UInt8.toNat_and]
  exact h.trans (Nat.and_zero _)

theorem clamp_high (b : UInt8) :
    64 ≤ (b &&& 127 ||| 64).toNat ∧ (b &&& 127 ||| 64).toNat < 128 := by
  rw [UInt8.toNat_or, UInt8.toNat_and]
  constructor
  · exact Nat.right_le_or
  · apply Nat.or_lt_two_pow (n := 7)
    · exact Nat.and_lt_two_pow _ (by decide)
    · decide

theorem modify_last (f : UInt8 → UInt8) (b : List UInt8) (x : UInt8) :
    (b ++ [x]).modify b.length f = b ++ [f x] := by
  induction b with
  | nil => rfl
  | cons y b ih =>
    rw [List.cons_append, List.length_cons, List.modify_succ_cons, ih, List.cons_append]

/-- A clamped scalar is a multiple of eight between two powers of two. -/
theorem clamp_spec {h32 : List UInt8} (hlen : h32.length = 32) :
    clamp h32 % 8 = 0 ∧ 2 ^ 254 ≤ clamp h32 ∧ clamp h32 < 2 ^ 255 := by
  -- the first byte, thirty that stay, and the last
  cases h32 with
  | nil => simp at hlen
  | cons first rest =>
    rw [List.length_cons] at hlen
    have hrest : rest ≠ [] := by
      rintro rfl
      simp at hlen
    have hsplit := List.dropLast_append_getLast hrest
    have hmid : rest.dropLast.length = 30 := by
      rw [List.length_dropLast]
      omega
    generalize rest.dropLast = mid at hsplit hmid
    generalize rest.getLast hrest = last at hsplit
    subst hsplit
    have hclamp : clamp (first :: (mid ++ [last])) =
        (first &&& 248).toNat + 256 * (fromBytes mid + 256 ^ 30 * (last &&& 127 ||| 64).toNat) := by
      unfold clamp
      rw [List.modify_zero_cons, List.modify_succ_cons, List.modify_succ_cons, ← hmid, modify_last,
        modify_last, fromBytes, fromBytes_append]
      simp [fromBytes]
    have hlow := clamp_low first
    have hhigh := clamp_high last
    have hfirst : (first &&& 248).toNat < 256 := UInt8.toNat_lt _
    have hmidlt := fromBytes_lt mid
    rw [hmid] at hmidlt
    rw [hclamp]
    omega

/-- The secret scalar of a seed. -/
def secret (sha : Sha512) (seed : List UInt8) : Nat := clamp ((sha.digest seed).take 32)

/-- The public key of a seed, as a point. -/
def publicPoint (sha : Sha512) (seed : List UInt8) : Point curve := secret sha seed • base

/-- The number `r` of a signature. -/
def nonce (sha : Sha512) (seed message : List UInt8) : Nat :=
  fromBytes (sha.digest ((sha.digest seed).drop 32 ++ message)) % L

theorem secret_spec (sha : Sha512) (seed : List UInt8) :
    secret sha seed % 8 = 0 ∧ 2 ^ 254 ≤ secret sha seed ∧ secret sha seed < 2 ^ 255 := by
  apply clamp_spec
  rw [List.length_take, sha.length_digest]
  rfl

theorem compress_mul_G (s : Nat) : compress (pointMul s G) = encode (s • base) :=
  compress_of_represents (pointMul_represents s G_represents)

theorem generateKeypair_eq (sha : Sha512) (seed : List UInt8) :
    generateKeypair sha seed = (hex seed, hex (encode (publicPoint sha seed))) := by
  unfold generateKeypair
  dsimp only
  rw [compress_mul_G]
  rfl

/-- The order of the group is prime and above an eighth of every clamped scalar, so no public key is
    the neutral element. -/
theorem addOrderOf_publicPoint (sha : Sha512) (seed : List UInt8) :
    addOrderOf (publicPoint sha seed) = L := by
  obtain ⟨height, hlow, hhigh⟩ := secret_spec sha seed
  have hLbig : 2 ^ 255 ≤ 8 * L := by norm_num [L]
  have hLodd : Nat.Coprime 8 L := by norm_num [L]
  have hnot : ¬ L ∣ secret sha seed := by
    intro hdvd
    have h8L : 8 * L ∣ secret sha seed :=
      hLodd.mul_dvd_of_dvd_of_dvd (Nat.dvd_of_mod_eq_zero height) hdvd
    have hle := Nat.le_of_dvd (by omega) h8L
    omega
  apply addOrderOf_eq_prime
  · show L • secret sha seed • base = 0
    rw [smul_comm, L_smul_base, smul_zero]
  · intro h
    apply hnot
    rw [← addOrderOf_base]
    exact addOrderOf_dvd_of_nsmul_eq_zero h

theorem smul_publicPoint_eq_iff {sha : Sha512} {seed : List UInt8} {s s' : Nat} :
    s • publicPoint sha seed = s' • publicPoint sha seed ↔ s % L = s' % L := by
  rw [nsmul_inj_mod, addOrderOf_publicPoint]

/-! ## Signing -/

/-- The scalar of a signature. -/
def signatureScalar (sha : Sha512) (seed message : List UInt8) : Nat :=
  (nonce sha seed message + challenge sha (nonce sha seed message • base) (publicPoint sha seed)
    message * secret sha seed) % L

theorem sign_eq (sha : Sha512) (message : List UInt8) {privkeyHex : String} {seed : List UInt8}
    (h : fromHex privkeyHex = .ok seed) :
    sign sha message privkeyHex = .ok (hex (encode (nonce sha seed message • base)
      ++ toBytes 32 (signatureScalar sha seed message))) := by
  unfold sign
  rw [Except.bind_eq_ok_iff]
  refine ⟨seed, h, ?_⟩
  dsimp only
  rw [compress_mul_G, compress_mul_G]
  rfl

theorem signatureScalar_lt (sha : Sha512) (seed message : List UInt8) :
    signatureScalar sha seed message < L := Nat.mod_lt _ prime_L.pos

theorem signed_signatureScalar (sha : Sha512) (seed message : List UInt8) :
    Signed sha message (nonce sha seed message • base) (signatureScalar sha seed message)
      (publicPoint sha seed) := by
  have hmod : signatureScalar sha seed message • base = (nonce sha seed message
      + challenge sha (nonce sha seed message • base) (publicPoint sha seed) message
        * secret sha seed) • base := by
    rw [smul_base_eq_iff]
    exact Nat.mod_mod _ _
  unfold Signed
  rw [hmod, add_smul, mul_smul]
  rfl

/-- Two signatures with the same point are the same bytes. -/
theorem eq_of_append_eq {R R' : Point curve} {s s' : Nat} (hs : s < L) (hs' : s' < L)
    (h : encode R ++ toBytes 32 s = encode R' ++ toBytes 32 s') : R = R' ∧ s = s' := by
  obtain ⟨hR, hbytes⟩ := List.append_inj h (by rw [length_encode, length_encode])
  have hscalar := congrArg fromBytes hbytes
  rw [fromBytes_toBytes, fromBytes_toBytes, Nat.mod_eq_of_lt (lt_trans hs L_lt),
    Nat.mod_eq_of_lt (lt_trans hs' L_lt)] at hscalar
  exact ⟨encode_inj hR, hscalar⟩

/-- `verify` on a signature and a key in their usual form. -/
theorem verify_hex_iff (sha : Sha512) (message : List UInt8) (R A : Point curve) {s : Nat}
    (hs : s < L) :
    verify sha message (hex (encode R ++ toBytes 32 s)) (hex (encode A)) = true ↔
      Signed sha message R s A := by
  constructor
  · intro h
    obtain ⟨R', A', s', hsig, hpk, hs', heq⟩ := signed_of_verify h
    rw [fromHex_hex, Except.ok.injEq] at hsig hpk
    obtain ⟨rfl, rfl⟩ := eq_of_append_eq hs hs' hsig
    rw [encode_inj hpk]
    exact heq
  · intro h
    exact verify_of_signed (fromHex_hex _) (fromHex_hex _) hs h

/-- The signature of a seed on a message. -/
def signature (sha : Sha512) (seed message : List UInt8) : String :=
  hex (encode (nonce sha seed message • base) ++ toBytes 32 (signatureScalar sha seed message))

theorem verify_signature (sha : Sha512) (seed message : List UInt8) :
    verify sha message (signature sha seed message) (generateKeypair sha seed).2 = true := by
  rw [generateKeypair_eq]
  unfold signature
  rw [verify_hex_iff _ _ _ _ (signatureScalar_lt sha seed message)]
  exact signed_signatureScalar sha seed message

/-- A signature verifies under the key of its seed. -/
theorem verify_sign (sha : Sha512) (seed message : List UInt8) :
    ∃ sig, sign sha message (generateKeypair sha seed).1 = .ok sig ∧
      verify sha message sig (generateKeypair sha seed).2 = true := by
  refine ⟨signature sha seed message, ?_, verify_signature sha seed message⟩
  rw [generateKeypair_eq]
  exact sign_eq sha message (fromHex_hex seed)

/-- Under which other key, and on which other message, a signature verifies: when the products of
    challenge and secret agree, so under its own key only on a message with the same challenge. -/
theorem verify_other_iff (sha : Sha512) (seed message seed' message' : List UInt8) :
    ∃ sig, sign sha message (generateKeypair sha seed).1 = .ok sig ∧
      (verify sha message' sig (generateKeypair sha seed').2 = true ↔
        challenge sha (nonce sha seed message • base) (publicPoint sha seed') message'
            * secret sha seed' % L =
          challenge sha (nonce sha seed message • base) (publicPoint sha seed) message
            * secret sha seed % L) ∧
      (verify sha message' sig (generateKeypair sha seed).2 = true ↔
        challenge sha (nonce sha seed message • base) (publicPoint sha seed) message' =
          challenge sha (nonce sha seed message • base) (publicPoint sha seed) message) := by
  have hsigned := signed_signatureScalar sha seed message
  refine ⟨signature sha seed message, ?_, ?_, ?_⟩
  · rw [generateKeypair_eq]
    exact sign_eq sha message (fromHex_hex seed)
  · rw [generateKeypair_eq]
    unfold signature
    rw [verify_hex_iff _ _ _ _ (signatureScalar_lt sha seed message)]
    unfold Signed at hsigned ⊢
    rw [hsigned, add_right_inj]
    unfold publicPoint
    rw [← mul_smul, ← mul_smul, smul_base_eq_iff]
    exact eq_comm
  · rw [generateKeypair_eq]
    unfold signature
    rw [verify_hex_iff _ _ _ _ (signatureScalar_lt sha seed message)]
    unfold Signed at hsigned ⊢
    rw [hsigned, add_right_inj, smul_publicPoint_eq_iff]
    unfold challenge
    rw [Nat.mod_mod, Nat.mod_mod]
    exact eq_comm

/-- No two signatures of one message under one key share the point and differ in the scalar. -/
theorem eq_of_verify {sha : Sha512} {message : List UInt8} {sigHex sigHex' pubkeyHex : String}
    {sig sig' : List UInt8} (hsig : fromHex sigHex = .ok sig) (hsig' : fromHex sigHex' = .ok sig')
    (h : verify sha message sigHex pubkeyHex = true)
    (h' : verify sha message sigHex' pubkeyHex = true) (hR : sig.take 32 = sig'.take 32) :
    sig = sig' := by
  obtain ⟨R, A, s, hb, hpk, hs, heq⟩ := signed_of_verify h
  obtain ⟨R', A', s', hb', hpk', hs', heq'⟩ := signed_of_verify h'
  rw [hsig, Except.ok.injEq] at hb
  rw [hsig', Except.ok.injEq] at hb'
  subst hb
  subst hb'
  rw [hpk, Except.ok.injEq] at hpk'
  rw [(take_drop_signature R hs).2.1, (take_drop_signature R' hs').2.1] at hR
  have hA := encode_inj hpk'
  have hR := encode_inj hR
  subst hA
  subst hR
  rw [signed_unique hs hs' heq heq']

/-- A hash with one value. -/
def constSha : Sha512 := ⟨fun _ => List.replicate 64 1, fun _ => List.length_replicate⟩

theorem fromHex_blank (bs : List UInt8) :
    fromHex (String.ofList (' ' :: hexChars bs)) = .ok bs := by
  have hbytes := bytesFromHex_hexChars bs
  unfold fromHex
  rw [String.toList_ofList]
  cases bs with
  | nil => rfl
  | cons b bs =>
    rw [hexChars, Amendment.bytesFromHex.eq_3, if_pos (by decide), ← hexChars, hbytes]

/-- The digits of a signature, and the same digits after a blank. -/
theorem eq_of_verify_blank : ∃ (sigHex sigHex' pubkeyHex : String) (sig sig' : List UInt8),
    fromHex sigHex = .ok sig ∧ fromHex sigHex' = .ok sig' ∧
      verify constSha [] sigHex pubkeyHex = true ∧ verify constSha [] sigHex' pubkeyHex = true ∧
      sig.take 32 = sig'.take 32 ∧ sig = sig' := by
  have hpk := fromHex_hex (encode (publicPoint constSha []))
  have hlt := signatureScalar_lt constSha [] []
  have hsigned := signed_signatureScalar constSha [] []
  have hhex := fromHex_hex (encode (nonce constSha [] [] • base)
    ++ toBytes 32 (signatureScalar constSha [] []))
  have hblank := fromHex_blank (encode (nonce constSha [] [] • base)
    ++ toBytes 32 (signatureScalar constSha [] []))
  have h := verify_of_signed hhex hpk hlt hsigned
  have h' := verify_of_signed hblank hpk hlt hsigned
  exact ⟨_, _, _, _, _, hhex, hblank, h, h', rfl, eq_of_verify hhex hblank h h' rfl⟩

/-! ## The codec and the scalar loop -/

/-- `_decompress` inverts `_compress`: it accepts the compressions of the points with `Z = 1`. -/
theorem decompress_eq_ok_iff (b : List UInt8) (p : Ext) :
    decompress b = .ok p ↔ compress p = b ∧ ∃ A : Point curve, p = ofPoint A := by
  constructor
  · intro h
    obtain ⟨A, rfl, rfl⟩ := exists_of_decompress h
    exact ⟨compress_of_represents (ofPoint_represents A), A, rfl⟩
  · rintro ⟨rfl, A, rfl⟩
    rw [compress_of_represents (ofPoint_represents A)]
    exact decompress_encode A

/-- Every seed has a public key that decodes to a point of order `_L`. -/
theorem generateKeypair_order (sha : Sha512) (seed : List UInt8) :
    ∃ A : Point curve, fromHex (generateKeypair sha seed).2 = .ok (encode A) ∧
      decompress (encode A) = .ok (ofPoint A) ∧ addOrderOf A = L := by
  rw [generateKeypair_eq]
  exact ⟨_, fromHex_hex _, decompress_encode _, addOrderOf_publicPoint sha seed⟩

/-- The loop of `_point_mul` is the multiple in the group: it takes sums and products of scalars to
    sums and iterates, up to the coordinates. -/
theorem double_and_add (s t : Nat) {p : Ext} {A : Point curve} (hp : Represents p A) :
    Represents (pointMul s p) (s • A) ∧
      compress (pointAdd (pointMul s p) (pointMul t p)) = compress (pointMul (s + t) p) ∧
      compress (pointMul s (pointMul t p)) = compress (pointMul (s * t) p) := by
  have hs := pointMul_represents s hp
  have ht := pointMul_represents t hp
  refine ⟨hs, ?_, ?_⟩
  · rw [compress_of_represents (pointAdd_represents hs ht),
      compress_of_represents (pointMul_represents (s + t) hp), add_smul]
  · rw [compress_of_represents (pointMul_represents s ht),
      compress_of_represents (pointMul_represents (s * t) hp), mul_smul]

theorem double_and_add_G : Represents (pointMul 5 G) (5 • base) ∧
    compress (pointAdd (pointMul 5 G) (pointMul 8 G)) = compress (pointMul (5 + 8) G) ∧
    compress (pointMul 5 (pointMul 8 G)) = compress (pointMul (5 * 8) G) :=
  double_and_add 5 8 G_represents

end Ed25519

end Ugk
