import Ugk.ForStd.ModularPower
import Ugk.Native.Amendment

/-!
# Ed25519

`ugk/vendor/ed25519.py`: the field and curve constants, points in extended coordinates, their
encoding in 32 bytes, signing and verification.  Byte strings are lists of `UInt8`; the constants
and functions stand under the source's names without the underscore.
-/

namespace Ugk

namespace Ed25519

/-- `hashlib.sha512(..).digest()`: 64 bytes. -/
structure Sha512 where
  digest : List UInt8 → List UInt8
  length_digest (b : List UInt8) : (digest b).length = 64

/-! ## Integers and bytes -/

/-- `pow(b, e, m)` with an exponent that is not negative. -/
def pow (b : Int) (e : Nat) (m : Nat) : Int := ModularPower.powMod (b % m).toNat e m

/-- `int.from_bytes(b, "little")` -/
def fromBytes : List UInt8 → Nat
  | [] => 0
  | b :: bs => b.toNat + 256 * fromBytes bs

/-- `n.to_bytes(length, "little")` where `n` fits in the bytes. -/
def toBytes : (length : Nat) → Nat → List UInt8
  | 0, _ => []
  | length + 1, n => (n % 256).toUInt8 :: toBytes length (n / 256)

/-- The digit of a value below 16. -/
def hexChar (n : Nat) : Char := if n < 10 then Char.ofNat (48 + n) else Char.ofNat (87 + n)

/-- The characters of `b.hex()`. -/
def hexChars : List UInt8 → List Char
  | [] => []
  | b :: bs => hexChar (b.toNat / 16) :: hexChar (b.toNat % 16) :: hexChars bs

/-- `b.hex()` -/
def hex (bytes : List UInt8) : String := String.ofList (hexChars bytes)

/-- `bytes.fromhex(s)` -/
def fromHex (s : String) : Except Exc (List UInt8) :=
  match Amendment.bytesFromHex s.toList with
  | some bytes => .ok bytes
  | none => .error (.valueError "non-hexadecimal number found in fromhex() arg")

/-! ## Constants -/

/-- Prime field modulus. -/
def P : Nat := 2 ^ 255 - 19

/-- Group order. -/
def L : Nat := 2 ^ 252 + 27742317777372353535851937790883648493

/-- Curve constant. -/
def D : Int := -121665 * pow 121666 (P - 2) P % P

/-- `_SQRT_M1`: a square root of -1. -/
def sqrtM1 : Int := pow 2 ((P - 1) / 4) P

/-- `_G_Y`: the ordinate of the base point. -/
def gY : Int := 4 * pow 5 (P - 2) P % P

/-- `_recover_x` -/
def recoverX (y sign : Int) : Option Int :=
  if y ≥ P then none
  else
    let y2 := y * y % P
    let x2 := (y2 - 1) * pow (D * y2 + 1) (P - 2) P % P
    if x2 = 0 then (if sign = 0 then some 0 else none)
    else
      let x := pow x2 ((P + 3) / 8) P
      let x := if (x * x - x2) % P ≠ 0 then x * sqrtM1 % P else x
      if (x * x - x2) % P ≠ 0 then none
      else if x % 2 ≠ sign then some (P - x)
      else some x

/-! ## Points -/

/-- Extended coordinates `(X, Y, Z, T)`. -/
structure Ext where
  x : Int
  y : Int
  z : Int
  t : Int
deriving DecidableEq

/-- `_G_X`; the search for it does not fail. -/
def gX : Int := (recoverX gY 0).getD 0

/-- Base point. -/
def G : Ext := ⟨gX, gY, 1, gX * gY % P⟩

/-- Neutral element. -/
def neutral : Ext := ⟨0, 1, 1, 0⟩

/-- `_point_add` -/
def pointAdd (p q : Ext) : Ext :=
  let a := (p.y - p.x) * (q.y - q.x) % P
  let b := (p.y + p.x) * (q.y + q.x) % P
  let c := p.t * 2 * D * q.t % P
  let d := p.z * 2 * q.z % P
  let e := (b - a) % P
  let f := (d - c) % P
  let g := (d + c) % P
  let h := (b + a) % P
  ⟨e * f % P, g * h % P, f * g % P, e * h % P⟩

/-- The loop of `_point_mul`. -/
def pointMulLoop : (fuel : Nat) → (s : Nat) → (q p : Ext) → Ext
  | 0, _, q, _ => q
  | fuel + 1, s, q, p =>
    if s > 0 then pointMulLoop fuel (s / 2) (if s % 2 = 1 then pointAdd q p else q) (pointAdd p p)
    else q

/-- `_point_mul`: `s` is halved in each round, so its bits bound the rounds. -/
def pointMul (s : Nat) (p : Ext) : Ext := pointMulLoop (s.log2 + 1) s neutral p

/-- `_compress` -/
def compress (p : Ext) : List UInt8 :=
  let zi := pow p.z (P - 2) P
  let x := p.x * zi % P
  let y := p.y * zi % P
  toBytes 32 (y.toNat ||| (x.toNat % 2) <<< 255)

/-- `_decompress` -/
def decompress (b : List UInt8) : Except Exc Ext :=
  if b.length ≠ 32 then .error (.valueError "Ed25519: compressed point must be 32 bytes")
  else
    let yRaw := fromBytes b
    let sign := yRaw >>> 255
    -- of the 256 bits all but the highest
    let y : Int := (yRaw % 2 ^ 255 : Nat)
    match recoverX y sign with
    | none => .error (.valueError "Ed25519: invalid compressed point")
    | some x => .ok ⟨x, y, 1, x * y % P⟩

/-- `_clamp` -/
def clamp (h32 : List UInt8) : Nat :=
  fromBytes (((h32.modify 0 (· &&& 248)).modify 31 (· &&& 127)).modify 31 (· ||| 64))

/-! ## Signatures -/

/-- `generate_keypair`, of the 32 bytes `os.urandom` returns. -/
def generateKeypair (sha : Sha512) (seed : List UInt8) : String × String :=
  let h := sha.digest seed
  let a := clamp (h.take 32)
  (hex seed, hex (compress (pointMul a G)))

/-- `sign` -/
def sign (sha : Sha512) (message : List UInt8) (privkeyHex : String) : Except Exc String := do
  let seed ← fromHex privkeyHex
  let h := sha.digest seed
  let a := clamp (h.take 32)
  let pre := h.drop 32
  let A := compress (pointMul a G)
  let r := fromBytes (sha.digest (pre ++ message)) % L
  let R := compress (pointMul r G)
  let hVal := fromBytes (sha.digest (R ++ A ++ message)) % L
  let s := (r + hVal * a) % L
  .ok (hex (R ++ toBytes 32 s))

/-- The body of `verify`, before the handler. -/
def verifyBody (sha : Sha512) (message : List UInt8) (sigHex pubkeyHex : String) :
    Except Exc Bool := do
  let sig ← fromHex sigHex
  let pubkey ← fromHex pubkeyHex
  if sig.length ≠ 64 ∨ pubkey.length ≠ 32 then .ok false
  else
    let R := sig.take 32
    let s := fromBytes (sig.drop 32)
    if s ≥ L then .ok false
    else do
      let r ← decompress R
      let a ← decompress pubkey
      let h := fromBytes (sha.digest (R ++ pubkey ++ message)) % L
      .ok (compress (pointMul s G) == compress (pointAdd r (pointMul h a)))

/-- `verify`: an exception is a refusal. -/
def verify (sha : Sha512) (message : List UInt8) (sigHex pubkeyHex : String) : Bool :=
  match verifyBody sha message sigHex pubkeyHex with
  | .ok b => b
  | .error _ => false

end Ed25519

end Ugk
