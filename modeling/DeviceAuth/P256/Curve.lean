import DeviceAuth.Bytes
import DeviceAuth.Modular

/-!
# DeviceAuth.P256.Curve

The curve P-256 (SP 800-186): `y² = x³ - 3x + b` over a prime field, a group of prime order.
Points are affine; multiples are computed in Jacobian coordinates, where a point `(X, Y, Z)`
stands for `(X/Z², Y/Z³)` and `Z = 0` for infinity.
-/

namespace DeviceAuth.P256

/-! ## The field and the curve -/

/-- The field prime. -/
def prime : Nat := 0xffffffff00000001000000000000000000000000ffffffffffffffffffffffff

/-- The order of the group. -/
def order : Nat := 0xffffffff00000000ffffffffffffffffbce6faada7179e84f3b9cac2fc632551

/-- The constant term of the curve. -/
def constantTerm : Nat := 0x5ac635d8aa3a93e7b3ebbd55769886bc651d06b0cc53b0f63bce3c3e27d2604b

/-- The right side of the curve equation at `x`. -/
def rightSide (x : Nat) : Nat :=
  (x * x % prime * x + 3 * (prime - x % prime) + constantTerm) % prime

/-- The pairs of field elements that satisfy the curve equation. -/
def onCurve (x y : Nat) : Bool :=
  x < prime && y < prime && y * y % prime == rightSide x

/-- A point of the curve. -/
inductive Point where
  /-- The neutral element. -/
  | infinity
  /-- A point with coordinates. -/
  | affine (x y : Nat)
  deriving DecidableEq, Repr

/-- The base point. -/
def base : Point :=
  .affine 0x6b17d1f2e12c4247f8bce6e563a440f277037d812deb33a0f4a13945d898c296
    0x4fe342e2fe1a7f9b8ee7eb4a7c0f9e162bce33576b315ececbb6406837bf51f5

/-! ## Multiples -/

/-- A point in Jacobian coordinates. -/
structure Jacobian where
  x : Nat
  y : Nat
  z : Nat

namespace Jacobian

/-- The neutral element. -/
def infinity : Jacobian := ⟨1, 1, 0⟩

/-- A point with its third coordinate one. -/
def ofPoint : Point → Jacobian
  | .infinity => infinity
  | .affine x y => ⟨x, y, 1⟩

/-- The point with its coordinates divided out. -/
def toPoint (j : Jacobian) : Point :=
  if j.z = 0 then .infinity
  else
    let zi := Modular.inverse prime j.z
    let zi2 := zi * zi % prime
    .affine (j.x * zi2 % prime) (j.y * (zi2 * zi % prime) % prime)

/-- Twice a point. -/
def double (j : Jacobian) : Jacobian :=
  if j.z = 0 ∨ j.y = 0 then infinity
  else
    let delta := j.z * j.z % prime
    let gamma := j.y * j.y % prime
    let beta := j.x * gamma % prime
    let alpha := 3 * Modular.sub prime j.x delta * (j.x + delta) % prime
    let x := Modular.sub prime (alpha * alpha % prime) (8 * beta % prime)
    let y := Modular.sub prime (alpha * Modular.sub prime (4 * beta % prime) x % prime)
      (8 * gamma * gamma % prime)
    ⟨x, y, 2 * j.y * j.z % prime⟩

/-- The sum of two points. -/
def add (j k : Jacobian) : Jacobian :=
  if j.z = 0 then k
  else if k.z = 0 then j
  else
    let jz2 := j.z * j.z % prime
    let kz2 := k.z * k.z % prime
    let u1 := j.x * kz2 % prime
    let u2 := k.x * jz2 % prime
    let s1 := j.y * (k.z * kz2 % prime) % prime
    let s2 := k.y * (j.z * jz2 % prime) % prime
    let h := Modular.sub prime u2 u1
    let r := Modular.sub prime s2 s1
    if h = 0 then
      if r = 0 then double j else infinity
    else
      let h2 := h * h % prime
      let h3 := h2 * h % prime
      let v := u1 * h2 % prime
      let x := Modular.sub prime (Modular.sub prime (r * r % prime) h3) (2 * v % prime)
      let y := Modular.sub prime (r * Modular.sub prime v x % prime) (s1 * h3 % prime)
      ⟨x, y, h * (j.z * k.z % prime) % prime⟩

/-- The multiple of a point by a number, doubling once per binary digit. -/
def multiply (n : Nat) (j : Jacobian) : Jacobian :=
  (Modular.bits n).foldl (fun acc bit => if bit then add (double acc) j else double acc) infinity

end Jacobian

/-- The sum `m · base + n · q`. -/
def combine (m n : Nat) (q : Point) : Point :=
  (Jacobian.add (Jacobian.multiply m (.ofPoint base)) (Jacobian.multiply n (.ofPoint q))).toPoint

/-- The multiple of the base point by a number. -/
def baseMultiple (n : Nat) : Point :=
  (Jacobian.multiply n (.ofPoint base)).toPoint

/-! ## Encodings (SEC 1) -/

/-- The encoding with both coordinates. -/
def encodePoint : Point → List UInt8
  | .infinity => [0]
  | .affine x y => 4 :: (beBytes 32 x ++ beBytes 32 y)

/-- The encoding with the first coordinate and the parity of the second. -/
def encodeCompressed : Point → List UInt8
  | .infinity => [0]
  | .affine x y => UInt8.ofNat (2 + y % 2) :: beBytes 32 x

/-- A square root of the right side of the curve equation at `x`, if there is one. -/
def squareRoot? (x : Nat) : Option Nat :=
  let y := Modular.pow prime (rightSide x) ((prime + 1) / 4)
  if onCurve x y then some y else none

/-- The point with first coordinate `x` whose second coordinate has the given parity. -/
def withParity? (odd : Nat) (x : Nat) : Option Point :=
  (squareRoot? x).bind fun y =>
    let y := if y % 2 = odd then y else prime - y
    if onCurve x y then some (.affine x y) else none

/-- The point with first coordinate `x` and the smaller second coordinate. -/
def withSmaller? (x : Nat) : Option Point :=
  (squareRoot? x).bind fun y =>
    let y := min y (prime - y)
    if onCurve x y then some (.affine x y) else none

/-- The point that an encoding gives: uncompressed (4), compressed (2 and 3) or compact (5).
Infinity is no public point and is refused. -/
def decodePoint? : List UInt8 → Option Point
  | [] => none
  | form :: coords =>
    if form = 4 ∧ coords.length = 64 then
      let x := beNat (coords.take 32)
      let y := beNat (coords.drop 32)
      if onCurve x y then some (.affine x y) else none
    else if coords.length = 32 then
      if form = 2 then withParity? 0 (beNat coords)
      else if form = 3 then withParity? 1 (beNat coords)
      else if form = 5 then withSmaller? (beNat coords)
      else none
    else none

end DeviceAuth.P256
