/-!
# DeviceAuth.Binary64

Double-precision numbers (IEEE 754 binary64) in exact integer arithmetic.  A magnitude is the
number that its sixty-three bits spell, exponent above fraction, so the order of magnitudes is the
order of the numbers; every operation is exact first and rounded once, to nearest with ties to
even.
-/

namespace DeviceAuth

/-- A double: its sign and the bits of its magnitude. -/
structure Binary64 where
  negative : Bool
  magnitude : Nat
  deriving DecidableEq, Repr

namespace Binary64

/-! ## Magnitudes -/

/-- The weight of the exponent field, `2 ^ 52`. -/
def fieldUnit : Nat := 4503599627370496

/-- The magnitude of infinity; those above it are no numbers. -/
def infinity : Nat := 2047 * fieldUnit

/-- The integer significand of a magnitude. -/
def significand (x : Nat) : Nat :=
  if x < fieldUnit then x else fieldUnit + x % fieldUnit

/-- The power of two that the significand is multiplied by. -/
def exponent (x : Nat) : Int :=
  if x < fieldUnit then -1074 else (x / fieldUnit : Nat) - 1075

/-- The quotient `num / den / 2 ^ e` as a numerator and a denominator. -/
def scaled (num den : Nat) (e : Int) : Nat × Nat :=
  if 0 ≤ e then (num, den * Nat.pow 2 e.toNat) else (num * Nat.pow 2 (-e).toNat, den)

/-- The exponent at which the integer part of `num / den` has fifty-three bits, or the least
exponent if that is greater. -/
def quotientExponent (num den : Nat) : Int :=
  let e := max ((num.log2 : Int) - den.log2 - 53) (-1074)
  let (n, d) := scaled num den e
  if 2 * fieldUnit ≤ n / d then e + 1 else e

/-- A quotient rounded to the nearest integer, a tie to the even one. -/
def roundQuotient (n d : Nat) : Nat :=
  let q := n / d
  let r := n % d
  if d < 2 * r ∨ (2 * r = d ∧ q % 2 = 1) then q + 1 else q

/-- The magnitude nearest to `num / den`; a quotient beyond the greatest number gives infinity. -/
def ofQuotient (num den : Nat) : Nat :=
  if num = 0 then 0
  else
    let e := quotientExponent num den
    let (n, d) := scaled num den e
    min ((e + 1074).toNat * fieldUnit + roundQuotient n d) infinity

/-- The magnitude nearest to a natural number. -/
def ofNat (n : Nat) : Nat :=
  ofQuotient n 1

/-- The rounded product of two finite magnitudes. -/
def mul (x y : Nat) : Nat :=
  let (n, d) := scaled (significand x * significand y) 1 (-(exponent x + exponent y))
  ofQuotient n d

/-- The rounded quotient of two finite magnitudes. -/
def div (x y : Nat) : Nat :=
  let (n, d) := scaled (significand x) (significand y) (exponent y - exponent x)
  ofQuotient n d

/-- Whether a double is a number. -/
def isFinite (x : Binary64) : Bool :=
  x.magnitude < infinity

/-! ## Decimal scaling -/

/-- A magnitude multiplied by a power of ten, which is itself rounded; no number comes out when
the product is beyond the greatest one. -/
def scaleUp? (x k : Nat) : Option Nat :=
  if k ≤ 308 then
    let y := mul x (ofNat (Nat.pow 10 k))
    if y < infinity then some y else none
  else if x = 0 then some 0 else none

/-- A magnitude divided by a power of ten, in steps of at most `10 ^ 308`.  After two steps
nothing is left of a significand of sixty-four bits. -/
def scaleDown (x k : Nat) : Nat :=
  if k ≤ 308 then div x (ofNat (Nat.pow 10 k))
  else if k ≤ 616 then div (div x (ofNat (Nat.pow 10 308))) (ofNat (Nat.pow 10 (k - 308)))
  else 0

/-- The magnitude read from a significand and a decimal exponent. -/
def ofDecimal? (significand : Nat) (exponent : Int) : Option Nat :=
  if 0 ≤ exponent then scaleUp? (ofNat significand) exponent.toNat
  else some (scaleDown (ofNat significand) (-exponent).toNat)

end Binary64

end DeviceAuth
