import DeviceAuth.Binary64

/-!
# DeviceAuth.Binary64.Shortest

The shortest decimal that reads back as a given double.  The reals that round to a double form an
interval; on the decimal grids of one, two, … seventeen digits the first with a point in the
interval is taken, and of its points the nearest to the double, a tie going to the even digit.
-/

namespace DeviceAuth.Binary64

/-- A positive decimal: digits without a trailing zero, and where the point stands, counted from
before the first digit. -/
structure Decimal where
  digits : Nat
  point : Int
  deriving DecidableEq, Repr

/-- The bounds of the interval that rounds to a magnitude, and the magnitude itself, in quarters
of the last place: below, value, above. -/
def quarters (x : Nat) : Nat × Nat × Nat :=
  let m := significand x
  let below := if m = fieldUnit ∧ fieldUnit < x then 1 else 2
  (4 * m - below, 4 * m, 4 * m + 2)

/-- The number of decimal digits before the point of `num / den`; zero or less for a fraction. -/
def pointOf (num den : Nat) : Int :=
  ((Nat.toDigits 10 (num * Nat.pow 10 324 / den)).length : Int) - 324

/-- The point of the grid with step `10 ^ g` that is nearest to the value, if it lies in the
interval. -/
def gridPoint? (x : Nat) (g : Int) : Option Nat :=
  let (lo, v, hi) := quarters x
  let even := significand x % 2 = 0
  let (a, b) := scaled 1 1 (2 - exponent x)
  let (a, b) := if 0 ≤ g then (a, b * Nat.pow 10 g.toNat) else (a * Nat.pow 10 (-g).toNat, b)
  let inside (c : Nat) : Bool :=
    if even then lo * a ≤ c * b && c * b ≤ hi * a else lo * a < c * b && c * b < hi * a
  let c := v * a / b
  let r := v * a % b
  let near := if b < 2 * r ∨ (2 * r = b ∧ c % 2 = 1) then c + 1 else c
  let far := if near = c then c + 1 else c
  if inside near then some near else if inside far then some far else none

/-- A number without its trailing zeros, given a bound on how many there are. -/
def dropZeros : Nat → Nat → Nat
  | 0, n => n
  | k + 1, n => if n % 10 = 0 then dropZeros k (n / 10) else n

/-- The shortest decimal of a finite magnitude other than zero. -/
def shortest (x : Nat) : Decimal :=
  let (num, den) := scaled (significand x) 1 (-(exponent x))
  let point := pointOf num den
  let hit := (List.range 17).findSome? fun (k : Nat) =>
    (gridPoint? x (point - ((k + 1 : Nat) : Int))).map fun c => (k + 1, c)
  match hit with
  | some (k, c) => ⟨dropZeros 17 c, if Nat.pow 10 k ≤ c then point + 1 else point⟩
  | none => ⟨0, 0⟩

end DeviceAuth.Binary64
