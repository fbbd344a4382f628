import DeviceAuth.Text.Blank

/-!
# DeviceAuth.Text.Integer

Decimal text of 64-bit signed integers: an optional sign, then ASCII digits, leading zeros
allowed, within range.
-/

namespace DeviceAuth.Text

/-- The least 64-bit signed integer, `-2 ^ 63`. -/
def int64Min : Int := -9223372036854775808

/-- The greatest 64-bit signed integer, `2 ^ 63 - 1`. -/
def int64Max : Int := 9223372036854775807

/-- The number that a text of ASCII digits writes. -/
def natOfDigits (cs : List Char) : Nat :=
  cs.foldl (fun n c => n * 10 + (c.toNat - 48)) 0

/-- The magnitude that a nonempty run of ASCII digits writes. -/
def readDigits? (cs : List Char) : Option Nat :=
  if cs = [] then none
  else if cs.all Char.isDigit then some (natOfDigits cs) else none

/-- The integer that a text writes, sign included, of any size. -/
def readInteger? : List Char → Option Int
  | '-' :: cs => (readDigits? cs).map fun n => -(n : Int)
  | '+' :: cs => (readDigits? cs).map fun n => (n : Int)
  | cs => (readDigits? cs).map fun n => (n : Int)

/-- The 64-bit integer that a text writes; a text out of range writes none. -/
def readInt64? (cs : List Char) : Option Int :=
  (readInteger? cs).filter fun n => int64Min ≤ n && n ≤ int64Max

end DeviceAuth.Text
