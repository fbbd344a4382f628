import DeviceAuth.Binary64.Shortest
import DeviceAuth.Bytes
import DeviceAuth.Json
import DeviceAuth.Text.Utf8

/-!
# DeviceAuth.Json.Printer

The compact JSON text of a value, as bytes: no white space, members in the order they are kept in,
and in strings only quotes, backslashes and control characters escaped.
-/

namespace DeviceAuth.Json

/-- The bytes of an ASCII text. -/
def ascii (cs : List Char) : List UInt8 :=
  cs.map fun c => UInt8.ofNat c.toNat

/-! ## Numbers -/

/-- The decimal digits of a natural number. -/
def encodeNat (n : Nat) : List UInt8 :=
  ascii (Nat.toDigits 10 n)

/-- The decimal text of an integer. -/
def encodeInt (n : Int) : List UInt8 :=
  if n < 0 then 0x2D :: encodeNat n.natAbs else encodeNat n.natAbs

/-- The exponents of ten at which a double is written without an exponent. -/
def isPositional (e : Int) : Bool :=
  -5 ≤ e && e ≤ 15

/-- The text of a decimal: positional with at least one digit after the point, or one digit before
the point and a signed exponent. -/
def encodeDecimal (d : Binary64.Decimal) : List UInt8 :=
  let ds := encodeNat d.digits
  let e := d.point - 1
  if isPositional e then
    if d.point ≤ 0 then
      [0x30, 0x2E] ++ List.replicate (-d.point).toNat 0x30 ++ ds
    else
      let k := d.point.toNat
      if ds.length ≤ k then ds ++ List.replicate (k - ds.length) 0x30 ++ [0x2E, 0x30]
      else ds.take k ++ 0x2E :: ds.drop k
  else
    let mantissa := if ds.length = 1 then ds else ds.take 1 ++ 0x2E :: ds.drop 1
    mantissa ++ 0x65 :: (if e < 0 then 0x2D else 0x2B) :: encodeNat e.natAbs

/-- The text of a finite double: the shortest decimal that reads back, and `0.0` for zero. -/
def encodeFloat (x : Binary64) : List UInt8 :=
  let body :=
    if x.magnitude = 0 then [0x30, 0x2E, 0x30]
    else encodeDecimal (Binary64.shortest x.magnitude)
  if x.negative then 0x2D :: body else body

/-- The text of a number. -/
def Number.encode : Number → List UInt8
  | .int n => encodeInt n
  | .float x => encodeFloat x

/-! ## Strings -/

/-- One byte of a string: a short escape, a code point escape for other controls, or itself. -/
def escapeByte (b : UInt8) : List UInt8 :=
  if b = 0x22 then [0x5C, 0x22]
  else if b = 0x5C then [0x5C, 0x5C]
  else if b = 0x08 then [0x5C, 0x62]
  else if b = 0x0C then [0x5C, 0x66]
  else if b = 0x0A then [0x5C, 0x6E]
  else if b = 0x0D then [0x5C, 0x72]
  else if b = 0x09 then [0x5C, 0x74]
  else if b < 0x20 then
    [0x5C, 0x75, 0x30, 0x30] ++ ascii [hexDigit (b.toNat / 16), hexDigit (b.toNat % 16)]
  else [b]

/-- A string between its quotes. -/
def encodeString (s : String) : List UInt8 :=
  0x22 :: ((Text.Utf8.encode s).flatMap escapeByte ++ [0x22])

/-! ## Values -/

/-- Texts with a comma between them. -/
def commaSeparated : List (List UInt8) → List UInt8
  | [] => []
  | [x] => x
  | x :: xs => x ++ 0x2C :: commaSeparated xs

/-- The text of an array with the given item texts. -/
def encodeItems (items : List (List UInt8)) : List UInt8 :=
  0x5B :: (commaSeparated items ++ [0x5D])

/-- The text of an object with the given member names and value texts. -/
def encodeMembers (members : List (String × List UInt8)) : List UInt8 :=
  0x7B :: (commaSeparated (members.map fun (n, v) => encodeString n ++ 0x3A :: v) ++ [0x7D])

mutual

/-- The compact text of a value. -/
def encode : Json → List UInt8
  | .null => ascii ['n', 'u', 'l', 'l']
  | .bool true => ascii ['t', 'r', 'u', 'e']
  | .bool false => ascii ['f', 'a', 'l', 's', 'e']
  | .number n => n.encode
  | .string s => encodeString s
  | .array items => encodeItems (encodeAll items)
  | .object members => encodeMembers (encodeEach members)

/-- The compact texts of some values. -/
def encodeAll : List Json → List (List UInt8)
  | [] => []
  | v :: vs => encode v :: encodeAll vs

/-- Member names with the compact texts of their values. -/
def encodeEach : List (String × Json) → List (String × List UInt8)
  | [] => []
  | (n, v) :: ms => (n, encode v) :: encodeEach ms

end

/-- The compact text of a value, as text. -/
def render (v : Json) : String :=
  (Text.Utf8.decode? (encode v)).getD ""

end DeviceAuth.Json
