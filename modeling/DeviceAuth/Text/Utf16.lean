/-!
# DeviceAuth.Text.Utf16

The UTF-16 code units of a text: one for a character below U+10000, a surrogate pair for the
others.
-/

namespace DeviceAuth.Text.Utf16

/-- The code units of one character. -/
def unitsOfChar (c : Char) : List UInt16 :=
  let n := c.toNat
  if n < 0x10000 then [UInt16.ofNat n]
  else
    [UInt16.ofNat (0xD800 + (n - 0x10000) / 0x400), UInt16.ofNat (0xDC00 + (n - 0x10000) % 0x400)]

/-- The code units of a text, in order. -/
def units (s : String) : List UInt16 :=
  s.toList.flatMap unitsOfChar

@[simp]
theorem units_empty : units "" = [] := by simp [units]

@[simp]
theorem units_append (a b : String) : units (a ++ b) = units a ++ units b := by
  simp [units]

end DeviceAuth.Text.Utf16
