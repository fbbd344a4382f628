import DeviceAuth.Bytes
import DeviceAuth.Text.Utf16

/-!
# DeviceAuth.Token.Digest

The digest under which an identity provider's token is referred to: a polynomial hash of its
UTF-16 code units, to the base 31 and modulo `2 ^ 32`, in lower-case hexadecimal.
-/

namespace DeviceAuth.Token.Digest

/-- The multiplier of the hash. -/
def multiplier : UInt32 := 31

/-- One more code unit. -/
def step (h : UInt32) (unit : UInt16) : UInt32 :=
  h * multiplier + unit.toUInt32

/-- The hash of a text. -/
def hash (s : String) : UInt32 :=
  (Text.Utf16.units s).foldl step 0

/-- The hash as a signed number of thirty-two bits. -/
def signedHash (s : String) : Int :=
  (hash s).toInt32.toInt

/-- The digest of a text: the hexadecimal digits of its hash, without leading zeros. -/
def text (s : String) : String :=
  hexOfNat (hash s).toNat

@[simp]
theorem hash_empty : hash "" = 0 := by simp [hash]

theorem hash_append (a b : String) :
    hash (a ++ b) = (Text.Utf16.units b).foldl step (hash a) := by
  simp [hash, List.foldl_append]

end DeviceAuth.Token.Digest
