import DeviceAuth.Bytes
import DeviceAuth.Text.Printable

/-!
# DeviceAuth.Text.Quoted

A text between double quotes, for diagnostics: quotes and backslashes are escaped, and so is every
character that would not show, by its code point.
-/

namespace DeviceAuth.Text.Quoted

/-- One character inside the quotes. -/
def escape (c : Char) : List Char :=
  match c with
  | '\x00' => ['\\', '0']
  | '\t' => ['\\', 't']
  | '\r' => ['\\', 'r']
  | '\n' => ['\\', 'n']
  | '\\' => ['\\', '\\']
  | '"' => ['\\', '"']
  | c => if isPrintable c then [c]
    else ['\\', 'u', '\x7b'] ++ Nat.toDigits 16 c.toNat ++ ['\x7d']

/-- The quoted form of a text. -/
def encode (s : String) : String :=
  .ofList ('"' :: (s.toList.flatMap escape ++ ['"']))

end DeviceAuth.Text.Quoted
