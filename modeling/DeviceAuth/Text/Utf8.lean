/-!
# DeviceAuth.Text.Utf8

Text as its UTF-8 bytes. Reading is strict: overlong forms, surrogates and cut sequences are
refused. `validLength` says how many leading bytes are well formed, for readers that report
where a text goes wrong.
-/

namespace DeviceAuth.Text.Utf8

/-- The UTF-8 bytes of a text. -/
def encode (s : String) : List UInt8 :=
  s.toByteArray.data.toList

/-- The text that has these UTF-8 bytes, if there is one. -/
def decode? (bs : List UInt8) : Option String :=
  String.fromUTF8? ⟨bs.toArray⟩

/-- A byte that continues a sequence. -/
def isTail (b : UInt8) : Bool :=
  0x80 ≤ b && b ≤ 0xBF

/-- The second byte of a sequence, which some first bytes restrict further. -/
def isSecond (a b : UInt8) : Bool :=
  if a = 0xE0 then 0xA0 ≤ b && b ≤ 0xBF
  else if a = 0xED then 0x80 ≤ b && b ≤ 0x9F
  else if a = 0xF0 then 0x90 ≤ b && b ≤ 0xBF
  else if a = 0xF4 then 0x80 ≤ b && b ≤ 0x8F
  else isTail b

/-- The length of the sequence that the first byte announces; zero if it starts none. -/
def sequenceLength (a : UInt8) : Nat :=
  if a ≤ 0x7F then 1
  else if 0xC2 ≤ a && a ≤ 0xDF then 2
  else if 0xE0 ≤ a && a ≤ 0xEF then 3
  else if 0xF0 ≤ a && a ≤ 0xF4 then 4
  else 0

/-- The number of bytes before the first sequence that is not well formed. -/
def validLength : List UInt8 → Nat
  | [] => 0
  | [a] => if sequenceLength a = 1 then 1 else 0
  | a :: b :: r =>
    match sequenceLength a with
    | 1 => 1 + validLength (b :: r)
    | 2 => if isSecond a b then 2 + validLength r else 0
    | 3 =>
      match r with
      | c :: r => if isSecond a b && isTail c then 3 + validLength r else 0
      | [] => 0
    | 4 =>
      match r with
      | c :: d :: r => if isSecond a b && isTail c && isTail d then 4 + validLength r else 0
      | _ => 0
    | _ => 0

end DeviceAuth.Text.Utf8
