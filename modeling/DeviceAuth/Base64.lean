import DeviceAuth.Text.Utf8

/-!
# DeviceAuth.Base64

Base64 (RFC 4648) over byte lists, with the standard and the URL-safe alphabet.  Reading is
canonical: symbols outside the alphabet, a lone last symbol and spare bits that are set are all
refused, each with the offset at which it stands.  Whether padding may follow is the caller's
choice; where it may, any amount up to the canonical one is taken.
-/

namespace DeviceAuth.Base64

/-! ## Alphabets -/

/-- An alphabet: letters and digits, then the two symbols in which alphabets differ. -/
structure Alphabet where
  /-- The symbol of the value 62. -/
  symbol62 : UInt8
  /-- The symbol of the value 63. -/
  symbol63 : UInt8
  deriving DecidableEq, Repr

/-- The alphabet with `+` and `/`. -/
def Alphabet.standard : Alphabet := ⟨43, 47⟩

/-- The alphabet with `-` and `_`. -/
def Alphabet.urlSafe : Alphabet := ⟨45, 95⟩

/-- The padding symbol `=`. -/
def padSymbol : UInt8 := 61

/-- The symbol of a value below 64. -/
def Alphabet.symbol (al : Alphabet) (v : Nat) : UInt8 :=
  if v < 26 then UInt8.ofNat (65 + v)
  else if v < 52 then UInt8.ofNat (71 + v)
  else if v < 62 then UInt8.ofNat (v - 4)
  else if v = 62 then al.symbol62
  else al.symbol63

/-- The value of a symbol, if it is in the alphabet. -/
def Alphabet.value? (al : Alphabet) (b : UInt8) : Option Nat :=
  let n := b.toNat
  if 65 ≤ n ∧ n ≤ 90 then some (n - 65)
  else if 97 ≤ n ∧ n ≤ 122 then some (n - 71)
  else if 48 ≤ n ∧ n ≤ 57 then some (n + 4)
  else if b = al.symbol62 then some 62
  else if b = al.symbol63 then some 63
  else none

/-! ## Writing -/

/-- The symbols of a byte list, without padding. -/
def encodeUnpadded (al : Alphabet) : List UInt8 → List UInt8
  | a :: b :: c :: r =>
    let n := a.toNat * 65536 + b.toNat * 256 + c.toNat
    al.symbol (n / 262144) :: al.symbol (n / 4096 % 64) :: al.symbol (n / 64 % 64) ::
      al.symbol (n % 64) :: encodeUnpadded al r
  | [a, b] =>
    let n := a.toNat * 256 + b.toNat
    [al.symbol (n / 1024), al.symbol (n / 16 % 64), al.symbol (n % 16 * 4)]
  | [a] => [al.symbol (a.toNat / 4), al.symbol (a.toNat % 4 * 16)]
  | [] => []

/-- The number of padding symbols that complete `n` symbols to a multiple of four. -/
def padLength (n : Nat) : Nat :=
  (4 - n % 4) % 4

/-- The symbols of a byte list, padded to a multiple of four. -/
def encodePadded (al : Alphabet) (bs : List UInt8) : List UInt8 :=
  let s := encodeUnpadded al bs
  s ++ List.replicate (padLength s.length) padSymbol

/-- The text that a list of symbols spells. -/
def spell (symbols : List UInt8) : String :=
  .ofList (symbols.map fun b => Char.ofNat b.toNat)

/-- The padded text of a byte list. -/
def encode (al : Alphabet) (bs : List UInt8) : String :=
  spell (encodePadded al bs)

/-- The unpadded text of a byte list. -/
def encodeNoPad (al : Alphabet) (bs : List UInt8) : String :=
  spell (encodeUnpadded al bs)

/-! ## Reading -/

/-- Why a text is not Base64. -/
inductive Fault where
  /-- A byte outside the alphabet, or padding out of place. -/
  | symbol (byte : UInt8) (offset : Nat)
  /-- The last group has fewer than two symbols. -/
  | length (symbols : Nat)
  /-- The last symbol has spare bits set. -/
  | lastSymbol (byte : UInt8) (offset : Nat)
  /-- Padding where none is allowed. -/
  | padding
  deriving DecidableEq, Repr

/-- The wording of a fault. -/
def Fault.message : Fault → String
  | .symbol b o => s!"Invalid symbol {b.toNat}, offset {o}."
  | .length n => s!"Invalid input length: {n}"
  | .lastSymbol b o => s!"Invalid last symbol {b.toNat}, offset {o}."
  | .padding => "Invalid padding"

/-- Whether padding may end a text. -/
inductive Padding where
  /-- Some or all of the canonical padding may stand. -/
  | lenient
  /-- No padding may stand. -/
  | none
  deriving DecidableEq, Repr

/-- The value of the symbol at an offset. -/
def readSymbol (al : Alphabet) (offset : Nat) (b : UInt8) : Except Fault Nat :=
  match al.value? b with
  | some v => .ok v
  | none => .error (.symbol b offset)

/-- The values of the symbols of the last group, in order. -/
def readSymbols (al : Alphabet) (offset : Nat) : List UInt8 → Except Fault (List Nat)
  | [] => .ok []
  | b :: r => do
    let v ← readSymbol al offset b
    let vs ← readSymbols al (offset + 1) r
    return v :: vs

/-- The bytes that the symbols of the last group spell; `bs` are the symbols themselves. -/
def lastBytes (offset : Nat) (bs : List UInt8) : List Nat → Except Fault (List UInt8)
  | [] => .ok []
  | [x, y] =>
    if y % 16 = 0 then .ok [UInt8.ofNat (x * 4 + y / 16)]
    else .error (.lastSymbol (bs.getD 1 0) (offset + 1))
  | [x, y, z] =>
    if z % 4 = 0 then
      let n := (x * 4096 + y * 64 + z) / 4
      .ok [UInt8.ofNat (n / 256), UInt8.ofNat n]
    else .error (.lastSymbol (bs.getD 2 0) (offset + 2))
  | [x, y, z, w] =>
    let n := x * 262144 + y * 4096 + z * 64 + w
    .ok [UInt8.ofNat (n / 65536), UInt8.ofNat (n / 256), UInt8.ofNat n]
  | vs => .error (.length (offset + vs.length))

/-- Reads the last group: its symbols, then padding and nothing but padding. -/
def decodeLast (al : Alphabet) (pad : Padding) (offset : Nat) (s : List UInt8) :
    Except Fault (List UInt8) := do
  let symbols := s.takeWhile (· != padSymbol)
  let tail := s.dropWhile (· != padSymbol)
  let vs ← readSymbols al offset symbols
  if tail ≠ [] ∧ (symbols.length < 2 ∨ tail.any (· != padSymbol)) then
    throw (.symbol padSymbol (offset + symbols.length))
  if s ≠ [] ∧ symbols.length < 2 then
    throw (.length (offset + symbols.length))
  if pad = .none ∧ tail ≠ [] then
    throw .padding
  lastBytes offset symbols vs

/-- Reads groups of four symbols while more follows, then the last group. -/
def decodeFrom (al : Alphabet) (pad : Padding) (offset : Nat) :
    List UInt8 → Except Fault (List UInt8)
  | a :: b :: c :: d :: e :: r => do
    let x ← readSymbol al offset a
    let y ← readSymbol al (offset + 1) b
    let z ← readSymbol al (offset + 2) c
    let w ← readSymbol al (offset + 3) d
    let n := x * 262144 + y * 4096 + z * 64 + w
    let bs ← decodeFrom al pad (offset + 4) (e :: r)
    return UInt8.ofNat (n / 65536) :: UInt8.ofNat (n / 256) :: UInt8.ofNat n :: bs
  | s => decodeLast al pad offset s

/-- A foreign byte that stands alone after complete groups is reported before all else. -/
def loneFault? (al : Alphabet) (s : List UInt8) : Option Fault :=
  match s.getLast? with
  | some b =>
    if s.length % 4 = 1 ∧ b ≠ padSymbol ∧ al.value? b = none then
      some (.symbol b (s.length - 1))
    else none
  | none => none

/-- The bytes that a list of symbols spells. -/
def decode (al : Alphabet) (pad : Padding) (s : List UInt8) : Except Fault (List UInt8) :=
  match loneFault? al s with
  | some f => .error f
  | none => decodeFrom al pad 0 s

/-- The bytes that a text spells. -/
def decodeText (al : Alphabet) (pad : Padding) (s : String) : Except Fault (List UInt8) :=
  decode al pad (Text.Utf8.encode s)

end DeviceAuth.Base64
