import DeviceAuth.Bytes

/-!
# DeviceAuth.Der

Strict DER: an element is a tag, a definite length in its minimal form, and that many bytes of
content.  `readElement` takes one element from the front of a buffer and hands back the rest;
`writeElement` is the one form that it accepts.  Tags with more than one byte are not used here
and are refused.
-/

namespace DeviceAuth.Der

/-! ## Tags -/

/-- `INTEGER`. -/
def tagInteger : UInt8 := 0x02

/-- `BIT STRING`. -/
def tagBitString : UInt8 := 0x03

/-- `OCTET STRING`. -/
def tagOctetString : UInt8 := 0x04

/-- `NULL`. -/
def tagNull : UInt8 := 0x05

/-- `OBJECT IDENTIFIER`. -/
def tagOid : UInt8 := 0x06

/-- `SEQUENCE`. -/
def tagSequence : UInt8 := 0x30

/-- The universal tags in use: the primitive types, then `SEQUENCE` and `SET`. -/
def universalTags : List UInt8 :=
  [0x01, 0x02, 0x03, 0x04, 0x05, 0x06, 0x09, 0x0A, 0x0C, 0x12, 0x13, 0x14, 0x15, 0x16, 0x17, 0x18,
   0x1A, 0x1E, 0x30, 0x31]

/-- A tag of a class other than universal. -/
def isClassTag (tag : UInt8) : Bool :=
  0x40 ≤ tag && tag &&& 0x1F != 0x1F

/-- The tags that an element may have. -/
def isTag (tag : UInt8) : Bool :=
  universalTags.contains tag || isClassTag tag

/-- A context-specific tag, primitive or constructed. -/
def isContext (tag : UInt8) : Bool :=
  isClassTag tag && tag &&& 0xC0 == 0x80

/-- The number of a context-specific tag. -/
def contextNumber (tag : UInt8) : Nat :=
  (tag &&& 0x1F).toNat

/-- The constructed context-specific tag with a number below 31. -/
def explicitTag (n : Nat) : UInt8 :=
  UInt8.ofNat (0xA0 + n)

/-! ## Lengths -/

/-- The greatest length that is read: twenty-eight bits. -/
def maxLength : Nat := 0xFFFFFFF

/-- The length bytes for `n` bytes of content. -/
def writeLength (n : Nat) : List UInt8 :=
  if n < 0x80 then [UInt8.ofNat n]
  else UInt8.ofNat (0x80 + byteWidth n) :: beBytes (byteWidth n) n

/-- Reads a length: below 0x80 in one byte, else in the fewest of one to four bytes. -/
def readLength : List UInt8 → Option (Nat × List UInt8)
  | [] => none
  | b :: r =>
    if b < 0x80 then some (b.toNat, r)
    else
      let k := b.toNat - 0x80
      let n := beNat (r.take k)
      if 1 ≤ k ∧ k ≤ 4 ∧ k ≤ r.length ∧ 0x80 ≤ n ∧ byteWidth n = k ∧ n ≤ maxLength then
        some (n, r.drop k)
      else none

/-! ## Elements -/

/-- An element: its tag and its content. -/
structure Element where
  tag : UInt8
  content : List UInt8
  deriving DecidableEq, Repr

/-- The bytes of an element. -/
def writeElement (e : Element) : List UInt8 :=
  e.tag :: (writeLength e.content.length ++ e.content)

/-- Takes one element from the front of a buffer. -/
def readElement : List UInt8 → Option (Element × List UInt8)
  | [] => none
  | tag :: r =>
    if isTag tag then
      match readLength r with
      | some (n, r) => if n ≤ r.length then some (⟨tag, r.take n⟩, r.drop n) else none
      | none => none
    else none

/-- Takes one element with a given tag, and gives its content. -/
def readTagged (tag : UInt8) (bs : List UInt8) : Option (List UInt8 × List UInt8) :=
  match readElement bs with
  | some (e, r) => if e.tag = tag then some (e.content, r) else none
  | none => none

/-- The content of the one element, with a given tag, that makes up a buffer. -/
def readWhole (tag : UInt8) (bs : List UInt8) : Option (List UInt8) :=
  match readTagged tag bs with
  | some (content, []) => some content
  | _ => none

/-! ## Integers -/

/-- The content of a nonnegative `INTEGER`: a leading zero where the top bit is set. -/
def naturalContent (n : Nat) : List UInt8 :=
  if n = 0 then [0]
  else
    let bs := beBytes (byteWidth n) n
    if bs.headD 0 < 0x80 then bs else 0 :: bs

/-- Reads the content of an `INTEGER`, which has to be minimal and nonnegative. -/
def naturalOfContent? : List UInt8 → Option Nat
  | [] => none
  | [b] => if b < 0x80 then some b.toNat else none
  | b :: c :: r =>
    if b = 0 then
      if c < 0x80 then none else some (beNat (c :: r))
    else if b < 0x80 then some (beNat (b :: c :: r))
    else none

/-- Takes a nonnegative `INTEGER` from the front of a buffer. -/
def readNatural (bs : List UInt8) : Option (Nat × List UInt8) :=
  match readTagged tagInteger bs with
  | some (content, r) => (naturalOfContent? content).map fun n => (n, r)
  | none => none

/-- The bytes of a nonnegative `INTEGER`. -/
def writeNatural (n : Nat) : List UInt8 :=
  writeElement ⟨tagInteger, naturalContent n⟩

/-! ## Bit strings -/

/-- A bit string: how many bits of its last byte are unused, and its bytes. -/
structure BitString where
  unused : Nat
  bytes : List UInt8
  deriving DecidableEq, Repr

/-- Reads the content of a `BIT STRING`. -/
def BitString.ofContent? : List UInt8 → Option BitString
  | [] => none
  | b :: r => if b.toNat ≤ 7 ∧ (b = 0 ∨ r ≠ []) then some ⟨b.toNat, r⟩ else none

/-- The bytes of a bit string without unused bits. -/
def BitString.aligned? (s : BitString) : Option (List UInt8) :=
  if s.unused = 0 then some s.bytes else none

/-- The bytes of a `BIT STRING` element without unused bits. -/
def writeBitString (bytes : List UInt8) : List UInt8 :=
  writeElement ⟨tagBitString, 0 :: bytes⟩

/-- The bytes of a `SEQUENCE` around its content. -/
def writeSequence (content : List UInt8) : List UInt8 :=
  writeElement ⟨tagSequence, content⟩

end DeviceAuth.Der
