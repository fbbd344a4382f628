import DeviceAuth.Bytes
import DeviceAuth.Json
import DeviceAuth.Text.Utf8

/-!
# DeviceAuth.Json.Reader

Strict JSON reading from bytes (RFC 8259), with the place of the first fault.  A reader takes a
value from the front of the bytes and hands back the rest; a fault says how many bytes were not
reached, from which the line and the column follow.  Nesting is limited, and the recursion of the
reader is on the levels that are left.
-/

namespace DeviceAuth.Json

/-! ## Faults -/

/-- What is wrong with a text. -/
inductive Reason where
  | eofValue
  | eofArray
  | eofObject
  | eofString
  | expectedValue
  | expectedIdent
  | expectedColon
  | expectedCommaOrBracket
  | expectedCommaOrBrace
  | trailingComma
  | trailingCharacters
  | keyNotString
  | tooDeep
  | invalidNumber
  | numberOutOfRange
  | controlCharacter
  | invalidEscape
  | loneSurrogate
  | cutEscape
  | invalidUtf8
  deriving DecidableEq, Repr

/-- The wording of a reason. -/
def Reason.message : Reason → String
  | .eofValue => "EOF while parsing a value"
  | .eofArray => "EOF while parsing a list"
  | .eofObject => "EOF while parsing an object"
  | .eofString => "EOF while parsing a string"
  | .expectedValue => "expected value"
  | .expectedIdent => "expected ident"
  | .expectedColon => "expected `:`"
  | .expectedCommaOrBracket => "expected `,` or `]`"
  | .expectedCommaOrBrace => "expected `,` or `\x7d`"
  | .trailingComma => "trailing comma"
  | .trailingCharacters => "trailing characters"
  | .keyNotString => "key must be a string"
  | .tooDeep => "recursion limit exceeded"
  | .invalidNumber => "invalid number"
  | .numberOutOfRange => "number out of range"
  | .controlCharacter => "control character (\\u0000-\\u001F) found while parsing a string"
  | .invalidEscape => "invalid escape"
  | .loneSurrogate => "lone leading surrogate in hex escape"
  | .cutEscape => "unexpected end of hex escape"
  | .invalidUtf8 => "invalid unicode code point"

/-- A fault: what is wrong, and how many bytes of the text lie behind the place. -/
structure Fault where
  reason : Reason
  remaining : Nat
  deriving DecidableEq, Repr

/-- A reader takes a value from the front of the bytes and hands back the rest. -/
abbrev Reader (α : Type) := List UInt8 → Except Fault (α × List UInt8)

/-- The rest of the bytes without leading white space. -/
def skipBlank (s : List UInt8) : List UInt8 :=
  s.dropWhile fun b => b == 0x20 || b == 0x0A || b == 0x0D || b == 0x09

/-- Takes the given bytes. -/
def readWord : List UInt8 → List UInt8 → Except Fault (List UInt8)
  | [], s => .ok s
  | _ :: _, [] => .error ⟨.eofValue, 0⟩
  | w :: ws, b :: s => if b = w then readWord ws s else .error ⟨.expectedIdent, s.length⟩

/-! ## Numbers -/

/-- A decimal digit. -/
def isDigit (b : UInt8) : Bool :=
  0x30 ≤ b && b ≤ 0x39

/-- The value of a decimal digit. -/
def digitValue (b : UInt8) : Nat :=
  b.toNat - 0x30

/-- The least number beyond 64 bits, `2 ^ 64`. -/
def significandLimit : Nat := 18446744073709551616

/-- Takes digits into a significand while it stays within 64 bits; gives the significand and how
many digits were taken. -/
def absorb : Nat → List UInt8 → Nat × Nat
  | n, [] => (n, 0)
  | n, d :: ds =>
    let m := n * 10 + digitValue d
    if m < significandLimit then
      let (m, k) := absorb m ds
      (m, k + 1)
    else (n, 0)

/-- The least exponent that is not taken, `2 ^ 31`. -/
def exponentLimit : Nat := 2147483648

/-- The number of digits after the one at which an exponent reaches its limit, if it does. -/
def exponentOverflow? : Nat → List UInt8 → Option Nat
  | _, [] => none
  | n, d :: ds =>
    let m := n * 10 + digitValue d
    if exponentLimit ≤ m then some ds.length else exponentOverflow? m ds

/-- The number that digits write. -/
def digitsValue (ds : List UInt8) : Nat :=
  ds.foldl (fun n d => n * 10 + digitValue d) 0

/-- The double for a significand and an exponent; one beyond the greatest number is a fault. -/
def floatOf (negative : Bool) (significand : Nat) (exponent : Int) (rest : List UInt8) :
    Except Fault (Number × List UInt8) :=
  match Binary64.ofDecimal? significand exponent with
  | some x => .ok (.float ⟨negative, x⟩, rest)
  | none => .error ⟨.numberOutOfRange, rest.length⟩

/-- Reads an exponent after its mark; `start` is the exponent that the digits before it have. -/
def readExponent (negative : Bool) (significand : Nat) (start : Int) (s : List UInt8) :
    Except Fault (Number × List UInt8) :=
  let down := s.head? == some 0x2D
  let s := if s.head? == some 0x2B || s.head? == some 0x2D then s.drop 1 else s
  match s with
  | [] => .error ⟨.eofValue, 0⟩
  | b :: r =>
    if isDigit b then
      let ds := s.takeWhile isDigit
      let rest := s.dropWhile isDigit
      match exponentOverflow? 0 ds with
      | some k =>
        if significand ≠ 0 ∧ !down then .error ⟨.numberOutOfRange, k + rest.length⟩
        else .ok (.float ⟨negative, 0⟩, rest)
      | none =>
        let e : Int := digitsValue ds
        floatOf negative significand (if down then start - e else start + e) rest
    else .error ⟨.invalidNumber, r.length⟩

/-- An exponent mark. -/
def isExponentMark (b : UInt8) : Bool :=
  b == 0x65 || b == 0x45

/-- Reads the digits after a decimal point and what follows them. -/
def readFraction (negative : Bool) (significand : Nat) (start : Int) (s : List UInt8) :
    Except Fault (Number × List UInt8) :=
  let ds := s.takeWhile isDigit
  let rest := s.dropWhile isDigit
  if ds = [] then
    match rest with
    | [] => .error ⟨.eofValue, 0⟩
    | _ :: r => .error ⟨.invalidNumber, r.length⟩
  else
    let (m, k) := absorb significand ds
    let e := start - k
    match rest with
    | b :: r => if isExponentMark b then readExponent negative m e r else floatOf negative m e rest
    | [] => floatOf negative m e rest

/-- The number for an integer literal: with a minus sign zero is a double, and so is whatever is
below `-2 ^ 63`. -/
def integerOf (negative : Bool) (n : Nat) : Number :=
  if negative then
    if n = 0 ∨ Text.int64Max + 1 < n then .float ⟨true, Binary64.ofNat n⟩ else .int (-(n : Int))
  else .int n

/-- Reads a number after its sign: digits without a leading zero, then perhaps a fraction and an
exponent.  Digits that take the significand beyond 64 bits only count as places. -/
def readNumber (negative : Bool) : List UInt8 → Except Fault (Number × List UInt8)
  | [] => .error ⟨.eofValue, 0⟩
  | b :: r =>
    let s := b :: r
    if !isDigit b then .error ⟨.invalidNumber, r.length⟩
    else if b = 0x30 ∧ (r.head?.map isDigit).getD false then .error ⟨.invalidNumber, r.length - 1⟩
    else
      let ds := s.takeWhile isDigit
      let rest := s.dropWhile isDigit
      let (m, k) := absorb 0 ds
      let dropped := ds.length - k
      match rest with
      | c :: t =>
        if c = 0x2E then readFraction negative m dropped t
        else if isExponentMark c then readExponent negative m dropped t
        else if dropped = 0 then .ok (integerOf negative m, rest)
        else floatOf negative m dropped rest
      | [] =>
        if dropped = 0 then .ok (integerOf negative m, rest)
        else floatOf negative m dropped rest

/-! ## Strings -/

/-- The value of four hexadecimal digits. -/
def hex4? (a b c d : UInt8) : Option Nat :=
  match hexValue? (Char.ofNat a.toNat), hexValue? (Char.ofNat b.toNat),
      hexValue? (Char.ofNat c.toNat), hexValue? (Char.ofNat d.toNat) with
  | some w, some x, some y, some z => some (w * 4096 + x * 256 + y * 16 + z)
  | _, _, _, _ => none

/-- The byte that a one-letter escape stands for. -/
def shortEscape? (b : UInt8) : Option UInt8 :=
  if b = 0x22 ∨ b = 0x5C ∨ b = 0x2F then some b
  else if b = 0x62 then some 0x08
  else if b = 0x66 then some 0x0C
  else if b = 0x6E then some 0x0A
  else if b = 0x72 then some 0x0D
  else if b = 0x74 then some 0x09
  else none

/-- The first half of a surrogate pair. -/
def isHighSurrogate (n : Nat) : Bool :=
  0xD800 ≤ n && n ≤ 0xDBFF

/-- The second half of a surrogate pair. -/
def isLowSurrogate (n : Nat) : Bool :=
  0xDC00 ≤ n && n ≤ 0xDFFF

/-- The code point of a surrogate pair. -/
def pairValue (high low : Nat) : Nat :=
  (high - 0xD800) * 0x400 + (low - 0xDC00) + 0x10000

/-- The UTF-8 bytes of a code point. -/
def codePointBytes (n : Nat) : List UInt8 :=
  Text.Utf8.encode (.singleton (Char.ofNat n))

/-- Bytes put before what a reader gives. -/
def prependBytes (bs : List UInt8) :
    Except Fault (List UInt8 × List UInt8) → Except Fault (List UInt8 × List UInt8)
  | .ok (r, rest) => .ok (bs ++ r, rest)
  | .error f => .error f

/-- Reads the bytes of a string after its opening quote, through its closing quote. -/
def unescape : List UInt8 → Except Fault (List UInt8 × List UInt8)
  | [] => .error ⟨.eofString, 0⟩
  | [b] => if b = 0x22 then .ok ([], []) else
      if b < 0x20 then .error ⟨.controlCharacter, 0⟩ else .error ⟨.eofString, 0⟩
  | b :: c :: r =>
    if b = 0x22 then .ok ([], c :: r)
    else if b = 0x5C then
      if c = 0x75 then
        match r with
        | w :: x :: y :: z :: r =>
          match hex4? w x y z with
          | none => .error ⟨.invalidEscape, r.length⟩
          | some n =>
            if isLowSurrogate n then .error ⟨.loneSurrogate, r.length⟩
            else if isHighSurrogate n then
              match r with
              | [] => .error ⟨.eofString, 0⟩
              | d :: r =>
                if d ≠ 0x5C then .error ⟨.cutEscape, r.length⟩
                else
                  match r with
                  | [] => .error ⟨.eofString, 0⟩
                  | e :: r =>
                    if e ≠ 0x75 then .error ⟨.cutEscape, r.length⟩
                    else
                      match r with
                      | w :: x :: y :: z :: r =>
                        match hex4? w x y z with
                        | none => .error ⟨.invalidEscape, r.length⟩
                        | some m =>
                          if isLowSurrogate m then
                            prependBytes (codePointBytes (pairValue n m)) (unescape r)
                          else .error ⟨.loneSurrogate, r.length⟩
                      | _ => .error ⟨.eofString, 0⟩
            else prependBytes (codePointBytes n) (unescape r)
        | _ => .error ⟨.eofString, 0⟩
      else
        match shortEscape? c with
        | some e => prependBytes [e] (unescape r)
        | none => .error ⟨.invalidEscape, r.length⟩
    else if b < 0x20 then .error ⟨.controlCharacter, r.length + 1⟩
    else prependBytes [b] (unescape (c :: r))

/-- Reads a string after its opening quote.  Bytes that are not UTF-8 are a fault, found once the
string has ended; its place lies before the end by the number of bytes that the string stands for
from the first bad one on.  Without escapes that is right after the first bad byte. -/
def readString : Reader String := fun s =>
  match unescape s with
  | .error f => .error f
  | .ok (bytes, rest) =>
    match Text.Utf8.decode? bytes with
    | some t => .ok (t, rest)
    | none => .error ⟨.invalidUtf8, rest.length + (bytes.length - Text.Utf8.validLength bytes)⟩

/-! ## Arrays and objects -/

/-- Reads the items of an array from the first one on; `fuel` bounds their number. -/
def readItems {α : Type} (item : Reader α) : Nat → Reader (List α)
  | 0, _ => .error ⟨.eofArray, 0⟩
  | fuel + 1, s =>
    match item s with
    | .error f => .error f
    | .ok (v, s) =>
      match skipBlank s with
      | [] => .error ⟨.eofArray, 0⟩
      | b :: r =>
        if b = 0x5D then .ok ([v], r)
        else if b = 0x2C then
          match skipBlank r with
          | [] => .error ⟨.eofValue, 0⟩
          | c :: t =>
            if c = 0x5D then .error ⟨.trailingComma, t.length⟩
            else
              match readItems item fuel (c :: t) with
              | .ok (vs, s) => .ok (v :: vs, s)
              | .error f => .error f
        else .error ⟨.expectedCommaOrBracket, r.length⟩

/-- Reads an array after its opening bracket. -/
def readArray {α : Type} (item : Reader α) : Reader (List α) := fun s =>
  match skipBlank s with
  | [] => .error ⟨.eofArray, 0⟩
  | b :: r => if b = 0x5D then .ok ([], r) else readItems item (b :: r).length (b :: r)

/-- Takes the colon after a member's name. -/
def readColon (s : List UInt8) : Except Fault (List UInt8) :=
  match skipBlank s with
  | [] => .error ⟨.eofObject, 0⟩
  | b :: r => if b = 0x3A then .ok r else .error ⟨.expectedColon, r.length⟩

/-- Reads one member after the opening quote of its name. -/
def readMember {α : Type} (item : Reader α) : Reader (String × α) := fun s =>
  match readString s with
  | .error f => .error f
  | .ok (name, s) =>
    match readColon s with
    | .error f => .error f
    | .ok s =>
      match item s with
      | .error f => .error f
      | .ok (v, s) => .ok ((name, v), s)

/-- Reads the members of an object from the opening quote of the first name on. -/
def readMembers {α : Type} (item : Reader α) : Nat → Reader (List (String × α))
  | 0, _ => .error ⟨.eofObject, 0⟩
  | fuel + 1, s =>
    match readMember item s with
    | .error f => .error f
    | .ok (m, s) =>
      match skipBlank s with
      | [] => .error ⟨.eofObject, 0⟩
      | b :: r =>
        if b = 0x7D then .ok ([m], r)
        else if b = 0x2C then
          match skipBlank r with
          | [] => .error ⟨.eofValue, 0⟩
          | c :: t =>
            if c = 0x22 then
              match readMembers item fuel t with
              | .ok (ms, s) => .ok (m :: ms, s)
              | .error f => .error f
            else if c = 0x7D then .error ⟨.trailingComma, t.length⟩
            else .error ⟨.keyNotString, t.length⟩
        else .error ⟨.expectedCommaOrBrace, r.length⟩

/-- Reads an object after its opening brace. -/
def readObject {α : Type} (item : Reader α) : Reader (List (String × α)) := fun s =>
  match skipBlank s with
  | [] => .error ⟨.eofObject, 0⟩
  | b :: r =>
    if b = 0x7D then .ok ([], r)
    else if b = 0x22 then readMembers item r.length.succ r
    else .error ⟨.keyNotString, r.length⟩

/-! ## Values -/

/-- What a reader takes, under a function. -/
def mapRead {α β : Type} (f : α → β) :
    Except Fault (α × List UInt8) → Except Fault (β × List UInt8)
  | .ok (a, rest) => .ok (f a, rest)
  | .error e => .error e

/-- Reads a value whose items, if it has any, are read by `inner`; without one no array or object
may come. -/
def readWith (inner : Option (Reader Json)) : Reader Json := fun s =>
  match skipBlank s with
  | [] => .error ⟨.eofValue, 0⟩
  | b :: r =>
    if b = 0x6E then (readWord [0x75, 0x6C, 0x6C] r).map (.null, ·)
    else if b = 0x74 then (readWord [0x72, 0x75, 0x65] r).map (.bool true, ·)
    else if b = 0x66 then (readWord [0x61, 0x6C, 0x73, 0x65] r).map (.bool false, ·)
    else if b = 0x2D then mapRead .number (readNumber true r)
    else if isDigit b then mapRead .number (readNumber false (b :: r))
    else if b = 0x22 then mapRead .string (readString r)
    else if b = 0x5B then
      match inner with
      | some item => mapRead .array (readArray item r)
      | none => .error ⟨.tooDeep, r.length⟩
    else if b = 0x7B then
      match inner with
      | some item => mapRead (.object ∘ sortMembers) (readObject item r)
      | none => .error ⟨.tooDeep, r.length⟩
    else .error ⟨.expectedValue, r.length⟩

/-- Reads a value with at most the given number of nested arrays and objects. -/
def readValue : Nat → Reader Json
  | 0 => readWith none
  | depth + 1 => readWith (some (readValue depth))

/-- The arrays and objects that may nest. -/
def maxDepth : Nat := 127

/-! ## Texts -/

/-- A fault with its place: lines from one, columns in bytes from the last line feed. -/
structure SyntaxError where
  reason : Reason
  line : Nat
  column : Nat
  deriving DecidableEq, Repr

/-- The wording of a fault with its place. -/
def SyntaxError.message (e : SyntaxError) : String :=
  e.reason.message ++ s!" at line {e.line} column {e.column}"

/-- The place of a fault in a text. -/
def Fault.locate (text : List UInt8) (f : Fault) : SyntaxError :=
  let consumed := text.take (text.length - f.remaining)
  ⟨f.reason, 1 + consumed.count 0x0A, (consumed.reverse.takeWhile (· ≠ 0x0A)).length⟩

/-- Reads a text that holds one value and nothing else but white space. -/
def readText {α : Type} (read : Reader α) (text : List UInt8) : Except Fault α :=
  match read text with
  | .error f => .error f
  | .ok (v, rest) =>
    match skipBlank rest with
    | [] => .ok v
    | _ :: r => .error ⟨.trailingCharacters, r.length⟩

/-- The value of a text, with a limit on nesting. -/
def decodeWithin (depth : Nat) (text : List UInt8) : Except SyntaxError Json :=
  (readText (readValue depth) text).mapError (·.locate text)

/-- The value of a text. -/
def decode (text : List UInt8) : Except SyntaxError Json :=
  decodeWithin maxDepth text

end DeviceAuth.Json
