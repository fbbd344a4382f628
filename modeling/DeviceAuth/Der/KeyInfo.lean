import DeviceAuth.Der.Oid

/-!
# DeviceAuth.Der.KeyInfo

The containers around keys: `SubjectPublicKeyInfo` (RFC 5280), `PrivateKeyInfo` (RFC 5208 and
5958), `ECPrivateKey` (RFC 5915) and `RSAPublicKey` (RFC 8017).  Every reader takes a whole buffer
and refuses bytes that are left over at any level.
-/

namespace DeviceAuth.Der

/-! ## Algorithm identifiers -/

/-- An algorithm with an optional parameter of any type. -/
structure Algorithm where
  oid : Oid
  parameters : Option Element
  deriving DecidableEq, Repr

/-- Reads the content of an algorithm identifier. -/
def Algorithm.ofContent? (content : List UInt8) : Option Algorithm :=
  match readOid content with
  | some (oid, []) => some ⟨oid, none⟩
  | some (oid, r) =>
    match readElement r with
    | some (e, []) => some ⟨oid, some e⟩
    | _ => none
  | none => none

/-- Takes an algorithm identifier from the front of a buffer. -/
def readAlgorithm (bs : List UInt8) : Option (Algorithm × List UInt8) :=
  match readTagged tagSequence bs with
  | some (content, r) => (Algorithm.ofContent? content).map fun a => (a, r)
  | none => none

/-- The bytes of an algorithm identifier. -/
def writeAlgorithm (a : Algorithm) : List UInt8 :=
  writeSequence (writeOid a.oid ++ (a.parameters.map writeElement).getD [])

/-- The identifier that an algorithm has as its parameter. -/
def Algorithm.parameterOid? (a : Algorithm) : Option Oid :=
  a.parameters.bind fun e => if e.tag = tagOid then Oid.ofContent? e.content else none

/-! ## Public keys -/

/-- A public key with its algorithm. -/
structure PublicKeyInfo where
  algorithm : Algorithm
  key : BitString
  deriving DecidableEq, Repr

/-- Reads a `SubjectPublicKeyInfo`. -/
def PublicKeyInfo.decode? (bs : List UInt8) : Option PublicKeyInfo :=
  match readWhole tagSequence bs with
  | some content =>
    match readAlgorithm content with
    | some (algorithm, r) =>
      match readWhole tagBitString r with
      | some bits => (BitString.ofContent? bits).map fun key => ⟨algorithm, key⟩
      | none => none
    | none => none
  | none => none

/-- The bytes of a `SubjectPublicKeyInfo` whose key has no unused bits. -/
def PublicKeyInfo.encode (algorithm : Algorithm) (key : List UInt8) : List UInt8 :=
  writeSequence (writeAlgorithm algorithm ++ writeBitString key)

/-- Reads an `RSAPublicKey`: the modulus and the exponent. -/
def readRsaNumbers? (bs : List UInt8) : Option (Nat × Nat) :=
  match readWhole tagSequence bs with
  | some content =>
    match readNatural content with
    | some (n, r) =>
      match readNatural r with
      | some (e, []) => some (n, e)
      | _ => none
    | none => none
  | none => none

/-- The bytes of an `RSAPublicKey`. -/
def writeRsaNumbers (n e : Nat) : List UInt8 :=
  writeSequence (writeNatural n ++ writeNatural e)

/-! ## Optional fields

The fields after the fixed ones have context-specific tags.  A field is looked for by its number:
fields with smaller numbers are passed over, and the search ends at the first element that is no
context field or has a greater number. -/

/-- Passes over the context fields with numbers below `n`; `fuel` bounds their count. -/
def skipFieldsBelow (n : Nat) : Nat → List UInt8 → Option (List UInt8)
  | 0, bs => some bs
  | fuel + 1, bs =>
    match bs with
    | [] => some []
    | tag :: _ =>
      if !isTag tag then none
      else if isContext tag && contextNumber tag < n then
        (readElement bs).bind fun (_, r) => skipFieldsBelow n fuel r
      else some bs

/-- The field with number `n`, if it comes next, and what follows it. -/
def takeField (n : Nat) (bs : List UInt8) : Option (Option Element × List UInt8) :=
  (skipFieldsBelow n bs.length bs).bind fun bs =>
    match bs with
    | [] => some (none, [])
    | tag :: _ =>
      if isContext tag && contextNumber tag == n then
        (readElement bs).map fun (e, r) => (some e, r)
      else some (none, bs)

/-- Whether the rest of a buffer is constructed context fields that hold one element each. -/
def onlyExplicitFields : Nat → List UInt8 → Bool
  | _, [] => true
  | 0, _ => false
  | fuel + 1, bs =>
    match readElement bs with
    | some (e, r) =>
      isContext e.tag && e.tag &&& 0x20 != 0 &&
        (match readElement e.content with
        | some (_, []) => true
        | _ => false) && onlyExplicitFields fuel r
    | none => false

/-! ## Private keys -/

/-- A private key with its algorithm. -/
structure PrivateKeyInfo where
  algorithm : Algorithm
  key : List UInt8
  deriving DecidableEq, Repr

/-- Whether field 1, where present, is an implicit bit string without unused bits. -/
def isAlignedBitField (field : Option Element) : Bool :=
  match field with
  | none => true
  | some e => e.tag == 0x81 && ((BitString.ofContent? e.content).bind BitString.aligned?).isSome

/-- Reads a `PrivateKeyInfo`.  Its version is 0 or 1, and the public key of field 1 is there
exactly in version 1. -/
def PrivateKeyInfo.decode? (bs : List UInt8) : Option PrivateKeyInfo := do
  let content ← readWhole tagSequence bs
  let (version, r) ← readNatural content
  let (algorithm, r) ← if version ≤ 1 then readAlgorithm r else none
  let (key, r) ← readTagged tagOctetString r
  let (field, r) ← takeField 1 r
  if isAlignedBitField field && (version == 1) == field.isSome && onlyExplicitFields r.length r then
    some ⟨algorithm, key⟩
  else none

/-- An elliptic-curve private key: the scalar's bytes, and the public point's if given. -/
structure EcPrivateKey where
  scalar : List UInt8
  publicPoint : Option (List UInt8)
  deriving DecidableEq, Repr

/-- The content of a constructed context field. -/
def explicitContent? (n : Nat) (e : Element) : Option (List UInt8) :=
  if e.tag = explicitTag n then some e.content else none

/-- Reads an `ECPrivateKey`.  The curve of field 0 has to be an identifier and is not compared. -/
def EcPrivateKey.decode? (bs : List UInt8) : Option EcPrivateKey := do
  let content ← readWhole tagSequence bs
  let (version, r) ← readNatural content
  let (scalar, r) ← if version = 1 then readTagged tagOctetString r else none
  let (curve, r) ← takeField 0 r
  match curve with
  | some e =>
    let _ ← (explicitContent? 0 e).bind (readWhole tagOid) |>.bind Oid.ofContent?
  | none => pure ()
  let (point, r) ← takeField 1 r
  if r ≠ [] then none
  match point with
  | some e =>
    let bits ← (explicitContent? 1 e).bind (readWhole tagBitString) |>.bind BitString.ofContent?
    let bytes ← bits.aligned?
    some ⟨scalar, some bytes⟩
  | none => some ⟨scalar, none⟩

end DeviceAuth.Der
