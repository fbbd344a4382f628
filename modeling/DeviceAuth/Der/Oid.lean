import DeviceAuth.Der

/-!
# DeviceAuth.Der.Oid

Object identifiers as their DER content.  An identifier has 3 to 39 bytes; the first byte holds
two arcs, and each further arc is a run of bytes that ends with the first byte below 0x80 and
fits into thirty-two bits.
-/

namespace DeviceAuth.Der

/-- An object identifier, by its content bytes. -/
structure Oid where
  content : List UInt8
  deriving DecidableEq, Repr

namespace Oid

/-- `id-ecPublicKey`. -/
def ecPublicKey : Oid := ⟨[0x2A, 0x86, 0x48, 0xCE, 0x3D, 0x02, 0x01]⟩

/-- `prime256v1`. -/
def prime256v1 : Oid := ⟨[0x2A, 0x86, 0x48, 0xCE, 0x3D, 0x03, 0x01, 0x07]⟩

/-- `rsaEncryption`. -/
def rsaEncryption : Oid := ⟨[0x2A, 0x86, 0x48, 0x86, 0xF7, 0x0D, 0x01, 0x01, 0x01]⟩

/-- The arcs that the bytes after the first one hold, given the value and the number of the bytes
already read of the current arc. -/
def arcs? : Nat → Nat → List UInt8 → Option (List Nat)
  | _, k, [] => if k = 0 then some [] else none
  | acc, k, b :: r =>
    let acc := acc * 128 + b.toNat % 128
    if 4 ≤ k ∧ 16 ≤ b.toNat then none
    else if b < 0x80 then (arcs? 0 0 r).map (acc :: ·)
    else arcs? acc (k + 1) r

/-- The arcs of an identifier. -/
def arcList? (o : Oid) : Option (List Nat) :=
  match o.content with
  | [] => none
  | b :: r =>
    if b.toNat < 120 then
      (arcs? 0 0 r).map fun as => b.toNat / 40 :: b.toNat % 40 :: as
    else none

/-- Reads the content of an `OBJECT IDENTIFIER`. -/
def ofContent? (content : List UInt8) : Option Oid :=
  if 3 ≤ content.length ∧ content.length ≤ 39 ∧ (arcList? ⟨content⟩).isSome then some ⟨content⟩
  else none

/-- The arcs with dots between them. -/
def dotted (o : Oid) : String :=
  ".".intercalate ((o.arcList?.getD []).map toString)

end Oid

/-- Takes an `OBJECT IDENTIFIER` from the front of a buffer. -/
def readOid (bs : List UInt8) : Option (Oid × List UInt8) :=
  match readTagged tagOid bs with
  | some (content, r) => (Oid.ofContent? content).map fun o => (o, r)
  | none => none

/-- The bytes of an `OBJECT IDENTIFIER`. -/
def writeOid (o : Oid) : List UInt8 :=
  writeElement ⟨tagOid, o.content⟩

end DeviceAuth.Der
