import DeviceAuth.Bytes
import DeviceAuth.Modular

/-!
# DeviceAuth.Rsa

RSA public keys and the block type of PKCS#1 v1.5 (RFC 8017): `00 02`, at least eight nonzero
padding bytes, `00`, and the message.
-/

namespace DeviceAuth.Rsa

/-! ## Public keys -/

/-- A modulus and an exponent. -/
structure PublicKey where
  modulus : Nat
  exponent : Nat
  deriving DecidableEq, Repr

/-- Why two numbers are not a public key. -/
inductive Fault where
  | modulusTooLarge
  | invalidModulus
  | invalidExponent
  | exponentTooSmall
  | exponentTooLarge
  deriving DecidableEq, Repr

/-- The wording of a fault. -/
def Fault.message : Fault → String
  | .modulusTooLarge => "modulus too large"
  | .invalidModulus => "invalid modulus"
  | .invalidExponent => "invalid exponent"
  | .exponentTooSmall => "public exponent too small"
  | .exponentTooLarge => "public exponent too large"

/-- The greatest size of a modulus, in bits. -/
def maxModulusBits : Nat := 16384

/-- The greatest exponent, `2 ^ 33 - 1`. -/
def maxExponent : Nat := 8589934591

/-- The least number beyond 64 bits, `2 ^ 64`. -/
def wordLimit : Nat := 18446744073709551616

/-- A key from its numbers: the modulus is odd, at most 16384 bits long and above the exponent;
the exponent is odd, at least 3 and below 2^33. -/
def PublicKey.ofNumbers (n e : Nat) : Except Fault PublicKey :=
  if Nat.pow 2 maxModulusBits ≤ n then .error .modulusTooLarge
  else if wordLimit ≤ e then .error .exponentTooLarge
  else if n ≤ e ∨ n % 2 = 0 then .error .invalidModulus
  else if e % 2 = 0 then .error .invalidExponent
  else if e < 2 then .error .exponentTooSmall
  else if maxExponent < e then .error .exponentTooLarge
  else .ok ⟨n, e⟩

/-- The bytes that hold a number below the modulus. -/
def PublicKey.size (key : PublicKey) : Nat :=
  byteWidth key.modulus

/-! ## Blocks -/

/-- The bytes of a block that are not message: two at the front, eight of padding, one between. -/
def overhead : Nat := 11

/-- The bytes of padding in a block of `k` bytes around a message. -/
def paddingLength (k : Nat) (msg : List UInt8) : Nat :=
  k - 3 - msg.length

/-- The block around a message; the message has to leave room for eight bytes of padding. -/
def block? (k : Nat) (padding msg : List UInt8) : Option (List UInt8) :=
  if msg.length + overhead ≤ k then
    some (0 :: 2 :: (padding.take (paddingLength k msg) ++ 0 :: msg))
  else none

/-- A block taken apart: its padding and its message. -/
def unblock? : List UInt8 → Option (List UInt8 × List UInt8)
  | 0 :: 2 :: r =>
    let padding := r.takeWhile (· ≠ 0)
    match r.dropWhile (· ≠ 0) with
    | 0 :: msg => some (padding, msg)
    | _ => none
  | _ => none

/-! ## The power maps -/

/-- The public map on a block: the block as a number, raised to the exponent. -/
def PublicKey.apply (key : PublicKey) (bs : List UInt8) : List UInt8 :=
  beBytes key.size (Modular.pow key.modulus (beNat bs) key.exponent)

/-- The private map with exponent `d`, which undoes the public one. -/
def PublicKey.unapply (key : PublicKey) (d : Nat) (bs : List UInt8) : List UInt8 :=
  beBytes key.size (Modular.pow key.modulus (beNat bs) d)

/-- The ciphertext of a message under a key, with the given padding bytes. -/
def encrypt? (key : PublicKey) (padding msg : List UInt8) : Option (List UInt8) :=
  (block? key.size padding msg).map key.apply

end DeviceAuth.Rsa
