import DeviceAuth.P256.Curve
import DeviceAuth.Sha256

/-!
# DeviceAuth.P256.Ecdsa

ECDSA over P-256 with SHA-256 (FIPS 186-5), signing with deterministic nonces that are generated
as in RFC 6979, except that the digest goes in as it is and not modulo the group order. The two
differ only for the rare digest that is not below the order, and both give a signature that holds.
A signature is the pair `(r, s)`; `s` is left as it comes out, in either half of the range.
-/

namespace DeviceAuth.P256

/-! ## Nonces -/

/-- The state of the nonce generator: a key and a value of thirty-two bytes each. -/
structure NonceState where
  key : List UInt8
  value : List UInt8

/-- The next value under the same key. -/
def NonceState.advance (s : NonceState) : NonceState :=
  ⟨s.key, Sha256.hmac s.key s.value⟩

/-- A new key from the value, a separator and more input, then a new value. -/
def NonceState.reseed (s : NonceState) (separator : UInt8) (input : List UInt8) : NonceState :=
  let key := Sha256.hmac s.key (s.value ++ separator :: input)
  NonceState.advance ⟨key, s.value⟩

/-- The generator seeded with a private scalar and a message representative, thirty-two bytes
each; the representative is not reduced. -/
def NonceState.seed (scalar z : Nat) : NonceState :=
  let input := beBytes 32 scalar ++ beBytes 32 z
  let start : NonceState := ⟨List.replicate 32 0, List.replicate 32 1⟩
  (start.reseed 0 input).reseed 1 input

/-- The first value in the range of scalars among the next `tries`; zero if there is none, which
for thirty-two tries has probability below `2 ^ -1000`. -/
def NonceState.pick : Nat → NonceState → Nat
  | 0, _ => 0
  | tries + 1, s =>
    let t := s.advance
    let k := beNat t.value
    if 0 < k ∧ k < order then k else pick tries (t.reseed 0 [])

/-- The nonce for a private scalar and a message representative. -/
def nonce (scalar z : Nat) : Nat :=
  NonceState.pick 32 (.seed scalar z)

/-! ## Signatures -/

/-- A signature: two numbers, each a scalar when the signature is well formed. -/
structure Signature where
  r : Nat
  s : Nat
  deriving DecidableEq, Repr

/-- A scalar that a signature may hold. -/
def isScalar (n : Nat) : Bool :=
  0 < n && n < order

/-- The number that stands for a message. -/
def representative (msg : List UInt8) : Nat :=
  beNat (Sha256.hash msg)

/-- The first coordinate of a point, as a scalar; infinity has none and gives zero. -/
def Point.scalar : Point → Nat
  | .infinity => 0
  | .affine x _ => x % order

/-- The signature of a message under a private scalar. -/
def sign (scalar : Nat) (msg : List UInt8) : Signature :=
  let z := representative msg
  let k := nonce scalar z
  let r := (baseMultiple k).scalar
  let s := Modular.inverse order k * ((z + r * scalar) % order) % order
  ⟨r, s⟩

/-- Whether a signature of a message holds under a public point. -/
def verify (q : Point) (msg : List UInt8) (sig : Signature) : Bool :=
  isScalar sig.r && isScalar sig.s &&
    (let w := Modular.inverse order sig.s
     let u := representative msg * w % order
     let v := sig.r * w % order
     (combine u v q).scalar == sig.r)

/-- The two numbers as thirty-two bytes each. -/
def Signature.encode (sig : Signature) : List UInt8 :=
  beBytes 32 sig.r ++ beBytes 32 sig.s

/-- Sixty-four bytes as a signature; both numbers have to be scalars. -/
def Signature.decode? (bs : List UInt8) : Option Signature :=
  if bs.length = 64 then
    let sig : Signature := ⟨beNat (bs.take 32), beNat (bs.drop 32)⟩
    if isScalar sig.r && isScalar sig.s then some sig else none
  else none

end DeviceAuth.P256
