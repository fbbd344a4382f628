import DeviceAuth.Der.KeyInfo
import DeviceAuth.P256.Curve
import DeviceAuth.Pem
import DeviceAuth.Rsa

/-!
# DeviceAuth.Key

Keys and how they are loaded.  Every loader takes the body of a PEM text and reads one DER
structure from it: PKCS#8 for private keys, `SubjectPublicKeyInfo` for public ones.  The label of
the PEM text carries no meaning; what a key is follows from its bytes.
-/

namespace DeviceAuth.Key

/-! ## Kinds and keys -/

/-- The kinds of key. -/
inductive Kind where
  | ecPrivate
  | ecPublic
  | rsaPublic
  deriving DecidableEq, Repr

/-- The name of a kind in messages. -/
def Kind.describe : Kind → String
  | .ecPrivate => "EC P-256 private key"
  | .ecPublic => "EC P-256 public key"
  | .rsaPublic => "RSA public key"

/-- The short name of a kind. -/
def Kind.name : Kind → String
  | .ecPrivate => "EcPrivateP256"
  | .ecPublic => "EcPublicP256"
  | .rsaPublic => "RsaPublic"

/-- The two parts that a key plays. -/
inductive Role where
  | privateKey
  | publicKey
  deriving DecidableEq, Repr

/-- The name of a part in messages. -/
def Role.describe : Role → String
  | .privateKey => "private key"
  | .publicKey => "public key"

/-- A private key on P-256: a scalar between 1 and the group order. -/
structure EcPrivate where
  scalar : Nat
  deriving DecidableEq, Repr

/-- The public point of a private key. -/
def EcPrivate.point (key : EcPrivate) : P256.Point :=
  P256.baseMultiple key.scalar

/-- A loaded key of one of the kinds. -/
inductive Material where
  | ecPrivate (key : EcPrivate)
  | ecPublic (point : P256.Point)
  | rsaPublic (key : Rsa.PublicKey)
  deriving DecidableEq, Repr

/-- The kind of a loaded key. -/
def Material.kind : Material → Kind
  | .ecPrivate _ => .ecPrivate
  | .ecPublic _ => .ecPublic
  | .rsaPublic _ => .rsaPublic

/-- The signing key, where that is what was loaded. -/
def Material.signingKey? : Material → Option EcPrivate
  | .ecPrivate key => some key
  | _ => none

/-- The verifying point, where that is what was loaded. -/
def Material.verifyingKey? : Material → Option P256.Point
  | .ecPublic point => some point
  | _ => none

/-- The encryption key, where that is what was loaded. -/
def Material.rsaKey? : Material → Option Rsa.PublicKey
  | .rsaPublic key => some key
  | _ => none

/-- The diagnostic text of a key, which shows its kind and nothing else of it. -/
def Material.debugText (m : Material) : String :=
  "KeyMaterial \x7b kind: " ++ m.kind.name ++ ", .. \x7d"

/-! ## Failures -/

/-- What the parsers of DER say of bytes that are no key of a kind.  The parsers are not part of
this library and their words are not modelled; as these follow from the kind and the bytes, any
function of the two stands for them. -/
abbrev ParserWords := Kind → List UInt8 → String

/-- Why a key does not load. -/
inductive Reason where
  /-- The body is not Base64. -/
  | base64 (fault : Base64.Fault)
  /-- The bytes are not the DER structure of a key of the kind. -/
  | malformed (kind : Kind) (der : List UInt8)
  /-- The algorithm of a public key is not the one expected. -/
  | algorithm (expected : Der.Oid)
  /-- The algorithm of a private key is not the one expected. -/
  | embeddedAlgorithm (expected : Der.Oid)
  /-- RSA parameters are there but are not `NULL`. -/
  | parameters
  /-- The bits of an RSA key do not fill its bytes. -/
  | unaligned
  /-- The numbers of an RSA key are refused. -/
  | rsa (fault : Rsa.Fault)
  deriving DecidableEq, Repr

/-- The wording of a reason; of malformed bytes it is what their parser says. -/
def Reason.message (words : ParserWords) : Reason → String
  | .base64 f => "invalid Base64 body: " ++ f.message
  | .malformed kind der => words kind der
  | .algorithm o => "unknown/unsupported algorithm OID: " ++ o.dotted
  | .embeddedAlgorithm o => "public key error: unknown/unsupported algorithm OID: " ++ o.dotted
  | .parameters => "RSA algorithm parameters must be NULL"
  | .unaligned => "public key bit string is not byte aligned"
  | .rsa f => f.message

/-- A key that did not load: the part it was to play, and why. -/
structure Failure where
  role : Role
  reason : Reason
  deriving DecidableEq, Repr

/-- The wording of a failure. -/
def Failure.message (words : ParserWords) (f : Failure) : String :=
  "Failed to load " ++ f.role.describe ++ ": " ++ f.reason.message words

/-! ## Reading DER -/

/-- The value that is read from the bytes of a key; without one the bytes are malformed. -/
def wellFormed {α : Type} (kind : Kind) (der : List UInt8) : Option α → Except Reason α
  | some a => .ok a
  | none => .error (.malformed kind der)

/-- Checks that the algorithm in the bytes of a key is elliptic-curve with the curve P-256. -/
def checkEc (kind : Kind) (der : List UInt8) (mismatch : Der.Oid → Reason) (a : Der.Algorithm) :
    Except Reason Unit := do
  if a.oid ≠ .ecPublicKey then throw (mismatch .ecPublicKey)
  let curve ← wellFormed kind der a.parameterOid?
  if curve ≠ .prime256v1 then throw (mismatch .prime256v1)

/-- A scalar from 24 to 32 bytes; shorter ones are as if padded with zeros. -/
def scalarOf? (bs : List UInt8) : Option Nat :=
  if 24 ≤ bs.length ∧ bs.length ≤ 32 ∧ 0 < beNat bs ∧ beNat bs < P256.order then some (beNat bs)
  else none

/-- Whether bytes encode the public point of a key, compressed or not. -/
def EcPrivate.hasPoint (key : EcPrivate) (bs : List UInt8) : Bool :=
  bs == P256.encodePoint key.point || bs == P256.encodeCompressed key.point

/-- Reads a private key from the bytes of a PKCS#8 structure. -/
def readEcPrivate (der : List UInt8) : Except Reason EcPrivate := do
  let info ← wellFormed .ecPrivate der (Der.PrivateKeyInfo.decode? der)
  checkEc .ecPrivate der .embeddedAlgorithm info.algorithm
  let inner ← wellFormed .ecPrivate der (Der.EcPrivateKey.decode? info.key)
  let scalar ← wellFormed .ecPrivate der (scalarOf? inner.scalar)
  match inner.publicPoint with
  | none => return ⟨scalar⟩
  | some bs =>
    if EcPrivate.hasPoint ⟨scalar⟩ bs then return ⟨scalar⟩ else throw (.malformed .ecPrivate der)

/-- Reads a public point from the bytes of a `SubjectPublicKeyInfo`. -/
def readEcPublic (der : List UInt8) : Except Reason P256.Point := do
  let info ← wellFormed .ecPublic der (Der.PublicKeyInfo.decode? der)
  checkEc .ecPublic der .algorithm info.algorithm
  wellFormed .ecPublic der (info.key.aligned?.bind P256.decodePoint?)

/-- Reads an RSA key from the bytes of a `SubjectPublicKeyInfo`. -/
def readRsaPublic (der : List UInt8) : Except Reason Rsa.PublicKey := do
  let info ← wellFormed .rsaPublic der (Der.PublicKeyInfo.decode? der)
  if info.algorithm.oid ≠ .rsaEncryption then throw (.algorithm .rsaEncryption)
  let parameters ← wellFormed .rsaPublic der info.algorithm.parameters
  if parameters ≠ ⟨Der.tagNull, []⟩ then throw .parameters
  match info.key.aligned? with
  | none => throw .unaligned
  | some bits =>
    let (n, e) ← wellFormed .rsaPublic der (Der.readRsaNumbers? bits)
    (Rsa.PublicKey.ofNumbers n e).mapError .rsa

/-! ## Loading PEM -/

/-- Takes the body of a PEM text and reads a key from it. -/
def loadWith {α : Type} (role : Role) (read : List UInt8 → Except Reason α) (pem : String) :
    Except Failure α :=
  match Pem.decode pem with
  | .error f => .error ⟨role, .base64 f⟩
  | .ok der => (read der).mapError (⟨role, ·⟩)

/-- Loads a private key. -/
def loadEcPrivate (pem : String) : Except Failure EcPrivate :=
  loadWith .privateKey readEcPrivate pem

/-- Loads a verifying key. -/
def loadEcPublic (pem : String) : Except Failure P256.Point :=
  loadWith .publicKey readEcPublic pem

/-- Loads an RSA key. -/
def loadRsaPublic (pem : String) : Except Failure Rsa.PublicKey :=
  loadWith .publicKey readRsaPublic pem

/-- Loads a key of a given kind. -/
def load (kind : Kind) (pem : String) : Except Failure Material :=
  match kind with
  | .ecPrivate => (loadEcPrivate pem).map .ecPrivate
  | .ecPublic => (loadEcPublic pem).map .ecPublic
  | .rsaPublic => (loadRsaPublic pem).map .rsaPublic

/-! ## Writing -/

/-- The algorithm identifier of keys on P-256. -/
def ecAlgorithm : Der.Algorithm :=
  ⟨.ecPublicKey, some ⟨Der.tagOid, Der.Oid.prime256v1.content⟩⟩

/-- The `SubjectPublicKeyInfo` of a point, uncompressed. -/
def writeEcPublic (point : P256.Point) : List UInt8 :=
  Der.PublicKeyInfo.encode ecAlgorithm (P256.encodePoint point)

/-- The Base64 text of a public key, in the one form that `writeEcPublic` gives. -/
def publicKeyBase64 (pem : String) : Except Failure String :=
  (loadEcPublic pem).map fun point => Base64.encode .standard (writeEcPublic point)

end DeviceAuth.Key
