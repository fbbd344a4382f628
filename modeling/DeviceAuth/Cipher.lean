import DeviceAuth.Key
import DeviceAuth.Log
import DeviceAuth.Text.Blank

/-!
# DeviceAuth.Cipher

Encrypting small secrets for an RSA key: one PKCS#1 v1.5 block, in Base64.  The message has to fit
into the block beside eleven other bytes; a modulus shorter than that encrypts nothing, not even
the empty message.
-/

namespace DeviceAuth.Cipher

/-- The greatest message for a modulus of `k` bytes; a modulus without room has the limit zero. -/
def maxMessage (k : Nat) : Nat :=
  k - Rsa.overhead

/-- Why a message is not encrypted. -/
inductive Fault where
  /-- The text of the key is blank. -/
  | blankKey
  /-- The key does not load. -/
  | key (cause : Key.Failure)
  /-- The message is longer than the limit of the key. -/
  | tooLarge (actual limit : Nat)
  /-- The block has no room for the message. -/
  | tooLong
  deriving DecidableEq, Repr

/-- The wording of a fault. -/
def Fault.message (words : Key.ParserWords) : Fault → String
  | .blankKey => "RSA public key PEM must not be blank"
  | .key f => f.message words
  | .tooLarge actual limit => s!"Plaintext length {actual} exceeds RSA limit of {limit} bytes"
  | .tooLong => "Encryption error: message too long"

/-- The name of encryption in the log. -/
def operation : String := "rsa_encrypt"

/-- Encrypts a message for a key, with the given bytes of padding. -/
def encryptWithKey (padding message : List UInt8) (key : Rsa.PublicKey) :
    Logged (Except Fault String) :=
  let limit := maxMessage key.size
  if limit < message.length then
    .noting (Log.rejected operation "plaintext exceeds one block")
      (.error (.tooLarge message.length limit))
  else
    (Logged.noting (Log.encryption message.length limit) ()).andThen fun _ =>
      match Rsa.encrypt? key padding message with
      | some ciphertext => .quiet (.ok (Base64.encode .standard ciphertext))
      | none => .noting (Log.cryptoFault operation .rsa) (.error .tooLong)

/-- Encrypts a message for the key in a PEM text, with the given bytes of padding. -/
def encrypt (padding message : List UInt8) (pem : String) : Logged (Except Fault String) :=
  if Text.blank pem then
    .noting (Log.rejected operation "blank public key") (.error .blankKey)
  else
    match Key.loadRsaPublic pem with
    | .error f => .quiet (.error (.key f))
    | .ok key => encryptWithKey padding message key

/-- Encrypts a text for the key in a PEM text. -/
def encryptText (padding : List UInt8) (text pem : String) : Logged (Except Fault String) :=
  encrypt padding (Text.Utf8.encode text) pem

/-- A recipient, known by the PEM text of a public key. -/
structure Recipient where
  publicKeyPem : String
  deriving DecidableEq, Repr

/-- Encrypts a message for a recipient. -/
def Recipient.encrypt (padding message : List UInt8) (recipient : Recipient) :
    Logged (Except Fault String) :=
  Cipher.encrypt padding message recipient.publicKeyPem

end DeviceAuth.Cipher
