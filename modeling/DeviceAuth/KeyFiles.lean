import DeviceAuth.Certificate
import DeviceAuth.Files

/-!
# DeviceAuth.KeyFiles

Keys and certificate documents in files.
-/

namespace DeviceAuth.KeyFiles

/-- Why a file gives no key. -/
inductive Fault where
  /-- The file cannot be read. -/
  | unreadable (path : String) (cause : Files.Fault)
  /-- There is no file with the public key. -/
  | noPublicKeyFile (path : String)
  /-- The text is no public key. -/
  | key (cause : Key.Failure)
  /-- The document gives no identity. -/
  | certificate (cause : Certificate.Fault)
  deriving DecidableEq, Repr

/-- The wording of a fault. -/
def Fault.message (words : Key.ParserWords) : Fault → String
  | .unreadable path f => "Failed to read " ++ path ++ ": " ++ f.message
  | .noPublicKeyFile path => "Public key file not found: " ++ path
  | .key f => f.message words
  | .certificate f => f.message words

/-- The text of a PEM file. -/
def readPem (files : Files.Tree) (path : String) : Except Fault String :=
  (files.readText path).mapError (.unreadable path)

/-- The Base64 text of the public key in a file. -/
def readPublicKeyBase64 (files : Files.Tree) (path : String) : Except Fault String :=
  if files.has path then
    match readPem files path with
    | .ok pem => (Key.publicKeyBase64 pem).mapError .key
    | .error f => .error f
  else .error (.noPublicKeyFile path)

/-- A certificate file was read and is about to be resolved. -/
def resolving (path : String) : Log.Record :=
  ⟨.debug, "Resolving certificate " ++ path⟩

/-- The identity in a certificate file. -/
def readIdentity (files : Files.Tree) (path : String) :
    Logged (Except Fault Certificate.Identity) :=
  match files.read path with
  | .error f => .quiet (.error (.unreadable path f))
  | .ok bytes =>
    (Logged.noting (resolving path) ()).andThen fun _ =>
      (Certificate.resolve bytes).map fun r => r.mapError .certificate

end DeviceAuth.KeyFiles
