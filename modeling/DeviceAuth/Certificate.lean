import DeviceAuth.Json.Reader
import DeviceAuth.Key
import DeviceAuth.Log
import DeviceAuth.Text.Blank
import DeviceAuth.Text.Quoted

/-!
# DeviceAuth.Certificate

Certificate documents and the identities in them.  A document is a JSON object in which each field
may go by several names; the first name whose value is a text that is not blank decides, and its
text is taken as it stands.  Other members carry no meaning.
-/

namespace DeviceAuth.Certificate

/-! ## Documents -/

/-- The members of a certificate document. -/
structure Document where
  members : List (String × Json)
  deriving Repr

/-- The names of the client identifier, in order of precedence. -/
def clientIdNames : List String := ["clientIdentifier", "clientId", "client_id"]

/-- The names of the public key, in order of precedence. -/
def publicKeyNames : List String := ["publicKey", "public_key"]

/-- The names of the private key, in order of precedence. -/
def privateKeyNames : List String := ["privateKey", "private_key"]

/-- The text of a member, if it is a text and not blank. -/
def Document.usable? (d : Document) (name : String) : Option String :=
  match d.members.lookup name with
  | some (.string s) => if Text.blank s then none else some s
  | _ => none

/-- The usable text under the first of some names that has one. -/
def Document.first? (d : Document) (names : List String) : Option String :=
  names.findSome? d.usable?

/-- The client identifier. -/
def Document.clientId? (d : Document) : Option String :=
  d.first? clientIdNames

/-- The PEM text of the public key. -/
def Document.publicKey? (d : Document) : Option String :=
  d.first? publicKeyNames

/-- The PEM text of the private key. -/
def Document.privateKey? (d : Document) : Option String :=
  d.first? privateKeyNames

/-! ## Faults -/

/-- Why a document gives no identity, or an identity no public key. -/
inductive Fault where
  /-- The bytes are not JSON. -/
  | notJson (cause : Json.SyntaxError)
  /-- The JSON value is no object; `found` says what it is. -/
  | notObject (found : String)
  /-- No client identifier is usable. -/
  | noClientId
  /-- No private key is usable. -/
  | noPrivateKey
  /-- A key does not load. -/
  | key (cause : Key.Failure)
  /-- The identity has no public key to give out. -/
  | noPublicKey
  deriving DecidableEq, Repr

/-- The wording of a fault. -/
def Fault.message (words : Key.ParserWords) : Fault → String
  | .notJson e => "Failed to parse certificate JSON: " ++ e.message
  | .notObject found => "Failed to parse certificate JSON: expected an object, found " ++ found
  | .noClientId => "Certificate JSON missing client identifier field"
  | .noPrivateKey => "Certificate JSON missing private key field"
  | .key f => f.message words
  | .noPublicKey => "Certificate JSON did not include a public key field; cannot export public key"

/-- Reads a document from its bytes. -/
def Document.decode (bytes : List UInt8) : Except Fault Document :=
  match Json.decode bytes with
  | .error e => .error (.notJson e)
  | .ok (.object members) => .ok ⟨members⟩
  | .ok v => .error (.notObject v.kindName)

/-! ## Identities -/

/-- A client with its keys, each of which loads. -/
structure Identity where
  clientId : String
  publicKeyPem : Option String
  privateKeyPem : String
  deriving DecidableEq, Repr

/-- Checks a key that is there. -/
def checkPublicKey : Option String → Except Fault Unit
  | none => .ok ()
  | some pem =>
    match Key.loadEcPublic pem with
    | .ok _ => .ok ()
    | .error f => .error (.key f)

/-- The identity in a document.  Faults come in the order client identifier, public key, private
key. -/
def Document.identity (d : Document) : Except Fault Identity := do
  let some clientId := d.clientId? | throw .noClientId
  checkPublicKey d.publicKey?
  let some privateKey := d.privateKey? | throw .noPrivateKey
  match Key.loadEcPrivate privateKey with
  | .ok _ => return ⟨clientId, d.publicKey?, privateKey⟩
  | .error f => throw (.key f)

/-- The identity in the bytes of a document; success is logged. -/
def resolve (bytes : List UInt8) : Logged (Except Fault Identity) :=
  match Document.decode bytes >>= Document.identity with
  | .ok i => .noting (Log.identityResolved i.clientId i.publicKeyPem.isSome) (.ok i)
  | .error f => .quiet (.error f)

/-- The signing key of an identity. -/
def Identity.signingKey (i : Identity) : Except Key.Failure Key.EcPrivate :=
  Key.loadEcPrivate i.privateKeyPem

/-- The Base64 text of the public key of an identity. -/
def Identity.publicKeyBase64 (i : Identity) : Except Fault String :=
  match i.publicKeyPem with
  | none => .error .noPublicKey
  | some pem => (Key.publicKeyBase64 pem).mapError .key

/-- The diagnostic text of an identity, which shows no key. -/
def Identity.debugText (i : Identity) : String :=
  "ResolvedIdentity \x7b client_id: " ++ Text.Quoted.encode i.clientId ++ ", has_public_key: " ++
    Log.word i.publicKeyPem.isSome ++ ", .. \x7d"

end DeviceAuth.Certificate
