import DeviceAuth.Json.Record
import DeviceAuth.Token.Digest
import DeviceAuth.Token.Jws
import DeviceAuth.Token.Lifetime
import DeviceAuth.Token.Request

/-!
# DeviceAuth.Token.Claims

The header and the claims of a token: what they hold, how they are written, and what each kind of
request puts into them.  On the wire both are JSON objects of known members in a fixed order, and
a member without a value is left out.
-/

namespace DeviceAuth.Token

open Json (Field FieldValue RecordFault)

/-! ## Headers -/

/-- A header: the algorithm, the type, and for enrollments the key and its certificate chain. -/
structure Header where
  algorithm : String
  type : String
  keyId : Option String
  chain : Option (List String)
  deriving DecidableEq, Repr

/-- The type of every token. -/
def typeName : String := "JWT"

/-- The header with the algorithm and the type alone. -/
def Header.plain : Header := ⟨algorithmName, typeName, none, none⟩

/-- The members of a header. -/
def Header.fields : List Field :=
  [⟨"alg", .text, false⟩, ⟨"typ", .text, false⟩, ⟨"kid", .text, true⟩, ⟨"x5c", .texts, true⟩]

/-- A text, or nothing. -/
def textValue : Option String → FieldValue
  | some s => .text s
  | none => .absent

/-- A list of texts, or nothing. -/
def textsValue : Option (List String) → FieldValue
  | some ss => .texts ss
  | none => .absent

/-- An integer, or nothing. -/
def integerValue : Option Int → FieldValue
  | some n => .integer n
  | none => .absent

/-- The text of a value, if it is one. -/
def textOf? : FieldValue → Option String
  | .text s => some s
  | _ => none

/-- The texts of a value, if it is a list of them. -/
def textsOf? : FieldValue → Option (List String)
  | .texts ss => some ss
  | _ => none

/-- The integer of a value, if it is one. -/
def integerOf? : FieldValue → Option Int
  | .integer n => some n
  | _ => none

/-- The values of the members of a header. -/
def Header.values (h : Header) : List FieldValue :=
  [.text h.algorithm, .text h.type, textValue h.keyId, textsValue h.chain]

/-- The header with some values of its members. -/
def Header.ofValues? : List FieldValue → Option Header
  | [.text algorithm, .text type, keyId, chain] =>
    some ⟨algorithm, type, textOf? keyId, textsOf? chain⟩
  | _ => none

/-- The name of a header in messages. -/
def Header.recordName : String := "JwtHeader"

/-- The compact text of a header. -/
def Header.encode (h : Header) : List UInt8 :=
  Json.encodeRecord fields h.values

/-- The values of a record made into what they describe; a reader that gives one value per field
of the right type leaves nothing to refuse. -/
def ofRecord {α : Type} (record : String) (fields : List Field) (make : List FieldValue → Option α)
    (text : List UInt8) : Except RecordFault α :=
  match Json.decodeRecord record fields text with
  | .error e => .error e
  | .ok vs =>
    match make vs with
    | some a => .ok a
    | none => .error (.length vs.length record fields.length)

/-- Reads a header. -/
def Header.decode (text : List UInt8) : Except RecordFault Header :=
  ofRecord recordName fields ofValues? text

/-! ## Claims -/

/-- The claims of a token. -/
structure Claims where
  subject : String
  audience : List String
  created : Option Int
  scope : Option String
  idpDigest : Option String
  sessionToken : Option String
  accessToken : Option String
  imei : Option String
  issuedAt : Int
  expiry : Option Int
  deriving DecidableEq, Repr

/-- The members of claims. -/
def Claims.fields : List Field :=
  [⟨"sub", .text, false⟩, ⟨"aud", .texts, false⟩, ⟨"cdt", .integer, true⟩, ⟨"scope", .text, true⟩,
   ⟨"idp_at", .text, true⟩, ⟨"st", .text, true⟩, ⟨"at", .text, true⟩, ⟨"imei", .text, true⟩,
   ⟨"iat", .integer, false⟩, ⟨"exp", .integer, true⟩]

/-- The values of the members of claims. -/
def Claims.values (c : Claims) : List FieldValue :=
  [.text c.subject, .texts c.audience, integerValue c.created, textValue c.scope,
   textValue c.idpDigest, textValue c.sessionToken, textValue c.accessToken, textValue c.imei,
   .integer c.issuedAt, integerValue c.expiry]

/-- The claims with some values of their members. -/
def Claims.ofValues? : List FieldValue → Option Claims
  | [.text sub, .texts aud, cdt, scope, idp, st, at', imei, .integer iat, exp] =>
    some ⟨sub, aud, integerOf? cdt, textOf? scope, textOf? idp, textOf? st, textOf? at',
      textOf? imei, iat, integerOf? exp⟩
  | _ => none

/-- The name of claims in messages. -/
def Claims.recordName : String := "TokenClaims"

/-- The compact text of claims. -/
def Claims.encode (c : Claims) : List UInt8 :=
  Json.encodeRecord fields c.values

/-- Reads claims. -/
def Claims.decode (text : List UInt8) : Except RecordFault Claims :=
  ofRecord recordName fields ofValues? text

/-! ## What requests put into them -/

/-- The audience of the tokens of clients and sessions. -/
def serviceAudience : String := "PTSDIRECT.ORG"

/-- The audience of enrollments. -/
def enrollmentAudience : String := "kpe_v2"

/-- The subject of session tokens. -/
def sessionSubject : String := "session"

/-- The subject of access tokens. -/
def accessSubject : String := "access"

/-- The scope of a client. -/
def clientScope : String := "all"

/-- Claims with no optional member. -/
def Claims.bare (subject audience : String) (now : Int) : Claims :=
  ⟨subject, [audience], none, none, none, none, none, none, now, none⟩

/-- The certificate chain of an enrollment: its public key, unless that is blank. -/
def chainOf (publicKeyBase64 : Option String) : Option (List String) :=
  (publicKeyBase64.filter fun b => !Text.blank b).map fun b => [b]

/-- The header for a request. -/
def Request.header : Request → Header
  | .enrollment subject _ publicKey =>
    { Header.plain with keyId := some subject, chain := chainOf publicKey }
  | _ => .plain

/-- The claims for a request that is granted at a second. -/
def Request.claims (lifetimes : Lifetimes) (now : Int) : Request → Claims
  | .clientIdentity subject idp =>
    { Claims.bare subject serviceAudience now with
      created := some now
      scope := some clientScope
      idpDigest := idp.map Digest.text
      expiry := some (now + lifetimes.clientIdentity.seconds) }
  | .session token =>
    { Claims.bare sessionSubject serviceAudience now with
      sessionToken := some token
      expiry := some (now + lifetimes.session.seconds) }
  | .access token =>
    { Claims.bare accessSubject serviceAudience now with
      accessToken := some token
      expiry := some (now + lifetimes.access.seconds) }
  | .enrollment subject imei _ =>
    { Claims.bare subject enrollmentAudience now with imei := some imei }

end DeviceAuth.Token
