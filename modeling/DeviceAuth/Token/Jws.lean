import DeviceAuth.Json.Reader
import DeviceAuth.Key
import DeviceAuth.P256.Ecdsa
import DeviceAuth.Text.Split

/-!
# DeviceAuth.Token.Jws

Compact signed tokens (RFC 7515) with ECDSA on P-256.  A token is three segments with dots between
them: header, claims and signature, each in unpadded URL-safe Base64; the signature is over the
first two segments and the dot.  Claims are looked into only after the signature holds.
-/

namespace DeviceAuth.Token

/-- The algorithm of every token. -/
def algorithmName : String := "ES256"

/-! ## Signing -/

/-- The segment for some bytes. -/
def segment (bytes : List UInt8) : String :=
  Base64.encodeNoPad .urlSafe bytes

/-- The bytes that are signed: two segments with a dot between them. -/
def signingInput (header claims : String) : List UInt8 :=
  Text.Utf8.encode (header ++ "." ++ claims)

/-- The token with a header and claims, given by their bytes. -/
def sign (key : Key.EcPrivate) (header claims : List UInt8) : String :=
  let h := segment header
  let c := segment claims
  h ++ "." ++ c ++ "." ++ segment (P256.sign key.scalar (signingInput h c)).encode

/-! ## Verifying -/

/-- The parts of a token that are JSON. -/
inductive Part where
  | header
  | claims
  deriving DecidableEq, Repr

/-- The name of a part in messages. -/
def Part.describe : Part → String
  | .header => "header"
  | .claims => "claims"

/-- Why a token is refused. -/
inductive VerifyFault where
  /-- There are not three segments. -/
  | segments (found : Nat)
  /-- A part is not Base64. -/
  | notBase64 (part : Part) (cause : Base64.Fault)
  /-- A part is not JSON. -/
  | notJson (part : Part) (cause : Json.SyntaxError)
  /-- The header names another algorithm, or none. -/
  | algorithm (found : Option String)
  /-- The signature does not hold. -/
  | signature
  /-- The time of expiry has come. -/
  | expired
  /-- The key does not load. -/
  | key (cause : Key.Failure)
  deriving DecidableEq, Repr

/-- The wording of a fault in the form of a token. -/
def invalidToken (reason : String) : String :=
  "Invalid JWT token: " ++ reason

/-- The wording of a fault. -/
def VerifyFault.message (words : Key.ParserWords) : VerifyFault → String
  | .segments n => invalidToken s!"expected 3 segments, found {n}"
  | .notBase64 p e => invalidToken (p.describe ++ " is not Base64URL: " ++ e.message)
  | .notJson p e => invalidToken (p.describe ++ " is not JSON: " ++ e.message)
  | .algorithm a => invalidToken ("unsupported algorithm " ++ a.getD "<missing>")
  | .signature => "Invalid JWT signature"
  | .expired => "JWT token has expired"
  | .key f => f.message words

/-- The header and the claims of a token that holds. -/
structure Verified where
  header : Json
  claims : Json
  deriving Repr

/-- The text of a claim. -/
def Verified.text? (v : Verified) (name : String) : Option String :=
  (v.claims.member? name).bind Json.text?

/-- The integer of a claim. -/
def Verified.integer? (v : Verified) (name : String) : Option Int :=
  (v.claims.member? name).bind Json.int64?

/-- The segments of a token. -/
def segments (token : String) : List String :=
  (Text.splitWhere (· == '.') token.toList).map String.ofList

/-- The JSON value in a segment. -/
def readPart (part : Part) (s : String) : Except VerifyFault Json :=
  match Base64.decodeText .urlSafe .none s with
  | .error e => .error (.notBase64 part e)
  | .ok bytes => (Json.decode bytes).mapError (.notJson part)

/-- The algorithm that a header names. -/
def algorithmOf? (header : Json) : Option String :=
  (header.member? "alg").bind Json.text?

/-- The signature in a segment. -/
def readSignature? (s : String) : Option P256.Signature :=
  match Base64.decodeText .urlSafe .none s with
  | .ok bytes => P256.Signature.decode? bytes
  | .error _ => none

/-- Whether claims have expired at a second; an expiry that is no 64-bit integer does not count. -/
def hasExpired (claims : Json) (now : Int) : Bool :=
  match (claims.member? "exp").bind Json.int64? with
  | some t => t ≤ now
  | none => false

/-- Verifies the three segments of a token under a public point at a second. -/
def verifySegments (key : P256.Point) (header claims signature : String) (now : Int) :
    Except VerifyFault Verified := do
  let h ← readPart .header header
  let algorithm := algorithmOf? h
  if algorithm ≠ some algorithmName then throw (.algorithm algorithm)
  let some sig := readSignature? signature | throw .signature
  if !P256.verify key (signingInput header claims) sig then throw .signature
  let c ← readPart .claims claims
  if hasExpired c now then throw .expired
  return ⟨h, c⟩

/-- Verifies a token under a public point at a second. -/
def verify (key : P256.Point) (token : String) (now : Int) : Except VerifyFault Verified :=
  match segments token with
  | [header, claims, signature] => verifySegments key header claims signature now
  | ss => .error (.segments ss.length)

end DeviceAuth.Token
