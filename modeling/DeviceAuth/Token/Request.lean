import DeviceAuth.Text.Blank

/-!
# DeviceAuth.Token.Request

What a token is asked for.  There are four kinds of request, each with the texts that its token
carries; some of the texts are required, and a blank one is refused before anything is signed.
-/

namespace DeviceAuth.Token

/-- A request for a token. -/
inductive Request where
  /-- A long-lived token for a client, perhaps tied to the token of an identity provider. -/
  | clientIdentity (subject : String) (idpAccessToken : Option String)
  /-- A short-lived token that carries a session token. -/
  | session (sessionToken : String)
  /-- A short-lived token that carries an access token. -/
  | access (accessToken : String)
  /-- A device's enrollment, which does not expire; a public key may come with it. -/
  | enrollment (subject imei : String) (publicKeyBase64 : Option String)
  deriving DecidableEq, Repr

/-- The texts that a request must have. -/
inductive RequiredField where
  | clientId
  | sessionToken
  | accessToken
  | imei
  deriving DecidableEq, Repr

/-- The name of a required text in messages. -/
def RequiredField.describe : RequiredField → String
  | .clientId => "client identifier"
  | .sessionToken => "session token"
  | .accessToken => "access token"
  | .imei => "device IMEI"

/-- The wording of a blank required text. -/
def RequiredField.blankMessage (f : RequiredField) : String :=
  f.describe ++ " must not be blank"

namespace Request

/-- The name of a kind of request in the log. -/
def variantName : Request → String
  | .clientIdentity .. => "client_identity"
  | .session .. => "session"
  | .access .. => "access"
  | .enrollment .. => "enrollment"

/-- What is said to have failed when the key of a request does not load. -/
def failureContext : Request → String
  | .enrollment .. => "Failed to create JWT"
  | _ => "Failed to generate JWT"

/-- An enrollment with a public key; other requests carry none and stay as they are. -/
def withPublicKey (r : Request) (publicKeyBase64 : String) : Request :=
  match r with
  | .enrollment subject imei _ => .enrollment subject imei (some publicKeyBase64)
  | r => r

/-- The required texts of a request, in the order in which they are checked. -/
def required : Request → List (RequiredField × String)
  | .clientIdentity subject _ => [(.clientId, subject)]
  | .session t => [(.sessionToken, t)]
  | .access t => [(.accessToken, t)]
  | .enrollment subject imei _ => [(.clientId, subject), (.imei, imei)]

/-- The first required text that is blank. -/
def blankField? (r : Request) : Option RequiredField :=
  (r.required.find? fun f => Text.blank f.2).map (·.1)

/-- A request is valid when no required text is blank. -/
theorem blankField?_eq_none_iff (r : Request) :
    r.blankField? = none ↔ ∀ f ∈ r.required, Text.blank f.2 = false := by
  simp [blankField?]

end Request

end DeviceAuth.Token
