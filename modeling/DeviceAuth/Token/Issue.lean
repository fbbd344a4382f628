import DeviceAuth.Log
import DeviceAuth.Token.Claims
import DeviceAuth.Token.Jws
import DeviceAuth.Token.Timestamp

/-!
# DeviceAuth.Token.Issue

Issuing tokens.  A request is checked before the key is looked at, and the key is loaded before
anything is signed; a token that is issued is logged under a pseudonym of its subject, and a key
that does not load is logged by the type of its fault.
-/

namespace DeviceAuth.Token

/-- Why no token is issued. -/
inductive IssueFault where
  /-- A required text is blank. -/
  | blank (field : RequiredField)
  /-- The key is of a kind that does not sign. -/
  | keyKind (found : Key.Kind)
  /-- The key does not load; `context` says what failed by that. -/
  | key (context : String) (cause : Key.Failure)
  deriving DecidableEq, Repr

/-- The wording of a fault. -/
def IssueFault.message (words : Key.ParserWords) : IssueFault → String
  | .blank f => f.blankMessage
  | .keyKind k =>
    "ES256 signing requires an " ++ Key.Kind.ecPrivate.describe ++ ", got " ++ k.describe
  | .key context f => context ++ ": " ++ f.message words

/-- The token for a request, signed at a second. -/
def Request.sign (r : Request) (lifetimes : Lifetimes) (key : Key.EcPrivate) (now : Int) :
    Logged String :=
  let claims := r.claims lifetimes now
  .noting (Log.tokenIssued r.variantName claims.subject claims.expiry)
    (Token.sign key r.header.encode claims.encode)

/-- Issues the token for a request with a loaded key. -/
def issue (lifetimes : Lifetimes) (r : Request) (key : Key.Material) (now : Timestamp) :
    Logged (Except IssueFault String) :=
  match r.blankField? with
  | some f => .quiet (.error (.blank f))
  | none =>
    match key.signingKey? with
    | none => .quiet (.error (.keyKind key.kind))
    | some k => (r.sign lifetimes k now.seconds).map .ok

/-- Issues the token for a request with the key in a PEM text. -/
def issueWithPem (lifetimes : Lifetimes) (r : Request) (pem : String) (now : Timestamp) :
    Logged (Except IssueFault String) :=
  match r.blankField? with
  | some f => .quiet (.error (.blank f))
  | none =>
    match Key.loadEcPrivate pem with
    | .error f =>
      .noting (Log.cryptoFault r.variantName .key) (.error (.key r.failureContext f))
    | .ok k => (r.sign lifetimes k now.seconds).map .ok

/-! ## Configured signers and verifiers -/

/-- A signer: lifetimes, the PEM text of a key, and perhaps a handler that turns every outcome into
a text. -/
structure Signer where
  lifetimes : Lifetimes
  privateKeyPem : String
  handler : Option (Except IssueFault String → String)

/-- Signs a request; a handler takes the outcome, whatever it is. -/
def Signer.sign (s : Signer) (r : Request) (now : Timestamp) : Logged (Except IssueFault String) :=
  (issueWithPem s.lifetimes r s.privateKeyPem now).map fun outcome =>
    match s.handler with
    | some handle => .ok (handle outcome)
    | none => outcome

/-- A verifier: the PEM text of a key, and perhaps a handler that turns every outcome into a
verified token. -/
structure Verifier where
  publicKeyPem : String
  handler : Option (Except VerifyFault Verified → Verified)

/-- What verification with the key of a PEM text gives. -/
def verifyWithPem (pem token : String) (now : Int) : Except VerifyFault Verified :=
  match Key.loadEcPublic pem with
  | .error f => .error (.key f)
  | .ok key => Token.verify key token now

/-- A token was refused. -/
def refused (words : Key.ParserWords) (f : VerifyFault) : Log.Record :=
  Log.rejected "jwt_verification" (f.message words)

/-- Verifies a token; a handler takes the outcome, and without one a refusal is logged. -/
def Verifier.verify (words : Key.ParserWords) (v : Verifier) (token : String) (now : Int) :
    Logged (Except VerifyFault Verified) :=
  let outcome := verifyWithPem v.publicKeyPem token now
  match v.handler, outcome with
  | some handle, _ => .quiet (.ok (handle outcome))
  | none, .ok _ => .quiet outcome
  | none, .error f => .noting (refused words f) outcome

end DeviceAuth.Token
