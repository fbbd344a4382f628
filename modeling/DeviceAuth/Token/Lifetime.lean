import DeviceAuth.Settings

/-!
# DeviceAuth.Token.Lifetime

How long tokens last.  A duration is a whole number of nanoseconds, at most `2 ^ 63 - 1`
milliseconds in size; the lifetimes of the kinds of token that expire are durations above zero.
-/

namespace DeviceAuth.Token

/-! ## Durations -/

/-- The nanoseconds in a second. -/
def nanosPerSecond : Int := 1000000000

/-- The greatest duration, in nanoseconds. -/
def maxNanos : Int := 9223372036854775807 * 1000000

/-- A duration. -/
structure Duration where
  nanos : Int
  bounded : -maxNanos ≤ nanos ∧ nanos ≤ maxNanos
  deriving DecidableEq, Repr

namespace Duration

/-- The duration of some nanoseconds, if they are not too many. -/
def ofNanos? (n : Int) : Option Duration :=
  if h : -maxNanos ≤ n ∧ n ≤ maxNanos then some ⟨n, h⟩ else none

/-- The duration of seconds and nanoseconds, of which there is less than a second. -/
def ofParts? (seconds : Int) (nanos : Nat) : Option Duration :=
  if (nanos : Int) < nanosPerSecond then ofNanos? (seconds * nanosPerSecond + nanos) else none

/-- The duration of some seconds. -/
def ofSeconds? (seconds : Int) : Option Duration :=
  ofNanos? (seconds * nanosPerSecond)

/-- The whole seconds of a duration, toward zero. -/
def seconds (d : Duration) : Int :=
  d.nanos.tdiv nanosPerSecond

/-- The nanoseconds beyond the whole seconds. -/
def subsecond (d : Duration) : Int :=
  d.nanos.tmod nanosPerSecond

end Duration

/-! ## Lifetimes -/

/-- The lifetimes of the kinds of token that expire. -/
structure Lifetimes where
  clientIdentity : Duration
  session : Duration
  access : Duration
  clientIdentity_pos : 0 < clientIdentity.nanos
  session_pos : 0 < session.nanos
  access_pos : 0 < access.nanos
  deriving DecidableEq, Repr

/-- The kinds of token that expire. -/
inductive Expiring where
  | clientIdentity
  | session
  | access
  deriving DecidableEq, Repr

/-- The name of a kind of token in messages. -/
def Expiring.describe : Expiring → String
  | .clientIdentity => "client identity"
  | .session => "session"
  | .access => "access"

/-- The setting with the lifetime of a kind of token, in seconds. -/
def Expiring.setting : Expiring → String
  | .clientIdentity => "TOKENSMITH_CLIENT_IDENTITY_TTL_SECS"
  | .session => "TOKENSMITH_SESSION_TTL_SECS"
  | .access => "TOKENSMITH_ACCESS_TTL_SECS"

/-- The lifetime of a kind of token where none is set, in seconds: ten years for a client, an hour
otherwise. -/
def Expiring.defaultSeconds : Expiring → Int
  | .clientIdentity => 315532800
  | .session => 3600
  | .access => 3600

/-- Why durations are no lifetimes. -/
inductive LifetimeFault where
  /-- A duration is not above zero. -/
  | notPositive (kind : Expiring) (seconds : Int)
  /-- A setting is beyond the greatest duration. -/
  | outOfRange (kind : Expiring) (seconds : Int)
  deriving DecidableEq, Repr

/-- The wording of a fault. -/
def LifetimeFault.message : LifetimeFault → String
  | .notPositive k s => k.describe ++ s!" token lifetime must be positive, got {s}s"
  | .outOfRange k s => k.setting ++ s!" is out of range: {s}"

namespace Lifetimes

/-- The lifetimes of three durations; the first that is not above zero is refused. -/
def new (clientIdentity session access : Duration) : Except LifetimeFault Lifetimes :=
  if hc : 0 < clientIdentity.nanos then
    if hs : 0 < session.nanos then
      if ha : 0 < access.nanos then .ok ⟨clientIdentity, session, access, hc, hs, ha⟩
      else .error (.notPositive .access access.seconds)
    else .error (.notPositive .session session.seconds)
  else .error (.notPositive .clientIdentity clientIdentity.seconds)

/-- The lifetimes where none are set. -/
def default : Lifetimes where
  clientIdentity := ⟨315532800 * nanosPerSecond, by decide⟩
  session := ⟨3600 * nanosPerSecond, by decide⟩
  access := ⟨3600 * nanosPerSecond, by decide⟩
  clientIdentity_pos := by decide
  session_pos := by decide
  access_pos := by decide

instance : Inhabited Lifetimes := ⟨default⟩

/-- The duration of a kind of token that the settings give. -/
def durationOf (s : Settings) (k : Expiring) : Logged (Except LifetimeFault Duration) :=
  (s.getIntD k.setting k.defaultSeconds).map fun n =>
    match Duration.ofSeconds? n with
    | some d => .ok d
    | none => .error (.outOfRange k n)

/-- The lifetimes that the settings give. -/
def ofSettings (s : Settings) : Logged (Except LifetimeFault Lifetimes) :=
  (durationOf s .clientIdentity).andThen fun
    | .error f => .quiet (.error f)
    | .ok c => (durationOf s .session).andThen fun
      | .error f => .quiet (.error f)
      | .ok t => (durationOf s .access).map fun
        | .error f => .error f
        | .ok a => new c t a

end Lifetimes

end DeviceAuth.Token
