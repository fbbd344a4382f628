/-!
# DeviceAuth.Token.Timestamp

Points in time, in seconds since 1970 and nanoseconds, within the range of a calendar that ends in
the year 262142.  In the last second of a minute the nanoseconds may run over into a leap second.
-/

namespace DeviceAuth.Token

/-- The first second of the range. -/
def firstSecond : Int := -8334601228800

/-- The last second of the range. -/
def lastSecond : Int := 8210266876799

/-- The nanoseconds that a second may hold: twice as many where a leap second may follow. -/
def nanosWithin (seconds : Int) : Nat :=
  if seconds % 60 = 59 then 2000000000 else 1000000000

/-- A point in time. -/
structure Timestamp where
  seconds : Int
  nanos : Nat
  inRange : firstSecond ≤ seconds ∧ seconds ≤ lastSecond
  nanos_lt : nanos < nanosWithin seconds
  deriving DecidableEq, Repr

/-- The point in time with the given parts, if it is in the range. -/
def Timestamp.ofParts? (seconds : Int) (nanos : Nat) : Option Timestamp :=
  if h : (firstSecond ≤ seconds ∧ seconds ≤ lastSecond) ∧ nanos < nanosWithin seconds then
    some ⟨seconds, nanos, h.1, h.2⟩
  else none

end DeviceAuth.Token
