import DeviceAuth.Proofs.Token.Lifetime

/-!
# DeviceAuth.Proofs.Token.Overflow

The expiry of a token as a sum of two integers of 64 bits, the second of its issue and the whole
seconds of its lifetime.  Claims hold this sum as an integer without bounds; nothing is lost by
that, as the calendar ends so early and durations are so short that the sum never overflows.  That
it does not come before the issue rests on what each maker of lifetimes checks
(`Lifetimes.Made.pos`): a lifetime above zero is rounded down to its whole seconds.
-/

namespace DeviceAuth.Token

/-! ## Sums of 64 bits -/

/-- The sum of two integers of 64 bits, unless it overflows. -/
def checkedSum? (a b : Int64) : Option Int64 :=
  if BitVec.saddOverflow a.toBitVec b.toBitVec then none else some (a + b)

/-- The sum overflows exactly when no integer of 64 bits is the exact one. -/
theorem checkedSum?_eq_some_iff {a b c : Int64} :
    checkedSum? a b = some c ↔ c.toInt = a.toInt + b.toInt := by
  have hrange : BitVec.saddOverflow a.toBitVec b.toBitVec = true ↔
      2 ^ 63 ≤ a.toInt + b.toInt ∨ a.toInt + b.toInt < -2 ^ 63 := by
    simp [BitVec.saddOverflow]
  by_cases hover : BitVec.saddOverflow a.toBitVec b.toBitVec = true
  · rw [checkedSum?, if_pos hover]
    refine ⟨nofun, fun hexact => ?_⟩
    have hlower := c.le_toInt
    have hupper := c.toInt_lt
    rw [hrange, ← hexact] at hover
    omega
  · have hexact : (a + b).toInt = a.toInt + b.toInt := BitVec.toInt_add_of_not_saddOverflow hover
    rw [checkedSum?, if_neg hover, Option.some.injEq, ← Int64.toInt_inj, hexact, eq_comm]

example : checkedSum? 9223372036854775807 1 = none := by decide

/-- An integer in the range of 64 bits is one. -/
theorem exists_toInt_eq {n : Int} (hlower : -2 ^ 63 ≤ n) (hupper : n < 2 ^ 63) :
    ∃ a : Int64, a.toInt = n :=
  ⟨.ofInt n, Int64.toInt_ofInt_of_le hlower hupper⟩

/-! ## Lifetimes and their makers -/

namespace Lifetimes

/-- The ways to lifetimes: from three durations, from settings, and where nothing is set. -/
inductive Made : Lifetimes → Prop
  | new {clientIdentity session access : Duration} {l : Lifetimes}
    (h : Lifetimes.new clientIdentity session access = .ok l) : Made l
  | ofSettings {s : Settings} {l : Lifetimes} (h : (Lifetimes.ofSettings s).value = .ok l) : Made l
  | default : Made .default

/-- Lifetimes that are made are above zero, since durations that are not are refused. -/
theorem Made.pos {l : Lifetimes} (h : l.Made) (k : Expiring) : 0 < (l.of k).nanos := by
  have hnew : ∀ {c s a : Duration}, Lifetimes.new c s a = .ok l → 0 < (l.of k).nanos := by
    intro c s a h
    obtain ⟨⟨hc, hs, ha⟩, rfl, rfl, rfl⟩ := new_eq_ok_iff.1 h
    cases k with
    | clientIdentity => exact hc
    | session => exact hs
    | access => exact ha
  cases h with
  | new h => exact hnew h
  | ofSettings h =>
    rcases ofSettings_cases _ with ⟨j, -, herror⟩ | ⟨d, -, hvalue⟩
    · rw [herror] at h
      contradiction
    · rw [hvalue] at h
      exact hnew h
  | default => cases k <;> decide

end Lifetimes

/-- A duration above zero is rounded down to its whole seconds. -/
theorem Duration.seconds_floor {d : Duration} (h : 0 < d.nanos) :
    d.seconds * nanosPerSecond ≤ d.nanos ∧ d.nanos < (d.seconds + 1) * nanosPerSecond := by
  rw [Duration.seconds_eq_ediv h]
  unfold nanosPerSecond
  omega

/-- The claims of a request that expires hold the sum without bounds. -/
theorem Request.expiry_of_expiring {l : Lifetimes} {r : Request} {k : Expiring} (n : Int)
    (h : r.expiring? = some k) : (r.claims l n).expiry = some (n + (l.of k).seconds) := by
  cases r with
  | clientIdentity subject idp | session token | access token =>
    cases h
    rfl
  | enrollment subject imei publicKey => contradiction

/-! ## The sum of an expiry -/

/-- The expiry of a token never overflows.  Whichever way lifetimes are made, and whatever the time
of issue, its second and the whole seconds of a lifetime are integers of 64 bits, and so is their
sum, which is the expiry in the claims of the requests of that kind.  It comes no earlier than the
issue, and later by just the lifetime, rounded down to whole seconds. -/
theorem expiry_sum_of_made {l : Lifetimes} (h : l.Made) (k : Expiring) (now : Timestamp) :
    ∃ second whole sum : Int64,
      second.toInt = now.seconds ∧ whole.toInt = (l.of k).seconds ∧
      checkedSum? second whole = some sum ∧
      now.seconds ≤ sum.toInt ∧
      (sum.toInt - now.seconds) * nanosPerSecond ≤ (l.of k).nanos ∧
      (l.of k).nanos < (sum.toInt - now.seconds + 1) * nanosPerSecond ∧
      ∀ r : Request, r.expiring? = some k →
        (r.claims l now.seconds).expiry = some sum.toInt := by
  have hpos := h.pos k
  have hwhole : 0 ≤ (l.of k).seconds ∧ (l.of k).seconds ≤ maxSeconds := by
    rw [Duration.seconds_eq_ediv hpos]
    exact Duration.floor_bounds hpos
  have hnow := now.inRange
  unfold maxSeconds at hwhole
  unfold firstSecond lastSecond at hnow
  obtain ⟨second, hsecond⟩ := exists_toInt_eq (n := now.seconds) (by omega) (by omega)
  obtain ⟨whole, hseconds⟩ := exists_toInt_eq (n := (l.of k).seconds) (by omega) (by omega)
  obtain ⟨sum, hsum⟩ :=
    exists_toInt_eq (n := now.seconds + (l.of k).seconds) (by omega) (by omega)
  have hlater : sum.toInt - now.seconds = (l.of k).seconds := by omega
  have hfloor := Duration.seconds_floor hpos
  refine ⟨second, whole, sum, hsecond, hseconds, ?_, by omega, ?_, ?_, fun r hr => ?_⟩
  · rw [checkedSum?_eq_some_iff, hsum, hsecond, hseconds]
  · rw [hlater]
    exact hfloor.1
  · rw [hlater]
    exact hfloor.2
  · rw [Request.expiry_of_expiring _ hr, hsum]

/-- The greatest duration. -/
def greatestDuration : Duration := ⟨maxNanos, by decide⟩

/-- Lifetimes of the greatest duration. -/
def greatestLifetimes : Lifetimes where
  clientIdentity := greatestDuration
  session := greatestDuration
  access := greatestDuration
  clientIdentity_pos := by decide
  session_pos := by decide
  access_pos := by decide

/-- The last second of the calendar. -/
def lastTime : Timestamp := ⟨lastSecond, 0, by decide, by decide⟩

/-- The greatest lifetime from the last second on ends in a second of 64 bits. -/
theorem expiry_sum_of_made_greatest :
    greatestLifetimes.Made ∧
    checkedSum? 8210266876799 9223372036854775 = some 9231582303731574 ∧
    ((Request.session "abc").claims greatestLifetimes lastTime.seconds).expiry =
      some 9231582303731574 := by
  have hnew : Lifetimes.new greatestDuration greatestDuration greatestDuration =
      .ok greatestLifetimes := rfl
  have hmade : greatestLifetimes.Made := .new hnew
  obtain ⟨second, whole, sum, hsecond, hwhole, hsum, -, hfloor, hceil, hexpiry⟩ :=
    expiry_sum_of_made hmade .session lastTime
  have hnow : lastTime.seconds = 8210266876799 := rfl
  have hnanos : (greatestLifetimes.of .session).nanos = 9223372036854775807000000 := rfl
  rw [hnow] at hsecond hfloor hceil
  rw [hnanos] at hfloor hceil
  unfold nanosPerSecond at hfloor hceil
  have hexact : sum.toInt = 9231582303731574 := by omega
  have hsecond : second = 8210266876799 := Int64.toInt_inj.1 hsecond
  have hwhole : whole = 9223372036854775 := Int64.toInt_inj.1 hwhole
  have hvalue : sum = 9231582303731574 := Int64.toInt_inj.1 hexact
  rw [hsecond, hwhole, hvalue] at hsum
  rw [← hexact]
  exact ⟨hmade, hsum, hexpiry (.session "abc") rfl⟩

end DeviceAuth.Token
