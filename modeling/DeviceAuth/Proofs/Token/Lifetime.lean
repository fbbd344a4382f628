import DeviceAuth.Proofs.Certificate
import DeviceAuth.Proofs.Settings
import DeviceAuth.Proofs.Token.Expiry

/-!
# DeviceAuth.Proofs.Token.Lifetime

From settings to the expiry of tokens.  Each kind of token that expires has one number of seconds:
the integer that its setting writes, or its default (`Expiring.Given`).  The three numbers alone
decide whether there are lifetimes, which fault there is otherwise, and when each token expires.
Faults come in two rounds: numbers beyond the greatest duration first, then those not above zero.
-/

namespace DeviceAuth.Token

/-! ## Seconds -/

/-- The most seconds that a duration may have. -/
def maxSeconds : Nat := 9223372036854775

/-- The duration of some seconds has these seconds, and there is one up to the most seconds. -/
theorem Duration.ofSeconds?_cases (n : Int) :
    (maxSeconds < n.natAbs ∧ Duration.ofSeconds? n = none) ∨
      (n.natAbs ≤ maxSeconds ∧
        ∃ d, Duration.ofSeconds? n = some d ∧ d.nanos = n * nanosPerSecond) := by
  unfold Duration.ofSeconds? Duration.ofNanos?
  by_cases h : -maxNanos ≤ n * nanosPerSecond ∧ n * nanosPerSecond ≤ maxNanos
  · rw [dif_pos h]
    refine .inr ⟨?_, _, rfl, rfl⟩
    unfold maxNanos nanosPerSecond at h
    unfold maxSeconds
    omega
  · rw [dif_neg h]
    refine .inl ⟨?_, rfl⟩
    unfold maxNanos nanosPerSecond at h
    unfold maxSeconds
    omega

/-- The whole seconds of a duration of seconds. -/
theorem Duration.seconds_of_nanos {d : Duration} {n : Int} (h : d.nanos = n * nanosPerSecond) :
    d.seconds = n := by
  rw [Duration.seconds, h, Int.mul_tdiv_cancel n (by decide)]

/-! ## The three kinds -/

/-- The place of a kind in the order in which lifetimes are checked. -/
def Expiring.rank : Expiring → Nat
  | .clientIdentity => 0
  | .session => 1
  | .access => 2

/-- A kind is the first with a property. -/
def Expiring.First (p : Expiring → Prop) (k : Expiring) : Prop :=
  p k ∧ ∀ j : Expiring, j.rank < k.rank → ¬ p j

namespace Expiring.First

variable {p : Expiring → Prop}

theorem clientIdentity (h : p .clientIdentity) : First p .clientIdentity :=
  ⟨h, fun j hj => absurd hj (Nat.not_lt_zero j.rank)⟩

theorem session (hc : ¬ p .clientIdentity) (h : p .session) : First p .session := by
  refine ⟨h, fun j hj => ?_⟩
  cases j with
  | clientIdentity => exact hc
  | session | access => contradiction

theorem access (hc : ¬ p .clientIdentity) (hs : ¬ p .session) (h : p .access) :
    First p .access := by
  refine ⟨h, fun j hj => ?_⟩
  cases j with
  | clientIdentity => exact hc
  | session => exact hs
  | access => contradiction

/-- There is at most one first kind with a property. -/
theorem unique {j k : Expiring} (hj : First p j) (hk : First p k) : j = k := by
  have hjk : ¬ j.rank < k.rank := fun h => hk.2 j h hj.1
  have hkj : ¬ k.rank < j.rank := fun h => hj.2 k h hk.1
  cases j <;> cases k <;> first | rfl | simp [rank] at hjk hkj

end Expiring.First

/-- The lifetime of a kind of token. -/
def Lifetimes.of (l : Lifetimes) : Expiring → Duration
  | .clientIdentity => l.clientIdentity
  | .session => l.session
  | .access => l.access

/-- The kind of the token for a request, unless it does not expire. -/
def Request.expiring? : Request → Option Expiring
  | .clientIdentity .. => some .clientIdentity
  | .session .. => some .session
  | .access .. => some .access
  | .enrollment .. => none

theorem Request.lifetime?_eq (l : Lifetimes) (r : Request) :
    r.lifetime? l = r.expiring?.map l.of := by
  cases r <;> rfl

/-- The settings give a kind of token some seconds: those that its setting writes, or its default
if that writes none. -/
def Expiring.Given (s : Settings) (k : Expiring) (n : Int) : Prop :=
  s.Sets k.setting n ∨ ((∀ m, ¬ s.Sets k.setting m) ∧ n = k.defaultSeconds)

/-- The seconds that the settings give a kind of token. -/
def Expiring.seconds (s : Settings) (k : Expiring) : Int :=
  (s.getIntD k.setting k.defaultSeconds).value

theorem Expiring.given_iff {s : Settings} {k : Expiring} {n : Int} :
    k.Given s n ↔ n = k.seconds s := by
  rw [Given, ← Settings.value_getIntD_eq_iff, seconds, eq_comm]

/-! ## Lifetimes -/

namespace Lifetimes

/-- Three durations are lifetimes if all are above zero; otherwise the first that is not is at
fault. -/
theorem new_cases (d : Expiring → Duration) :
    (∃ k, Expiring.First (fun k => (d k).nanos ≤ 0) k ∧
      new (d .clientIdentity) (d .session) (d .access) = .error (.notPositive k (d k).seconds)) ∨
    ((∀ k, 0 < (d k).nanos) ∧
      ∃ l, new (d .clientIdentity) (d .session) (d .access) = .ok l ∧ ∀ k, l.of k = d k) := by
  unfold new
  by_cases hc : 0 < (d .clientIdentity).nanos
  swap
  · rw [dif_neg hc]
    exact .inl ⟨.clientIdentity, .clientIdentity (Int.not_lt.1 hc), rfl⟩
  rw [dif_pos hc]
  by_cases hs : 0 < (d .session).nanos
  swap
  · rw [dif_neg hs]
    exact .inl ⟨.session, .session (Int.not_le.2 hc) (Int.not_lt.1 hs), rfl⟩
  rw [dif_pos hs]
  by_cases ha : 0 < (d .access).nanos
  swap
  · rw [dif_neg ha]
    exact .inl ⟨.access, .access (Int.not_le.2 hc) (Int.not_le.2 hs) (Int.not_lt.1 ha), rfl⟩
  rw [dif_pos ha]
  refine .inr ⟨fun k => ?_, _, rfl, fun k => ?_⟩
  · cases k with
    | clientIdentity => exact hc
    | session => exact hs
    | access => exact ha
  · cases k <;> rfl

/-- A setting gives a duration of its seconds, unless these are too many. -/
theorem durationOf_cases (s : Settings) (k : Expiring) :
    (maxSeconds < (k.seconds s).natAbs ∧
      (durationOf s k).value = .error (.outOfRange k (k.seconds s))) ∨
    ((k.seconds s).natAbs ≤ maxSeconds ∧
      ∃ d, (durationOf s k).value = .ok d ∧ d.nanos = k.seconds s * nanosPerSecond) := by
  rw [durationOf, Logged.value_map, ← Expiring.seconds]
  rcases Duration.ofSeconds?_cases (k.seconds s) with ⟨hmax, hnone⟩ | ⟨hmax, d, hd, hnanos⟩
  · rw [hnone]
    exact .inl ⟨hmax, rfl⟩
  · rw [hd]
    exact .inr ⟨hmax, d, rfl, hnanos⟩

/-- The first round: the first kind with too many seconds is at fault; if there is none, what comes
of the three durations decides. -/
theorem ofSettings_cases (s : Settings) :
    (∃ k, Expiring.First (fun k => maxSeconds < (k.seconds s).natAbs) k ∧
      (ofSettings s).value = .error (.outOfRange k (k.seconds s))) ∨
    ∃ d : Expiring → Duration,
      (∀ k, (k.seconds s).natAbs ≤ maxSeconds ∧ (d k).nanos = k.seconds s * nanosPerSecond) ∧
      (ofSettings s).value = new (d .clientIdentity) (d .session) (d .access) := by
  rw [ofSettings, Logged.value_andThen]
  rcases durationOf_cases s .clientIdentity with ⟨hmax, hvalue⟩ | ⟨hc, c, hvalue, hcd⟩
  · rw [hvalue]
    exact .inl ⟨.clientIdentity, .clientIdentity hmax, rfl⟩
  rw [hvalue]
  dsimp only
  rw [Logged.value_andThen]
  rcases durationOf_cases s .session with ⟨hmax, hvalue⟩ | ⟨hs, t, hvalue, htd⟩
  · rw [hvalue]
    exact .inl ⟨.session, .session (Nat.not_lt.2 hc) hmax, rfl⟩
  rw [hvalue]
  dsimp only
  rw [Logged.value_map]
  rcases durationOf_cases s .access with ⟨hmax, hvalue⟩ | ⟨ha, a, hvalue, had⟩
  · rw [hvalue]
    exact .inl ⟨.access, .access (Nat.not_lt.2 hc) (Nat.not_lt.2 hs) hmax, rfl⟩
  rw [hvalue]
  refine .inr ⟨fun | .clientIdentity => c | .session => t | .access => a, fun k => ?_, rfl⟩
  cases k with
  | clientIdentity => exact ⟨hc, hcd⟩
  | session => exact ⟨hs, htd⟩
  | access => exact ⟨ha, had⟩

/-- What comes of settings: a fault of the first round, one of the second, or lifetimes of just the
seconds that the settings give. -/
inductive Configures (seconds : Expiring → Int) : Except LifetimeFault Lifetimes → Prop
  /-- A kind is the first with too many seconds. -/
  | outOfRange {k : Expiring}
    (hmax : Expiring.First (fun k => maxSeconds < (seconds k).natAbs) k) :
    Configures seconds (.error (.outOfRange k (seconds k)))
  /-- No kind has too many seconds, and one is the first with none. -/
  | notPositive {k : Expiring} (hrange : ∀ k, (seconds k).natAbs ≤ maxSeconds)
    (hpos : Expiring.First (fun k => seconds k ≤ 0) k) :
    Configures seconds (.error (.notPositive k (seconds k)))
  /-- Each kind has some seconds, and not too many. -/
  | lifetimes {l : Lifetimes} (hrange : ∀ k, 1 ≤ seconds k ∧ seconds k ≤ maxSeconds)
    (hof : ∀ k, (l.of k).nanos = seconds k * nanosPerSecond) : Configures seconds (.ok l)

/-- There are lifetimes exactly when each kind has some seconds, and not too many. -/
theorem Configures.exists_ok_iff {seconds : Expiring → Int} {o : Except LifetimeFault Lifetimes}
    (h : Configures seconds o) :
    (∃ l, o = .ok l) ↔ ∀ k, 1 ≤ seconds k ∧ seconds k ≤ maxSeconds := by
  cases h with
  | @outOfRange k hmax =>
    refine ⟨fun ⟨l, hl⟩ => absurd hl (by simp), fun hrange => ?_⟩
    have hk := hrange k
    have hbeyond := hmax.1
    omega
  | @notPositive k _ hpos =>
    refine ⟨fun ⟨l, hl⟩ => absurd hl (by simp), fun hrange => ?_⟩
    have hk := hrange k
    have hnone := hpos.1
    omega
  | lifetimes hrange hof => exact ⟨fun _ => hrange, fun _ => ⟨_, rfl⟩⟩

/-- A fault of the second round is no fault of the first. -/
theorem Configures.eq_error_iff {seconds : Expiring → Int} {o : Except LifetimeFault Lifetimes}
    (h : Configures seconds o) {f : LifetimeFault} :
    o = .error f ↔
      (∃ k, Expiring.First (fun k => maxSeconds < (seconds k).natAbs) k ∧
        f = .outOfRange k (seconds k)) ∨
      ((∀ k, (seconds k).natAbs ≤ maxSeconds) ∧
        ∃ k, Expiring.First (fun k => seconds k ≤ 0) k ∧ f = .notPositive k (seconds k)) := by
  cases h with
  | @outOfRange k hmax =>
    constructor
    · intro h
      exact .inl ⟨k, hmax, (Except.error.inj h).symm⟩
    · rintro (⟨j, hj, rfl⟩ | ⟨hrange, -⟩)
      · rw [hj.unique hmax]
      · exact absurd hmax.1 (Nat.not_lt.2 (hrange k))
  | @notPositive k hrange hpos =>
    constructor
    · intro h
      exact .inr ⟨hrange, k, hpos, (Except.error.inj h).symm⟩
    · rintro (⟨j, hj, rfl⟩ | ⟨-, j, hj, rfl⟩)
      · exact absurd hj.1 (Nat.not_lt.2 (hrange j))
      · rw [hj.unique hpos]
  | lifetimes hrange hof =>
    refine ⟨nofun, ?_⟩
    rintro (⟨j, hj, rfl⟩ | ⟨-, j, hj, rfl⟩)
    · have hk := hrange j
      have hbeyond := hj.1
      omega
    · have hk := hrange j
      have hnone := hj.1
      omega

theorem configures_ofSettings (s : Settings) :
    Configures (Expiring.seconds s) (ofSettings s).value := by
  rcases ofSettings_cases s with ⟨k, hk, hvalue⟩ | ⟨d, hd, hvalue⟩
  · rw [hvalue]
    exact .outOfRange hk
  -- durations of whole seconds are above zero exactly when there are some seconds
  have hpos : ∀ k, 0 < (d k).nanos ↔ 0 < k.seconds s := by
    intro k
    have hnanos := (hd k).2
    unfold nanosPerSecond at hnanos
    omega
  rw [hvalue]
  rcases new_cases d with ⟨k, hk, hnew⟩ | ⟨hall, l, hnew, hl⟩
  · rw [hnew, Duration.seconds_of_nanos (hd k).2]
    refine .notPositive (fun k => (hd k).1) ⟨?_, fun j hj hle => hk.2 j hj ?_⟩
    · exact Int.not_lt.1 fun h => absurd ((hpos k).2 h) (Int.not_lt.2 hk.1)
    · exact Int.not_lt.1 fun h => absurd ((hpos j).1 h) (Int.not_lt.2 hle)
  · rw [hnew]
    refine .lifetimes (fun k => ?_) fun k => by rw [hl, (hd k).2]
    have hone := (hpos k).1 (hall k)
    have hmax := (hd k).1
    omega

end Lifetimes

/-! ## Tokens under settings -/

/-- The second at which a token of the settings expires is that of its issue and the seconds that
they give its kind. -/
theorem Request.expiry?_of_seconds {seconds : Expiring → Int} {l : Lifetimes}
    (hof : ∀ k, (l.of k).nanos = seconds k * nanosPerSecond) (r : Request) (n : Int) :
    r.expiry? l n = r.expiring?.map fun k => n + seconds k := by
  rw [expiry?, lifetime?_eq, Option.map_map]
  congr 1
  funext k
  dsimp only [Function.comp_apply]
  rw [hof k, Int.mul_ediv_cancel _ (by decide)]

/-- From settings to the expiry of tokens.  Settings give each kind of token some seconds, and just
one number of them.  There are lifetimes exactly when all three are from one to the most that a
duration may have.  Otherwise the first kind beyond the most seconds is at fault, if there is one,
and else the first that is not above zero.  Under such lifetimes a request is signed exactly when it
is valid and the key loads, as that of an identity does; and a token that is signed expires the
seconds of its own kind after its issue, or not at all if it enrolls. -/
theorem expiry_of_settings (s : Settings) : ∃ seconds : Expiring → Int,
    (∀ k n, k.Given s n ↔ n = seconds k) ∧
    ((∃ l, (Lifetimes.ofSettings s).value = .ok l) ↔
      ∀ k, 1 ≤ seconds k ∧ seconds k ≤ maxSeconds) ∧
    (∀ f, (Lifetimes.ofSettings s).value = .error f ↔
      (∃ k, Expiring.First (fun k => maxSeconds < (seconds k).natAbs) k ∧
        f = .outOfRange k (seconds k)) ∨
      ((∀ k, (seconds k).natAbs ≤ maxSeconds) ∧
        ∃ k, Expiring.First (fun k => seconds k ≤ 0) k ∧ f = .notPositive k (seconds k))) ∧
    (∀ l, (Lifetimes.ofSettings s).value = .ok l → ∀ r now,
      (∀ pem, (∃ token, (Signer.sign ⟨l, pem, none⟩ r now).value = .ok token) ↔
        r.blankField? = none ∧ ∃ key, Key.loadEcPrivate pem = .ok key) ∧
      (∀ bytes i, (Certificate.resolve bytes).value = .ok i → r.blankField? = none →
        ∃ token, (Signer.sign ⟨l, i.privateKeyPem, none⟩ r now).value = .ok token) ∧
      (∀ pem token, (Signer.sign ⟨l, pem, none⟩ r now).value = .ok token →
        ∃ h c sig w, ThreeParts token h c sig ∧ SpellsJson c w ∧
          w.member? "iat" = some (secondClaim now.seconds) ∧
          w.member? "exp" =
            r.expiring?.map fun k => secondClaim (now.seconds + seconds k))) := by
  have hconf := Lifetimes.configures_ofSettings s
  refine ⟨Expiring.seconds s, fun k n => Expiring.given_iff, hconf.exists_ok_iff,
    fun f => hconf.eq_error_iff, fun l hl r now => ?_⟩
  have hsign : ∀ pem token, (Signer.sign ⟨l, pem, none⟩ r now).value = .ok token ↔
      r.blankField? = none ∧
        ∃ key, Key.loadEcPrivate pem = .ok key ∧ token = r.token l key now :=
    fun pem token => issueWithPem_eq_ok_iff
  refine ⟨fun pem => ?_, fun bytes i hi hvalid => ?_, fun pem token htoken => ?_⟩
  · simp only [hsign]
    constructor
    · rintro ⟨token, hvalid, key, hload, -⟩
      exact ⟨hvalid, key, hload⟩
    · rintro ⟨hvalid, key, hload⟩
      exact ⟨_, hvalid, key, hload, rfl⟩
  · obtain ⟨key, hload⟩ := Certificate.exists_signingKey hi
    exact ⟨_, (hsign _ _).2 ⟨hvalid, key, hload, rfl⟩⟩
  · obtain ⟨-, key, -, rfl⟩ := (hsign pem token).1 htoken
    rw [hl] at hconf
    cases hconf with
    | lifetimes hrange hof =>
      refine ⟨_, _, _, .object (r.claimsRow l now.seconds), threeParts_sign key _ _,
        spellsJson_segment_iff.2 (decode_claims l now r), member?_claimsRow_iat l now.seconds r, ?_⟩
      rw [member?_claimsRow_exp, Request.expiry?_of_seconds hof, Option.map_map]
      rfl

/-- Settings in two layers: ninety seconds for sessions with white space and a sign, over five; and
a text that writes no number. -/
def layeredSettings : Settings where
  environment := ⟨[("TOKENSMITH_SESSION_TTL_SECS", " +90 ")]⟩
  entries := [("TOKENSMITH_SESSION_TTL_SECS", "5"), ("TOKENSMITH_ACCESS_TTL_SECS", "1h")]

/-- A session under these settings lasts ninety seconds, and an access the default. -/
theorem expiry_of_settings_ninety_seconds :
    ∃ l, (Lifetimes.ofSettings layeredSettings).value = .ok l ∧
      ∀ r ∈ [Request.session "abc", Request.access "abc"], ∃ token h c sig w,
        (Signer.sign ⟨l, Certificate.fivePem, none⟩ r epoch).value = .ok token ∧
        ThreeParts token h c sig ∧ SpellsJson c w ∧
        w.member? "iat" = some (secondClaim 0) ∧
        w.member? "exp" = some (secondClaim (if r = .session "abc" then 90 else 3600)) := by
  obtain ⟨seconds, hgiven, hok, -, hsign⟩ := expiry_of_settings layeredSettings
  have hseconds : ∀ k n, n = Expiring.seconds layeredSettings k → seconds k = n :=
    fun k n h => ((hgiven k n).1 (Expiring.given_iff.2 h)).symm
  have hclient := hseconds .clientIdentity 315532800 (by decide)
  have hsession := hseconds .session 90 (by decide)
  have haccess := hseconds .access 3600 (by decide)
  obtain ⟨l, hl⟩ := hok.2 (by
    rintro (_ | _ | _)
    · rw [hclient]; decide
    · rw [hsession]; decide
    · rw [haccess]; decide)
  refine ⟨l, hl, fun r hr => ?_⟩
  obtain ⟨hsigned, -, hclaims⟩ := hsign l hl r epoch
  have hvalid : r.blankField? = none := by
    rcases List.mem_pair.1 hr with rfl | rfl <;> decide
  obtain ⟨token, htoken⟩ :=
    (hsigned Certificate.fivePem).2 ⟨hvalid, _, Certificate.loadEcPrivate_fivePem⟩
  obtain ⟨h, c, sig, w, hparts, hspells, hiat, hexp⟩ := hclaims _ token htoken
  refine ⟨token, h, c, sig, w, htoken, hparts, hspells, hiat, ?_⟩
  rw [hexp]
  rcases List.mem_pair.1 hr with rfl | rfl
  · rw [if_pos rfl, ← hsession]
    simp [Request.expiring?, epoch]
  · rw [if_neg (by decide), ← haccess]
    simp [Request.expiring?, epoch]

/-- A lifetime beyond the greatest duration is at fault before one of no seconds that is checked
earlier. -/
example : (Lifetimes.ofSettings ⟨.empty, [("TOKENSMITH_CLIENT_IDENTITY_TTL_SECS", "0"),
    ("TOKENSMITH_ACCESS_TTL_SECS", "-9223372036854776")]⟩).value =
      .error (.outOfRange .access (-9223372036854776)) := by
  decide

end DeviceAuth.Token
