import DeviceAuth.Proofs.Token.Issue

/-!
# DeviceAuth.Proofs.Token.Expiry

When a token has expired as soon as it is issued.  Lifetimes are above zero to the nanosecond, but
a token expires after the whole seconds of its lifetime: below one second these are none, and the
token expires in the second of its issue.  From one second on, no token does.
-/

namespace DeviceAuth.Token

/-! ## Accepted lifetimes -/

/-- Three durations are accepted as lifetimes exactly when each is above zero, and are kept. -/
theorem Lifetimes.new_eq_ok_iff {c s a : Duration} {lifetimes : Lifetimes} :
    Lifetimes.new c s a = .ok lifetimes ↔
      (0 < c.nanos ∧ 0 < s.nanos ∧ 0 < a.nanos) ∧
        (lifetimes.clientIdentity = c ∧ lifetimes.session = s ∧ lifetimes.access = a) := by
  constructor
  · intro h
    unfold Lifetimes.new at h
    split at h
    · next hc =>
      split at h
      · next hs =>
        split at h
        · next ha =>
          rw [Except.ok.injEq] at h
          subst h
          exact ⟨⟨hc, hs, ha⟩, rfl, rfl, rfl⟩
        · contradiction
      · contradiction
    · contradiction
  · rintro ⟨⟨hc, hs, ha⟩, rfl, rfl, rfl⟩
    rw [Lifetimes.new, dif_pos hc, dif_pos hs, dif_pos ha]

/-- A duration has a whole second exactly from a second on. -/
theorem Duration.floor_pos_iff {d : Duration} :
    0 < d.nanos / nanosPerSecond ↔ nanosPerSecond ≤ d.nanos := by
  unfold nanosPerSecond
  omega

/-! ## The second of issue -/

/-- The second of issue in a row of claims is the one at which its request was granted. -/
theorem member?_claimsRow_iat (lifetimes : Lifetimes) (n : Int) (r : Request) :
    (Json.object (r.claimsRow lifetimes n)).member? "iat" = some (.number (.int n)) := by
  cases r with
  | clientIdentity subject idp => rfl
  | session token => rfl
  | access token => rfl
  | enrollment subject imei publicKey => rfl

/-- A request that expires does so after its issue exactly when its lifetime has a whole second. -/
theorem Request.lt_expiry_iff {lifetimes : Lifetimes} {n e : Int} {r : Request} {d : Duration}
    (hd : r.lifetime? lifetimes = some d) (he : r.expiry? lifetimes n = some e) :
    n < e ↔ nanosPerSecond ≤ d.nanos := by
  rw [expiry?, hd, Option.map_some, Option.some.injEq] at he
  rw [← Duration.floor_pos_iff, ← he]
  omega

/-- A verifier finds the token for a request expired only from its expiry on, whether or not its
signature holds. -/
theorem expiry_le_of_expired {lifetimes : Lifetimes} {r : Request} {key : Key.EcPrivate}
    {now : Timestamp} {point : P256.Point} {t e : Int}
    (he : r.expiry? lifetimes now.seconds = some e)
    (h : verify point (r.token lifetimes key now) t = .error .expired) : e ≤ t := by
  have hjudged : Judged point t (r.token lifetimes key now) (.error .tokenExpired) := by
    rw [← verify_judged, h]
    rfl
  cases hjudged with
  | expired hcut hheader hsig hverify hclaims hexp =>
    have hsegments := segments_eq_iff.2 hcut
    rw [Request.token, segments_eq_iff.2 (threeParts_sign key _ _)] at hsegments
    injection hsegments with _ hsegments
    injection hsegments with hc _
    rw [← hc, spellsJson_segment_iff, decode_claims, Except.ok.injEq] at hclaims
    rw [← hclaims, ← hasExpired_iff, hasExpired_claimsRow, he] at hexp
    exact of_decide_eq_true hexp

/-- When tokens are expired as they are issued.  The claims of the token for a valid request that
expires have their expiry after their issue exactly when its lifetime is a second or more.  Then no
verifier finds the token expired in the second of its issue; below a second, the verifier of its
key does, where the signature scheme keeps its promise. -/
theorem expiry_after_issue_iff (lifetimes : Lifetimes) {r : Request} (key : Key.EcPrivate)
    (now : Timestamp) {d : Duration} (hvalid : r.blankField? = none)
    (hd : r.lifetime? lifetimes = some d) :
    ∃ token h c s w iat exp,
      (issue lifetimes r (.ecPrivate key) now).value = .ok token ∧
      ThreeParts token h c s ∧ SpellsJson c w ∧
      w.member? "iat" = some (.number (.int iat)) ∧
      w.member? "exp" = some (.number (.int exp)) ∧
      (iat < exp ↔ nanosPerSecond ≤ d.nanos) ∧
      (nanosPerSecond ≤ d.nanos →
        ∀ point, verify point token now.seconds ≠ .error .expired) ∧
      (d.nanos < nanosPerSecond → key.SignsFor (signingInput h c) →
        verify key.point token now.seconds = .error .expired) := by
  obtain ⟨e, he⟩ : ∃ e, r.expiry? lifetimes now.seconds = some e := by
    rw [Request.expiry?, hd]
    exact ⟨_, rfl⟩
  have hlt := Request.lt_expiry_iff hd he
  refine ⟨_, _, _, _, .object (r.claimsRow lifetimes now.seconds), now.seconds, e,
    issue_of_valid lifetimes key now hvalid, threeParts_sign key _ _,
    spellsJson_segment_iff.2 (decode_claims lifetimes now r),
    member?_claimsRow_iat lifetimes now.seconds r, ?_, hlt, ?_, ?_⟩
  · rw [member?_claimsRow_exp, he]
    rfl
  · intro hlong point hexpired
    exact absurd (expiry_le_of_expired he hexpired) (Int.not_le.2 (hlt.2 hlong))
  · intro hshort hsig
    have hle : e ≤ now.seconds := Int.not_lt.1 (mt hlt.1 (Int.not_le.2 hshort))
    rw [verify_token hsig, he]
    dsimp only
    rw [if_pos hle]

/-- A second. -/
def oneSecond : Duration := ⟨1000000000, by decide⟩

/-- Half a second. -/
def halfSecond : Duration := ⟨500000000, by decide⟩

/-- Lifetimes of a second, but half of one for sessions. -/
def briefLifetimes : Lifetimes where
  clientIdentity := oneSecond
  session := halfSecond
  access := oneSecond
  clientIdentity_pos := by decide
  session_pos := by decide
  access_pos := by decide

/-- A token of one second has not expired in the second of its issue. -/
theorem expiry_after_issue_one_second :
    (Request.access "abc").blankField? = none ∧
    (Request.access "abc").lifetime? briefLifetimes = some oneSecond ∧
    ∃ token, (issue briefLifetimes (.access "abc") (.ecPrivate ⟨5⟩) epoch).value = .ok token ∧
      ∀ point, verify point token 0 ≠ .error .expired := by
  have hvalid : (Request.access "abc").blankField? = none := by decide +kernel
  have hd : (Request.access "abc").lifetime? briefLifetimes = some oneSecond := rfl
  obtain ⟨token, _, _, _, _, _, _, hissue, -, -, -, -, -, hlong, -⟩ :=
    expiry_after_issue_iff briefLifetimes ⟨5⟩ epoch hvalid hd
  exact ⟨hvalid, hd, token, hissue, hlong (by decide)⟩

/-- A token of half a second has expired in the second of its issue, though its lifetime is
accepted: its expiry is the second of its issue. -/
theorem session_expired_at_issue :
    Lifetimes.new oneSecond halfSecond oneSecond = .ok briefLifetimes ∧
    (Request.session "abc").blankField? = none ∧
    ((Request.session "abc").claims briefLifetimes 0).issuedAt = 0 ∧
    ((Request.session "abc").claims briefLifetimes 0).expiry = some 0 ∧
    ∃ token, (issue briefLifetimes (.session "abc") (.ecPrivate ⟨5⟩) epoch).value = .ok token ∧
      verify (P256.baseMultiple 5) token 0 = .error .expired := by
  have hnew : Lifetimes.new oneSecond halfSecond oneSecond = .ok briefLifetimes := rfl
  have hvalid : (Request.session "abc").blankField? = none := by decide +kernel
  have hsig : (⟨5⟩ : Key.EcPrivate).SignsFor
      ((Request.session "abc").message briefLifetimes epoch) := by
    rw [Request.message, signingInput_segment, Key.EcPrivate.SignsFor]
    decide +kernel
  exact ⟨hnew, hvalid, rfl, rfl, _, issue_of_valid briefLifetimes ⟨5⟩ epoch hvalid,
    verify_token hsig 0⟩

end DeviceAuth.Token
