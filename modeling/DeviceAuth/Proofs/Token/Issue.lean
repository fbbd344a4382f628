import DeviceAuth.Proofs.Json.Record
import DeviceAuth.Proofs.Token.RoundTrip
import DeviceAuth.Token.Issue

/-!
# DeviceAuth.Proofs.Token.Issue

What is issued for a request and what a verifier makes of it.  The table of claims has one row for
each kind of request (`Request.headerRow`, `Request.claimsRow`): the members of the header and of
the claims, in order of their names.  A valid request is always granted, and its token verifies to
just its row until it expires.
-/

namespace DeviceAuth.Token

open Json (recordMembers sortMembers insertMember)

/-! ## Lifetimes -/

/-- The lifetime of the token for a request, unless it does not expire. -/
def Request.lifetime? (lifetimes : Lifetimes) : Request → Option Duration
  | .clientIdentity .. => some lifetimes.clientIdentity
  | .session .. => some lifetimes.session
  | .access .. => some lifetimes.access
  | .enrollment .. => none

/-- The second at which the token for a request expires that is granted at another, if it does:
after the whole seconds of its lifetime, rounded down. -/
def Request.expiry? (lifetimes : Lifetimes) (n : Int) (r : Request) : Option Int :=
  (r.lifetime? lifetimes).map fun d => n + d.nanos / nanosPerSecond

/-- Lifetimes are above zero. -/
theorem Request.lifetime_pos {lifetimes : Lifetimes} {r : Request} {d : Duration}
    (h : r.lifetime? lifetimes = some d) : 0 < d.nanos := by
  cases r with
  | clientIdentity subject idp =>
    rw [lifetime?, Option.some.injEq] at h
    rw [← h]
    exact lifetimes.clientIdentity_pos
  | session token =>
    rw [lifetime?, Option.some.injEq] at h
    rw [← h]
    exact lifetimes.session_pos
  | access token =>
    rw [lifetime?, Option.some.injEq] at h
    rw [← h]
    exact lifetimes.access_pos
  | enrollment subject imei publicKey => contradiction

/-- A duration that is not negative is rounded down to its whole seconds. -/
theorem Duration.seconds_eq_ediv {d : Duration} (h : 0 < d.nanos) :
    d.seconds = d.nanos / nanosPerSecond :=
  Int.tdiv_eq_ediv_of_nonneg (Int.le_of_lt h)

/-- The whole seconds of a lifetime. -/
theorem Duration.floor_bounds {d : Duration} (h : 0 < d.nanos) :
    0 ≤ d.nanos / nanosPerSecond ∧ d.nanos / nanosPerSecond ≤ 9223372036854775 := by
  have hmax := d.bounded.2
  unfold maxNanos at hmax
  unfold nanosPerSecond
  omega

/-- The claims of a request expire as its lifetime says. -/
theorem Request.claims_expiry (lifetimes : Lifetimes) (n : Int) (r : Request) :
    (r.claims lifetimes n).expiry = r.expiry? lifetimes n := by
  cases r with
  | clientIdentity subject idp =>
    rw [expiry?, lifetime?, Option.map_some, claims,
      Duration.seconds_eq_ediv lifetimes.clientIdentity_pos]
  | session token =>
    rw [expiry?, lifetime?, Option.map_some, claims,
      Duration.seconds_eq_ediv lifetimes.session_pos]
  | access token =>
    rw [expiry?, lifetime?, Option.map_some, claims,
      Duration.seconds_eq_ediv lifetimes.access_pos]
  | enrollment subject imei publicKey => rfl

/-- A token expires within the integers of 64 bits, whenever it is issued. -/
theorem Request.expiry_bounds {lifetimes : Lifetimes} {now : Timestamp} {r : Request} {e : Int}
    (h : r.expiry? lifetimes now.seconds = some e) : -(2 ^ 63) ≤ e ∧ e < 2 ^ 63 := by
  rw [expiry?, Option.map_eq_some_iff] at h
  obtain ⟨d, hd, rfl⟩ := h
  have hfloor := Duration.floor_bounds (lifetime_pos hd)
  have hnow := now.inRange
  unfold firstSecond lastSecond at hnow
  omega

/-! ## The table of claims -/

/-- The member with the certificate chain of an enrollment: its public key, if it has one that is
not blank. -/
def chainRow : Option String → List (String × Json)
  | some b => if Text.blank b then [] else [("x5c", .array [.string b])]
  | none => []

/-- The header of the token for a request. -/
def Request.headerRow : Request → List (String × Json)
  | .enrollment subject _ publicKey =>
    [("alg", .string "ES256"), ("kid", .string subject), ("typ", .string "JWT")] ++
      chainRow publicKey
  | _ => [("alg", .string "ES256"), ("typ", .string "JWT")]

/-- The member with the digest of an identity provider's token, if there is one. -/
def digestRow : Option String → List (String × Json)
  | some token => [("idp_at", .string (Digest.text token))]
  | none => []

/-- The second in a claim. -/
def secondClaim (n : Int) : Json := .number (.int n)

/-- The claims of the token for a request that is granted at a second. -/
def Request.claimsRow (lifetimes : Lifetimes) (n : Int) : Request → List (String × Json)
  | .clientIdentity subject idp =>
    [("aud", .array [.string "PTSDIRECT.ORG"]), ("cdt", secondClaim n),
      ("exp", secondClaim (n + lifetimes.clientIdentity.nanos / nanosPerSecond)),
      ("iat", secondClaim n)] ++ digestRow idp ++
      [("scope", .string "all"), ("sub", .string subject)]
  | .session token =>
    [("aud", .array [.string "PTSDIRECT.ORG"]),
      ("exp", secondClaim (n + lifetimes.session.nanos / nanosPerSecond)),
      ("iat", secondClaim n), ("st", .string token), ("sub", .string "session")]
  | .access token =>
    [("at", .string token), ("aud", .array [.string "PTSDIRECT.ORG"]),
      ("exp", secondClaim (n + lifetimes.access.nanos / nanosPerSecond)),
      ("iat", secondClaim n), ("sub", .string "access")]
  | .enrollment subject imei _ =>
    [("aud", .array [.string "kpe_v2"]), ("iat", secondClaim n), ("imei", .string imei),
      ("sub", .string subject)]

/-- The certificate chain of an enrollment is there exactly when its member is. -/
theorem chainOf_cases (publicKey : Option String) :
    (chainOf publicKey = none ∧ chainRow publicKey = []) ∨
      ∃ b, chainOf publicKey = some [b] ∧ chainRow publicKey = [("x5c", .array [.string b])] := by
  cases publicKey with
  | none => exact .inl ⟨rfl, rfl⟩
  | some b =>
    cases hb : Text.blank b with
    | true =>
      refine .inl ⟨?_, by rw [chainRow, if_pos hb]⟩
      rw [chainOf, Option.filter_some, if_neg (by rw [hb]; decide)]
      rfl
    | false =>
      refine .inr ⟨b, ?_, by rw [chainRow, if_neg (by rw [hb]; decide)]⟩
      rw [chainOf, Option.filter_some, if_pos (by rw [hb]; rfl)]
      rfl

/-- The members of a header, in order, are those of its row. -/
theorem sortMembers_header (r : Request) :
    sortMembers (recordMembers Header.fields r.header.values) = r.headerRow := by
  cases r with
  | clientIdentity _ _ | session _ | access _ => rfl
  | enrollment subject imei publicKey =>
    rw [Request.header, Request.headerRow]
    rcases chainOf_cases publicKey with ⟨hchain, hrow⟩ | ⟨b, hchain, hrow⟩
    · rw [hchain, hrow]
      rfl
    · rw [hchain, hrow]
      rfl

/-- The members of claims, in order, are those of their row. -/
theorem sortMembers_claims (lifetimes : Lifetimes) (n : Int) (r : Request) :
    sortMembers (recordMembers Claims.fields (r.claims lifetimes n).values) =
      r.claimsRow lifetimes n := by
  cases r with
  | clientIdentity subject idp =>
    rw [Request.claims, Request.claimsRow, Duration.seconds_eq_ediv lifetimes.clientIdentity_pos]
    cases idp with
    | none => rfl
    | some token => rfl
  | session token =>
    rw [Request.claims, Request.claimsRow, Duration.seconds_eq_ediv lifetimes.session_pos]
    rfl
  | access token =>
    rw [Request.claims, Request.claimsRow, Duration.seconds_eq_ediv lifetimes.access_pos]
    rfl
  | enrollment subject imei publicKey => rfl

/-! ## What a verifier reads -/

theorem fits_textValue (s : Option String) : (textValue s).Fits := by
  cases s <;> trivial

/-- The header of a request is read as its row. -/
theorem decode_header (r : Request) : Json.decode r.header.encode = .ok (.object r.headerRow) := by
  have hfits : ∀ v ∈ r.header.values, v.Fits := by
    intro v hv
    simp only [Header.values, List.mem_cons, List.not_mem_nil, or_false] at hv
    rcases hv with rfl | rfl | rfl | rfl
    · trivial
    · trivial
    · exact fits_textValue _
    · cases r.header.chain <;> trivial
  rw [Header.encode, Json.decode_encodeRecord hfits, sortMembers_header]

/-- The times in the token for a request that is granted at a second have 64 bits. -/
structure Request.TimesFit (lifetimes : Lifetimes) (n : Int) (r : Request) : Prop where
  issue : -(2 ^ 63) ≤ n ∧ n < 2 ^ 63
  expiry : ∀ e, r.expiry? lifetimes n = some e → e < 2 ^ 63

/-- Within the calendar they do. -/
theorem Request.timesFit_seconds (lifetimes : Lifetimes) (now : Timestamp) (r : Request) :
    r.TimesFit lifetimes now.seconds := by
  have hnow := now.inRange
  unfold firstSecond lastSecond at hnow
  exact ⟨⟨by omega, by omega⟩, fun e he => (expiry_bounds he).2⟩

/-- Times of 64 bits fit the claims of a request. -/
theorem fits_claims {lifetimes : Lifetimes} {n : Int} {r : Request} (h : r.TimesFit lifetimes n) :
    ∀ v ∈ (r.claims lifetimes n).values, v.Fits := by
  have hsecond : (Json.FieldValue.integer n).Fits := h.issue
  have hexpiry : (integerValue (r.claims lifetimes n).expiry).Fits := by
    rw [Request.claims_expiry]
    cases he : r.expiry? lifetimes n with
    | none => trivial
    | some e =>
      have hbelow := h.expiry e he
      rw [Request.expiry?, Option.map_eq_some_iff] at he
      obtain ⟨d, hd, rfl⟩ := he
      have hfloor := Duration.floor_bounds (Request.lifetime_pos hd)
      have hissue := h.issue.1
      exact ⟨by omega, hbelow⟩
  have hissued : (r.claims lifetimes n).issuedAt = n := by
    cases r <;> rfl
  have hcreated : (integerValue (r.claims lifetimes n).created).Fits := by
    cases r with
    | clientIdentity _ _ => exact hsecond
    | session _ | access _ | enrollment _ _ _ => trivial
  intro v hv
  simp only [Claims.values, List.mem_cons, List.not_mem_nil, or_false] at hv
  rcases hv with rfl | rfl | rfl | rfl | rfl | rfl | rfl | rfl | rfl | rfl
  · trivial
  · trivial
  · exact hcreated
  · exact fits_textValue _
  · exact fits_textValue _
  · exact fits_textValue _
  · exact fits_textValue _
  · exact fits_textValue _
  · rw [hissued]
    exact hsecond
  · exact hexpiry

/-- Claims with times of 64 bits are read as their row. -/
theorem decode_claims_of_timesFit {lifetimes : Lifetimes} {n : Int} {r : Request}
    (h : r.TimesFit lifetimes n) :
    Json.decode (r.claims lifetimes n).encode = .ok (.object (r.claimsRow lifetimes n)) := by
  rw [Claims.encode, Json.decode_encodeRecord (fits_claims h), sortMembers_claims]

/-- The claims of a request are read as its row. -/
theorem decode_claims (lifetimes : Lifetimes) (now : Timestamp) (r : Request) :
    Json.decode (r.claims lifetimes now.seconds).encode =
      .ok (.object (r.claimsRow lifetimes now.seconds)) :=
  decode_claims_of_timesFit (r.timesFit_seconds lifetimes now)

/-- The expiry in a row of claims is the one of its request. -/
theorem member?_claimsRow_exp (lifetimes : Lifetimes) (n : Int) (r : Request) :
    (Json.object (r.claimsRow lifetimes n)).member? "exp" =
      (r.expiry? lifetimes n).map secondClaim := by
  cases r <;> rfl

/-- The claims of a request have expired from its expiry on. -/
theorem hasExpired_claimsRow (lifetimes : Lifetimes) (now : Timestamp) (r : Request) (t : Int) :
    hasExpired (.object (r.claimsRow lifetimes now.seconds)) t =
      match r.expiry? lifetimes now.seconds with
      | some e => decide (e ≤ t)
      | none => false := by
  rw [hasExpired, member?_claimsRow_exp]
  cases he : r.expiry? lifetimes now.seconds with
  | none => rfl
  | some e =>
    rw [Option.map_some, Option.bind_some, secondClaim,
      int64?_eq_some_iff.2 ⟨rfl, Request.expiry_bounds he⟩]

/-! ## Issuing and verifying -/

/-- The token for a request with a key. -/
def Request.token (lifetimes : Lifetimes) (key : Key.EcPrivate) (now : Timestamp) (r : Request) :
    String :=
  Token.sign key r.header.encode (r.claims lifetimes now.seconds).encode

/-- The message that the signature in the token for a request is of. -/
def Request.message (lifetimes : Lifetimes) (now : Timestamp) (r : Request) : List UInt8 :=
  signingInput (segment r.header.encode) (segment (r.claims lifetimes now.seconds).encode)

/-- The header and the claims of the token for a request, as its row of the table has them. -/
def Request.row (lifetimes : Lifetimes) (n : Int) (r : Request) : Verified :=
  ⟨.object r.headerRow, .object (r.claimsRow lifetimes n)⟩

/-- A valid request is granted. -/
theorem issue_of_valid (lifetimes : Lifetimes) {r : Request} (key : Key.EcPrivate) (now : Timestamp)
    (hvalid : r.blankField? = none) :
    (issue lifetimes r (.ecPrivate key) now).value = .ok (r.token lifetimes key now) := by
  rw [issue, hvalid]
  rfl

/-- A request is granted with the key of a PEM text exactly when it is valid and the key loads. -/
theorem issueWithPem_eq_ok_iff {lifetimes : Lifetimes} {r : Request} {pem token : String}
    {now : Timestamp} :
    (issueWithPem lifetimes r pem now).value = .ok token ↔ r.blankField? = none ∧
      ∃ key, Key.loadEcPrivate pem = .ok key ∧ token = r.token lifetimes key now := by
  rw [issueWithPem]
  cases hvalid : r.blankField? with
  | some f => exact ⟨nofun, nofun⟩
  | none =>
    cases hload : Key.loadEcPrivate pem with
    | error f => exact ⟨nofun, nofun⟩
    | ok key =>
      constructor
      · intro h
        exact ⟨rfl, key, rfl, (Except.ok.inj h).symm⟩
      · rintro ⟨-, other, hother, rfl⟩
        rw [← Except.ok.inj hother]
        rfl

/-- The header of every row names the algorithm. -/
theorem namesAlgorithm_headerRow (r : Request) : NamesAlgorithm (.object r.headerRow) := by
  cases r <;> rfl

/-- What a verifier of the token for a request gives: its row, until it expires. -/
theorem verify_token {lifetimes : Lifetimes} {r : Request} {key : Key.EcPrivate} {now : Timestamp}
    (hsig : key.SignsFor (r.message lifetimes now)) (t : Int) :
    verify key.point (r.token lifetimes key now) t =
      match r.expiry? lifetimes now.seconds with
      | some e => if e ≤ t then .error .expired else .ok (r.row lifetimes now.seconds)
      | none => .ok (r.row lifetimes now.seconds) := by
  rw [Request.token, verify_sign (decode_header r) (decode_claims lifetimes now r)
    (namesAlgorithm_headerRow r) hsig, hasExpired_claimsRow]
  cases r.expiry? lifetimes now.seconds with
  | none => rfl
  | some e =>
    dsimp only
    simp only [decide_eq_true_eq]
    rfl

/-- Issuing and verifying.  Whenever it is asked for, a valid request is granted its token; where
the signature scheme keeps its promise, the token verifies to the row of the request at every time
before its expiry, and at every time if it has none, and has expired from its expiry on. -/
theorem verify_issue (lifetimes : Lifetimes) (r : Request) (key : Key.EcPrivate) (now : Timestamp)
    (hvalid : r.blankField? = none) :
    (issue lifetimes r (.ecPrivate key) now).value = .ok (r.token lifetimes key now) ∧
    (key.SignsFor (r.message lifetimes now) → ∀ t : Int,
      (verify key.point (r.token lifetimes key now) t).mapError VerifyFault.refusal =
        match r.expiry? lifetimes now.seconds with
        | some e => if t < e then .ok (r.row lifetimes now.seconds) else .error .tokenExpired
        | none => .ok (r.row lifetimes now.seconds)) := by
  refine ⟨issue_of_valid lifetimes key now hvalid, fun hsig t => ?_⟩
  rw [verify_token hsig t]
  cases r.expiry? lifetimes now.seconds with
  | none => rfl
  | some e =>
    dsimp only
    by_cases het : e ≤ t
    · rw [if_pos het, if_neg (Int.not_lt.2 het)]
      rfl
    · rw [if_neg het, if_pos (Int.not_le.1 het)]
      rfl

/-- The first second of 1970. -/
def epoch : Timestamp := ⟨0, 0, by decide, by decide⟩

/-- A client with a quote and a dot in its name, for ten years from the first second of 1970. -/
theorem verify_issue_ten_years :
    (Request.clientIdentity "\"." (some "abc")).blankField? = none ∧
    (⟨5⟩ : Key.EcPrivate).SignsFor
      ((Request.clientIdentity "\"." (some "abc")).message .default epoch) ∧
    verify (P256.baseMultiple 5)
      ((Request.clientIdentity "\"." (some "abc")).token .default ⟨5⟩ epoch) 315532799 =
      .ok ⟨.object [("alg", .string "ES256"), ("typ", .string "JWT")],
        .object [("aud", .array [.string "PTSDIRECT.ORG"]), ("cdt", .number (.int 0)),
          ("exp", .number (.int 315532800)), ("iat", .number (.int 0)),
          ("idp_at", .string "17862"), ("scope", .string "all"), ("sub", .string "\".")]⟩ ∧
    (verify (P256.baseMultiple 5)
      ((Request.clientIdentity "\"." (some "abc")).token .default ⟨5⟩ epoch) 315532800).mapError
      VerifyFault.refusal = .error .tokenExpired := by
  have hvalid : (Request.clientIdentity "\"." (some "abc")).blankField? = none := by decide +kernel
  have hsig : (⟨5⟩ : Key.EcPrivate).SignsFor
      ((Request.clientIdentity "\"." (some "abc")).message .default epoch) := by
    rw [Request.message, signingInput_segment, Key.EcPrivate.SignsFor]
    decide +kernel
  have hrun := (verify_issue .default (.clientIdentity "\"." (some "abc")) ⟨5⟩ epoch hvalid).2 hsig
  refine ⟨hvalid, hsig, ?_, hrun 315532800⟩
  exact mapError_eq_ok_iff.1 (hrun 315532799)

end DeviceAuth.Token
