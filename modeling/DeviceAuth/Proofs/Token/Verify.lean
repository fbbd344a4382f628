import DeviceAuth.Proofs.Json.Value
import DeviceAuth.Proofs.Token.Compact

/-!
# DeviceAuth.Proofs.Token.Verify

What a verifier accepts, and why it refuses the rest.  The tests of a token are stated one by one,
as relations between texts and what they spell; `Judged` is the order in which they decide, with
one rule for each way in which a token can end, and a verifier gives exactly the outcome that is
judged (`verify_judged`).

The section is layered like the verifier: what each part of a token is read as, then the
outcome of all tests together, then what follows from the order in which they are made.
-/

namespace DeviceAuth.Token

/-! ## What the parts are read as -/

/-- A part spells bytes that are a JSON text. -/
def SpellsJson (s : String) (v : Json) : Prop :=
  ∃ bytes, s = segment bytes ∧ Json.decode bytes = .ok v

/-- A header names the algorithm of every token. -/
def NamesAlgorithm (header : Json) : Prop :=
  header.member? "alg" = some (.string "ES256")

/-- A part spells sixty-four bytes, the halves of which are scalars. -/
def SpellsSignature (s : String) (sig : P256.Signature) : Prop :=
  ∃ a b : List UInt8, a.length = 32 ∧ b.length = 32 ∧ s = segment (a ++ b) ∧
    sig = ⟨beNat a, beNat b⟩ ∧ (0 < sig.r ∧ sig.r < P256.order) ∧ (0 < sig.s ∧ sig.s < P256.order)

/-- Claims have an integer of 64 bits as their expiry, and it has come. -/
def Expired (claims : Json) (now : Int) : Prop :=
  ∃ t : Int, claims.member? "exp" = some (.number (.int t)) ∧
    (-(2 ^ 63) ≤ t ∧ t < 2 ^ 63) ∧ t ≤ now

theorem readPart_eq_ok_iff {part : Part} {s : String} {v : Json} :
    readPart part s = .ok v ↔ SpellsJson s v := by
  unfold readPart
  constructor
  · intro h
    cases hread : Base64.decodeText .urlSafe .none s with
    | error e =>
      rw [hread] at h
      contradiction
    | ok bytes =>
      rw [hread] at h
      exact ⟨bytes, decodeText_segment_iff.1 hread, mapError_eq_ok_iff.1 h⟩
  · rintro ⟨bytes, hs, hv⟩
    rw [decodeText_segment_iff.2 hs]
    exact mapError_eq_ok_iff.2 hv

/-- The segment of some bytes spells what they are read as, and nothing else. -/
theorem spellsJson_segment_iff {bytes : List UInt8} {v : Json} :
    SpellsJson (segment bytes) v ↔ Json.decode bytes = .ok v := by
  constructor
  · rintro ⟨bytes', hbytes, hv⟩
    have hsame := decodeText_segment_iff.2 hbytes
    rw [decodeText_segment, Except.ok.injEq] at hsame
    rwa [hsame]
  · intro hv
    exact ⟨bytes, rfl, hv⟩

theorem algorithmOf?_eq_iff {header : Json} :
    algorithmOf? header = some algorithmName ↔ NamesAlgorithm header := by
  rw [algorithmOf?, Option.bind_eq_some_iff, NamesAlgorithm]
  constructor
  · rintro ⟨v, hv, htext⟩
    cases v with
    | string s =>
      rw [Json.text?, Option.some.injEq] at htext
      rw [hv, htext]
      rfl
    | null | bool _ | number _ | array _ | object _ => contradiction
  · intro h
    exact ⟨_, h, rfl⟩

theorem readSignature?_eq_some_iff {s : String} {sig : P256.Signature} :
    readSignature? s = some sig ↔ SpellsSignature s sig := by
  unfold readSignature?
  constructor
  · intro h
    cases hread : Base64.decodeText .urlSafe .none s with
    | error e =>
      rw [hread] at h
      contradiction
    | ok bytes =>
      rw [hread] at h
      obtain ⟨a, b, ha, hb, rfl, hsig, hr, hs⟩ := P256.Signature.of_decode? h
      exact ⟨a, b, ha, hb, decodeText_segment_iff.1 hread, hsig, P256.isScalar_iff.1 hr,
        P256.isScalar_iff.1 hs⟩
  · rintro ⟨a, b, ha, hb, hspell, rfl, hr, hs⟩
    rw [decodeText_segment_iff.2 hspell]
    exact P256.Signature.decode?_append ha hb (P256.isScalar_iff.2 hr) (P256.isScalar_iff.2 hs)

theorem int64?_eq_some_iff {v : Json} {t : Int} :
    v.int64? = some t ↔ v = .number (.int t) ∧ -(2 ^ 63) ≤ t ∧ t < 2 ^ 63 := by
  cases v with
  | number n =>
    cases n with
    | int n =>
      have hbounds : (Text.int64Min ≤ n ∧ n ≤ Text.int64Max) ↔ (-(2 ^ 63) ≤ n ∧ n < 2 ^ 63) := by
        unfold Text.int64Min Text.int64Max
        omega
      rw [Json.int64?]
      constructor
      · intro h
        split at h
        · next hn =>
          rw [Option.some.injEq] at h
          subst h
          exact ⟨rfl, hbounds.1 hn⟩
        · contradiction
      · rintro ⟨heq, hn⟩
        injection heq with heq
        injection heq with heq
        subst heq
        rw [if_pos (hbounds.2 hn)]
    | float x => simp [Json.int64?]
  | null | bool _ | string _ | array _ | object _ => simp [Json.int64?]

theorem hasExpired_iff {claims : Json} {now : Int} :
    hasExpired claims now = true ↔ Expired claims now := by
  unfold hasExpired Expired
  constructor
  · intro h
    cases hexp : (claims.member? "exp").bind Json.int64? with
    | none =>
      rw [hexp] at h
      contradiction
    | some t =>
      rw [hexp] at h
      obtain ⟨v, hv, hint⟩ := Option.bind_eq_some_iff.1 hexp
      obtain ⟨rfl, hbounds⟩ := int64?_eq_some_iff.1 hint
      exact ⟨t, hv, hbounds, of_decide_eq_true h⟩
  · rintro ⟨t, hv, hbounds, hnow⟩
    rw [hv, Option.bind_some, int64?_eq_some_iff.2 ⟨rfl, hbounds⟩]
    exact decide_eq_true hnow

/-- An expiry that has come stays behind. -/
theorem Expired.mono {claims : Json} {t t' : Int} (h : Expired claims t) (ht : t ≤ t') :
    Expired claims t' := by
  obtain ⟨e, he, hbounds, hle⟩ := h
  exact ⟨e, he, hbounds, Int.le_trans hle ht⟩

/-! ## The outcome of all tests -/

/-- The errors of verification that a caller tells apart. -/
inductive Refusal where
  | invalidToken
  | invalidSignature
  | tokenExpired
  | key
  deriving DecidableEq, Repr

/-- The error that a fault is reported as. -/
def VerifyFault.refusal : VerifyFault → Refusal
  | .segments _ | .notBase64 .. | .notJson .. | .algorithm _ => .invalidToken
  | .signature => .invalidSignature
  | .expired => .tokenExpired
  | .key _ => .key

/-- The header of a token that can be verified at all. -/
def SpellsHeader (s : String) (header : Json) : Prop :=
  SpellsJson s header ∧ NamesAlgorithm header

/-- What becomes of a token: the tests in their order, each rule with the tests that hold before
the one that decides. -/
inductive Judged (key : P256.Point) (now : Int) (token : String) : Except Refusal Verified → Prop
  /-- The token does not have three parts. -/
  | miscut (hcut : ∀ h c s, ¬ ThreeParts token h c s) : Judged key now token (.error .invalidToken)
  /-- The header is no JSON text with the algorithm. -/
  | header {h c s : String} (hcut : ThreeParts token h c s) (hheader : ∀ v, ¬ SpellsHeader h v) :
    Judged key now token (.error .invalidToken)
  /-- The signature is no pair of scalars. -/
  | signature {h c s : String} {v : Json} (hcut : ThreeParts token h c s)
    (hheader : SpellsHeader h v) (hsig : ∀ sig, ¬ SpellsSignature s sig) :
    Judged key now token (.error .invalidSignature)
  /-- The signature is not one of the header and the claims as they stand in the token. -/
  | forged {h c s : String} {v : Json} {sig : P256.Signature} (hcut : ThreeParts token h c s)
    (hheader : SpellsHeader h v) (hsig : SpellsSignature s sig)
    (hverify : P256.verify key (signingInput h c) sig = false) :
    Judged key now token (.error .invalidSignature)
  /-- The claims are no JSON text. -/
  | claims {h c s : String} {v : Json} {sig : P256.Signature} (hcut : ThreeParts token h c s)
    (hheader : SpellsHeader h v) (hsig : SpellsSignature s sig)
    (hverify : P256.verify key (signingInput h c) sig = true) (hclaims : ∀ w, ¬ SpellsJson c w) :
    Judged key now token (.error .invalidToken)
  /-- The time of expiry has come. -/
  | expired {h c s : String} {v w : Json} {sig : P256.Signature} (hcut : ThreeParts token h c s)
    (hheader : SpellsHeader h v) (hsig : SpellsSignature s sig)
    (hverify : P256.verify key (signingInput h c) sig = true) (hclaims : SpellsJson c w)
    (hexp : Expired w now) : Judged key now token (.error .tokenExpired)
  /-- All tests hold. -/
  | accepted {h c s : String} {v w : Json} {sig : P256.Signature} (hcut : ThreeParts token h c s)
    (hheader : SpellsHeader h v) (hsig : SpellsSignature s sig)
    (hverify : P256.verify key (signingInput h c) sig = true) (hclaims : SpellsJson c w)
    (hexp : ¬ Expired w now) : Judged key now token (.ok ⟨v, w⟩)

/-- Some rule applies to every token. -/
theorem exists_judged (key : P256.Point) (now : Int) (token : String) :
    ∃ r, Judged key now token r := by
  by_cases hcut : ∃ h c s, ThreeParts token h c s
  swap
  · exact ⟨_, .miscut fun h c s hparts => hcut ⟨h, c, s, hparts⟩⟩
  obtain ⟨h, c, s, hcut⟩ := hcut
  by_cases hheader : ∃ v, SpellsHeader h v
  swap
  · exact ⟨_, .header hcut fun v hv => hheader ⟨v, hv⟩⟩
  obtain ⟨v, hheader⟩ := hheader
  by_cases hsig : ∃ sig, SpellsSignature s sig
  swap
  · exact ⟨_, .signature hcut hheader fun sig h => hsig ⟨sig, h⟩⟩
  obtain ⟨sig, hsig⟩ := hsig
  cases hverify : P256.verify key (signingInput h c) sig with
  | false => exact ⟨_, .forged hcut hheader hsig hverify⟩
  | true =>
    by_cases hclaims : ∃ w, SpellsJson c w
    swap
    · exact ⟨_, .claims hcut hheader hsig hverify fun w hw => hclaims ⟨w, hw⟩⟩
    obtain ⟨w, hclaims⟩ := hclaims
    by_cases hexp : Expired w now
    · exact ⟨_, .expired hcut hheader hsig hverify hclaims hexp⟩
    · exact ⟨_, .accepted hcut hheader hsig hverify hclaims hexp⟩

/-- A part that is no JSON text makes the token invalid. -/
theorem exists_readPart_error (part : Part) {s : String} (h : ∀ v, ¬ SpellsJson s v) :
    ∃ f, readPart part s = .error f ∧ f.refusal = .invalidToken := by
  unfold readPart
  cases hread : Base64.decodeText .urlSafe .none s with
  | error e => exact ⟨.notBase64 part e, rfl, rfl⟩
  | ok bytes =>
    dsimp only
    cases hv : Json.decode bytes with
    | error e => exact ⟨.notJson part e, rfl, rfl⟩
    | ok v => exact absurd ⟨bytes, decodeText_segment_iff.1 hread, hv⟩ (h v)

section Stages

variable {key : P256.Point} {token h c s : String} {v : Json} {sig : P256.Signature} {now : Int}

theorem verify_of_threeParts (hcut : ThreeParts token h c s) :
    verify key token now = verifySegments key h c s now := by
  rw [verify, segments_eq_iff.2 hcut]

/-- Behind a header that holds, the signature decides. -/
theorem verifySegments_of_header (hheader : SpellsHeader h v) :
    verifySegments key h c s now = (do
      let some sig := readSignature? s | throw .signature
      if !P256.verify key (signingInput h c) sig then throw .signature
      let w ← readPart .claims c
      if hasExpired w now then throw .expired
      return ⟨v, w⟩) := by
  rw [verifySegments, readPart_eq_ok_iff.2 hheader.1]
  dsimp only [bind, Except.bind]
  exact if_neg (not_not_intro (algorithmOf?_eq_iff.2 hheader.2))

/-- Behind a signature that holds, the claims decide. -/
theorem verifySegments_of_signature (hheader : SpellsHeader h v) (hsig : SpellsSignature s sig)
    (hverify : P256.verify key (signingInput h c) sig = true) :
    verifySegments key h c s now = (do
      let w ← readPart .claims c
      if hasExpired w now then throw .expired
      return ⟨v, w⟩) := by
  rw [verifySegments_of_header hheader, readSignature?_eq_some_iff.2 hsig]
  dsimp only
  rw [hverify]
  rfl

end Stages

/-- A token that is not cut into three parts has another number of segments. -/
theorem verify_of_miscut {key : P256.Point} {token : String} {now : Int}
    (hcut : ∀ h c s, ¬ ThreeParts token h c s) :
    verify key token now = .error (.segments (segments token).length) := by
  unfold verify
  split
  · next h c s hseg => exact absurd (segments_eq_iff.1 hseg) (hcut h c s)
  · rfl

/-- A header that does not hold makes the token invalid, whatever else is in it. -/
theorem verifySegments_of_not_header {h : String} (hheader : ∀ v, ¬ SpellsHeader h v) :
    ∃ f, f.refusal = .invalidToken ∧
      ∀ key c s now, verifySegments key h c s now = .error f := by
  cases hread : readPart .header h with
  | error f =>
    refine ⟨f, ?_, fun key c s now => ?_⟩
    · by_cases hjson : ∃ v, SpellsJson h v
      · obtain ⟨v, hv⟩ := hjson
        rw [readPart_eq_ok_iff.2 hv] at hread
        contradiction
      · obtain ⟨f', hf', hrefusal⟩ :=
          exists_readPart_error .header fun v hv => hjson ⟨v, hv⟩
        rw [hread, Except.error.injEq] at hf'
        rw [hf', hrefusal]
    · rw [verifySegments, hread]
      rfl
  | ok v =>
    have halg : algorithmOf? v ≠ some algorithmName := fun h =>
      hheader v ⟨readPart_eq_ok_iff.1 hread, algorithmOf?_eq_iff.1 h⟩
    refine ⟨.algorithm (algorithmOf? v), rfl, fun key c s now => ?_⟩
    rw [verifySegments, hread]
    dsimp only [bind, Except.bind]
    rw [if_pos halg]
    rfl

/-- A token ends as it is judged. -/
theorem outcome_of_judged {key : P256.Point} {token : String} {now : Int}
    {r : Except Refusal Verified} (h : Judged key now token r) :
    (verify key token now).mapError VerifyFault.refusal = r := by
  cases h with
  | miscut hcut =>
    rw [verify_of_miscut hcut]
    rfl
  | header hcut hheader =>
    obtain ⟨f, hrefusal, hf⟩ := verifySegments_of_not_header hheader
    rw [verify_of_threeParts hcut, hf, Except.mapError, hrefusal]
  | signature hcut hheader hsig =>
    rw [verify_of_threeParts hcut, verifySegments_of_header hheader]
    cases hread : readSignature? _ with
    | none => rfl
    | some sig => exact absurd (readSignature?_eq_some_iff.1 hread) (hsig sig)
  | forged hcut hheader hsig hverify =>
    rw [verify_of_threeParts hcut, verifySegments_of_header hheader,
      readSignature?_eq_some_iff.2 hsig]
    dsimp only
    rw [hverify]
    rfl
  | claims hcut hheader hsig hverify hclaims =>
    obtain ⟨f, hf, hrefusal⟩ := exists_readPart_error .claims hclaims
    rw [verify_of_threeParts hcut, verifySegments_of_signature hheader hsig hverify, hf]
    exact congrArg Except.error hrefusal
  | expired hcut hheader hsig hverify hclaims hexp =>
    rw [verify_of_threeParts hcut, verifySegments_of_signature hheader hsig hverify,
      readPart_eq_ok_iff.2 hclaims]
    dsimp only [bind, Except.bind]
    rw [if_pos (hasExpired_iff.2 hexp)]
    rfl
  | accepted hcut hheader hsig hverify hclaims hexp =>
    rw [verify_of_threeParts hcut, verifySegments_of_signature hheader hsig hverify,
      readPart_eq_ok_iff.2 hclaims]
    dsimp only [bind, Except.bind]
    rw [if_neg (mt hasExpired_iff.1 hexp)]
    rfl

/-- The outcome of verification is the one that is judged, and no other. -/
theorem verify_judged {key : P256.Point} {token : String} {now : Int}
    {r : Except Refusal Verified} :
    (verify key token now).mapError VerifyFault.refusal = r ↔ Judged key now token r := by
  constructor
  · rintro rfl
    obtain ⟨r, hr⟩ := exists_judged key now token
    rwa [outcome_of_judged hr]
  · exact outcome_of_judged

/-- A token is accepted exactly when all tests hold. -/
theorem verify_eq_ok_iff {key : P256.Point} {token : String} {now : Int} {r : Verified} :
    verify key token now = .ok r ↔ Judged key now token (.ok r) := by
  rw [← verify_judged, mapError_eq_ok_iff]

/-! ## What follows -/

/-- The signature of a token does not hold over its header and its claims as they stand. -/
def Unsigned (key : P256.Point) (h c s : String) : Prop :=
  ∀ v sig, SpellsHeader h v → SpellsSignature s sig →
    P256.verify key (signingInput h c) sig = false

/-- As long as no signature holds, claims are not looked into, nor is the time. -/
theorem verifySegments_eq_of_unsigned {key : P256.Point} {h c c' s : String} {now now' : Int}
    (hc : Unsigned key h c s) (hc' : Unsigned key h c' s) :
    verifySegments key h c s now = verifySegments key h c' s now' := by
  by_cases hheader : ∃ v, SpellsHeader h v
  · obtain ⟨v, hv⟩ := hheader
    rw [verifySegments_of_header hv, verifySegments_of_header hv]
    cases hread : readSignature? s with
    | none => rfl
    | some sig =>
      have hsig := readSignature?_eq_some_iff.1 hread
      dsimp only
      rw [hc v sig hv hsig, hc' v sig hv hsig]
      rfl
  · obtain ⟨f, -, hf⟩ := verifySegments_of_not_header fun v hv => hheader ⟨v, hv⟩
    rw [hf, hf]

/-- An accepted token is accepted at every earlier time, with the same result. -/
theorem verify_earlier {key : P256.Point} {token : String} {t t' : Int} {r : Verified}
    (h : verify key token t = .ok r) (ht : t' ≤ t) : verify key token t' = .ok r := by
  rw [verify_eq_ok_iff] at h ⊢
  cases h with
  | accepted hcut hheader hsig hverify hclaims hexp =>
    exact .accepted hcut hheader hsig hverify hclaims fun hexp' => hexp (hexp'.mono ht)

/-- The parts of an accepted token are the only way to write what they spell. -/
theorem eq_segments_of_verify {key : P256.Point} {token : String} {now : Int} {r : Verified}
    (h : verify key token now = .ok r) : ∃ hb cb sb : List UInt8,
      ThreeParts token (segment hb) (segment cb) (segment sb) := by
  rw [verify_eq_ok_iff] at h
  cases h with
  | accepted hcut hheader hsig hverify hclaims hexp =>
    obtain ⟨⟨hb, rfl, -⟩, -⟩ := hheader
    obtain ⟨a, b, -, -, rfl, -⟩ := hsig
    obtain ⟨cb, rfl, -⟩ := hclaims
    exact ⟨hb, cb, a ++ b, hcut⟩

/-- No two accepted tokens spell the same three texts, even to a reader that lets padding stand. -/
theorem eq_of_decodeText_eq {key : P256.Point} {token token' : String} {now now' : Int}
    {r r' : Verified} (h : verify key token now = .ok r) (h' : verify key token' now' = .ok r')
    {pad : Base64.Padding} (heq : (segments token).map (Base64.decodeText .urlSafe pad) =
      (segments token').map (Base64.decodeText .urlSafe pad)) : token = token' := by
  obtain ⟨hb, cb, sb, hcut⟩ := eq_segments_of_verify h
  obtain ⟨hb', cb', sb', hcut'⟩ := eq_segments_of_verify h'
  rw [segments_eq_iff.2 hcut, segments_eq_iff.2 hcut'] at heq
  simp only [List.map_cons, List.map_nil, decodeText_segment, List.cons.injEq, Except.ok.injEq,
    and_true] at heq
  obtain ⟨rfl, rfl, rfl⟩ := heq
  rw [hcut.token_eq, hcut'.token_eq]

/-- Verification under any key, exactly.  The outcome is that of the first test that fails, or the
parses of the header and the claims when none does; claims decide nothing but the signature until
it holds; no accepted token has a second spelling; and a token that is accepted at a time is
accepted at every earlier one, with the same result. -/
theorem verify_exact (key : P256.Point) :
    (∀ token now r, (verify key token now).mapError VerifyFault.refusal = r ↔
      Judged key now token r) ∧
    (∀ token token' h c c' s now now', ThreeParts token h c s → ThreeParts token' h c' s →
      Unsigned key h c s → Unsigned key h c' s → verify key token now = verify key token' now') ∧
    (∀ token token' now now' r r' pad, verify key token now = .ok r →
      verify key token' now' = .ok r' →
      (segments token).map (Base64.decodeText .urlSafe pad) =
        (segments token').map (Base64.decodeText .urlSafe pad) → token = token') ∧
    (∀ token t t' r, verify key token t = .ok r → t' ≤ t → verify key token t' = .ok r) := by
  refine ⟨fun token now r => verify_judged, ?_, ?_, fun token t t' r => verify_earlier⟩
  · intro token token' h c c' s now now' hcut hcut' hc hc'
    rw [verify_of_threeParts hcut, verify_of_threeParts hcut',
      verifySegments_eq_of_unsigned hc hc']
  · intro token token' now now' r r' pad h h'
    exact eq_of_decodeText_eq h h'

/-- The header `{"alg":"ES256"}`. -/
def plainHeader : Json := .object [("alg", .string "ES256")]

theorem plainHeader_portable : plainHeader.Portable 127 where
  exact := by simp [plainHeader, Json.Exact, Json.ExactEach]
  ordered := by simp [plainHeader, Json.Ordered, Json.OrderedEach]
  depth_le := by simp [plainHeader, Json.depth, Json.depthEach]

/-- The claims `{"exp":10}`. -/
def claimsUntilTen : Json := .object [("exp", .number (.int 10))]

theorem claimsUntilTen_portable : claimsUntilTen.Portable 127 where
  exact := by simp [claimsUntilTen, Json.Exact, Json.ExactEach, Json.Number.Exact]
  ordered := by simp [claimsUntilTen, Json.Ordered, Json.OrderedEach]
  depth_le := by simp [claimsUntilTen, Json.depth, Json.depthEach]

/-- A signature of the two under the scalar 5. -/
def signatureUntilTen : P256.Signature where
  r := 21312050906322544968154773396586333000256876067766920206061888351780921874087
  s := 15217786717082844187218346305337183854666629891859917958084245820607088123574

/-- The token of the three. -/
def tokenUntilTen : String :=
  compact (segment plainHeader.encode) (segment claimsUntilTen.encode)
    (segment signatureUntilTen.encode)

/-- The token under the public point of its key, up to its last second and after. -/
theorem verify_exact_until_ten :
    (verify (P256.baseMultiple 5) tokenUntilTen 9).mapError VerifyFault.refusal =
        .ok ⟨plainHeader, claimsUntilTen⟩ ∧
      (verify (P256.baseMultiple 5) tokenUntilTen 10).mapError VerifyFault.refusal =
        .error .tokenExpired ∧
      ∀ t ≤ 9, verify (P256.baseMultiple 5) tokenUntilTen t =
        .ok ⟨plainHeader, claimsUntilTen⟩ := by
  have hcut := threeParts_compact plainHeader.encode claimsUntilTen.encode
    signatureUntilTen.encode
  have hheader : SpellsHeader (segment plainHeader.encode) plainHeader :=
    ⟨spellsJson_segment_iff.2 (Json.decode_encode_of_portable plainHeader_portable), rfl⟩
  have hclaims : SpellsJson (segment claimsUntilTen.encode) claimsUntilTen :=
    spellsJson_segment_iff.2 (Json.decode_encode_of_portable claimsUntilTen_portable)
  have hsig : SpellsSignature (segment signatureUntilTen.encode) signatureUntilTen :=
    ⟨_, _, length_beBytes 32 _, length_beBytes 32 _, rfl, by decide +kernel, by decide +kernel,
      by decide +kernel⟩
  have hverify : P256.verify (P256.baseMultiple 5) (signingInput (segment plainHeader.encode)
      (segment claimsUntilTen.encode)) signatureUntilTen = true := by
    rw [signingInput_segment]
    decide +kernel
  have hexp : ∀ t, Expired claimsUntilTen t ↔ 10 ≤ t := by
    intro t
    simp [Expired, claimsUntilTen, Json.member?]
  have hnine : ¬ Expired claimsUntilTen 9 := by rw [hexp]; decide
  have haccepted := ((verify_exact _).1 tokenUntilTen 9 _).2
    (.accepted hcut hheader hsig hverify hclaims hnine)
  refine ⟨haccepted, ?_, fun t ht => ?_⟩
  · exact ((verify_exact _).1 tokenUntilTen 10 _).2
      (.expired hcut hheader hsig hverify hclaims ((hexp 10).2 (Int.le_refl 10)))
  · exact (verify_exact _).2.2.2 tokenUntilTen 9 t _ (mapError_eq_ok_iff.1 haccepted) ht

end DeviceAuth.Token
