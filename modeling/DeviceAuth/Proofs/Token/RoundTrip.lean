import DeviceAuth.Proofs.Token.Verify

/-!
# DeviceAuth.Proofs.Token.RoundTrip

A token that was signed is verified under the point of its key, with the header and the claims that
were signed: the signer writes what the verifier reads, part by part.  That a signature holds is
what the signature scheme promises (`Key.EcPrivate.SignsFor`); everything around it is shown here.
-/

namespace DeviceAuth

/-- The promise of the signature scheme for a message: the verifier of the key's own point accepts
the signer's signature. -/
def Key.EcPrivate.SignsFor (key : Key.EcPrivate) (msg : List UInt8) : Prop :=
  P256.verify key.point msg (P256.sign key.scalar msg) = true

/-- A signature that holds is two scalars. -/
theorem P256.isScalar_of_verify {q : P256.Point} {msg : List UInt8} {sig : P256.Signature}
    (h : P256.verify q msg sig = true) :
    P256.isScalar sig.r = true ∧ P256.isScalar sig.s = true := by
  rw [P256.verify, Bool.and_eq_true, Bool.and_eq_true] at h
  exact h.1

namespace Token

/-! ## The form of a signed token -/

/-- A signed token is cut into the segments of what it was signed from and its signature. -/
theorem threeParts_sign (key : Key.EcPrivate) (header claims : List UInt8) :
    ThreeParts (sign key header claims) (segment header) (segment claims)
      (segment (P256.sign key.scalar
        (signingInput (segment header) (segment claims))).encode) :=
  threeParts_compact header claims _

/-- Two dots, both between parts. -/
theorem count_dot_of_threeParts {token h c s : String} (hcut : ThreeParts token h c s) :
    token.toList.count '.' = 2 := by
  rw [hcut.token_eq, toList_compact, List.count_append, List.count_cons_self, List.count_append,
    List.count_cons_self, List.count_eq_zero_of_not_mem hcut.header_dotless,
    List.count_eq_zero_of_not_mem hcut.claims_dotless,
    List.count_eq_zero_of_not_mem hcut.signature_dotless]

/-- No padding stands in a token of segments. -/
theorem pad_not_mem_compact (h c s : List UInt8) :
    '=' ∉ (compact (segment h) (segment c) (segment s)).toList := by
  have hdot : ('=' : Char) ≠ '.' := by decide
  rw [toList_compact]
  simp only [List.mem_append, List.mem_cons, pad_not_mem_segment, hdot, or_self, not_false_eq_true]

/-- A signature of two scalars is spelled by the segment of its bytes. -/
theorem spellsSignature_segment {sig : P256.Signature} (hr : P256.isScalar sig.r = true)
    (hs : P256.isScalar sig.s = true) : SpellsSignature (segment sig.encode) sig := by
  refine ⟨beBytes 32 sig.r, beBytes 32 sig.s, length_beBytes _ _, length_beBytes _ _, rfl, ?_,
    P256.isScalar_iff.1 hr, P256.isScalar_iff.1 hs⟩
  rw [beNat_beBytes_of_lt (P256.lt_of_isScalar hr), beNat_beBytes_of_lt (P256.lt_of_isScalar hs)]

/-! ## Verifying what was signed -/

section Signed

variable {key : Key.EcPrivate} {header claims : List UInt8} {v w : Json} {now : Int}

/-- A signed token with another algorithm in its header, or none, is invalid. -/
theorem verify_sign_of_not_algorithm (hv : Json.decode header = .ok v) (halg : ¬ NamesAlgorithm v) :
    (verify key.point (sign key header claims) now).mapError VerifyFault.refusal =
      .error .invalidToken := by
  refine verify_judged.2 (.header (threeParts_sign key header claims) ?_)
  rintro v' ⟨hv', halg'⟩
  rw [spellsJson_segment_iff, hv, Except.ok.injEq] at hv'
  subst hv'
  exact halg halg'

/-- What a verifier of a signed token with the right algorithm gives: the header and the claims as
they are read, until the claims expire. -/
theorem verify_sign (hv : Json.decode header = .ok v) (hw : Json.decode claims = .ok w)
    (halg : NamesAlgorithm v)
    (hsig : key.SignsFor (signingInput (segment header) (segment claims))) :
    verify key.point (sign key header claims) now =
      if hasExpired w now then .error .expired else .ok ⟨v, w⟩ := by
  obtain ⟨hr, hs⟩ := P256.isScalar_of_verify hsig
  have hheader : SpellsHeader (segment header) v := ⟨spellsJson_segment_iff.2 hv, halg⟩
  rw [verify_of_threeParts (threeParts_sign key header claims),
    verifySegments_of_signature hheader (spellsSignature_segment hr hs) hsig,
    readPart_eq_ok_iff.2 (spellsJson_segment_iff.2 hw)]
  dsimp only [bind, Except.bind]
  split
  · rfl
  · rfl

end Signed

/-! ## JSON values -/

/-- The token with a header and claims that are JSON values. -/
def signJson (key : Key.EcPrivate) (header claims : Json) : String :=
  sign key header.encode claims.encode

/-- The message that the signature of such a token is of. -/
def jsonMessage (header claims : Json) : List UInt8 :=
  signingInput (segment header.encode) (segment claims.encode)

/-- Signing and verifying JSON values.  The token has two dots, no padding, and sixty-four bytes in
its third segment; without the algorithm in its header it is invalid; with it, and where the
signature scheme keeps its promise, it verifies to just the values that were signed until their
expiry has come, and has expired from then on. -/
theorem verify_signJson (key : Key.EcPrivate) (header claims : Json) (now : Int)
    (hheader : header.Portable 127) (hclaims : claims.Portable 127) :
    ((signJson key header claims).toList.count '.' = 2 ∧
      '=' ∉ (signJson key header claims).toList ∧
      ∃ h c s bytes, segments (signJson key header claims) = [h, c, s] ∧
        Base64.decodeText .urlSafe .none s = .ok bytes ∧ bytes.length = 64) ∧
    (¬ NamesAlgorithm header →
      (verify key.point (signJson key header claims) now).mapError VerifyFault.refusal =
        .error .invalidToken) ∧
    (key.SignsFor (jsonMessage header claims) → NamesAlgorithm header →
      (Expired claims now → (verify key.point (signJson key header claims) now).mapError
        VerifyFault.refusal = .error .tokenExpired) ∧
      (¬ Expired claims now →
        verify key.point (signJson key header claims) now = .ok ⟨header, claims⟩)) := by
  have hv := Json.decode_encode_of_portable hheader
  have hw := Json.decode_encode_of_portable hclaims
  have hcut := threeParts_sign key header.encode claims.encode
  refine ⟨⟨count_dot_of_threeParts hcut, pad_not_mem_compact _ _ _, _, _, _, _,
    segments_eq_iff.2 hcut, decodeText_segment _ _, P256.Signature.length_encode _⟩,
    verify_sign_of_not_algorithm hv, fun hsig halg => ⟨fun hexp => ?_, fun hexp => ?_⟩⟩
  · rw [signJson, verify_sign hv hw halg hsig, if_pos (hasExpired_iff.2 hexp)]
    rfl
  · rw [signJson, verify_sign hv hw halg hsig, if_neg (mt hasExpired_iff.1 hexp)]

/-- The token of a header and claims under the scalar 5, before and after it expires. -/
theorem verify_signJson_until_ten :
    (⟨5⟩ : Key.EcPrivate).SignsFor (jsonMessage plainHeader claimsUntilTen) ∧
      verify (P256.baseMultiple 5) (signJson ⟨5⟩ plainHeader claimsUntilTen) 9 =
        .ok ⟨plainHeader, claimsUntilTen⟩ ∧
      (verify (P256.baseMultiple 5) (signJson ⟨5⟩ plainHeader claimsUntilTen) 10).mapError
        VerifyFault.refusal = .error .tokenExpired := by
  have hsig : (⟨5⟩ : Key.EcPrivate).SignsFor (jsonMessage plainHeader claimsUntilTen) := by
    rw [jsonMessage, signingInput_segment, Key.EcPrivate.SignsFor]
    decide +kernel
  have hrun := fun t => (verify_signJson ⟨5⟩ plainHeader claimsUntilTen t plainHeader_portable
    claimsUntilTen_portable).2.2 hsig rfl
  refine ⟨hsig, (hrun 9).2 ?_, (hrun 10).1 ?_⟩
  · simp [Expired, claimsUntilTen, Json.member?]
  · simp [Expired, claimsUntilTen, Json.member?]

end Token

end DeviceAuth
