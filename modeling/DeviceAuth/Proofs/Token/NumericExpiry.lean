import DeviceAuth.Proofs.Json.Member
import DeviceAuth.Proofs.Token.RoundTrip
import Mathlib.Tactic.NormNum

/-!
# DeviceAuth.Proofs.Token.NumericExpiry

Expiry times that are numbers of any form.  A verifier looks at an expiry only when it is read as
an integer of 64 bits with a sign; an integer beyond that lies after every time that can be asked
about, but a double is never compared with the time (`verify_of_float_expiry`).  So a token is
accepted only before its numeric expiry exactly when the expiry is spelled as an integer within 64
bits, without a fraction or an exponent, or lies after every time
(`acceptedOnlyBefore_expiry_iff`).
-/

namespace DeviceAuth

/-! ## Values of numbers -/

/-- The number that a finite double stands for. -/
def Binary64.value (x : Binary64) : ℚ :=
  (if x.negative then -1 else 1) * significand x.magnitude * 2 ^ exponent x.magnitude

/-- The value of a JSON number. -/
def Json.Number.value : Json.Number → ℚ
  | .int n => n
  | .float x => x.value

namespace Token

/-! ## Expiry by number -/

/-- A token is accepted at no second of 64 bits from a time on. -/
def AcceptedOnlyBefore (key : P256.Point) (token : String) (time : ℚ) : Prop :=
  ∀ (now : Int) (r : Verified), Text.int64Min ≤ now → now ≤ Text.int64Max →
    verify key token now = .ok r → (now : ℚ) < time

section Accepted

variable {key : P256.Point} {token : String} {now : Int} {r : Verified} {x : Json.Number}

/-- The claims of a token are given back as they are read, at whatever time it is accepted. -/
theorem eq_of_verify {t : Int} {r' : Verified} (h : verify key token now = .ok r)
    (h' : verify key token t = .ok r') : r' = r := by
  rcases Int.le_total t now with hle | hle
  · have hsame := verify_earlier h hle
    rw [h', Except.ok.injEq] at hsame
    exact hsame
  · have hsame := verify_earlier h' hle
    rw [h, Except.ok.injEq] at hsame
    exact hsame.symm

/-- Claims without an expiry of 64 bits are accepted at every time. -/
theorem verify_of_not_expired (h : verify key token now = .ok r)
    (hexp : ∀ t, ¬ Expired r.claims t) (t : Int) : verify key token t = .ok r := by
  rw [verify_eq_ok_iff] at h ⊢
  cases h with
  | accepted hcut hheader hsig hverify hclaims _ =>
    exact .accepted hcut hheader hsig hverify hclaims (hexp t)

/-- An expiry that is a double is not compared with the time. -/
theorem verify_of_float_expiry {d : Binary64} (h : verify key token now = .ok r)
    (hexp : r.claims.member? "exp" = some (.number (.float d))) (t : Int) :
    verify key token t = .ok r := by
  refine verify_of_not_expired h ?_ t
  rintro t ⟨n, hn, -⟩
  rw [hexp] at hn
  simp at hn

/-- The claims of an accepted token are what its second part is read as. -/
theorem decode_claims_of_verify {h s : String} {bytes : List UInt8}
    (hverify : verify key token now = .ok r) (hcut : ThreeParts token h (segment bytes) s) :
    Json.decode bytes = .ok r.claims := by
  rw [verify_eq_ok_iff] at hverify
  cases hverify with
  | accepted hcut' hheader hsig hverify hclaims _ =>
    have hsegments := (segments_eq_iff.2 hcut').symm.trans (segments_eq_iff.2 hcut)
    simp only [List.cons.injEq] at hsegments
    rw [hsegments.2.1] at hclaims
    exact spellsJson_segment_iff.1 hclaims

/-- A numeric expiry is that of a literal. -/
theorem exists_literal_of_verify (h : verify key token now = .ok r)
    (hexp : r.claims.member? "exp" = some (.number x)) :
    ∃ l : Json.Literal, l.number? = some x := by
  obtain ⟨_, _, _, hcut⟩ := eq_segments_of_verify h
  exact Json.exists_literal_of_member (decode_claims_of_verify h hcut) hexp

/-- An expiry that is an integer lies after every second of 64 bits at which the token is
accepted. -/
theorem acceptedOnlyBefore_of_int {n : Int} (h : verify key token now = .ok r)
    (hexp : r.claims.member? "exp" = some (.number (.int n))) :
    AcceptedOnlyBefore key token n := by
  obtain ⟨l, hnumber⟩ := exists_literal_of_verify h hexp
  have hlow : -(2 ^ 63) ≤ n := (Json.Literal.bounds_of_number? hnumber).1
  intro t r' _ ht h'
  obtain rfl := eq_of_verify h h'
  rw [Text.int64Max] at ht
  rw [Int.cast_lt]
  by_contra hle
  have hexpired : Expired r'.claims t := ⟨n, hexp, ⟨hlow, by omega⟩, Int.not_lt.1 hle⟩
  rw [verify_eq_ok_iff] at h'
  cases h' with
  | accepted _ _ _ _ _ hunexpired => exact hunexpired hexpired

/-- A token that is accepted at every time is accepted only before what lies after every second of
64 bits. -/
theorem acceptedOnlyBefore_iff_of_always {time : ℚ} (h : ∀ t, verify key token t = .ok r) :
    AcceptedOnlyBefore key token time ↔ (Text.int64Max : ℚ) < time := by
  constructor
  · intro hbefore
    exact hbefore Text.int64Max r (by decide) (Int.le_refl _) (h _)
  · intro hlast t _ _ ht _
    exact lt_of_le_of_lt (Int.cast_le.2 ht) hlast

/-- A token is accepted only before what its expiry stands for exactly when the expiry is read as
an integer, or stands for a time after every second of 64 bits. -/
theorem acceptedOnlyBefore_iff_of_value {time : ℚ} (h : verify key token now = .ok r)
    (hexp : r.claims.member? "exp" = some (.number x)) (htime : ∀ n, x = .int n → (n : ℚ) = time) :
    AcceptedOnlyBefore key token time ↔ (∃ n, x = .int n) ∨ (Text.int64Max : ℚ) < time := by
  cases x with
  | int n =>
    rw [← htime n rfl]
    exact iff_of_true (acceptedOnlyBefore_of_int h hexp) (.inl ⟨n, rfl⟩)
  | float d =>
    rw [acceptedOnlyBefore_iff_of_always (verify_of_float_expiry h hexp)]
    simp

/-- The expiry of a token is the number of the last literal that its claims spell for it. -/
theorem decode_spell_of_verify {h s : String} {members : List (String × List UInt8)}
    {values : List (String × Json)} {l : Json.Literal} (hverify : verify key token now = .ok r)
    (hexp : r.claims.member? "exp" = some (.number x))
    (hcut : ThreeParts token h (segment (Json.encodeMembers members)) s)
    (hmembers : List.Forall₂ (Json.ReadsMember (Json.readValue 126)) members values)
    (hlast : members.reverse.lookup "exp" = some l.spell) :
    Json.decode l.spell = .ok (.number x) := by
  obtain ⟨v, hv, hread⟩ := Json.reads_member hmembers hlast
  have hclaims : r.claims = .object (Json.sortMembers values) := by
    have hdecode := decode_claims_of_verify hverify hcut
    rw [Json.decode_of_reads (Json.reads_encodeMembers hmembers), Except.ok.injEq] at hdecode
    exact hdecode.symm
  rw [hclaims, hv, Option.some.injEq] at hexp
  rw [← hexp]
  exact Json.decode_of_reads_spell hread

end Accepted

/-- Expiry by number, under any key and for any token.  A token that is accepted with a numeric
expiry is accepted only before that time exactly when the expiry is read as an integer, or lies
after every second of 64 bits.  Some literal is read as the expiry; the token is accepted only
before what such a literal spells exactly when it is an integer within 64 bits without a fraction
and an exponent and no negative zero, or lies after every such second.  An expiry that is a double
leaves the token accepted at every time; and the literal that counts is the last one that the
claims spell. -/
theorem acceptedOnlyBefore_expiry_iff {key : P256.Point} {token : String} {now : Int}
    {r : Verified} {x : Json.Number} (hverify : verify key token now = .ok r)
    (hexp : r.claims.member? "exp" = some (.number x)) :
    (AcceptedOnlyBefore key token x.value ↔
      (∃ n, x = .int n) ∨ (Text.int64Max : ℚ) < x.value) ∧
    (∃ l : Json.Literal, Json.decode l.spell = .ok (.number x)) ∧
    (∀ l : Json.Literal, Json.decode l.spell = .ok (.number x) →
      (AcceptedOnlyBefore key token l.value ↔ l.Exact ∨ (Text.int64Max : ℚ) < l.value)) ∧
    (∀ d, x = .float d → ∀ t, verify key token t = .ok r) ∧
    (∀ h s members values (l : Json.Literal),
      ThreeParts token h (segment (Json.encodeMembers members)) s →
      List.Forall₂ (Json.ReadsMember (Json.readValue 126)) members values →
      members.reverse.lookup "exp" = some l.spell → Json.decode l.spell = .ok (.number x)) := by
  refine ⟨acceptedOnlyBefore_iff_of_value hverify hexp ?_, ?_, ?_, ?_, ?_⟩
  · rintro n rfl
    rfl
  · obtain ⟨l, hnumber⟩ := exists_literal_of_verify hverify hexp
    exact ⟨l, Json.decode_spell_iff.2 ⟨x, hnumber, rfl⟩⟩
  · intro l hl
    obtain ⟨y, hnumber, heq⟩ := Json.decode_spell_iff.1 hl
    obtain rfl := Json.number.inj heq
    rw [acceptedOnlyBefore_iff_of_value hverify hexp, Json.Literal.exact_of_number?_int hnumber]
    rintro n rfl
    exact (Json.Literal.number?_eq_int_iff.1 hnumber).2
  · rintro d rfl t
    exact verify_of_float_expiry hverify hexp t
  · intro h s members values l hcut hmembers hlast
    exact decode_spell_of_verify hverify hexp hcut hmembers hlast

/-- The literal `10.5`. -/
def tenAndAHalf : Json.Literal where
  negative := false
  whole := ⟨[0x31, 0x30], List.cons_ne_nil _ _,
    List.forall_mem_cons.2 ⟨rfl, List.forall_mem_singleton.2 rfl⟩⟩
  fraction := some ⟨[0x35], List.cons_ne_nil _ _, List.forall_mem_singleton.2 rfl⟩
  exponent := none
  no_leading_zero := by decide

/-- The double that the literal is read as. -/
def doubleTenAndAHalf : Binary64 := ⟨false, 0x4025000000000000⟩

/-- The claims `{"exp":10.5}` as they are read. -/
def claimsUntilTenAndAHalf : Json :=
  .object [("exp", .number (.float doubleTenAndAHalf))]

/-- The token with the claims `{"exp":10.5}` under the scalar 5. -/
def tokenUntilTenAndAHalf : String :=
  sign ⟨5⟩ plainHeader.encode (Json.encodeMembers [("exp", tenAndAHalf.spell)])

theorem number?_tenAndAHalf : tenAndAHalf.number? = some (.float doubleTenAndAHalf) := by
  decide +kernel

theorem readsMember_tenAndAHalf : List.Forall₂ (Json.ReadsMember (Json.readValue 126))
    [("exp", tenAndAHalf.spell)] [("exp", .number (.float doubleTenAndAHalf))] :=
  .cons ⟨rfl, Json.reads_spell 126 number?_tenAndAHalf⟩ .nil

theorem value_tenAndAHalf : tenAndAHalf.value = 21 / 2 := by
  have hdigits :
      Json.digitsValue (tenAndAHalf.whole.bytes ++ tenAndAHalf.fractionDigits) = 105 := by
    decide
  rw [Json.Literal.value, hdigits]
  norm_num [tenAndAHalf, Json.Literal.power, Json.Literal.fractionDigits]

/-- The token has the claims that are read from its text, whatever the time. -/
theorem verify_tokenUntilTenAndAHalf (t : Int) :
    verify (P256.baseMultiple 5) tokenUntilTenAndAHalf t =
      .ok ⟨plainHeader, claimsUntilTenAndAHalf⟩ := by
  have hsig : (⟨5⟩ : Key.EcPrivate).SignsFor (signingInput (segment plainHeader.encode)
      (segment (Json.encodeMembers [("exp", tenAndAHalf.spell)]))) := by
    rw [signingInput_segment, Key.EcPrivate.SignsFor]
    decide +kernel
  have hclaims : Json.decode (Json.encodeMembers [("exp", tenAndAHalf.spell)]) =
      .ok claimsUntilTenAndAHalf :=
    Json.decode_of_reads (Json.reads_encodeMembers readsMember_tenAndAHalf)
  exact verify_sign (Json.decode_encode_of_portable plainHeader_portable) hclaims rfl hsig

/-- The token of ten and a half is accepted at every time, so not only before. -/
theorem acceptedOnlyBefore_expiry_ten_and_a_half :
    (∀ t, verify (P256.baseMultiple 5) tokenUntilTenAndAHalf t =
      .ok ⟨plainHeader, claimsUntilTenAndAHalf⟩) ∧
    ¬ AcceptedOnlyBefore (P256.baseMultiple 5) tokenUntilTenAndAHalf tenAndAHalf.value := by
  have hverify := verify_tokenUntilTenAndAHalf 0
  obtain ⟨-, -, hliteral, halways, hspelled⟩ := acceptedOnlyBefore_expiry_iff hverify rfl
  have hdecode : Json.decode tenAndAHalf.spell = .ok (.number (.float doubleTenAndAHalf)) :=
    hspelled _ _ [("exp", tenAndAHalf.spell)] _ tenAndAHalf (threeParts_sign _ _ _)
      readsMember_tenAndAHalf rfl
  refine ⟨halways _ rfl, ?_⟩
  rw [hliteral tenAndAHalf hdecode, value_tenAndAHalf]
  rintro (hexact | hlast)
  · exact Option.some_ne_none _ hexact.no_fraction
  · norm_num [Text.int64Max] at hlast

/-- At the second 11 a token is accepted that has expired at ten and a half. -/
theorem accepted_after_ten_and_a_half :
    ∃ r, verify (P256.baseMultiple 5) tokenUntilTenAndAHalf 11 = .ok r ∧
      r.claims.member? "exp" = some (.number (.float doubleTenAndAHalf)) ∧
      (Json.Number.float doubleTenAndAHalf).value = 21 / 2 ∧
      ¬ ((11 : Int) : ℚ) < (Json.Number.float doubleTenAndAHalf).value := by
  have hvalue : (Json.Number.float doubleTenAndAHalf).value = 21 / 2 := by
    have hsignificand : Binary64.significand 0x4025000000000000 = 5910974510923776 := by decide
    have hexponent : Binary64.exponent 0x4025000000000000 = -49 := by decide
    rw [Json.Number.value, Binary64.value, doubleTenAndAHalf, hsignificand, hexponent]
    norm_num
  refine ⟨_, verify_tokenUntilTenAndAHalf 11, rfl, hvalue, ?_⟩
  rw [hvalue]
  norm_num

end Token

end DeviceAuth
