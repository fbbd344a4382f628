import DeviceAuth.Proofs.Token.Digest
import DeviceAuth.Proofs.Token.Issue

/-!
# DeviceAuth.Proofs.Token.Content

What a token says of the request that it was issued for.  `Request.Agrees` relates the requests
that no reader of tokens can tell apart: requests of one kind that differ at most in a public key
that is blank or missing, in an identity provider's token of the same hash, or in a lifetime by a
fraction of a second.  Tokens say just that much.

* `Request.agrees_of_rows` — requests with the same row in the table of claims agree;
* `Request.Agrees.claims_eq` — requests that agree have the same claims;
* `signedText_eq_iff_agrees` — both, for the text that is signed and for whole tokens.
-/

namespace DeviceAuth.Token

/-! ## Requests that agree -/

/-- Two requests, under two sets of lifetimes, are of one kind and agree in what a token of that
kind says: all their texts and the whole seconds of the lifetime of that kind, except that of an
identity provider's token only the hash counts, and that a blank public key counts as none. -/
inductive Request.Agrees (l l' : Lifetimes) : Request → Request → Prop
  | clientIdentity {subject : String} {idp idp' : Option String}
    (hidp : idp.map Digest.signedHash = idp'.map Digest.signedHash)
    (hlife : l.clientIdentity.nanos / nanosPerSecond = l'.clientIdentity.nanos / nanosPerSecond) :
    Agrees l l' (.clientIdentity subject idp) (.clientIdentity subject idp')
  | session {token : String}
    (hlife : l.session.nanos / nanosPerSecond = l'.session.nanos / nanosPerSecond) :
    Agrees l l' (.session token) (.session token)
  | access {token : String}
    (hlife : l.access.nanos / nanosPerSecond = l'.access.nanos / nanosPerSecond) :
    Agrees l l' (.access token) (.access token)
  | enrollment {subject imei : String} {publicKey publicKey' : Option String}
    (hkey : publicKey.filter (!Text.blank ·) = publicKey'.filter (!Text.blank ·)) :
    Agrees l l' (.enrollment subject imei publicKey) (.enrollment subject imei publicKey')

theorem Request.Agrees.variantName_eq {l l' : Lifetimes} {r r' : Request}
    (h : Agrees l l' r r') : r.variantName = r'.variantName := by
  cases h <;> rfl

/-! ## From requests to claims -/

/-- Tokens with the same hash have the same digest, and others have not. -/
theorem map_text_eq_iff {idp idp' : Option String} :
    idp.map Digest.text = idp'.map Digest.text ↔
      idp.map Digest.signedHash = idp'.map Digest.signedHash := by
  cases idp <;> cases idp' <;> simp [Digest.text_eq_iff]

theorem Request.Agrees.header_eq {l l' : Lifetimes} {r r' : Request} (h : Agrees l l' r r') :
    r.header = r'.header := by
  cases h with
  | clientIdentity _ _ | session _ | access _ => rfl
  | enrollment hkey => simp [header, chainOf, hkey]

theorem Request.Agrees.claims_eq {l l' : Lifetimes} {r r' : Request} (h : Agrees l l' r r')
    (n : Int) : r.claims l n = r'.claims l' n := by
  cases h with
  | clientIdentity hidp hlife =>
    simp [claims, Duration.seconds_eq_ediv, l.clientIdentity_pos, l'.clientIdentity_pos, hlife,
      map_text_eq_iff.2 hidp]
  | session hlife =>
    simp [claims, Duration.seconds_eq_ediv, l.session_pos, l'.session_pos, hlife]
  | access hlife =>
    simp [claims, Duration.seconds_eq_ediv, l.access_pos, l'.access_pos, hlife]
  | enrollment hkey => rfl

/-! ## From rows to requests -/

@[simp]
theorem secondClaim_inj {m n : Int} : secondClaim m = secondClaim n ↔ m = n := by
  simp [secondClaim]

/-- The digest in a row is that of a token with the same hash. -/
theorem digestRow_eq_iff {idp idp' : Option String} :
    digestRow idp = digestRow idp' ↔
      idp.map Digest.signedHash = idp'.map Digest.signedHash := by
  cases idp <;> cases idp' <;> simp [digestRow, Digest.text_eq_iff]

/-- The chain in a row is that of the same public key, unless that is blank. -/
theorem chainRow_eq_iff {publicKey publicKey' : Option String} :
    chainRow publicKey = chainRow publicKey' ↔
      publicKey.filter (!Text.blank ·) = publicKey'.filter (!Text.blank ·) := by
  have hrow : ∀ key : Option String, chainRow key =
      ((key.filter (!Text.blank ·)).map fun b => ("x5c", Json.array [.string b])).toList := by
    intro key
    cases key with
    | none => rfl
    | some b => cases hb : Text.blank b <;> simp [chainRow, Option.filter_some, hb]
  rw [hrow, hrow]
  cases publicKey.filter (!Text.blank ·) <;> cases publicKey'.filter (!Text.blank ·) <;> simp

section Rows

variable {l l' : Lifetimes} {n n' : Int} {r r' : Request}

/-- Requests with the same row agree, and are granted at the same second. -/
theorem Request.agrees_of_rows (hheader : r.headerRow = r'.headerRow)
    (hclaims : r.claimsRow l n = r'.claimsRow l' n') : n = n' ∧ Agrees l l' r r' := by
  -- the rows of two kinds differ in the name of a member or in the audience
  cases r with
  | clientIdentity subject idp =>
    cases r' with
    | clientIdentity subject' idp' =>
      simp only [claimsRow, List.cons_append, List.nil_append, List.cons.injEq,
        Prod.mk.injEq, true_and, secondClaim_inj] at hclaims
      obtain ⟨rfl, hexpiry, -, hrest⟩ := hclaims
      obtain ⟨hdigest, hlast⟩ := List.append_inj' hrest rfl
      obtain rfl : subject = subject' := by simpa using hlast
      exact ⟨rfl, .clientIdentity (digestRow_eq_iff.1 hdigest) (by omega)⟩
    | session _ | access _ | enrollment _ _ _ => simp [claimsRow] at hclaims
  | session token =>
    cases r' with
    | session token' =>
      simp only [claimsRow, List.cons.injEq, Prod.mk.injEq, Json.string.injEq, true_and, and_true,
        secondClaim_inj] at hclaims
      obtain ⟨hexpiry, rfl, rfl⟩ := hclaims
      exact ⟨rfl, .session (by omega)⟩
    | clientIdentity _ _ | access _ | enrollment _ _ _ => simp [claimsRow] at hclaims
  | access token =>
    cases r' with
    | access token' =>
      simp only [claimsRow, List.cons.injEq, Prod.mk.injEq, Json.string.injEq, true_and, and_true,
        secondClaim_inj] at hclaims
      obtain ⟨rfl, hexpiry, rfl⟩ := hclaims
      exact ⟨rfl, .access (by omega)⟩
    | clientIdentity _ _ | session _ | enrollment _ _ _ => simp [claimsRow] at hclaims
  | enrollment subject imei publicKey =>
    cases r' with
    | enrollment subject' imei' publicKey' =>
      simp only [claimsRow, List.cons.injEq, Prod.mk.injEq, Json.string.injEq, true_and, and_true,
        secondClaim_inj] at hclaims
      obtain ⟨rfl, rfl, rfl⟩ := hclaims
      have hchain : chainRow publicKey = chainRow publicKey' := by
        simpa [headerRow] using hheader
      exact ⟨rfl, .enrollment (chainRow_eq_iff.1 hchain)⟩
    | clientIdentity _ _ | session _ | access _ => simp [claimsRow] at hclaims

/-- Requests whose headers and claims are written alike agree. -/
theorem Request.agrees_of_encode (hfit : r.TimesFit l n) (hfit' : r'.TimesFit l' n')
    (hheader : r.header.encode = r'.header.encode)
    (hclaims : (r.claims l n).encode = (r'.claims l' n').encode) :
    n = n' ∧ Agrees l l' r r' := by
  have hrow := decode_header r
  rw [hheader, decode_header r', Except.ok.injEq, Json.object.injEq] at hrow
  have hrow' := decode_claims_of_timesFit hfit
  rw [hclaims, decode_claims_of_timesFit hfit', Except.ok.injEq, Json.object.injEq] at hrow'
  exact agrees_of_rows hrow.symm hrow'.symm

end Rows

/-! ## Signed texts and tokens -/

/-- The text that the signature of the token for a request is over: its first two parts. -/
def Request.signedText (lifetimes : Lifetimes) (n : Int) (r : Request) : String :=
  segment r.header.encode ++ "." ++ segment (r.claims lifetimes n).encode

/-- A token is its signed text and the signature of that. -/
theorem Request.value_sign (lifetimes : Lifetimes) (key : Key.EcPrivate) (n : Int) (r : Request) :
    (r.sign lifetimes key n).value = r.signedText lifetimes n ++ "." ++
      segment (P256.sign key.scalar (Text.Utf8.encode (r.signedText lifetimes n))).encode :=
  rfl

/-- What a token says of its request.  A token is the text that is signed and the signature of it.
Two requests have the same signed text exactly when they are granted at the same second and agree;
so do they if they have the same token under any keys, and then they have the same token under
every key.  Requests of two kinds never have the same token, whatever is in them. -/
theorem signedText_eq_iff_agrees {l l' : Lifetimes} {n n' : Int} {r r' : Request}
    (hfit : r.TimesFit l n) (hfit' : r'.TimesFit l' n') :
    (∀ key, (r.sign l key n).value = r.signedText l n ++ "." ++
      segment (P256.sign key.scalar (Text.Utf8.encode (r.signedText l n))).encode) ∧
    (r.signedText l n = r'.signedText l' n' ↔ n = n' ∧ Request.Agrees l l' r r') ∧
    (∀ key key', (r.sign l key n).value = (r'.sign l' key' n').value →
      n = n' ∧ Request.Agrees l l' r r') ∧
    (n = n' ∧ Request.Agrees l l' r r' →
      ∀ key, (r.sign l key n).value = (r'.sign l' key n').value) ∧
    (r.variantName ≠ r'.variantName →
      ∀ key key', (r.sign l key n).value ≠ (r'.sign l' key' n').value) := by
  have htext : r.signedText l n = r'.signedText l' n' ↔ n = n' ∧ Request.Agrees l l' r r' := by
    constructor
    · intro h
      have hcut : compact (segment r.header.encode) (segment (r.claims l n).encode) (segment []) =
          compact (segment r'.header.encode) (segment (r'.claims l' n').encode) (segment []) :=
        congrArg (· ++ "." ++ segment []) h
      obtain ⟨hheader, hclaims, -⟩ := compact_segment_injective hcut
      exact Request.agrees_of_encode hfit hfit' hheader hclaims
    · rintro ⟨rfl, hagrees⟩
      rw [Request.signedText, Request.signedText, hagrees.header_eq, hagrees.claims_eq]
  have htoken : ∀ key key', (r.sign l key n).value = (r'.sign l' key' n').value →
      n = n' ∧ Request.Agrees l l' r r' := by
    intro key key' h
    obtain ⟨hheader, hclaims, -⟩ := compact_segment_injective h
    exact Request.agrees_of_encode hfit hfit' hheader hclaims
  refine ⟨fun key => r.value_sign l key n, htext, htoken, fun h key => ?_,
    fun hname key key' h => ?_⟩
  · rw [Request.value_sign, Request.value_sign, htext.2 h]
  · exact hname (htoken key key' h).2.variantName_eq

/-- Lifetimes that differ from those where none are set, but for clients by a nanosecond only. -/
def unevenLifetimes : Lifetimes where
  clientIdentity := ⟨315532800 * nanosPerSecond + 1, by decide⟩
  session := ⟨1, by decide⟩
  access := ⟨1, by decide⟩
  clientIdentity_pos := by decide
  session_pos := by decide
  access_pos := by decide

/-- The last second at which a token for ten years can be issued. -/
def lastIssue : Int := 9223372036539243007

/-- Two identity providers' tokens with the same hash give the same token, up to the last second,
and a client that is called as sessions are gets no token of a session. -/
theorem signedText_eq_iff_agrees_colliding :
    (Request.clientIdentity "session" (some "Aa")).TimesFit .default lastIssue ∧
    (Request.clientIdentity "session" (some "BB")).TimesFit unevenLifetimes lastIssue ∧
    (Request.session "Aa").TimesFit .default lastIssue ∧
    (Request.clientIdentity "session" (some "Aa")).signedText .default lastIssue =
      (Request.clientIdentity "session" (some "BB")).signedText unevenLifetimes lastIssue ∧
    (∀ key, ((Request.clientIdentity "session" (some "Aa")).sign .default key lastIssue).value =
      ((Request.clientIdentity "session" (some "BB")).sign unevenLifetimes key lastIssue).value) ∧
    ∀ key key', ((Request.clientIdentity "session" (some "Aa")).sign .default key lastIssue).value ≠
      ((Request.session "Aa").sign .default key' lastIssue).value := by
  have hfit : ∀ (l : Lifetimes) (r : Request), (∀ e ∈ r.expiry? l lastIssue, e < 2 ^ 63) →
      r.TimesFit l lastIssue :=
    fun l r h => ⟨by decide, h⟩
  have hclient := hfit .default (.clientIdentity "session" (some "Aa")) (by decide)
  have hother := hfit unevenLifetimes (.clientIdentity "session" (some "BB")) (by decide)
  have hsession := hfit .default (.session "Aa") (by decide)
  have hagrees : Request.Agrees .default unevenLifetimes
      (.clientIdentity "session" (some "Aa")) (.clientIdentity "session" (some "BB")) :=
    .clientIdentity (by decide) (by decide)
  obtain ⟨-, htext, -, htoken, -⟩ := signedText_eq_iff_agrees hclient hother
  obtain ⟨-, -, -, -, hkinds⟩ := signedText_eq_iff_agrees hclient hsession
  exact ⟨hclient, hother, hsession, htext.2 ⟨rfl, hagrees⟩, htoken ⟨rfl, hagrees⟩,
    hkinds (by decide)⟩

end DeviceAuth.Token
