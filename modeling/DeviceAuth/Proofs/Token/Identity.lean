import DeviceAuth.Proofs.Token.Enrollment

/-!
# DeviceAuth.Proofs.Token.Identity

What a resolved identity is good for.  Resolution checks everything that is asked of an identity
later (`Certificate.sound_of_resolve`), so that its client can be granted tokens, its private key
signs, and its public key is given out; only a public key that is not there can be missed.
-/

namespace DeviceAuth.Certificate

/-! ## Sound identities -/

/-- An identity of which nothing is found wanting later: its client is named, and its keys load. -/
structure Identity.Sound (i : Identity) : Prop where
  clientId : Text.blank i.clientId = false
  privateKey : ∃ key, i.signingKey = .ok key
  publicKey : ∀ pem, i.publicKeyPem = some pem → ∃ point, Key.loadEcPublic pem = .ok point

/-- Documents resolve to sound identities only. -/
theorem sound_of_resolve {bytes : List UInt8} {i : Identity} (h : (resolve bytes).value = .ok i) :
    i.Sound where
  clientId := clientId_not_blank h
  privateKey := exists_signingKey h
  publicKey _ hpem := exists_publicKey h hpem

/-- The public key of a sound identity is given out in one form, which any reader takes for the
point that its PEM text holds. -/
theorem Identity.Sound.exists_publicKeyBase64 {i : Identity} (h : i.Sound) {pem : String}
    (hpem : i.publicKeyPem = some pem) :
    ∃ point b der, Key.loadEcPublic pem = .ok point ∧ i.publicKeyBase64 = .ok b ∧
      Base64.decodeText .standard .lenient b = .ok der ∧ Key.readEcPublic der = .ok point := by
  obtain ⟨point, hload⟩ := h.publicKey pem hpem
  have hcurve := Key.onCurve_of_loadEcPublic hload
  exact ⟨point, _, _, hload, publicKeyBase64_of_load hpem hload,
    Base64.decodeText_encode Base64.standard_proper _, Key.readEcPublic_writeEcPublic hcurve⟩

/-- A sound identity is asked in vain for its public key exactly when it has none. -/
theorem Identity.Sound.publicKeyBase64_eq_error_iff {i : Identity} (h : i.Sound) {f : Fault} :
    i.publicKeyBase64 = .error f ↔ i.publicKeyPem = none ∧ f = .noPublicKey := by
  cases hpem : i.publicKeyPem with
  | none =>
    have hvalue : i.publicKeyBase64 = .error .noPublicKey := by
      simp [publicKeyBase64, hpem]
    simp [hvalue, eq_comm]
  | some pem =>
    obtain ⟨point, b, der, -, hvalue, -, -⟩ := h.exists_publicKeyBase64 hpem
    simp [hvalue]

end DeviceAuth.Certificate

namespace DeviceAuth.Token

open Certificate (Identity)

/-- The client of a sound identity may be named in a request. -/
theorem blankField?_clientIdentity {i : Identity} (h : i.Sound) (idp : Option String) :
    (Request.clientIdentity i.clientId idp).blankField? = none := by
  simp [Request.blankField?_eq_none_iff, Request.required, h.clientId]

/-- A resolved identity is usable.  Its client may be granted a token, whatever comes with it; its
signing key is there, and with its private key every valid request is signed, under all lifetimes
and at all times; its public key is given out in a form that holds its point, if there is one; and
if there is none, just that is the fault, which is the caller's and none of the key. -/
theorem usable_of_resolve {bytes : List UInt8} {i : Identity}
    (h : (Certificate.resolve bytes).value = .ok i) :
    (∀ idp, (Request.clientIdentity i.clientId idp).blankField? = none) ∧
    (∃ key, i.signingKey = .ok key ∧ ∀ lifetimes r now, r.blankField? = none →
      (issueWithPem lifetimes r i.privateKeyPem now).value = .ok (r.token lifetimes key now)) ∧
    (∀ pem, i.publicKeyPem = some pem →
      ∃ point b der, Key.loadEcPublic pem = .ok point ∧ i.publicKeyBase64 = .ok b ∧
        Base64.decodeText .standard .lenient b = .ok der ∧ Key.readEcPublic der = .ok point) ∧
    (∀ f, i.publicKeyBase64 = .error f ↔ i.publicKeyPem = none ∧ f = .noPublicKey) ∧
    ∀ f, i.publicKeyBase64 = .error f → f.kind = .argument := by
  have hsound := Certificate.sound_of_resolve h
  obtain ⟨key, hkey⟩ := hsound.privateKey
  refine ⟨blankField?_clientIdentity hsound, ⟨key, hkey, fun lifetimes r now hvalid => ?_⟩,
    fun pem hpem => hsound.exists_publicKeyBase64 hpem,
    fun f => hsound.publicKeyBase64_eq_error_iff, fun f hf => ?_⟩
  · exact issueWithPem_eq_ok_iff.2 ⟨hvalid, key, hkey, rfl⟩
  · obtain ⟨-, rfl⟩ := hsound.publicKeyBase64_eq_error_iff.1 hf
    rfl

/-- The identity in a document without a public key. -/
def plainIdentity : Identity :=
  ⟨"B", none, Certificate.fivePem⟩

theorem resolve_plainText :
    (Certificate.resolve (Text.Utf8.encode Certificate.plainText)).value = .ok plainIdentity := by
  rw [Certificate.value_resolve_object Certificate.decode_plainText]
  decide +kernel

/-- An identity with both keys gives out its public key; one with a private key alone says that it
has no other, and signs a session all the same. -/
theorem usable_of_resolve_five :
    (Certificate.resolve (Text.Utf8.encode fiveText)).value = .ok fiveIdentity ∧
    (Certificate.resolve (Text.Utf8.encode Certificate.plainText)).value = .ok plainIdentity ∧
    (Request.clientIdentity "device-42" (some "")).blankField? = none ∧
    (∃ b, fiveIdentity.publicKeyBase64 = .ok b) ∧
    plainIdentity.publicKeyBase64 = .error .noPublicKey ∧
    (issueWithPem .default (.session "abc") plainIdentity.privateKeyPem epoch).value =
      .ok ((Request.session "abc").token .default ⟨5⟩ epoch) := by
  obtain ⟨hclient, -, hpublic, -, -⟩ := usable_of_resolve resolve_fiveText
  obtain ⟨-, ⟨key, hkey, hsigns⟩, -, hmissing, -⟩ := usable_of_resolve resolve_plainText
  obtain ⟨point, b, der, -, hb, -, -⟩ := hpublic fivePublicPem rfl
  have hfive : plainIdentity.signingKey = .ok ⟨5⟩ := Certificate.loadEcPrivate_fivePem
  obtain rfl : (⟨5⟩ : Key.EcPrivate) = key := Except.ok.inj (hfive.symm.trans hkey)
  exact ⟨resolve_fiveText, resolve_plainText, hclient (some ""), ⟨b, hb⟩,
    (hmissing _).2 ⟨rfl, rfl⟩, hsigns .default (.session "abc") epoch (by decide)⟩

end DeviceAuth.Token
