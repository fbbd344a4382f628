import DeviceAuth.Key
import DeviceAuth.Proofs.Der
import DeviceAuth.Proofs.Pem
import DeviceAuth.Proofs.Rsa

/-!
# DeviceAuth.Proofs.Key.Load

Loading a key as two stages: the body of a PEM text is decoded to bytes, and one reader for each
kind of key takes the bytes.  What is said here of the readers holds of the bytes alone: each takes
one whole `SEQUENCE`, and public points are read from two lengths only.  Bytes that are refused as a
verifying key are malformed, or the algorithm is another one (`reason_of_readEcPublic`).
-/

namespace DeviceAuth.Key

/-! ## The two stages -/

/-- The part that a kind of key plays. -/
def Kind.role : Kind → Role
  | .ecPrivate => .privateKey
  | .ecPublic => .publicKey
  | .rsaPublic => .publicKey

/-- Reads a key of a given kind from its bytes. -/
def readDer (kind : Kind) (der : List UInt8) : Except Reason Material :=
  match kind with
  | .ecPrivate => (readEcPrivate der).map .ecPrivate
  | .ecPublic => (readEcPublic der).map .ecPublic
  | .rsaPublic => (readRsaPublic der).map .rsaPublic

/-- A key loads when the body decodes to bytes that are read as it. -/
theorem loadWith_eq_ok_iff {α : Type} {role : Role} {read : List UInt8 → Except Reason α}
    {pem : String} {key : α} :
    loadWith role read pem = .ok key ↔ ∃ der, Pem.decode pem = .ok der ∧ read der = .ok key := by
  rw [loadWith]
  cases Pem.decode pem <;> simp

/-- A key that does not load fails in the part that it was to play. -/
theorem role_of_loadWith {α : Type} {role : Role} {read : List UInt8 → Except Reason α}
    {pem : String} {f : Failure} (h : loadWith role read pem = .error f) : f.role = role := by
  rw [loadWith] at h
  split at h
  · exact Except.error.inj h ▸ rfl
  · obtain ⟨reason, -, rfl⟩ := mapError_eq_error_iff.1 h
    rfl

/-- A loader sees of a PEM text its body. -/
theorem loadWith_of_strip_eq {α : Type} {role : Role} {read : List UInt8 → Except Reason α}
    {pem pem' : String} (h : Pem.strip pem' = Pem.strip pem) :
    loadWith role read pem' = loadWith role read pem := by
  rw [loadWith, loadWith, Pem.decode, Pem.decode, h]

theorem loadWith_map {α β : Type} (f : α → β) (role : Role) (read : List UInt8 → Except Reason α)
    (pem : String) :
    (loadWith role read pem).map f = loadWith role (fun der => (read der).map f) pem := by
  rw [loadWith, loadWith]
  cases Pem.decode pem with
  | error fault => rfl
  | ok der =>
    dsimp only
    cases read der <;> rfl

/-- The loader of every kind reads the bytes of the body in the part of that kind. -/
theorem load_eq_loadWith (kind : Kind) (pem : String) :
    load kind pem = loadWith kind.role (readDer kind) pem := by
  cases kind with
  | ecPrivate => exact loadWith_map Material.ecPrivate .privateKey readEcPrivate pem
  | ecPublic => exact loadWith_map Material.ecPublic .publicKey readEcPublic pem
  | rsaPublic => exact loadWith_map Material.rsaPublic .publicKey readRsaPublic pem

/-- A body that decodes is loaded as its bytes are read. -/
theorem load_of_decode (kind : Kind) {pem : String} {der : List UInt8}
    (h : Pem.decode pem = .ok der) :
    load kind pem = (readDer kind der).mapError (⟨kind.role, ·⟩) := by
  rw [load_eq_loadWith, loadWith, h]

/-- A key in a blank text has no bytes. -/
theorem loadRsaPublic_of_blank {pem : String} (h : Text.blank pem = true) :
    loadRsaPublic pem = .error ⟨.publicKey, .malformed .rsaPublic []⟩ := by
  rw [loadRsaPublic, loadWith, Pem.decode_of_blank h]
  rfl

/-! ## Written forms -/

/-- The algorithm identifier of RSA keys. -/
def rsaAlgorithm : Der.Algorithm :=
  ⟨.rsaEncryption, some ⟨Der.tagNull, []⟩⟩

/-- The `SubjectPublicKeyInfo` of an RSA key. -/
def writeRsaPublic (key : Rsa.PublicKey) : List UInt8 :=
  Der.PublicKeyInfo.encode rsaAlgorithm (Der.writeRsaNumbers key.modulus key.exponent)

/-- The `PrivateKeyInfo` of a private key without its public point, with optional fields. -/
def writeEcPrivate (key : EcPrivate) (fields : List Der.Element) : List UInt8 :=
  Der.writeSequence (Der.writeNatural 0 ++ Der.writeAlgorithm ecAlgorithm ++
    Der.writeElement ⟨Der.tagOctetString, Der.writeSequence (Der.writeNatural 1 ++
      Der.writeElement ⟨Der.tagOctetString, beBytes 32 key.scalar⟩)⟩ ++
    fields.flatMap Der.writeElement)

/-! ## Steps of the readers -/

@[simp] theorem wellFormed_eq_ok_iff {α : Type} {kind : Kind} {der : List UInt8} {o : Option α}
    {a : α} : wellFormed kind der o = .ok a ↔ o = some a := by
  cases o <;> simp [wellFormed]

theorem eq_malformed_of_wellFormed {α : Type} {kind : Kind} {der : List UInt8} {o : Option α}
    {e : Reason} (h : wellFormed kind der o = .error e) : e = .malformed kind der := by
  cases o with
  | none => exact (Except.error.inj h).symm
  | some a => contradiction

/-- The one algorithm that is accepted for keys on P-256. -/
theorem eq_ecAlgorithm_of_checkEc {kind : Kind} {der : List UInt8} {mismatch : Der.Oid → Reason}
    {a : Der.Algorithm} (h : checkEc kind der mismatch a = .ok ()) : a = ecAlgorithm := by
  unfold checkEc at h
  split at h
  · contradiction
  · next hoid =>
    obtain ⟨curve, hcurve, h⟩ := bind_eq_ok_iff.1 h
    split at h
    · contradiction
    · next hp256 =>
      rw [not_not] at hoid hp256
      have hparameters := Der.Algorithm.parameters_of_parameterOid? (wellFormed_eq_ok_iff.1 hcurve)
      rw [hp256] at hparameters
      cases a
      simp_all [ecAlgorithm]

/-! ## What is read -/

/-- A key of any kind is read from one whole `SEQUENCE`. -/
theorem readWhole_of_readDer {kind : Kind} {der : List UInt8} {key : Material}
    (h : readDer kind der = .ok key) :
    ∃ content, Der.readWhole Der.tagSequence der = some content := by
  cases kind with
  | ecPrivate =>
    obtain ⟨k, hk, -⟩ := map_eq_ok_iff.1 h
    obtain ⟨info, hinfo, -⟩ := bind_eq_ok_iff.1 hk
    exact Der.PrivateKeyInfo.readWhole_of_decode? (wellFormed_eq_ok_iff.1 hinfo)
  | ecPublic =>
    obtain ⟨k, hk, -⟩ := map_eq_ok_iff.1 h
    obtain ⟨info, hinfo, -⟩ := bind_eq_ok_iff.1 hk
    exact Der.PublicKeyInfo.readWhole_of_decode? (wellFormed_eq_ok_iff.1 hinfo)
  | rsaPublic =>
    obtain ⟨k, hk, -⟩ := map_eq_ok_iff.1 h
    obtain ⟨info, hinfo, -⟩ := bind_eq_ok_iff.1 hk
    exact Der.PublicKeyInfo.readWhole_of_decode? (wellFormed_eq_ok_iff.1 hinfo)

/-- An RSA key is read from the written form of its numbers. -/
theorem eq_encode_of_readRsaPublic {der : List UInt8} {key : Rsa.PublicKey}
    (h : readRsaPublic der = .ok key) :
    ∃ bits n e, der = Der.PublicKeyInfo.encode rsaAlgorithm bits ∧
      Der.readRsaNumbers? bits = some (n, e) ∧ Rsa.PublicKey.ofNumbers n e = .ok key := by
  obtain ⟨info, hinfo, h⟩ := bind_eq_ok_iff.1 h
  dsimp only at h
  by_cases halgorithm : info.algorithm.oid ≠ .rsaEncryption
  · rw [if_pos halgorithm] at h
    contradiction
  rw [if_neg halgorithm] at h
  obtain ⟨parameters, hparameters, h⟩ := bind_eq_ok_iff.1 h
  by_cases hnull : parameters ≠ ⟨Der.tagNull, []⟩
  · rw [if_pos hnull] at h
    contradiction
  rw [if_neg hnull] at h
  cases haligned : info.key.aligned? with
  | none =>
    rw [haligned] at h
    contradiction
  | some bits =>
    rw [haligned] at h
    obtain ⟨⟨n, e⟩, hnumbers, h⟩ := bind_eq_ok_iff.1 h
    have hder := Der.PublicKeyInfo.eq_encode_of_decode? (wellFormed_eq_ok_iff.1 hinfo) haligned
    have hinfo : info.algorithm = rsaAlgorithm := by
      rw [not_not] at halgorithm hnull
      rw [wellFormed_eq_ok_iff, hnull] at hparameters
      rw [rsaAlgorithm, ← halgorithm, ← hparameters]
    rw [hinfo] at hder
    exact ⟨bits, n, e, hder, wellFormed_eq_ok_iff.1 hnumbers, mapError_eq_ok_iff.1 h⟩

/-- An RSA key is made of the numbers that are read. -/
theorem ofNumbers_of_loadRsaPublic {pem : String} {key : Rsa.PublicKey}
    (h : loadRsaPublic pem = .ok key) : ∃ n e, Rsa.PublicKey.ofNumbers n e = .ok key := by
  obtain ⟨der, -, hread⟩ := loadWith_eq_ok_iff.1 h
  obtain ⟨bits, n, e, -, -, hkey⟩ := eq_encode_of_readRsaPublic hread
  exact ⟨n, e, hkey⟩

theorem length_of_decodePoint? {bs : List UInt8} {point : P256.Point}
    (h : P256.decodePoint? bs = some point) : bs.length = 65 ∨ bs.length = 33 := by
  cases bs with
  | nil => contradiction
  | cons form coords =>
    rw [P256.decodePoint?] at h
    split at h
    · next hfull =>
      left
      simp [hfull.2]
    · split at h
      · next hhalf =>
        right
        simp [hhalf]
      · contradiction

/-- A public point is read from the written form of its encoding. -/
theorem eq_encode_of_readEcPublic {der : List UInt8} {point : P256.Point}
    (h : readEcPublic der = .ok point) :
    ∃ bits, P256.decodePoint? bits = some point ∧
      der = Der.PublicKeyInfo.encode ecAlgorithm bits := by
  obtain ⟨info, hinfo, h⟩ := bind_eq_ok_iff.1 h
  obtain ⟨_, hcheck, h⟩ := bind_eq_ok_iff.1 h
  obtain ⟨bits, hbits, hpoint⟩ := Option.bind_eq_some_iff.1 (wellFormed_eq_ok_iff.1 h)
  have hder := Der.PublicKeyInfo.eq_encode_of_decode? (wellFormed_eq_ok_iff.1 hinfo) hbits
  rw [eq_ecAlgorithm_of_checkEc hcheck] at hder
  exact ⟨bits, hpoint, hder⟩

/-- A public point takes up 91 bytes, or 59 if it is compressed. -/
theorem length_of_readEcPublic {der : List UInt8} {point : P256.Point}
    (h : readEcPublic der = .ok point) : der.length = 91 ∨ der.length = 59 := by
  obtain ⟨bits, hpoint, rfl⟩ := eq_encode_of_readEcPublic h
  have halgorithm : (Der.writeAlgorithm ecAlgorithm).length = 21 := by decide
  have hlen := length_of_decodePoint? hpoint
  have hbits : (Der.writeBitString bits).length = bits.length + 3 := by
    rw [Der.writeBitString, Der.length_writeElement]
    · rfl
    · simp only [List.length_cons]
      omega
  have hall : (Der.PublicKeyInfo.encode ecAlgorithm bits).length = bits.length + 26 := by
    rw [Der.PublicKeyInfo.encode, Der.writeSequence, Der.length_writeElement]
    · simp only [List.length_append, halgorithm, hbits]
      omega
    · simp only [List.length_append, halgorithm, hbits]
      omega
  omega

/-! ## What is refused -/

/-- The reasons for which a text does not load as a verifying key and which are worded here; the
others are the words of a parser on malformed bytes. -/
inductive Reason.Described : Reason → Prop
  | base64 (fault : Base64.Fault) : Described (.base64 fault)
  | algorithm : Described (.algorithm .ecPublicKey)
  | curve : Described (.algorithm .prime256v1)

theorem reason_of_checkEc {kind : Kind} {der : List UInt8} {a : Der.Algorithm} {e : Reason}
    (h : checkEc kind der .algorithm a = .error e) : e = .malformed kind der ∨ e.Described := by
  unfold checkEc at h
  split at h
  · exact .inr (Except.error.inj h ▸ .algorithm)
  · rcases bind_eq_error_iff.1 h with h | ⟨curve, -, h⟩
    · exact .inl (eq_malformed_of_wellFormed h)
    · split at h
      · exact .inr (Except.error.inj h ▸ .curve)
      · contradiction

theorem reason_of_readEcPublic {der : List UInt8} {e : Reason} (h : readEcPublic der = .error e) :
    e = .malformed .ecPublic der ∨ e.Described := by
  rcases bind_eq_error_iff.1 h with h | ⟨info, -, h⟩
  · exact .inl (eq_malformed_of_wellFormed h)
  · rcases bind_eq_error_iff.1 h with h | ⟨_, -, h⟩
    · exact reason_of_checkEc h
    · exact .inl (eq_malformed_of_wellFormed h)

/-- A text that does not load as a verifying key fails at its body, at the layout of its bytes or
at its algorithm. -/
theorem reason_of_loadEcPublic {pem : String} {f : Failure} (h : loadEcPublic pem = .error f) :
    f.reason.Described ∨ ∃ der, Pem.decode pem = .ok der ∧ f.reason = .malformed .ecPublic der := by
  rw [loadEcPublic, loadWith] at h
  split at h
  · next fault _ => exact .inl (Except.error.inj h ▸ .base64 fault)
  · next der hbody =>
    obtain ⟨e, hread, rfl⟩ := mapError_eq_error_iff.1 h
    rcases reason_of_readEcPublic hread with hmalformed | hdescribed
    · exact .inr ⟨der, hbody, hmalformed⟩
    · exact .inl hdescribed

end DeviceAuth.Key
