import DeviceAuth.Proofs.Key.Wrapping
import DeviceAuth.Proofs.Pem.Body

/-!
# DeviceAuth.Proofs.Key.Export

Public keys that are written out again.  Every point that is read is on the curve, whichever form
it was read from, and a point on the curve is written in one form, from which it is read back.  So
the exported text of a key stands for its point: texts of one point are exported alike, texts of two
are not, and what was exported is exported again as it is (`publicKeyBase64_canonical`).
-/

namespace DeviceAuth.P256

/-! ## Points -/

/-- A point with coordinates that satisfy the equation of the curve. -/
def Point.OnCurve : Point → Prop
  | .infinity => False
  | .affine x y => onCurve x y = true

/-- Coordinates on the curve fit thirty-two bytes. -/
theorem lt_of_onCurve {x y : Nat} (h : onCurve x y = true) : x < 256 ^ 32 ∧ y < 256 ^ 32 := by
  rw [onCurve, Bool.and_eq_true, Bool.and_eq_true, decide_eq_true_eq, decide_eq_true_eq] at h
  have hprime : prime < 256 ^ 32 := by decide
  exact ⟨Nat.lt_trans h.1.1 hprime, Nat.lt_trans h.1.2 hprime⟩

/-- Every point that is read is on the curve. -/
theorem onCurve_of_decodePoint? {bs : List UInt8} {point : Point}
    (h : decodePoint? bs = some point) : point.OnCurve := by
  have hsome : ∀ x y, (if onCurve x y then some (Point.affine x y) else none) = some point →
      point.OnCurve := by
    intro x y hxy
    split at hxy
    · next hcurve =>
      rw [Option.some.injEq] at hxy
      rw [← hxy]
      exact hcurve
    · contradiction
  cases bs with
  | nil => contradiction
  | cons form coords =>
    rw [decodePoint?] at h
    split at h
    · exact hsome _ _ h
    split at h
    · split at h
      · obtain ⟨y, -, hy⟩ := Option.bind_eq_some_iff.1 h
        exact hsome _ _ hy
      split at h
      · obtain ⟨y, -, hy⟩ := Option.bind_eq_some_iff.1 h
        exact hsome _ _ hy
      split at h
      · obtain ⟨y, -, hy⟩ := Option.bind_eq_some_iff.1 h
        exact hsome _ _ hy
      · contradiction
    · contradiction

theorem length_encodePoint {point : Point} (h : point.OnCurve) :
    (encodePoint point).length = 65 := by
  cases point with
  | infinity => contradiction
  | affine x y => rw [encodePoint, List.length_cons, List.length_append, length_beBytes,
      length_beBytes]

/-- A point on the curve is read back from both its coordinates. -/
theorem decodePoint?_encodePoint {point : Point} (h : point.OnCurve) :
    decodePoint? (encodePoint point) = some point := by
  cases point with
  | infinity => contradiction
  | affine x y =>
    have hlt := lt_of_onCurve h
    have hlen : (beBytes 32 x ++ beBytes 32 y).length = 64 := by
      rw [List.length_append, length_beBytes, length_beBytes]
    have htake : (beBytes 32 x ++ beBytes 32 y).take 32 = beBytes 32 x :=
      List.take_left' (length_beBytes 32 x)
    have hdrop : (beBytes 32 x ++ beBytes 32 y).drop 32 = beBytes 32 y :=
      List.drop_left' (length_beBytes 32 x)
    rw [encodePoint, decodePoint?, if_pos ⟨rfl, hlen⟩, htake, hdrop, beNat_beBytes_of_lt hlt.1,
      beNat_beBytes_of_lt hlt.2]
    exact if_pos h

end DeviceAuth.P256

namespace DeviceAuth.Key

/-! ## Public keys -/

/-- The point of a key that loads is on the curve. -/
theorem onCurve_of_loadEcPublic {pem : String} {point : P256.Point}
    (h : loadEcPublic pem = .ok point) : point.OnCurve := by
  obtain ⟨der, -, hread⟩ := loadWith_eq_ok_iff.1 h
  obtain ⟨bits, hpoint, -⟩ := eq_encode_of_readEcPublic hread
  exact P256.onCurve_of_decodePoint? hpoint

theorem ecAlgorithm_proper : ecAlgorithm.Proper where
  oid := by decide
  parameters := by
    intro e he
    rw [ecAlgorithm, Option.some.injEq] at he
    subst he
    decide

/-- What stands in front of the encoding of a point: the lengths, the two identifiers of the
algorithm, and the number of unused bits. -/
def ecPublicHeader : List UInt8 :=
  [0x30, 0x59, 0x30, 0x13, 0x06, 0x07, 0x2A, 0x86, 0x48, 0xCE, 0x3D, 0x02, 0x01, 0x06, 0x08, 0x2A,
   0x86, 0x48, 0xCE, 0x3D, 0x03, 0x01, 0x07, 0x03, 0x42, 0x00]

/-- Points on the curve are all written behind the same bytes. -/
theorem writeEcPublic_eq {point : P256.Point} (h : point.OnCurve) :
    writeEcPublic point = ecPublicHeader ++ P256.encodePoint point := by
  have hbits : (0 :: P256.encodePoint point).length = 66 := by
    rw [List.length_cons, P256.length_encodePoint h]
  have hcontent : (Der.writeAlgorithm ecAlgorithm ++
      Der.writeElement ⟨Der.tagBitString, 0 :: P256.encodePoint point⟩).length = 89 := by
    have halgorithm : (Der.writeAlgorithm ecAlgorithm).length = 21 := by decide
    rw [List.length_append, halgorithm, Der.length_writeElement]
    · simp only [hbits]
    · simp only [hbits]
      decide
  have hheader : ecPublicHeader = Der.tagSequence :: (Der.writeLength 89 ++
      (Der.writeAlgorithm ecAlgorithm ++ Der.tagBitString :: (Der.writeLength 66 ++ [0]))) := by
    decide
  rw [writeEcPublic, Der.PublicKeyInfo.encode, Der.writeSequence, Der.writeBitString,
    Der.writeElement, hcontent, Der.writeElement, hbits, hheader]
  simp

/-- The written form of a point takes up 91 bytes. -/
theorem length_writeEcPublic {point : P256.Point} (h : point.OnCurve) :
    (writeEcPublic point).length = 91 := by
  rw [writeEcPublic_eq h, List.length_append, P256.length_encodePoint h]
  rfl

/-- A point on the curve is read back from what is written of it. -/
theorem readEcPublic_writeEcPublic {point : P256.Point} (h : point.OnCurve) :
    readEcPublic (writeEcPublic point) = .ok point := by
  have hlen : (writeEcPublic point).length ≤ Der.maxLength := by
    rw [length_writeEcPublic h]
    decide
  have hinfo : Der.PublicKeyInfo.decode? (writeEcPublic point) =
      some ⟨ecAlgorithm, ⟨0, P256.encodePoint point⟩⟩ :=
    Der.PublicKeyInfo.decode?_encode ecAlgorithm_proper hlen
  have hcheck : checkEc .ecPublic (writeEcPublic point) .algorithm ecAlgorithm = .ok () := rfl
  have hpoint : (Der.BitString.aligned? ⟨0, P256.encodePoint point⟩).bind P256.decodePoint? =
      some point := P256.decodePoint?_encodePoint h
  rw [readEcPublic, hinfo, wellFormed]
  dsimp only [bind, Except.bind]
  rw [hcheck]
  dsimp only
  rw [hpoint, wellFormed]

/-- The exported text of a key that loads. -/
theorem publicKeyBase64_of_load {pem : String} {point : P256.Point}
    (h : loadEcPublic pem = .ok point) :
    publicKeyBase64 pem = .ok (Base64.encode .standard (writeEcPublic point)) := by
  rw [publicKeyBase64, h]
  rfl

/-! ## The exported text stands for the key -/

/-- A text that does not load is not exported either, and fails as it does when it is loaded. -/
theorem publicKeyBase64_of_load_error {pem : String} {f : Failure}
    (h : loadEcPublic pem = .error f) : publicKeyBase64 pem = .error f := by
  rw [publicKeyBase64, h]
  rfl

/-- What is exported is the text of a point that loads. -/
theorem publicKeyBase64_eq_ok_iff {pem text : String} :
    publicKeyBase64 pem = .ok text ↔ ∃ point, loadEcPublic pem = .ok point ∧
      text = Base64.encode .standard (writeEcPublic point) := by
  rw [publicKeyBase64, map_eq_ok_iff]
  simp only [eq_comm]

theorem writeEcPublic_injective {p q : P256.Point} (hp : p.OnCurve) (hq : q.OnCurve)
    (h : writeEcPublic p = writeEcPublic q) : p = q := by
  have hread := readEcPublic_writeEcPublic hp
  rw [h, readEcPublic_writeEcPublic hq, Except.ok.injEq] at hread
  exact hread.symm

/-- Keys are exported alike exactly when they are the same point. -/
theorem publicKeyBase64_eq_iff {pem other : String} {p q : P256.Point}
    (hp : loadEcPublic pem = .ok p) (hq : loadEcPublic other = .ok q) :
    publicKeyBase64 pem = publicKeyBase64 other ↔ p = q := by
  rw [publicKeyBase64_of_load hp, publicKeyBase64_of_load hq, Except.ok.injEq]
  constructor
  · intro h
    exact writeEcPublic_injective (onCurve_of_loadEcPublic hp) (onCurve_of_loadEcPublic hq)
      (Base64.encode_injective Base64.standard_proper h)
  · rintro rfl
    rfl

/-- A body of what was written of a point loads as that point. -/
theorem loadEcPublic_of_decode {pem : String} {point : P256.Point} (h : point.OnCurve)
    (hbody : Pem.decode pem = .ok (writeEcPublic point)) : loadEcPublic pem = .ok point :=
  loadWith_eq_ok_iff.2 ⟨_, hbody, readEcPublic_writeEcPublic h⟩

/-- A point that was wrapped in lines of 64 columns loads as no other, and as itself exactly when
none of these lines holds `BEGIN` or `END`. -/
theorem loadEcPublic_encode_eq_ok_iff {label : String} {point other : P256.Point}
    (hlabel : ∀ c ∈ label.toList, Pem.isLineEnd c = false) (h : point.OnCurve) :
    loadEcPublic (Pem.encode label (writeEcPublic point)) = .ok other ↔ other = point ∧
      ∀ line ∈ splitEvery 64 (Base64.encode .standard (writeEcPublic point)).toList,
        ¬ Pem.Marked line := by
  have hread := readEcPublic_writeEcPublic h
  rw [← Pem.decode_encode_iff hlabel]
  constructor
  · intro hload
    obtain ⟨der, hder, hother⟩ := loadWith_eq_ok_iff.1 hload
    rw [Pem.decode_encode hlabel, Except.ok.injEq] at hder
    subst hder
    have hself := survivors_eq_self_of_readDer_ecPublic (map_eq_ok_iff.2 ⟨_, hread, rfl⟩)
      (map_eq_ok_iff.2 ⟨_, hother, rfl⟩)
    rw [hself, hread, Except.ok.injEq] at hother
    exact ⟨hother.symm, by rw [Pem.decode_encode hlabel, hself]⟩
  · rintro ⟨rfl, hbody⟩
    exact loadEcPublic_of_decode h hbody

/-- A body that is an exported text is exported as that text. -/
theorem publicKeyBase64_of_strip_eq {pem again text : String} (h : publicKeyBase64 pem = .ok text)
    (hbody : Pem.strip again = text) : publicKeyBase64 again = .ok text := by
  obtain ⟨point, hpoint, rfl⟩ := publicKeyBase64_eq_ok_iff.1 h
  exact publicKeyBase64_of_load
    (loadEcPublic_of_decode (onCurve_of_loadEcPublic hpoint) (Pem.decode_of_strip_eq hbody))

/-- An exported text that was wrapped in lines of 64 columns is exported as no other, and as itself
exactly when none of these lines holds `BEGIN` or `END`. -/
theorem publicKeyBase64_encode_eq_ok_iff {pem text again label : String} {der : List UInt8}
    (h : publicKeyBase64 pem = .ok text)
    (hder : Base64.decodeText .standard .lenient text = .ok der)
    (hlabel : ∀ c ∈ label.toList, Pem.isLineEnd c = false) :
    publicKeyBase64 (Pem.encode label der) = .ok again ↔
      again = text ∧ ∀ line ∈ splitEvery 64 text.toList, ¬ Pem.Marked line := by
  obtain ⟨point, hpoint, rfl⟩ := publicKeyBase64_eq_ok_iff.1 h
  rw [Base64.decodeText_encode Base64.standard_proper, Except.ok.injEq] at hder
  subst hder
  have hcurve := onCurve_of_loadEcPublic hpoint
  simp only [publicKeyBase64_eq_ok_iff, loadEcPublic_encode_eq_ok_iff hlabel hcurve]
  constructor
  · rintro ⟨q, ⟨rfl, hlines⟩, rfl⟩
    exact ⟨rfl, hlines⟩
  · rintro ⟨rfl, hlines⟩
    exact ⟨point, ⟨rfl, hlines⟩, rfl⟩

/-- The exported text of a public key is a canonical form of it.  A text that does not load fails as
it does when it is loaded.  A point is exported as the padded Base64 of its 91 bytes, uncompressed,
from which it is read again, so that two texts are exported alike exactly when they are the same
point.  A body that is an exported text is exported unchanged, and there is a text with that body;
wrapping in lines of 64 columns gives one exactly when no line holds `BEGIN` or `END`. -/
theorem publicKeyBase64_canonical (pem : String) :
    (∀ f, loadEcPublic pem = .error f → publicKeyBase64 pem = .error f) ∧
    (∀ point, loadEcPublic pem = .ok point →
      publicKeyBase64 pem = .ok (Base64.encode .standard (writeEcPublic point)) ∧
      writeEcPublic point = ecPublicHeader ++ P256.encodePoint point ∧
      (writeEcPublic point).length = 91 ∧
      readEcPublic (writeEcPublic point) = .ok point ∧
      ∀ other q, loadEcPublic other = .ok q →
        (publicKeyBase64 pem = publicKeyBase64 other ↔ point = q)) ∧
    ∀ text, publicKeyBase64 pem = .ok text →
      (∃ again, Pem.strip again = text) ∧
      (∀ again, Pem.strip again = text → publicKeyBase64 again = .ok text) ∧
      ∀ label der again, (∀ c ∈ label.toList, Pem.isLineEnd c = false) →
        Base64.decodeText .standard .lenient text = .ok der →
        (publicKeyBase64 (Pem.encode label der) = .ok again ↔
          again = text ∧ ∀ line ∈ splitEvery 64 text.toList, ¬ Pem.Marked line) := by
  refine ⟨fun f => publicKeyBase64_of_load_error, fun point h => ?_, fun text h => ?_⟩
  · have hcurve := onCurve_of_loadEcPublic h
    exact ⟨publicKeyBase64_of_load h, writeEcPublic_eq hcurve, length_writeEcPublic hcurve,
      readEcPublic_writeEcPublic hcurve, fun other q => publicKeyBase64_eq_iff h⟩
  · refine ⟨?_, fun again => publicKeyBase64_of_strip_eq h, fun label der again hlabel hder =>
      publicKeyBase64_encode_eq_ok_iff h hder hlabel⟩
    obtain ⟨point, -, rfl⟩ := publicKeyBase64_eq_ok_iff.1 h
    exact Pem.exists_strip_eq (writeEcPublic point)

/-- The base point with both its coordinates, between other lines and without padding. -/
def basePem : String :=
  "the base point\r\n" ++
    "-----BEGIN PUBLIC KEY-----\r\n" ++
    "  MFkwEwYHKoZIzj0CAQYIKoZIzj0DAQcD\r\n" ++
    "QgAEaxfR8uEsQkf4vOblY6RA8ncDfYEt6zOg9KE5\r\n" ++
    "RdiYwpZP40Li/hp/m47n60p8D54WK84zV2sxXs7LtkBoN79R9Q\r\n" ++
    "-----END PUBLIC KEY-----\r\n" ++
    "uncompressed\r\n"

/-- The base point with its first coordinate only, on one line. -/
def compressedBasePem : String :=
  "-----BEGIN KEY-----\n" ++
    "MDkwEwYHKoZIzj0CAQYIKoZIzj0DAQcDIgADaxfR8uEsQkf4vOblY6RA8ncDfYEt6zOg9KE5RdiYwpY=\n" ++
    "-----END KEY-----\n"

/-- The text that both are exported as. -/
def baseText : String :=
  "MFkwEwYHKoZIzj0CAQYIKoZIzj0DAQcDQgAEaxfR8uEsQkf4vOblY6RA8ncDfYEt" ++
    "6zOg9KE5RdiYwpZP40Li/hp/m47n60p8D54WK84zV2sxXs7LtkBoN79R9Q=="

/-- Both texts of the base point are exported alike, and the exported text as itself. -/
theorem publicKeyBase64_canonical_base :
    (loadEcPublic compressedBasePem = .ok P256.base ∧ loadEcPublic basePem = .ok P256.base) ∧
    publicKeyBase64 compressedBasePem = .ok baseText ∧
    publicKeyBase64 compressedBasePem = publicKeyBase64 basePem ∧
    ((∀ c ∈ "PUBLIC KEY".toList, Pem.isLineEnd c = false) ∧
      Base64.decodeText .standard .lenient baseText = .ok (writeEcPublic P256.base) ∧
      publicKeyBase64 (Pem.encode "PUBLIC KEY" (writeEcPublic P256.base)) = .ok baseText) ∧
    (loadEcPublic "" = .error ⟨.publicKey, .malformed .ecPublic []⟩ ∧
      publicKeyBase64 "" = .error ⟨.publicKey, .malformed .ecPublic []⟩) := by
  obtain ⟨-, hexport, hagain⟩ := publicKeyBase64_canonical compressedBasePem
  obtain ⟨hfail, -⟩ := publicKeyBase64_canonical ""
  have hcompressed : loadEcPublic compressedBasePem = .ok P256.base := by decide +kernel
  have hfull : loadEcPublic basePem = .ok P256.base := by decide +kernel
  obtain ⟨htext, -, -, -, hother⟩ := hexport _ hcompressed
  have hbase : Base64.encode .standard (writeEcPublic P256.base) = baseText := by decide +kernel
  have hdecode : Base64.decodeText .standard .lenient baseText = .ok (writeEcPublic P256.base) := by
    decide +kernel
  have hlabel : ∀ c ∈ "PUBLIC KEY".toList, Pem.isLineEnd c = false := by
    simp [Pem.isLineEnd]
  have hlines : ∀ line ∈ splitEvery 64 baseText.toList, ¬ Pem.Marked line := by decide +kernel
  have hblank : loadEcPublic "" = .error ⟨.publicKey, .malformed .ecPublic []⟩ := by decide +kernel
  rw [hbase] at htext
  obtain ⟨-, -, hwrapped⟩ := hagain _ htext
  exact ⟨⟨hcompressed, hfull⟩, htext, (hother _ _ hfull).2 rfl,
    ⟨hlabel, hdecode, (hwrapped _ _ _ hlabel hdecode).2 ⟨rfl, hlines⟩⟩, hblank, hfail _ hblank⟩

end DeviceAuth.Key
