import DeviceAuth.Proofs.Key.Load
import DeviceAuth.Proofs.Pem

/-!
# DeviceAuth.Proofs.Key.Wrapping

Which key loads from bytes that were wrapped in PEM armour.  A line of the body that holds `BEGIN`
or `END` is lost, so that other bytes reach the reader than those that were wrapped.  As long as the
first line survives, the length in it gives the loss away, and public points have too few lines to
lose one (`load_encode`).  A first line that is lost takes the length with it: what follows may hold
another RSA or private key, which is then the one that loads (`load_encode_hidden_key`).
-/

namespace DeviceAuth.Key

/-! ## What the surviving lines are read as -/

/-- Bytes that survive with their first line are read as a key only if all of them survive. -/
theorem survivors_eq_self_of_readDer {kind : Kind} {der : List UInt8} {key other : Material}
    (hkey : readDer kind der = .ok key) (hother : readDer kind (Pem.survivors der) = .ok other)
    (hfirst : ¬ Pem.Marked ((Pem.lineOf der).take Pem.columns)) : Pem.survivors der = der := by
  obtain ⟨rest, hrest⟩ := Pem.survivors_eq_take_append hfirst
  refine Pem.survivors_eq_self (Pem.not_marked_of_length_survivors ?_)
  by_cases hle : der.length ≤ Pem.bytesPerLine
  · rw [hrest, List.length_append, List.take_of_length_le hle]
    omega
  · have htake : (der.take Pem.bytesPerLine).length = Pem.bytesPerLine := by
      rw [List.length_take]
      omega
    have hsix : 6 ≤ (der.take Pem.bytesPerLine).length := by
      rw [htake]
      decide
    obtain ⟨c, hc⟩ := readWhole_of_readDer hkey
    obtain ⟨d, hd⟩ := readWhole_of_readDer hother
    rw [← List.take_append_drop Pem.bytesPerLine der] at hc
    rw [hrest] at hd
    have hsame := Der.length_eq_of_readWhole hsix hc hd
    rw [List.length_drop] at hsame
    rw [hrest, List.length_append, htake]
    omega

/-- Without the first line the bytes of a public point are too few for any. -/
theorem readDer_ecPublic_of_marked {der : List UInt8} {key other : Material}
    (hkey : readDer .ecPublic der = .ok key)
    (hfirst : Pem.Marked ((Pem.lineOf der).take Pem.columns)) :
    readDer .ecPublic (Pem.survivors der) ≠ .ok other := by
  intro hother
  obtain ⟨p, hp, -⟩ := map_eq_ok_iff.1 hkey
  obtain ⟨q, hq, -⟩ := map_eq_ok_iff.1 hother
  have hder := length_of_readEcPublic hp
  have hsurvivors := length_of_readEcPublic hq
  have hle := Pem.length_survivors_le_of_marked hfirst
  simp only [Pem.bytesPerLine] at hle
  omega

/-- A public point survives with all of its lines or is none. -/
theorem survivors_eq_self_of_readDer_ecPublic {der : List UInt8} {key other : Material}
    (hkey : readDer .ecPublic der = .ok key)
    (hother : readDer .ecPublic (Pem.survivors der) = .ok other) : Pem.survivors der = der :=
  survivors_eq_self_of_readDer hkey hother
    fun hfirst => readDer_ecPublic_of_marked hkey hfirst hother

/-- The surviving lines are read as no other key than all of them, unless the first line is marked
and the kind of key is not that of public points. -/
theorem eq_of_readDer_survivors {kind : Kind} {der : List UInt8} {key other : Material}
    (hkey : readDer kind der = .ok key) (hother : readDer kind (Pem.survivors der) = .ok other)
    (h : kind = .ecPublic ∨ ¬ Pem.Marked ((Pem.lineOf der).take Pem.columns)) : other = key := by
  by_cases hfirst : Pem.Marked ((Pem.lineOf der).take Pem.columns)
  · rcases h with rfl | h
    · exact absurd hother (readDer_ecPublic_of_marked hkey hfirst)
    · exact absurd hfirst h
  · rw [survivors_eq_self_of_readDer hkey hother hfirst, hkey, Except.ok.injEq] at hother
    exact hother.symm

/-! ## Loading what was wrapped -/

/-- Loading bytes that were wrapped.  A key loads as the bytes of the surviving lines are read.  For
bytes that are a key, that is the same key or none, if the kind is that of public points or the
first 64 characters of their Base64 hold neither `BEGIN` nor `END`. -/
theorem load_encode (kind : Kind) {label : String} {der : List UInt8} {key : Material}
    (hlabel : ∀ c ∈ label.toList, Pem.isLineEnd c = false) (hkey : readDer kind der = .ok key) :
    load kind (Pem.encode label der) =
        (readDer kind (Pem.survivors der)).mapError (⟨kind.role, ·⟩) ∧
      (kind = .ecPublic ∨ ¬ Pem.Marked ((Base64.encode .standard der).toList.take 64) →
        load kind (Pem.encode label der) = .ok key ∨
          ∃ reason, load kind (Pem.encode label der) = .error ⟨kind.role, reason⟩) := by
  have hload : load kind (Pem.encode label der) =
      (readDer kind (Pem.survivors der)).mapError (⟨kind.role, ·⟩) :=
    load_of_decode kind (Pem.decode_encode hlabel der)
  refine ⟨hload, fun h => ?_⟩
  cases hother : readDer kind (Pem.survivors der) with
  | error reason =>
    right
    exact ⟨reason, by rw [hload, hother]; rfl⟩
  | ok other =>
    left
    rw [hload, hother, eq_of_readDer_survivors hkey hother h]
    rfl

/-! ### Keys with marked lines -/

/-- An RSA key with `END` in the second line of its body. -/
def endingRsaKey : Rsa.PublicKey where
  modulus := 0x010101010101010101010101010101010101010101010101 <<< 200 +
    0x10d0c001010101010101010101010101010101010101010101
  exponent := 3

/-- A public point with `END` in the first line of its body. -/
def endingPoint : P256.Point :=
  .affine 0x10d0c00000000000000000000000000000000000000000000000000000000000
    0x81c7e6d2c30eaae2b077d7afc43f436840aa75edc3a7ae5dd30424596bfb11a5

/-- Neither key loads as another one when it is wrapped. -/
theorem load_encode_ending_keys :
    (∀ c ∈ "PUBLIC KEY".toList, Pem.isLineEnd c = false) ∧
      (readDer .rsaPublic (writeRsaPublic endingRsaKey) = .ok (.rsaPublic endingRsaKey) ∧
        ¬ Pem.Marked ((Base64.encode .standard (writeRsaPublic endingRsaKey)).toList.take 64) ∧
        (load .rsaPublic (Pem.encode "PUBLIC KEY" (writeRsaPublic endingRsaKey)) =
            .ok (.rsaPublic endingRsaKey) ∨
          ∃ reason, load .rsaPublic (Pem.encode "PUBLIC KEY" (writeRsaPublic endingRsaKey)) =
            .error ⟨.publicKey, reason⟩)) ∧
      (readDer .ecPublic (writeEcPublic endingPoint) = .ok (.ecPublic endingPoint) ∧
        (load .ecPublic (Pem.encode "PUBLIC KEY" (writeEcPublic endingPoint)) =
            .ok (.ecPublic endingPoint) ∨
          ∃ reason, load .ecPublic (Pem.encode "PUBLIC KEY" (writeEcPublic endingPoint)) =
            .error ⟨.publicKey, reason⟩)) := by
  have hlabel : ∀ c ∈ "PUBLIC KEY".toList, Pem.isLineEnd c = false := by
    simp [Pem.isLineEnd]
  have hrsa : readDer .rsaPublic (writeRsaPublic endingRsaKey) = .ok (.rsaPublic endingRsaKey) := by
    decide +kernel
  have hfirst : ¬ Pem.Marked
      ((Base64.encode .standard (writeRsaPublic endingRsaKey)).toList.take 64) := by
    decide +kernel
  have hpoint : readDer .ecPublic (writeEcPublic endingPoint) = .ok (.ecPublic endingPoint) := by
    decide +kernel
  exact ⟨hlabel, ⟨hrsa, hfirst, (load_encode .rsaPublic hlabel hrsa).2 (.inr hfirst)⟩,
    hpoint, (load_encode .ecPublic hlabel hpoint).2 (.inl rfl)⟩

/-- A small RSA key. -/
def hiddenRsaKey : Rsa.PublicKey where
  modulus := 15
  exponent := 3

/-- An RSA key with `BEGIN` in the first line of its body and the small key in the second. -/
def hidingRsaKey : Rsa.PublicKey where
  modulus := 0x044188340000010101010101010101010101010101010101 <<< 200 +
    0x301a300d06092a864886f70d0101010500030900300602010f
  exponent := 3

/-- A private key. -/
def hiddenEcKey : EcPrivate where
  scalar := 0x0101010101010101010101010101010101010101010101010101010101010101

/-- A private key with `END` in the first line of its body. -/
def hidingEcKey : EcPrivate where
  scalar := 0x10d0c00101010101010101010101010101010101010101010101010101010101

/-- An optional field with `BEGIN` in the second line of the body and a private key after it. -/
def hidingField : Der.Element where
  tag := Der.explicitTag 0
  content := Der.writeElement ⟨Der.tagOctetString,
    [0x04, 0x41, 0x88, 0x34] ++ List.replicate 20 0x00 ++ writeEcPrivate hiddenEcKey []⟩

/-- An RSA key and a private key that each load as another key when they are wrapped: the lines
that survive are all of that other key. -/
theorem load_encode_hidden_key :
    ((∀ c ∈ "PUBLIC KEY".toList, Pem.isLineEnd c = false) ∧
      readDer .rsaPublic (writeRsaPublic hidingRsaKey) = .ok (.rsaPublic hidingRsaKey) ∧
      load .rsaPublic (Pem.encode "PUBLIC KEY" (writeRsaPublic hidingRsaKey)) =
        .ok (.rsaPublic hiddenRsaKey) ∧
      hiddenRsaKey ≠ hidingRsaKey) ∧
    ((∀ c ∈ "PRIVATE KEY".toList, Pem.isLineEnd c = false) ∧
      readDer .ecPrivate (writeEcPrivate hidingEcKey [hidingField]) =
        .ok (.ecPrivate hidingEcKey) ∧
      load .ecPrivate (Pem.encode "PRIVATE KEY" (writeEcPrivate hidingEcKey [hidingField])) =
        .ok (.ecPrivate hiddenEcKey) ∧
      hiddenEcKey ≠ hidingEcKey) := by
  have hpublic : ∀ c ∈ "PUBLIC KEY".toList, Pem.isLineEnd c = false := by
    simp [Pem.isLineEnd]
  have hprivate : ∀ c ∈ "PRIVATE KEY".toList, Pem.isLineEnd c = false := by
    simp [Pem.isLineEnd]
  have hrsa : Pem.survivors (writeRsaPublic hidingRsaKey) = writeRsaPublic hiddenRsaKey := by
    decide +kernel
  have hec : Pem.survivors (writeEcPrivate hidingEcKey [hidingField]) =
      writeEcPrivate hiddenEcKey [] := by
    decide +kernel
  have hloadRsa := load_of_decode .rsaPublic
    (Pem.decode_encode hpublic (writeRsaPublic hidingRsaKey))
  have hloadEc := load_of_decode .ecPrivate
    (Pem.decode_encode hprivate (writeEcPrivate hidingEcKey [hidingField]))
  rw [hrsa] at hloadRsa
  rw [hec] at hloadEc
  refine ⟨⟨hpublic, by decide +kernel, ?_, by decide⟩, hprivate, by decide +kernel, ?_, by decide⟩
  · rw [hloadRsa]
    decide +kernel
  · rw [hloadEc]
    decide +kernel

end DeviceAuth.Key
