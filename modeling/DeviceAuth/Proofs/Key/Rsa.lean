import DeviceAuth.Proofs.Der.Form
import DeviceAuth.Proofs.Key.Load
import DeviceAuth.Proofs.Pem.Body
import Mathlib.Data.Nat.Size

/-!
# DeviceAuth.Proofs.Key.Rsa

Which texts load as an RSA key.  The rules of DER leave a pair of numbers one `SubjectPublicKeyInfo`
(`IsRsaPublic`), and a key is read from that and from nothing else, if its numbers are admissible.
These are small enough for every length on the way, so that each admissible pair has its bytes, and
a text that loads as it.
-/

namespace DeviceAuth.Rsa

/-! ## Numbers -/

/-- The numbers of a key: an odd modulus of at most 16384 bits, and below it an odd exponent from 3
up to `2 ^ 33 - 1`. -/
structure Admissible (n e : Nat) : Prop where
  modulus_size : n.size ≤ 16384
  modulus_odd : Odd n
  exponent_odd : Odd e
  three_le_exponent : 3 ≤ e
  exponent_le : e ≤ 2 ^ 33 - 1
  exponent_lt : e < n

theorem lt_pow_two_iff {n k : Nat} : n < Nat.pow 2 k ↔ n.size ≤ k :=
  Nat.size_le.symm

theorem lt_pow_of_size_le {n k : Nat} (h : n.size ≤ 8 * k) : n < 256 ^ k := by
  rw [Nat.size_le, Nat.pow_mul] at h
  exact h

/-- The checks of a key are what makes its numbers admissible. -/
theorem PublicKey.ofNumbers_eq_ok_iff_admissible {n e : Nat} {key : PublicKey} :
    PublicKey.ofNumbers n e = .ok key ↔ Admissible n e ∧ key = ⟨n, e⟩ := by
  have hmax : maxExponent = 2 ^ 33 - 1 := by decide
  rw [PublicKey.ofNumbers_eq_ok_iff, lt_pow_two_iff, hmax]
  constructor
  · rintro ⟨hsize, hodd, hthree, hodd', hlt, hle, rfl⟩
    exact ⟨⟨hsize, Nat.odd_iff.2 hodd, Nat.odd_iff.2 hodd', hthree, hle, hlt⟩, rfl⟩
  · rintro ⟨h, rfl⟩
    exact ⟨h.modulus_size, Nat.odd_iff.1 h.modulus_odd, h.three_le_exponent,
      Nat.odd_iff.1 h.exponent_odd, h.exponent_lt, h.exponent_le, rfl⟩

end DeviceAuth.Rsa

namespace DeviceAuth.Key

open Der (IsElement IsNatural writeElement)

/-! ## The one form of a key -/

/-- The bytes of a `SubjectPublicKeyInfo` by the rules of DER: the algorithm `rsaEncryption` with
the parameters `NULL`, and a bit string without unused bits around a `SEQUENCE` of two integers. -/
inductive IsRsaPublic (n e : Nat) (der : List UInt8) : Prop
  | intro {oid null algorithm m x modulus exponent numbers bits : List UInt8}
      (hoid : IsElement Der.tagOid Der.Oid.rsaEncryption.content oid)
      (hnull : IsElement Der.tagNull [] null)
      (halgorithm : IsElement Der.tagSequence (oid ++ null) algorithm)
      (hm : IsNatural n m) (hmodulus : IsElement Der.tagInteger m modulus)
      (hx : IsNatural e x) (hexponent : IsElement Der.tagInteger x exponent)
      (hnumbers : IsElement Der.tagSequence (modulus ++ exponent) numbers)
      (hbits : IsElement Der.tagBitString (0 :: numbers) bits)
      (hder : IsElement Der.tagSequence (algorithm ++ bits) der)

/-- The rules leave a key no form but the written one. -/
theorem IsRsaPublic.eq_writeRsaPublic {n e : Nat} {der : List UInt8} (h : IsRsaPublic n e der) :
    der = writeRsaPublic ⟨n, e⟩ := by
  obtain ⟨hoid, hnull, halgorithm, hm, hmodulus, hx, hexponent, hnumbers, hbits, hder⟩ := h
  rw [hder.eq_writeElement, halgorithm.eq_writeElement, hbits.eq_writeElement,
    hnumbers.eq_writeElement, hmodulus.eq_writeElement, hexponent.eq_writeElement,
    hoid.eq_writeElement, hnull.eq_writeElement, hm.eq_naturalContent, hx.eq_naturalContent]
  rfl

theorem rsaAlgorithm_proper : rsaAlgorithm.Proper where
  oid := by decide
  parameters := by
    intro e he
    rw [rsaAlgorithm, Option.some.injEq] at he
    subst he
    decide

/-- The contents of two admissible integers, in bytes. -/
theorem length_naturalContent_of_admissible {n e : Nat} (h : Rsa.Admissible n e) :
    (Der.naturalContent n).length ≤ 2049 ∧ (Der.naturalContent e).length ≤ 6 := by
  have hn : n < 256 ^ 2048 := Rsa.lt_pow_of_size_le h.modulus_size
  have he : e < 256 ^ 5 := Nat.lt_of_le_of_lt h.exponent_le (by decide)
  exact ⟨Der.length_naturalContent_le hn, Der.length_naturalContent_le he⟩

/-- The content around two admissible numbers, in bytes. -/
theorem length_writeNatural_append_le {n e : Nat} (h : Rsa.Admissible n e) :
    (Der.writeNatural n ++ Der.writeNatural e).length ≤ 2067 := by
  obtain ⟨hm, hx⟩ := length_naturalContent_of_admissible h
  have hmodulus : (Der.writeNatural n).length ≤ 2055 := Der.length_writeElement_le hm (by decide)
  have hexponent : (Der.writeNatural e).length ≤ 12 := Der.length_writeElement_le hx (by decide)
  rw [List.length_append]
  exact Nat.add_le_add hmodulus hexponent

/-- The content of a bit string around two admissible numbers, in bytes. -/
theorem length_zero_cons_writeRsaNumbers_le {n e : Nat} (h : Rsa.Admissible n e) :
    (0 :: Der.writeRsaNumbers n e).length ≤ 2074 := by
  have hboth := length_writeNatural_append_le h
  have hnumbers : (Der.writeRsaNumbers n e).length ≤ 2073 :=
    Der.length_writeElement_le hboth (by decide)
  exact Nat.succ_le_succ hnumbers

/-- The content around the algorithm and two admissible numbers, in bytes. -/
theorem length_writeAlgorithm_append_le {n e : Nat} (h : Rsa.Admissible n e) :
    (Der.writeAlgorithm rsaAlgorithm ++
      Der.writeBitString (Der.writeRsaNumbers n e)).length ≤ 2095 := by
  have halgorithm : (Der.writeAlgorithm rsaAlgorithm).length ≤ 15 := by decide
  have hbits : (Der.writeBitString (Der.writeRsaNumbers n e)).length ≤ 2080 :=
    Der.length_writeElement_le (length_zero_cons_writeRsaNumbers_le h) (by decide)
  rw [List.length_append]
  exact Nat.add_le_add halgorithm hbits

/-- The written form of admissible numbers follows the rules. -/
theorem isRsaPublic_writeRsaPublic {n e : Nat} (h : Rsa.Admissible n e) :
    IsRsaPublic n e (writeRsaPublic ⟨n, e⟩) := by
  have hlarge : ∀ {k m : Nat}, k ≤ m → m ≤ 4096 → k ≤ Der.maxLength :=
    fun hkm hm => Nat.le_trans hkm (Nat.le_trans hm (by decide))
  obtain ⟨hm, hx⟩ := length_naturalContent_of_admissible h
  have hboth := length_writeNatural_append_le h
  have hbits := length_zero_cons_writeRsaNumbers_le h
  have hall := length_writeAlgorithm_append_le h
  exact ⟨Der.isElement_writeElement (by decide), Der.isElement_writeElement (by decide),
    Der.isElement_writeElement (by decide), Der.isNatural_naturalContent n,
    Der.isElement_writeElement (hlarge hm (by decide)), Der.isNatural_naturalContent e,
    Der.isElement_writeElement (hlarge hx (by decide)),
    Der.isElement_writeElement (hlarge hboth (by decide)),
    Der.isElement_writeElement (hlarge hbits (by decide)),
    Der.isElement_writeElement (hlarge hall (by decide))⟩

/-! ## Reading and loading -/

/-- Admissible numbers are read back from what is written of them. -/
theorem readRsaPublic_writeRsaPublic {n e : Nat} (h : Rsa.Admissible n e) :
    readRsaPublic (writeRsaPublic ⟨n, e⟩) = .ok ⟨n, e⟩ := by
  have hall := length_writeAlgorithm_append_le h
  have hboth := length_writeNatural_append_le h
  have hder : (Der.PublicKeyInfo.encode rsaAlgorithm (Der.writeRsaNumbers n e)).length ≤
      Der.maxLength :=
    Nat.le_trans (Der.length_writeElement_le hall (by decide)) (by decide)
  have hinfo := Der.PublicKeyInfo.decode?_encode rsaAlgorithm_proper hder
  have hnumbers : Der.readRsaNumbers? (Der.writeRsaNumbers n e) = some (n, e) :=
    Der.readRsaNumbers?_eq_some_iff.2 ⟨Nat.le_trans hboth (by decide), rfl⟩
  have hkey : Rsa.PublicKey.ofNumbers n e = .ok ⟨n, e⟩ :=
    Rsa.PublicKey.ofNumbers_eq_ok_iff_admissible.2 ⟨h, rfl⟩
  have hparameters : rsaAlgorithm.parameters = some ⟨Der.tagNull, []⟩ := rfl
  have haligned : Der.BitString.aligned? ⟨0, Der.writeRsaNumbers n e⟩ =
      some (Der.writeRsaNumbers n e) := rfl
  rw [readRsaPublic, writeRsaPublic, hinfo, wellFormed]
  dsimp only [bind, Except.bind]
  rw [if_neg (by decide), hparameters, wellFormed]
  dsimp only
  rw [if_neg (by decide), haligned]
  dsimp only
  rw [hnumbers, wellFormed]
  dsimp only
  rw [hkey]
  rfl

/-- A key is read from the one form of its numbers and from nothing else, and its numbers are
admissible. -/
theorem readRsaPublic_eq_ok_iff {der : List UInt8} {n e : Nat} :
    readRsaPublic der = .ok ⟨n, e⟩ ↔ IsRsaPublic n e der ∧ Rsa.Admissible n e := by
  constructor
  · intro h
    obtain ⟨bits, m, x, rfl, hnumbers, hkey⟩ := eq_encode_of_readRsaPublic h
    obtain ⟨hadmissible, heq⟩ := Rsa.PublicKey.ofNumbers_eq_ok_iff_admissible.1 hkey
    rw [Rsa.PublicKey.mk.injEq] at heq
    obtain ⟨rfl, rfl⟩ := heq
    obtain ⟨-, rfl⟩ := Der.readRsaNumbers?_eq_some_iff.1 hnumbers
    exact ⟨isRsaPublic_writeRsaPublic hadmissible, hadmissible⟩
  · rintro ⟨hform, hadmissible⟩
    rw [hform.eq_writeRsaPublic]
    exact readRsaPublic_writeRsaPublic hadmissible

/-- Loading an RSA key, exactly.  A text loads as a pair of numbers when its body decodes to their
`SubjectPublicKeyInfo`, as the rules of DER have it, and the numbers are admissible; each admissible
pair loads from one list of bytes and from no other.  What does not load fails as a public key. -/
theorem loadRsaPublic_exact :
    (∀ pem n e, loadRsaPublic pem = .ok ⟨n, e⟩ ↔
      (∃ der, Pem.decode pem = .ok der ∧ IsRsaPublic n e der) ∧ Rsa.Admissible n e) ∧
    (∀ n e, Rsa.Admissible n e →
      ∃! der, ∃ pem, Pem.decode pem = .ok der ∧ loadRsaPublic pem = .ok ⟨n, e⟩) ∧
    ∀ pem f, loadRsaPublic pem = .error f → f.role = .publicKey := by
  have hload : ∀ pem n e, loadRsaPublic pem = .ok ⟨n, e⟩ ↔
      (∃ der, Pem.decode pem = .ok der ∧ IsRsaPublic n e der) ∧ Rsa.Admissible n e := by
    intro pem n e
    simp only [loadRsaPublic, loadWith_eq_ok_iff, readRsaPublic_eq_ok_iff, ← and_assoc,
      exists_and_right]
  refine ⟨hload, fun n e h => ?_, fun pem f => role_of_loadWith⟩
  obtain ⟨pem, hpem⟩ := Pem.exists_decode_eq (writeRsaPublic ⟨n, e⟩)
  refine ⟨writeRsaPublic ⟨n, e⟩, ⟨pem, hpem, ?_⟩, ?_⟩
  · exact (hload pem n e).2 ⟨⟨_, hpem, isRsaPublic_writeRsaPublic h⟩, h⟩
  · rintro der ⟨other, hother, hkey⟩
    obtain ⟨⟨der', hder', hform⟩, -⟩ := (hload other n e).1 hkey
    obtain rfl := Except.ok.inj (hother.symm.trans hder')
    exact hform.eq_writeRsaPublic

/-- The PEM text of a key of two bytes, with the modulus 65535. -/
def twoBytePem : String :=
  "-----BEGIN PUBLIC KEY-----\n" ++
    "MBwwDQYJKoZIhvcNAQEBBQADCwAwCAIDAP//AgED\n" ++
    "-----END PUBLIC KEY-----\n"

/-- The same numbers, with one zero too many in front of the modulus. -/
def longTwoBytePem : String :=
  "-----BEGIN PUBLIC KEY-----\n" ++
    "MB0wDQYJKoZIhvcNAQEBBQADDAAwCQIEAAD//wIBAw==\n" ++
    "-----END PUBLIC KEY-----\n"

/-- The top bit of a modulus takes one zero in front; with two zeros it is no key. -/
theorem loadRsaPublic_exact_two_bytes :
    Rsa.Admissible 65535 3 ∧ loadRsaPublic twoBytePem = .ok ⟨65535, 3⟩ ∧
    (∃! der, ∃ pem, Pem.decode pem = .ok der ∧ loadRsaPublic pem = .ok ⟨65535, 3⟩) ∧
    ∃ f, loadRsaPublic longTwoBytePem = .error f ∧ f.role = .publicKey := by
  obtain ⟨hload, hunique, hrole⟩ := loadRsaPublic_exact
  have hadmissible : Rsa.Admissible 65535 3 :=
    ⟨by decide +kernel, by decide, by decide, by decide, by decide, by decide⟩
  have hbody : Pem.decode twoBytePem = .ok (writeRsaPublic ⟨65535, 3⟩) := by decide +kernel
  have hlong : loadRsaPublic longTwoBytePem = .error ⟨.publicKey, .malformed .rsaPublic
      (Der.PublicKeyInfo.encode rsaAlgorithm [0x30, 9, 2, 4, 0, 0, 0xff, 0xff, 2, 1, 3])⟩ := by
    decide +kernel
  exact ⟨hadmissible,
    (hload _ _ _).2 ⟨⟨_, hbody, isRsaPublic_writeRsaPublic hadmissible⟩, hadmissible⟩,
    hunique _ _ hadmissible, _, hlong, hrole _ _ hlong⟩

end DeviceAuth.Key
