import DeviceAuth.Rsa
import DeviceAuth.Proofs.Bytes
import DeviceAuth.Proofs.Modular
import Mathlib.Data.Nat.ChineseRemainder
import Mathlib.FieldTheory.Finite.Basic

/-!
# DeviceAuth.Proofs.Rsa

RSA keys, blocks and the two power maps.  A block starts with a zero byte, so that as a number it
is below every modulus of its length; the public map keeps it below the modulus, and the map with
a private exponent undoes the public one.  A block is taken apart at the first zero byte after its
padding, wherever else the message has zeros.
-/

namespace DeviceAuth.Rsa

/-! ## Keys -/

/-- The numbers that make a key. -/
theorem PublicKey.ofNumbers_eq_ok_iff {n e : Nat} {key : PublicKey} :
    PublicKey.ofNumbers n e = .ok key ↔
      n < Nat.pow 2 maxModulusBits ∧ n % 2 = 1 ∧ 3 ≤ e ∧ e % 2 = 1 ∧ e < n ∧ e ≤ maxExponent ∧
        key = ⟨n, e⟩ := by
  have hword : maxExponent < wordLimit := by decide
  unfold PublicKey.ofNumbers
  constructor
  · intro h
    split_ifs at h
    have hkey := (Except.ok.inj h).symm
    refine ⟨?_, ?_, ?_, ?_, ?_, ?_, hkey⟩ <;> omega
  · rintro ⟨hbits, hodd, hthree, hodd', hlt, hmax, rfl⟩
    rw [if_neg (by omega), if_neg (by omega), if_neg (by omega), if_neg (by omega),
      if_neg (by omega), if_neg (by omega)]

theorem PublicKey.modulus_ne_zero_of_ofNumbers {n e : Nat} {key : PublicKey}
    (h : PublicKey.ofNumbers n e = .ok key) : key.modulus ≠ 0 := by
  obtain ⟨-, hodd, -, -, -, -, rfl⟩ := PublicKey.ofNumbers_eq_ok_iff.1 h
  intro (hzero : n = 0)
  rw [hzero] at hodd
  contradiction

/-- Numbers below the modulus have no more bytes than a block. -/
theorem PublicKey.lt_pow_size {key : PublicKey} {m : Nat} (h : m < key.modulus) :
    m < 256 ^ key.size :=
  h.trans (lt_pow_byteWidth key.modulus)

/-! ## Blocks -/

section Blocks

variable {k : Nat} {padding msg : List UInt8}

theorem block?_eq_none_iff : block? k padding msg = none ↔ k < msg.length + 11 := by
  have hroom : msg.length + overhead ≤ k ↔ ¬ k < msg.length + 11 := Nat.not_lt.symm
  simp [block?, hroom]

/-- The block with exactly the padding that it needs. -/
theorem block?_of_length (hroom : msg.length + 11 ≤ k)
    (hlen : padding.length = k - 3 - msg.length) :
    block? k padding msg = some (0 :: 2 :: (padding ++ 0 :: msg)) := by
  have hfits : msg.length + overhead ≤ k := hroom
  have hlen' : padding.length ≤ paddingLength k msg := Nat.le_of_eq hlen
  rw [block?, if_pos hfits, List.take_of_length_le hlen']

/-- Padding ends at the first zero, so zeros of the message are left to the message. -/
theorem unblock?_block (hpadding : ∀ b ∈ padding, b ≠ 0) :
    unblock? (0 :: 2 :: (padding ++ 0 :: msg)) = some (padding, msg) := by
  have htake : (padding ++ 0 :: msg).takeWhile (· ≠ 0) = padding := by
    rw [List.takeWhile_append_of_pos (by simpa using hpadding)]
    simp
  have hdrop : (padding ++ 0 :: msg).dropWhile (· ≠ 0) = 0 :: msg := by
    rw [List.dropWhile_append_of_pos (by simpa using hpadding)]
    simp
  simp only [unblock?, htake, hdrop]

/-- A list that fills its block and starts with zero is a number below the modulus. -/
theorem PublicKey.beNat_zero_cons_lt {key : PublicKey} (hn : key.modulus ≠ 0) {bs : List UInt8}
    (hlen : (0 :: bs).length = key.size) : beNat (0 :: bs) < key.modulus := by
  have hsize : bs.length = key.size - 1 := by
    rw [← hlen, List.length_cons, Nat.add_sub_cancel]
  calc
    beNat (0 :: bs) = beNat bs := beNat_zero_cons bs
    _ < 256 ^ bs.length := beNat_lt bs
    _ = 256 ^ (key.size - 1) := by rw [hsize]
    _ ≤ key.modulus := pow_byteWidth_le hn

end Blocks

/-! ## The power maps -/

@[simp] theorem PublicKey.length_apply (key : PublicKey) (bs : List UInt8) :
    (key.apply bs).length = key.size :=
  length_beBytes _ _

theorem encrypt?_eq_none_iff {key : PublicKey} {padding msg : List UInt8} :
    encrypt? key padding msg = none ↔ key.size < msg.length + 11 := by
  rw [encrypt?, Option.map_eq_none_iff, block?_eq_none_iff]

/-- A ciphertext fills the bytes of the modulus, with leading zeros where its number is small. -/
theorem length_of_encrypt? {key : PublicKey} {padding msg ciphertext : List UInt8}
    (h : encrypt? key padding msg = some ciphertext) : ciphertext.length = key.size := by
  obtain ⟨block, -, rfl⟩ := Option.map_eq_some_iff.1 h
  exact PublicKey.length_apply key block

/-- The public map raises to the exponent, modulo the modulus. -/
theorem PublicKey.beNat_apply {key : PublicKey} (hn : key.modulus ≠ 0) (bs : List UInt8) :
    beNat (key.apply bs) = beNat bs ^ key.exponent % key.modulus := by
  have hlt : beNat bs ^ key.exponent % key.modulus < key.modulus :=
    Nat.mod_lt _ (Nat.pos_of_ne_zero hn)
  rw [PublicKey.apply, Modular.pow_eq, beNat_beBytes_of_lt (PublicKey.lt_pow_size hlt)]

theorem PublicKey.beNat_apply_lt {key : PublicKey} (hn : key.modulus ≠ 0) (bs : List UInt8) :
    beNat (key.apply bs) < key.modulus := by
  rw [PublicKey.beNat_apply hn]
  exact Nat.mod_lt _ (Nat.pos_of_ne_zero hn)

/-- The private map raises to the private exponent, modulo the modulus. -/
theorem PublicKey.unapply_eq (key : PublicKey) (d : Nat) (bs : List UInt8) :
    key.unapply d bs = beBytes key.size (beNat bs ^ d % key.modulus) := by
  rw [PublicKey.unapply, Modular.pow_eq]

/-- An exponent that undoes the exponent of a key on the numbers below its modulus. -/
def PublicKey.PrivateExponent (key : PublicKey) (d : Nat) : Prop :=
  ∀ m < key.modulus, (m ^ key.exponent) ^ d % key.modulus = m

/-- The private map undoes the public one on blocks below the modulus. -/
theorem PublicKey.unapply_apply {key : PublicKey} {d : Nat} (hd : key.PrivateExponent d)
    {bs : List UInt8} (hlen : bs.length = key.size) (hlt : beNat bs < key.modulus) :
    key.unapply d (key.apply bs) = bs := by
  have hn : key.modulus ≠ 0 := Nat.ne_zero_of_lt hlt
  rw [PublicKey.unapply_eq, PublicKey.beNat_apply hn, ← Nat.pow_mod, hd _ hlt, ← hlen,
    beBytes_beNat]

/-! ## Private exponents -/

/-- Fermat's theorem, for numbers that the prime divides as well. -/
theorem pow_modEq_self {p k : Nat} (hp : p.Prime) (hk : p - 1 ∣ k) (m : Nat) :
    m ^ (k + 1) ≡ m [MOD p] := by
  by_cases hdvd : p ∣ m
  · have hzero : m ≡ 0 [MOD p] := (Nat.modEq_zero_iff_dvd).2 hdvd
    have hpow := hzero.pow (k + 1)
    rw [Nat.zero_pow (Nat.succ_pos k)] at hpow
    exact hpow.trans hzero.symm
  · obtain ⟨j, rfl⟩ := hk
    have hcoprime : m.Coprime p := ((Nat.Prime.coprime_iff_not_dvd hp).2 hdvd).symm
    have hfermat : m ^ (p - 1) ≡ 1 [MOD p] := by
      rw [← Nat.totient_prime hp]
      exact Nat.ModEq.pow_totient hcoprime
    have hmul := (hfermat.pow j).mul_right m
    rwa [Nat.one_pow, Nat.one_mul, ← Nat.pow_mul, ← Nat.pow_add_one] at hmul

/-- Where the modulus is a product of different primes, an exponent is private if its product with
the exponent of the key is one modulo `p - 1` for each of the primes `p`. -/
theorem PublicKey.privateExponent_of_primes {key : PublicKey} {ps : List Nat} {d k : Nat}
    (hn : key.modulus = ps.prod) (hprime : ∀ p ∈ ps, p.Prime) (hdiff : ps.Nodup)
    (hk : ∀ p ∈ ps, p - 1 ∣ k) (hd : key.exponent * d = k + 1) : key.PrivateExponent d := by
  intro m hm
  have hcoprime : ps.Pairwise Nat.Coprime :=
    hdiff.pairwise_of_forall_ne fun p hp q hq hne =>
      (Nat.coprime_primes (hprime p hp) (hprime q hq)).2 hne
  have hprod : (m ^ key.exponent) ^ d ≡ m [MOD key.modulus] := by
    rw [hn, Nat.modEq_list_prod_iff hcoprime, ← Nat.pow_mul, hd]
    intro i
    exact pow_modEq_self (hprime _ (ps.get_mem i)) (hk _ (ps.get_mem i)) m
  rw [hprod, Nat.mod_eq_of_lt hm]

end DeviceAuth.Rsa
