import DeviceAuth.Cipher
import DeviceAuth.Proofs.Key.Load
import Mathlib.Tactic.NormNum.Prime

/-!
# DeviceAuth.Proofs.Cipher

What encryption gives.  For a loaded key there are three outcomes, told apart by the lengths of
the message and of the modulus alone: the message is over the limit, the modulus has no room for
the empty message, or there is a ciphertext of as many bytes as the modulus.  Whoever knows a
private exponent gets the message back from the ciphertext.
-/

namespace DeviceAuth.Cipher

/-! ## Outcomes -/

/-- What encryption for a key gives: each outcome with what it says of the lengths. -/
theorem value_encryptWithKey_cases (padding message : List UInt8) (key : Rsa.PublicKey) :
    (key.size - 11 < message.length ∧ (encryptWithKey padding message key).value =
        .error (.tooLarge message.length (key.size - 11))) ∨
      (key.size < 11 ∧ message = [] ∧ (encryptWithKey padding message key).value =
        .error .tooLong) ∨
      (message.length + 11 ≤ key.size ∧ ∃ ciphertext,
        Rsa.encrypt? key padding message = some ciphertext ∧
          (encryptWithKey padding message key).value =
            .ok (Base64.encode .standard ciphertext)) := by
  by_cases hlimit : key.size - 11 < message.length
  · left
    have hmax : maxMessage key.size < message.length := hlimit
    refine ⟨hlimit, ?_⟩
    rw [encryptWithKey, if_pos hmax]
    rfl
  · right
    have hmax : ¬ maxMessage key.size < message.length := hlimit
    cases hciphertext : Rsa.encrypt? key padding message with
    | none =>
      left
      have hroom := Rsa.encrypt?_eq_none_iff.1 hciphertext
      have hempty : message.length = 0 := by omega
      refine ⟨by omega, List.length_eq_zero_iff.1 hempty, ?_⟩
      simp [encryptWithKey, hmax, hciphertext, Logged.noting]
    | some ciphertext =>
      right
      have hroom : message.length + 11 ≤ key.size := by
        by_contra h
        rw [Rsa.encrypt?_eq_none_iff.2 (by omega)] at hciphertext
        contradiction
      refine ⟨hroom, ciphertext, rfl, ?_⟩
      simp [encryptWithKey, hmax, hciphertext, Logged.quiet]

/-- What encryption of a message for a key gives. -/
structure Outcome (key : Rsa.PublicKey) (message : List UInt8) (r : Except Fault String) :
    Prop where
  tooLarge_iff : ∀ actual limit, r = .error (.tooLarge actual limit) ↔
    key.size - 11 < message.length ∧ actual = message.length ∧ limit = key.size - 11
  tooLong_iff : r = .error .tooLong ↔ key.size < 11 ∧ message = []
  /-- In every other case there is a ciphertext of the size of the modulus. -/
  ciphertext : ¬ key.size - 11 < message.length → ¬ (key.size < 11 ∧ message = []) →
    ∃ text bytes, r = .ok text ∧ text = Base64.encode .standard bytes ∧
      text.length = 4 * ((key.size + 2) / 3) ∧
      Base64.decodeText .standard .lenient text = .ok bytes ∧ bytes.length = key.size

theorem outcome_encryptWithKey (padding message : List UInt8) (key : Rsa.PublicKey) :
    Outcome key message (encryptWithKey padding message key).value := by
  rcases value_encryptWithKey_cases padding message key with
    ⟨hlimit, hvalue⟩ | ⟨hsize, hempty, hvalue⟩ | ⟨hroom, bytes, hbytes, hvalue⟩
  · have hne : message ≠ [] := List.length_pos_iff.1 (by omega)
    rw [hvalue]
    constructor
    case tooLarge_iff => simp [hlimit, eq_comm]
    case tooLong_iff => simp [hne]
    case ciphertext => simp [hlimit]
  · rw [hvalue]
    constructor
    case tooLarge_iff => simp [hempty]
    case tooLong_iff => simp [hsize, hempty]
    case ciphertext => simp [hsize, hempty]
  · have hlimit : ¬ key.size - 11 < message.length := by omega
    have hsize : ¬ key.size < 11 := by omega
    have hlen := Rsa.length_of_encrypt? hbytes
    rw [hvalue]
    constructor
    case tooLarge_iff => simp [hlimit]
    case tooLong_iff => simp [hsize]
    case ciphertext =>
      intro _ _
      exact ⟨_, bytes, rfl, rfl, by rw [Base64.length_encode, hlen],
        Base64.decodeText_encode Base64.standard_proper bytes, hlen⟩

/-- What encryption for a PEM text gives: each outcome with what it says of the text. -/
theorem encrypt_cases (padding message : List UInt8) (pem : String) :
    (Text.blank pem = true ∧ (encrypt padding message pem).value = .error .blankKey) ∨
      (Text.blank pem = false ∧ ∃ cause, Key.loadRsaPublic pem = .error cause ∧
        (encrypt padding message pem).value = .error (.key cause)) ∨
      (Text.blank pem = false ∧ ∃ key, Key.loadRsaPublic pem = .ok key ∧
        encrypt padding message pem = encryptWithKey padding message key) := by
  cases hblank : Text.blank pem with
  | true =>
    left
    simp [encrypt, hblank, Logged.noting]
  | false =>
    right
    cases hload : Key.loadRsaPublic pem with
    | error cause =>
      left
      simp [encrypt, hblank, hload, Logged.quiet]
    | ok key =>
      right
      simp [encrypt, hblank, hload]

theorem encryptWithKey_ne_blankKey (padding message : List UInt8) (key : Rsa.PublicKey) :
    (encryptWithKey padding message key).value ≠ .error .blankKey := by
  rcases value_encryptWithKey_cases padding message key with
    ⟨-, hvalue⟩ | ⟨-, -, hvalue⟩ | ⟨-, bytes, -, hvalue⟩
  all_goals simp [hvalue]

theorem encryptWithKey_ne_key (padding message : List UInt8) (key : Rsa.PublicKey)
    (cause : Key.Failure) : (encryptWithKey padding message key).value ≠ .error (.key cause) := by
  rcases value_encryptWithKey_cases padding message key with
    ⟨-, hvalue⟩ | ⟨-, -, hvalue⟩ | ⟨-, bytes, -, hvalue⟩
  all_goals simp [hvalue]

/-- The outcome of encryption, for every message and every PEM text. -/
theorem encrypt_outcome (padding message : List UInt8) (pem : String) :
    ((encrypt padding message pem).value = .error .blankKey ↔ Text.blank pem = true) ∧
      (∀ cause, (encrypt padding message pem).value = .error (.key cause) ↔
        Text.blank pem = false ∧ Key.loadRsaPublic pem = .error cause) ∧
      (∀ key, Key.loadRsaPublic pem = .ok key →
        Outcome key message (encrypt padding message pem).value ∧
          encryptWithKey padding message key = encrypt padding message pem) ∧
      (∀ text, encryptText padding text pem = encrypt padding (Text.Utf8.encode text) pem) ∧
      Recipient.encrypt padding message ⟨pem⟩ = encrypt padding message pem := by
  rcases encrypt_cases padding message pem with
    ⟨hblank, hvalue⟩ | ⟨hblank, cause, hload, hvalue⟩ | ⟨hblank, key, hload, heq⟩
  · have hfail := Key.loadRsaPublic_of_blank hblank
    refine ⟨by simp [hvalue, hblank], by simp [hvalue, hblank], ?_, fun _ => rfl, rfl⟩
    simp [hfail]
  · refine ⟨by simp [hvalue, hblank], by simp [hvalue, hblank, hload], ?_, fun _ => rfl, rfl⟩
    simp [hload]
  · have hblankKey := encryptWithKey_ne_blankKey padding message key
    have hkey := encryptWithKey_ne_key padding message key
    rw [← heq] at hblankKey hkey
    refine ⟨by simp [hblankKey, hblank], by simp [hkey, hload], ?_, fun _ => rfl, rfl⟩
    intro other hother
    rw [hload, Except.ok.injEq] at hother
    rw [← hother, heq]
    exact ⟨outcome_encryptWithKey padding message key, rfl⟩

/-- A key of 13 bytes; its modulus is a product of small primes. -/
def productKey : Rsa.PublicKey where
  modulus := [3, 5, 7, 11, 13, 17, 29, 31, 41, 43, 61, 71, 113, 211, 241, 281, 337, 421].prod
  exponent := 17

/-- The PEM text of the key. -/
def productKeyPem : String :=
  "-----BEGIN PUBLIC KEY-----\n" ++
    "MCYwDQYJKoZIhvcNAQEBBQADFQAwEgINBRD5M+UhnuakiniV8wIBEQ==\n" ++
    "-----END PUBLIC KEY-----\n"

theorem loadRsaPublic_productKeyPem : Key.loadRsaPublic productKeyPem = .ok productKey := by
  decide +kernel

/-- The text of a key of one byte, with the modulus 15. -/
def fifteenPem : String :=
  "-----BEGIN PUBLIC KEY-----\n" ++
    "MBowDQYJKoZIhvcNAQEBBQADCQAwBgIBDwIBAw==\n" ++
    "-----END PUBLIC KEY-----\n"

/-- A key of 13 bytes takes two bytes and not three; a key of one byte does not even take none. -/
theorem encrypt_outcome_two_bytes :
    Key.loadRsaPublic productKeyPem = .ok productKey ∧
      Key.loadRsaPublic fifteenPem = .ok ⟨15, 3⟩ ∧
      (encrypt [] [] fifteenPem).value = .error .tooLong ∧
      (∀ padding, (encrypt padding [0, 7, 0] productKeyPem).value = .error (.tooLarge 3 2)) ∧
      ∀ padding, ∃ text bytes,
        (encrypt padding [0, 7] productKeyPem).value = .ok text ∧ text.length = 20 ∧
          Base64.decodeText .standard .lenient text = .ok bytes ∧ bytes.length = 13 := by
  have hload := loadRsaPublic_productKeyPem
  have hfifteen : Key.loadRsaPublic fifteenPem = .ok ⟨15, 3⟩ := by decide +kernel
  have hsize : productKey.size = 13 := by decide
  have hsmall : (⟨15, 3⟩ : Rsa.PublicKey).size = 1 := by decide
  refine ⟨hload, hfifteen, ?_, fun padding => ?_, fun padding => ?_⟩
  · have houtcome := ((encrypt_outcome [] [] fifteenPem).2.2.1 _ hfifteen).1
    exact houtcome.tooLong_iff.2 (by simp [hsmall])
  · have houtcome := ((encrypt_outcome padding [0, 7, 0] productKeyPem).2.2.1 _ hload).1
    exact (houtcome.tooLarge_iff 3 2).2 (by simp [hsize])
  · have houtcome := ((encrypt_outcome padding [0, 7] productKeyPem).2.2.1 _ hload).1
    obtain ⟨text, bytes, hok, -, hlength, hdecode, hbytes⟩ :=
      houtcome.ciphertext (by simp [hsize]) (by simp)
    rw [hsize] at hlength hbytes
    exact ⟨text, bytes, hok, hlength, hdecode, hbytes⟩

/-! ## Decryption -/

/-- The ciphertext of a message is below the modulus, and the power to a private exponent is the
block of the message.  Cut at the first zero after its padding, the block gives the message. -/
theorem unblock_encryptWithKey {pem : String} {key : Rsa.PublicKey} {padding message : List UInt8}
    {d : Nat} (hload : Key.loadRsaPublic pem = .ok key) (hsize : 11 ≤ key.size)
    (hroom : message.length ≤ key.size - 11) (hnonzero : ∀ b ∈ padding, b ≠ 0)
    (hlen : padding.length = key.size - 3 - message.length) (hd : key.PrivateExponent d) :
    ∃ text ciphertext,
      (encryptWithKey padding message key).value = .ok text ∧
        Base64.decodeText .standard .lenient text = .ok ciphertext ∧
        beNat ciphertext < key.modulus ∧
        beBytes key.size (beNat ciphertext ^ d % key.modulus) =
          [0, 2] ++ padding ++ [0] ++ message ∧
        8 ≤ padding.length ∧
        Rsa.unblock? (beBytes key.size (beNat ciphertext ^ d % key.modulus)) =
          some (padding, message) := by
  obtain ⟨n, e, hnumbers⟩ := Key.ofNumbers_of_loadRsaPublic hload
  have hn := Rsa.PublicKey.modulus_ne_zero_of_ofNumbers hnumbers
  rcases value_encryptWithKey_cases padding message key with
    ⟨hlimit, -⟩ | ⟨hsmall, -, -⟩ | ⟨hfits, ciphertext, hciphertext, hvalue⟩
  · omega
  · omega
  · have hblock := Rsa.block?_of_length hfits hlen
    rw [Rsa.encrypt?, hblock, Option.map_some, Option.some.injEq] at hciphertext
    have hfull : (0 :: 2 :: (padding ++ 0 :: message)).length = key.size := by
      simp only [List.length_cons, List.length_append]
      omega
    have hbelow := Rsa.PublicKey.beNat_zero_cons_lt hn hfull
    have hback : beBytes key.size (beNat ciphertext ^ d % key.modulus) =
        0 :: 2 :: (padding ++ 0 :: message) := by
      rw [← Rsa.PublicKey.unapply_eq, ← hciphertext, Rsa.PublicKey.unapply_apply hd hfull hbelow]
    refine ⟨_, ciphertext, hvalue, Base64.decodeText_encode Base64.standard_proper ciphertext,
      ?_, ?_, ?_, ?_⟩
    · rw [← hciphertext]
      exact Rsa.PublicKey.beNat_apply_lt hn _
    · rw [hback]
      simp
    · omega
    · rw [hback, Rsa.unblock?_block hnonzero]

theorem privateExponent_productKey : productKey.PrivateExponent 593 :=
  Rsa.PublicKey.privateExponent_of_primes (k := 10080) rfl (by norm_num) (by decide) (by decide) rfl

/-- A message that starts with a zero comes back whole. -/
theorem unblock_encryptWithKey_zero_seven :
    Key.loadRsaPublic productKeyPem = .ok productKey ∧
      ∃ text ciphertext,
        (encryptWithKey (List.replicate 8 0xA5) [0, 7] productKey).value = .ok text ∧
          Base64.decodeText .standard .lenient text = .ok ciphertext ∧
          Rsa.unblock? (beBytes 13 (beNat ciphertext ^ 593 % productKey.modulus)) =
            some (List.replicate 8 0xA5, [0, 7]) := by
  have hsize : productKey.size = 13 := by decide
  have hroom : ([0, 7] : List UInt8).length ≤ productKey.size - 11 := by decide
  have hnonzero : ∀ b ∈ List.replicate 8 (0xA5 : UInt8), b ≠ 0 := by simp
  have hlen : (List.replicate 8 (0xA5 : UInt8)).length =
      productKey.size - 3 - ([0, 7] : List UInt8).length := by decide
  obtain ⟨text, ciphertext, hok, hdecode, -, -, -, hmessage⟩ :=
    unblock_encryptWithKey loadRsaPublic_productKeyPem (by decide) hroom hnonzero hlen
      privateExponent_productKey
  rw [hsize] at hmessage
  exact ⟨loadRsaPublic_productKeyPem, text, ciphertext, hok, hdecode, hmessage⟩

end DeviceAuth.Cipher
