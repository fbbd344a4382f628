import DeviceAuth.Token.Digest

/-!
# DeviceAuth.Proofs.Token.Digest

What the digest of an identity provider's token says about the token: its hash, and no more.  The
hexadecimal digits of a number are read back as the number (`hexNat?_toDigits`), so that no two
hashes share a digest.
-/

namespace DeviceAuth

/-! ## Hexadecimal numbers -/

/-- The number that some hexadecimal digits write, the most significant first. -/
def hexNat? (cs : List Char) : Option Nat :=
  cs.foldlM (fun n c => (hexValue? c).map (n * 16 + ·)) 0

theorem hexNat?_append_singleton (cs : List Char) (c : Char) :
    hexNat? (cs ++ [c]) = (hexNat? cs).bind fun n => (hexValue? c).map (n * 16 + ·) := by
  simp [hexNat?, List.foldlM_append]

/-- A digit is read as what it stands for. -/
theorem hexValue?_digitChar : ∀ d < 16, hexValue? d.digitChar = some d := by
  decide

/-- The digits of a number are read as the number. -/
theorem hexNat?_toDigits (n : Nat) : hexNat? (Nat.toDigits 16 n) = some n := by
  induction n using Nat.strongRecOn with
  | ind n ih =>
    by_cases hn : n < 16
    · rw [Nat.toDigits_of_lt_base hn, ← List.nil_append [n.digitChar], hexNat?_append_singleton,
        hexValue?_digitChar n hn]
      simp [hexNat?]
    · -- all digits but the last are those of the sixteenth part
      have hread := ih (n / 16) (by omega)
      have hlast := hexValue?_digitChar (n % 16) (Nat.mod_lt n (by decide))
      rw [Nat.toDigits_of_base_le (by decide) (Nat.not_lt.1 hn), hexNat?_append_singleton, hread,
        hlast, Option.bind_some, Option.map_some, Option.some.injEq]
      omega

/-- No two numbers have the same digits. -/
theorem hexOfNat_injective {m n : Nat} (h : hexOfNat m = hexOfNat n) : m = n := by
  have hdigits : Nat.toDigits 16 m = Nat.toDigits 16 n := String.ofList_inj.1 h
  have hread := hexNat?_toDigits m
  rw [hdigits, hexNat?_toDigits n] at hread
  exact (Option.some.inj hread).symm

namespace Token.Digest

/-! ## Digests and hashes -/

/-- The signed and the unsigned reading of a hash tell the same hashes apart. -/
theorem signedHash_eq_iff {a b : String} : signedHash a = signedHash b ↔ hash a = hash b := by
  rw [signedHash, signedHash, Int32.toInt_inj]
  constructor
  · intro h
    have hword := congrArg Int32.toUInt32 h
    simpa using hword
  · intro h
    rw [h]

/-- Two tokens have the same digest exactly when they have the same hash. -/
theorem text_eq_iff {a b : String} : text a = text b ↔ signedHash a = signedHash b := by
  rw [signedHash_eq_iff]
  constructor
  · intro h
    exact UInt32.toNat_inj.1 (hexOfNat_injective h)
  · intro h
    rw [text, text, h]

end Token.Digest

end DeviceAuth
