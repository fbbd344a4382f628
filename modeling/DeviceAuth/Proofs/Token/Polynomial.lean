import DeviceAuth.Proofs.Token.Digest
import Mathlib.Algebra.BigOperators.Fin
import Mathlib.Tactic.Ring

/-!
# DeviceAuth.Proofs.Token.Polynomial

The hash of a text in closed form: its UTF-16 code units are the coefficients of a polynomial, the
last one that of degree zero, and the hash is the value of the polynomial at 31 modulo `2 ^ 32`.
One more unit is one step of Horner's rule (`toNat_step`), and a run over many units is the hash so
far, moved up by as many places, and their polynomial (`toNat_foldl_step`); the hash of a text and
that of two texts in a row are both this run.

What the units are is said apart from the function that gives them (`Text.Utf16.Writes`), and what
the digest looks like apart from the function that writes its digits.
-/

namespace DeviceAuth

/-! ## Code units -/

namespace Text.Utf16

/-- Some code units write some characters.  A character below U+10000 is one unit; any other is a
high and a low surrogate with the upper and the lower ten bits of what it exceeds U+10000 by. -/
inductive Writes : List UInt16 → List Char → Prop
  | nil : Writes [] []
  | one {c : Char} {u : UInt16} {us : List UInt16} {cs : List Char}
    (hunit : c.toNat = u.toNat) (hrest : Writes us cs) : Writes (u :: us) (c :: cs)
  | pair {c : Char} {high low : UInt16} {us : List UInt16} {cs : List Char}
    (hhigh : 0xD800 ≤ high.toNat ∧ high.toNat < 0xDC00)
    (hlow : 0xDC00 ≤ low.toNat ∧ low.toNat < 0xE000)
    (hbits : c.toNat = 0x10000 + (high.toNat - 0xD800) * 0x400 + (low.toNat - 0xDC00))
    (hrest : Writes us cs) : Writes (high :: low :: us) (c :: cs)

/-- A character is written by its code units. -/
theorem Writes.unitsOfChar_append (c : Char) {us : List UInt16} {cs : List Char}
    (h : Writes us cs) : Writes (unitsOfChar c ++ us) (c :: cs) := by
  have hmax : c.toNat < 0x110000 := by
    rcases c.valid with hc | hc
    · exact Nat.lt_trans hc (by decide)
    · exact hc.2
  unfold unitsOfChar
  dsimp only
  split
  · next hbasic =>
    exact .one (UInt16.toNat_ofNat_of_lt hbasic).symm h
  · next hbeyond =>
    have hhigh : (UInt16.ofNat (0xD800 + (c.toNat - 0x10000) / 0x400)).toNat =
        0xD800 + (c.toNat - 0x10000) / 0x400 := by
      refine UInt16.toNat_ofNat_of_lt ?_
      rw [UInt16.size]
      omega
    have hlow : (UInt16.ofNat (0xDC00 + (c.toNat - 0x10000) % 0x400)).toNat =
        0xDC00 + (c.toNat - 0x10000) % 0x400 := by
      refine UInt16.toNat_ofNat_of_lt ?_
      rw [UInt16.size]
      omega
    refine .pair ?_ ?_ ?_ h
    · rw [hhigh]
      omega
    · rw [hlow]
      omega
    · rw [hhigh, hlow]
      omega

theorem Writes.eq_flatMap {us : List UInt16} {cs : List Char} (h : Writes us cs) :
    us = cs.flatMap unitsOfChar := by
  induction h with
  | nil => rfl
  | @one c u us cs hunit hrest ih =>
    have hbasic : c.toNat < 0x10000 := hunit ▸ u.toNat_lt
    rw [List.flatMap_cons, ← ih, unitsOfChar, if_pos hbasic, hunit, UInt16.ofNat_toNat]
    rfl
  | @pair c high low us cs hhigh hlow hbits hrest ih =>
    have hbeyond : ¬ c.toNat < 0x10000 := by omega
    have hupper : 0xD800 + (c.toNat - 0x10000) / 0x400 = high.toNat := by omega
    have hlower : 0xDC00 + (c.toNat - 0x10000) % 0x400 = low.toNat := by omega
    rw [List.flatMap_cons, ← ih, unitsOfChar, if_neg hbeyond, hupper, hlower,
      UInt16.ofNat_toNat, UInt16.ofNat_toNat]
    rfl

/-- The code units of a text write it, and no others do. -/
theorem writes_iff {us : List UInt16} {s : String} : Writes us s.toList ↔ us = units s := by
  constructor
  · exact Writes.eq_flatMap
  · rintro rfl
    rw [units]
    induction s.toList with
    | nil => exact .nil
    | cons c cs ih => exact ih.unitsOfChar_append c

end Text.Utf16

/-! ## Hexadecimal digits -/

/-- The lower-case hexadecimal digits. -/
def lowerHexDigits : List Char :=
  ['0', '1', '2', '3', '4', '5', '6', '7', '8', '9', 'a', 'b', 'c', 'd', 'e', 'f']

theorem mem_toDigits {n : Nat} : ∀ c ∈ Nat.toDigits 16 n, c ∈ lowerHexDigits := by
  have hdigit : ∀ d < 16, d.digitChar ∈ lowerHexDigits := by decide
  induction n using Nat.strongRecOn with
  | ind n ih =>
    intro c hc
    by_cases hn : n < 16
    · rw [Nat.toDigits_of_lt_base hn, List.mem_singleton] at hc
      rw [hc]
      exact hdigit n hn
    · rw [Nat.toDigits_of_base_le (by decide) (Nat.not_lt.1 hn), List.mem_append,
        List.mem_singleton] at hc
      rcases hc with hc | rfl
      · exact ih (n / 16) (by omega) c hc
      · exact hdigit (n % 16) (Nat.mod_lt n (by decide))

/-- Only the digits of zero start with a zero. -/
theorem head?_toDigits {n : Nat} (h : (Nat.toDigits 16 n).head? = some '0') : n = 0 := by
  induction n using Nat.strongRecOn with
  | ind n ih =>
    by_cases hn : n < 16
    · rw [Nat.toDigits_of_lt_base hn, List.head?_cons, Option.some.injEq] at h
      exact Nat.digitChar_eq_zero.1 h
    · rw [Nat.toDigits_of_base_le (by decide) (Nat.not_lt.1 hn),
        List.head?_append_of_ne_nil _ Nat.toDigits_ne_nil] at h
      have hzero := ih (n / 16) (by omega) h
      omega

namespace Token.Digest

open Text.Utf16 (Writes units)

/-! ## Horner's rule -/

/-- The value at 31 of the polynomial with some code units as its coefficients. -/
def polynomial (us : List UInt16) : Nat :=
  ∑ i : Fin us.length, us[i].toNat * 31 ^ (us.length - 1 - i)

@[simp] theorem polynomial_nil : polynomial [] = 0 := rfl

theorem polynomial_cons (u : UInt16) (us : List UInt16) :
    polynomial (u :: us) = u.toNat * 31 ^ us.length + polynomial us := by
  have hplace : ∀ i : Fin us.length, us.length - (i.val + 1) = us.length - 1 - i.val := by
    intro i
    omega
  simp [polynomial, Fin.sum_univ_succ, hplace]

/-- One more unit moves the hash up by a place. -/
theorem toNat_step (h : UInt32) (u : UInt16) :
    (step h u).toNat = (h.toNat * 31 + u.toNat) % 2 ^ 32 := by
  simp [step, multiplier]

/-- Units after a hash move it up by their number of places and add their polynomial. -/
theorem toNat_foldl_step (h : UInt32) (us : List UInt16) :
    (us.foldl step h).toNat = (h.toNat * 31 ^ us.length + polynomial us) % 2 ^ 32 := by
  induction us generalizing h with
  | nil => simp
  | cons u us ih =>
    calc ((u :: us).foldl step h).toNat
        = ((step h u).toNat * 31 ^ us.length + polynomial us) % 2 ^ 32 := ih (step h u)
      _ = ((h.toNat * 31 + u.toNat) * 31 ^ us.length + polynomial us) % 2 ^ 32 := by
          rw [toNat_step, Nat.add_mod, Nat.mod_mul_mod, ← Nat.add_mod]
      _ = (h.toNat * 31 ^ (u :: us).length + polynomial (u :: us)) % 2 ^ 32 := by
          rw [polynomial_cons, List.length_cons]
          ring_nf

/-- The hash of a text is the polynomial of its units. -/
theorem toNat_hash (s : String) : (hash s).toNat = polynomial (units s) % 2 ^ 32 := by
  rw [hash, toNat_foldl_step]
  simp

/-- The hash of two texts in a row is made of their hashes. -/
theorem toNat_hash_append (a b : String) :
    (hash (a ++ b)).toNat =
      ((hash a).toNat * 31 ^ (units b).length + (hash b).toNat) % 2 ^ 32 := by
  rw [hash_append, toNat_foldl_step, toNat_hash b, Nat.add_mod_mod]

/-- The signed hash is the polynomial too, brought between `-2 ^ 31` and `2 ^ 31`. -/
theorem signedHash_eq_bmod (s : String) :
    signedHash s = (polynomial (units s) : Int).bmod (2 ^ 32) := by
  have hword : signedHash s = ((hash s).toNat : Int).bmod (2 ^ 32) := BitVec.toInt_eq_toNat_bmod _
  rw [hword, toNat_hash, Int.natCast_emod]
  exact Int.emod_bmod _ _

/-! ## Digests -/

/-- A digest has from one to eight digits. -/
theorem length_text (s : String) : 1 ≤ (text s).length ∧ (text s).length ≤ 8 := by
  rw [text, hexOfNat, String.length_ofList]
  constructor
  · exact Nat.length_toDigits_pos
  · exact (Nat.length_toDigits_le_iff (by decide) (by decide)).2 (hash s).toNat_lt

/-- The hash is a polynomial and the digest renders it.  The signed hash of a text is the sum of its
UTF-16 code units, each times 31 to the power of the number of units after it, brought between
`-2 ^ 31` and `2 ^ 31`; as an unsigned number it is the same sum modulo `2 ^ 32`.  So the hash of
two texts in a row is the first one's times 31 to the number of units of the second, and the second
one's.  The digest is one to eight lower-case hexadecimal digits without a leading zero, unless it
is a zero alone; they are read back as the unsigned number, so that two digests are the same exactly
when the hashes are. -/
theorem digest_renders_polynomial (s : String) :
    (∀ us, Writes us s.toList ↔ us = units s) ∧
    signedHash s = (polynomial (units s) : Int).bmod (2 ^ 32) ∧
    ((hash s).toNat : Int) = signedHash s % 2 ^ 32 ∧
    (hash s).toNat = polynomial (units s) % 2 ^ 32 ∧
    (∀ b, (hash (s ++ b)).toNat =
      ((hash s).toNat * 31 ^ (units b).length + (hash b).toNat) % 2 ^ 32) ∧
    (1 ≤ (text s).length ∧ (text s).length ≤ 8) ∧
    (∀ c ∈ (text s).toList, c ∈ lowerHexDigits) ∧
    ((text s).toList.head? = some '0' → text s = "0") ∧
    hexNat? (text s).toList = some (hash s).toNat ∧
    (∀ t, text s = text t ↔ signedHash s = signedHash t) := by
  have hdigits : (text s).toList = Nat.toDigits 16 (hash s).toNat := String.toList_ofList
  refine ⟨fun us => Text.Utf16.writes_iff, signedHash_eq_bmod s, ?_, toNat_hash s,
    toNat_hash_append s, length_text s, ?_, ?_, ?_, fun t => text_eq_iff⟩
  · rw [signedHash_eq_bmod, toNat_hash, Int.natCast_emod]
    exact Int.bmod_emod.symm
  · rw [hdigits]
    exact mem_toDigits
  · rw [hdigits]
    intro hzero
    rw [text, head?_toDigits hzero]
    rfl
  · rw [hdigits]
    exact hexNat?_toDigits (hash s).toNat

/-- The least signed hash is rendered without a sign. -/
example : signedHash "polygenelubricants" = -2147483648 ∧
    text "polygenelubricants" = "80000000" := by
  decide +kernel

/-- A character beyond U+10000 is hashed as its two surrogates. -/
example : (hash "😀").toNat = 0xD83D * 31 + 0xDE00 := by
  decide +kernel

end Token.Digest

end DeviceAuth
