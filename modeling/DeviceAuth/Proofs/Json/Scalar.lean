import DeviceAuth.Json.Printer
import DeviceAuth.Json.Reader
import DeviceAuth.Proofs.Text

/-!
# DeviceAuth.Proofs.Json.Scalar

What the printer writes for an integer or a string is read back, whatever follows it that may
follow a value.  An integer is digits without a leading zero; a string is escaped byte by byte, so
the law of escapes is one about bytes, and the bytes of a text are a matter of UTF-8 alone.
-/

namespace DeviceAuth.Json

/-! ## What follows a value -/

/-- What may stand after a value: nothing, a comma or a closing bracket. -/
def Closed (s : List UInt8) : Prop :=
  ∀ b ∈ s.head?, b = 0x2C ∨ b = 0x5D ∨ b = 0x7D

theorem closed_nil : Closed [] := by
  intro b hb
  contradiction

theorem closed_comma (s : List UInt8) : Closed (0x2C :: s) := by
  intro b hb
  exact .inl (Option.some.inj hb).symm

theorem closed_bracket (s : List UInt8) : Closed (0x5D :: s) := by
  intro b hb
  exact .inr (.inl (Option.some.inj hb).symm)

theorem closed_brace (s : List UInt8) : Closed (0x7D :: s) := by
  intro b hb
  exact .inr (.inr (Option.some.inj hb).symm)

/-- A byte above the space is not passed over. -/
theorem skipBlank_cons {b : UInt8} (hb : 0x20 < b) (s : List UInt8) :
    skipBlank (b :: s) = b :: s := by
  have h : (b == 0x20 || b == 0x0A || b == 0x0D || b == 0x09) = false := by
    simp only [Bool.or_eq_false_iff, beq_eq_false_iff_ne]
    refine ⟨⟨⟨?_, ?_⟩, ?_⟩, ?_⟩ <;>
    · rintro rfl
      contradiction
  rw [skipBlank, List.dropWhile_cons_of_neg (by rw [h]; decide)]

/-! ## Digits -/

theorem encodeNat_of_lt {n : Nat} (hn : n < 10) : encodeNat n = [UInt8.ofNat (48 + n)] := by
  have h : ∀ k < 10, encodeNat k = [UInt8.ofNat (48 + k)] := by decide
  exact h n hn

theorem encodeNat_of_le {n : Nat} (hn : 10 ≤ n) :
    encodeNat n = encodeNat (n / 10) ++ [UInt8.ofNat (48 + n % 10)] := by
  have hdigit : ∀ k < 10, UInt8.ofNat (Nat.digitChar k).toNat = UInt8.ofNat (48 + k) := by decide
  rw [encodeNat, Nat.toDigits_of_base_le (by decide) hn, ascii, List.map_append, List.map_singleton,
    hdigit (n % 10) (Nat.mod_lt n (by decide))]
  rfl

theorem isDigit_ofNat {k : Nat} (hk : k < 10) : isDigit (UInt8.ofNat (48 + k)) = true := by
  have h : ∀ j < 10, isDigit (UInt8.ofNat (48 + j)) = true := by decide
  exact h k hk

theorem digitValue_ofNat {k : Nat} (hk : k < 10) : digitValue (UInt8.ofNat (48 + k)) = k := by
  have h : ∀ j < 10, digitValue (UInt8.ofNat (48 + j)) = j := by decide
  exact h k hk

theorem isDigit_of_mem_encodeNat {n : Nat} : ∀ b ∈ encodeNat n, isDigit b = true := by
  induction n using Nat.strongRecOn with
  | ind n ih =>
    intro b hb
    rcases Nat.lt_or_ge n 10 with hn | hn
    · rw [encodeNat_of_lt hn, List.mem_singleton] at hb
      rw [hb]
      exact isDigit_ofNat hn
    · rw [encodeNat_of_le hn, List.mem_append, List.mem_singleton] at hb
      rcases hb with hb | rfl
      · exact ih (n / 10) (by omega) b hb
      · exact isDigit_ofNat (Nat.mod_lt n (by decide))

/-- Digits that are written read as the number. -/
theorem digitsValue_encodeNat (n : Nat) : digitsValue (encodeNat n) = n := by
  induction n using Nat.strongRecOn with
  | ind n ih =>
    rcases Nat.lt_or_ge n 10 with hn | hn
    · rw [encodeNat_of_lt hn, digitsValue, List.foldl_cons, List.foldl_nil, digitValue_ofNat hn]
      omega
    · have hprev := ih (n / 10) (by omega)
      unfold digitsValue at hprev ⊢
      rw [encodeNat_of_le hn, List.foldl_append, hprev, List.foldl_cons, List.foldl_nil,
        digitValue_ofNat (Nat.mod_lt n (by decide))]
      omega

/-- Only zero is written with a zero in front. -/
theorem encodeNat_eq_cons (n : Nat) :
    ∃ b r, encodeNat n = b :: r ∧ (b = 0x30 → n = 0 ∧ r = []) := by
  induction n using Nat.strongRecOn with
  | ind n ih =>
    rcases Nat.lt_or_ge n 10 with hn | hn
    · have hzero : ∀ k < 10, UInt8.ofNat (48 + k) = 0x30 → k = 0 := by decide
      exact ⟨_, [], encodeNat_of_lt hn, fun h => ⟨hzero n hn h, rfl⟩⟩
    · obtain ⟨b, r, hbr, hzero⟩ := ih (n / 10) (by omega)
      refine ⟨b, r ++ [UInt8.ofNat (48 + n % 10)], ?_, ?_⟩
      · rw [encodeNat_of_le hn, hbr, List.cons_append]
      · intro h
        have := (hzero h).1
        omega

/-- More digits make a number no smaller. -/
theorem le_foldl_digits (n : Nat) (ds : List UInt8) :
    n ≤ ds.foldl (fun n d => n * 10 + digitValue d) n := by
  induction ds generalizing n with
  | nil => exact Nat.le_refl n
  | cons d ds ih =>
    have hn := ih (n * 10 + digitValue d)
    rw [List.foldl_cons]
    omega

/-- Digits are all taken while their number stays within 64 bits. -/
theorem absorb_eq {m : Nat} {ds : List UInt8}
    (h : ds.foldl (fun n d => n * 10 + digitValue d) m < significandLimit) :
    absorb m ds = (ds.foldl (fun n d => n * 10 + digitValue d) m, ds.length) := by
  induction ds generalizing m with
  | nil => rfl
  | cons d ds ih =>
    rw [List.foldl_cons] at h ⊢
    have hm := le_foldl_digits (m * 10 + digitValue d) ds
    rw [absorb, if_pos (by omega), ih h]
    rfl

/-! ## Integers -/

/-- What closes a value is no part of a number. -/
theorem not_isDigit_of_closed {b : UInt8} {r : List UInt8} (h : Closed (b :: r)) :
    isDigit b = false ∧ b ≠ 0x2E ∧ isExponentMark b = false := by
  rcases h b rfl with rfl | rfl | rfl <;> decide

theorem takeWhile_digits {ds rest : List UInt8} (hds : ∀ b ∈ ds, isDigit b = true)
    (hrest : Closed rest) : (ds ++ rest).takeWhile isDigit = ds := by
  rw [List.takeWhile_append_of_pos hds]
  cases rest with
  | nil => simp
  | cons b r => simp [(not_isDigit_of_closed hrest).1]

theorem dropWhile_digits {ds rest : List UInt8} (hds : ∀ b ∈ ds, isDigit b = true)
    (hrest : Closed rest) : (ds ++ rest).dropWhile isDigit = rest := by
  rw [List.dropWhile_append_of_pos hds]
  cases rest with
  | nil => rfl
  | cons b r => simp [(not_isDigit_of_closed hrest).1]

/-- The digits of a number of 64 bits are read as that number, under the sign before them. -/
theorem readNumber_encodeNat (negative : Bool) {n : Nat} (hn : n < significandLimit)
    {rest : List UInt8} (hrest : Closed rest) :
    readNumber negative (encodeNat n ++ rest) = .ok (integerOf negative n, rest) := by
  have hdigits := isDigit_of_mem_encodeNat (n := n)
  have htake := takeWhile_digits hdigits hrest
  have hdrop := dropWhile_digits hdigits hrest
  have hvalue := digitsValue_encodeNat n
  unfold digitsValue at hvalue
  have habsorb : absorb 0 (encodeNat n) = (n, (encodeNat n).length) := by
    rw [absorb_eq (by rw [hvalue]; exact hn), hvalue]
  obtain ⟨b, r, hbr, hzero⟩ := encodeNat_eq_cons n
  have hb : isDigit b = true := hdigits b (by rw [hbr]; exact List.mem_cons_self)
  have hlead : ¬ (b = 0x30 ∧ (((r ++ rest).head?.map isDigit).getD false = true)) := by
    rintro ⟨hb0, hd⟩
    rw [(hzero hb0).2, List.nil_append] at hd
    cases rest with
    | nil => contradiction
    | cons c t =>
      have hc := (not_isDigit_of_closed hrest).1
      simp [hc] at hd
  rw [hbr] at htake hdrop habsorb ⊢
  rw [List.cons_append] at htake hdrop ⊢
  simp only [readNumber, hb, htake, hdrop, habsorb]
  rw [if_neg (by decide), if_neg hlead]
  cases rest with
  | nil => simp
  | cons c t =>
    obtain ⟨-, hdot, hmark⟩ := not_isDigit_of_closed hrest
    simp [hdot, hmark]

/-! ## Strings -/

/-- A control character in four hexadecimal digits is read back. -/
theorem hex4?_control : ∀ n < 0x20,
    hex4? 0x30 0x30 (UInt8.ofNat (hexDigit (n / 16)).toNat)
      (UInt8.ofNat (hexDigit (n % 16)).toNat) = some n := by
  decide

/-- A code point below 128 is one byte. -/
theorem codePointBytes_ascii {b : UInt8} (hb : b.toNat < 128) : codePointBytes b.toNat = [b] := by
  have h := Text.Utf8.encode_ofList [Char.ofNat b.toNat]
  rw [List.flatMap_singleton, Text.Utf8.utf8EncodeChar_ofNat hb] at h
  exact h

theorem unescape_short {e b : UInt8} (he : e ≠ 0x75) (h : shortEscape? e = some b)
    (r : List UInt8) : unescape (0x5C :: e :: r) = prependBytes [b] (unescape r) := by
  rw [unescape.eq_def]
  dsimp only
  rw [if_neg (by decide), if_pos rfl, if_neg he, h]

theorem unescape_plain {b c : UInt8} (hquote : b ≠ 0x22) (hslash : b ≠ 0x5C) (hb : ¬ b < 0x20)
    (r : List UInt8) : unescape (b :: c :: r) = prependBytes [b] (unescape (c :: r)) := by
  rw [unescape.eq_def]
  dsimp only
  rw [if_neg hquote, if_neg hslash, if_neg hb]

theorem unescape_control {b : UInt8} (hb : b < 0x20) (r : List UInt8) :
    unescape ([0x5C, 0x75, 0x30, 0x30] ++
        ascii [hexDigit (b.toNat / 16), hexDigit (b.toNat % 16)] ++ r) =
      prependBytes [b] (unescape r) := by
  have hlt : b.toNat < 0x20 := UInt8.lt_iff_toNat_lt.1 hb
  have hlow : isLowSurrogate b.toNat = false := by
    rw [isLowSurrogate, decide_eq_false (by omega)]
    rfl
  have hhigh : isHighSurrogate b.toNat = false := by
    rw [isHighSurrogate, decide_eq_false (by omega)]
    rfl
  simp only [ascii, List.map_cons, List.map_nil, List.cons_append, List.nil_append]
  rw [unescape.eq_def]
  dsimp only
  rw [if_neg (by decide), if_pos rfl, if_pos rfl]
  simp only [hex4?_control b.toNat hlt, hlow, hhigh]
  rw [codePointBytes_ascii (by omega)]
  rfl

/-- A byte is read back from its escape, or from itself where it needs none. -/
theorem unescape_escapeByte (b c : UInt8) (r : List UInt8) :
    unescape (escapeByte b ++ c :: r) = prependBytes [b] (unescape (c :: r)) := by
  unfold escapeByte
  -- the seven bytes with a short escape
  iterate 7
    split
    · next h => rw [h]; exact unescape_short (by decide) rfl _
  split
  · next h => exact unescape_control h _
  · next hquote hslash _ _ _ _ _ hb => exact unescape_plain hquote hslash hb r

/-- Escaped bytes are read back through the quote that closes them. -/
theorem unescape_flatMap_escapeByte (bs rest : List UInt8) :
    unescape (bs.flatMap escapeByte ++ 0x22 :: rest) = .ok (bs, rest) := by
  induction bs with
  | nil => cases rest <;> simp [unescape.eq_def]
  | cons b bs ih =>
    have hne : bs.flatMap escapeByte ++ 0x22 :: rest ≠ [] := by simp
    obtain ⟨c, r, hcr⟩ := List.exists_cons_of_ne_nil hne
    rw [List.flatMap_cons, List.append_assoc, hcr, unescape_escapeByte, ← hcr, ih]
    rfl

/-- A string that is written is read back after its opening quote. -/
theorem readString_encodeString (s : String) (rest : List UInt8) :
    readString ((Text.Utf8.encode s).flatMap escapeByte ++ 0x22 :: rest) = .ok (s, rest) := by
  rw [readString, unescape_flatMap_escapeByte]
  simp only [Text.Utf8.decode?_encode]

end DeviceAuth.Json
