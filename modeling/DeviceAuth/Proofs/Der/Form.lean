import DeviceAuth.Proofs.Der

/-!
# DeviceAuth.Proofs.Der.Form

What the rules of DER ask of a length, an element and an integer, said of the bytes alone: lengths
and integers have no byte to spare, and an element is its tag, the length of its content and the
content.  The rules leave one form each, and that is the one that is written; integers are read by
the rules as they stand here.
-/

namespace DeviceAuth.Der

/-! ## Lengths and elements -/

/-- The bytes of a length: one byte below 0x80, or the count of its digits and the digits, the
first of which is not zero. -/
inductive IsLength : Nat → List UInt8 → Prop
  | short {b : UInt8} (hshort : b.toNat < 0x80) : IsLength b.toNat [b]
  | long {b : UInt8} {digits : List UInt8} (hlong : 0x80 ≤ beNat digits)
      (hcount : b.toNat = 0x80 + digits.length) (hminimal : digits.head? ≠ some 0) :
      IsLength (beNat digits) (b :: digits)

/-- The bytes of an element: its tag, the length of its content, and the content. -/
inductive IsElement (tag : UInt8) (content : List UInt8) : List UInt8 → Prop
  | intro {length : List UInt8} (hlength : IsLength content.length length) :
      IsElement tag content (tag :: (length ++ content))

theorem IsLength.eq_writeLength {n : Nat} {bs : List UInt8} (h : IsLength n bs) :
    bs = writeLength n := by
  cases h with
  | @short b hshort => rw [writeLength, if_pos hshort, UInt8.ofNat_toNat]
  | @long b digits hlong hcount hminimal =>
    have hwidth := byteWidth_beNat hminimal
    have hb : UInt8.ofNat (0x80 + digits.length) = b := by
      rw [← hcount, UInt8.ofNat_toNat]
    rw [writeLength, if_neg (Nat.not_lt.2 hlong), hwidth, hb, beBytes_beNat]

theorem isLength_writeLength {n : Nat} (hmax : n ≤ maxLength) : IsLength n (writeLength n) := by
  rw [writeLength]
  by_cases hshort : n < 0x80
  · have hn : (UInt8.ofNat n).toNat = n := by
      rw [UInt8.toNat_ofNat']
      omega
    have hlength := IsLength.short (hn.symm ▸ hshort)
    rw [hn] at hlength
    rwa [if_pos hshort]
  · have hread : beNat (beBytes (byteWidth n) n) = n := beNat_beBytes_of_lt (lt_pow_byteWidth n)
    have hwidth := byteWidth_of_le_maxLength (by omega) hmax
    have hcount := toNat_lengthPrefix hwidth.2
    rw [← length_beBytes (byteWidth n) n] at hcount
    have hlength := IsLength.long (by rw [hread]; omega) hcount (head?_beBytes_byteWidth n)
    rw [hread, length_beBytes] at hlength
    rwa [if_neg hshort]

/-- The rules leave an element no form but the written one. -/
theorem IsElement.eq_writeElement {tag : UInt8} {content bs : List UInt8}
    (h : IsElement tag content bs) : bs = writeElement ⟨tag, content⟩ := by
  cases h with
  | intro hlength => rw [hlength.eq_writeLength, writeElement]

theorem isElement_writeElement {tag : UInt8} {content : List UInt8}
    (hmax : content.length ≤ maxLength) : IsElement tag content (writeElement ⟨tag, content⟩) :=
  .intro (isLength_writeLength hmax)

/-- Tag and length take up six bytes at most. -/
theorem length_writeElement_le {tag : UInt8} {content : List UInt8} {k : Nat}
    (hk : content.length ≤ k) (hmax : k ≤ maxLength) :
    (writeElement ⟨tag, content⟩).length ≤ k + 6 := by
  have hlength := length_writeLength_le (Nat.le_trans hk hmax)
  rw [writeElement, List.length_cons, List.length_append]
  dsimp only
  omega

/-! ## Integers -/

/-- The content of an integer that is not negative: digits of the number, with the top bit clear and
without a zero in front that the top bit does not need. -/
structure IsNatural (n : Nat) (content : List UInt8) : Prop where
  value : beNat content = n
  sign : ∃ b r, content = b :: r ∧ b < 0x80
  minimal : ∀ b r, content = 0 :: b :: r → ¬ b < 0x80

/-- Integers are read by the rules. -/
theorem naturalOfContent?_eq_some_iff {content : List UInt8} {n : Nat} :
    naturalOfContent? content = some n ↔ IsNatural n content := by
  match content with
  | [] =>
    refine ⟨nofun, fun h => ?_⟩
    obtain ⟨b, r, hnil, -⟩ := h.sign
    contradiction
  | [b] =>
    rw [naturalOfContent?, Option.ite_none_right_eq_some, Option.some.injEq]
    constructor
    · rintro ⟨hb, rfl⟩
      exact ⟨beNat_singleton b, ⟨b, [], rfl, hb⟩, nofun⟩
    · rintro ⟨rfl, ⟨d, r, hcons, hd⟩, -⟩
      obtain ⟨rfl, -⟩ := List.cons.inj hcons
      exact ⟨hd, (beNat_singleton b).symm⟩
  | b :: c :: r =>
    rw [naturalOfContent?]
    by_cases hzero : b = 0
    · subst hzero
      rw [if_pos rfl, Option.ite_none_left_eq_some, Option.some.injEq]
      constructor
      · rintro ⟨hc, rfl⟩
        refine ⟨beNat_zero_cons _, ⟨0, _, rfl, by decide⟩, ?_⟩
        rintro d s hcons
        obtain ⟨rfl, -⟩ := List.cons.inj (List.cons.inj hcons).2
        exact hc
      · rintro ⟨rfl, -, hminimal⟩
        exact ⟨hminimal c r rfl, (beNat_zero_cons _).symm⟩
    · rw [if_neg hzero, Option.ite_none_right_eq_some, Option.some.injEq]
      constructor
      · rintro ⟨hb, rfl⟩
        refine ⟨rfl, ⟨b, _, rfl, hb⟩, fun d s hcons => ?_⟩
        exact absurd (List.cons.inj hcons).1 hzero
      · rintro ⟨rfl, ⟨d, s, hcons, hd⟩, -⟩
        obtain ⟨rfl, -⟩ := List.cons.inj hcons
        exact ⟨hd, rfl⟩

/-- Digits without a zero in front are the content of their number, behind a zero where the top bit
is set. -/
theorem naturalContent_beNat {b : UInt8} {r : List UInt8} (hb : b ≠ 0) :
    naturalContent (beNat (b :: r)) = if b < 0x80 then b :: r else 0 :: b :: r := by
  have hwidth : byteWidth (beNat (b :: r)) = (b :: r).length :=
    byteWidth_beNat (by simpa using hb)
  have hpos : beNat (b :: r) ≠ 0 := by
    intro hzero
    rw [hzero] at hwidth
    simp [byteWidth] at hwidth
  rw [naturalContent, if_neg hpos, hwidth, beBytes_beNat]
  rfl

theorem isNatural_naturalContent (n : Nat) : IsNatural n (naturalContent n) := by
  have hread := beNat_beBytes_of_lt (lt_pow_byteWidth n)
  have hhead := head?_beBytes_byteWidth n
  cases hbs : beBytes (byteWidth n) n with
  | nil =>
    rw [hbs] at hread
    obtain rfl : 0 = n := hread
    exact ⟨rfl, ⟨0, [], rfl, by decide⟩, nofun⟩
  | cons b r =>
    rw [hbs] at hread hhead
    subst hread
    have hpos : b ≠ 0 := by simpa using hhead
    rw [naturalContent_beNat hpos]
    split
    · next hb =>
      refine ⟨rfl, ⟨b, r, rfl, hb⟩, fun d s hcons => ?_⟩
      exact absurd (List.cons.inj hcons).1 hpos
    · next hb =>
      refine ⟨beNat_zero_cons _, ⟨0, b :: r, rfl, by decide⟩, fun d s hcons => ?_⟩
      obtain ⟨rfl, -⟩ := List.cons.inj (List.cons.inj hcons).2
      exact hb

/-- The rules leave an integer no form but the written one. -/
theorem IsNatural.eq_naturalContent {n : Nat} {content : List UInt8} (h : IsNatural n content) :
    content = naturalContent n := by
  obtain ⟨rfl, ⟨b, r, rfl, hb⟩, hminimal⟩ := h
  by_cases hzero : b = 0
  · subst hzero
    cases r with
    | nil => rfl
    | cons c s =>
      have hc := hminimal c s rfl
      have hpos : c ≠ 0 := by
        rintro rfl
        exact hc (by decide)
      rw [beNat_zero_cons, naturalContent_beNat hpos, if_neg hc]
  · rw [naturalContent_beNat hzero, if_pos hb]

/-- The content of an integer has a byte for each digit, and perhaps one more. -/
theorem length_naturalContent_le {n k : Nat} (hn : n < 256 ^ k) :
    (naturalContent n).length ≤ k + 1 := by
  have hwidth := byteWidth_le_iff.2 hn
  rw [naturalContent]
  dsimp only
  split
  · simp
  · split
    · rw [length_beBytes]
      omega
    · rw [List.length_cons, length_beBytes]
      omega

/-- An integer is read from the front of a buffer exactly when its written form stands there. -/
theorem readNatural_eq_some_iff {bs r : List UInt8} {n : Nat} :
    readNatural bs = some (n, r) ↔
      (naturalContent n).length ≤ maxLength ∧ bs = writeNatural n ++ r := by
  have htag : isTag tagInteger = true := by decide
  rw [readNatural]
  constructor
  · intro h
    split at h
    · next content s hread =>
      obtain ⟨m, hm, hpair⟩ := Option.map_eq_some_iff.1 h
      obtain ⟨rfl, rfl⟩ := Prod.mk.inj hpair
      obtain ⟨⟨-, hmax⟩, hbs⟩ := readTagged_eq_some_iff.1 hread
      rw [(naturalOfContent?_eq_some_iff.1 hm).eq_naturalContent] at hmax hbs
      exact ⟨hmax, hbs⟩
    · contradiction
  · rintro ⟨hmax, hbs⟩
    have hread := readTagged_eq_some_iff.2 ⟨⟨htag, hmax⟩, hbs⟩
    simp [hread, naturalOfContent?_eq_some_iff.2 (isNatural_naturalContent n)]

/-- The numbers of an RSA key are read from their written form and from nothing else. -/
theorem readRsaNumbers?_eq_some_iff {bs : List UInt8} {n e : Nat} :
    readRsaNumbers? bs = some (n, e) ↔
      (writeNatural n ++ writeNatural e).length ≤ maxLength ∧ bs = writeRsaNumbers n e := by
  have htag : isTag tagSequence = true := by decide
  rw [readRsaNumbers?]
  constructor
  · intro h
    split at h
    · next content hcontent =>
      split at h
      · next m r hm =>
        split at h
        · next x hx =>
          rw [Option.some.injEq] at h
          obtain ⟨rfl, rfl⟩ := Prod.mk.inj h
          obtain ⟨⟨-, hmax⟩, hbs⟩ := readWhole_eq_some_iff.1 hcontent
          obtain ⟨-, rfl⟩ := readNatural_eq_some_iff.1 hx
          obtain ⟨-, rfl⟩ := readNatural_eq_some_iff.1 hm
          rw [List.append_nil] at hmax hbs
          exact ⟨hmax, hbs⟩
        · contradiction
      · contradiction
    · contradiction
  · rintro ⟨hmax, hbs⟩
    have hparts := hmax
    rw [List.length_append] at hparts
    have hm : (naturalContent n).length ≤ maxLength :=
      Nat.le_trans (length_content_le ⟨tagInteger, _⟩)
        (Nat.le_trans (Nat.le_add_right _ _) hparts)
    have hx : (naturalContent e).length ≤ maxLength :=
      Nat.le_trans (length_content_le ⟨tagInteger, _⟩)
        (Nat.le_trans (Nat.le_add_left _ _) hparts)
    have hcontent := readWhole_eq_some_iff.2 ⟨⟨htag, hmax⟩, hbs⟩
    have hmodulus : readNatural (writeNatural n ++ writeNatural e) = some (n, writeNatural e) :=
      readNatural_eq_some_iff.2 ⟨hm, rfl⟩
    have hexponent : readNatural (writeNatural e) = some (e, []) :=
      readNatural_eq_some_iff.2 ⟨hx, (List.append_nil _).symm⟩
    simp [hcontent, hmodulus, hexponent]

end DeviceAuth.Der
