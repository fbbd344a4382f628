import DeviceAuth.Der.KeyInfo
import DeviceAuth.Proofs.Bytes

/-!
# DeviceAuth.Proofs.Der

Reading DER accepts exactly what writing produces: a length, an element and a tagged content are
each read from the front of a buffer if and only if their one written form stands there.  The
section is layered like the format: lengths, then elements, then the containers of keys.

The length of an element stands in its first six bytes, so a whole element cannot be shortened
behind them (`length_eq_of_readWhole`).
-/

namespace DeviceAuth.Der

/-! ## Lengths -/

theorem byteWidth_of_le_maxLength {n : Nat} (hlong : 0x80 ≤ n) (hmax : n ≤ maxLength) :
    1 ≤ byteWidth n ∧ byteWidth n ≤ 4 := by
  have hle : byteWidth n ≤ 4 := byteWidth_le_iff.2 (Nat.lt_of_le_of_lt hmax (by decide))
  have hpos : ¬ byteWidth n ≤ 0 := by
    rw [byteWidth_le_iff]
    simp
    omega
  omega

/-- A long length starts with the number of its bytes. -/
theorem toNat_lengthPrefix {k : Nat} (hk : k ≤ 4) : (UInt8.ofNat (0x80 + k)).toNat = 0x80 + k := by
  rw [UInt8.toNat_ofNat']
  omega

theorem length_writeLength_le {n : Nat} (hmax : n ≤ maxLength) : (writeLength n).length ≤ 5 := by
  unfold writeLength
  split
  · simp
  · have hwidth := byteWidth_of_le_maxLength (by omega) hmax
    simp only [List.length_cons, length_beBytes]
    omega

theorem readLength_writeLength {n : Nat} (hmax : n ≤ maxLength) (r : List UInt8) :
    readLength (writeLength n ++ r) = some (n, r) := by
  by_cases hshort : n < 0x80
  · have hn : (UInt8.ofNat n).toNat = n := by
      rw [UInt8.toNat_ofNat']
      omega
    have hlt : UInt8.ofNat n < 0x80 := by
      rw [UInt8.lt_iff_toNat_lt, hn]
      exact hshort
    simp [writeLength, readLength, hshort, hlt, hn]
  · have hwidth := byteWidth_of_le_maxLength (by omega) hmax
    have hfront := toNat_lengthPrefix hwidth.2
    have hge : ¬ UInt8.ofNat (0x80 + byteWidth n) < 0x80 := by
      rw [UInt8.lt_iff_toNat_lt, hfront]
      simp
    have htake : (beBytes (byteWidth n) n ++ r).take (byteWidth n) = beBytes (byteWidth n) n := by
      simp [length_beBytes]
    have hdrop : (beBytes (byteWidth n) n ++ r).drop (byteWidth n) = r := by
      simp [length_beBytes]
    have hread : beNat (beBytes (byteWidth n) n) = n := beNat_beBytes_of_lt (lt_pow_byteWidth n)
    rw [writeLength, if_neg hshort, List.cons_append, readLength, if_neg hge]
    simp only [hfront, Nat.add_sub_cancel_left, htake, hread, hdrop]
    rw [if_pos ⟨hwidth.1, hwidth.2, by simp, by omega, trivial, hmax⟩]

theorem eq_writeLength_of_readLength {bs r : List UInt8} {n : Nat}
    (h : readLength bs = some (n, r)) : n ≤ maxLength ∧ bs = writeLength n ++ r := by
  cases bs with
  | nil => contradiction
  | cons b s =>
    rw [readLength] at h
    by_cases hshort : b < 0x80
    · rw [if_pos hshort, Option.some.injEq, Prod.mk.injEq] at h
      obtain ⟨rfl, rfl⟩ := h
      have hlt : b.toNat < 0x80 := UInt8.lt_iff_toNat_lt.1 hshort
      have hmax : b.toNat ≤ maxLength := Nat.le_trans (Nat.le_of_lt hlt) (by decide)
      refine ⟨hmax, ?_⟩
      rw [writeLength, if_pos hlt, UInt8.ofNat_toNat]
      rfl
    · rw [if_neg hshort] at h
      by_cases hcheck : 1 ≤ b.toNat - 0x80 ∧ b.toNat - 0x80 ≤ 4 ∧ b.toNat - 0x80 ≤ s.length ∧
          0x80 ≤ beNat (s.take (b.toNat - 0x80)) ∧
          byteWidth (beNat (s.take (b.toNat - 0x80))) = b.toNat - 0x80 ∧
          beNat (s.take (b.toNat - 0x80)) ≤ maxLength
      · simp only [if_pos hcheck, Option.some.injEq, Prod.mk.injEq] at h
        obtain ⟨hn, hr⟩ := h
        obtain ⟨hone, hfour, hlen, hlong, hwidth, hmax⟩ := hcheck
        have htake : (s.take (b.toNat - 0x80)).length = b.toNat - 0x80 := by
          rw [List.length_take]
          omega
        have hdigits : beBytes (byteWidth n) n = s.take (b.toNat - 0x80) := by
          have hback := beBytes_beNat (s.take (b.toNat - 0x80))
          rw [htake] at hback
          rw [← hn, hwidth, hback]
        have hfront : UInt8.ofNat (0x80 + byteWidth n) = b := by
          rw [← UInt8.toNat_inj, UInt8.toNat_ofNat', ← hn, hwidth]
          have hb := b.toNat_lt
          omega
        rw [hn] at hlong hmax
        refine ⟨hmax, ?_⟩
        rw [writeLength, if_neg (by omega), hfront, hdigits, ← hr, List.cons_append,
          List.take_append_drop]
      · simp only [if_neg hcheck] at h
        contradiction

/-- A length is read from the front of a buffer exactly when its written form stands there. -/
theorem readLength_eq_some_iff {bs r : List UInt8} {n : Nat} :
    readLength bs = some (n, r) ↔ n ≤ maxLength ∧ bs = writeLength n ++ r := by
  constructor
  · exact eq_writeLength_of_readLength
  · rintro ⟨hmax, rfl⟩
    exact readLength_writeLength hmax r

/-! ## Elements -/

/-- An element is read from the front of a buffer exactly when its written form stands there. -/
theorem readElement_eq_some_iff {bs r : List UInt8} {e : Element} :
    readElement bs = some (e, r) ↔
      (isTag e.tag = true ∧ e.content.length ≤ maxLength) ∧ bs = writeElement e ++ r := by
  constructor
  · intro h
    cases bs with
    | nil => contradiction
    | cons tag s =>
      rw [readElement] at h
      split at h
      · next htag =>
        split at h
        · next n s' hlength =>
          split at h
          · next hle =>
            simp only [Option.some.injEq, Prod.mk.injEq] at h
            obtain ⟨rfl, rfl⟩ := h
            obtain ⟨hmax, rfl⟩ := readLength_eq_some_iff.1 hlength
            have hcontent : (s'.take n).length = n := by
              rw [List.length_take]
              omega
            refine ⟨⟨htag, by rwa [hcontent]⟩, ?_⟩
            simp [writeElement, hcontent]
          · contradiction
        · contradiction
      · contradiction
  · rintro ⟨⟨htag, hmax⟩, rfl⟩
    simp [writeElement, readElement, htag, readLength_writeLength hmax]

theorem readTagged_eq_some_iff {tag : UInt8} {bs content r : List UInt8} :
    readTagged tag bs = some (content, r) ↔
      (isTag tag = true ∧ content.length ≤ maxLength) ∧ bs = writeElement ⟨tag, content⟩ ++ r := by
  rw [← readElement_eq_some_iff (e := ⟨tag, content⟩), readTagged]
  constructor
  · intro h
    split at h
    · next e s hread =>
      split at h
      · next htag =>
        simp only [Option.some.injEq, Prod.mk.injEq] at h
        obtain ⟨rfl, rfl⟩ := h
        subst htag
        exact hread
      · contradiction
    · contradiction
  · intro h
    simp [h]

/-- A buffer is one tagged element exactly when it is the written form of one. -/
theorem readWhole_eq_some_iff {tag : UInt8} {bs content : List UInt8} :
    readWhole tag bs = some content ↔
      (isTag tag = true ∧ content.length ≤ maxLength) ∧ bs = writeElement ⟨tag, content⟩ := by
  rw [← List.append_nil (writeElement ⟨tag, content⟩), ← readTagged_eq_some_iff, readWhole]
  constructor
  · intro h
    split at h
    · next c hread =>
      rw [Option.some.injEq] at h
      subst h
      exact hread
    · contradiction
  · intro h
    rw [h]

/-- The first bytes of an element fix how many bytes follow them. -/
theorem length_eq_of_readWhole {tag : UInt8} {p s t c d : List UInt8} (hp : 6 ≤ p.length)
    (hs : readWhole tag (p ++ s) = some c) (ht : readWhole tag (p ++ t) = some d) :
    s.length = t.length := by
  obtain ⟨⟨-, hc⟩, hs⟩ := readWhole_eq_some_iff.1 hs
  obtain ⟨⟨-, hd⟩, ht⟩ := readWhole_eq_some_iff.1 ht
  -- the tag and the length of `c` are a part of `p`, so `d` is read with the length of `c`
  have hwhole : (tag :: writeLength c.length) <+: p ++ s := by
    rw [hs]
    exact ⟨c, rfl⟩
  have hfront : (tag :: writeLength c.length) <+: p := by
    refine List.prefix_of_prefix_length_le hwhole (List.prefix_append p s) ?_
    have hlen := length_writeLength_le hc
    rw [List.length_cons]
    omega
  obtain ⟨q, rfl⟩ := hfront
  simp only [writeElement, List.cons_append, List.append_assoc, List.cons.injEq, true_and,
    List.append_cancel_left_eq] at hs ht
  have hsame := readLength_writeLength hd d
  rw [← ht, readLength_writeLength hc, Option.some.injEq, Prod.mk.injEq] at hsame
  have hlens := congrArg List.length hs
  have hlent := congrArg List.length hsame.2
  simp only [List.length_append] at hlens hlent
  omega

theorem length_writeElement {e : Element} (hshort : e.content.length < 0x80) :
    (writeElement e).length = e.content.length + 2 := by
  simp [writeElement, writeLength, hshort]

/-! ## Containers -/

theorem Oid.eq_of_ofContent? {content : List UInt8} {o : Oid}
    (h : Oid.ofContent? content = some o) : content = o.content := by
  rw [Oid.ofContent?] at h
  split at h
  · rw [Option.some.injEq] at h
    rw [← h]
  · contradiction

theorem eq_writeOid_of_readOid {bs r : List UInt8} {o : Oid} (h : readOid bs = some (o, r)) :
    bs = writeOid o ++ r := by
  rw [readOid] at h
  split at h
  · next content s hread =>
    obtain ⟨o', ho, hpair⟩ := Option.map_eq_some_iff.1 h
    rw [Prod.mk.injEq] at hpair
    obtain ⟨rfl, rfl⟩ := hpair
    have hcontent := Oid.eq_of_ofContent? ho
    subst hcontent
    exact (readTagged_eq_some_iff.1 hread).2
  · contradiction

theorem Algorithm.eq_of_ofContent? {content : List UInt8} {a : Algorithm}
    (h : Algorithm.ofContent? content = some a) :
    content = writeOid a.oid ++ (a.parameters.map writeElement).getD [] := by
  rw [Algorithm.ofContent?] at h
  split at h
  · next o hoid =>
    rw [Option.some.injEq] at h
    subst h
    exact eq_writeOid_of_readOid hoid
  · next o s _ hoid =>
    split at h
    · next e helement =>
      rw [Option.some.injEq] at h
      subst h
      have hs := (readElement_eq_some_iff.1 helement).2
      rw [List.append_nil] at hs
      rw [eq_writeOid_of_readOid hoid, hs]
      rfl
    · contradiction
  · contradiction

theorem eq_writeAlgorithm_of_readAlgorithm {bs r : List UInt8} {a : Algorithm}
    (h : readAlgorithm bs = some (a, r)) : bs = writeAlgorithm a ++ r := by
  rw [readAlgorithm] at h
  split at h
  · next content s hread =>
    obtain ⟨a', ha, hpair⟩ := Option.map_eq_some_iff.1 h
    rw [Prod.mk.injEq] at hpair
    obtain ⟨rfl, rfl⟩ := hpair
    rw [(readTagged_eq_some_iff.1 hread).2, Algorithm.eq_of_ofContent? ha]
    rfl
  · contradiction

theorem Algorithm.parameters_of_parameterOid? {a : Algorithm} {o : Oid}
    (h : a.parameterOid? = some o) : a.parameters = some ⟨tagOid, o.content⟩ := by
  obtain ⟨e, he, h⟩ := Option.bind_eq_some_iff.1 h
  split at h
  · next htag =>
    rw [he, ← Oid.eq_of_ofContent? h, ← htag]
  · contradiction

/-- Bits that fill their bytes stand behind a zero, the number of unused bits. -/
theorem BitString.eq_zero_cons_of_aligned? {content key : List UInt8} {bits : BitString}
    (h : BitString.ofContent? content = some bits) (hkey : bits.aligned? = some key) :
    content = 0 :: key := by
  cases content with
  | nil => contradiction
  | cons b bs =>
    rw [BitString.ofContent?] at h
    split at h
    · rw [Option.some.injEq] at h
      subst h
      rw [BitString.aligned?] at hkey
      split at hkey
      · next hunused =>
        rw [Option.some.injEq] at hkey
        have hb : b = 0 := UInt8.toNat_inj.1 hunused
        rw [← hkey, hb]
      · contradiction
    · contradiction

/-- Bytes that read as a public key without unused bits are the written form of that key. -/
theorem PublicKeyInfo.eq_encode_of_decode? {bs key : List UInt8} {info : PublicKeyInfo}
    (h : PublicKeyInfo.decode? bs = some info) (hkey : info.key.aligned? = some key) :
    bs = PublicKeyInfo.encode info.algorithm key := by
  rw [PublicKeyInfo.decode?] at h
  split at h
  · next content hcontent =>
    split at h
    · next algorithm r halgorithm =>
      split at h
      · next bits hbits =>
        obtain ⟨s, hs, rfl⟩ := Option.map_eq_some_iff.1 h
        rw [(readWhole_eq_some_iff.1 hcontent).2, eq_writeAlgorithm_of_readAlgorithm halgorithm,
          (readWhole_eq_some_iff.1 hbits).2, BitString.eq_zero_cons_of_aligned? hs hkey]
        rfl
      · contradiction
    · contradiction
  · contradiction

/-! ### What is written is read -/

/-- The content of an element is a part of it. -/
theorem length_content_le (e : Element) : e.content.length ≤ (writeElement e).length := by
  rw [writeElement, List.length_cons, List.length_append]
  omega

/-- An algorithm whose identifier and parameter can be read. -/
structure Algorithm.Proper (a : Algorithm) : Prop where
  oid : Oid.ofContent? a.oid.content = some a.oid
  parameters : ∀ e, a.parameters = some e → isTag e.tag = true ∧ e.content.length ≤ maxLength

theorem readOid_writeOid {o : Oid} (ho : Oid.ofContent? o.content = some o) (r : List UInt8) :
    readOid (writeOid o ++ r) = some (o, r) := by
  have hlen : o.content.length ≤ maxLength := by
    rw [Oid.ofContent?] at ho
    split at ho
    · next h => exact Nat.le_trans h.2.1 (by decide)
    · contradiction
  have hread : readTagged tagOid (writeOid o ++ r) = some (o.content, r) :=
    readTagged_eq_some_iff.2 ⟨⟨by decide, hlen⟩, rfl⟩
  rw [readOid, hread]
  simp [ho]

theorem Algorithm.ofContent?_writeOid {a : Algorithm} (ha : a.Proper) :
    ofContent? (writeOid a.oid ++ (a.parameters.map writeElement).getD []) = some a := by
  rw [ofContent?, readOid_writeOid ha.oid]
  obtain ⟨oid, parameters⟩ := a
  cases parameters with
  | none => rfl
  | some e =>
    have hread : readElement (writeElement e) = some (e, []) :=
      readElement_eq_some_iff.2 ⟨ha.parameters e rfl, (List.append_nil _).symm⟩
    rw [Option.map_some, Option.getD_some]
    split
    · next heq => simp [writeElement] at heq
    · next o r _ heq =>
      rw [Option.some.injEq, Prod.mk.injEq] at heq
      obtain ⟨rfl, rfl⟩ := heq
      rw [hread]
    · contradiction

theorem readAlgorithm_writeAlgorithm {a : Algorithm} (ha : a.Proper)
    (hlen : (writeAlgorithm a).length ≤ maxLength) (r : List UInt8) :
    readAlgorithm (writeAlgorithm a ++ r) = some (a, r) := by
  have hread : readTagged tagSequence (writeAlgorithm a ++ r) =
      some (writeOid a.oid ++ (a.parameters.map writeElement).getD [], r) :=
    readTagged_eq_some_iff.2
      ⟨⟨by decide, Nat.le_trans (length_content_le ⟨tagSequence, _⟩) hlen⟩, rfl⟩
  rw [readAlgorithm, hread]
  simp [Algorithm.ofContent?_writeOid ha]

/-- The written form of a public key is read as that key, without unused bits. -/
theorem PublicKeyInfo.decode?_encode {a : Algorithm} {key : List UInt8} (ha : a.Proper)
    (hlen : (encode a key).length ≤ maxLength) : decode? (encode a key) = some ⟨a, ⟨0, key⟩⟩ := by
  have hcontent : (writeAlgorithm a ++ writeBitString key).length ≤ maxLength :=
    Nat.le_trans (length_content_le ⟨tagSequence, _⟩) hlen
  have hparts := hcontent
  rw [List.length_append] at hparts
  have hbits : (0 :: key).length ≤ maxLength :=
    Nat.le_trans (length_content_le ⟨tagBitString, 0 :: key⟩)
      (Nat.le_trans (Nat.le_add_left _ _) hparts)
  have hwhole : readWhole tagSequence (encode a key) =
      some (writeAlgorithm a ++ writeBitString key) :=
    readWhole_eq_some_iff.2 ⟨⟨by decide, hcontent⟩, rfl⟩
  have hkey : readWhole tagBitString (writeBitString key) = some (0 :: key) :=
    readWhole_eq_some_iff.2 ⟨⟨by decide, hbits⟩, rfl⟩
  rw [decode?, hwhole]
  dsimp only
  rw [readAlgorithm_writeAlgorithm ha (Nat.le_trans (Nat.le_add_right _ _) hparts)]
  dsimp only
  rw [hkey]
  simp [BitString.ofContent?]

theorem PublicKeyInfo.readWhole_of_decode? {bs : List UInt8} {info : PublicKeyInfo}
    (h : PublicKeyInfo.decode? bs = some info) :
    ∃ content, readWhole tagSequence bs = some content := by
  rw [PublicKeyInfo.decode?] at h
  split at h
  · next content hcontent => exact ⟨content, hcontent⟩
  · contradiction

theorem PrivateKeyInfo.readWhole_of_decode? {bs : List UInt8} {info : PrivateKeyInfo}
    (h : PrivateKeyInfo.decode? bs = some info) :
    ∃ content, readWhole tagSequence bs = some content := by
  obtain ⟨content, hcontent, -⟩ := Option.bind_eq_some_iff.1 h
  exact ⟨content, hcontent⟩

/-! ### Public and private keys are told apart -/

theorem head?_of_readTagged {tag : UInt8} {bs content r : List UInt8}
    (h : readTagged tag bs = some (content, r)) : bs.head? = some tag := by
  rw [(readTagged_eq_some_iff.1 h).2]
  rfl

/-- A public key starts with a `SEQUENCE`, its algorithm. -/
theorem PublicKeyInfo.head?_of_decode? {bs content : List UInt8} {info : PublicKeyInfo}
    (h : PublicKeyInfo.decode? bs = some info)
    (hcontent : readWhole tagSequence bs = some content) : content.head? = some tagSequence := by
  rw [PublicKeyInfo.decode?, hcontent] at h
  dsimp only at h
  split at h
  · next algorithm r halgorithm =>
    rw [eq_writeAlgorithm_of_readAlgorithm halgorithm]
    rfl
  · contradiction

/-- A private key starts with an `INTEGER`, its version. -/
theorem PrivateKeyInfo.head?_of_decode? {bs content : List UInt8} {info : PrivateKeyInfo}
    (h : PrivateKeyInfo.decode? bs = some info)
    (hcontent : readWhole tagSequence bs = some content) : content.head? = some tagInteger := by
  obtain ⟨content', hcontent', h⟩ := Option.bind_eq_some_iff.1 h
  rw [hcontent, Option.some.injEq] at hcontent'
  subst hcontent'
  obtain ⟨⟨version, r⟩, hversion, -⟩ := Option.bind_eq_some_iff.1 h
  rw [readNatural] at hversion
  split at hversion
  · next hread => exact head?_of_readTagged hread
  · contradiction

/-- No bytes are a public key and a private key at once, whatever their algorithms. -/
theorem PublicKeyInfo.decode?_eq_none {bs : List UInt8} {info : PrivateKeyInfo}
    (h : PrivateKeyInfo.decode? bs = some info) : PublicKeyInfo.decode? bs = none := by
  obtain ⟨content, hcontent⟩ := PrivateKeyInfo.readWhole_of_decode? h
  rw [Option.eq_none_iff_forall_ne_some]
  intro other hother
  have hsequence := PublicKeyInfo.head?_of_decode? hother hcontent
  rw [PrivateKeyInfo.head?_of_decode? h hcontent] at hsequence
  contradiction

end DeviceAuth.Der
