import DeviceAuth.Proofs.Text
import DeviceAuth.Token.Jws

/-!
# DeviceAuth.Proofs.Token.Compact

The form of a compact token: a signature is two scalars of thirty-two bytes each, a token with
three segments is its three parts with a dot between them, and what is written as a part has
neither dots nor padding in it, so that parts and tokens determine each other.
-/

namespace DeviceAuth.P256

/-! ## Signatures -/

theorem isScalar_iff {n : Nat} : isScalar n = true ↔ 0 < n ∧ n < order := by
  rw [isScalar, Bool.and_eq_true, decide_eq_true_eq, decide_eq_true_eq]

/-- A scalar fits thirty-two bytes. -/
theorem lt_of_isScalar {n : Nat} (h : isScalar n = true) : n < 256 ^ 32 :=
  Nat.lt_trans (isScalar_iff.1 h).2 (by decide)

theorem Signature.length_encode (sig : Signature) : sig.encode.length = 64 := by
  rw [encode, List.length_append, length_beBytes, length_beBytes]

/-- Two halves of thirty-two bytes are read as their numbers, if both are scalars. -/
theorem Signature.decode?_append {a b : List UInt8} (ha : a.length = 32) (hb : b.length = 32)
    (hr : isScalar (beNat a) = true) (hs : isScalar (beNat b) = true) :
    decode? (a ++ b) = some ⟨beNat a, beNat b⟩ := by
  have hlen : (a ++ b).length = 64 := by rw [List.length_append, ha, hb]
  have htake : (a ++ b).take 32 = a := by rw [← ha, List.take_left]
  have hdrop : (a ++ b).drop 32 = b := by rw [← ha, List.drop_left]
  rw [decode?, if_pos hlen, htake, hdrop]
  simp only [hr, hs, Bool.and_self, if_true]

/-- What is read as a signature is two halves of thirty-two bytes, both scalars. -/
theorem Signature.of_decode? {bs : List UInt8} {sig : Signature} (h : decode? bs = some sig) :
    ∃ a b, a.length = 32 ∧ b.length = 32 ∧ bs = a ++ b ∧ sig = ⟨beNat a, beNat b⟩ ∧
      isScalar sig.r = true ∧ isScalar sig.s = true := by
  unfold decode? at h
  split at h
  · next hlen =>
    dsimp only at h
    split at h
    · next hscalar =>
      rw [Option.some.injEq] at h
      subst h
      rw [Bool.and_eq_true] at hscalar
      refine ⟨bs.take 32, bs.drop 32, ?_, ?_, (List.take_append_drop 32 bs).symm, rfl,
        hscalar.1, hscalar.2⟩
      · rw [List.length_take, hlen]
        rfl
      · rw [List.length_drop, hlen]
    · contradiction
  · contradiction

end DeviceAuth.P256

namespace DeviceAuth.Token

/-! ## The parts of a token -/

/-- The token with three parts. -/
def compact (header claims signature : String) : String :=
  header ++ "." ++ claims ++ "." ++ signature

/-- A token is cut at its two dots. -/
structure ThreeParts (token header claims signature : String) : Prop where
  token_eq : token = compact header claims signature
  header_dotless : '.' ∉ header.toList
  claims_dotless : '.' ∉ claims.toList
  signature_dotless : '.' ∉ signature.toList

theorem toList_compact (h c s : String) :
    (compact h c s).toList = h.toList ++ '.' :: (c.toList ++ '.' :: s.toList) := by
  simp [compact]

/-- No character of a text without dots is a separator. -/
theorem forall_beq_dot_iff {cs : List Char} : (∀ c ∈ cs, (c == '.') = false) ↔ '.' ∉ cs := by
  constructor
  · intro h hdot
    exact absurd (h '.' hdot) (by decide)
  · intro h c hc
    rw [beq_eq_false_iff_ne]
    rintro rfl
    exact h hc

/-- A token has three segments exactly when it is cut into them. -/
theorem segments_eq_iff {token h c s : String} :
    segments token = [h, c, s] ↔ ThreeParts token h c s := by
  have hlists : segments token = [h, c, s] ↔
      Text.splitWhere (· == '.') token.toList = [h.toList, c.toList, s.toList] := by
    constructor
    · intro hseg
      have hlists := congrArg (List.map String.toList) hseg
      simpa [segments, Function.comp_def] using hlists
    · intro hsplit
      rw [segments, hsplit]
      simp only [List.map_cons, List.map_nil, String.ofList_toList]
  rw [hlists, Text.splitWhere_eq_cons_cons_iff, forall_beq_dot_iff]
  constructor
  · rintro ⟨hh, d, b, hd, htoken, hrest⟩
    rw [Text.splitWhere_eq_cons_cons_iff, forall_beq_dot_iff] at hrest
    obtain ⟨hc, d', b', hd', rfl, hlast⟩ := hrest
    rw [Text.splitWhere_eq_singleton_iff, forall_beq_dot_iff] at hlast
    obtain ⟨rfl, hs⟩ := hlast
    rw [beq_iff_eq] at hd hd'
    subst hd hd'
    refine ⟨String.toList_injective ?_, hh, hc, hs⟩
    rw [htoken, toList_compact]
  · rintro ⟨rfl, hh, hc, hs⟩
    refine ⟨hh, '.', _, by decide, toList_compact h c s, ?_⟩
    rw [Text.splitWhere_eq_cons_cons_iff, forall_beq_dot_iff]
    refine ⟨hc, '.', _, by decide, rfl, ?_⟩
    rw [Text.splitWhere_eq_singleton_iff, forall_beq_dot_iff]
    exact ⟨rfl, hs⟩

/-! ## Segments -/

/-- The one way to write some bytes as a part is what a verifier reads back. -/
theorem decodeText_segment_iff {s : String} {bytes : List UInt8} :
    Base64.decodeText .urlSafe .none s = .ok bytes ↔ s = segment bytes :=
  Base64.decodeText_none_eq_ok_iff Base64.urlSafe_proper

/-- A part is read as the bytes it spells whether or not padding may stand. -/
theorem decodeText_segment (pad : Base64.Padding) (bytes : List UInt8) :
    Base64.decodeText .urlSafe pad (segment bytes) = .ok bytes := by
  rw [Base64.decodeText_eq_ok_iff Base64.urlSafe_proper]
  refine ⟨0, Nat.zero_le _, ?_⟩
  rw [List.replicate_zero, List.append_nil]
  rfl

/-- A character in a part is a symbol of the alphabet. -/
theorem exists_symbol_of_mem_segment {bytes : List UInt8} {ch : Char}
    (h : ch ∈ (segment bytes).toList) :
    ∃ v < 64, ch = Char.ofNat (Base64.Alphabet.urlSafe.symbol v).toNat := by
  rw [segment, Base64.encodeNoPad, Base64.spell, String.toList_ofList, List.mem_map] at h
  obtain ⟨b, hb, rfl⟩ := h
  obtain ⟨v, hv, rfl⟩ := Base64.exists_symbol_of_mem_encodeUnpadded hb
  exact ⟨v, hv, rfl⟩

/-- No part has a dot in it. -/
theorem dot_not_mem_segment (bytes : List UInt8) : '.' ∉ (segment bytes).toList := by
  intro h
  obtain ⟨v, hv, hch⟩ := exists_symbol_of_mem_segment h
  have hne : ∀ v < 64, '.' ≠ Char.ofNat (Base64.Alphabet.urlSafe.symbol v).toNat := by decide
  exact hne v hv hch

/-- No part has padding in it. -/
theorem pad_not_mem_segment (bytes : List UInt8) : '=' ∉ (segment bytes).toList := by
  intro h
  obtain ⟨v, hv, hch⟩ := exists_symbol_of_mem_segment h
  have hne : ∀ v < 64, '=' ≠ Char.ofNat (Base64.Alphabet.urlSafe.symbol v).toNat := by decide
  exact hne v hv hch

/-- A token of three segments is cut into them. -/
theorem threeParts_compact (h c s : List UInt8) :
    ThreeParts (compact (segment h) (segment c) (segment s)) (segment h) (segment c) (segment s) :=
  ⟨rfl, dot_not_mem_segment h, dot_not_mem_segment c, dot_not_mem_segment s⟩

/-- No two lists of bytes have the same part. -/
theorem segment_injective {a b : List UInt8} (h : segment a = segment b) : a = b :=
  Base64.encodeNoPad_injective Base64.urlSafe_proper h

/-- No two triples of parts make the same token. -/
theorem compact_segment_injective {h c s h' c' s' : List UInt8}
    (heq : compact (segment h) (segment c) (segment s) =
      compact (segment h') (segment c') (segment s')) : h = h' ∧ c = c' ∧ s = s' := by
  have hcut := segments_eq_iff.2 (threeParts_compact h c s)
  have hcut' := segments_eq_iff.2 (threeParts_compact h' c' s')
  rw [heq, hcut'] at hcut
  simp only [List.cons.injEq, and_true] at hcut
  obtain ⟨hh, hc, hs⟩ := hcut
  exact ⟨(segment_injective hh).symm, (segment_injective hc).symm, (segment_injective hs).symm⟩

/-- The signed bytes are the symbols of the header and the claims, with a dot between them. -/
theorem signingInput_segment (h c : List UInt8) :
    signingInput (segment h) (segment c) =
      Base64.encodeUnpadded .urlSafe h ++ 0x2E :: Base64.encodeUnpadded .urlSafe c := by
  have hsegment : ∀ bytes,
      Text.Utf8.encode (segment bytes) = Base64.encodeUnpadded .urlSafe bytes := by
    intro bytes
    have hlt := Base64.symbols_lt Base64.urlSafe_proper bytes 0
    rw [List.replicate_zero, List.append_nil] at hlt
    exact Text.Utf8.encode_ofList_ascii hlt
  rw [signingInput, Text.Utf8.encode_append, Text.Utf8.encode_append, hsegment, hsegment,
    List.append_assoc]
  rfl

end DeviceAuth.Token
