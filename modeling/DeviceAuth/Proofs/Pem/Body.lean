import DeviceAuth.Proofs.Base64.Defect
import DeviceAuth.Proofs.Pem

/-!
# DeviceAuth.Proofs.Pem.Body

What the body of a PEM text spells, whatever text it stands in.  A body is read as the bytes whose
symbols it holds, and of their padding it may keep as much as it likes; any other body has one of
the defects of `Base64.Defect` (`decode_canonical`).

Armour is in no one's way: each byte list has a text that is read as it, the one with a symbol on
every line (`exists_decode_eq`).  That is more than wrapping in lines of 64 columns can promise.
-/

namespace DeviceAuth.Base64

variable {al : Alphabet}

/-! ## Symbols and padding as texts -/

theorem spell_append_pad (bs : List UInt8) (k : Nat) :
    spell (encodeUnpadded al bs ++ List.replicate k padSymbol) =
      encodeNoPad al bs ++ String.ofList (List.replicate k '=') := by
  have hpad : Char.ofNat padSymbol.toNat = '=' := rfl
  simp [encodeNoPad, spell, hpad]

theorem length_encodeNoPad (al : Alphabet) (bs : List UInt8) :
    (encodeNoPad al bs).length = (encodeUnpadded al bs).length := by
  rw [encodeNoPad, spell, String.length_ofList, List.length_map]

/-- Without its padding, a text that spells some bytes is the symbols of these. -/
theorem unpadded_of_decodeText (hal : al.Proper) {s : String} {bs : List UInt8}
    (h : decodeText al .lenient s = .ok bs) :
    unpadded s.toList = (encodeNoPad al bs).toList := by
  obtain ⟨k, -, rfl⟩ := (decodeText_eq_ok_iff hal).1 h
  have hsymbols : (spell (encodeUnpadded al bs)).toList = (sextets bs).map al.char := by
    simpa using toList_spell bs 0
  rw [toList_spell, unpadded_append (hal.pad_not_mem (sextets_lt bs)), encodeNoPad, hsymbols]

/-- Texts that spell bytes spell the same ones exactly when they differ in their padding only. -/
theorem eq_iff_unpadded_eq (hal : al.Proper) {s t : String} {a b : List UInt8}
    (ha : decodeText al .lenient s = .ok a) (hb : decodeText al .lenient t = .ok b) :
    a = b ↔ unpadded s.toList = unpadded t.toList := by
  rw [unpadded_of_decodeText hal ha, unpadded_of_decodeText hal hb, String.toList_inj]
  exact ⟨congrArg _, encodeNoPad_injective hal⟩

/-- Symbols and padding of a length of one more than a multiple of four have a defect. -/
theorem Defect.of_length (hal : al.Proper) {s : String} (h : s.length % 4 = 1) :
    Defect al s.toList := by
  rw [← decodeText_eq_error_iff hal]
  cases hread : decodeText al .lenient s with
  | error fault => exact ⟨fault, rfl⟩
  | ok bs =>
    obtain ⟨k, hk, rfl⟩ := (decodeText_eq_ok_iff hal).1 hread
    rw [Padding.limit, length_encodeUnpadded, padLength] at hk
    rw [spell, String.length_ofList, List.length_map, List.length_append, length_encodeUnpadded,
      List.length_replicate] at h
    omega

end DeviceAuth.Base64

namespace DeviceAuth.Pem

/-! ## A text for every body -/

/-- The PEM text with each character of a body on a line of its own. -/
def column (body : List Char) : String :=
  .ofList ((['B', 'E', 'G', 'I', 'N'] :: body.map ([·])).flatMap (· ++ ['\n']))

/-- A line of one character holds neither word. -/
theorem lineKind_singleton (c : Char) : lineKind [c] = .text := by
  rw [lineKind_eq_text_iff]
  rintro (h | h)
  · exact absurd h.length_le (by simp)
  · exact absurd h.length_le (by simp)

theorem bodyOf_map_singleton {body : List Char} (hbody : ∀ c ∈ body, Text.isBlank c = false) :
    bodyOf true (body.map ([·]) ++ [[]]) = body := by
  induction body with
  | nil => decide
  | cons c r ih =>
    obtain ⟨hc, hr⟩ := List.forall_mem_cons.1 hbody
    have htrim : Text.trim [c] = [c] := Text.trim_of_forall (by simpa using hc)
    simp [bodyOf, lineKind_singleton, htrim, ih hr]

/-- A body without white space is stripped out of its column. -/
theorem strip_column {body : List Char} (hbody : ∀ c ∈ body, Text.isBlank c = false) :
    strip (column body) = .ofList body := by
  have hend : isLineEnd '\n' = true := rfl
  have hlines : ∀ l ∈ ['B', 'E', 'G', 'I', 'N'] :: body.map ([·]),
      ∀ c ∈ l, isLineEnd c = false := by
    intro l hl
    rcases List.mem_cons.1 hl with rfl | hl
    · simp [isLineEnd]
    · obtain ⟨c, hc, rfl⟩ := List.mem_map.1 hl
      simpa using isLineEnd_of_not_isBlank (hbody c hc)
  have hsplit := Text.splitWhere_flatMap hend hlines []
  rw [List.append_nil, Text.splitWhere] at hsplit
  have hopening : lineKind ['B', 'E', 'G', 'I', 'N'] = .opening := rfl
  rw [strip, column, lines, String.toList_ofList, hsplit, List.cons_append, bodyOf, hopening,
    bodyOf_map_singleton hbody]

/-- Every list of bytes is what some text is read as, and in the padded form. -/
theorem exists_strip_eq (der : List UInt8) :
    ∃ pem, strip pem = Base64.encode .standard der := by
  refine ⟨column (lineOf der), ?_⟩
  rw [strip_column isBlank_of_mem_lineOf, lineOf, String.ofList_toList]

theorem decode_of_strip_eq {pem : String} {der : List UInt8}
    (h : strip pem = Base64.encode .standard der) : decode pem = .ok der := by
  rw [decode, h, Base64.decodeText_encode Base64.standard_proper]

theorem exists_decode_eq (der : List UInt8) : ∃ pem, decode pem = .ok der := by
  obtain ⟨pem, hpem⟩ := exists_strip_eq der
  exact ⟨pem, decode_of_strip_eq hpem⟩

/-! ## What a body spells -/

/-- A text is read as some bytes exactly when its body is their symbols and no more padding than
completes these.  So two texts are read as the same bytes exactly when their bodies differ in the
padding only; and a text is read as none exactly when its body has a defect, as every body has
whose length is one more than a multiple of four. -/
theorem decode_canonical (pem : String) :
    (∀ der, decode pem = .ok der ↔
      ∃ k ≤ Base64.padLength (Base64.encodeNoPad .standard der).length,
        strip pem = Base64.encodeNoPad .standard der ++ String.ofList (List.replicate k '=')) ∧
    (∀ other der der', decode pem = .ok der → decode other = .ok der' →
      (der = der' ↔
        Base64.unpadded (strip pem).toList = Base64.unpadded (strip other).toList)) ∧
    ((∃ fault, decode pem = .error fault) ↔ Base64.Defect .standard (strip pem).toList) ∧
    ((strip pem).length % 4 = 1 → ∃ fault, decode pem = .error fault) := by
  have herror := Base64.decodeText_eq_error_iff Base64.standard_proper (s := strip pem)
  refine ⟨fun der => ?_, fun other der der' => Base64.eq_iff_unpadded_eq Base64.standard_proper,
    herror, fun hlength => herror.2 (.of_length Base64.standard_proper hlength)⟩
  simp only [decode, Base64.decodeText_eq_ok_iff Base64.standard_proper, Base64.spell_append_pad,
    Base64.length_encodeNoPad, Base64.Padding.limit]

/-- One byte with half of its padding and with none, in different armour; five symbols; and two
symbols that set a spare bit. -/
theorem decode_canonical_one_byte :
    decode "BEGIN\nQQ=" = .ok [0x41] ∧
    decode "-----BEGIN X-----\r\n Q\nQ\t\n-----END X-----\n" = .ok [0x41] ∧
    Base64.unpadded (strip "BEGIN\nQQ=").toList =
      Base64.unpadded (strip "-----BEGIN X-----\r\n Q\nQ\t\n-----END X-----\n").toList ∧
    (strip "BEGIN\nQUJDR").length % 4 = 1 ∧ (∃ fault, decode "BEGIN\nQUJDR" = .error fault) ∧
    ∃ fault, decode "BEGIN\nQR==" = .error fault := by
  have hhalf : decode "BEGIN\nQQ=" = .ok [0x41] :=
    ((decode_canonical _).1 _).2 ⟨1, by decide, by decide +kernel⟩
  have hnone : decode "-----BEGIN X-----\r\n Q\nQ\t\n-----END X-----\n" = .ok [0x41] :=
    ((decode_canonical _).1 _).2 ⟨0, by decide, by decide +kernel⟩
  have hfive : (strip "BEGIN\nQUJDR").length % 4 = 1 := by decide +kernel
  have hspare : Base64.Defect .standard (strip "BEGIN\nQR==").toList := by
    have hbody : (strip "BEGIN\nQR==").toList =
        ['Q'] ++ Base64.Alphabet.standard.char 17 :: List.replicate 2 '=' := by
      decide +kernel
    rw [hbody]
    exact .spare (by decide) (by decide) (by decide)
  exact ⟨hhalf, hnone, ((decode_canonical _).2.1 _ _ _ hhalf hnone).1 rfl, hfive,
    (decode_canonical _).2.2.2 hfive, (decode_canonical _).2.2.1.2 hspare⟩

end DeviceAuth.Pem
