import DeviceAuth.Pem
import DeviceAuth.Proofs.Text

/-!
# DeviceAuth.Proofs.Pem

What becomes of bytes that are wrapped in PEM armour and unwrapped again.  The body is written in
lines of 64 columns, 48 bytes to a line.  A line of the body that happens to hold `BEGIN` or `END`
is taken for a boundary: it is lost, and after `END` so are the lines up to the next `BEGIN`.
Unwrapping never fails; it gives the bytes of the lines that survive (`decode_encode`), and these
are all the bytes exactly when no line holds one of the words (`decode_encode_iff`).
-/

namespace DeviceAuth.Pem

/-! ## Boundary words -/

theorem holds_iff {word cs : List Char} : holds word cs = true ↔ word <:+: cs := by
  induction cs with
  | nil => simp [holds]
  | cons c r ih =>
    rw [holds, Bool.or_eq_true, ih, List.isPrefixOf_iff_prefix, List.infix_cons_iff]

/-- A line that is taken for a boundary. -/
def Marked (line : List Char) : Prop :=
  ['B', 'E', 'G', 'I', 'N'] <:+: line ∨ ['E', 'N', 'D'] <:+: line

theorem lineKind_eq_text_iff {line : List Char} : lineKind line = .text ↔ ¬ Marked line := by
  unfold lineKind Marked
  rw [← holds_iff, ← holds_iff]
  split
  · simp [*]
  · split
    · simp [*]
    · simp [*]

instance (line : List Char) : Decidable (Marked line) :=
  decidable_of_iff (¬ lineKind line = .text) (by rw [lineKind_eq_text_iff, not_not])

/-! ## Lines of the body -/

/-- The bytes that a full line of the body holds. -/
def bytesPerLine : Nat := 48

/-- The blocks of bytes that are written as one line each. -/
def blocks (der : List UInt8) : List (List UInt8) :=
  splitEvery bytesPerLine der

theorem flatten_blocks (der : List UInt8) : (blocks der).flatten = der :=
  flatten_splitEvery (by decide) der

theorem ne_nil_of_mem_blocks {der b : List UInt8} (h : b ∈ blocks der) : b ≠ [] :=
  ne_nil_of_mem_splitEvery h

theorem blocks_of_length_le {b : List UInt8} (hb : b ≠ []) (hle : b.length ≤ bytesPerLine) :
    blocks b = [b] :=
  splitEvery_of_length_le hb hle

theorem blocks_append {b r : List UInt8} (hb : b.length = bytesPerLine) :
    blocks (b ++ r) = b :: blocks r :=
  splitEvery_append (by decide) hb

/-- Bytes are no block, one block, or a full block with more after it. -/
@[elab_as_elim]
theorem blocks_induction {motive : List UInt8 → Prop} (nil : motive [])
    (last : ∀ b, b ≠ [] → b.length ≤ bytesPerLine → motive b)
    (block : ∀ b r, b.length = bytesPerLine → r ≠ [] → motive r → motive (b ++ r))
    (der : List UInt8) : motive der := by
  induction der using splitEvery.induct (k := bytesPerLine) with
  | case1 der h =>
    have hnil : der = [] := by simpa [bytesPerLine] using h
    rwa [hnil]
  | case2 der h ih =>
    have hne : der ≠ [] := fun hnil => h (.inr hnil)
    by_cases hle : der.length ≤ bytesPerLine
    · exact last der hne hle
    · have htake : (der.take bytesPerLine).length = bytesPerLine := by
        rw [List.length_take]
        omega
      have hdrop : der.drop bytesPerLine ≠ [] := by
        rw [← List.length_pos_iff, List.length_drop]
        omega
      have hmotive := block _ _ htake hdrop ih
      rwa [List.take_append_drop] at hmotive

/-- The line that a block is written as. -/
def lineOf (block : List UInt8) : List Char :=
  (Base64.encode .standard block).toList

@[simp] theorem lineOf_nil : lineOf [] = [] := by
  simp [lineOf, Base64.toList_encode, Base64.encodePadded, Base64.encodeUnpadded, Base64.padLength]

theorem length_lineOf (block : List UInt8) :
    (lineOf block).length = 4 * ((block.length + 2) / 3) := by
  rw [lineOf, String.length_toList, Base64.length_encode]

/-- A full block is written for itself, whatever follows it. -/
theorem lineOf_append {b : List UInt8} (hb : b.length = bytesPerLine) (r : List UInt8) :
    lineOf (b ++ r) = lineOf b ++ lineOf r := by
  have hthree : 3 ∣ b.length := by
    rw [hb]
    decide
  simp [lineOf, Base64.toList_encode, Base64.encodePadded_append hthree]

/-- The lines of the body are those of the blocks. -/
theorem splitEvery_lineOf (der : List UInt8) :
    splitEvery columns (lineOf der) = (blocks der).map lineOf := by
  induction der using blocks_induction with
  | nil => simp [blocks, splitEvery_nil]
  | last b hb hle =>
    have hpos := List.length_pos_iff.2 hb
    have hline : lineOf b ≠ [] := by
      rw [← List.length_pos_iff, length_lineOf]
      omega
    have hfits : (lineOf b).length ≤ columns := by
      rw [length_lineOf]
      simp only [bytesPerLine, columns] at *
      omega
    rw [splitEvery_of_length_le hline hfits, blocks_of_length_le hb hle, List.map_singleton]
  | block b r hb hr ih =>
    have hfull : (lineOf b).length = columns := by
      rw [length_lineOf, hb]
      rfl
    rw [lineOf_append hb, splitEvery_append (by decide) hfull, ih, blocks_append hb, List.map_cons]

theorem blocks_eq_cons {der : List UInt8} (h : der ≠ []) :
    blocks der = der.take bytesPerLine :: blocks (der.drop bytesPerLine) := by
  rw [blocks, splitEvery, dif_neg (by simp [bytesPerLine, h])]
  rfl

/-- The first line of the body is that of the first block. -/
theorem take_lineOf (der : List UInt8) :
    (lineOf der).take columns = lineOf (der.take bytesPerLine) := by
  have hcolumns : (lineOf (der.take bytesPerLine)).length ≤ columns := by
    rw [length_lineOf, List.length_take]
    simp only [bytesPerLine, columns]
    omega
  by_cases hle : der.length ≤ bytesPerLine
  · rw [List.take_of_length_le hle] at *
    exact List.take_of_length_le hcolumns
  · have htake : (der.take bytesPerLine).length = bytesPerLine := by
      rw [List.length_take]
      omega
    have hfull : (lineOf (der.take bytesPerLine)).length = columns := by
      rw [length_lineOf, htake]
      rfl
    have hder := lineOf_append htake (der.drop bytesPerLine)
    rw [List.take_append_drop] at hder
    rw [hder, ← hfull, List.take_left]

/-- No white space is written into the body. -/
theorem isBlank_of_mem_lineOf {block : List UInt8} :
    ∀ c ∈ lineOf block, Text.isBlank c = false := by
  have hsymbol : ∀ v < 64,
      Text.isBlank (Char.ofNat (Base64.Alphabet.standard.symbol v).toNat) = false := by
    decide +kernel
  intro c hc
  rw [lineOf, Base64.toList_encode, List.mem_map] at hc
  obtain ⟨b, hb, rfl⟩ := hc
  rcases List.mem_append.1 hb with hb | hb
  · obtain ⟨v, hv, rfl⟩ := Base64.exists_symbol_of_mem_encodeUnpadded hb
    exact hsymbol v hv
  · rw [List.eq_of_mem_replicate hb]
    decide

/-- Lines end at white space only. -/
theorem isLineEnd_of_not_isBlank {c : Char} (h : Text.isBlank c = false) :
    isLineEnd c = false := by
  rw [← Bool.not_eq_true, isLineEnd, Bool.or_eq_true, beq_iff_eq, beq_iff_eq]
  rintro (rfl | rfl)
  · contradiction
  · contradiction

/-! ## What survives -/

/-- The blocks whose lines are read as body; the first argument says whether the body is open. -/
def kept : Bool → List (List UInt8) → List (List UInt8)
  | _, [] => []
  | isOpen, b :: bs =>
    match lineKind (lineOf b) with
    | .opening => kept true bs
    | .closing => kept false bs
    | .text => if isOpen then b :: kept isOpen bs else kept isOpen bs

/-- The bytes of the lines that are read as body when some bytes are wrapped and unwrapped. -/
def survivors (der : List UInt8) : List UInt8 :=
  (kept true (blocks der)).flatten

@[simp] theorem kept_nil (isOpen : Bool) : kept isOpen [] = [] := rfl

theorem kept_cons_of_not_marked {b : List UInt8} (hb : ¬ Marked (lineOf b)) (isOpen : Bool)
    (bs : List (List UInt8)) :
    kept isOpen (b :: bs) = if isOpen then b :: kept isOpen bs else kept isOpen bs := by
  simp [kept, lineKind_eq_text_iff.2 hb]

/-- A marked line is not kept, whatever it does to the body. -/
theorem kept_cons_of_marked {b : List UInt8} (hb : Marked (lineOf b)) (isOpen : Bool)
    (bs : List (List UInt8)) : ∃ o, kept isOpen (b :: bs) = kept o bs := by
  cases h : lineKind (lineOf b) with
  | opening => exact ⟨true, by simp [kept, h]⟩
  | closing => exact ⟨false, by simp [kept, h]⟩
  | text => exact absurd hb (lineKind_eq_text_iff.1 h)

theorem length_kept_le (isOpen : Bool) (bs : List (List UInt8)) :
    (kept isOpen bs).flatten.length ≤ bs.flatten.length := by
  induction bs generalizing isOpen with
  | nil => simp
  | cons b bs ih =>
    rw [List.flatten_cons, List.length_append]
    by_cases hb : Marked (lineOf b)
    · obtain ⟨o, hkept⟩ := kept_cons_of_marked hb isOpen bs
      have hle := ih o
      rw [hkept]
      omega
    · have hle := ih isOpen
      rw [kept_cons_of_not_marked hb]
      cases isOpen with
      | true => simpa using hle
      | false => exact Nat.le_add_left_of_le hle

theorem kept_eq_self {bs : List (List UInt8)} (h : ∀ b ∈ bs, ¬ Marked (lineOf b)) :
    kept true bs = bs := by
  induction bs with
  | nil => rfl
  | cons b bs ih =>
    obtain ⟨hb, hbs⟩ := List.forall_mem_cons.1 h
    simp [kept_cons_of_not_marked hb, ih hbs]

/-- No block is lost without a loss of length. -/
theorem not_marked_of_length_le {bs : List (List UInt8)} (hne : ∀ b ∈ bs, b ≠ [])
    (hlen : bs.flatten.length ≤ (kept true bs).flatten.length) :
    ∀ b ∈ bs, ¬ Marked (lineOf b) := by
  induction bs with
  | nil => simp
  | cons b bs ih =>
    obtain ⟨hb, hbs⟩ := List.forall_mem_cons.1 hne
    have hpos := List.length_pos_iff.2 hb
    rw [List.flatten_cons, List.length_append] at hlen
    by_cases hmarked : Marked (lineOf b)
    · obtain ⟨o, hkept⟩ := kept_cons_of_marked hmarked true bs
      have hle := length_kept_le o bs
      rw [hkept] at hlen
      omega
    · simp [kept_cons_of_not_marked hmarked] at hlen
      exact List.forall_mem_cons.2 ⟨hmarked, ih hbs (by simpa using hlen)⟩

theorem length_survivors_le (der : List UInt8) : (survivors der).length ≤ der.length := by
  have hle := length_kept_le true (blocks der)
  rwa [flatten_blocks] at hle

theorem survivors_eq_self {der : List UInt8} (h : ∀ b ∈ blocks der, ¬ Marked (lineOf b)) :
    survivors der = der := by
  rw [survivors, kept_eq_self h, flatten_blocks]

/-- Bytes that survive in full length have no marked line. -/
theorem not_marked_of_length_survivors {der : List UInt8}
    (h : der.length ≤ (survivors der).length) : ∀ b ∈ blocks der, ¬ Marked (lineOf b) := by
  refine not_marked_of_length_le (fun b => ne_nil_of_mem_blocks) ?_
  rwa [flatten_blocks]

/-- Bytes with an unmarked first line keep their first block. -/
theorem survivors_eq_take_append {der : List UInt8}
    (hfirst : ¬ Marked ((lineOf der).take columns)) :
    ∃ rest, survivors der = der.take bytesPerLine ++ rest := by
  by_cases hnil : der = []
  · subst hnil
    exact ⟨_, rfl⟩
  · rw [take_lineOf] at hfirst
    refine ⟨(kept true (blocks (der.drop bytesPerLine))).flatten, ?_⟩
    simp [survivors, blocks_eq_cons hnil, kept_cons_of_not_marked hfirst]

/-- Bytes with a marked first line lose their first block. -/
theorem length_survivors_le_of_marked {der : List UInt8}
    (hfirst : Marked ((lineOf der).take columns)) :
    (survivors der).length ≤ der.length - bytesPerLine := by
  by_cases hnil : der = []
  · subst hnil
    exact length_survivors_le []
  · rw [take_lineOf] at hfirst
    obtain ⟨o, hkept⟩ := kept_cons_of_marked hfirst true (blocks (der.drop bytesPerLine))
    have hle := length_kept_le o (blocks (der.drop bytesPerLine))
    rw [flatten_blocks, List.length_drop] at hle
    rwa [survivors, blocks_eq_cons hnil, hkept]

/-! ## Texts without a body -/

/-- Nothing is read before a line opens the body. -/
theorem bodyOf_eq_nil {ls : List (List Char)} (h : ∀ l ∈ ls, ¬ Marked l) :
    bodyOf false ls = [] := by
  induction ls with
  | nil => rfl
  | cons l ls ih =>
    obtain ⟨hl, hls⟩ := List.forall_mem_cons.1 h
    simp [bodyOf, lineKind_eq_text_iff.2 hl, ih hls]

theorem not_marked_of_isBlank {line : List Char} (h : ∀ c ∈ line, Text.isBlank c = true) :
    ¬ Marked line := by
  have hword : ∀ {w : List Char}, w <:+: line → 'E' ∈ w → False := by
    intro w hw hmem
    have hblank := h 'E' (hw.subset hmem)
    contradiction
  intro hmarked
  rcases hmarked with hbegin | hend
  · exact hword hbegin (by simp)
  · exact hword hend (by simp)

/-- A blank text has no body, and reads as no bytes. -/
theorem decode_of_blank {pem : String} (h : Text.blank pem = true) : decode pem = .ok [] := by
  have hchars : ∀ c ∈ pem.toList, Text.isBlank c = true := by simpa [Text.blank] using h
  have hlines : ∀ l ∈ lines pem.toList, ¬ Marked l := fun l hl =>
    not_marked_of_isBlank fun c hc => hchars c (Text.mem_of_mem_splitWhere hl hc)
  rw [decode, strip, bodyOf_eq_nil hlines]
  rfl

/-! ## Wrapping and unwrapping -/

/-- The body that is read from the lines of some blocks is the line of the blocks that are kept. -/
theorem bodyOf_map_lineOf (isOpen : Bool) (bs : List (List UInt8)) :
    bodyOf isOpen (bs.map lineOf) = (kept isOpen bs).flatMap lineOf := by
  induction bs generalizing isOpen with
  | nil => rfl
  | cons b bs ih =>
    have htrim : Text.trim (lineOf b) = lineOf b := Text.trim_of_forall isBlank_of_mem_lineOf
    rw [List.map_cons, bodyOf, kept]
    cases lineKind (lineOf b) with
    | opening => exact ih true
    | closing => exact ih false
    | text => cases isOpen <;> simp [ih, htrim]

/-- Of blocks only the last may be short, so that what is kept of them is written as one. -/
theorem flatMap_lineOf_kept (isOpen : Bool) (der : List UInt8) :
    (kept isOpen (blocks der)).flatMap lineOf = lineOf (kept isOpen (blocks der)).flatten := by
  induction der using blocks_induction generalizing isOpen with
  | nil => simp [blocks, splitEvery_nil]
  | last b hb hle =>
    rw [blocks_of_length_le hb hle]
    by_cases hmarked : Marked (lineOf b)
    · obtain ⟨o, hkept⟩ := kept_cons_of_marked hmarked isOpen []
      simp [hkept]
    · cases isOpen <;> simp [kept_cons_of_not_marked hmarked]
  | block b r hb hr ih =>
    rw [blocks_append hb]
    by_cases hmarked : Marked (lineOf b)
    · obtain ⟨o, hkept⟩ := kept_cons_of_marked hmarked isOpen (blocks r)
      rw [hkept, ih]
    · cases isOpen <;> simp [kept_cons_of_not_marked hmarked, ih, lineOf_append hb]

/-- The line before the body. -/
def openingLine (label : String) : List Char :=
  ("-----BEGIN " ++ label ++ "-----").toList

/-- The line after the body. -/
def closingLine (label : String) : List Char :=
  ("-----END " ++ label ++ "-----").toList

theorem lineKind_openingLine (label : String) : lineKind (openingLine label) = .opening := by
  have hholds : holds ['B', 'E', 'G', 'I', 'N'] (openingLine label) = true :=
    holds_iff.2 ⟨"-----".toList, ' ' :: (label.toList ++ "-----".toList), by simp [openingLine]⟩
  rw [lineKind, if_pos hholds]

theorem marked_closingLine (label : String) : Marked (closingLine label) :=
  .inr ⟨"-----".toList, ' ' :: (label.toList ++ "-----".toList), by simp [closingLine]⟩

/-- The line after the body, even one that opens it again, adds nothing to the body. -/
theorem bodyOf_closingLine (isOpen : Bool) (label : String) :
    bodyOf isOpen [closingLine label, []] = [] := by
  have hempty : ∀ o, bodyOf o [[]] = [] := by decide
  rw [bodyOf]
  cases h : lineKind (closingLine label) with
  | opening => exact hempty true
  | closing => exact hempty false
  | text => exact absurd (marked_closingLine label) (lineKind_eq_text_iff.1 h)

theorem bodyOf_append_closingLine (isOpen : Bool) (ls : List (List Char)) (label : String) :
    bodyOf isOpen (ls ++ [closingLine label, []]) = bodyOf isOpen ls := by
  induction ls generalizing isOpen with
  | nil => exact bodyOf_closingLine isOpen label
  | cons l ls ih => simp [bodyOf, ih]

theorem toList_encode (label : String) (der : List UInt8) :
    (encode label der).toList =
      ((openingLine label :: (blocks der).map lineOf) ++ [closingLine label]).flatMap
        (· ++ ['\n']) := by
  have hbreak : "-----\n".toList = "-----".toList ++ ['\n'] := by decide
  have hpieces := splitEvery_lineOf der
  rw [lineOf] at hpieces
  simp only [encode, hpieces, openingLine, closingLine, hbreak, String.toList_append,
    String.toList_ofList, List.cons_append, List.flatMap_cons, List.flatMap_append,
    List.flatMap_nil, List.append_assoc, List.nil_append, List.append_nil]

/-- A boundary is one line when its label is. -/
theorem isLineEnd_of_mem_boundary {word label : String}
    (hword : ∀ c ∈ word.toList, isLineEnd c = false)
    (hlabel : ∀ c ∈ label.toList, isLineEnd c = false) :
    ∀ c ∈ (word ++ label ++ "-----").toList, isLineEnd c = false := by
  have hdashes : ∀ c ∈ "-----".toList, isLineEnd c = false := by simp [isLineEnd]
  intro c hc
  simp only [String.toList_append, List.mem_append] at hc
  rcases hc with (hc | hc) | hc
  · exact hword c hc
  · exact hlabel c hc
  · exact hdashes c hc

/-- The lines of a PEM text: two boundaries, the body between them, and an empty last line. -/
theorem lines_encode {label : String} (hlabel : ∀ c ∈ label.toList, isLineEnd c = false)
    (der : List UInt8) :
    lines (encode label der).toList =
      openingLine label :: ((blocks der).map lineOf ++ [closingLine label, []]) := by
  have hend : isLineEnd '\n' = true := rfl
  have hls : ∀ l ∈ (openingLine label :: (blocks der).map lineOf) ++ [closingLine label],
      ∀ c ∈ l, isLineEnd c = false := by
    intro l hl
    simp only [List.cons_append, List.mem_cons, List.mem_append, List.mem_map, List.not_mem_nil,
      or_false] at hl
    rcases hl with rfl | ⟨b, -, rfl⟩ | rfl
    · exact isLineEnd_of_mem_boundary (by simp [isLineEnd]) hlabel
    · exact fun c hc => isLineEnd_of_not_isBlank (isBlank_of_mem_lineOf c hc)
    · exact isLineEnd_of_mem_boundary (by simp [isLineEnd]) hlabel
  have hsplit := Text.splitWhere_flatMap hend hls []
  rw [List.append_nil, ← toList_encode] at hsplit
  rw [lines, hsplit]
  simp [Text.splitWhere]

/-- Wrapping and unwrapping loses lines and nothing else: what is wrapped always unwraps, to the
bytes that survive. -/
theorem decode_encode {label : String} (hlabel : ∀ c ∈ label.toList, isLineEnd c = false)
    (der : List UInt8) : decode (encode label der) = .ok (survivors der) := by
  have hstrip : strip (encode label der) = Base64.encode .standard (survivors der) := by
    rw [strip, lines_encode hlabel, bodyOf, lineKind_openingLine]
    simp only [bodyOf_append_closingLine, bodyOf_map_lineOf, flatMap_lineOf_kept]
    rw [← survivors, lineOf, String.ofList_toList]
  rw [decode, hstrip, Base64.decodeText_encode Base64.standard_proper]

/-- Wrapping and unwrapping gives the bytes back exactly when none of the lines of the body, the
consecutive pieces of 64 characters of their Base64, holds `BEGIN` or `END`. -/
theorem decode_encode_iff {label : String} (hlabel : ∀ c ∈ label.toList, isLineEnd c = false)
    (der : List UInt8) :
    decode (encode label der) = .ok der ↔
      ∀ line ∈ splitEvery 64 (Base64.encode .standard der).toList, ¬ Marked line := by
  have hlines : splitEvery 64 (Base64.encode .standard der).toList = (blocks der).map lineOf :=
    splitEvery_lineOf der
  rw [decode_encode hlabel, Except.ok.injEq, hlines, List.forall_mem_map]
  constructor
  · intro h
    exact not_marked_of_length_survivors (by rw [h])
  · exact survivors_eq_self

/-- Under a label that opens the body again, `AAEC` comes back and `ENDA` does not. -/
theorem decode_encode_end_line :
    (∀ c ∈ "BEGIN".toList, isLineEnd c = false) ∧
      decode (encode "BEGIN" [0x00, 0x01, 0x02]) = .ok [0x00, 0x01, 0x02] ∧
      decode (encode "BEGIN" [0x10, 0xD0, 0xC0]) ≠ .ok [0x10, 0xD0, 0xC0] := by
  have hlabel : ∀ c ∈ "BEGIN".toList, isLineEnd c = false := by simp [isLineEnd]
  have hplain : splitEvery 64 (Base64.encode .standard [0x00, 0x01, 0x02]).toList =
      ["AAEC".toList] := by
    decide +kernel
  have hend : splitEvery 64 (Base64.encode .standard [0x10, 0xD0, 0xC0]).toList =
      ["ENDA".toList] := by
    decide +kernel
  refine ⟨hlabel, (decode_encode_iff hlabel _).2 ?_, mt (decode_encode_iff hlabel _).1 ?_⟩
  · rw [hplain]
    decide
  · rw [hend]
    decide

end DeviceAuth.Pem
