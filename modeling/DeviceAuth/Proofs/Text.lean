import DeviceAuth.Proofs.Base64
import DeviceAuth.Text.Integer
import DeviceAuth.Text.Split
import Mathlib.Data.List.TakeWhile

/-!
# DeviceAuth.Proofs.Text

Laws of texts and their bytes: UTF-8 is read back, ASCII symbols are their own bytes, and a text
that is cut at separators is its pieces with separators between them.
-/

namespace DeviceAuth.Text

/-! ## UTF-8 -/

namespace Utf8

/-- The bytes of a text are read back as that text. -/
@[simp] theorem decode?_encode (s : String) : decode? (encode s) = some s := by
  rw [decode?, encode, Array.toArray_toList, String.fromUTF8?, dif_pos s.isValidUTF8]
  rfl

theorem encode_injective {s t : String} (h : encode s = encode t) : s = t := by
  have hs := decode?_encode s
  rw [h, decode?_encode, Option.some.injEq] at hs
  exact hs.symm

theorem encode_append (s t : String) : encode (s ++ t) = encode s ++ encode t := by
  simp [encode]

theorem encode_ofList (cs : List Char) :
    encode (.ofList cs) = cs.flatMap String.utf8EncodeChar := by
  rw [encode, String.toByteArray_ofList, List.utf8Encode, List.toList_data_toByteArray]

/-- An ASCII character is its own byte. -/
theorem utf8EncodeChar_ofNat {b : UInt8} (hb : b.toNat < 128) :
    String.utf8EncodeChar (Char.ofNat b.toNat) = [b] := by
  have h : ∀ n < 128, String.utf8EncodeChar (Char.ofNat n) = [UInt8.ofNat n] := by decide +kernel
  rw [h b.toNat hb, UInt8.ofNat_toNat]

/-- ASCII symbols are the bytes of the text that they spell. -/
theorem encode_ofList_ascii {bs : List UInt8} (hbs : ∀ b ∈ bs, b.toNat < 128) :
    encode (.ofList (bs.map fun b => Char.ofNat b.toNat)) = bs := by
  rw [encode_ofList]
  induction bs with
  | nil => rfl
  | cons b bs ih =>
    obtain ⟨hb, hbs⟩ := List.forall_mem_cons.1 hbs
    rw [List.map_cons, List.flatMap_cons, utf8EncodeChar_ofNat hb, ih hbs]
    rfl

end Utf8

/-! ## Pieces between separators -/

section Split

variable {p : Char → Bool}

/-- A text without separators is one piece. -/
theorem splitWhere_of_forall {a : List Char} (ha : ∀ c ∈ a, p c = false) :
    splitWhere p a = [a] := by
  induction a with
  | nil => rfl
  | cons c r ih =>
    obtain ⟨hc, hr⟩ := List.forall_mem_cons.1 ha
    rw [splitWhere, ih hr, hc]
    rfl

/-- The text before a separator is a piece of its own. -/
theorem splitWhere_append_cons {a b : List Char} {d : Char} (ha : ∀ c ∈ a, p c = false)
    (hd : p d = true) : splitWhere p (a ++ d :: b) = a :: splitWhere p b := by
  induction a with
  | nil => rw [List.nil_append, splitWhere, if_pos hd]
  | cons c r ih =>
    obtain ⟨hc, hr⟩ := List.forall_mem_cons.1 ha
    rw [List.cons_append, splitWhere, ih hr, hc]
    rfl

/-- The first piece has no separator, and is the whole text or ends at one. -/
theorem of_splitWhere_eq_cons {cs a : List Char} {ls : List (List Char)}
    (h : splitWhere p cs = a :: ls) :
    (∀ c ∈ a, p c = false) ∧
      ((ls = [] ∧ cs = a) ∨ ∃ d b, p d = true ∧ cs = a ++ d :: b ∧ splitWhere p b = ls) := by
  induction cs generalizing a with
  | nil =>
    rw [splitWhere, List.cons.injEq] at h
    obtain ⟨rfl, rfl⟩ := h
    exact ⟨by simp, .inl ⟨rfl, rfl⟩⟩
  | cons c r ih =>
    rw [splitWhere] at h
    by_cases hc : p c = true
    · rw [if_pos hc, List.cons.injEq] at h
      obtain ⟨rfl, rfl⟩ := h
      exact ⟨by simp, .inr ⟨c, r, hc, rfl, rfl⟩⟩
    · rw [if_neg hc] at h
      cases hr : splitWhere p r with
      | nil => exact absurd hr (splitWhere_ne_nil p r)
      | cons l ls' =>
        rw [hr, List.cons.injEq] at h
        obtain ⟨rfl, rfl⟩ := h
        obtain ⟨hl, hrest⟩ := ih hr
        refine ⟨List.forall_mem_cons.2 ⟨by simpa using hc, hl⟩, ?_⟩
        rcases hrest with ⟨rfl, rfl⟩ | ⟨d, b, hd, rfl, hb⟩
        · exact .inl ⟨rfl, rfl⟩
        · exact .inr ⟨d, b, hd, rfl, hb⟩

/-- The characters of the pieces are those of the text. -/
theorem mem_of_mem_splitWhere {cs l : List Char} (hl : l ∈ splitWhere p cs) {c : Char}
    (hc : c ∈ l) : c ∈ cs := by
  induction cs generalizing l with
  | nil => simp_all [splitWhere]
  | cons d r ih =>
    rw [splitWhere] at hl
    by_cases hd : p d = true
    · rw [if_pos hd, List.mem_cons] at hl
      rcases hl with rfl | hl
      · contradiction
      · exact List.mem_cons_of_mem d (ih hl hc)
    · rw [if_neg hd] at hl
      cases hr : splitWhere p r with
      | nil => exact absurd hr (splitWhere_ne_nil p r)
      | cons a ls =>
        rw [hr, List.mem_cons] at hl
        rw [hr] at ih
        rcases hl with rfl | hl
        · rcases List.mem_cons.1 hc with rfl | hc
          · exact List.mem_cons_self
          · exact List.mem_cons_of_mem d (ih List.mem_cons_self hc)
        · exact List.mem_cons_of_mem d (ih (List.mem_cons_of_mem a hl) hc)

/-- A text is one piece exactly when it has no separator. -/
theorem splitWhere_eq_singleton_iff {cs a : List Char} :
    splitWhere p cs = [a] ↔ cs = a ∧ ∀ c ∈ a, p c = false := by
  constructor
  · intro h
    obtain ⟨ha, hrest⟩ := of_splitWhere_eq_cons h
    rcases hrest with ⟨-, rfl⟩ | ⟨d, b, -, -, hb⟩
    · exact ⟨rfl, ha⟩
    · exact absurd hb (splitWhere_ne_nil p b)
  · rintro ⟨rfl, ha⟩
    exact splitWhere_of_forall ha

/-- A text has a first piece and more exactly when a separator stands after that piece. -/
theorem splitWhere_eq_cons_cons_iff {cs a l : List Char} {ls : List (List Char)} :
    splitWhere p cs = a :: l :: ls ↔
      (∀ c ∈ a, p c = false) ∧ ∃ d b, p d = true ∧ cs = a ++ d :: b ∧ splitWhere p b = l :: ls := by
  constructor
  · intro h
    obtain ⟨ha, hrest⟩ := of_splitWhere_eq_cons h
    rcases hrest with ⟨hnil, -⟩ | hrest
    · contradiction
    · exact ⟨ha, hrest⟩
  · rintro ⟨ha, d, b, hd, rfl, hb⟩
    rw [splitWhere_append_cons ha hd, hb]

/-- The pieces on both sides of a separator are pieces of the whole. -/
theorem splitWhere_append {d : Char} (hd : p d = true) (a b : List Char) :
    splitWhere p (a ++ d :: b) = splitWhere p a ++ splitWhere p b := by
  induction a with
  | nil => rw [List.nil_append, splitWhere, splitWhere, if_pos hd, List.singleton_append]
  | cons c r ih =>
    rw [List.cons_append, splitWhere, splitWhere, ih]
    split
    · rfl
    · cases hr : splitWhere p r with
      | nil => exact absurd hr (splitWhere_ne_nil p r)
      | cons l ls => rfl

/-- Lines that each end in a separator are the pieces before the last one. -/
theorem splitWhere_flatMap {ls : List (List Char)} {d : Char} (hd : p d = true)
    (hls : ∀ l ∈ ls, ∀ c ∈ l, p c = false) (cs : List Char) :
    splitWhere p (ls.flatMap (· ++ [d]) ++ cs) = ls ++ splitWhere p cs := by
  induction ls with
  | nil => rfl
  | cons l ls ih =>
    obtain ⟨hl, hrest⟩ := List.forall_mem_cons.1 hls
    have hsplit := splitWhere_append_cons (b := ls.flatMap (· ++ [d]) ++ cs) hl hd
    rw [ih hrest] at hsplit
    simpa using hsplit

end Split

/-! ## White space -/

/-- A text is not blank when some character of it is no white space. -/
theorem blank_eq_false_iff {s : String} :
    blank s = false ↔ ∃ c ∈ s.toList, isBlank c = false := by
  rw [blank, List.all_eq_false]
  simp

/-- White space around characters that are none is what trimming takes off. -/
theorem trim_between {before core after : List Char} (hbefore : ∀ c ∈ before, isBlank c = true)
    (hcore : ∀ c ∈ core, isBlank c = false) (hafter : ∀ c ∈ after, isBlank c = true) :
    trim (before ++ (core ++ after)) = core := by
  have hdrop : ∀ cs : List Char, (∀ c ∈ cs, isBlank c = false) → cs.dropWhile isBlank = cs := by
    intro cs hcs
    cases cs with
    | nil => rfl
    | cons c r => simp [hcs c]
  rw [trim, trimStart, List.dropWhile_append_of_pos hbefore]
  cases core with
  | nil =>
    rw [List.nil_append, List.dropWhile_eq_nil_iff.2 hafter]
    rfl
  | cons c r =>
    have hstart : (c :: r ++ after).dropWhile isBlank = c :: r ++ after := by
      rw [List.cons_append, List.dropWhile_cons_of_neg (by simp [hcore c])]
    have hend : ((c :: r).reverse).dropWhile isBlank = (c :: r).reverse :=
      hdrop _ fun d hd => hcore d (List.mem_reverse.1 hd)
    rw [hstart, trimEnd, List.reverse_append,
      List.dropWhile_append_of_pos fun d hd => hafter d (List.mem_reverse.1 hd), hend,
      List.reverse_reverse]

/-- A text without white space is as it is trimmed. -/
theorem trim_of_forall {cs : List Char} (h : ∀ c ∈ cs, isBlank c = false) : trim cs = cs := by
  have hnil : ∀ c ∈ ([] : List Char), isBlank c = true := by simp
  simpa using trim_between hnil h hnil

/-- Trimming takes off white space at the ends and nothing else. -/
theorem exists_trim (cs : List Char) : ∃ before after, cs = before ++ (trim cs ++ after) ∧
    (∀ c ∈ before, isBlank c = true) ∧ ∀ c ∈ after, isBlank c = true := by
  refine ⟨cs.takeWhile isBlank, ((trimStart cs).reverse.takeWhile isBlank).reverse, ?_,
    fun c hc => List.mem_takeWhile_imp hc,
    fun c hc => List.mem_takeWhile_imp (List.mem_reverse.1 hc)⟩
  rw [trim, trimEnd, ← List.reverse_append, List.takeWhile_append_dropWhile, List.reverse_reverse,
    trimStart, List.takeWhile_append_dropWhile]

/-- White space at the ends of a text is taken off with what is there already. -/
theorem trim_pad {before after : List Char} (hbefore : ∀ c ∈ before, isBlank c = true)
    (hafter : ∀ c ∈ after, isBlank c = true) (cs : List Char) :
    trim (before ++ (cs ++ after)) = trim cs := by
  have hend : ∀ ds : List Char, trimEnd (ds ++ after) = trimEnd ds := by
    intro ds
    rw [trimEnd, List.reverse_append,
      List.dropWhile_append_of_pos fun c hc => hafter c (List.mem_reverse.1 hc), trimEnd]
  rw [trim, trimStart, List.dropWhile_append_of_pos hbefore, List.dropWhile_append]
  split
  · next hempty =>
    rw [trim, trimStart, List.isEmpty_iff.1 hempty, List.dropWhile_eq_nil_iff.2 hafter]
  · exact hend _

/-! ## Integers -/

/-- A text writes an integer of 64 bits: perhaps a sign, then digits, and white space at most
around both. -/
def Writes (cs : List Char) (n : Int) : Prop :=
  ∃ before sign digits after, cs = before ++ (sign ++ digits ++ after) ∧
    ((∀ c ∈ before, isBlank c = true) ∧ ∀ c ∈ after, isBlank c = true) ∧
    (digits ≠ [] ∧ ∀ c ∈ digits, c.isDigit = true) ∧
    (((sign = [] ∨ sign = ['+']) ∧ n = natOfDigits digits) ∨
      (sign = ['-'] ∧ n = -(natOfDigits digits : Int))) ∧
    -(2 ^ 63) ≤ n ∧ n < 2 ^ 63

/-- Digits are read as the number that they write. -/
theorem readDigits?_eq_some_iff {cs : List Char} {n : Nat} :
    readDigits? cs = some n ↔ (cs ≠ [] ∧ ∀ c ∈ cs, c.isDigit = true) ∧ n = natOfDigits cs := by
  rw [readDigits?, ← List.all_eq_true]
  by_cases hnil : cs = []
  · simp [hnil]
  · by_cases hdigits : cs.all Char.isDigit = true
    · rw [if_neg hnil, if_pos hdigits, Option.some.injEq]
      exact ⟨fun h => ⟨⟨hnil, hdigits⟩, h.symm⟩, fun h => h.2.symm⟩
    · rw [if_neg hnil, if_neg hdigits]
      exact ⟨nofun, fun h => absurd h.1.2 hdigits⟩

/-- Digits read as an integer, with the sign that a function puts to it. -/
theorem map_readDigits?_eq_some_iff {cs : List Char} {f : Int → Int} {n : Int} :
    Option.map f (do let a ← readDigits? cs; pure (a : Int)) = some n ↔
      (cs ≠ [] ∧ ∀ c ∈ cs, c.isDigit = true) ∧ n = f (natOfDigits cs) := by
  cases hread : readDigits? cs with
  | none =>
    refine ⟨nofun, fun ⟨hdigits, _⟩ => ?_⟩
    rw [readDigits?_eq_some_iff.2 ⟨hdigits, rfl⟩] at hread
    contradiction
  | some m =>
    obtain ⟨hdigits, rfl⟩ := readDigits?_eq_some_iff.1 hread
    exact ⟨fun h => ⟨hdigits, (Option.some.inj h).symm⟩, fun h => congrArg some h.2.symm⟩

/-- An integer is read from a sign and digits and from nothing else. -/
theorem readInteger?_eq_some_iff {cs : List Char} {n : Int} :
    readInteger? cs = some n ↔ ∃ sign digits, cs = sign ++ digits ∧
      (digits ≠ [] ∧ ∀ c ∈ digits, c.isDigit = true) ∧
      (((sign = [] ∨ sign = ['+']) ∧ n = natOfDigits digits) ∨
        (sign = ['-'] ∧ n = -(natOfDigits digits : Int))) := by
  constructor
  · intro h
    rw [readInteger?.eq_def] at h
    split at h
    · next digits =>
      obtain ⟨hdigits, hn⟩ := map_readDigits?_eq_some_iff.1 h
      exact ⟨['-'], digits, rfl, hdigits, .inr ⟨rfl, hn⟩⟩
    · next digits =>
      obtain ⟨hdigits, hn⟩ := map_readDigits?_eq_some_iff.1 h
      exact ⟨['+'], digits, rfl, hdigits, .inl ⟨.inr rfl, hn⟩⟩
    · obtain ⟨hdigits, hn⟩ := map_readDigits?_eq_some_iff.1 h
      exact ⟨[], cs, rfl, hdigits, .inl ⟨.inl rfl, hn⟩⟩
  · rintro ⟨sign, digits, rfl, hdigits, hsign⟩
    rcases hsign with ⟨rfl | rfl, hn⟩ | ⟨rfl, hn⟩
    · -- a digit is no sign
      have hhead : ∀ c r, c.isDigit = false → digits ≠ c :: r := by
        rintro c r hc rfl
        rw [hdigits.2 c List.mem_cons_self] at hc
        contradiction
      rw [List.nil_append, readInteger?.eq_3 _ (fun r h => hhead '-' r rfl h)
        (fun r h => hhead '+' r rfl h)]
      exact map_readDigits?_eq_some_iff.2 ⟨hdigits, hn⟩
    · exact map_readDigits?_eq_some_iff.2 ⟨hdigits, hn⟩
    · exact map_readDigits?_eq_some_iff.2 ⟨hdigits, hn⟩

/-- A digit is no white space. -/
theorem isBlank_of_isDigit {c : Char} (h : c.isDigit = true) : isBlank c = false := by
  have hlow : 48 ≤ c.toNat ∧ c.toNat ≤ 57 := by
    simpa [Char.isDigit, UInt32.le_iff_toNat_le] using h
  simp [isBlank]
  omega

/-- What is read from a trimmed text is what the text writes. -/
theorem readInt64?_trim_eq_some_iff {cs : List Char} {n : Int} :
    readInt64? (trim cs) = some n ↔ Writes cs n := by
  have hbounds : ((int64Min ≤ n && n ≤ int64Max) = true) ↔ (-(2 ^ 63) ≤ n ∧ n < 2 ^ 63) := by
    rw [Bool.and_eq_true, decide_eq_true_eq, decide_eq_true_eq, int64Min, int64Max]
    omega
  rw [readInt64?, Option.filter_eq_some_iff, hbounds, readInteger?_eq_some_iff]
  constructor
  · rintro ⟨⟨sign, digits, htrim, hdigits, hn⟩, hrange⟩
    obtain ⟨before, after, hcs, hblank⟩ := exists_trim cs
    rw [htrim] at hcs
    exact ⟨before, sign, digits, after, hcs, hblank, hdigits, hn, hrange⟩
  · rintro ⟨before, sign, digits, after, rfl, hblank, hdigits, hn, hrange⟩
    refine ⟨⟨sign, digits, trim_between hblank.1 ?_ hblank.2, hdigits, hn⟩, hrange⟩
    intro c hc
    rcases List.mem_append.1 hc with hc | hc
    · rcases hn with ⟨rfl | rfl, -⟩ | ⟨rfl, -⟩
      · contradiction
      · rw [List.mem_singleton.1 hc]
        rfl
      · rw [List.mem_singleton.1 hc]
        rfl
    · exact isBlank_of_isDigit (hdigits.2 c hc)

end DeviceAuth.Text

namespace DeviceAuth.Base64

/-! ## Base64 as text -/

variable {al : Alphabet}

/-- Padding is ASCII, as the symbols are. -/
theorem symbols_lt (hal : al.Proper) (bs : List UInt8) (k : Nat) :
    ∀ b ∈ encodeUnpadded al bs ++ List.replicate k padSymbol, b.toNat < 128 := by
  intro b hb
  rcases List.mem_append.1 hb with hb | hb
  · obtain ⟨v, hv, rfl⟩ := exists_symbol_of_mem_encodeUnpadded hb
    exact hal.symbol_lt v hv
  · rw [List.eq_of_mem_replicate hb]
    decide

/-- A text reads as some bytes exactly when it spells their symbols, with as much padding after
them as may stand. -/
theorem decodeText_eq_ok_iff (hal : al.Proper) {pad : Padding} {s : String} {bs : List UInt8} :
    decodeText al pad s = .ok bs ↔ ∃ k ≤ pad.limit (encodeUnpadded al bs).length,
      s = spell (encodeUnpadded al bs ++ List.replicate k padSymbol) := by
  rw [decodeText, decode_eq_ok_iff hal]
  constructor
  · rintro ⟨k, hk, h⟩
    refine ⟨k, hk, Text.Utf8.encode_injective ?_⟩
    rw [spell, Text.Utf8.encode_ofList_ascii (symbols_lt hal bs k), h]
  · rintro ⟨k, hk, rfl⟩
    exact ⟨k, hk, Text.Utf8.encode_ofList_ascii (symbols_lt hal bs k)⟩

/-- What is written is read back. -/
theorem decodeText_encode (hal : al.Proper) (bs : List UInt8) :
    decodeText al .lenient (encode al bs) = .ok bs :=
  (decodeText_eq_ok_iff hal).2 ⟨_, Nat.le_refl _, rfl⟩

theorem toList_encode (al : Alphabet) (bs : List UInt8) :
    (encode al bs).toList = (encodePadded al bs).map fun b => Char.ofNat b.toNat := by
  simp [encode, spell]

@[simp] theorem length_encode (al : Alphabet) (bs : List UInt8) :
    (encode al bs).length = 4 * ((bs.length + 2) / 3) := by
  rw [← String.length_toList, toList_encode, List.length_map, length_encodePadded]

/-- Where no padding may stand, a text reads as some bytes exactly when it is what those bytes are
written as. -/
theorem decodeText_none_eq_ok_iff (hal : al.Proper) {s : String} {bs : List UInt8} :
    decodeText al .none s = .ok bs ↔ s = encodeNoPad al bs := by
  rw [decodeText_eq_ok_iff hal]
  constructor
  · rintro ⟨k, hk, rfl⟩
    rw [Nat.le_zero.1 hk, List.replicate_zero, List.append_nil]
    rfl
  · rintro rfl
    exact ⟨0, Nat.zero_le _, by rw [List.replicate_zero, List.append_nil]; rfl⟩

/-- No two lists of bytes have the same padded text. -/
theorem encode_injective (hal : al.Proper) {a b : List UInt8} (h : encode al a = encode al b) :
    a = b := by
  have hread := decodeText_encode hal a
  rw [h, decodeText_encode hal, Except.ok.injEq] at hread
  exact hread.symm

/-- No two lists of bytes have the same symbols. -/
theorem encodeNoPad_injective (hal : al.Proper) {a b : List UInt8}
    (h : encodeNoPad al a = encodeNoPad al b) : a = b := by
  have hread : decodeText al .none (encodeNoPad al b) = .ok a :=
    (decodeText_none_eq_ok_iff hal).2 h.symm
  rw [(decodeText_none_eq_ok_iff hal).2 rfl, Except.ok.injEq] at hread
  exact hread.symm

end DeviceAuth.Base64
