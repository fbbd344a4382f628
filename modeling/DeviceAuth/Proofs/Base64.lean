import DeviceAuth.Base64
import DeviceAuth.Proofs.Bytes

/-!
# DeviceAuth.Proofs.Base64

Reading Base64 accepts exactly what writing produces: a list of symbols reads as some bytes if and
only if it is their unpadded form, followed by padding where padding may stand.  So bytes have one
spelling up to padding, and spare bits, foreign symbols and cut groups are always refused.

Writing is taken apart into the six-bit values of the bytes (`sextets`) and the symbols of an
alphabet; the laws of the alphabets come first, then the last group, then the groups before it.
-/

namespace DeviceAuth.Base64

/-! ## Alphabets -/

/-- What the proofs need of an alphabet: symbols and values are inverse, and symbols are ASCII
characters other than the padding. -/
structure Alphabet.Proper (al : Alphabet) : Prop where
  value_symbol : ∀ v < 64, al.value? (al.symbol v) = some v
  symbol_value : ∀ b v, al.value? b = some v → v < 64 ∧ al.symbol v = b
  value_pad : al.value? padSymbol = none
  symbol_lt : ∀ v < 64, (al.symbol v).toNat < 128

/-- The laws of an alphabet are checked on its symbols and on the 256 bytes. -/
theorem proper_of_forall {al : Alphabet} (hvalue : ∀ v < 64, al.value? (al.symbol v) = some v)
    (hsymbol : ∀ n < 256, ∀ v ∈ al.value? (UInt8.ofNat n), v < 64 ∧ al.symbol v = UInt8.ofNat n)
    (hpad : al.value? padSymbol = none) (hlt : ∀ v < 64, (al.symbol v).toNat < 128) :
    al.Proper where
  value_symbol := hvalue
  symbol_value := forall_byte hsymbol
  value_pad := hpad
  symbol_lt := hlt

theorem standard_proper : Alphabet.standard.Proper :=
  proper_of_forall (by decide +kernel) (by decide +kernel) (by decide) (by decide +kernel)

theorem urlSafe_proper : Alphabet.urlSafe.Proper :=
  proper_of_forall (by decide +kernel) (by decide +kernel) (by decide) (by decide +kernel)

variable {al : Alphabet}

theorem Alphabet.Proper.symbol_ne_pad (hal : al.Proper) {v : Nat} (hv : v < 64) :
    al.symbol v ≠ padSymbol := by
  intro h
  have hs := hal.value_symbol v hv
  rw [h, hal.value_pad] at hs
  contradiction

/-! ## Symbols -/

theorem readSymbol_symbol (hal : al.Proper) {v : Nat} (hv : v < 64) (offset : Nat) :
    readSymbol al offset (al.symbol v) = .ok v := by
  rw [readSymbol, hal.value_symbol v hv]

/-- A symbol that is read is the one symbol of its value. -/
theorem eq_symbol_of_readSymbol (hal : al.Proper) {offset : Nat} {b : UInt8} {v : Nat}
    (h : readSymbol al offset b = .ok v) : v < 64 ∧ b = al.symbol v := by
  unfold readSymbol at h
  cases hb : al.value? b with
  | none => rw [hb] at h; contradiction
  | some w =>
    rw [hb, Except.ok.injEq] at h
    subst h
    obtain ⟨hw, hs⟩ := hal.symbol_value b w hb
    exact ⟨hw, hs.symm⟩

theorem readSymbols_map_symbol (hal : al.Proper) {vs : List Nat} (hvs : ∀ v ∈ vs, v < 64)
    (offset : Nat) : readSymbols al offset (vs.map al.symbol) = .ok vs := by
  induction vs generalizing offset with
  | nil => rfl
  | cons v vs ih =>
    have hv := hvs v List.mem_cons_self
    have hrest := ih (fun u hu => hvs u (List.mem_cons_of_mem v hu)) (offset + 1)
    rw [List.map_cons, readSymbols, readSymbol_symbol hal hv, hrest]
    rfl

theorem eq_map_of_readSymbols (hal : al.Proper) {offset : Nat} {s : List UInt8} {vs : List Nat}
    (h : readSymbols al offset s = .ok vs) : (∀ v ∈ vs, v < 64) ∧ s = vs.map al.symbol := by
  induction s generalizing offset vs with
  | nil =>
    rw [readSymbols, Except.ok.injEq] at h
    subst h
    exact ⟨by simp, rfl⟩
  | cons b r ih =>
    rw [readSymbols] at h
    obtain ⟨v, hv, h⟩ := bind_eq_ok_iff.1 h
    obtain ⟨ws, hws, h⟩ := bind_eq_ok_iff.1 h
    have hvs : v :: ws = vs := Except.ok.inj h
    obtain ⟨hlt, hb⟩ := eq_symbol_of_readSymbol hal hv
    obtain ⟨hlts, hr⟩ := ih hws
    rw [← hvs, hb, hr]
    exact ⟨List.forall_mem_cons.2 ⟨hlt, hlts⟩, rfl⟩

/-! ## Six-bit values -/

/-- The values of the symbols that write some bytes. -/
def sextets : List UInt8 → List Nat
  | a :: b :: c :: r =>
    let n := a.toNat * 65536 + b.toNat * 256 + c.toNat
    n / 262144 :: n / 4096 % 64 :: n / 64 % 64 :: n % 64 :: sextets r
  | [a, b] =>
    let n := a.toNat * 256 + b.toNat
    [n / 1024, n / 16 % 64, n % 16 * 4]
  | [a] => [a.toNat / 4, a.toNat % 4 * 16]
  | [] => []

theorem encodeUnpadded_eq (al : Alphabet) (bs : List UInt8) :
    encodeUnpadded al bs = (sextets bs).map al.symbol := by
  induction bs using sextets.induct with
  | case1 a b c r ih => simp [encodeUnpadded, sextets, ih]
  | case2 a b => rfl
  | case3 a => rfl
  | case4 => rfl

theorem sextets_lt (bs : List UInt8) : ∀ v ∈ sextets bs, v < 64 := by
  induction bs using sextets.induct with
  | case1 a b c r ih =>
    have ha : a.toNat < 256 := a.toNat_lt
    have hb : b.toNat < 256 := b.toNat_lt
    have hc : c.toNat < 256 := c.toNat_lt
    rw [sextets]
    refine List.forall_mem_cons.2 ⟨by omega, List.forall_mem_cons.2 ⟨by omega,
      List.forall_mem_cons.2 ⟨by omega, List.forall_mem_cons.2 ⟨by omega, ih⟩⟩⟩⟩
  | case2 a b =>
    have ha : a.toNat < 256 := a.toNat_lt
    have hb : b.toNat < 256 := b.toNat_lt
    simp only [sextets, List.forall_mem_cons]
    refine ⟨by omega, by omega, by omega, by simp⟩
  | case3 a =>
    have ha : a.toNat < 256 := a.toNat_lt
    simp only [sextets, List.forall_mem_cons]
    refine ⟨by omega, by omega, by simp⟩
  | case4 => simp [sextets]

theorem length_sextets (bs : List UInt8) : (sextets bs).length = (4 * bs.length + 2) / 3 := by
  induction bs using sextets.induct with
  | case1 a b c r ih =>
    simp only [sextets, List.length_cons, ih]
    omega
  | case2 a b => simp [sextets]
  | case3 a => simp [sextets]
  | case4 => rfl

theorem length_encodeUnpadded (al : Alphabet) (bs : List UInt8) :
    (encodeUnpadded al bs).length = (4 * bs.length + 2) / 3 := by
  rw [encodeUnpadded_eq, List.length_map, length_sextets]

/-- Every symbol that is written stands in the alphabet. -/
theorem exists_symbol_of_mem_encodeUnpadded {bs : List UInt8} {b : UInt8}
    (h : b ∈ encodeUnpadded al bs) : ∃ v < 64, b = al.symbol v := by
  rw [encodeUnpadded_eq] at h
  obtain ⟨v, hv, rfl⟩ := List.mem_map.1 h
  exact ⟨v, sextets_lt bs v hv, rfl⟩

/-! ## The last group -/

/-- The three values of two bytes spell four times the number of those bytes. -/
theorem pair_number (n : Nat) :
    (n / 1024 * 4096 + n / 16 % 64 * 64 + n % 16 * 4) / 4 = n := by
  omega

/-- The four values of three bytes spell the number of those bytes. -/
theorem group_number (n : Nat) :
    n / 262144 * 262144 + n / 4096 % 64 * 4096 + n / 64 % 64 * 64 + n % 64 = n := by
  omega

/-- The number of three bytes spells those bytes. -/
theorem group_bytes (a b c : UInt8) {n : Nat}
    (hn : n = a.toNat * 65536 + b.toNat * 256 + c.toNat) :
    UInt8.ofNat (n / 65536) = a ∧ UInt8.ofNat (n / 256) = b ∧ UInt8.ofNat n = c := by
  have hb : b.toNat < 256 := b.toNat_lt
  have hc : c.toNat < 256 := c.toNat_lt
  have hthird : n = (a.toNat * 256 + b.toNat) * 256 + c.toNat := by
    rw [hn, Nat.add_mul, Nat.mul_assoc]
  have hsecond : n / 256 = a.toNat * 256 + b.toNat := by omega
  have hfirst : n / 65536 = a.toNat := by omega
  refine ⟨?_, ?_, ?_⟩
  · rw [hfirst, UInt8.ofNat_toNat]
  · rw [hsecond, ofNat_mul_add]
  · rw [hthird, ofNat_mul_add]

/-- The number of four values spells bytes whose values they are. -/
theorem group_values {x y z w n : Nat} (hx : x < 64) (hy : y < 64) (hz : z < 64) (hw : w < 64)
    (hn : n = x * 262144 + y * 4096 + z * 64 + w) (bs : List UInt8) :
    sextets (UInt8.ofNat (n / 65536) :: UInt8.ofNat (n / 256) :: UInt8.ofNat n :: bs) =
      x :: y :: z :: w :: sextets bs := by
  simp only [sextets, UInt8.toNat_ofNat', List.cons.injEq, and_true]
  omega

/-- The values of up to three bytes give those bytes back. -/
theorem lastBytes_sextets {bs : List UInt8} (h : bs.length ≤ 3) (offset : Nat) (s : List UInt8) :
    lastBytes offset s (sextets bs) = .ok bs := by
  match bs, h with
  | [], _ => rfl
  | [a], _ =>
    have hval : a.toNat / 4 * 4 + a.toNat % 4 * 16 / 16 = a.toNat := by omega
    simp only [sextets, lastBytes]
    rw [if_pos (Nat.mul_mod_left _ 16), hval, UInt8.ofNat_toNat]
  | [a, b], _ =>
    have hb : b.toNat < 256 := b.toNat_lt
    have hfirst : (a.toNat * 256 + b.toNat) / 256 = a.toNat := by omega
    simp only [sextets, lastBytes]
    rw [if_pos (Nat.mul_mod_left _ 4), pair_number, hfirst, UInt8.ofNat_toNat, ofNat_mul_add]
  | [a, b, c], _ =>
    obtain ⟨hfirst, hsecond, hthird⟩ := group_bytes a b c rfl
    simp only [sextets, lastBytes]
    rw [group_number, hfirst, hsecond, hthird]

/-- Values of a last group that give bytes are the values of those bytes. -/
theorem sextets_of_lastBytes {offset : Nat} {s : List UInt8} {vs : List Nat} {bs : List UInt8}
    (hvs : ∀ v ∈ vs, v < 64) (h : lastBytes offset s vs = .ok bs) :
    bs.length ≤ 3 ∧ vs = sextets bs := by
  match vs, hvs, h with
  | [], _, h =>
    rw [lastBytes, Except.ok.injEq] at h
    subst h
    exact ⟨by simp, rfl⟩
  | [x], _, h => contradiction
  | [x, y], hvs, h =>
    have hx := hvs x (by simp)
    have hy := hvs y (by simp)
    rw [lastBytes] at h
    split at h
    · next hspare =>
      rw [Except.ok.injEq] at h
      subst h
      refine ⟨by simp, ?_⟩
      simp only [sextets, UInt8.toNat_ofNat', List.cons.injEq, and_true]
      omega
    · contradiction
  | [x, y, z], hvs, h =>
    have hx := hvs x (by simp)
    have hy := hvs y (by simp)
    have hz := hvs z (by simp)
    rw [lastBytes] at h
    split at h
    · next hspare =>
      simp only [Except.ok.injEq] at h
      subst h
      refine ⟨by simp, ?_⟩
      simp only [sextets, UInt8.toNat_ofNat', List.cons.injEq, and_true]
      omega
    · contradiction
  | [x, y, z, w], hvs, h =>
    have hx := hvs x (by simp)
    have hy := hvs y (by simp)
    have hz := hvs z (by simp)
    have hw := hvs w (by simp)
    rw [lastBytes, Except.ok.injEq] at h
    subst h
    exact ⟨by simp, (group_values hx hy hz hw rfl []).symm⟩
  | _ :: _ :: _ :: _ :: _ :: _, _, h => contradiction

/-- How much padding may follow some symbols. -/
def Padding.limit : Padding → Nat → Nat
  | .lenient, n => padLength n
  | .none, _ => 0

/-- No symbol of a value is padding. -/
theorem bne_pad_of_mem_map (hal : al.Proper) {vs : List Nat} (hvs : ∀ v ∈ vs, v < 64) :
    ∀ b ∈ vs.map al.symbol, (b != padSymbol) = true := by
  intro b hb
  obtain ⟨v, hv, rfl⟩ := List.mem_map.1 hb
  exact bne_iff_ne.2 (hal.symbol_ne_pad (hvs v hv))

theorem takeWhile_symbols (hal : al.Proper) {vs : List Nat} (hvs : ∀ v ∈ vs, v < 64) (k : Nat) :
    (vs.map al.symbol ++ List.replicate k padSymbol).takeWhile (· != padSymbol) =
      vs.map al.symbol := by
  rw [List.takeWhile_append_of_pos (bne_pad_of_mem_map hal hvs)]
  cases k <;> simp [List.replicate_succ]

theorem dropWhile_symbols (hal : al.Proper) {vs : List Nat} (hvs : ∀ v ∈ vs, v < 64) (k : Nat) :
    (vs.map al.symbol ++ List.replicate k padSymbol).dropWhile (· != padSymbol) =
      List.replicate k padSymbol := by
  rw [List.dropWhile_append_of_pos (bne_pad_of_mem_map hal hvs)]
  cases k <;> simp [List.replicate_succ]

/-- Up to three bytes are read back from their symbols with padding after them. -/
theorem decodeLast_encodeUnpadded (hal : al.Proper) {pad : Padding} {bs : List UInt8} {k : Nat}
    (hbs : bs.length ≤ 3) (hk : k ≠ 0 → pad = .lenient ∧ bs ≠ []) (offset : Nat) :
    decodeLast al pad offset (encodeUnpadded al bs ++ List.replicate k padSymbol) = .ok bs := by
  have hpad : ∀ b ∈ List.replicate k padSymbol, ¬ (b != padSymbol) = true := by
    intro b hb
    rw [List.eq_of_mem_replicate hb]
    simp
  have hlen : bs ≠ [] → 2 ≤ (sextets bs).length := by
    intro hne
    have hpos := List.length_pos_iff.2 hne
    rw [length_sextets]
    omega
  rw [encodeUnpadded_eq]
  simp only [decodeLast, takeWhile_symbols hal (sextets_lt bs),
    dropWhile_symbols hal (sextets_lt bs), readSymbols_map_symbol hal (sextets_lt bs),
    List.length_map]
  change (if _ then _ else _) = _
  rw [if_neg, if_neg, if_neg]
  · exact lastBytes_sextets hbs offset _
  · rintro ⟨rfl, ht⟩
    have hk0 : k ≠ 0 := by
      rintro rfl
      exact ht rfl
    have hlenient := (hk hk0).1
    contradiction
  · rintro ⟨hs, hshort⟩
    have hnil : bs = [] := by
      by_contra hne
      have h2 := hlen hne
      omega
    have hk0 : k ≠ 0 := by
      rintro rfl
      exact hs (by rw [hnil]; rfl)
    exact (hk hk0).2 hnil
  · rintro ⟨ht, hbad⟩
    have hk0 : k ≠ 0 := by
      rintro rfl
      exact ht rfl
    rcases hbad with hshort | hany
    · have h2 := hlen (hk hk0).2
      omega
    · obtain ⟨b, hb, hne⟩ := List.any_eq_true.1 hany
      exact hpad b hb hne

/-- A last group that reads as some bytes is their symbols, with padding where it may stand. -/
theorem eq_encodeUnpadded_of_decodeLast (hal : al.Proper) {pad : Padding} {offset : Nat}
    {s bs : List UInt8} (h : decodeLast al pad offset s = .ok bs) :
    bs.length ≤ 3 ∧ ∃ k, (k ≠ 0 → pad = .lenient ∧ bs ≠ []) ∧
      s = encodeUnpadded al bs ++ List.replicate k padSymbol := by
  have hsplit := List.takeWhile_append_dropWhile (p := (· != padSymbol)) (l := s)
  simp only [decodeLast] at h
  obtain ⟨vs, hvs, h⟩ := bind_eq_ok_iff.1 h
  obtain ⟨hlt, hsym⟩ := eq_map_of_readSymbols hal hvs
  generalize hsymbols : s.takeWhile (· != padSymbol) = symbols at *
  generalize htail : s.dropWhile (· != padSymbol) = tail at *
  split at h
  · contradiction
  · next hpad =>
    split at h
    · contradiction
    · next hshort =>
      split at h
      · contradiction
      · next hnone =>
        obtain ⟨hbs, rfl⟩ := sextets_of_lastBytes hlt h
        refine ⟨hbs, tail.length, ?_, ?_⟩
        · intro hk
          have hne : tail ≠ [] := List.length_pos_iff.1 (Nat.pos_of_ne_zero hk)
          constructor
          · cases pad with
            | lenient => rfl
            | none => exact absurd ⟨rfl, hne⟩ hnone
          · rintro rfl
            exact hpad ⟨hne, .inl (by simp [hsym, sextets])⟩
        · have htl : tail = List.replicate tail.length padSymbol := by
            refine List.eq_replicate_iff.2 ⟨rfl, fun b hb => ?_⟩
            by_contra hne
            refine hpad ⟨List.ne_nil_of_mem hb, .inr (List.any_eq_true.2 ⟨b, hb, ?_⟩)⟩
            exact bne_iff_ne.2 hne
          rw [← hsplit, hsym, ← encodeUnpadded_eq, ← htl]

/-! ## Groups before the last -/

theorem decodeFrom_eq_decodeLast {pad : Padding} {offset : Nat} {s : List UInt8}
    (h : s.length ≤ 4) : decodeFrom al pad offset s = decodeLast al pad offset s := by
  match s, h with
  | [], _ => rfl
  | [_], _ => rfl
  | [_, _], _ => rfl
  | [_, _, _], _ => rfl
  | [_, _, _, _], _ => rfl
  | _ :: _ :: _ :: _ :: _ :: _, h =>
    simp only [List.length_cons] at h
    omega

theorem Padding.limit_add_four (pad : Padding) (n : Nat) : pad.limit (n + 4) = pad.limit n := by
  cases pad with
  | lenient =>
    simp only [Padding.limit, padLength]
    omega
  | none => rfl

/-- Padding stands only after two or three symbols of a group. -/
theorem Padding.limit_le (al : Alphabet) (pad : Padding) (bs : List UInt8) (hbs : bs.length ≤ 3) :
    (encodeUnpadded al bs).length + pad.limit (encodeUnpadded al bs).length ≤ 4 ∧
      (pad.limit (encodeUnpadded al bs).length ≠ 0 → pad = .lenient ∧ bs ≠ []) := by
  rw [length_encodeUnpadded]
  cases pad with
  | lenient =>
    simp only [Padding.limit, padLength]
    refine ⟨by omega, fun h => ⟨trivial, ?_⟩⟩
    rintro rfl
    exact h rfl
  | none =>
    simp only [Padding.limit]
    refine ⟨by omega, fun h => absurd rfl h⟩

/-- A group that is not the last is read for itself. -/
theorem decodeFrom_group (hal : al.Proper) (pad : Padding) {n : Nat} {s : List UInt8}
    (hn : n < 16777216) (hs : s ≠ []) (offset : Nat) :
    decodeFrom al pad offset (al.symbol (n / 262144) :: al.symbol (n / 4096 % 64) ::
        al.symbol (n / 64 % 64) :: al.symbol (n % 64) :: s) =
      (decodeFrom al pad (offset + 4) s).map fun bs =>
        UInt8.ofNat (n / 65536) :: UInt8.ofNat (n / 256) :: UInt8.ofNat n :: bs := by
  obtain ⟨e, r, rfl⟩ := List.exists_cons_of_ne_nil hs
  have hx : n / 262144 < 64 := by omega
  rw [decodeFrom, readSymbol_symbol hal hx, readSymbol_symbol hal (Nat.mod_lt _ (by decide)),
    readSymbol_symbol hal (Nat.mod_lt _ (by decide)),
    readSymbol_symbol hal (Nat.mod_lt _ (by decide))]
  simp only [bind, Except.bind, group_number]
  rfl

theorem decodeFrom_encodeUnpadded_short (hal : al.Proper) {pad : Padding} {bs : List UInt8}
    (hbs : bs.length ≤ 3) {k : Nat} (hk : k ≤ pad.limit (encodeUnpadded al bs).length)
    (offset : Nat) :
    decodeFrom al pad offset (encodeUnpadded al bs ++ List.replicate k padSymbol) = .ok bs := by
  obtain ⟨hlen, hpad⟩ := Padding.limit_le al pad bs hbs
  rw [decodeFrom_eq_decodeLast (by rw [List.length_append, List.length_replicate]; omega)]
  exact decodeLast_encodeUnpadded hal hbs (fun h => hpad (by omega)) offset

/-- Bytes are read back from their symbols, with as much padding as may stand. -/
theorem decodeFrom_encodeUnpadded (hal : al.Proper) {pad : Padding} (bs : List UInt8) {k : Nat}
    (hk : k ≤ pad.limit (encodeUnpadded al bs).length) (offset : Nat) :
    decodeFrom al pad offset (encodeUnpadded al bs ++ List.replicate k padSymbol) = .ok bs := by
  induction bs using sextets.induct generalizing offset with
  | case1 a b c r ih =>
    cases r with
    | nil => exact decodeFrom_encodeUnpadded_short hal (by simp) hk offset
    | cons d r =>
      have hlen : (encodeUnpadded al (a :: b :: c :: d :: r)).length =
          (encodeUnpadded al (d :: r)).length + 4 := by
        simp [encodeUnpadded]
      rw [hlen, Padding.limit_add_four] at hk
      have hne : encodeUnpadded al (d :: r) ++ List.replicate k padSymbol ≠ [] := by
        intro h
        have hzero := congrArg List.length (List.append_eq_nil_iff.1 h).1
        rw [length_encodeUnpadded, List.length_cons, List.length_nil] at hzero
        omega
      have hlt : a.toNat * 65536 + b.toNat * 256 + c.toNat < 16777216 := by
        have ha := a.toNat_lt
        have hb := b.toNat_lt
        have hc := c.toNat_lt
        omega
      obtain ⟨hfirst, hsecond, hthird⟩ := group_bytes a b c rfl
      have hgroup := decodeFrom_group hal pad hlt hne offset
      rw [ih hk, hfirst, hsecond, hthird] at hgroup
      exact hgroup
  | case2 a b => exact decodeFrom_encodeUnpadded_short hal (by simp) hk offset
  | case3 a => exact decodeFrom_encodeUnpadded_short hal (by simp) hk offset
  | case4 => exact decodeFrom_encodeUnpadded_short hal (by simp) hk offset

/-- Symbols that read as some bytes are the symbols of those bytes and padding. -/
theorem eq_encodeUnpadded_of_decodeFrom (hal : al.Proper) {pad : Padding} {offset : Nat}
    {s bs : List UInt8} (h : decodeFrom al pad offset s = .ok bs) :
    ∃ k ≤ pad.limit (encodeUnpadded al bs).length,
      s = encodeUnpadded al bs ++ List.replicate k padSymbol := by
  fun_induction decodeFrom al pad offset s generalizing bs with
  | case1 offset a b c d e r ih =>
    obtain ⟨x, hx, h⟩ := bind_eq_ok_iff.1 h
    obtain ⟨y, hy, h⟩ := bind_eq_ok_iff.1 h
    obtain ⟨z, hz, h⟩ := bind_eq_ok_iff.1 h
    obtain ⟨w, hw, h⟩ := bind_eq_ok_iff.1 h
    obtain ⟨rest, hrest, h⟩ := bind_eq_ok_iff.1 h
    have hbs := Except.ok.inj h
    obtain ⟨hx64, rfl⟩ := eq_symbol_of_readSymbol hal hx
    obtain ⟨hy64, rfl⟩ := eq_symbol_of_readSymbol hal hy
    obtain ⟨hz64, rfl⟩ := eq_symbol_of_readSymbol hal hz
    obtain ⟨hw64, rfl⟩ := eq_symbol_of_readSymbol hal hw
    obtain ⟨k, hk, hs⟩ := ih hrest
    have henc : encodeUnpadded al bs = al.symbol x :: al.symbol y :: al.symbol z :: al.symbol w ::
        encodeUnpadded al rest := by
      rw [← hbs, encodeUnpadded_eq, group_values hx64 hy64 hz64 hw64 rfl, encodeUnpadded_eq]
      rfl
    refine ⟨k, ?_, ?_⟩
    · rw [henc]
      simpa [Padding.limit_add_four] using hk
    · rw [henc, hs]
      rfl
  | case2 offset s hs =>
    have hlen : s.length ≤ 4 := by
      match s, hs with
      | [], _ | [_], _ | [_, _], _ | [_, _, _], _ | [_, _, _, _], _ => simp
      | a :: b :: c :: d :: e :: r, hs => exact (hs a b c d e r rfl).elim
    obtain ⟨hbs, k, hk, rfl⟩ := eq_encodeUnpadded_of_decodeLast hal h
    refine ⟨k, ?_, rfl⟩
    by_cases hk0 : k = 0
    · omega
    · obtain ⟨rfl, hne⟩ := hk hk0
      have hpos := List.length_pos_iff.2 hne
      rw [List.length_append, List.length_replicate] at hlen
      rw [length_encodeUnpadded] at *
      simp only [Padding.limit, padLength]
      omega

/-! ## Whole texts -/

/-- What is written holds no foreign symbol at its end. -/
theorem loneFault?_encodeUnpadded (hal : al.Proper) (bs : List UInt8) (k : Nat) :
    loneFault? al (encodeUnpadded al bs ++ List.replicate k padSymbol) = none := by
  unfold loneFault?
  cases hlast : (encodeUnpadded al bs ++ List.replicate k padSymbol).getLast? with
  | none => rfl
  | some b =>
    refine if_neg ?_
    rintro ⟨-, hne, hnone⟩
    rcases List.mem_append.1 (List.mem_of_getLast? hlast) with hb | hb
    · obtain ⟨v, hv, rfl⟩ := exists_symbol_of_mem_encodeUnpadded hb
      rw [hal.value_symbol v hv] at hnone
      contradiction
    · exact hne (List.eq_of_mem_replicate hb)

/-- Symbols read as some bytes exactly when they are the symbols of those bytes, with as much
padding after them as may stand. -/
theorem decode_eq_ok_iff (hal : al.Proper) {pad : Padding} {s bs : List UInt8} :
    decode al pad s = .ok bs ↔ ∃ k ≤ pad.limit (encodeUnpadded al bs).length,
      s = encodeUnpadded al bs ++ List.replicate k padSymbol := by
  constructor
  · intro h
    unfold decode at h
    split at h
    · contradiction
    · exact eq_encodeUnpadded_of_decodeFrom hal h
  · rintro ⟨k, hk, rfl⟩
    rw [decode, loneFault?_encodeUnpadded hal]
    exact decodeFrom_encodeUnpadded hal bs hk 0

/-! ## Concatenation

Bytes that fill their groups are written for themselves, whatever follows them. -/

theorem encodeUnpadded_append {a : List UInt8} (ha : 3 ∣ a.length) (b : List UInt8) :
    encodeUnpadded al (a ++ b) = encodeUnpadded al a ++ encodeUnpadded al b := by
  induction a using sextets.induct with
  | case1 x y z r ih =>
    have hr : 3 ∣ r.length := by
      simp only [List.length_cons] at ha
      omega
    simp [encodeUnpadded, ih hr]
  | case2 x y => simp at ha
  | case3 x => simp at ha
  | case4 => rfl

@[simp] theorem length_encodePadded (al : Alphabet) (bs : List UInt8) :
    (encodePadded al bs).length = 4 * ((bs.length + 2) / 3) := by
  simp only [encodePadded, List.length_append, List.length_replicate, length_encodeUnpadded,
    padLength]
  omega

theorem encodePadded_append {a : List UInt8} (ha : 3 ∣ a.length) (b : List UInt8) :
    encodePadded al (a ++ b) = encodePadded al a ++ encodePadded al b := by
  have hnone : padLength (encodeUnpadded al a).length = 0 := by
    rw [length_encodeUnpadded, padLength]
    omega
  have hsame : padLength (encodeUnpadded al (a ++ b)).length =
      padLength (encodeUnpadded al b).length := by
    obtain ⟨q, hq⟩ := ha
    have hlen : (4 * (a.length + b.length) + 2) / 3 = 4 * q + (4 * b.length + 2) / 3 := by omega
    simp only [length_encodeUnpadded, List.length_append, padLength, hlen, Nat.mul_add_mod]
  simp only [encodePadded, hsame, hnone]
  simp [encodeUnpadded_append ha]

end DeviceAuth.Base64
