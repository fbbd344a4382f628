import DeviceAuth.Proofs.Text
import Mathlib.Data.List.DropRight

/-!
# DeviceAuth.Proofs.Base64.Defect

Which texts spell no bytes where padding may be left out.  Values are those of some bytes unless
the last group has one value only or sets bits beyond its last byte (`exists_sextets`).  Put
together with what can be wrong around the values, foreign characters and misplaced padding, that
makes a list of five defects: reading fails exactly on the texts that have one of them
(`decodeText_eq_error_iff`).
-/

namespace DeviceAuth.Base64

variable {al : Alphabet}

/-! ## Values that are written -/

/-- The bits of some symbols that fill no byte. -/
def spareBits (symbols : Nat) : Nat :=
  6 * symbols % 8

theorem pow_spareBits_two : 2 ^ spareBits 2 = 16 := by decide

theorem pow_spareBits_three : 2 ^ spareBits 3 = 4 := by decide

theorem spareBits_add_four (n : Nat) : spareBits (n + 4) = spareBits n := by
  simp only [spareBits]
  omega

/-- No bytes are written with one symbol in the last group. -/
theorem length_sextets_mod (bs : List UInt8) : (sextets bs).length % 4 ≠ 1 := by
  rw [length_sextets]
  omega

/-- The bits of the last symbol beyond the last byte are written as zeros. -/
theorem spare_of_sextets {bs : List UInt8} {v : Nat} (hv : (sextets bs).getLast? = some v) :
    v % 2 ^ spareBits (sextets bs).length = 0 := by
  induction bs using sextets.induct with
  | case1 a b c r ih =>
    simp only [sextets, List.length_cons] at hv ⊢
    rw [spareBits_add_four]
    cases hr : sextets r with
    | nil => exact Nat.mod_one v
    | cons x xs =>
      rw [hr] at hv ih
      exact ih (by simpa using hv)
  | case2 a b =>
    obtain rfl : (a.toNat * 256 + b.toNat) % 16 * 4 = v := by simpa [sextets] using hv
    have hlen : (sextets [a, b]).length = 3 := by simp [length_sextets]
    rw [hlen, pow_spareBits_three, Nat.mul_mod_left]
  | case3 a =>
    obtain rfl : a.toNat % 4 * 16 = v := by simpa [sextets] using hv
    have hlen : (sextets [a]).length = 2 := by simp [length_sextets]
    rw [hlen, pow_spareBits_two, Nat.mul_mod_left]
  | case4 => simp [sextets] at hv

/-- Values that leave no symbol alone and set no spare bit are those of some bytes. -/
theorem exists_sextets {vs : List Nat} (hvs : ∀ v ∈ vs, v < 64) (hlone : vs.length % 4 ≠ 1)
    (hspare : ∀ v, vs.getLast? = some v → v % 2 ^ spareBits vs.length = 0) :
    ∃ bs, sextets bs = vs := by
  match vs with
  | [] => exact ⟨[], rfl⟩
  | [x] => exact absurd rfl hlone
  | [x, y] =>
    have hy : y % 2 ^ spareBits 2 = 0 := hspare y rfl
    rw [pow_spareBits_two] at hy
    have hread : lastBytes 0 [] [x, y] = .ok [UInt8.ofNat (x * 4 + y / 16)] := if_pos hy
    exact ⟨_, (sextets_of_lastBytes hvs hread).2.symm⟩
  | [x, y, z] =>
    have hz : z % 2 ^ spareBits 3 = 0 := hspare z rfl
    rw [pow_spareBits_three] at hz
    have hread : lastBytes 0 [] [x, y, z] =
        .ok [UInt8.ofNat ((x * 4096 + y * 64 + z) / 4 / 256),
          UInt8.ofNat ((x * 4096 + y * 64 + z) / 4)] := if_pos hz
    exact ⟨_, (sextets_of_lastBytes hvs hread).2.symm⟩
  | x :: y :: z :: w :: r =>
    simp only [List.forall_mem_cons] at hvs
    obtain ⟨hx, hy, hz, hw, hr⟩ := hvs
    have hlen : (x :: y :: z :: w :: r).length = r.length + 4 := rfl
    rw [hlen] at hlone hspare
    have hrest : ∀ v, r.getLast? = some v → v % 2 ^ spareBits r.length = 0 := by
      intro v hv
      rw [← spareBits_add_four]
      refine hspare v ?_
      simp [List.getLast?_cons, hv]
    obtain ⟨bs, hbs⟩ := exists_sextets hr (by omega) hrest
    exact ⟨_, hbs ▸ group_values hx hy hz hw rfl bs⟩

/-! ## Characters -/

/-- The character of a value. -/
def Alphabet.char (al : Alphabet) (v : Nat) : Char :=
  Char.ofNat (al.symbol v).toNat

theorem Alphabet.Proper.toNat_char (hal : al.Proper) {v : Nat} (hv : v < 64) :
    (al.char v).toNat = (al.symbol v).toNat := by
  have hascii : ∀ n < 128, (Char.ofNat n).toNat = n := by decide +kernel
  exact hascii _ (hal.symbol_lt v hv)

theorem Alphabet.Proper.char_inj (hal : al.Proper) {v w : Nat} (hv : v < 64) (hw : w < 64)
    (h : al.char v = al.char w) : v = w := by
  have hsymbol : al.symbol v = al.symbol w := by
    rw [← UInt8.toNat_inj, ← hal.toNat_char hv, ← hal.toNat_char hw, h]
  have hvalue := hal.value_symbol v hv
  rw [hsymbol, hal.value_symbol w hw, Option.some.injEq] at hvalue
  exact hvalue.symm

theorem Alphabet.Proper.char_ne_pad (hal : al.Proper) {v : Nat} (hv : v < 64) :
    al.char v ≠ '=' := by
  intro h
  refine hal.symbol_ne_pad hv ?_
  rw [← UInt8.toNat_inj, ← hal.toNat_char hv, h]
  rfl

theorem Alphabet.Proper.pad_not_mem (hal : al.Proper) {vs : List Nat} (hvs : ∀ v ∈ vs, v < 64) :
    '=' ∉ vs.map al.char := by
  intro h
  obtain ⟨v, hv, heq⟩ := List.mem_map.1 h
  exact hal.char_ne_pad (hvs v hv) heq

/-- The characters of some bytes with padding after them. -/
theorem toList_spell (bs : List UInt8) (k : Nat) :
    (spell (encodeUnpadded al bs ++ List.replicate k padSymbol)).toList =
      (sextets bs).map al.char ++ List.replicate k '=' := by
  have hpad : Char.ofNat padSymbol.toNat = '=' := rfl
  simp [spell, encodeUnpadded_eq, Alphabet.char, hpad]

/-! ## Padding -/

/-- A text without the padding at its end. -/
def unpadded (cs : List Char) : List Char :=
  cs.rdropWhile (· == '=')

theorem unpadded_append {symbols : List Char} (h : '=' ∉ symbols) (k : Nat) :
    unpadded (symbols ++ List.replicate k '=') = symbols := by
  have hpad : ∀ c ∈ List.replicate k '=', (c == '=') = true := by
    intro c hc
    rw [List.eq_of_mem_replicate hc, beq_self_eq_true]
  rw [unpadded, List.rdropWhile, List.reverse_append, List.reverse_replicate,
    List.dropWhile_append_of_pos hpad, ← List.rdropWhile, List.rdropWhile_eq_self_iff]
  intro hne hlast
  rw [beq_iff_eq] at hlast
  exact h (hlast ▸ List.getLast_mem hne)

/-- Symbols and the padding after them are told apart. -/
theorem symbols_pad_inj {s t : List Char} {j k : Nat} (hs : '=' ∉ s) (ht : '=' ∉ t)
    (h : s ++ List.replicate j '=' = t ++ List.replicate k '=') : s = t ∧ j = k := by
  have hsymbols := congrArg unpadded h
  rw [unpadded_append hs, unpadded_append ht] at hsymbols
  have hlen := congrArg List.length h
  simp only [List.length_append, List.length_replicate, hsymbols] at hlen
  exact ⟨hsymbols, by omega⟩

/-- After padding there is nothing but padding. -/
theorem eq_pad_of_after_pad {s before after : List Char} {c : Char} {k : Nat} (hs : '=' ∉ s)
    (h : s ++ List.replicate k '=' = before ++ '=' :: c :: after) : c = '=' := by
  rcases List.append_eq_append_iff.1 h with ⟨t, -, ht⟩ | ⟨t, rfl, ht⟩
  · have hc : c ∈ List.replicate k '=' := by simp [ht]
    exact List.eq_of_mem_replicate hc
  · cases t with
    | nil =>
      have hc : c ∈ List.replicate k '=' := by
        rw [← List.nil_append (List.replicate k '='), ← ht]
        simp
      exact List.eq_of_mem_replicate hc
    | cons d t =>
      obtain ⟨rfl, -⟩ := List.cons.inj ht
      exact absurd (by simp) hs

/-! ## Defects -/

/-- What is wrong with a text that spells no bytes. -/
inductive Defect (al : Alphabet) : List Char → Prop
  /-- A character that is neither a symbol nor padding. -/
  | foreign {cs : List Char} {c : Char} (hc : c ∈ cs) (hpad : c ≠ '=')
      (hsymbol : ∀ v < 64, c ≠ al.char v) : Defect al cs
  /-- Padding with something else after it. -/
  | inside {before after : List Char} {c : Char} (hc : c ≠ '=') :
      Defect al (before ++ '=' :: c :: after)
  /-- More padding than completes the symbols to groups of four. -/
  | excess {symbols : List Char} {k : Nat} (hsymbols : '=' ∉ symbols)
      (hk : padLength symbols.length < k) : Defect al (symbols ++ List.replicate k '=')
  /-- One symbol in the last group. -/
  | lone {symbols : List Char} {k : Nat} (hsymbols : '=' ∉ symbols)
      (hlen : symbols.length % 4 = 1) : Defect al (symbols ++ List.replicate k '=')
  /-- Bits of the last symbol that are set beyond the last byte. -/
  | spare {symbols : List Char} {v k : Nat} (hsymbols : '=' ∉ symbols) (hv : v < 64)
      (hbits : v % 2 ^ spareBits (symbols.length + 1) ≠ 0) :
      Defect al (symbols ++ al.char v :: List.replicate k '=')

/-- Without foreign characters and padding inside, a text is values and padding after them. -/
theorem exists_values (hal : al.Proper) {cs : List Char}
    (hsymbol : ∀ c ∈ cs, c = '=' ∨ ∃ v < 64, c = al.char v)
    (hinside : ∀ before c after, cs = before ++ '=' :: c :: after → c = '=') :
    ∃ (vs : List Nat) (k : Nat), (∀ v ∈ vs, v < 64) ∧
      cs = vs.map al.char ++ List.replicate k '=' := by
  induction cs with
  | nil => exact ⟨[], 0, by simp, rfl⟩
  | cons c r ih =>
    obtain ⟨hc, hr⟩ := List.forall_mem_cons.1 hsymbol
    obtain ⟨vs, k, hvs, rfl⟩ := ih hr fun before d after h =>
      hinside (c :: before) d after (congrArg (c :: ·) h)
    rcases hc with rfl | ⟨v, hv, rfl⟩
    · cases vs with
      | nil => exact ⟨[], k + 1, by simp, by simp [List.replicate_succ]⟩
      | cons v vs =>
        have hpad : al.char v = '=' := hinside [] _ _ rfl
        exact absurd hpad (hal.char_ne_pad (hvs v List.mem_cons_self))
    · exact ⟨v :: vs, k, List.forall_mem_cons.2 ⟨hv, hvs⟩, rfl⟩

/-- A text with a defect spells no bytes. -/
theorem decodeText_ne_ok_of_defect (hal : al.Proper) {s : String} {bs : List UInt8}
    (h : Defect al s.toList) : decodeText al .lenient s ≠ .ok bs := by
  intro hok
  obtain ⟨k, hk, rfl⟩ := (decodeText_eq_ok_iff hal).1 hok
  rw [encodeUnpadded_eq, List.length_map] at hk
  rw [toList_spell] at h
  have hbs := sextets_lt bs
  have hwritten := hal.pad_not_mem hbs
  generalize hcs : (sextets bs).map al.char ++ List.replicate k '=' = cs at h
  cases h with
  | foreign hc hpad hsymbol =>
    rw [← hcs] at hc
    rcases List.mem_append.1 hc with hc | hc
    · obtain ⟨v, hv, rfl⟩ := List.mem_map.1 hc
      exact hsymbol v (hbs v hv) rfl
    · exact hpad (List.eq_of_mem_replicate hc)
  | inside hc => exact hc (eq_pad_of_after_pad hwritten hcs)
  | excess hsymbols hlimit =>
    obtain ⟨rfl, rfl⟩ := symbols_pad_inj hwritten hsymbols hcs
    rw [List.length_map] at hlimit
    exact absurd hk (Nat.not_le.2 hlimit)
  | lone hsymbols hlen =>
    obtain ⟨rfl, -⟩ := symbols_pad_inj hwritten hsymbols hcs
    rw [List.length_map] at hlen
    exact length_sextets_mod bs hlen
  | @spare symbols v j hsymbols hv hbits =>
    have hlast : '=' ∉ symbols ++ [al.char v] := by
      simp [hsymbols, (hal.char_ne_pad hv).symm]
    have hshape : (sextets bs).map al.char ++ List.replicate k '=' =
        (symbols ++ [al.char v]) ++ List.replicate j '=' := by
      rw [hcs]
      simp
    obtain ⟨hvalues, -⟩ := symbols_pad_inj hwritten hlast hshape
    obtain ⟨us, ws, hsplit, rfl, hws⟩ := List.map_eq_append_iff.1 hvalues
    obtain ⟨w, rfl, hw⟩ := List.map_eq_singleton_iff.1 hws
    have hwlt : w < 64 := hbs w (by simp [hsplit])
    obtain rfl := hal.char_inj hwlt hv hw
    have hgetLast : (sextets bs).getLast? = some w := by simp [hsplit]
    have hspare := spare_of_sextets hgetLast
    rw [hsplit, List.length_append, List.length_singleton] at hspare
    rw [List.length_map] at hbits
    exact hbits hspare

/-- A text without a defect spells some bytes. -/
theorem exists_decodeText_of_not_defect (hal : al.Proper) {s : String}
    (h : ¬ Defect al s.toList) : ∃ bs, decodeText al .lenient s = .ok bs := by
  have hsymbol : ∀ c ∈ s.toList, c = '=' ∨ ∃ v < 64, c = al.char v := by
    intro c hc
    by_contra hforeign
    simp only [not_or, not_exists, not_and] at hforeign
    exact h (.foreign hc hforeign.1 hforeign.2)
  have hinside : ∀ before c after, s.toList = before ++ '=' :: c :: after → c = '=' := by
    intro before c after heq
    by_contra hc
    exact h (heq ▸ .inside hc)
  obtain ⟨vs, k, hvs, hs⟩ := exists_values hal hsymbol hinside
  have hpad := hal.pad_not_mem hvs
  rw [hs] at h
  have hlone : vs.length % 4 ≠ 1 := fun hlen => h (.lone hpad (by rwa [List.length_map]))
  have hlimit : k ≤ padLength vs.length := by
    by_contra hk
    exact h (.excess hpad (by rwa [List.length_map, ← Nat.not_le]))
  have hspare : ∀ v, vs.getLast? = some v → v % 2 ^ spareBits vs.length = 0 := by
    intro v hv
    by_contra hbits
    obtain ⟨us, rfl⟩ := List.getLast?_eq_some_iff.1 hv
    rw [List.map_append, List.append_assoc] at h
    refine h (.spare ?_ (hvs v (by simp)) ?_)
    · exact fun hmem => hpad (by simp [List.mem_map.1 hmem])
    · simpa using hbits
  obtain ⟨bs, rfl⟩ := exists_sextets hvs hlone hspare
  refine ⟨bs, (decodeText_eq_ok_iff hal).2 ⟨k, ?_, ?_⟩⟩
  · rwa [encodeUnpadded_eq, List.length_map]
  · rw [← String.toList_inj, toList_spell, hs]

/-- Reading fails exactly on the texts with a defect. -/
theorem decodeText_eq_error_iff (hal : al.Proper) {s : String} :
    (∃ fault, decodeText al .lenient s = .error fault) ↔ Defect al s.toList := by
  constructor
  · rintro ⟨fault, hfault⟩
    by_contra h
    obtain ⟨bs, hbs⟩ := exists_decodeText_of_not_defect hal h
    rw [hbs] at hfault
    contradiction
  · intro h
    cases hread : decodeText al .lenient s with
    | error fault => exact ⟨fault, rfl⟩
    | ok bs => exact absurd hread (decodeText_ne_ok_of_defect hal h)

end DeviceAuth.Base64
