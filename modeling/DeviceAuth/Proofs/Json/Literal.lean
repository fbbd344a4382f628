import DeviceAuth.Proofs.Json.Value
import Mathlib.Algebra.Order.Field.Rat
import Mathlib.Algebra.Order.Ring.Cast
import Mathlib.Data.Rat.Cast.Order

/-!
# DeviceAuth.Proofs.Json.Literal

The spellings of numbers.  A literal is a sign, digits, perhaps a fraction and perhaps an exponent
(RFC 8259, section 6); its value is a rational number.  The text of a literal is read as its number
up to where it ends (`takes_readNumber`), and whatever is read as a number is the text of a literal
(`exists_literal_of_readNumber`).  A reader keeps the value of a literal that is an integer within
64 bits, and makes a double of every other one that is not out of range
(`Literal.number?_eq_int_iff`, `decode_spell_iff`).
-/

namespace DeviceAuth.Json

/-! ## Literals -/

/-- Decimal digits, at least one. -/
structure Digits where
  bytes : List UInt8
  ne_nil : bytes ≠ []
  digits : ∀ b ∈ bytes, isDigit b = true

/-- The sign of an exponent. -/
inductive ExponentSign where
  | none
  | plus
  | minus
  deriving DecidableEq, Repr

/-- The text of a sign. -/
def ExponentSign.text : ExponentSign → List UInt8
  | .none => []
  | .plus => [0x2B]
  | .minus => [0x2D]

/-- The exponent of a literal. -/
structure Exponent where
  mark : UInt8
  sign : ExponentSign
  digits : Digits
  mark_valid : isExponentMark mark = true

/-- The power of ten that an exponent stands for. -/
def Exponent.value (e : Exponent) : Int :=
  if e.sign = .minus then -(digitsValue e.digits.bytes : Int) else digitsValue e.digits.bytes

/-- A number as it is spelled. -/
structure Literal where
  negative : Bool
  whole : Digits
  fraction : Option Digits
  exponent : Option Exponent
  no_leading_zero : whole.bytes.head? = some 0x30 → whole.bytes = [0x30]

namespace Literal

/-- The digits of the fraction. -/
def fractionDigits (l : Literal) : List UInt8 :=
  (l.fraction.map Digits.bytes).getD []

/-- The power of ten of the exponent. -/
def power (l : Literal) : Int :=
  (l.exponent.map Exponent.value).getD 0

/-- The number that a literal spells. -/
def value (l : Literal) : ℚ :=
  (if l.negative then -1 else 1) * digitsValue (l.whole.bytes ++ l.fractionDigits) *
    10 ^ (l.power - l.fractionDigits.length)

/-- The text of the fraction, with its point. -/
def fractionText (l : Literal) : List UInt8 :=
  (l.fraction.map fun f => 0x2E :: f.bytes).getD []

/-- The text of the exponent, with its mark. -/
def exponentText (l : Literal) : List UInt8 :=
  (l.exponent.map fun e => e.mark :: (e.sign.text ++ e.digits.bytes)).getD []

theorem fractionText_append_of_some {l : Literal} {f : Digits} (hf : l.fraction = some f)
    (rest : List UInt8) : l.fractionText ++ rest = 0x2E :: (f.bytes ++ rest) := by
  simp [fractionText, hf]

theorem fractionText_append_of_none {l : Literal} (hf : l.fraction = none) (rest : List UInt8) :
    l.fractionText ++ rest = rest := by
  simp [fractionText, hf]

theorem exponentText_append_of_some {l : Literal} {e : Exponent} (he : l.exponent = some e)
    (rest : List UInt8) :
    l.exponentText ++ rest = e.mark :: (e.sign.text ++ (e.digits.bytes ++ rest)) := by
  simp [exponentText, he]

theorem exponentText_append_of_none {l : Literal} (he : l.exponent = none) (rest : List UInt8) :
    l.exponentText ++ rest = rest := by
  simp [exponentText, he]

/-- The text of a literal after its sign. -/
def unsigned (l : Literal) : List UInt8 :=
  l.whole.bytes ++ (l.fractionText ++ l.exponentText)

/-- The text of a literal. -/
def spell (l : Literal) : List UInt8 :=
  if l.negative then 0x2D :: l.unsigned else l.unsigned

/-- A literal that is kept exact: an integer within 64 bits, signed or not, that is written without
a fraction and an exponent, and not as a negative zero. -/
structure Exact (l : Literal) : Prop where
  no_fraction : l.fraction = none
  no_exponent : l.exponent = none
  lower : -(2 ^ 63) ≤ l.value
  upper : l.value < 2 ^ 64
  no_negative_zero : l.negative = true → l.value ≠ 0

end Literal

/-! ## What is read from a literal -/

/-- The double for a significand and an exponent. -/
def double? (negative : Bool) (significand : Nat) (exponent : Int) : Option Number :=
  (Binary64.ofDecimal? significand exponent).map fun x => .float ⟨negative, x⟩

/-- The number that an exponent makes of the digits before it. -/
def Exponent.number? (e : Exponent) (negative : Bool) (significand : Nat) (start : Int) :
    Option Number :=
  match exponentOverflow? 0 e.digits.bytes with
  | some _ => if significand ≠ 0 ∧ e.sign ≠ .minus then none else some (.float ⟨negative, 0⟩)
  | none => double? negative significand (start + e.value)

/-- The number that a literal is read as, unless it is out of range. -/
def Literal.number? (l : Literal) : Option Number :=
  let m := (absorb 0 l.whole.bytes).1
  let dropped := l.whole.bytes.length - (absorb 0 l.whole.bytes).2
  match l.fraction with
  | some f =>
    let start : Int := dropped - (absorb m f.bytes).2
    match l.exponent with
    | some e => e.number? l.negative (absorb m f.bytes).1 start
    | none => double? l.negative (absorb m f.bytes).1 start
  | none =>
    match l.exponent with
    | some e => e.number? l.negative m dropped
    | none => if dropped = 0 then some (integerOf l.negative m) else double? l.negative m dropped

/-- A reader gives a number and hands back the rest, or it gives a fault. -/
def Takes (r : Except Fault (Number × List UInt8)) (rest : List UInt8) : Option Number → Prop
  | some x => r = .ok (x, rest)
  | none => ∃ f, r = .error f

/-- Digits are taken up to the first byte that is none. -/
theorem span_digits (ds : Digits) {rest : List UInt8}
    (hrest : ∀ b ∈ rest.head?, isDigit b = false) :
    (ds.bytes ++ rest).takeWhile isDigit = ds.bytes ∧
      (ds.bytes ++ rest).dropWhile isDigit = rest := by
  rw [List.takeWhile_append_of_pos ds.digits, List.dropWhile_append_of_pos ds.digits]
  cases rest with
  | nil => simp
  | cons b r =>
    have hb : isDigit b = false := hrest b rfl
    simp [hb]

/-- A literal ends where what follows is no more of it. -/
structure Literal.Ends (l : Literal) (rest : List UInt8) : Prop where
  digit : ∀ b ∈ rest.head?, isDigit b = false
  mark : l.exponent = none → ∀ b ∈ rest.head?, isExponentMark b = false
  point : l.exponent = none → l.fraction = none → ∀ b ∈ rest.head?, b ≠ 0x2E

/-- What closes a value ends every literal. -/
theorem Literal.ends_of_closed (l : Literal) {rest : List UInt8} (h : Closed rest) :
    l.Ends rest := by
  have hclosed : ∀ b ∈ rest.head?, isDigit b = false ∧ b ≠ 0x2E ∧ isExponentMark b = false := by
    intro b hb
    rcases h b hb with rfl | rfl | rfl <;> decide
  exact ⟨fun b hb => (hclosed b hb).1, fun _ b hb => (hclosed b hb).2.2,
    fun _ _ b hb => (hclosed b hb).2.1⟩

theorem not_isDigit_of_isExponentMark {b : UInt8} (h : isExponentMark b = true) :
    isDigit b = false := by
  rw [isExponentMark, Bool.or_eq_true, beq_iff_eq, beq_iff_eq] at h
  rcases h with rfl | rfl <;> decide

theorem takes_floatOf (negative : Bool) (significand : Nat) (exponent : Int) (rest : List UInt8) :
    Takes (floatOf negative significand exponent rest) rest
      (double? negative significand exponent) := by
  rw [floatOf, double?]
  cases Binary64.ofDecimal? significand exponent with
  | some x => rfl
  | none => exact ⟨_, rfl⟩

/-- A number that ends with its digits is an integer, or a double when digits were dropped. -/
theorem takes_end (negative : Bool) (m dropped : Nat) (rest : List UInt8) :
    Takes (if dropped = 0 then .ok (integerOf negative m, rest)
        else floatOf negative m dropped rest) rest
      (if dropped = 0 then some (integerOf negative m) else double? negative m dropped) := by
  split
  · rfl
  · exact takes_floatOf _ _ _ _

/-- The first byte of digits is one. -/
theorem Digits.exists_cons (ds : Digits) : ∃ b r, ds.bytes = b :: r ∧ isDigit b = true := by
  obtain ⟨b, r, hbr⟩ := List.exists_cons_of_ne_nil ds.ne_nil
  exact ⟨b, r, hbr, ds.digits b (hbr ▸ List.mem_cons_self)⟩

/-- An exponent without a sign is read as one with a plus sign. -/
theorem readExponent_eq_plus (negative : Bool) (significand : Nat) (start : Int) {b : UInt8}
    (hplus : b ≠ 0x2B) (hminus : b ≠ 0x2D) (r : List UInt8) :
    readExponent negative significand start (b :: r) =
      readExponent negative significand start (0x2B :: b :: r) := by
  simp [readExponent, hplus, hminus]

/-- An exponent with a sign is read as the number of it. -/
theorem takes_readExponent_cons (e : Exponent) (negative : Bool) (significand : Nat) (start : Int)
    {c : UInt8} (hc : c = 0x2B ∨ c = 0x2D) (hsign : c = 0x2D ↔ e.sign = .minus)
    {rest : List UInt8} (hrest : ∀ b ∈ rest.head?, isDigit b = false) :
    Takes (readExponent negative significand start (c :: (e.digits.bytes ++ rest))) rest
      (e.number? negative significand start) := by
  obtain ⟨b, r, hbr, hb⟩ := e.digits.exists_cons
  obtain ⟨htake, hdrop⟩ := span_digits e.digits hrest
  have hstart : e.digits.bytes ++ rest = b :: (r ++ rest) := by rw [hbr, List.cons_append]
  have hdown : ((c :: (e.digits.bytes ++ rest)).head? == some 0x2D) =
      decide (e.sign = .minus) := by
    rw [List.head?_cons, Option.some_beq_some, beq_eq_decide, decide_eq_decide]
    exact hsign
  have hskip : ((c :: (e.digits.bytes ++ rest)).head? == some 0x2B ||
      (c :: (e.digits.bytes ++ rest)).head? == some 0x2D) = true := by
    simpa using hc
  rw [readExponent, hskip, if_pos rfl, hdown, List.drop_one, List.tail_cons]
  dsimp only
  rw [htake, hdrop, hstart]
  dsimp only
  rw [if_pos hb, Exponent.number?]
  cases exponentOverflow? 0 e.digits.bytes with
  | some k =>
    by_cases hminus : e.sign = .minus
    · simp [hminus, Takes]
    · by_cases hzero : significand = 0 <;> simp [hminus, hzero, Takes]
  | none =>
    have hvalue : (if decide (e.sign = .minus) = true
        then start - (digitsValue e.digits.bytes : Int)
        else start + digitsValue e.digits.bytes) = start + e.value := by
      rw [Exponent.value]
      by_cases hminus : e.sign = .minus
      · simp [hminus, Int.sub_eq_add_neg]
      · simp [hminus]
    dsimp only
    rw [hvalue]
    exact takes_floatOf negative significand _ rest

/-- The text of an exponent after its mark is read as the number of it. -/
theorem takes_readExponent (e : Exponent) (negative : Bool) (significand : Nat) (start : Int)
    {rest : List UInt8} (hrest : ∀ b ∈ rest.head?, isDigit b = false) :
    Takes (readExponent negative significand start (e.sign.text ++ (e.digits.bytes ++ rest))) rest
      (e.number? negative significand start) := by
  have htakes := fun c (hc : c = 0x2B ∨ c = 0x2D) hsign =>
    takes_readExponent_cons e negative significand start hc hsign hrest
  cases hsign : e.sign with
  | none =>
    obtain ⟨b, r, hbr, hb⟩ := e.digits.exists_cons
    have hplus : b ≠ 0x2B := by rintro rfl; contradiction
    have hminus : b ≠ 0x2D := by rintro rfl; contradiction
    have hstart : e.digits.bytes ++ rest = b :: (r ++ rest) := by rw [hbr, List.cons_append]
    rw [ExponentSign.text, List.nil_append, hstart, readExponent_eq_plus _ _ _ hplus hminus,
      ← hstart]
    exact htakes 0x2B (.inl rfl) (by simp [hsign])
  | plus => exact htakes 0x2B (.inl rfl) (by simp [hsign])
  | minus => exact htakes 0x2D (.inr rfl) (by simp [hsign])

/-- What follows a fraction is no digit. -/
theorem Literal.not_isDigit_exponentText (l : Literal) {rest : List UInt8} (hrest : l.Ends rest) :
    ∀ b ∈ (l.exponentText ++ rest).head?, isDigit b = false := by
  cases he : l.exponent with
  | none =>
    rw [exponentText_append_of_none he]
    exact hrest.digit
  | some e =>
    rw [exponentText_append_of_some he]
    intro b hb
    rw [← Option.some.inj hb]
    exact not_isDigit_of_isExponentMark e.mark_valid

/-- Behind the digits of a fraction an exponent is read, or the number ends. -/
theorem takes_readFraction (l : Literal) (f : Digits) (m : Nat) (start : Int) {rest : List UInt8}
    (hrest : l.Ends rest) :
    Takes (readFraction l.negative m start (f.bytes ++ (l.exponentText ++ rest))) rest
      (match l.exponent with
        | some e => e.number? l.negative (absorb m f.bytes).1 (start - (absorb m f.bytes).2)
        | none => double? l.negative (absorb m f.bytes).1 (start - (absorb m f.bytes).2)) := by
  obtain ⟨htake, hdrop⟩ := span_digits f (l.not_isDigit_exponentText hrest)
  rw [readFraction, htake, hdrop, if_neg f.ne_nil]
  cases he : l.exponent with
  | some e =>
    rw [Literal.exponentText_append_of_some he]
    dsimp only
    rw [if_pos e.mark_valid]
    exact takes_readExponent e _ _ _ hrest.digit
  | none =>
    rw [Literal.exponentText_append_of_none he]
    cases rest with
    | nil => exact takes_floatOf _ _ _ _
    | cons b r =>
      have hmark : isExponentMark b = false := hrest.mark he b rfl
      dsimp only
      rw [if_neg (by rw [hmark]; decide)]
      exact takes_floatOf _ _ _ _

/-- What follows the whole part of a literal is no digit. -/
theorem Literal.not_isDigit_fractionText (l : Literal) {rest : List UInt8} (hrest : l.Ends rest) :
    ∀ b ∈ (l.fractionText ++ (l.exponentText ++ rest)).head?, isDigit b = false := by
  cases hf : l.fraction with
  | none =>
    rw [fractionText_append_of_none hf]
    exact l.not_isDigit_exponentText hrest
  | some f =>
    rw [fractionText_append_of_some hf]
    intro b hb
    rw [← Option.some.inj hb]
    decide

/-- The text of a literal after its sign is read as the number of the literal. -/
theorem takes_readNumber (l : Literal) {rest : List UInt8} (hrest : l.Ends rest) :
    Takes (readNumber l.negative (l.unsigned ++ rest)) rest l.number? := by
  obtain ⟨b, r, hbr, hb⟩ := l.whole.exists_cons
  have hnext := l.not_isDigit_fractionText hrest
  obtain ⟨htake, hdrop⟩ := span_digits l.whole hnext
  have hlead : ¬ (b = 0x30 ∧
      (((r ++ (l.fractionText ++ (l.exponentText ++ rest))).head?.map isDigit).getD false =
        true)) := by
    rintro ⟨rfl, hd⟩
    have hr : r = [] := by
      have hwhole := l.no_leading_zero (by rw [hbr]; rfl)
      rw [hbr] at hwhole
      exact (List.cons.inj hwhole).2
    rw [hr, List.nil_append] at hd
    cases hhead : (l.fractionText ++ (l.exponentText ++ rest)).head? with
    | none => simp [hhead] at hd
    | some c => simp [hhead, hnext c hhead] at hd
  rw [Literal.unsigned, List.append_assoc, List.append_assoc]
  rw [hbr, List.cons_append] at htake hdrop ⊢
  simp only [readNumber, hb, htake, hdrop]
  rw [if_neg (by decide), if_neg hlead, Literal.number?, hbr]
  cases hf : l.fraction with
  | some f =>
    rw [Literal.fractionText_append_of_some hf]
    dsimp only
    rw [if_pos rfl]
    exact takes_readFraction l f _ _ hrest
  | none =>
    rw [Literal.fractionText_append_of_none hf]
    cases he : l.exponent with
    | some e =>
      have hdot : e.mark ≠ 0x2E := by
        intro hmark
        have hvalid := e.mark_valid
        rw [hmark] at hvalid
        contradiction
      rw [Literal.exponentText_append_of_some he]
      dsimp only
      rw [if_neg hdot, if_pos e.mark_valid]
      exact takes_readExponent e _ _ _ hrest.digit
    | none =>
      rw [Literal.exponentText_append_of_none he]
      cases rest with
      | nil => exact takes_end _ _ _ _
      | cons c t =>
        have hdot : c ≠ 0x2E := hrest.point he hf c rfl
        have hmark : isExponentMark c = false := hrest.mark he c rfl
        dsimp only
        rw [if_neg hdot, if_neg (by rw [hmark]; decide)]
        exact takes_end _ _ _ _

/-! ## Exact numbers -/

/-- Of digits whose number is beyond 64 bits some are left. -/
theorem absorb_snd_lt {m : Nat} (hm : m < significandLimit) {ds : List UInt8}
    (h : significandLimit ≤ ds.foldl (fun n d => n * 10 + digitValue d) m) :
    (absorb m ds).2 < ds.length := by
  induction ds generalizing m with
  | nil => exact absurd hm (Nat.not_lt.2 h)
  | cons d ds ih =>
    rw [absorb]
    dsimp only
    split
    · next hlt => exact Nat.succ_lt_succ (ih hlt h)
    · exact Nat.succ_pos _

theorem double?_ne_int (negative : Bool) (significand : Nat) (exponent n : Int) :
    double? negative significand exponent ≠ some (.int n) := by
  rw [double?]
  cases Binary64.ofDecimal? significand exponent <;> simp

theorem Exponent.number?_ne_int (e : Exponent) (negative : Bool) (significand : Nat)
    (start n : Int) : e.number? negative significand start ≠ some (.int n) := by
  rw [Exponent.number?]
  cases exponentOverflow? 0 e.digits.bytes with
  | some k => dsimp only; split <;> simp
  | none => exact double?_ne_int _ _ _ _

/-- The value of a literal without a fraction and an exponent is the integer that it spells. -/
theorem Literal.value_eq_of_whole {l : Literal} (hf : l.fraction = none) (he : l.exponent = none) :
    l.value = ((if l.negative then -(digitsValue l.whole.bytes : Int)
      else digitsValue l.whole.bytes : Int) : ℚ) := by
  cases hneg : l.negative <;> simp [value, fractionDigits, power, hf, he, hneg]

theorem neg_two_pow_le_cast {k : Int} : -(2 ^ 63) ≤ (k : ℚ) ↔ -(2 ^ 63) ≤ k := by
  rw [← Int.cast_le (R := ℚ)]
  push_cast
  rfl

theorem cast_lt_two_pow {k : Int} : (k : ℚ) < 2 ^ 64 ↔ k < 2 ^ 64 := by
  rw [← Int.cast_lt (R := ℚ)]
  push_cast
  rfl

/-- Such a literal is exact when the integer is within 64 bits and no negative zero. -/
theorem Literal.exact_iff_of_whole {l : Literal} (hf : l.fraction = none)
    (he : l.exponent = none) : l.Exact ↔ digitsValue l.whole.bytes < significandLimit ∧
      (l.negative = true → digitsValue l.whole.bytes ≠ 0 ∧ digitsValue l.whole.bytes ≤ 2 ^ 63) := by
  have hexact : l.Exact ↔
      (-(2 ^ 63) ≤ l.value ∧ l.value < 2 ^ 64) ∧ (l.negative = true → l.value ≠ 0) :=
    ⟨fun h => ⟨⟨h.lower, h.upper⟩, h.no_negative_zero⟩, fun h => ⟨hf, he, h.1.1, h.1.2, h.2⟩⟩
  rw [hexact, value_eq_of_whole hf he, neg_two_pow_le_cast, cast_lt_two_pow, Ne,
    Int.cast_eq_zero]
  unfold significandLimit
  cases l.negative with
  | false => simp
  | true =>
    simp only [if_true, forall_const, ne_eq]
    omega

/-- An integer without a sign stays one; with a minus sign it has to be a number from `-2 ^ 63` to
`-1`. -/
theorem integerOf_eq_int_iff {negative : Bool} {m : Nat} {n : Int} :
    integerOf negative m = .int n ↔
      n = (if negative then -(m : Int) else m) ∧ (negative = true → m ≠ 0 ∧ m ≤ 2 ^ 63) := by
  cases negative with
  | false => simp [integerOf, eq_comm]
  | true =>
    rw [integerOf, if_pos rfl, Text.int64Max]
    by_cases hm : m = 0 ∨ (9223372036854775807 : Int) + 1 < m
    · rw [if_pos hm]
      refine iff_of_false Number.noConfusion ?_
      rintro ⟨-, hfit⟩
      have := hfit rfl
      omega
    · have hfit : m ≠ 0 ∧ m ≤ 2 ^ 63 := by omega
      rw [if_neg hm, Number.int.injEq, if_pos rfl]
      exact ⟨fun h => ⟨h.symm, fun _ => hfit⟩, fun h => h.1.symm⟩

/-- A literal is read as an integer exactly when it is one within 64 bits that is written without a
fraction and an exponent, and is no negative zero; the integer is its value. -/
theorem Literal.number?_eq_int_iff {l : Literal} {n : Int} :
    l.number? = some (.int n) ↔ l.Exact ∧ (n : ℚ) = l.value := by
  cases hf : l.fraction with
  | some f =>
    have hne : ¬ l.Exact := fun h => by simpa [hf] using h.no_fraction
    have hnum : l.number? ≠ some (.int n) := by
      rw [number?, hf]
      cases l.exponent with
      | some e => exact e.number?_ne_int _ _ _ _
      | none => exact double?_ne_int _ _ _ _
    exact iff_of_false hnum fun h => hne h.1
  | none =>
    cases he : l.exponent with
    | some e =>
      have hne : ¬ l.Exact := fun h => by simpa [he] using h.no_exponent
      have hnum : l.number? ≠ some (.int n) := by
        rw [number?, hf, he]
        exact e.number?_ne_int _ _ _ _
      exact iff_of_false hnum fun h => hne h.1
    | none =>
      rw [number?, hf, he, exact_iff_of_whole hf he, value_eq_of_whole hf he, Int.cast_inj]
      dsimp only
      rcases Nat.lt_or_ge (digitsValue l.whole.bytes) significandLimit with hlt | hge
      · have habsorb : absorb 0 l.whole.bytes =
            (digitsValue l.whole.bytes, l.whole.bytes.length) := absorb_eq hlt
        rw [habsorb, if_pos (Nat.sub_self _), Option.some.injEq, integerOf_eq_int_iff]
        simp [hlt, and_comm]
      · have hdropped : l.whole.bytes.length - (absorb 0 l.whole.bytes).2 ≠ 0 :=
          Nat.sub_ne_zero_of_lt (absorb_snd_lt (by decide) hge)
        rw [if_neg hdropped]
        exact iff_of_false (double?_ne_int _ _ _ _) fun h => Nat.not_lt.2 hge h.1.1

/-- What is read from a literal is an integer exactly when the literal is kept exact. -/
theorem Literal.exact_of_number?_int {l : Literal} {x : Number} (h : l.number? = some x) :
    (∃ n, x = .int n) ↔ l.Exact := by
  constructor
  · rintro ⟨n, rfl⟩
    exact (number?_eq_int_iff.1 h).1
  · intro hexact
    have hvalue := value_eq_of_whole hexact.no_fraction hexact.no_exponent
    have hint := number?_eq_int_iff.2 ⟨hexact, hvalue.symm⟩
    exact ⟨_, Option.some.inj (h.symm.trans hint)⟩

/-! ## The literal that was read -/

/-- The digits that a text starts with. -/
def Digits.ofText (s : List UInt8) (h : s.takeWhile isDigit ≠ []) : Digits where
  bytes := s.takeWhile isDigit
  ne_nil := h
  digits _ hb := List.mem_takeWhile_imp hb

theorem takeWhile_isDigit_ne_nil {b : UInt8} (hb : isDigit b = true) (r : List UInt8) :
    (b :: r).takeWhile isDigit ≠ [] := by
  rw [List.takeWhile_cons_of_pos hb]
  exact List.cons_ne_nil _ _

/-- No digit follows the digits that a text starts with. -/
theorem not_isDigit_dropWhile (s : List UInt8) :
    ∀ b ∈ (s.dropWhile isDigit).head?, isDigit b = false := by
  induction s with
  | nil =>
    intro b hb
    contradiction
  | cons c s ih =>
    cases hc : isDigit c with
    | true =>
      rw [List.dropWhile_cons_of_pos hc]
      exact ih
    | false =>
      rw [List.dropWhile_cons_of_neg (by rw [hc]; decide)]
      intro b hb
      rw [← Option.some.inj hb]
      exact hc

theorem exists_sign (s : List UInt8) : ∃ (sign : ExponentSign) (t : List UInt8),
    s = sign.text ++ t ∧
      (if s.head? == some 0x2B || s.head? == some 0x2D then s.drop 1 else s) = t := by
  cases s with
  | nil => exact ⟨.none, [], rfl, rfl⟩
  | cons b r =>
    by_cases hplus : b = 0x2B
    · subst hplus
      exact ⟨.plus, r, rfl, rfl⟩
    · by_cases hminus : b = 0x2D
      · subst hminus
        exact ⟨.minus, r, rfl, rfl⟩
      · exact ⟨.none, b :: r, rfl, by simp [hplus, hminus]⟩

/-- What is read behind an exponent mark is the text of an exponent. -/
theorem exists_exponent {negative : Bool} {significand : Nat} {start : Int} {s : List UInt8}
    {p : Number × List UInt8} (h : readExponent negative significand start s = .ok p) {c : UInt8}
    (hc : isExponentMark c = true) : ∃ (e : Exponent) (rest : List UInt8), e.mark = c ∧
      s = e.sign.text ++ (e.digits.bytes ++ rest) ∧ ∀ b ∈ rest.head?, isDigit b = false := by
  obtain ⟨sign, t, rfl, ht⟩ := exists_sign s
  rw [readExponent, ht] at h
  cases t with
  | nil => contradiction
  | cons b r =>
    cases hb : isDigit b with
    | true =>
      refine ⟨⟨c, sign, .ofText (b :: r) (takeWhile_isDigit_ne_nil hb r), hc⟩, _, rfl, ?_,
        not_isDigit_dropWhile (b :: r)⟩
      rw [Digits.ofText, List.takeWhile_append_dropWhile]
    | false =>
      dsimp only at h
      rw [if_neg (by rw [hb]; decide)] at h
      contradiction

/-- Behind its digits a number that is read has the exponent of a literal, or ends. -/
theorem exists_ending (negative : Bool) {w : Digits}
    (hw : w.bytes.head? = some 0x30 → w.bytes = [0x30]) (f : Option Digits) {s : List UInt8}
    (hdigit : ∀ b ∈ s.head?, isDigit b = false) (hpoint : f = none → ∀ b ∈ s.head?, b ≠ 0x2E)
    (hmark : ∀ c t, s = c :: t → isExponentMark c = true →
      ∃ m start p, readExponent negative m start t = .ok p) :
    ∃ (l : Literal) (rest : List UInt8), l.negative = negative ∧ l.whole = w ∧ l.fraction = f ∧
      s = l.exponentText ++ rest ∧ l.Ends rest := by
  by_cases hend : ∃ c t, s = c :: t ∧ isExponentMark c = true
  · obtain ⟨c, t, rfl, hc⟩ := hend
    obtain ⟨m, start, p, hread⟩ := hmark c t rfl hc
    obtain ⟨e, rest, hec, rfl, hrest⟩ := exists_exponent hread hc
    refine ⟨⟨negative, w, f, some e, hw⟩, rest, rfl, rfl, rfl, ?_, hrest, ?_, ?_⟩
    · rw [Literal.exponentText_append_of_some rfl, hec]
    · exact fun hnone => absurd hnone (Option.some_ne_none e)
    · exact fun hnone => absurd hnone (Option.some_ne_none e)
  · refine ⟨⟨negative, w, f, none, hw⟩, s, rfl, rfl, rfl, rfl, hdigit, ?_, fun _ => hpoint⟩
    intro _ b hb
    cases s with
    | nil => exact absurd hb (Option.not_mem_none b)
    | cons c t =>
      rw [← Option.some.inj hb]
      cases hc : isExponentMark c with
      | true => exact absurd ⟨c, t, rfl, hc⟩ hend
      | false => rfl

/-- What is read behind a point is the text of a literal behind it. -/
theorem exists_fraction {negative : Bool} {m : Nat} {start : Int} {s : List UInt8}
    {p : Number × List UInt8} (h : readFraction negative m start s = .ok p) {w : Digits}
    (hw : w.bytes.head? = some 0x30 → w.bytes = [0x30]) :
    ∃ (l : Literal) (f : Digits) (rest : List UInt8), l.negative = negative ∧ l.whole = w ∧
      l.fraction = some f ∧ s = f.bytes ++ (l.exponentText ++ rest) ∧ l.Ends rest := by
  rw [readFraction] at h
  by_cases hds : s.takeWhile isDigit = []
  · rw [if_pos hds] at h
    split at h <;> contradiction
  · rw [if_neg hds] at h
    obtain ⟨l, rest, hnegative, hwhole, hf, htext, hends⟩ :=
      exists_ending negative hw (some (.ofText s hds)) (not_isDigit_dropWhile s)
        (fun hnone => absurd hnone (Option.some_ne_none _)) (by
          intro c t hct hc
          rw [hct] at h
          dsimp only at h
          rw [if_pos hc] at h
          exact ⟨_, _, _, h⟩)
    refine ⟨l, _, rest, hnegative, hwhole, hf, ?_, hends⟩
    rw [← htext, Digits.ofText, List.takeWhile_append_dropWhile]

/-- Digits that pass the test for a leading zero have none. -/
theorem no_leading_zero_takeWhile {b : UInt8} {r : List UInt8}
    (h : ¬ (b = 0x30 ∧ (r.head?.map isDigit).getD false = true)) :
    ((b :: r).takeWhile isDigit).head? = some 0x30 → (b :: r).takeWhile isDigit = [0x30] := by
  intro hhead
  have hb : b = 0x30 := by
    cases hdigit : isDigit b with
    | true =>
      rw [List.takeWhile_cons_of_pos hdigit] at hhead
      exact Option.some.inj hhead
    | false =>
      rw [List.takeWhile_cons_of_neg (by rw [hdigit]; decide)] at hhead
      contradiction
  subst hb
  rw [List.takeWhile_cons_of_pos (by decide)]
  cases r with
  | nil => rfl
  | cons c t =>
    have hc : ¬ isDigit c = true := fun hc => h ⟨rfl, by simpa using hc⟩
    rw [List.takeWhile_cons_of_neg hc]

/-- What is read as a number is the text of a literal. -/
theorem exists_literal {negative : Bool} {s : List UInt8} {p : Number × List UInt8}
    (h : readNumber negative s = .ok p) : ∃ (l : Literal) (rest : List UInt8),
      l.negative = negative ∧ s = l.unsigned ++ rest ∧ l.Ends rest := by
  unfold readNumber at h
  split at h
  · contradiction
  · next b r =>
    dsimp only at h
    split at h
    · contradiction
    · next hb =>
      rw [Bool.not_eq_true, Bool.not_eq_false'] at hb
      split at h
      · contradiction
      · next hlead =>
        have hds := takeWhile_isDigit_ne_nil hb r
        have hw : (Digits.ofText (b :: r) hds).bytes.head? = some 0x30 →
            (Digits.ofText (b :: r) hds).bytes = [0x30] := no_leading_zero_takeWhile hlead
        have hs : b :: r = (Digits.ofText (b :: r) hds).bytes ++ (b :: r).dropWhile isDigit :=
          List.takeWhile_append_dropWhile.symm
        by_cases hpoint : ((b :: r).dropWhile isDigit).head? = some 0x2E
        · obtain ⟨t, ht⟩ := List.head?_eq_some_iff.1 hpoint
          rw [ht] at h
          dsimp only at h
          rw [if_pos rfl] at h
          obtain ⟨l, f, rest, hnegative, hwhole, hf, htext, hends⟩ := exists_fraction h hw
          refine ⟨l, rest, hnegative, ?_, hends⟩
          rw [hs, ht, htext, Literal.unsigned, hwhole, List.append_assoc, List.append_assoc,
            Literal.fractionText_append_of_some hf]
        · obtain ⟨l, rest, hnegative, hwhole, hf, htext, hends⟩ :=
            exists_ending negative hw none (not_isDigit_dropWhile (b :: r))
              (fun _ c hc hdot => hpoint (hdot ▸ hc)) (by
                intro c t hct hc
                rw [hct] at h hpoint
                dsimp only at h
                rw [if_neg (fun hdot => hpoint (by rw [hdot, List.head?_cons])), if_pos hc] at h
                exact ⟨_, _, _, h⟩)
          refine ⟨l, rest, hnegative, ?_, hends⟩
          rw [hs, htext, Literal.unsigned, hwhole, List.append_assoc, List.append_assoc,
            Literal.fractionText_append_of_none hf]

/-- A number that is read is that of a literal, the text of which was taken. -/
theorem exists_literal_of_readNumber {negative : Bool} {s rest : List UInt8} {x : Number}
    (h : readNumber negative s = .ok (x, rest)) :
    ∃ l : Literal, l.negative = negative ∧ s = l.unsigned ++ rest ∧ l.number? = some x := by
  obtain ⟨l, rest', rfl, rfl, hends⟩ := exists_literal h
  have htakes := takes_readNumber l hends
  cases hnumber : l.number? with
  | none =>
    rw [hnumber, Takes, h] at htakes
    obtain ⟨f, hf⟩ := htakes
    contradiction
  | some y =>
    rw [hnumber, Takes, h, Except.ok.injEq, Prod.mk.injEq] at htakes
    obtain ⟨rfl, rfl⟩ := htakes
    exact ⟨l, rfl, rfl, hnumber⟩

/-- An integer that is read from a literal lies within 64 bits. -/
theorem Literal.bounds_of_number? {l : Literal} {n : Int} (h : l.number? = some (.int n)) :
    (Number.int n).Exact := by
  obtain ⟨hexact, hvalue⟩ := number?_eq_int_iff.1 h
  have hlower := hexact.lower
  have hupper := hexact.upper
  rw [← hvalue] at hlower hupper
  exact ⟨neg_two_pow_le_cast.1 hlower, cast_lt_two_pow.1 hupper⟩

/-! ## Texts -/

theorem blank_lt_of_isDigit {b : UInt8} (h : isDigit b = true) : 0x20 < b := by
  rw [isDigit, Bool.and_eq_true, decide_eq_true_eq] at h
  exact UInt8.lt_of_lt_of_le (by decide) h.1

theorem Literal.unsigned_start (l : Literal) :
    ∃ b r, l.unsigned = b :: r ∧ isDigit b = true := by
  obtain ⟨b, r, hbr, hb⟩ := l.whole.exists_cons
  exact ⟨b, r ++ (l.fractionText ++ l.exponentText), by rw [unsigned, hbr, List.cons_append], hb⟩

/-- What begins a literal passes for the beginning of a value. -/
theorem Literal.spell_start (l : Literal) : ∃ b r, l.spell = b :: r ∧ 0x20 < b ∧ b ≠ 0x5D := by
  rw [spell]
  split
  · exact ⟨0x2D, _, rfl, by decide, by decide⟩
  · obtain ⟨b, r, hbr, hb⟩ := l.unsigned_start
    refine ⟨b, r, hbr, blank_lt_of_isDigit hb, ?_⟩
    rintro rfl
    contradiction

/-- A value that begins as a literal does is read as a number. -/
theorem readValue_spell (d : Nat) (l : Literal) (rest : List UInt8) :
    readValue d (l.spell ++ rest) =
      mapRead .number (readNumber l.negative (l.unsigned ++ rest)) := by
  obtain ⟨inner, hinner⟩ := exists_readValue_eq d
  rw [hinner, Literal.spell]
  cases l.negative with
  | true =>
    rw [if_pos rfl, List.cons_append, readWith, skipBlank_cons (by decide)]
    rfl
  | false =>
    obtain ⟨b, r, hbr, hb⟩ := l.unsigned_start
    rw [if_neg (by decide), hbr, List.cons_append, readWith_digit inner hb]

/-- The text of a literal that is not out of range is read as its number. -/
theorem reads_spell (d : Nat) {l : Literal} {x : Number} (h : l.number? = some x) :
    Reads (readValue d) l.spell (.number x) where
  start := l.spell_start
  read_append rest hrest := by
    have htakes := takes_readNumber l (l.ends_of_closed hrest)
    rw [h, Takes] at htakes
    rw [readValue_spell, htakes]
    rfl

/-- A literal is a JSON text unless it is out of range, and then it is that of its number. -/
theorem decode_spell_iff {l : Literal} {v : Json} :
    decode l.spell = .ok v ↔ ∃ x, l.number? = some x ∧ v = .number x := by
  cases hnumber : l.number? with
  | some x =>
    rw [decode_of_reads (reads_spell maxDepth hnumber), Except.ok.injEq]
    simp [eq_comm]
  | none =>
    have htakes := takes_readNumber l (l.ends_of_closed closed_nil)
    rw [hnumber, List.append_nil] at htakes
    obtain ⟨f, hf⟩ := htakes
    have hread := readValue_spell maxDepth l []
    rw [List.append_nil, List.append_nil, hf] at hread
    rw [decode, decodeWithin, readText, hread]
    simp [mapRead, Except.mapError]

/-- A literal is read by every level alike. -/
theorem decode_of_reads_spell {d : Nat} {l : Literal} {v : Json}
    (h : Reads (readValue d) l.spell v) : decode l.spell = .ok v := by
  have hread := h.read_append [] closed_nil
  rw [readValue_spell, ← readValue_spell maxDepth, List.append_nil] at hread
  rw [decode, decodeWithin, readText, hread]
  rfl

end DeviceAuth.Json
