/-!
# DeviceAuth.Bytes

Byte-list plumbing shared by the codecs: big-endian numbers of a given width, hexadecimal text, and
lists cut into pieces.  Everything is a list of bytes, so that the laws are list inductions.
-/

namespace DeviceAuth

/-! ## Big-endian numbers -/

/-- The number whose base-256 digits, most significant first, are `bs`. -/
def beNat (bs : List UInt8) : Nat :=
  bs.foldl (fun n b => n * 256 + b.toNat) 0

/-- The `k` low base-256 digits of `n`, most significant first. -/
def beBytes : Nat → Nat → List UInt8
  | 0, _ => []
  | k + 1, n => beBytes k (n / 256) ++ [UInt8.ofNat n]

/-- The number of base-256 digits of `n`; zero has none. -/
def byteWidth (n : Nat) : Nat :=
  if n = 0 then 0 else n.log2 / 8 + 1

@[simp]
theorem beNat_nil : beNat [] = 0 := rfl

theorem beNat_append_singleton (bs : List UInt8) (b : UInt8) :
    beNat (bs ++ [b]) = beNat bs * 256 + b.toNat := by
  simp [beNat, List.foldl_append]

@[simp]
theorem length_beBytes (k n : Nat) : (beBytes k n).length = k := by
  induction k generalizing n with
  | zero => rfl
  | succ k ih => simp [beBytes, ih]

/-! ## Hexadecimal text -/

/-- The lower-case hexadecimal digit of a number below 16. -/
def hexDigit (n : Nat) : Char :=
  if n < 10 then Char.ofNat (48 + n) else Char.ofNat (87 + n)

/-- The value of a hexadecimal digit in either case. -/
def hexValue? (c : Char) : Option Nat :=
  if '0' ≤ c ∧ c ≤ '9' then some (c.toNat - 48)
  else if 'a' ≤ c ∧ c ≤ 'f' then some (c.toNat - 87)
  else if 'A' ≤ c ∧ c ≤ 'F' then some (c.toNat - 55)
  else none

/-- Two lower-case hexadecimal digits per byte. -/
def encodeHex (bs : List UInt8) : String :=
  .ofList (bs.flatMap fun b => [hexDigit (b.toNat / 16), hexDigit (b.toNat % 16)])

/-- Reads pairs of hexadecimal digits; an odd or foreign character is refused. -/
def decodeHex? : List Char → Option (List UInt8)
  | [] => some []
  | a :: b :: r =>
    match hexValue? a, hexValue? b, decodeHex? r with
    | some x, some y, some bs => some (UInt8.ofNat (x * 16 + y) :: bs)
    | _, _, _ => none
  | [_] => none

/-- The hexadecimal digits of a number, without leading zeros. -/
def hexOfNat (n : Nat) : String :=
  .ofList (Nat.toDigits 16 n)

/-! ## Pieces -/

/-- The consecutive pieces of `k` elements of a list; the last one may be shorter. -/
def splitEvery {α : Type} (k : Nat) (xs : List α) : List (List α) :=
  if _h : k = 0 ∨ xs = [] then [] else xs.take k :: splitEvery k (xs.drop k)
termination_by xs.length
decreasing_by
  have : 0 < xs.length := List.length_pos_iff.2 (by simp_all)
  simp only [List.length_drop]
  omega

end DeviceAuth
