import DeviceAuth.Bytes
import Mathlib.Algebra.Order.Ring.Int
import Mathlib.Data.List.Induction
import Mathlib.Tactic.Ring

/-!
# DeviceAuth.Proofs.Bytes

Plumbing that the laws of the codecs share: statements about all bytes, big-endian numbers read
back, and results that are chained.  Everything here is proved once, so that the codecs never
redo it.
-/

namespace DeviceAuth

/-! ## Bytes -/

/-- A statement about bytes is checked on the 256 of them. -/
theorem forall_byte {p : UInt8 → Prop} (h : ∀ n < 256, p (UInt8.ofNat n)) (b : UInt8) : p b := by
  have hb := h b.toNat b.toNat_lt
  rwa [UInt8.ofNat_toNat] at hb

/-- A byte is what a number ends in that has it as its last digit. -/
theorem ofNat_mul_add (n : Nat) (b : UInt8) : UInt8.ofNat (n * 256 + b.toNat) = b := by
  have hb : b.toNat < 256 := b.toNat_lt
  rw [← UInt8.toNat_inj, UInt8.toNat_ofNat']
  omega

/-! ## Big-endian numbers -/

/-- A number is below `256` to the number of its digits. -/
theorem beNat_lt (bs : List UInt8) : beNat bs < 256 ^ bs.length := by
  induction bs using List.reverseRecOn with
  | nil => simp
  | append_singleton bs b ih =>
    have hb : b.toNat < 256 := b.toNat_lt
    rw [beNat_append_singleton, List.length_append, List.length_singleton, Nat.pow_succ]
    omega

/-- Digits read as a number and written again are the same digits. -/
theorem beBytes_beNat (bs : List UInt8) : beBytes bs.length (beNat bs) = bs := by
  induction bs using List.reverseRecOn with
  | nil => rfl
  | append_singleton bs b ih =>
    have hb : b.toNat < 256 := b.toNat_lt
    have hdiv : (beNat bs * 256 + b.toNat) / 256 = beNat bs := by omega
    rw [List.length_append, List.length_singleton, beNat_append_singleton, beBytes, hdiv, ih,
      ofNat_mul_add]

/-- Reading back `k` digits gives the number modulo `256 ^ k`. -/
theorem beNat_beBytes (k n : Nat) : beNat (beBytes k n) = n % 256 ^ k := by
  induction k generalizing n with
  | zero => simp [beBytes, Nat.mod_one]
  | succ k ih =>
    have h := Nat.mod_mul (x := n) (a := 256) (b := 256 ^ k)
    rw [beBytes, beNat_append_singleton, ih, UInt8.toNat_ofNat']
    rw [show 256 ^ (k + 1) = 256 * 256 ^ k by rw [Nat.pow_succ, Nat.mul_comm], h]
    omega

/-- A number that fits its digits is read back. -/
theorem beNat_beBytes_of_lt {k n : Nat} (h : n < 256 ^ k) : beNat (beBytes k n) = n := by
  rw [beNat_beBytes, Nat.mod_eq_of_lt h]

/-- A leading zero does not change a number. -/
theorem beNat_zero_cons (bs : List UInt8) : beNat (0 :: bs) = beNat bs := rfl

@[simp]
theorem beNat_singleton (b : UInt8) : beNat [b] = b.toNat := by
  simp [beNat]

/-- The first digit counts for as many digits as follow it. -/
theorem beNat_cons (b : UInt8) (bs : List UInt8) :
    beNat (b :: bs) = b.toNat * 256 ^ bs.length + beNat bs := by
  induction bs using List.reverseRecOn with
  | nil => simp
  | append_singleton bs c ih =>
    rw [← List.cons_append, beNat_append_singleton, beNat_append_singleton, ih, List.length_append,
      List.length_singleton, Nat.pow_succ]
    ring

/-! ## The width of a number -/

theorem lt_pow_byteWidth (n : Nat) : n < 256 ^ byteWidth n := by
  unfold byteWidth
  by_cases hn : n = 0
  · simp [hn]
  · rw [if_neg hn]
    calc
      n < 2 ^ (n.log2 + 1) := Nat.lt_log2_self
      _ ≤ 2 ^ (8 * (n.log2 / 8 + 1)) := Nat.pow_le_pow_right (by decide) (by omega)
      _ = 256 ^ (n.log2 / 8 + 1) := by rw [Nat.pow_mul]

/-- The first digit of a number is not zero. -/
theorem pow_byteWidth_le {n : Nat} (hn : n ≠ 0) : 256 ^ (byteWidth n - 1) ≤ n := by
  rw [byteWidth, if_neg hn, Nat.add_sub_cancel]
  calc
    256 ^ (n.log2 / 8) = 2 ^ (8 * (n.log2 / 8)) := by rw [Nat.pow_mul]
    _ ≤ 2 ^ n.log2 := Nat.pow_le_pow_right (by decide) (by omega)
    _ ≤ n := Nat.log2_self_le hn

theorem byteWidth_le_iff {n k : Nat} : byteWidth n ≤ k ↔ n < 256 ^ k := by
  constructor
  · intro h
    exact lt_of_lt_of_le (lt_pow_byteWidth n) (Nat.pow_le_pow_right (by decide) h)
  · intro h
    by_contra hlt
    have hn : n ≠ 0 := by
      intro hzero
      simp [hzero, byteWidth] at hlt
    have hle : 256 ^ k ≤ 256 ^ (byteWidth n - 1) :=
      Nat.pow_le_pow_right (by decide) (by omega)
    have hfirst := pow_byteWidth_le hn
    omega

/-- Digits without a leading zero are as many as their number has. -/
theorem byteWidth_beNat {bs : List UInt8} (h : bs.head? ≠ some 0) :
    byteWidth (beNat bs) = bs.length := by
  refine Nat.le_antisymm (byteWidth_le_iff.2 (beNat_lt bs)) ?_
  cases bs with
  | nil => exact Nat.zero_le _
  | cons b r =>
    have hb : 1 ≤ b.toNat := by
      rw [Nat.one_le_iff_ne_zero]
      exact fun hzero => h (congrArg some (UInt8.toNat_inj.1 hzero))
    have hle : 256 ^ r.length ≤ beNat (b :: r) := by
      rw [beNat_cons]
      exact Nat.le_add_right_of_le (Nat.le_mul_of_pos_left _ hb)
    have hwide : ¬ byteWidth (beNat (b :: r)) ≤ r.length := by
      rw [byteWidth_le_iff]
      exact Nat.not_lt.2 hle
    exact Nat.not_le.1 hwide

/-- The digits of a number, as many as it has, start with no zero. -/
theorem head?_beBytes_byteWidth (n : Nat) : (beBytes (byteWidth n) n).head? ≠ some 0 := by
  intro h
  cases hbs : beBytes (byteWidth n) n with
  | nil =>
    rw [hbs] at h
    contradiction
  | cons b r =>
    rw [hbs, List.head?_cons, Option.some.injEq] at h
    subst h
    have hread := beNat_beBytes_of_lt (lt_pow_byteWidth n)
    have hlen := length_beBytes (byteWidth n) n
    rw [hbs, beNat_zero_cons] at hread
    rw [hbs, List.length_cons] at hlen
    have hle : byteWidth n ≤ r.length := byteWidth_le_iff.2 (hread ▸ beNat_lt r)
    omega

/-! ## Pieces -/

section Pieces

variable {α : Type} {k : Nat}

theorem splitEvery_nil (k : Nat) : splitEvery k ([] : List α) = [] := by
  rw [splitEvery, dif_pos (.inr rfl)]

/-- A list that fits is one piece. -/
theorem splitEvery_of_length_le {xs : List α} (hne : xs ≠ []) (hle : xs.length ≤ k) :
    splitEvery k xs = [xs] := by
  have hpos := List.length_pos_iff.2 hne
  have hk : k ≠ 0 := by omega
  rw [splitEvery, dif_neg (by simp [hk, hne]), List.take_of_length_le hle,
    List.drop_of_length_le hle, splitEvery_nil]

/-- The first piece is cut off. -/
theorem splitEvery_append {xs ys : List α} (hk : 0 < k) (hlen : xs.length = k) :
    splitEvery k (xs ++ ys) = xs :: splitEvery k ys := by
  have hne : xs ++ ys ≠ [] := by
    intro h
    simp [(List.append_eq_nil_iff.1 h).1] at hlen
    omega
  have hk0 : k ≠ 0 := by omega
  rw [splitEvery, dif_neg (by simp [hk0, hne])]
  subst hlen
  simp

/-- The pieces make up the list. -/
theorem flatten_splitEvery (hk : 0 < k) (xs : List α) : (splitEvery k xs).flatten = xs := by
  induction xs using splitEvery.induct (k := k) with
  | case1 xs h =>
    have hnil : xs = [] := by
      rcases h with h | h
      · omega
      · exact h
    simp [hnil, splitEvery_nil]
  | case2 xs h ih =>
    rw [splitEvery, dif_neg h, List.flatten_cons, ih, List.take_append_drop]

/-- No piece is empty. -/
theorem ne_nil_of_mem_splitEvery {xs ys : List α} (h : ys ∈ splitEvery k xs) : ys ≠ [] := by
  induction xs using splitEvery.induct (k := k) with
  | case1 xs hstop =>
    rw [splitEvery, dif_pos hstop] at h
    contradiction
  | case2 xs hgo ih =>
    rw [splitEvery, dif_neg hgo, List.mem_cons] at h
    rcases h with h | h
    · rw [h]
      simp only [ne_eq, List.take_eq_nil_iff]
      exact hgo
    · exact ih h

end Pieces

/-! ## Results -/

/-- A chain of two results succeeds when both do. -/
theorem bind_eq_ok_iff {ε α β : Type} {x : Except ε α} {f : α → Except ε β} {b : β} :
    x >>= f = .ok b ↔ ∃ a, x = .ok a ∧ f a = .ok b := by
  cases x with
  | error e =>
    constructor
    · intro h; contradiction
    · rintro ⟨a, h, -⟩; contradiction
  | ok a =>
    constructor
    · intro h
      exact ⟨a, rfl, h⟩
    · rintro ⟨a', ha, h⟩
      rw [Except.ok.injEq] at ha
      subst ha
      exact h

/-- A chain of two results fails where the first of them to fail does. -/
theorem bind_eq_error_iff {ε α β : Type} {x : Except ε α} {f : α → Except ε β} {e : ε} :
    x >>= f = .error e ↔ x = .error e ∨ ∃ a, x = .ok a ∧ f a = .error e := by
  cases x <;> simp [bind, Except.bind]

theorem map_eq_ok_iff {ε α β : Type} {x : Except ε α} {f : α → β} {b : β} :
    x.map f = .ok b ↔ ∃ a, x = .ok a ∧ f a = b := by
  cases x <;> simp [Except.map]

/-- A result under a function on its fault succeeds when the result does. -/
@[simp] theorem mapError_eq_ok_iff {ε ε' α : Type} {x : Except ε α} {f : ε → ε'} {a : α} :
    x.mapError f = .ok a ↔ x = .ok a := by
  cases x <;> simp [Except.mapError]

theorem mapError_eq_error_iff {ε ε' α : Type} {x : Except ε α} {f : ε → ε'} {e : ε'} :
    x.mapError f = .error e ↔ ∃ e', x = .error e' ∧ f e' = e := by
  cases x <;> simp [Except.mapError]

end DeviceAuth
