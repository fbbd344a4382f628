import DeviceAuth.Modular
import Mathlib.Algebra.Order.Ring.Int

/-!
# DeviceAuth.Proofs.Modular

Squaring once per binary digit gives the power: `pow m b e` is `b ^ e % m` for all numbers, a
modulus of zero or one included.
-/

namespace DeviceAuth.Modular

/-- The last binary digit is taken off by halving. -/
theorem bits_of_two_le {n : Nat} (h : 2 ≤ n) : bits n = bits (n / 2) ++ [n.testBit 0] := by
  have hlog : n.log2 = (n / 2).log2 + 1 := by
    rw [Nat.log2_def, if_pos h]
  have hdigit : ∀ i, n.testBit (i + 1) = (n / 2).testBit i := Nat.testBit_succ n
  rw [bits, hlog, List.range_succ_eq_map, List.reverse_cons, List.map_append, List.map_reverse,
    List.map_map, bits, List.map_reverse]
  simp [Function.comp_def, hdigit]

theorem pow_eq (m b e : Nat) : pow m b e = b ^ e % m := by
  induction e using Nat.strongRecOn with
  | ind e ih =>
    by_cases hsmall : e < 2
    · have hcases : e = 0 ∨ e = 1 := by omega
      have hone : 1 % m * (1 % m) % m = 1 % m := (Nat.mul_mod 1 1 m).symm
      rcases hcases with rfl | rfl
      · have hbits : bits 0 = [false] := rfl
        simp [pow, hbits]
      · have hbits : bits 1 = [true] := rfl
        rw [pow, hbits, List.foldl_cons, List.foldl_nil, if_pos rfl, hone, Nat.mod_mul_mod,
          Nat.one_mul, Nat.pow_one]
    · have hhalf := ih (e / 2) (by omega)
      have hsquare : b ^ (e / 2) % m * (b ^ (e / 2) % m) % m = b ^ (e / 2 + e / 2) % m := by
        rw [← Nat.mul_mod, ← Nat.pow_add]
      rw [pow] at hhalf
      rw [pow, bits_of_two_le (by omega), List.foldl_append, hhalf, List.foldl_cons, List.foldl_nil,
        hsquare]
      by_cases hodd : e % 2 = 1
      · have hbit : e.testBit 0 = true := by simp [hodd]
        have he : e / 2 + e / 2 + 1 = e := by omega
        rw [if_pos hbit, Nat.mod_mul_mod, ← Nat.pow_add_one, he]
      · have hbit : ¬ e.testBit 0 = true := by simp [hodd]
        have he : e / 2 + e / 2 = e := by omega
        rw [if_neg hbit, he]

end DeviceAuth.Modular
