/-!
# DeviceAuth.Modular

Powers and differences modulo a number, on plain natural numbers.
-/

namespace DeviceAuth.Modular

/-- The binary digits of a number, most significant first; zero is one digit. -/
def bits (n : Nat) : List Bool :=
  (List.range (n.log2 + 1)).reverse.map n.testBit

/-- The power `b ^ e` modulo `m`, by squaring once per binary digit of `e`. -/
def pow (m b e : Nat) : Nat :=
  (bits e).foldl (fun acc bit => if bit then acc * acc % m * b % m else acc * acc % m) (1 % m)

/-- The inverse of `a` modulo a prime `p`, by Fermat's theorem. -/
def inverse (p a : Nat) : Nat :=
  pow p a (p - 2)

/-- The difference modulo `m` of two numbers below `m`. -/
def sub (m a b : Nat) : Nat :=
  (a + (m - b)) % m

end DeviceAuth.Modular
