/-!
# Powers — of two and of ten

The two bases of the numbers that are read and printed here. A factor with an exponent of either sign is a
fraction: the power with the positive part of the exponent over the power with the negative part.
-/

namespace Barline

def twoPow (n : Nat) : Nat :=
  Nat.pow 2 n

def tenPow (n : Nat) : Nat :=
  Nat.pow 10 n

theorem twoPow_pos (n : Nat) : 0 < twoPow n :=
  Nat.pow_pos (by decide)

theorem tenPow_pos (n : Nat) : 0 < tenPow n :=
  Nat.pow_pos (by decide)

end Barline
