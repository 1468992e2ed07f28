import WorkerPool.Latency.Library

/-!
# Ranks in floating point

The rank of a quantile is computed with numbers of 53 binary digits: the quantile and the number of
samples are rounded to such numbers, and so is their product, which then is rounded up. Rounding is
to the nearest such number, and to the even one of two that are as near.

* `nearest`, `rounded` -- rounding, to whole numbers and to 53 digits;
* `Quantile.rank` -- the rank.
-/

namespace WorkerPool

/-- `a / d` to the nearest whole number, and to the even one of two that are as near. -/
def nearest (a d : Nat) : Nat :=
  if 2 * (a % d) < d ∨ 2 * (a % d) = d ∧ a / d % 2 = 0 then a / d else a / d + 1

/-- The distance of the numbers of 53 binary digits around `n`. -/
def spacing (n : Nat) : Nat := 1 <<< (n.log2 - 52)

/-- `n` to 53 binary digits. -/
def rounded (n : Nat) : Nat := nearest n (spacing n) * spacing n

namespace Quantile

/-- The quantile to 53 binary digits, as a multiple of `2 ^ -53`: it lies between a half and one. -/
def share (q : Quantile) : Nat := nearest (q.num <<< 53) q.den

/-- The rank of the quantile among so many samples. -/
def rank (q : Quantile) (total : Nat) : Nat :=
  max 1 ((rounded (q.share * rounded total) + ((1 <<< 53) - 1)) >>> 53)

end Quantile

end WorkerPool
