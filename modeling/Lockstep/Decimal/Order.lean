/-!
# The order of doubles

All doubles stand in one order, which differs from the order of the numbers they stand for in that
the negative zero comes before the other one, and in that what is not a number comes at one of the
two ends.  A double has a rank in this order.
-/

namespace Lockstep.Decimal

/-- The rank of a double with the given bits. -/
def rankOfBits (bits : UInt64) : Int :=
  if bits.toNat < UInt64.size / 2 then bits.toNat
  else ((UInt64.size / 2 : Nat) : Int) - 1 - bits.toNat

/-- The rank of a double. -/
def rank (x : Float) : Int :=
  rankOfBits x.toBits

example : rankOfBits 0x8000000000000000 < rankOfBits 0 := by decide

end Lockstep.Decimal
