/-!
# Binary numbers

A double is an integer times a power of two, or infinite, or not a number.  Texts of doubles are
computed from this exact value.
-/

namespace Lockstep.Decimal

/-- What a double stands for. -/
inductive Binary where
  | nan
  | infinite (negative : Bool)
  /-- The value `mantissa * 2 ^ exponent`, with a sign of its own. -/
  | finite (negative : Bool) (mantissa : Nat) (exponent : Int)
  deriving DecidableEq, Repr

/-- Decodes the sixty-four bits of a double. -/
def Binary.ofBits (bits : Nat) : Binary :=
  let negative := decide (UInt64.size / 2 ≤ bits)
  let field : Nat := bits / Nat.pow 2 52 % Nat.pow 2 11
  let fraction : Nat := bits % Nat.pow 2 52
  if field = 2047 then
    if fraction = 0 then .infinite negative else .nan
  else if field = 0 then .finite negative fraction (-1074)
  else .finite negative (Nat.pow 2 52 + fraction) ((field : Int) - 1075)

/-- The exact value of a double. -/
def Binary.ofFloat (x : Float) : Binary :=
  .ofBits x.toBits.toNat

example : Binary.ofBits 0x3ff8000000000000 = .finite false (3 * 2 ^ 51) (-52) := by decide +kernel
example : Binary.ofBits 0x8000000000000000 = .finite true 0 (-1074) := by decide +kernel
example : Binary.ofBits 0xfff0000000000000 = .infinite true := by decide +kernel

end Lockstep.Decimal
