/-!
# Numerals

A numeral is an optional sign followed by digits of a radix.  Leading zeros are allowed, separators
are not.  Reading goes from the left: the first character that is no digit, or the first digit that
takes the value out of range, decides the error.
-/

namespace Lockstep.Text

/-- Why a text is not a numeral of the wanted kind. -/
inductive Numeral.Error where
  | empty
  | invalidDigit
  | tooLarge
  | tooSmall
  deriving DecidableEq, Repr

/-- The sentence shown for a numeral that cannot be read. -/
def Numeral.Error.message : Numeral.Error → String
  | .empty => "cannot parse integer from empty string"
  | .invalidDigit => "invalid digit found in string"
  | .tooLarge => "number too large to fit in target type"
  | .tooSmall => "number too small to fit in target type"

namespace Numeral

/-- The value of an ASCII digit or letter as a digit, if it is one of the radix (at most 36). -/
def digit? (radix : Nat) (c : Char) : Option Nat :=
  let value? :=
    if '0' ≤ c ∧ c ≤ '9' then some (c.toNat - 0x30)
    else if 'a' ≤ c ∧ c ≤ 'z' then some (c.toNat - 0x61 + 10)
    else if 'A' ≤ c ∧ c ≤ 'Z' then some (c.toNat - 0x41 + 10)
    else none
  value?.filter (· < radix)

/-- Digits read onto the value of the digits before them, which has to stay below the bound. -/
def magnitude (radix bound : Nat) (overflow : Error) : Nat → List Char → Except Error Nat
  | value, [] => .ok value
  | value, c :: cs =>
    match digit? radix c with
    | none => .error .invalidDigit
    | some d =>
      if value * radix + d < bound then magnitude radix bound overflow (value * radix + d) cs
      else .error overflow

/-- An unsigned numeral below the bound: an optional plus sign and at least one digit. -/
def unsigned (radix bound : Nat) : List Char → Except Error Nat
  | [] => .error .empty
  | ['+'] => .error .invalidDigit
  | '+' :: cs => magnitude radix bound .tooLarge 0 cs
  | cs => magnitude radix bound .tooLarge 0 cs

/-- A signed decimal numeral of absolute value below the bound; the bound itself is allowed after
a minus sign. -/
def signed (bound : Nat) : List Char → Except Error Int
  | [] => .error .empty
  | ['+'] => .error .invalidDigit
  | ['-'] => .error .invalidDigit
  | '-' :: cs => (magnitude 10 (bound + 1) .tooSmall 0 cs).map fun n => -(n : Int)
  | '+' :: cs => (magnitude 10 bound .tooLarge 0 cs).map fun n => (n : Int)
  | cs => (magnitude 10 bound .tooLarge 0 cs).map fun n => (n : Int)

/-- A decimal numeral of 64 bits. -/
def uint64 (cs : List Char) : Except Error UInt64 :=
  (unsigned 10 UInt64.size cs).map UInt64.ofNat

/-- A decimal numeral of 32 bits. -/
def uint32 (cs : List Char) : Except Error UInt32 :=
  (unsigned 10 UInt32.size cs).map UInt32.ofNat

example : (unsigned 16 UInt32.size "+17".toList).toOption = some 23 := by decide +kernel

end Numeral

end Lockstep.Text
