import Lockstep.Decimal.Shortest

/-!
# Numbers in JSON texts

A number is kept as it is written until somebody wants its value.  Without a fraction and an
exponent it is an integer as long as it fits sixty-four bits; everything else is a double.  A double
is computed from the leading digits that fit sixty-four bits and a power of ten, in one rounding for
the digits and one or more for the power.
-/

namespace Lockstep.Json

/-- A number as it is written. -/
structure Literal where
  negative : Bool
  /-- The digits before the point, at least one. -/
  whole : List Char
  /-- The digits behind the point, none if there is no point. -/
  fraction : List Char
  /-- The sign and the digits behind the letter `e`, if there is one. -/
  exponent : Option (Bool × List Char)
  deriving DecidableEq, Repr

/-- The value of a number. -/
inductive Number where
  | integer (value : Int)
  | real (value : Float)

namespace Literal

/-- The value of a digit. -/
def digit (c : Char) : Nat :=
  c.toNat - 0x30

/-- Takes digits onto a value as long as it fits sixty-four bits; answers the value and the digits
that are left. -/
def absorb (value : Nat) : List Char → Nat × List Char
  | [] => (value, [])
  | c :: cs =>
    if value * 10 + digit c < UInt64.size then absorb (value * 10 + digit c) cs else (value, c :: cs)

/-- The power of ten as a double. -/
def powerOfTen (e : Nat) : Float :=
  Float.ofScientific 1 false e

/-- A double divided by a power of ten.  Powers beyond the range of doubles are divided off in
parts. -/
def scaledDown (x : Float) (e : Nat) : Float :=
  if e ≤ 308 then x / powerOfTen e
  else if x == 0 then x
  else scaledDown (x / powerOfTen 308) (e - 308)
termination_by e

/-- A double times a power of ten, if the result is a finite double. -/
def scaled? (x : Float) (e : Int) : Option Float :=
  if e < 0 then some (scaledDown x e.natAbs)
  else if e ≤ 308 then
    let y := x * powerOfTen e.toNat
    if y.isInf then none else some y
  else if x == 0 then some x
  else none

/-- The value of digits as an exponent, if it fits thirty-two bits with a sign. -/
def exponentValue? (digits : List Char) : Option Nat :=
  let value := digits.foldl (fun value c => value * 10 + digit c) 0
  if value < UInt32.size / 2 then some value else none

/-- The absolute value of a number as a double, if it is finite. -/
def magnitude? (n : Literal) : Option Float :=
  let (whole, dropped) := absorb 0 n.whole
  let (significand, unused) := absorb whole n.fraction
  let shift : Int := dropped.length - (n.fraction.length - unused.length : Nat)
  let x := (UInt64.ofNat significand).toFloat
  match n.exponent with
  | none => scaled? x shift
  | some (negative, digits) =>
    match exponentValue? digits with
    | some e => scaled? x (if negative then shift - e else shift + e)
    | none => if significand = 0 ∨ negative then some 0 else none

/-- The value of a number, if there is a finite one.  A negative zero is a double. -/
def value? (n : Literal) : Option Number :=
  let real := (magnitude? n).map fun x => Number.real (if n.negative then -x else x)
  match absorb 0 n.whole, n.fraction, n.exponent with
  | (value, []), [], none =>
    if n.negative then
      if 0 < value ∧ value ≤ UInt64.size / 2 then some (.integer (-(value : Int))) else real
    else some (.integer value)
  | _, _, _ => real

end Literal

end Lockstep.Json
