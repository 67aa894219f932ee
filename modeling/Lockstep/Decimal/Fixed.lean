import Lockstep.Decimal.Binary

/-!
# Numbers with a fixed number of places

The exact value of a double is rounded to the wanted number of decimal places; a value in the
middle of two neighbours goes to the even one.
-/

namespace Lockstep.Decimal

/-- The integer nearest to a quotient; the even one if two are equally near. -/
def roundHalfEven (num den : Nat) : Nat :=
  let below := num / den
  let rest := 2 * (num % den)
  if den < rest ∨ (rest = den ∧ below % 2 = 1) then below + 1 else below

/-- An integer number of units, written with that many places behind the point. -/
def placed (places units : Nat) : List Char :=
  let digits := Nat.toDigits 10 units
  let padded := List.replicate (places + 1 - digits.length) '0' ++ digits
  let whole := padded.take (padded.length - places)
  if places = 0 then whole else whole ++ '.' :: padded.drop (padded.length - places)

/-- A double with a fixed number of places.  With `plus` a value that is not negative gets a plus
sign; what is not a number never has a sign. -/
def fixed (places : Nat) (plus : Bool) (x : Float) : String :=
  let sign (negative : Bool) := if negative then "-" else if plus then "+" else ""
  match Binary.ofFloat x with
  | .nan => "NaN"
  | .infinite negative => sign negative ++ "inf"
  | .finite negative mantissa exponent =>
    let units :=
      roundHalfEven (mantissa * Nat.pow 2 exponent.toNat * Nat.pow 10 places)
        (Nat.pow 2 (-exponent).toNat)
    sign negative ++ String.ofList (placed places units)

example : placed 1 5 = "0.5".toList := by decide +kernel
example : placed 2 12345 = "123.45".toList := by decide +kernel
example : roundHalfEven 5 2 = 2 ∧ roundHalfEven 7 2 = 4 := by decide

end Lockstep.Decimal
