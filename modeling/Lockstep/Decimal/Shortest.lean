import Lockstep.Decimal.Binary

/-!
# Shortest decimal text

The decimals that read back as a given double form an interval around it.  Among the decimals of
that interval the ones with the fewest digits are on the coarsest grid of multiples of a power of
ten that meets the interval; of these the one nearest to the double is chosen.
-/

namespace Lockstep.Decimal

/-- A decimal `digits * 10 ^ exponent`. -/
structure Scientific where
  digits : Nat
  exponent : Int
  deriving DecidableEq, Repr

/-- The decimal reads back as `m * 2 ^ q`: it lies between the midpoints to the two neighbouring
doubles, which themselves belong to the even mantissa.  Below a power of two the lower neighbour
is half as far away as the upper one. -/
def readsBack (m : Nat) (q : Int) (d : Scientific) : Bool :=
  let unit := Nat.pow 2 q.toNat * Nat.pow 10 (-d.exponent).toNat
  let point := 4 * (d.digits * (Nat.pow 2 (-q).toNat * Nat.pow 10 d.exponent.toNat))
  let low := (4 * m - if m = Nat.pow 2 52 ∧ -1074 < q then 1 else 2) * unit
  let high := (4 * m + 2) * unit
  if m % 2 = 0 then decide (low ≤ point) && decide (point ≤ high)
  else decide (low < point) && decide (point < high)

/-- The points of the grid `10 ^ e` next to `m * 2 ^ q`: the one at or below it, and whether the
one above it is nearer.  A tie goes to the even point. -/
def onGrid (m : Nat) (q : Int) (e : Int) : Nat × Bool :=
  let num := m * Nat.pow 2 q.toNat * Nat.pow 10 (-e).toNat
  let den := Nat.pow 2 (-q).toNat * Nat.pow 10 e.toNat
  let rest := 2 * (num % den)
  (num / den, decide (den < rest) || (decide (rest = den) && num / den % 2 == 1))

/-- The decimal of a grid that reads back as `m * 2 ^ q`, if there is one: the nearer neighbour if
it does, else the other one. -/
def onGrid? (m : Nat) (q : Int) (e : Int) : Option Scientific :=
  let (below, upper) := onGrid m q e
  let nearer := if upper then below + 1 else below
  let other := if upper then below else below + 1
  [nearer, other].map (⟨·, e⟩) |>.find? (readsBack m q)

/-- Looks through ever finer grids, starting with the grid `10 ^ e`. -/
def coarsest (m : Nat) (q : Int) : Nat → Int → Scientific
  | 0, e => ⟨(onGrid m q e).1, e⟩
  | finer + 1, e => (onGrid? m q e).getD (coarsest m q finer (e - 1))

/-- The shortest decimal that reads back as `m * 2 ^ q`.  The search starts above the leading digit
of the number, and seventeen digits are always enough. -/
def shortest (m : Nat) (q : Int) : Scientific :=
  coarsest m q 20 ((Nat.log2 m + q) * 1233 / 4096 + 1)

/-- How a double is written in JSON: positional as long as the leading digit stands neither below
the fifth place behind the point nor above the sixteenth before it, and with a signed exponent of at
least two digits otherwise.  A double always shows that it is one. -/
def jsonText (x : Float) : Option String :=
  match Binary.ofFloat x with
  | .finite negative m q =>
    let sign := if negative then "-" else ""
    if m = 0 then some (sign ++ "0.0")
    else
      let d := shortest m q
      let digits := Nat.toDigits 10 d.digits
      let leading := d.exponent + (digits.length - 1)
      let cs :=
        if -5 ≤ leading ∧ leading < 0 then
          "0.".toList ++ List.replicate (-leading - 1).toNat '0' ++ digits
        else if 0 ≤ leading ∧ leading ≤ 15 then
          let before := leading.toNat + 1
          let padded := digits ++ List.replicate (before + 1 - digits.length) '0'
          padded.take before ++ '.' :: padded.drop before
        else
          let size := Nat.toDigits 10 leading.natAbs
          digits.take 1 ++ (if digits.length = 1 then [] else '.' :: digits.drop 1) ++
            ['e', if leading < 0 then '-' else '+'] ++
            List.replicate (2 - size.length) '0' ++ size
      some (sign ++ String.ofList cs)
  | _ => none

example : shortest (2 ^ 52) 12 = ⟨18446744073709552, 3⟩ := by decide +kernel
example : shortest 1 (-1074) = ⟨5, -324⟩ := by decide +kernel

end Lockstep.Decimal
