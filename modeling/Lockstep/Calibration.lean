import Lockstep.Bracket
import Lockstep.Decimal.Fixed

/-!
# Countdowns

Delays are busy waits that count down to zero.  How long a countdown takes is measured for ten
lengths, so that a delay can be converted into cycles.
-/

namespace Lockstep

/-- The cost of a countdown. -/
structure Calibration where
  /-- The length of the countdown. -/
  count : UInt64
  cycles : UInt64
  deriving DecidableEq, Repr

namespace Calibration

/-- The cycles that one step of the countdown takes. -/
def cyclesPerCount (c : Calibration) : Float :=
  c.cycles.toFloat / c.count.toFloat

/-- What is said about the cost of a countdown. -/
def notice (c : Calibration) : Notice :=
  .internal .info ("countdown calibration: count=" ++ c.count.toNat.repr ++ " cycles=" ++
    c.cycles.toNat.repr ++ " cycles_per_count=" ++ Decimal.fixed 9 false c.cyclesPerCount)

/-- The lengths that are measured. -/
def counts : List UInt64 :=
  (List.range 10).map fun i => (UInt64.ofNat i + 1) * 1000000

variable {P E : Type} [Counters P]

/-- Measures countdowns of all lengths, where `countdown` lets the time of one pass. -/
def measure (now : E → UInt64) (countdown : UInt64 → Attempt E Unit) :
    Attempt (Bracket P × E) (List Calibration) :=
  counts.mapM fun count => do
    return ⟨count, (← Bracket.measure now (countdown count)).1.cycles⟩

end Calibration

end Lockstep
