import Lockstep.Attempt

/-!
# Clocks

A simulated clock counts ticks and moves only when somebody advances it.  A shared clock starts
again at zero when it overflows; a clock that belongs to one core alone must not overflow.
-/

namespace Lockstep

/-- A simulated clock. -/
structure Clock where
  ticks : UInt64 := 0
  /-- The clock starts again at zero when it overflows. -/
  wraps : Bool
  deriving DecidableEq, Repr, Inhabited

namespace Clock

/-- A clock for everybody. -/
def shared : Clock where
  wraps := true

/-- A clock for one core alone. -/
def own : Clock where
  wraps := false

/-- Lets time pass. -/
def advance (n : UInt64) : Attempt Clock Unit := do
  let c ← Attempt.look
  let ticks ← Attempt.take (if c.wraps then .ok (c.ticks + n) else checkedAdd c.ticks n)
  Attempt.change fun c => { c with ticks := ticks }

/-- As long as the sum stays in range, both kinds of clocks do the same. -/
theorem advance_of_lt {c : Clock} {n : UInt64} (h : c.ticks.toNat + n.toNat < UInt64.size) :
    (advance n).on c = (.ok (), { c with ticks := c.ticks + n }) := by
  simp [advance, Attempt.on_bind, checkedAdd_of_lt h]

end Clock

end Lockstep
