import Lockstep.Clock
import Lockstep.Counters.Ticking
import Lockstep.Interrupts

/-!
# Benches

A bench has everything that a core measures with in simulated time: a clock, the counters that count
its ticks, and the interrupts of the core.
-/

namespace Lockstep

/-- Counters with their clock and the interrupts of their core. -/
structure Bench where
  counters : TickingCounters
  clock : Clock
  mask : InterruptMask

namespace Bench

variable {α : Type}

/-- Lets time pass. -/
def advance (n : UInt64) : Attempt Bench Unit :=
  (Clock.advance n).within (·.clock) fun c b => { b with clock := c }

/-- Does something to the counters. -/
def onCounters (attempt : Attempt TickingCounters α) : Attempt Bench α :=
  attempt.within (·.counters) fun p b => { b with counters := p }

/-- Does something to the interrupts. -/
def onMask (attempt : Attempt (InterruptMask × TickingCounters) α) : Attempt Bench α :=
  attempt.within (fun b => (b.mask, b.counters))
    fun s b => { b with mask := s.1, counters := s.2 }

/-- Does an operation, and answers with the value of the counter that was read, if one was. -/
def perform (call : Call) : Attempt Bench (Option UInt64) := do
  match call with
  | .mask => onMask InterruptMask.mask; return none
  | .unmask => onMask InterruptMask.unmask; return none
  | call => onCounters (call.perform (← Attempt.look).clock.ticks)

end Bench

end Lockstep
