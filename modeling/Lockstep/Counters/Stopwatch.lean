import Lockstep.Counters.Basic
import Lockstep.Notice

/-!
# The stopwatch

Where a core has no counters, the nanoseconds of a monotonic clock stand in for its cycles.  There
are no event counters then; binding one has no effect but a notice.
-/

namespace Lockstep

/-- A cycle counter that counts nanoseconds. -/
structure Stopwatch where
  cycles : Tally := {}
  /-- The events that somebody tried to bind, the first one first. -/
  ignored : List (Event.Slot × Event.Code) := []
  deriving DecidableEq, Repr, Inhabited

namespace Stopwatch

/-- What is said about an event that cannot be bound. -/
def ignoredNotice (slot : Event.Slot) (code : Event.Code) : Notice :=
  .internal .debug ("WallTime: ignoring event " ++ code.text ++ " for slot " ++ slot.text ++
    ", no event counters available")

/-- Stops a stopwatch.  Its value wraps around, but its clock must not run backwards. -/
def stop (now : UInt64) : Attempt Tally Unit := do
  let t ← Attempt.look
  match t.since? with
  | none => return
  | some since =>
    Attempt.change fun t => { t with since? := none }
    let passed ← Attempt.take (checkedSub now since)
    Attempt.change fun t => { t with counted := t.counted + passed }

/-- The value of a stopwatch. -/
def value (now : UInt64) (t : Tally) : Except Fault UInt64 :=
  match t.since? with
  | none => .ok t.counted
  | some since => (checkedSub now since).map (t.counted + ·)

/-- Does something to the cycle counter. -/
def onCycles {α : Type} (attempt : Attempt Tally α) : Attempt Stopwatch α :=
  attempt.within (·.cycles) fun t p => { p with cycles := t }

instance : Counters Stopwatch where
  slots _ := 0
  enable := pure ()
  startCycles now := onCycles (Attempt.change (Tally.start now))
  stopCycles now := onCycles (stop now)
  clearCycles now := onCycles (Attempt.change (Tally.clear now))
  readCycles now := onCycles do Attempt.take (value now (← Attempt.look))
  bind slot code := Attempt.change fun p => { p with ignored := p.ignored ++ [(slot, code)] }
  startEvent _ _ := pure ()
  stopEvent _ _ := pure ()
  readEvent _ _ := pure 0
  clearEvents _ := pure ()
  note _ p := p

end Stopwatch

end Lockstep
