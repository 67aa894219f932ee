import Lockstep.Event

/-!
# Records

A record is one measured iteration of one core.  Its text form is a single line that starts with a
marker; everything a log puts in front of the marker is ignored when the line is read back
(`Lockstep.Record.Line`).
-/

namespace Lockstep

/-- One measured iteration of one core. -/
structure Record where
  /-- The name of the experiment. -/
  label : String
  /-- The name of the workload that was measured. -/
  workload : String
  /-- How many cores took part. -/
  cores : UInt64
  /-- The core that was measured. -/
  core : UInt64
  /-- The iteration, counted from one. -/
  iteration : UInt64
  /-- The stagger offset of the iteration. -/
  offset : UInt64
  /-- What the cycle counter showed. -/
  cycles : UInt64
  /-- What the bound event counters showed, in slot order. -/
  events : List Event.Reading
  deriving DecidableEq, Repr, Inhabited

namespace Record

/-- The word that marks a record within a line. -/
def marker : String := "CYCLECOUNT"

/-- The part of the text form that reports one event counter. -/
def readingText (reading : Event.Reading) : String :=
  " event" ++ reading.slot.text ++ ": " ++ reading.code.text ++ " count: " ++
    reading.count.toNat.repr

/-- The text form of a record, on one line unless its label or workload breaks it. -/
def text (r : Record) : String :=
  marker ++ " label: " ++ r.label ++ " benchmark: " ++ r.workload ++
    " cores: " ++ r.cores.toNat.repr ++ " core: " ++ r.core.toNat.repr ++
    " cycle_count: " ++ r.cycles.toNat.repr ++ " iteration: " ++ r.iteration.toNat.repr ++
    " offset: " ++ r.offset.toNat.repr ++ String.join (r.events.map readingText)

end Record

end Lockstep
