import Lockstep.Analysis.Row
import Lockstep.Analysis.Table

/-!
# What is gathered for a row

The records of a capture are gone through once.  For every key their cycles are kept, and for every
event of the key the sum of its counts and how many there are, both of which have to fit into
sixty-four bits.  In the end each key has its row.
-/

namespace Lockstep

/-- What is known of an event: the sum of its counts, and how many there are. -/
structure EventSum where
  sum : UInt64 := 0
  number : UInt64 := 0
  deriving DecidableEq, Repr

namespace EventSum

/-- The sum with one more reading. -/
def add (s : EventSum) (reading : Event.Reading) : Except Fault EventSum := do
  let sum ← checkedAdd s.sum reading.count.toUInt64
  let number ← checkedAdd s.number 1
  return ⟨sum, number⟩

/-- The mean of the counts. -/
def mean (code : Event.Code) (s : EventSum) : EventMean :=
  ⟨code, s.sum.toFloat / s.number.toFloat⟩

end EventSum

/-- What is known of the records of a key. -/
structure Gathering where
  cycles : Array UInt64 := #[]
  events : Std.HashMap Event.Code EventSum := ∅

namespace Gathering

/-- What is known with one more record. -/
def add (g : Gathering) (r : Record) : Except Fault Gathering := do
  let events ← Table.gather (·.code) {} EventSum.add g.events r.events
  return ⟨g.cycles.push r.cycles, events⟩

/-- The mean counts of all events that were read. -/
def eventMeans (visit : Visit (Event.Code × EventSum)) (g : Gathering) : List EventMean :=
  EventMean.sort ((visit.arrange g.events.toList).map fun (code, s) => s.mean code)

/-- The row of a key of which this is known. -/
def row (visit : Visit (Event.Code × EventSum)) (key : RowKey) (g : Gathering) :
    Except Fault Row :=
  Row.ofCycles key g.cycles.toList (g.eventMeans visit)

end Gathering

end Lockstep
