import Lockstep.Analysis.RowKey
import Lockstep.Attempt

/-!
# Rows

A row holds the statistics of the records of one key: of their cycles, and of the counts of every
event that any of them has counted.  All sums of doubles go over the cycles in ascending order, so
that they do not depend on the order of the records.
-/

namespace Lockstep

/-- The mean count of an event. -/
structure EventMean where
  code : Event.Code
  mean : Float

/-- The statistics of the records of a key. -/
structure Row where
  key : RowKey
  /-- How many records there are. -/
  iterations : Nat
  /-- The least number of cycles. -/
  min : UInt64
  /-- The greatest number of cycles. -/
  max : UInt64
  mean : Float
  median : Float
  /-- The standard deviation of the cycles from their mean. -/
  deviation : Float
  /-- The events in the order of their codes. -/
  events : List EventMean

namespace EventMean

/-- Brings events into the order of their codes. -/
def sort (means : List EventMean) : List EventMean :=
  means.mergeSort fun a b => (compare a.code b.code).isLE

end EventMean

namespace Row

/-- The sum of doubles, from the left. -/
def total (xs : List Float) : Float :=
  xs.foldl (· + ·) 0

/-- The mean of doubles. -/
def meanOf (xs : List Float) : Float :=
  total xs / xs.length.toUInt64.toFloat

/-- The middle of ascending doubles, halfway between two of them if there is no single one. -/
def medianOf (xs : List Float) : Float :=
  let middle := xs.length / 2
  if xs.length % 2 = 0 then (xs.getD (middle - 1) 0 + xs.getD middle 0) / 2 else xs.getD middle 0

/-- The standard deviation of doubles. -/
def deviationOf (xs : List Float) : Float :=
  let mean := meanOf xs
  (meanOf (xs.map fun x => (x - mean) * (x - mean))).sqrt

/-- The row of a key with the given cycles, of which there has to be one. -/
def ofCycles (key : RowKey) (cycles : List UInt64) (events : List EventMean) : Except Fault Row :=
  match cycles.mergeSort with
  | [] => .error .assertion
  | least :: others =>
    let xs := (least :: others).map UInt64.toFloat
    .ok {
      key := key
      iterations := cycles.length
      min := least
      max := others.getLastD least
      mean := meanOf xs
      median := medianOf xs
      deviation := deviationOf xs
      events := events }

/-- A row as a JSON value. -/
def json (row : Row) : Json.Value :=
  .object [("key", row.key.json), ("iterations", .natural row.iterations),
    ("min", .natural row.min.toNat), ("max", .natural row.max.toNat), ("mean", .real row.mean),
    ("median", .real row.median), ("std_dev", .real row.deviation),
    ("events", .array (row.events.map fun e =>
      .object [("code", .natural e.code.number.toNat), ("mean", .real e.mean)]))]

end Row

end Lockstep
