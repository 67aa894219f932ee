import Lockstep.Analysis.Gathering
import Lockstep.Capture

/-!
# Analyses

The analysis of a capture brings its records together in rows, in the order of the keys.
-/

namespace Lockstep

/-- The rows of a capture. -/
structure Analysis where
  rows : List Row
  /-- How many records there are in all rows. -/
  records : Nat
  /-- How many lines of the capture were meant to hold a record but cannot be read. -/
  malformed : Nat

namespace Analysis

/-- The orders in which the tables of an analysis are gone through. -/
structure Visits where
  keys : Visit (RowKey × Gathering)
  /-- The events of a key. -/
  events : RowKey → Visit (Event.Code × EventSum)

/-- All tables as they list their entries. -/
def Visits.listed : Visits := ⟨.listed, fun _ => .listed⟩

/-- The row of a key of which this is known. -/
def Visits.row (visits : Visits) (entry : RowKey × Gathering) : Except Fault Row :=
  entry.2.row (visits.events entry.1) entry.1

/-- Analyses a capture, with its tables gone through in the given orders. -/
def ofCaptureIn (visits : Visits) (grouping : Grouping) (c : Capture) : Except Fault Analysis := do
  let groups ← Table.gather (RowKey.ofRecord grouping) {} Gathering.add ∅ c.records
  let rows ← (visits.keys.arrange groups.toList).mapM visits.row
  return ⟨RowKey.sortOn (·.key) rows, c.records.length, c.malformed⟩

/-- Analyses a capture. -/
def ofCapture (grouping : Grouping) (c : Capture) : Except Fault Analysis :=
  ofCaptureIn .listed grouping c

/-- An analysis as a JSON value. -/
def json (a : Analysis) : Json.Value :=
  .object [("core_stats", .array (a.rows.map (·.json))), ("records", .natural a.records),
    ("malformed", .natural a.malformed)]

end Analysis

end Lockstep
