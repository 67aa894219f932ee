import Lockstep.Analysis.Basic
import Lockstep.Decimal.Order
import Std.Data.HashSet

/-!
# Comparisons

Two analyses are compared row by row.  A row that only one of them has is compared with nothing.
What has slowed down most comes first.

Differences of cycles are formed in sixty-four bits with a sign; numbers that are too large for that
become negative, and a difference that leaves the range is a fault.
-/

namespace Lockstep

/-! ### Differences -/

/-- The number, if it is one of sixty-four bits with a sign. -/
def checkedInt (n : Int) : Except Fault Int64 :=
  if Int64.minValue.toInt ≤ n ∧ n ≤ Int64.maxValue.toInt then .ok (Int64.ofInt n)
  else .error .overflow

theorem checkedInt_of_mem {n : Int}
    (h : Int64.minValue.toInt ≤ n ∧ n ≤ Int64.maxValue.toInt) :
    checkedInt n = .ok (Int64.ofInt n) := if_pos h

/-- How much a number differs from a base. -/
def difference (base change : UInt64) : Except Fault Int64 :=
  checkedInt (change.toInt64.toInt - base.toInt64.toInt)

/-- What is left where a number is taken away. -/
def takenAway (n : UInt64) : Except Fault Int64 :=
  checkedInt (-n.toInt64.toInt)

/-- How far a double has moved from a base, in hundredths of the base. -/
def percentage (base change : Float) : Float :=
  (change - base) / base * 100

/-! ### Rows -/

/-- How a row differs from the row of the same key in another analysis. -/
structure RowChange where
  key : RowKey
  iterations : Int
  min : Int64
  max : Int64
  mean : Float
  /-- The change of the mean, in hundredths of the mean before. -/
  meanChange : Float
  median : Float
  /-- The change of the median, in hundredths of the median before. -/
  medianChange : Float

namespace RowChange

/-- A row that was not there before. -/
def added (row : Row) : RowChange where
  key := row.key
  iterations := row.iterations
  min := row.min.toInt64
  max := row.max.toInt64
  mean := row.mean
  meanChange := 1 / 0
  median := row.median
  medianChange := 1 / 0

/-- A row that is not there any more. -/
def removed (row : Row) : Except Fault RowChange := do
  return {
    key := row.key
    iterations := -row.iterations
    min := ← takenAway row.min
    max := ← takenAway row.max
    mean := -row.mean
    meanChange := -100
    median := -row.median
    medianChange := -100 }

/-- A row that was there before. -/
def between (base change : Row) : Except Fault RowChange := do
  return {
    key := change.key
    iterations := (change.iterations : Int) - base.iterations
    min := ← difference base.min change.min
    max := ← difference base.max change.max
    mean := change.mean - base.mean
    meanChange := percentage base.mean change.mean
    median := change.median - base.median
    medianChange := percentage base.median change.median }

/-- How the rows of a key differ.  At least one of them is there. -/
def of (base change : Option Row) : Except Fault RowChange :=
  match base, change with
  | some base, some change => between base change
  | some base, none => removed base
  | none, some change => .ok (added change)
  | none, none => .error (.stopped "internal error: entered unreachable code")

/-- The order of rows in a comparison: the greatest change of the median first, then by key. -/
def order (a b : RowChange) : Ordering :=
  (compare (Decimal.rank b.median) (Decimal.rank a.median)).then (compare a.key b.key)

/-- The change of a row as a JSON value. -/
def json (c : RowChange) : Json.Value :=
  .object [("key", c.key.json), ("iterations", .integer c.iterations),
    ("min", .integer c.min.toInt), ("max", .integer c.max.toInt), ("mean", .real c.mean),
    ("mean_change", .real c.meanChange), ("median", .real c.median),
    ("median_change", .real c.medianChange)]

end RowChange

/-! ### Analyses -/

/-- How two analyses differ. -/
structure Comparison where
  rows : List RowChange
  /-- How many records there are more than before. -/
  records : Int

namespace Comparison

/-- Where the row of each key stands. -/
def places (rows : List Row) : Std.HashMap RowKey Nat :=
  .ofList (rows.zipIdx.map fun (row, i) => (row.key, i))

/-- The row at a place that was looked up. -/
def rowAt (rows : List Row) (place : Option Nat) : Except Fault (Option Row) :=
  match place with
  | none => .ok none
  | some i =>
    match rows[i]? with
    | some row => .ok (some row)
    | none => .error .outOfBounds

/-- The keys of all rows, each of them once. -/
def keys (base change : Analysis) : Std.HashSet RowKey :=
  .ofList ((base.rows ++ change.rows).map (·.key))

/-- How the rows of a key differ, which are looked up in the given places. -/
def rowOf (base change : Analysis) (before after : Std.HashMap RowKey Nat) (key : RowKey) :
    Except Fault RowChange := do
  RowChange.of (← rowAt base.rows before[key]?) (← rowAt change.rows after[key]?)

/-- Compares an analysis with another one that it is based on.  The keys are gone through in the
given order. -/
def ofAnalysesIn (visit : Visit RowKey) (base change : Analysis) : Except Fault Comparison := do
  let before := places base.rows
  let after := places change.rows
  let rows ← (visit.arrange (keys base change).toList).mapM (rowOf base change before after)
  return ⟨rows.mergeSort fun a b => (RowChange.order a b).isLE,
    (change.records : Int) - base.records⟩

/-- Compares an analysis with another one that it is based on. -/
def ofAnalyses (base change : Analysis) : Except Fault Comparison :=
  ofAnalysesIn .listed base change

/-- A comparison as a JSON value. -/
def json (c : Comparison) : Json.Value :=
  .object [("core_stats", .array (c.rows.map (·.json))), ("records", .integer c.records)]

end Comparison

end Lockstep
