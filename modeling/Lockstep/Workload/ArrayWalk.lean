import Lockstep.Attempt
import Lockstep.Random.Shuffle
import Lockstep.Workload.Params

/-!
# Array walks

A walk visits all records of an array that is larger than any cache and touches only the first word
of each.  The records are visited from first to last, or in a random order that is shuffled again
before every run.
-/

namespace Lockstep

/-- A record of 256 bytes. -/
structure BigRecord where
  id : Int32 := 0
  rest : Vector Int32 63 := Vector.replicate 63 0
  deriving DecidableEq, Repr, Inhabited

/-- The bytes of a record: its words have four bytes each. -/
def BigRecord.bytes : Nat := 4 * (1 + 63)

/-- What a walk does to a record. -/
inductive Access where
  | read
  | write
  deriving DecidableEq, Repr, Inhabited

/-- An array and the way through it. -/
structure ArrayWalk where
  access : Access
  /-- The random order of the next run with the source of its randomness, unless the walk goes from
  first to last. -/
  order : Option (Array UInt32 × Random.Generator)
  records : Array BigRecord
  /-- The sum of the words that were read last. -/
  lastSum : Int
  deriving DecidableEq, Repr, Inhabited

namespace ArrayWalk

/-- The number of records unless another one is wanted. -/
def defaultSize : UInt64 := 65536

/-- The word that is written. -/
def written : Int32 := 0xff

/-- A walk through the wanted number of records. -/
def ofParams (access : Access) (random : Bool) (params : WorkloadParams) :
    Except WorkloadParams.Refusal ArrayWalk := do
  let n ← params.size defaultSize
  if n.toNat < UInt32.size then
    let order :=
      if random then
        some ((Array.range n.toNat).map UInt32.ofNat, Random.Generator.ofSeed params.seed)
      else none
    return ⟨access, order, Array.replicate n.toNat {}, 0⟩
  else throw (.records n)

/-- The name of a walk. -/
def name (w : ArrayWalk) : String :=
  (if w.order.isSome then "random" else "linear") ++
    match w.access with
    | .read => "_array_read"
    | .write => "_array_write"

/-- The places in the order in which they are visited. -/
def places (w : ArrayWalk) : List Nat :=
  match w.order with
  | some (indices, _) => indices.toList.map UInt32.toNat
  | none => List.range w.records.size

/-- Shuffles the order. -/
def prepare (w : ArrayWalk) : ArrayWalk :=
  { w with order := w.order.map fun o => Random.shuffle o.1 o.2 }

/-- The sum of the first words of the records at these places, if there are such records. -/
def sum (records : Array BigRecord) (places : List Nat) : Except Fault Int :=
  places.foldlM
    (fun sum i =>
      match records[i]? with
      | some r => .ok (sum + r.id.toInt)
      | none => .error .outOfBounds) 0

/-- Writes to the records at these places, if there are such records. -/
def fill : Array BigRecord → List Nat → Except Fault (Array BigRecord)
  | records, [] => .ok records
  | records, i :: places =>
    if i < records.size then fill (records.modify i fun r => { r with id := written }) places
    else .error .outOfBounds

/-- Visits all records. -/
def run : Attempt ArrayWalk Unit := do
  let w ← Attempt.look
  match w.access with
  | .read =>
    let total ← Attempt.take (sum w.records w.places)
    Attempt.change fun w => { w with lastSum := total }
  | .write =>
    let records ← Attempt.take (fill w.records w.places)
    Attempt.change fun w => { w with records := records }

end ArrayWalk

end Lockstep
