import Lockstep.Attempt
import Lockstep.Random.Generator
import Lockstep.Workload.Params

/-!
# Bubble sort

The array is filled with fresh random numbers before every run, and a run sorts it.  A pass carries
the largest number of the unsorted part to its end; the first pass that moves nothing is the last.
An index outside of the array is a fault.
-/

namespace Lockstep

/-- An array to be sorted and the source of its numbers. -/
structure BubbleSort where
  array : Array Int32
  generator : Random.Generator
  deriving DecidableEq, Repr, Inhabited

namespace BubbleSort

/-- The length of the array unless another one is wanted. -/
def defaultSize : UInt64 := 100

/-- An array of zeros of the wanted length. -/
def ofParams (params : WorkloadParams) : Except WorkloadParams.Refusal BubbleSort := do
  let n ← params.size defaultSize
  WorkloadParams.checkRoom n.toNat
  return ⟨Array.replicate n.toNat 0, Random.Generator.ofSeed params.seed⟩

/-- Compares a number with the one behind it and swaps them if they are in the wrong order; answers
whether they were. -/
def settle (array : Array Int32) (index : Nat) : Except Fault (Array Int32 × Bool) :=
  if h : index + 1 < array.size then
    if array[index + 1] < array[index] then .ok (array.swap index (index + 1), true)
    else .ok (array, false)
  else .error .outOfBounds

/-- Settles that many neighbours, from the left; answers whether any were swapped. -/
def pass (count : Nat) (array : Array Int32) : Except Fault (Array Int32 × Bool) :=
  (List.range count).foldlM (fun s index => do
    let (array, moved) ← settle s.1 index
    return (array, s.2 || moved)) (array, false)

/-- Passes over ever fewer neighbours until nothing moves. -/
def passes : Nat → Array Int32 → Except Fault (Array Int32)
  | 0, array => .ok array
  | count + 1, array => do
    let (array, moved) ← pass (count + 1) array
    if moved then passes count array else return array

/-- Sorts an array. -/
def sort (array : Array Int32) : Except Fault (Array Int32) :=
  passes (array.size - 1) array

/-- Fills the array with the next random numbers. -/
def prepare (w : BubbleSort) : BubbleSort :=
  let r := Random.Generator.draw w.array.size w.generator
  ⟨r.1.toArray, r.2⟩

/-- Sorts the array. -/
def run : Attempt BubbleSort Unit := do
  let array ← Attempt.take (sort (← Attempt.look).array)
  Attempt.change fun w => { w with array := array }

theorem settle_of_lt {array : Array Int32} {index : Nat} (h : index + 1 < array.size)
    (hlt : array[index + 1] < array[index]) :
    settle array index = .ok (array.swap index (index + 1), true) := by
  rw [settle, dif_pos h, if_pos hlt]

theorem settle_of_not_lt {array : Array Int32} {index : Nat} (h : index + 1 < array.size)
    (hle : ¬ array[index + 1] < array[index]) : settle array index = .ok (array, false) := by
  rw [settle, dif_pos h, if_neg hle]

example : (sort #[3, -1, 2, 2, 0]).toOption = some #[-1, 0, 2, 2, 3] := by decide +kernel

end BubbleSort

end Lockstep
