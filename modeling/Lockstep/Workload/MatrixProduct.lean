import Lockstep.Attempt
import Lockstep.Workload.Params

/-!
# Matrix multiplication

Two square matrices are filled once, from a small generator of their own, and every run computes
their product anew.  Sums and products of cells wrap around at thirty-two bits; the generator does
not, and a number that leaves its range is a fault, as is an index outside of a matrix.
-/

namespace Lockstep

/-- Two square matrices and the last product, all of them row by row. -/
structure MatrixProduct where
  dimension : Nat
  left : Array Int32
  right : Array Int32
  product : Array Int32
  deriving DecidableEq, Repr, Inhabited

namespace MatrixProduct

/-- The dimension unless another one is wanted. -/
def defaultSize : UInt64 := 20

/-! ### Filling the matrices -/

/-- The number, if it is one of thirty-two bits with a sign. -/
def checkedInt32 (n : Int) : Except Fault Int32 :=
  if Int32.minValue.toInt ≤ n ∧ n ≤ Int32.maxValue.toInt then .ok (Int32.ofInt n)
  else .error .overflow

/-- The number after a number. -/
def next (n : Int32) : Except Fault Int32 := do
  let product ← checkedInt32 (n.toInt * 133)
  let sum ← checkedInt32 (product.toInt + 81)
  return sum % 8095

/-- Appends that many numbers after a number to some cells; answers the last of them, too. -/
def fill : Nat → Array Int32 → Int32 → Except Fault (Array Int32 × Int32)
  | 0, cells, last => .ok (cells, last)
  | count + 1, cells, last => do
    let n ← next last
    fill count (cells.push n) n

/-- Matrices of the wanted dimension. -/
def ofParams (params : WorkloadParams) : Except WorkloadParams.Refusal MatrixProduct := do
  let n ← params.size defaultSize
  let count := n.toNat * n.toNat
  if count < UInt64.size then
    WorkloadParams.checkRoom count
    let (left, last) ← (fill count #[] 0).mapError .stops
    let (right, _) ← (fill count #[] last).mapError .stops
    return ⟨n.toNat, left, right, Array.replicate count 0⟩
  else throw (.matrix n)

/-! ### Multiplying -/

/-- The cell of a matrix at an index, if there is one. -/
def cellAt (matrix : Array Int32) (index : Nat) : Except Fault Int32 :=
  match matrix[index]? with
  | some x => .ok x
  | none => .error .outOfBounds

/-- Stores a cell of a matrix at an index, if there is one. -/
def store (matrix : Array Int32) (index : Nat) (x : Int32) : Except Fault (Array Int32) :=
  if h : index < matrix.size then .ok (matrix.set index x) else .error .outOfBounds

/-- What a row of the left matrix and a column of the right one come to. -/
def dot (w : MatrixProduct) (row column : Nat) : Except Fault Int32 :=
  (List.range w.dimension).foldlM (fun sum k => do
    let x ← cellAt w.left (row * w.dimension + k)
    let y ← cellAt w.right (k * w.dimension + column)
    return sum + x * y) 0

/-- Computes a row of the product. -/
def multiplyRow (w : MatrixProduct) (product : Array Int32) (row : Nat) :
    Except Fault (Array Int32) :=
  (List.range w.dimension).foldlM (fun product column => do
    store product (row * w.dimension + column) (← w.dot row column)) product

/-- Computes the product in the place of the last one. -/
def multiply (w : MatrixProduct) : Except Fault (Array Int32) :=
  (List.range w.dimension).foldlM w.multiplyRow w.product

/-- Computes the product. -/
def run : Attempt MatrixProduct Unit := do
  let product ← Attempt.take (← Attempt.look).multiply
  Attempt.change fun w => { w with product := product }

theorem cellAt_eq_ok_iff {matrix : Array Int32} {index : Nat} {x : Int32} :
    cellAt matrix index = .ok x ↔ matrix[index]? = some x := by
  unfold cellAt
  split <;> simp_all

theorem store_of_lt {matrix : Array Int32} {index : Nat} (h : index < matrix.size) (x : Int32) :
    store matrix index x = .ok (matrix.set index x) := dif_pos h

theorem checkedInt32_of_mem {n : Int}
    (h : Int32.minValue.toInt ≤ n ∧ n ≤ Int32.maxValue.toInt) :
    checkedInt32 n = .ok (Int32.ofInt n) := if_pos h

example : ((fill 4 #[] 0).map (·.1)).toOption = some #[81, 2759, 2753, 1955] := by decide +kernel

end MatrixProduct

end Lockstep
