import Lockstep.Proofs.Workload.Calls
import Lockstep.Workload.Registry
import Mathlib.Algebra.BigOperators.Group.Finset.Basic
import Mathlib.Algebra.Order.Ring.Int

/-!
# What a matrix multiplication computes

The generator stays below 8095, so that nothing on the way to its next number leaves thirty-two
bits, and the cells of the two matrices are its numbers in their order.

The product is computed row by row, and within a row column by column, which is the order in which
its cells are stored.  So all that has to be known while it is computed is how many cells are right
(`HasComputed`): the cell at an index is the one in row `i / n` and column `i % n`.  The sum of a
cell wraps around with every product that is added, and reducing an integer to thirty-two bits
commutes with sums and products, so that it is the exact sum, reduced once (`dot_eq`).

The main statement is `MatrixProduct.multiplies_exactly`.
-/

namespace Lockstep.MatrixProduct

/-! ### The numbers of the generator -/

/-- The number that the generator comes to from zero in so many steps, if nothing on the way leaves
its range. -/
def number : Nat → Nat
  | 0 => 0
  | i + 1 => (number i * 133 + 81) % 8095

/-- The number as a cell. -/
def numbered (i : Nat) : Int32 :=
  Int32.ofNat (number i)

lemma number_lt (i : Nat) : number i < 8095 := by
  cases i with
  | zero => decide
  | succ i => exact Nat.mod_lt _ (by decide)

lemma toInt_numbered (i : Nat) : (numbered i).toInt = number i :=
  Int32.toInt_ofNat_of_lt ((number_lt i).trans (by decide))

/-- A small number is one of thirty-two bits. -/
lemma checkedInt32_natCast {n : Nat} (h : n < 2 ^ 31) :
    checkedInt32 n = .ok (Int32.ofNat n) := by
  have hmin : Int32.minValue.toInt = -2 ^ 31 := by decide
  have hmax : Int32.maxValue.toInt = 2 ^ 31 - 1 := by decide
  rw [checkedInt32_of_mem (by omega), Int32.ofInt_eq_ofNat]

/-- The remainder of a small number. -/
lemma ofNat_mod {n : Nat} (h : n < 2 ^ 31) : Int32.ofNat n % 8095 = Int32.ofNat (n % 8095) := by
  have hrest : n % 8095 < 2 ^ 31 := (Nat.mod_le _ _).trans_lt h
  have hdivisor : (8095 : Int32).toInt = 8095 := by decide
  apply Int32.toInt_inj.mp
  rw [Int32.toInt_mod, Int32.toInt_ofNat_of_lt h, Int32.toInt_ofNat_of_lt hrest, hdivisor,
    Int.tmod_eq_emod_of_nonneg (Int.natCast_nonneg n)]
  exact (Int.natCast_mod n 8095).symm

/-- **The generator stays in range.** -/
lemma next_numbered (i : Nat) : next (numbered i) = .ok (numbered (i + 1)) := by
  have hlt := number_lt i
  have hproduct : checkedInt32 ((numbered i).toInt * 133) = .ok (Int32.ofNat (number i * 133)) := by
    rw [toInt_numbered]
    exact_mod_cast checkedInt32_natCast (n := number i * 133) (by omega)
  have hsum : checkedInt32 ((Int32.ofNat (number i * 133)).toInt + 81) =
      .ok (Int32.ofNat (number i * 133 + 81)) := by
    rw [Int32.toInt_ofNat_of_lt (by omega)]
    exact_mod_cast checkedInt32_natCast (n := number i * 133 + 81) (by omega)
  have hrest : Int32.ofNat (number i * 133 + 81) % 8095 = numbered (i + 1) := ofNat_mod (by omega)
  exact bind_eq_ok.mpr ⟨_, hproduct, bind_eq_ok.mpr ⟨_, hsum, congrArg Except.ok hrest⟩⟩

/-- Cells are filled with the numbers behind the last one. -/
lemma fill_numbered (count i : Nat) (cells : Array Int32) :
    fill count cells (numbered i) =
      .ok (cells ++ ((List.range' (i + 1) count).map numbered).toArray, numbered (i + count)) := by
  induction count generalizing i cells with
  | zero => simp [fill]
  | succ count ih =>
    unfold fill
    rw [next_numbered]
    change fill count (cells.push (numbered (i + 1))) (numbered (i + 1)) = _
    rw [ih, List.range'_succ, List.map_cons, Nat.add_assoc i 1 count, Nat.add_comm 1 count]
    simp

/-- The matrices hold the numbers of the generator in their order, first the left one and then the
right one. -/
structure IsFilled (n : Nat) (w : MatrixProduct) : Prop where
  dimension : w.dimension = n
  left : w.left.toList = (List.range' 1 (n * n)).map numbered
  right : w.right.toList = (List.range' (n * n + 1) (n * n)).map numbered
  product : w.product.size = n * n

variable {params : WorkloadParams} {n : UInt64}

/-- Matrices of which the cells can be counted and addressed are made. -/
lemma exists_ofParams (hsize : params.size defaultSize = .ok n)
    (hfits : n.toNat * n.toNat < UInt64.size)
    (hroom : isAddressable (WorkloadParams.wordBytes * (n.toNat * n.toNat)) = true) :
    ∃ w, ofParams params = .ok w ∧ w.IsFilled n.toNat := by
  have hcheck : WorkloadParams.checkRoom (n.toNat * n.toNat) = .ok () := if_pos hroom
  have hleft := fill_numbered (n.toNat * n.toNat) 0 #[]
  have hright := fill_numbered (n.toNat * n.toNat) (n.toNat * n.toNat) #[]
  simp only [Array.empty_append, Nat.zero_add] at hleft hright
  refine ⟨⟨n.toNat, _, _, Array.replicate (n.toNat * n.toNat) 0⟩,
    bind_eq_ok.mpr ⟨n, hsize, ?_⟩, rfl, rfl, rfl, Array.size_replicate⟩
  dsimp only
  rw [if_pos hfits]
  refine bind_eq_ok.mpr ⟨(), hcheck, ?_⟩
  refine bind_eq_ok.mpr ⟨_, mapError_eq_ok.mpr hleft, ?_⟩
  exact bind_eq_ok.mpr ⟨_, mapError_eq_ok.mpr hright, rfl⟩

/-- Matrices of which the cells cannot be counted are refused. -/
lemma ofParams_eq_error (hsize : params.size defaultSize = .ok n)
    (hlarge : UInt64.size ≤ n.toNat * n.toNat) : ofParams params = .error (.matrix n) := by
  unfold ofParams
  rw [hsize]
  exact if_neg (Nat.not_lt.mpr hlarge)

/-! ### The cells of the product -/

/-- The number in a cell of a square matrix. -/
def entry (matrix : Array Int32) (dimension row column : Nat) : Int :=
  (matrix.getD (row * dimension + column) 0).toInt

/-- What a cell of the product is among all integers. -/
def exactCell (w : MatrixProduct) (row column : Nat) : Int :=
  ∑ k ∈ Finset.range w.dimension,
    entry w.left w.dimension row k * entry w.right w.dimension k column

/-- All matrices have as many cells as a square of the dimension. -/
structure IsSquare (w : MatrixProduct) : Prop where
  left : w.left.size = w.dimension * w.dimension
  right : w.right.size = w.dimension * w.dimension
  product : w.product.size = w.dimension * w.dimension

/-- So many cells of the product are right, row by row. -/
structure HasComputed (w : MatrixProduct) (count : Nat) (product : Array Int32) : Prop where
  size : product.size = w.dimension * w.dimension
  cells : ∀ i < count,
    product[i]? = some (Int32.ofInt (w.exactCell (i / w.dimension) (i % w.dimension)))

/-- The cells of a square matrix lie within it. -/
lemma index_lt {dimension row column : Nat} (hrow : row < dimension)
    (hcolumn : column < dimension) : row * dimension + column < dimension * dimension := by
  calc row * dimension + column < row * dimension + dimension := Nat.add_lt_add_left hcolumn _
    _ = (row + 1) * dimension := (Nat.succ_mul row dimension).symm
    _ ≤ dimension * dimension := Nat.mul_le_mul_right _ hrow

/-- The row of a cell. -/
lemma index_div {dimension row column : Nat} (hcolumn : column < dimension) :
    (row * dimension + column) / dimension = row := by
  rw [Nat.mul_comm, Nat.mul_add_div (Nat.zero_lt_of_lt hcolumn), Nat.div_eq_of_lt hcolumn,
    Nat.add_zero]

/-- A cell of a square matrix is there. -/
lemma exists_cellAt {matrix : Array Int32} {dimension row column : Nat}
    (hsize : matrix.size = dimension * dimension) (hrow : row < dimension)
    (hcolumn : column < dimension) :
    ∃ x, cellAt matrix (row * dimension + column) = .ok x ∧
      x.toInt = entry matrix dimension row column := by
  have hindex : row * dimension + column < matrix.size := hsize ▸ index_lt hrow hcolumn
  have hthere := Array.getElem?_eq_getElem hindex
  refine ⟨matrix[row * dimension + column], cellAt_eq_ok_iff.mpr hthere, ?_⟩
  unfold entry
  rw [Array.getD_eq_getD_getElem?, hthere]
  rfl

variable {w : MatrixProduct} {row column : Nat} {product : Array Int32}

/-- **A cell is the exact sum, reduced once.** -/
lemma dot_eq (h : w.IsSquare) (hrow : row < w.dimension) (hcolumn : column < w.dimension) :
    w.dot row column = .ok (Int32.ofInt (w.exactCell row column)) := by
  let upTo (k : Nat) : Int := ∑ j ∈ Finset.range k,
    entry w.left w.dimension row j * entry w.right w.dimension j column
  have hround : ∀ k < w.dimension, ∀ sum, sum = Int32.ofInt (upTo k) →
      ∃ next, (do
        let x ← cellAt w.left (row * w.dimension + k)
        let y ← cellAt w.right (k * w.dimension + column)
        return sum + x * y) = Except.ok next ∧ next = Int32.ofInt (upTo (k + 1)) := by
    rintro k hk sum rfl
    obtain ⟨x, hx, hleft⟩ := exists_cellAt h.left hrow hk
    obtain ⟨y, hy, hright⟩ := exists_cellAt h.right hk hcolumn
    have hnext : upTo (k + 1) = upTo k + x.toInt * y.toInt := by
      rw [hleft, hright]
      exact Finset.sum_range_succ _ k
    refine ⟨Int32.ofInt (upTo k) + x * y, ?_, ?_⟩
    · rw [hx, hy]
      rfl
    · rw [hnext, Int32.ofInt_add, Int32.ofInt_mul, Int32.ofInt_toInt, Int32.ofInt_toInt]
  obtain ⟨sum, hsum, rfl⟩ :=
    exists_foldlM_range (I := fun k sum => sum = Int32.ofInt (upTo k)) rfl hround
  exact hsum

/-- The next cell is stored behind those that are right. -/
lemma HasComputed.store (hcomputed : HasComputed w (row * w.dimension + column) product)
    (h : w.IsSquare) (hrow : row < w.dimension) (hcolumn : column < w.dimension) :
    ∃ product', (do store product (row * w.dimension + column) (← w.dot row column)) =
        Except.ok product' ∧ HasComputed w (row * w.dimension + (column + 1)) product' := by
  have hindex : row * w.dimension + column < product.size :=
    hcomputed.size ▸ index_lt hrow hcolumn
  rw [dot_eq h hrow hcolumn]
  refine ⟨_, store_of_lt hindex _, ?_, fun i hi => ?_⟩
  · rw [Array.size_set]
    exact hcomputed.size
  · have hplace : i < row * w.dimension + column ∨ i = row * w.dimension + column := by omega
    rw [Array.getElem?_set]
    rcases hplace with hlt | rfl
    · rw [if_neg (Nat.ne_of_gt hlt)]
      exact hcomputed.cells i hlt
    · rw [if_pos rfl, index_div hcolumn, Nat.mul_add_mod_of_lt hcolumn]

/-- A row is computed cell by cell. -/
lemma HasComputed.multiplyRow (hcomputed : HasComputed w (row * w.dimension) product)
    (h : w.IsSquare) (hrow : row < w.dimension) :
    ∃ product', w.multiplyRow product row = .ok product' ∧
      HasComputed w ((row + 1) * w.dimension) product' := by
  rw [Nat.succ_mul]
  exact exists_foldlM_range (I := fun column => HasComputed w (row * w.dimension + column))
    hcomputed fun column hcolumn product hproduct => hproduct.store h hrow hcolumn

/-- **The product is computed** row by row. -/
lemma exists_multiply (h : w.IsSquare) :
    ∃ product, w.multiply = .ok product ∧ HasComputed w (w.dimension * w.dimension) product := by
  have hstart : HasComputed w (0 * w.dimension) w.product := by
    rw [Nat.zero_mul]
    exact ⟨h.product, nofun⟩
  exact exists_foldlM_range (I := fun row => HasComputed w (row * w.dimension)) hstart
    fun row hrow product hproduct => hproduct.multiplyRow h hrow

/-! ### Calls to the workload -/

/-- The cells of the product are the exact sums of products, reduced to thirty-two bits with a
sign. -/
def IsMultiplied (w : MatrixProduct) : Prop :=
  ∀ row < w.dimension, ∀ column < w.dimension, ∃ x,
    w.product[row * w.dimension + column]? = some x ∧
      x.toInt = (w.exactCell row column).bmod (2 ^ 32)

/-- What has become of matrices by calls, the last of which comes first: they are what they were,
and their product has been computed if any of the calls was a run. -/
structure HasRun (first : MatrixProduct) (made : List Workload.Call) (w : MatrixProduct) :
    Prop where
  dimension : w.dimension = first.dimension
  left : w.left = first.left
  right : w.right = first.right
  square : w.IsSquare
  multiplied : .run ∈ made → w.IsMultiplied

variable {first : MatrixProduct} {made : List Workload.Call}

/-- A product of which all cells are right. -/
lemma HasComputed.isMultiplied
    (h : HasComputed w (w.dimension * w.dimension) product) :
    IsMultiplied { w with product := product } := by
  intro row hrow column hcolumn
  refine ⟨_, h.cells _ (index_lt hrow hcolumn), ?_⟩
  rw [index_div hcolumn, Nat.mul_add_mod_of_lt hcolumn, Int32.toInt_ofInt]
  rfl

/-- The matrices that are made have as many cells as they are to have. -/
lemma IsFilled.isSquare {n : Nat} (h : w.IsFilled n) : w.IsSquare := by
  have hsize : ∀ {matrix : Array Int32} {first : Nat},
      matrix.toList = (List.range' first (n * n)).map numbered → matrix.size = n * n := by
    intro matrix first hmatrix
    rw [← Array.length_toList, hmatrix, List.length_map, List.length_range']
  refine ⟨?_, ?_, ?_⟩
  · rw [h.dimension]
    exact hsize h.left
  · rw [h.dimension]
    exact hsize h.right
  · rw [h.dimension]
    exact h.product

/-- A preparation changes nothing. -/
lemma HasRun.prepare (h : HasRun first made w) : HasRun first (.prepare :: made) w := by
  refine ⟨h.dimension, h.left, h.right, h.square, fun hmem => ?_⟩
  exact h.multiplied (by simpa using hmem)

/-- A run computes the product and nothing else. -/
lemma HasRun.run (h : HasRun first made w) :
    ∃ w', MatrixProduct.run.on w = (.ok (), w') ∧ HasRun first (.run :: made) w' := by
  obtain ⟨product, hproduct, hcomputed⟩ := exists_multiply h.square
  have hon : MatrixProduct.run.on w = (.ok (), { w with product := product }) :=
    Attempt.on_replace hproduct
  refine ⟨_, hon, h.dimension, h.left, h.right, ?_, fun _ => hcomputed.isMultiplied⟩
  exact ⟨h.square.left, h.square.right, hcomputed.size⟩

/-- **Matrices are multiplied exactly, modulo thirty-two bits.**  If the cells of a square matrix
cannot be counted, the workload is refused, and nothing stops half-way.  Otherwise, as long as the
cells can be addressed, it is made.  Its left and then its right matrix hold the numbers that the
generator yields one after the other from zero; all of them lie below 8095, and none of them stops
the generator by leaving thirty-two bits on the way.  Whatever calls to the workload were made, they
succeed and leave both matrices as they were, and if any of them was a run, each cell of the product
is the sum, over all integers, of the products of a row and a column, reduced to thirty-two bits
with a sign. -/
theorem multiplies_exactly (params : WorkloadParams) (n : UInt64)
    (hsize : params.size defaultSize = .ok n) :
    (UInt64.size ≤ n.toNat * n.toNat → ofParams params = .error (.matrix n) ∧
      ∀ name, (Registry.Refusal.failed name (.matrix n)).fault? = none) ∧
    (n.toNat * n.toNat < UInt64.size →
      isAddressable (WorkloadParams.wordBytes * (n.toNat * n.toNat)) = true →
      ∃ w, ofParams params = .ok w ∧ w.IsFilled n.toNat ∧
        (numbered 0 = 0 ∧ ∀ i, next (numbered i) = .ok (numbered (i + 1)) ∧
          0 ≤ (numbered i).toInt ∧ (numbered i).toInt < 8095) ∧
        ∀ (calls : List Workload.Call) (clock : Clock), .run ∈ calls →
          ∃ w', (Workload.performAll calls).on (Benchmark.multiply w, clock) =
              (.ok (), (Benchmark.multiply w', clock)) ∧
            w'.dimension = w.dimension ∧ w'.left = w.left ∧ w'.right = w.right ∧
            w'.IsMultiplied) := by
  refine ⟨fun hlarge => ⟨ofParams_eq_error hsize hlarge, fun _ => rfl⟩, fun hfits hroom => ?_⟩
  obtain ⟨w, hw, hfilled⟩ := exists_ofParams hsize hfits hroom
  have hnumbers : ∀ i, next (numbered i) = .ok (numbered (i + 1)) ∧
      0 ≤ (numbered i).toInt ∧ (numbered i).toInt < 8095 := by
    intro i
    have hlt := number_lt i
    rw [toInt_numbered]
    exact ⟨next_numbered i, Int.natCast_nonneg _, by omega⟩
  refine ⟨w, hw, hfilled, ⟨rfl, hnumbers⟩, fun calls clock hrun => ?_⟩
  have hstart : HasRun w [] w := ⟨rfl, rfl, rfl, hfilled.isSquare, nofun⟩
  obtain ⟨w', hon, h⟩ := Benchmark.isMadeOf_multiply.performs (fun _ _ => HasRun.prepare)
    (fun _ _ => HasRun.run) hstart calls clock
  have hmultiplied : w'.IsMultiplied := h.multiplied (List.mem_reverse.mpr hrun)
  exact ⟨w', hon, h.dimension, h.left, h.right, hmultiplied⟩

/-- Matrices of two rows and columns. -/
def small : WorkloadParams where
  inputSize := some 2
  seed := 0

/-- Matrices whose cells cannot be counted by one. -/
def huge : WorkloadParams where
  inputSize := some 4294967296
  seed := 0

/-- A cell of a small product after two runs, and a refusal. -/
theorem multiplies_exactly_of_small :
    small.size defaultSize = .ok 2 ∧ huge.size defaultSize = .ok 4294967296 ∧
    (∃ w w', ofParams small = .ok w ∧
      (Workload.performAll [.run, .prepare, .run]).on (Benchmark.multiply w, Clock.shared) =
        (.ok (), (Benchmark.multiply w', Clock.shared)) ∧
      ∃ x, w'.product[2]? = some x ∧ x.toInt = 2753 * 1056 + 1955 * 7178) ∧
    ofParams huge = .error (.matrix 4294967296) := by
  have hsmall : small.size defaultSize = .ok 2 := by decide
  have hhuge : huge.size defaultSize = .ok 4294967296 := by decide
  refine ⟨hsmall, hhuge, ?_, ((multiplies_exactly huge _ hhuge).1 (by decide)).1⟩
  obtain ⟨w, hw, hfilled, -, hcalls⟩ :=
    (multiplies_exactly small 2 hsmall).2 (by decide) (by decide)
  obtain ⟨w', hon, hdimension, hleft, hright, hmultiplied⟩ :=
    hcalls [.run, .prepare, .run] Clock.shared (by decide)
  have htwo : w'.dimension = 2 := hdimension.trans hfilled.dimension
  obtain ⟨x, hx, hexact⟩ := hmultiplied 1 (by omega) 0 (by omega)
  have hleft' : w'.left = ((List.range' 1 4).map numbered).toArray :=
    hleft.trans (Array.ext' hfilled.left)
  have hright' : w'.right = ((List.range' 5 4).map numbered).toArray :=
    hright.trans (Array.ext' hfilled.right)
  have hcell : w'.exactCell 1 0 = 2753 * 1056 + 1955 * 7178 := by
    unfold exactCell
    rw [htwo, hleft', hright']
    decide +kernel
  rw [htwo] at hx
  refine ⟨w, w', hw, hon, x, hx, ?_⟩
  rw [hexact, hcell]
  decide

end Lockstep.MatrixProduct
