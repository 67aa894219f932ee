import Lockstep.Analysis.Comparison
import Lockstep.Proofs.Analysis.Partition

/-!
# Comparisons are exact

A row of a comparison is formed in one of three ways: by a difference, by a change of the sign, or
by taking a row as it is.  All of them have one meaning, in which a row that is not there counts as
nothing (`RowChange.IsExact`).  They agree on it as long as the numbers of cycles have room for a
sign.

The rows of both analyses are found by their keys through hash tables.  Where each key has one row
at most, the tables find this row or tell that there is none, so that a comparison is made of the
rows of all keys that one of the analyses has (`Comparison.IsOf`), whatever the order in which the
keys are gone through.
-/

namespace Lockstep

/-! ### Numbers with a sign -/

/-- A number that has room for a sign stays the same with one. -/
lemma toInt_toInt64 {n : UInt64} (h : n.toNat < 2 ^ 63) : n.toInt64.toInt = n.toNat := by
  change n.toBitVec.toInt = _
  rw [BitVec.toInt_eq_toNat_of_lt]
  · rfl
  · change 2 * n.toNat < 2 ^ 64
    omega

/-- A checked integer that is not there has left the range. -/
lemma eq_overflow_of_checkedInt {n : Int} {fault : Fault} (h : checkedInt n = .error fault) :
    fault = .overflow := by
  unfold checkedInt at h
  split at h
  · cases h
  · exact (Except.error.inj h).symm

/-- A checked integer in the range stays the same. -/
lemma exists_checkedInt {n : Int} (hlow : -2 ^ 63 ≤ n) (hhigh : n < 2 ^ 63) :
    ∃ m, checkedInt n = .ok m ∧ m.toInt = n := by
  have hmin : Int64.minValue.toInt = -2 ^ 63 := by decide
  have hmax : Int64.maxValue.toInt = 2 ^ 63 - 1 := by decide
  exact ⟨_, checkedInt_of_mem (by omega), Int64.toInt_ofInt_of_le hlow hhigh⟩

/-- The difference of numbers that have room for a sign is exact. -/
lemma exists_difference {base change : UInt64} (hbase : base.toNat < 2 ^ 63)
    (hchange : change.toNat < 2 ^ 63) :
    ∃ d, difference base change = .ok d ∧ d.toInt = (change.toNat : Int) - base.toNat := by
  unfold difference
  rw [toInt_toInt64 hbase, toInt_toInt64 hchange]
  exact exists_checkedInt (by omega) (by omega)

/-- What is left where a number that has room for a sign is taken away is exact. -/
lemma exists_takenAway {n : UInt64} (h : n.toNat < 2 ^ 63) :
    ∃ d, takenAway n = .ok d ∧ d.toInt = -(n.toNat : Int) := by
  unfold takenAway
  rw [toInt_toInt64 h]
  exact exists_checkedInt (by omega) (by omega)

/-! ### Changes of rows -/

/-- A number of a row, which is zero where there is no row. -/
def Row.numberOf (number : Row → Nat) (row : Option Row) : Int :=
  match row with
  | some row => number row
  | none => 0

/-- How much the median of a row has changed. -/
def Row.medianShift (base change : Option Row) : Float :=
  match base, change with
  | some base, some change => change.median - base.median
  | some base, none => -base.median
  | none, some change => change.median
  | none, none => 0

/-- The numbers of cycles of a row have room for a sign. -/
def Row.IsSmall (row : Row) : Prop :=
  row.min.toNat < 2 ^ 63 ∧ row.max.toNat < 2 ^ 63

namespace RowChange

/-- The one meaning of all changes of rows. -/
structure IsExact (base change : Option Row) (c : RowChange) : Prop where
  iterations_eq : c.iterations =
    Row.numberOf (·.iterations) change - Row.numberOf (·.iterations) base
  min_eq : c.min.toInt = Row.numberOf (·.min.toNat) change - Row.numberOf (·.min.toNat) base
  max_eq : c.max.toInt = Row.numberOf (·.max.toNat) change - Row.numberOf (·.max.toNat) base
  median_eq : c.median = Row.medianShift base change

variable {base change : Option Row} {c : RowChange} {key : RowKey}

/-- Of a row that is there, a change is only missing because a number has left its range. -/
lemma eq_overflow_of_error {fault : Fault} (h : of base change = .error fault)
    (hsome : base ≠ none ∨ change ≠ none) : fault = .overflow := by
  match base, change with
  | some x, some y =>
    rcases bind_eq_error.mp h with hmin | ⟨min, -, hrest⟩
    · exact eq_overflow_of_checkedInt hmin
    · rcases bind_eq_error.mp hrest with hmax | ⟨max, -, hrest⟩
      · exact eq_overflow_of_checkedInt hmax
      · cases hrest
  | some x, none =>
    rcases bind_eq_error.mp h with hmin | ⟨min, -, hrest⟩
    · exact eq_overflow_of_checkedInt hmin
    · rcases bind_eq_error.mp hrest with hmax | ⟨max, -, hrest⟩
      · exact eq_overflow_of_checkedInt hmax
      · cases hrest
  | none, some y => cases h
  | none, none => simp at hsome

/-- A change of rows has the key of the rows. -/
lemma key_eq_of_eq_ok (h : of base change = .ok c) (hbase : ∀ x ∈ base, x.key = key)
    (hchange : ∀ y ∈ change, y.key = key) : c.key = key := by
  match base, change with
  | some x, some y =>
    obtain ⟨min, -, hrest⟩ := bind_eq_ok.mp h
    obtain ⟨max, -, hrest⟩ := bind_eq_ok.mp hrest
    obtain rfl := Except.ok.inj hrest
    exact hchange y rfl
  | some x, none =>
    obtain ⟨min, -, hrest⟩ := bind_eq_ok.mp h
    obtain ⟨max, -, hrest⟩ := bind_eq_ok.mp hrest
    obtain rfl := Except.ok.inj hrest
    exact hbase x rfl
  | none, some y =>
    obtain rfl := Except.ok.inj h
    exact hchange y rfl
  | none, none => cases h

/-- There is no change without a row. -/
lemma exists_row_of_eq_ok (h : of base change = .ok c) : base ≠ none ∨ change ≠ none := by
  match base, change with
  | some x, _ => exact Or.inl (Option.some_ne_none x)
  | none, some y => exact Or.inr (Option.some_ne_none y)
  | none, none => cases h

/-- **All changes of rows whose numbers have room for a sign are exact.** -/
theorem exists_exact (hsome : base ≠ none ∨ change ≠ none) (hbase : ∀ x ∈ base, x.IsSmall)
    (hchange : ∀ y ∈ change, y.IsSmall) : ∃ c, of base change = .ok c ∧ c.IsExact base change := by
  match base, change with
  | some x, some y =>
    obtain ⟨min, hmin, hminEq⟩ := exists_difference (hbase x rfl).1 (hchange y rfl).1
    obtain ⟨max, hmax, hmaxEq⟩ := exists_difference (hbase x rfl).2 (hchange y rfl).2
    exact ⟨_, bind_eq_ok.mpr ⟨min, hmin, bind_eq_ok.mpr ⟨max, hmax, rfl⟩⟩, rfl, hminEq, hmaxEq, rfl⟩
  | some x, none =>
    obtain ⟨min, hmin, hminEq⟩ := exists_takenAway (hbase x rfl).1
    obtain ⟨max, hmax, hmaxEq⟩ := exists_takenAway (hbase x rfl).2
    refine ⟨_, bind_eq_ok.mpr ⟨min, hmin, bind_eq_ok.mpr ⟨max, hmax, rfl⟩⟩, ?_, ?_, ?_, rfl⟩
    · exact (Int.zero_sub _).symm
    · exact hminEq.trans (Int.zero_sub _).symm
    · exact hmaxEq.trans (Int.zero_sub _).symm
  | none, some y =>
    refine ⟨added y, rfl, ?_, ?_, ?_, rfl⟩
    · exact (Int.sub_zero _).symm
    · exact (toInt_toInt64 (hchange y rfl).1).trans (Int.sub_zero _).symm
    · exact (toInt_toInt64 (hchange y rfl).2).trans (Int.sub_zero _).symm
  | none, none => simp at hsome

/-! ### The order of changes -/

instance : Std.TransCmp order :=
  have hmedian : Std.TransCmp fun a b : RowChange =>
      compare (Decimal.rank a.median) (Decimal.rank b.median) := inferInstance
  have : Std.TransCmp fun a b : RowChange =>
      compare (Decimal.rank b.median) (Decimal.rank a.median) := hmedian.opposite
  inferInstanceAs (Std.TransCmp (compareLex
    (fun a b : RowChange => compare (Decimal.rank b.median) (Decimal.rank a.median))
    (compareOn RowChange.key)))

/-- The greatest change of the median comes first; where the medians have changed equally, the least
key does. -/
lemma order_eq_lt {x y : RowChange} : order x y = .lt ↔
    Decimal.rank y.median < Decimal.rank x.median ∨
      Decimal.rank x.median = Decimal.rank y.median ∧ compare x.key y.key = .lt := by
  unfold order
  rw [Ordering.then_eq_lt, Int.compare_eq_lt, Int.compare_eq_eq, eq_comm]

/-- Changes of different keys are told apart. -/
lemma order_ne_eq {x y : RowChange} (h : x.key ≠ y.key) : order x y ≠ .eq := by
  intro heq
  rw [order, Ordering.then_eq_eq] at heq
  exact h (Std.LawfulEqOrd.compare_eq_iff_eq.mp heq.2)

end RowChange

/-! ### Rows by their keys -/

namespace Analysis

/-- The rows are in the order of their keys, and no key has two rows. -/
def InOrder (a : Analysis) : Prop :=
  a.rows.Pairwise fun x y => compare x.key y.key = .lt

/-- The row of a key. -/
def rowOf (a : Analysis) (key : RowKey) : Option Row :=
  a.rows.find? fun row => row.key = key

variable {a : Analysis} {key : RowKey} {row : Row}

/-- The row of a key is a row that has the key. -/
lemma mem_of_rowOf_eq_some (h : a.rowOf key = some row) : row ∈ a.rows ∧ row.key = key := by
  refine ⟨List.mem_of_find?_eq_some h, ?_⟩
  have hfound := List.find?_some h
  rwa [decide_eq_true_eq] at hfound

/-- There is a row of a key if a row has it. -/
lemma rowOf_ne_none_iff : a.rowOf key ≠ none ↔ ∃ row ∈ a.rows, row.key = key := by
  rw [rowOf, ← Option.isSome_iff_ne_none, List.find?_isSome]
  simp only [decide_eq_true_eq]

lemma InOrder.nodup_keys (h : a.InOrder) : (a.rows.map (·.key)).Nodup :=
  nodup_of_pairwise_lt (List.pairwise_map.mpr h)

end Analysis

namespace Comparison

variable {base change : Analysis} {c c' : Comparison}

/-- The places are those of the keys of all rows. -/
lemma map_fst_zipIdx (rows : List Row) :
    (rows.zipIdx.map fun (row, i) => (row.key, i)).map Prod.fst = rows.map (·.key) := by
  calc
    _ = (rows.zipIdx.map Prod.fst).map (·.key) := by
      rw [List.map_map, List.map_map]
      rfl
    _ = rows.map (·.key) := by rw [List.zipIdx_map_fst]

/-- The place of a key is the place of its row. -/
lemma places_of_getElem? {a : Analysis} (h : a.InOrder) {i : Nat} {row : Row}
    (hrow : a.rows[i]? = some row) : (places a.rows)[row.key]? = some i := by
  have hapart : (a.rows.zipIdx.map fun (row, i) => (row.key, i)).Pairwise
      fun x y => (x.1 == y.1) = false := by
    have hnodup := h.nodup_keys
    rw [← map_fst_zipIdx] at hnodup
    exact (List.pairwise_map.mp hnodup).imp beq_false_of_ne
  refine Std.HashMap.getElem?_ofList_of_mem (beq_self_eq_true _) hapart ?_
  exact List.mem_map.mpr ⟨(row, i), List.mk_mem_zipIdx_iff_getElem?.mpr hrow, rfl⟩

/-- A key that no row has does not have a place. -/
lemma places_eq_none {a : Analysis} {key : RowKey} (h : a.rowOf key = none) :
    (places a.rows)[key]? = none := by
  apply Std.HashMap.getElem?_ofList_of_contains_eq_false
  rw [map_fst_zipIdx, List.contains_eq_mem, decide_eq_false_iff_not, List.mem_map]
  exact fun hrow => Analysis.rowOf_ne_none_iff.mpr hrow h

/-- A row is found by its key. -/
lemma rowAt_places {a : Analysis} (h : a.InOrder) (key : RowKey) :
    rowAt a.rows (places a.rows)[key]? = .ok (a.rowOf key) := by
  cases hfound : a.rowOf key with
  | none =>
    rw [places_eq_none hfound]
    rfl
  | some row =>
    obtain ⟨hrow, rfl⟩ := Analysis.mem_of_rowOf_eq_some hfound
    obtain ⟨i, hi⟩ := List.mem_iff_getElem?.mp hrow
    rw [places_of_getElem? h hi, rowAt, hi]

/-! ### Analyses -/

/-- What a comparison is made of: the changes of all rows, in their order. -/
structure IsOf (base change : Analysis) (c : Comparison) : Prop where
  records_eq : c.records = (change.records : Int) - base.records
  ordered : c.rows.Pairwise fun x y => RowChange.order x y = .lt
  mem_rows : ∀ x, x ∈ c.rows ↔ RowChange.of (base.rowOf x.key) (change.rowOf x.key) = .ok x
  /-- The changes of all rows are there. -/
  comes : ∀ key, base.rowOf key ≠ none ∨ change.rowOf key ≠ none →
    ∃ x, RowChange.of (base.rowOf key) (change.rowOf key) = .ok x

/-- The keys that are gone through are those of all rows. -/
lemma mem_arrange_keys (visit : Visit RowKey) {key : RowKey} :
    key ∈ visit.arrange (keys base change).toList ↔
      base.rowOf key ≠ none ∨ change.rowOf key ≠ none := by
  rw [visit.mem_arrange, Std.HashSet.mem_toList, keys, Std.HashSet.mem_ofList,
    List.contains_iff_mem, List.map_append, List.mem_append, List.mem_map, List.mem_map,
    Analysis.rowOf_ne_none_iff, Analysis.rowOf_ne_none_iff]

/-- A change of rows has the key that the rows were found by. -/
lemma key_eq_of_rowOf {key : RowKey} {x : RowChange}
    (h : RowChange.of (base.rowOf key) (change.rowOf key) = .ok x) : x.key = key :=
  RowChange.key_eq_of_eq_ok h (fun _ hx => (Analysis.mem_of_rowOf_eq_some hx).2)
    fun _ hy => (Analysis.mem_of_rowOf_eq_some hy).2

/-- The changes of all rows make up a comparison. -/
lemma isOf_of_mapM {visit : Visit RowKey} {rows : List RowChange}
    (h : (visit.arrange (keys base change).toList).mapM
      (fun key => RowChange.of (base.rowOf key) (change.rowOf key)) = .ok rows) :
    IsOf base change ⟨rows.mergeSort fun a b => (RowChange.order a b).isLE,
      (change.records : Int) - base.records⟩ := by
  refine ⟨rfl, ?_, fun x => ?_, fun key hkey => ?_⟩
  · -- each key is gone through once
    have hkeys : rows.map (·.key) = (visit.arrange (keys base change).toList).map id :=
      map_eq_of_mapM_eq_ok h fun key _ x hx => key_eq_of_rowOf hx
    have hnodup : (rows.map (·.key)).Nodup := by
      rw [hkeys, List.map_id, (visit.perm _).nodup_iff]
      exact Std.HashSet.distinct_toList.imp ne_of_beq_false
    exact pairwise_lt_mergeSort ((List.pairwise_map.mp hnodup).imp RowChange.order_ne_eq)
  · rw [(List.mergeSort_perm rows _).mem_iff, mem_iff_of_mapM_eq_ok h]
    constructor
    · rintro ⟨key, -, hx⟩
      rwa [key_eq_of_rowOf hx]
    · intro hx
      exact ⟨x.key, (mem_arrange_keys visit).mpr (RowChange.exists_row_of_eq_ok hx), hx⟩
  · obtain ⟨x, -, hx⟩ := exists_of_mapM_eq_ok h ((mem_arrange_keys visit).mpr hkey)
    exact ⟨x, hx⟩

/-- A comparison changes the rows of each key, which the tables find. -/
lemma ofAnalysesIn_eq (hbase : base.InOrder) (hchange : change.InOrder) (visit : Visit RowKey) :
    ofAnalysesIn visit base change =
      ((visit.arrange (keys base change).toList).mapM fun key =>
        RowChange.of (base.rowOf key) (change.rowOf key)).map fun rows =>
          ⟨rows.mergeSort fun a b => (RowChange.order a b).isLE,
            (change.records : Int) - base.records⟩ := by
  have hrow : rowOf base change (places base.rows) (places change.rows) =
      fun key => RowChange.of (base.rowOf key) (change.rowOf key) := by
    funext key
    rw [rowOf, rowAt_places hbase, rowAt_places hchange]
    rfl
  rw [← hrow]
  rfl

/-- **A comparison is made of the changes of all rows**, whatever the order in which their keys are
gone through, or a number has left its range. -/
theorem ofAnalysesIn_cases (hbase : base.InOrder) (hchange : change.InOrder)
    (visit : Visit RowKey) :
    (∃ c, ofAnalysesIn visit base change = .ok c ∧ c.IsOf base change) ∨
      (∃ key, (base.rowOf key ≠ none ∨ change.rowOf key ≠ none) ∧
        RowChange.of (base.rowOf key) (change.rowOf key) = .error .overflow) ∧
        ofAnalysesIn visit base change = .error .overflow := by
  rw [ofAnalysesIn_eq hbase hchange]
  cases hmap : (visit.arrange (keys base change).toList).mapM
      fun key => RowChange.of (base.rowOf key) (change.rowOf key) with
  | error fault =>
    obtain ⟨key, hkey, hfault⟩ := exists_of_mapM_eq_error hmap
    have hsome := (mem_arrange_keys visit).mp hkey
    obtain rfl := RowChange.eq_overflow_of_error hfault hsome
    exact Or.inr ⟨⟨key, hsome, hfault⟩, rfl⟩
  | ok rows => exact Or.inl ⟨_, rfl, isOf_of_mapM hmap⟩

/-- Analyses have one comparison at most. -/
lemma IsOf.unique (h : c.IsOf base change) (h' : c'.IsOf base change) : c = c' := by
  have hrows : c.rows = c'.rows :=
    eq_of_pairwise_lt h.ordered h'.ordered fun x => (h.mem_rows x).trans (h'.mem_rows x).symm
  have hrecords : c.records = c'.records := h.records_eq.trans h'.records_eq.symm
  cases c
  cases c'
  exact congr (congrArg _ hrows) hrecords

/-! ### What a comparison tells -/

/-- How the rows of a comparison tell two analyses apart. -/
structure Compares (base change : Analysis) (c : Comparison) : Prop where
  /-- The keys of the rows are the keys that the rows of one of the analyses have. -/
  key_iff : ∀ key, (∃ x ∈ c.rows, x.key = key) ↔
    (∃ row ∈ base.rows, row.key = key) ∨ ∃ row ∈ change.rows, row.key = key
  /-- No key has two rows. -/
  nodup_keys : (c.rows.map (·.key)).Nodup
  /-- Each row tells the differences of the rows of its key, where no row counts as nothing. -/
  exact : ∀ x ∈ c.rows, x.IsExact (base.rowOf x.key) (change.rowOf x.key)
  records_eq : c.records = (change.records : Int) - base.records
  /-- The medians descend, and where they are equal the keys ascend. -/
  ordered : c.rows.Pairwise fun x y =>
    Decimal.rank y.median < Decimal.rank x.median ∨
      Decimal.rank x.median = Decimal.rank y.median ∧ compare x.key y.key = .lt

/-- The comparison tells the opposite of another one. -/
structure Reverses (c c' : Comparison) : Prop where
  rows : ∀ x ∈ c.rows, ∃ y ∈ c'.rows, y.key = x.key ∧ y.iterations = -x.iterations ∧
    y.min.toInt = -x.min.toInt ∧ y.max.toInt = -x.max.toInt
  records_eq : c'.records = -c.records

/-- The changes of rows tell of each key that has a row, and of no other one. -/
lemma IsOf.key_iff (h : c.IsOf base change) (key : RowKey) : (∃ x ∈ c.rows, x.key = key) ↔
    (∃ row ∈ base.rows, row.key = key) ∨ ∃ row ∈ change.rows, row.key = key := by
  rw [← Analysis.rowOf_ne_none_iff, ← Analysis.rowOf_ne_none_iff]
  constructor
  · rintro ⟨x, hx, rfl⟩
    exact RowChange.exists_row_of_eq_ok ((h.mem_rows x).mp hx)
  · intro hkey
    obtain ⟨x, hx⟩ := h.comes key hkey
    obtain rfl := key_eq_of_rowOf hx
    exact ⟨x, (h.mem_rows x).mpr hx, rfl⟩

/-- The changes of rows that are exact have different keys, and tell of each key that has a row. -/
lemma IsOf.compares (h : c.IsOf base change)
    (hbase : ∀ row ∈ base.rows, row.IsSmall) (hchange : ∀ row ∈ change.rows, row.IsSmall) :
    c.Compares base change := by
  constructor
  case key_iff => exact h.key_iff
  case nodup_keys =>
    -- rows of one key are the same change, and no change stands there twice
    have hnodup : c.rows.Nodup := nodup_of_pairwise_lt h.ordered
    refine hnodup.map_on fun x hx y hy hkey => ?_
    have hof := (h.mem_rows x).mp hx
    rw [hkey, (h.mem_rows y).mp hy] at hof
    exact (Except.ok.inj hof).symm
  case exact =>
    intro x hx
    have hof := (h.mem_rows x).mp hx
    obtain ⟨y, hy, hexact⟩ := RowChange.exists_exact (RowChange.exists_row_of_eq_ok hof)
      (fun row hrow => hbase row (Analysis.mem_of_rowOf_eq_some hrow).1)
      (fun row hrow => hchange row (Analysis.mem_of_rowOf_eq_some hrow).1)
    obtain rfl := Except.ok.inj (hof.symm.trans hy)
    exact hexact
  case records_eq => exact h.records_eq
  case ordered => exact h.ordered.imp RowChange.order_eq_lt.mp

/-- Analyses whose numbers of cycles have room for a sign can be compared. -/
lemma exists_isOf (hbase : base.InOrder) (hchange : change.InOrder)
    (hbaseSmall : ∀ row ∈ base.rows, row.IsSmall) (hchangeSmall : ∀ row ∈ change.rows, row.IsSmall)
    (visit : Visit RowKey) : ∃ c, ofAnalysesIn visit base change = .ok c ∧ c.IsOf base change := by
  rcases ofAnalysesIn_cases hbase hchange visit with hok | ⟨⟨key, hsome, hover⟩, -⟩
  · exact hok
  · obtain ⟨x, hx, -⟩ := RowChange.exists_exact hsome
      (fun row hrow => hbaseSmall row (Analysis.mem_of_rowOf_eq_some hrow).1)
      (fun row hrow => hchangeSmall row (Analysis.mem_of_rowOf_eq_some hrow).1)
    cases hx.symm.trans hover

/-- Comparisons of the same analyses the other way round tell the opposite of each other. -/
lemma Compares.reverses (h : c.Compares base change) (h' : c'.Compares change base) :
    c.Reverses c' := by
  constructor
  · intro x hx
    obtain ⟨y, hy, hkey⟩ := (h'.key_iff x.key).mpr (((h.key_iff x.key).mp ⟨x, hx, rfl⟩).symm)
    have hx := h.exact x hx
    have hy' := h'.exact y hy
    rw [hkey] at hy'
    refine ⟨y, hy, hkey, ?_, ?_, ?_⟩
    · rw [hx.iterations_eq, hy'.iterations_eq, Int.neg_sub]
    · rw [hx.min_eq, hy'.min_eq, Int.neg_sub]
    · rw [hx.max_eq, hy'.max_eq, Int.neg_sub]
  · rw [h.records_eq, h'.records_eq, Int.neg_sub]

end Comparison

namespace Analysis

variable {grouping : Grouping} {c base change : Capture} {a b : Analysis}

/-- The numbers of cycles of a row have room for a sign if those of all records do. -/
lemma Divides.isSmall (h : Divides grouping c a)
    (hcycles : ∀ r ∈ c.records, r.cycles.toNat < 2 ^ 63) : ∀ row ∈ a.rows, row.IsSmall := by
  intro row hrow
  have hcyclesOf : ∀ n ∈ (recordsOf grouping c.records row.key).map (·.cycles),
      n.toNat < 2 ^ 63 := by
    intro n hn
    obtain ⟨r, hr, rfl⟩ := List.mem_map.mp hn
    exact hcycles r (Table.mem_own.mp hr).1
  obtain ⟨⟨hmin, hmax⟩, -⟩ := Row.min_max_of_ofCycles ((h.mem_rows row).mp hrow).eq_ofCycles
  exact ⟨hcyclesOf _ hmin, hcyclesOf _ hmax⟩

/-- **Comparisons are exact.**  Analyses of records whose cycles have room for a sign can be
compared in both directions, whatever the orders in which tables are gone through.  Both comparisons
have one row for each key, tell how much its rows differ, and are strictly ordered; and they tell
the opposite of each other. -/
theorem compares_exactly {visits visits' : Visits}
    (hbase : ∀ r ∈ base.records, r.cycles.toNat < 2 ^ 63)
    (hchange : ∀ r ∈ change.records, r.cycles.toNat < 2 ^ 63)
    (ha : ofCaptureIn visits grouping base = .ok a)
    (hb : ofCaptureIn visits' grouping change = .ok b) (visit visit' : Visit RowKey) :
    ∃ forth back, Comparison.ofAnalysesIn visit a b = .ok forth ∧
      Comparison.ofAnalysesIn visit' b a = .ok back ∧
      forth.Compares a b ∧ back.Compares b a ∧ forth.Reverses back := by
  have hadivides := divides_of_ofCaptureIn ha
  have hbdivides := divides_of_ofCaptureIn hb
  have hasmall := hadivides.isSmall hbase
  have hbsmall := hbdivides.isSmall hchange
  obtain ⟨forth, hforth, hforthOf⟩ := Comparison.exists_isOf hadivides.ascending
    hbdivides.ascending hasmall hbsmall visit
  obtain ⟨back, hback, hbackOf⟩ := Comparison.exists_isOf hbdivides.ascending
    hadivides.ascending hbsmall hasmall visit'
  have hforthCompares := hforthOf.compares hasmall hbsmall
  have hbackCompares := hbackOf.compares hbsmall hasmall
  exact ⟨forth, back, hforth, hback, hforthCompares, hbackCompares,
    hforthCompares.reverses hbackCompares⟩

/-- A core that was measured alone. -/
def alone : Capture :=
  ⟨[⟨"solo", "matrix", 1, 0, 1, 0, 100, []⟩, ⟨"solo", "matrix", 1, 0, 2, 0, 104, []⟩], 0⟩

/-- The same core beside another one. -/
def accompanied : Capture :=
  ⟨[⟨"pair", "matrix", 2, 0, 1, 0, 150, []⟩, ⟨"pair", "walk", 2, 1, 1, 0, 10, []⟩], 0⟩

/-- A core alone and beside another one can be compared exactly. -/
theorem compares_exactly_of_alone : ∃ a b forth back,
    ofCapture .workload alone = .ok a ∧ ofCapture .workload accompanied = .ok b ∧
      Comparison.ofAnalyses a b = .ok forth ∧ Comparison.ofAnalyses b a = .ok back ∧
      forth.Compares a b ∧ back.Compares b a ∧ forth.Reverses back := by
  obtain ⟨a, ha, -⟩ := exists_divides (c := alone) (fit_of_length_le (by decide)) .listed
  obtain ⟨b, hb, -⟩ := exists_divides (c := accompanied) (fit_of_length_le (by decide)) .listed
  obtain ⟨forth, back, h⟩ :=
    compares_exactly (by decide) (by decide) ha hb .listed .listed
  exact ⟨a, b, forth, back, ha, hb, h⟩

end Analysis

end Lockstep
