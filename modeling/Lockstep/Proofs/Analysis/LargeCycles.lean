import Lockstep.Proofs.Analysis.Comparison

/-!
# How far comparisons reach

Cycles are numbers of sixty-four bits, and so are their differences, but these have a sign.  A
comparison gives the numbers their sign first and subtracts them afterwards.  So it is not enough
that a difference fits: of two numbers on both sides of `2 ^ 63`, the greater one becomes negative,
and a small difference between them is taken for one that leaves the range.

This is the only fault of a comparison (`Straddles`).  All other differences that fit are exact, and
those that do not fit are cut to sixty-four bits (`RowChange.IsWrapped`).  To show this, the three
ways in which a row of a comparison is formed are brought together in one, in which a row that is
not there has no cycles (`RowChange.of_eq`).
-/

namespace Lockstep

/-! ### Numbers that get a sign -/

/-- The integer is one of sixty-four bits with a sign. -/
def IsSigned (n : Int) : Prop :=
  -2 ^ 63 ≤ n ∧ n < 2 ^ 63

instance (n : Int) : Decidable (IsSigned n) :=
  inferInstanceAs (Decidable (_ ∧ _))

/-- One of two numbers has room for a sign and the other one has not, although their difference
is one of sixty-four bits with a sign. -/
structure Straddles (base change : Int) : Prop where
  sides : base < 2 ^ 63 ↔ 2 ^ 63 ≤ change
  difference : IsSigned (change - base)

lemma straddles_iff {base change : Int} : Straddles base change ↔
    (base < 2 ^ 63 ↔ 2 ^ 63 ≤ change) ∧ -2 ^ 63 ≤ change - base ∧ change - base < 2 ^ 63 :=
  ⟨fun h => ⟨h.sides, h.difference⟩, fun h => ⟨h.1, h.2⟩⟩

instance (base change : Int) : Decidable (Straddles base change) :=
  decidable_of_iff' _ straddles_iff

/-- A number that has no room for a sign becomes negative. -/
lemma toInt_toInt64_cases (n : UInt64) :
    (n.toNat < 2 ^ 63 ∧ n.toInt64.toInt = n.toNat) ∨
      (2 ^ 63 ≤ n.toNat ∧ n.toInt64.toInt = (n.toNat : Int) - 2 ^ 64) := by
  by_cases h : n.toNat < 2 ^ 63
  · exact Or.inl ⟨h, toInt_toInt64 h⟩
  · refine Or.inr ⟨Nat.not_lt.mp h, ?_⟩
    change n.toBitVec.toInt = _
    rw [BitVec.toInt_eq_toNat_cond, if_neg]
    · rfl
    · change ¬ 2 * n.toNat < 2 ^ 64
      omega

/-- Integers that differ by as many as there are numbers of sixty-four bits are cut to the same
one. -/
lemma ofInt_add_size (n : Int) : Int64.ofInt (n + 2 ^ 64) = Int64.ofInt n := by
  apply Int64.toInt_inj.mp
  rw [Int64.toInt_ofInt, Int64.toInt_ofInt]
  exact Int.add_bmod_right n Int64.size

/-- An integer is checked by its range. -/
lemma checkedInt_cases (n : Int) :
    (IsSigned n ∧ checkedInt n = .ok (Int64.ofInt n)) ∨
      (¬ IsSigned n ∧ checkedInt n = .error .overflow) := by
  have hmin : Int64.minValue.toInt = -2 ^ 63 := by decide
  have hmax : Int64.maxValue.toInt = 2 ^ 63 - 1 := by decide
  unfold IsSigned
  by_cases h : -2 ^ 63 ≤ n ∧ n < 2 ^ 63
  · exact Or.inl ⟨h, checkedInt_of_mem (by omega)⟩
  · refine Or.inr ⟨h, ?_⟩
    unfold checkedInt
    rw [if_neg]
    omega

/-- Signed numbers differ as the numbers themselves do, but for the size of the signed numbers, and
they can be subtracted unless the numbers straddle. -/
lemma signed_sub (base change : UInt64) :
    Int64.ofInt (change.toInt64.toInt - base.toInt64.toInt) =
        Int64.ofInt ((change.toNat : Int) - base.toNat) ∧
      (IsSigned (change.toInt64.toInt - base.toInt64.toInt) ↔
        ¬ Straddles base.toNat change.toNat) := by
  have hbaseLt := base.toNat_lt
  have hchangeLt := change.toNat_lt
  rw [straddles_iff]
  unfold IsSigned
  rcases toInt_toInt64_cases base with ⟨hbase, hb⟩ | ⟨hbase, hb⟩
  · rcases toInt_toInt64_cases change with ⟨hchange, hc⟩ | ⟨hchange, hc⟩
    · rw [hb, hc]
      exact ⟨rfl, by omega⟩
    · rw [hb, hc, ← ofInt_add_size]
      exact ⟨congrArg Int64.ofInt (by omega), by omega⟩
  · rcases toInt_toInt64_cases change with ⟨hchange, hc⟩ | ⟨hchange, hc⟩
    · rw [hb, hc, ← ofInt_add_size ((change.toNat : Int) - base.toNat)]
      exact ⟨congrArg Int64.ofInt (by omega), by omega⟩
    · rw [hb, hc]
      exact ⟨congrArg Int64.ofInt (by omega), by omega⟩

/-- **A difference is cut to sixty-four bits**, unless the numbers straddle. -/
theorem difference_cases (base change : UInt64) :
    (¬ Straddles base.toNat change.toNat ∧
        difference base change = .ok (Int64.ofInt ((change.toNat : Int) - base.toNat))) ∨
      (Straddles base.toNat change.toNat ∧ difference base change = .error .overflow) := by
  obtain ⟨hcut, hsigned⟩ := signed_sub base change
  unfold difference
  rcases checkedInt_cases (change.toInt64.toInt - base.toInt64.toInt) with ⟨hin, hok⟩ | ⟨hout, hno⟩
  · exact Or.inl ⟨hsigned.mp hin, hok.trans (congrArg Except.ok hcut)⟩
  · exact Or.inr ⟨Decidable.not_not.mp (hsigned.not.mp hout), hno⟩

/-- A number that is taken away is the difference of nothing to it. -/
lemma takenAway_eq (n : UInt64) : takenAway n = difference n 0 := by
  unfold takenAway difference
  exact congrArg checkedInt (Int.zero_sub _).symm

/-- A number is its difference to nothing, even if it becomes negative. -/
lemma difference_zero (n : UInt64) : difference 0 n = .ok n.toInt64 := by
  unfold difference
  change checkedInt (n.toInt64.toInt - 0) = _
  rw [Int.sub_zero, checkedInt_of_mem, Int64.ofInt_toInt]
  exact ⟨Int64.minValue_le_toInt _, Int64.toInt_le _⟩

/-! ### Changes of rows -/

/-- A number of cycles of a row, which is zero where there is no row. -/
def Row.cyclesOf (cycles : Row → UInt64) (row : Option Row) : UInt64 :=
  row.elim 0 cycles

lemma Row.toNat_cyclesOf (cycles : Row → UInt64) (row : Option Row) :
    ((Row.cyclesOf cycles row).toNat : Int) = Row.numberOf (fun r => (cycles r).toNat) row := by
  cases row with
  | none => rfl
  | some r => rfl

namespace RowChange

variable {base change : Option Row} {c : RowChange}

/-- A row of a comparison tells the exact differences of two rows, cut to sixty-four bits where
they are differences of cycles. -/
structure IsWrapped (base change : Option Row) (c : RowChange) : Prop where
  iterations_eq : c.iterations =
    Row.numberOf (·.iterations) change - Row.numberOf (·.iterations) base
  min_eq : c.min = Int64.ofInt
    (Row.numberOf (·.min.toNat) change - Row.numberOf (·.min.toNat) base)
  max_eq : c.max = Int64.ofInt
    (Row.numberOf (·.max.toNat) change - Row.numberOf (·.max.toNat) base)

/-- The least or the greatest numbers of cycles of two rows straddle, where no row has no cycles. -/
def HasStraddling (base change : Option Row) : Prop :=
  Straddles (Row.numberOf (·.min.toNat) base) (Row.numberOf (·.min.toNat) change) ∨
    Straddles (Row.numberOf (·.max.toNat) base) (Row.numberOf (·.max.toNat) change)

/-- **All changes of rows are formed alike**: by the differences of two numbers of cycles, one after
the other, whether or not one of the rows is missing. -/
lemma of_eq (hsome : base ≠ none ∨ change ≠ none) : ∃ form : Int64 → Int64 → RowChange,
    (∀ min max, (form min max).iterations =
        Row.numberOf (·.iterations) change - Row.numberOf (·.iterations) base ∧
      (form min max).min = min ∧ (form min max).max = max) ∧
    of base change = do
      let min ← difference (Row.cyclesOf (·.min) base) (Row.cyclesOf (·.min) change)
      let max ← difference (Row.cyclesOf (·.max) base) (Row.cyclesOf (·.max) change)
      return form min max := by
  match base, change with
  | some x, some y =>
    refine ⟨fun min max => ⟨y.key, (y.iterations : Int) - x.iterations, min, max, _, _, _, _⟩,
      fun _ _ => ⟨rfl, rfl, rfl⟩, rfl⟩
  | some x, none =>
    refine ⟨fun min max => ⟨x.key, -x.iterations, min, max, -x.mean, -100, -x.median, -100⟩,
      fun _ _ => ⟨(Int.zero_sub _).symm, rfl, rfl⟩, ?_⟩
    change removed x = _
    rw [removed, takenAway_eq, takenAway_eq]
    rfl
  | none, some y =>
    refine ⟨fun min max => { added y with min := min, max := max },
      fun _ _ => ⟨(Int.sub_zero _).symm, rfl, rfl⟩, ?_⟩
    change _ = (difference 0 y.min >>= fun min => difference 0 y.max >>= fun max => _)
    rw [difference_zero, difference_zero]
    rfl
  | none, none => simp at hsome

/-- **A change of rows tells their differences**, unless the numbers of cycles straddle. -/
theorem of_cases (hsome : base ≠ none ∨ change ≠ none) :
    (¬ HasStraddling base change ∧ ∃ c, of base change = .ok c ∧ c.IsWrapped base change) ∨
      (HasStraddling base change ∧ of base change = .error .overflow) := by
  obtain ⟨form, hform, hof⟩ := of_eq hsome
  unfold HasStraddling
  rw [hof, ← Row.toNat_cyclesOf, ← Row.toNat_cyclesOf, ← Row.toNat_cyclesOf, ← Row.toNat_cyclesOf]
  rcases difference_cases (Row.cyclesOf (·.min) base) (Row.cyclesOf (·.min) change) with
    ⟨hmin, hminOk⟩ | ⟨hmin, hminNot⟩
  · rw [hminOk]
    rcases difference_cases (Row.cyclesOf (·.max) base) (Row.cyclesOf (·.max) change) with
      ⟨hmax, hmaxOk⟩ | ⟨hmax, hmaxNot⟩
    · rw [hmaxOk]
      refine Or.inl ⟨not_or.mpr ⟨hmin, hmax⟩, _, rfl, ?_⟩
      rw [Row.toNat_cyclesOf, Row.toNat_cyclesOf, Row.toNat_cyclesOf, Row.toNat_cyclesOf]
      exact ⟨(hform _ _).1, (hform _ _).2.1, (hform _ _).2.2⟩
    · rw [hmaxNot]
      exact Or.inr ⟨Or.inr hmax, rfl⟩
  · rw [hminNot]
    exact Or.inr ⟨Or.inl hmin, rfl⟩

/-- A difference that is one of sixty-four bits with a sign is not cut. -/
lemma IsWrapped.exact (h : c.IsWrapped base change) :
    (IsSigned (Row.numberOf (·.min.toNat) change - Row.numberOf (·.min.toNat) base) →
      c.min.toInt = Row.numberOf (·.min.toNat) change - Row.numberOf (·.min.toNat) base) ∧
    (IsSigned (Row.numberOf (·.max.toNat) change - Row.numberOf (·.max.toNat) base) →
      c.max.toInt = Row.numberOf (·.max.toNat) change - Row.numberOf (·.max.toNat) base) := by
  rw [h.min_eq, h.max_eq]
  exact ⟨fun hmin => Int64.toInt_ofInt_of_le hmin.1 hmin.2,
    fun hmax => Int64.toInt_ofInt_of_le hmax.1 hmax.2⟩

end RowChange

/-! ### Analyses -/

namespace Comparison

variable {base change : Analysis} {c : Comparison}

/-- The numbers of cycles of a key straddle. -/
def HasStraddling (base change : Analysis) : Prop :=
  ∃ key, RowChange.HasStraddling (base.rowOf key) (change.rowOf key)

/-- How the rows of a comparison tell two analyses apart, whatever the size of the numbers.  A row
that is not there counts as nothing. -/
structure Covers (base change : Analysis) (c : Comparison) : Prop where
  /-- The keys of the rows are the keys that the rows of one of the analyses have. -/
  key_iff : ∀ key, (∃ x ∈ c.rows, x.key = key) ↔
    (∃ row ∈ base.rows, row.key = key) ∨ ∃ row ∈ change.rows, row.key = key
  iterations_eq : ∀ x ∈ c.rows, x.iterations =
    Row.numberOf (·.iterations) (change.rowOf x.key) -
      Row.numberOf (·.iterations) (base.rowOf x.key)
  min_eq : ∀ x ∈ c.rows, IsSigned (Row.numberOf (·.min.toNat) (change.rowOf x.key) -
      Row.numberOf (·.min.toNat) (base.rowOf x.key)) →
    x.min.toInt = Row.numberOf (·.min.toNat) (change.rowOf x.key) -
      Row.numberOf (·.min.toNat) (base.rowOf x.key)
  max_eq : ∀ x ∈ c.rows, IsSigned (Row.numberOf (·.max.toNat) (change.rowOf x.key) -
      Row.numberOf (·.max.toNat) (base.rowOf x.key)) →
    x.max.toInt = Row.numberOf (·.max.toNat) (change.rowOf x.key) -
      Row.numberOf (·.max.toNat) (base.rowOf x.key)
  /-- Differences that are too large are cut to sixty-four bits. -/
  wrapped : ∀ x ∈ c.rows, x.IsWrapped (base.rowOf x.key) (change.rowOf x.key)

/-- A key has numbers of cycles that straddle only if it has a row. -/
lemma exists_row_of_hasStraddling {base change : Option Row}
    (h : RowChange.HasStraddling base change) : base ≠ none ∨ change ≠ none := by
  match base, change with
  | some x, _ => exact Or.inl (Option.some_ne_none x)
  | none, some y => exact Or.inr (Option.some_ne_none y)
  | none, none =>
    unfold RowChange.HasStraddling at h
    revert h
    decide

/-- The changes of all rows cover two analyses. -/
lemma IsOf.covers (h : c.IsOf base change) : c.Covers base change := by
  have hwrapped : ∀ x ∈ c.rows, x.IsWrapped (base.rowOf x.key) (change.rowOf x.key) := by
    intro x hx
    have hof := (h.mem_rows x).mp hx
    rcases RowChange.of_cases (RowChange.exists_row_of_eq_ok hof) with ⟨-, y, hy, hwrap⟩ | ⟨-, hno⟩
    · obtain rfl := Except.ok.inj (hof.symm.trans hy)
      exact hwrap
    · cases hof.symm.trans hno
  exact ⟨h.key_iff, fun x hx => (hwrapped x hx).iterations_eq,
    fun x hx => (hwrapped x hx).exact.1, fun x hx => (hwrapped x hx).exact.2, hwrapped⟩

/-- **A comparison covers two analyses**, unless some of their numbers of cycles straddle. -/
theorem ofAnalysesIn_covers (hbase : base.InOrder) (hchange : change.InOrder)
    (visit : Visit RowKey) :
    (¬ HasStraddling base change ∧
        ∃ c, ofAnalysesIn visit base change = .ok c ∧ c.Covers base change) ∨
      (HasStraddling base change ∧ ofAnalysesIn visit base change = .error .overflow) := by
  rcases ofAnalysesIn_cases hbase hchange visit with ⟨c, hc, hof⟩ | ⟨⟨key, hrow, hover⟩, herror⟩
  · refine Or.inl ⟨?_, c, hc, hof.covers⟩
    rintro ⟨key, hkey⟩
    obtain ⟨x, hx⟩ := hof.comes key (exists_row_of_hasStraddling hkey)
    rcases RowChange.of_cases (exists_row_of_hasStraddling hkey) with ⟨hnot, -⟩ | ⟨-, hno⟩
    · exact hnot hkey
    · cases hx.symm.trans hno
  · refine Or.inr ⟨?_, herror⟩
    rcases RowChange.of_cases hrow with ⟨-, x, hx, -⟩ | ⟨hkey, -⟩
    · cases hx.symm.trans hover
    · exact ⟨key, hkey⟩

end Comparison

namespace Analysis

variable {grouping : Grouping} {base change : Capture} {a b : Analysis}

/-- **Comparisons reach as far as they can without a sign for their numbers.**  Analyses of records
with cycles of any size can be compared exactly if no numbers of cycles of a key straddle.  Each row
then tells the exact differences as far as these are numbers of sixty-four bits with a sign, and the
others cut to their last sixty-four bits.  Otherwise the comparison overflows, although these
differences would fit. -/
theorem compares_unless_straddling {visits visits' : Visits}
    (ha : ofCaptureIn visits grouping base = .ok a)
    (hb : ofCaptureIn visits' grouping change = .ok b) (visit : Visit RowKey) :
    (¬ Comparison.HasStraddling a b ∧
        ∃ c, Comparison.ofAnalysesIn visit a b = .ok c ∧ c.Covers a b) ∨
      (Comparison.HasStraddling a b ∧ Comparison.ofAnalysesIn visit a b = .error .overflow) :=
  Comparison.ofAnalysesIn_covers (divides_of_ofCaptureIn ha).ascending
    (divides_of_ofCaptureIn hb).ascending visit

/-- A capture of one record has one row, which has the cycles of the record. -/
lemma exists_row_of_singleton (grouping : Grouping) {r : Record} (malformed : Nat)
    (hevents : r.events.length ≤ UInt32.size) :
    ∃ a row, ofCapture grouping ⟨[r], malformed⟩ = .ok a ∧ a.rows = [row] ∧
      row.key = RowKey.ofRecord grouping r ∧ row.min = r.cycles ∧ row.max = r.cycles := by
  have hfit : Fit grouping [r] := fit_of_length_le (by simpa using hevents)
  rcases ofCaptureIn_cases .listed grouping ⟨[r], malformed⟩ with ⟨-, a, ha, hdivides⟩ | ⟨hnot, -⟩
  · have hkeys : a.rows.map (·.key) = [RowKey.ofRecord grouping r] := by
      refine List.perm_singleton.mp ((List.perm_ext_iff_of_nodup ?_ ?_).mpr fun key => ?_)
      · exact nodup_of_pairwise_lt (List.pairwise_map.mpr hdivides.ascending)
      · exact List.nodup_singleton _
      · rw [List.mem_map, hdivides.key_iff hfit, List.mem_singleton]
        simp only [List.mem_singleton, exists_eq_left]
        exact eq_comm
    obtain ⟨row, hrows, hkey⟩ := List.map_eq_singleton_iff.mp hkeys
    have hrow : row ∈ a.rows := hrows ▸ List.mem_singleton_self row
    obtain ⟨⟨hmin, hmax⟩, -⟩ := Row.min_max_of_ofCycles ((hdivides.mem_rows row).mp hrow).eq_ofCycles
    have hcycles : ∀ n ∈ (recordsOf grouping [r] row.key).map (·.cycles), n = r.cycles := by
      intro n hn
      obtain ⟨r', hr', rfl⟩ := List.mem_map.mp hn
      rw [List.mem_singleton.mp (Table.mem_own.mp hr').1]
    exact ⟨a, row, ha, hrows, hkey, hcycles _ hmin, hcycles _ hmax⟩
  · exact absurd hfit hnot

/-- Analyses of one row each, which have the same key, have straddling numbers of cycles if the rows
have. -/
lemma hasStraddling_iff_of_rows {x y : Row} (ha : a.rows = [x]) (hb : b.rows = [y])
    (hkey : x.key = y.key) :
    Comparison.HasStraddling a b ↔ RowChange.HasStraddling (some x) (some y) := by
  have hrowOf : ∀ key, a.rowOf key = (if x.key = key then some x else none) ∧
      b.rowOf key = if x.key = key then some y else none := by
    intro key
    rw [rowOf, rowOf, ha, hb, hkey]
    by_cases h : y.key = key
    · simp [hkey, h]
    · simp [hkey, h]
  constructor
  · rintro ⟨key, hrows⟩
    rw [(hrowOf key).1, (hrowOf key).2] at hrows
    by_cases h : x.key = key
    · rwa [if_pos h, if_pos h] at hrows
    · rw [if_neg h, if_neg h] at hrows
      rcases Comparison.exists_row_of_hasStraddling hrows with hnone | hnone
      · exact absurd rfl hnone
      · exact absurd rfl hnone
  · intro hrows
    refine ⟨x.key, ?_⟩
    rwa [(hrowOf x.key).1, (hrowOf x.key).2, if_pos rfl, if_pos rfl]

/-- A run that has taken as many cycles. -/
def lasting (cycles : UInt64) : Record :=
  ⟨"long", "matrix", 1, 0, 1, 0, cycles, []⟩

/-- The greatest number of cycles can be compared with the least one that has no room for a sign. -/
theorem compares_unless_straddling_of_greatest : ∃ a b c,
    ofCapture .workload ⟨[lasting 0x8000000000000000], 0⟩ = .ok a ∧
    ofCapture .workload ⟨[lasting 0xffffffffffffffff], 0⟩ = .ok b ∧
    Comparison.ofAnalyses a b = .ok c ∧ c.Covers a b := by
  obtain ⟨a, x, ha, hrows, hkey, hmin, hmax⟩ :=
    exists_row_of_singleton .workload 0 (r := lasting 0x8000000000000000) (by decide)
  obtain ⟨b, y, hb, hrows', hkey', hmin', hmax'⟩ :=
    exists_row_of_singleton .workload 0 (r := lasting 0xffffffffffffffff) (by decide)
  have hnot : ¬ Comparison.HasStraddling a b := by
    rw [hasStraddling_iff_of_rows hrows hrows' (hkey.trans hkey'.symm), RowChange.HasStraddling]
    simp only [Row.numberOf, hmin, hmin', hmax, hmax']
    decide
  rcases compares_unless_straddling ha hb .listed with ⟨-, c, hc, hcovers⟩ | ⟨hstraddling, -⟩
  · exact ⟨a, b, c, ha, hb, hc, hcovers⟩
  · exact absurd hstraddling hnot

/-- Two runs of which one takes a single cycle more cannot be compared if this cycle is the first
one that has no room for a sign. -/
theorem overflows_by_one_cycle : ∃ a b x y,
    ofCapture .workload ⟨[lasting 0x7fffffffffffffff], 0⟩ = .ok a ∧
    ofCapture .workload ⟨[lasting 0x8000000000000000], 0⟩ = .ok b ∧
    a.rows = [x] ∧ b.rows = [y] ∧ x.key = y.key ∧
    (y.min.toNat : Int) - x.min.toNat = 1 ∧ (y.max.toNat : Int) - x.max.toNat = 1 ∧
    Comparison.ofAnalyses a b = .error .overflow := by
  obtain ⟨a, x, ha, hrows, hkey, hmin, hmax⟩ :=
    exists_row_of_singleton .workload 0 (r := lasting 0x7fffffffffffffff) (by decide)
  obtain ⟨b, y, hb, hrows', hkey', hmin', hmax'⟩ :=
    exists_row_of_singleton .workload 0 (r := lasting 0x8000000000000000) (by decide)
  have hstraddling : Comparison.HasStraddling a b := by
    rw [hasStraddling_iff_of_rows hrows hrows' (hkey.trans hkey'.symm), RowChange.HasStraddling]
    simp only [Row.numberOf, hmin, hmin', hmax, hmax']
    decide
  refine ⟨a, b, x, y, ha, hb, hrows, hrows', hkey.trans hkey'.symm, ?_, ?_, ?_⟩
  · rw [hmin, hmin']
    decide
  · rw [hmax, hmax']
    decide
  · rcases Comparison.ofAnalysesIn_covers (divides_of_ofCaptureIn ha).ascending
      (divides_of_ofCaptureIn hb).ascending .listed with ⟨hnot, -⟩ | ⟨-, hover⟩
    · exact absurd hstraddling hnot
    · exact hover

end Analysis

end Lockstep
