import Lockstep.Proofs.Analysis.Comparison

/-!
# Orders do not matter

Two kinds of orders come into an analysis from outside: the order in which the records of a capture
stand, which is that in which the cores happened to be faster than each other, and the orders in
which hash tables are gone through.  None of them can be told from the outcome, not even by the last
bit of a double.  What an analysis divides its records by is the same for all orders
(`Analysis.Divides.perm`), and this leaves no choice for its rows (`Analysis.Divides.unique`).
-/

namespace Lockstep

namespace Analysis

variable {grouping : Grouping} {records records' : List Record} {malformed : Nat}
  {c : Capture} {a a' : Analysis}

/-- Each key has the same records in any order. -/
lemma recordsOf_perm (h : records.Perm records') (key : RowKey) :
    (recordsOf grouping records key).Perm (recordsOf grouping records' key) :=
  Table.own_perm h key

/-- Counts that can be summed up can be summed up in any order. -/
lemma Fit.perm (hfit : Fit grouping records) (h : records.Perm records') :
    Fit grouping records' := by
  intro key code
  exact (hfit key code).perm (Event.readingsOf_perm (recordsOf_perm h key) code)

/-- An analysis divides the same records in another order. -/
lemma Divides.perm (h : Divides grouping ⟨records, malformed⟩ a) (hperm : records.Perm records') :
    Divides grouping ⟨records', malformed⟩ a := by
  refine ⟨h.records_eq.trans hperm.length_eq, h.malformed_eq, h.ascending, fun row => ?_⟩
  rw [h.mem_rows]
  constructor
  · exact fun htells => htells.perm (recordsOf_perm hperm row.key)
  · exact fun htells => htells.perm (recordsOf_perm hperm.symm row.key)

/-- A capture has one analysis at most. -/
lemma Divides.unique (h : Divides grouping c a) (h' : Divides grouping c a') : a = a' := by
  have hrows : a.rows = a'.rows :=
    eq_of_pairwise_lt h.ascending h'.ascending fun row =>
      (h.mem_rows row).trans (h'.mem_rows row).symm
  have hrecords : a.records = a'.records := h.records_eq.trans h'.records_eq.symm
  have hmalformed : a.malformed = a'.malformed := h.malformed_eq.trans h'.malformed_eq.symm
  cases a
  cases a'
  exact congr (congr (congrArg _ hrows) hrecords) hmalformed

/-- An analysis does not depend on any order. -/
lemma ofCaptureIn_perm (h : records.Perm records') (visits visits' : Visits) :
    ofCaptureIn visits grouping ⟨records, malformed⟩ =
      ofCaptureIn visits' grouping ⟨records', malformed⟩ := by
  rcases ofCaptureIn_cases visits grouping ⟨records, malformed⟩ with
    ⟨hfit, a, ha, hdivides⟩ | ⟨hnot, hover⟩ <;>
  rcases ofCaptureIn_cases visits' grouping ⟨records', malformed⟩ with
    ⟨hfit', a', ha', hdivides'⟩ | ⟨hnot', hover'⟩
  · rw [ha, ha', (hdivides.perm h).unique hdivides']
  · exact absurd (hfit.perm h) hnot'
  · exact absurd (hfit'.perm h.symm) hnot
  · rw [hover, hover']

end Analysis

namespace Comparison

variable {base change : Analysis}

/-- A comparison does not depend on the order in which the keys are gone through. -/
lemma ofAnalysesIn_eq_ofAnalysesIn (hbase : base.InOrder) (hchange : change.InOrder)
    (visit visit' : Visit RowKey) :
    ofAnalysesIn visit base change = ofAnalysesIn visit' base change := by
  rcases ofAnalysesIn_cases hbase hchange visit with
    ⟨c, hc, hof⟩ | ⟨⟨key, hsome, hover⟩, hfault⟩ <;>
  rcases ofAnalysesIn_cases hbase hchange visit' with
    ⟨c', hc', hof'⟩ | ⟨⟨key', hsome', hover'⟩, hfault'⟩
  · rw [hc, hc', hof.unique hof']
  · obtain ⟨x, hx⟩ := hof.comes key' hsome'
    cases hx.symm.trans hover'
  · obtain ⟨x, hx⟩ := hof'.comes key hsome
    cases hx.symm.trans hover
  · rw [hfault, hfault']

/-- Compares a capture with another one that it is based on, with all tables gone through in the
given orders. -/
def ofCapturesIn (visits visits' : Analysis.Visits) (visit : Visit RowKey) (grouping : Grouping)
    (base change : Capture) : Except Fault Comparison := do
  let a ← Analysis.ofCaptureIn visits grouping base
  let b ← Analysis.ofCaptureIn visits' grouping change
  ofAnalysesIn visit a b

/-- The comparison of two captures does not depend on the orders of tables. -/
lemma ofCapturesIn_eq_ofCapturesIn (visits₁ visits₂ visits₁' visits₂' : Analysis.Visits)
    (visit visit' : Visit RowKey) {grouping : Grouping} {base base' change change' : Capture}
    (hbase : Analysis.ofCaptureIn visits₁ grouping base =
      Analysis.ofCaptureIn visits₁' grouping base')
    (hchange : Analysis.ofCaptureIn visits₂ grouping change =
      Analysis.ofCaptureIn visits₂' grouping change') :
    ofCapturesIn visits₁ visits₂ visit grouping base change =
      ofCapturesIn visits₁' visits₂' visit' grouping base' change' := by
  rw [ofCapturesIn, ofCapturesIn, ← hbase, ← hchange]
  cases ha : Analysis.ofCaptureIn visits₁ grouping base with
  | error fault => rfl
  | ok a =>
    cases hb : Analysis.ofCaptureIn visits₂ grouping change with
    | error fault => rfl
    | ok b =>
      exact ofAnalysesIn_eq_ofAnalysesIn (Analysis.divides_of_ofCaptureIn ha).ascending
        (Analysis.divides_of_ofCaptureIn hb).ascending visit visit'

end Comparison

namespace Analysis

/-- Captures whose counts fit can be compared if their numbers of cycles have room for a sign. -/
lemma exists_ofCapturesIn {base change : Capture} (hbase : Fit grouping base.records)
    (hchange : Fit grouping change.records)
    (hbaseSmall : ∀ r ∈ base.records, r.cycles.toNat < 2 ^ 63)
    (hchangeSmall : ∀ r ∈ change.records, r.cycles.toNat < 2 ^ 63) (visits visits' : Visits)
    (visit : Visit RowKey) :
    ∃ x, Comparison.ofCapturesIn visits visits' visit grouping base change = .ok x := by
  obtain ⟨a, ha, hadivides⟩ := exists_divides hbase visits
  obtain ⟨b, hb, hbdivides⟩ := exists_divides hchange visits'
  obtain ⟨x, hx, -⟩ := Comparison.exists_isOf hadivides.ascending hbdivides.ascending
    (hadivides.isSmall hbaseSmall) (hbdivides.isSmall hchangeSmall) visit
  exact ⟨x, bind_eq_ok.mpr ⟨a, ha, bind_eq_ok.mpr ⟨b, hb, hx⟩⟩⟩

/-- **Orders do not matter.**  The analysis of a capture is the same, to the last bit, for all
orders of its records and all orders in which the tables are gone through.  So is the comparison of
two captures: all of its rows stand in the same places.  The analysis is there if the counts fit,
and so is the comparison if the numbers of cycles have room for a sign as well. -/
theorem same_in_all_orders {records records' changed changed' : List Record}
    (h : records.Perm records') (h' : changed.Perm changed') (malformed malformed' : Nat)
    (grouping : Grouping) (visits₁ visits₂ visits₁' visits₂' : Visits)
    (visit visit' : Visit RowKey) :
    (ofCaptureIn visits₁ grouping ⟨records, malformed⟩ =
        ofCaptureIn visits₁' grouping ⟨records', malformed⟩ ∧
      Comparison.ofCapturesIn visits₁ visits₂ visit grouping ⟨records, malformed⟩
          ⟨changed, malformed'⟩ =
        Comparison.ofCapturesIn visits₁' visits₂' visit' grouping ⟨records', malformed⟩
          ⟨changed', malformed'⟩) ∧
    (Fit grouping records → ∃ a, ofCaptureIn visits₁ grouping ⟨records, malformed⟩ = .ok a) ∧
    (Fit grouping records → Fit grouping changed → (∀ r ∈ records, r.cycles.toNat < 2 ^ 63) →
      (∀ r ∈ changed, r.cycles.toNat < 2 ^ 63) →
      ∃ x, Comparison.ofCapturesIn visits₁ visits₂ visit grouping ⟨records, malformed⟩
        ⟨changed, malformed'⟩ = .ok x) := by
  have hbase : ofCaptureIn visits₁ grouping ⟨records, malformed⟩ =
      ofCaptureIn visits₁' grouping ⟨records', malformed⟩ := ofCaptureIn_perm h visits₁ visits₁'
  have hchange : ofCaptureIn visits₂ grouping ⟨changed, malformed'⟩ =
      ofCaptureIn visits₂' grouping ⟨changed', malformed'⟩ := ofCaptureIn_perm h' visits₂ visits₂'
  refine ⟨⟨hbase, Comparison.ofCapturesIn_eq_ofCapturesIn visits₁ visits₂ visits₁' visits₂' visit
    visit' hbase hchange⟩, fun hfit => ?_, fun hfit hfit' hsmall hsmall' => ?_⟩
  · obtain ⟨a, ha, -⟩ := exists_divides (c := ⟨records, malformed⟩) hfit visits₁
    exact ⟨a, ha⟩
  · exact exists_ofCapturesIn hfit hfit' hsmall hsmall' visits₁ visits₂ visit

/-- All tables from the last entry that is listed to the first one. -/
def Visits.reversed : Visits := ⟨.reversed, fun _ => .reversed⟩

/-- Two captures that are read from their last record to their first one, with all tables gone
through backwards, have the same analyses and the same comparison. -/
theorem same_in_all_orders_of_reversed :
    (∃ a, ofCapture .run alone = .ok a ∧
        ofCaptureIn .reversed .run ⟨alone.records.reverse, 0⟩ = .ok a) ∧
      ∃ x, Comparison.ofCapturesIn .listed .listed .listed .run alone accompanied = .ok x ∧
        Comparison.ofCapturesIn .reversed .reversed .reversed .run ⟨alone.records.reverse, 0⟩
          ⟨accompanied.records.reverse, 0⟩ = .ok x := by
  obtain ⟨⟨hsame, hsame'⟩, hanalysis, hcomparison⟩ :=
    same_in_all_orders (List.reverse_perm alone.records).symm
      (List.reverse_perm accompanied.records).symm 0 0 .run .listed .listed .reversed .reversed
      .listed .reversed
  have hfit : Fit .run alone.records := fit_of_length_le (by decide)
  obtain ⟨a, ha⟩ := hanalysis hfit
  obtain ⟨x, hx⟩ := hcomparison hfit (fit_of_length_le (by decide)) (by decide) (by decide)
  exact ⟨⟨a, ha, hsame.symm.trans ha⟩, x, hx, hsame'.symm.trans hx⟩

end Analysis

end Lockstep
