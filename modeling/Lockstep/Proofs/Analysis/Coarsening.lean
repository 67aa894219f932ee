import Lockstep.Proofs.Analysis.Partition

/-!
# Rows of workloads are made of rows of runs

The records of a capture can be brought together in two ways.  The key of a run tells more of a
record than the key of a workload, which leaves out the label and the number of cores, so the rows
of the runs are parts of the rows of the workloads (`Row.IsPartOf`).

The argument is that the parts of a row are an analysis of their own: the rows of the runs that are
part of the row of a workload divide the records of this row (`Analysis.Divides.parts`).  What an
analysis tells of its records, the parts then tell of the records of the row, and so does the row
itself.

The counts of a workload are those of all its runs, so that they may be too many for the row of the
workload where they fit for the row of each run.  Where they fit for the workloads they fit for the
runs (`Analysis.Fit.of_workload`).
-/

namespace Lockstep

/-! ### Keys and parts -/

namespace RowKey

/-- What is left of a key without the label and the number of cores. -/
def coarse (key : RowKey) : RowKey :=
  { key with label := none, cores := none }

/-- The key of a workload is what is left of the key of a run. -/
lemma coarse_ofRecord (r : Record) : (ofRecord .run r).coarse = ofRecord .workload r :=
  rfl

end RowKey

/-- The first row is about the same workload, core and offset as the second one. -/
def Row.IsPartOf (part row : Row) : Prop :=
  part.key.workload = row.key.workload ∧ part.key.core = row.key.core ∧
    part.key.offset = row.key.offset

instance (part row : Row) : Decidable (part.IsPartOf row) :=
  inferInstanceAs (Decidable (_ ∧ _ ∧ _))

/-- A row is part of a row that has neither a label nor a number of cores if that is what is left of
its key. -/
lemma Row.isPartOf_iff {part row : Row} (h : row.key = row.key.coarse) :
    part.IsPartOf row ↔ part.key.coarse = row.key := by
  rw [h, RowKey.coarse, RowKey.coarse, RowKey.mk.injEq]
  simp [Row.IsPartOf]

/-- Some of the readings of an event fit if all of them do. -/
lemma Event.Fit.sublist {readings readings' : List Reading} (hfit : Fit readings')
    (h : readings.Sublist readings') : Fit readings := by
  obtain ⟨others, hperm⟩ := h.exists_perm_append
  obtain ⟨hcount, hlength⟩ := hfit.perm hperm
  rw [countOf, List.map_append, List.sum_append] at hcount
  rw [List.length_append] at hlength
  exact ⟨Nat.lt_of_add_right_lt hcount, Nat.lt_of_add_right_lt hlength⟩

namespace Analysis

/-- The rows of an analysis that are part of a row. -/
def partsOf (a : Analysis) (row : Row) : List Row :=
  a.rows.filter (·.IsPartOf row)

/-- The rows of the second analysis are made of the rows of the first one. -/
structure Coarsens (run workload : Analysis) : Prop where
  /-- Each row has parts. -/
  parts_ne_nil : ∀ row ∈ workload.rows, run.partsOf row ≠ []
  sum_iterations : ∀ row ∈ workload.rows,
    ((run.partsOf row).map (·.iterations)).sum = row.iterations
  /-- The least number of cycles is the least one of the parts. -/
  min_eq : ∀ row ∈ workload.rows, (∃ part ∈ run.partsOf row, part.min = row.min) ∧
    ∀ part ∈ run.partsOf row, row.min ≤ part.min
  /-- The greatest number of cycles is the greatest one of the parts. -/
  max_eq : ∀ row ∈ workload.rows, (∃ part ∈ run.partsOf row, part.max = row.max) ∧
    ∀ part ∈ run.partsOf row, part.max ≤ row.max
  /-- The codes of a row are those of its parts. -/
  code_iff : ∀ row ∈ workload.rows, ∀ code, (∃ e ∈ row.events, e.code = code) ↔
    ∃ part ∈ run.partsOf row, ∃ e ∈ part.events, e.code = code
  /-- Each row of the first analysis is part of one row of the second one. -/
  whole_of_part : ∀ part ∈ run.rows, ∃ row, workload.rows.filter (part.IsPartOf ·) = [row]
  records_eq : run.records = workload.records
  malformed_eq : run.malformed = workload.malformed

variable {c : Capture} {run workload : Analysis} {row : Row}

/-! ### The records of a row -/

/-- The records of a run are among those of its workload, and among those of no other one. -/
lemma recordsOf_recordsOf (records : List Record) (key key' : RowKey) :
    recordsOf .run (recordsOf .workload records key) key' =
      if key'.coarse = key then recordsOf .run records key' else [] := by
  rw [recordsOf, recordsOf, Table.own, Table.own, List.filter_filter]
  split_ifs with hkey
  · refine List.filter_congr fun r _ => ?_
    rw [Bool.and_eq_left_iff_imp, decide_eq_true_eq, decide_eq_true_eq]
    rintro rfl
    exact hkey
  · refine List.filter_eq_nil_iff.mpr fun r _ => ?_
    rw [Bool.and_eq_true, decide_eq_true_eq, decide_eq_true_eq]
    rintro ⟨rfl, hr⟩
    exact hkey hr

/-- Counts that can be summed up for workloads can be summed up for some of their records. -/
lemma Fit.recordsOf (hfit : Fit .workload c.records) (key : RowKey) :
    Fit .run (recordsOf .workload c.records key) := by
  intro key' code
  have hrecords :
      (Analysis.recordsOf .run (Analysis.recordsOf .workload c.records key) key').Sublist
        (Analysis.recordsOf .workload c.records key) := List.filter_sublist
  exact (hfit key code).sublist ((hrecords.flatMap _).filter _)

/-- Counts that can be summed up for workloads can be summed up for runs. -/
lemma Fit.of_workload (hfit : Fit .workload c.records) : Fit .run c.records := by
  intro key
  have hkey := hfit.recordsOf key.coarse key
  rwa [recordsOf_recordsOf, if_pos rfl] at hkey

/-- A row of a workload has neither a label nor a number of cores. -/
lemma Divides.key_eq_coarse (h : Divides .workload c workload) (hrow : row ∈ workload.rows) :
    row.key = row.key.coarse := by
  obtain ⟨r, hr⟩ := List.exists_mem_of_ne_nil _ ((h.mem_rows row).mp hrow).ne_nil
  rw [← (Table.mem_own.mp hr).2]
  rfl

/-- **The parts of a row divide its records.** -/
theorem Divides.parts (hrun : Divides .run c run) (hworkload : Divides .workload c workload)
    (hrow : row ∈ workload.rows) :
    Divides .run ⟨recordsOf .workload c.records row.key, c.malformed⟩
      ⟨run.partsOf row, (recordsOf .workload c.records row.key).length, c.malformed⟩ := by
  refine ⟨rfl, rfl, hrun.ascending.filter _, fun part => ?_⟩
  rw [partsOf, List.mem_filter, decide_eq_true_eq, hrun.mem_rows,
    Row.isPartOf_iff (hworkload.key_eq_coarse hrow), recordsOf_recordsOf]
  split_ifs with hkey
  · rw [and_iff_left hkey]
  · exact ⟨fun h => absurd h.2 hkey, fun h => absurd rfl h.ne_nil⟩

/-! ### Rows and their parts -/

/-- A record of a row is a record of one of its parts. -/
lemma exists_part (hrun : Divides .run c run) (hworkload : Divides .workload c workload)
    (hfit : Fit .workload c.records) (hrow : row ∈ workload.rows) {r : Record}
    (hr : r ∈ recordsOf .workload c.records row.key) :
    ∃ part ∈ run.partsOf row,
      r ∈ recordsOf .run (recordsOf .workload c.records row.key) part.key := by
  obtain ⟨part, hpart, hkey⟩ :=
    ((hrun.parts hworkload hrow).key_iff (hfit.recordsOf row.key) _).mpr ⟨r, hr, rfl⟩
  exact ⟨part, hpart, Table.mem_own.mpr ⟨hr, hkey.symm⟩⟩

/-- A row of a run is part of the row of its workload alone. -/
lemma exists_filter_isPartOf (hrun : Divides .run c run) (hworkload : Divides .workload c workload)
    (hfit : Fit .workload c.records) {part : Row} (hpart : part ∈ run.rows) :
    ∃ row, workload.rows.filter (part.IsPartOf ·) = [row] := by
  obtain ⟨r, hr⟩ := List.exists_mem_of_ne_nil _ ((hrun.mem_rows part).mp hpart).ne_nil
  obtain ⟨hmem, hkey⟩ := Table.mem_own.mp hr
  obtain ⟨row, hrow, hrowKey⟩ :=
    (hworkload.key_iff hfit (RowKey.ofRecord .workload r)).mpr ⟨r, hmem, rfl⟩
  have hcoarse : part.key.coarse = row.key := by rw [← hkey, hrowKey, RowKey.coarse_ofRecord]
  have hkeys : (workload.rows.map (·.key)).Nodup :=
    nodup_of_pairwise_lt (List.pairwise_map.mpr hworkload.ascending)
  refine ⟨row, List.perm_singleton.mp ?_⟩
  refine (List.perm_ext_iff_of_nodup (hkeys.of_map.filter _) (List.nodup_singleton row)).mpr ?_
  intro other
  rw [List.mem_filter, decide_eq_true_eq, List.mem_singleton]
  constructor
  · rintro ⟨hother, hisPart⟩
    have hotherKey := (Row.isPartOf_iff (hworkload.key_eq_coarse hother)).mp hisPart
    exact List.inj_on_of_nodup_map hkeys hother hrow (hotherKey.symm.trans hcoarse)
  · rintro rfl
    exact ⟨hrow, (Row.isPartOf_iff (hworkload.key_eq_coarse hrow)).mpr hcoarse⟩

/-- Rows that divide the same records by workloads and by runs are made of each other. -/
lemma Divides.coarsens (hrun : Divides .run c run) (hworkload : Divides .workload c workload)
    (hfit : Fit .workload c.records) : Coarsens run workload := by
  have hwhole := hworkload.partitions hfit
  have hparts := fun row (hrow : row ∈ workload.rows) =>
    (hrun.parts hworkload hrow).partitions (hfit.recordsOf row.key)
  constructor
  case parts_ne_nil =>
    intro row hrow
    obtain ⟨r, hr⟩ := List.exists_mem_of_ne_nil _ ((hworkload.mem_rows row).mp hrow).ne_nil
    obtain ⟨part, hpart, -⟩ := exists_part hrun hworkload hfit hrow hr
    exact List.ne_nil_of_mem hpart
  case sum_iterations =>
    intro row hrow
    rw [hwhole.iterations_eq row hrow]
    exact (hparts row hrow).sum_iterations.1
  case min_eq =>
    intro row hrow
    obtain ⟨⟨r, hr, hmin⟩, hle⟩ := hwhole.min_le row hrow
    have hbelow : ∀ part ∈ run.partsOf row, row.min ≤ part.min := by
      intro part hpart
      obtain ⟨⟨r', hr', hmin'⟩, -⟩ := (hparts row hrow).min_le part hpart
      rw [← hmin']
      exact hle r' (Table.mem_own.mp hr').1
    obtain ⟨part, hpart, hmem⟩ := exists_part hrun hworkload hfit hrow hr
    have habove := ((hparts row hrow).min_le part hpart).2 r hmem
    rw [hmin] at habove
    exact ⟨⟨part, hpart, UInt64.le_antisymm habove (hbelow part hpart)⟩, hbelow⟩
  case max_eq =>
    intro row hrow
    obtain ⟨⟨r, hr, hmax⟩, hle⟩ := hwhole.le_max row hrow
    have habove : ∀ part ∈ run.partsOf row, part.max ≤ row.max := by
      intro part hpart
      obtain ⟨⟨r', hr', hmax'⟩, -⟩ := (hparts row hrow).le_max part hpart
      rw [← hmax']
      exact hle r' (Table.mem_own.mp hr').1
    obtain ⟨part, hpart, hmem⟩ := exists_part hrun hworkload hfit hrow hr
    have hbelow := ((hparts row hrow).le_max part hpart).2 r hmem
    rw [hmax] at hbelow
    exact ⟨⟨part, hpart, UInt64.le_antisymm (habove part hpart) hbelow⟩, habove⟩
  case code_iff =>
    intro row hrow code
    rw [hwhole.code_iff row hrow code]
    constructor
    · rintro ⟨r, hr, reading, hreading⟩
      obtain ⟨part, hpart, hmem⟩ := exists_part hrun hworkload hfit hrow hr
      exact ⟨part, hpart, ((hparts row hrow).code_iff part hpart code).mpr
        ⟨r, hmem, reading, hreading⟩⟩
    · rintro ⟨part, hpart, he⟩
      obtain ⟨r, hr, hreading⟩ := ((hparts row hrow).code_iff part hpart code).mp he
      exact ⟨r, (Table.mem_own.mp hr).1, hreading⟩
  case whole_of_part =>
    exact fun part hpart => exists_filter_isPartOf hrun hworkload hfit hpart
  case records_eq => exact hrun.records_eq.trans hworkload.records_eq.symm
  case malformed_eq => exact hrun.malformed_eq.trans hworkload.malformed_eq.symm

/-- **Rows of workloads are made of rows of runs.**  A capture whose counts fit for each workload
has both analyses, whatever the orders in which their tables are gone through.  Both divide all of
its records, and the rows of the first one are those of the second one, divided further.  Counts of
a workload that do not fit into sixty-four bits are the only fault, and there are more than four
billion readings then. -/
theorem workloads_coarsen_runs (visits visits' : Visits) (c : Capture) :
    (Fit .workload c.records → ∃ run workload, ofCaptureIn visits .run c = .ok run ∧
        ofCaptureIn visits' .workload c = .ok workload ∧
        (run.Partitions .run c.records ∧ workload.Partitions .workload c.records) ∧
        Coarsens run workload) ∧
      (¬ Fit .workload c.records → UInt32.size < (c.records.flatMap (·.events)).length ∧
        ofCaptureIn visits' .workload c = .error .overflow) := by
  refine ⟨fun hfit => ?_, fun hnot => ofCaptureIn_of_not_fit hnot visits'⟩
  obtain ⟨run, hrun, hruns⟩ := exists_divides hfit.of_workload visits
  obtain ⟨workload, hworkload, hworkloads⟩ := exists_divides hfit visits'
  exact ⟨run, workload, hrun, hworkload,
    ⟨hruns.partitions hfit.of_workload, hworkloads.partitions hfit⟩,
    hruns.coarsens hworkloads hfit⟩

/-- The rows of two runs of a workload, which differ in their labels and in the number of cores,
make one row of two iterations. -/
theorem workloads_coarsen_runs_of_mixedCapture :
    ∃ run workload, ofCapture .run mixedCapture = .ok run ∧
      ofCapture .workload mixedCapture = .ok workload ∧ Coarsens run workload ∧
      ∃ row ∈ workload.rows, ((run.partsOf row).map (·.iterations)).sum = 2 ∧
        (∃ part ∈ run.partsOf row, part.key.label = some "a") ∧
        ∃ part ∈ run.partsOf row, part.key.label = some "b" := by
  have hfit : Fit .workload mixedCapture.records := fit_of_length_le (by decide)
  obtain ⟨run, workload, hrun, hworkload, ⟨hruns, hworkloads⟩, hcoarsens⟩ :=
    (workloads_coarsen_runs .listed .listed mixedCapture).1 hfit
  obtain ⟨row, hrow, hkey⟩ := (hworkloads.key_iff ⟨none, "bsort", none, 0, 0⟩).mpr (by decide)
  have hiterations := hworkloads.iterations_eq row hrow
  rw [hkey, ← hcoarsens.sum_iterations row hrow] at hiterations
  have hparts : ∀ key, key.coarse = row.key →
      (∃ r ∈ mixedCapture.records, RowKey.ofRecord .run r = key) →
      ∃ part ∈ run.partsOf row, part.key.label = key.label := by
    intro key hcoarse hrecord
    obtain ⟨part, hpart, rfl⟩ := (hruns.key_iff key).mpr hrecord
    refine ⟨part, List.mem_filter.mpr ⟨hpart, decide_eq_true ?_⟩, rfl⟩
    rw [Row.IsPartOf, ← hcoarse]
    exact ⟨rfl, rfl, rfl⟩
  refine ⟨run, workload, hrun, hworkload, hcoarsens, row, hrow, hiterations.trans (by decide),
    hparts ⟨some "a", "bsort", some 2, 0, 0⟩ hkey.symm (by decide),
    hparts ⟨some "b", "bsort", some 1, 0, 0⟩ hkey.symm (by decide)⟩

/-- Two runs of a workload that have too many readings together, half of them each. -/
def halvedCapture : Capture :=
  ⟨[flooded "a" 2147483649, flooded "b" 2147483649], 0⟩

/-- The counts of each run fit. -/
lemma fit_halvedCapture : Fit .run halvedCapture.records := by
  refine fit_of_length_recordsOf_le fun key => ?_
  have hlength : ∀ label, ((flooded label 2147483649).events ++ []).length ≤ UInt32.size := by
    intro label
    rw [List.append_nil, flooded, List.length_replicate]
    decide
  -- the labels differ, so that a key has one of the two records at most
  rw [halvedCapture, recordsOf, Table.own, List.filter_cons, List.filter_cons, List.filter_nil]
  split_ifs with hfirst hsecond hsecond
  · have hkeys := (of_decide_eq_true hfirst).trans (of_decide_eq_true hsecond).symm
    exact absurd (congrArg RowKey.label hkeys) (by decide)
  · exact hlength "a"
  · exact hlength "b"
  · exact Nat.zero_le _

/-- The counts of the workload do not fit. -/
lemma not_fit_halvedCapture : ¬ Fit .workload halvedCapture.records := by
  refine not_fit_of_key_eq ⟨none, "bsort", none, 0, 0⟩ ⟨0x11⟩ (n := 2147483649 * 0xffffffff)
    (fun r hr => ?_) (fun r hr => ?_) (by decide)
  · rcases List.mem_pair.mp hr with rfl | rfl <;> rfl
  · rcases List.mem_pair.mp hr with rfl | rfl
    · exact countOf_flooded "a" 2147483649
    · exact countOf_flooded "b" 2147483649

/-- **A workload can have too many readings while its runs have not.**  The records of two runs with
some two billion readings each have rows by run, but no rows by workload. -/
theorem no_workloads_of_halvedCapture :
    (∃ run, ofCapture .run halvedCapture = .ok run ∧
        run.Partitions .run halvedCapture.records) ∧
      ofCapture .workload halvedCapture = .error .overflow ∧
      ¬ ∃ run workload, ofCapture .run halvedCapture = .ok run ∧
        ofCapture .workload halvedCapture = .ok workload ∧ Coarsens run workload := by
  obtain ⟨-, hover⟩ := ofCaptureIn_of_not_fit not_fit_halvedCapture .listed
  obtain ⟨run, hrun, hdivides⟩ := exists_divides fit_halvedCapture .listed
  refine ⟨⟨run, hrun, hdivides.partitions fit_halvedCapture⟩, hover, ?_⟩
  rintro ⟨-, workload, -, hworkload, -⟩
  cases hover.symm.trans hworkload

end Analysis

end Lockstep
