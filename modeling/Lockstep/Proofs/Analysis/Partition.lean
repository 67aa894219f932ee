import Lockstep.Analysis.Basic
import Lockstep.Proofs.Analysis.Row
import Mathlib.Algebra.BigOperators.Group.List.Lemmas

/-!
# Analyses divide their records

An analysis divides its records by their keys: each key that a record has gets one row, and the row
tells of the records of this key and of no others.  Nothing else decides what the rows are, so
`Analysis.Divides` is all that later modules need to know of an analysis.

An analysis fails if the counts of an event of a row cannot be summed up in sixty-four bits, which
takes more than four billion readings, and for no other reason.
-/

namespace Lockstep

namespace Analysis

variable {grouping : Grouping} {c : Capture} {a : Analysis}

/-- The records of a key. -/
def recordsOf (grouping : Grouping) (records : List Record) (key : RowKey) : List Record :=
  Table.own (RowKey.ofRecord grouping) key records

/-- The counts of every event of every key can be summed up in sixty-four bits. -/
def Fit (grouping : Grouping) (records : List Record) : Prop :=
  ∀ key, Event.AllFit (recordsOf grouping records key)

/-- The rows of an analysis are those that tell of the records of their keys, in the order of the
keys. -/
structure Divides (grouping : Grouping) (c : Capture) (a : Analysis) : Prop where
  records_eq : a.records = c.records.length
  malformed_eq : a.malformed = c.malformed
  ascending : a.rows.Pairwise fun x y => compare x.key y.key = .lt
  mem_rows : ∀ row, row ∈ a.rows ↔ row.Tells (recordsOf grouping c.records row.key)

/-! ### The rows -/

variable {groups : Std.HashMap RowKey Gathering}

/-- The entries that are gone through are what is known of the keys that records have. -/
lemma mem_arrange_keys
    (h : Table.Gathered (RowKey.ofRecord grouping) {} Gathering.add c.records groups)
    (visits : Visits) (entry : RowKey × Gathering) :
    entry ∈ visits.keys.arrange groups.toList ↔
      recordsOf grouping c.records entry.1 ≠ [] ∧
        (recordsOf grouping c.records entry.1).foldlM Gathering.add {} = .ok entry.2 := by
  rw [Table.mem_arrange_toList, h.knows]
  rfl

/-- Each of these entries has a row that tells of the records of its key. -/
lemma exists_row_of_mem
    (h : Table.Gathered (RowKey.ofRecord grouping) {} Gathering.add c.records groups)
    {visits : Visits} {entry : RowKey × Gathering}
    (hentry : entry ∈ visits.keys.arrange groups.toList) :
    ∃ row, visits.row entry = .ok row ∧ row.key = entry.1 ∧
      row.Tells (recordsOf grouping c.records entry.1) := by
  obtain ⟨hne, hfold⟩ := (mem_arrange_keys h visits entry).mp hentry
  exact Gathering.exists_row hfold hne _ entry.1

/-- What is known of the records of each key makes the rows of an analysis. -/
lemma exists_rows
    (h : Table.Gathered (RowKey.ofRecord grouping) {} Gathering.add c.records groups)
    (visits : Visits) :
    ∃ rows, (visits.keys.arrange groups.toList).mapM visits.row = .ok rows ∧
      Divides grouping c ⟨RowKey.sortOn (·.key) rows, c.records.length, c.malformed⟩ := by
  have htells : ∀ entry ∈ visits.keys.arrange groups.toList, ∀ row, visits.row entry = .ok row →
      row.key = entry.1 ∧ row.Tells (recordsOf grouping c.records entry.1) := by
    intro entry hentry row hok
    obtain ⟨row', hok', htell⟩ := exists_row_of_mem h hentry
    obtain rfl := Except.ok.inj (hok.symm.trans hok')
    exact htell
  have hall : ∀ entry ∈ visits.keys.arrange groups.toList, ∃ row, visits.row entry = .ok row := by
    intro entry hentry
    obtain ⟨row, hok, -⟩ := exists_row_of_mem h hentry
    exact ⟨row, hok⟩
  obtain ⟨rows, hrows⟩ := exists_mapM_eq_ok hall
  refine ⟨rows, hrows, rfl, rfl, ?_, fun row => ?_⟩
  · -- the keys of the rows are those of the table, each of which stands there once
    have hkeys : rows.map (·.key) = (visits.keys.arrange groups.toList).map (·.1) :=
      map_eq_of_mapM_eq_ok hrows fun entry hentry row hok => (htells entry hentry row hok).1
    have hapart : (rows.map (·.key)).Pairwise fun x y => compare x y ≠ .eq := by
      rw [hkeys, List.pairwise_map]
      exact Table.pairwise_arrange_toList visits.keys groups
    exact pairwise_lt_mergeSort (List.pairwise_map.mp hapart)
  · rw [(RowKey.sortOn_perm _ rows).mem_iff, mem_iff_of_mapM_eq_ok hrows]
    constructor
    · rintro ⟨entry, hentry, hok⟩
      obtain ⟨hkey, htell⟩ := htells entry hentry row hok
      rwa [hkey]
    · intro htell
      -- the table knows this key, as the key has records
      obtain ⟨g, hg⟩ := h.comes row.key
      have hentry := (mem_arrange_keys h visits (row.key, g)).mpr ⟨htell.ne_nil, hg⟩
      obtain ⟨row', hok, hkey, htell'⟩ := exists_row_of_mem h hentry
      rw [htell.unique htell' hkey.symm]
      exact ⟨_, hentry, hok⟩

/-- **An analysis divides its records** whatever the orders in which its tables are gone through, or
some counts are too many. -/
theorem ofCaptureIn_cases (visits : Visits) (grouping : Grouping) (c : Capture) :
    (Fit grouping c.records ∧ ∃ a, ofCaptureIn visits grouping c = .ok a ∧ Divides grouping c a) ∨
      (¬ Fit grouping c.records ∧ ofCaptureIn visits grouping c = .error .overflow) := by
  unfold ofCaptureIn
  rcases Table.gather_cases (RowKey.ofRecord grouping) {} Gathering.add c.records with
    ⟨groups, hgroups, hgathered⟩ | ⟨fault, key, hfault, hkey⟩
  · refine Or.inl ⟨fun key => ?_, ?_⟩
    · obtain ⟨g, hg⟩ := hgathered.comes key
      rcases Gathering.foldlM_add_cases (recordsOf grouping c.records key) with
        ⟨hfit, -⟩ | ⟨-, hover⟩
      · exact hfit
      · cases hover.symm.trans hg
    · obtain ⟨rows, hrows, hdivides⟩ := exists_rows hgathered visits
      exact ⟨_, bind_eq_ok.mpr ⟨groups, hgroups, bind_eq_ok.mpr ⟨rows, hrows, rfl⟩⟩, hdivides⟩
  · rcases Gathering.foldlM_add_cases (recordsOf grouping c.records key) with
      ⟨-, g, hg, -, -⟩ | ⟨hnot, hover⟩
    · cases hg.symm.trans hkey
    · obtain rfl := Except.error.inj (hover.symm.trans hkey)
      refine Or.inr ⟨fun hall => hnot (hall key), ?_⟩
      rw [hfault]
      rfl

/-- An analysis that is there divides its records. -/
lemma divides_of_ofCaptureIn {visits : Visits} (h : ofCaptureIn visits grouping c = .ok a) :
    Divides grouping c a := by
  rcases ofCaptureIn_cases visits grouping c with ⟨-, a', ha', hdivides⟩ | ⟨-, hover⟩
  · obtain rfl := Except.ok.inj (h.symm.trans ha')
    exact hdivides
  · cases h.symm.trans hover

/-! ### What an analysis tells -/

/-- How the rows of an analysis divide its records. -/
structure Partitions (grouping : Grouping) (records : List Record) (a : Analysis) : Prop where
  /-- The rows are in the order of their keys, and no key has two rows. -/
  ascending : a.rows.Pairwise fun x y => compare x.key y.key = .lt
  /-- The keys of the rows are the keys of the records. -/
  key_iff : ∀ key, (∃ row ∈ a.rows, row.key = key) ↔
    ∃ r ∈ records, RowKey.ofRecord grouping r = key
  iterations_eq : ∀ row ∈ a.rows, row.iterations = (recordsOf grouping records row.key).length
  /-- The least number of cycles is one of them, and none of them is less. -/
  min_le : ∀ row ∈ a.rows, (∃ r ∈ recordsOf grouping records row.key, r.cycles = row.min) ∧
    ∀ r ∈ recordsOf grouping records row.key, row.min ≤ r.cycles
  /-- The greatest number of cycles is one of them, and none of them is greater. -/
  le_max : ∀ row ∈ a.rows, (∃ r ∈ recordsOf grouping records row.key, r.cycles = row.max) ∧
    ∀ r ∈ recordsOf grouping records row.key, r.cycles ≤ row.max
  /-- No record is lost, and none is in two rows. -/
  sum_iterations : (a.rows.map (·.iterations)).sum = records.length ∧ a.records = records.length
  /-- The events of a row are in the order of their codes, and no code comes twice. -/
  events_ascending : ∀ row ∈ a.rows, row.events.Pairwise fun x y => compare x.code y.code = .lt
  /-- The codes of a row are the codes of the readings of its records. -/
  code_iff : ∀ row ∈ a.rows, ∀ code, (∃ e ∈ row.events, e.code = code) ↔
    ∃ r ∈ recordsOf grouping records row.key, ∃ reading ∈ r.events, reading.code = code
  /-- The mean count of an event is the exact sum of the counts over the exact number of readings,
  both of which are numbers of sixty-four bits. -/
  mean_eq : ∀ row ∈ a.rows, ∀ e ∈ row.events, ∃ sum number : UInt64,
    sum.toNat = Event.countOf (Event.readingsOf e.code
      ((recordsOf grouping records row.key).flatMap (·.events))) ∧
    number.toNat = (Event.readingsOf e.code
      ((recordsOf grouping records row.key).flatMap (·.events))).length ∧
    e.mean = sum.toFloat / number.toFloat

/-- A key has a row if a record has it. -/
lemma Divides.key_iff (h : Divides grouping c a) (hfit : Fit grouping c.records) (key : RowKey) :
    (∃ row ∈ a.rows, row.key = key) ↔ ∃ r ∈ c.records, RowKey.ofRecord grouping r = key := by
  constructor
  · rintro ⟨row, hrow, rfl⟩
    obtain ⟨r, hr⟩ := List.exists_mem_of_ne_nil _ ((h.mem_rows row).mp hrow).ne_nil
    exact ⟨r, Table.mem_own.mp hr⟩
  · rintro ⟨r, hr, hkey⟩
    have hne : recordsOf grouping c.records key ≠ [] :=
      List.ne_nil_of_mem (Table.mem_own.mpr ⟨hr, hkey⟩)
    rcases Gathering.foldlM_add_cases (recordsOf grouping c.records key) with
      ⟨-, g, hg, -, -⟩ | ⟨hnot, -⟩
    · obtain ⟨row, -, hrow, htell⟩ := Gathering.exists_row hg hne .listed key
      refine ⟨row, (h.mem_rows row).mpr ?_, hrow⟩
      rwa [hrow]
    · exact absurd (hfit key) hnot

/-- The iterations of a row are the records of its key. -/
lemma Divides.iterations_eq (h : Divides grouping c a) {row : Row} (hrow : row ∈ a.rows) :
    row.iterations = (recordsOf grouping c.records row.key).length := by
  obtain ⟨-, hiterations, -⟩ := Row.ofCycles_eq_ok ((h.mem_rows row).mp hrow).eq_ofCycles
  rw [hiterations, List.length_map]

/-- Each record counts for one row. -/
lemma Divides.sum_iterations (h : Divides grouping c a) (hfit : Fit grouping c.records) :
    (a.rows.map (·.iterations)).sum = c.records.length := by
  have hcounts : a.rows.map (·.iterations) =
      (a.rows.map (·.key)).map fun key => (c.records.map (RowKey.ofRecord grouping)).count key := by
    rw [List.map_map]
    refine List.map_congr_left fun row hrow => ?_
    rw [h.iterations_eq hrow, recordsOf, Table.length_own]
    rfl
  have hapart : (a.rows.map (·.key)).Nodup :=
    nodup_of_pairwise_lt (List.pairwise_map.mpr h.ascending)
  have hkeys : (a.rows.map (·.key)).Perm (c.records.map (RowKey.ofRecord grouping)).dedup := by
    refine (List.perm_ext_iff_of_nodup hapart (List.nodup_dedup _)).mpr fun key => ?_
    rw [List.mem_dedup, List.mem_map, List.mem_map]
    exact h.key_iff hfit key
  rw [hcounts, (hkeys.map _).sum_eq, List.sum_map_count_dedup_eq_length, List.length_map]

/-- Rows that tell of the records of their keys divide the records. -/
lemma Divides.partitions (h : Divides grouping c a) (hfit : Fit grouping c.records) :
    a.Partitions grouping c.records := by
  constructor
  case ascending => exact h.ascending
  case key_iff => exact h.key_iff hfit
  case iterations_eq => exact fun row hrow => h.iterations_eq hrow
  case min_le =>
    intro row hrow
    obtain ⟨⟨hmin, -⟩, hall⟩ := Row.min_max_of_ofCycles ((h.mem_rows row).mp hrow).eq_ofCycles
    exact ⟨List.mem_map.mp hmin, fun r hr => (hall _ (List.mem_map_of_mem hr)).1⟩
  case le_max =>
    intro row hrow
    obtain ⟨⟨-, hmax⟩, hall⟩ := Row.min_max_of_ofCycles ((h.mem_rows row).mp hrow).eq_ofCycles
    exact ⟨List.mem_map.mp hmax, fun r hr => (hall _ (List.mem_map_of_mem hr)).2⟩
  case sum_iterations => exact ⟨h.sum_iterations hfit, h.records_eq⟩
  case events_ascending => exact fun row hrow => ((h.mem_rows row).mp hrow).ascending
  case code_iff =>
    intro row hrow code
    have htells := ((h.mem_rows row).mp hrow).mem_events
    constructor
    · rintro ⟨e, he, rfl⟩
      obtain ⟨reading, hreading⟩ := List.exists_mem_of_ne_nil _ ((htells e).mp he).1
      obtain ⟨hmem, hcode⟩ := Table.mem_own.mp hreading
      obtain ⟨r, hr, hevents⟩ := List.mem_flatMap.mp hmem
      exact ⟨r, hr, reading, hevents, hcode⟩
    · rintro ⟨r, hr, reading, hevents, hcode⟩
      have hreading : reading ∈ Event.readingsOf code
          ((recordsOf grouping c.records row.key).flatMap (·.events)) :=
        Table.mem_own.mpr ⟨List.mem_flatMap.mpr ⟨r, hr, hevents⟩, hcode⟩
      exact ⟨(EventSum.ofReadings (Event.readingsOf code _)).mean code,
        (htells _).mpr ⟨List.ne_nil_of_mem hreading, rfl⟩, rfl⟩
  case mean_eq =>
    intro row hrow e he
    obtain ⟨-, hmean⟩ := (((h.mem_rows row).mp hrow).mem_events e).mp he
    have hfits := hfit row.key e.code
    exact ⟨_, _, EventSum.toNat_sum hfits, EventSum.toNat_number hfits, congrArg (·.mean) hmean⟩

/-- Readings of which no key has too many do not make any sum too large. -/
lemma fit_of_length_recordsOf_le {records : List Record}
    (h : ∀ key, ((recordsOf grouping records key).flatMap (·.events)).length ≤ UInt32.size) :
    Fit grouping records := by
  intro key code
  have hcode : (Event.readingsOf code ((recordsOf grouping records key).flatMap (·.events))).Sublist
      ((recordsOf grouping records key).flatMap (·.events)) := List.filter_sublist
  exact Event.fit_of_length_le (hcode.length_le.trans (h key))

/-- Readings of which there are not too many in all do not make any sum too large. -/
lemma fit_of_length_le {records : List Record}
    (h : (records.flatMap (·.events)).length ≤ UInt32.size) : Fit grouping records := by
  refine fit_of_length_recordsOf_le fun key => ?_
  have hkey : ((recordsOf grouping records key).flatMap (·.events)).Sublist
      (records.flatMap (·.events)) := List.filter_sublist.flatMap _
  exact hkey.length_le.trans h

/-- It takes many readings to make a sum too large. -/
lemma size_lt_of_not_fit {records : List Record} (h : ¬ Fit grouping records) :
    UInt32.size < (records.flatMap (·.events)).length := by
  by_contra hle
  exact h (fit_of_length_le (Nat.le_of_not_lt hle))

/-- Counts do not fit if the records of a key all have the same sum of an event, and all of these
sums together are too much. -/
lemma not_fit_of_countOf_eq {records : List Record} (key : RowKey) (code : Event.Code) {n : Nat}
    (h : ∀ r ∈ recordsOf grouping records key, Event.countOf (Event.readingsOf code r.events) = n)
    (hmany : UInt64.size ≤ (recordsOf grouping records key).length * n) :
    ¬ Fit grouping records := by
  intro hfit
  have hcount := (hfit key code).1
  rw [Event.countOf_readingsOf_flatMap h] at hcount
  exact absurd hcount (Nat.not_lt.mpr hmany)

/-- The same for records that all have one key. -/
lemma not_fit_of_key_eq {records : List Record} (key : RowKey) (code : Event.Code) {n : Nat}
    (hkey : ∀ r ∈ records, RowKey.ofRecord grouping r = key)
    (hcount : ∀ r ∈ records, Event.countOf (Event.readingsOf code r.events) = n)
    (hmany : UInt64.size ≤ records.length * n) : ¬ Fit grouping records := by
  have hown : recordsOf grouping records key = records :=
    List.filter_eq_self.mpr fun r hr => decide_eq_true (hkey r hr)
  rw [← hown] at hcount hmany
  exact not_fit_of_countOf_eq key code hcount hmany

/-- Counts that do not fit are too many for an analysis. -/
lemma ofCaptureIn_of_not_fit (h : ¬ Fit grouping c.records) (visits : Visits) :
    UInt32.size < (c.records.flatMap (·.events)).length ∧
      ofCaptureIn visits grouping c = .error .overflow := by
  rcases ofCaptureIn_cases visits grouping c with ⟨hfit, -⟩ | ⟨-, hover⟩
  · exact absurd hfit h
  · exact ⟨size_lt_of_not_fit h, hover⟩

/-- There is an analysis of counts that fit. -/
lemma exists_divides (h : Fit grouping c.records) (visits : Visits) :
    ∃ a, ofCaptureIn visits grouping c = .ok a ∧ Divides grouping c a := by
  rcases ofCaptureIn_cases visits grouping c with ⟨-, hdivides⟩ | ⟨hnot, -⟩
  · exact hdivides
  · exact absurd h hnot

/-- **An analysis divides its records by their keys.**  It is there for every capture whose counts
fit, whatever the orders in which its tables are gone through: each row has the cycles of a record.
Counts that do not fit into sixty-four bits are the only fault, and there are more than four billion
readings then. -/
theorem partitions_records (visits : Visits) (grouping : Grouping) (c : Capture) :
    (Fit grouping c.records → ∃ a, ofCaptureIn visits grouping c = .ok a ∧
        a.Partitions grouping c.records ∧ a.malformed = c.malformed) ∧
      (¬ Fit grouping c.records → UInt32.size < (c.records.flatMap (·.events)).length ∧
        ofCaptureIn visits grouping c = .error .overflow) := by
  refine ⟨fun hfit => ?_, fun hnot => ofCaptureIn_of_not_fit hnot visits⟩
  obtain ⟨a, ha, hdivides⟩ := exists_divides hfit visits
  exact ⟨a, ha, hdivides.partitions hfit, hdivides.malformed_eq⟩

/-! ### Few records and many readings -/

/-- Records of two runs.  The first one has two readings of an event, and two cores and two offsets
have no event at all. -/
def mixedCapture : Capture where
  records := [
    ⟨"a", "bsort", 2, 0, 1, 0, 10, [⟨⟨0⟩, ⟨0x11⟩, 5⟩, ⟨⟨1⟩, ⟨0x11⟩, 7⟩, ⟨⟨2⟩, ⟨0x03⟩, 1⟩]⟩,
    ⟨"a", "bsort", 2, 1, 1, 0, 20, []⟩,
    ⟨"b", "bsort", 1, 0, 1, 0, 8, [⟨⟨0⟩, ⟨0x11⟩, 6⟩]⟩,
    ⟨"a", "bsort", 2, 0, 2, 100, 12, []⟩]
  malformed := 1

/-- A record with so many readings of the greatest count that there is. -/
def flooded (label : String) (n : Nat) : Record :=
  ⟨label, "bsort", 1, 0, 1, 0, 7, List.replicate n ⟨⟨0⟩, ⟨0x11⟩, 0xffffffff⟩⟩

/-- All readings of such a record are of one event. -/
lemma countOf_flooded (label : String) (n : Nat) :
    Event.countOf (Event.readingsOf ⟨0x11⟩ (flooded label n).events) = n * 0xffffffff := by
  rw [flooded, Event.readingsOf, Table.own, List.filter_replicate_of_pos (by decide),
    Event.countOf, List.map_replicate, List.sum_replicate, Nat.nsmul_eq_mul]
  rfl

/-- A record with one reading too many: without it the counts would still fit. -/
def floodedCapture : Capture :=
  ⟨[flooded "a" 4294967298], 0⟩

/-- The counts of the readings do not fit, whatever the key. -/
lemma not_fit_floodedCapture (grouping : Grouping) : ¬ Fit grouping floodedCapture.records := by
  refine not_fit_of_key_eq (RowKey.ofRecord grouping (flooded "a" 4294967298)) ⟨0x11⟩
    (n := 4294967298 * 0xffffffff) (fun r hr => ?_) (fun r hr => ?_) (by decide)
  · rw [List.mem_singleton.mp hr]
  · rw [List.mem_singleton.mp hr]
    exact countOf_flooded "a" 4294967298

/-- The two records of the first core and its first offset have one row by workload, in which an
event counts three times; and the record with too many readings has no row. -/
theorem partitions_records_of_mixedCapture :
    (∃ a, ofCapture .workload mixedCapture = .ok a ∧ a.malformed = 1 ∧
      ∃ row ∈ a.rows, row.key = ⟨none, "bsort", none, 0, 0⟩ ∧ row.iterations = 2) ∧
    ofCapture .workload floodedCapture = .error .overflow := by
  have hfit : Fit .workload mixedCapture.records := fit_of_length_le (by decide)
  obtain ⟨a, ha, hpartitions, hmalformed⟩ :=
    (partitions_records .listed .workload mixedCapture).1 hfit
  have hfirst : mixedCapture.records.head (by decide) ∈ mixedCapture.records :=
    List.head_mem _
  obtain ⟨row, hrow, hkey⟩ := (hpartitions.key_iff _).mpr ⟨_, hfirst, rfl⟩
  have hiterations := hpartitions.iterations_eq row hrow
  rw [hkey] at hiterations
  refine ⟨⟨a, ha, hmalformed, row, hrow, hkey, hiterations.trans (by decide)⟩, ?_⟩
  exact ((partitions_records .listed .workload floodedCapture).2
    (not_fit_floodedCapture .workload)).2

/-- **Too many readings have no analysis.**  One record with a few more than four billion readings
is not brought together in a row. -/
theorem no_analysis_of_floodedCapture :
    ofCapture .run floodedCapture = .error .overflow ∧
      ¬ ∃ a, ofCapture .run floodedCapture = .ok a ∧ a.Partitions .run floodedCapture.records := by
  obtain ⟨-, hover⟩ := ofCaptureIn_of_not_fit (not_fit_floodedCapture .run) .listed
  refine ⟨hover, ?_⟩
  rintro ⟨a, ha, -⟩
  cases hover.symm.trans ha

end Analysis

end Lockstep
