import Lockstep.Analysis.Gathering
import Lockstep.Proofs.Analysis.Table
import Lockstep.Proofs.Sorting
import Mathlib.Algebra.BigOperators.Group.List.Basic
import Mathlib.Algebra.GroupWithZero.Nat
import Mathlib.Algebra.Order.BigOperators.Group.List
import Mathlib.Algebra.Order.Group.Nat
import Mathlib.Data.List.Induction
import Mathlib.Data.List.Perm.Basic

/-!
# What a row tells

A row tells of the records of its key how many there are, their cycles, and the means of their
events.  It does not depend on the order of the records: the cycles are sorted before anything is
summed up in doubles, and the counts of events are summed up as integers.
-/

namespace Lockstep

/-! ### Sums of counts -/

namespace Event

/-- Codes are compared by their numbers. -/
lemma compare_code (a b : Code) : compare a b = compare a.number b.number := by
  change (compare a.number b.number).then .eq = _
  cases compare a.number b.number <;> rfl

instance : Std.TransOrd Code := by
  have hcompare : (compare : Code → Code → Ordering) = fun a b => compare a.number b.number :=
    funext fun a => funext fun b => compare_code a b
  change Std.TransCmp (compare : Code → Code → Ordering)
  rw [hcompare]
  infer_instance

instance : Std.LawfulEqOrd Code where
  eq_of_compare {a b} h := by
    rw [compare_code] at h
    cases a
    cases b
    exact congrArg Code.mk (Std.LawfulEqOrd.eq_of_compare h)

/-- The readings of an event. -/
def readingsOf (code : Code) (readings : List Reading) : List Reading :=
  Table.own (·.code) code readings

/-- The sum of the counts of readings. -/
def countOf (readings : List Reading) : Nat :=
  (readings.map (·.count.toNat)).sum

/-- The counts of readings can be summed up, and the readings counted, in sixty-four bits. -/
def Fit (readings : List Reading) : Prop :=
  countOf readings < UInt64.size ∧ readings.length < UInt64.size

lemma countOf_concat (readings : List Reading) (r : Reading) :
    countOf (readings ++ [r]) = countOf readings + r.count.toNat := by
  simp [countOf]

/-- Readings in another order have the same sum. -/
lemma countOf_perm {readings readings' : List Reading} (h : readings.Perm readings') :
    countOf readings = countOf readings' :=
  (h.map _).sum_eq

/-- The counts of readings of two kinds add up. -/
lemma countOf_append (readings readings' : List Reading) :
    countOf (readings ++ readings') = countOf readings + countOf readings' := by
  rw [countOf, List.map_append, List.sum_append]
  rfl

/-- Records whose counts of an event come to the same have as many times this sum in all. -/
lemma countOf_readingsOf_flatMap {records : List Record} {code : Code} {n : Nat}
    (h : ∀ r ∈ records, countOf (readingsOf code r.events) = n) :
    countOf (readingsOf code (records.flatMap (·.events))) = records.length * n := by
  induction records with
  | nil =>
    rw [List.length_nil, Nat.zero_mul]
    rfl
  | cons r records ih =>
    obtain ⟨hfirst, hothers⟩ := List.forall_mem_cons.mp h
    rw [List.flatMap_cons, readingsOf, Table.own_append, countOf_append, List.length_cons,
      Nat.succ_mul, Nat.add_comm]
    exact congr (congrArg HAdd.hAdd (ih hothers)) hfirst

/-- Records in another order have the same readings of an event in another order. -/
lemma readingsOf_perm {records records' : List Record} (h : records.Perm records') (code : Code) :
    (readingsOf code (records.flatMap (·.events))).Perm
      (readingsOf code (records'.flatMap (·.events))) :=
  Table.own_perm (h.flatMap_right _) code

/-- Readings that fit do so in any order. -/
lemma Fit.perm {readings readings' : List Reading} (hfit : Fit readings)
    (h : readings.Perm readings') : Fit readings' := by
  obtain ⟨hcount, hlength⟩ := hfit
  rw [countOf_perm h] at hcount
  rw [h.length_eq] at hlength
  exact ⟨hcount, hlength⟩

/-- The beginning of readings that fit fits. -/
lemma Fit.of_concat {readings : List Reading} {r : Reading} (h : Fit (readings ++ [r])) :
    Fit readings := by
  obtain ⟨hcount, hlength⟩ := h
  rw [countOf_concat] at hcount
  rw [List.length_append, List.length_singleton] at hlength
  exact ⟨by omega, by omega⟩

/-- Readings that are not more than there are counts fit. -/
lemma fit_of_length_le {readings : List Reading} (h : readings.length ≤ UInt32.size) :
    Fit readings := by
  have hcounts : ∀ n ∈ readings.map (·.count.toNat), n ≤ UInt32.size - 1 := by
    intro n hn
    obtain ⟨r, -, rfl⟩ := List.mem_map.mp hn
    exact Nat.le_sub_one_of_lt r.count.toNat_lt
  have hsum : countOf readings ≤ readings.length * (UInt32.size - 1) := by
    have hle := List.sum_le_card_nsmul _ _ hcounts
    rwa [List.length_map, Nat.nsmul_eq_mul] at hle
  have hproduct : readings.length * (UInt32.size - 1) ≤ UInt32.size * (UInt32.size - 1) :=
    Nat.mul_le_mul_right _ h
  have hroom : UInt32.size * (UInt32.size - 1) < UInt64.size := by decide
  have hsize : UInt32.size < UInt64.size := by decide
  exact ⟨by omega, by omega⟩

end Event

namespace EventSum

/-- What is known of an event from its readings. -/
def ofReadings (readings : List Event.Reading) : EventSum :=
  ⟨UInt64.ofNat (Event.countOf readings), UInt64.ofNat readings.length⟩

/-- The sum of counts that fit is exact. -/
lemma toNat_sum {readings : List Event.Reading} (h : Event.Fit readings) :
    (ofReadings readings).sum.toNat = Event.countOf readings :=
  UInt64.toNat_ofNat_of_lt' h.1

/-- The number of readings that fit is exact. -/
lemma toNat_number {readings : List Event.Reading} (h : Event.Fit readings) :
    (ofReadings readings).number.toNat = readings.length :=
  UInt64.toNat_ofNat_of_lt' h.2

/-- A reading more is added if there is room for it. -/
lemma add_ofReadings {readings : List Event.Reading} (h : Event.Fit readings) (r : Event.Reading) :
    (Event.Fit (readings ++ [r]) ∧
        (ofReadings readings).add r = .ok (ofReadings (readings ++ [r]))) ∨
      (¬ Event.Fit (readings ++ [r]) ∧ (ofReadings readings).add r = .error .overflow) := by
  have hcount : r.count.toUInt64.toNat = r.count.toNat := UInt32.toNat_toUInt64 _
  have hone : (1 : UInt64).toNat = 1 := rfl
  by_cases hsum : Event.countOf readings + r.count.toNat < UInt64.size
  · by_cases hnumber : readings.length + 1 < UInt64.size
    · refine Or.inl ⟨⟨?_, ?_⟩, ?_⟩
      · rwa [Event.countOf_concat]
      · rwa [List.length_append, List.length_singleton]
      · rw [add, checkedAdd_of_lt (by rwa [toNat_sum h, hcount]),
          checkedAdd_of_lt (by rwa [toNat_number h, hone])]
        change Except.ok _ = _
        congr 1
        rw [ofReadings, ofReadings, Event.countOf_concat, List.length_append, List.length_singleton,
          UInt64.ofNat_add, UInt64.ofNat_add]
        congr 2
        exact UInt64.toNat_inj.mp (by simp)
    · refine Or.inr ⟨fun hfit => hnumber ?_, ?_⟩
      · have hlength := hfit.2
        rwa [List.length_append, List.length_singleton] at hlength
      · have hover : checkedAdd (ofReadings readings).number 1 = .error .overflow :=
          if_neg (by rwa [toNat_number h, hone])
        rw [add, checkedAdd_of_lt (by rwa [toNat_sum h, hcount]), hover]
        rfl
  · refine Or.inr ⟨fun hfit => hsum ?_, ?_⟩
    · have hcounts := hfit.1
      rwa [Event.countOf_concat] at hcounts
    · have hover : checkedAdd (ofReadings readings).sum r.count.toUInt64 = .error .overflow :=
        if_neg (by rwa [toNat_sum h, hcount])
      rw [add, hover]
      rfl

/-- **The counts of an event are summed up exactly**, or they are too many. -/
theorem foldlM_add (readings : List Event.Reading) :
    (Event.Fit readings ∧ readings.foldlM add {} = .ok (ofReadings readings)) ∨
      (¬ Event.Fit readings ∧ readings.foldlM add {} = .error .overflow) := by
  induction readings using List.reverseRecOn with
  | nil => exact Or.inl ⟨⟨by decide, by decide⟩, rfl⟩
  | append_singleton readings r ih =>
    rw [List.foldlM_append]
    rcases ih with ⟨hfit, hsum⟩ | ⟨hnot, hover⟩
    · have hlast : ∀ s : EventSum, [r].foldlM add s = s.add r := by
        intro s
        change s.add r >>= Except.ok = _
        cases s.add r with
        | error fault => rfl
        | ok t => rfl
      rw [hsum]
      change (_ ∧ [r].foldlM add _ = _) ∨ (_ ∧ [r].foldlM add _ = _)
      rw [hlast]
      exact add_ofReadings hfit r
    · refine Or.inr ⟨fun hfit => hnot hfit.of_concat, ?_⟩
      rw [hover]
      rfl

end EventSum

/-! ### Rows of cycles -/

namespace Row

variable {key : RowKey} {cycles cycles' : List UInt64} {events : List EventMean} {row : Row}

/-- Numbers of cycles are in ascending order when they are sorted. -/
lemma pairwise_le_mergeSort (cycles : List UInt64) :
    cycles.mergeSort.Pairwise fun a b => a ≤ b := by
  refine (List.pairwise_mergeSort (fun a b c hab hbc => ?_) (fun a b => ?_) cycles).imp ?_
  · rw [decide_eq_true_eq] at hab hbc ⊢
    exact UInt64.le_trans hab hbc
  · rw [Bool.or_eq_true, decide_eq_true_eq, decide_eq_true_eq]
    exact UInt64.le_total a b
  · exact of_decide_eq_true

/-- Numbers of cycles in another order are the same when they are sorted. -/
lemma mergeSort_eq_of_perm (h : cycles.Perm cycles') : cycles.mergeSort = cycles'.mergeSort := by
  have hperm : cycles.mergeSort.Perm cycles'.mergeSort :=
    ((List.mergeSort_perm cycles _).trans h).trans (List.mergeSort_perm cycles' _).symm
  exact hperm.eq_of_pairwise (fun _ _ _ _ => UInt64.le_antisymm) (pairwise_le_mergeSort cycles)
    (pairwise_le_mergeSort cycles')

/-- There is no row without cycles. -/
lemma ofCycles_nil (key : RowKey) (events : List EventMean) :
    ofCycles key [] events = .error .assertion := by
  rw [ofCycles, List.mergeSort_nil]

/-- There is a row of any cycles. -/
lemma exists_ofCycles (h : cycles ≠ []) (key : RowKey) (events : List EventMean) :
    ∃ row, ofCycles key cycles events = .ok row := by
  unfold ofCycles
  cases hsorted : cycles.mergeSort with
  | nil =>
    have hperm := List.mergeSort_perm cycles fun a b => decide (a ≤ b)
    rw [hsorted] at hperm
    exact absurd hperm.symm.eq_nil h
  | cons least others => exact ⟨_, rfl⟩

/-- What a row of cycles is made of. -/
lemma ofCycles_eq_ok (h : ofCycles key cycles events = .ok row) :
    row.key = key ∧ row.iterations = cycles.length ∧ row.events = events := by
  unfold ofCycles at h
  cases hsorted : cycles.mergeSort with
  | nil =>
    rw [hsorted] at h
    cases h
  | cons least others =>
    rw [hsorted] at h
    obtain rfl := Except.ok.inj h
    exact ⟨rfl, rfl, rfl⟩

/-- A row does not depend on the order of the cycles. -/
lemma ofCycles_perm (h : cycles.Perm cycles') (key : RowKey) (events : List EventMean) :
    ofCycles key cycles events = ofCycles key cycles' events := by
  simp only [ofCycles, mergeSort_eq_of_perm h, h.length_eq]

/-- The cycles of a row in ascending order, from the least to the greatest number. -/
lemma exists_sorted (h : ofCycles key cycles events = .ok row) :
    ∃ least others, cycles.mergeSort = least :: others ∧ row.min = least ∧
      row.max = (least :: others).getLast (List.cons_ne_nil _ _) := by
  unfold ofCycles at h
  cases hsorted : cycles.mergeSort with
  | nil =>
    rw [hsorted] at h
    cases h
  | cons least others =>
    rw [hsorted] at h
    obtain rfl := Except.ok.inj h
    refine ⟨least, others, rfl, rfl, ?_⟩
    rw [List.getLast_eq_getLastD]

/-- In ascending numbers the last one is the greatest. -/
lemma le_getLast {cs : List UInt64} (h : cs.Pairwise fun a b => a ≤ b) (hne : cs ≠ []) :
    ∀ c ∈ cs, c ≤ cs.getLast hne := by
  intro c hc
  rw [← List.dropLast_append_getLast hne, List.pairwise_append] at h
  rw [← List.dropLast_append_getLast hne, List.mem_append] at hc
  rcases hc with hbefore | hlast
  · exact h.2.2 c hbefore _ (List.mem_singleton_self _)
  · exact UInt64.le_of_eq (List.mem_singleton.mp hlast)

/-- The least and the greatest number of cycles of a row are numbers of its cycles, and all of them
lie between these two. -/
lemma min_max_of_ofCycles (h : ofCycles key cycles events = .ok row) :
    (row.min ∈ cycles ∧ row.max ∈ cycles) ∧ ∀ c ∈ cycles, row.min ≤ c ∧ c ≤ row.max := by
  obtain ⟨least, others, hsorted, hmin, hmax⟩ := exists_sorted h
  have hmem : ∀ c, c ∈ cycles ↔ c ∈ least :: others := by
    intro c
    rw [← hsorted]
    exact (List.mergeSort_perm cycles _).mem_iff.symm
  have hle := pairwise_le_mergeSort cycles
  rw [hsorted] at hle
  refine ⟨⟨?_, ?_⟩, fun c hc => ⟨?_, ?_⟩⟩
  · rw [hmem, hmin]
    exact List.mem_cons_self
  · rw [hmem, hmax]
    exact List.getLast_mem _
  · rw [hmin]
    rcases List.mem_cons.mp ((hmem c).mp hc) with rfl | hothers
    · exact UInt64.le_refl c
    · exact List.rel_of_pairwise_cons hle hothers
  · rw [hmax]
    exact le_getLast hle _ c ((hmem c).mp hc)

/-! ### Rows of records -/

/-- What a row tells of the records that it stands for: the mean counts of their events, in the
order of the codes, and what their cycles come to. -/
structure Tells (records : List Record) (row : Row) : Prop where
  ascending : row.events.Pairwise fun a b => compare a.code b.code = .lt
  mem_events : ∀ e, e ∈ row.events ↔
    Event.readingsOf e.code (records.flatMap (·.events)) ≠ [] ∧
      e = (EventSum.ofReadings (Event.readingsOf e.code (records.flatMap (·.events)))).mean e.code
  eq_ofCycles : ofCycles row.key (records.map (·.cycles)) row.events = .ok row

variable {records records' : List Record} {row' : Row}

/-- There is no row without records. -/
lemma Tells.ne_nil (h : row.Tells records) : records ≠ [] := by
  rintro rfl
  have hrow := h.eq_ofCycles
  rw [List.map_nil, ofCycles_nil] at hrow
  cases hrow

/-- A row tells the same of records in another order. -/
lemma Tells.perm (h : row.Tells records) (hperm : records.Perm records') : row.Tells records' := by
  refine ⟨h.ascending, fun e => ?_, ?_⟩
  · have hreadings := Event.readingsOf_perm hperm e.code
    have hsame : EventSum.ofReadings (Event.readingsOf e.code (records.flatMap (·.events))) =
        EventSum.ofReadings (Event.readingsOf e.code (records'.flatMap (·.events))) := by
      rw [EventSum.ofReadings, Event.countOf_perm hreadings, hreadings.length_eq]
      rfl
    rw [h.mem_events, hsame, ne_eq, ne_eq, ← List.length_eq_zero_iff, hreadings.length_eq,
      List.length_eq_zero_iff]
  · rw [← ofCycles_perm (hperm.map _)]
    exact h.eq_ofCycles

/-- Records of a key have one row at most. -/
lemma Tells.unique (h : row.Tells records) (h' : row'.Tells records) (hkey : row.key = row'.key) :
    row = row' := by
  have hevents : row.events = row'.events := by
    refine eq_of_pairwise_lt h.ascending h'.ascending fun e => ?_
    exact (h.mem_events e).trans (h'.mem_events e).symm
  have hrow := h.eq_ofCycles
  rw [hkey, hevents, h'.eq_ofCycles] at hrow
  exact (Except.ok.inj hrow).symm

end Row

/-! ### Rows of what was gathered -/

/-- The counts of every event of records can be summed up in sixty-four bits. -/
def Event.AllFit (records : List Record) : Prop :=
  ∀ code, Fit (readingsOf code (records.flatMap (·.events)))

namespace Gathering

variable {g : Gathering} {records : List Record} {visit : Visit (Event.Code × EventSum)}

/-- What is known of records: their cycles one after the other, and what their readings come to. -/
lemma foldlM_add (g : Gathering) (records : List Record) :
    records.foldlM add g =
      (Table.gather (·.code) {} EventSum.add g.events (records.flatMap (·.events))).map
        fun events => ⟨g.cycles ++ (records.map (·.cycles)).toArray, events⟩ := by
  induction records generalizing g with
  | nil =>
    change Except.ok g = Except.ok ⟨g.cycles ++ #[], g.events⟩
    rw [Array.append_empty]
  | cons r records ih =>
    rw [List.foldlM_cons, List.flatMap_cons, Table.gather_append, add]
    cases Table.gather (·.code) {} EventSum.add g.events r.events with
    | error fault => rfl
    | ok events =>
      change records.foldlM add ⟨g.cycles.push r.cycles, events⟩ = _
      rw [ih, List.map_cons, Array.push_eq_append, Array.append_assoc]
      change _ = Except.map _ (Table.gather _ _ _ events _)
      congr 1
      funext events
      congr 1
      simp

/-- **Records are gathered exactly**, or the counts of one of their events are too many. -/
theorem foldlM_add_cases (records : List Record) :
    (Event.AllFit records ∧ ∃ g, records.foldlM add {} = .ok g ∧
        g.cycles.toList = records.map (·.cycles) ∧
        Table.Gathered (·.code) {} EventSum.add (records.flatMap (·.events)) g.events) ∨
      (¬ Event.AllFit records ∧ records.foldlM add {} = .error .overflow) := by
  rw [foldlM_add]
  rcases Table.gather_cases (·.code) {} EventSum.add (records.flatMap (·.events)) with
    ⟨table, htable, hgathered⟩ | ⟨fault, code, hfault, hcode⟩
  · refine Or.inl ⟨fun code => ?_, ⟨_, table⟩, by rw [htable]; rfl, by simp, hgathered⟩
    obtain ⟨s, hs⟩ := hgathered.comes code
    rcases EventSum.foldlM_add (Event.readingsOf code (records.flatMap (·.events))) with
      ⟨hfit, -⟩ | ⟨-, hover⟩
    · exact hfit
    · cases hover.symm.trans hs
  · rcases EventSum.foldlM_add (Event.readingsOf code (records.flatMap (·.events))) with
      ⟨-, hsum⟩ | ⟨hnot, hover⟩
    · cases hsum.symm.trans hcode
    · obtain rfl := Except.error.inj (hover.symm.trans hcode)
      exact Or.inr ⟨fun hall => hnot (hall code), by rw [hfault]; rfl⟩

/-- The mean counts of the events that were gathered are in the order of the codes. -/
lemma pairwise_eventMeans (visit : Visit (Event.Code × EventSum)) (g : Gathering) :
    (g.eventMeans visit).Pairwise fun a b => compare a.code b.code = .lt := by
  refine pairwise_lt_mergeSort ?_
  rw [List.pairwise_map]
  exact Table.pairwise_arrange_toList visit g.events

/-- There is a mean count of each event that was gathered, and of no other one. -/
lemma mem_eventMeans {readings : List Event.Reading}
    (h : Table.Gathered (·.code) {} EventSum.add readings g.events)
    (visit : Visit (Event.Code × EventSum)) (e : EventMean) :
    e ∈ g.eventMeans visit ↔ Event.readingsOf e.code readings ≠ [] ∧
      e = (EventSum.ofReadings (Event.readingsOf e.code readings)).mean e.code := by
  have hsum : ∀ code s, (Event.readingsOf code readings).foldlM EventSum.add {} = .ok s ↔
      s = EventSum.ofReadings (Event.readingsOf code readings) := by
    intro code s
    rcases EventSum.foldlM_add (Event.readingsOf code readings) with ⟨-, hok⟩ | ⟨-, hover⟩
    · rw [hok, Except.ok.injEq, eq_comm]
    · obtain ⟨t, ht⟩ := h.comes code
      cases hover.symm.trans ht
  rw [eventMeans, EventMean.sort, (List.mergeSort_perm _ _).mem_iff, List.mem_map]
  constructor
  · rintro ⟨⟨code, s⟩, hmem, rfl⟩
    rw [Table.mem_arrange_toList, h.knows] at hmem
    obtain ⟨hne, hs⟩ := hmem
    obtain rfl := (hsum code s).mp hs
    exact ⟨hne, rfl⟩
  · rintro ⟨hne, he⟩
    refine ⟨(e.code, EventSum.ofReadings (Event.readingsOf e.code readings)), ?_, he.symm⟩
    rw [Table.mem_arrange_toList, h.knows]
    exact ⟨hne, (hsum _ _).mpr rfl⟩

/-- **What was gathered of records makes a row that tells of them.** -/
theorem exists_row (h : records.foldlM add {} = .ok g) (hne : records ≠ [])
    (visit : Visit (Event.Code × EventSum)) (key : RowKey) :
    ∃ row, g.row visit key = .ok row ∧ row.key = key ∧ row.Tells records := by
  rcases foldlM_add_cases records with ⟨-, g', hg', hcycles, hgathered⟩ | ⟨-, hover⟩
  · obtain rfl := Except.ok.inj (hg'.symm.trans h)
    have hcyclesNe : records.map (·.cycles) ≠ [] := fun hnil => hne (List.map_eq_nil_iff.mp hnil)
    obtain ⟨row, hrow⟩ := Row.exists_ofCycles hcyclesNe key (g'.eventMeans visit)
    obtain ⟨hkey, -, hevents⟩ := Row.ofCycles_eq_ok hrow
    refine ⟨row, by rw [Gathering.row, hcycles, hrow], hkey, ?_, ?_, ?_⟩
    · rw [hevents]
      exact g'.pairwise_eventMeans visit
    · rw [hevents]
      exact mem_eventMeans hgathered visit
    · rw [hkey, hevents]
      exact hrow
  · cases hover.symm.trans h

end Gathering

end Lockstep
