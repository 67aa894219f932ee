import Lockstep.Proofs.Random.Shuffle
import Lockstep.Proofs.Workload.Calls
import Mathlib.Algebra.Order.BigOperators.Group.List
import Mathlib.Algebra.Order.Ring.Int
import Mathlib.Logic.Function.Iterate

/-!
# What array walks leave behind

The way through the records starts as all of their places in order, and a shuffle moves elements
only, so that it stays a permutation of the places (`ArrayWalk.VisitsAll`).  A sum does not depend
on the order in which its terms are added, and writing to a record twice or after another one is the
same as writing to it once.  So what a walk leaves behind depends on the places that it visits, and
not on their order.

A record counts for no more than `2 ^ 31`, and there are fewer than `2 ^ 32` of them, so that no sum
on the way leaves sixty-four bits.

The main statement, `ArrayWalk.random_agrees_with_linear`, says that random and linear walks differ
in nothing but the order.
-/

namespace Lockstep.ArrayWalk

/-! ### Visited records -/

/-- A record whose first word was written. -/
def overwritten (r : BigRecord) : BigRecord :=
  { r with id := written }

/-- The first word of the record at a place, which is zero if there is none. -/
def wordAt (records : Array BigRecord) (i : Nat) : Int :=
  (records[i]?.map fun r => r.id.toInt).getD 0

/-- The sum of the first words of all records. -/
def total (records : Array BigRecord) : Int :=
  (records.toList.map fun r => r.id.toInt).sum

/-- The walk visits each of its records once. -/
def VisitsAll (w : ArrayWalk) : Prop :=
  w.places.Perm (List.range w.records.size)

variable {records : Array BigRecord} {places : List Nat}

/-- Reading adds up what stands at the places. -/
lemma sum_eq (hplaces : ∀ i ∈ places, i < records.size) :
    sum records places = .ok (places.map (wordAt records)).sum := by
  unfold sum
  rw [← Int.zero_add (places.map (wordAt records)).sum]
  -- The sum so far is any number, so that the induction can go on behind the first place.
  generalize (0 : Int) = before
  induction places generalizing before with
  | nil =>
    rw [List.map_nil, List.sum_nil, Int.add_zero]
    rfl
  | cons i places ih =>
    obtain ⟨hi, hlater⟩ := List.forall_mem_cons.mp hplaces
    have hthere := Array.getElem?_eq_getElem hi
    have hword : wordAt records i = records[i].id.toInt := by
      unfold wordAt
      rw [hthere]
      rfl
    rw [List.foldlM_cons, bind_eq_ok]
    refine ⟨before + records[i].id.toInt, ?_, ?_⟩
    · rw [hthere]
    · rw [ih hlater, List.map_cons, List.sum_cons, hword, Int.add_assoc]

/-- What stands at all places together. -/
lemma sum_map_range : ((List.range records.size).map (wordAt records)).sum = total records := by
  have hwords : (List.range records.size).map (wordAt records) =
      records.toList.map fun r => r.id.toInt := by
    apply List.ext_getElem
    · simp
    · intro i hi _
      have hlt : i < records.size := by simpa using hi
      simp [wordAt, hlt]
  rw [hwords, total]

/-- **The order of the places does not change their sum.** -/
lemma sum_of_perm (hperm : places.Perm (List.range records.size)) :
    sum records places = .ok (total records) := by
  rw [sum_eq fun i hi => List.mem_range.mp (hperm.mem_iff.mp hi), ← sum_map_range]
  exact congrArg Except.ok (hperm.map _).sum_eq

/-- What stands at a place counts for no more than half of thirty-two bits. -/
lemma wordAt_mem (records : Array BigRecord) (i : Nat) :
    -2 ^ 31 ≤ wordAt records i ∧ wordAt records i ≤ 2 ^ 31 := by
  unfold wordAt
  cases records[i]? with
  | none => decide
  | some r => exact ⟨r.id.le_toInt, r.id.toInt_lt.le⟩

/-- So few places cannot leave sixty-four bits. -/
lemma exists_sum_of_length_lt (hplaces : ∀ i ∈ places, i < records.size)
    (hlength : places.length < UInt32.size) :
    ∃ reached, sum records places = .ok reached ∧ -2 ^ 63 ≤ reached ∧ reached < 2 ^ 63 := by
  refine ⟨_, sum_eq hplaces, ?_⟩
  have hupper := List.sum_le_card_nsmul (places.map (wordAt records)) (2 ^ 31) (by
    intro x hx
    obtain ⟨i, -, rfl⟩ := List.mem_map.mp hx
    exact (wordAt_mem records i).2)
  have hlower := List.card_nsmul_le_sum (places.map (wordAt records)) (-2 ^ 31) (by
    intro x hx
    obtain ⟨i, -, rfl⟩ := List.mem_map.mp hx
    exact (wordAt_mem records i).1)
  rw [List.length_map, nsmul_eq_mul] at hupper hlower
  have hsize : UInt32.size = 2 ^ 32 := rfl
  omega

/-- Writing changes what stands at the places and nothing else. -/
lemma exists_fill (hplaces : ∀ i ∈ places, i < records.size) :
    ∃ filled, fill records places = .ok filled ∧
      ∀ i, filled[i]? = if i ∈ places then records[i]?.map overwritten else records[i]? := by
  induction places generalizing records with
  | nil => exact ⟨records, rfl, fun i => by rw [if_neg List.not_mem_nil]⟩
  | cons p places ih =>
    obtain ⟨hp, hlater⟩ := List.forall_mem_cons.mp hplaces
    have hsize : ∀ i ∈ places, i < (records.modify p overwritten).size := by
      intro i hi
      rw [Array.size_modify]
      exact hlater i hi
    obtain ⟨filled, hfill, hfilled⟩ := ih hsize
    refine ⟨filled, ?_, ?_⟩
    · unfold fill
      rw [if_pos hp]
      exact hfill
    · intro i
      rw [hfilled, Array.getElem?_modify]
      -- A record that is written again stays as it is.
      by_cases hfirst : p = i
      · subst hfirst
        rw [if_pos rfl, if_pos List.mem_cons_self, Option.map_map]
        exact ite_self _
      · have hmem : i ∈ p :: places ↔ i ∈ places :=
          ⟨fun h => (List.mem_cons.mp h).resolve_left (Ne.symm hfirst), List.mem_cons_of_mem p⟩
        rw [if_neg hfirst]
        simp only [hmem]

/-- **The order of the places does not change what is written.** -/
lemma fill_of_perm (hperm : places.Perm (List.range records.size)) :
    fill records places = .ok (records.map overwritten) := by
  have hmem : ∀ i, i ∈ places ↔ i < records.size := by
    intro i
    rw [hperm.mem_iff, List.mem_range]
  obtain ⟨filled, hfill, hfilled⟩ := exists_fill fun i hi => (hmem i).mp hi
  rw [hfill]
  refine congrArg Except.ok (Array.ext_getElem? fun i => ?_)
  rw [hfilled, Array.getElem?_map]
  split_ifs with hi
  · rfl
  · rw [hmem, Nat.not_lt] at hi
    rw [Array.getElem?_eq_none hi]
    rfl

/-! ### Calls to the workload -/

variable {w : ArrayWalk} {made : List Workload.Call}

/-- A shuffle leaves each place where it is or moves it. -/
lemma VisitsAll.prepare (h : w.VisitsAll) : w.prepare.VisitsAll := by
  unfold VisitsAll at h ⊢
  refine List.Perm.trans ?_ h
  unfold places ArrayWalk.prepare
  cases w.order with
  | none => exact .refl _
  | some o => exact (Random.shuffle_perm o.1 o.2).toList.map _

/-- Other records are visited in the same order if there are as many of them. -/
lemma VisitsAll.replace (h : w.VisitsAll) (hsize : records.size = w.records.size) :
    ({ w with records := records } : ArrayWalk).VisitsAll := by
  unfold VisitsAll places at h ⊢
  simp only [hsize]
  exact h

/-- A walk that reads leaves the sum behind. -/
lemma on_run_of_read (haccess : w.access = .read) (h : w.VisitsAll) :
    run.on w = (.ok (), { w with lastSum := total w.records }) := by
  have hsum : (Attempt.take (sum w.records w.places)).on w = (.ok (total w.records), w) :=
    congrArg (·, w) (sum_of_perm h)
  simp only [run, Attempt.on_look_bind, haccess]
  rw [Attempt.on_bind_of_ok hsum, Attempt.on_change, ← haccess]

/-- A walk that writes leaves the written records behind. -/
lemma on_run_of_write (haccess : w.access = .write) (h : w.VisitsAll) :
    run.on w = (.ok (), { w with records := w.records.map overwritten }) := by
  have hfill : (Attempt.take (fill w.records w.places)).on w =
      (.ok (w.records.map overwritten), w) := congrArg (·, w) (fill_of_perm h)
  simp only [run, Attempt.on_look_bind, haccess]
  rw [Attempt.on_bind_of_ok hfill, Attempt.on_change, ← haccess]

/-- A random order before the first shuffle: from the first record to the last one. -/
def firstOrder (count : Nat) (seed : UInt64) : Array UInt32 × Random.Generator :=
  ((Array.range count).map UInt32.ofNat, Random.Generator.ofSeed seed)

/-- A random order after another shuffle. -/
def reshuffled (order : Array UInt32 × Random.Generator) : Array UInt32 × Random.Generator :=
  Random.shuffle order.1 order.2

/-- What has become of a walk by calls to it, the last of which comes first. -/
structure HasWalked (order : Option (Array UInt32 × Random.Generator)) (kind : Access)
    (start : Array BigRecord) (made : List Workload.Call) (w : ArrayWalk) : Prop where
  access : w.access = kind
  order : w.order = order.map reshuffled^[made.count .prepare]
  visits : w.VisitsAll
  records : w.records = if kind = .write ∧ .run ∈ made then start.map overwritten else start
  lastSum : w.lastSum = if kind = .read ∧ .run ∈ made then total start else 0

variable {order : Option (Array UInt32 × Random.Generator)} {kind : Access}
  {start : Array BigRecord}

/-- A preparation changes nothing but the order. -/
lemma HasWalked.prepare (h : HasWalked order kind start made w) :
    HasWalked order kind start (.prepare :: made) w.prepare := by
  have hmem : Workload.Call.run ∈ Workload.Call.prepare :: made ↔ .run ∈ made := by simp
  refine ⟨h.access, ?_, h.visits.prepare, ?_, ?_⟩
  · rw [List.count_cons_self, Function.iterate_succ', ← Option.map_map, ← h.order]
    rfl
  · simp only [hmem]
    exact h.records
  · simp only [hmem]
    exact h.lastSum

/-- A run changes the sum or the records, and only the first time. -/
lemma HasWalked.run (h : HasWalked order kind start made w) :
    ∃ w', ArrayWalk.run.on w = (.ok (), w') ∧
      HasWalked order kind start (.run :: made) w' := by
  obtain ⟨haccess, horder, hvisits, hrecords, hlastSum⟩ := h
  have hmem : Workload.Call.run ∈ Workload.Call.run :: made := List.mem_cons_self
  cases kind with
  | read =>
    rw [if_neg (by simp)] at hrecords
    refine ⟨_, on_run_of_read haccess hvisits, haccess, horder, hvisits, ?_, ?_⟩
    · rw [if_neg (by simp)]
      exact hrecords
    · rw [if_pos ⟨rfl, hmem⟩, hrecords]
  | write =>
    rw [if_neg (by simp)] at hlastSum
    have htwice : overwritten ∘ overwritten = overwritten := rfl
    refine ⟨_, on_run_of_write haccess hvisits, haccess, horder, hvisits.replace Array.size_map,
      ?_, ?_⟩
    · rw [if_pos ⟨rfl, hmem⟩, hrecords]
      split_ifs
      · rw [Array.map_map, htwice]
      · rfl
    · rw [if_neg (by simp)]
      exact hlastSum

/-- The records stay as many as they are. -/
lemma HasWalked.size_records (h : HasWalked order kind start made w) :
    w.records.size = start.size := by
  rw [h.records]
  split_ifs
  · exact Array.size_map
  · rfl

/-- No sum on the way through the records leaves sixty-four bits. -/
lemma HasWalked.exists_sum (h : HasWalked order kind start made w)
    (hfew : start.size < UInt32.size) {visited : List Nat} (hvisited : visited <+: w.places) :
    ∃ reached, sum w.records visited = .ok reached ∧ -2 ^ 63 ≤ reached ∧ reached < 2 ^ 63 := by
  apply exists_sum_of_length_lt
  · intro i hi
    exact List.mem_range.mp (h.visits.mem_iff.mp (hvisited.subset hi))
  · apply hvisited.length_le.trans_lt
    rw [h.visits.length_eq, List.length_range, h.size_records]
    exact hfew

/-- After the same calls a random walk and a linear one differ in nothing but the order. -/
lemma HasWalked.agrees {random linear : ArrayWalk}
    (h : HasWalked order kind start made random) (h' : HasWalked none kind start made linear) :
    { random with order := none } = linear := by
  have horder : linear.order = none := h'.order
  rw [h.records, h.lastSum, ← h'.records, ← h'.lastSum, h.access, ← h'.access, ← horder]

/-! ### Walks of the wanted length -/

variable {params : WorkloadParams} {n : UInt64}

/-- All numbers of records are made that can be told in thirty-two bits.  In the beginning they are
visited from the first to the last one, whatever stands in them. -/
lemma exists_ofParams (isRandom : Bool) (kind : Access) (hsize : params.size defaultSize = .ok n)
    (hn : n.toNat < UInt32.size) :
    ∃ w, ofParams kind isRandom params = .ok w ∧
      ∀ start : Array BigRecord, start.size = n.toNat →
        HasWalked (if isRandom then some (firstOrder n.toNat params.seed) else none) kind start []
          { w with records := start } := by
  refine ⟨_, bind_eq_ok.mpr ⟨n, hsize, if_pos hn⟩, fun start hstart => ?_⟩
  refine ⟨rfl, by cases isRandom <;> rfl, ?_, by simp, by simp⟩
  unfold VisitsAll places
  cases isRandom with
  | false => exact .refl _
  | true =>
    have hnumbers : ((List.range n.toNat).map UInt32.ofNat).map UInt32.toNat =
        List.range n.toNat := by
      rw [List.map_map]
      refine (List.map_congr_left fun i hi => ?_).trans (List.map_id _)
      exact UInt32.toNat_ofNat_of_lt' ((List.mem_range.mp hi).trans hn)
    simp only [if_true, Array.toList_map, Array.toList_range, hnumbers, hstart]
    exact .refl _

/-- **Random walks agree with linear ones on everything but the order.**  No shuffle swaps an
element with a place behind it or outside of the array.  Whatever the number of records that can be
told in thirty-two bits, the seed and what stands in the records, a random and a linear walk are
made, and whatever calls are made to them, they succeed.  Then the order of the random walk was
shuffled once for each preparation, it visits each record once, and no sum on its way leaves
sixty-four bits.  Apart from the order it is what the linear walk is: all first words of the records
are written if it is to write and was run, and the sum of all first words was told if it is to read
and was run; nothing else has changed. -/
theorem random_agrees_with_linear :
    (∀ (indices : Array UInt32) (g : Random.Generator),
      Random.checkedShuffle indices g = .ok (Random.shuffle indices g)) ∧
    ∀ (access : Access) (params : WorkloadParams) (n : UInt64),
      params.size defaultSize = .ok n → n.toNat < UInt32.size →
      ∃ random linear, ofParams access true params = .ok random ∧
        ofParams access false params = .ok linear ∧
        ∀ records : Array BigRecord, records.size = n.toNat →
          ∀ (calls : List Workload.Call) (clock : Clock), ∃ random' linear',
            (Workload.performAll calls).on
                (Benchmark.walk { random with records := records }, clock) =
              (.ok (), (Benchmark.walk random', clock)) ∧
            (Workload.performAll calls).on
                (Benchmark.walk { linear with records := records }, clock) =
              (.ok (), (Benchmark.walk linear', clock)) ∧
            random'.order = some (reshuffled^[calls.count .prepare]
              (firstOrder n.toNat params.seed)) ∧
            random'.places.Perm (List.range n.toNat) ∧ random'.records.size = n.toNat ∧
            (∀ visited, visited <+: random'.places → ∃ reached,
              sum random'.records visited = .ok reached ∧ -2 ^ 63 ≤ reached ∧ reached < 2 ^ 63) ∧
            { random' with order := none } = linear' ∧
            linear'.records = (if access = .write ∧ .run ∈ calls then
              records.map overwritten else records) ∧
            linear'.lastSum = if access = .read ∧ .run ∈ calls then total records else 0 := by
  refine ⟨Random.checkedShuffle_eq, fun access params n hsize hn => ?_⟩
  obtain ⟨random, hrandom, hstart⟩ := exists_ofParams true access hsize hn
  obtain ⟨linear, hlinear, hstart'⟩ := exists_ofParams false access hsize hn
  refine ⟨random, linear, hrandom, hlinear, fun records hrecords calls clock => ?_⟩
  obtain ⟨random', hon, h⟩ := Benchmark.isMadeOf_walk.performs (fun _ _ => HasWalked.prepare)
    (fun _ _ => HasWalked.run) (hstart records hrecords) calls clock
  obtain ⟨linear', hon', h'⟩ := Benchmark.isMadeOf_walk.performs (fun _ _ => HasWalked.prepare)
    (fun _ _ => HasWalked.run) (hstart' records hrecords) calls clock
  have hcount : random'.records.size = n.toNat := h.size_records.trans hrecords
  have hperm : random'.places.Perm (List.range n.toNat) := hcount ▸ h.visits
  have hrecords' := h'.records
  have hlastSum' := h'.lastSum
  simp only [List.mem_reverse] at hrecords' hlastSum'
  have horder : random'.order = some (reshuffled^[calls.count .prepare]
      (firstOrder n.toNat params.seed)) := by
    rw [h.order, List.count_reverse]
    rfl
  exact ⟨random', linear', hon, hon', horder, hperm, hcount,
    fun _ => h.exists_sum (hrecords.trans_lt hn), h.agrees h', hrecords', hlastSum'⟩

/-- Three records. -/
def threeRecords : WorkloadParams where
  inputSize := some 3
  seed := 7

/-- Records with the largest number of thirty-two bits, a negative one and zero, and with something
in another word. -/
def unevenRecords : Array BigRecord :=
  #[{ id := 2147483647 }, { id := -5, rest := Vector.replicate 63 9 }, {}]

/-- A run before the first preparation and one after two of them. -/
def callsApart : List Workload.Call :=
  [.run, .prepare, .prepare, .run]

/-- Three records are read and written by walks that have gone through them in two orders. -/
theorem random_agrees_with_linear_of_threeRecords :
    threeRecords.size defaultSize = .ok 3 ∧ (3 : UInt64).toNat < UInt32.size ∧
    unevenRecords.size = (3 : UInt64).toNat ∧
    (∃ random random', ofParams .read true threeRecords = .ok random ∧
      (Workload.performAll callsApart).on
          (Benchmark.walk { random with records := unevenRecords }, Clock.shared) =
        (.ok (), (Benchmark.walk random', Clock.shared)) ∧
      random'.places = [2, 1, 0] ∧ random'.records = unevenRecords ∧
      random'.lastSum = 2147483642) ∧
    ∃ random random', ofParams .write true threeRecords = .ok random ∧
      (Workload.performAll callsApart).on
          (Benchmark.walk { random with records := unevenRecords }, Clock.shared) =
        (.ok (), (Benchmark.walk random', Clock.shared)) ∧
      random'.records =
        #[{ id := 255 }, { id := 255, rest := Vector.replicate 63 9 }, { id := 255 }] ∧
      random'.lastSum = 0 := by
  have hsize : threeRecords.size defaultSize = .ok 3 := by decide
  have hn : (3 : UInt64).toNat < UInt32.size := by decide
  have hrecords : unevenRecords.size = (3 : UInt64).toNat := rfl
  refine ⟨hsize, hn, hrecords, ?_, ?_⟩
  · obtain ⟨random, linear, hrandom, -, hcalls⟩ :=
      random_agrees_with_linear.2 .read threeRecords 3 hsize hn
    obtain ⟨random', linear', hon, -, horder, -, -, -, rfl, hkept, hsum⟩ :=
      hcalls unevenRecords hrecords callsApart Clock.shared
    have hplaces : random'.places = [2, 1, 0] := by
      have hindices : (reshuffled^[2] (firstOrder 3 7)).1.toList.map UInt32.toNat = [2, 1, 0] := by
        decide +kernel
      unfold places
      rw [horder]
      exact hindices
    exact ⟨random, random', hrandom, hon, hplaces, hkept, hsum⟩
  · obtain ⟨random, linear, hrandom, -, hcalls⟩ :=
      random_agrees_with_linear.2 .write threeRecords 3 hsize hn
    obtain ⟨random', linear', hon, -, -, -, -, -, rfl, hwritten, hsum⟩ :=
      hcalls unevenRecords hrecords callsApart Clock.shared
    have hall : unevenRecords.map overwritten =
        #[{ id := 255 }, { id := 255, rest := Vector.replicate 63 9 }, { id := 255 }] := by
      decide +kernel
    exact ⟨random, random', hrandom, hon, hwritten.trans hall, hsum⟩

end Lockstep.ArrayWalk
