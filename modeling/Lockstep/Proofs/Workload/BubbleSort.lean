import Lockstep.Proofs.Workload.Calls
import Mathlib.Data.List.Perm.Basic
import Mathlib.Logic.Equiv.Basic
import Mathlib.Logic.Function.Iterate

/-!
# What bubble sort leaves in its array

A pass keeps two things.  Whatever stands behind the neighbours that it compares is not smaller than
anything before it (`IsTopped`), and the last place that it has come to holds the largest number up
to there.  So after a whole pass one more place is topped, and after all passes every place is.  A
pass that has not moved anything has compared all neighbours of its part and found them in order, so
that nothing is left to do.

Both are said by places: `IsOrdered` compares what stands in two places, and a swap of two numbers
is a swap of their places (`getElem?_swap_eq`).

The main statement, `BubbleSort.sorts_latest_draws`, says that every array is sorted, and which
numbers the array of the workload holds after any calls to it: those of the latest preparation.
-/

namespace Lockstep

/-! ### Numbers by the order in which they are drawn -/

namespace Random.Generator

/-- The generator after so many numbers of thirty-two bits. -/
def after (g : Generator) (count : Nat) : Generator :=
  (fun g => g.nextInt.2)^[count] g

/-- The number that is drawn after so many others. -/
def drawn (g : Generator) (count : Nat) : Int32 :=
  (g.after count).nextInt.1

/-- First some numbers are drawn and then others. -/
lemma after_after (g : Generator) (m n : Nat) : (g.after m).after n = g.after (m + n) := by
  unfold after
  rw [Nat.add_comm, Function.iterate_add_apply]

/-- What is drawn after some numbers. -/
lemma drawn_after (g : Generator) (m n : Nat) : (g.after m).drawn n = g.drawn (m + n) := by
  unfold drawn
  rw [after_after]

/-- Numbers are drawn one after the other. -/
lemma draw_eq (n : Nat) (g : Generator) : draw n g = ((List.range n).map g.drawn, g.after n) := by
  induction n generalizing g with
  | zero => rfl
  | succ n ih =>
    have hfirst : g.nextInt.2 = g.after 1 := rfl
    have hlater : (g.after 1).drawn = g.drawn ∘ Nat.succ := by
      funext i
      rw [drawn_after, Nat.add_comm]
      rfl
    rw [draw, ih, hfirst, hlater, after_after, Nat.add_comm 1 n, List.range_succ_eq_map,
      List.map_cons, List.map_map]
    rfl

end Random.Generator

namespace BubbleSort

/-! ### Places in order -/

/-- What stands in the one place is not larger than what stands in the other, if both exist. -/
def IsOrdered (array : Array Int32) (i j : Nat) : Prop :=
  ∀ x y, array[i]? = some x → array[j]? = some y → x ≤ y

/-- Behind a place every number is the largest up to its own place. -/
def IsTopped (array : Array Int32) (place : Nat) : Prop :=
  ∀ i j, place < j → i < j → IsOrdered array i j

variable {array array' : Array Int32} {i j k : Nat}

lemma isOrdered_refl (array : Array Int32) (i : Nat) : IsOrdered array i i := by
  intro x y hx hy
  rw [Option.some.inj (hx.symm.trans hy)]
  exact Int32.le_refl y

lemma IsOrdered.trans (hij : IsOrdered array i j) (hjk : IsOrdered array j k)
    (hj : j < array.size) : IsOrdered array i k := by
  intro x z hx hz
  have hy : array[j]? = some array[j] := Array.getElem?_eq_getElem hj
  exact Int32.le_trans (hij x _ hx hy) (hjk _ z hy hz)

/-- Two places that exist are in order if what stands there is. -/
lemma isOrdered_of_le (hi : i < array.size) (hj : j < array.size) (hle : array[i] ≤ array[j]) :
    IsOrdered array i j := by
  intro x y hx hy
  rw [Array.getElem?_eq_getElem hi, Option.some_inj] at hx
  rw [Array.getElem?_eq_getElem hj, Option.some_inj] at hy
  rwa [← hx, ← hy]

/-- Where numbers are swapped, each place holds what stood in the other one. -/
lemma getElem?_swap_eq (hi : i < array.size) (hj : j < array.size) (k : Nat) :
    (array.swap i j)[k]? = array[Equiv.swap i j k]? := by
  rw [Array.getElem?_swap]
  by_cases hkj : k = j
  · rw [hkj, if_pos rfl, Equiv.swap_apply_right, Array.getElem?_eq_getElem hi]
  · rw [if_neg (Ne.symm hkj)]
    by_cases hki : k = i
    · rw [hki, if_pos rfl, Equiv.swap_apply_left, Array.getElem?_eq_getElem hj]
    · rw [if_neg (Ne.symm hki), Equiv.swap_apply_of_ne_of_ne hki hkj]

/-- Swapped numbers are in order if they were in the places of each other. -/
lemma isOrdered_swap_iff {l m : Nat} (hi : i < array.size) (hj : j < array.size) :
    IsOrdered (array.swap i j) l m ↔
      IsOrdered array (Equiv.swap i j l) (Equiv.swap i j m) := by
  unfold IsOrdered
  rw [getElem?_swap_eq hi hj, getElem?_swap_eq hi hj]

/-! ### One pass -/

/-- What a pass over an array has come to when it has settled so many neighbours, where nothing
behind the place `top` is part of it. -/
structure HasPassed (array : Array Int32) (top count : Nat) (s : Array Int32 × Bool) : Prop where
  perm : s.1.toList.Perm array.toList
  topped : IsTopped s.1 top
  largest : ∀ i ≤ count, IsOrdered s.1 i count
  ordered : s.2 = false → ∀ i j, i ≤ j → j ≤ count → IsOrdered s.1 i j

variable {top count : Nat} {s : Array Int32 × Bool}

lemma size_eq_of_perm (h : array'.toList.Perm array.toList) : array'.size = array.size := by
  rw [← Array.length_toList, ← Array.length_toList]
  exact h.length_eq

/-- A pass that has not begun has come to its first place. -/
lemma hasPassed_start (h : IsTopped array top) : HasPassed array top 0 (array, false) where
  perm := .refl _
  topped := h
  largest i hi := by
    rw [Nat.le_zero.mp hi]
    exact isOrdered_refl array 0
  ordered _ i j hij hj := by
    obtain rfl : i = j := by omega
    exact isOrdered_refl array i

/-- A place that neighbours in order have been found at is the largest, too. -/
lemma HasPassed.stays (h : HasPassed array top count s) (hcount : count < s.1.size)
    (hle : IsOrdered s.1 count (count + 1)) : HasPassed array top (count + 1) s := by
  have hlargest : ∀ i ≤ count + 1, IsOrdered s.1 i (count + 1) := by
    intro i hi
    rcases Nat.lt_or_eq_of_le hi with hlt | rfl
    · exact (h.largest i (Nat.le_of_lt_succ hlt)).trans hle hcount
    · exact isOrdered_refl s.1 _
  refine ⟨h.perm, h.topped, hlargest, fun hmoved i j hij hj => ?_⟩
  rcases Nat.lt_or_eq_of_le hj with hlt | rfl
  · exact h.ordered hmoved i j hij (Nat.le_of_lt_succ hlt)
  · exact hlargest i hij

/-- Neighbours in the wrong order are swapped, and the larger one is the largest up to its new
place. -/
lemma HasPassed.swaps (h : HasPassed array top count s) (hsize : count + 1 < s.1.size)
    (htop : count + 1 ≤ top) (hlt : s.1[count + 1] < s.1[count]) :
    HasPassed array top (count + 1) (s.1.swap count (count + 1), true) := by
  have hcount : count < s.1.size := Nat.lt_of_succ_lt hsize
  have hle : IsOrdered s.1 (count + 1) count := isOrdered_of_le hsize hcount (Int32.le_of_lt hlt)
  refine ⟨?_, fun i j hj hij => ?_, fun i hi => ?_, nofun⟩
  · exact (Array.swap_perm hcount hsize).toList.trans h.perm
  · -- what stands behind the part is compared with one of the two places or the place itself
    rw [isOrdered_swap_iff hcount hsize,
      Equiv.swap_apply_of_ne_of_ne (a := count) (b := count + 1) (x := j) (by omega) (by omega)]
    have hplace : Equiv.swap count (count + 1) i < j := by
      rw [Equiv.swap_apply_def]
      split_ifs <;> omega
    exact h.topped _ j hj hplace
  · rw [isOrdered_swap_iff hcount hsize, Equiv.swap_apply_right]
    rcases Nat.lt_trichotomy i count with hbefore | rfl | hafter
    · rw [Equiv.swap_apply_of_ne_of_ne (by omega) (by omega)]
      exact h.largest i (Nat.le_of_lt hbefore)
    · rw [Equiv.swap_apply_left]
      exact hle
    · obtain rfl : i = count + 1 := by omega
      rw [Equiv.swap_apply_right]
      exact isOrdered_refl s.1 count

/-- A pass takes one neighbour after the other. -/
lemma HasPassed.settle (h : HasPassed array top count s) (hsize : count + 1 < array.size)
    (htop : count + 1 ≤ top) :
    ∃ t, (do
      let (array, moved) ← settle s.1 count
      return (array, s.2 || moved)) = Except.ok t ∧ HasPassed array top (count + 1) t := by
  have hsize' : count + 1 < s.1.size := by
    rw [size_eq_of_perm h.perm]
    exact hsize
  by_cases hlt : s.1[count + 1] < s.1[count]
  · rw [settle_of_lt hsize' hlt]
    refine ⟨_, rfl, ?_⟩
    rw [Bool.or_true]
    exact h.swaps hsize' htop hlt
  · rw [settle_of_not_lt hsize' hlt]
    refine ⟨_, rfl, ?_⟩
    rw [Bool.or_false]
    have hcount : count < s.1.size := Nat.lt_of_succ_lt hsize'
    exact h.stays hcount (isOrdered_of_le hcount hsize' (Int32.not_lt.mp hlt))

/-- **A pass ends**, and carries the largest number of its part to the end of the part. -/
lemma exists_pass (hsize : top < array.size) (h : IsTopped array top) :
    ∃ s, pass top array = .ok s ∧ HasPassed array top top s := by
  refine exists_foldlM_range (hasPassed_start h) fun i hi s hs => ?_
  exact hs.settle (by omega) hi

/-! ### All passes -/

/-- What a whole pass has carried to the end of its part is topped. -/
lemma HasPassed.isTopped (h : HasPassed array (top + 1) (top + 1) s) : IsTopped s.1 top := by
  intro i j hj hij
  rcases Nat.lt_or_eq_of_le (Nat.succ_le_of_lt hj) with hbehind | rfl
  · exact h.topped i j hbehind hij
  · exact h.largest i (Nat.le_of_lt hij)

/-- A pass that has not moved anything has found everything in order. -/
lemma HasPassed.isTopped_of_still (h : HasPassed array top top s) (hstill : s.2 = false) :
    IsTopped s.1 0 := by
  intro i j _ hij
  rcases Nat.lt_or_ge top j with hbehind | hbefore
  · exact h.topped i j hbehind hij
  · exact h.ordered hstill i j (Nat.le_of_lt hij) hbefore

/-- **All passes end**, and top every place. -/
lemma exists_passes (hsize : top < array.size) (h : IsTopped array top) :
    ∃ array', passes top array = .ok array' ∧ array'.toList.Perm array.toList ∧
      IsTopped array' 0 := by
  induction top generalizing array with
  | zero => exact ⟨array, rfl, .refl _, h⟩
  | succ top ih =>
    obtain ⟨⟨passed, moved⟩, hpass, hpassed⟩ := exists_pass hsize h
    rw [passes, hpass]
    cases moved with
    | false => exact ⟨passed, rfl, hpassed.perm, hpassed.isTopped_of_still rfl⟩
    | true =>
      have hsize' : top < passed.size := by
        rw [size_eq_of_perm hpassed.perm]
        exact Nat.lt_of_succ_lt hsize
      obtain ⟨array', hpasses, hperm, htopped⟩ := ih hsize' hpassed.isTopped
      exact ⟨array', hpasses, hperm.trans hpassed.perm, htopped⟩

/-- The numbers in ascending order. -/
structure IsArrangement (sorted numbers : List Int32) : Prop where
  perm : sorted.Perm numbers
  ascending : sorted.Pairwise (· ≤ ·)

/-- An array of which every place is topped is in ascending order. -/
lemma IsTopped.pairwise (h : IsTopped array 0) : array.toList.Pairwise (· ≤ ·) := by
  rw [List.pairwise_iff_getElem]
  intro i j hi hj hij
  refine h i j (Nat.zero_lt_of_lt hij) hij _ _ ?_ ?_
  · rw [← Array.getElem?_toList]
    exact List.getElem?_eq_getElem hi
  · rw [← Array.getElem?_toList]
    exact List.getElem?_eq_getElem hj

/-- **Every array is sorted**, and no index leaves it. -/
theorem exists_sort (array : Array Int32) :
    ∃ sorted, sort array = .ok sorted ∧ IsArrangement sorted.toList array.toList := by
  unfold sort
  rcases Nat.eq_zero_or_pos array.size with hempty | hpos
  · rw [hempty]
    rw [Array.size_eq_zero_iff] at hempty
    subst hempty
    exact ⟨#[], rfl, .refl _, .nil⟩
  · have hbehind : IsTopped array (array.size - 1) := by
      intro i j hj _ x y _ hy
      rw [Array.getElem?_eq_none (by omega)] at hy
      cases hy
    obtain ⟨sorted, hsort, hperm, htopped⟩ := exists_passes (by omega) hbehind
    exact ⟨sorted, hsort, hperm, htopped.pairwise⟩

/-! ### Calls to the workload -/

open Lockstep.Random (Generator)

/-- What the latest of so many preparations has drawn, if each of them draws so many numbers. -/
def latest (g : Generator) (length preparations : Nat) : List Int32 :=
  (List.range length).map fun i => g.drawn ((preparations - 1) * length + i)

/-- What has become of an array of zeros by calls to it, the last of which comes first: it holds the
numbers of the latest preparation, in ascending order if it has been run since. -/
structure HasDrawn (g : Generator) (length : Nat) (made : List Workload.Call) (w : BubbleSort) :
    Prop where
  size : w.array.size = length
  generator : w.generator = g.after (made.count .prepare * length)
  numbers : .prepare ∈ made → w.array.toList.Perm (latest g length (made.count .prepare))
  ascending : made.head? = some .run → w.array.toList.Pairwise (· ≤ ·)

variable {g : Generator} {length : Nat} {made : List Workload.Call} {w : BubbleSort}

/-- A preparation draws the numbers that come after those of the one before. -/
lemma HasDrawn.prepare (h : HasDrawn g length made w) :
    HasDrawn g length (.prepare :: made) w.prepare := by
  have hdraw : Generator.draw w.array.size w.generator =
      ((List.range length).map fun i => g.drawn (made.count .prepare * length + i),
        g.after (made.count .prepare * length + length)) := by
    rw [h.size, h.generator, Generator.draw_eq, Generator.after_after]
    refine Prod.ext (List.map_congr_left fun i _ => ?_) rfl
    rw [Generator.drawn_after]
  have hcount : (Workload.Call.prepare :: made).count .prepare = made.count .prepare + 1 :=
    List.count_cons_self
  unfold BubbleSort.prepare
  rw [hdraw]
  refine ⟨?_, ?_, fun _ => ?_, nofun⟩
  · rw [List.size_toArray, List.length_map, List.length_range]
  · rw [hcount, Nat.succ_mul]
  · rw [hcount]
    exact .refl _

/-- A run sorts the numbers that are there. -/
lemma HasDrawn.run (h : HasDrawn g length made w) :
    ∃ w', BubbleSort.run.on w = (.ok (), w') ∧ HasDrawn g length (.run :: made) w' := by
  obtain ⟨sorted, hsort, hsorted⟩ := exists_sort w.array
  have hon : BubbleSort.run.on w = (.ok (), { w with array := sorted }) :=
    Attempt.on_replace hsort
  have hcount : (Workload.Call.run :: made).count .prepare = made.count .prepare :=
    List.count_cons_of_ne (by decide)
  refine ⟨_, hon, ?_, ?_, fun hmem => ?_, fun _ => hsorted.ascending⟩
  · exact (size_eq_of_perm hsorted.perm).trans h.size
  · rw [hcount]
    exact h.generator
  · have hprepared : Workload.Call.prepare ∈ made := by simpa using hmem
    rw [hcount]
    exact hsorted.perm.trans (h.numbers hprepared)

/-- An array of the wanted length is made if it can be addressed. -/
lemma ofParams_eq_ok {params : WorkloadParams} {n : UInt64}
    (hsize : params.size defaultSize = .ok n)
    (hroom : isAddressable (WorkloadParams.wordBytes * n.toNat) = true) :
    ofParams params = .ok ⟨Array.replicate n.toNat 0, Generator.ofSeed params.seed⟩ := by
  have hcheck : WorkloadParams.checkRoom n.toNat = .ok () := if_pos hroom
  exact bind_eq_ok.mpr ⟨n, hsize, bind_eq_ok.mpr ⟨(), hcheck, rfl⟩⟩

/-- **Bubble sort sorts.**  Every array is sorted without an index that leaves it.  The workload is
made for every size and every seed as long as its array can be addressed, and whatever calls to it
were made, a run that comes after a preparation leaves the numbers of the latest preparation in
ascending order: if there were `m` preparations of `n` numbers, those that are drawn after
`(m - 1) * n` others. -/
theorem sorts_latest_draws :
    (∀ array, ∃ sorted, sort array = .ok sorted ∧ IsArrangement sorted.toList array.toList) ∧
    ∀ (params : WorkloadParams) (n : UInt64), params.size defaultSize = .ok n →
      isAddressable (WorkloadParams.wordBytes * n.toNat) = true →
      ∃ w, ofParams params = .ok w ∧ w.array.size = n.toNat ∧
        ∀ (calls : List Workload.Call) (clock : Clock), .prepare ∈ calls →
          ∃ w', (Workload.performAll (calls ++ [.run])).on (Benchmark.sort w, clock) =
              (.ok (), (Benchmark.sort w', clock)) ∧
            IsArrangement w'.array.toList
              (latest (Generator.ofSeed params.seed) n.toNat (calls.count .prepare)) := by
  refine ⟨exists_sort, fun params n hsize hroom => ?_⟩
  refine ⟨_, ofParams_eq_ok hsize hroom, Array.size_replicate, fun calls clock hprepared => ?_⟩
  have hstart : HasDrawn (Generator.ofSeed params.seed) n.toNat []
      ⟨Array.replicate n.toNat 0, Generator.ofSeed params.seed⟩ := by
    refine ⟨Array.size_replicate, ?_, nofun, nofun⟩
    rw [List.count_nil, Nat.zero_mul]
    rfl
  obtain ⟨w', hon, h⟩ := Benchmark.isMadeOf_sort.performs (fun _ _ => HasDrawn.prepare)
    (fun _ _ => HasDrawn.run) hstart (calls ++ [.run]) clock
  rw [List.reverse_append, List.reverse_singleton, List.singleton_append] at h
  have hmem : Workload.Call.prepare ∈ Workload.Call.run :: calls.reverse :=
    List.mem_cons_of_mem _ (List.mem_reverse.mpr hprepared)
  have hcount : (Workload.Call.run :: calls.reverse).count .prepare = calls.count .prepare := by
    rw [List.count_cons_of_ne (by decide), List.count_reverse]
  refine ⟨w', hon, ?_, h.ascending rfl⟩
  rw [← hcount]
  exact h.numbers hmem

/-- Four numbers. -/
def fourNumbers : WorkloadParams where
  inputSize := some 4
  seed := 7

/-- A run before the first preparation and one between two preparations. -/
def callsTwice : List Workload.Call :=
  [.run, .prepare, .run, .prepare]

/-- The numbers of the second preparation are sorted, whatever was run before it. -/
theorem sorts_latest_draws_of_fourNumbers :
    fourNumbers.size defaultSize = .ok 4 ∧
    isAddressable (WorkloadParams.wordBytes * (4 : UInt64).toNat) = true ∧
    .prepare ∈ callsTwice ∧
    ∃ w w', ofParams fourNumbers = .ok w ∧
      (Workload.performAll (callsTwice ++ [.run])).on (Benchmark.sort w, Clock.shared) =
        (.ok (), (Benchmark.sort w', Clock.shared)) ∧
      IsArrangement w'.array.toList [-156081166, 2000182114, -1185809997, 1416649562] := by
  have hsize : fourNumbers.size defaultSize = .ok 4 := by decide
  have hroom : isAddressable (WorkloadParams.wordBytes * (4 : UInt64).toNat) = true := by decide
  have hprepared : Workload.Call.prepare ∈ callsTwice := by decide
  have hlatest : latest (Generator.ofSeed 7) 4 2 =
      [-156081166, 2000182114, -1185809997, 1416649562] := by decide +kernel
  obtain ⟨w, hw, -, hcalls⟩ := sorts_latest_draws.2 fourNumbers 4 hsize hroom
  obtain ⟨w', hon, harrangement⟩ := hcalls callsTwice Clock.shared hprepared
  exact ⟨hsize, hroom, hprepared, w, w', hw, hon, hlatest ▸ harrangement⟩

end BubbleSort

end Lockstep
