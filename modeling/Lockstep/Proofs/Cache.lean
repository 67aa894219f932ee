import Lockstep.Cache
import Mathlib.Algebra.Ring.Nat
import Mathlib.Data.List.Nodup
import Mathlib.Logic.Function.Iterate
import Mathlib.Tactic.Lemma

/-!
# What sweeps leave in their buffers

A walk stores to the first byte of every line of a buffer, so it changes the bytes at the multiples
of sixty-four and no others (`getElem?_touch`).  The number of lines is rounded up, which makes them
exactly those that begin within the buffer, whether it ends with a line or in the middle of one
(`lt_lines_iff`).  What a buffer holds follows for any number of walks (`HasSwept`), as each of them
keeps it (`HasSwept.condition`).

The bytes do not tell how often they were stored to.  For that there are walks that go through the
same places and check each of their stores and note it down.  They do to a buffer what other walks
do (`notedTouch_eq`), and their notes can be counted (`StoresOncePerLine`).

The main statement is `CacheSweep.sweeps_every_line`.
-/

namespace Lockstep.CacheSweep

/-- A byte that was stored, and where. -/
structure StoredByte where
  place : Nat
  value : UInt8
  deriving DecidableEq, Repr

/-- Stores a byte in a buffer and notes it.  A place outside of the buffer is a fault. -/
def notedStore (s : Array UInt8 × List StoredByte) (b : StoredByte) :
    Except Fault (Array UInt8 × List StoredByte) :=
  if h : b.place < s.1.size then .ok (s.1.set b.place b.value, s.2 ++ [b])
  else .error .outOfBounds

/-- Stores to the first byte of every cache line and notes the stores in their order. -/
def notedTouch (generation : UInt8) (buffer : Array UInt8) :
    Except Fault (Array UInt8 × List StoredByte) :=
  (lineStarts buffer.size).foldlM (fun s place => notedStore s ⟨place, generation⟩) (buffer, [])

/-- Walks through the buffer once and notes the stores. -/
def notedCondition : CacheSweep → Except Fault (CacheSweep × List StoredByte)
  | .none => .ok (.none, [])
  | .evict buffer generation => do
    let (buffer, stored) ← notedTouch (generation + 1) buffer
    return (.evict buffer (generation + 1), stored)

/-- What the buffer holds. -/
def contents : CacheSweep → Array UInt8
  | .none => #[]
  | .evict buffer _ => buffer

/-- A sweep over a buffer of that many bytes as that many walks leave it.  The first byte of each
line is the number of walks, as far as eight bits go, and all other bytes are zero. -/
structure HasSwept (size times : Nat) (s : CacheSweep) : Prop where
  size_eq : s.contents.size = size
  byte_eq : ∀ j < size, s.contents[j]?.map UInt8.toNat =
    some (if 64 ∣ j then times % 256 else 0)
  generation_eq : ∀ buffer generation, s = .evict buffer generation →
    generation.toNat = times % 256

/-- The stores of a walk with that number through a buffer of that many bytes.  All of them are made
within the buffer and where lines begin, one in each line, also in one that is cut off.  They leave
the number of the walk there, as far as eight bits go. -/
structure StoresOncePerLine (size times : Nat) (stored : List StoredByte) : Prop where
  place_lt : ∀ b ∈ stored, b.place < size
  dvd_place : ∀ b ∈ stored, 64 ∣ b.place
  once : ∀ line, 64 * line < size → ∃ b, stored.filter (·.place / 64 = line) = [b] ∧
    b.place = 64 * line ∧ b.value.toNat = times % 256

variable {generation : UInt8} {buffer : Array UInt8} {places : List Nat} {size times : Nat}
  {s : CacheSweep}

/-! ### Lines -/

/-- The lines that are visited are those that begin within the buffer. -/
lemma lt_lines_iff (size line : Nat) :
    line < (size + cacheLine - 1) / cacheLine ↔ cacheLine * line < size := by
  unfold cacheLine
  omega

/-- Lines begin at the multiples of sixty-four. -/
lemma mem_lineStarts {place : Nat} : place ∈ lineStarts size ↔ 64 ∣ place ∧ place < size := by
  unfold lineStarts
  simp only [List.mem_map, List.mem_range, lt_lines_iff]
  constructor
  · rintro ⟨line, hline, rfl⟩
    exact ⟨Nat.dvd_mul_right 64 line, hline⟩
  · rintro ⟨⟨line, rfl⟩, hplace⟩
    exact ⟨line, hplace, rfl⟩

/-- No two lines begin at one place. -/
lemma nodup_lineStarts (size : Nat) : (lineStarts size).Nodup :=
  List.Nodup.map (fun _ _ => Nat.eq_of_mul_eq_mul_left (by decide : 0 < cacheLine)) List.nodup_range

/-- The beginning of a line is the only place in the line where a line begins. -/
lemma filter_lineStarts {line : Nat} (hline : 64 * line < size) :
    (lineStarts size).filter (· / 64 = line) = [64 * line] := by
  have hmem : 64 * line ∈ lineStarts size :=
    mem_lineStarts.mpr ⟨Nat.dvd_mul_right 64 line, hline⟩
  have hcount := List.count_eq_one_of_mem (nodup_lineStarts size) hmem
  have hsame : ∀ place ∈ lineStarts size,
      decide (place / 64 = line) = decide (place = 64 * line) := by
    intro place hplace
    obtain ⟨other, rfl⟩ := (mem_lineStarts.mp hplace).1
    rw [decide_eq_decide]
    omega
  rw [List.filter_congr hsame, List.filter_eq, hcount]
  rfl

/-! ### Walks -/

/-- A byte that is stored at some places is there afterwards, and all other places keep what they
hold. -/
lemma getElem?_foldl_store (places : List Nat) (buffer : Array UInt8) (j : Nat) :
    (places.foldl (fun b place => b.setIfInBounds place generation) buffer)[j]? =
      if j ∈ places ∧ j < buffer.size then some generation else buffer[j]? := by
  induction places generalizing buffer with
  | nil => simp
  | cons place places ih =>
    rw [List.foldl_cons, ih, Array.size_setIfInBounds, Array.getElem?_setIfInBounds]
    by_cases hplace : place = j
    · -- It does not matter whether the same byte is stored there once more.
      subst hplace
      by_cases hsize : place < buffer.size <;> simp [hsize]
    · simp [hplace, Ne.symm hplace]

/-- A walk leaves the buffer as large as it is. -/
lemma size_touch (generation : UInt8) (buffer : Array UInt8) :
    (touch generation buffer).size = buffer.size := by
  unfold touch
  refine List.foldlRecOn (motive := fun b : Array UInt8 => b.size = buffer.size) _ _ rfl ?_
  intro b hb place _
  rw [Array.size_setIfInBounds, hb]

/-- A walk changes the bytes at the multiples of sixty-four and no others. -/
lemma getElem?_touch (generation : UInt8) (buffer : Array UInt8) (j : Nat) :
    (touch generation buffer)[j]? =
      if 64 ∣ j ∧ j < buffer.size then some generation else buffer[j]? := by
  rw [touch, getElem?_foldl_store]
  simp only [mem_lineStarts, and_assoc, and_self]

/-- Stores that are checked and noted are made like those that are not, if they are within the
buffer. -/
lemma foldlM_notedStore (noted : List StoredByte) (h : ∀ place ∈ places, place < buffer.size) :
    places.foldlM (fun s place => notedStore s ⟨place, generation⟩) (buffer, noted) =
      .ok (places.foldl (fun b place => b.setIfInBounds place generation) buffer,
        noted ++ places.map fun place => ⟨place, generation⟩) := by
  induction places generalizing buffer noted with
  | nil => simp [pure, Except.pure]
  | cons place places ih =>
    obtain ⟨hplace, hplaces⟩ := List.forall_mem_cons.mp h
    have hstore : notedStore (buffer, noted) ⟨place, generation⟩ =
        .ok (buffer.setIfInBounds place generation, noted ++ [⟨place, generation⟩]) := by
      unfold notedStore Array.setIfInBounds
      rw [dif_pos hplace, dif_pos hplace]
    have hsize : ∀ other ∈ places, other < (buffer.setIfInBounds place generation).size := by
      rwa [Array.size_setIfInBounds]
    rw [List.foldlM_cons, hstore]
    refine (ih _ hsize).trans ?_
    rw [List.foldl_cons, List.map_cons, List.append_assoc]
    rfl

/-- **No store of a walk is outside of the buffer.**  A walk that checks and notes its stores does
the same as one that does not, and its notes are the beginnings of the lines. -/
lemma notedTouch_eq (generation : UInt8) (buffer : Array UInt8) :
    notedTouch generation buffer = .ok (touch generation buffer,
      (lineStarts buffer.size).map fun place => ⟨place, generation⟩) := by
  have hinside : ∀ place ∈ lineStarts buffer.size, place < buffer.size :=
    fun _ hplace => (mem_lineStarts.mp hplace).2
  exact foldlM_notedStore [] hinside

/-- The notes of a walk tell of one store per line. -/
lemma storesOncePerLine_lineStarts (size : Nat) (h : generation.toNat = times % 256) :
    StoresOncePerLine size times ((lineStarts size).map fun place => ⟨place, generation⟩) where
  place_lt := by
    intro b hb
    obtain ⟨place, hplace, rfl⟩ := List.mem_map.mp hb
    exact (mem_lineStarts.mp hplace).2
  dvd_place := by
    intro b hb
    obtain ⟨place, hplace, rfl⟩ := List.mem_map.mp hb
    exact (mem_lineStarts.mp hplace).1
  once := by
    intro line hline
    refine ⟨⟨64 * line, generation⟩, ?_, rfl, h⟩
    rw [List.filter_map]
    exact congrArg (List.map _) (filter_lineStarts hline)

/-! ### Sweeps after any number of walks -/

/-- A buffer is there exactly if it can be addressed. -/
lemma evicting_cases (bytes : UInt64) :
    bytes.toNat < 2 ^ 63 ∧ (∃ sweep, evicting bytes = .ok sweep) ∨
      ¬ bytes.toNat < 2 ^ 63 ∧ evicting bytes = .error .capacity := by
  have hlimit : isAddressable bytes.toNat = true ↔ bytes.toNat < 2 ^ 63 := decide_eq_true_iff
  unfold evicting
  split_ifs with hzero haddressable
  · rw [hzero]
    exact Or.inl ⟨by decide, _, rfl⟩
  · exact Or.inl ⟨hlimit.mp haddressable, _, rfl⟩
  · exact Or.inr ⟨mt hlimit.mpr haddressable, rfl⟩

/-- Before the first walk all bytes are zero. -/
lemma hasSwept_start {bytes : UInt64} (h : evicting bytes = .ok s) : HasSwept bytes.toNat 0 s := by
  unfold evicting at h
  split_ifs at h with hzero
  · cases h
    rw [hzero]
    exact ⟨rfl, nofun, nofun⟩
  · cases h
    refine ⟨Array.size_replicate, ?_, ?_⟩
    · intro j hj
      simp [contents, hj]
    · rintro _ _ ⟨⟩
      rfl

/-- The generation grows by one with every walk, modulo two hundred and fifty-six. -/
lemma toNat_next (h : generation.toNat = times % 256) :
    (generation + 1).toNat = (times + 1) % 256 := by
  rw [UInt8.toNat_add, h]
  exact Nat.mod_add_mod times 256 1

/-- **A walk keeps what is known of a sweep.**  The first bytes of the lines become the next number,
and the other bytes stay zero. -/
lemma HasSwept.condition (h : HasSwept size times s) : HasSwept size (times + 1) s.condition := by
  cases s with
  | none =>
    obtain rfl : 0 = size := h.size_eq
    exact ⟨rfl, nofun, nofun⟩
  | evict buffer generation =>
    have hsize : buffer.size = size := h.size_eq
    have hnext := toNat_next (h.generation_eq _ _ rfl)
    refine ⟨(size_touch _ _).trans hsize, ?_, ?_⟩
    · intro j hj
      have hbefore := h.byte_eq j hj
      rw [CacheSweep.condition, contents, getElem?_touch, hsize]
      by_cases hline : 64 ∣ j
      · rw [if_pos ⟨hline, hj⟩, if_pos hline, Option.map_some, hnext]
      · rw [if_neg hline] at hbefore
        rw [if_neg (mt And.left hline), if_neg hline]
        exact hbefore
    · rintro _ _ ⟨⟩
      exact hnext

/-- The next walk stays within the buffer and stores its number once per line. -/
lemma HasSwept.exists_stored (h : HasSwept size times s) :
    ∃ stored, s.notedCondition = .ok (s.condition, stored) ∧
      StoresOncePerLine size (times + 1) stored := by
  cases s with
  | none =>
    obtain rfl : 0 = size := h.size_eq
    exact ⟨[], rfl, nofun, nofun, nofun⟩
  | evict buffer generation =>
    have hnext := toNat_next (h.generation_eq _ _ rfl)
    refine ⟨_, ?_, storesOncePerLine_lineStarts size hnext⟩
    rw [notedCondition, notedTouch_eq, ← h.size_eq]
    rfl

/-- What each walk keeps holds after any number of them. -/
lemma HasSwept.iterate (h : HasSwept size 0 s) (times : Nat) :
    HasSwept size times (CacheSweep.condition^[times] s) := by
  induction times with
  | zero => exact h
  | succ times ih =>
    rw [Function.iterate_succ_apply']
    exact ih.condition

/-- **A sweep stores to every cache line once.**  Whatever the size of the buffer, there is a sweep
over it unless there are no addresses for so many bytes.  After any number of walks the byte at a
multiple of sixty-four is their number modulo two hundred and fifty-six, and any other byte is zero.
The next walk stays within the buffer and makes one store per line, also to a last line that is cut
off: its number, modulo two hundred and fifty-six, to the first byte of the line. -/
theorem sweeps_every_line (bytes : UInt64) :
    (bytes.toNat < 2 ^ 63 ∧ ∃ sweep, evicting bytes = .ok sweep ∧ ∀ times : Nat,
        HasSwept bytes.toNat times (condition^[times] sweep) ∧
        ∃ stored, (condition^[times] sweep).notedCondition =
            .ok (condition^[times + 1] sweep, stored) ∧
          StoresOncePerLine bytes.toNat (times + 1) stored) ∨
      ¬ bytes.toNat < 2 ^ 63 ∧ evicting bytes = .error .capacity := by
  rcases evicting_cases bytes with ⟨hfits, sweep, hsweep⟩ | hlarge
  · refine Or.inl ⟨hfits, sweep, hsweep, fun times => ?_⟩
    have hswept := (hasSwept_start hsweep).iterate times
    rw [Function.iterate_succ_apply']
    exact ⟨hswept, hswept.exists_stored⟩
  · exact Or.inr hlarge

/-- A buffer of two lines and two bytes, after as many walks as the generation has values and after
one more. -/
theorem sweeps_every_line_of_twoBytesMore :
    ∃ sweep, evicting 130 = .ok sweep ∧
      (condition^[256] sweep).contents[128]?.map UInt8.toNat = some 0 ∧
      (condition^[257] sweep).contents[128]?.map UInt8.toNat = some 1 ∧
      (condition^[257] sweep).contents[129]?.map UInt8.toNat = some 0 ∧
      ∃ stored b, (condition^[256] sweep).notedCondition =
          .ok (condition^[257] sweep, stored) ∧
        stored.filter (·.place / 64 = 2) = [b] ∧ b.place = 128 ∧ b.value.toNat = 1 := by
  obtain ⟨-, sweep, hsweep, hwalks⟩ | ⟨hlarge, -⟩ := sweeps_every_line 130
  · obtain ⟨hbefore, stored, hnoted, hstored⟩ := hwalks 256
    have hafter := (hwalks 257).1
    obtain ⟨b, hb⟩ := hstored.once 2 (by decide)
    exact ⟨sweep, hsweep, hbefore.byte_eq 128 (by decide), hafter.byte_eq 128 (by decide),
      hafter.byte_eq 129 (by decide), stored, b, hnoted, hb⟩
  · exact absurd (by decide) hlarge

end Lockstep.CacheSweep
