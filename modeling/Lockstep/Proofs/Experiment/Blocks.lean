import Lockstep.Record
import Lockstep.Rendezvous.Barrier
import Mathlib.Data.List.FinRange
import Mathlib.Data.List.Count
import Mathlib.Tactic.Lemma

/-!
# Records in blocks

The records of an experiment come in blocks.  The block of a round has one record of each core, in
any order, and all of them are of that iteration; the blocks follow each other from the first round
on.

Records that are handed out one by one are kept in blocks by a simple rule: a core may add a record
if every other core has added as many records as this core, or one more.  Then the record either
goes into the block that has been begun, or that block is full and the record begins the next one.
-/

namespace Lockstep

namespace Shape

variable (s : Shape)

/-- The number by which records name a core. -/
def number (core : Fin s.cores) : UInt64 :=
  UInt64.ofNat core

/-- Different cores have different numbers. -/
lemma number_injective : Function.Injective s.number := by
  intro i j h
  have hi := i.isLt
  have hj := j.isLt
  have hle : s.cores ≤ 4 := s.cores_le
  have hnat := congrArg UInt64.toNat h
  simp only [number, UInt64.toNat_ofNat'] at hnat
  rw [Nat.mod_eq_of_lt (by omega), Nat.mod_eq_of_lt (by omega)] at hnat
  exact Fin.ext hnat

/-- The records of a core. -/
def own (core : Fin s.cores) (records : List Record) : List Record :=
  records.filter fun r => r.core = s.number core

/-- How many records of a core there are. -/
def count (core : Fin s.cores) (records : List Record) : Nat :=
  (s.own core records).length

/-- One record for each core that is present, all of them of the same iteration. -/
structure IsPart (round : Nat) (present : Fin s.cores → Bool) (records : List Record) : Prop where
  cores : (records.map (·.core)).Perm (((List.finRange s.cores).filter present).map s.number)
  iteration : ∀ r ∈ records, r.iteration = UInt64.ofNat round

/-- One record for each core, all of them of the same iteration. -/
structure IsBlock (round : Nat) (records : List Record) : Prop where
  cores : (records.map (·.core)).Perm ((List.finRange s.cores).map s.number)
  iteration : ∀ r ∈ records, r.iteration = UInt64.ofNat round

/-- The blocks of so many rounds, from the first round on. -/
inductive InBlocks : Nat → List Record → Prop where
  | none : InBlocks 0 []
  | block {rounds : Nat} {before block : List Record} (hbefore : InBlocks rounds before)
      (hblock : s.IsBlock (rounds + 1) block) : InBlocks (rounds + 1) (before ++ block)

/-- Blocks, and a part of the next one. -/
def IsFiled (records : List Record) : Prop :=
  ∃ rounds full present part, records = full ++ part ∧ s.InBlocks rounds full ∧
    s.IsPart (rounds + 1) present part

variable {s} {core : Fin s.cores} {rounds round : Nat} {present : Fin s.cores → Bool}
  {records : List Record}

/-! ### Counting -/

/-- The records of a core are counted by their numbers. -/
lemma count_eq (core : Fin s.cores) (records : List Record) :
    s.count core records = (records.map (·.core)).count (s.number core) := by
  rw [count, own, ← List.countP_eq_length_filter, List.count, List.countP_map]
  congr 1

/-- Records that are added are counted. -/
lemma count_append (core : Fin s.cores) (before after : List Record) :
    s.count core (before ++ after) = s.count core before + s.count core after := by
  simp only [count, own, List.filter_append, List.length_append]

/-- A record is counted for its own core alone. -/
lemma count_singleton {r : Record} {i : Fin s.cores} (hr : r.core = s.number i) :
    s.count core [r] = if core = i then 1 else 0 := by
  by_cases h : core = i
  · simp [count, own, hr, h]
  · have hne : s.number i ≠ s.number core := fun heq => h (s.number_injective heq).symm
    simp [count, own, hr, h, hne]

/-- A part has one record of each core that is present. -/
lemma IsPart.count_eq (h : s.IsPart round present records) (core : Fin s.cores) :
    s.count core records = if present core then 1 else 0 := by
  rw [Shape.count_eq, h.cores.count_eq, List.count_map_of_injective _ _ s.number_injective]
  by_cases hcore : present core = true
  · rw [List.count_filter hcore, if_pos hcore]
    exact List.count_eq_one_of_mem (List.nodup_finRange _) (List.mem_finRange _)
  · rw [if_neg hcore, List.count_eq_zero]
    simp [hcore]

/-- A block is a part in which all cores are present. -/
lemma IsBlock.isPart (h : s.IsBlock round records) : s.IsPart round (fun _ => true) records := by
  refine ⟨?_, h.iteration⟩
  rw [List.filter_true]
  exact h.cores

/-- A part in which all cores are present is a block. -/
lemma IsPart.isBlock (h : s.IsPart round present records) (hall : ∀ i, present i = true) :
    s.IsBlock round records := by
  refine ⟨?_, h.iteration⟩
  have hcores := h.cores
  rwa [List.filter_eq_self.mpr fun i _ => hall i] at hcores

/-- A part in which no core is present is empty. -/
lemma IsPart.eq_nil (h : s.IsPart round present records) (hnone : ∀ i, present i = false) :
    records = [] := by
  have hcores := h.cores
  rw [List.filter_eq_nil_iff.mpr fun i _ => by simp [hnone i]] at hcores
  exact List.map_eq_nil_iff.mp (List.perm_nil.mp hcores)

/-- Blocks have one record of each core for each round. -/
lemma InBlocks.count_eq (h : s.InBlocks rounds records) (core : Fin s.cores) :
    s.count core records = rounds := by
  induction h with
  | none => rfl
  | block hbefore hblock ih => rw [count_append, ih, hblock.isPart.count_eq, if_pos rfl]

/-! ### Handing out one more record -/

/-- Before the first record there are no blocks. -/
lemma isFiled_nil (s : Shape) : s.IsFiled [] :=
  ⟨0, [], fun _ => false, [], rfl, InBlocks.none, by simp, by simp⟩

/-- A record of a core that is not present goes into the part. -/
lemma IsPart.push (h : s.IsPart round present records) {r : Record} (hr : r.core = s.number core)
    (hround : r.iteration = UInt64.ofNat round) (hcore : present core = false) :
    s.IsPart round (fun i => present i || i == core) (records ++ [r]) := by
  refine ⟨?_, fun a ha => ?_⟩
  · have hperm : ((List.finRange s.cores).filter fun i => present i || i == core).Perm
        ((List.finRange s.cores).filter present ++ [core]) := by
      have hnodup := List.nodup_finRange s.cores
      refine (List.perm_ext_iff_of_nodup (hnodup.filter _) ?_).mpr fun i => by simp
      rw [List.nodup_append]
      refine ⟨hnodup.filter _, List.nodup_singleton core, ?_⟩
      rintro i hi j hj rfl
      rw [List.mem_singleton.mp hj] at hi
      simp [hcore] at hi
    rw [List.map_append, List.map_singleton, hr]
    refine (h.cores.append_right _).trans ?_
    rw [← List.map_singleton, ← List.map_append]
    exact (hperm.map s.number).symm
  · rcases List.mem_append.mp ha with hmem | hmem
    · exact h.iteration a hmem
    · rw [List.mem_singleton.mp hmem, hround]

/-- **Records stay in blocks** if a core only adds one when every other core has added as many
records as this core, or one more. -/
theorem IsFiled.push (h : s.IsFiled records) {r : Record} (hr : r.core = s.number core)
    (hround : r.iteration = UInt64.ofNat (s.count core records + 1))
    (hothers : ∀ i, s.count i records = s.count core records ∨
      s.count i records = s.count core records + 1) : s.IsFiled (records ++ [r]) := by
  obtain ⟨rounds, full, present, part, rfl, hfull, hpart⟩ := h
  have hcount : ∀ i, s.count i (full ++ part) = rounds + if present i then 1 else 0 := by
    intro i
    rw [count_append, hfull.count_eq, hpart.count_eq]
  simp only [hcount] at hround hothers
  by_cases hcore : present core = true
  · -- then all cores are present, and the record begins a new block
    have hall : ∀ i, present i = true := by
      intro i
      have hi := hothers i
      by_contra hnot
      rw [if_pos hcore, if_neg hnot] at hi
      omega
    rw [if_pos hcore] at hround
    refine ⟨rounds + 1, full ++ part, fun i => i == core, [r], rfl,
      hfull.block (hpart.isBlock hall), ?_, ?_⟩
    · have hsingle : (List.finRange s.cores).filter (fun i => i == core) = [core] := by
        have hone := List.count_eq_one_of_mem (List.nodup_finRange s.cores) (List.mem_finRange core)
        rw [List.filter_beq, hone]
        rfl
      rw [hsingle, List.map_singleton, List.map_singleton, hr]
    · intro a ha
      rw [List.mem_singleton.mp ha, hround]
  · have hfalse : present core = false := Bool.eq_false_iff.mpr hcore
    rw [if_neg hcore] at hround
    refine ⟨rounds, full, _, part ++ [r], List.append_assoc _ _ _, hfull,
      hpart.push hr ?_ hfalse⟩
    rw [hround]

/-! ### What is still to come -/

/-- A record that stands for any record of a core in a round. -/
def blank (s : Shape) (round : Nat) (core : Fin s.cores) : Record :=
  { (default : Record) with core := s.number core, iteration := UInt64.ofNat round }

/-- Such records make up any part. -/
lemma isPart_blank (s : Shape) (round : Nat) (present : Fin s.cores → Bool) :
    s.IsPart round present (((List.finRange s.cores).filter present).map (s.blank round)) := by
  refine ⟨?_, fun r hr => ?_⟩
  · rw [List.map_map]
    exact List.Perm.refl _
  · obtain ⟨core, -, rfl⟩ := List.mem_map.mp hr
    rfl

/-- A part and a part of the other cores make up a block. -/
lemma IsPart.append {others : List Record} (h : s.IsPart round present records)
    (hothers : s.IsPart round (fun i => !present i) others) :
    s.IsBlock round (records ++ others) := by
  refine ⟨?_, fun r hr => ?_⟩
  · rw [List.map_append]
    refine (h.cores.append hothers.cores).trans ?_
    rw [← List.map_append]
    exact (List.filter_append_perm present (List.finRange s.cores)).map s.number
  · rcases List.mem_append.mp hr with hmem | hmem
    · exact h.iteration r hmem
    · exact hothers.iteration r hmem

/-- Blocks can be followed by more blocks. -/
lemma InBlocks.extend (h : s.InBlocks rounds records) (more : Nat) :
    ∃ later, s.InBlocks (rounds + more) (records ++ later) := by
  induction more with
  | zero => exact ⟨[], by rwa [List.append_nil]⟩
  | succ more ih =>
    obtain ⟨later, hlater⟩ := ih
    have hnext := (s.isPart_blank (rounds + more + 1) fun _ => true).isBlock fun _ => rfl
    exact ⟨later ++ _, by rw [← List.append_assoc]; exact hlater.block hnext⟩

/-- Filed records are the beginning of blocks of so many rounds, if no core has more records. -/
theorem IsFiled.exists_later (h : s.IsFiled records) {limit : Nat}
    (hle : ∀ i, s.count i records ≤ limit) : ∃ later, s.InBlocks limit (records ++ later) := by
  obtain ⟨rounds, full, present, part, rfl, hfull, hpart⟩ := h
  have hcount : ∀ i, rounds + (if present i then 1 else 0) ≤ limit := by
    intro i
    rw [← hpart.count_eq i]
    nth_rewrite 1 [← hfull.count_eq i]
    rw [← count_append]
    exact hle i
  by_cases hlimit : rounds = limit
  · have hnone : ∀ i, present i = false := by
      intro i
      have hi := hcount i
      by_contra hnot
      rw [if_pos (Bool.eq_true_of_not_eq_false hnot)] at hi
      omega
    rw [hpart.eq_nil hnone]
    exact ⟨[], by simpa using hlimit ▸ hfull⟩
  · have hlt : rounds + 1 ≤ limit := by
      have hlead := hcount s.leader
      split_ifs at hlead <;> omega
    obtain ⟨later, hlater⟩ :=
      (hfull.block (hpart.append (s.isPart_blank _ _))).extend (limit - (rounds + 1))
    rw [Nat.add_sub_cancel' hlt] at hlater
    exact ⟨_ ++ later, by simpa only [List.append_assoc] using hlater⟩

/-- Every record in blocks is of some core. -/
lemma InBlocks.exists_core (h : s.InBlocks rounds records) {r : Record} (hr : r ∈ records) :
    ∃ core, r.core = s.number core := by
  induction h with
  | none => exact absurd hr List.not_mem_nil
  | block hbefore hblock ih =>
    rcases List.mem_append.mp hr with hmem | hmem
    · exact ih hmem
    · have hcore := hblock.cores.mem_iff.mp (List.mem_map_of_mem hmem)
      obtain ⟨core, -, heq⟩ := List.mem_map.mp hcore
      exact ⟨core, heq.symm⟩

/-- Filed records are blocks of so many rounds, if each core has so many records. -/
theorem IsFiled.inBlocks (h : s.IsFiled records) {limit : Nat}
    (heq : ∀ i, s.count i records = limit) : s.InBlocks limit records := by
  obtain ⟨later, hlater⟩ := h.exists_later fun i => (heq i).le
  have hnil : later = [] := by
    rw [List.eq_nil_iff_forall_not_mem]
    intro r hr
    obtain ⟨core, hcore⟩ := hlater.exists_core (List.mem_append_right records hr)
    have hboth := hlater.count_eq core
    rw [count_append, heq core] at hboth
    have hpos : 0 < s.count core later :=
      List.length_pos_of_mem (List.mem_filter.mpr ⟨hr, decide_eq_true hcore⟩)
    omega
  rwa [hnil, List.append_nil] at hlater

/-! ### What blocks are like -/

/-- The iterations of blocks lie between one and the number of the rounds. -/
lemma InBlocks.iteration_le (h : s.InBlocks rounds records) (hrounds : rounds < UInt64.size)
    {r : Record} (hr : r ∈ records) : r.iteration.toNat ≤ rounds := by
  induction h with
  | none => exact absurd hr List.not_mem_nil
  | block hbefore hblock ih =>
    rcases List.mem_append.mp hr with hmem | hmem
    · exact Nat.le_succ_of_le (ih (Nat.lt_of_succ_lt hrounds) hmem)
    · rw [hblock.iteration r hmem, UInt64.toNat_ofNat']
      exact Nat.mod_le _ _

/-- No record in blocks precedes a record of an earlier iteration. -/
theorem InBlocks.pairwise_le (h : s.InBlocks rounds records) (hrounds : rounds < UInt64.size) :
    records.Pairwise fun a b => a.iteration ≤ b.iteration := by
  induction h with
  | none => exact List.Pairwise.nil
  | block hbefore hblock ih =>
    rename_i rounds before block
    rw [List.pairwise_append]
    refine ⟨ih (Nat.lt_of_succ_lt hrounds), ?_, fun a ha b hb => ?_⟩
    · refine List.pairwise_of_forall_mem_list fun a ha b hb => ?_
      rw [hblock.iteration a ha, hblock.iteration b hb]
      exact UInt64.le_refl _
    · have hle := hbefore.iteration_le (Nat.lt_of_succ_lt hrounds) ha
      rw [UInt64.le_iff_toNat_le, hblock.iteration b hb, UInt64.toNat_ofNat',
        Nat.mod_eq_of_lt hrounds]
      omega

/-- The records of a core in blocks are one record of each iteration, in their order. -/
theorem InBlocks.own_iterations (h : s.InBlocks rounds records) (core : Fin s.cores) :
    (s.own core records).map (·.iteration) =
      (List.range rounds).map fun k => UInt64.ofNat (k + 1) := by
  induction h with
  | none => rfl
  | block hbefore hblock ih =>
    rename_i rounds before block
    have hlength : (s.own core block).length = 1 := hblock.isPart.count_eq core
    obtain ⟨r, hr⟩ := List.length_eq_one_iff.mp hlength
    have hmem : r ∈ block := List.mem_of_mem_filter (hr ▸ List.mem_singleton_self r)
    have hsplit : s.own core (before ++ block) = s.own core before ++ s.own core block :=
      List.filter_append ..
    rw [hsplit, hr, List.map_append, ih, List.range_succ, List.map_append, List.map_singleton,
      List.map_singleton, hblock.iteration r hmem]

end Shape

end Lockstep
