import Lockstep.Config
import Lockstep.Proofs.Attempt
import Lockstep.Proofs.Bracket.Setup
import Lockstep.Proofs.Text.Words
import Lockstep.Rendezvous.Barrier
import Lockstep.Stagger

/-!
# What validation makes sure of

A configuration is valid if it keeps within limits that can be read off its fields one by one.
Validation accepts these configurations and no others (`Config.validate_eq_ok_iff`).  The limits are
those of the things that are built from a configuration later on: `Config.Serves` says that all of
them can be built, and `Config.IsValid.serves` that they can be for a valid configuration.
-/

namespace Lockstep

/-- The text can be told apart from its surroundings on a line: it is not empty and holds no
blank. -/
def Text.IsWord (s : String) : Prop :=
  s ≠ "" ∧ ∀ c ∈ s.toList, isBlank c = false

/-- Which texts are found to be words. -/
lemma Text.isWord_toList_iff {s : String} : isWord s.toList = true ↔ IsWord s := by
  rw [isWord_iff, IsWord, ne_eq, ne_eq, String.toList_eq_nil_iff]

/-! ### Valid configurations -/

/-- The entry of a core has a workload that can be named in a record, and no more events than can be
counted, all of which are known. -/
structure CoreConfig.IsValid (c : CoreConfig) : Prop where
  workload : Text.IsWord c.workload
  events_le : c.events.length ≤ 4
  events : ∀ event ∈ c.events, ∃ code, Event.Code.ofString? event = some code

/-- One to four cores run under a label that a record can show.  They meet on one or two channels,
their offset stays the same for one iteration at least, and the entry of each core is valid. -/
structure Config.IsValid (c : Config) : Prop where
  cores : 1 ≤ c.cores.length ∧ c.cores.length ≤ 4
  label : Text.IsWord c.label
  channels : c.channels = 1 ∨ c.channels = 2
  stagger : 1 ≤ c.stagger.iterationsPerStep
  entries : ∀ core ∈ c.cores, core.IsValid

namespace CoreConfig

variable {c : CoreConfig}

/-- The events of a core are the codes that their texts stand for. -/
lemma eventCodes_eq_ok_iff {codes : List Event.Code} :
    c.eventCodes = .ok codes ↔
      List.Forall₂ (fun event code => Event.Code.ofString? event = some code) c.events codes := by
  rw [eventCodes, mapM_eq_ok]
  constructor
  · refine fun h => h.imp fun event code hcode => ?_
    split at hcode
    · rename_i found hfound
      rw [hfound, Except.ok.inj hcode]
    · cases hcode
  · exact fun h => h.imp fun event code hcode => by rw [hcode]

/-- The events of a core are found if each of their texts stands for one. -/
lemma exists_eventCodes_iff : (∃ codes, c.eventCodes = .ok codes) ↔
    ∀ event ∈ c.events, ∃ code, Event.Code.ofString? event = some code := by
  constructor
  · rintro ⟨codes, hcodes⟩ event hevent
    obtain ⟨code, -, hcode⟩ := exists_of_mapM_eq_ok hcodes hevent
    split at hcode
    · rename_i found hfound
      exact ⟨found, hfound⟩
    · cases hcode
  · intro h
    refine exists_mapM_eq_ok fun event hevent => ?_
    obtain ⟨code, hcode⟩ := h event hevent
    exact ⟨code, by rw [hcode]⟩

/-- The entries of cores that are accepted are the valid ones. -/
lemma validate_eq_ok_iff (core : Nat) : c.validate core = .ok () ↔ c.IsValid := by
  unfold validate
  split_ifs with hword hmany
  · rw [Bool.not_eq_true', ← Bool.not_eq_true, Text.isWord_toList_iff] at hword
    exact ⟨nofun, fun h => absurd h.workload hword⟩
  · exact ⟨nofun, fun h => absurd h.events_le (Nat.not_le.mpr hmany)⟩
  · rw [Bool.not_eq_true, Bool.not_eq_false', Text.isWord_toList_iff] at hword
    cases hcodes : c.eventCodes with
    | ok codes =>
      exact ⟨fun _ => ⟨hword, Nat.not_lt.mp hmany, exists_eventCodes_iff.mp ⟨codes, hcodes⟩⟩,
        fun _ => rfl⟩
    | error text =>
      refine ⟨nofun, fun h => ?_⟩
      obtain ⟨codes, hok⟩ := exists_eventCodes_iff.mpr h.events
      cases hcodes.symm.trans hok

end CoreConfig

namespace Config

variable {c : Config}

/-- The entries that are accepted are the valid ones, whatever number the first of them has. -/
lemma validateCores_eq_ok_iff {first : Nat} {cores : List CoreConfig} :
    validateCores first cores = .ok () ↔ ∀ core ∈ cores, core.IsValid := by
  induction cores generalizing first with
  | nil => exact ⟨fun _ _ hcore => absurd hcore List.not_mem_nil, fun _ => rfl⟩
  | cons core cores ih =>
    rw [validateCores, List.forall_mem_cons, ← CoreConfig.validate_eq_ok_iff first]
    cases core.validate first with
    | error e => exact ⟨nofun, fun h => absurd h.1 nofun⟩
    | ok _ => exact ⟨fun h => ⟨rfl, ih.mp h⟩, fun h => ih.mpr h.2⟩

/-- Which numbers of channels are accepted. -/
lemma channels_iff {n : UInt64} :
    ¬ (n = 0 ∨ channelLimit < n.toNat) ↔ n = 1 ∨ n = 2 := by
  have hzero : n = 0 ↔ n.toNat = 0 := UInt64.toNat_inj.symm
  have hone : n = 1 ↔ n.toNat = 1 := UInt64.toNat_inj.symm
  have htwo : n = 2 ↔ n.toNat = 2 := UInt64.toNat_inj.symm
  rw [hzero, hone, htwo, channelLimit]
  omega

/-- Which numbers of iterations a step can take. -/
lemma one_le_iff {n : UInt64} : 1 ≤ n ↔ n ≠ 0 := by
  rw [UInt64.le_iff_toNat_le, ne_eq, ← UInt64.toNat_inj]
  exact Nat.one_le_iff_ne_zero

/-- **Validation accepts the valid configurations**, and no others. -/
theorem validate_eq_ok_iff : c.validate = .ok () ↔ c.IsValid := by
  unfold validate
  split_ifs with hcores hword hchannels hsteps
  · refine ⟨nofun, fun h => ?_⟩
    rw [List.isEmpty_iff_length_eq_zero, coreLimit] at hcores
    have hcount := h.cores
    omega
  · rw [Bool.not_eq_true', ← Bool.not_eq_true, Text.isWord_toList_iff] at hword
    exact ⟨nofun, fun h => absurd h.label hword⟩
  · exact ⟨nofun, fun h => absurd hchannels (channels_iff.mpr h.channels)⟩
  · exact ⟨nofun, fun h => absurd hsteps (one_le_iff.mp h.stagger)⟩
  · rw [List.isEmpty_iff_length_eq_zero, coreLimit] at hcores
    rw [Bool.not_eq_true, Bool.not_eq_false', Text.isWord_toList_iff] at hword
    rw [validateCores_eq_ok_iff]
    exact ⟨fun h => ⟨by omega, hword, channels_iff.mp hchannels, one_le_iff.mpr hsteps, h⟩,
      fun h => h.entries⟩

/-! ### What is built from a configuration -/

/-- All that is built from the configuration later on can be built. -/
structure Serves (c : Config) : Prop where
  shape : ∃ shape, Shape.ofCounts c.cores.length c.channels.toNat = .ok shape ∧
    shape.cores = c.cores.length ∧ shape.channels = c.channels.toNat
  stagger : ∃ stagger, Stagger.ofConfig c.stagger = .ok stagger ∧ stagger.config = c.stagger
  ids : ∀ i < c.cores.length, CoreId.ofIndex i c.cores.length = .ok ⟨i⟩
  events : ∀ core ∈ c.cores, (∃ codes, core.eventCodes = .ok codes) ∧
    ∀ j < core.events.length, ∃ slot, Event.Slot.ofIndex? (UInt64.ofNat j) = some slot
  brackets : ∀ (P : Type) [Counters P], Counters.Obliges P → ∀ counters : P,
    Counters.slots counters = 4 → ∀ mask, ∀ core ∈ c.cores, ∃ codes b,
      core.eventCodes = .ok codes ∧ Bracket.ofCounters counters mask codes = .ok (.ok b)

/-- **All that is built from a valid configuration can be built.** -/
theorem IsValid.serves (h : c.IsValid) : c.Serves := by
  obtain ⟨hpos, hle⟩ := h.cores
  have hchannels : 0 < c.channels.toNat ∧ c.channels.toNat ≤ channelLimit := by
    rcases h.channels with heq | heq
    · rw [heq]
      decide
    · rw [heq]
      decide
  have hsteps : c.stagger.iterationsPerStep ≠ 0 := one_le_iff.mp h.stagger
  have hcodes : ∀ core ∈ c.cores, ∃ codes, core.eventCodes = .ok codes ∧ codes.length ≤ 4 := by
    intro core hcore
    obtain ⟨codes, hcodes⟩ := CoreConfig.exists_eventCodes_iff.mpr (h.entries core hcore).events
    refine ⟨codes, hcodes, ?_⟩
    rw [← (CoreConfig.eventCodes_eq_ok_iff.mp hcodes).length_eq]
    exact (h.entries core hcore).events_le
  refine ⟨?_, ?_, fun i hi => ?_, fun core hcore => ?_,
    fun P _ hobliges counters hslots mask core hcore => ?_⟩
  · refine ⟨⟨c.cores.length, c.channels.toNat, hpos, hle, hchannels.1, hchannels.2⟩, ?_, rfl, rfl⟩
    rw [Shape.ofCounts, dif_pos hchannels, dif_pos ⟨hpos, hle⟩]
  · exact ⟨⟨c.stagger, hsteps⟩, dif_pos hsteps, rfl⟩
  · exact CoreId.ofIndex_eq_ok_iff.mpr ⟨hi, hle, rfl⟩
  · obtain ⟨codes, hok, -⟩ := hcodes core hcore
    refine ⟨⟨codes, hok⟩, fun j hj => ⟨_, Event.Slot.ofIndex?_eq_some_iff.mpr ⟨?_, rfl⟩⟩⟩
    have hfew := (h.entries core hcore).events_le
    exact Nat.lt_of_le_of_lt (Nat.mod_le _ _) (Nat.lt_of_lt_of_le hj hfew)
  · obtain ⟨codes, hok, hfew⟩ := hcodes core hcore
    obtain ⟨b, hb, -⟩ := Bracket.exists_ofCounters_of_obliges hobliges mask (hslots.symm ▸ hfew)
    exact ⟨codes, b, hok, hb⟩

end Config

end Lockstep
