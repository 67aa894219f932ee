import Lockstep.Counters.Ticking
import Lockstep.Proofs.Attempt
import Mathlib.Tactic.SplitIfs

/-!
# What counters of a simulated clock count

A counter that was set to zero while it ran shows the ticks that have passed since then, and
stopping it does not change what it shows.  The operations of `TickingCounters` only fail if the
counters are not switched on, if there is no such slot, or if what a counter shows leaves its range.
-/

namespace Lockstep

/-! ### A single counter -/

namespace Tally

variable {t : Tally} {since now v : UInt64}

/-- The counter was set to zero at that time, whether or not it has run since then. -/
structure IsClear (since : UInt64) (t : Tally) : Prop where
  counted : t.counted = 0
  since : ∀ s, t.since? = some s → s = since

/-- A counter that was started runs. -/
lemma isSome_start (now : UInt64) (t : Tally) : (t.start now).since?.isSome = true := by
  obtain ⟨counted, _ | s⟩ := t
  · rfl
  · rfl

/-- A counter that runs counts from when it is set to zero. -/
lemma clear_of_running (h : t.since?.isSome = true) : t.clear now = ⟨0, some now⟩ := by
  obtain ⟨s, hs⟩ := Option.isSome_iff_exists.mp h
  rw [clear, hs]
  rfl

/-- A counter that is set to zero is clear. -/
lemma isClear_clear (now : UInt64) (t : Tally) : (t.clear now).IsClear now := by
  refine ⟨rfl, fun s hs => ?_⟩
  obtain ⟨-, -, rfl⟩ := Option.map_eq_some_iff.mp hs
  rfl

/-- A counter that was set to zero while it ran shows the time since then. -/
lemma value_of_running (hle : since ≤ now) :
    (⟨0, some since⟩ : Tally).value now = .ok (now - since) := by
  have hlt := (now - since).toNat_lt
  have hadd : checkedAdd 0 (now - since) = .ok (now - since) := by
    rw [checkedAdd_of_lt, UInt64.zero_add]
    rw [UInt64.toNat_zero, Nat.zero_add]
    exact hlt
  simp only [value, checkedSub_of_le hle]
  exact hadd

/-- A counter that was set to zero shows something later on. -/
lemma IsClear.exists_value (h : t.IsClear since) (hle : since ≤ now) :
    ∃ v, t.value now = .ok v := by
  obtain ⟨hcounted, hsince⟩ := h
  obtain ⟨counted, _ | s⟩ := t
  · exact ⟨counted, rfl⟩
  · obtain rfl : counted = 0 := hcounted
    obtain rfl := hsince s rfl
    exact ⟨_, value_of_running hle⟩

/-- Stopping a counter does not change what it shows. -/
lemma succeeds_stop (h : t.value now = .ok v) :
    (stop now).Succeeds t fun _ t' => t' = ⟨v, none⟩ := by
  obtain ⟨counted, _ | s⟩ := t
  · obtain rfl : counted = v := Except.ok.inj h
    simp [stop]
  · simp only [value] at h
    cases hpassed : checkedSub now s with
    | error fault =>
      rw [hpassed] at h
      cases h
    | ok passed =>
      rw [hpassed] at h
      replace h : checkedAdd counted passed = .ok v := h
      simp [stop, hpassed, h]

end Tally

/-! ### The counters of a core -/

namespace TickingCounters

variable {p : TickingCounters} {since now v : UInt64} {slot : Event.Slot}
  {started told : List Event.Slot}

/-- The counters are switched on, and the cycle counter and the event counters of these slots
run. -/
structure Runs (started : List Event.Slot) (p : TickingCounters) : Prop where
  enabled : p.enabled = true
  running : p.cycles.since?.isSome = true
  events : ∀ k : Fin Event.slotLimit, ∀ slot ∈ started, slot.index.toNat = k →
    (p.events.get k).since?.isSome = true

/-- The counters were set to zero at that time, and the cycle counter has run since then. -/
structure IsClear (since : UInt64) (p : TickingCounters) : Prop where
  enabled : p.enabled = true
  cycles : p.cycles = ⟨0, some since⟩
  events : ∀ k, (p.events.get k).IsClear since

/-- The event counters of these slots were set to zero at that time and have run since then. -/
def Counts (since : UInt64) (started : List Event.Slot) (p : TickingCounters) : Prop :=
  ∀ k : Fin Event.slotLimit, ∀ slot ∈ started, slot.index.toNat = k →
    p.events.get k = ⟨0, some since⟩

/-- The cycle counter shows a number at that time, the event counters show something, and those of
these slots show the same number. -/
structure Shows (now shown : UInt64) (told : List Event.Slot) (p : TickingCounters) : Prop where
  enabled : p.enabled = true
  cycles : p.cycles.value now = .ok shown
  events : ∀ k : Fin Event.slotLimit, ∃ v, (p.events.get k).value now = .ok v ∧
    ∀ slot ∈ told, slot.index.toNat = k → v = shown

/-- Counters that were set to zero show the time since then. -/
lemma IsClear.shows (h : p.IsClear since) (hcounts : p.Counts since told) (hle : since ≤ now) :
    p.Shows now (now - since) told := by
  refine ⟨h.enabled, ?_, fun k => ?_⟩
  · rw [h.cycles]
    exact Tally.value_of_running hle
  · obtain ⟨v, hv⟩ := (h.events k).exists_value hle
    refine ⟨v, hv, fun slot hslot hk => ?_⟩
    rw [hcounts k slot hslot hk, Tally.value_of_running hle] at hv
    exact (Except.ok.inj hv).symm

/-- What is done to one event counter does not concern the others, nor anything else. -/
lemma succeeds_onEvent {α : Type} {a : Attempt Tally α} {Q : α → TickingCounters → Prop}
    (hslot : slot.index.toNat < Event.slotLimit)
    (h : a.Succeeds (p.events.get ⟨slot.index.toNat, hslot⟩) fun x t =>
      Q x { p with events := p.events.set slot.index.toNat t hslot }) :
    (onEvent slot a).Succeeds p Q := by
  rw [onEvent, dif_pos hslot]
  exact Attempt.succeeds_within.mpr h

/-- An event counter that was set is in its own slot alone. -/
lemma get_set (events : Vector Tally Event.slotLimit) (i k : Fin Event.slotLimit) (t : Tally) :
    (events.set i t i.isLt).get k = if i = k then t else events.get k := by
  change (events.set i t i.isLt)[k.val] = if i = k then t else events[k.val]
  rw [Vector.getElem_set]
  simp only [Fin.val_inj]

/-! ### What the operations need -/

/-- Counters that are switched on can be started. -/
lemma succeeds_startCycles (h : p.enabled = true) :
    (Counters.startCycles now).Succeeds p fun _ p' => p'.Runs [] := by
  simp only [Counters.startCycles, Attempt.succeeds_bind, Attempt.succeeds_change,
    Attempt.succeeds_look, note, h, if_true, onCycles, Attempt.succeeds_within]
  exact ⟨rfl, Tally.isSome_start now _, fun _ slot hslot => absurd hslot List.not_mem_nil⟩

/-- An event counter can be started, and then runs as well. -/
lemma succeeds_startEvent (h : p.Runs started) (hslot : slot.index.toNat < Event.slotLimit) :
    (Counters.startEvent slot now).Succeeds p fun _ p' => p'.Runs (slot :: started) := by
  simp only [Counters.startEvent, Attempt.succeeds_bind, Attempt.succeeds_change]
  refine succeeds_onEvent hslot (Attempt.succeeds_change.mpr ⟨h.enabled, h.running, ?_⟩)
  intro k other hother hk
  simp only [note]
  rw [get_set p.events ⟨slot.index.toNat, hslot⟩]
  split_ifs with hsame
  · exact Tally.isSome_start now _
  · rcases List.mem_cons.mp hother with rfl | hmem
    · exact absurd (Fin.ext hk) hsame
    · exact h.events k other hmem hk

/-- Counters of which the cycle counter runs can be set to zero, and those that run count from
then on. -/
lemma succeeds_clear (h : p.Runs started) :
    (Counters.clearCycles now : Attempt TickingCounters Unit).Succeeds p fun _ p' =>
      (Counters.clearEvents now).Succeeds p' fun _ p'' =>
        p''.IsClear now ∧ p''.Counts now started := by
  have hget : ∀ k : Fin Event.slotLimit,
      (p.events.map (Tally.clear now)).get k = (p.events.get k).clear now := by
    intro k
    change (p.events.map (Tally.clear now))[k.val] = _
    rw [Vector.getElem_map]
    rfl
  simp only [Counters.clearCycles, Counters.clearEvents, Attempt.succeeds_bind,
    Attempt.succeeds_change, note, onCycles, Attempt.succeeds_within]
  refine ⟨⟨h.enabled, Tally.clear_of_running h.running, fun k => ?_⟩,
    fun k slot hslot hk => ?_⟩
  · rw [hget]
    exact Tally.isClear_clear now _
  · rw [hget]
    exact Tally.clear_of_running (h.events k slot hslot hk)

/-- The cycle counter can be stopped, and still shows the same. -/
lemma succeeds_stopCycles (h : p.Shows now v told) :
    (Counters.stopCycles now).Succeeds p fun _ p' => p'.Shows now v told := by
  simp only [Counters.stopCycles, Attempt.succeeds_bind, Attempt.succeeds_change, onCycles,
    Attempt.succeeds_within]
  refine (Tally.succeeds_stop h.cycles).mono fun _ t ht => ⟨h.enabled, ?_, h.events⟩
  subst ht
  rfl

/-- An event counter can be stopped, and all of them still show the same. -/
lemma succeeds_stopEvent (h : p.Shows now v told) (hslot : slot.index.toNat < Event.slotLimit) :
    (Counters.stopEvent slot now).Succeeds p fun _ p' => p'.Shows now v told := by
  obtain ⟨w, hw, htold⟩ := h.events ⟨slot.index.toNat, hslot⟩
  simp only [Counters.stopEvent, Attempt.succeeds_bind, Attempt.succeeds_change]
  refine succeeds_onEvent hslot ((Tally.succeeds_stop hw).mono fun _ t ht => ?_)
  subst ht
  refine ⟨h.enabled, h.cycles, fun k => ?_⟩
  simp only [note]
  rw [get_set p.events ⟨slot.index.toNat, hslot⟩]
  split_ifs with hk
  · exact ⟨w, rfl, hk ▸ htold⟩
  · exact h.events k

/-- The cycle counter can be read. -/
lemma succeeds_readCycles (h : p.Shows now v told) :
    (Counters.readCycles now).Succeeds p fun cycles p' => cycles = v ∧ p'.Shows now v told := by
  simp only [Counters.readCycles, Attempt.succeeds_bind, Attempt.succeeds_change, onCycles,
    Attempt.succeeds_within, reading, Attempt.succeeds_look, note, h.cycles, Attempt.succeeds_take]
  exact ⟨trivial, h.enabled, h.cycles, h.events⟩

/-- An event counter can be read, and tells the number that it shows, cut to its size. -/
lemma succeeds_readEvent (h : p.Shows now v told) (hslot : slot.index.toNat < Event.slotLimit) :
    (Counters.readEvent slot now).Succeeds p fun count p' =>
      (slot ∈ told → count = v.toUInt32) ∧ p'.Shows now v told := by
  obtain ⟨w, hw, htold⟩ := h.events ⟨slot.index.toNat, hslot⟩
  simp only [Counters.readEvent, Attempt.succeeds_bind, Attempt.succeeds_change]
  refine succeeds_onEvent hslot ?_
  simp only [reading, Attempt.succeeds_bind, Attempt.succeeds_look, note, hw,
    Attempt.succeeds_take, Attempt.succeeds_pure]
  refine ⟨fun hmem => by rw [htold slot hmem rfl], h.enabled, h.cycles, fun k => ?_⟩
  rw [get_set p.events ⟨slot.index.toNat, hslot⟩]
  split_ifs with hk
  · exact ⟨w, hw, hk ▸ htold⟩
  · exact h.events k

end TickingCounters

end Lockstep
