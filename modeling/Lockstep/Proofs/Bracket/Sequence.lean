import Lockstep.Clock
import Lockstep.Proofs.Bracket
import Mathlib.Algebra.Ring.Nat

/-!
# One measurement after the other

A bracket on counters of a simulated clock may be used again and again, while time passes in between
and although some of the runs stop half-way.  None of this shows in what is measured: a run that
ends is measured with exactly the ticks that it has let pass itself, and so is every bound event.

What carries over from one measurement to the next one is only that the bracket is ready
(`Bracket.IsReady`): the counters may run or stand still, and may have counted anything.
-/

namespace Lockstep

/-! ### Time that passes -/

/-- A clock that stays in its range shows what it has shown, and all the ticks that passed. -/
lemma Clock.succeeds_advances {advances : List UInt64} {c : Clock}
    (hfits : c.ticks.toNat + (advances.map UInt64.toNat).sum < UInt64.size) :
    (advances.forM Clock.advance).Succeeds c fun _ c' =>
      c'.ticks.toNat = c.ticks.toNat + (advances.map UInt64.toNat).sum := by
  induction advances generalizing c with
  | nil => exact Attempt.succeeds_pure.mpr rfl
  | cons n advances ih =>
    rw [List.map_cons, List.sum_cons] at hfits ⊢
    have hn : c.ticks.toNat + n.toNat < UInt64.size := by omega
    have hsum : (c.ticks + n).toNat = c.ticks.toNat + n.toNat := by
      rw [UInt64.toNat_add]
      exact Nat.mod_eq_of_lt hn
    refine Attempt.succeeds_bind.mpr ((Attempt.succeeds_iff (Clock.advance_of_lt hn)).mpr ?_)
    refine (ih (c := { c with ticks := c.ticks + n }) ?_).mono fun _ c' hc' => ?_
    · change (c.ticks + n).toNat + _ < _
      omega
    · rw [hc']
      change (c.ticks + n).toNat + _ = _
      omega

/-- A run that lets time pass, and may stop half-way after that. -/
def passing (advances : List UInt64) (fault? : Option Fault) : Attempt Clock Unit := do
  advances.forM Clock.advance
  match fault? with
  | none => return
  | some fault => Attempt.stop fault

namespace Bracket

/-! ### What is done with a bracket -/

/-- Time passes outside of a bracket, or a run inside of it lets time pass, and may stop half-way
after that. -/
inductive Deed where
  | wait (ticks : UInt64)
  | measure (advances : List UInt64) (fault? : Option Fault)
  deriving Repr

/-- The measurement tells that many ticks, and each of the events as often, one after the other in
its own slot and as far as a reading has room for it. -/
structure IsExact (events : List Event.Code) (ticks : Nat) (m : Measurement) : Prop where
  cycles : m.cycles.toNat = ticks
  events : m.events.map (fun r => (r.slot.index.toNat, r.code, r.count.toNat)) =
    events.mapIdx fun slot code => (slot, code, ticks % 2 ^ 32)

namespace Deed

/-- The ticks that pass. -/
def ticks : Deed → Nat
  | wait n => n.toNat
  | measure advances _ => (advances.map UInt64.toNat).sum

/-- Does something with a bracket, and answers with what was measured. -/
def perform : Deed → Attempt (Bracket TickingCounters × Clock) (Option Measurement)
  | wait n => do
    (Clock.advance n).within Prod.snd fun c s => (s.1, c)
    return none
  | measure advances fault? => do
    return some (← Bracket.measure Clock.ticks (passing advances fault?)).1

/-- The answer that there should be: a run that ends is measured exactly, and a run that stops
half-way tells why. -/
def IsAnswered (events : List Event.Code) : Deed → Except Fault (Option Measurement) → Prop
  | wait _, answer => answer = .ok none
  | measure advances none, answer =>
    ∃ m, answer = .ok (some m) ∧ IsExact events (measure advances none).ticks m
  | measure _ (some fault), answer => answer = .error fault

/-- The answers to one deed after the other.  What comes after a fault goes on with what the fault
has left. -/
def answers : List Deed → Bracket TickingCounters × Clock → List (Except Fault (Option Measurement))
  | [], _ => []
  | deed :: deeds, s => (deed.perform.on s).1 :: answers deeds (deed.perform.on s).2

end Deed

/-! ### What is measured -/

variable {b : Bracket TickingCounters} {c : Clock} {events : List Event.Code} {ticks : UInt64}

/-- Each bound event is read in its own slot. -/
lemma isExact_exactly (hevents : events.length ≤ Event.slotLimit) :
    IsExact events ticks.toNat (exactly (slotted events) ticks) := by
  refine ⟨rfl, List.ext_getElem ?_ fun i _ hi => ?_⟩
  · simp [exactly, slotted]
  · rw [List.length_mapIdx] at hi
    have hslot : (UInt8.ofNat i).toNat = i := by
      rw [UInt8.toNat_ofNat']
      refine Nat.mod_eq_of_lt (Nat.lt_of_lt_of_le hi (Nat.le_trans hevents ?_))
      decide
    simp only [exactly, slotted, List.getElem_map, List.getElem_mapIdx, hslot,
      UInt64.toNat_toUInt32]

/-- A run that lets time pass does so, and then stops or does not. -/
lemma on_passing {advances : List UInt64} (fault? : Option Fault)
    (hfits : c.ticks.toNat + (advances.map UInt64.toNat).sum < UInt64.size) :
    ∃ c', c'.ticks.toNat = c.ticks.toNat + (advances.map UInt64.toNat).sum ∧
      (passing advances fault?).on c =
        (match fault? with | none => .ok () | some fault => .error fault, c') := by
  obtain ⟨_, c', hon, hc'⟩ := Clock.succeeds_advances hfits
  refine ⟨c', hc', ?_⟩
  cases fault? with
  | none => exact Attempt.on_bind_of_ok hon
  | some fault => exact Attempt.on_bind_of_ok hon

/-- Whatever is done with a bracket is answered as it should be, and leaves the bracket ready. -/
lemma Binds.perform (h : b.Binds events) (hevents : events.length ≤ Event.slotLimit) (deed : Deed)
    (hfits : c.ticks.toNat + deed.ticks < UInt64.size) :
    ∃ answer b' c', deed.perform.on (b, c) = (answer, (b', c')) ∧ deed.IsAnswered events answer ∧
      b'.Binds events ∧ c'.ticks.toNat = c.ticks.toNat + deed.ticks := by
  rcases deed with n | ⟨advances, _ | fault⟩
  · have hon := Clock.advance_of_lt hfits
    refine ⟨.ok none, b, { c with ticks := c.ticks + n }, ?_, rfl, h, ?_⟩
    · refine Attempt.on_bind_of_ok (a := ()) ?_
      rw [Attempt.on_within, hon]
    · change (c.ticks + n).toNat = _
      rw [UInt64.toNat_add]
      exact Nat.mod_eq_of_lt hfits
  · obtain ⟨c', hticks, hon⟩ := on_passing none hfits
    have hle : c.ticks ≤ c'.ticks := UInt64.le_iff_toNat_le.mpr (by omega)
    have hrun : (passing advances none).Succeeds c fun _ there =>
        c.ticks ≤ there.ticks ∧ there = c' :=
      (Attempt.succeeds_iff hon).mpr ⟨hle, rfl⟩
    obtain ⟨r, s, hmeasure, hready, hbound, hexact, hs⟩ := measures h.toIsReady hrun
    refine ⟨.ok (some r.1), s.1, s.2, ?_, ⟨r.1, rfl, ?_⟩, ⟨hready, hbound.trans h.slotted⟩,
      hs ▸ hticks⟩
    · rw [Deed.perform, Attempt.on_bind_of_ok hmeasure]
      rfl
    · rw [hexact, h.slotted]
      have hd : (s.2.ticks - c.ticks).toNat = (Deed.measure advances none).ticks := by
        rw [hs, UInt64.toNat_sub_of_le _ _ hle, hticks]
        exact Nat.add_sub_cancel_left _ _
      rw [← hd]
      exact isExact_exactly hevents
  · obtain ⟨c', hticks, hon⟩ := on_passing (some fault) hfits
    obtain ⟨b', hmeasure, hready, hbound⟩ := measure_stops Clock.ticks h.toIsReady hon
    refine ⟨.error fault, b', c', ?_, rfl, ⟨hready, hbound.trans h.slotted⟩, hticks⟩
    exact Attempt.on_bind_of_error hmeasure

/-- A bracket that is ready answers to one deed after the other as it should. -/
lemma Binds.answers (h : b.Binds events) (hevents : events.length ≤ Event.slotLimit)
    {deeds : List Deed} (hfits : c.ticks.toNat + (deeds.map Deed.ticks).sum < UInt64.size) :
    List.Forall₂ (Deed.IsAnswered events) deeds (Deed.answers deeds (b, c)) := by
  induction deeds generalizing b c with
  | nil => exact .nil
  | cons deed deeds ih =>
    rw [List.map_cons, List.sum_cons] at hfits
    have hdeed : c.ticks.toNat + deed.ticks < UInt64.size := by omega
    obtain ⟨answer, b', c', hon, hanswer, hbinds, hticks⟩ := h.perform hevents deed hdeed
    rw [Deed.answers, hon]
    exact .cons hanswer (ih hbinds (by omega))

/-- **Measuring is exact.**  On counters in whatever state, with no more events than they have
slots, a bracket can be made, and as long as the clock stays in its range every run that ends is
measured with exactly the ticks that it has let pass.  Each bound event is read in its own slot with
the same number, cut to its size.  It does not matter what the counters have counted before, how
much time passes between measurements, and which runs stop half-way and leave the counters
running. -/
theorem measures_exactly (counters : TickingCounters) (clock : Clock) (events : List Event.Code)
    (hevents : events.length ≤ counters.slots) (deeds : List Deed)
    (hfits : clock.ticks.toNat + (deeds.map Deed.ticks).sum < UInt64.size) :
    ∃ b, ofCounters counters .unmasked events = .ok (.ok b) ∧
      List.Forall₂ (Deed.IsAnswered events) deeds (Deed.answers deeds (b, clock)) := by
  obtain ⟨b, hb, hbound⟩ := exists_ofCounters hevents
  have hbinds : b.Binds events := ⟨isReady_of_ofCounters hb, hbound⟩
  exact ⟨b, hb, hbinds.answers (Nat.le_trans hevents counters.slots_le) hfits⟩

/-- Counters with two slots that were left running and have counted something already. -/
def leftRunning : TickingCounters :=
  { TickingCounters.withSlots 2 with
    enabled := true
    cycles := ⟨3, some 1⟩
    events := Vector.replicate _ ⟨9, some 0⟩ }

/-- A run that stops half-way after five ticks, a pause, and a run of seven ticks. -/
def interrupted : List Deed :=
  [.measure [2, 3] (some .assertion), .wait 100, .measure [3, 4] none]

/-- Counters that were left running twice measure the next run exactly. -/
theorem measures_exactly_of_leftRunning :
    ∃ b, ofCounters leftRunning .unmasked [⟨0x17⟩, ⟨0x03⟩] = .ok (.ok b) ∧
      List.Forall₂ (Deed.IsAnswered [⟨0x17⟩, ⟨0x03⟩]) interrupted
        (Deed.answers interrupted (b, ⟨50, false⟩)) :=
  measures_exactly leftRunning ⟨50, false⟩ [⟨0x17⟩, ⟨0x03⟩] (by decide) interrupted (by decide)

example :
    Deed.answers interrupted (⟨leftRunning, .unmasked, slotted [⟨0x17⟩]⟩, ⟨50, false⟩) =
      [.error .assertion, .ok none, .ok (some ⟨7, [⟨⟨0⟩, ⟨0x17⟩, 7⟩]⟩)] := by
  cbv

end Bracket

end Lockstep
