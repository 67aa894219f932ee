import Lockstep.Counters.Basic

/-!
# Ticking counters

Counters that count the ticks of a simulated clock.  Every event counter counts one event per tick
while it runs, whatever it is bound to.  All calls are noted down, also those that are refused.
-/

namespace Lockstep

/-- Counters of a simulated clock. -/
structure TickingCounters where
  /-- How many event counters can be bound. -/
  slots : Nat
  slots_le : slots ≤ Event.slotLimit
  enabled : Bool
  cycles : Tally
  events : Vector Tally Event.slotLimit
  codes : Vector (Option Event.Code) Event.slotLimit
  /-- The calls so far, the first one first. -/
  calls : Array Call

namespace TickingCounters

/-- Counters with that many event counters, but not more than there can be. -/
def withSlots (slots : Nat) : TickingCounters where
  slots := min slots Event.slotLimit
  slots_le := Nat.min_le_right ..
  enabled := false
  cycles := {}
  events := Vector.replicate _ {}
  codes := Vector.replicate _ none
  calls := #[]

instance : Inhabited TickingCounters := ⟨withSlots Event.slotLimit⟩

/-- Notes a call down. -/
def note (call : Call) (p : TickingCounters) : TickingCounters :=
  { p with calls := p.calls.push call }

/-- The event that a slot is bound to. -/
def code? (p : TickingCounters) (slot : Event.Slot) : Option Event.Code :=
  p.codes[slot.index.toNat]?.join

/-- Does something to the cycle counter. -/
def onCycles {α : Type} (attempt : Attempt Tally α) : Attempt TickingCounters α :=
  attempt.within (·.cycles) fun t p => { p with cycles := t }

/-- Does something to the event counter of a slot. -/
def onEvent {α : Type} (slot : Event.Slot) (attempt : Attempt Tally α) :
    Attempt TickingCounters α :=
  if h : slot.index.toNat < Event.slotLimit then
    attempt.within (·.events[slot.index.toNat]) fun t p =>
      { p with events := p.events.set slot.index.toNat t }
  else Attempt.stop .outOfBounds

/-- The value of a counter as an attempt. -/
def reading (now : UInt64) : Attempt Tally UInt64 := do
  Attempt.take ((← Attempt.look).value now)

instance : Counters TickingCounters where
  slots p := p.slots
  enable := do
    Attempt.change (note .enable)
    Attempt.change fun p => { p with enabled := true }
  startCycles now := do
    Attempt.change (note .startCycles)
    if (← Attempt.look).enabled then onCycles (Attempt.change (Tally.start now))
    else Attempt.stop (.stopped "cycle counter enabled before the global enable")
  stopCycles now := do
    Attempt.change (note .stopCycles)
    onCycles (Tally.stop now)
  clearCycles now := do
    Attempt.change (note .clearCycles)
    onCycles (Attempt.change (Tally.clear now))
  readCycles now := do
    Attempt.change (note .readCycles)
    onCycles (reading now)
  bind slot code := do
    Attempt.change (note (.bind slot code))
    if slot.index.toNat < (← Attempt.look).slots then
      Attempt.change fun p => { p with codes := p.codes.setIfInBounds slot.index.toNat code }
    else Attempt.stop (.stopped ("slot " ++ slot.text ++ " not implemented"))
  startEvent slot now := do
    Attempt.change (note (.startEvent slot))
    onEvent slot (Attempt.change (Tally.start now))
  stopEvent slot now := do
    Attempt.change (note (.stopEvent slot))
    onEvent slot (Tally.stop now)
  readEvent slot now := do
    Attempt.change (note (.readEvent slot))
    return (← onEvent slot (reading now)).toUInt32
  clearEvents now := do
    Attempt.change (note .clearEvents)
    Attempt.change fun p => { p with events := p.events.map (Tally.clear now) }
  note := note

end TickingCounters

end Lockstep
