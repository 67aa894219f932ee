import Lockstep.Attempt
import Lockstep.Event

/-!
# Counters

A core has a cycle counter and a few event counters behind one master switch.  Whatever provides
them is driven through the operations of `Counters`; each of them is told what its clock shows.
-/

namespace Lockstep

/-- An operation on counters, or on the interrupts of the core that has them. -/
inductive Call where
  | enable
  | startCycles
  | stopCycles
  | clearCycles
  | readCycles
  | bind (slot : Event.Slot) (code : Event.Code)
  | startEvent (slot : Event.Slot)
  | stopEvent (slot : Event.Slot)
  | readEvent (slot : Event.Slot)
  | clearEvents
  | mask
  | unmask
  deriving DecidableEq, Repr

/-- The counters of one core. -/
class Counters (P : Type) where
  /-- How many event counters can be bound. -/
  slots : P → Nat
  /-- The master switch; turning it on again changes nothing. -/
  enable : Attempt P Unit
  startCycles (now : UInt64) : Attempt P Unit
  /-- The cycle counter keeps its value. -/
  stopCycles (now : UInt64) : Attempt P Unit
  /-- Sets the cycle counter to zero, running or not. -/
  clearCycles (now : UInt64) : Attempt P Unit
  readCycles (now : UInt64) : Attempt P UInt64
  /-- Lets an event counter count a kind of events. -/
  bind (slot : Event.Slot) (code : Event.Code) : Attempt P Unit
  startEvent (slot : Event.Slot) (now : UInt64) : Attempt P Unit
  stopEvent (slot : Event.Slot) (now : UInt64) : Attempt P Unit
  readEvent (slot : Event.Slot) (now : UInt64) : Attempt P UInt32
  /-- Sets all event counters to zero, running or not. -/
  clearEvents (now : UInt64) : Attempt P Unit
  /-- Tells the counters about a call that concerns the interrupts of their core. -/
  note (call : Call) : P → P

namespace Call

/-- An operation as a list of operations shows it. -/
def text : Call → String
  | enable => "EnableGlobal"
  | startCycles => "EnableCycles"
  | stopCycles => "DisableCycles"
  | clearCycles => "ResetCycles"
  | readCycles => "ReadCycles"
  | bind slot code => "Configure(" ++ slot.text ++ ", " ++ code.text ++ ")"
  | startEvent slot => "EnableEvent(" ++ slot.text ++ ")"
  | stopEvent slot => "DisableEvent(" ++ slot.text ++ ")"
  | readEvent slot => "ReadEvent(" ++ slot.text ++ ")"
  | clearEvents => "ResetEvents"
  | mask => "Mask"
  | unmask => "Unmask"

variable {P : Type} [Counters P]

/-- Does an operation on counters whose clock shows the given time, and answers with the value of
the counter that was read, if one was.  Operations on interrupts do not concern the counters. -/
def perform (call : Call) (now : UInt64) : Attempt P (Option UInt64) := do
  match call with
  | enable => Counters.enable; return none
  | startCycles => Counters.startCycles now; return none
  | stopCycles => Counters.stopCycles now; return none
  | clearCycles => Counters.clearCycles now; return none
  | readCycles => return some (← Counters.readCycles now)
  | bind slot code => Counters.bind slot code; return none
  | startEvent slot => Counters.startEvent slot now; return none
  | stopEvent slot => Counters.stopEvent slot now; return none
  | readEvent slot => return some (← Counters.readEvent slot now).toUInt64
  | clearEvents => Counters.clearEvents now; return none
  | mask => return none
  | unmask => return none

end Call

/-! ### A single counter -/

/-- A counter that counts the ticks of a clock while it runs. -/
structure Tally where
  /-- What was counted until the counter was stopped. -/
  counted : UInt64 := 0
  /-- When the counter was started, if it runs. -/
  since? : Option UInt64 := none
  deriving DecidableEq, Repr, Inhabited

namespace Tally

/-- Starts a counter; one that runs goes on. -/
def start (now : UInt64) (t : Tally) : Tally :=
  match t.since? with
  | some _ => t
  | none => { t with since? := some now }

/-- Stops a counter.  If its value leaves the range the counter stands still all the same, with the
value from before it was started. -/
def stop (now : UInt64) : Attempt Tally Unit := do
  let t ← Attempt.look
  match t.since? with
  | none => return
  | some since =>
    Attempt.change fun t => { t with since? := none }
    let passed ← Attempt.take (checkedSub now since)
    let counted ← Attempt.take (checkedAdd t.counted passed)
    Attempt.change fun t => { t with counted := counted }

/-- Sets a counter to zero; one that runs goes on from there. -/
def clear (now : UInt64) (t : Tally) : Tally :=
  ⟨0, t.since?.map fun _ => now⟩

/-- The value of a counter. -/
def value (now : UInt64) (t : Tally) : Except Fault UInt64 :=
  match t.since? with
  | none => .ok t.counted
  | some since => do checkedAdd t.counted (← checkedSub now since)

end Tally

end Lockstep
