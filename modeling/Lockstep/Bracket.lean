import Lockstep.Interrupts
import Lockstep.Notice

/-!
# Measuring

A bracket puts counting around a run.  Counting starts before interrupts are kept away, everything
is set to zero then, and the counters are stopped before interrupts come back and before they are
read.  So nothing but the run is counted.
-/

namespace Lockstep

/-- What was counted during a run. -/
structure Measurement where
  cycles : UInt64
  /-- One reading for each bound event, in slot order. -/
  events : List Event.Reading
  deriving DecidableEq, Repr, Inhabited

/-- Counters that are ready to measure runs. -/
structure Bracket (P : Type) where
  counters : P
  mask : InterruptMask
  /-- The bound events, from the first slot on. -/
  bound : List (Event.Slot × Event.Code)

namespace Bracket

variable {P E α : Type} [Counters P]

/-- More events are wanted than can be bound. -/
structure TooManyEvents where
  wanted : Nat
  slots : Nat
  deriving DecidableEq, Repr

/-- The sentence shown when more events are wanted than can be bound. -/
def TooManyEvents.message (e : TooManyEvents) : String :=
  e.wanted.repr ++ " events requested but the counter only has " ++ e.slots.repr ++
    " event slots"

/-- The slots that events are bound to. -/
def slotted (events : List Event.Code) : List (Event.Slot × Event.Code) :=
  events.mapIdx fun i code => (⟨UInt8.ofNat i⟩, code)

/-- Turns counters on and binds the events to their slots. -/
def setUp (events : List Event.Code) : Attempt P Unit := do
  Counters.enable
  (slotted events).forM fun b => Counters.bind b.1 b.2

/-- A bracket for the given events, unless the counters have not enough slots.  What happens to the
counters may stop half-way. -/
def ofCounters (counters : P) (mask : InterruptMask) (events : List Event.Code) :
    Except TooManyEvents (Except Fault (Bracket P)) :=
  if Counters.slots counters < events.length then
    .error ⟨events.length, Counters.slots counters⟩
  else
    let r := (setUp events).on counters
    .ok (r.1.map fun _ => ⟨r.2, mask, slotted events⟩)

/-- What is said about the events that were bound. -/
def notices (b : Bracket P) : List Notice :=
  b.bound.map fun (slot, code) =>
    .internal .debug
      ("MeasurementBracket::new: slot " ++ slot.text ++ " counts event " ++ code.text)

/-- Does something to the counters. -/
def onCounters (attempt : Attempt P α) : Attempt (Bracket P) α :=
  attempt.within (·.counters) fun p b => { b with counters := p }

/-- Does something to the interrupts of the core. -/
def onMask (attempt : Attempt (InterruptMask × P) α) : Attempt (Bracket P) α :=
  attempt.within (fun b => (b.mask, b.counters))
    fun s b => { b with mask := s.1, counters := s.2 }

/-- What happens before a run: the counters start, interrupts are kept away, and the counters are
set to zero. -/
def opening (now : UInt64) : Attempt (Bracket P) Unit := do
  onCounters (Counters.startCycles now)
  (← Attempt.look).bound.forM fun b => onCounters (Counters.startEvent b.1 now)
  onMask InterruptMask.mask
  onCounters (Counters.clearCycles now)
  onCounters (Counters.clearEvents now)

/-- What happens after a run: the counters stop, interrupts come back, and the counters are
read. -/
def closing (now : UInt64) : Attempt (Bracket P) Measurement := do
  onCounters (Counters.stopCycles now)
  (← Attempt.look).bound.forM fun b => onCounters (Counters.stopEvent b.1 now)
  onMask InterruptMask.unmask
  let cycles ← onCounters (Counters.readCycles now)
  let events ← (← Attempt.look).bound.mapM fun b => do
    return ⟨b.1, b.2, ← onCounters (Counters.readEvent b.1 now)⟩
  return ⟨cycles, events⟩

/-- Measures a run.  The counters see the time that `now` reads off the surroundings of the run.  A
run that stops half-way leaves the counters running and interrupts away. -/
def measure (now : E → UInt64) (run : Attempt E α) : Attempt (Bracket P × E) (Measurement × α) := do
  let here ← Attempt.look
  (opening (now here.2)).within Prod.fst fun b s => (b, s.2)
  let a ← run.within Prod.snd fun e s => (s.1, e)
  let there ← Attempt.look
  let m ← (closing (now there.2)).within Prod.fst fun b s => (b, s.2)
  return (m, a)

end Bracket

end Lockstep
