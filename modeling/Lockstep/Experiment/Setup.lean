import Lockstep.Bracket
import Lockstep.Experiment.Failure
import Lockstep.Experiment.Plan

/-!
# Setting a core up

Before a core starts it runs a hook, opens its counters, sees to its interrupts, binds its events
and makes its workload, in this order.  The first of these that fails is why the core does not
start.
-/

namespace Lockstep

/-- What cores are set up with. -/
structure Equipment (P W : Type) where
  registry : Registry W
  /-- Runs first on every core. -/
  hook : CoreId → Except Cause Unit := fun _ => .ok ()
  /-- Opens the counters of a core. -/
  counters : CoreId → Except Cause P

namespace Equipment

variable {P W : Type} [Counters P]

/-- A bracket for the events of a core. -/
def bracket (counters : P) (mask : InterruptMask) (entry : CoreConfig) :
    Except Cause (Bracket P) := do
  let events ← entry.eventCodes.mapError fun text => .refused (Event.Code.unknownMessage text)
  let made ← (Bracket.ofCounters counters mask events).mapError fun e => .refused e.message
  made.mapError .ofFault

/-- Why a core ends early when its workload cannot be made. -/
def workloadCause (e : Registry.Refusal) : Cause :=
  (e.fault?.map Cause.ofFault).getD (.refused e.message)

/-- Sets a core up. -/
def setUp (equipment : Equipment P W) (plan : Plan) (core : Fin plan.shape.cores) :
    Except Cause (Bracket P × W) := do
  let entry := plan.entry core
  equipment.hook ⟨core⟩
  let counters ← equipment.counters ⟨core⟩
  let mask ← (InterruptMask.ofFlag plan.config.maskInterrupts).mapError
    fun e => .refused e.message
  let bracket ← bracket counters mask entry
  let workload ← (equipment.registry.make entry.workload (plan.params core)).mapError workloadCause
  return (bracket, workload)

end Equipment

end Lockstep
