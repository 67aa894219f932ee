import Lockstep.Experiment.Runner
import Lockstep.Rendezvous.Meeting

/-!
# One core alone

A runner can be taken from iteration to iteration while the other cores do nothing but take part in
the meetings.
-/

namespace Lockstep

/-- A runner whose companions only meet with it. -/
structure Solo (s : Shape) (P W : Type) where
  runner : Runner P W
  barrier : Barrier s
  /-- The records that were handed out. -/
  emitted : Array Record
  /-- The iterations that the leader's housekeeping has followed. -/
  tended : Array UInt64

namespace Solo

variable {s : Shape} {P W : Type} [Counters P] [Workload W]

/-- Before the first iteration. -/
def start (s : Shape) (runner : Runner P W) : Solo s P W :=
  ⟨runner, Barrier.idle s, #[], #[]⟩

/-- Does something to the runner. -/
def onRunner {α : Type} (attempt : Attempt (Runner P W) α) : Attempt (Solo s P W) α :=
  attempt.within (·.runner) fun r x => { x with runner := r }

/-- All cores go through one round, on the channel of the iteration. -/
def meet (x : Solo s P W) : Solo s P W :=
  { x with
    barrier := (Meeting.oneRound x.barrier (s.channelFor x.runner.iteration.toNat)).1 }

/-- What follows a record: it is handed out, and the leader does its housekeeping. -/
def emit (record : Record) (x : Solo s P W) : Solo s P W :=
  { x with
    emitted := x.emitted.push record
    tended :=
      if x.runner.core.role = .leader then x.tended.push x.runner.iteration else x.tended }

/-- One iteration. -/
def iterate (now : Clock → UInt64) : Attempt (Solo s P W) Record := do
  onRunner Runner.prepare
  Attempt.change meet
  onRunner (Runner.startMeasuring now)
  onRunner Runner.runWorkload
  let record ← onRunner (Runner.stopMeasuring now)
  Attempt.change (emit record)
  onRunner (Attempt.change Runner.finish)
  return record

/-- A number of iterations. -/
def iterations (now : Clock → UInt64) : Nat → Attempt (Solo s P W) Unit
  | 0 => pure ()
  | n + 1 => do
    let _ ← iterate now
    iterations now n

/-- Iterations until there are as many as wanted. -/
def runTo (now : Clock → UInt64) (limit : UInt64) : Attempt (Solo s P W) UInt64 := do
  iterations now (limit.toNat - (← Attempt.look).runner.completed.toNat)
  return (← Attempt.look).runner.completed

end Solo

end Lockstep
