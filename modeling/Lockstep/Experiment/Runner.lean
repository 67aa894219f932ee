import Lockstep.Bracket
import Lockstep.Cache
import Lockstep.Record
import Lockstep.Stagger
import Lockstep.Workload.Basic

/-!
# Runners

A runner takes one core through its iterations.  In each of them the workload is prepared and the
caches are conditioned, then the core meets the others, runs its workload inside of its bracket, and
hands a record out.  Only what happens between meeting the others and handing the record out is
measured.

The meeting and whoever takes the record are not part of a runner.
-/

namespace Lockstep

/-- What takes a core through its iterations. -/
structure Runner (P W : Type) where
  core : CoreId
  /-- Copied into every record. -/
  label : String
  /-- How many cores take part. -/
  cores : Nat
  bracket : Bracket P
  workload : W
  /-- The time of the core as far as it is simulated. -/
  clock : Clock
  sweep : CacheSweep
  stagger : Stagger
  /-- The iterations that are over. -/
  completed : UInt64

namespace Runner

variable {P W : Type} [Counters P] [Workload W]

/-- The iteration that a runner is in, counted from one. -/
def iteration (r : Runner P W) : UInt64 :=
  r.completed + 1

/-- Prepares an iteration. -/
def prepare : Attempt (Runner P W) Unit := do
  let _ ← Attempt.take (checkedAdd (← Attempt.look).completed 1)
  (Workload.prepare : Attempt W Unit).within (·.workload) fun w r => { r with workload := w }
  Attempt.change fun r => { r with sweep := r.sweep.condition }

/-- Begins to measure, at the time that `now` reads off the clock. -/
def startMeasuring (now : Clock → UInt64) : Attempt (Runner P W) Unit := do
  let time := now (← Attempt.look).clock
  (Bracket.opening time).within (·.bracket) fun b r => { r with bracket := b }

/-- Runs the workload. -/
def runWorkload : Attempt (Runner P W) Unit :=
  (Workload.run : Attempt (W × Clock) Unit).within (fun r => (r.workload, r.clock))
    fun s r => { r with workload := s.1, clock := s.2 }

/-- The record of an iteration. -/
def record (r : Runner P W) (m : Measurement) : Record where
  label := r.label
  workload := Workload.name r.workload
  cores := UInt64.ofNat r.cores
  core := UInt64.ofNat r.core.index
  iteration := r.iteration
  offset := r.stagger.offset r.iteration
  cycles := m.cycles
  events := m.events

/-- Measures no longer. -/
def stopMeasuring (now : Clock → UInt64) : Attempt (Runner P W) Record := do
  let time := now (← Attempt.look).clock
  let m ← (Bracket.closing time).within (·.bracket) fun b r => { r with bracket := b }
  return (← Attempt.look).record m

/-- Ends an iteration. -/
def finish (r : Runner P W) : Runner P W :=
  { r with completed := r.iteration }

/-- The runner has as many iterations behind it as it is to do. -/
def isDone (limit : Option UInt64) (r : Runner P W) : Bool :=
  match limit with
  | none => false
  | some n => n ≤ r.completed

end Runner

end Lockstep
