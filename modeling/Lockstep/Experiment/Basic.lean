import Lockstep.Calibration
import Lockstep.Experiment.Runner
import Lockstep.Experiment.Setup
import Lockstep.Experiment.Startup
import Lockstep.Rendezvous.Meeting

/-!
# Experiments

In an experiment all cores run their iterations side by side.  One of them at a time makes one step:
it does one access to something that the cores share, or something that concerns itself alone.  All
orders of steps are possible.

A core first arrives at the start, ready or not.  When all cores are ready each one builds its
runner and goes through its iterations: it prepares, meets the others, measures, hands its record
to one sink after the other, and the leader does its housekeeping.  A core that stops half-way takes
no part any more, and whoever waits for it waits forever.
-/

namespace Lockstep

/-- Where a core stands in an iteration. -/
inductive Stage where
  /-- Between two iterations. -/
  | rest
  /-- Meets the other cores. -/
  | meet
  /-- About to begin to measure. -/
  | start
  /-- About to run its workload. -/
  | run
  /-- About to end measuring. -/
  | stop
  /-- About to hand its record to the sink of that number. -/
  | emit (record : Record) (sink : Nat)
  /-- About to do its housekeeping. -/
  | tend
  deriving DecidableEq, Repr

/-- Where a core stands in an experiment. -/
inductive Phase (P W : Type) where
  /-- Arrives at the start, set up or not. -/
  | arrive (setup : Except Cause (Bracket P × W)) (point : Arriving)
  /-- Waits until all cores have arrived. -/
  | await (bracket : Bracket P) (workload : W)
  /-- About to look whether a core has failed. -/
  | judge (bracket : Bracket P) (workload : W)
  /-- About to build its runner. -/
  | furnish (bracket : Bracket P) (workload : W)
  /-- Goes through its iterations. -/
  | iterate (runner : Runner P W) (calibration : List Calibration) (stage : Stage)
  /-- Has ended, with the number of its iterations or early. -/
  | ended (outcome : Except Cause (UInt64 × List Calibration))

/-- The core has ended. -/
def Phase.isOver {P W : Type} : Phase P W → Bool
  | ended _ => true
  | _ => false

/-- An experiment on the way. -/
structure Experiment (plan : Plan) (P W : Type) where
  startup : Startup plan.shape.cores
  meeting : Meeting plan.shape
  phases : Vector (Phase P W) plan.shape.cores
  /-- What each sink has received. -/
  received : List (Array Record)
  /-- The iterations that the leader's housekeeping has followed. -/
  tended : Array UInt64

namespace Experiment

variable {plan : Plan} {P W : Type}

/-- Where a core stands. -/
def phase (e : Experiment plan P W) (core : Fin plan.shape.cores) : Phase P W :=
  e.phases[core]

/-- Every core is about to arrive, with what its setup has come to. -/
def start (setups : Vector (Except Cause (Bracket P × W)) plan.shape.cores) (sinks : Nat) :
    Experiment plan P W where
  startup := {}
  meeting := Meeting.idle plan.shape
  phases := setups.map fun setup => .arrive setup (.start setup.isOk)
  received := List.replicate sinks #[]
  tended := #[]

/-- The experiment with all cores set up, unless a workload is not known. -/
def launch [Counters P] (plan : Plan) (equipment : Equipment P W) (sinks : Nat) :
    Except Plan.UnknownWorkload (Experiment plan P W) := do
  plan.checkWorkloads equipment.registry
  return start (Vector.ofFn fun core => equipment.setUp plan core) sinks

/-! ### Steps -/

/-- The core moves on. -/
def goTo (core : Fin plan.shape.cores) (phase : Phase P W) (e : Experiment plan P W) :
    Experiment plan P W :=
  { e with phases := e.phases.set core phase }

/-- The sink of that number receives a record. -/
def receive (sink : Nat) (record : Record) (e : Experiment plan P W) : Experiment plan P W :=
  { e with received := e.received.modify sink (·.push record) }

/-- The leader's housekeeping follows an iteration. -/
def keepHouse (role : Role) (iteration : UInt64) (e : Experiment plan P W) : Experiment plan P W :=
  { e with tended := if role = .leader then e.tended.push iteration else e.tended }

@[simp] theorem phase_goTo_self (e : Experiment plan P W) (core : Fin plan.shape.cores)
    (phase : Phase P W) : (e.goTo core phase).phase core = phase := by
  simp [Experiment.phase, goTo]

theorem phase_goTo_of_ne (e : Experiment plan P W) {core i : Fin plan.shape.cores} (h : i ≠ core)
    (phase : Phase P W) : (e.goTo core phase).phase i = e.phase i := by
  have hne : core.val ≠ i.val := fun hval => h (Fin.ext hval.symm)
  simp [Experiment.phase, goTo, Vector.getElem_set_ne _ _ hne]

variable [Counters P] [Workload W]

/-- The core is where an attempt on its runner leads; it ends if the attempt stops half-way. -/
def attempt {α : Type} (core : Fin plan.shape.cores) (runner : Runner P W)
    (calibration : List Calibration) (next : α → Stage) (a : Attempt (Runner P W) α)
    (e : Experiment plan P W) : Experiment plan P W :=
  match a.on runner with
  | (.ok result, runner) => e.goTo core (.iterate runner calibration (next result))
  | (.error fault, _) => e.goTo core (.ended (.error (.ofFault fault)))

/-- Measures countdowns if that is wanted.  They let no simulated time pass. -/
def calibrate (now : Clock → UInt64) (wanted : Bool) (bracket : Bracket P) :
    Except Fault (Bracket P × List Calibration) :=
  if wanted then
    let r := (Calibration.measure now fun _ => pure ()).on (bracket, Clock.own)
    r.1.map fun rows => (r.2.1, rows)
  else .ok (bracket, [])

/-- Builds the runner of a core. -/
def furnish (now : Clock → UInt64) (core : Fin plan.shape.cores) (bracket : Bracket P)
    (workload : W) : Except Fault (Runner P W × List Calibration) := do
  let id : CoreId := ⟨core⟩
  let wanted := id.role = .leader && plan.config.calibrateCountdown
  let (bracket, rows) ← calibrate now wanted bracket
  let sweep ← CacheSweep.ofConfig plan.config.cache id.role
  let stagger ← Stagger.ofConfig plan.config.stagger
  return ({ core := id, label := plan.config.label, cores := plan.shape.cores, bracket := bracket,
            workload := workload, clock := Clock.own, sweep := sweep, stagger := stagger,
            completed := 0 }, rows)

/-- One step of a core that goes through its iterations. -/
def iterateStep (core : Fin plan.shape.cores) (spurious : Bool) (now : Clock → UInt64)
    (runner : Runner P W) (calibration : List Calibration) (stage : Stage)
    (e : Experiment plan P W) : Experiment plan P W :=
  match stage with
  | .rest =>
    if runner.isDone plan.config.iterations then
      e.goTo core (.ended (.ok (runner.completed, calibration)))
    else e.attempt core runner calibration (fun _ => .meet) Runner.prepare
  | .meet =>
    let meeting := e.meeting.step core spurious
    let through := (e.meeting.progress core).rounds < (meeting.progress core).rounds
    goTo core (.iterate runner calibration (if through then .start else .meet))
      { e with meeting := meeting }
  | .start => e.attempt core runner calibration (fun _ => .run) (Runner.startMeasuring now)
  | .run => e.attempt core runner calibration (fun _ => .stop) Runner.runWorkload
  | .stop => e.attempt core runner calibration (.emit · 0) (Runner.stopMeasuring now)
  | .emit record sink =>
    if sink < e.received.length then
      (e.receive sink record).goTo core (.iterate runner calibration (.emit record (sink + 1)))
    else e.goTo core (.iterate runner calibration .tend)
  | .tend =>
    (e.keepHouse runner.core.role runner.iteration).goTo core
      (.iterate runner.finish calibration .rest)

/-- One step of a core.  An exchange that would succeed fails if it is `spurious`, and `now` reads
the time off the core's clock. -/
def step (core : Fin plan.shape.cores) (spurious : Bool) (now : Clock → UInt64)
    (e : Experiment plan P W) : Experiment plan P W :=
  match e.phase core with
  | .arrive setup point =>
    let r := point.step core e.startup
    let phase : Phase P W :=
      match r.2, setup with
      | some point, _ => .arrive setup point
      | none, .ok (bracket, workload) => .await bracket workload
      | none, .error cause => .ended (.error cause)
    goTo core phase { e with startup := r.1 }
  | .await bracket workload =>
    if e.startup.arrived < plan.shape.cores then e else e.goTo core (.judge bracket workload)
  | .judge bracket workload =>
    e.goTo core
      (if e.startup.failed then .ended (.error .aborted) else .furnish bracket workload)
  | .furnish bracket workload =>
    match furnish now core bracket workload with
    | .ok (runner, rows) => e.goTo core (.iterate runner rows .rest)
    | .error fault => e.goTo core (.ended (.error (.ofFault fault)))
  | .iterate runner calibration stage => e.iterateStep core spurious now runner calibration stage
  | .ended _ => e

/-- Which core makes a step, and what is left to chance in it. -/
structure Turn (plan : Plan) where
  core : Fin plan.shape.cores
  /-- An exchange that would succeed fails. -/
  spurious : Bool
  /-- Reads the time off the core's clock. -/
  now : Clock → UInt64

/-- The state that steps in the given order lead to. -/
def follow (e : Experiment plan P W) (schedule : List (Turn plan)) : Experiment plan P W :=
  schedule.foldl (fun e turn => e.step turn.core turn.spurious turn.now) e

/-! ### Taking turns -/

/-- All cores have ended. -/
def isOver (e : Experiment plan P W) : Bool :=
  e.phases.toList.all Phase.isOver

/-- Every core makes one step, in the order of their numbers. -/
def sweep (now : Clock → UInt64) (e : Experiment plan P W) : Experiment plan P W :=
  (List.finRange plan.shape.cores).foldl (fun e core => e.step core false now) e

/-- The cores take turns, at most so many times, until all of them have ended. -/
def takeTurns (now : Clock → UInt64) : Nat → Experiment plan P W → Experiment plan P W
  | 0, e => e
  | turns + 1, e => if e.isOver then e else takeTurns now turns (e.sweep now)

/-- The turns in which an experiment with a limit is over. -/
def turns (e : Experiment plan P W) : Nat :=
  16 + (plan.config.iterations.getD 0).toNat * (Meeting.turnsPerRound + e.received.length + 8)

/-- Carries an experiment out. -/
def run (now : Clock → UInt64) (e : Experiment plan P W) : Experiment plan P W :=
  e.takeTurns now e.turns

end Experiment

end Lockstep
