import Lockstep.CommandLine.Arguments
import Lockstep.CommandLine.Trouble
import Lockstep.Counters.Named
import Lockstep.Experiment.Report
import Lockstep.Sink.FanOut
import Lockstep.Sink.Store
import Lockstep.Thermal

/-!
# Measuring

An experiment is described by a configuration file, by options, or by both, where the options stand
above the file.  The configuration can be shown instead of being carried out.
-/

namespace Lockstep.CommandLine

/-! ### Requests -/

/-- What is asked for. -/
structure MeasureRequest where
  /-- The file of a configuration. -/
  config : Option String := none
  label : Option String := none
  /-- The workloads, one for each core, unless those of the configuration are taken. -/
  workloads : List String := []
  counter : Option String := none
  iterations : Option UInt64 := none
  channels : Option UInt64 := none
  maskInterrupts : Bool := false
  calibrateCountdown : Bool := false
  seed : Option UInt64 := none
  /-- A file for the records. -/
  json : Option String := none
  /-- The processors of the cores, unless the first ones are taken. -/
  processors : List Nat := []
  /-- The cores have no processors of their own. -/
  unpinned : Bool := false
  /-- Temperatures are told after every so many iterations, or never if that is zero. -/
  thermalEvery : UInt64 := 0
  /-- The configuration is shown and nothing else is done. -/
  printConfig : Bool := false
  /-- The workloads are shown and nothing else is done. -/
  listWorkloads : Bool := false
  deriving DecidableEq, Repr

namespace MeasureRequest

/-- The arguments for measuring. -/
def grammar : Grammar MeasureRequest where
  flags :=
    [.converted "config" path? fun path r => { r with config := some path },
      .text "label" fun label r => { r with label := some label },
      .several "workloads" some fun name r => { r with workloads := r.workloads ++ [name] },
      .text "counter" fun counter r => { r with counter := some counter },
      .converted "iterations" number? fun n r => { r with iterations := some n },
      .converted "channels" number? fun n r => { r with channels := some n },
      .switch "mask-interrupts" fun r => { r with maskInterrupts := true },
      .switch "calibrate-countdown" fun r => { r with calibrateCountdown := true },
      .converted "seed" number? fun n r => { r with seed := some n },
      .converted "json" path? fun path r => { r with json := some path },
      .several "cpus" number? fun n r => { r with processors := r.processors ++ [n.toNat] },
      .switch "no-pin" fun r => { r with unpinned := true },
      .converted "thermal-every" number? fun n r => { r with thermalEvery := n },
      .switch "print-config" fun r => { r with printConfig := true },
      .switch "list-workloads" fun r => { r with listWorkloads := true }]
  operands := []
  exclusive := [("no-pin", "cpus")]
  blank := {}

/-! ### Configurations -/

/-- Puts the options above a configuration. -/
def override (r : MeasureRequest) (c : Config) : Config :=
  { c with
    label := r.label.getD c.label
    cores := if r.workloads.isEmpty then c.cores else r.workloads.map fun name => ⟨name, none, []⟩
    counter := r.counter.getD c.counter
    iterations := r.iterations <|> c.iterations
    channels := r.channels.getD c.channels
    seed := r.seed.getD c.seed
    maskInterrupts := c.maskInterrupts || r.maskInterrupts
    calibrateCountdown := c.calibrateCountdown || r.calibrateCountdown }

/-- The configuration below the options. -/
def baseConfig (look : String → File) (r : MeasureRequest) : Except Trouble Config :=
  match r.config with
  | none => .ok {}
  | some path => (Config.ofFile path (look path)).mapError .config

/-- The checked configuration, all of whose workloads are known. -/
def plan (look : String → File) (r : MeasureRequest) : Except Trouble Plan := do
  let base ← r.baseConfig look
  let p ← (Plan.ofConfig (r.override base)).mapError .invalid
  match p.checkWorkloads Registry.builtIn with
  | .ok () => return p
  | .error e => .error (.unknownWorkload e.name e.known)

/-! ### Processors -/

/-- The processors of the cores. -/
def processorsFor (requested available : List Nat) (cores : Nat) : Except Trouble (List Nat) :=
  if requested.isEmpty then
    if available.length < cores then .error (.fewProcessors cores available.length)
    else .ok (available.take cores)
  else if requested.length ≠ cores then .error (.processorCount cores requested.length)
  else
    match requested.find? fun p => !available.contains p with
    | some p => .error (.unknownProcessor p available)
    | none => .ok requested

end MeasureRequest

/-! ### Jobs -/

/-- What a program finds around itself. -/
structure Surroundings where
  /-- What stands under a path. -/
  look : String → File
  /-- The names in a directory. -/
  names : String → Except File.Fault (List String)
  /-- The processors that are there. -/
  processors : List Nat

/-- An experiment that is about to be carried out. -/
structure Job where
  plan : Plan
  /-- The processors of the cores, if they have any of their own. -/
  processors : Option (List Nat)
  thermal : Option Thermal
  /-- A file for the records. -/
  json : Option String

/-- What a request comes to before anything is measured. -/
inductive Begun where
  /-- The request is answered. -/
  | shown (text : String)
  | job (job : Job)

namespace Job

/-- The topic of what the program itself says. -/
def topic : String := "corun"

/-- What is said before anything is measured. -/
def openingNotices (job : Job) : List Notice :=
  ((job.processors.map fun ps =>
      [⟨.info, topic, "pinning cores to CPUs " ++ Trouble.bracketed ps⟩]).getD []) ++
    (job.thermal.map (·.notices)).getD []

/-- What is said about a countdown. -/
def countdownNotice (c : Calibration) : Notice :=
  ⟨.info, topic, "countdown(" ++ c.count.toNat.repr ++ ") took " ++ c.cycles.toNat.repr ++
    " cycles, " ++ Decimal.fixed 3 false c.cyclesPerCount ++ " cycles per count"⟩

/-- What is said when everything is measured. -/
def closingNotices (report : Report) : List Notice :=
  (report.completed.mapIdx fun core n =>
      ⟨.info, topic, "core" ++ core.repr ++ " completed " ++ n.toNat.repr ++ " iterations"⟩) ++
    report.calibration.map countdownNotice

/-- Where the records go: into the notices, and into a file if there is one. -/
def sinks (job : Job) : List Sink :=
  if job.json.isSome then [.log, .jsonLines] else [.log]

/-- What the cores are set up with.  The stopwatch is the only counter that can be opened
everywhere. -/
def equipment (job : Job) : Equipment Stopwatch Benchmark where
  registry := Registry.builtIn
  counters := fun _ =>
    (Counters.ofName job.plan.config.counter).mapError fun e => .refused e.message

end Job

/-- Answers a request, or gets an experiment ready. -/
def MeasureRequest.begin (s : Surroundings) (r : MeasureRequest) : Except Trouble Begun := do
  if r.listWorkloads then
    return .shown (String.join (Registry.builtIn.names.map (· ++ "\n")))
  else
    let plan ← r.plan s.look
    if r.printConfig then return .shown (plan.config.json.prettyText ++ "\n")
    else
      let processors ←
        if r.unpinned then .ok none
        else
          (MeasureRequest.processorsFor r.processors s.processors plan.config.cores.length).map some
      let thermal ←
        if r.thermalEvery = 0 then .ok none
        else
          (s.names Thermal.systemRoot).mapError Trouble.file |>.map fun names =>
            some (Thermal.discover Thermal.systemRoot names s.look r.thermalEvery)
      return .job ⟨plan, processors, thermal, r.json⟩

/-! ### Carrying out without a clock -/

/-- What a finished experiment leaves behind. -/
structure Findings where
  notices : List Notice
  /-- The bytes of the file for the records. -/
  content : ByteArray
  /-- Why it has failed, if it has. -/
  trouble : Option Trouble

namespace Findings

/-- An experiment that could not be carried out. -/
def failed (notices : List Notice) (trouble : Trouble) : Findings :=
  ⟨notices, ByteArray.empty, some trouble⟩

/-- Hands records to all sinks. -/
def fanOut (sinks : List Sink) (records : List Record) : List Notice × FanOut Store :=
  records.foldl
    (fun s r =>
      let next := s.2.emit r
      (s.1 ++ next.1, next.2))
    ([], FanOut.start sinks {})

end Findings

/-- Carries an experiment out on a clock that stands still.  One that has no limit does not end. -/
def Job.findings (look : String → File) (job : Job) : Option Findings :=
  match Experiment.launch job.plan job.equipment 1 with
  | .error e => some (.failed job.openingNotices (.unknownWorkload e.name e.known))
  | .ok e =>
    let e := e.run fun _ => 0
    let records := (e.received.headD #[]).toList
    let told := Findings.fanOut job.sinks records
    let temperatures :=
      (job.thermal.map fun t => e.tended.toList.flatMap fun n => t.afterIteration look n).getD []
    let notices := job.openingNotices ++ told.1 ++ temperatures
    let content : ByteArray := ⟨told.2.file.close.2.content⟩
    e.report?.map fun
      | .ok report => ⟨notices ++ Job.closingNotices report, content, none⟩
      | .error failure => ⟨notices, content, some (.core failure)⟩

end Lockstep.CommandLine
