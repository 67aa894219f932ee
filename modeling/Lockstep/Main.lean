import Lockstep.CommandLine.Measure
import Lockstep.CommandLine.Summarize
import Lockstep.Notice.Filter

/-!
# The programs

The first argument chooses between measuring and summarizing.  This module reads files, the clock
and the environment, hands them to `Lockstep.CommandLine`, and shows what comes back.  All cores of
an experiment take turns on one thread.
-/

namespace Lockstep.CommandLine

/-! ### Files -/

/-- The fault behind a failed access to a file. -/
def faultOf : IO.Error → File.Fault
  | .inappropriateType _ _ _ => .notDirectory
  | .permissionDenied _ _ _ => .denied
  | .invalidArgument _ 36 _ => .nameTooLong
  | _ => .notFound

/-- What stands under a path. -/
def fileAt (path : String) : IO File := do
  let here ← IO.currentDir
  if ← (here / path).isDir then return .directory
  try return .bytes (← IO.FS.readBinFile path)
  catch e => return .absent (faultOf e)

/-- What stands under some paths; nothing is known about others. -/
def filesAt (paths : List String) : IO (String → File) := do
  let files ← paths.mapM fun path => return (path, ← fileAt path)
  return fun path => (files.lookup path).getD (.absent .notFound)

/-- The names in a directory. -/
def namesIn (path : String) : IO (Except File.Fault (List String)) := do
  let here ← IO.currentDir
  try return .ok ((← (here / path).readDir).toList.map (·.fileName))
  catch e => return .error (faultOf e)

/-! ### Notices and endings -/

/-- The variable of the environment that says which notices are shown. -/
def filterVariable : String := "LOCKSTEP_LOG"

/-- The filter for notices. -/
def filterFromEnvironment : IO Notice.Filter := do
  return .ofString ((← IO.getEnv filterVariable).getD "info")

/-- Shows the notices that a filter lets through. -/
def tell (filter : Notice.Filter) (notices : List Notice) : IO Unit :=
  (notices.filter filter.shows).forM fun n => IO.eprintln n.line

/-- Ends with a trouble. -/
def fail (trouble : Trouble) : IO UInt32 := do
  IO.eprintln trouble.line
  return trouble.status.toUInt32

/-- Ends before anything was done. -/
def decline (usage : String) : Refusal → IO UInt32
  | .help => do
    IO.print usage
    return 0
  | .misuse => do
    IO.eprint usage
    return misuseStatus.toUInt32

/-! ### Measuring -/

/-- Shows and writes what an experiment has come to since the last time. -/
def handOn (filter : Notice.Filter) (job : Job) (file : Option IO.FS.Handle)
    (e : Experiment job.plan Stopwatch Benchmark) :
    IO (Experiment job.plan Stopwatch Benchmark) := do
  for r in e.received.headD #[] do
    tell filter [FanOut.recordNotice r]
    if let some file := file then file.putStr (r.jsonText ++ "\n")
  if let some t := job.thermal then
    for n in e.tended do
      let look ← filesAt (t.zones.map (Thermal.path t.root))
      tell filter (t.afterIteration look n)
  return { e with received := e.received.map fun _ => #[], tended := #[] }

/-- Lets all cores make one step, each at its own time. -/
def sweepOnce {plan : Plan} (e : Experiment plan Stopwatch Benchmark) :
    IO (Experiment plan Stopwatch Benchmark) :=
  (List.finRange plan.shape.cores).foldlM (fun e core => do
    let now := (← IO.monoNanosNow).toUInt64
    return e.step core false fun _ => now) e

/-- Carries an experiment on until all cores have ended. -/
partial def carryOn (filter : Notice.Filter) (job : Job) (file : Option IO.FS.Handle)
    (e : Experiment job.plan Stopwatch Benchmark) :
    IO (Experiment job.plan Stopwatch Benchmark) := do
  let e ← handOn filter job file (← sweepOnce e)
  if e.isOver then return e else carryOn filter job file e

/-- Carries out an experiment that is ready. -/
def carryOut (filter : Notice.Filter) (job : Job) (file : Option IO.FS.Handle) : IO UInt32 := do
  match Experiment.launch job.plan job.equipment 1 with
  | .error e => fail (.unknownWorkload e.name e.known)
  | .ok e =>
    match (← carryOn filter job file e).report? with
    | none => return 0
    | some (.error failure) => fail (.core failure)
    | some (.ok report) => do
      tell filter (Job.closingNotices report)
      if let some file := file then file.flush
      return 0

/-- Measures. -/
def measure (args : List String) : IO UInt32 := do
  match MeasureRequest.grammar.read args with
  | .error refusal => decline (MeasureRequest.grammar.usage "measure") refusal
  | .ok r =>
    let names ← namesIn Thermal.systemRoot
    let zones := (names.toOption.getD []).map (Thermal.path Thermal.systemRoot)
    let look ← filesAt (r.config.toList ++ zones)
    match r.begin ⟨look, fun _ => names, List.range coreLimit⟩ with
    | .error trouble => fail trouble
    | .ok (.shown text) => do
      IO.print text
      return 0
    | .ok (.job job) => do
      let filter ← filterFromEnvironment
      tell filter job.openingNotices
      match job.json with
      | none => carryOut filter job none
      | some path =>
        try carryOut filter job (some (← IO.FS.Handle.mk path .write))
        catch e => fail (.file (faultOf e))

/-! ### Summarizing -/

/-- What the program says about its arguments. -/
def summaryUsage : String :=
  SummaryRequest.rowsGrammar.usage "summarize" ++ "\n" ++
    SummaryRequest.comparisonGrammar.usage "diff"

/-- Summarizes captures. -/
def summarize (args : List String) : IO UInt32 := do
  match SummaryRequest.ofArguments args with
  | .error refusal => decline summaryUsage refusal
  | .ok r =>
    match r.answer (← filesAt r.files) with
    | .error trouble => fail trouble
    | .ok (.shown text) => do
      IO.print text
      return 0
    | .ok (.written path content) =>
      try
        IO.FS.writeFile path content
        return 0
      catch e => fail (.file (faultOf e))

end Lockstep.CommandLine

/-- Measures or summarizes, as the first argument says. -/
def main : List String → IO UInt32
  | "measure" :: args => Lockstep.CommandLine.measure args
  | args => Lockstep.CommandLine.summarize args
