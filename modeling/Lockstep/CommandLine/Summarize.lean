import Lockstep.Analysis.Comparison
import Lockstep.CommandLine.Arguments
import Lockstep.CommandLine.Trouble
import Lockstep.Decimal.Fixed
import Lockstep.Text.Table

/-!
# Summarizing captures

The rows of one capture, or the differences between two of them, are shown as a table or written to
a file as JSON.
-/

namespace Lockstep.CommandLine

/-! ### Requests -/

/-- How captures are read and where the result goes. -/
structure Reading where
  /-- The first iterations of every core, which do not count. -/
  warmup : UInt64 := 0
  /-- A file for the result, which is shown otherwise. -/
  json : Option String := none
  deriving DecidableEq, Repr

/-- What captures are read for. -/
inductive SummaryRequest where
  /-- The rows of a capture. -/
  | rows (file : String) (grouping : Grouping) (reading : Reading)
  /-- The differences between two captures. -/
  | comparison (base change : String) (reading : Reading)
  deriving DecidableEq, Repr

namespace SummaryRequest

/-- What options and operands have said. -/
structure Parts where
  files : List String := []
  grouping : Grouping := .run
  reading : Reading := {}

/-- The option for the first iterations. -/
def warmupFlag : Flag Parts :=
  .converted "warmup" number? fun n p => { p with reading := { p.reading with warmup := n } }

/-- The option for a file of the result. -/
def jsonFlag : Flag Parts :=
  .converted "json" path? fun path p => { p with reading := { p.reading with json := some path } }

/-- The path of a capture. -/
def capture (name : String) : Operand Parts :=
  ⟨name, fun s p => (path? s).map fun path => { p with files := p.files ++ [path] }⟩

/-- The arguments for the rows of a capture. -/
def rowsGrammar : Grammar Parts where
  flags := [.switch "by-workload" fun p => { p with grouping := .workload }, warmupFlag, jsonFlag]
  operands := [capture "FILE"]
  blank := {}

/-- The arguments for a comparison. -/
def comparisonGrammar : Grammar Parts where
  flags := [warmupFlag, jsonFlag]
  operands := [capture "BASE", capture "CHANGE"]
  blank := {}

/-- The commands of the program, and that for help. -/
def commands : List String := ["summarize", "diff", "help"]

/-- What the arguments ask for. -/
def ofArguments : List String → Except Refusal SummaryRequest
  | [] => .error .misuse
  | "summarize" :: args => do
    let p ← rowsGrammar.read args
    match p.files with
    | [file] => .ok (rows file p.grouping p.reading)
    | _ => .error .misuse
  | "diff" :: args => do
    let p ← comparisonGrammar.read args
    match p.files with
    | [base, change] => .ok (comparison base change p.reading)
    | _ => .error .misuse
  | ["help"] => .error .help
  | ["help", command] => .error (if commands.contains command then .help else .misuse)
  | argument :: _ =>
    match Argument.ofString argument with
    | .long "help" none => .error .help
    | .short ('h' :: _) => .error .help
    | _ => .error .misuse

/-- The captures that are read. -/
def files : SummaryRequest → List String
  | rows file _ _ => [file]
  | comparison base change _ => [base, change]

end SummaryRequest

/-! ### Tables -/

/-- A double with one place. -/
def oneDecimal (x : Float) : String :=
  Decimal.fixed 1 false x

/-- An integer that always has a sign. -/
def signedText (n : Int) : String :=
  (if n < 0 then "" else "+") ++ n.repr

/-- The heading of the table of an analysis. -/
def analysisHeading : List String :=
  ["Label", "Workload", "Cores", "Core", "Offset", "Iterations", "Min", "Median", "Mean", "Max",
    "Std dev", "Events (mean)"]

/-- A row of the table of an analysis.  A hyphen stands for what was left out. -/
def rowCells (r : Row) : List String :=
  [r.key.label.getD "-", r.key.workload, (r.key.cores.map (·.toNat.repr)).getD "-",
    r.key.core.toNat.repr, r.key.offset.toNat.repr, r.iterations.repr, r.min.toNat.repr,
    oneDecimal r.median, oneDecimal r.mean, r.max.toNat.repr, oneDecimal r.deviation,
    Text.commaSeparated (r.events.map fun e => e.code.text ++ ": " ++ oneDecimal e.mean)]

/-- An analysis as it is shown. -/
def analysisText (a : Analysis) : Except Fault String := do
  let table ← Text.Table.ofTexts (analysisHeading :: a.rows.map rowCells)
  return table.text ++ "Records: " ++ a.records.repr ++ "\n" ++
    (if a.malformed = 0 then ""
      else "Malformed lines skipped: " ++ a.malformed.repr ++ "\n")

/-- The heading of the table of a comparison. -/
def comparisonHeading : List String :=
  ["Workload", "Core", "Offset", "Iterations", "Median", "Median change (%)", "Mean",
    "Mean change (%)", "Min", "Max"]

/-- A row of the table of a comparison. -/
def changeCells (c : RowChange) : List String :=
  [c.key.workload, c.key.core.toNat.repr, c.key.offset.toNat.repr, signedText c.iterations,
    Decimal.fixed 1 true c.median, Decimal.fixed 2 true c.medianChange,
    Decimal.fixed 1 true c.mean, Decimal.fixed 2 true c.meanChange, signedText c.min.toInt,
    signedText c.max.toInt]

/-- A comparison as it is shown. -/
def comparisonText (c : Comparison) : Except Fault String := do
  let table ← Text.Table.ofTexts (comparisonHeading :: c.rows.map changeCells)
  return table.text ++ "Records: " ++ signedText c.records ++ "\n"

/-! ### Answers -/

/-- What a request comes to: text that is shown, or the content of a file. -/
inductive Answer where
  | shown (text : String)
  | written (path content : String)
  deriving DecidableEq, Repr

/-- Writes the JSON text to the wanted file, or shows the other text. -/
def Reading.answer (r : Reading) (json : Json.Value) (text : Except Fault String) :
    Except Trouble Answer :=
  match r.json with
  | some path => .ok (.written path json.text)
  | none => (text.mapError .crash).map .shown

/-- The analysis of a capture, of which some records have to be left. -/
def analysisOf (look : String → File) (path : String) (grouping : Grouping) (warmup : UInt64) :
    Except Trouble Analysis := do
  let bytes ←
    match look path with
    | .absent fault => .error (.unopened path fault)
    | file => file.content.mapError .file
  let c ← (Capture.ofBytes bytes).mapError .file
  let c := c.skipWarmup warmup
  if c.records.isEmpty then .error (.noRecords path)
  else (Analysis.ofCapture grouping c).mapError .crash

/-- Answers a request from the files under the paths that it names. -/
def SummaryRequest.answer (look : String → File) : SummaryRequest → Except Trouble Answer
  | .rows file grouping r => do
    let a ← analysisOf look file grouping r.warmup
    r.answer a.json (analysisText a)
  | .comparison base change r => do
    let before ← analysisOf look base .workload r.warmup
    let after ← analysisOf look change .workload r.warmup
    let c ← (Comparison.ofAnalyses before after).mapError .crash
    r.answer c.json (comparisonText c)

end Lockstep.CommandLine
