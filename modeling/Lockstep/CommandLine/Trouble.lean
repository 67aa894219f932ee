import Lockstep.Config.File
import Lockstep.Experiment.Failure
import Lockstep.Workload.Registry

/-!
# Troubles

What can go wrong with a program that has understood its arguments.
-/

namespace Lockstep.CommandLine

/-- Why a program fails. -/
inductive Trouble where
  /-- The file of a configuration gives none. -/
  | config (cause : Config.FileError)
  /-- The configuration is refused. -/
  | invalid (cause : Config.Invalid)
  | unknownWorkload (name : String) (known : List String)
  /-- There are fewer processors than cores. -/
  | fewProcessors (cores available : Nat)
  /-- Not one processor for each core was named. -/
  | processorCount (cores given : Nat)
  | unknownProcessor (processor : Nat) (available : List Nat)
  /-- A core has ended early. -/
  | core (failure : Failure)
  /-- A capture cannot be opened. -/
  | unopened (path : String) (fault : File.Fault)
  /-- No records of a capture are left. -/
  | noRecords (path : String)
  /-- A file cannot be read or written. -/
  | file (fault : File.Fault)
  /-- The program stops half-way. -/
  | crash (fault : Fault)

namespace Trouble

/-- Numbers in brackets. -/
def bracketed (ns : List Nat) : String :=
  "[" ++ Text.commaSeparated (ns.map (·.repr)) ++ "]"

/-- The sentence that tells a trouble; there is none when the program stops half-way. -/
def message : Trouble → String
  | config cause => cause.message
  | invalid cause => cause.message
  | unknownWorkload name known => Registry.unknownText name known
  | fewProcessors cores available =>
    cores.repr ++ " cores configured but only " ++ available.repr ++ " CPUs available"
  | processorCount cores given =>
    cores.repr ++ " cores configured but " ++ given.repr ++ " CPUs given"
  | unknownProcessor processor available =>
    "CPU " ++ processor.repr ++ " is not available, expected one of " ++ bracketed available
  | core failure => failure.message
  | unopened path fault => "opening " ++ path ++ ": " ++ fault.text
  | noRecords path => "no result records in " ++ path
  | file fault => fault.text
  | crash _ => ""

/-- The line that tells a trouble.  A fault of a file is shown with all its parts, and everything
else as a quoted sentence. -/
def line : Trouble → String
  | file fault => "Error: " ++ fault.parts
  | trouble => "Error: " ++ Text.quoted trouble.message

/-- The number by which a program tells its surroundings how it has ended. -/
def status : Trouble → Nat
  | crash _ => 101
  | _ => 1

end Trouble

/-- The number by which a program tells that it does not begin. -/
def misuseStatus : Nat := 2

end Lockstep.CommandLine
