import Lockstep.Core
import Lockstep.Event
import Lockstep.Text.Blank

/-!
# Configurations

A configuration says which workload runs on which core, what is counted there, and how the cores
are brought together.  Everything but the workloads has a default, and the default configuration
runs three workloads.

The limits of a configuration are checked once, by `Config.validate`, before anything is built from
it.
-/

namespace Lockstep

/-- What one core does. -/
structure CoreConfig where
  workload : String
  /-- The size of the workload's input, if it is not the workload's own default. -/
  inputSize : Option UInt64 := none
  /-- The events to count, by name or number, in the order of their slots. -/
  events : List String := []
  deriving DecidableEq, Repr, Inhabited

/-- How the followers' starts drift away from the leader's.  Every few iterations the offset grows
by a step, and each unit of the offset delays a follower by a number of countdown steps. -/
structure StaggerConfig where
  iterationsPerStep : UInt64 := 1000
  offsetStep : UInt64 := 0
  delayStepCountdown : UInt64 := 1000
  deriving DecidableEq, Repr, Inhabited

/-- What is done to the caches before an iteration. -/
inductive CacheMode where
  | none
  | evict
  deriving DecidableEq, Repr, Inhabited

/-- How the caches are conditioned. -/
structure CacheConfig where
  mode : CacheMode := .evict
  /-- The buffer of the leader, which covers every cache. -/
  fullBytes : UInt64 := 2097152
  /-- The buffer of a follower, which covers its private caches. -/
  privateBytes : UInt64 := 65536
  deriving DecidableEq, Repr, Inhabited

/-- The configuration of an experiment. -/
structure Config where
  /-- Copied into every record. -/
  label : String := "DEFAULT"
  /-- One entry per participating core, the leader first. -/
  cores : List CoreConfig :=
    [⟨"matmult", none, []⟩, ⟨"bsort", none, []⟩, ⟨"linear_array_write", some 131072, []⟩]
  /-- The name of the counters to measure with. -/
  counter : String := "wall-time"
  maskInterrupts : Bool := false
  channels : UInt64 := 1
  stagger : StaggerConfig := {}
  cache : CacheConfig := {}
  /-- The leader reports the cost of countdowns before the first iteration. -/
  calibrateCountdown : Bool := false
  /-- The run ends after that many iterations, or never. -/
  iterations : Option UInt64 := none
  /-- The seed of the leader's workload; every further core takes the next one. -/
  seed : UInt64 := 0
  deriving DecidableEq, Repr

namespace Config

instance : Inhabited Config := ⟨{}⟩

/-- Why a configuration is refused. -/
inductive Invalid where
  | cores (count : Nat)
  | label (label : String)
  | channels (count : UInt64)
  | iterationsPerStep
  | workload (core : Nat) (name : String)
  | eventCount (core : Nat) (count : Nat)
  | event (core : Nat) (text : String)
  deriving DecidableEq, Repr

/-- The sentence shown for a configuration that is refused. -/
def Invalid.message : Invalid → String
  | .cores n => n.repr ++ " cores configured, expected 1 to " ++ coreLimit.repr
  | .label text => "label " ++ Text.quoted text ++ " must be non-empty and without whitespace"
  | .channels n =>
    n.toNat.repr ++ " barrier channels configured, expected 1 or " ++ channelLimit.repr
  | .iterationsPerStep => "stagger.iterations_per_step must be at least 1"
  | .workload core name =>
    "core " ++ core.repr ++ ": invalid workload name " ++ Text.quoted name
  | .eventCount core count =>
    "core " ++ core.repr ++ ": " ++ count.repr ++ " events configured, at most " ++
      Event.slotLimit.repr ++ " can be counted"
  | .event core text => "core " ++ core.repr ++ ": " ++ Event.Code.unknownMessage text

end Config

/-- The events of a core, or the first text that is no event. -/
def CoreConfig.eventCodes (c : CoreConfig) : Except String (List Event.Code) :=
  c.events.mapM fun event =>
    match Event.Code.ofString? event with
    | some code => .ok code
    | none => .error event

/-- Checks the entry of one core. -/
def CoreConfig.validate (c : CoreConfig) (core : Nat) : Except Config.Invalid Unit :=
  if !Text.isWord c.workload.toList then .error (.workload core c.workload)
  else if Event.slotLimit < c.events.length then .error (.eventCount core c.events.length)
  else
    match c.eventCodes with
    | .ok _ => .ok ()
    | .error text => .error (.event core text)

namespace Config

/-- Checks the entries of the cores, counted from the given one. -/
def validateCores : Nat → List CoreConfig → Except Invalid Unit
  | _, [] => .ok ()
  | core, c :: cs =>
    match c.validate core with
    | .ok _ => validateCores (core + 1) cs
    | .error e => .error e

/-- Checks a configuration against everything that could go wrong with it later. -/
def validate (c : Config) : Except Invalid Unit :=
  if c.cores.isEmpty ∨ coreLimit < c.cores.length then .error (.cores c.cores.length)
  else if !Text.isWord c.label.toList then .error (.label c.label)
  else if c.channels = 0 ∨ channelLimit < c.channels.toNat then .error (.channels c.channels)
  else if c.stagger.iterationsPerStep = 0 then .error .iterationsPerStep
  else validateCores 0 c.cores

end Config

end Lockstep
