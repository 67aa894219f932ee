import Lockstep.Counters.Stopwatch

/-!
# Counters by name

A configuration names the counters to measure with.  The stopwatch is always there; the others
belong to other processors or need the help of the system.
-/

namespace Lockstep.Counters

/-- Why a name gives no counters. -/
inductive Refusal where
  | unknown (name : String)
  /-- The counters exist on other processors only. -/
  | otherProcessor (name : String)
  /-- The system does not hand its counters out. -/
  | withheld (name : String)
  deriving DecidableEq, Repr

/-- The sentence shown for a name that gives no counters. -/
def Refusal.message : Refusal → String
  | .unknown name => Text.quoted name ++ " is not a valid counter name"
  | .otherProcessor name => "the `" ++ name ++ "` counter is only supported on aarch64"
  | .withheld name => "the `" ++ name ++ "` counter is not available"

/-- The name of the stopwatch. -/
def stopwatchName : String := "wall-time"

/-- What the stopwatch counts. -/
def stopwatchUnit : String := "ns"

/-- The counters of a name. -/
def ofName (name : String) : Except Refusal Stopwatch :=
  if name = stopwatchName then .ok {}
  else if name = "pmu" then .error (.otherProcessor name)
  else if name = "perf" then .error (.withheld name)
  else .error (.unknown name)

end Lockstep.Counters
