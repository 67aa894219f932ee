/-!
# Notices

What a program says beside its answers.  Each notice has a level, and a topic by which it can be
kept or left out.
-/

namespace Lockstep

/-- How important a notice is, the most important level first. -/
inductive Level where
  | error
  | warn
  | info
  | debug
  | trace
  deriving DecidableEq, Repr

namespace Level

/-- The name of a level. -/
def name : Level → String
  | .error => "ERROR"
  | .warn => "WARN"
  | .info => "INFO"
  | .debug => "DEBUG"
  | .trace => "TRACE"

/-- How much detail a level stands for. -/
def detail : Level → Nat
  | .error => 1
  | .warn => 2
  | .info => 3
  | .debug => 4
  | .trace => 5

end Level

/-- Something that is said beside the answers. -/
structure Notice where
  level : Level
  /-- What the notice is about. -/
  topic : String
  message : String
  deriving DecidableEq, Repr

namespace Notice

/-- The topic of measured iterations. -/
def resultsTopic : String := "corunners::results"

/-- A notice about how measuring goes. -/
def internal (level : Level) (message : String) : Notice :=
  ⟨level, "corunners", message⟩

/-- A notice on a line of its own. -/
def text (n : Notice) : String :=
  n.level.name ++ " " ++ n.message

end Notice

end Lockstep
