import Lockstep.Attempt

/-!
# Failures

A core ends with a failure when it cannot be set up, when it stops half-way, or when it was ready
but another core was not.
-/

namespace Lockstep

/-- Why a core ends early. -/
inductive Cause where
  /-- Its setup was refused, for a reason. -/
  | refused (reason : String)
  /-- It stopped half-way. -/
  | stopped
  /-- There was no way to run anything on it, for a reason. -/
  | unspawned (reason : String)
  /-- Another core was not set up. -/
  | aborted
  deriving DecidableEq, Repr

namespace Cause

/-- The sentence shown for a core that ends early. -/
def message (core : Nat) : Cause → String
  | refused reason => "core " ++ core.repr ++ ": " ++ reason
  | stopped => "core " ++ core.repr ++ " panicked"
  | unspawned reason => "failed to spawn thread for core " ++ core.repr ++ ": " ++ reason
  | aborted => "core " ++ core.repr ++ ": aborted, another core failed to start"

/-- Why a core ends early when it stops with a fault. -/
def ofFault (_ : Fault) : Cause :=
  stopped

end Cause

/-- A core that ended early. -/
structure Failure where
  core : Nat
  cause : Cause
  deriving DecidableEq, Repr

/-- The sentence shown for a core that ended early. -/
def Failure.message (f : Failure) : String :=
  f.cause.message f.core

end Lockstep
