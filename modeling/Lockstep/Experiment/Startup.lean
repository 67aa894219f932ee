/-!
# Starting together

Before the first round every core is set up, which can fail.  The cores then arrive, one by one, and
a core that is ready waits until all of them have arrived.  If one of them has failed nobody goes
on; which core was the first to say so is kept.

A core arrives by at most three accesses to what the cores share: one that failed tries to note
itself as the first of its kind and says that somebody has failed, before it is counted like all
others.  Whoever has seen that all cores are counted looks once whether somebody has failed.
-/

namespace Lockstep

/-- What the cores share until they have started. -/
structure Startup (n : Nat) where
  /-- The cores that have arrived. -/
  arrived : Nat := 0
  /-- A core has failed. -/
  failed : Bool := false
  /-- The core that was the first to fail. -/
  firstFailure : Option (Fin n) := none
  deriving DecidableEq, Repr

/-- Where the arrival of a core stands. -/
inductive Arriving where
  /-- About to note itself as the first core that failed. -/
  | claim
  /-- About to say that a core has failed. -/
  | warn
  /-- About to be counted. -/
  | count
  deriving DecidableEq, Repr

namespace Arriving

/-- Where a core begins to arrive. -/
def start (ready : Bool) : Arriving :=
  if ready then count else claim

/-- One access of a core that arrives, and where its arrival stands then; nowhere when the core is
counted. -/
def step {n : Nat} (core : Fin n) (s : Startup n) : Arriving → Startup n × Option Arriving
  | claim => ({ s with firstFailure := s.firstFailure <|> some core }, some warn)
  | warn => ({ s with failed := true }, some count)
  | count => ({ s with arrived := s.arrived + 1 }, none)

end Arriving

end Lockstep
