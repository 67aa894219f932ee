import Lockstep.Clock
import Lockstep.Workload.Params

/-!
# Workloads

A workload is what a core runs in every iteration.  It is prepared first, which is not measured, and
then run once.  Both may stop half-way, and a run may let the core's simulated time pass.
-/

namespace Lockstep

/-- Something that can be run again and again. -/
class Workload (W : Type) where
  name : W → String
  prepare : Attempt W Unit
  run : Attempt (W × Clock) Unit

end Lockstep
