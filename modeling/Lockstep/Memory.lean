import Lockstep.Attempt

/-!
# Memory

A block of memory is addressed by signed numbers of sixty-four bits, so there is a bound on its
bytes that no machine exceeds.  Larger blocks are turned down before any memory is asked for.
-/

namespace Lockstep

/-- A block of memory has fewer bytes than this. -/
def blockLimit : Nat := UInt64.size / 2

/-- A block of that many bytes can be addressed. -/
def isAddressable (bytes : Nat) : Bool :=
  decide (bytes < blockLimit)

/-- What stops a computation that asks for a block which cannot be addressed. -/
def Fault.capacity : Fault :=
  .stopped "capacity overflow"

end Lockstep
