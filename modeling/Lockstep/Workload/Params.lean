import Lockstep.Config
import Lockstep.Memory

/-!
# Parameters of workloads

A workload is made for an input of a certain size, and what is random about the input follows from a
seed.  The cores of an experiment take consecutive seeds.
-/

namespace Lockstep

/-- What a workload is made from. -/
structure WorkloadParams where
  /-- The size of the input, if it is not the workload's own default. -/
  inputSize : Option UInt64
  seed : UInt64
  deriving DecidableEq, Repr, Inhabited

namespace WorkloadParams

/-- Why a workload cannot be made. -/
inductive Refusal where
  | emptyInput
  /-- The cells of a square matrix cannot be counted. -/
  | matrix (dimension : UInt64)
  /-- The records of an array cannot be numbered. -/
  | records (count : UInt64)
  /-- The input would not fit into any memory. -/
  | noRoom
  /-- Nothing is refused, but filling the input stops half-way. -/
  | stops (fault : Fault)
  /-- The workload has a reason of its own. -/
  | other (reason : String)
  deriving DecidableEq, Repr

/-- The sentence shown for a workload that cannot be made. -/
def Refusal.message : Refusal → String
  | .emptyInput => "input size must be at least 1"
  | .matrix n => n.toNat.repr ++ "x" ++ n.toNat.repr ++ " matrix is too large"
  | .records n => n.toNat.repr ++ " records do not fit a 32-bit index"
  | .noRoom => "capacity overflow"
  | .stops _ => "input cannot be filled"
  | .other reason => reason

/-- The size of the input, which is at least one. -/
def size (params : WorkloadParams) (default : UInt64) : Except Refusal UInt64 :=
  match params.inputSize with
  | some n => if n = 0 then .error .emptyInput else .ok n
  | none => .ok default

/-- The bytes of a number of thirty-two bits. -/
def wordBytes : Nat := 4

/-- Makes sure that the input, which consists of so many numbers of thirty-two bits, can be
addressed. -/
def checkRoom (words : Nat) : Except Refusal Unit :=
  if isAddressable (wordBytes * words) then .ok () else .error .noRoom

end WorkloadParams

/-- The parameters for the workload of a core. -/
def Config.params? (c : Config) (core : Nat) : Option WorkloadParams :=
  c.cores[core]?.map fun entry => ⟨entry.inputSize, c.seed + UInt64.ofNat core⟩

end Lockstep
