import Lockstep.Notice
import Lockstep.Workload.Benchmark

/-!
# Registries

A registry knows how to make the workloads of its names.  Registering a name again replaces what the
name stood for.
-/

namespace Lockstep

/-- How a workload is made from parameters. -/
abbrev Factory (W : Type) : Type := WorkloadParams → Except WorkloadParams.Refusal W

/-- The workloads that can be made, by name.  Every name occurs once. -/
structure Registry (W : Type) where
  entries : List (String × Factory W)

namespace Registry

variable {W : Type}

/-- Knows no names. -/
def empty : Registry W := ⟨[]⟩

/-- The name is known. -/
def contains (r : Registry W) (name : String) : Bool :=
  r.entries.any (·.1 == name)

/-- Adds a name, or replaces what it stands for. -/
def register (r : Registry W) (name : String) (factory : Factory W) : Registry W :=
  ⟨(name, factory) :: r.entries.filter (·.1 != name)⟩

/-- What is said when a name is registered. -/
def registerNotices (r : Registry W) (name : String) : List Notice :=
  if r.contains name then
    [.internal .debug ("WorkloadRegistry::register: replacing workload " ++ Text.quoted name)]
  else []

/-- The names in ascending order. -/
def names (r : Registry W) : List String :=
  (r.entries.map (·.1)).mergeSort

/-- Why a workload cannot be made. -/
inductive Refusal where
  | unknown (name : String) (known : List String)
  | failed (name : String) (cause : WorkloadParams.Refusal)
  deriving DecidableEq, Repr

/-- What is said about a name that is not known. -/
def unknownText (name : String) (known : List String) : String :=
  "unknown workload " ++ Text.quoted name ++ ", expected one of: " ++ Text.commaSeparated known

/-- The sentence shown for a workload that cannot be made. -/
def Refusal.message : Refusal → String
  | .unknown name known => unknownText name known
  | .failed name cause =>
    "failed to create workload " ++ Text.quoted name ++ ": " ++ cause.message

/-- Nothing is refused, but the making stops half-way. -/
def Refusal.fault? : Refusal → Option Fault
  | .failed _ .noRoom => some .capacity
  | .failed _ (.stops fault) => some fault
  | _ => none

/-- Makes the workload of a name. -/
def make (r : Registry W) (name : String) (params : WorkloadParams) : Except Refusal W :=
  match r.entries.lookup name with
  | none => .error (.unknown name r.names)
  | some factory =>
    match factory params with
    | .ok w => .ok w
    | .error cause => .error (.failed name cause)

/-- The workloads that are always there. -/
def builtIn : Registry Benchmark where
  entries :=
    [("linear_array_write", fun p => (ArrayWalk.ofParams .write false p).map .walk),
      ("linear_array_read", fun p => (ArrayWalk.ofParams .read false p).map .walk),
      ("random_array_read", fun p => (ArrayWalk.ofParams .read true p).map .walk),
      ("random_array_write", fun p => (ArrayWalk.ofParams .write true p).map .walk),
      ("bsort", fun p => (BubbleSort.ofParams p).map .sort),
      ("matmult", fun p => (MatrixProduct.ofParams p).map .multiply),
      ("countdown", Benchmark.ofCount)]

/-- The same workloads and the simulated one. -/
def withSimulated : Registry Benchmark :=
  builtIn.register "simulated" Benchmark.ofTicks

end Registry

end Lockstep
