import Lockstep.Workload.ArrayWalk
import Lockstep.Workload.Basic
import Lockstep.Workload.BubbleSort
import Lockstep.Workload.MatrixProduct

/-!
# Benchmarks

The workloads that an experiment can name, together with stand-ins that have no purpose but to be
measured: one that lets simulated time pass, one that stops in a certain run, and one that does
nothing under any name.
-/

namespace Lockstep

/-- A workload that can be named. -/
inductive Benchmark where
  | sort (state : BubbleSort)
  | multiply (state : MatrixProduct)
  | walk (state : ArrayWalk)
  /-- A busy wait. -/
  | countdown (count : UInt64)
  /-- Lets that many ticks of the core's clock pass. -/
  | simulated (ticks : UInt64)
  /-- Stops in the run after so many that succeed. -/
  | failing (remaining : UInt64)
  | idle (name : String)

namespace Benchmark

/-- The name of a workload. -/
def name : Benchmark → String
  | sort _ => "bsort"
  | multiply _ => "matmult"
  | walk state => state.name
  | countdown _ => "countdown"
  | simulated _ => "simulated"
  | failing _ => "panic_at"
  | idle name => name

/-- Gets a workload ready for a run. -/
def prepared : Benchmark → Benchmark
  | sort state => sort state.prepare
  | walk state => walk state.prepare
  | w => w

/-- Runs a workload that is nothing but a state. -/
def runState {σ : Type} (ofState : σ → Benchmark) (run : Attempt σ Unit) (state : σ) :
    Attempt (Benchmark × Clock) Unit := do
  let (result, state) := run.on state
  Attempt.change fun s => (ofState state, s.2)
  Attempt.take result

/-- Runs a workload once. -/
def runOnce : Attempt (Benchmark × Clock) Unit := do
  match (← Attempt.look).1 with
  | sort state => runState sort BubbleSort.run state
  | multiply state => runState multiply MatrixProduct.run state
  | walk state => runState walk ArrayWalk.run state
  | countdown _ => return
  | simulated ticks => (Clock.advance ticks).within Prod.snd fun c s => (s.1, c)
  | failing remaining =>
    if remaining = 0 then Attempt.stop (.stopped "workload failed")
    else Attempt.change fun s => (failing (remaining - 1), s.2)
  | idle _ => return

instance : Workload Benchmark where
  name := name
  prepare := Attempt.change prepared
  run := runOnce

/-- The length of a countdown unless another one is wanted. -/
def defaultCount : UInt64 := 1000000

/-- The ticks of a simulated run unless others are wanted. -/
def defaultTicks : UInt64 := 1000

/-- A busy wait of the wanted length. -/
def ofCount (params : WorkloadParams) : Except WorkloadParams.Refusal Benchmark :=
  (params.size defaultCount).map countdown

/-- A simulated run that takes the wanted number of ticks. -/
def ofTicks (params : WorkloadParams) : Except WorkloadParams.Refusal Benchmark :=
  (params.size defaultTicks).map simulated

end Benchmark

end Lockstep
