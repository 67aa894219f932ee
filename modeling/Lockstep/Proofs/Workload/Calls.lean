import Lockstep.Proofs.Attempt
import Lockstep.Workload.Benchmark

/-!
# Calls to workloads

Whoever measures a workload prepares it and runs it, in any order and as often as it likes.  What a
workload has become by then is told by the calls that were made, if each call keeps an invariant of
the calls and the workload's state; `Benchmark.IsMadeOf.performs` turns the one into the other.
-/

namespace Lockstep

namespace Workload

/-- What can be asked of a workload. -/
inductive Call where
  | prepare
  | run
  deriving DecidableEq, Repr

variable {W : Type} [Workload W]

/-- Makes one call to a workload in the time of its core. -/
def perform : Call → Attempt (W × Clock) Unit
  | .prepare => (Workload.prepare : Attempt W Unit).within Prod.fst fun w s => (w, s.2)
  | .run => Workload.run

/-- Makes calls to a workload one after the other. -/
def performAll (calls : List Call) : Attempt (W × Clock) Unit :=
  calls.forM perform

end Workload

namespace Benchmark

variable {σ : Type} {ofState : σ → Benchmark} {prepare : σ → σ} {run : Attempt σ Unit}

/-- What is done to the workloads of a kind is done to their states and takes no simulated time. -/
structure IsMadeOf (ofState : σ → Benchmark) (prepare : σ → σ) (run : Attempt σ Unit) : Prop where
  prepared : ∀ state, (ofState state).prepared = ofState (prepare state)
  runOnce : ∀ state clock,
    runOnce.on (ofState state, clock) = ((run.on state).1, (ofState (run.on state).2, clock))

/-- Sorting is done to the array and the source of its numbers. -/
lemma isMadeOf_sort : IsMadeOf sort BubbleSort.prepare BubbleSort.run :=
  ⟨fun _ => rfl, fun _ _ => rfl⟩

/-- Multiplying is done to the matrices, which need no preparation. -/
lemma isMadeOf_multiply : IsMadeOf multiply id MatrixProduct.run :=
  ⟨fun _ => rfl, fun _ _ => rfl⟩

/-- Walking is done to the records and the way through them. -/
lemma isMadeOf_walk : IsMadeOf walk ArrayWalk.prepare ArrayWalk.run :=
  ⟨fun _ => rfl, fun _ _ => rfl⟩

/-- **Calls keep what each call keeps.**  If an invariant of the calls that were made, the last one
first, and of the state holds in the beginning and is kept by preparing and by running, then all
calls succeed, and it holds after them. -/
theorem IsMadeOf.performs (h : IsMadeOf ofState prepare run) {I : List Workload.Call → σ → Prop}
    (hprepare : ∀ made state, I made state → I (.prepare :: made) (prepare state))
    (hrun : ∀ made state, I made state →
      ∃ state', run.on state = (.ok (), state') ∧ I (.run :: made) state')
    {state : σ} (hstart : I [] state) (calls : List Workload.Call) (clock : Clock) :
    ∃ state', (Workload.performAll calls).on (ofState state, clock) =
      (.ok (), (ofState state', clock)) ∧ I calls.reverse state' := by
  let J (made : List Workload.Call) (s : Benchmark × Clock) : Prop :=
    ∃ state, s = (ofState state, clock) ∧ I made state
  have hround : ∀ made, ∀ call ∈ calls, ∀ s, J made s →
      (Workload.perform call).Succeeds s fun _ t => J (call :: made) t := by
    rintro made call - s ⟨state, rfl, hI⟩
    cases call with
    | prepare =>
      have hon : (Workload.perform .prepare).on (ofState state, clock) =
          (.ok (), (ofState (prepare state), clock)) :=
        congrArg (fun w => (Except.ok (), (w, clock))) (h.prepared state)
      exact ⟨(), _, hon, prepare state, rfl, hprepare made state hI⟩
    | run =>
      obtain ⟨state', hstate, hI'⟩ := hrun made state hI
      have hon : (Workload.perform .run).on (ofState state, clock) =
          (.ok (), (ofState state', clock)) := by
        refine (h.runOnce state clock).trans ?_
        rw [hstate]
      exact ⟨(), _, hon, state', rfl, hI'⟩
  obtain ⟨_, _, hon, state', rfl, hI⟩ :=
    Attempt.succeeds_forM_done [] hround ⟨state, rfl, hstart⟩
  rw [List.append_nil] at hI
  exact ⟨state', hon, hI⟩

end Benchmark

end Lockstep
