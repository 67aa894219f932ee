import Lockstep.Experiment.Basic
import Lockstep.Proofs.Attempt

/-!
# What attempts on a runner leave alone

Whatever a runner does in an iteration, it keeps its core, its label, its stagger and the number of
its iterations; only `Runner.finish` counts an iteration as over.  So a record tells what the runner
was built with, whatever the counters and the workload do and whether or not they stop half-way.
-/

namespace Lockstep

namespace Runner

variable {P W : Type}

/-- What a runner keeps during an iteration. -/
def course (r : Runner P W) : CoreId × String × Nat × Stagger × UInt64 :=
  (r.core, r.label, r.cores, r.stagger, r.completed)

/-- The number of the iterations is part of the course. -/
lemma completed_eq {r r' : Runner P W} (h : r'.course = r.course) : r'.completed = r.completed := by
  simp only [course, Prod.mk.injEq] at h
  exact h.2.2.2.2

/-- An iteration more is counted as long as the limit is not reached. -/
lemma toNat_iteration {r : Runner P W} {limit : UInt64} (h : r.completed < limit) :
    r.iteration.toNat = r.completed.toNat + 1 := by
  have hlt := UInt64.lt_iff_toNat_lt.mp h
  have hlimit := limit.toNat_lt
  rw [iteration, UInt64.toNat_add]
  exact Nat.mod_eq_of_lt (by
    change r.completed.toNat + 1 < _
    omega)

/-- Preparing an iteration leaves the course alone. -/
lemma preserves_prepare [Workload W] : (prepare : Attempt (Runner P W) Unit).Preserves course := by
  refine (Attempt.Preserves.look _).bind fun r => (Attempt.Preserves.take _ _).bind fun _ => ?_
  refine (Attempt.Preserves.within ?_ _).bind fun _ => Attempt.Preserves.change ?_
  · exact fun _ _ => rfl
  · exact fun _ => rfl

/-- Beginning to measure leaves alone all that does not look at the bracket. -/
lemma preserves_startMeasuring_of [Counters P] {γ : Type} {f : Runner P W → γ}
    (h : ∀ b r, f { r with bracket := b } = f r) (now : Clock → UInt64) :
    (startMeasuring now : Attempt (Runner P W) Unit).Preserves f :=
  (Attempt.Preserves.look _).bind fun _ => Attempt.Preserves.within h _

/-- Beginning to measure leaves the course alone. -/
lemma preserves_startMeasuring [Counters P] (now : Clock → UInt64) :
    (startMeasuring now : Attempt (Runner P W) Unit).Preserves course :=
  preserves_startMeasuring_of (fun _ _ => rfl) now

/-- Running the workload leaves the course alone. -/
lemma preserves_runWorkload [Workload W] :
    (runWorkload : Attempt (Runner P W) Unit).Preserves course := by
  refine Attempt.Preserves.within ?_ _
  exact fun _ _ => rfl

/-- Measuring no longer leaves alone all that does not look at the bracket. -/
lemma preserves_stopMeasuring_of [Counters P] [Workload W] {γ : Type} {f : Runner P W → γ}
    (h : ∀ b r, f { r with bracket := b } = f r) (now : Clock → UInt64) :
    (stopMeasuring now : Attempt (Runner P W) Record).Preserves f := by
  refine (Attempt.Preserves.look _).bind fun _ => (Attempt.Preserves.within h _).bind fun m => ?_
  exact (Attempt.Preserves.look _).bind fun _ => Attempt.Preserves.pure _ _

/-- Measuring no longer leaves the course alone. -/
lemma preserves_stopMeasuring [Counters P] [Workload W] (now : Clock → UInt64) :
    (stopMeasuring now : Attempt (Runner P W) Record).Preserves course :=
  preserves_stopMeasuring_of (fun _ _ => rfl) now

/-- The record of an iteration is the one that the runner makes of the measurement. -/
lemma stopMeasuring_eq_ok [Counters P] [Workload W] {now : Clock → UInt64}
    {r r' : Runner P W} {record : Record}
    (h : (stopMeasuring now).on r = (.ok record, r')) :
    ∃ m b, (Bracket.closing (now r.clock)).on r.bracket = (.ok m, b) ∧
      r' = { r with bracket := b } ∧ record = r'.record m := by
  obtain ⟨r₀, r₁, hlook, h⟩ := Attempt.on_bind_eq_ok h
  obtain ⟨rfl, rfl⟩ : r = r₀ ∧ r = r₁ := by simpa using hlook
  obtain ⟨m, r₂, hclosing, h⟩ := Attempt.on_bind_eq_ok h
  rw [Attempt.on_within, Prod.mk.injEq] at hclosing
  obtain ⟨r₃, r₄, hlook, h⟩ := Attempt.on_bind_eq_ok h
  obtain ⟨rfl, rfl⟩ : r₂ = r₃ ∧ r₂ = r₄ := by simpa using hlook
  obtain ⟨rfl, rfl⟩ : r₂.record m = record ∧ r₂ = r' := by simpa using h
  exact ⟨m, _, Prod.ext hclosing.1 rfl, hclosing.2.symm, rfl⟩

end Runner

end Lockstep
