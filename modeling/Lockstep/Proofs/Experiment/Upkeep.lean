import Lockstep.Proofs.Experiment.Ending

/-!
# What a core keeps up

What is known of the bracket and the workload that a core is set up with, and of its runner at each
stage of an iteration, holds throughout an experiment if each thing that the core does leads from
one to the next.  `Upkeep` lists these things one by one, so that whoever shows such an invariant
need not go through the phases again.  No other core can break it, as a core shares none of this.

Nothing is said about a core that has ended, and nothing about how many iterations it has done.
-/

namespace Lockstep

/-- What is known of the bracket and the workload of a core holds, or what is known of its
runner. -/
def Phase.Keeps {P W : Type} (made : Bracket P → W → Prop) (runs : Runner P W → Stage → Prop) :
    Phase P W → Prop
  | arrive setup _ => ∀ b w, setup = .ok (b, w) → made b w
  | await b w => made b w
  | judge b w => made b w
  | furnish b w => made b w
  | iterate runner _ stage => runs runner stage
  | ended _ => True

namespace Experiment

variable {plan : Plan} {P W : Type} [Counters P] [Workload W]

/-- Each thing that a core does leads from what is known before it to what is known after it. -/
structure Upkeep (core : Fin plan.shape.cores) (made : Bracket P → W → Prop)
    (runs : Runner P W → Stage → Prop) : Prop where
  furnish : ∀ {now b w r rows}, made b w → Experiment.furnish now core b w = .ok (r, rows) →
    runs r .rest
  prepare : ∀ {r r'}, runs r .rest → Runner.prepare.on r = (.ok (), r') → runs r' .meet
  meet : ∀ {r}, runs r .meet → runs r .start
  start : ∀ {now r r'}, runs r .start → (Runner.startMeasuring now).on r = (.ok (), r') →
    runs r' .run
  run : ∀ {r r'}, runs r .run → Runner.runWorkload.on r = (.ok (), r') → runs r' .stop
  stop : ∀ {now r r' record}, runs r .stop →
    (Runner.stopMeasuring now).on r = (.ok record, r') → runs r' (.emit record 0)
  emit : ∀ {r record sink}, runs r (.emit record sink) → runs r (.emit record (sink + 1))
  tend : ∀ {r record sink}, runs r (.emit record sink) → runs r .tend
  finish : ∀ {r}, runs r .tend → runs r.finish .rest

variable {e : Experiment plan P W} {core : Fin plan.shape.cores}
  {made : Bracket P → W → Prop} {runs : Runner P W → Stage → Prop}

omit [Counters P] [Workload W] in
/-- An attempt leads to where what is known holds, if it does whenever the attempt succeeds. -/
lemma keeps_attempt {α : Type} {runner : Runner P W} {calibration : List Calibration}
    {next : α → Stage} {a : Attempt (Runner P W) α}
    (h : ∀ x r, a.on runner = (.ok x, r) → runs r (next x)) :
    ((e.attempt core runner calibration next a).phase core).Keeps made runs := by
  unfold Experiment.attempt
  rcases hon : a.on runner with ⟨fault | x, r⟩
  · rw [phase_goTo_self]
    trivial
  · rw [phase_goTo_self]
    exact h x r hon

/-- **A step keeps what is known of the core** that makes it. -/
theorem Upkeep.phase_step (hup : Upkeep core made runs) (h : (e.phase core).Keeps made runs)
    (spurious : Bool) (now : Clock → UInt64) :
    ((e.step core spurious now).phase core).Keeps made runs := by
  cases hphase : e.phase core with
  | arrive setup point =>
    rw [hphase] at h
    simp only [Experiment.step, hphase, phase_goTo_self]
    rcases point.step core e.startup with ⟨startup, _ | point'⟩
    · rcases setup with cause | ⟨b, w⟩
      · trivial
      · exact h b w rfl
    · exact h
  | await b w =>
    rw [hphase] at h
    simp only [Experiment.step, hphase]
    split_ifs
    · rw [hphase]
      exact h
    · rw [phase_goTo_self]
      exact h
  | judge b w =>
    rw [hphase] at h
    simp only [Experiment.step, hphase, phase_goTo_self]
    split_ifs
    · trivial
    · exact h
  | furnish b w =>
    rw [hphase] at h
    simp only [Experiment.step, hphase]
    rcases hfurnish : Experiment.furnish now core b w with fault | ⟨runner, rows⟩
    · rw [phase_goTo_self]
      trivial
    · rw [phase_goTo_self]
      exact hup.furnish h hfurnish
  | iterate runner calibration stage =>
    rw [hphase] at h
    replace h : runs runner stage := h
    simp only [Experiment.step, hphase]
    cases stage with
    | rest =>
      simp only [Experiment.iterateStep]
      split_ifs
      · rw [phase_goTo_self]
        trivial
      · exact keeps_attempt fun _ _ => hup.prepare h
    | meet =>
      simp only [Experiment.iterateStep, phase_goTo_self]
      split_ifs
      · exact hup.meet h
      · exact h
    | start => exact keeps_attempt fun _ _ => hup.start h
    | run => exact keeps_attempt fun _ _ => hup.run h
    | stop => exact keeps_attempt fun _ _ => hup.stop h
    | emit record sink =>
      simp only [Experiment.iterateStep]
      split_ifs
      · rw [phase_goTo_self]
        exact hup.emit h
      · rw [phase_goTo_self]
        exact hup.tend h
    | tend =>
      simp only [Experiment.iterateStep, phase_goTo_self]
      exact hup.finish h
  | ended outcome =>
    simp only [Experiment.step, hphase]
    trivial

section Records

variable {made : Fin plan.shape.cores → Bracket P → W → Prop}
  {runs : Fin plan.shape.cores → Runner P W → Stage → Prop} {told : Record → Prop}

/-- What is known of each core holds, and each record that was received is such as a core tells. -/
structure IsKept (made : Fin plan.shape.cores → Bracket P → W → Prop)
    (runs : Fin plan.shape.cores → Runner P W → Stage → Prop) (told : Record → Prop)
    (e : Experiment plan P W) : Prop where
  phase : ∀ core, (e.phase core).Keeps (made core) (runs core)
  records : ∀ sink records, e.Receives sink records → ∀ r ∈ records, told r

omit [Counters P] [Workload W] in
/-- What is known of what the cores are set up with is known at the start. -/
lemma isKept_start {setups : Vector (Except Cause (Bracket P × W)) plan.shape.cores}
    (h : ∀ core b w, setups.get core = .ok (b, w) → made core b w) (sinks : Nat) :
    (start setups sinks).IsKept made runs told := by
  refine ⟨fun core => ?_, fun sink records hrecords r hr => ?_⟩
  · rw [phase_start]
    exact h core
  · rw [receives_start hrecords] at hr
    exact absurd hr List.not_mem_nil

/-- Whatever core makes a step keeps what is known. -/
lemma IsKept.step (h : e.IsKept made runs told) (hup : ∀ core, Upkeep core (made core) (runs core))
    (htold : ∀ core r record sink, runs core r (.emit record sink) → told record)
    (i : Fin plan.shape.cores) (spurious : Bool) (now : Clock → UInt64) :
    (e.step i spurious now).IsKept made runs told := by
  refine ⟨fun core => ?_, fun sink records hrecords r hr => ?_⟩
  · by_cases hi : core = i
    · subst hi
      exact (hup core).phase_step (h.phase core) spurious now
    · rw [e.phase_step_of_ne hi]
      exact h.phase core
  · rcases exists_of_receives_step hrecords with
      hbefore | ⟨runner, calibration, record, before, hphase, hbefore, rfl⟩
    · exact h.records sink records hbefore r hr
    · rcases List.mem_append.mp hr with hmem | hmem
      · exact h.records sink before hbefore r hmem
      · obtain rfl := List.mem_singleton.mp hmem
        have hruns := h.phase i
        rw [hphase] at hruns
        exact htold i runner r sink hruns

/-- **What is known of the cores is kept** in all orders of steps. -/
theorem IsKept.follow (h : e.IsKept made runs told)
    (hup : ∀ core, Upkeep core (made core) (runs core))
    (htold : ∀ core r record sink, runs core r (.emit record sink) → told record)
    (schedule : List (Turn plan)) : (e.follow schedule).IsKept made runs told := by
  induction schedule generalizing e with
  | nil => exact h
  | cons turn schedule ih => exact ih (h.step hup htold turn.core turn.spurious turn.now)

end Records

end Experiment

end Lockstep
