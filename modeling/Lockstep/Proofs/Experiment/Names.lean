import Lockstep.Proofs.Experiment.Upkeep
import Lockstep.Workload.Benchmark

/-!
# Names of workloads

The records of an experiment bear the names of the workloads that were run.  The workload of a core
is made once, and nothing that a core does with it changes what it is called, so that all records of
a core bear one name (`Experiment.IsNamed`).  This takes no more of a workload than that it keeps
its name itself, as all workloads do that can be named in a configuration.
-/

namespace Lockstep

/-! ### Workloads that keep their names -/

/-- A workload is called the same before and after it is prepared or run, whether or not it stops
half-way. -/
structure Workload.KeepsName (W : Type) [Workload W] : Prop where
  prepare : (Workload.prepare : Attempt W Unit).Preserves Workload.name
  run : (Workload.run : Attempt (W × Clock) Unit).Preserves fun s => Workload.name s.1

/-- Shuffling the order of a walk does not change its name. -/
lemma ArrayWalk.name_prepare (w : ArrayWalk) : w.prepare.name = w.name := by
  simp only [name, ArrayWalk.prepare, Option.isSome_map]

/-- Walking does not change the name of a walk. -/
lemma ArrayWalk.preserves_run : ArrayWalk.run.Preserves ArrayWalk.name := by
  refine (Attempt.Preserves.look _).bind fun w => ?_
  cases w.access with
  | read => exact (Attempt.Preserves.take _ _).bind fun _ => Attempt.Preserves.change fun _ => rfl
  | write => exact (Attempt.Preserves.take _ _).bind fun _ => Attempt.Preserves.change fun _ => rfl

/-- Preparing a workload that can be named does not change its name. -/
lemma Benchmark.name_prepared (w : Benchmark) : w.prepared.name = w.name := by
  cases w with
  | walk state => exact state.name_prepare
  | _ => rfl

/-- Running a workload that can be named does not change its name. -/
lemma Benchmark.name_runOnce (s : Benchmark × Clock) : (runOnce.on s).2.1.name = s.1.name := by
  obtain ⟨w, clock⟩ := s
  cases w with
  | walk state =>
    change (walk (ArrayWalk.run.on state).2).name = _
    exact ArrayWalk.preserves_run state
  | failing remaining =>
    by_cases h : remaining = 0
    · subst h
      rfl
    · have hon : runOnce.on (failing remaining, clock) =
          (.ok (), (failing (remaining - 1), clock)) := by
        simp only [runOnce, Attempt.on_bind, Attempt.on_look, if_neg h, Attempt.on_change]
      rw [hon]
      rfl
  | _ => rfl

/-- **All workloads that can be named keep their names.** -/
theorem Benchmark.keepsName : Workload.KeepsName Benchmark :=
  ⟨Attempt.Preserves.change name_prepared, name_runOnce⟩

/-! ### Runners -/

namespace Runner

variable {P W : Type} [Workload W] {r r' : Runner P W}

/-- The name of the workload of a runner. -/
def workloadName (r : Runner P W) : String :=
  Workload.name r.workload

/-- Preparing an iteration does not change the name of the workload. -/
lemma preserves_workloadName_prepare (hkeeps : Workload.KeepsName W) :
    (prepare : Attempt (Runner P W) Unit).Preserves workloadName := by
  refine (Attempt.Preserves.look _).bind fun r => (Attempt.Preserves.take _ _).bind fun _ => ?_
  refine Attempt.Preserves.bind ?_ fun _ => Attempt.Preserves.change fun _ => rfl
  exact fun r => hkeeps.prepare r.workload

/-- Running the workload does not change its name. -/
lemma preserves_workloadName_runWorkload (hkeeps : Workload.KeepsName W) :
    (runWorkload : Attempt (Runner P W) Unit).Preserves workloadName :=
  fun r => hkeeps.run (r.workload, r.clock)

/-- The workload of the runner has a name, and a record that it is about to hand out bears it. -/
structure IsNamed (name : String) (stage : Stage) (r : Runner P W) : Prop where
  workload : r.workloadName = name
  told : ∀ record next, stage = .emit record next → record.workload = name

end Runner

/-! ### Cores -/

/-- The workload of the core has a name, and a record that it is about to hand out bears it. -/
def Phase.IsNamed {P W : Type} [Workload W] (name : String) : Phase P W → Prop
  | arrive setup _ => ∀ b w, setup = .ok (b, w) → Workload.name w = name
  | await _ w => Workload.name w = name
  | judge _ w => Workload.name w = name
  | furnish _ w => Workload.name w = name
  | iterate runner _ stage => runner.IsNamed name stage
  | ended _ => True

/-- The name is kept with the workload until there is a runner, and with the runner then. -/
lemma Phase.isNamed_iff {P W : Type} [Workload W] {phase : Phase P W} {name : String} :
    phase.IsNamed name ↔ phase.Keeps (fun _ w => Workload.name w = name)
      fun r stage => r.IsNamed name stage := by
  cases phase with
  | _ => exact Iff.rfl

namespace Experiment

variable {plan : Plan} {P W : Type} {e : Experiment plan P W} {core : Fin plan.shape.cores}
  {limit : UInt64} {sinks : Nat} {name : String} {names : Fin plan.shape.cores → String}

/-- A core is furnished with the workload that it was set up with. -/
lemma workload_of_furnish [Counters P] {now : Clock → UInt64} {bracket : Bracket P} {workload : W}
    {runner : Runner P W} {rows : List Calibration}
    (h : furnish now core bracket workload = .ok (runner, rows)) : runner.workload = workload := by
  obtain ⟨⟨bracket', rows'⟩, -, h⟩ := bind_eq_ok.mp h
  obtain ⟨sweep, -, h⟩ := bind_eq_ok.mp h
  obtain ⟨stagger, -, h⟩ := bind_eq_ok.mp h
  obtain ⟨rfl, -⟩ := Prod.mk.inj (Except.ok.inj h)
  rfl

variable [Workload W]

/-- The workload of each core has a name, and all records of the core bear it. -/
structure IsNamed (names : Fin plan.shape.cores → String) (e : Experiment plan P W) : Prop where
  phase : ∀ core, (e.phase core).IsNamed (names core)
  records : ∀ sink records, e.Receives sink records → ∀ r ∈ records,
    ∃ core, plan.IsRecord core r ∧ r.workload = names core

/-- The workloads that cores are set up with have names. -/
lemma exists_isNamed_start (setups : Vector (Except Cause (Bracket P × W)) plan.shape.cores)
    (sinks : Nat) : ∃ names, (start setups sinks).IsNamed names := by
  have hname : ∀ core, ∃ name, ((start setups sinks).phase core).IsNamed name := by
    intro core
    rw [phase_start]
    cases hsetup : setups.get core with
    | error cause =>
      refine ⟨"", fun b w h => ?_⟩
      cases h
    | ok x =>
      refine ⟨Workload.name x.2, fun b w h => ?_⟩
      obtain rfl := Except.ok.inj h
      rfl
  choose names hnames using hname
  refine ⟨names, hnames, fun sink records hrecords r hr => ?_⟩
  rw [receives_start hrecords] at hr
  exact absurd hr List.not_mem_nil

variable [Counters P]

/-- The name of the workload is kept up. -/
lemma upkeep_isNamed (hkeeps : Workload.KeepsName W) (core : Fin plan.shape.cores) (name : String) :
    Upkeep core (fun (_ : Bracket P) (w : W) => Workload.name w = name)
      fun (r : Runner P W) stage => r.IsNamed name stage where
  furnish h hfurnish := by
    refine ⟨?_, fun _ _ => Stage.noConfusion⟩
    rw [Runner.workloadName, workload_of_furnish hfurnish]
    exact h
  prepare h hon := by
    have hname := (Runner.preserves_workloadName_prepare hkeeps).eq_of_on hon
    exact ⟨hname.trans h.workload, fun _ _ => Stage.noConfusion⟩
  meet h := ⟨h.workload, fun _ _ => Stage.noConfusion⟩
  start h hon := by
    have hname := (Runner.preserves_startMeasuring_of
      (f := fun r : Runner P W => r.workloadName) (fun _ _ => rfl) _).eq_of_on hon
    exact ⟨hname.trans h.workload, fun _ _ => Stage.noConfusion⟩
  run h hon := by
    have hname := (Runner.preserves_workloadName_runWorkload hkeeps).eq_of_on hon
    exact ⟨hname.trans h.workload, fun _ _ => Stage.noConfusion⟩
  stop h hon := by
    have hname := (Runner.preserves_stopMeasuring_of
      (f := fun r : Runner P W => r.workloadName) (fun _ _ => rfl) _).eq_of_on hon
    refine ⟨hname.trans h.workload, fun record sink hstage => ?_⟩
    obtain ⟨rfl, -⟩ := Stage.emit.inj hstage
    obtain ⟨m, b, -, -, rfl⟩ := Runner.stopMeasuring_eq_ok hon
    exact hname.trans h.workload
  emit h := by
    refine ⟨h.workload, fun record' sink' hstage => ?_⟩
    obtain ⟨rfl, -⟩ := Stage.emit.inj hstage
    exact h.told _ _ rfl
  tend h := ⟨h.workload, fun _ _ => Stage.noConfusion⟩
  finish h := ⟨h.workload, fun _ _ => Stage.noConfusion⟩

/-- A core bears the name of its workload after its own step. -/
lemma phase_step_isNamed (hkeeps : Workload.KeepsName W) (h : (e.phase core).IsNamed name)
    (spurious : Bool) (now : Clock → UInt64) :
    ((e.step core spurious now).phase core).IsNamed name :=
  Phase.isNamed_iff.mpr
    ((upkeep_isNamed hkeeps core name).phase_step (Phase.isNamed_iff.mp h) spurious now)

/-- The records of each core bear the name of its workload whatever core makes a step. -/
lemma IsNamed.step (h : e.IsNamed names) (hkeeps : Workload.KeepsName W)
    (he : e.Sound limit sinks) (i : Fin plan.shape.cores) (spurious : Bool)
    (now : Clock → UInt64) : (e.step i spurious now).IsNamed names := by
  refine ⟨fun core => ?_, fun sink records hrecords r hr => ?_⟩
  · by_cases hi : core = i
    · subst hi
      exact phase_step_isNamed hkeeps (h.phase core) spurious now
    · rw [e.phase_step_of_ne hi]
      exact h.phase core
  · rcases exists_of_receives_step hrecords with
      hbefore | ⟨runner, calibration, record, before, hphase, hbefore, rfl⟩
    · exact h.records sink records hbefore r hr
    · rcases List.mem_append.mp hr with hmem | hmem
      · exact h.records sink before hbefore r hmem
      · obtain rfl := List.mem_singleton.mp hmem
        have hproper := he.proper i
        have hnamed := h.phase i
        rw [hphase] at hproper hnamed
        exact ⟨i, hproper.2.2.2.1, hnamed.told r sink rfl⟩

/-- **The records of each core bear one name** in all orders of steps. -/
theorem IsNamed.follow (h : e.IsNamed names) (hkeeps : Workload.KeepsName W)
    (he : e.Sound limit sinks) (hlimit : plan.config.iterations = some limit)
    (schedule : List (Turn plan)) : (e.follow schedule).IsNamed names := by
  induction schedule generalizing e with
  | nil => exact h
  | cons turn schedule ih =>
    exact ih (h.step hkeeps he turn.core turn.spurious turn.now)
      (he.step hlimit turn.core turn.spurious turn.now)

end Experiment

end Lockstep
