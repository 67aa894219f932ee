import Lockstep.Experiment.Report
import Lockstep.Proofs.Experiment.Simulated

/-!
# What comes out of an experiment

All that an experiment leaves behind follows from its invariant: what the sinks have received is the
beginning of the blocks of all rounds, the housekeeping has followed the iterations in their order,
and when all cores have ended without a failure nothing is missing and the report says so.
-/

namespace Lockstep

/-! ### Reports without failures -/

namespace Report

/-- Cores that have ended without a failure are reported with their iterations. -/
lemma exists_ofOutcomes {P W : Type} {completed : UInt64} {phases : List (Phase P W)}
    (h : ∀ phase ∈ phases, ∃ rows, phase = .ended (.ok (completed, rows))) :
    ∃ outcomes, phases.mapM Phase.outcome? = some outcomes ∧ ∀ first, ∃ rows,
      ofOutcomes first outcomes = .ok ⟨List.replicate phases.length completed, rows⟩ := by
  induction phases with
  | nil => exact ⟨[], rfl, fun _ => ⟨[], rfl⟩⟩
  | cons phase phases ih =>
    obtain ⟨rows, rfl⟩ := h phase List.mem_cons_self
    obtain ⟨outcomes, hmap, hreport⟩ := ih fun p hp => h p (List.mem_cons_of_mem _ hp)
    refine ⟨.ok (completed, rows) :: outcomes, ?_, fun first => ?_⟩
    · rw [List.mapM_cons, hmap]
      rfl
    · obtain ⟨others, hothers⟩ := hreport (first + 1)
      refine ⟨rows ++ others, ?_⟩
      rw [ofOutcomes, hothers]
      rfl

end Report

namespace Experiment

variable {plan : Plan} {P W : Type} {e : Experiment plan P W} {limit : UInt64} {sinks : Nat}

/-- The numbers of the first iterations in their order. -/
def firstIterations (n : Nat) : List UInt64 :=
  (List.range n).map fun k => UInt64.ofNat (k + 1)

/-- What an experiment with a limit leaves behind, wherever it has got to. -/
structure InLockstep (limit : UInt64) (sinks : Nat) (e : Experiment plan P W) : Prop where
  length_eq : e.received.length = sinks
  /-- What a sink has received is the beginning of blocks of all rounds. -/
  blocks : ∀ sink records, e.Receives sink records →
    ∃ later, plan.shape.InBlocks limit.toNat (records ++ later)
  /-- No record precedes one of an earlier iteration. -/
  sorted : ∀ sink records, e.Receives sink records →
    records.Pairwise fun a b => a.iteration ≤ b.iteration
  /-- The records of a core are one record of each iteration that it has handed out. -/
  own : ∀ sink records, e.Receives sink records → ∀ core,
    (plan.shape.own core records).map (·.iteration) =
      firstIterations (plan.shape.count core records)
  /-- Every record tells what the plan says of its core. -/
  told : ∀ sink records, e.Receives sink records → ∀ r ∈ records, ∃ core, plan.IsRecord core r
  /-- The housekeeping follows one iteration after the other. -/
  tended : e.tended.toList = firstIterations e.tended.size
  /-- The housekeeping follows an iteration when every sink has the leader's record of it. -/
  tended_le : ∀ sink records, e.Receives sink records →
    e.tended.size ≤ plan.shape.count plan.shape.leader records
  /-- At the end nothing is missing, unless a core has stopped half-way. -/
  complete : e.isOver = true → ¬ e.HasFailed →
    (∀ sink records, e.Receives sink records → plan.shape.InBlocks limit.toNat records) ∧
      e.tended.toList = firstIterations limit.toNat ∧
      ∃ rows, e.report? = some (.ok ⟨List.replicate plan.shape.cores limit, rows⟩)

/-- The beginning of the first iterations are the first iterations. -/
lemma eq_firstIterations {xs ys : List UInt64} {n : Nat} (h : xs ++ ys = firstIterations n) :
    xs = firstIterations xs.length := by
  have hle : xs.length ≤ n := by
    have hlength := congrArg List.length h
    simp only [firstIterations, List.length_append, List.length_map, List.length_range] at hlength
    omega
  calc xs = (xs ++ ys).take xs.length := List.take_left.symm
    _ = (firstIterations n).take xs.length := by rw [h]
    _ = firstIterations xs.length := by
      rw [firstIterations, ← List.map_take, List.take_range, Nat.min_eq_left hle, firstIterations]

/-- A core has handed out at most as many records as there are iterations. -/
lemma Sound.count_le (he : e.Sound limit sinks) {sink : Nat} {records : List Record}
    (hrecords : e.Receives sink records) (core : Fin plan.shape.cores) :
    plan.shape.count core records ≤ limit.toNat :=
  ((he.keeping core).behind sink records hrecords).1.trans (he.rounds_le core)

/-- Where the cores stand at the end. -/
lemma Sound.phase_eq_ended (he : e.Sound limit sinks) (hover : e.isOver = true)
    (hlive : ¬ e.HasFailed) (core : Fin plan.shape.cores) :
    ∃ rows, e.phase core = .ended (.ok (limit, rows)) := by
  have hcore := e.isOver_iff.mp hover core
  have hproper := he.proper core
  cases hphase : e.phase core with
  | ended outcome =>
    rcases outcome with cause | ⟨completed, rows⟩
    · exact absurd ⟨core, by rw [hphase]; trivial⟩ hlive
    · rw [hphase] at hproper
      obtain rfl : completed = limit := hproper
      exact ⟨rows, rfl⟩
  | _ =>
    rw [hphase] at hcore
    exact absurd hcore Bool.noConfusion

/-- Each sink has received some records. -/
lemma Sound.exists_receives (he : e.Sound limit sinks) {sink : Nat} (hsink : sink < sinks) :
    ∃ records, e.Receives sink records := by
  have hlt : sink < e.received.length := by rwa [he.length_eq]
  exact ⟨_, e.received[sink], List.getElem?_eq_getElem hlt, rfl⟩

/-- At the end each sink has the record of each iteration of each core. -/
lemma Sound.count_eq_limit (he : e.Sound limit sinks) (hover : e.isOver = true)
    (hlive : ¬ e.HasFailed) {sink : Nat} {records : List Record}
    (hrecords : e.Receives sink records) (core : Fin plan.shape.cores) :
    plan.shape.count core records = limit.toNat := by
  obtain ⟨rows, hphase⟩ := he.phase_eq_ended hover hlive core
  exact (he.account hphase id).count_eq sink records hrecords

/-- At the end the report tells that every core has completed all iterations. -/
lemma Sound.exists_report (he : e.Sound limit sinks) (hover : e.isOver = true)
    (hlive : ¬ e.HasFailed) :
    ∃ rows, e.report? = some (.ok ⟨List.replicate plan.shape.cores limit, rows⟩) := by
  have hphases : ∀ phase ∈ e.phases.toList, ∃ rows, phase = .ended (.ok (limit, rows)) := by
    intro phase hphase
    obtain ⟨k, hk, rfl⟩ := Vector.mem_iff_getElem.mp (Vector.mem_toList_iff.mp hphase)
    exact he.phase_eq_ended hover hlive ⟨k, hk⟩
  obtain ⟨outcomes, hmap, hreport⟩ := Report.exists_ofOutcomes hphases
  obtain ⟨rows, hrows⟩ := hreport 0
  refine ⟨rows, ?_⟩
  rw [report?, hmap, he.startup.2]
  change some (Report.ofOutcomes 0 outcomes) = _
  rw [hrows, Vector.length_toList]

/-- **The invariant tells what an experiment leaves behind.** -/
theorem Sound.inLockstep (he : e.Sound limit sinks) : e.InLockstep limit sinks := by
  have hsize := limit.toNat_lt_size
  have hblocks : ∀ sink records, e.Receives sink records →
      ∃ later, plan.shape.InBlocks limit.toNat (records ++ later) :=
    fun sink records hrecords =>
      (he.filed sink records hrecords).exists_later (he.count_le hrecords)
  refine ⟨he.length_eq, hblocks, fun sink records hrecords => ?_,
    fun sink records hrecords core => ?_, he.told, he.tended, he.tended_le, fun hover hlive => ?_⟩
  · obtain ⟨later, hlater⟩ := hblocks sink records hrecords
    exact (List.pairwise_append.mp (hlater.pairwise_le hsize)).1
  · obtain ⟨later, hlater⟩ := hblocks sink records hrecords
    have hown := hlater.own_iterations core
    rw [Shape.own, List.filter_append, List.map_append] at hown
    have hfirst := eq_firstIterations hown
    rwa [List.length_map] at hfirst
  · refine ⟨fun sink records hrecords => ?_, ?_, he.exists_report hover hlive⟩
    · exact (he.filed sink records hrecords).inBlocks (he.count_eq_limit hover hlive hrecords)
    · obtain ⟨rows, hphase⟩ := he.phase_eq_ended hover hlive plan.shape.leader
      have hall : e.tended.size = limit.toNat := (he.account hphase id).tended_eq rfl
      rw [he.tended, hall]
      rfl

/-! ### Experiments that were launched -/

/-- An experiment that could be launched is at its start. -/
lemma launch_eq_ok [Counters P] {equipment : Equipment P W}
    (h : launch plan equipment sinks = .ok e) :
    e = start (Vector.ofFn fun core => equipment.setUp plan core) sinks := by
  obtain ⟨_, -, h⟩ := bind_eq_ok.mp h
  exact (Except.ok.inj h).symm

/-- An experiment can be launched if its workloads are known. -/
lemma launch_of_checkWorkloads [Counters P] {equipment : Equipment P W}
    (h : plan.checkWorkloads equipment.registry = .ok ()) (sinks : Nat) :
    launch plan equipment sinks =
      .ok (start (Vector.ofFn fun core => equipment.setUp plan core) sinks) := by
  rw [launch, h]
  rfl

/-- The invariant holds of an experiment that was launched, if all cores were set up. -/
lemma sound_of_launch [Counters P] {equipment : Equipment P W}
    (h : launch plan equipment sinks = .ok e)
    (hsetups : ∀ core, ∃ x, equipment.setUp plan core = .ok x) (limit : UInt64) :
    e.Sound limit sinks := by
  rw [launch_eq_ok h]
  refine sound_start (fun core => ?_) limit sinks
  rw [get_ofFn]
  exact hsetups core

section Simulated

variable {equipment : Equipment TickingCounters Benchmark}
  {e : Experiment plan TickingCounters Benchmark}

/-- A core measures its simulated workload with the events of its entry, wherever the experiment has
got to. -/
lemma isTicking_of_launch (hlimit : plan.config.iterations = some limit)
    (hregistry : equipment.registry = Registry.withSimulated)
    (hlaunch : launch plan equipment sinks = .ok e)
    (hsetups : ∀ core, ∃ x, equipment.setUp plan core = .ok x) {schedule : List (Turn plan)}
    (hnow : ∀ turn ∈ schedule, turn.now = Clock.ticks) {core : Fin plan.shape.cores}
    (hworkload : (plan.entry core).workload = "simulated") :
    ∃ events, (plan.entry core).eventCodes = .ok events ∧
      (e.follow schedule).IsTicking limit core (plan.ticks core) events := by
  obtain ⟨⟨b, w⟩, hsetup⟩ := hsetups core
  obtain ⟨⟨-, events, hevents, -⟩, -⟩ := Equipment.setUp_eq_ok hsetup
  have hstart : e.IsTicking limit core (plan.ticks core) events := by
    rw [launch_eq_ok hlaunch]
    exact isTicking_start hregistry hworkload hevents limit sinks
  exact ⟨events, hevents, hstart.follow (sound_of_launch hlaunch hsetups limit) hlimit hnow⟩

/-- Cores in simulated time that have room can complete their iterations. -/
lemma exists_completed (hlimit : plan.config.iterations = some limit)
    (hregistry : equipment.registry = Registry.withSimulated)
    (hlaunch : launch plan equipment sinks = .ok e)
    (hsetups : ∀ core, ∃ x, equipment.setUp plan core = .ok x)
    (hworkload : ∀ core, (plan.entry core).workload = "simulated")
    (hroom : ∀ core, plan.HasRoom limit core (plan.ticks core)) :
    ∃ turns : List (Turn plan), (∀ turn ∈ turns, turn.now = Clock.ticks) ∧
      (e.follow turns).isOver = true ∧ ¬ (e.follow turns).HasFailed := by
  obtain ⟨turns, hnow, hdone⟩ :=
    (sound_of_launch hlaunch hsetups limit).exists_follow hlimit Clock.ticks
  have hlive : ¬ (e.follow turns).HasFailed := by
    rintro ⟨core, hfailed⟩
    obtain ⟨_, -, hticking⟩ :=
      isTicking_of_launch hlimit hregistry hlaunch hsetups hnow (hworkload core)
    exact hticking.not_isFailed (hroom core) hfailed
  exact ⟨turns, hnow, hdone.resolve_left hlive, hlive⟩

end Simulated

/-- **Experiments run in lockstep.**  In all orders of steps, and with whatever counters, workloads
and clocks, each sink receives one block of records after the other, and the housekeeping follows
the iterations in their order.  From everywhere the end can be reached unless a core stops half-way.
In simulated time the records of a core tell the ticks that its workload takes, and it does not stop
half-way if it has room. -/
theorem runs_in_lockstep {plan : Plan} {limit : UInt64}
    (hlimit : plan.config.iterations = some limit) :
    (∀ (P W : Type) [Counters P] [Workload W] (equipment : Equipment P W) (sinks : Nat)
      (e : Experiment plan P W), launch plan equipment sinks = .ok e →
      (∀ core, ∃ x, equipment.setUp plan core = .ok x) → ∀ schedule : List (Turn plan),
        (e.follow schedule).InLockstep limit sinks ∧
        ∀ now, ∃ turns : List (Turn plan), (∀ turn ∈ turns, turn.now = now) ∧
          (((e.follow schedule).follow turns).HasFailed ∨
            ((e.follow schedule).follow turns).isOver = true)) ∧
    ∀ (equipment : Equipment TickingCounters Benchmark) (sinks : Nat)
      (e : Experiment plan TickingCounters Benchmark),
      equipment.registry = Registry.withSimulated → launch plan equipment sinks = .ok e →
      (∀ core, ∃ x, equipment.setUp plan core = .ok x) → ∀ schedule : List (Turn plan),
      (∀ turn ∈ schedule, turn.now = Clock.ticks) → ∀ core,
      (plan.entry core).workload = "simulated" →
        (∀ sink records, (e.follow schedule).Receives sink records →
          ∀ r ∈ plan.shape.own core records, r.cycles = plan.ticks core) ∧
        (plan.HasRoom limit core (plan.ticks core) →
          ¬ ((e.follow schedule).phase core).IsFailed) := by
  refine ⟨fun P W _ _ equipment sinks e hlaunch hsetups schedule => ?_,
    fun equipment sinks e hregistry hlaunch hsetups schedule hnow core hworkload => ?_⟩
  · have he := (sound_of_launch hlaunch hsetups limit).follow hlimit schedule
    exact ⟨he.inLockstep, he.exists_follow hlimit⟩
  · obtain ⟨_, -, hticking⟩ := isTicking_of_launch hlimit hregistry hlaunch hsetups hnow hworkload
    refine ⟨fun sink records hrecords r hr => ?_, hticking.not_isFailed⟩
    obtain ⟨hmem, hcore⟩ := List.mem_filter.mp hr
    exact (hticking.told sink records hrecords r hmem (of_decide_eq_true hcore)).cycles_eq

/-! ### Two cores in simulated time -/

/-- Two cores with simulated workloads and three iterations to do. -/
def simulatedPair : Plan where
  config := {
    cores := [⟨"simulated", some 5, ["l1d_cache"]⟩, ⟨"simulated", none, []⟩]
    cache := { mode := .none }
    iterations := some 3 }
  valid := by decide

/-- Fresh counters for every core. -/
def freshCounters : Equipment TickingCounters Benchmark where
  registry := Registry.withSimulated
  counters := fun _ => .ok (TickingCounters.withSlots Event.slotLimit)

/-- Both cores are set up. -/
lemma exists_setUp (core : Fin simulatedPair.shape.cores) :
    ∃ x, freshCounters.setUp simulatedPair core = .ok x := by
  have hok : ∀ core, (freshCounters.setUp simulatedPair core).isOk = true := by decide
  exact exists_eq_ok (hok core)

/-- The two cores can complete their iterations, and both sinks then have their records. -/
theorem runs_in_lockstep_of_simulatedPair :
    ∃ e, launch simulatedPair freshCounters 2 = .ok e ∧ ∃ turns : List (Turn simulatedPair),
      (e.follow turns).isOver = true ∧
      ∀ sink records, (e.follow turns).Receives sink records →
        simulatedPair.shape.InBlocks 3 records ∧
        (∀ r ∈ simulatedPair.shape.own ⟨0, by decide⟩ records, r.cycles = 5) ∧
        ∀ r ∈ simulatedPair.shape.own ⟨1, by decide⟩ records, r.cycles = 1000 := by
  have hlaunch : launch simulatedPair freshCounters 2 =
      .ok (start (Vector.ofFn fun core => freshCounters.setUp simulatedPair core) 2) :=
    launch_of_checkWorkloads (by decide) 2
  have hlimit : simulatedPair.config.iterations = some 3 := rfl
  obtain ⟨hruns, hsimulated⟩ := runs_in_lockstep hlimit
  have hfits : ∀ core, (3 : UInt64).toNat * (simulatedPair.ticks core).toNat < UInt64.size := by
    decide
  have hworkload : ∀ core, (simulatedPair.entry core).workload = "simulated" := by decide
  obtain ⟨-, hend⟩ := hruns _ _ freshCounters 2 _ hlaunch exists_setUp []
  obtain ⟨turns, hnow, hdone⟩ := hend Clock.ticks
  have hcores := hsimulated freshCounters 2 _ rfl hlaunch exists_setUp turns hnow
  have hlive : ¬ ((start (Vector.ofFn fun core => freshCounters.setUp simulatedPair core) 2).follow
      turns).HasFailed := by
    rintro ⟨core, hfailed⟩
    exact (hcores core (hworkload core)).2 ⟨hfits core, .none, rfl⟩ hfailed
  have hover := hdone.resolve_left hlive
  have hcomplete := (hruns _ _ freshCounters 2 _ hlaunch exists_setUp turns).1.complete hover hlive
  refine ⟨_, hlaunch, turns, hover, fun sink records hrecords => ⟨?_, ?_, ?_⟩⟩
  · exact hcomplete.1 sink records hrecords
  · exact (hcores _ (hworkload _)).1 sink records hrecords
  · exact (hcores _ (hworkload _)).1 sink records hrecords

end Experiment

end Lockstep
