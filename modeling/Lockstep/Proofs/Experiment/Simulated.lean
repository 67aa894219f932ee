import Lockstep.Proofs.Bracket
import Lockstep.Proofs.Experiment.Ending

/-!
# Experiments in simulated time

A core with a simulated clock of its own counts exactly the ticks that its workload takes, whatever
the other cores do meanwhile.  Its events count the same, as far as thirty-two bits go.  Such a core
only stops half-way if its clock leaves its range, or if there is no room for the buffer by which it
conditions its caches.
-/

namespace Lockstep

/-! ### Setting a simulated core up -/

/-- The ticks that the simulated workload of a core takes. -/
def Plan.ticks (plan : Plan) (core : Fin plan.shape.cores) : UInt64 :=
  (plan.entry core).inputSize.getD Benchmark.defaultTicks

/-- The simulated workload takes as many ticks as its input has. -/
lemma Registry.make_simulated {params : WorkloadParams} {w : Benchmark}
    (h : withSimulated.make "simulated" params = .ok w) :
    w = .simulated (params.inputSize.getD Benchmark.defaultTicks) := by
  have hlookup : withSimulated.entries.lookup "simulated" = some Benchmark.ofTicks := by
    rw [withSimulated, register, List.lookup_cons, beq_self_eq_true]
  unfold make at h
  rw [hlookup] at h
  obtain ⟨inputSize, seed⟩ := params
  simp only [Benchmark.ofTicks, WorkloadParams.size] at h
  cases inputSize with
  | none => simpa [Except.map] using h.symm
  | some n =>
    by_cases hn : n = 0
    · simp [Except.map, hn] at h
    · simpa [Except.map, hn] using h.symm

/-- There is only one kind of mask that a core can be set up with. -/
lemma InterruptMask.eq_unmasked {flag : Bool} {mask : InterruptMask} (h : ofFlag flag = .ok mask) :
    mask = .unmasked := by
  cases flag with
  | false => exact (Except.ok.inj h).symm
  | true => cases h

/-- What a core was set up with comes from its bracket and its registry. -/
lemma Equipment.setUp_eq_ok {P W : Type} [Counters P] {equipment : Equipment P W} {plan : Plan}
    {core : Fin plan.shape.cores} {b : Bracket P} {w : W}
    (h : equipment.setUp plan core = .ok (b, w)) :
    (∃ counters events, (plan.entry core).eventCodes = .ok events ∧
      Bracket.ofCounters counters .unmasked events = .ok (.ok b)) ∧
      equipment.registry.make (plan.entry core).workload (plan.params core) = .ok w := by
  obtain ⟨_, -, h⟩ := bind_eq_ok.mp h
  obtain ⟨counters, -, h⟩ := bind_eq_ok.mp h
  obtain ⟨mask, hmask, h⟩ := bind_eq_ok.mp h
  obtain ⟨bracket, hbracket, h⟩ := bind_eq_ok.mp h
  obtain ⟨workload, hworkload, h⟩ := bind_eq_ok.mp h
  obtain ⟨rfl, rfl⟩ := Prod.mk.inj (Except.ok.inj h)
  obtain rfl := InterruptMask.eq_unmasked (mapError_eq_ok.mp hmask)
  obtain ⟨events, hevents, hbracket⟩ := bind_eq_ok.mp hbracket
  obtain ⟨made, hmade, hbracket⟩ := bind_eq_ok.mp hbracket
  refine ⟨⟨counters, events, mapError_eq_ok.mp hevents, ?_⟩, mapError_eq_ok.mp hworkload⟩
  rw [mapError_eq_ok.mp hmade, mapError_eq_ok.mp hbracket]

/-! ### A runner in simulated time -/

/-- The record tells so many ticks, by its cycles and by its readings of those events. -/
structure Record.TellsTicks (ticks : UInt64) (events : List Event.Code) (r : Record) : Prop where
  cycles_eq : r.cycles = ticks
  events_eq : r.events = (Bracket.exactly (Bracket.slotted events) ticks).events

namespace Stage

/-- How often a core has run its workload in its iteration. -/
def ran : Stage → Nat
  | rest => 0
  | meet => 0
  | start => 0
  | run => 0
  | _ => 1

end Stage

namespace Runner

/-- The runner has a simulated workload that takes so many ticks, and measures them with those
events. -/
structure IsTicking (ticks : UInt64) (events : List Event.Code) (stage : Stage)
    (r : Runner TickingCounters Benchmark) : Prop where
  workload : r.workload = .simulated ticks
  binds : r.bracket.Binds events
  wraps : r.clock.wraps = false
  /-- All time that has passed was taken by the workload. -/
  elapsed : r.clock.ticks.toNat = (r.completed.toNat + stage.ran) * ticks.toNat
  /-- Counting has begun before the workload runs. -/
  opened : stage = .run → r.bracket.IsOpen r.clock.ticks
  /-- Counting has begun as many ticks ago as the workload has taken. -/
  passed : stage = .stop → ∃ since, r.bracket.IsOpen since ∧
    r.clock.ticks.toNat = since.toNat + ticks.toNat
  /-- A record tells the ticks that the workload has taken. -/
  told : ∀ record next, stage = .emit record next → record.TellsTicks ticks events

variable {ticks : UInt64} {events : List Event.Code} {stage stage' : Stage}
  {r r' : Runner TickingCounters Benchmark}

/-- A runner that does not measure may go on. -/
lemma IsTicking.goOn (h : r.IsTicking ticks events stage) (hran : stage'.ran = stage.ran)
    (hstage : stage' = .rest ∨ stage' = .meet ∨ stage' = .start ∨ stage' = .tend) :
    r.IsTicking ticks events stage' := by
  refine ⟨h.workload, h.binds, h.wraps, ?_, ?_, ?_, ?_⟩
  · rw [hran]
    exact h.elapsed
  · rintro rfl
    simp at hstage
  · rintro rfl
    simp at hstage
  · rintro record next rfl
    simp at hstage

/-- An iteration is prepared if there is one left. -/
lemma IsTicking.prepare (h : r.IsTicking ticks events .rest) {limit : UInt64}
    (hlt : r.completed < limit) :
    Runner.prepare.Succeeds r fun _ r' => r'.IsTicking ticks events .meet := by
  have hfits : r.completed.toNat + (1 : UInt64).toNat < UInt64.size := by
    have hless := UInt64.lt_iff_toNat_lt.mp hlt
    have hlimit := limit.toNat_lt_size
    change r.completed.toNat + 1 < _
    omega
  simp only [Runner.prepare, Attempt.succeeds_bind, Attempt.succeeds_look, Attempt.succeeds_within,
    checkedAdd_of_lt hfits, Attempt.succeeds_take, Workload.prepare, Attempt.succeeds_change]
  refine ⟨?_, h.binds, h.wraps, h.elapsed, Stage.noConfusion, Stage.noConfusion, ?_⟩
  · rw [h.workload]
    rfl
  · exact fun _ _ => Stage.noConfusion

/-- Counting begins. -/
lemma IsTicking.startMeasuring (h : r.IsTicking ticks events .start) :
    (Runner.startMeasuring Clock.ticks).Succeeds r fun _ r' => r'.IsTicking ticks events .run := by
  simp only [Runner.startMeasuring, Attempt.succeeds_bind, Attempt.succeeds_look,
    Attempt.succeeds_within]
  refine (Bracket.opens h.binds.toIsReady _).mono fun _ b hb => ?_
  obtain ⟨hopen, hbound⟩ := hb
  refine ⟨h.workload, ⟨hopen.toIsReady, hbound.trans h.binds.slotted⟩, h.wraps, h.elapsed,
    fun _ => hopen, Stage.noConfusion, ?_⟩
  exact fun _ _ => Stage.noConfusion

/-- What running the workload does to the clock. -/
lemma IsTicking.on_runWorkload (h : r.IsTicking ticks events .run) :
    Runner.runWorkload.on r =
      (((Clock.advance ticks).on r.clock).1,
        { r with clock := ((Clock.advance ticks).on r.clock).2 }) := by
  obtain ⟨core, label, cores, bracket, workload, clock, sweep, stagger, completed⟩ := r
  obtain rfl : workload = .simulated ticks := h.workload
  rfl

/-- The workload runs as long as the clock stays in its range. -/
lemma IsTicking.runWorkload (h : r.IsTicking ticks events .run)
    (hfits : r.clock.ticks.toNat + ticks.toNat < UInt64.size) :
    Runner.runWorkload.Succeeds r fun _ r' => r'.IsTicking ticks events .stop := by
  have hon := h.on_runWorkload
  rw [Clock.advance_of_lt hfits] at hon
  have hsum : (r.clock.ticks + ticks).toNat = r.clock.ticks.toNat + ticks.toNat := by
    rw [UInt64.toNat_add]
    exact Nat.mod_eq_of_lt hfits
  refine (Attempt.succeeds_iff hon).mpr ⟨h.workload, h.binds, h.wraps, ?_, Stage.noConfusion,
    fun _ => ⟨r.clock.ticks, h.opened rfl, hsum⟩, fun _ _ => Stage.noConfusion⟩
  have helapsed := h.elapsed
  simp only [Stage.ran, Nat.add_zero] at helapsed
  rw [hsum, helapsed]
  exact (Nat.succ_mul _ _).symm

/-- The workload only succeeds if the clock stays in its range. -/
lemma IsTicking.lt_of_runWorkload (h : r.IsTicking ticks events .run) {x : Unit}
    (hon : Runner.runWorkload.on r = (.ok x, r')) :
    r.clock.ticks.toNat + ticks.toNat < UInt64.size := by
  by_contra hnot
  have hclock : (Clock.advance ticks).on r.clock = (.error .overflow, r.clock) := by
    simp [Clock.advance, Attempt.on_bind, h.wraps, checkedAdd, hnot]
  rw [h.on_runWorkload, hclock] at hon
  cases hon

/-- Counting ends, and the record tells the ticks that the workload has taken. -/
lemma IsTicking.stopMeasuring (h : r.IsTicking ticks events .stop) :
    (Runner.stopMeasuring Clock.ticks).Succeeds r fun record r' =>
      r'.IsTicking ticks events (.emit record 0) := by
  obtain ⟨since, hopen, hpassed⟩ := h.passed rfl
  have hle : since ≤ r.clock.ticks := UInt64.le_iff_toNat_le.mpr (by omega)
  have hticks : r.clock.ticks - since = ticks := by
    rw [← UInt64.toNat_inj, UInt64.toNat_sub_of_le _ _ hle]
    omega
  simp only [Runner.stopMeasuring, Attempt.succeeds_bind, Attempt.succeeds_look,
    Attempt.succeeds_within, Attempt.succeeds_pure]
  refine (hopen.closes hle).mono fun m b hb => ?_
  obtain ⟨hready, hbound, hexact⟩ := hb
  refine ⟨h.workload, ⟨hready, hbound.trans h.binds.slotted⟩, h.wraps, h.elapsed,
    Stage.noConfusion, Stage.noConfusion, ?_⟩
  rintro record next heq
  obtain ⟨rfl, -⟩ := Stage.emit.inj heq
  rw [h.binds.slotted, hticks] at hexact
  exact ⟨congrArg Measurement.cycles hexact, congrArg Measurement.events hexact⟩

/-- The record is handed to one sink after the other. -/
lemma IsTicking.emit {record : Record} {next : Nat}
    (h : r.IsTicking ticks events (.emit record next)) :
    r.IsTicking ticks events (.emit record (next + 1)) := by
  refine ⟨h.workload, h.binds, h.wraps, h.elapsed, Stage.noConfusion, Stage.noConfusion, ?_⟩
  rintro record' next' heq
  obtain ⟨rfl, -⟩ := Stage.emit.inj heq
  exact h.told _ next rfl

/-- The next iteration begins where this one has ended. -/
lemma IsTicking.finish (h : r.IsTicking ticks events .tend) {limit : UInt64}
    (hlt : r.completed < limit) : r.finish.IsTicking ticks events .rest := by
  refine ⟨h.workload, h.binds, h.wraps, ?_, Stage.noConfusion, Stage.noConfusion,
    fun _ _ => Stage.noConfusion⟩
  have helapsed := h.elapsed
  change r.clock.ticks.toNat = (r.iteration.toNat + 0) * ticks.toNat
  rw [toNat_iteration hlt]
  exact helapsed

end Runner

/-! ### A core in simulated time -/

/-- The clock of the core stays in its range up to the limit, and there is room for the buffer by
which the core conditions its caches. -/
def Plan.HasRoom (plan : Plan) (limit : UInt64) (core : Fin plan.shape.cores) (ticks : UInt64) :
    Prop :=
  limit.toNat * ticks.toNat < UInt64.size ∧
    ∃ sweep, CacheSweep.ofConfig plan.config.cache (⟨core⟩ : CoreId).role = .ok sweep

/-- The core measures a simulated workload that takes so many ticks with those events, and has only
stopped half-way if there was no room. -/
def Phase.IsTicking (ticks : UInt64) (events : List Event.Code) (room : Prop) :
    Phase TickingCounters Benchmark → Prop
  | arrive setup _ => ∀ b w, setup = .ok (b, w) → b.Binds events ∧ w = .simulated ticks
  | await b w => b.Binds events ∧ w = .simulated ticks
  | judge b w => b.Binds events ∧ w = .simulated ticks
  | furnish b w => b.Binds events ∧ w = .simulated ticks
  | iterate runner _ stage => runner.IsTicking ticks events stage
  | ended outcome => ∀ cause, outcome = .error cause → ¬ room

namespace Experiment

variable {plan : Plan} {e : Experiment plan TickingCounters Benchmark}
  {core i : Fin plan.shape.cores} {limit : UInt64} {sinks : Nat} {ticks : UInt64}
  {events : List Event.Code}

/-- The core measures a simulated workload that takes so many ticks with those events, and all of
its records tell this. -/
structure IsTicking (limit : UInt64) (core : Fin plan.shape.cores) (ticks : UInt64)
    (events : List Event.Code) (e : Experiment plan TickingCounters Benchmark) : Prop where
  phase : (e.phase core).IsTicking ticks events (plan.HasRoom limit core ticks)
  told : ∀ sink records, e.Receives sink records → ∀ r ∈ records,
    r.core = plan.shape.number core → r.TellsTicks ticks events

/-- A core of the simulated workload is about to measure it when it is set up. -/
lemma isTicking_start {equipment : Equipment TickingCounters Benchmark}
    (hregistry : equipment.registry = Registry.withSimulated)
    (hworkload : (plan.entry core).workload = "simulated")
    (hevents : (plan.entry core).eventCodes = .ok events) (limit : UInt64) (sinks : Nat) :
    (start (Vector.ofFn fun core => equipment.setUp plan core) sinks).IsTicking limit core
      (plan.ticks core) events := by
  refine ⟨?_, fun sink records hrecords r hr => ?_⟩
  · rw [phase_start, get_ofFn]
    intro b w hsetup
    obtain ⟨⟨counters, events', hevents', hbracket⟩, hmake⟩ := Equipment.setUp_eq_ok hsetup
    obtain rfl := Except.ok.inj (hevents'.symm.trans hevents)
    rw [hregistry, hworkload] at hmake
    exact ⟨⟨Bracket.isReady_of_ofCounters hbracket, Bracket.bound_of_ofCounters hbracket⟩,
      Registry.make_simulated hmake⟩
  · rw [receives_start hrecords] at hr
    exact absurd hr List.not_mem_nil

/-- Calibrating never fails, and binds no events. -/
lemma exists_calibrate {b : Bracket TickingCounters} (hb : b.IsReady) (now : Clock → UInt64)
    (wanted : Bool) :
    ∃ b' rows, calibrate now wanted b = .ok (b', rows) ∧ b'.IsReady ∧ b'.bound = b.bound := by
  unfold calibrate
  split_ifs
  · obtain ⟨rows, s, hon, hs⟩ := Calibration.succeeds_measure hb now Clock.own
    have hbound : s.1.bound = b.bound := (Calibration.preserves_measure now _).eq_of_on hon
    rw [hon]
    exact ⟨_, rows, rfl, hs, hbound⟩
  · exact ⟨b, [], rfl, hb, rfl⟩

/-- A core is furnished if there is room. -/
lemma furnish_cases (limit : UInt64) {b : Bracket TickingCounters} {w : Benchmark}
    (hb : b.Binds events) (hw : w = .simulated ticks) :
    (∃ runner rows, furnish Clock.ticks core b w = .ok (runner, rows) ∧
        runner.IsTicking ticks events .rest) ∨
      ∃ fault, furnish Clock.ticks core b w = .error fault ∧ ¬ plan.HasRoom limit core ticks := by
  obtain ⟨b', rows, hcalibrate, hready, hbound⟩ := exists_calibrate hb.toIsReady Clock.ticks
    ((⟨core⟩ : CoreId).role = .leader && plan.config.calibrateCountdown)
  have hstagger : Stagger.ofConfig plan.config.stagger = .ok plan.stagger :=
    dif_pos plan.iterationsPerStep_ne_zero
  simp only [furnish, hcalibrate, hstagger]
  rcases hsweep : CacheSweep.ofConfig plan.config.cache (⟨core⟩ : CoreId).role with fault | sweep
  · refine Or.inr ⟨fault, rfl, fun hroom => ?_⟩
    obtain ⟨sweep, hok⟩ := hroom.2
    rw [hsweep] at hok
    cases hok
  · refine Or.inl ⟨_, rows, rfl, ?_⟩
    refine ⟨hw, ⟨hready, hbound.trans hb.slotted⟩, rfl, ?_, Stage.noConfusion,
      Stage.noConfusion, fun _ _ => Stage.noConfusion⟩
    simp [Clock.own, Stage.ran]

/-- An attempt that leads to where the core should be, if it succeeds, does so unless there is no
room. -/
lemma isTicking_attempt {runner : Runner TickingCounters Benchmark}
    {calibration : List Calibration} {α : Type} {next : α → Stage}
    {a : Attempt (Runner TickingCounters Benchmark) α} {room : Prop}
    (hok : ∀ x runner', a.on runner = (.ok x, runner') → runner'.IsTicking ticks events (next x))
    (herror : ∀ fault runner', a.on runner = (.error fault, runner') → ¬ room) :
    ((e.attempt core runner calibration next a).phase core).IsTicking ticks events room := by
  unfold Experiment.attempt
  rcases hon : a.on runner with ⟨fault | x, runner'⟩
  · rw [phase_goTo_self]
    exact fun _ _ => herror fault runner' hon
  · rw [phase_goTo_self]
    exact hok x runner' hon

/-- An attempt that succeeds leads to where the core should be. -/
lemma isTicking_attempt_of_succeeds {runner : Runner TickingCounters Benchmark}
    {calibration : List Calibration} {α : Type} {next : α → Stage}
    {a : Attempt (Runner TickingCounters Benchmark) α} {room : Prop}
    (h : a.Succeeds runner fun x runner' => runner'.IsTicking ticks events (next x)) :
    ((e.attempt core runner calibration next a).phase core).IsTicking ticks events room :=
  isTicking_attempt (fun _ _ hon => (Attempt.succeeds_iff hon).mp h)
    fun _ _ hon => absurd hon h.ne_error

/-- The core goes on measuring its workload in its own step. -/
lemma IsTicking.phase_step (h : e.IsTicking limit core ticks events) (he : e.Sound limit sinks)
    (hlimit : plan.config.iterations = some limit) (spurious : Bool) :
    ((e.step core spurious Clock.ticks).phase core).IsTicking ticks events
      (plan.HasRoom limit core ticks) := by
  have hticking := h.phase
  have hproper := he.proper core
  cases hphase : e.phase core with
  | arrive setup point =>
    rw [hphase] at hticking hproper
    obtain ⟨⟨⟨b, w⟩, rfl⟩, rfl⟩ := hproper
    simp only [Experiment.step, hphase, Arriving.step, phase_goTo_self]
    exact hticking b w rfl
  | await b w =>
    rw [hphase] at hticking
    simp only [Experiment.step, hphase]
    split_ifs
    · rw [hphase]
      exact hticking
    · rw [phase_goTo_self]
      exact hticking
  | judge b w =>
    rw [hphase] at hticking
    simp only [Experiment.step, hphase, he.startup.1, phase_goTo_self]
    exact hticking
  | furnish b w =>
    rw [hphase] at hticking
    simp only [Experiment.step, hphase]
    rcases furnish_cases limit hticking.1 hticking.2 with
      ⟨runner, rows, hfurnish, hrunner⟩ | ⟨fault, hfurnish, hroom⟩
    · rw [hfurnish, phase_goTo_self]
      exact hrunner
    · rw [hfurnish, phase_goTo_self]
      exact fun _ _ => hroom
  | iterate runner calibration stage =>
    rw [hphase] at hticking hproper
    replace hticking : runner.IsTicking ticks events stage := hticking
    simp only [Experiment.step, hphase]
    cases stage with
    | rest =>
      simp only [Experiment.iterateStep, Runner.isDone, hlimit, decide_eq_true_eq]
      split_ifs with hdone
      · rw [phase_goTo_self]
        intro _ heq
        cases heq
      · exact isTicking_attempt_of_succeeds (hticking.prepare (UInt64.not_le.mp hdone))
    | meet =>
      simp only [Experiment.iterateStep, phase_goTo_self]
      split_ifs
      · exact hticking.goOn rfl (by simp)
      · exact hticking
    | start => exact isTicking_attempt_of_succeeds hticking.startMeasuring
    | run =>
      refine isTicking_attempt (fun x runner' hon => ?_) fun fault runner' hon hroom => ?_
      · exact (Attempt.succeeds_iff hon).mp
          (hticking.runWorkload (hticking.lt_of_runWorkload hon))
      · refine absurd hon (hticking.runWorkload ?_).ne_error
        -- the runs up to the limit, this one included, take no more ticks than the clock has
        have hlt := UInt64.lt_iff_toNat_lt.mp hproper.2
        have helapsed := hticking.elapsed
        simp only [Stage.ran, Nat.add_zero] at helapsed
        calc runner.clock.ticks.toNat + ticks.toNat
            = (runner.completed.toNat + 1) * ticks.toNat := by rw [helapsed, Nat.succ_mul]
          _ ≤ limit.toNat * ticks.toNat := Nat.mul_le_mul_right _ hlt
          _ < UInt64.size := hroom.1
    | stop => exact isTicking_attempt_of_succeeds hticking.stopMeasuring
    | emit record next =>
      simp only [Experiment.iterateStep]
      split_ifs
      · rw [phase_goTo_self]
        exact hticking.emit
      · rw [phase_goTo_self]
        exact hticking.goOn rfl (by simp)
    | tend =>
      simp only [Experiment.iterateStep, phase_goTo_self]
      exact hticking.finish hproper.2
  | ended outcome =>
    rw [hphase] at hticking
    simp only [Experiment.step, hphase]
    exact hticking

/-- A core in simulated time goes on measuring its workload whatever core makes a step. -/
lemma IsTicking.step (h : e.IsTicking limit core ticks events) (he : e.Sound limit sinks)
    (hlimit : plan.config.iterations = some limit) (i : Fin plan.shape.cores) (spurious : Bool) :
    (e.step i spurious Clock.ticks).IsTicking limit core ticks events := by
  refine ⟨?_, fun sink records hrecords r hr hcore => ?_⟩
  · by_cases hi : core = i
    · subst hi
      exact h.phase_step he hlimit spurious
    · rw [e.phase_step_of_ne hi]
      exact h.phase
  · rcases exists_of_receives_step hrecords with
      hbefore | ⟨runner, calibration, record, before, hphase, hbefore, rfl⟩
    · exact h.told sink records hbefore r hr hcore
    · rcases List.mem_append.mp hr with hmem | hmem
      · exact h.told sink before hbefore r hmem hcore
      · obtain rfl := List.mem_singleton.mp hmem
        have hproper := he.proper i
        rw [hphase] at hproper
        have hrecord : r.core = plan.shape.number i := hproper.2.2.2.1.core
        obtain rfl : core = i := plan.shape.number_injective (hcore.symm.trans hrecord)
        have hticking := h.phase
        rw [hphase] at hticking
        exact hticking.told r sink rfl

/-- **Cores in simulated time measure their workloads** in all orders of steps. -/
theorem IsTicking.follow (h : e.IsTicking limit core ticks events) (he : e.Sound limit sinks)
    (hlimit : plan.config.iterations = some limit) {schedule : List (Turn plan)}
    (hnow : ∀ turn ∈ schedule, turn.now = Clock.ticks) :
    (e.follow schedule).IsTicking limit core ticks events := by
  induction schedule generalizing e with
  | nil => exact h
  | cons turn schedule ih =>
    obtain ⟨i, spurious, now⟩ := turn
    obtain rfl : now = Clock.ticks := hnow _ List.mem_cons_self
    exact ih (h.step he hlimit i spurious) (he.step hlimit i spurious Clock.ticks)
      fun turn hturn => hnow turn (List.mem_cons_of_mem _ hturn)

/-- A core in simulated time that has room does not stop half-way. -/
lemma IsTicking.not_isFailed (h : e.IsTicking limit core ticks events)
    (hroom : plan.HasRoom limit core ticks) : ¬ (e.phase core).IsFailed := by
  intro hfailed
  have hphase := h.phase
  cases hended : e.phase core with
  | ended outcome =>
    rw [hended] at hphase hfailed
    rcases outcome with cause | result
    · exact hphase cause rfl hroom
    · exact hfailed
  | _ =>
    rw [hended] at hfailed
    exact hfailed

end Experiment

end Lockstep
