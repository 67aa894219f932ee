import Lockstep.Experiment.Report
import Lockstep.Proofs.Cache
import Lockstep.Proofs.Experiment.Outcome
import Lockstep.Proofs.Experiment.Startup

/-!
# Between the startup and the first round

Once all cores are ready, each of them builds its runner and prepares its first iteration before it
meets the others.  It is too late to fail then: a core that stops half-way is not missed by anybody
in time, and the others wait for it forever.

On counters of a simulated clock there is one thing that can fail all the same.  Countdowns are
measured, the stagger was checked with the configuration and workloads are prepared in any case, but
the buffer by which a core conditions its caches has whatever size the configuration asks for.  The
main statement, `Experiment.opens_with_buffers`, says that this is the only reason, and what becomes
of the other cores.
-/

namespace Lockstep

/-- There are addresses for the buffer by which the core conditions its caches, if it has one. -/
def Plan.HasBuffer (plan : Plan) (core : Fin plan.shape.cores) : Prop :=
  plan.config.cache.mode = .none ∨
    (if core.val = 0 then plan.config.cache.fullBytes
      else plan.config.cache.privateBytes).toNat < 2 ^ 63

/-- Where a core may stand that was set up, and how far it may have come in the meeting then.  A
core with no buffer never comes to its first round, and one that has a buffer gets there, unless it
is to do no rounds at all. -/
def Phase.Opens (plan : Plan) (core : Fin plan.shape.cores) (here : Progress plan.shape.cores) :
    Phase TickingCounters Benchmark → Prop
  | arrive setup _ => here = {} ∧ ∃ b w, setup = .ok (b, w) ∧ b.IsReady
  | await b _ => here = {} ∧ b.IsReady
  | judge b _ => here = {} ∧ b.IsReady
  | furnish b _ => here = {} ∧ b.IsReady
  | iterate runner _ stage => plan.HasBuffer core ∧
      (here.rounds = 0 → stage = .meet ∨ stage = .rest ∧ runner.completed = 0)
  | ended (.ok _) => plan.HasBuffer core ∧ (here.rounds = 0 → plan.config.iterations = some 0)
  | ended (.error _) => (plan.HasBuffer core → here.rounds ≠ 0) ∧
      (¬ plan.HasBuffer core → here = {})

namespace CacheSweep

/-- A core is given its sweep exactly if it has a buffer. -/
lemma ofConfig_cases (plan : Plan) (core : Fin plan.shape.cores) :
    plan.HasBuffer core ∧ (∃ sweep,
        ofConfig plan.config.cache (⟨core⟩ : CoreId).role = .ok sweep) ∨
      ¬ plan.HasBuffer core ∧
        ofConfig plan.config.cache (⟨core⟩ : CoreId).role = .error .capacity := by
  have hrole : (⟨core⟩ : CoreId).role = .leader ↔ core.val = 0 := by
    unfold CoreId.role
    split_ifs with h
    · exact ⟨fun _ => h, fun _ => rfl⟩
    · exact ⟨nofun, fun hzero => absurd hzero h⟩
  unfold ofConfig Plan.HasBuffer
  cases plan.config.cache.mode with
  | none => exact Or.inl ⟨Or.inl rfl, _, rfl⟩
  | evict =>
    simp only [hrole]
    rcases evicting_cases (if core.val = 0 then plan.config.cache.fullBytes
      else plan.config.cache.privateBytes) with ⟨hfits, hsweep⟩ | ⟨hlarge, hfault⟩
    · exact Or.inl ⟨Or.inr hfits, hsweep⟩
    · exact Or.inr ⟨fun h => hlarge (h.resolve_left nofun), hfault⟩

end CacheSweep

namespace Experiment

variable {plan : Plan} {e : Experiment plan TickingCounters Benchmark}
  {core i : Fin plan.shape.cores}

/-- **A core gets its runner exactly if it has a buffer.** -/
theorem furnish_cases_of_isReady {b : Bracket TickingCounters} (hb : b.IsReady) (w : Benchmark)
    (now : Clock → UInt64) (core : Fin plan.shape.cores) :
    plan.HasBuffer core ∧ (∃ runner rows, furnish now core b w = .ok (runner, rows) ∧
        runner.completed = 0) ∨
      ¬ plan.HasBuffer core ∧ furnish now core b w = .error .capacity := by
  obtain ⟨b', rows, hcalibrate, -⟩ := exists_calibrate hb now
    ((⟨core⟩ : CoreId).role = .leader && plan.config.calibrateCountdown)
  have hstagger : Stagger.ofConfig plan.config.stagger = .ok plan.stagger :=
    dif_pos plan.iterationsPerStep_ne_zero
  simp only [furnish, hcalibrate, hstagger]
  rcases CacheSweep.ofConfig_cases plan core with ⟨hbuffer, sweep, hsweep⟩ | ⟨hnone, hfault⟩
  · rw [hsweep]
    exact Or.inl ⟨hbuffer, _, rows, rfl, rfl⟩
  · rw [hfault]
    exact Or.inr ⟨hnone, rfl⟩

/-- The first iteration can be prepared. -/
lemma succeeds_prepare {r : Runner TickingCounters Benchmark} (h : r.completed = 0) :
    Runner.prepare.Succeeds r fun _ _ => True := by
  have hfits : r.completed.toNat + (1 : UInt64).toNat < UInt64.size := by
    rw [h]
    decide
  simp only [Runner.prepare, Attempt.succeeds_bind, Attempt.succeeds_look, Attempt.succeeds_within,
    checkedAdd_of_lt hfits, Attempt.succeeds_take, Workload.prepare, Attempt.succeeds_change]

/-! ### Steps -/

/-- A step of a core outside of the meeting is none in it, and one in it is no other. -/
lemma meeting_step_cases (e : Experiment plan TickingCounters Benchmark)
    (core : Fin plan.shape.cores) (spurious : Bool) (now : Clock → UInt64) :
    (e.step core spurious now).meeting = e.meeting ∨
      (e.step core spurious now).meeting = e.meeting.step core spurious := by
  by_cases hstage : (e.phase core).stage = .meet
  · cases hphase : e.phase core with
    | iterate runner calibration stage =>
      rw [hphase] at hstage
      obtain rfl : stage = .meet := hstage
      simp only [Experiment.step, hphase]
      exact Or.inr rfl
    | _ =>
      rw [hphase] at hstage
      exact absurd hstage Stage.noConfusion
  · exact Or.inl (meeting_step hstage spurious now)

/-- No step takes back a round that a core is through. -/
lemma rounds_le_step (e : Experiment plan TickingCounters Benchmark)
    (core : Fin plan.shape.cores) (spurious : Bool) (now : Clock → UInt64) :
    (e.meeting.progress core).rounds ≤
      ((e.step core spurious now).meeting.progress core).rounds := by
  rcases e.meeting_step_cases core spurious now with h | h
  · rw [h]
  · rw [h]
    rcases e.meeting.progress_step_cases core spurious with ⟨q, hq⟩ | hq
    · rw [hq]
    · rw [hq]
      exact Nat.le_succ _

/-- A core in its first iteration goes for its first round, or it is through that. -/
lemma opens_step_of_first {runner : Runner TickingCounters Benchmark}
    {calibration : List Calibration} {stage : Stage}
    (hphase : e.phase core = .iterate runner calibration stage) (hbuffer : plan.HasBuffer core)
    (hstage : stage = .meet ∨ stage = .rest ∧ runner.completed = 0) (spurious : Bool)
    (now : Clock → UInt64) :
    ((e.step core spurious now).phase core).Opens plan core
      ((e.step core spurious now).meeting.progress core) := by
  simp only [Experiment.step, hphase]
  rcases hstage with rfl | ⟨rfl, hzero⟩
  · simp only [Experiment.iterateStep, phase_goTo_self]
    refine ⟨hbuffer, fun hrounds => Or.inl (if_neg fun hlt => ?_)⟩
    have hnone : ((e.meeting.step core spurious).progress core).rounds = 0 := hrounds
    omega
  · simp only [Experiment.iterateStep]
    split_ifs with hdone
    · rw [phase_goTo_self]
      refine ⟨hbuffer, fun _ => ?_⟩
      unfold Runner.isDone at hdone
      split at hdone
      · exact absurd hdone Bool.false_ne_true
      · rename_i limit hlimit
        have hle : limit ≤ 0 := by simpa [hzero] using hdone
        rw [hlimit, UInt64.le_zero_iff.mp hle]
    · have hprepare := succeeds_prepare hzero
      unfold Experiment.attempt
      rcases hon : Runner.prepare.on runner with ⟨fault | _, runner'⟩
      · exact absurd hon hprepare.ne_error
      · rw [phase_goTo_self]
        exact ⟨hbuffer, fun _ => Or.inl rfl⟩

/-- A core that is through its first round has nothing more to get through. -/
lemma opens_step_of_later {runner : Runner TickingCounters Benchmark}
    {calibration : List Calibration} {stage : Stage}
    (hphase : e.phase core = .iterate runner calibration stage) (hbuffer : plan.HasBuffer core)
    (hrounds : (e.meeting.progress core).rounds ≠ 0) (spurious : Bool) (now : Clock → UInt64) :
    ((e.step core spurious now).phase core).Opens plan core
      ((e.step core spurious now).meeting.progress core) := by
  have hle := e.rounds_le_step core spurious now
  have hlater : ((e.step core spurious now).meeting.progress core).rounds ≠ 0 := by omega
  have hstep : e.step core spurious now =
      e.iterateStep core spurious now runner calibration stage := by
    simp only [Experiment.step, hphase]
  obtain ⟨e₁, phase, hgo, -, -, hgoes, hpace⟩ :=
    e.iterateStep_eq_goTo core spurious now runner calibration stage
  have hphase' : (e.step core spurious now).phase core = phase := by
    rw [hstep, hgo, phase_goTo_self]
  rw [hphase']
  rcases hgoes with hgoes | rfl
  · cases phase with
    | iterate => exact ⟨hbuffer, fun hzero => absurd hzero hlater⟩
    | ended outcome =>
      rcases outcome with cause | result
      · exact absurd hgoes id
      · exact ⟨hbuffer, fun hzero => absurd hzero hlater⟩
    | furnish => simp [Phase.pace] at hpace
    | _ => exact absurd hgoes id
  · exact ⟨fun _ => hlater, fun hnone => absurd hbuffer hnone⟩

/-- A step of a core leads to where it may stand then, if nobody has failed before. -/
theorem opens_step_self (h : (e.phase core).Opens plan core (e.meeting.progress core))
    (hfailed : e.startup.failed = false) (spurious : Bool) (now : Clock → UInt64) :
    ((e.step core spurious now).phase core).Opens plan core
      ((e.step core spurious now).meeting.progress core) := by
  cases hphase : e.phase core with
  | arrive setup point =>
    rw [hphase] at h
    obtain ⟨hhere, b, w, rfl, hready⟩ := h
    simp only [Experiment.step, hphase, phase_goTo_self]
    rcases point.step core e.startup with ⟨startup, _ | point'⟩
    · exact ⟨hhere, hready⟩
    · exact ⟨hhere, b, w, rfl, hready⟩
  | await b w =>
    rw [hphase] at h
    simp only [Experiment.step, hphase]
    split_ifs
    · rw [hphase]
      exact h
    · rw [phase_goTo_self]
      exact h
  | judge b w =>
    rw [hphase] at h
    simp only [Experiment.step, hphase, phase_goTo_self, hfailed]
    exact h
  | furnish b w =>
    rw [hphase] at h
    obtain ⟨hhere, hready⟩ := h
    simp only [Experiment.step, hphase]
    rcases furnish_cases_of_isReady hready w now core with
      ⟨hbuffer, runner, rows, hfurnish, hzero⟩ | ⟨hnone, hfurnish⟩
    · simp only [hfurnish, phase_goTo_self]
      exact ⟨hbuffer, fun _ => Or.inr ⟨rfl, hzero⟩⟩
    · simp only [hfurnish, phase_goTo_self]
      exact ⟨fun hbuffer => absurd hbuffer hnone, fun _ => hhere⟩
  | iterate runner calibration stage =>
    have hopens := h
    rw [hphase] at hopens
    obtain ⟨hbuffer, hstage⟩ := hopens
    by_cases hrounds : (e.meeting.progress core).rounds = 0
    · exact opens_step_of_first hphase hbuffer (hstage hrounds) spurious now
    · exact opens_step_of_later hphase hbuffer hrounds spurious now
  | ended outcome =>
    rw [hphase] at h
    simp only [Experiment.step, hphase]
    exact h

/-! ### Runs -/

/-- What holds between two steps of cores that are all set up. -/
structure IsOpening (setups : Fin plan.shape.cores → Except Cause
    (Bracket TickingCounters × Benchmark)) (sinks : Nat)
    (e : Experiment plan TickingCounters Benchmark) : Prop where
  gathers : e.Gathers setups sinks
  meeting : e.meeting.Sound
  opens : ∀ core, (e.phase core).Opens plan core (e.meeting.progress core)

variable {setups : Fin plan.shape.cores → Except Cause (Bracket TickingCounters × Benchmark)}
  {sinks : Nat}

/-- Whatever core makes a step, each core leads to where it may stand then. -/
theorem IsOpening.step (h : e.IsOpening setups sinks) (hready : AllReady setups)
    (core : Fin plan.shape.cores) (spurious : Bool) (now : Clock → UInt64) :
    (e.step core spurious now).IsOpening setups sinks := by
  have hfailed : e.startup.failed = false :=
    Bool.eq_false_iff.mpr fun hfailed => h.gathers.isTrue.failed hfailed hready
  refine ⟨h.gathers.step core spurious now, ?_, fun i => ?_⟩
  · rcases e.meeting_step_cases core spurious now with hmeeting | hmeeting
    · rw [hmeeting]
      exact h.meeting
    · rw [hmeeting]
      exact h.meeting.step core spurious
  · by_cases hi : i = core
    · subst hi
      exact opens_step_self (h.opens i) hfailed spurious now
    · have hsame : (e.step core spurious now).meeting.progress i = e.meeting.progress i := by
        rcases e.meeting_step_cases core spurious now with hmeeting | hmeeting
        · rw [hmeeting]
        · rw [hmeeting, Meeting.progress_step_of_ne _ hi]
      rw [e.phase_step_of_ne hi, hsame]
      exact h.opens i

/-- So it is in all orders of steps. -/
theorem IsOpening.follow (h : e.IsOpening setups sinks) (hready : AllReady setups)
    (schedule : List (Turn plan)) : (e.follow schedule).IsOpening setups sinks := by
  induction schedule generalizing e with
  | nil => exact h
  | cons turn schedule ih => exact ih (h.step hready turn.core turn.spurious turn.now)

/-- So it is at the start, if all cores are set up. -/
lemma isOpening_start {equipment : Equipment TickingCounters Benchmark}
    (hready : AllReady (equipment.setUp plan)) (sinks : Nat) :
    (start (Vector.ofFn (equipment.setUp plan)) sinks).IsOpening (equipment.setUp plan) sinks := by
  refine ⟨gathers_start _ sinks, Meeting.Sound.idle _, fun core => ?_⟩
  obtain ⟨⟨b, w⟩, hsetup⟩ := hready core
  obtain ⟨⟨counters, events, -, hbracket⟩, -⟩ := Equipment.setUp_eq_ok hsetup
  rw [phase_start, get_ofFn]
  exact ⟨Meeting.progress_idle core, b, w, hsetup, Bracket.isReady_of_ofCounters hbracket⟩

/-! ### The outcome -/

/-- What shows before the first round is over. -/
structure OpensWithBuffers (e : Experiment plan TickingCounters Benchmark) : Prop where
  /-- A core that has a buffer gets its runner. -/
  furnished : ∀ core b w now, e.phase core = .furnish b w → plan.HasBuffer core →
    ∃ runner rows, furnish now core b w = .ok (runner, rows)
  /-- A core that has none stops. -/
  stopped : ∀ core b w now, e.phase core = .furnish b w → ¬ plan.HasBuffer core →
    furnish now core b w = .error .capacity
  /-- A core that has a buffer does not fail before it is through its first round. -/
  lives : ∀ core, plan.HasBuffer core → (e.meeting.progress core).rounds = 0 →
    ∀ cause, e.phase core ≠ .ended (.error cause)
  /-- Where a core has none, nobody gets through the first round, and no other core that is to do
  one comes to an end. -/
  waits : ∀ core, ¬ plan.HasBuffer core → ∀ i, (e.meeting.progress i).rounds = 0 ∧
    (plan.HasBuffer i → plan.config.iterations ≠ some 0 → (e.phase i).isOver = false)

/-- A core that has no buffer does not come to its first round. -/
lemma IsOpening.progress_eq (h : e.IsOpening setups sinks) (hnone : ¬ plan.HasBuffer core) :
    e.meeting.progress core = {} := by
  have hopens := h.opens core
  cases hphase : e.phase core with
  | iterate runner calibration stage =>
    rw [hphase] at hopens
    exact absurd hopens.1 hnone
  | ended outcome =>
    rw [hphase] at hopens
    rcases outcome with cause | result
    · exact hopens.2 hnone
    · exact absurd hopens.1 hnone
  | _ =>
    rw [hphase] at hopens
    exact hopens.1

/-- What holds between two steps shows in this way. -/
theorem IsOpening.opensWithBuffers (h : e.IsOpening setups sinks) : e.OpensWithBuffers := by
  have hready : ∀ {core b w}, e.phase core = .furnish b w → b.IsReady := by
    intro core b w hphase
    have hopens := h.opens core
    rw [hphase] at hopens
    exact hopens.2
  refine ⟨fun core b w now hphase hbuffer => ?_, fun core b w now hphase hnone => ?_,
    fun core hbuffer hrounds cause hphase => ?_, fun core hnone i => ?_⟩
  · rcases furnish_cases_of_isReady (hready hphase) w now core with
      ⟨-, runner, rows, hfurnish, -⟩ | ⟨hnone, -⟩
    · exact ⟨runner, rows, hfurnish⟩
    · exact absurd hbuffer hnone
  · rcases furnish_cases_of_isReady (hready hphase) w now core with ⟨hbuffer, -⟩ | ⟨-, hfurnish⟩
    · exact absurd hbuffer hnone
    · exact hfurnish
  · have hopens := h.opens core
    rw [hphase] at hopens
    exact hopens.1 hbuffer hrounds
  · have hnowhere := h.progress_eq hnone
    have hphase : e.meeting.view.phase core = 0 := by
      refine Meeting.view_phase_of_none ?_
      rw [hnowhere]
    have hle : (e.meeting.progress i).rounds ≤ (e.meeting.progress core).rounds :=
      (h.meeting.view.of_beginning hphase i).1
    have hrounds : (e.meeting.progress i).rounds = 0 := by
      rw [hnowhere] at hle
      exact Nat.le_zero.mp hle
    refine ⟨hrounds, fun hbuffer hlimit => Bool.eq_false_iff.mpr fun hover => ?_⟩
    have hopens := h.opens i
    cases hi : e.phase i with
    | ended outcome =>
      rw [hi] at hopens
      rcases outcome with cause | result
      · exact hopens.1 hbuffer hrounds
      · exact hlimit (hopens.2 hrounds)
    | _ =>
      rw [hi] at hover
      exact absurd hover Bool.false_ne_true

/-- **Cores open an experiment if they have buffers.**  Once all cores are set up, a core gets its
runner and comes to its first round unless the buffer by which it conditions its caches cannot be
addressed.  If it cannot, the core stops, and all others that are to do a round wait forever. -/
theorem opens_with_buffers {equipment : Equipment TickingCounters Benchmark}
    (hready : ∀ core, ∃ x, equipment.setUp plan core = .ok x) (sinks : Nat)
    (schedule : List (Turn plan)) :
    ((start (Vector.ofFn (equipment.setUp plan)) sinks).follow schedule).OpensWithBuffers :=
  ((isOpening_start hready sinks).follow hready schedule).opensWithBuffers

/-! ### Two cores that condition their caches -/

/-- Two cores with one iteration to do and buffers of those sizes. -/
def conditioned (fullBytes privateBytes : UInt64) : Config where
  cores := [⟨"simulated", some 5, []⟩, ⟨"bsort", some 3, []⟩]
  cache := ⟨.evict, fullBytes, privateBytes⟩
  iterations := some 1

/-- Two cores with buffers of a few cache lines. -/
def smallBuffers : Plan where
  config := conditioned 256 64
  valid := by decide

/-- Two cores, the first of which has a buffer of more bytes than there are addresses. -/
def largeBuffer : Plan where
  config := conditioned 0x8000000000000000 64
  valid := by decide

/-- The cores take so many turns each, in the order of their numbers. -/
def sweeps (plan : Plan) (times : Nat) : List (Turn plan) :=
  (List.replicate times (List.finRange plan.shape.cores)).flatten.map
    fun core => ⟨core, false, Clock.ticks⟩

/-- The cores with fresh counters after so many turns of each. -/
def opened (plan : Plan) (times : Nat) : Experiment plan TickingCounters Benchmark :=
  (start (Vector.ofFn (freshCounters.setUp plan)) 1).follow (sweeps plan times)

/-- Both cores get their runners when they have arrived. -/
theorem opens_with_buffers_of_smallBuffers :
    (∀ core, ∃ b w, (opened smallBuffers 3).phase core = .furnish b w) ∧
      ∀ core b w now, (opened smallBuffers 3).phase core = .furnish b w →
        ∃ runner rows, furnish now core b w = .ok (runner, rows) := by
  have hsetUp : ∀ core, (freshCounters.setUp smallBuffers core).isOk = true := by decide +kernel
  have hopens := opens_with_buffers (fun core => exists_eq_ok (hsetUp core)) 1
    (sweeps smallBuffers 3)
  have hbuffers : ∀ core, smallBuffers.HasBuffer core := by
    unfold Plan.HasBuffer
    decide
  have hpace : ∀ core, ((opened smallBuffers 3).phase core).pace = 5 := by decide +kernel
  refine ⟨fun core => ?_, fun core b w now hphase => ?_⟩
  · have hcore := hpace core
    cases hphase : (opened smallBuffers 3).phase core with
    | furnish b w => exact ⟨b, w, rfl⟩
    | arrive setup point =>
      rw [hphase] at hcore
      cases point <;> simp [Phase.pace] at hcore
    | _ =>
      rw [hphase] at hcore
      simp [Phase.pace] at hcore
  · exact hopens.furnished core b w now hphase (hbuffers core)

/-- A core can stop before its first round although all cores were set up, and the other one then
waits forever. -/
theorem stops_before_first_round :
    largeBuffer.checkWorkloads freshCounters.registry = .ok () ∧
      (∀ core, ∃ x, freshCounters.setUp largeBuffer core = .ok x) ∧
      (opened largeBuffer 6).phase ⟨0, by decide⟩ = .ended (.error .stopped) ∧
      ∀ schedule, (((opened largeBuffer 6).follow schedule).phase ⟨1, by decide⟩).isOver = false ∧
        (((opened largeBuffer 6).follow schedule).meeting.progress ⟨1, by decide⟩).rounds = 0 := by
  have hsetUp : ∀ core, (freshCounters.setUp largeBuffer core).isOk = true := by decide +kernel
  have hready : AllReady (freshCounters.setUp largeBuffer) :=
    fun core => exists_eq_ok (hsetUp core)
  have hnone : ¬ largeBuffer.HasBuffer ⟨0, by decide⟩ := by
    unfold Plan.HasBuffer
    decide
  have hbuffer : largeBuffer.HasBuffer ⟨1, by decide⟩ := by
    unfold Plan.HasBuffer
    decide
  refine ⟨by decide, hready, ?_, fun schedule => ?_⟩
  · have houtcome : ((opened largeBuffer 6).phase ⟨0, by decide⟩).outcome? =
        some (.error .stopped) := by decide +kernel
    cases hphase : (opened largeBuffer 6).phase ⟨0, by decide⟩ with
    | ended outcome =>
      rw [hphase] at houtcome
      exact congrArg Phase.ended (Option.some.inj houtcome)
    | _ =>
      rw [hphase] at houtcome
      cases houtcome
  · have hopening := ((isOpening_start hready 1).follow hready (sweeps largeBuffer 6)).follow hready
      schedule
    obtain ⟨hrounds, hwaits⟩ := hopening.opensWithBuffers.waits _ hnone ⟨1, by decide⟩
    exact ⟨hwaits hbuffer (by decide), hrounds⟩

end Experiment

end Lockstep
