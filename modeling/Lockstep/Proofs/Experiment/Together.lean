import Lockstep.Proofs.Experiment.Startup

/-!
# What comes out of starting together

Cores that start together all get to know whether all of them are ready.  How far each of them has
come is counted in steps (`Phase.pace`): an arrival takes three turns of a core at most, and two
more lead out of waiting once all cores have arrived, whatever the others do in between.

If a core is not ready, all cores end, and the experiment reports the failure of the core that was
noted first.  This core has failed itself; those that only gave up because of it are never reported.
-/

namespace Lockstep

namespace Experiment

variable {plan : Plan} {P W : Type} {e : Experiment plan P W} {core : Fin plan.shape.cores}
  {sinks : Nat} {setups : Fin plan.shape.cores → Except Cause (Bracket P × W)}

/-! ### What is reported -/

/-- Cores that have ended are reported with how they have ended, each in its place. -/
lemma mapM_outcome? (outcomes : List Report.Outcome) :
    (outcomes.map (Phase.ended : Report.Outcome → Phase P W)).mapM Phase.outcome? =
      some outcomes := by
  induction outcomes with
  | nil => rfl
  | cons outcome outcomes ih =>
    rw [List.map_cons, List.mapM_cons, ih]
    rfl

/-- When all cores have ended the failure of the core that was noted is reported. -/
lemma report?_of_firstFailure (hover : e.isOver = true)
    (hfirst : e.startup.firstFailure = some core) {cause : Cause}
    (hphase : e.phase core = .ended (.error cause)) :
    e.report? = some (.error ⟨core, cause⟩) := by
  have hended : ∀ phase ∈ e.phases.toList,
      phase ∈ Set.range (Phase.ended : Report.Outcome → Phase P W) := by
    intro phase hphase
    have hphaseOver := List.all_eq_true.mp hover phase hphase
    cases phase with
    | ended outcome => exact ⟨outcome, rfl⟩
    | _ => exact absurd hphaseOver Bool.noConfusion
  obtain ⟨outcomes, houtcomes⟩ : e.phases.toList ∈
      Set.range (List.map (Phase.ended : Report.Outcome → Phase P W)) := by
    rw [Set.range_list_map]
    exact hended
  have hplace : outcomes[core.val]? = some (.error cause) := by
    have hget : e.phases.toList[core.val]? = some (.ended (.error cause)) := by
      rw [Vector.getElem?_toList, ← hphase]
      exact Vector.getElem?_eq_getElem core.isLt
    rw [← houtcomes, List.getElem?_map, Option.map_eq_some_iff] at hget
    obtain ⟨outcome, houtcome, heq⟩ := hget
    rw [houtcome, Phase.ended.inj heq]
  have hfailure : Report.failure? outcomes core.val = some ⟨core, cause⟩ := by
    rw [Report.failure?, hplace]
  rw [report?, ← houtcomes, mapM_outcome?, hfirst]
  simp only [Option.map_some, Report.ofAll, Option.bind_some, hfailure]

/-! ### The way in which cores start -/

/-- What shows of cores that start together, wherever they have got to. -/
structure StartsTogether (setups : Fin plan.shape.cores → Except Cause (Bracket P × W))
    (sinks : Nat) (e : Experiment plan P W) : Prop where
  /-- Every core that has arrived is counted once. -/
  counted : e.startup.arrived = (Finset.univ.filter fun core => (e.phase core).HasArrived).card
  /-- Whoever decides has waited for all cores, and decides as all of them do. -/
  decided : ∀ core bracket workload, e.phase core = .judge bracket workload →
    e.startup.arrived = plan.shape.cores ∧ (e.startup.failed = false ↔ AllReady setups)
  /-- Cores only go on if all of them are ready. -/
  goesOn : ∀ core, (e.phase core).GoesOn → AllReady setups
  /-- Cores only give up if not all of them are ready. -/
  givesUp : ∀ core, e.phase core = .ended (.error .aborted) → ¬ AllReady setups
  /-- Unless all cores are ready, nobody meets the others, and nothing is handed out. -/
  untouched : ¬ AllReady setups →
    e.meeting = Meeting.idle plan.shape ∧ e.received = List.replicate sinks #[] ∧ e.tended = #[]
  /-- The failure that is reported is the one of the core that was noted first. -/
  blamed : ¬ AllReady setups → e.isOver = true → ∃ core cause,
    e.startup.firstFailure = some core ∧ setups core = .error cause ∧
      e.report? = some (.error ⟨core, cause⟩) ∧
      cause.TellsOwn core (Failure.message ⟨core, cause⟩)
  /-- Cores that were ready and have not failed later on have completed their iterations. -/
  completed : AllReady setups → e.isOver = true → ¬ e.HasFailed →
    ∀ limit, plan.config.iterations = some limit →
      ∃ rows, e.report? = some (.ok ⟨List.replicate plan.shape.cores limit, rows⟩)

/-- When all cores have ended, one that has failed was noted first. -/
lemma Gathers.exists_firstFailure (h : e.Gathers setups sinks) (hnot : ¬ AllReady setups)
    (hover : e.isOver = true) : ∃ core cause, e.startup.firstFailure = some core ∧
      setups core = .error cause ∧ e.phase core = .ended (.error cause) := by
  have hended := e.isOver_iff.mp hover
  obtain ⟨i, cause, hsetup⟩ := exists_error_of_not_allReady hnot
  have hnoted : (e.phase i).HasNoted := by
    have hi := hended i
    cases hphase : e.phase i with
    | ended outcome => trivial
    | _ =>
      rw [hphase] at hi
      exact absurd hi Bool.noConfusion
  obtain ⟨core, hfirst⟩ := Option.ne_none_iff_exists'.mp ((h.said i).noted cause hsetup hnoted)
  obtain ⟨cause, hcause⟩ := h.isTrue.first core hfirst
  refine ⟨core, cause, hfirst, hcause, ?_⟩
  have hcore := hended core
  have hfollows := h.follows core
  cases hphase : e.phase core with
  | ended outcome =>
    rw [hphase] at hfollows
    rcases outcome with cause' | result
    · rcases hfollows with hown | ⟨⟨x, hx⟩, -⟩
      · obtain rfl : cause = cause' := Except.error.inj (hcause.symm.trans hown)
        rfl
      · cases hcause.symm.trans hx
    · exact absurd hfollows hnot
  | _ =>
    rw [hphase] at hcore
    exact absurd hcore Bool.noConfusion

/-- What holds between steps shows in this way. -/
lemma Gathers.counted (h : e.Gathers setups sinks) :
    e.startup.arrived = (Finset.univ.filter fun core => (e.phase core).HasArrived).card := by
  have hsplit := Finset.card_filter_add_card_filter_not (s := Finset.univ)
    fun core => (e.phase core).HasArrived
  rw [Finset.card_univ, Fintype.card_fin] at hsplit
  have harrived := h.arrived
  rw [absent] at harrived
  omega

/-- Unless all cores are ready, a core that waits no more has ended. -/
lemma Gathers.isOver_of_not_waits (h : e.Gathers setups sinks) (hnot : ¬ AllReady setups)
    (hwaits : ¬ (e.phase core).Waits) : (e.phase core).isOver = true := by
  have hfollows := h.follows core
  cases hphase : e.phase core with
  | ended outcome => rfl
  | furnish bracket workload =>
    rw [hphase] at hfollows
    exact absurd hfollows hnot
  | iterate runner calibration stage =>
    rw [hphase] at hfollows
    exact absurd hfollows hnot
  | _ =>
    rw [hphase] at hwaits
    exact absurd trivial hwaits

/-- **What holds between steps shows in this way.** -/
theorem Gathers.startsTogether (h : e.Gathers setups sinks)
    (hown : ∀ core cause, setups core = .error cause → cause.IsOwn)
    (hsound : AllReady setups → ∀ limit, plan.config.iterations = some limit →
      e.Sound limit sinks) : e.StartsTogether setups sinks := by
  refine ⟨h.counted, fun core bracket workload hphase => ⟨?_, fun hfailed => ?_, fun hready => ?_⟩,
    fun core hgoes => ?_, fun core hphase hready => ?_, h.untouched, fun hnot hover => ?_,
    fun hready hover hlive limit hlimit => (hsound hready limit hlimit).exists_report hover hlive⟩
  · have harrived := h.arrived
    rwa [h.decides core bracket workload hphase, Finset.card_empty, Nat.add_zero] at harrived
  · exact h.allReady_of_judge hphase (by rw [hfailed]; exact Bool.false_ne_true)
  · exact Bool.eq_false_iff.mpr fun hfailed => h.isTrue.failed hfailed hready
  · have hfollows := h.follows core
    cases hphase : e.phase core with
    | furnish bracket workload =>
      rw [hphase] at hfollows
      exact hfollows
    | iterate runner calibration stage =>
      rw [hphase] at hfollows
      exact hfollows
    | ended outcome =>
      rw [hphase] at hfollows hgoes
      rcases outcome with cause | result
      · exact absurd hgoes id
      · exact hfollows
    | _ =>
      rw [hphase] at hgoes
      exact absurd hgoes id
  · have hfollows := h.follows core
    rw [hphase] at hfollows
    obtain ⟨x, hx⟩ := hready core
    rcases hfollows with herror | ⟨-, ⟨-, hnot⟩ | ⟨hcause, -⟩⟩
    · cases hx.symm.trans herror
    · exact hnot hready
    · cases hcause
  · obtain ⟨core, cause, hfirst, hsetup, hphase⟩ := h.exists_firstFailure hnot hover
    exact ⟨core, cause, hfirst, hsetup, report?_of_firstFailure hover hfirst hphase,
      (hown core cause hsetup).tellsOwn core⟩

/-! ### Nobody waits forever -/

variable [Counters P] [Workload W]

/-- No step sets a core back.  A core that arrives comes further with each of its steps, and so does
a core that waits for the others when all of them have arrived. -/
lemma pace_step (e : Experiment plan P W) (core : Fin plan.shape.cores) (spurious : Bool)
    (now : Clock → UInt64) :
    (e.phase core).pace ≤ ((e.step core spurious now).phase core).pace ∧
      ((e.phase core).pace < 3 ∨
          plan.shape.cores ≤ e.startup.arrived ∧ (e.phase core).pace < 5 →
        (e.phase core).pace < ((e.step core spurious now).phase core).pace) := by
  cases hphase : e.phase core with
  | arrive own point =>
    simp only [Experiment.step, hphase, phase_goTo_self]
    cases point with
    | count => cases own <;> simp [Arriving.step, Phase.pace]
    | _ => simp [Arriving.step, Phase.pace]
  | await bracket workload =>
    simp only [Experiment.step, hphase]
    split_ifs with hmissing
    · rw [hphase]
      refine ⟨le_rfl, fun h => ?_⟩
      simp only [Phase.pace] at h
      omega
    · simp [Phase.pace]
  | judge bracket workload =>
    simp only [Experiment.step, hphase, phase_goTo_self]
    split_ifs <;> simp [Phase.pace]
  | furnish bracket workload =>
    simp only [Experiment.step, hphase]
    rcases Experiment.furnish now core bracket workload with fault | ⟨runner, rows⟩
    · simp [Phase.pace]
    · simp [Phase.pace]
  | iterate runner calibration stage =>
    obtain ⟨e₁, phase, hgo, -, -, -, hpace⟩ :=
      e.iterateStep_eq_goTo core spurious now runner calibration stage
    simp only [Experiment.step, hphase, hgo, phase_goTo_self]
    refine ⟨hpace, fun h => ?_⟩
    simp [Phase.pace] at h
  | ended outcome =>
    simp only [Experiment.step, hphase]
    refine ⟨le_rfl, fun h => ?_⟩
    simp [Phase.pace] at h

/-- How many of the turns are those of a core. -/
def turnsOf (core : Fin plan.shape.cores) (schedule : List (Turn plan)) : Nat :=
  schedule.countP fun turn => turn.core = core

/-- A core that comes further with each of its turns until it has come so far gets there if it takes
enough turns. -/
theorem le_pace_follow (core : Fin plan.shape.cores) {I : Experiment plan P W → Prop} (bound : Nat)
    (hkeeps : ∀ e, I e → ∀ i spurious now, I (e.step i spurious now))
    (hfurther : ∀ e, I e → ∀ spurious now, (e.phase core).pace < bound →
      (e.phase core).pace < ((e.step core spurious now).phase core).pace)
    (h : I e) (schedule : List (Turn plan)) :
    min bound ((e.phase core).pace + turnsOf core schedule) ≤
      ((e.follow schedule).phase core).pace := by
  induction schedule generalizing e with
  | nil => exact Nat.min_le_right _ _
  | cons turn schedule ih =>
    have hrest := ih (hkeeps e h turn.core turn.spurious turn.now)
    change _ ≤ (((e.step turn.core turn.spurious turn.now).follow schedule).phase core).pace
    by_cases hturn : turn.core = core
    · have hcount : turnsOf core (turn :: schedule) = turnsOf core schedule + 1 :=
        List.countP_cons_of_pos (by simp [hturn])
      have hle := (e.pace_step core turn.spurious turn.now).1
      have hlt := hfurther e h turn.spurious turn.now
      rw [hturn] at hrest ⊢
      rw [hcount]
      omega
    · have hcount : turnsOf core (turn :: schedule) = turnsOf core schedule :=
        List.countP_cons_of_neg (by simp [hturn])
      rw [e.phase_step_of_ne (Ne.symm hturn)] at hrest
      rwa [hcount]

/-- All cores have arrived when each of them has taken three turns. -/
lemma absent_follow_eq_empty {first : List (Turn plan)} (hfirst : ∀ core, 3 ≤ turnsOf core first) :
    (e.follow first).absent = ∅ := by
  refine absent_eq_empty_iff.mpr fun core => Phase.hasArrived_iff.mpr ?_
  have hpace := le_pace_follow core 3 (I := fun _ => True) (e := e)
    (fun _ _ _ _ _ => trivial)
    (fun e _ spurious now hlt => (e.pace_step core spurious now).2 (Or.inl hlt)) trivial first
  have hturns := hfirst core
  omega

/-- No core waits when all cores have arrived and each of them has taken two more turns. -/
lemma not_waits_follow (h : e.Gathers setups sinks) (hall : e.absent = ∅)
    {second : List (Turn plan)} (hsecond : ∀ core, 2 ≤ turnsOf core second)
    (core : Fin plan.shape.cores) : ¬ ((e.follow second).phase core).Waits := by
  have hpace := le_pace_follow core 5
    (I := fun e => e.Gathers setups sinks ∧ e.absent = ∅) ?_ ?_ ⟨h, hall⟩ second
  · have harrived := Phase.hasArrived_iff.mp (absent_eq_empty_iff.mp hall core)
    have hturns := hsecond core
    rw [Phase.waits_iff]
    omega
  · rintro e ⟨h, hall⟩ i spurious now
    refine ⟨h.step i spurious now, absent_eq_empty_iff.mpr fun k => ?_⟩
    rw [absent_eq_empty_iff] at hall
    by_cases hk : k = i
    · rw [hk, Phase.hasArrived_iff]
      exact (Phase.hasArrived_iff.mp (hall i)).trans (e.pace_step i spurious now).1
    · rw [e.phase_step_of_ne hk]
      exact hall k
  · rintro e ⟨h, hall⟩ spurious now hlt
    have hcount := h.arrived
    rw [hall, Finset.card_empty] at hcount
    exact (e.pace_step core spurious now).2 (Or.inr ⟨by omega, hlt⟩)

/-- **Cores start together or not at all.**  Each core is set up, or there is no thread for it, and
then they arrive in any order of steps.  Wherever they have got to, what shows of them tells whether
all setups have succeeded.  After three turns of each core all of them are counted, and after two
more turns of each nobody waits any more; if a core is not ready, all cores have ended then. -/
theorem starts_together {equipment : Equipment P W}
    (hhook : ∀ core, equipment.hook core ≠ .error .aborted)
    (hcounters : ∀ core, equipment.counters core ≠ .error .aborted)
    (hsetups : ∀ core, setups core = equipment.setUp plan core ∨
      ∃ reason, setups core = .error (.unspawned reason)) (sinks : Nat) :
    (∀ schedule : List (Turn plan),
      ((start (Vector.ofFn setups) sinks).follow schedule).StartsTogether setups sinks) ∧
    ∀ first second : List (Turn plan),
      (∀ core, 3 ≤ turnsOf core first) → (∀ core, 2 ≤ turnsOf core second) →
        ((start (Vector.ofFn setups) sinks).follow first).startup.arrived = plan.shape.cores ∧
        (∀ core,
          ¬ (((start (Vector.ofFn setups) sinks).follow (first ++ second)).phase core).Waits) ∧
        (¬ AllReady setups →
          ((start (Vector.ofFn setups) sinks).follow (first ++ second)).isOver = true) := by
  have hown : ∀ core cause, setups core = .error cause → cause.IsOwn := by
    intro core cause hcause
    rcases hsetups core with hsetup | ⟨reason, hsetup⟩
    · exact Equipment.isOwn_of_setUp (hhook _) (hcounters _) (hsetup ▸ hcause)
    · obtain rfl : Cause.unspawned reason = cause := Except.error.inj (hsetup.symm.trans hcause)
      exact Cause.noConfusion
  have hstart := gathers_start setups sinks
  refine ⟨fun schedule => (hstart.follow schedule).startsTogether hown ?_,
    fun first second hfirst hsecond => ?_⟩
  · intro hready limit hlimit
    refine (sound_start (fun core => ?_) limit sinks).follow hlimit schedule
    rw [get_ofFn]
    exact hready core
  · have hgathers := hstart.follow first
    have hempty := absent_follow_eq_empty (e := start (Vector.ofFn setups) sinks) hfirst
    have hcount := hgathers.arrived
    rw [hempty, Finset.card_empty, Nat.add_zero] at hcount
    have happend : (start (Vector.ofFn setups) sinks).follow (first ++ second) =
        ((start (Vector.ofFn setups) sinks).follow first).follow second := List.foldl_append
    have hwaits := fun core => not_waits_follow hgathers hempty hsecond core
    rw [happend]
    refine ⟨hcount, hwaits, fun hnot => (isOver_iff _).mpr fun core => ?_⟩
    exact (hgathers.follow second).isOver_of_not_waits hnot (hwaits core)

/-! ### Four cores with three troubles -/

/-- Four cores with simulated workloads. -/
def simulatedFour : Plan where
  config := { cores := List.replicate 4 ⟨"simulated", none, []⟩ }
  valid := by decide

/-- One core refuses to start, and the counters of another one stop half-way. -/
def troubled : Equipment TickingCounters Benchmark where
  registry := Registry.withSimulated
  hook := fun core => if core.index = 1 then .error (.refused "cannot pin") else .ok ()
  counters := fun core =>
    if core.index = 2 then .error .stopped else .ok (TickingCounters.withSlots Event.slotLimit)

/-- What the cores are set up with, but that there is no thread for the last one. -/
def troubledSetups (core : Fin simulatedFour.shape.cores) :
    Except Cause (Bracket TickingCounters × Benchmark) :=
  if core.val = 3 then .error (.unspawned "no thread") else troubled.setUp simulatedFour core

/-- The four cores take so many turns each, in the order of their numbers. -/
def inOrder (times : Nat) : List (Turn simulatedFour) :=
  (List.replicate times (List.finRange simulatedFour.shape.cores)).flatten.map
    fun core => ⟨core, false, Clock.ticks⟩

/-- The core that refused to start is noted first and reported, although two others have failed. -/
theorem starts_together_of_troubled :
    ((start (Vector.ofFn troubledSetups) 2).follow (inOrder 3 ++ inOrder 2)).report? =
      some (.error ⟨1, .refused "cannot pin"⟩) := by
  have hhook : ∀ core, troubled.hook core ≠ .error .aborted := by
    intro core
    simp only [troubled]
    split_ifs <;> simp
  have hcounters : ∀ core, troubled.counters core ≠ .error .aborted := by
    intro core
    simp only [troubled]
    split_ifs <;> simp
  have hsetups : ∀ core, troubledSetups core = troubled.setUp simulatedFour core ∨
      ∃ reason, troubledSetups core = .error (.unspawned reason) := by
    intro core
    unfold troubledSetups
    split_ifs
    · exact Or.inr ⟨_, rfl⟩
    · exact Or.inl rfl
  have hlast : troubledSetups ⟨3, by decide⟩ = .error (.unspawned "no thread") := rfl
  have hnot : ¬ AllReady troubledSetups := not_allReady_of_error hlast
  obtain ⟨htogether, hturns⟩ := starts_together hhook hcounters hsetups 2
  obtain ⟨-, -, hover⟩ := hturns (inOrder 3) (inOrder 2) (by decide) (by decide)
  obtain ⟨core, cause, hfirst, hsetup, hreport, -⟩ :=
    (htogether (inOrder 3 ++ inOrder 2)).blamed hnot (hover hnot)
  have hnoted : ((start (Vector.ofFn troubledSetups) 2).follow
      (inOrder 3 ++ inOrder 2)).startup.firstFailure = some ⟨1, by decide⟩ := by decide +kernel
  obtain rfl : core = ⟨1, by decide⟩ := Option.some.inj (hfirst.symm.trans hnoted)
  obtain rfl : Cause.refused "cannot pin" = cause := Except.error.inj hsetup
  exact hreport

end Experiment

end Lockstep
