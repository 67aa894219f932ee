import Lockstep.Proofs.Experiment.Outcome

/-!
# Starting together

Cores arrive at the start in any order, each by its own accesses to what they share, and any number
of them may have failed, each in its own way.  What is shared then tells nothing but what the setups
have come to (`Experiment.Gathers`): a failed core notes itself and gives its warning before it is
counted, so whoever has seen that all cores are counted also sees whether one of them has failed.

So all cores that were ready decide in the same way, and go on if and only if all cores are ready.
Until then nothing else happens, neither in the meeting nor in the sinks.
-/

namespace Lockstep

/-! ### Causes of failures -/

namespace Cause

variable {cause : Cause}

/-- The cause concerns the core itself, and not another one. -/
def IsOwn (cause : Cause) : Prop :=
  cause ≠ .aborted

/-- What is told about a core says with its number why the core itself has failed. -/
def TellsOwn (core : Nat) (message : String) : Cause → Prop
  | refused reason => message = "core " ++ core.repr ++ ": " ++ reason
  | stopped => message = "core " ++ core.repr ++ " panicked"
  | unspawned reason =>
    message = "failed to spawn thread for core " ++ core.repr ++ ": " ++ reason
  | aborted => False

/-- What is told about a core that has failed itself. -/
lemma IsOwn.tellsOwn (h : cause.IsOwn) (core : Nat) :
    cause.TellsOwn core (cause.message core) := by
  cases cause with
  | aborted => exact absurd rfl h
  | _ => exact rfl

end Cause

namespace Equipment

variable {P W : Type} [Counters P] {equipment : Equipment P W} {plan : Plan}
  {core : Fin plan.shape.cores} {cause : Cause}

/-- What is wrong with the events of a core is its own failure. -/
lemma isOwn_of_bracket {counters : P} {mask : InterruptMask} {entry : CoreConfig}
    (h : Equipment.bracket counters mask entry = .error cause) : cause.IsOwn := by
  rcases bind_eq_error.mp h with h | ⟨events, -, h⟩
  · obtain ⟨text, -, rfl⟩ := mapError_eq_error.mp h
    exact Cause.noConfusion
  rcases bind_eq_error.mp h with h | ⟨made, -, h⟩
  · obtain ⟨e, -, rfl⟩ := mapError_eq_error.mp h
    exact Cause.noConfusion
  · obtain ⟨fault, -, rfl⟩ := mapError_eq_error.mp h
    exact Cause.noConfusion

/-- A core whose setup has failed has failed itself, if this is so for what it is set up with. -/
lemma isOwn_of_setUp (hhook : equipment.hook ⟨core⟩ ≠ .error .aborted)
    (hcounters : equipment.counters ⟨core⟩ ≠ .error .aborted)
    (h : equipment.setUp plan core = .error cause) : cause.IsOwn := by
  rcases bind_eq_error.mp h with h | ⟨-, -, h⟩
  · exact fun haborted => hhook (haborted ▸ h)
  rcases bind_eq_error.mp h with h | ⟨counters, -, h⟩
  · exact fun haborted => hcounters (haborted ▸ h)
  rcases bind_eq_error.mp h with h | ⟨mask, -, h⟩
  · obtain ⟨e, -, rfl⟩ := mapError_eq_error.mp h
    exact Cause.noConfusion
  rcases bind_eq_error.mp h with h | ⟨bracket, -, h⟩
  · exact isOwn_of_bracket h
  rcases bind_eq_error.mp h with h | ⟨workload, -, h⟩
  · obtain ⟨e, -, rfl⟩ := mapError_eq_error.mp h
    unfold workloadCause
    cases e.fault? with
    | none => exact Cause.noConfusion
    | some fault => exact Cause.noConfusion
  · cases h

end Equipment

/-! ### Where a core stands before it goes on -/

namespace Phase

variable {P W : Type}

/-- The core has noted itself, if it has failed. -/
def HasNoted : Phase P W → Prop
  | arrive _ .claim => False
  | _ => True

/-- The core has given its warning, if it has failed. -/
def HasWarned : Phase P W → Prop
  | arrive _ .count => True
  | arrive _ _ => False
  | _ => True

/-- The core has begun to go through its iterations, or is about to. -/
def GoesOn : Phase P W → Prop
  | furnish _ _ => True
  | iterate _ _ _ => True
  | ended (.ok _) => True
  | _ => False

/-- The core does not know yet whether all cores are ready. -/
def Waits : Phase P W → Prop
  | arrive _ _ => True
  | await _ _ => True
  | judge _ _ => True
  | _ => False

/-- Where a core may stand after that setup; it only goes on if all cores are ready. -/
def Follows (allReady : Prop) (setup : Except Cause (Bracket P × W)) : Phase P W → Prop
  | arrive own point => own = setup ∧ (point = .count ∨ ∃ cause, setup = .error cause)
  | await bracket workload => setup = .ok (bracket, workload)
  | judge bracket workload => setup = .ok (bracket, workload)
  | furnish _ _ => allReady
  | iterate _ _ _ => allReady
  | ended (.ok _) => allReady
  | ended (.error cause) =>
    setup = .error cause ∨
      (∃ x, setup = .ok x) ∧ (cause = .aborted ∧ ¬ allReady ∨ cause = .stopped ∧ allReady)

/-- How far a core has come. -/
def pace : Phase P W → Nat
  | arrive _ .claim => 0
  | arrive _ .warn => 1
  | arrive _ .count => 2
  | await _ _ => 3
  | judge _ _ => 4
  | furnish _ _ => 5
  | iterate _ _ _ => 6
  | ended _ => 7

variable {phase : Phase P W}

/-- A core has arrived after the three steps of an arrival. -/
lemma hasArrived_iff : phase.HasArrived ↔ 3 ≤ phase.pace := by
  cases phase with
  | arrive setup point => cases point <;> simp [HasArrived, pace]
  | _ => simp [HasArrived, pace]

/-- A core knows whether all cores are ready after five steps. -/
lemma waits_iff : phase.Waits ↔ phase.pace < 5 := by
  cases phase with
  | arrive setup point => cases point <;> simp [Waits, pace]
  | _ => simp [Waits, pace]

/-- Whoever has arrived has noted itself and given its warning before. -/
lemma HasArrived.hasWarned (h : phase.HasArrived) : phase.HasWarned := by
  cases phase with
  | arrive setup point => exact absurd h id
  | _ => trivial

/-- Whoever has given its warning has noted itself before. -/
lemma HasWarned.hasNoted (h : phase.HasWarned) : phase.HasNoted := by
  cases phase with
  | arrive setup point =>
    cases point with
    | claim => exact h
    | _ => trivial
  | _ => trivial

end Phase

/-! ### What is shared while cores arrive -/

section Shared

variable {n : Nat} {α : Type} {setups : Fin n → Except Cause α} {s s' : Startup n}
  {core : Fin n} {point : Arriving}

/-- All cores are ready. -/
def AllReady (setups : Fin n → Except Cause α) : Prop :=
  ∀ core, ∃ x, setups core = .ok x

/-- A setup has failed if not all cores are ready. -/
lemma exists_error_of_not_allReady (h : ¬ AllReady setups) :
    ∃ core cause, setups core = .error cause := by
  obtain ⟨core, hcore⟩ := not_forall.mp h
  cases hsetup : setups core with
  | error cause => exact ⟨core, cause, hsetup⟩
  | ok x => exact absurd ⟨x, hsetup⟩ hcore

/-- Not all cores are ready if a setup has failed. -/
lemma not_allReady_of_error {cause : Cause} (h : setups core = .error cause) :
    ¬ AllReady setups := by
  intro hready
  obtain ⟨x, hx⟩ := hready core
  rw [h] at hx
  cases hx

namespace Startup

/-- Nothing is shared about failures but what the setups have come to. -/
structure IsTrue (setups : Fin n → Except Cause α) (s : Startup n) : Prop where
  first : ∀ core, s.firstFailure = some core → ∃ cause, setups core = .error cause
  failed : s.failed = true → ¬ AllReady setups

/-- What was said about failures is not taken back. -/
structure Keeps (s s' : Startup n) : Prop where
  first : s.firstFailure ≠ none → s'.firstFailure = s.firstFailure
  failed : s.failed = true → s'.failed = true

/-- Before the first access nothing is shared. -/
lemma isTrue_empty (setups : Fin n → Except Cause α) : ({} : Startup n).IsTrue setups :=
  ⟨fun _ h => Option.noConfusion rfl (heq_of_eq h), fun h => Bool.noConfusion h⟩

/-- What is the same is kept. -/
lemma Keeps.refl (s : Startup n) : s.Keeps s :=
  ⟨fun _ => rfl, id⟩

/-- No access takes back what was said about failures. -/
lemma keeps_step (core : Fin n) (s : Startup n) (point : Arriving) :
    s.Keeps (point.step core s).1 := by
  cases point with
  | claim =>
    refine ⟨fun hsome => ?_, id⟩
    obtain ⟨first, hfirst⟩ := Option.ne_none_iff_exists'.mp hsome
    simp only [Arriving.step, hfirst]
    rfl
  | warn => exact ⟨fun _ => rfl, fun _ => rfl⟩
  | count => exact ⟨fun _ => rfl, id⟩

/-- A core tells the truth about failures if only a core that has failed notes itself or gives a
warning. -/
lemma IsTrue.step (h : s.IsTrue setups)
    (hpoint : point = .count ∨ ∃ cause, setups core = .error cause) :
    (point.step core s).1.IsTrue setups := by
  cases point with
  | claim =>
    refine ⟨fun i hi => ?_, h.failed⟩
    simp only [Arriving.step] at hi
    cases hfirst : s.firstFailure with
    | none =>
      rw [hfirst] at hi
      obtain rfl : core = i := Option.some.inj hi
      exact hpoint.resolve_left Arriving.noConfusion
    | some first =>
      rw [hfirst] at hi
      obtain rfl : first = i := Option.some.inj hi
      exact h.first first hfirst
  | warn =>
    obtain ⟨cause, hsetup⟩ := hpoint.resolve_left Arriving.noConfusion
    exact ⟨h.first, fun _ => not_allReady_of_error hsetup⟩
  | count => exact ⟨h.first, h.failed⟩

end Startup

end Shared

namespace Phase

variable {P W : Type} {n : Nat} {s s' : Startup n} {setup : Except Cause (Bracket P × W)}
  {phase : Phase P W}

/-- A core that has failed has said so as far as it has come. -/
structure HasSaid (s : Startup n) (setup : Except Cause (Bracket P × W)) (phase : Phase P W) :
    Prop where
  noted : ∀ cause, setup = .error cause → phase.HasNoted → s.firstFailure ≠ none
  warned : ∀ cause, setup = .error cause → phase.HasWarned → s.failed = true

/-- What a core has said is not taken back. -/
lemma HasSaid.mono (h : phase.HasSaid s setup) (hkeeps : s.Keeps s') : phase.HasSaid s' setup := by
  refine ⟨fun cause hsetup hnoted => ?_,
    fun cause hsetup hwarned => hkeeps.failed (h.warned cause hsetup hwarned)⟩
  have hsome := h.noted cause hsetup hnoted
  rwa [hkeeps.first hsome]

/-- A core that has arrived has said all that it has to say. -/
lemma HasSaid.of_hasArrived {here : Phase P W} (h : here.HasSaid s setup)
    (hhere : here.HasArrived) : phase.HasSaid s setup :=
  ⟨fun cause hsetup _ => h.noted cause hsetup hhere.hasWarned.hasNoted,
    fun cause hsetup _ => h.warned cause hsetup hhere.hasWarned⟩

end Phase

namespace Experiment

variable {plan : Plan} {P W : Type} {e e' : Experiment plan P W} {core i : Fin plan.shape.cores}
  {sinks : Nat} {here phase : Phase P W}
  {setups : Fin plan.shape.cores → Except Cause (Bracket P × W)}

/-! ### What holds between two steps -/

/-- What holds between two steps of cores that were set up so. -/
structure Gathers (setups : Fin plan.shape.cores → Except Cause (Bracket P × W)) (sinks : Nat)
    (e : Experiment plan P W) : Prop where
  /-- Whoever has not arrived is not counted. -/
  arrived : e.startup.arrived + e.absent.card = plan.shape.cores
  isTrue : e.startup.IsTrue setups
  follows : ∀ core, (e.phase core).Follows (AllReady setups) (setups core)
  said : ∀ core, (e.phase core).HasSaid e.startup (setups core)
  /-- Whoever decides has seen that all cores have arrived. -/
  decides : ∀ core bracket workload, e.phase core = .judge bracket workload → e.absent = ∅
  /-- Nothing else happens unless all cores are ready. -/
  untouched : ¬ AllReady setups →
    e.meeting = Meeting.idle plan.shape ∧ e.received = List.replicate sinks #[] ∧ e.tended = #[]

/-- Nobody is absent if all cores have arrived. -/
lemma absent_eq_empty_iff : e.absent = ∅ ↔ ∀ core, (e.phase core).HasArrived := by
  rw [absent, Finset.filter_eq_empty_iff]
  exact ⟨fun h core => not_not.mp (h (Finset.mem_univ core)), fun h core _ hnot => hnot (h core)⟩

/-- Nothing has happened before the first step. -/
theorem gathers_start (setups : Fin plan.shape.cores → Except Cause (Bracket P × W))
    (sinks : Nat) : (start (Vector.ofFn setups) sinks).Gathers setups sinks := by
  have hphase : ∀ core, (start (Vector.ofFn setups) sinks).phase core =
      .arrive (setups core) (.start (setups core).isOk) := by
    intro core
    rw [phase_start, get_ofFn]
  refine ⟨?_, Startup.isTrue_empty setups, fun core => ?_,
    fun core => ⟨fun cause hsetup hnoted => ?_, fun cause hsetup hwarned => ?_⟩,
    fun core bracket workload hjudge => ?_, fun _ => ⟨rfl, rfl, rfl⟩⟩
  · have hall : (start (Vector.ofFn setups) sinks).absent = Finset.univ := by
      rw [absent, Finset.filter_eq_self]
      intro core _
      rw [hphase]
      exact id
    rw [hall, Finset.card_univ, Fintype.card_fin]
    exact Nat.zero_add _
  · rw [hphase]
    cases hsetup : setups core with
    | error cause => exact ⟨rfl, Or.inr ⟨cause, rfl⟩⟩
    | ok x => exact ⟨rfl, Or.inl rfl⟩
  · rw [hphase, hsetup] at hnoted
    exact absurd hnoted id
  · rw [hphase, hsetup] at hwarned
    exact absurd hwarned id
  · rw [hphase] at hjudge
    cases hjudge

/-- A core may move on if what is shared about failures stays true, and if nothing else happens
unless all cores are ready. -/
lemma Gathers.goTo (h : e.Gathers setups sinks) (hphases : e'.phases = e.phases)
    (hcount : (e'.goTo core phase).startup.arrived + (e'.goTo core phase).absent.card =
      plan.shape.cores)
    (harrived : (e.phase core).HasArrived → phase.HasArrived)
    (hkeeps : e.startup.Keeps e'.startup) (htrue : e'.startup.IsTrue setups)
    (hfollows : phase.Follows (AllReady setups) (setups core))
    (hsaid : phase.HasSaid e'.startup (setups core))
    (hdecides : ∀ bracket workload, phase = .judge bracket workload → e.absent = ∅)
    (huntouched : ¬ AllReady setups → e'.meeting = e.meeting ∧ e'.received = e.received ∧
      e'.tended = e.tended) :
    (e'.goTo core phase).Gathers setups sinks := by
  have hothers : ∀ i ≠ core, (e'.goTo core phase).phase i = e.phase i :=
    fun i hi => phase_goTo_eq hphases hi
  have habsent : e.absent = ∅ → (e'.goTo core phase).absent = ∅ := by
    rw [absent_eq_empty_iff, absent_eq_empty_iff]
    intro hall i
    by_cases hi : i = core
    · rw [hi, phase_goTo_self]
      exact harrived (hall core)
    · rw [hothers i hi]
      exact hall i
  refine ⟨hcount, htrue, fun i => ?_, fun i => ?_, fun i bracket workload hjudge => habsent ?_,
    fun hready => ?_⟩
  · by_cases hi : i = core
    · rw [hi, phase_goTo_self]
      exact hfollows
    · rw [hothers i hi]
      exact h.follows i
  · by_cases hi : i = core
    · rw [hi, phase_goTo_self]
      exact hsaid
    · rw [hothers i hi]
      exact (h.said i).mono hkeeps
  · by_cases hi : i = core
    · rw [hi, phase_goTo_self] at hjudge
      exact hdecides bracket workload hjudge
    · rw [hothers i hi] at hjudge
      exact h.decides i bracket workload hjudge
  · obtain ⟨hmeeting, hreceived, htended⟩ := h.untouched hready
    obtain ⟨hmeeting', hreceived', htended'⟩ := huntouched hready
    exact ⟨hmeeting'.trans hmeeting, hreceived'.trans hreceived, htended'.trans htended⟩

/-- A core that has arrived may move on. -/
lemma Gathers.moveOn (h : e.Gathers setups sinks) (hhere : (e.phase core).HasArrived)
    (harrived : phase.HasArrived) (hphases : e'.phases = e.phases)
    (hstartup : e'.startup = e.startup)
    (hfollows : phase.Follows (AllReady setups) (setups core))
    (hdecides : ∀ bracket workload, phase = .judge bracket workload → e.absent = ∅)
    (huntouched : ¬ AllReady setups → e'.meeting = e.meeting ∧ e'.received = e.received ∧
      e'.tended = e.tended) :
    (e'.goTo core phase).Gathers setups sinks := by
  have hcount := arrived_goTo h.arrived rfl hphases (congrArg Startup.arrived hstartup)
    ⟨fun _ => hhere, fun _ => harrived⟩
  refine h.goTo hphases hcount (fun _ => harrived) ?_ ?_ hfollows ?_ hdecides huntouched
  · rw [hstartup]
    exact Startup.Keeps.refl _
  · rw [hstartup]
    exact h.isTrue
  · rw [hstartup]
    exact (h.said core).of_hasArrived hhere

/-- An access of a core that arrives leads where the core may stand then. -/
lemma Gathers.access (h : e.Gathers setups sinks) {point : Arriving}
    (hphase : e.phase core = .arrive (setups core) point)
    (hpoint : point = .count ∨ ∃ cause, setups core = .error cause) (phase : Phase P W)
    (hcount : (Experiment.goTo core phase
        { e with startup := (point.step core e.startup).1 }).startup.arrived +
      (Experiment.goTo core phase
        { e with startup := (point.step core e.startup).1 }).absent.card = plan.shape.cores)
    (hfollows : phase.Follows (AllReady setups) (setups core))
    (hsaid : phase.HasSaid (point.step core e.startup).1 (setups core))
    (hwaits : ∀ bracket workload, phase ≠ .judge bracket workload) :
    (Experiment.goTo core phase
      { e with startup := (point.step core e.startup).1 }).Gathers setups sinks := by
  have hnot : ¬ (e.phase core).HasArrived := by
    rw [hphase]
    exact id
  exact h.goTo rfl hcount (fun harrived => absurd harrived hnot) (e.startup.keeps_step core point)
    (h.isTrue.step hpoint) hfollows hsaid (fun b w hjudge => absurd hjudge (hwaits b w))
    fun _ => ⟨rfl, rfl, rfl⟩

/-- Whoever decides that no core has failed is right. -/
lemma Gathers.allReady_of_judge (h : e.Gathers setups sinks) {bracket : Bracket P} {workload : W}
    (hphase : e.phase core = .judge bracket workload) (hfailed : ¬ e.startup.failed = true) :
    AllReady setups := by
  by_contra hnot
  obtain ⟨i, cause, hsetup⟩ := exists_error_of_not_allReady hnot
  have harrived := absent_eq_empty_iff.mp (h.decides core bracket workload hphase) i
  exact hfailed ((h.said i).warned cause hsetup harrived.hasWarned)

/-- A core goes on, or stops half-way, only if all cores are ready. -/
lemma follows_of_goesOn (hready : AllReady setups)
    (h : phase.GoesOn ∨ phase = .ended (.error .stopped)) :
    phase.Follows (AllReady setups) (setups core) := by
  rcases h with h | rfl
  · cases phase with
    | furnish => exact hready
    | iterate => exact hready
    | ended outcome =>
      rcases outcome with cause | result
      · exact absurd h id
      · exact hready
    | _ => exact absurd h id
  · exact Or.inr ⟨hready core, Or.inr ⟨rfl, hready⟩⟩

variable [Counters P] [Workload W]

/-- A core that arrives tells what its setup has come to. -/
lemma Gathers.arrive (h : e.Gathers setups sinks) {own : Except Cause (Bracket P × W)}
    {point : Arriving} (hphase : e.phase core = .arrive own point) (spurious : Bool)
    (now : Clock → UInt64) : (e.step core spurious now).Gathers setups sinks := by
  have hfollows := h.follows core
  have hsaid := h.said core
  rw [hphase] at hfollows hsaid
  obtain ⟨rfl, hpoint⟩ := hfollows
  simp only [Experiment.step, hphase]
  cases point with
  | claim =>
    refine h.access hphase hpoint (.arrive _ .warn)
      (arrived_goTo h.arrived hphase rfl rfl Iff.rfl) ⟨rfl, Or.inr ?_⟩
      ⟨fun _ _ _ => ?_, fun _ _ hwarned => absurd hwarned id⟩ fun _ _ => by simp
    · exact hpoint.resolve_left Arriving.noConfusion
    · simp only [Arriving.step]
      cases e.startup.firstFailure with
      | none => exact Option.some_ne_none core
      | some first => exact Option.some_ne_none first
  | warn =>
    exact h.access hphase hpoint (.arrive _ .count)
      (arrived_goTo h.arrived hphase rfl rfl Iff.rfl) ⟨rfl, Or.inl rfl⟩
      ⟨fun cause hsetup _ => hsaid.noted cause hsetup trivial, fun _ _ _ => rfl⟩ fun _ _ => by simp
  | count =>
    have hnot : ¬ (Phase.arrive (setups core) .count : Phase P W).HasArrived := id
    have hall : ∀ phase : Phase P W,
        phase.HasSaid (Arriving.count.step core e.startup).1 (setups core) := fun phase =>
      ⟨fun cause hsetup _ => hsaid.noted cause hsetup trivial,
        fun cause hsetup _ => hsaid.warned cause hsetup trivial⟩
    cases hsetup : setups core with
    | error cause =>
      exact h.access hphase hpoint (.ended (.error cause))
        (arrived_goTo_succ h.arrived hphase rfl rfl hnot trivial) (Or.inl hsetup) (hall _)
        fun _ _ => by simp
    | ok x =>
      exact h.access hphase hpoint (.await x.1 x.2)
        (arrived_goTo_succ h.arrived hphase rfl rfl hnot trivial) hsetup (hall _)
        fun _ _ => by simp

/-- A step in an iteration leads to another one, or the core ends. -/
lemma iterateStep_eq_goTo (e : Experiment plan P W) (core : Fin plan.shape.cores) (spurious : Bool)
    (now : Clock → UInt64) (runner : Runner P W) (calibration : List Calibration) (stage : Stage) :
    ∃ e₁ phase, e.iterateStep core spurious now runner calibration stage = goTo core phase e₁ ∧
      e₁.phases = e.phases ∧ e₁.startup = e.startup ∧
      (phase.GoesOn ∨ phase = .ended (.error .stopped)) ∧ 6 ≤ phase.pace := by
  have hattempt : ∀ {α : Type} (next : α → Stage) (a : Attempt (Runner P W) α),
      ∃ e₁ phase, e.attempt core runner calibration next a = goTo core phase e₁ ∧
        e₁.phases = e.phases ∧ e₁.startup = e.startup ∧
        (phase.GoesOn ∨ phase = .ended (.error .stopped)) ∧ 6 ≤ phase.pace := by
    intro α next a
    unfold Experiment.attempt
    rcases a.on runner with ⟨_ | x, runner'⟩
    · exact ⟨e, _, rfl, rfl, rfl, Or.inr rfl, by simp [Phase.pace]⟩
    · exact ⟨e, _, rfl, rfl, rfl, Or.inl trivial, by simp [Phase.pace]⟩
  cases stage with
  | rest =>
    simp only [iterateStep]
    split_ifs
    · exact ⟨e, _, rfl, rfl, rfl, Or.inl trivial, by simp [Phase.pace]⟩
    · exact hattempt _ _
  | meet => exact ⟨_, _, rfl, rfl, rfl, Or.inl trivial, by simp [Phase.pace]⟩
  | emit record sink =>
    simp only [iterateStep]
    split_ifs
    · exact ⟨_, _, rfl, rfl, rfl, Or.inl trivial, by simp [Phase.pace]⟩
    · exact ⟨e, _, rfl, rfl, rfl, Or.inl trivial, by simp [Phase.pace]⟩
  | tend => exact ⟨_, _, rfl, rfl, rfl, Or.inl trivial, by simp [Phase.pace]⟩
  | _ => exact hattempt _ _

/-- **Every step keeps what holds between steps**, whatever the setups have come to. -/
theorem Gathers.step (h : e.Gathers setups sinks) (core : Fin plan.shape.cores) (spurious : Bool)
    (now : Clock → UInt64) : (e.step core spurious now).Gathers setups sinks := by
  have hfollows := h.follows core
  cases hphase : e.phase core with
  | arrive own point => exact h.arrive hphase spurious now
  | await bracket workload =>
    rw [hphase] at hfollows
    simp only [Experiment.step, hphase]
    split_ifs with hmissing
    · exact h
    · have hempty : e.absent = ∅ := by
        have harrived := h.arrived
        exact Finset.card_eq_zero.mp (by omega)
      exact h.moveOn (by rw [hphase]; trivial) trivial rfl rfl hfollows (fun _ _ _ => hempty)
        fun _ => ⟨rfl, rfl, rfl⟩
  | judge bracket workload =>
    rw [hphase] at hfollows
    have hhere : (e.phase core).HasArrived := by
      rw [hphase]
      trivial
    simp only [Experiment.step, hphase]
    split_ifs with hfailed
    · have hnot := h.isTrue.failed hfailed
      exact h.moveOn hhere trivial rfl rfl (Or.inr ⟨⟨_, hfollows⟩, Or.inl ⟨rfl, hnot⟩⟩)
        (fun _ _ heq => by simp at heq) fun _ => ⟨rfl, rfl, rfl⟩
    · have hready : AllReady setups := h.allReady_of_judge hphase hfailed
      exact h.moveOn hhere trivial rfl rfl hready (fun _ _ heq => by simp at heq)
        fun hnot => absurd hready hnot
  | furnish bracket workload =>
    rw [hphase] at hfollows
    have hready : AllReady setups := hfollows
    have hhere : (e.phase core).HasArrived := by
      rw [hphase]
      trivial
    simp only [Experiment.step, hphase]
    rcases Experiment.furnish now core bracket workload with fault | ⟨runner, rows⟩
    · exact h.moveOn hhere trivial rfl rfl (follows_of_goesOn hready (Or.inr rfl))
        (fun _ _ heq => by simp at heq) fun hnot => absurd hready hnot
    · exact h.moveOn hhere trivial rfl rfl hready (fun _ _ heq => by simp at heq)
        fun hnot => absurd hready hnot
  | iterate runner calibration stage =>
    rw [hphase] at hfollows
    have hready : AllReady setups := hfollows
    obtain ⟨e₁, phase, hgo, hphases, hstartup, hgoes, hpace⟩ :=
      e.iterateStep_eq_goTo core spurious now runner calibration stage
    simp only [Experiment.step, hphase]
    rw [hgo]
    refine h.moveOn (by rw [hphase]; trivial) (Phase.hasArrived_iff.mpr (by omega)) hphases hstartup
      (follows_of_goesOn hready hgoes) (fun _ _ heq => ?_) fun hnot => absurd hready hnot
    subst heq
    simp [Phase.pace] at hpace
  | ended outcome =>
    simp only [Experiment.step, hphase]
    exact h

/-- What holds between steps holds after every run. -/
theorem Gathers.follow (h : e.Gathers setups sinks) (schedule : List (Turn plan)) :
    (e.follow schedule).Gathers setups sinks := by
  induction schedule generalizing e with
  | nil => exact h
  | cons turn schedule ih => exact ih (h.step turn.core turn.spurious turn.now)

end Experiment

end Lockstep
