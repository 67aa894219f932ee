import Lockstep.Proofs.Experiment.Preservation
import Lockstep.Proofs.Rendezvous.Completion

/-!
# Every experiment can be ended

A core only has to wait for others before the first iteration, until all of them have arrived, and
in the meeting.  Whoever has not arrived can do so; when all cores have arrived, each of them can go
on until it meets the others or has ended.  If all cores are there, those that meet have rounds to
do, and the meeting can be completed.

So some core can always make a step that brings the end closer.  What is left is measured first by
what is left of the meeting, and then by the steps that the cores have to make outside of it.
-/

namespace Lockstep

/-! ### What a core has to do outside of the meeting -/

namespace Stage

/-- The steps from a stage to the end of the iteration, those in the meeting counted as one. -/
def left (sinks : Nat) : Stage → Nat
  | rest => sinks + 7
  | meet => sinks + 6
  | start => sinks + 5
  | run => sinks + 4
  | stop => sinks + 3
  | emit _ next => sinks - next + 2
  | tend => 1

end Stage

namespace Phase

variable {P W : Type}

/-- The steps that a core has to make, those of a round counted as one. -/
def left (limit : UInt64) (sinks : Nat) : Phase P W → Nat
  | arrive _ _ => limit.toNat * (sinks + 8) + sinks + 11
  | await _ _ => limit.toNat * (sinks + 8) + sinks + 10
  | judge _ _ => limit.toNat * (sinks + 8) + sinks + 9
  | furnish _ _ => limit.toNat * (sinks + 8) + sinks + 8
  | iterate runner _ stage =>
    (limit.toNat - runner.completed.toNat) * (sinks + 8) + stage.left sinks
  | ended _ => 0

end Phase

namespace Experiment

variable {plan : Plan} {P W : Type} {e : Experiment plan P W} {core i : Fin plan.shape.cores}
  {limit : UInt64} {sinks : Nat} {phase : Phase P W}

/-- A core that has not ended has something to do. -/
lemma left_pos (h : phase.isOver = false) : 0 < phase.left limit sinks := by
  cases phase with
  | iterate runner calibration stage =>
    cases stage <;> simp only [Phase.left, Stage.left] <;> omega
  | ended outcome => exact absurd h Bool.noConfusion
  | _ => simp only [Phase.left]; omega

/-- All cores have ended if each of them has. -/
lemma isOver_iff (e : Experiment plan P W) :
    e.isOver = true ↔ ∀ core, (e.phase core).isOver = true := by
  rw [isOver, List.all_eq_true]
  constructor
  · intro h core
    exact h _ (Vector.mem_toList_iff.mpr (Vector.getElem_mem core.isLt))
  · intro h phase hphase
    obtain ⟨k, hk, rfl⟩ := Vector.mem_iff_getElem.mp (Vector.mem_toList_iff.mp hphase)
    exact h ⟨k, hk⟩

/-! ### What a step leaves alone -/

/-- A core that stays where it is changes nothing. -/
lemma goTo_phase (e : Experiment plan P W) (core : Fin plan.shape.cores) :
    e.goTo core (e.phase core) = e := by
  have hphases : e.phases.set core (e.phase core) = e.phases := Vector.set_getElem_self core.isLt
  rw [Experiment.goTo, hphases]

/-- An attempt of a core concerns nothing but where the core stands. -/
lemma attempt_eq_goTo {α : Type} (e : Experiment plan P W) (core : Fin plan.shape.cores)
    (runner : Runner P W) (calibration : List Calibration) (next : α → Stage)
    (a : Attempt (Runner P W) α) :
    ∃ phase, e.attempt core runner calibration next a = e.goTo core phase := by
  unfold Experiment.attempt
  rcases a.on runner with ⟨_ | x, runner'⟩
  · exact ⟨_, rfl⟩
  · exact ⟨_, rfl⟩

/-- A core whose attempt leads to a later stage of its iteration, or stops, has less to do. -/
lemma left_attempt_lt {runner : Runner P W} {calibration : List Calibration} {stage : Stage}
    (hphase : e.phase core = .iterate runner calibration stage) {α : Type} {next : α → Stage}
    {a : Attempt (Runner P W) α} (ha : a.Preserves Runner.course)
    (hnext : ∀ x, (next x).left sinks < stage.left sinks) :
    ((e.attempt core runner calibration next a).phase core).left limit sinks <
      (e.phase core).left limit sinks := by
  have hpos : 0 < (e.phase core).left limit sinks := left_pos (by rw [hphase]; rfl)
  unfold Experiment.attempt
  rcases hon : a.on runner with ⟨_ | x, runner'⟩
  · rw [phase_goTo_self]
    exact hpos
  · rw [phase_goTo_self, hphase]
    simp only [Phase.left, Runner.completed_eq (ha.eq_of_on hon)]
    exact Nat.add_lt_add_left (hnext x) _

variable [Counters P] [Workload W]

/-- A step of a core moves no other core.  The meeting stays as it is unless the core is in it, and
so do the sinks unless the core hands a record out. -/
lemma step_eq_goTo (e : Experiment plan P W) (core : Fin plan.shape.cores) (spurious : Bool)
    (now : Clock → UInt64) :
    ∃ e₁ phase, e.step core spurious now = goTo core phase e₁ ∧ e₁.phases = e.phases ∧
      ((e.phase core).stage ≠ .meet → e₁.meeting = e.meeting) ∧
      ((∀ record next, (e.phase core).stage ≠ .emit record next) → e₁.received = e.received) := by
  cases hphase : e.phase core with
  | arrive setup point =>
    simp only [Experiment.step, hphase]
    exact ⟨_, _, rfl, rfl, fun _ => rfl, fun _ => rfl⟩
  | await bracket workload =>
    simp only [Experiment.step, hphase]
    split_ifs
    · exact ⟨e, _, (e.goTo_phase core).symm, rfl, fun _ => rfl, fun _ => rfl⟩
    · exact ⟨e, _, rfl, rfl, fun _ => rfl, fun _ => rfl⟩
  | judge bracket workload =>
    simp only [Experiment.step, hphase]
    exact ⟨e, _, rfl, rfl, fun _ => rfl, fun _ => rfl⟩
  | furnish bracket workload =>
    simp only [Experiment.step, hphase]
    rcases Experiment.furnish now core bracket workload with cause | ⟨runner, rows⟩
    · exact ⟨e, _, rfl, rfl, fun _ => rfl, fun _ => rfl⟩
    · exact ⟨e, _, rfl, rfl, fun _ => rfl, fun _ => rfl⟩
  | iterate runner calibration stage =>
    simp only [Experiment.step, hphase]
    cases stage with
    | rest =>
      simp only [Experiment.iterateStep]
      split_ifs
      · exact ⟨e, _, rfl, rfl, fun _ => rfl, fun _ => rfl⟩
      · obtain ⟨phase, hgo⟩ := e.attempt_eq_goTo core runner calibration (fun _ => .meet)
          Runner.prepare
        exact ⟨e, phase, hgo, rfl, fun _ => rfl, fun _ => rfl⟩
    | meet => exact ⟨_, _, rfl, rfl, fun hstage => absurd rfl hstage, fun _ => rfl⟩
    | emit record sink =>
      simp only [Experiment.iterateStep]
      split_ifs
      · exact ⟨_, _, rfl, rfl, fun _ => rfl, fun hstage => absurd rfl (hstage record sink)⟩
      · exact ⟨e, _, rfl, rfl, fun _ => rfl, fun _ => rfl⟩
    | tend => exact ⟨_, _, rfl, rfl, fun _ => rfl, fun _ => rfl⟩
    | _ =>
      simp only [Experiment.iterateStep]
      obtain ⟨phase, hgo⟩ := e.attempt_eq_goTo core runner calibration _ _
      exact ⟨e, phase, hgo, rfl, fun _ => rfl, fun _ => rfl⟩
  | ended outcome =>
    simp only [Experiment.step, hphase]
    exact ⟨e, _, (e.goTo_phase core).symm, rfl, fun _ => rfl, fun _ => rfl⟩

/-- A step of a core moves no other core. -/
lemma phase_step_of_ne (e : Experiment plan P W) (h : i ≠ core) (spurious : Bool)
    (now : Clock → UInt64) : (e.step core spurious now).phase i = e.phase i := by
  obtain ⟨e₁, phase, hgo, hphases, -, -⟩ := e.step_eq_goTo core spurious now
  rw [hgo, phase_goTo_of_ne _ h, Experiment.phase, hphases]
  rfl

/-- A step of a core outside of the meeting leaves the meeting alone. -/
lemma meeting_step (hstage : (e.phase core).stage ≠ .meet) (spurious : Bool)
    (now : Clock → UInt64) : (e.step core spurious now).meeting = e.meeting := by
  obtain ⟨e₁, phase, hgo, -, hmeeting, -⟩ := e.step_eq_goTo core spurious now
  rw [hgo]
  exact hmeeting hstage

/-- What a sink has received after a step was there before, but for the record that the core has
handed to it. -/
lemma exists_of_receives_step {sink : Nat} {records : List Record} {spurious : Bool}
    {now : Clock → UInt64} (h : (e.step core spurious now).Receives sink records) :
    e.Receives sink records ∨ ∃ runner calibration record before,
      e.phase core = .iterate runner calibration (.emit record sink) ∧ e.Receives sink before ∧
        records = before ++ [record] := by
  by_cases hemit : ∃ record next, (e.phase core).stage = .emit record next
  · obtain ⟨record, next, hstage⟩ := hemit
    cases hphase : e.phase core with
    | iterate runner calibration stage =>
      rw [hphase] at hstage
      obtain rfl : stage = .emit record next := hstage
      simp only [Experiment.step, hphase, Experiment.iterateStep] at h
      split_ifs at h with hnext
      · obtain ⟨before, hbefore, rfl⟩ := exists_of_receive h
        split_ifs with hsink
        · subst hsink
          exact Or.inr ⟨runner, calibration, record, before, rfl, hbefore, rfl⟩
        · exact Or.inl hbefore
      · exact Or.inl h
    | _ =>
      rw [hphase] at hstage
      exact absurd hstage Stage.noConfusion
  · obtain ⟨e₁, phase, hgo, -, -, hreceived⟩ := e.step_eq_goTo core spurious now
    have hsame := hreceived fun record next hstage => hemit ⟨record, next, hstage⟩
    rw [hgo] at h
    obtain ⟨array, harray, hrecords⟩ := h
    refine Or.inl ⟨array, ?_, hrecords⟩
    rw [← hsame]
    exact harray

/-! ### Coming closer to the end -/

/-- A core that does not meet the others has less to do after its step, if it need not wait for the
others to arrive. -/
lemma Sound.left_step_lt (he : e.Sound limit sinks) (hopen : (e.phase core).isOver = false)
    (hstage : (e.phase core).stage ≠ .meet)
    (harrived : (e.phase core).HasArrived → plan.shape.cores ≤ e.startup.arrived) (spurious : Bool)
    (now : Clock → UInt64) :
    ((e.step core spurious now).phase core).left limit sinks < (e.phase core).left limit sinks := by
  have hpos : 0 < (e.phase core).left limit sinks := left_pos hopen
  have hproper := he.proper core
  cases hphase : e.phase core with
  | arrive setup point =>
    rw [hphase] at hproper
    obtain ⟨⟨x, rfl⟩, rfl⟩ := hproper
    simp only [Experiment.step, hphase, Arriving.step, phase_goTo_self, Phase.left]
    omega
  | await bracket workload =>
    rw [hphase] at harrived
    simp only [Experiment.step, hphase, if_neg (Nat.not_lt.mpr (harrived trivial)), phase_goTo_self,
      Phase.left]
    omega
  | judge bracket workload =>
    simp only [Experiment.step, hphase, he.startup.1, phase_goTo_self, Phase.left,
      Bool.false_eq_true, if_false]
    omega
  | furnish bracket workload =>
    simp only [Experiment.step, hphase]
    rcases hfurnish : Experiment.furnish now core bracket workload with cause | ⟨runner, rows⟩
    · rw [hphase] at hpos
      rw [phase_goTo_self]
      exact hpos
    · obtain ⟨-, hcompleted⟩ := furnish_eq_ok hfurnish
      rw [phase_goTo_self]
      simp only [Phase.left, Stage.left, hcompleted, UInt64.toNat_zero, Nat.sub_zero]
      omega
  | iterate runner calibration stage =>
    rw [hphase] at hproper hpos hstage
    simp only [Experiment.step, hphase]
    rw [← hphase]
    cases stage with
    | rest =>
      simp only [Experiment.iterateStep]
      split_ifs
      · rw [phase_goTo_self, hphase]
        exact hpos
      · exact left_attempt_lt hphase Runner.preserves_prepare fun _ => Nat.lt_succ_self _
    | meet => exact absurd rfl hstage
    | start =>
      exact left_attempt_lt hphase (Runner.preserves_startMeasuring now) fun _ => Nat.lt_succ_self _
    | run => exact left_attempt_lt hphase Runner.preserves_runWorkload fun _ => Nat.lt_succ_self _
    | stop =>
      exact left_attempt_lt hphase (Runner.preserves_stopMeasuring now) fun _ => Nat.lt_succ_self _
    | emit record next =>
      obtain ⟨-, -, hle, -, -⟩ := hproper
      simp only [Experiment.iterateStep]
      split_ifs with hnext
      · rw [he.length_eq] at hnext
        rw [phase_goTo_self, hphase]
        simp only [Phase.left, Stage.left]
        omega
      · rw [phase_goTo_self, hphase]
        simp only [Phase.left, Stage.left]
        omega
    | tend =>
      obtain ⟨-, hlt⟩ := hproper
      have hround := Runner.toNat_iteration hlt
      obtain ⟨rest, hrest⟩ : ∃ rest, limit.toNat - runner.completed.toNat = rest + 1 :=
        Nat.exists_eq_add_one.mpr (Nat.sub_pos_of_lt (UInt64.lt_iff_toNat_lt.mp hlt))
      simp only [Experiment.iterateStep]
      rw [phase_goTo_self, hphase]
      simp only [Phase.left, Stage.left, Runner.finish, hround, hrest, Nat.sub_add_eq,
        Nat.add_sub_cancel, Nat.succ_mul]
      omega
  | ended outcome =>
    rw [hphase] at hopen
    exact absurd hopen Bool.noConfusion

/-- How far an experiment is from its end: what is left of the meeting, and then what the cores have
to do outside of it. -/
def weight (limit : UInt64) (sinks : Nat) (e : Experiment plan P W) : (Nat ×ₗ Nat) ×ₗ Nat :=
  toLex (e.meeting.weight limit.toNat, ∑ core, (e.phase core).left limit sinks)

/-- A core that goes on outside of the meeting brings the end closer. -/
lemma Sound.weight_lt_of_left (he : e.Sound limit sinks) (hopen : (e.phase core).isOver = false)
    (hstage : (e.phase core).stage ≠ .meet)
    (harrived : (e.phase core).HasArrived → plan.shape.cores ≤ e.startup.arrived)
    (now : Clock → UInt64) :
    (e.step core false now).weight limit sinks < e.weight limit sinks := by
  refine Prod.Lex.toLex_lt_toLex.mpr (Or.inr ⟨?_, ?_⟩)
  · rw [meeting_step hstage]
  · have hless := he.left_step_lt hopen hstage harrived false now
    refine Finset.sum_lt_sum (fun i _ => ?_) ⟨core, Finset.mem_univ core, hless⟩
    by_cases h : i = core
    · exact h ▸ hless.le
    · rw [e.phase_step_of_ne h]

/-- A core that meets the others brings the end closer if it brings the end of the meeting
closer. -/
lemma weight_lt_of_meeting (hstage : (e.phase core).stage = .meet) (now : Clock → UInt64)
    (hless : (e.meeting.step core false).weight limit.toNat < e.meeting.weight limit.toNat) :
    (e.step core false now).weight limit sinks < e.weight limit sinks := by
  refine Prod.Lex.toLex_lt_toLex.mpr (Or.inl ?_)
  cases hphase : e.phase core with
  | iterate runner calibration stage =>
    rw [hphase] at hstage
    subst hstage
    simp only [Experiment.step, hphase]
    exact hless
  | _ =>
    rw [hphase] at hstage
    exact absurd hstage Stage.noConfusion

/-- As long as not all cores have ended, some core can bring the end closer. -/
theorem Sound.exists_weight_lt (he : e.Sound limit sinks) (hlive : ¬ e.HasFailed)
    (hover : e.isOver = false) (now : Clock → UInt64) :
    ∃ core, (e.step core false now).weight limit sinks < e.weight limit sinks := by
  by_cases habsent : e.absent.Nonempty
  · -- somebody has not arrived, and can do so
    obtain ⟨core, hcore⟩ := habsent
    have hnot : ¬ (e.phase core).HasArrived := (Finset.mem_filter.mp hcore).2
    refine ⟨core, he.weight_lt_of_left ?_ ?_ (fun h => absurd h hnot) now⟩
    · cases hphase : e.phase core with
      | arrive setup point => rfl
      | _ =>
        rw [hphase] at hnot
        exact absurd trivial hnot
    · cases hphase : e.phase core with
      | arrive setup point => exact Stage.noConfusion
      | _ =>
        rw [hphase] at hnot
        exact absurd trivial hnot
  · have hall : plan.shape.cores ≤ e.startup.arrived := by
      have harrived := he.arrived
      rw [Finset.not_nonempty_iff_eq_empty.mp habsent, Finset.card_empty] at harrived
      omega
    by_cases hout : ∃ core, (e.phase core).isOver = false ∧ (e.phase core).stage ≠ .meet
    · obtain ⟨core, hopen, hstage⟩ := hout
      exact ⟨core, he.weight_lt_of_left hopen hstage (fun _ => hall) now⟩
    · -- whoever has not ended meets the others
      have hmeet : ∀ core, (e.phase core).isOver = false → (e.phase core).stage = .meet :=
        fun core hopen => by_contra fun hstage => hout ⟨core, hopen, hstage⟩
      have hdone : ∀ core, (e.phase core).isOver = true →
          (e.meeting.progress core).rounds = limit.toNat :=
        fun core => he.rounds_eq_limit fun hfailed => hlive ⟨core, hfailed⟩
      have hle : ∀ core, (e.meeting.progress core).rounds ≤ limit.toNat := by
        intro core
        cases hcore : (e.phase core).isOver with
        | false => exact (he.rounds_lt (hmeet core hcore)).le
        | true => exact (hdone core hcore).le
      have hlt : ∃ core, (e.meeting.progress core).rounds < limit.toNat := by
        rw [← Bool.not_eq_true, isOver_iff, not_forall] at hover
        obtain ⟨core, hcore⟩ := hover
        exact ⟨core, he.rounds_lt (hmeet core (Bool.eq_false_iff.mpr hcore))⟩
      obtain ⟨core, hrounds, hless⟩ := he.meeting.exists_weight_lt hle hlt
      refine ⟨core, weight_lt_of_meeting (hmeet core ?_) now hless⟩
      exact Bool.eq_false_iff.mpr fun hcore => hrounds.ne (hdone core hcore)

/-- **Every experiment can be ended** from wherever it has got to, or a core stops half-way.  The
clocks may show anything on the way. -/
theorem Sound.exists_follow (he : e.Sound limit sinks)
    (hlimit : plan.config.iterations = some limit) (now : Clock → UInt64) :
    ∃ turns : List (Turn plan), (∀ turn ∈ turns, turn.now = now) ∧
      ((e.follow turns).HasFailed ∨ (e.follow turns).isOver = true) := by
  induction hweight : e.weight limit sinks using WellFoundedLT.induction generalizing e with
  | ind w ih =>
    by_cases hend : e.HasFailed ∨ e.isOver = true
    · exact ⟨[], fun turn hturn => absurd hturn List.not_mem_nil, hend⟩
    · rw [not_or, Bool.not_eq_true] at hend
      obtain ⟨core, hless⟩ := he.exists_weight_lt hend.1 hend.2 now
      obtain ⟨turns, hnow, hdone⟩ := ih _ (hweight ▸ hless) (he.step hlimit core false now) rfl
      refine ⟨⟨core, false, now⟩ :: turns, fun turn hturn => ?_, hdone⟩
      rcases List.mem_cons.mp hturn with rfl | hmem
      · rfl
      · exact hnow turn hmem

end Experiment

end Lockstep
