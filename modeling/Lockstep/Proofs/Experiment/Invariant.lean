import Lockstep.Proofs.Experiment.Blocks
import Lockstep.Proofs.Experiment.Runner
import Lockstep.Proofs.Rendezvous.Preservation

/-!
# What holds between two steps of an experiment

The invariant of an experiment, `Experiment.Sound`, ties what a core has behind it to the rounds
that it is through in the meeting and to the records that the sinks have received from it:

* the rounds of a core are its iterations, and one more once it is through the round of the
  iteration that it is in;
* a sink has one record of the core for each of its iterations, and one more once the record of the
  iteration that it is in was handed to this sink;
* the records of each sink are in blocks.

Of a core that has stopped half-way only the second number is known to be the first one or one less,
which is all that matters to the others: they cannot get more than one round ahead of it.
-/

namespace Lockstep

/-! ### What a plan fixes -/

namespace Plan

variable (plan : Plan)

/-- The steps of the stagger of a plan take at least one iteration. -/
lemma iterationsPerStep_ne_zero : plan.config.stagger.iterationsPerStep ≠ 0 := by
  have h := plan.valid
  unfold Config.validate at h
  split_ifs at h with _ _ _ hsteps
  exact hsteps

/-- The stagger of a plan. -/
def stagger : Stagger :=
  ⟨plan.config.stagger, plan.iterationsPerStep_ne_zero⟩

/-- The record is of the core and tells what the plan says. -/
structure IsRecord (core : Fin plan.shape.cores) (r : Record) : Prop where
  label : r.label = plan.config.label
  cores : r.cores = UInt64.ofNat plan.shape.cores
  core : r.core = plan.shape.number core
  offset : r.offset = plan.stagger.offset r.iteration

/-- The runner is built for the core. -/
structure IsRunner {P W : Type} (core : Fin plan.shape.cores) (r : Runner P W) : Prop where
  core : r.core = ⟨core⟩
  label : r.label = plan.config.label
  cores : r.cores = plan.shape.cores
  stagger : r.stagger = plan.stagger

variable {plan} {P W : Type} {core : Fin plan.shape.cores} {r r' : Runner P W}

/-- A runner that has kept its course is still built for the core. -/
lemma IsRunner.of_course (h : plan.IsRunner core r) (hcourse : r'.course = r.course) :
    plan.IsRunner core r' := by
  simp only [Runner.course, Prod.mk.injEq] at hcourse
  obtain ⟨hcore, hlabel, hcores, hstagger, -⟩ := hcourse
  exact ⟨hcore.trans h.core, hlabel.trans h.label, hcores.trans h.cores,
    hstagger.trans h.stagger⟩

/-- The records of a runner tell what the plan says. -/
lemma IsRunner.isRecord [Workload W] (h : plan.IsRunner core r) (m : Measurement) :
    plan.IsRecord core (r.record m) := by
  refine ⟨h.label, ?_, ?_, ?_⟩
  · simp only [Runner.record, h.cores]
  · simp only [Runner.record, h.core, Shape.number]
  · simp only [Runner.record, h.stagger]

end Plan

/-! ### What a core has behind it -/

namespace Stage

/-- How many rounds a core is through in its iteration. -/
def through : Stage → Nat
  | rest => 0
  | meet => 0
  | _ => 1

/-- How many records of its iteration a core has handed to the sink of that number. -/
def emitted (sink : Nat) : Stage → Nat
  | emit _ next => if sink < next then 1 else 0
  | tend => 1
  | _ => 0

end Stage

namespace Phase

variable {P W : Type}

/-- Where the core stands in an iteration; a core that goes through none is between two of them. -/
def stage : Phase P W → Stage
  | iterate _ _ stage => stage
  | _ => .rest

/-- The iterations that are over for the core. -/
def completed : Phase P W → Nat
  | iterate runner _ _ => runner.completed.toNat
  | ended (.ok (completed, _)) => completed.toNat
  | _ => 0

/-- The core has stopped half-way, or has not been set up. -/
def IsFailed : Phase P W → Prop
  | ended (.error _) => True
  | _ => False

/-- The core is counted as arrived. -/
def HasArrived : Phase P W → Prop
  | arrive _ _ => False
  | _ => True

instance : DecidablePred (HasArrived : Phase P W → Prop)
  | arrive _ _ => isFalse id
  | await _ _ => isTrue trivial
  | judge _ _ => isTrue trivial
  | furnish _ _ => isTrue trivial
  | iterate _ _ _ => isTrue trivial
  | ended _ => isTrue trivial

/-- What a core holds where it stands, when it has iterations up to a limit to do and all cores are
set up. -/
def IsProper (plan : Plan) (limit : UInt64) (sinks : Nat) (core : Fin plan.shape.cores) :
    Phase P W → Prop
  | arrive setup point => (∃ x, setup = .ok x) ∧ point = .count
  | iterate runner _ .rest => plan.IsRunner core runner ∧ runner.completed ≤ limit
  | iterate runner _ (.emit record next) =>
    plan.IsRunner core runner ∧ runner.completed < limit ∧ next ≤ sinks ∧
      plan.IsRecord core record ∧ record.iteration = runner.iteration
  | iterate runner _ _ => plan.IsRunner core runner ∧ runner.completed < limit
  | ended (.ok (completed, _)) => completed = limit
  | _ => True

end Phase

/-! ### The invariant -/

namespace Experiment

variable {plan : Plan} {P W : Type}

/-- Some core has stopped half-way. -/
def HasFailed (e : Experiment plan P W) : Prop :=
  ∃ core, (e.phase core).IsFailed

/-- The records that the sink of that number has received. -/
def Receives (e : Experiment plan P W) (sink : Nat) (records : List Record) : Prop :=
  ∃ array, e.received[sink]? = some array ∧ records = array.toList

/-- The cores that have still to arrive. -/
def absent (e : Experiment plan P W) : Finset (Fin plan.shape.cores) :=
  Finset.univ.filter fun core => ¬ (e.phase core).HasArrived

/-- How what a core has behind it shows, if it goes on from where it stands. -/
structure Account (e : Experiment plan P W) (core : Fin plan.shape.cores) (phase : Phase P W) :
    Prop where
  rounds_eq : (e.meeting.progress core).rounds = phase.completed + phase.stage.through
  count_eq : ∀ sink records, e.Receives sink records →
    plan.shape.count core records = phase.completed + phase.stage.emitted sink
  /-- The housekeeping follows the iterations of the leader. -/
  tended_eq : core = plan.shape.leader → e.tended.size = phase.completed

/-- How what a core has behind it shows, even if it has stopped half-way. -/
structure Keeping (e : Experiment plan P W) (core : Fin plan.shape.cores) : Prop where
  /-- A core is only inside of a round while it meets the others. -/
  outside : (e.phase core).stage ≠ .meet → (e.meeting.progress core).point = none
  /-- Each round of a core gives a record, as soon as the core enters the next one. -/
  behind : ∀ sink records, e.Receives sink records →
    plan.shape.count core records ≤ (e.meeting.progress core).rounds ∧
      (e.meeting.progress core).rounds ≤ plan.shape.count core records + 1
  account : ¬ (e.phase core).IsFailed → e.Account core (e.phase core)

/-- What holds between two steps. -/
structure Sound (limit : UInt64) (sinks : Nat) (e : Experiment plan P W) : Prop where
  meeting : e.meeting.Sound
  /-- No core has said that it is not set up. -/
  startup : e.startup.failed = false ∧ e.startup.firstFailure = none
  /-- Whoever has not arrived is not counted. -/
  arrived : e.startup.arrived + e.absent.card = plan.shape.cores
  proper : ∀ core, (e.phase core).IsProper plan limit sinks core
  keeping : ∀ core, e.Keeping core
  rounds_le : ∀ core, (e.meeting.progress core).rounds ≤ limit.toNat
  length_eq : e.received.length = sinks
  filed : ∀ sink records, e.Receives sink records → plan.shape.IsFiled records
  told : ∀ sink records, e.Receives sink records → ∀ r ∈ records, ∃ core, plan.IsRecord core r
  /-- The housekeeping follows the iterations in their order. -/
  tended : e.tended.toList = (List.range e.tended.size).map fun k => UInt64.ofNat (k + 1)
  /-- The housekeeping follows an iteration after the record of the leader. -/
  tended_le : ∀ sink records, e.Receives sink records →
    e.tended.size ≤ plan.shape.count plan.shape.leader records

/-! ### How many rounds a core is through -/

variable {e : Experiment plan P W} {core : Fin plan.shape.cores} {limit : UInt64} {sinks : Nat}

/-- A core that meets the others has rounds to do. -/
lemma Sound.rounds_lt (he : e.Sound limit sinks) (hstage : (e.phase core).stage = .meet) :
    (e.meeting.progress core).rounds < limit.toNat := by
  have hproper := he.proper core
  have haccount := (he.keeping core).account
  cases hphase : e.phase core with
  | iterate runner calibration stage =>
    rw [hphase] at hproper haccount hstage
    subst hstage
    rw [(haccount id).rounds_eq]
    exact UInt64.lt_iff_toNat_lt.mp hproper.2
  | _ =>
    rw [hphase] at hstage
    exact absurd hstage Stage.noConfusion

/-- A core that has ended, and has not stopped half-way, is through all rounds. -/
lemma Sound.rounds_eq_limit (he : e.Sound limit sinks) (hlive : ¬ (e.phase core).IsFailed)
    (hover : (e.phase core).isOver = true) :
    (e.meeting.progress core).rounds = limit.toNat := by
  have hproper := he.proper core
  have haccount := (he.keeping core).account
  cases hphase : e.phase core with
  | ended outcome =>
    rw [hphase] at hproper haccount hlive
    rcases outcome with cause | ⟨completed, rows⟩
    · exact absurd trivial hlive
    · rw [(haccount id).rounds_eq]
      exact congrArg UInt64.toNat hproper
  | _ =>
    rw [hphase] at hover
    exact absurd hover Bool.noConfusion

/-! ### The beginning -/

/-- What each core is set up with is there at the start. -/
lemma get_ofFn {n : Nat} {α : Type} (f : Fin n → α) (k : Fin n) : (Vector.ofFn f).get k = f k := by
  change (Vector.ofFn f)[k.val] = f k
  rw [Vector.getElem_ofFn]

/-- Where a core stands before the first step. -/
lemma phase_start (setups : Vector (Except Cause (Bracket P × W)) plan.shape.cores) (sinks : Nat)
    (core : Fin plan.shape.cores) :
    (start setups sinks).phase core =
      .arrive (setups.get core) (.start (setups.get core).isOk) := by
  simp only [phase, start, Fin.getElem_fin, Vector.getElem_map]
  rfl

/-- What the sinks have before the first step. -/
lemma receives_start {setups : Vector (Except Cause (Bracket P × W)) plan.shape.cores}
    {sinks sink : Nat} {records : List Record} (h : (start setups sinks).Receives sink records) :
    records = [] := by
  obtain ⟨array, harray, rfl⟩ := h
  have hmem : array ∈ List.replicate sinks (#[] : Array Record) := List.mem_of_getElem? harray
  rw [(List.mem_replicate.mp hmem).2]

/-- The invariant holds before the first step if all cores are set up. -/
theorem sound_start {setups : Vector (Except Cause (Bracket P × W)) plan.shape.cores}
    (hsetups : ∀ core, ∃ x, setups.get core = .ok x) (limit : UInt64) (sinks : Nat) :
    (start setups sinks).Sound limit sinks := by
  have hphase : ∀ core, ∃ x, (start setups sinks).phase core = .arrive (.ok x) .count := by
    intro core
    obtain ⟨x, hx⟩ := hsetups core
    exact ⟨x, by rw [phase_start, hx]; rfl⟩
  have hprogress : ∀ core, (start setups sinks).meeting.progress core = {} :=
    fun core => Meeting.progress_idle core
  refine ⟨Meeting.Sound.idle _, ⟨rfl, rfl⟩, ?_, fun core => ?_, fun core => ?_, fun core => ?_,
    List.length_replicate, fun sink records h => ?_, fun sink records h r hr => ?_, rfl,
    fun sink records h => Nat.zero_le _⟩
  · have hall : (start setups sinks).absent = Finset.univ := by
      rw [absent, Finset.filter_eq_self]
      intro core _
      obtain ⟨x, hx⟩ := hphase core
      rw [hx]
      exact id
    rw [hall, Finset.card_univ, Fintype.card_fin]
    exact Nat.zero_add _
  · obtain ⟨x, hx⟩ := hphase core
    rw [hx]
    exact ⟨⟨x, rfl⟩, rfl⟩
  · obtain ⟨x, hx⟩ := hphase core
    refine ⟨fun _ => by rw [hprogress], fun sink records h => ?_,
      fun _ => ⟨?_, fun sink records h => ?_, fun _ => ?_⟩⟩
    · rw [receives_start h, hprogress]
      exact ⟨le_rfl, Nat.zero_le _⟩
    · rw [hprogress, hx]
      rfl
    · rw [receives_start h, hx]
      rfl
    · rw [hx]
      rfl
  · rw [hprogress]
    exact Nat.zero_le _
  · rw [receives_start h]
    exact Shape.isFiled_nil _
  · rw [receives_start h] at hr
    exact absurd hr List.not_mem_nil

end Experiment

end Lockstep
