import Lockstep.Proofs.Experiment.Invariant
import Lockstep.Proofs.Rendezvous.Safety

/-!
# Steps of an experiment keep the invariant

Most steps of a core change nothing but where it stands, and keep what it has behind it:
`Experiment.Sound.goTo` is about those.  Four kinds of steps do more.  A core arrives, makes a step
in the meeting, hands a record to a sink, or ends its iteration with the leader's housekeeping.

That records stay in blocks hangs on the meeting.  A core that hands a record out is outside of the
round of that record, so no other core is through a later round, and whoever is through one round
less is inside of this one: it has handed out all records of the rounds before.
-/

namespace Lockstep

namespace Experiment

variable {plan : Plan} {P W : Type} {e e' : Experiment plan P W} {core i : Fin plan.shape.cores}
  {limit : UInt64} {sinks sink : Nat} {records : List Record} {here phase : Phase P W}

/-! ### What a step leaves alone -/

/-- A core has the same behind it in both states. -/
structure SameBehind (e e' : Experiment plan P W) (i : Fin plan.shape.cores) : Prop where
  progress : e'.meeting.progress i = e.meeting.progress i
  count : ∀ sink records', e'.Receives sink records' → ∃ records, e.Receives sink records ∧
    plan.shape.count i records' = plan.shape.count i records
  tended : i = plan.shape.leader → e'.tended.size = e.tended.size

/-- A core has the same behind it if nothing has happened in the meeting or in the sinks. -/
lemma SameBehind.of_eq (hmeeting : e'.meeting = e.meeting) (hreceived : e'.received = e.received)
    (htended : e'.tended = e.tended) : SameBehind e e' i := by
  refine ⟨?_, fun sink records' hrecords => ⟨records', ?_, rfl⟩, fun _ => ?_⟩
  · rw [hmeeting]
  · rw [Receives, ← hreceived]
    exact hrecords
  · rw [htended]

/-- What is the same behind a core shows in the same way. -/
lemma Account.congr (h : e.Account i phase) (hsame : SameBehind e e' i) : e'.Account i phase := by
  refine ⟨?_, fun sink records' hrecords => ?_, fun hleader => ?_⟩
  · rw [hsame.progress]
    exact h.rounds_eq
  · obtain ⟨records, hold, hcount⟩ := hsame.count sink records' hrecords
    rw [hcount]
    exact h.count_eq sink records hold
  · rw [hsame.tended hleader]
    exact h.tended_eq hleader

/-- What is the same behind a core that has stayed where it was shows in the same way. -/
lemma Keeping.congr (h : e.Keeping i) (hphase : e'.phase i = e.phase i)
    (hsame : SameBehind e e' i) : e'.Keeping i := by
  refine ⟨fun hstage => ?_, fun sink records' hrecords => ?_, fun hfailed => ?_⟩
  · rw [hsame.progress]
    exact h.outside (by rwa [← hphase])
  · obtain ⟨records, hold, hcount⟩ := hsame.count sink records' hrecords
    rw [hcount, hsame.progress]
    exact h.behind sink records hold
  · rw [hphase] at hfailed ⊢
    exact (h.account hfailed).congr hsame

/-- The record of an iteration is handed out after its round. -/
lemma emitted_le_through (stage : Stage) (sink : Nat) :
    stage.emitted sink ≤ stage.through ∧ stage.through ≤ stage.emitted sink + 1 := by
  cases stage with
  | emit record next =>
    simp only [Stage.emitted, Stage.through]
    split_ifs <;> omega
  | _ => simp [Stage.emitted, Stage.through]

/-- Of a core that goes on nothing else has to be known. -/
lemma Keeping.of_account (hphase : e.phase core = phase)
    (houtside : phase.stage ≠ .meet → (e.meeting.progress core).point = none)
    (h : e.Account core phase) : e.Keeping core := by
  subst hphase
  refine ⟨houtside, fun sink records hrecords => ?_, fun _ => h⟩
  obtain ⟨hle, hge⟩ := emitted_le_through (e.phase core).stage sink
  rw [h.rounds_eq, h.count_eq sink records hrecords]
  omega

/-- How what a core has behind it shows where it stands. -/
lemma Sound.account (he : e.Sound limit sinks) (hphase : e.phase core = phase)
    (hlive : ¬ phase.IsFailed) : e.Account core phase := by
  subst hphase
  exact (he.keeping core).account hlive

/-- A core that does not meet the others is outside of its rounds. -/
lemma Sound.outside (he : e.Sound limit sinks) (hphase : e.phase core = phase)
    (hstage : phase.stage ≠ .meet) : (e.meeting.progress core).point = none := by
  subst hphase
  exact (he.keeping core).outside hstage

/-- The sinks are those that there were in the beginning. -/
lemma Sound.lt_of_receives (he : e.Sound limit sinks) (h : e.Receives sink records) :
    sink < sinks := by
  obtain ⟨array, harray, -⟩ := h
  rw [← he.length_eq]
  exact (List.getElem?_eq_some_iff.mp harray).1

/-- The other cores stay where they were. -/
lemma phase_goTo_eq (hphases : e'.phases = e.phases) (h : i ≠ core) :
    (e'.goTo core phase).phase i = e.phase i := by
  rw [phase_goTo_of_ne _ h, Experiment.phase, hphases]
  rfl

/-- A core that moves on is still counted as arrived, or not. -/
lemma arrived_goTo (hcount : e.startup.arrived + e.absent.card = plan.shape.cores)
    (hphase : e.phase core = here) (hphases : e'.phases = e.phases)
    (hstartup : e'.startup.arrived = e.startup.arrived)
    (harrived : phase.HasArrived ↔ here.HasArrived) :
    (e'.goTo core phase).startup.arrived + (e'.goTo core phase).absent.card = plan.shape.cores := by
  have habsent : (e'.goTo core phase).absent = e.absent := by
    ext i
    simp only [absent, Finset.mem_filter, Finset.mem_univ, true_and]
    by_cases h : i = core
    · rw [h, phase_goTo_self, hphase, harrived]
    · rw [phase_goTo_eq hphases h]
  have hcounted : (e'.goTo core phase).startup.arrived = e.startup.arrived := hstartup
  rw [habsent, hcounted]
  exact hcount

/-- A core that arrives is counted. -/
lemma arrived_goTo_succ (hcount : e.startup.arrived + e.absent.card = plan.shape.cores)
    (hphase : e.phase core = here) (hphases : e'.phases = e.phases)
    (hstartup : e'.startup.arrived = e.startup.arrived + 1) (hnot : ¬ here.HasArrived)
    (harrived : phase.HasArrived) :
    (e'.goTo core phase).startup.arrived + (e'.goTo core phase).absent.card = plan.shape.cores := by
  have hmem : core ∈ e.absent :=
    Finset.mem_filter.mpr ⟨Finset.mem_univ core, by rwa [hphase]⟩
  have habsent : (e'.goTo core phase).absent = e.absent.erase core := by
    ext i
    simp only [absent, Finset.mem_filter, Finset.mem_univ, true_and, Finset.mem_erase]
    by_cases h : i = core
    · rw [h, phase_goTo_self]
      exact ⟨fun hstill => absurd harrived hstill, fun hboth => absurd rfl hboth.1⟩
    · rw [phase_goTo_eq hphases h]
      exact ⟨fun hstill => ⟨h, hstill⟩, fun hboth => hboth.2⟩
  have hcounted : (e'.goTo core phase).startup.arrived = e.startup.arrived + 1 := hstartup
  have hcard := Finset.card_erase_add_one hmem
  rw [habsent, hcounted]
  omega

/-- A core that moves on concerns no other core that has the same behind it as before. -/
lemma Sound.forall_goTo (he : e.Sound limit sinks) (hkeeping : (e'.goTo core phase).Keeping core)
    (hphases : e'.phases = e.phases) (hproper : phase.IsProper plan limit sinks core)
    (hothers : ∀ i ≠ core, SameBehind e e' i) :
    (∀ i, ((e'.goTo core phase).phase i).IsProper plan limit sinks i) ∧
      ∀ i, (e'.goTo core phase).Keeping i := by
  refine ⟨fun i => ?_, fun i => ?_⟩
  · by_cases h : i = core
    · rw [h, phase_goTo_self]
      exact hproper
    · rw [phase_goTo_eq hphases h]
      exact he.proper i
  · by_cases h : i = core
    · rw [h]
      exact hkeeping
    · have hsame := hothers i h
      exact (he.keeping i).congr (phase_goTo_eq hphases h)
        ⟨hsame.progress, hsame.count, hsame.tended⟩

/-- A core may move on if it keeps what it has behind it, or if it stops half-way. -/
theorem Sound.goTo (he : e.Sound limit sinks) (hphase : e.phase core = here)
    (hproper : phase.IsProper plan limit sinks core)
    (harrived : phase.HasArrived ↔ here.HasArrived)
    (houtside : phase.stage ≠ .meet → (e.meeting.progress core).point = none)
    (hsame : ¬ phase.IsFailed → ¬ here.IsFailed ∧ phase.completed = here.completed ∧
      phase.stage.through = here.stage.through ∧
      ∀ sink < sinks, phase.stage.emitted sink = here.stage.emitted sink) :
    (e.goTo core phase).Sound limit sinks := by
  have hkeeping : (e.goTo core phase).Keeping core := by
    refine ⟨?_, (he.keeping core).behind, ?_⟩
    · rw [phase_goTo_self]
      exact houtside
    · rw [phase_goTo_self]
      intro hfailed
      obtain ⟨hlive, hcompleted, hthrough, hemitted⟩ := hsame hfailed
      have haccount := he.account hphase hlive
      refine ⟨?_, fun sink records hrecords => ?_, fun hleader => ?_⟩
      · rw [hcompleted, hthrough]
        exact haccount.rounds_eq
      · rw [hcompleted, hemitted sink (he.lt_of_receives hrecords)]
        exact haccount.count_eq sink records hrecords
      · rw [hcompleted]
        exact haccount.tended_eq hleader
  obtain ⟨hall, hkept⟩ := he.forall_goTo hkeeping rfl hproper fun i _ => .of_eq rfl rfl rfl
  exact ⟨he.meeting, he.startup, arrived_goTo he.arrived hphase rfl rfl harrived, hall, hkept,
    he.rounds_le, he.length_eq, he.filed, he.told, he.tended, he.tended_le⟩

/-- A core that stops half-way outside of the meeting may do so. -/
lemma Sound.fail (he : e.Sound limit sinks) (hphase : e.phase core = here)
    (harrived : here.HasArrived) (hstage : here.stage ≠ .meet) (cause : Cause) :
    (e.goTo core (.ended (.error cause))).Sound limit sinks := by
  refine he.goTo hphase trivial ⟨fun _ => harrived, fun _ => trivial⟩
    (fun _ => he.outside hphase hstage) fun hfailed => ?_
  exact absurd trivial hfailed

/-- An attempt on the runner of a core keeps what the core has behind it. -/
lemma Sound.attempt (he : e.Sound limit sinks) {runner : Runner P W}
    {calibration : List Calibration} {stage : Stage}
    (hphase : e.phase core = .iterate runner calibration stage) (hstage : stage ≠ .meet)
    {α : Type} {next : α → Stage} {a : Attempt (Runner P W) α}
    (ha : a.Preserves Runner.course)
    (hnext : ∀ x runner', a.on runner = (.ok x, runner') →
      Phase.IsProper plan limit sinks core (.iterate runner' calibration (next x)) ∧
      (next x).through = stage.through ∧
      ∀ sink < sinks, (next x).emitted sink = stage.emitted sink) :
    (e.attempt core runner calibration next a).Sound limit sinks := by
  unfold Experiment.attempt
  rcases hon : a.on runner with ⟨_ | x, runner'⟩
  · exact he.fail hphase trivial hstage _
  · obtain ⟨hproper, hthrough, hemitted⟩ := hnext x runner' hon
    have hcompleted := congrArg UInt64.toNat (Runner.completed_eq (ha.eq_of_on hon))
    exact he.goTo hphase hproper Iff.rfl (fun _ => he.outside hphase hstage)
      fun _ => ⟨id, hcompleted, hthrough, hemitted⟩

/-! ### Arriving -/

/-- A core that arrives has nothing behind it. -/
lemma Sound.arrive (he : e.Sound limit sinks) {x : Bracket P × W} {point : Arriving}
    (hphase : e.phase core = .arrive (.ok x) point) :
    (Experiment.goTo core (.await x.1 x.2)
      { e with startup := { e.startup with arrived := e.startup.arrived + 1 } }).Sound
        limit sinks := by
  obtain ⟨hrounds, hcount, htended⟩ := he.account hphase id
  have hkeeping : (Experiment.goTo core (.await x.1 x.2)
      { e with startup := { e.startup with arrived := e.startup.arrived + 1 } }).Keeping core :=
    Keeping.of_account (phase_goTo_self _ _ _) (fun _ => he.outside hphase Stage.noConfusion)
      ⟨hrounds, hcount, htended⟩
  obtain ⟨hall, hkept⟩ := he.forall_goTo hkeeping rfl trivial fun i _ => .of_eq rfl rfl rfl
  exact ⟨he.meeting, he.startup, arrived_goTo_succ he.arrived hphase rfl rfl id trivial, hall,
    hkept, he.rounds_le, he.length_eq, he.filed, he.told, he.tended, he.tended_le⟩

/-! ### Meeting -/

/-- A core that makes a step in the meeting is through its round if the step ends it. -/
lemma Sound.meet (he : e.Sound limit sinks) {runner : Runner P W} {calibration : List Calibration}
    (hphase : e.phase core = .iterate runner calibration .meet) (spurious : Bool) :
    (Experiment.goTo core (.iterate runner calibration
      (if (e.meeting.progress core).rounds <
          ((e.meeting.step core spurious).progress core).rounds then .start else .meet))
      { e with meeting := e.meeting.step core spurious }).Sound limit sinks := by
  have hproper := he.proper core
  rw [hphase] at hproper
  obtain ⟨hrounds, hcount, htended⟩ := he.account hphase id
  have hlt : (e.meeting.progress core).rounds < limit.toNat := he.rounds_lt (by rw [hphase]; rfl)
  have hothers : ∀ i ≠ core, (e.meeting.step core spurious).progress i = e.meeting.progress i :=
    fun i h => e.meeting.progress_step_of_ne h spurious
  have hkeeping : (Experiment.goTo core (.iterate runner calibration
      (if (e.meeting.progress core).rounds <
          ((e.meeting.step core spurious).progress core).rounds then .start else .meet))
      { e with meeting := e.meeting.step core spurious }).Keeping core := by
    rcases e.meeting.progress_step_cases core spurious with ⟨q, hstep⟩ | hstep
    · rw [if_neg (by rw [hstep]; exact lt_irrefl _)]
      refine Keeping.of_account (phase_goTo_self _ _ _) (fun hstage => absurd rfl hstage)
        ⟨?_, hcount, htended⟩
      exact (congrArg Progress.rounds hstep).trans hrounds
    · rw [if_pos (by rw [hstep]; exact Nat.lt_succ_self _)]
      refine Keeping.of_account (phase_goTo_self _ _ _) (fun _ => congrArg Progress.point hstep)
        ⟨?_, hcount, htended⟩
      exact (congrArg Progress.rounds hstep).trans (congrArg (· + 1) hrounds)
  obtain ⟨hall, hkept⟩ := he.forall_goTo hkeeping rfl (by split_ifs <;> exact hproper)
    fun i h => ⟨hothers i h, fun _ records hrecords => ⟨records, hrecords, rfl⟩, fun _ => rfl⟩
  refine ⟨he.meeting.step core spurious, he.startup,
    arrived_goTo he.arrived hphase rfl rfl Iff.rfl, hall, hkept, fun i => ?_, he.length_eq,
    he.filed, he.told, he.tended, he.tended_le⟩
  change ((e.meeting.step core spurious).progress i).rounds ≤ limit.toNat
  by_cases h : i = core
  · subst h
    rcases e.meeting.progress_step_cases i spurious with ⟨q, hstep⟩ | hstep
    · rw [hstep]
      exact hlt.le
    · rw [hstep]
      exact hlt
  · rw [hothers i h]
    exact he.rounds_le i

/-! ### Handing records out -/

/-- What a sink has after it, or another one, has received a record. -/
lemma exists_of_receive {r : Record} {sink' : Nat}
    (h : (e.receive sink r).Receives sink' records) :
    ∃ before, e.Receives sink' before ∧
      records = if sink = sink' then before ++ [r] else before := by
  obtain ⟨array, harray, rfl⟩ := h
  rw [Experiment.receive, List.getElem?_modify] at harray
  obtain ⟨before, hbefore, rfl⟩ := Option.map_eq_some_iff.mp harray
  refine ⟨before.toList, ⟨before, hbefore, rfl⟩, ?_⟩
  split_ifs
  · exact Array.toList_push
  · rfl

/-- When a core hands out the record of a round that it is through, every other core has handed out
as many records before, or one more. -/
lemma Sound.count_others (he : e.Sound limit sinks)
    (houtside : (e.meeting.progress core).point = none) (hrecords : e.Receives sink records)
    (hcount : (e.meeting.progress core).rounds = plan.shape.count core records + 1)
    (i : Fin plan.shape.cores) :
    plan.shape.count i records = plan.shape.count core records ∨
      plan.shape.count i records = plan.shape.count core records + 1 := by
  obtain ⟨hle, hge, hinside⟩ :=
    he.meeting.view.of_beginning (Meeting.view_phase_of_none houtside) i
  change (e.meeting.progress i).rounds ≤ (e.meeting.progress core).rounds at hle
  change (e.meeting.progress core).rounds ≤ (e.meeting.progress i).rounds + 1 at hge
  change (e.meeting.progress i).rounds < (e.meeting.progress core).rounds → _ at hinside
  have hkeeping := he.keeping i
  obtain ⟨hbehind, hahead⟩ := hkeeping.behind sink records hrecords
  by_cases hlt : (e.meeting.progress i).rounds < (e.meeting.progress core).rounds
  · -- the other core is inside of the round, so it has handed out all records before
    obtain ⟨p, hpoint, -⟩ := Meeting.exists_point (hinside hlt)
    have hstage : (e.phase i).stage = .meet := by
      by_contra hnot
      rw [hkeeping.outside hnot] at hpoint
      exact Option.some_ne_none p hpoint.symm
    have hlive : ¬ (e.phase i).IsFailed := by
      intro hfailed
      cases hphase : e.phase i with
      | ended outcome =>
        rw [hphase] at hstage
        exact Stage.noConfusion hstage
      | _ =>
        rw [hphase] at hfailed
        exact hfailed
    obtain ⟨hrounds, hcounts, -⟩ := hkeeping.account hlive
    have hsame := hcounts sink records hrecords
    rw [hstage] at hrounds hsame
    simp only [Stage.through, Stage.emitted] at hrounds hsame
    omega
  · omega

/-- A record that a sink receives is not behind any other core. -/
lemma sameBehind_receive {r : Record} (hcore : r.core = plan.shape.number core) (h : i ≠ core) :
    SameBehind e (e.receive sink r) i := by
  refine ⟨rfl, fun sink' records' hrecords' => ?_, fun _ => rfl⟩
  obtain ⟨before, hbefore, rfl⟩ := exists_of_receive hrecords'
  refine ⟨before, hbefore, ?_⟩
  split_ifs
  · rw [Shape.count_append, Shape.count_singleton hcore, if_neg h]
    rfl
  · rfl

/-- A core that hands its record to a sink has one more record behind it there. -/
lemma Sound.keeping_emit (he : e.Sound limit sinks) {runner : Runner P W}
    {calibration : List Calibration} {r : Record}
    (hphase : e.phase core = .iterate runner calibration (.emit r sink)) :
    ((e.receive sink r).goTo core (.iterate runner calibration (.emit r (sink + 1)))).Keeping
      core := by
  have hproper := he.proper core
  rw [hphase] at hproper
  obtain ⟨-, -, -, hrecord, -⟩ := hproper
  obtain ⟨hrounds, hcount, htended⟩ := he.account hphase id
  refine Keeping.of_account (phase_goTo_self _ _ _)
    (fun _ => he.outside hphase Stage.noConfusion)
    ⟨hrounds, fun sink' records' hrecords' => ?_, htended⟩
  obtain ⟨before, hbefore, rfl⟩ := exists_of_receive hrecords'
  have hsame := hcount sink' before hbefore
  simp only [Phase.completed, Phase.stage, Stage.emitted] at hsame ⊢
  by_cases hsink : sink = sink'
  · subst hsink
    rw [if_neg (lt_irrefl _)] at hsame
    rw [if_pos rfl, if_pos (Nat.lt_succ_self _), Shape.count_append,
      Shape.count_singleton hrecord.core, if_pos rfl, hsame]
  · rw [if_neg hsink, hsame]
    congr 1
    exact if_congr ⟨fun hlt => by omega, fun hlt => by omega⟩ rfl rfl

/-- A core that hands its record to a sink keeps the records of the sink in blocks. -/
lemma Sound.isFiled_emit (he : e.Sound limit sinks) {runner : Runner P W}
    {calibration : List Calibration} {r : Record}
    (hphase : e.phase core = .iterate runner calibration (.emit r sink))
    (hrecords : e.Receives sink records) : plan.shape.IsFiled (records ++ [r]) := by
  have hproper := he.proper core
  rw [hphase] at hproper
  obtain ⟨-, -, -, hrecord, hiteration⟩ := hproper
  obtain ⟨hrounds, hcount, -⟩ := he.account hphase id
  have hsame : plan.shape.count core records = runner.completed.toNat := by
    rw [hcount sink records hrecords]
    simp only [Phase.completed, Phase.stage, Stage.emitted, if_neg (lt_irrefl sink), Nat.add_zero]
  have hround : r.iteration = UInt64.ofNat (plan.shape.count core records + 1) := by
    rw [hiteration, Runner.iteration, hsame, UInt64.ofNat_add, UInt64.ofNat_toNat]
    rfl
  have hthrough : (e.meeting.progress core).rounds = plan.shape.count core records + 1 := by
    rw [hrounds, hsame]
    rfl
  exact (he.filed sink records hrecords).push hrecord.core hround
    (he.count_others (he.outside hphase Stage.noConfusion) hrecords hthrough)

/-- A core may hand its record to the next sink. -/
lemma Sound.emit (he : e.Sound limit sinks) {runner : Runner P W} {calibration : List Calibration}
    {r : Record} (hphase : e.phase core = .iterate runner calibration (.emit r sink))
    (hlt : sink < e.received.length) :
    ((e.receive sink r).goTo core
      (.iterate runner calibration (.emit r (sink + 1)))).Sound limit sinks := by
  have hproper := he.proper core
  rw [hphase] at hproper
  obtain ⟨hrunner, hcompleted, -, hrecord, hiteration⟩ := hproper
  obtain ⟨hall, hkept⟩ := he.forall_goTo (he.keeping_emit hphase) rfl
    ⟨hrunner, hcompleted, by rwa [← he.length_eq], hrecord, hiteration⟩
    fun i h => sameBehind_receive hrecord.core h
  refine ⟨he.meeting, he.startup, arrived_goTo he.arrived hphase rfl rfl Iff.rfl, hall, hkept,
    he.rounds_le, ?_, fun sink' records' hrecords' => ?_,
    fun sink' records' hrecords' a ha => ?_, he.tended, fun sink' records' hrecords' => ?_⟩
  · change (e.received.modify sink (·.push r)).length = sinks
    rw [List.length_modify]
    exact he.length_eq
  · obtain ⟨before, hbefore, rfl⟩ := exists_of_receive hrecords'
    split_ifs with hsink
    · subst hsink
      exact he.isFiled_emit hphase hbefore
    · exact he.filed sink' before hbefore
  · obtain ⟨before, hbefore, rfl⟩ := exists_of_receive hrecords'
    have htold := he.told sink' before hbefore
    split_ifs at ha
    · rcases List.mem_append.mp ha with hmem | hmem
      · exact htold a hmem
      · exact ⟨core, List.mem_singleton.mp hmem ▸ hrecord⟩
    · exact htold a ha
  · obtain ⟨before, hbefore, rfl⟩ := exists_of_receive hrecords'
    refine (he.tended_le sink' before hbefore).trans ?_
    split_ifs
    · rw [Shape.count_append]
      exact Nat.le_add_right _ _
    · exact le_rfl

/-! ### Ending an iteration -/

/-- The leader is the first core. -/
lemma role_eq_leader {runner : Runner P W} (h : plan.IsRunner core runner) :
    runner.core.role = .leader ↔ core = plan.shape.leader := by
  rw [h.core, CoreId.role]
  constructor
  · intro hrole
    by_contra hne
    have hzero : ¬ (⟨core⟩ : CoreId).index = 0 := fun hzero => hne (Fin.ext hzero)
    rw [if_neg hzero] at hrole
    exact Role.noConfusion hrole
  · rintro rfl
    exact if_pos rfl

/-- The housekeeping follows the iterations of the leader alone. -/
lemma size_keepHouse {runner : Runner P W} (h : plan.IsRunner core runner) (iteration : UInt64) :
    (e.keepHouse runner.core.role iteration).tended.size =
      e.tended.size + if core = plan.shape.leader then 1 else 0 := by
  simp only [keepHouse, role_eq_leader h]
  split_ifs
  · exact Array.size_push _
  · rfl

/-- The housekeeping follows the next iteration. -/
lemma Sound.tended_keepHouse (he : e.Sound limit sinks) {runner : Runner P W}
    (h : plan.IsRunner core runner)
    (hnext : core = plan.shape.leader → runner.iteration = UInt64.ofNat (e.tended.size + 1)) :
    (e.keepHouse runner.core.role runner.iteration).tended.toList =
      (List.range (e.keepHouse runner.core.role runner.iteration).tended.size).map
        fun k => UInt64.ofNat (k + 1) := by
  rw [size_keepHouse h]
  simp only [keepHouse, role_eq_leader h]
  split_ifs with hleader
  · rw [Array.toList_push, he.tended, List.range_succ, List.map_append, List.map_singleton,
      hnext hleader]
  · exact he.tended

/-- A core that ends its iteration has handed its record to all sinks. -/
lemma Sound.tend (he : e.Sound limit sinks) {runner : Runner P W} {calibration : List Calibration}
    (hphase : e.phase core = .iterate runner calibration .tend) :
    ((e.keepHouse runner.core.role runner.iteration).goTo core
      (.iterate runner.finish calibration .rest)).Sound limit sinks := by
  have hproper := he.proper core
  rw [hphase] at hproper
  obtain ⟨hrunner, hcompleted⟩ := hproper
  obtain ⟨hrounds, hcount, htended⟩ := he.account hphase id
  have hround := Runner.toNat_iteration hcompleted
  have hsize : (e.keepHouse runner.core.role runner.iteration).tended.size = _ :=
    size_keepHouse hrunner runner.iteration
  have hnext : Phase.IsProper plan limit sinks core
      (.iterate runner.finish calibration .rest) := by
    refine ⟨⟨hrunner.core, hrunner.label, hrunner.cores, hrunner.stagger⟩, ?_⟩
    have hlt := UInt64.lt_iff_toNat_lt.mp hcompleted
    rw [UInt64.le_iff_toNat_le]
    change runner.iteration.toNat ≤ _
    omega
  have hkeeping : ((e.keepHouse runner.core.role runner.iteration).goTo core
      (.iterate runner.finish calibration .rest)).Keeping core := by
    refine Keeping.of_account (phase_goTo_self _ _ _)
      (fun _ => he.outside hphase Stage.noConfusion)
      ⟨?_, fun sink records hrecords => ?_, fun hleader => ?_⟩
    · exact hrounds.trans hround.symm
    · exact (hcount sink records hrecords).trans hround.symm
    · refine hsize.trans ?_
      rw [if_pos hleader, htended hleader]
      exact hround.symm
  have hothers : ∀ i ≠ core, SameBehind e (e.keepHouse runner.core.role runner.iteration) i := by
    refine fun i h => ⟨rfl, fun _ records hrecords => ⟨records, hrecords, rfl⟩, fun hleader => ?_⟩
    rw [hsize, if_neg fun hcore => h (hleader.trans hcore.symm)]
    rfl
  obtain ⟨hall, hkept⟩ := he.forall_goTo hkeeping rfl hnext hothers
  refine ⟨he.meeting, he.startup, arrived_goTo he.arrived hphase rfl rfl Iff.rfl, hall, hkept,
    he.rounds_le, he.length_eq, he.filed, he.told,
    he.tended_keepHouse hrunner fun hleader => ?_, fun sink records hrecords => ?_⟩
  · rw [htended hleader, ← UInt64.ofNat_toNat (x := runner.iteration), hround]
    rfl
  · refine hsize.trans_le ?_
    have hle := he.tended_le sink records hrecords
    split_ifs with hleader
    · subst hleader
      rw [htended rfl, hcount sink records hrecords]
      exact le_rfl
    · exact hle

/-! ### All steps -/

/-- A core is furnished with a runner of its own that has no iterations behind it. -/
lemma furnish_eq_ok [Counters P] {now : Clock → UInt64} {bracket : Bracket P} {workload : W}
    {runner : Runner P W} {rows : List Calibration}
    (h : furnish now core bracket workload = .ok (runner, rows)) :
    plan.IsRunner core runner ∧ runner.completed = 0 := by
  obtain ⟨⟨bracket', rows'⟩, -, h⟩ := bind_eq_ok.mp h
  obtain ⟨sweep, -, h⟩ := bind_eq_ok.mp h
  obtain ⟨stagger, hstagger, h⟩ := bind_eq_ok.mp h
  obtain ⟨rfl, -⟩ := Prod.mk.inj (Except.ok.inj h)
  unfold Stagger.ofConfig at hstagger
  rw [dif_pos plan.iterationsPerStep_ne_zero] at hstagger
  exact ⟨⟨rfl, rfl, rfl, (Except.ok.inj hstagger).symm⟩, rfl⟩

variable [Counters P] [Workload W]

/-- A core that goes through its iterations keeps the invariant. -/
lemma Sound.iterateStep (he : e.Sound limit sinks) (hlimit : plan.config.iterations = some limit)
    {runner : Runner P W} {calibration : List Calibration} {stage : Stage}
    (hphase : e.phase core = .iterate runner calibration stage) (spurious : Bool)
    (now : Clock → UInt64) :
    (e.iterateStep core spurious now runner calibration stage).Sound limit sinks := by
  have hproper := he.proper core
  rw [hphase] at hproper
  cases stage with
  | rest =>
    obtain ⟨hrunner, hle⟩ := hproper
    simp only [Experiment.iterateStep, Runner.isDone, hlimit, decide_eq_true_eq]
    split_ifs with hdone
    · exact he.goTo hphase (UInt64.le_antisymm hle hdone) Iff.rfl
        (fun _ => he.outside hphase Stage.noConfusion) fun _ => ⟨id, rfl, rfl, fun _ _ => rfl⟩
    · refine he.attempt hphase Stage.noConfusion Runner.preserves_prepare
        fun x runner' hon => ⟨⟨?_, ?_⟩, rfl, fun _ _ => rfl⟩
      · exact hrunner.of_course (Runner.preserves_prepare.eq_of_on hon)
      · rw [Runner.completed_eq (Runner.preserves_prepare.eq_of_on hon)]
        exact UInt64.not_le.mp hdone
  | meet => exact he.meet hphase spurious
  | start =>
    obtain ⟨hrunner, hlt⟩ := hproper
    refine he.attempt hphase Stage.noConfusion (Runner.preserves_startMeasuring now)
      fun x runner' hon => ⟨⟨?_, ?_⟩, rfl, fun _ _ => rfl⟩
    · exact hrunner.of_course ((Runner.preserves_startMeasuring now).eq_of_on hon)
    · rwa [Runner.completed_eq ((Runner.preserves_startMeasuring now).eq_of_on hon)]
  | run =>
    obtain ⟨hrunner, hlt⟩ := hproper
    refine he.attempt hphase Stage.noConfusion Runner.preserves_runWorkload
      fun x runner' hon => ⟨⟨?_, ?_⟩, rfl, fun _ _ => rfl⟩
    · exact hrunner.of_course (Runner.preserves_runWorkload.eq_of_on hon)
    · rwa [Runner.completed_eq (Runner.preserves_runWorkload.eq_of_on hon)]
  | stop =>
    obtain ⟨hrunner, hlt⟩ := hproper
    refine he.attempt hphase Stage.noConfusion (Runner.preserves_stopMeasuring now)
      fun record runner' hon => ⟨?_, rfl, fun _ _ => rfl⟩
    have hcourse := (Runner.preserves_stopMeasuring now).eq_of_on hon
    obtain ⟨m, b, -, -, rfl⟩ := Runner.stopMeasuring_eq_ok hon
    have hrunner' := hrunner.of_course hcourse
    refine ⟨hrunner', ?_, Nat.zero_le _, hrunner'.isRecord m, rfl⟩
    rwa [Runner.completed_eq hcourse]
  | emit record next =>
    simp only [Experiment.iterateStep]
    split_ifs with hnext
    · exact he.emit hphase hnext
    · obtain ⟨hrunner, hlt, -, -, -⟩ := hproper
      refine he.goTo hphase ⟨hrunner, hlt⟩ Iff.rfl
        (fun _ => he.outside hphase Stage.noConfusion)
        fun _ => ⟨id, rfl, rfl, fun sink hsink => (if_pos ?_).symm⟩
      rw [he.length_eq] at hnext
      omega
  | tend => exact he.tend hphase

/-- **Steps keep the invariant**, whatever the counters, the workloads and the clocks do. -/
theorem Sound.step (he : e.Sound limit sinks) (hlimit : plan.config.iterations = some limit)
    (core : Fin plan.shape.cores) (spurious : Bool) (now : Clock → UInt64) :
    (e.step core spurious now).Sound limit sinks := by
  cases hphase : e.phase core with
  | arrive setup point =>
    have hproper := he.proper core
    rw [hphase] at hproper
    obtain ⟨⟨x, rfl⟩, rfl⟩ := hproper
    simp only [Experiment.step, hphase]
    exact he.arrive hphase
  | await bracket workload =>
    simp only [Experiment.step, hphase]
    split_ifs
    · exact he
    · exact he.goTo hphase trivial Iff.rfl (fun _ => he.outside hphase Stage.noConfusion)
        fun _ => ⟨id, rfl, rfl, fun _ _ => rfl⟩
  | judge bracket workload =>
    simp only [Experiment.step, hphase, he.startup.1]
    exact he.goTo hphase trivial Iff.rfl (fun _ => he.outside hphase Stage.noConfusion)
      fun _ => ⟨id, rfl, rfl, fun _ _ => rfl⟩
  | furnish bracket workload =>
    simp only [Experiment.step, hphase]
    rcases hfurnish : Experiment.furnish now core bracket workload with cause | ⟨runner, rows⟩
    · exact he.fail hphase trivial Stage.noConfusion _
    · obtain ⟨hrunner, hcompleted⟩ := furnish_eq_ok hfurnish
      refine he.goTo hphase ⟨hrunner, ?_⟩ Iff.rfl
        (fun _ => he.outside hphase Stage.noConfusion)
        fun _ => ⟨id, congrArg UInt64.toNat hcompleted, rfl, fun _ _ => rfl⟩
      rw [hcompleted]
      exact UInt64.zero_le
  | iterate runner calibration stage =>
    simp only [Experiment.step, hphase]
    exact he.iterateStep hlimit hphase spurious now
  | ended outcome =>
    simp only [Experiment.step, hphase]
    exact he

/-- **Everything that steps lead to keeps the invariant.** -/
theorem Sound.follow (he : e.Sound limit sinks) (hlimit : plan.config.iterations = some limit)
    (schedule : List (Turn plan)) : (e.follow schedule).Sound limit sinks := by
  induction schedule generalizing e with
  | nil => exact he
  | cons turn schedule ih => exact ih (he.step hlimit turn.core turn.spurious turn.now)

end Experiment

end Lockstep
