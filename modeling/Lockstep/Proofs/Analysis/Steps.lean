import Lockstep.Proofs.Analysis.Partition
import Lockstep.Proofs.Experiment.Names
import Lockstep.Proofs.Experiment.Outcome
import Lockstep.Proofs.Experiment.Together
import Mathlib.Order.Interval.Finset.Nat

/-!
# The rows of a run

In a staggered run the offset of an iteration tells in which step of the stagger it was, so that the
rows of an analysis are the steps of its cores.  Of the records of a completed run it matters which
core and which iteration they are of and what they are called; this does not depend on the order in
which they were captured (`Plan.IsRun`).  A record after the warmup goes into the row of its core
and its step, and since offsets neither saturate nor stand still, different steps have different
rows.

There are no rows if the counts of an event do not fit into sixty-four bits.  A run can come to this
with enough iterations in one step, as in simulated time all records of a core have the same counts
(`Plan.IsRun.not_fit`).
-/

namespace Lockstep

namespace Plan

variable (plan : Plan)

/-- The step of the stagger that an iteration is in. -/
def stepOf (i : Nat) : Nat :=
  (i - 1) / plan.config.stagger.iterationsPerStep.toNat

/-- The iterations of a step after the warmup, up to the limit. -/
def iterationsOf (warmup limit : UInt64) (j : Nat) : Finset Nat :=
  (Finset.Ioc warmup.toNat limit.toNat).filter fun i => plan.stepOf i = j

/-- The stagger grows in every step, and its offsets do not leave their range up to the limit. -/
structure Staggers (limit : UInt64) : Prop where
  offsetStep_pos : 0 < plan.config.stagger.offsetStep.toNat
  lt_size : plan.stepOf limit.toNat * plan.config.stagger.offsetStep.toNat < UInt64.size

/-- The row is that of a step of a core. -/
def IsStepRow (core : Fin plan.shape.cores) (j : Nat) (row : Row) : Prop :=
  row.key.core = plan.shape.number core ∧
    row.key.offset.toNat = j * plan.config.stagger.offsetStep.toNat

/-- What an analysis tells of a run: the steps of its cores. -/
structure TellsSteps (warmup limit : UInt64) (a : Analysis) : Prop where
  nodup : a.rows.Nodup
  /-- A core has one row for each step in which it has iterations after the warmup. -/
  row_of_step : ∀ core j, (plan.iterationsOf warmup limit j).Nonempty →
    ∃! row, row ∈ a.rows ∧ plan.IsStepRow core j row
  /-- There are no other rows, and a row counts the iterations of its step. -/
  step_of_row : ∀ row ∈ a.rows, ∃ core j, (plan.iterationsOf warmup limit j).Nonempty ∧
    plan.IsStepRow core j row ∧ row.iterations = (plan.iterationsOf warmup limit j).card

/-- The records of a completed run, in any order. -/
structure IsRun (limit : UInt64) (names : Fin plan.shape.cores → String) (records : List Record) :
    Prop where
  told : ∀ r ∈ records, ∃ core, plan.IsRecord core r ∧ r.workload = names core
  iterations : ∀ core, ((plan.shape.own core records).map (·.iteration)).Perm
    (Experiment.firstIterations limit.toNat)

/-- The key of the row of a step. -/
def stepKey (names : Fin plan.shape.cores → String) (core : Fin plan.shape.cores) (j : Nat) :
    RowKey where
  label := some plan.config.label
  workload := names core
  cores := some (UInt64.ofNat plan.shape.cores)
  core := plan.shape.number core
  offset := UInt64.ofNat (j * plan.config.stagger.offsetStep.toNat)

variable {plan} {warmup limit : UInt64} {names : Fin plan.shape.cores → String}
  {records : List Record} {core : Fin plan.shape.cores} {r : Record} {i j : Nat}

/-! ### Offsets -/

lemma mem_iterationsOf : i ∈ plan.iterationsOf warmup limit j ↔
    (warmup.toNat < i ∧ i ≤ limit.toNat) ∧ plan.stepOf i = j := by
  rw [iterationsOf, Finset.mem_filter, Finset.mem_Ioc]

/-- Up to the limit no step has an offset out of range. -/
lemma Staggers.stepOf_lt (h : plan.Staggers limit) (hi : i ≤ limit.toNat) :
    plan.stepOf i * plan.config.stagger.offsetStep.toNat < UInt64.size := by
  have hstep : plan.stepOf i ≤ plan.stepOf limit.toNat :=
    Nat.div_le_div_right (Nat.sub_le_sub_right hi 1)
  exact (Nat.mul_le_mul_right _ hstep).trans_lt h.lt_size

/-- The offset of an iteration is that of its step. -/
lemma Staggers.offset_eq (h : plan.Staggers limit) {iteration : UInt64} (hle : iteration ≤ limit) :
    plan.stagger.offset iteration =
      UInt64.ofNat (plan.stepOf iteration.toNat * plan.config.stagger.offsetStep.toNat) := by
  have hlt := h.stepOf_lt (UInt64.le_iff_toNat_le.mp hle)
  apply UInt64.toNat_inj.mp
  rw [UInt64.toNat_ofNat_of_lt' hlt, Stagger.offset, toNat_saturatingMul, UInt64.toNat_div,
    toNat_saturatingSub]
  exact Nat.min_eq_right (Nat.le_sub_one_of_lt hlt)

/-- Different steps have different offsets. -/
lemma Staggers.step_injective (h : plan.Staggers limit) {j j' : Nat}
    (heq : j * plan.config.stagger.offsetStep.toNat = j' * plan.config.stagger.offsetStep.toNat) :
    j = j' :=
  Nat.eq_of_mul_eq_mul_right h.offsetStep_pos heq

/-! ### The records of a run -/

/-- The records of a run are so in any order. -/
lemma IsRun.perm {records' : List Record} (h : plan.IsRun limit names records)
    (hperm : records.Perm records') : plan.IsRun limit names records' :=
  ⟨fun r hr => h.told r (hperm.mem_iff.mpr hr),
    fun core => (((hperm.filter _).map _).symm).trans (h.iterations core)⟩

/-- A run has no iterations but those up to its limit. -/
lemma IsRun.iteration_le (h : plan.IsRun limit names records) (hr : r ∈ records) :
    r.iteration ≤ limit := by
  obtain ⟨core, hrecord, -⟩ := h.told r hr
  have hown : r ∈ plan.shape.own core records :=
    List.mem_filter.mpr ⟨hr, decide_eq_true hrecord.core⟩
  have hmem := (h.iterations core).mem_iff.mp (List.mem_map_of_mem hown)
  obtain ⟨k, hk, hiteration⟩ := List.mem_map.mp hmem
  rw [List.mem_range] at hk
  have hlt : k + 1 < UInt64.size := by
    have hlimit := limit.toNat_lt_size
    omega
  rw [← hiteration, UInt64.le_iff_toNat_le, UInt64.toNat_ofNat_of_lt' hlt]
  exact hk

/-- A record belongs to the row of its core and its step. -/
lemma IsRun.key_eq (h : plan.IsRun limit names records) (hstaggers : plan.Staggers limit)
    (hr : r ∈ records) (hrecord : plan.IsRecord core r) (hname : r.workload = names core) :
    RowKey.ofRecord .run r = plan.stepKey names core (plan.stepOf r.iteration.toNat) := by
  have hoffset := hrecord.offset.trans (hstaggers.offset_eq (h.iteration_le hr))
  change RowKey.mk (some r.label) r.workload (some r.cores) r.core r.offset = _
  rw [hrecord.label, hname, hrecord.cores, hrecord.core, hoffset]
  rfl

/-- Rows of different cores or different steps have different keys. -/
lemma Staggers.stepKey_inj (h : plan.Staggers limit) {core' : Fin plan.shape.cores} {j' : Nat}
    (hj : j * plan.config.stagger.offsetStep.toNat < UInt64.size)
    (hj' : j' * plan.config.stagger.offsetStep.toNat < UInt64.size)
    (heq : plan.stepKey names core j = plan.stepKey names core' j') : core = core' ∧ j = j' := by
  have hcore := congrArg RowKey.core heq
  have hoffset := congrArg (fun key => key.offset.toNat) heq
  change (UInt64.ofNat _).toNat = (UInt64.ofNat _).toNat at hoffset
  rw [UInt64.toNat_ofNat_of_lt' hj, UInt64.toNat_ofNat_of_lt' hj'] at hoffset
  exact ⟨plan.shape.number_injective hcore, h.step_injective hoffset⟩

/-- The iterations of a run that are of a step are as many as the step has. -/
lemma countP_firstIterations (plan : Plan) (warmup limit : UInt64) (j : Nat) :
    (Experiment.firstIterations limit.toNat).countP
      (fun i => i.toNat ∈ plan.iterationsOf warmup limit j) =
        (plan.iterationsOf warmup limit j).card := by
  -- iterations are counted from one, and the places of a list from zero
  have hplaces : plan.iterationsOf warmup limit j = ((Finset.range limit.toNat).filter
      fun k => k + 1 ∈ plan.iterationsOf warmup limit j).image Nat.succ := by
    ext i
    rw [Finset.mem_image]
    constructor
    · intro hi
      obtain ⟨⟨hlow, hhigh⟩, -⟩ := mem_iterationsOf.mp hi
      obtain ⟨k, rfl⟩ := Nat.exists_eq_succ_of_ne_zero (Nat.ne_zero_of_lt hlow)
      exact ⟨k, Finset.mem_filter.mpr ⟨Finset.mem_range.mpr hhigh, hi⟩, rfl⟩
    · rintro ⟨k, hk, rfl⟩
      exact (Finset.mem_filter.mp hk).2
  have hcount : ∀ k ∈ List.range limit.toNat, (UInt64.ofNat (k + 1)).toNat = k + 1 := by
    intro k hk
    have hlimit := limit.toNat_lt_size
    rw [List.mem_range] at hk
    exact UInt64.toNat_ofNat_of_lt' (by omega)
  calc (Experiment.firstIterations limit.toNat).countP
        (fun i => i.toNat ∈ plan.iterationsOf warmup limit j)
      = (List.range limit.toNat).countP fun k => k + 1 ∈ plan.iterationsOf warmup limit j := by
        rw [Experiment.firstIterations, List.countP_map]
        refine List.countP_congr fun k hk => ?_
        rw [Function.comp_apply, hcount k hk]
    _ = ((Finset.range limit.toNat).filter
          fun k => k + 1 ∈ plan.iterationsOf warmup limit j).card := by
        rw [List.countP_eq_length_filter]
        rfl
    _ = (plan.iterationsOf warmup limit j).card := by
        conv_rhs => rw [hplaces]
        exact (Finset.card_image_of_injective _ Nat.succ_injective).symm

/-- **A row has a record of each iteration of its step.** -/
theorem IsRun.length_recordsOf (h : plan.IsRun limit names records)
    (hstaggers : plan.Staggers limit) (warmup : UInt64) (core : Fin plan.shape.cores)
    (hj : j * plan.config.stagger.offsetStep.toNat < UInt64.size) :
    (Analysis.recordsOf .run (records.filter fun r => decide (warmup < r.iteration))
      (plan.stepKey names core j)).length = (plan.iterationsOf warmup limit j).card := by
  have hown : Analysis.recordsOf .run (records.filter fun r => decide (warmup < r.iteration))
      (plan.stepKey names core j) = (plan.shape.own core records).filter
        fun r => r.iteration.toNat ∈ plan.iterationsOf warmup limit j := by
    rw [Analysis.recordsOf, Table.own, Shape.own, List.filter_filter, List.filter_filter]
    refine List.filter_congr fun r hr => ?_
    obtain ⟨core', hrecord, hname⟩ := h.told r hr
    have hle := UInt64.le_iff_toNat_le.mp (h.iteration_le hr)
    rw [h.key_eq hstaggers hr hrecord hname, hrecord.core, Bool.eq_iff_iff, Bool.and_eq_true,
      Bool.and_eq_true, decide_eq_true_eq, decide_eq_true_eq, decide_eq_true_eq, decide_eq_true_eq,
      mem_iterationsOf, UInt64.lt_iff_toNat_lt]
    -- the key of a record tells its core and its step, as no two steps share an offset
    constructor
    · rintro ⟨hkey, hlt⟩
      obtain ⟨rfl, hstep⟩ := hstaggers.stepKey_inj (hstaggers.stepOf_lt hle) hj hkey
      exact ⟨⟨⟨hlt, hle⟩, hstep⟩, rfl⟩
    · rintro ⟨⟨⟨hlt, -⟩, hstep⟩, hcore⟩
      rw [plan.shape.number_injective hcore, hstep]
      exact ⟨rfl, hlt⟩
  calc _ = ((plan.shape.own core records).map (·.iteration)).countP
        (fun i => i.toNat ∈ plan.iterationsOf warmup limit j) := by
        rw [hown, ← List.countP_eq_length_filter, List.countP_map]
        rfl
    _ = _ := by
        rw [(h.iterations core).countP_eq]
        exact countP_firstIterations plan warmup limit j

/-- The counts of a run do not fit if all records of a core have the same sum of an event, and these
sums are too much in all iterations of a step. -/
lemma IsRun.not_fit (h : plan.IsRun limit names records) (hstaggers : plan.Staggers limit)
    (warmup : UInt64) (core : Fin plan.shape.cores) (code : Event.Code)
    (hj : j * plan.config.stagger.offsetStep.toNat < UInt64.size) {n : Nat}
    (hcount : ∀ r ∈ records, r.core = plan.shape.number core →
      Event.countOf (Event.readingsOf code r.events) = n)
    (hmany : UInt64.size ≤ (plan.iterationsOf warmup limit j).card * n) :
    ¬ Analysis.Fit .run (records.filter fun r => decide (warmup < r.iteration)) := by
  refine Analysis.not_fit_of_countOf_eq (plan.stepKey names core j) code (n := n)
    (fun r hr => ?_) ?_
  · obtain ⟨hlater, hkey⟩ := Table.mem_own.mp hr
    exact hcount r (List.mem_filter.mp hlater).1 (congrArg RowKey.core hkey)
  · rwa [h.length_recordsOf hstaggers warmup core hj]

/-- All iterations are in the first step of a stagger if they are not more than a step has. -/
lemma card_iterationsOf_zero (h : limit.toNat ≤ plan.config.stagger.iterationsPerStep.toNat) :
    (plan.iterationsOf 0 limit 0).card = limit.toNat := by
  have hfirst : ∀ i ∈ Finset.Ioc (0 : UInt64).toNat limit.toNat, plan.stepOf i = 0 := by
    intro i hi
    obtain ⟨hpos, hle⟩ := Finset.mem_Ioc.mp hi
    change 0 < i at hpos
    exact Nat.div_eq_of_lt (by omega)
  rw [iterationsOf, Finset.filter_true_of_mem hfirst, Nat.card_Ioc]
  rfl

/-! ### The rows of a run -/

variable {c : Capture} {a : Analysis}

/-- A step that has iterations up to the limit has an offset in range. -/
lemma Staggers.lt_of_nonempty (h : plan.Staggers limit)
    (hj : (plan.iterationsOf warmup limit j).Nonempty) :
    j * plan.config.stagger.offsetStep.toNat < UInt64.size := by
  obtain ⟨i, hi⟩ := hj
  obtain ⟨⟨-, hle⟩, rfl⟩ := mem_iterationsOf.mp hi
  exact h.stepOf_lt hle

/-- Each row is that of a step of a core. -/
lemma IsRun.exists_step (h : plan.IsRun limit names c.records) (hstaggers : plan.Staggers limit)
    (hfit : Analysis.Fit .run (c.skipWarmup warmup).records)
    (hdivides : Analysis.Divides .run (c.skipWarmup warmup) a) {row : Row} (hrow : row ∈ a.rows) :
    ∃ core j, (plan.iterationsOf warmup limit j).Nonempty ∧
      row.key = plan.stepKey names core j := by
  obtain ⟨r, hr, hkey⟩ := (hdivides.key_iff hfit row.key).mp ⟨row, hrow, rfl⟩
  obtain ⟨hmem, hlater⟩ := List.mem_filter.mp hr
  obtain ⟨core, hrecord, hname⟩ := h.told r hmem
  have hle := UInt64.le_iff_toNat_le.mp (h.iteration_le hmem)
  have hlt := UInt64.lt_iff_toNat_lt.mp (of_decide_eq_true hlater)
  refine ⟨core, plan.stepOf r.iteration.toNat, ⟨r.iteration.toNat, ?_⟩, ?_⟩
  · exact mem_iterationsOf.mpr ⟨⟨hlt, hle⟩, rfl⟩
  · rw [← hkey]
    exact h.key_eq hstaggers hmem hrecord hname

/-- Each step of a core has a row. -/
lemma IsRun.exists_row (h : plan.IsRun limit names c.records) (hstaggers : plan.Staggers limit)
    (hfit : Analysis.Fit .run (c.skipWarmup warmup).records)
    (hdivides : Analysis.Divides .run (c.skipWarmup warmup) a) (core : Fin plan.shape.cores)
    (hj : (plan.iterationsOf warmup limit j).Nonempty) :
    ∃ row ∈ a.rows, row.key = plan.stepKey names core j := by
  have hlength := h.length_recordsOf hstaggers warmup core (hstaggers.lt_of_nonempty hj)
  have hpos : 0 < (Analysis.recordsOf .run (c.skipWarmup warmup).records
      (plan.stepKey names core j)).length := by
    have hcard := Finset.card_pos.mpr hj
    rwa [← hlength] at hcard
  obtain ⟨r, hr⟩ := List.exists_mem_of_length_pos hpos
  exact (hdivides.key_iff hfit _).mpr ⟨r, Table.mem_own.mp hr⟩

/-- A row that has the key of a step is the row of this step alone. -/
lemma Staggers.isStepRow_iff (h : plan.Staggers limit) {row : Row} {core' : Fin plan.shape.cores}
    {j' : Nat} (hj : (plan.iterationsOf warmup limit j).Nonempty)
    (hkey : row.key = plan.stepKey names core j) :
    plan.IsStepRow core' j' row ↔ core' = core ∧ j' = j := by
  have hoffset : row.key.offset.toNat = j * plan.config.stagger.offsetStep.toNat := by
    rw [hkey]
    exact UInt64.toNat_ofNat_of_lt' (h.lt_of_nonempty hj)
  have hcore : row.key.core = plan.shape.number core := by rw [hkey]; rfl
  rw [IsStepRow, hcore, hoffset]
  constructor
  · rintro ⟨hnumber, hstep⟩
    exact ⟨(plan.shape.number_injective hnumber).symm, (h.step_injective hstep).symm⟩
  · rintro ⟨rfl, rfl⟩
    exact ⟨rfl, rfl⟩

/-- **The rows of a run are the steps of its cores.** -/
theorem IsRun.tellsSteps (h : plan.IsRun limit names c.records) (hstaggers : plan.Staggers limit)
    (hfit : Analysis.Fit .run (c.skipWarmup warmup).records)
    (hdivides : Analysis.Divides .run (c.skipWarmup warmup) a) :
    plan.TellsSteps warmup limit a := by
  have hnodup : (a.rows.map (·.key)).Nodup :=
    nodup_of_pairwise_lt (List.pairwise_map.mpr hdivides.ascending)
  refine ⟨hnodup.of_map _, fun core j hj => ?_, fun row hrow => ?_⟩
  · obtain ⟨row, hrow, hkey⟩ := h.exists_row hstaggers hfit hdivides core hj
    refine ⟨row, ⟨hrow, (hstaggers.isStepRow_iff hj hkey).mpr ⟨rfl, rfl⟩⟩, ?_⟩
    rintro row' ⟨hrow', hstep⟩
    obtain ⟨core', j', hj', hkey'⟩ := h.exists_step hstaggers hfit hdivides hrow'
    obtain ⟨rfl, rfl⟩ := (hstaggers.isStepRow_iff hj' hkey').mp hstep
    exact List.inj_on_of_nodup_map hnodup hrow' hrow (hkey'.trans hkey.symm)
  · obtain ⟨core, j, hj, hkey⟩ := h.exists_step hstaggers hfit hdivides hrow
    refine ⟨core, j, hj, (hstaggers.isStepRow_iff hj hkey).mpr ⟨rfl, rfl⟩, ?_⟩
    have hlength := h.length_recordsOf hstaggers warmup core (hstaggers.lt_of_nonempty hj)
    rw [hdivides.iterations_eq hrow, hkey]
    exact hlength

end Plan

/-! ### Completed runs -/

namespace Experiment

variable {plan : Plan} {P W : Type} {e : Experiment plan P W}

/-- A core that has iterations behind it has not stopped half-way. -/
lemma not_hasFailed_of_completed (h : ∀ core, 0 < (e.phase core).completed) : ¬ e.HasFailed := by
  rintro ⟨core, hfailed⟩
  have hpos := h core
  cases hphase : e.phase core with
  | ended outcome =>
    rw [hphase] at hfailed hpos
    rcases outcome with cause | result
    · exact absurd hpos (Nat.lt_irrefl 0)
    · exact hfailed
  | _ =>
    rw [hphase] at hfailed
    exact hfailed

variable [Counters P] [Workload W] {equipment : Equipment P W} {limit : UInt64} {sinks : Nat}
  {schedule : List (Turn plan)}

/-- All cores were set up if all of them have ended and none has stopped half-way. -/
lemma allReady_of_isOver (hlaunch : launch plan equipment sinks = .ok e)
    (hover : (e.follow schedule).isOver = true) (hlive : ¬ (e.follow schedule).HasFailed) :
    AllReady fun core => equipment.setUp plan core := by
  by_contra hnot
  rw [launch_eq_ok hlaunch] at hover hlive
  have hgathers := (gathers_start (fun core => equipment.setUp plan core) sinks).follow schedule
  obtain ⟨core, cause, -, -, hphase⟩ := hgathers.exists_firstFailure hnot hover
  exact hlive ⟨core, by rw [hphase]; trivial⟩

/-- Each sink has received the records of a run when all cores have completed their iterations. -/
lemma exists_isRun (hkeeps : Workload.KeepsName W) (hlimit : plan.config.iterations = some limit)
    (hlaunch : launch plan equipment sinks = .ok e)
    (hover : (e.follow schedule).isOver = true) (hlive : ¬ (e.follow schedule).HasFailed) :
    ∃ names, ∀ sink records, (e.follow schedule).Receives sink records →
      plan.IsRun limit names records := by
  have hready := allReady_of_isOver hlaunch hover hlive
  have hsound := sound_of_launch hlaunch hready limit
  have hnamed : ∃ names, e.IsNamed names := by
    rw [launch_eq_ok hlaunch]
    exact exists_isNamed_start _ sinks
  obtain ⟨names, hnames⟩ := hnamed
  refine ⟨names, fun sink records hrecords => ⟨?_, fun core => ?_⟩⟩
  · exact (hnames.follow hkeeps hsound hlimit schedule).records sink records hrecords
  · have hcomplete := (hsound.follow hlimit schedule).inLockstep.complete hover hlive
    rw [(hcomplete.1 sink records hrecords).own_iterations core]
    rfl

/-- In simulated time all records of a core have the same counts.  They do not fit if they are too
much in all iterations of a step. -/
lemma not_fit_of_simulated {equipment : Equipment TickingCounters Benchmark}
    {e : Experiment plan TickingCounters Benchmark}
    (hlimit : plan.config.iterations = some limit) (hstaggers : plan.Staggers limit)
    (hregistry : equipment.registry = Registry.withSimulated)
    (hlaunch : launch plan equipment sinks = .ok e)
    (hnow : ∀ turn ∈ schedule, turn.now = Clock.ticks)
    (hover : (e.follow schedule).isOver = true) (hlive : ¬ (e.follow schedule).HasFailed)
    {sink : Nat} {records : List Record} (hrecords : (e.follow schedule).Receives sink records)
    {core : Fin plan.shape.cores} (hworkload : (plan.entry core).workload = "simulated")
    {events : List Event.Code} (hevents : (plan.entry core).eventCodes = .ok events)
    {warmup : UInt64} {j : Nat} (hj : j * plan.config.stagger.offsetStep.toNat < UInt64.size)
    {code : Event.Code}
    (hmany : UInt64.size ≤ (plan.iterationsOf warmup limit j).card *
      Event.countOf (Event.readingsOf code
        (Bracket.exactly (Bracket.slotted events) (plan.ticks core)).events)) :
    ¬ Analysis.Fit .run (Capture.skipWarmup warmup ⟨records, 0⟩).records := by
  obtain ⟨names, hruns⟩ := exists_isRun Benchmark.keepsName hlimit hlaunch hover hlive
  obtain ⟨events', hevents', hticking⟩ := isTicking_of_launch hlimit hregistry hlaunch
    (allReady_of_isOver hlaunch hover hlive) hnow hworkload
  obtain rfl := Except.ok.inj (hevents'.symm.trans hevents)
  refine (hruns sink records hrecords).not_fit hstaggers warmup core code hj
    (fun r hr hcore => ?_) hmany
  rw [(hticking.told sink records hrecords r hr hcore).events_eq]

/-- **The rows of a completed run are the steps of its cores.**  Whatever the orders of steps of the
cores, of the records in a capture and of tables, the analysis of the records after any warmup has a
row for each step in which a core has iterations then, and no other rows.  The counts of the records
have to fit into sixty-four bits for this, which they do unless there are more than four billion
readings.  A workload has to keep its name, and those that a configuration can name do so. -/
theorem rows_are_steps :
    (∀ (plan : Plan) (limit : UInt64), plan.config.iterations = some limit →
      plan.Staggers limit → ∀ (P W : Type) [Counters P] [Workload W], Workload.KeepsName W →
      ∀ (equipment : Equipment P W) (sinks : Nat) (e : Experiment plan P W),
      launch plan equipment sinks = .ok e → ∀ schedule : List (Turn plan),
      (e.follow schedule).isOver = true → ¬ (e.follow schedule).HasFailed →
      ∀ sink records, (e.follow schedule).Receives sink records →
      ∀ c : Capture, c.records.Perm records → ∀ warmup visits,
        (Analysis.Fit .run (c.skipWarmup warmup).records →
          ∃ a, Analysis.ofCaptureIn visits .run (c.skipWarmup warmup) = .ok a ∧
            plan.TellsSteps warmup limit a) ∧
        (¬ Analysis.Fit .run (c.skipWarmup warmup).records →
          UInt32.size < ((c.skipWarmup warmup).records.flatMap (·.events)).length ∧
            Analysis.ofCaptureIn visits .run (c.skipWarmup warmup) = .error .overflow)) ∧
    Workload.KeepsName Benchmark := by
  refine ⟨?_, Benchmark.keepsName⟩
  intro plan limit hlimit hstaggers P W _ _ hkeeps equipment sinks e hlaunch schedule hover hlive
    sink records hrecords c hperm warmup visits
  obtain ⟨names, hruns⟩ := exists_isRun hkeeps hlimit hlaunch hover hlive
  have hrun : plan.IsRun limit names c.records := (hruns sink records hrecords).perm hperm.symm
  refine ⟨fun hfit => ?_, fun hnot => Analysis.ofCaptureIn_of_not_fit hnot visits⟩
  obtain ⟨a, ha, hdivides⟩ := Analysis.exists_divides hfit visits
  exact ⟨a, ha, hrun.tellsSteps hstaggers hfit hdivides⟩

/-! ### Two staggered cores -/

/-- Two cores with simulated workloads, whose offset grows after two of three iterations. -/
def staggeredPair : Plan where
  config := {
    cores := [⟨"simulated", some 5, []⟩, ⟨"simulated", none, []⟩]
    cache := { mode := .none }
    stagger := { iterationsPerStep := 2, offsetStep := 100 }
    iterations := some 3 }
  valid := by decide

/-- The two cores at their start. -/
def staggeredStart : Experiment staggeredPair TickingCounters Benchmark :=
  start (Vector.ofFn fun core => freshCounters.setUp staggeredPair core) 1

/-- The two cores take turns until both have ended. -/
def staggeredTurns : List (Turn staggeredPair) :=
  (List.replicate 71 (List.finRange staggeredPair.shape.cores)).flatten.map
    fun core => ⟨core, false, Clock.ticks⟩

/-- What the sink has received in the end. -/
def staggeredRecords : Array Record :=
  (staggeredStart.follow staggeredTurns).received[0]?.getD #[]

/-- The records from the last one to the first one. -/
def staggeredCapture : Capture :=
  ⟨staggeredRecords.toList.reverse, 0⟩

/-- After a warmup of one iteration both cores have a row for each of the two steps. -/
theorem rows_are_steps_of_staggeredPair :
    ∃ a, Analysis.ofCapture .run (staggeredCapture.skipWarmup 1) = .ok a ∧
      staggeredPair.TellsSteps 1 3 a := by
  have hlaunch : launch staggeredPair freshCounters 1 = .ok staggeredStart :=
    launch_of_checkWorkloads (by decide) 1
  have hover : (staggeredStart.follow staggeredTurns).isOver = true := by decide +kernel
  have hcompleted : ∀ core, 0 < ((staggeredStart.follow staggeredTurns).phase core).completed := by
    decide +kernel
  have hlive := not_hasFailed_of_completed hcompleted
  have hreceives : (staggeredStart.follow staggeredTurns).Receives 0 staggeredRecords.toList :=
    ⟨staggeredRecords, by decide +kernel, rfl⟩
  have hfew : ((staggeredCapture.skipWarmup 1).records.flatMap (·.events)).length ≤
      UInt32.size := by decide +kernel
  have hstaggers : staggeredPair.Staggers 3 := ⟨by decide, by decide⟩
  have hperm : staggeredCapture.records.Perm staggeredRecords.toList := by
    simp only [staggeredCapture]
    exact List.reverse_perm staggeredRecords.toList
  exact (rows_are_steps.1 staggeredPair 3 rfl hstaggers _ _ Benchmark.keepsName freshCounters 1
    staggeredStart hlaunch staggeredTurns hover hlive 0 staggeredRecords.toList hreceives
    staggeredCapture hperm 1 .listed).1 (Analysis.fit_of_length_le hfew)

/-! ### A run with too many readings -/

/-- One core with a workload that takes as many ticks as a reading can count, the same event in all
slots, and more than a billion iterations in one step. -/
def brimmingCore : Plan where
  config := {
    cores := [⟨"simulated", some 4294967295, ["0x11", "0x11", "0x11", "0x11"]⟩]
    cache := { mode := .none }
    stagger := { iterationsPerStep := 1073741825, offsetStep := 1 }
    iterations := some 1073741825 }
  valid := by decide +kernel

/-- The core is set up. -/
lemma exists_setUp_brimmingCore (core : Fin brimmingCore.shape.cores) :
    ∃ x, freshCounters.setUp brimmingCore core = .ok x := by
  have hok : ∀ core, (freshCounters.setUp brimmingCore core).isOk = true := by decide +kernel
  exact exists_eq_ok (hok core)

/-- In the first step the counts come to four times the greatest count in each iteration. -/
lemma size_le_brimmingCore : UInt64.size ≤
    (brimmingCore.iterationsOf 0 1073741825 0).card * Event.countOf (Event.readingsOf ⟨0x11⟩
      (Bracket.exactly (Bracket.slotted [⟨0x11⟩, ⟨0x11⟩, ⟨0x11⟩, ⟨0x11⟩])
        (brimmingCore.ticks brimmingCore.shape.leader)).events) := by
  have hcount : Event.countOf (Event.readingsOf ⟨0x11⟩
      (Bracket.exactly (Bracket.slotted [⟨0x11⟩, ⟨0x11⟩, ⟨0x11⟩, ⟨0x11⟩])
        (brimmingCore.ticks brimmingCore.shape.leader)).events) = 4 * 4294967295 := by
    decide +kernel
  rw [Plan.card_iterationsOf_zero (by decide), hcount]
  decide

/-- **The readings of a completed run can be too many.**  The core completes its iterations, and its
counts do not fit. -/
theorem no_rows_of_brimmingCore :
    ∃ (e : Experiment brimmingCore TickingCounters Benchmark) (turns : List (Turn brimmingCore))
      (records : List Record), launch brimmingCore freshCounters 1 = .ok e ∧
      (e.follow turns).isOver = true ∧ ¬ (e.follow turns).HasFailed ∧
      (e.follow turns).Receives 0 records ∧ brimmingCore.Staggers 1073741825 ∧
      Analysis.ofCapture .run (Capture.skipWarmup 0 ⟨records, 0⟩) = .error .overflow ∧
      ¬ ∃ a, Analysis.ofCapture .run (Capture.skipWarmup 0 ⟨records, 0⟩) = .ok a ∧
        brimmingCore.TellsSteps 0 1073741825 a := by
  have hlaunch : launch brimmingCore freshCounters 1 =
      .ok (start (Vector.ofFn fun core => freshCounters.setUp brimmingCore core) 1) :=
    launch_of_checkWorkloads (by decide) 1
  have hlimit : brimmingCore.config.iterations = some 1073741825 := rfl
  have hstaggers : brimmingCore.Staggers 1073741825 := ⟨by decide, by decide⟩
  have hworkload : ∀ core, (brimmingCore.entry core).workload = "simulated" := by decide
  have hfits : ∀ core, (1073741825 : UInt64).toNat * (brimmingCore.ticks core).toNat <
      UInt64.size := by decide
  obtain ⟨turns, hnow, hover, hlive⟩ := exists_completed hlimit rfl hlaunch
    exists_setUp_brimmingCore hworkload fun core => ⟨hfits core, .none, rfl⟩
  have hsound := sound_of_launch hlaunch exists_setUp_brimmingCore 1073741825
  obtain ⟨records, hrecords⟩ := (hsound.follow hlimit turns).exists_receives (by decide : 0 < 1)
  have hevents : (brimmingCore.entry brimmingCore.shape.leader).eventCodes =
      .ok [⟨0x11⟩, ⟨0x11⟩, ⟨0x11⟩, ⟨0x11⟩] := by decide +kernel
  have hnot := not_fit_of_simulated hlimit hstaggers rfl hlaunch hnow hover hlive hrecords
    (hworkload _) hevents (by decide) size_le_brimmingCore
  obtain ⟨-, hoverflow⟩ := Analysis.ofCaptureIn_of_not_fit hnot .listed
  refine ⟨_, turns, records, hlaunch, hover, hlive, hrecords, hstaggers, hoverflow, ?_⟩
  rintro ⟨a, ha, -⟩
  cases hoverflow.symm.trans ha

end Experiment

end Lockstep
