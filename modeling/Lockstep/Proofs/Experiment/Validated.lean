import Lockstep.Proofs.Config.Validation
import Lockstep.Proofs.Experiment.Names
import Lockstep.Proofs.Experiment.Outcome
import Lockstep.Proofs.Record.Line

/-!
# What a validated configuration leads to

A configuration is validated once, and then everything is built from it and carried out.  The
records are handed out much later, but they bear nothing that was not validated: their label is that
of the configuration, their workload is called as the configuration names it, and their readings
are of the events of the bracket, which are in the first slots.  So each of them can be read back
from its line, whatever the counters show and in whatever order the cores make their steps.

The main statement, `Config.validation_suffices`, says which configurations are accepted and that
nothing can go wrong later on for any of the reasons that were checked.
-/

namespace Lockstep

/-! ### Workloads and their names -/

namespace Registry

/-- Every workload that can be made is called by the name under which it is known. -/
def NamesRight (r : Registry Benchmark) : Prop :=
  ∀ entry ∈ r.entries, ∀ params w, entry.2 params = .ok w → w.name = entry.1

/-- A workload that was made is called by the name that was asked for. -/
lemma NamesRight.name_of_make {r : Registry Benchmark} (h : r.NamesRight) {name : String}
    {params : WorkloadParams} {w : Benchmark} (hmake : r.make name params = .ok w) :
    w.name = name := by
  unfold make at hmake
  split at hmake
  · cases hmake
  · rename_i factory hlookup
    obtain ⟨before, after, hentries, -⟩ := List.lookup_eq_some_iff.mp hlookup
    have hmem : (name, factory) ∈ r.entries := by
      rw [hentries]
      exact List.mem_append_right _ List.mem_cons_self
    split at hmake
    · rename_i made hmade
      obtain rfl := Except.ok.inj hmake
      exact h _ hmem params made hmade
    · cases hmake

/-- A walk that was made is in the order and does what was asked for. -/
lemma walk_of_ofParams {access : Access} {random : Bool} {params : WorkloadParams}
    {w : ArrayWalk} (h : ArrayWalk.ofParams access random params = .ok w) :
    w.access = access ∧ w.order.isSome = random := by
  obtain ⟨n, -, h⟩ := bind_eq_ok.mp h
  by_cases hn : n.toNat < UInt32.size
  · rw [if_pos hn] at h
    obtain rfl := Except.ok.inj h
    exact ⟨rfl, by cases random <;> rfl⟩
  · rw [if_neg hn] at h
    cases h

/-- The workloads that are always there are called as they are known. -/
lemma builtIn_namesRight : builtIn.NamesRight := by
  have hwalk : ∀ {access random params w}, ((ArrayWalk.ofParams access random params).map
      Benchmark.walk) = .ok w → w.name = (if random then "random" else "linear") ++
        if access = .read then "_array_read" else "_array_write" := by
    intro access random params w h
    obtain ⟨walk, hwalk, rfl⟩ := map_eq_ok.mp h
    obtain ⟨rfl, rfl⟩ := walk_of_ofParams hwalk
    rw [Benchmark.name, ArrayWalk.name]
    cases walk.access <;> rfl
  intro entry hentry params w h
  simp only [builtIn, List.mem_cons, List.not_mem_nil, or_false] at hentry
  rcases hentry with rfl | rfl | rfl | rfl | rfl | rfl | rfl
  · exact hwalk h
  · exact hwalk h
  · exact hwalk h
  · exact hwalk h
  · obtain ⟨_, -, rfl⟩ := map_eq_ok.mp h
    rfl
  · obtain ⟨_, -, rfl⟩ := map_eq_ok.mp h
    rfl
  · obtain ⟨_, -, rfl⟩ := map_eq_ok.mp h
    rfl

/-- So are the same workloads and the simulated one. -/
lemma withSimulated_namesRight : withSimulated.NamesRight := by
  intro entry hentry params w h
  rcases List.mem_cons.mp hentry with rfl | hmem
  · obtain ⟨_, -, rfl⟩ := map_eq_ok.mp h
    rfl
  · exact builtIn_namesRight entry (List.mem_of_mem_filter hmem) params w h

end Registry

/-! ### What a record takes from its runner -/

/-- What a record takes from its runner, apart from numbers. -/
structure Badge where
  label : String
  workload : String
  /-- The events of the bracket. -/
  bound : List (Event.Slot × Event.Code)

/-- The texts can stand in a record, and the events are as many as a record can hold, in slots that
a record can name. -/
structure Badge.IsPlain (badge : Badge) : Prop where
  label : Text.isWord badge.label.toList = true
  workload : Text.isWord badge.workload.toList = true
  bound_le : badge.bound.length ≤ Event.slotLimit
  slots : ∀ x ∈ badge.bound, x.1.index.toNat < Event.slotLimit

namespace Runner

variable {P W : Type} [Workload W] {r r' : Runner P W}

/-- What the records of a runner take from it. -/
def badge (r : Runner P W) : Badge :=
  ⟨r.label, r.workloadName, r.bracket.bound⟩

/-- Preparing an iteration does not change the badge. -/
lemma preserves_badge_prepare (hkeeps : Workload.KeepsName W) :
    (prepare : Attempt (Runner P W) Unit).Preserves badge := by
  refine (Attempt.Preserves.look _).bind fun r => (Attempt.Preserves.take _ _).bind fun _ => ?_
  refine Attempt.Preserves.bind (fun r => ?_) fun _ => Attempt.Preserves.change fun _ => rfl
  exact congrArg (Badge.mk r.label · r.bracket.bound) (hkeeps.prepare r.workload)

/-- Beginning to measure does not change the badge. -/
lemma preserves_badge_startMeasuring [Counters P] (now : Clock → UInt64) :
    (startMeasuring now : Attempt (Runner P W) Unit).Preserves badge := by
  refine (Attempt.Preserves.look _).bind fun _ r => ?_
  exact congrArg (Badge.mk r.label r.workloadName) (Bracket.preserves_opening _ _)

/-- Running the workload does not change the badge. -/
lemma preserves_badge_runWorkload (hkeeps : Workload.KeepsName W) :
    (runWorkload : Attempt (Runner P W) Unit).Preserves badge :=
  fun r => congrArg (Badge.mk r.label · r.bracket.bound) (hkeeps.run (r.workload, r.clock))

/-- Measuring no longer does not change the badge. -/
lemma preserves_badge_stopMeasuring [Counters P] (now : Clock → UInt64) :
    (stopMeasuring now : Attempt (Runner P W) Record).Preserves badge := by
  refine (Attempt.Preserves.look _).bind fun _ => Attempt.Preserves.bind (fun r => ?_) fun _ =>
    (Attempt.Preserves.look _).bind fun _ => Attempt.Preserves.pure _ _
  exact congrArg (Badge.mk r.label r.workloadName) (Bracket.preserves_closing _ _)

/-- The badge of the runner is plain, and so is the record that it is about to hand out. -/
structure IsPlain (stage : Stage) (r : Runner P W) : Prop where
  badge : r.badge.IsPlain
  told : ∀ record sink, stage = .emit record sink → record.IsPlain

/-- A record is plain if its runner is, and if its readings are of the events of the bracket. -/
lemma isPlain_record (h : r.badge.IsPlain) {m : Measurement}
    (hevents : m.events.map (fun reading => (reading.slot, reading.code)) = r.bracket.bound) :
    (r.record m).IsPlain := by
  refine ⟨h.label, h.workload, ?_, fun reading hreading => ?_⟩
  · have hle : r.bracket.bound.length ≤ Event.slotLimit := h.bound_le
    rwa [← hevents, List.length_map] at hle
  · have hmem : (reading.slot, reading.code) ∈ r.bracket.bound := by
      rw [← hevents]
      exact List.mem_map_of_mem hreading
    exact h.slots _ hmem

end Runner

/-! ### Cores -/

namespace Experiment

variable {plan : Plan} {P W : Type} [Counters P]

/-- Measuring countdowns does not bind events. -/
lemma bound_of_calibrate {now : Clock → UInt64} {wanted : Bool} {b b' : Bracket P}
    {rows : List Calibration} (h : calibrate now wanted b = .ok (b', rows)) :
    b'.bound = b.bound := by
  unfold calibrate at h
  split_ifs at h
  · obtain ⟨_, -, hrows⟩ := map_eq_ok.mp h
    obtain ⟨rfl, -⟩ := Prod.mk.inj hrows
    exact Calibration.preserves_measure _ _ (b, Clock.own)
  · obtain ⟨rfl, -⟩ := Prod.mk.inj (Except.ok.inj h)
    rfl

variable [Workload W]

/-- A core is furnished with the label of the plan and with what it was set up with. -/
lemma badge_of_furnish {now : Clock → UInt64} {core : Fin plan.shape.cores} {bracket : Bracket P}
    {workload : W} {runner : Runner P W} {rows : List Calibration}
    (h : furnish now core bracket workload = .ok (runner, rows)) :
    runner.badge = ⟨plan.config.label, Workload.name workload, bracket.bound⟩ := by
  obtain ⟨⟨bracket', rows'⟩, hcalibrate, h⟩ := bind_eq_ok.mp h
  obtain ⟨sweep, -, h⟩ := bind_eq_ok.mp h
  obtain ⟨stagger, -, h⟩ := bind_eq_ok.mp h
  obtain ⟨rfl, -⟩ := Prod.mk.inj (Except.ok.inj h)
  simp only [Runner.badge, Runner.workloadName, bound_of_calibrate hcalibrate]

/-- That the records of a core are plain is kept up. -/
lemma upkeep_isPlain (hkeeps : Workload.KeepsName W) (core : Fin plan.shape.cores) :
    Upkeep core
      (fun (b : Bracket P) (w : W) =>
        (Badge.mk plan.config.label (Workload.name w) b.bound).IsPlain)
      fun (r : Runner P W) stage => r.IsPlain stage where
  furnish h hfurnish := ⟨badge_of_furnish hfurnish ▸ h, fun _ _ => Stage.noConfusion⟩
  prepare h hon := ⟨(Runner.preserves_badge_prepare hkeeps).eq_of_on hon ▸ h.badge,
    fun _ _ => Stage.noConfusion⟩
  meet h := ⟨h.badge, fun _ _ => Stage.noConfusion⟩
  start h hon := ⟨(Runner.preserves_badge_startMeasuring _).eq_of_on hon ▸ h.badge,
    fun _ _ => Stage.noConfusion⟩
  run h hon := ⟨(Runner.preserves_badge_runWorkload hkeeps).eq_of_on hon ▸ h.badge,
    fun _ _ => Stage.noConfusion⟩
  stop h hon := by
    have hbadge := (Runner.preserves_badge_stopMeasuring _).eq_of_on hon ▸ h.badge
    refine ⟨hbadge, fun record sink hstage => ?_⟩
    obtain ⟨rfl, -⟩ := Stage.emit.inj hstage
    obtain ⟨m, b, hclosing, rfl, rfl⟩ := Runner.stopMeasuring_eq_ok hon
    refine Runner.isPlain_record hbadge ?_
    rw [Bracket.events_of_closing hclosing]
    exact ((Bracket.preserves_closing _).eq_of_on hclosing).symm
  emit h := by
    refine ⟨h.badge, fun record' sink' hstage => ?_⟩
    obtain ⟨rfl, -⟩ := Stage.emit.inj hstage
    exact h.told _ _ rfl
  tend h := ⟨h.badge, fun _ _ => Stage.noConfusion⟩
  finish h := ⟨h.badge, fun _ _ => Stage.noConfusion⟩

/-- What a core is set up with by a plan gives plain records. -/
lemma isPlain_of_setUp {equipment : Equipment P Benchmark} (hnames : equipment.registry.NamesRight)
    {core : Fin plan.shape.cores} {b : Bracket P} {w : Benchmark}
    (h : equipment.setUp plan core = .ok (b, w)) :
    (Badge.mk plan.config.label (Workload.name w) b.bound).IsPlain := by
  have hvalid := Config.validate_eq_ok_iff.mp plan.valid
  have hentry : (plan.entry core).IsValid := hvalid.entries _ (List.get_mem _ _)
  obtain ⟨⟨counters, events, hevents, hbracket⟩, hmake⟩ := Equipment.setUp_eq_ok h
  have hbound := Bracket.bound_of_ofCounters hbracket
  have hfew : events.length ≤ Event.slotLimit := by
    rw [← (CoreConfig.eventCodes_eq_ok_iff.mp hevents).length_eq]
    exact hentry.events_le
  have hname : Workload.name w = (plan.entry core).workload := hnames.name_of_make hmake
  refine ⟨Text.isWord_toList_iff.mpr hvalid.label, ?_, ?_, ?_⟩
  · rw [hname]
    exact Text.isWord_toList_iff.mpr hentry.workload
  · rw [hbound, Bracket.slotted, List.length_mapIdx]
    exact hfew
  · rw [hbound]
    exact fun x hx => Bracket.index_lt_of_mem_slotted hx hfew

/-- **All records of an experiment are plain**, whatever the counters do, in all orders of steps. -/
theorem isPlain_of_receives {equipment : Equipment P Benchmark}
    (hnames : equipment.registry.NamesRight)
    {setups : Fin plan.shape.cores → Except Cause (Bracket P × Benchmark)}
    (hsetups : ∀ core,
      setups core = equipment.setUp plan core ∨ ∃ cause, setups core = .error cause)
    {sinks sink : Nat} {schedule : List (Turn plan)} {records : List Record}
    (h : ((start (Vector.ofFn setups) sinks).follow schedule).Receives sink records) :
    ∀ r ∈ records, r.IsPlain := by
  have hmade : ∀ core b w, (Vector.ofFn setups).get core = .ok (b, w) →
      (Badge.mk plan.config.label (Workload.name w) b.bound).IsPlain := by
    intro core b w hsetup
    rw [get_ofFn] at hsetup
    rcases hsetups core with hown | ⟨cause, hcause⟩
    · exact isPlain_of_setUp hnames (hown.symm.trans hsetup)
    · cases hcause.symm.trans hsetup
  have hstart : (start (Vector.ofFn setups) sinks).IsKept
      (fun _ b w => (Badge.mk plan.config.label (Workload.name w) b.bound).IsPlain)
      (fun _ r stage => r.IsPlain stage) Record.IsPlain := isKept_start hmade sinks
  have hkept := hstart.follow (upkeep_isPlain Benchmark.keepsName)
    (fun _ _ _ _ hplain => hplain.told _ _ rfl) schedule
  exact hkept.records sink records h

end Experiment

namespace Config

/-- **Validation suffices.**  A configuration is accepted if and only if it is valid, and all that
is built from it later can be built then.  All records that are handed out in an experiment that
follows the configuration with workloads that are known by name can be read back from their
lines. -/
theorem validation_suffices (c : Config) :
    (c.validate = .ok () ↔ c.IsValid) ∧ (c.validate = .ok () → c.Serves) ∧
    ∀ (hvalid : c.validate = .ok ()) (P : Type) [Counters P] (equipment : Equipment P Benchmark),
      (equipment.registry = .builtIn ∨ equipment.registry = .withSimulated) →
      ∀ setups : Fin (Plan.mk c hvalid).shape.cores → Except Cause (Bracket P × Benchmark),
        (∀ core, setups core = equipment.setUp ⟨c, hvalid⟩ core ∨
          ∃ cause, setups core = .error cause) →
        ∀ sinks schedule sink records,
          ((Experiment.start (Vector.ofFn setups) sinks).follow schedule).Receives sink records →
            ∀ r ∈ records, Record.ofLine r.text = .ok r := by
  refine ⟨validate_eq_ok_iff, fun h => (validate_eq_ok_iff.mp h).serves, ?_⟩
  intro hvalid P _ equipment hregistry setups hsetups sinks schedule sink records hrecords r hr
  have hnames : equipment.registry.NamesRight := by
    rcases hregistry with heq | heq
    · exact heq ▸ Registry.builtIn_namesRight
    · exact heq ▸ Registry.withSimulated_namesRight
  exact Record.ofLine_text_self (Experiment.isPlain_of_receives hnames hsetups hrecords r hr)

/-- One core whose events are written in different ways. -/
def watched : Config where
  label := "run#1"
  cores := [⟨"simulated", some 5, ["0X11", "l1d_cache", "3", "L2D_CACHE"]⟩]
  channels := 2
  cache := { mode := .none }
  iterations := some 1

/-- The configuration is accepted. -/
lemma validate_watched : watched.validate = .ok () := by decide +kernel

/-- The record of its only iteration. -/
def watchedRecord : Record where
  label := "run#1"
  workload := "simulated"
  cores := 1
  core := 0
  iteration := 1
  offset := 0
  cycles := 5
  events := [⟨⟨0⟩, ⟨0x11⟩, 5⟩, ⟨⟨1⟩, ⟨0x04⟩, 5⟩, ⟨⟨2⟩, ⟨0x03⟩, 5⟩, ⟨⟨3⟩, ⟨0x16⟩, 5⟩]

/-- The experiment after so many steps of the core, on fresh counters. -/
def watchedAfter (steps : Nat) : Experiment ⟨watched, validate_watched⟩ TickingCounters Benchmark :=
  (Experiment.start (Vector.ofFn fun core =>
    Experiment.freshCounters.setUp ⟨watched, validate_watched⟩ core) 1).follow
      (List.replicate steps ⟨⟨0, by decide⟩, false, Clock.ticks⟩)

/-- The configuration is valid and serves, its events are bound, and its record is handed out and
can be read back. -/
theorem validation_suffices_of_watched :
    watched.IsValid ∧ watched.Serves ∧
      (∃ codes b,
        CoreConfig.eventCodes ⟨"simulated", some 5, ["0X11", "l1d_cache", "3", "L2D_CACHE"]⟩ =
          .ok codes ∧
        Bracket.ofCounters (TickingCounters.withSlots 4) .unmasked codes = .ok (.ok b)) ∧
      (watchedAfter 30).Receives 0 [watchedRecord] ∧
      Record.ofLine watchedRecord.text = .ok watchedRecord := by
  obtain ⟨haccepted, hserves, hrecords⟩ := validation_suffices watched
  have hreceived : (watchedAfter 30).received = [#[watchedRecord]] := by decide +kernel
  have hreceives : (watchedAfter 30).Receives 0 [watchedRecord] :=
    ⟨#[watchedRecord], by rw [hreceived]; rfl, rfl⟩
  refine ⟨haccepted.mp validate_watched, hserves validate_watched, ?_, hreceives, ?_⟩
  · exact (hserves validate_watched).brackets _ TickingCounters.obliges _ rfl _ _
      List.mem_cons_self
  · exact hrecords validate_watched _ Experiment.freshCounters (Or.inr rfl) _
      (fun _ => Or.inl rfl) 1 _ 0 _ hreceives _ List.mem_cons_self

end Config

end Lockstep
