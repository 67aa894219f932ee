import Lockstep.Proofs.Bracket.Sequence
import Lockstep.Proofs.Counters.Noted

/-!
# The order of calls around measured runs

Counters of a simulated clock note down what is done to them, and a recording mask does so among
the same calls.  Here it is told what stands there after a bracket was made and has measured any
number of runs, some of which may stop half-way.

The mask is the only thing that one measurement leaves behind for the next one.  While it lets
interrupts through, a run is measured as it should be; as soon as a run has stopped half-way, the
mask stays on, and every further measurement fails when it wants to put it on again, after the
counters were started and before its run begins.  So a history of measurements is told by a
recursion over the runs that carries one bit (`Job.log`, `Job.verdicts`, `Job.elapsed`).
-/

namespace Lockstep

namespace Bracket

/-! ### What the parts note down -/

section Noted

variable {bound : List (Event.Slot × Event.Code)} {now : UInt64} {p : TickingCounters}

/-- The calls that start the counters. -/
def starts (bound : List (Event.Slot × Event.Code)) : List Call :=
  .startCycles :: bound.map fun x => .startEvent x.1

/-- The calls that set the counters to zero. -/
def clears : List Call :=
  [.clearCycles, .clearEvents]

/-- The calls that stop the counters. -/
def stops (bound : List (Event.Slot × Event.Code)) : List Call :=
  .stopCycles :: bound.map fun x => .stopEvent x.1

/-- The calls that read the counters. -/
def reads (bound : List (Event.Slot × Event.Code)) : List Call :=
  .readCycles :: bound.map fun x => .readEvent x.1

lemma appends_starting :
    (starting bound now : Attempt TickingCounters Unit).Appends TickingCounters.log
      (starts bound) :=
  TickingCounters.appends_startCycles.bind fun _ =>
    Attempt.Appends.forM (fun _ => TickingCounters.appends_startEvent) bound

lemma appends_clearing :
    (clearing now : Attempt TickingCounters Unit).Appends TickingCounters.log clears :=
  TickingCounters.appends_clearCycles.bind fun _ => TickingCounters.appends_clearEvents

lemma appends_stopping :
    (stopping bound now : Attempt TickingCounters Unit).Appends TickingCounters.log
      (stops bound) :=
  TickingCounters.appends_stopCycles.bind fun _ =>
    Attempt.Appends.forM (fun _ => TickingCounters.appends_stopEvent) bound

lemma appends_telling :
    (telling bound now : Attempt TickingCounters Measurement).Appends TickingCounters.log
      (reads bound) :=
  TickingCounters.appends_readCycles.bind fun cycles =>
    (Attempt.Appends.mapM (fun x => TickingCounters.appends_readEvent.bind_pure
      fun count => (⟨x.1, x.2, count⟩ : Event.Reading)) bound).bind_pure fun events =>
        (⟨cycles, events⟩ : Measurement)

/-- Counters that could be stopped stand still. -/
lemma standStill_of_stopping {p' : TickingCounters}
    (h : (stopping bound now).on p = (.ok (), p')) : p'.StandStill (bound.map Prod.fst) := by
  obtain ⟨_, q, hq, h⟩ := Attempt.on_bind_eq_ok h
  have hcycles := TickingCounters.standStill_stopCycles now p
  rw [hq] at hcycles
  have hall := hcycles.forM h
  rwa [List.append_nil] at hall

end Noted

/-! ### Making a bracket -/

section Making

variable {P : Type} [Counters P]

/-- What is done to counters when a bracket on them is to be made. -/
def making (events : List Event.Code) : Attempt P (Except TooManyEvents Unit) := do
  let p ← Attempt.look
  if Counters.slots p < events.length then return .error ⟨events.length, Counters.slots p⟩
  else
    setUp events
    return .ok ()

/-- A bracket has the counters as they are after this. -/
theorem ofCounters_eq_making (counters : P) (mask : InterruptMask) (events : List Event.Code) :
    ofCounters counters mask events =
      match (making events).on counters with
      | (.ok (.error tooMany), _) => .error tooMany
      | (.ok (.ok _), p) => .ok (.ok ⟨p, mask, slotted events⟩)
      | (.error fault, _) => .ok (.error fault) := by
  rw [making, Attempt.on_look_bind]
  by_cases hslots : Counters.slots counters < events.length
  · rw [if_pos hslots, ofCounters, if_pos hslots]
    rfl
  · rw [if_neg hslots, ofCounters, if_neg hslots, Attempt.on_bind_pure]
    rcases (setUp events).on counters with ⟨_ | _, p⟩
    · rfl
    · rfl

end Making

variable {b b' : Bracket TickingCounters} {bound : List (Event.Slot × Event.Code)}
  {events : List Event.Code} {since now : UInt64}

/-- The calls that bind events. -/
def binds (bound : List (Event.Slot × Event.Code)) : List Call :=
  bound.map fun x => .bind x.1 x.2

/-- Binding events notes down the master switch, and then each event with its slot. -/
lemma appends_setUp : (setUp events : Attempt TickingCounters Unit).Appends TickingCounters.log
    (.enable :: binds (slotted events)) :=
  TickingCounters.appends_enable.bind fun _ =>
    Attempt.Appends.forM (fun _ => TickingCounters.appends_bind) (slotted events)

/-! ### The mask -/

section Mask

variable {P : Type} [Counters P] {p : P}

/-- A mask that is off can be put on. -/
lemma on_mask_of_off : (onMask InterruptMask.mask).on ⟨p, .recording false, bound⟩ =
    (.ok (), ⟨Counters.note .mask p, .recording true, bound⟩) := rfl

/-- A mask that is on cannot be put on. -/
lemma on_mask_of_on : (onMask InterruptMask.mask).on ⟨p, .recording true, bound⟩ =
    (.error (.stopped "masked twice"), ⟨p, .recording true, bound⟩) := rfl

/-- A mask that is on can be taken off. -/
lemma on_unmask_of_on : (onMask InterruptMask.unmask).on ⟨p, .recording true, bound⟩ =
    (.ok (), ⟨Counters.note .unmask p, .recording false, bound⟩) := rfl

end Mask

/-- What the mask notes down stands behind the other calls. -/
lemma log_note (call : Call) (p : TickingCounters) :
    (Counters.note call p).log = p.log ++ [call] :=
  Array.toList_push

/-! ### Opening and closing -/

/-- The bracket has these events bound on counters that are switched on, and its mask takes notes
and is on or off. -/
structure Holds (bound : List (Event.Slot × Event.Code)) (masked : Bool)
    (b : Bracket TickingCounters) : Prop where
  enabled : b.counters.enabled = true
  mask : b.mask = .recording masked
  bound : b.bound = bound

/-- The calls before a run. -/
def callsBefore (bound : List (Event.Slot × Event.Code)) : List Call :=
  starts bound ++ .mask :: clears

/-- The calls after a run. -/
def callsAfter (bound : List (Event.Slot × Event.Code)) : List Call :=
  stops bound ++ .unmask :: reads bound

/-- A bracket whose mask is off can be opened, and its mask is on then. -/
lemma Holds.opens (h : b.Holds bound false)
    (hbound : ∀ x ∈ bound, x.1.index.toNat < Event.slotLimit) (now : UInt64) :
    (opening now).Succeeds b fun _ b' => b'.Holds bound true ∧ b'.counters.IsClear now ∧
      b'.counters.log = b.counters.log ++ callsBefore bound := by
  obtain ⟨counters, mask, bound⟩ := b
  obtain ⟨henabled, rfl, rfl⟩ := h
  obtain ⟨_, p, hp, hruns, hplog⟩ :=
    (succeeds_starting henabled hbound now).appends appends_starting
  have hnoted : (Counters.note .mask p).Runs (bound.map Prod.fst) :=
    ⟨hruns.enabled, hruns.running, hruns.events⟩
  obtain ⟨_, q, hq, ⟨hclear, -⟩, hqlog⟩ :=
    (succeeds_clearing hnoted now).appends appends_clearing
  refine ⟨(), ⟨q, .recording true, _⟩, ?_, ⟨hclear.enabled, rfl, rfl⟩, hclear, ?_⟩
  · rw [opening_on, Attempt.on_bind_of_ok (on_onCounters hp), Attempt.on_bind_of_ok on_mask_of_off]
    exact on_onCounters hq
  · rw [hqlog, log_note, hplog, callsBefore, List.append_assoc, List.append_assoc]
    rfl

/-- A bracket whose mask is on cannot be opened, but its counters are started all the same. -/
lemma Holds.refuses (h : b.Holds bound true)
    (hbound : ∀ x ∈ bound, x.1.index.toNat < Event.slotLimit) (now : UInt64) :
    ∃ b', (opening now).on b = (.error (.stopped "masked twice"), b') ∧ b'.Holds bound true ∧
      b'.counters.log = b.counters.log ++ starts bound := by
  obtain ⟨counters, mask, _⟩ := b
  obtain ⟨henabled, rfl, rfl⟩ := h
  obtain ⟨_, p, hp, hruns, hplog⟩ :=
    (succeeds_starting henabled hbound now).appends appends_starting
  refine ⟨⟨p, .recording true, _⟩, ?_, ⟨hruns.enabled, rfl, rfl⟩, hplog⟩
  rw [opening_on, Attempt.on_bind_of_ok (on_onCounters hp)]
  exact Attempt.on_bind_of_error on_mask_of_on

/-- A bracket whose counters were set to zero and whose mask is on can be closed later on, and its
mask is off then. -/
lemma Holds.closes (h : b.Holds bound true)
    (hbound : ∀ x ∈ bound, x.1.index.toNat < Event.slotLimit) (hclear : b.counters.IsClear since)
    (hle : since ≤ now) :
    (closing now).Succeeds b fun _ b' => b'.Holds bound false ∧
      b'.counters.log = b.counters.log ++ callsAfter bound := by
  obtain ⟨counters, mask, _⟩ := b
  obtain ⟨-, rfl, rfl⟩ := h
  have hshows : counters.Shows now (now - since) [] :=
    hclear.shows (fun _ slot hslot => absurd hslot List.not_mem_nil) hle
  obtain ⟨_, p, hp, hshows, hplog⟩ :=
    (succeeds_stopping hshows hbound).appends appends_stopping
  have hnoted : (Counters.note .unmask p).Shows now (now - since) [] :=
    ⟨hshows.enabled, hshows.cycles, hshows.events⟩
  obtain ⟨m, q, hq, ⟨hshows, -⟩, hqlog⟩ :=
    (succeeds_telling hnoted hbound).appends appends_telling
  refine ⟨m, ⟨q, .recording false, _⟩, ?_, ⟨hshows.enabled, rfl, rfl⟩, ?_⟩
  · rw [closing_on, halting, bind_assoc, Attempt.on_bind_of_ok (on_onCounters hp),
      Attempt.on_bind_of_ok on_unmask_of_on]
    exact on_onCounters hq
  · rw [hqlog, log_note, hplog, callsAfter, List.append_assoc, List.append_assoc]
    rfl

/-! ### Runs that take notes -/

/-- Measures a run that may do something with the bracket as well, such as noting something down
among its calls. -/
def around {P E α : Type} [Counters P] (now : E → UInt64) (run : Attempt (Bracket P × E) α) :
    Attempt (Bracket P × E) (Measurement × α) := do
  let here ← Attempt.look
  (opening (now here.2)).within Prod.fst fun b s => (b, s.2)
  let a ← run
  let there ← Attempt.look
  let m ← (closing (now there.2)).within Prod.fst fun b s => (b, s.2)
  return (m, a)

/-- Runs that have nothing to do with the bracket are measured in the same way. -/
theorem measure_eq_around {P E α : Type} [Counters P] (now : E → UInt64) (run : Attempt E α) :
    (measure now run : Attempt (Bracket P × E) _) =
      around now (run.within Prod.snd fun e s => (s.1, e)) := rfl

/-- What a run does while it is measured: it lets time pass, or notes something down among the
calls. -/
inductive Step where
  | wait (ticks : UInt64)
  | note (call : Call)
  deriving DecidableEq, Repr

namespace Step

/-- The ticks that pass. -/
def ticks : Step → Nat
  | wait n => n.toNat
  | note _ => 0

/-- The calls that are noted down. -/
def noted : Step → List Call
  | wait _ => []
  | note call => [call]

/-- Takes a step. -/
def perform : Step → Attempt (Bracket TickingCounters × Clock) Unit
  | wait n => (Clock.advance n).within Prod.snd fun c s => (s.1, c)
  | note call =>
    Attempt.change fun s => ({ s.1 with counters := Counters.note call s.1.counters }, s.2)

end Step

/-- A run that is measured after a pause. -/
structure Job where
  pause : UInt64
  steps : List Step
  /-- Why the run stops after its steps, if it does not end. -/
  fault? : Option Fault
  deriving DecidableEq, Repr

namespace Job

/-- The ticks that pass during the run. -/
def ticks (job : Job) : Nat :=
  (job.steps.map Step.ticks).sum

/-- The calls that the run notes down. -/
def noted (job : Job) : List Call :=
  job.steps.flatMap Step.noted

/-- The run does not end. -/
def stops (job : Job) : Bool :=
  job.fault?.isSome

/-- How the run ends. -/
def result (job : Job) : Except Fault Unit :=
  match job.fault? with
  | none => .ok ()
  | some fault => .error fault

/-- The run by itself. -/
def run (job : Job) : Attempt (Bracket TickingCounters × Clock) Unit := do
  job.steps.forM Step.perform
  Attempt.take job.result

/-- Waits and then measures the run. -/
def perform (job : Job) : Attempt (Bracket TickingCounters × Clock) Measurement := do
  (Clock.advance job.pause).within Prod.snd fun c s => (s.1, c)
  return (← around Clock.ticks job.run).1

/-- What one job after the other leads to.  What comes after a fault goes on with what the fault has
left. -/
def after : List Job → Bracket TickingCounters × Clock → Bracket TickingCounters × Clock
  | [], s => s
  | job :: jobs, s => after jobs (job.perform.on s).2

/-- Whether one job after the other succeeds, or else why not. -/
def answers : List Job → Bracket TickingCounters × Clock → List (Except Fault Unit)
  | [], _ => []
  | job :: jobs, s => (job.perform.on s).1.map (fun _ => ()) :: answers jobs (job.perform.on s).2

/-! What a job comes to depends on the mask alone, which is on or off before it. -/

/-- The calls that stand behind the others after a job. -/
def calls (bound : List (Event.Slot × Event.Code)) (masked : Bool) (job : Job) : List Call :=
  if masked then starts bound
  else callsBefore bound ++ job.noted ++ if job.stops then [] else callsAfter bound

/-- How a job ends. -/
def verdict (masked : Bool) (job : Job) : Except Fault Unit :=
  if masked then .error (.stopped "masked twice") else job.result

/-- The ticks that pass during a job. -/
def duration (masked : Bool) (job : Job) : Nat :=
  job.pause.toNat + if masked then 0 else job.ticks

/-- The calls that stand behind the others after one job after the other. -/
def log (bound : List (Event.Slot × Event.Code)) : Bool → List Job → List Call
  | _, [] => []
  | masked, job :: jobs => job.calls bound masked ++ log bound (masked || job.stops) jobs

/-- How one job after the other ends. -/
def verdicts : Bool → List Job → List (Except Fault Unit)
  | _, [] => []
  | masked, job :: jobs => job.verdict masked :: verdicts (masked || job.stops) jobs

/-- The ticks that pass during one job after the other. -/
def elapsed : Bool → List Job → Nat
  | _, [] => 0
  | masked, job :: jobs => job.duration masked + elapsed (masked || job.stops) jobs

end Job

variable {c : Clock} {masked : Bool}

/-- A step of a run does not concern what the bracket needs to be closed. -/
lemma Holds.step (h : b.Holds bound masked) (hclear : b.counters.IsClear since) (step : Step)
    (hfits : c.ticks.toNat + step.ticks < UInt64.size) :
    step.perform.Succeeds (b, c) fun _ s => s.1.Holds bound masked ∧ s.1.counters.IsClear since ∧
      s.1.counters.log = b.counters.log ++ step.noted ∧
        s.2.ticks.toNat = c.ticks.toNat + step.ticks := by
  cases step with
  | wait n =>
    rw [Step.perform, Attempt.succeeds_within]
    refine (Attempt.succeeds_iff (Clock.advance_of_lt hfits)).mpr ?_
    refine ⟨h, hclear, (List.append_nil _).symm, ?_⟩
    exact (UInt64.toNat_add _ _).trans (Nat.mod_eq_of_lt hfits)
  | note call =>
    refine Attempt.succeeds_change.mpr ⟨⟨h.enabled, h.mask, h.bound⟩, ?_, ?_, rfl⟩
    · exact ⟨hclear.enabled, hclear.cycles, hclear.events⟩
    · exact log_note call b.counters

/-- Nor do all the steps of a run. -/
lemma Holds.steps {steps : List Step} (h : b.Holds bound masked)
    (hclear : b.counters.IsClear since)
    (hfits : c.ticks.toNat + (steps.map Step.ticks).sum < UInt64.size) :
    (steps.forM Step.perform).Succeeds (b, c) fun _ s =>
      s.1.Holds bound masked ∧ s.1.counters.IsClear since ∧
        s.1.counters.log = b.counters.log ++ steps.flatMap Step.noted ∧
          s.2.ticks.toNat = c.ticks.toNat + (steps.map Step.ticks).sum := by
  induction steps generalizing b c with
  | nil => exact Attempt.succeeds_pure.mpr ⟨h, hclear, (List.append_nil _).symm, rfl⟩
  | cons step steps ih =>
    rw [List.map_cons, List.sum_cons] at hfits ⊢
    refine Attempt.succeeds_bind.mpr ((h.step hclear step (by omega)).mono fun _ s hs => ?_)
    obtain ⟨h', hclear', hlog, hticks⟩ := hs
    refine (ih h' hclear' (by omega)).mono fun _ s' hs' => ?_
    obtain ⟨h'', hclear'', hlog', hticks'⟩ := hs'
    refine ⟨h'', hclear'', ?_, by omega⟩
    rw [hlog', hlog, List.append_assoc, List.flatMap_cons]

/-- A run ends as it says, and leaves what the bracket needs to be closed. -/
lemma Holds.on_run (h : b.Holds bound masked) (hclear : b.counters.IsClear since) (job : Job)
    (hfits : c.ticks.toNat + job.ticks < UInt64.size) :
    ∃ b' c', job.run.on (b, c) = (job.result, (b', c')) ∧ b'.Holds bound masked ∧
      b'.counters.IsClear since ∧ b'.counters.log = b.counters.log ++ job.noted ∧
        c'.ticks.toNat = c.ticks.toNat + job.ticks := by
  obtain ⟨_, ⟨b', c'⟩, hon, hs⟩ := h.steps hclear hfits
  exact ⟨b', c', Attempt.on_bind_of_ok hon, hs⟩

/-- The pause before a run does not concern the bracket. -/
lemma exists_on_pause {n : UInt64} (hfits : c.ticks.toNat + n.toNat < UInt64.size)
    (b : Bracket TickingCounters) :
    ∃ c', ((Clock.advance n).within Prod.snd fun c s => (s.1, c)).on (b, c) = (.ok (), (b, c')) ∧
      c'.ticks.toNat = c.ticks.toNat + n.toNat := by
  refine ⟨{ c with ticks := c.ticks + n }, ?_, ?_⟩
  · rw [Attempt.on_within, Clock.advance_of_lt hfits]
  · exact (UInt64.toNat_add _ _).trans (Nat.mod_eq_of_lt hfits)

section Around

variable {P E α : Type} [Counters P] {now : E → UInt64} {run : Attempt (Bracket P × E) α}
  {here there : E} {fault : Fault} {s : Bracket P × E} {b₀ b₁ b₂ b₃ : Bracket P}
  {m : Measurement} {a : α}

/-- A run does not begin if the bracket cannot be opened. -/
lemma around_of_refused (hopen : (opening (now here)).on b₀ = (.error fault, b₁)) :
    (around now run).on (b₀, here) = (.error fault, (b₁, here)) := by
  rw [around, Attempt.on_look_bind]
  refine Attempt.on_bind_of_error ?_
  rw [Attempt.on_within, hopen]

/-- A run that begins does so with the bracket that was opened. -/
lemma around_of_opened (hopen : (opening (now here)).on b₀ = (.ok (), b₁)) :
    (around now run).on (b₀, here) = (do
      let a ← run
      let there ← Attempt.look
      let m ← (closing (now there.2)).within Prod.fst fun b s => (b, s.2)
      return (m, a)).on (b₁, here) := by
  rw [around, Attempt.on_look_bind]
  refine Attempt.on_bind_of_ok (a := ()) ?_
  rw [Attempt.on_within, hopen]

/-- The bracket is not closed after a run that stops half-way. -/
lemma around_of_stopped (hopen : (opening (now here)).on b₀ = (.ok (), b₁))
    (hrun : run.on (b₁, here) = (.error fault, s)) :
    (around now run).on (b₀, here) = (.error fault, s) := by
  rw [around_of_opened hopen]
  exact Attempt.on_bind_of_error hrun

/-- The bracket is closed after a run that ends. -/
lemma around_of_ended (hopen : (opening (now here)).on b₀ = (.ok (), b₁))
    (hrun : run.on (b₁, here) = (.ok a, (b₂, there)))
    (hclose : (closing (now there)).on b₂ = (.ok m, b₃)) :
    (around now run).on (b₀, here) = (.ok (m, a), (b₃, there)) := by
  rw [around_of_opened hopen, Attempt.on_bind_of_ok hrun, Attempt.on_look_bind]
  refine Attempt.on_bind_of_ok (a := m) ?_
  rw [Attempt.on_within, hclose]

end Around

/-- A job ends as it should, notes down what it should, and leaves the mask on if it does not
end. -/
lemma Holds.perform (h : b.Holds bound masked)
    (hbound : ∀ x ∈ bound, x.1.index.toNat < Event.slotLimit) (job : Job)
    (hfits : c.ticks.toNat + job.duration masked < UInt64.size) :
    ∃ r b' c', job.perform.on (b, c) = (r, (b', c')) ∧ r.map (fun _ => ()) = job.verdict masked ∧
      b'.Holds bound (masked || job.stops) ∧
        b'.counters.log = b.counters.log ++ job.calls bound masked ∧
          c'.ticks.toNat = c.ticks.toNat + job.duration masked := by
  have hpause : c.ticks.toNat + job.pause.toNat < UInt64.size := by
    rw [Job.duration] at hfits
    omega
  obtain ⟨c₁, hc₁, hticks⟩ := exists_on_pause hpause b
  rw [Job.perform, Attempt.on_bind_of_ok hc₁, Attempt.on_bind_pure]
  cases masked with
  | true =>
    obtain ⟨b₁, hopen, h₁, hlog⟩ := h.refuses hbound c₁.ticks
    rw [around_of_refused hopen]
    exact ⟨_, _, _, rfl, rfl, h₁, hlog, hticks⟩
  | false =>
    obtain ⟨_, b₁, hopen, h₁, hclear, hlog₁⟩ := h.opens hbound c₁.ticks
    have hrange : c₁.ticks.toNat + job.ticks < UInt64.size := by
      rw [hticks, Nat.add_assoc]
      exact hfits
    obtain ⟨b₂, c₂, hrun, h₂, hclear₂, hlog₂, hticks₂⟩ := h₁.on_run hclear job hrange
    have hticks' : c₂.ticks.toNat = c.ticks.toNat + job.duration false := by
      rw [hticks₂, hticks, Nat.add_assoc]
      rfl
    obtain ⟨pause, steps, _ | fault⟩ := job
    · have hle : c₁.ticks ≤ c₂.ticks := UInt64.le_iff_toNat_le.mpr (by omega)
      obtain ⟨m, b₃, hclose, h₃, hlog₃⟩ := h₂.closes hbound hclear₂ hle
      rw [around_of_ended hopen hrun hclose]
      refine ⟨_, _, _, rfl, rfl, h₃, ?_, hticks'⟩
      rw [hlog₃, hlog₂, hlog₁, List.append_assoc, List.append_assoc]
      simp [Job.calls, Job.stops]
    · rw [around_of_stopped hopen hrun]
      refine ⟨_, _, _, rfl, rfl, h₂, ?_, hticks'⟩
      rw [hlog₂, hlog₁, List.append_assoc]
      simp [Job.calls, Job.stops]

/-- One job after the other ends as it should and notes down what it should. -/
lemma Holds.jobs (h : b.Holds bound masked)
    (hbound : ∀ x ∈ bound, x.1.index.toNat < Event.slotLimit) {jobs : List Job}
    (hfits : c.ticks.toNat + Job.elapsed masked jobs < UInt64.size) :
    Job.answers jobs (b, c) = Job.verdicts masked jobs ∧
      (Job.after jobs (b, c)).1.Holds bound (masked || jobs.any Job.stops) ∧
        (Job.after jobs (b, c)).1.counters.log = b.counters.log ++ Job.log bound masked jobs ∧
          (Job.after jobs (b, c)).2.ticks.toNat = c.ticks.toNat + Job.elapsed masked jobs := by
  induction jobs generalizing masked b c with
  | nil =>
    refine ⟨rfl, ?_, (List.append_nil _).symm, rfl⟩
    rwa [List.any_nil, Bool.or_false]
  | cons job jobs ih =>
    rw [Job.elapsed] at hfits
    have hjob : c.ticks.toNat + job.duration masked < UInt64.size := by omega
    obtain ⟨r, b', c', hon, hr, h', hlog, hticks⟩ := h.perform hbound job hjob
    have hrest : c'.ticks.toNat + Job.elapsed (masked || job.stops) jobs < UInt64.size := by omega
    obtain ⟨hanswers, hafter, hlog', hticks'⟩ := ih h' hrest
    rw [Job.answers, Job.after, hon]
    refine ⟨?_, ?_, ?_, ?_⟩
    · rw [hr, hanswers, Job.verdicts]
    · rwa [List.any_cons, ← Bool.or_assoc]
    · rw [hlog', hlog, Job.log, List.append_assoc]
    · rw [hticks', hticks, Job.elapsed, Nat.add_assoc]

/-! ### Masks that are on and off in turn -/

/-- The call puts the mask on or takes it off. -/
def isMasking : Call → Bool
  | .mask | .unmask => true
  | _ => false

/-- Calls that concern the counters of a bracket neither put the mask on nor take it off. -/
lemma filter_isMasking {call : Call} {f : Event.Slot → Call} (hcall : isMasking call = false)
    (hf : ∀ slot, isMasking (f slot) = false) :
    (call :: bound.map fun x => f x.1).filter isMasking = [] := by
  rw [List.filter_cons_of_neg (by rw [hcall]; exact Bool.false_ne_true), List.filter_map,
    List.map_eq_nil_iff, List.filter_eq_nil_iff]
  intro x _
  rw [Function.comp_apply, hf]
  exact Bool.false_ne_true

/-- Before a run the mask is put on. -/
lemma filter_callsBefore : (callsBefore bound).filter isMasking = [.mask] := by
  rw [callsBefore, starts, List.filter_append, filter_isMasking rfl fun _ => rfl]
  rfl

/-- After a run the mask is taken off. -/
lemma filter_callsAfter : (callsAfter bound).filter isMasking = [.unmask] := by
  have hreads : (reads bound).filter isMasking = [] := filter_isMasking rfl fun _ => rfl
  rw [callsAfter, stops, List.filter_append, filter_isMasking rfl fun _ => rfl, List.nil_append,
    List.filter_cons, hreads]
  rfl

/-- Once the mask stays on it is neither put on nor taken off any more. -/
lemma filter_log_of_masked (jobs : List Job) : (Job.log bound true jobs).filter isMasking = [] := by
  induction jobs with
  | nil => rfl
  | cons job jobs ih =>
    have hstarts : (starts bound).filter isMasking = [] := filter_isMasking rfl fun _ => rfl
    rw [Job.log, List.filter_append, Bool.true_or, ih, Job.calls, if_pos rfl, hstarts]
    rfl

/-- The mask is put on and taken off in turn until a run stops half-way, and stays on then, if the
runs themselves note no such calls down. -/
lemma filter_log {jobs : List Job} (hnoted : ∀ job ∈ jobs, job.noted.filter isMasking = []) :
    (Job.log bound false jobs).filter isMasking =
      ((jobs.takeWhile fun job => !job.stops).flatMap fun _ => [.mask, .unmask]) ++
        if jobs.any Job.stops then [.mask] else [] := by
  induction jobs with
  | nil => rfl
  | cons job jobs ih =>
    have hjob := hnoted job List.mem_cons_self
    have hrest := ih fun job hmem => hnoted job (List.mem_cons_of_mem _ hmem)
    rw [Job.log, List.filter_append, Bool.false_or, Job.calls, if_neg Bool.false_ne_true,
      List.filter_append, List.filter_append, hjob, filter_callsBefore]
    cases hstops : job.stops with
    | true =>
      rw [filter_log_of_masked, List.takeWhile_cons, List.any_cons, hstops]
      rfl
    | false =>
      rw [hrest, List.takeWhile_cons, List.any_cons, hstops]
      simp [filter_callsAfter]

/-! ### When runs begin and when counters are read -/

/-- A run begins only with the mask on. -/
lemma mask_of_opening {masked : Bool} (hmask : b.mask = .recording masked)
    (hopen : (opening now).on b = (.ok (), b')) : b'.mask = .recording true := by
  rw [opening_on] at hopen
  obtain ⟨_, b₁, h₁, hopen⟩ := Attempt.on_bind_eq_ok hopen
  obtain ⟨_, b₂, h₂, h₃⟩ := Attempt.on_bind_eq_ok hopen
  have hkeeps : ∀ a : Attempt TickingCounters Unit, (onCounters a).Preserves Bracket.mask :=
    fun _ _ => rfl
  rw [(hkeeps _).eq_of_on h₃]
  obtain ⟨counters, mask, bound⟩ := b₁
  obtain rfl : mask = .recording masked := ((hkeeps _).eq_of_on h₁).trans hmask
  cases masked with
  | true =>
    rw [on_mask_of_on] at h₂
    cases h₂
  | false =>
    rw [on_mask_of_off] at h₂
    cases h₂
    rfl

/-- Counters are read only with the mask off, and while the cycle counter and the counters of the
bound events stand still. -/
lemma standStill_of_halting {masked : Bool} (hmask : b.mask = .recording masked)
    (hhalt : (halting bound now).on b = (.ok (), b')) :
    b'.mask = .recording false ∧ b'.counters.StandStill (bound.map Prod.fst) := by
  obtain ⟨_, b₁, h₁, h₂⟩ := Attempt.on_bind_eq_ok hhalt
  obtain ⟨counters, mask, others⟩ := b
  obtain rfl : mask = .recording masked := hmask
  rcases hstop : (stopping bound now).on counters with ⟨r, p⟩
  rw [on_onCounters hstop] at h₁
  cases h₁
  cases masked with
  | false => cases h₂
  | true =>
    rw [on_unmask_of_on] at h₂
    cases h₂
    have hstill := standStill_of_stopping hstop
    exact ⟨rfl, hstill.cycles, hstill.events⟩

/-! ### The order of calls -/

/-- What is told after one job after the other, on a bracket that was made just before. -/
structure KeepsOrder (bound : List (Event.Slot × Event.Code)) (b : Bracket TickingCounters)
    (clock : Clock) (jobs : List Job) : Prop where
  /-- Every job ends as it should. -/
  answers : Job.answers jobs (b, clock) = Job.verdicts false jobs
  /-- Every job notes down what it should, and in order. -/
  log : (Job.after jobs (b, clock)).1.counters.log = b.counters.log ++ Job.log bound false jobs
  /-- The mask is on if a run has stopped half-way. -/
  mask : (Job.after jobs (b, clock)).1.mask = .recording (jobs.any Job.stops)
  /-- No time passes in runs that do not begin. -/
  ticks : (Job.after jobs (b, clock)).2.ticks.toNat = clock.ticks.toNat + Job.elapsed false jobs
  /-- The mask is put on and taken off in turn, until a run stops half-way. -/
  alternates : (∀ job ∈ jobs, job.noted.filter isMasking = []) →
    (Job.log bound false jobs).filter isMasking =
      ((jobs.takeWhile fun job => !job.stops).flatMap fun _ => [.mask, .unmask]) ++
        if jobs.any Job.stops then [.mask] else []

/-- **Calls are in order.**  More events than there are slots are refused without any call.
Otherwise the master switch is turned on and the events are bound to the slots in their order, and
every run that ends is measured with the same calls around it.  A run that stops half-way leaves the
mask on; every later measurement starts its counters and fails then, and its run does not begin.

Runs begin only with the mask on.  The counters are read in the last part of closing a bracket, with
the mask off and while all those that the bracket has started stand still.  Runs that have nothing
to do with the bracket are measured in just this way. -/
theorem calls_in_order (counters : TickingCounters) (clock : Clock) (events : List Event.Code) :
    (counters.slots < events.length →
      ofCounters counters (.recording false) events = .error ⟨events.length, counters.slots⟩ ∧
        (making events).on counters = (.ok (.error ⟨events.length, counters.slots⟩), counters)) ∧
      (events.length ≤ counters.slots →
        ∃ b, ofCounters counters (.recording false) events = .ok (.ok b) ∧
          b.counters.log = counters.log ++ .enable :: binds (slotted events) ∧
          ∀ jobs, clock.ticks.toNat + Job.elapsed false jobs < UInt64.size →
            KeepsOrder (slotted events) b clock jobs) ∧
      (∀ (masked : Bool) (now : UInt64) (b b' : Bracket TickingCounters),
        b.mask = .recording masked →
          ((opening now).on b = (.ok (), b') → b'.mask = .recording true) ∧
          (closing now).on b =
            (halting b.bound now >>= fun _ => onCounters (telling b.bound now)).on b ∧
          ((halting b.bound now).on b = (.ok (), b') →
            b'.mask = .recording false ∧ b'.counters.StandStill (b.bound.map Prod.fst))) ∧
      ∀ (E α : Type) (now : E → UInt64) (run : Attempt E α),
        (measure now run : Attempt (Bracket TickingCounters × E) _) =
          around now (run.within Prod.snd fun e s => (s.1, e)) := by
  refine ⟨fun hslots => ?_, fun hslots => ?_, fun masked now b b' hmask =>
    ⟨mask_of_opening hmask, closing_on b now, standStill_of_halting hmask⟩,
    fun _ _ => measure_eq_around⟩
  · have hmaking : (making events).on counters =
        (.ok (.error ⟨events.length, counters.slots⟩), counters) := by
      have hmany : Counters.slots counters < events.length := hslots
      rw [making, Attempt.on_look_bind, if_pos hmany]
      rfl
    refine ⟨?_, hmaking⟩
    rw [ofCounters_eq_making, hmaking]
  obtain ⟨_, p, hp, -, hlog⟩ :=
    (succeeds_setUp TickingCounters.obliges hslots).appends appends_setUp
  have hholds : Holds (slotted events) false ⟨p, .recording false, slotted events⟩ :=
    ⟨enabled_of_setUp hp, rfl, rfl⟩
  have hbound : ∀ x ∈ slotted events, x.1.index.toNat < Event.slotLimit :=
    fun x hx => index_lt_of_mem_slotted hx (Nat.le_trans hslots counters.slots_le)
  refine ⟨⟨p, .recording false, slotted events⟩, ?_, hlog, fun jobs hfits => ?_⟩
  · have hfew : ¬ Counters.slots counters < events.length := Nat.not_lt.mpr hslots
    rw [ofCounters, if_neg hfew, hp]
    rfl
  · obtain ⟨hanswers, hafter, hlog, hticks⟩ := hholds.jobs hbound hfits
    exact ⟨hanswers, hlog, hafter.mask, hticks, filter_log⟩

/-- Two runs that end, of which the second one takes a note, and two more after one that stops
half-way. -/
def broken : List Job :=
  [⟨0, [.wait 50], none⟩, ⟨7, [.wait 2, .note .readCycles], none⟩,
    ⟨1, [.wait 3, .note .enable], some .assertion⟩, ⟨4, [.wait 60], none⟩, ⟨0, [], none⟩]

/-- Calls are in order on counters with one slot, also if two events are wanted. -/
theorem calls_in_order_of_broken :
    (making [⟨0x03⟩, ⟨0x17⟩]).on (TickingCounters.withSlots 1) =
        (.ok (.error ⟨2, 1⟩), TickingCounters.withSlots 1) ∧
      ∃ b, ofCounters (TickingCounters.withSlots 1) (.recording false) [⟨0x03⟩] = .ok (.ok b) ∧
        KeepsOrder (slotted [⟨0x03⟩]) b Clock.shared broken := by
  refine ⟨((calls_in_order (TickingCounters.withSlots 1) Clock.shared
    [⟨0x03⟩, ⟨0x17⟩]).1 (by decide)).2, ?_⟩
  obtain ⟨b, hb, -, hjobs⟩ :=
    (calls_in_order (TickingCounters.withSlots 1) Clock.shared [⟨0x03⟩]).2.1 (by decide)
  exact ⟨b, hb, hjobs broken (by decide)⟩

example : Job.verdicts false broken = [.ok (), .ok (), .error .assertion,
    .error (.stopped "masked twice"), .error (.stopped "masked twice")] := by
  decide

example : Job.log (slotted [⟨0x03⟩]) false (broken.drop 1) =
    [.startCycles, .startEvent ⟨0⟩, .mask, .clearCycles, .clearEvents, .readCycles, .stopCycles,
      .stopEvent ⟨0⟩, .unmask, .readCycles, .readEvent ⟨0⟩, .startCycles, .startEvent ⟨0⟩, .mask,
      .clearCycles, .clearEvents, .enable, .startCycles, .startEvent ⟨0⟩, .startCycles,
      .startEvent ⟨0⟩] := by
  decide

end Bracket

end Lockstep
