import Lockstep.Experiment.Solo
import Lockstep.Proofs.Bracket
import Lockstep.Proofs.Experiment.Runner
import Mathlib.Data.List.Infix
import Mathlib.Tactic.IntervalCases

/-!
# One core alone, whose workload may stop half-way

A core that meets nobody is taken from iteration to iteration, one by one or many at once, and its
workload may stop half-way when it is prepared or while it runs.  Whoever goes on then goes on with
what is left: counters that run, a workload in whatever state.

What comes of it is told by the workload and its clock alone (`Course`).  A course knows nothing of
counters, barriers and records; it has the runs that ended, and the times between which they ran.
The core follows the course (`Solo.Follows`): its records are the ones of these runs, counted from
one on, and each tells exactly the ticks of its own run.
-/

namespace Lockstep

/-! ### The course of a workload -/

/-- A run that ended. -/
structure Run where
  /-- The name that its workload had then. -/
  name : String
  /-- What the clock showed in the beginning. -/
  since : UInt64
  /-- What the clock showed in the end. -/
  ended : UInt64
  deriving DecidableEq, Repr

/-- A workload with its clock. -/
structure Course (W : Type) where
  workload : W
  clock : Clock
  /-- The runs that ended, the first one first. -/
  runs : List Run

namespace Course

variable {W : Type} [Workload W]

/-- The workload is prepared and run, unless it has ended as many runs as can be counted. -/
def iterate : Attempt (Course W) Unit := do
  if (← Attempt.look).runs.length + 1 < UInt64.size then
    (Workload.prepare : Attempt W Unit).within (·.workload) fun w c => { c with workload := w }
    let since := (← Attempt.look).clock.ticks
    (Workload.run : Attempt (W × Clock) Unit).within (fun c => (c.workload, c.clock))
      fun s c => { c with workload := s.1, clock := s.2 }
    Attempt.change fun c =>
      { c with runs := c.runs ++ [⟨Workload.name c.workload, since, c.clock.ticks⟩] }
  else Attempt.stop .overflow

/-- A number of iterations. -/
def iterations : Nat → Attempt (Course W) Unit
  | 0 => pure ()
  | n + 1 => do
    iterate
    iterations n

end Course

/-! ### A barrier for one core -/

/-- One core and one channel. -/
def Shape.alone : Shape :=
  ⟨1, 1, Nat.one_pos, by decide, Nat.one_pos, Nat.le_succ 1⟩

/-- One core and two channels. -/
def Shape.aloneInTurns : Shape :=
  ⟨1, 2, Nat.one_pos, by decide, Nat.two_pos, Nat.le_refl 2⟩

/-- A core that meets nobody has one channel, or two of them. -/
lemma Shape.eq_of_cores_eq_one {s : Shape} (h : s.cores = 1) : s = alone ∨ s = aloneInTurns := by
  obtain ⟨cores, channels, _, _, hpos, hle⟩ := s
  obtain rfl : cores = 1 := h
  have hle : channels ≤ 2 := hle
  interval_cases channels
  · exact .inl rfl
  · exact .inr rfl

/-- A core that meets nobody leaves a barrier as it was. -/
lemma Meeting.oneRound_idle {s : Shape} (h : s.cores = 1) (k : Fin s.channels) :
    (Meeting.oneRound (Barrier.idle s) k).1 = Barrier.idle s := by
  rcases Shape.eq_of_cores_eq_one h with rfl | rfl
  · revert k
    decide
  · revert k
    decide

/-! ### Iterations that stop half-way and iterations that end -/

namespace Runner

variable {P W : Type} [Workload W] {r : Runner P W} {given : CoreId × String × Nat × Stagger × UInt64}
  {w w' : W} {clock clock' : Clock} {b b' : Bracket P} {a : Except Fault Unit}

/-- The runner is in the course of an iteration, with this workload, clock and bracket. -/
structure IsAt (given : CoreId × String × Nat × Stagger × UInt64) (w : W) (clock : Clock)
    (b : Bracket P) (r : Runner P W) : Prop where
  course : r.course = given
  workload : r.workload = w
  clock : r.clock = clock
  bracket : r.bracket = b

omit [Workload W] in
/-- A runner is where it is. -/
lemma isAt_self (r : Runner P W) : r.IsAt r.course r.workload r.clock r.bracket :=
  ⟨rfl, rfl, rfl, rfl⟩

/-- A runner that has counted all iterations that it can prepares no more. -/
lemma prepare_of_exhausted (h : ¬ r.completed.toNat + 1 < UInt64.size) :
    prepare.on r = (.error .overflow, r) := by
  have hadd : checkedAdd r.completed 1 = .error .overflow := if_neg h
  rw [prepare, Attempt.on_look_bind, hadd]
  rfl

/-- An iteration is prepared if the workload is, by a runner that can count one more. -/
lemma IsAt.prepare (h : r.IsAt given w clock b) (hfits : r.completed.toNat + 1 < UInt64.size)
    (hw : Workload.prepare.on w = (a, w')) :
    ∃ r', Runner.prepare.on r = (a, r') ∧ r'.IsAt given w' clock b := by
  obtain ⟨hcourse, rfl, rfl, rfl⟩ := h
  have hadd : checkedAdd r.completed 1 = .ok (r.completed + 1) := if_pos hfits
  have hwithin : ((Workload.prepare : Attempt W Unit).within (·.workload)
      fun w (r : Runner P W) => { r with workload := w }).on r =
        (a, { r with workload := w' }) := by
    rw [Attempt.on_within, hw]
  rw [Runner.prepare, Attempt.on_look_bind, hadd,
    Attempt.on_bind_of_ok (Attempt.on_take (.ok (r.completed + 1)) r)]
  cases a with
  | error fault => exact ⟨_, Attempt.on_bind_of_error hwithin, hcourse, rfl, rfl, rfl⟩
  | ok _ => exact ⟨_, Attempt.on_bind_of_ok hwithin, hcourse, rfl, rfl, rfl⟩

/-- A run does to the workload and its clock what it does by itself. -/
lemma IsAt.run (h : r.IsAt given w clock b)
    (hw : Workload.run.on (w, clock) = (a, (w', clock'))) :
    ∃ r', runWorkload.on r = (a, r') ∧ r'.IsAt given w' clock' b := by
  obtain ⟨hcourse, rfl, rfl, rfl⟩ := h
  refine ⟨{ r with workload := w', clock := clock' }, ?_, hcourse, rfl, rfl, rfl⟩
  rw [runWorkload, Attempt.on_within, hw]

variable [Counters P] {now : Clock → UInt64}

omit [Workload W] in
/-- Measuring begins when the bracket is opened. -/
lemma IsAt.start (h : r.IsAt given w clock b)
    (hopen : (Bracket.opening (now clock)).on b = (.ok (), b')) :
    ∃ r', (startMeasuring now).on r = (.ok (), r') ∧ r'.IsAt given w clock b' := by
  obtain ⟨hcourse, rfl, rfl, rfl⟩ := h
  refine ⟨{ r with bracket := b' }, ?_, hcourse, rfl, rfl, rfl⟩
  rw [startMeasuring, Attempt.on_look_bind, Attempt.on_within, hopen]

/-- Measuring ends when the bracket is closed. -/
lemma IsAt.stop (h : r.IsAt given w clock b) {m : Measurement}
    (hclose : (Bracket.closing (now clock)).on b = (.ok m, b')) :
    ∃ r', (stopMeasuring now).on r = (.ok (r'.record m), r') ∧ r'.IsAt given w clock b' := by
  obtain ⟨hcourse, rfl, rfl, rfl⟩ := h
  refine ⟨{ r with bracket := b' }, ?_, hcourse, rfl, rfl, rfl⟩
  rw [stopMeasuring, Attempt.on_look_bind,
    Attempt.on_bind_of_ok (t := { r with bracket := b' }) (a := m)]
  · rfl
  · rw [Attempt.on_within, hclose]

end Runner

namespace Solo

variable {s : Shape} {P W : Type} {x : Solo s P W} {now : Clock → UInt64} {fault : Fault}
  {record : Record} {r r₁ r₂ r₃ r₄ : Runner P W}

/-- What is done to the runner leaves everything else alone. -/
lemma on_onRunner {α : Type} {attempt : Attempt (Runner P W) α} {a : Except Fault α}
    (h : attempt.on x.runner = (a, r)) :
    (onRunner attempt).on x = (a, { x with runner := r }) := by
  rw [onRunner, Attempt.on_within, h]

/-- A core that meets nobody is the same afterwards. -/
lemma meet_eq (hcores : s.cores = 1) (h : x.barrier = Barrier.idle s) : x.meet = x := by
  have hround := Meeting.oneRound_idle hcores (s.channelFor x.runner.iteration.toNat)
  rw [meet, h, hround, ← h]

variable [Counters P] [Workload W]

/-- An iteration that cannot be prepared has not met anybody. -/
lemma iterate_of_refused (hprepare : Runner.prepare.on x.runner = (.error fault, r)) :
    (iterate now).on x = (.error fault, { x with runner := r }) :=
  Attempt.on_bind_of_error (on_onRunner hprepare)

/-- An iteration whose workload stops half-way hands no record out. -/
lemma iterate_of_stopped (hcores : s.cores = 1) (hbarrier : x.barrier = Barrier.idle s)
    (hprepare : Runner.prepare.on x.runner = (.ok (), r₁))
    (hstart : (Runner.startMeasuring now).on r₁ = (.ok (), r₂))
    (hrun : Runner.runWorkload.on r₂ = (.error fault, r₃)) :
    (iterate now).on x = (.error fault, { x with runner := r₃ }) := by
  have hmeet : meet { x with runner := r₁ } = { x with runner := r₁ } := meet_eq hcores hbarrier
  rw [iterate, Attempt.on_bind_of_ok (on_onRunner hprepare), Attempt.on_change_bind, hmeet,
    Attempt.on_bind_of_ok (on_onRunner hstart)]
  exact Attempt.on_bind_of_error (on_onRunner hrun)

/-- An iteration that ends hands its record out. -/
lemma iterate_of_ended (hcores : s.cores = 1) (hbarrier : x.barrier = Barrier.idle s)
    (hprepare : Runner.prepare.on x.runner = (.ok (), r₁))
    (hstart : (Runner.startMeasuring now).on r₁ = (.ok (), r₂))
    (hrun : Runner.runWorkload.on r₂ = (.ok (), r₃))
    (hstop : (Runner.stopMeasuring now).on r₃ = (.ok record, r₄)) :
    (iterate now).on x = (.ok record,
      { emit record { x with runner := r₄ } with runner := r₄.finish }) := by
  have hmeet : meet { x with runner := r₁ } = { x with runner := r₁ } := meet_eq hcores hbarrier
  rw [iterate, Attempt.on_bind_of_ok (on_onRunner hprepare), Attempt.on_change_bind, hmeet,
    Attempt.on_bind_of_ok (on_onRunner hstart), Attempt.on_bind_of_ok (on_onRunner hrun),
    Attempt.on_bind_of_ok (on_onRunner hstop), Attempt.on_change_bind]
  rfl

end Solo

namespace Course

variable {W : Type} [Workload W] {c : Course W} {w w' : W} {clock : Clock} {fault : Fault}

/-- No more runs than can be counted. -/
lemma iterate_of_exhausted (h : ¬ c.runs.length + 1 < UInt64.size) :
    iterate.on c = (.error .overflow, c) := by
  rw [iterate, Attempt.on_look_bind, if_neg h]
  rfl

/-- A workload that stops when it is prepared does not run. -/
lemma iterate_of_unprepared (h : c.runs.length + 1 < UInt64.size)
    (hprepare : Workload.prepare.on c.workload = (.error fault, w)) :
    iterate.on c = (.error fault, { c with workload := w }) := by
  rw [iterate, Attempt.on_look_bind, if_pos h]
  refine Attempt.on_bind_of_error ?_
  rw [Attempt.on_within, hprepare]

/-- What follows when a workload was prepared. -/
lemma iterate_of_prepared (h : c.runs.length + 1 < UInt64.size)
    (hprepare : Workload.prepare.on c.workload = (.ok (), w)) :
    iterate.on c = ((Workload.run : Attempt (W × Clock) Unit).within
      (fun c => (c.workload, c.clock))
      (fun s c => { c with workload := s.1, clock := s.2 }) >>= fun _ =>
        Attempt.change fun d => { d with
          runs := d.runs ++ [⟨Workload.name d.workload, c.clock.ticks, d.clock.ticks⟩] }).on
      { c with workload := w } := by
  rw [iterate, Attempt.on_look_bind, if_pos h,
    Attempt.on_bind_of_ok (t := { c with workload := w }) (a := ())]
  · rfl
  · rw [Attempt.on_within, hprepare]

/-- A run that stops half-way is not among those that ended. -/
lemma iterate_of_stopped (h : c.runs.length + 1 < UInt64.size)
    (hprepare : Workload.prepare.on c.workload = (.ok (), w))
    (hrun : Workload.run.on (w, c.clock) = (.error fault, (w', clock))) :
    iterate.on c = (.error fault, ⟨w', clock, c.runs⟩) := by
  rw [iterate_of_prepared h hprepare]
  refine Attempt.on_bind_of_error ?_
  rw [Attempt.on_within, hrun]

/-- A run that ended is the last one of those that did. -/
lemma iterate_of_ended (h : c.runs.length + 1 < UInt64.size)
    (hprepare : Workload.prepare.on c.workload = (.ok (), w))
    (hrun : Workload.run.on (w, c.clock) = (.ok (), (w', clock))) :
    iterate.on c = (.ok (),
      ⟨w', clock, c.runs ++ [⟨Workload.name w', c.clock.ticks, clock.ticks⟩]⟩) := by
  rw [iterate_of_prepared h hprepare, Attempt.on_bind_of_ok (t := ⟨w', clock, c.runs⟩) (a := ())]
  · rfl
  · rw [Attempt.on_within, hrun]

end Course

/-! ### The core follows the course -/

namespace Runner

variable {P W : Type}

/-- What a runner never changes. -/
def settings (r : Runner P W) : CoreId × String × Nat × Stagger :=
  (r.core, r.label, r.cores, r.stagger)

/-- The settings are part of what a runner keeps during an iteration. -/
lemma settings_eq {r r' : Runner P W} (h : r'.course = r.course) : r'.settings = r.settings := by
  simp only [course, Prod.mk.injEq] at h
  simp only [settings, h]

/-- The record of a run, which comes after so many others. -/
def tells (r : Runner P W) (earlier : Nat) (run : Run) : Record where
  label := r.label
  workload := run.name
  cores := UInt64.ofNat r.cores
  core := UInt64.ofNat r.core.index
  iteration := UInt64.ofNat (earlier + 1)
  offset := r.stagger.offset (UInt64.ofNat (earlier + 1))
  cycles := run.ended - run.since
  events := (Bracket.exactly r.bracket.bound (run.ended - run.since)).events

end Runner

namespace Course

variable {W : Type} {c : Course W}

/-- No run that ended has taken the clock back. -/
def IsForward (c : Course W) : Prop :=
  ∀ run ∈ c.runs, run.since ≤ run.ended

/-- A course on which fewer runs have ended has not taken the clock back either. -/
lemma IsForward.of_extends {c' : Course W} (h : c'.IsForward) (hle : c.runs <+: c'.runs) :
    c.IsForward :=
  fun run hrun => h run (hle.subset hrun)

/-- What is done leaves the runs alone that ended before. -/
def Extends {α : Type} (a : Attempt (Course W) α) : Prop :=
  ∀ c, c.runs <+: (a.on c).2.runs

/-- One after the other leave the runs alone that ended before. -/
lemma Extends.bind {α β : Type} {a : Attempt (Course W) α} {next : α → Attempt (Course W) β}
    (ha : Extends a) (hnext : ∀ x, Extends (next x)) : Extends (a >>= next) := by
  intro c
  have hc := ha c
  rw [Attempt.on_bind]
  rcases hon : a.on c with ⟨fault | x, c'⟩
  · rwa [hon] at hc
  · rw [hon] at hc
    exact hc.trans (hnext x c')

/-- Nothing that is done leaves the runs alone. -/
lemma extends_pure {α : Type} (x : α) : Extends (pure x : Attempt (Course W) α) :=
  fun _ => List.prefix_rfl

variable [Workload W]

/-- An iteration leaves the runs alone that ended before. -/
lemma extends_iterate : Extends (iterate : Attempt (Course W) Unit) := by
  intro c
  by_cases hfits : c.runs.length + 1 < UInt64.size
  · rcases hprepare : (Workload.prepare : Attempt W Unit).on c.workload with ⟨fault | _, w⟩
    · rw [iterate_of_unprepared hfits hprepare]
    · rcases hrun : (Workload.run : Attempt (W × Clock) Unit).on (w, c.clock) with
        ⟨fault | _, w', clock⟩
      · rw [iterate_of_stopped hfits hprepare hrun]
      · rw [iterate_of_ended hfits hprepare hrun]
        exact List.prefix_append _ _
  · rw [iterate_of_exhausted hfits]

/-- So do a number of iterations. -/
lemma extends_iterations (n : Nat) : Extends (iterations n : Attempt (Course W) Unit) := by
  induction n with
  | zero => exact extends_pure ()
  | succ n ih => exact extends_iterate.bind fun _ => ih

end Course

namespace Solo

variable {s : Shape} {W : Type} {x : Solo s TickingCounters W} {c : Course W}
  {first : Runner TickingCounters W} {w w' : W} {clock : Clock}

/-- The core has come as far as the course has, and its records tell the runs that ended. -/
structure Follows (first : Runner TickingCounters W) (c : Course W)
    (x : Solo s TickingCounters W) : Prop where
  workload : x.runner.workload = c.workload
  clock : x.runner.clock = c.clock
  completed : x.runner.completed.toNat = c.runs.length
  records : x.emitted.toList = c.runs.mapIdx first.tells
  barrier : x.barrier = Barrier.idle s
  ready : x.runner.bracket.IsReady
  bound : x.runner.bracket.bound = first.bracket.bound
  settings : x.runner.settings = first.settings

/-- A runner that is still in its iteration has come as far as a course on which no more runs have
ended. -/
lemma Follows.stays (h : x.Follows first c) {r : Runner TickingCounters W}
    {b : Bracket TickingCounters} (hr : r.IsAt x.runner.course w clock b) (hready : b.IsReady)
    (hbound : b.bound = x.runner.bracket.bound) :
    ({ x with runner := r } : Solo s TickingCounters W).Follows first ⟨w, clock, c.runs⟩ where
  workload := hr.workload
  clock := hr.clock
  completed := (congrArg UInt64.toNat (Runner.completed_eq hr.course)).trans h.completed
  records := h.records
  barrier := h.barrier
  ready := hr.bracket ▸ hready
  bound := (congrArg Bracket.bound hr.bracket).trans (hbound.trans h.bound)
  settings := (Runner.settings_eq hr.course).trans h.settings

variable [Workload W]

/-- A runner whose iteration ends has come as far as a course on which one more run has ended. -/
lemma Follows.ends (h : x.Follows first c) {r : Runner TickingCounters W}
    {b : Bracket TickingCounters} (hr : r.IsAt x.runner.course w clock b) (hready : b.IsReady)
    (hbound : b.bound = x.runner.bracket.bound) (hfits : c.runs.length + 1 < UInt64.size)
    (since : UInt64) :
    ({ emit (r.record (Bracket.exactly b.bound (clock.ticks - since))) { x with runner := r } with
        runner := r.finish } : Solo s TickingCounters W).Follows first
      ⟨w, clock, c.runs ++ [⟨Workload.name w, since, clock.ticks⟩]⟩ := by
  have hstays := h.stays hr hready hbound
  have hcompleted : r.completed.toNat = c.runs.length := hstays.completed
  have hiteration : r.iteration = UInt64.ofNat (c.runs.length + 1) := by
    rw [← hcompleted, UInt64.ofNat_add, UInt64.ofNat_toNat]
    rfl
  have hrecord : r.record (Bracket.exactly b.bound (clock.ticks - since)) =
      first.tells c.runs.length ⟨Workload.name w, since, clock.ticks⟩ := by
    obtain ⟨hcore, hlabel, hcores, hstagger⟩ : r.core = first.core ∧ r.label = first.label ∧
        r.cores = first.cores ∧ r.stagger = first.stagger := by
      simpa only [Runner.settings, Prod.mk.injEq] using hstays.settings
    simp only [Runner.record, Runner.tells, hcore, hlabel, hcores, hstagger, hiteration,
      hr.workload, hbound.trans h.bound, Bracket.exactly]
  refine ⟨hr.workload, hr.clock, ?_, ?_, h.barrier, hstays.ready, hstays.bound, hstays.settings⟩
  · change r.iteration.toNat = _
    rw [hiteration, UInt64.toNat_ofNat_of_lt' hfits, List.length_append, List.length_singleton]
  · change (x.emitted.push _).toList = _
    rw [Array.toList_push, h.records, hrecord, List.mapIdx_append, List.mapIdx_singleton]
    simp

/-- What is done to the core takes it to where the course goes, as long as that does not take the
clock back. -/
def Tracks {α : Type} (first : Runner TickingCounters W) (a : Attempt (Solo s TickingCounters W) α)
    (a' : Attempt (Course W) Unit) : Prop :=
  ∀ ⦃x : Solo s TickingCounters W⦄ ⦃c : Course W⦄, x.Follows first c → (a'.on c).2.IsForward →
    ∃ r x', a.on x = (r, x') ∧ r.map (fun _ => ()) = (a'.on c).1 ∧ x'.Follows first (a'.on c).2

omit [Workload W] in
/-- One after the other take the core to where the course goes. -/
lemma Tracks.bind {α β : Type} {a : Attempt (Solo s TickingCounters W) α}
    {next : α → Attempt (Solo s TickingCounters W) β} {a' next' : Attempt (Course W) Unit}
    (ha : Tracks first a a') (hnext : ∀ r, Tracks first (next r) next')
    (hextends : Course.Extends next') : Tracks first (a >>= next) (a' >>= fun _ => next') := by
  intro x c h hforward
  rcases hcourse : a'.on c with ⟨fault | _, c'⟩
  · rw [Attempt.on_bind_of_error hcourse] at hforward ⊢
    have hstep := ha h
    rw [hcourse] at hstep
    obtain ⟨r, x', hon, hr, hx'⟩ := hstep hforward
    rw [map_eq_error] at hr
    subst hr
    exact ⟨_, x', Attempt.on_bind_of_error hon, rfl, hx'⟩
  · rw [Attempt.on_bind_of_ok hcourse] at hforward ⊢
    have hstep := ha h
    rw [hcourse] at hstep
    obtain ⟨r, x', hon, hr, hx'⟩ := hstep (hforward.of_extends (hextends c'))
    obtain ⟨v, rfl, -⟩ := map_eq_ok.mp hr
    obtain ⟨r', x'', hon', hr', hx''⟩ := hnext v hx' hforward
    exact ⟨r', x'', (Attempt.on_bind_of_ok hon).trans hon', hr', hx''⟩

/-- An iteration takes the core to where the course goes. -/
lemma tracks_iterate (hcores : s.cores = 1) : Tracks first
    (iterate Clock.ticks : Attempt (Solo s TickingCounters W) Record) Course.iterate := by
  intro x c h hforward
  obtain ⟨w₀, clock₀, runs⟩ := c
  obtain rfl : x.runner.workload = w₀ := h.workload
  obtain rfl : x.runner.clock = clock₀ := h.clock
  by_cases hfits : runs.length + 1 < UInt64.size
  · have hcompleted : x.runner.completed.toNat + 1 < UInt64.size := by
      rw [h.completed]
      exact hfits
    rcases hprepare : (Workload.prepare : Attempt W Unit).on x.runner.workload with ⟨fault | _, w⟩
    · obtain ⟨r, hr, hr'⟩ := x.runner.isAt_self.prepare hcompleted hprepare
      rw [Course.iterate_of_unprepared hfits hprepare]
      exact ⟨_, _, iterate_of_refused hr, rfl, h.stays hr' h.ready rfl⟩
    obtain ⟨r₁, hr₁, hr₁'⟩ := x.runner.isAt_self.prepare hcompleted hprepare
    obtain ⟨_, b, hopen, hb, hbound⟩ := Bracket.opens h.ready x.runner.clock.ticks
    obtain ⟨r₂, hr₂, hr₂'⟩ := hr₁'.start hopen
    rcases hrun : (Workload.run : Attempt (W × Clock) Unit).on (w, x.runner.clock) with
      ⟨fault | _, w', clock⟩
    · obtain ⟨r₃, hr₃, hr₃'⟩ := hr₂'.run hrun
      rw [Course.iterate_of_stopped hfits hprepare hrun]
      exact ⟨_, _, iterate_of_stopped hcores h.barrier hr₁ hr₂ hr₃, rfl,
        h.stays hr₃' hb.toIsReady hbound⟩
    · obtain ⟨r₃, hr₃, hr₃'⟩ := hr₂'.run hrun
      rw [Course.iterate_of_ended hfits hprepare hrun] at hforward ⊢
      have hle := hforward _ (List.mem_append_right _ List.mem_cons_self)
      obtain ⟨m, b', hclose, hready, hbound', rfl⟩ := hb.closes hle
      obtain ⟨r₄, hr₄, hr₄'⟩ := hr₃'.stop hclose
      refine ⟨_, _, iterate_of_ended hcores h.barrier hr₁ hr₂ hr₃ hr₄, rfl, ?_⟩
      rw [← hbound']
      exact h.ends hr₄' hready (hbound'.trans hbound) hfits x.runner.clock.ticks
  · have hexhausted : ¬ x.runner.completed.toNat + 1 < UInt64.size := by
      rw [h.completed]
      exact hfits
    rw [Course.iterate_of_exhausted hfits]
    exact ⟨_, _, iterate_of_refused (Runner.prepare_of_exhausted hexhausted), rfl, h⟩

/-- A number of iterations takes the core to where the course goes. -/
lemma tracks_iterations (hcores : s.cores = 1) (n : Nat) : Tracks first
    (iterations Clock.ticks n : Attempt (Solo s TickingCounters W) Unit) (Course.iterations n) := by
  induction n with
  | zero => exact fun x c h _ => ⟨.ok (), x, rfl, rfl, h⟩
  | succ n ih => exact (tracks_iterate hcores).bind (fun _ => ih) (Course.extends_iterations n)

end Solo

end Lockstep
