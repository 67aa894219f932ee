import Lockstep.Proofs.Bracket.Sequence
import Lockstep.Proofs.Experiment.Solo

/-!
# Going on after iterations that have stopped half-way

A core that meets nobody may be told to do one iteration, or to go on until it has done a number of
them, again and again, and every time its workload may stop half-way.  The iteration that has
stopped is then done once more with the same number.  So the records that were handed out are always
those of the iterations that are over, without a gap and without a repetition, and it does not
matter in how many parts a number of iterations is asked for.
-/

namespace Lockstep

/-- The greater one of two numbers of sixty-four bits. -/
lemma toNat_max (a b : UInt64) : (max a b).toNat = max a.toNat b.toNat := by
  change (if a ≤ b then b else a).toNat = _
  split_ifs with hle
  · exact (max_eq_right (UInt64.le_iff_toNat_le.mp hle)).symm
  · exact (max_eq_left (Nat.le_of_lt (Nat.lt_of_not_le fun h =>
      hle (UInt64.le_iff_toNat_le.mpr h)))).symm

/-! ### One attempt after the other -/

/-- Makes one attempt after the other.  What comes after a fault goes on with what the fault has
left. -/
def Attempt.inTurn {σ α : Type} : List (Attempt σ α) → σ → List (Except Fault α) × σ
  | [], s => ([], s)
  | a :: rest, s =>
    let later := inTurn rest (a.on s).2
    ((a.on s).1 :: later.1, later.2)

namespace Course

variable {W : Type} [Workload W]

/-- Iterations until as many runs have ended as wanted. -/
def runTo (limit : UInt64) : Attempt (Course W) Unit := do
  iterations (limit.toNat - (← Attempt.look).runs.length)

/-- Iterations until there are enough leave the runs alone that ended before. -/
lemma extends_runTo (limit : UInt64) : Extends (runTo limit : Attempt (Course W) Unit) :=
  fun c => extends_iterations _ c

end Course

namespace Solo

/-! ### What a core can be told to do -/

/-- What a core is told to do: one iteration, or iterations until there are as many as wanted. -/
inductive Demand where
  | step
  | runTo (limit : UInt64)
  deriving DecidableEq, Repr

namespace Demand

variable {s : Shape} {P W : Type} [Workload W]

/-- What the core does. -/
def perform [Counters P] : Demand → Attempt (Solo s P W) Unit
  | step => do
    let _ ← iterate Clock.ticks
    return
  | runTo limit => do
    let _ ← Solo.runTo Clock.ticks limit
    return

/-- Where the course goes. -/
def ofCourse : Demand → Attempt (Course W) Unit
  | step => Course.iterate
  | runTo limit => Course.runTo limit

/-- Whatever a core is told, the runs that ended before are left alone. -/
lemma extends_ofCourse (demand : Demand) :
    Course.Extends (demand.ofCourse : Attempt (Course W) Unit) := by
  cases demand with
  | step => exact Course.extends_iterate
  | runTo limit => exact Course.extends_runTo limit

end Demand

/-! ### The core does what it is told -/

section Tracks

variable {s : Shape} {W : Type} [Workload W] {x : Solo s TickingCounters W} {c : Course W}
  {first : Runner TickingCounters W}

omit [Workload W] in
/-- A result that does not matter does not change where the core has come. -/
lemma Tracks.bind_pure {α β : Type} {a : Attempt (Solo s TickingCounters W) α}
    {a' : Attempt (Course W) Unit} (ha : Tracks first a a') (f : α → β) :
    Tracks first (a >>= fun r => pure (f r)) a' := by
  intro x c h hforward
  obtain ⟨r, x', hon, hr, hx'⟩ := ha h hforward
  refine ⟨r.map f, x', ?_, ?_, hx'⟩
  · rw [Attempt.on_bind_pure, hon]
  · rw [← hr]
    cases r with
    | error fault => rfl
    | ok v => rfl

/-- Iterations until there are enough take the core to where the course goes. -/
lemma tracks_runTo (hcores : s.cores = 1) (limit : UInt64) : Tracks first
    (runTo Clock.ticks limit : Attempt (Solo s TickingCounters W) UInt64) (Course.runTo limit) := by
  intro x c h hforward
  rw [Course.runTo, Attempt.on_look_bind] at hforward ⊢
  rw [runTo, Attempt.on_look_bind, h.completed]
  obtain ⟨r, x', hon, hr, hx'⟩ := tracks_iterations hcores _ h hforward
  cases r with
  | error fault => exact ⟨_, x', Attempt.on_bind_of_error hon, hr, hx'⟩
  | ok _ => exact ⟨.ok x'.runner.completed, x', Attempt.on_bind_of_ok hon, hr, hx'⟩

/-- Whatever a core is told, it goes where the course goes. -/
lemma tracks_perform (hcores : s.cores = 1) (demand : Demand) : Tracks first
    (demand.perform : Attempt (Solo s TickingCounters W) Unit) demand.ofCourse := by
  cases demand with
  | step => exact (tracks_iterate hcores).bind_pure fun _ => ()
  | runTo limit => exact (tracks_runTo hcores limit).bind_pure fun _ => ()

/-- Whatever is done later on, the runs that ended before are left alone. -/
lemma runs_prefix_inTurn (demands : List Demand) (c : Course W) :
    c.runs <+: (Attempt.inTurn (demands.map Demand.ofCourse) c).2.runs := by
  induction demands generalizing c with
  | nil => exact List.prefix_rfl
  | cons demand demands ih => exact (demand.extends_ofCourse c).trans (ih _)

/-- Whatever a core is told one after the other, it goes where the course goes, and stops half-way
where the course does. -/
lemma Follows.inTurn (h : x.Follows first c) (hcores : s.cores = 1) {demands : List Demand}
    (hforward : (Attempt.inTurn (demands.map Demand.ofCourse) c).2.IsForward) :
    (Attempt.inTurn (demands.map Demand.perform) x).1 =
        (Attempt.inTurn (demands.map Demand.ofCourse) c).1 ∧
      (Attempt.inTurn (demands.map Demand.perform) x).2.Follows first
        (Attempt.inTurn (demands.map Demand.ofCourse) c).2 := by
  induction demands generalizing x c with
  | nil => exact ⟨rfl, h⟩
  | cons demand demands ih =>
    have hlater := runs_prefix_inTurn demands (demand.ofCourse.on c).2
    obtain ⟨r, x', hon, hr, hx'⟩ := tracks_perform hcores demand h (hforward.of_extends hlater)
    obtain ⟨hanswers, hfollows⟩ := ih hx' hforward
    have hr : r = (demand.ofCourse.on c).1 := by
      rw [← hr]
      cases r with
      | error fault => rfl
      | ok _ => rfl
    simp only [List.map_cons, Attempt.inTurn, hon]
    exact ⟨congrArg₂ List.cons hr hanswers, hfollows⟩

end Tracks

/-! ### What a single demand comes to -/

section Demands

variable {s : Shape} {P W : Type} {x y z : Solo s P W} {now : Clock → UInt64} {fault : Fault}
  {record : Record}

/-- What a core keeps until its iteration ends. -/
def kept (x : Solo s P W) : Array Record × CoreId × String × Nat × Stagger × UInt64 :=
  (x.emitted, x.runner.course)

/-- What is done to the runner leaves alone what the runner keeps. -/
lemma preserves_onRunner {α : Type} {a : Attempt (Runner P W) α} (ha : a.Preserves Runner.course) :
    (onRunner a : Attempt (Solo s P W) α).Preserves kept :=
  fun x => congrArg (x.emitted, ·) (ha x.runner)

variable [Counters P] [Workload W]

/-- All of an iteration but its end, which cannot fail. -/
def measuring (now : Clock → UInt64) : Attempt (Solo s P W) Record := do
  onRunner Runner.prepare
  Attempt.change meet
  onRunner (Runner.startMeasuring now)
  onRunner Runner.runWorkload
  onRunner (Runner.stopMeasuring now)

/-- Until an iteration ends, no record is handed out and it is not counted. -/
lemma preserves_measuring : (measuring now : Attempt (Solo s P W) Record).Preserves kept := by
  have hmeet : (Attempt.change meet : Attempt (Solo s P W) Unit).Preserves kept := fun _ => rfl
  exact (preserves_onRunner Runner.preserves_prepare).bind fun _ => hmeet.bind fun _ =>
    (preserves_onRunner (Runner.preserves_startMeasuring now)).bind fun _ =>
      (preserves_onRunner Runner.preserves_runWorkload).bind fun _ =>
        preserves_onRunner (Runner.preserves_stopMeasuring now)

/-- What a record leads to: it is handed out, and its iteration is counted. -/
def closed (record : Record) (x : Solo s P W) : Solo s P W :=
  { emit record x with runner := x.runner.finish }

/-- An iteration measures, and then ends. -/
lemma iterate_eq (now : Clock → UInt64) : (iterate now : Attempt (Solo s P W) Record) =
    measuring now >>= fun record => Attempt.change (closed record) >>= fun _ => pure record := by
  simp only [iterate, measuring, bind_assoc]
  rfl

/-- An iteration that stops half-way hands no record out and is not counted. -/
lemma kept_of_stopped (h : (iterate now).on x = (.error fault, y)) :
    y.emitted = x.emitted ∧ y.runner.completed = x.runner.completed := by
  rw [iterate_eq, Attempt.on_bind] at h
  rcases hon : (measuring now).on x with ⟨fault' | record, x'⟩
  · rw [hon] at h
    obtain rfl : x' = y := congrArg Prod.snd h
    have hkept := preserves_measuring.eq_of_on hon
    exact ⟨congrArg Prod.fst hkept, Runner.completed_eq (congrArg Prod.snd hkept)⟩
  · rw [hon] at h
    cases h

/-- An iteration that ends hands its record out and is counted. -/
lemma counted_of_ended (h : (iterate now).on x = (.ok record, y)) :
    y.emitted = x.emitted.push record ∧
      y.runner.completed.toNat = x.runner.completed.toNat + 1 := by
  have hfits : x.runner.completed.toNat + 1 < UInt64.size := by
    by_contra hexhausted
    rw [iterate_of_refused (Runner.prepare_of_exhausted hexhausted)] at h
    cases h
  rw [iterate_eq] at h
  obtain ⟨record', x', hon, h⟩ := Attempt.on_bind_eq_ok h
  cases h
  have hkept := preserves_measuring.eq_of_on hon
  have hemitted : x'.emitted = x.emitted := congrArg Prod.fst hkept
  have hcompleted := Runner.completed_eq (congrArg Prod.snd hkept)
  refine ⟨congrArg (Array.push · record) hemitted, ?_⟩
  change (x'.runner.completed + 1).toNat = _
  rw [hcompleted, UInt64.toNat_add]
  exact Nat.mod_eq_of_lt hfits

/-- Iterations that end are counted. -/
lemma counted_of_iterations {n : Nat} (h : (iterations now n).on x = (.ok (), y)) :
    y.runner.completed.toNat = x.runner.completed.toNat + n := by
  induction n generalizing x with
  | zero =>
    cases h
    rfl
  | succ n ih =>
    obtain ⟨record, x', hon, h⟩ := Attempt.on_bind_eq_ok h
    rw [ih h, (counted_of_ended hon).2]
    omega

/-- Iterations that stop half-way do so in one of them, after all of those before it have ended. -/
lemma exists_of_iterations {n : Nat} (h : (iterations now n).on x = (.error fault, y)) :
    ∃ k z, k < n ∧ (iterations now k).on x = (.ok (), z) ∧
      (iterate now).on z = (.error fault, y) := by
  induction n generalizing x with
  | zero => cases h
  | succ n ih =>
    rcases hon : (iterate now).on x with ⟨fault' | record, x'⟩
    · rw [iterations, Attempt.on_bind_of_error hon] at h
      cases h
      exact ⟨0, x, Nat.succ_pos n, rfl, hon⟩
    · rw [iterations, Attempt.on_bind_of_ok hon] at h
      obtain ⟨k, z, hk, hz, hlast⟩ := ih h
      exact ⟨k + 1, z, Nat.succ_lt_succ hk, (Attempt.on_bind_of_ok hon).trans hz, hlast⟩

/-- So many iterations, and then so many more. -/
lemma iterations_add (m n : Nat) : (iterations now (m + n) : Attempt (Solo s P W) Unit) =
    iterations now m >>= fun _ => iterations now n := by
  induction m with
  | zero => rw [Nat.zero_add, iterations, pure_bind]
  | succ m ih => rw [Nat.succ_add, iterations, iterations, ih, bind_assoc]

/-- Going on until there are enough comes to as many iterations as there are too few. -/
lemma runTo_eq_ok {limit total : UInt64} :
    (runTo now limit).on x = (.ok total, y) ↔
      (iterations now (limit.toNat - x.runner.completed.toNat)).on x = (.ok (), y) ∧
        total = y.runner.completed := by
  rw [runTo, Attempt.on_look_bind]
  constructor
  · intro h
    obtain ⟨_, x', hon, h⟩ := Attempt.on_bind_eq_ok h
    cases h
    exact ⟨hon, rfl⟩
  · rintro ⟨hon, rfl⟩
    exact Attempt.on_bind_of_ok hon

/-- Going on until there are enough stops half-way where one of the iterations does. -/
lemma runTo_eq_error {limit : UInt64} (h : (runTo now limit).on x = (.error fault, y)) :
    (iterations now (limit.toNat - x.runner.completed.toNat)).on x = (.error fault, y) := by
  rw [runTo, Attempt.on_look_bind, Attempt.on_bind] at h
  rcases hon : (iterations now (limit.toNat - x.runner.completed.toNat)).on x with ⟨fault' | _, x'⟩
  · rw [hon] at h
    cases h
    rfl
  · rw [hon] at h
    cases h

/-- What a demand comes to on a core that has come however far. -/
structure Copes (x : Solo s P W) : Prop where
  /-- An iteration that stops half-way hands no record out and is not counted. -/
  stops : ∀ fault y, (iterate Clock.ticks).on x = (.error fault, y) →
    y.emitted = x.emitted ∧ y.runner.completed = x.runner.completed
  /-- An iteration that ends hands its record out and is counted. -/
  ends : ∀ record y, (iterate Clock.ticks).on x = (.ok record, y) →
    y.emitted = x.emitted.push record ∧
      y.runner.completed.toNat = x.runner.completed.toNat + 1
  /-- Iterations stop half-way in one of them, which hands no record out and is not counted, after
  those before it have ended. -/
  stopsWithin : ∀ limit fault y, (runTo Clock.ticks limit).on x = (.error fault, y) →
    ∃ n z, (iterations Clock.ticks n).on x = (.ok (), z) ∧
      x.runner.completed.toNat + n < limit.toNat ∧ (iterate Clock.ticks).on z = (.error fault, y) ∧
        y.emitted = z.emitted ∧ y.runner.completed = z.runner.completed
  /-- Iterations that end are as many as were too few. -/
  endsWith : ∀ limit total y, (runTo Clock.ticks limit).on x = (.ok total, y) →
    total = y.runner.completed ∧ total.toNat = max x.runner.completed.toNat limit.toNat
  /-- It does not matter in how many parts iterations are asked for. -/
  joins : ∀ a b total total' y z, (runTo Clock.ticks a).on x = (.ok total, y) →
    (runTo Clock.ticks b).on y = (.ok total', z) →
      (runTo Clock.ticks (max a b)).on x = (.ok total', z)

/-- Every core copes with every demand. -/
lemma copes (x : Solo s P W) : x.Copes := by
  have hends : ∀ limit total y, (runTo Clock.ticks limit).on x = (.ok total, y) →
      total = y.runner.completed ∧ total.toNat = max x.runner.completed.toNat limit.toNat := by
    intro limit total y h
    obtain ⟨hon, rfl⟩ := runTo_eq_ok.mp h
    refine ⟨rfl, ?_⟩
    rw [counted_of_iterations hon]
    omega
  refine ⟨fun _ _ => kept_of_stopped, fun _ _ => counted_of_ended, ?_, hends, ?_⟩
  · intro limit fault y h
    obtain ⟨n, z, hn, hz, hlast⟩ := exists_of_iterations (runTo_eq_error h)
    exact ⟨n, z, hz, by omega, hlast, kept_of_stopped hlast⟩
  · intro a b total total' y z ha hb
    obtain ⟨rfl, htotal⟩ := hends a total y ha
    obtain ⟨hfirst, -⟩ := runTo_eq_ok.mp ha
    obtain ⟨hsecond, rfl⟩ := runTo_eq_ok.mp hb
    have hcount : (max a b).toNat - x.runner.completed.toNat =
        (a.toNat - x.runner.completed.toNat) + (b.toNat - y.runner.completed.toNat) := by
      rw [toNat_max, htotal]
      omega
    refine runTo_eq_ok.mpr ⟨?_, rfl⟩
    rw [hcount, iterations_add, Attempt.on_bind_of_ok hfirst]
    exact hsecond

end Demands

/-! ### The records of the iterations that are over -/

variable {s : Shape} {W : Type} {x : Solo s TickingCounters W} {c : Course W}
  {first : Runner TickingCounters W}

/-- The records that were handed out are those of the iterations that are over, in their order, and
tell the runs that ended; nobody is left in a meeting. -/
structure Accounts (first : Runner TickingCounters W) (runs : List Run)
    (x : Solo s TickingCounters W) : Prop where
  size : x.emitted.size = x.runner.completed.toNat
  iterations : x.emitted.toList.map (·.iteration.toNat) = List.range' 1 x.runner.completed.toNat
  records : x.emitted.toList = runs.mapIdx first.tells
  quiescent : x.barrier.isQuiescent = true

/-- A core that has come as far as a course accounts for the runs of the course. -/
lemma Follows.accounts (h : x.Follows first c) : x.Accounts first c.runs := by
  have hlength : x.emitted.toList.length = x.runner.completed.toNat := by
    rw [h.records, List.length_mapIdx, h.completed]
  refine ⟨?_, ?_, h.records, ?_⟩
  · rw [← hlength, Array.length_toList]
  · refine List.ext_getElem (by rw [List.length_map, hlength, List.length_range']) fun i hi _ => ?_
    rw [List.length_map, hlength] at hi
    have hfits : i + 1 < UInt64.size := Nat.lt_of_le_of_lt hi x.runner.completed.toNat_lt
    simp only [List.getElem_map, h.records, List.getElem_mapIdx, Runner.tells, List.getElem_range',
      UInt64.toNat_ofNat_of_lt' hfits]
    omega
  · rw [h.barrier]
    exact Barrier.isQuiescent_idle s

/-- A core that has not done anything has come as far as a course that has not begun. -/
lemma follows_start {counters : TickingCounters} {events : List Event.Code}
    (hbracket : Bracket.ofCounters counters .unmasked events = .ok (.ok first.bracket))
    (hcompleted : first.completed = 0) :
    (start s first).Follows first ⟨first.workload, first.clock, []⟩ :=
  ⟨rfl, rfl, congrArg UInt64.toNat hcompleted, rfl, rfl, Bracket.isReady_of_ofCounters hbracket,
    rfl, rfl⟩

/-- **The records are in order although iterations stop half-way.**  A core that meets nobody, with
a bracket on counters of a simulated clock, is told what to do in any order, and its workload may
stop half-way as often as it wants.  As long as no run that ends takes the clock back, the core goes
where the workload goes by itself: it stops half-way where that does, and whatever it was told, the
records that were handed out are those of the iterations that are over, each with exactly the ticks
of its own run.  Then it copes with the next demand. -/
theorem accounts_for_runs {s : Shape} {W : Type} [Workload W] (hcores : s.cores = 1)
    {counters : TickingCounters} {events : List Event.Code} (first : Runner TickingCounters W)
    (hbracket : Bracket.ofCounters counters .unmasked events = .ok (.ok first.bracket))
    (hcompleted : first.completed = 0) (demands : List Demand)
    (hforward : (Attempt.inTurn (demands.map Demand.ofCourse)
      (⟨first.workload, first.clock, []⟩ : Course W)).2.IsForward) :
    (Attempt.inTurn (demands.map Demand.perform) (start s first)).1 =
        (Attempt.inTurn (demands.map Demand.ofCourse)
          (⟨first.workload, first.clock, []⟩ : Course W)).1 ∧
      (Attempt.inTurn (demands.map Demand.perform) (start s first)).2.Accounts first
        (Attempt.inTurn (demands.map Demand.ofCourse)
          (⟨first.workload, first.clock, []⟩ : Course W)).2.runs ∧
      (Attempt.inTurn (demands.map Demand.perform) (start s first)).2.Copes := by
  obtain ⟨hanswers, hfollows⟩ :=
    (follows_start (s := s) hbracket hcompleted).inTurn hcores hforward
  exact ⟨hanswers, hfollows.accounts, copes _⟩

end Solo

/-! ### A workload that stops half-way in every second run -/

/-- A workload that lets ticks pass in every run, and may stop half-way after that. -/
structure Flaky where
  ticks : UInt64
  /-- The next run stops half-way. -/
  stops : Bool

instance : Workload Flaky where
  name _ := "flaky"
  prepare := pure ()
  run := do
    let flaky := (← Attempt.look).1
    (Clock.advance flaky.ticks).within Prod.snd fun c s => (s.1, c)
    Attempt.change fun s => ({ flaky with stops := !flaky.stops }, s.2)
    if flaky.stops then Attempt.stop (.stopped "workload failed")

namespace Solo

/-- A core that meets nobody, with a workload that stops half-way in every second run. -/
def flaky (b : Bracket TickingCounters) : Runner TickingCounters Flaky :=
  ⟨.leader, "solo", 1, b, ⟨42, false⟩, Clock.shared, .none, Stagger.none, 0⟩

/-- Two iterations, one more, none because there is one already, and so many that there are five. -/
def demands : List Demand :=
  [.runTo 2, .step, .runTo 1, .runTo 5]

/-- What comes of these demands by the workload alone. -/
lemma inTurn_demands :
    Attempt.inTurn (demands.map Demand.ofCourse) (⟨⟨42, false⟩, Clock.shared, []⟩ : Course Flaky) =
      ([.error (.stopped "workload failed"), .ok (), .ok (), .error (.stopped "workload failed")],
        ⟨⟨42, false⟩, ⟨168, true⟩, [⟨"flaky", 0, 42⟩, ⟨"flaky", 84, 126⟩]⟩) := rfl

/-- Two iterations are over after four demands of which two have stopped half-way. -/
theorem accounts_for_flaky_runs :
    ∃ b, Bracket.ofCounters (TickingCounters.withSlots 1) .unmasked [⟨0x03⟩] = .ok (.ok b) ∧
      (Attempt.inTurn (demands.map Demand.perform) (start Shape.aloneInTurns (flaky b))).1 =
        [.error (.stopped "workload failed"), .ok (), .ok (),
          .error (.stopped "workload failed")] ∧
      (Attempt.inTurn (demands.map Demand.perform)
        (start Shape.aloneInTurns (flaky b))).2.Accounts (flaky b)
          [⟨"flaky", 0, 42⟩, ⟨"flaky", 84, 126⟩] := by
  have hevents : [(⟨0x03⟩ : Event.Code)].length ≤ (TickingCounters.withSlots 1).slots := by decide
  obtain ⟨b, hb, -⟩ := Bracket.exists_ofCounters hevents
  have hcourse : Attempt.inTurn (demands.map Demand.ofCourse)
      (⟨(flaky b).workload, (flaky b).clock, []⟩ : Course Flaky) = _ := inTurn_demands
  have hforward : (Attempt.inTurn (demands.map Demand.ofCourse)
      (⟨(flaky b).workload, (flaky b).clock, []⟩ : Course Flaky)).2.IsForward := by
    rw [hcourse]
    change ∀ run ∈ [_, _], _
    decide
  have haccounts :=
    accounts_for_runs (s := Shape.aloneInTurns) rfl (flaky b) hb rfl demands hforward
  rw [hcourse] at haccounts
  exact ⟨b, hb, haccounts.1, haccounts.2.1⟩

end Solo

end Lockstep
