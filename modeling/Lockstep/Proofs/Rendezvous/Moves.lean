import Lockstep.Proofs.Rendezvous.View

/-!
# Steps and moves

A step of a core in a meeting either leaves the view as it is or is one of the moves of `View.Move`,
and no step leads a core to a point where it cannot be.  Both are shown point by point.
-/

namespace Lockstep

/-! ### Points after a step -/

namespace LeaderPoint

variable {n : Nat}

/-- Looking at flags goes on with the given follower. -/
lemma pollFrom_spec {follower : Nat} (h : follower ≤ n) :
    (pollFrom (n := n) follower).phase = 4 ∧ (pollFrom (n := n) follower).next = follower := by
  unfold pollFrom
  split
  · exact ⟨rfl, rfl⟩
  · exact ⟨rfl, by simp only [next]; omega⟩

/-- Lowering flags goes on with the given follower. -/
lemma lowerFrom_spec {follower : Nat} (h : follower ≤ n) :
    (lowerFrom (n := n) follower).phase = 5 ∧ (lowerFrom (n := n) follower).next = follower := by
  unfold lowerFrom
  split
  · exact ⟨rfl, rfl⟩
  · exact ⟨rfl, by simp only [next]; omega⟩

end LeaderPoint

namespace Point

variable {n : Nat}

/-- A write that begins has not landed. -/
lemma isPending_look : Writing.look.IsPending :=
  fun _ => Writing.noConfusion

/-- Where looking at flags goes on nothing is done already. -/
lemma isUnderWay_pollFrom (follower : Nat) : (lead (n := n) (.pollFrom follower)).IsUnderWay := by
  unfold LeaderPoint.pollFrom
  split <;> trivial

/-- Where lowering flags goes on nothing is done already. -/
lemma isUnderWay_lowerFrom (follower : Nat) :
    (lead (n := n) (.lowerFrom follower)).IsUnderWay := by
  unfold LeaderPoint.lowerFrom
  split <;> exact isPending_look

/-- A core enters its round at a point of its own role. -/
lemma isValid_start (core : Fin n) : (start core).IsValid core := by
  unfold start
  split
  · exact ⟨‹_›, trivial⟩
  · exact ⟨‹_›, isPending_look⟩

/-- A leader goes on to a point where nothing is done already. -/
lemma isUnderWay_of_lead_step {core : Fin n} {spurious : Bool} {c : Channel n} {p q : LeaderPoint n}
    (hp : (lead p).IsUnderWay) (hq : (p.step core spurious c).2 = some q) :
    (lead q).IsUnderWay := by
  cases p with
  | awaitPassed =>
    obtain rfl := Option.some.inj hq
    split <;> trivial
  | resetPassed =>
    obtain rfl := Option.some.inj hq
    exact Acquiring.noConfusion
  | acquire a =>
    rcases Channel.acquiring_cases c spurious hp with ⟨-, h⟩ | ⟨a', ha', h⟩
    · simp only [LeaderPoint.step, h, if_true, Option.some.injEq] at hq
      exact hq ▸ isPending_look
    · simp only [LeaderPoint.step, h, if_neg ha', Option.some.injEq] at hq
      exact hq ▸ ha'
  | raise w =>
    rcases Channel.writing_cases c core true spurious hp with ⟨failures, h⟩ | ⟨w', hw', h⟩
    · simp only [LeaderPoint.step, h, Writing.resume, Option.some.injEq] at hq
      exact hq ▸ isUnderWay_pollFrom 1
    · simp only [LeaderPoint.step, h, Writing.resume_of_isPending hw', Option.some.injEq] at hq
      exact hq ▸ hw'
  | poll follower =>
    obtain rfl := Option.some.inj hq
    exact isUnderWay_pollFrom _
  | gathered =>
    obtain rfl := Option.some.inj hq
    exact isUnderWay_lowerFrom 1
  | lower follower w =>
    rcases Channel.writing_cases c follower false spurious hp with ⟨failures, h⟩ | ⟨w', hw', h⟩
    · simp only [LeaderPoint.step, h, Writing.resume, Option.some.injEq] at hq
      exact hq ▸ isUnderWay_lowerFrom _
    · simp only [LeaderPoint.step, h, Writing.resume_of_isPending hw', Option.some.injEq] at hq
      exact hq ▸ hw'
  | lowerOwn w =>
    rcases Channel.writing_cases c core false spurious hp with ⟨failures, h⟩ | ⟨w', hw', h⟩
    · simp only [LeaderPoint.step, h, Writing.resume, Option.some.injEq] at hq
      exact hq ▸ trivial
    · simp only [LeaderPoint.step, h, Writing.resume_of_isPending hw', Option.some.injEq] at hq
      exact hq ▸ hw'
  | release => exact absurd hq (Option.some_ne_none q).symm

/-- A follower goes on to a point where nothing is done already. -/
lemma isUnderWay_of_follow_step {leader core : Fin n} {spurious : Bool} {c : Channel n}
    {p q : FollowerPoint} (hp : (follow (n := n) p).IsUnderWay)
    (hq : (p.step leader core spurious c).2 = some q) : (follow (n := n) q).IsUnderWay := by
  cases p with
  | arrive w =>
    rcases Channel.writing_cases c core true spurious hp with ⟨failures, h⟩ | ⟨w', hw', h⟩
    · simp only [FollowerPoint.step, h, Writing.resume, Option.some.injEq] at hq
      exact hq ▸ trivial
    · simp only [FollowerPoint.step, h, Writing.resume_of_isPending hw', Option.some.injEq] at hq
      exact hq ▸ hw'
  | watchLeader =>
    obtain rfl := Option.some.inj hq
    split
    · exact Acquiring.noConfusion
    · trivial
  | watchOwn =>
    obtain rfl := Option.some.inj hq
    split
    · trivial
    · exact Acquiring.noConfusion
  | enter a =>
    rcases Channel.acquiring_cases c spurious hp with ⟨-, h⟩ | ⟨a', ha', h⟩
    · simp only [FollowerPoint.step, h, if_true, Option.some.injEq] at hq
      exact hq ▸ trivial
    · simp only [FollowerPoint.step, h, if_neg ha', Option.some.injEq] at hq
      exact hq ▸ ha'
  | leave =>
    obtain rfl := Option.some.inj hq
    trivial
  | count =>
    obtain rfl := Option.some.inj hq
    trivial
  | delay => exact absurd hq (Option.some_ne_none q).symm

/-- A core goes on to a point that it can reach. -/
lemma isValid_of_step {core : Fin n} {spurious : Bool} {c : Channel n} {p q : Point n}
    (hp : p.IsValid core) (hq : (p.step core spurious c).2 = some q) : q.IsValid core := by
  cases p with
  | lead p =>
    obtain ⟨q', hq', rfl⟩ := Option.map_eq_some_iff.mp hq
    exact ⟨hp.1, isUnderWay_of_lead_step hp.2 hq'⟩
  | follow p =>
    obtain ⟨q', hq', rfl⟩ := Option.map_eq_some_iff.mp hq
    exact ⟨hp.1, isUnderWay_of_follow_step hp.2 hq'⟩

end Point

/-! ### Meetings after a step -/

namespace Meeting

variable {s : Shape} {m : Meeting s} {core : Fin s.cores} {spurious : Bool} {p q : Point s.cores}
  {c : Channel s.cores}

/-- What the channel that a core is about to use holds. -/
def own (m : Meeting s) (core : Fin s.cores) : Channel s.cores :=
  m.channel (m.view.channel core)

/-- A core enters its round. -/
lemma step_of_none (hpoint : (m.progress core).point = none) :
    m.step core spurious =
      m.setProgress core ⟨(m.progress core).rounds, some (Point.start core)⟩ := by
  simp only [step, hpoint]

/-- A core goes on in its round. -/
lemma step_of_some (hpoint : (m.progress core).point = some p)
    (hstep : p.step core spurious (m.own core) = (c, some q)) :
    m.step core spurious =
      ((m.noting p).setChannel (m.view.channel core) c).setProgress core
        ⟨(m.progress core).rounds, some q⟩ := by
  have h : p.step core spurious (m.channel (s.channelFor ((m.progress core).rounds + 1))) =
    (c, some q) := hstep
  simp only [step, hpoint, h]
  rfl

/-- A core completes its round. -/
lemma step_of_over (hpoint : (m.progress core).point = some p)
    (hstep : p.step core spurious (m.own core) = (c, none)) :
    m.step core spurious =
      ((m.noting p).setChannel (m.view.channel core) c).setProgress core
        ⟨(m.progress core).rounds + 1, none⟩ := by
  have h : p.step core spurious (m.channel (s.channelFor ((m.progress core).rounds + 1))) =
    (c, none) := hstep
  simp only [step, hpoint, h]
  rfl

/-- Where a core stands that has entered its round. -/
lemma progress_step_of_none (hpoint : (m.progress core).point = none) :
    (m.step core spurious).progress core =
      ⟨(m.progress core).rounds, some (Point.start core)⟩ := by
  rw [step_of_none hpoint, progress_setProgress_self]

/-- Where a core stands that has gone on in its round. -/
lemma progress_step_of_some (hpoint : (m.progress core).point = some p)
    (hstep : p.step core spurious (m.own core) = (c, some q)) :
    (m.step core spurious).progress core = ⟨(m.progress core).rounds, some q⟩ := by
  rw [step_of_some hpoint hstep, progress_setProgress_self]

/-- Where a core stands that has completed its round. -/
lemma progress_step_of_over (hpoint : (m.progress core).point = some p)
    (hstep : p.step core spurious (m.own core) = (c, none)) :
    (m.step core spurious).progress core = ⟨(m.progress core).rounds + 1, none⟩ := by
  rw [step_of_over hpoint hstep, progress_setProgress_self]

/-- A step of a core leaves the others where they are. -/
lemma progress_step_of_ne (m : Meeting s) {i : Fin s.cores} (hi : i ≠ core) (spurious : Bool) :
    (m.step core spurious).progress i = m.progress i := by
  cases hpoint : (m.progress core).point with
  | none => rw [step_of_none hpoint, progress_setProgress_of_ne _ _ _ hi]
  | some p =>
    rcases hstep : p.step core spurious (m.own core) with ⟨c, _ | q⟩
    · rw [step_of_over hpoint hstep, progress_setProgress_of_ne _ _ _ hi, progress_setChannel,
        progress_noting]
    · rw [step_of_some hpoint hstep, progress_setProgress_of_ne _ _ _ hi, progress_setChannel,
        progress_noting]

/-- After a step of its own a core is inside of its round, or through it. -/
lemma progress_step_cases (m : Meeting s) (core : Fin s.cores) (spurious : Bool) :
    (∃ q, (m.step core spurious).progress core = ⟨(m.progress core).rounds, some q⟩) ∨
      (m.step core spurious).progress core = ⟨(m.progress core).rounds + 1, none⟩ := by
  cases hpoint : (m.progress core).point with
  | none => exact Or.inl ⟨_, progress_step_of_none hpoint⟩
  | some p =>
    rcases hstep : p.step core spurious (m.own core) with ⟨c, _ | q⟩
    · exact Or.inr (progress_step_of_over hpoint hstep)
    · exact Or.inl ⟨q, progress_step_of_some hpoint hstep⟩

/-- No step leads a core to a point where it cannot be. -/
theorem isValid_step (hm : m.IsValid) (core : Fin s.cores) (spurious : Bool) :
    (m.step core spurious).IsValid := by
  intro i point hi
  by_cases h : i = core
  · subst h
    cases hpoint : (m.progress i).point with
    | none =>
      rw [progress_step_of_none hpoint] at hi
      obtain rfl := Option.some.inj hi
      exact Point.isValid_start i
    | some p =>
      rcases hstep : p.step i spurious (m.own i) with ⟨c, _ | q⟩
      · rw [progress_step_of_over hpoint hstep] at hi
        exact absurd hi (Option.some_ne_none point).symm
      · rw [progress_step_of_some hpoint hstep] at hi
        obtain rfl := Option.some.inj hi
        exact Point.isValid_of_step (hm i p hpoint) (by rw [hstep])
  · rw [m.progress_step_of_ne h] at hi
    exact hm i point hi

/-! ### The view after a step -/

/-- The view after a core was put somewhere else. -/
lemma view_setProgress (m : Meeting s) (core : Fin s.cores) (here : Progress s.cores) :
    (m.setProgress core here).view =
      { m.view with
        rounds := Function.update m.view.rounds core here.rounds
        phase := Function.update m.view.phase core here.phase
        next := if core = s.leader then here.next else m.view.next } := by
  ext i
  · by_cases h : i = core
    · simp [view, h]
    · simp [view, h, progress_setProgress_of_ne]
  · by_cases h : i = core
    · simp [view, h]
    · simp [view, h, progress_setProgress_of_ne]
  · by_cases h : core = s.leader
    · simp [view, h]
    · simp [view, h, progress_setProgress_of_ne _ _ _ (Ne.symm h)]
  all_goals rfl

/-- The view after a channel has changed. -/
lemma view_setChannel (m : Meeting s) (k : Fin s.channels) (c : Channel s.cores) :
    (m.setChannel k c).view =
      { m.view with
        flag := Function.update m.view.flag k c.flag
        locked := Function.update m.view.locked k c.lock.isLocked
        passed := Function.update m.view.passed k c.passed } := by
  ext i
  case flag j =>
    by_cases h : i = k
    · simp [view, h]
    · simp [view, h, channel_setChannel_of_ne]
  case locked =>
    by_cases h : i = k
    · simp [view, h]
    · simp [view, h, channel_setChannel_of_ne]
  case passed =>
    by_cases h : i = k
    · simp [view, h]
    · simp [view, h, channel_setChannel_of_ne]
  all_goals rfl

/-- The view after a step was noted. -/
lemma view_noting (m : Meeting s) (p : Point s.cores) :
    (m.noting p).view =
      { m.view with gathered := if p = .lead .gathered then m.gathered + 1 else m.gathered } :=
  rfl

/-- A core that goes on to nothing new does not show. -/
lemma view_setProgress_of_quiet {here : Progress s.cores}
    (hrounds : here.rounds = (m.progress core).rounds)
    (hphase : here.phase = (m.progress core).phase) (hnext : here.next = (m.progress core).next) :
    (m.setProgress core here).view = m.view := by
  have hleader : (if core = s.leader then here.next else m.view.next) = m.view.next := by
    split_ifs with h
    · subst h
      exact hnext
    · rfl
  rw [view_setProgress, hrounds, hphase, hleader]
  change { m.view with
    rounds := Function.update m.view.rounds core (m.view.rounds core)
    phase := Function.update m.view.phase core (m.view.phase core) } = m.view
  rw [Function.update_eq_self, Function.update_eq_self]

/-- That a core enters its round does not show. -/
lemma view_step_of_none (hpoint : (m.progress core).point = none) :
    (m.step core spurious).view = m.view := by
  have hstart : (Point.start core).phase = 0 ∧ (Point.start core).next = 0 := by
    unfold Point.start
    split <;> exact ⟨rfl, rfl⟩
  rw [step_of_none hpoint]
  refine view_setProgress_of_quiet rfl ?_ ?_
  · simp only [Progress.phase, hpoint, Option.map_some, Option.map_none, Option.getD_some,
      Option.getD_none, hstart]
  · simp only [Progress.next, hpoint, Option.map_some, Option.map_none, Option.getD_some,
      Option.getD_none, hstart]

/-- A step does not show if it leaves the channel as it is and the core where it is. -/
lemma view_step_of_quiet (hpoint : (m.progress core).point = some p)
    (hstep : p.step core spurious (m.own core) = (m.own core, some q))
    (hphase : q.phase = p.phase) (hnext : q.next = p.next) (hp : p ≠ .lead .gathered) :
    (m.step core spurious).view = m.view := by
  have hnoting : m.noting p = m := by
    rw [noting, if_neg hp]
  rw [step_of_some hpoint hstep, hnoting, own, setChannel_channel]
  refine view_setProgress_of_quiet rfl ?_ ?_
  · simp only [Progress.phase, hpoint, Option.map_some, Option.getD_some, hphase]
  · simp only [Progress.next, hpoint, Option.map_some, Option.getD_some, hnext]

/-- Flags that are put back have not changed. -/
lemma update_flag_self (core : Fin s.cores) :
    Function.update m.view.flag (m.view.channel core) (m.own core).flag = m.view.flag :=
  Function.update_eq_self _ m.view.flag

/-- A lock that is put back has not changed. -/
lemma update_locked_self (core : Fin s.cores) :
    Function.update m.view.locked (m.view.channel core) (m.own core).lock.isLocked =
      m.view.locked :=
  Function.update_eq_self _ m.view.locked

/-- A number that is put back has not changed. -/
lemma update_passed_self (core : Fin s.cores) :
    Function.update m.view.passed (m.view.channel core) (m.own core).passed = m.view.passed :=
  Function.update_eq_self _ m.view.passed

/-- A write changes one flag of one channel. -/
lemma update_flag_set (core i : Fin s.cores) (value : Bool) :
    Function.update m.view.flag (m.view.channel core) ((m.own core).setFlag i value).flag =
      Function.update m.view.flag (m.view.channel core)
        (Function.update (m.view.flag (m.view.channel core)) i value) := by
  congr 1
  ext j
  by_cases h : j = i
  · simp [h]
  · rw [Channel.flag_setFlag_of_ne _ h, Function.update_of_ne h]
    rfl

/-- The view after a step within a round. -/
lemma view_step_of_some (hpoint : (m.progress core).point = some p)
    (hstep : p.step core spurious (m.own core) = (c, some q)) :
    (m.step core spurious).view =
      { m.view with
        phase := Function.update m.view.phase core q.phase
        next := if core = s.leader then q.next else m.view.next
        flag := Function.update m.view.flag (m.view.channel core) c.flag
        locked := Function.update m.view.locked (m.view.channel core) c.lock.isLocked
        passed := Function.update m.view.passed (m.view.channel core) c.passed
        gathered := if p = .lead .gathered then m.gathered + 1 else m.gathered } := by
  rw [step_of_some hpoint hstep, view_setProgress, view_setChannel, view_noting]
  refine View.ext ?_ rfl rfl rfl rfl rfl rfl
  exact Function.update_eq_self core m.view.rounds

/-- The view after a step that ends a round. -/
lemma view_step_of_over (hpoint : (m.progress core).point = some p) (hp : p ≠ .lead .gathered)
    (hstep : p.step core spurious (m.own core) = (c, none)) :
    (m.step core spurious).view =
      { m.view with
        rounds := Function.update m.view.rounds core (m.view.rounds core + 1)
        phase := Function.update m.view.phase core 0
        next := if core = s.leader then 0 else m.view.next
        flag := Function.update m.view.flag (m.view.channel core) c.flag
        locked := Function.update m.view.locked (m.view.channel core) c.lock.isLocked
        passed := Function.update m.view.passed (m.view.channel core) c.passed } := by
  rw [step_of_over hpoint hstep, view_setProgress, view_setChannel, view_noting, if_neg hp]
  rfl

/-- The view after a step that leaves the channel as it is. -/
lemma view_step_of_still (hpoint : (m.progress core).point = some p)
    (hstep : p.step core spurious (m.own core) = (m.own core, some q)) :
    (m.step core spurious).view =
      { m.view with
        phase := Function.update m.view.phase core q.phase
        next := if core = s.leader then q.next else m.view.next
        gathered := if p = .lead .gathered then m.gathered + 1 else m.gathered } := by
  rw [view_step_of_some hpoint hstep, update_flag_self, update_locked_self, update_passed_self]

/-- The view after a write has landed. -/
lemma view_step_of_flag {i : Fin s.cores} {value : Bool} (hpoint : (m.progress core).point = some p)
    (hp : p ≠ .lead .gathered)
    (hstep : p.step core spurious (m.own core) = ((m.own core).setFlag i value, some q)) :
    (m.step core spurious).view =
      { m.view with
        phase := Function.update m.view.phase core q.phase
        next := if core = s.leader then q.next else m.view.next
        flag := Function.update m.view.flag (m.view.channel core)
          (Function.update (m.view.flag (m.view.channel core)) i value) } := by
  rw [view_step_of_some hpoint hstep, update_flag_set, Channel.lock_setFlag,
    Channel.passed_setFlag, update_locked_self, update_passed_self, if_neg hp]
  rfl

/-- The view after the lock was taken or released. -/
lemma view_step_of_lock {value : Bool} (hpoint : (m.progress core).point = some p)
    (hp : p ≠ .lead .gathered)
    (hstep : p.step core spurious (m.own core) =
      ((m.own core).setLock ⟨value⟩, some q)) :
    (m.step core spurious).view =
      { m.view with
        phase := Function.update m.view.phase core q.phase
        next := if core = s.leader then q.next else m.view.next
        locked := Function.update m.view.locked (m.view.channel core) value } := by
  rw [view_step_of_some hpoint hstep, Channel.flag_setLock, Channel.passed_setLock,
    update_flag_self, update_passed_self, if_neg hp]
  rfl

/-- The view after the followers that are through were counted anew. -/
lemma view_step_of_passed {value : Nat} (hpoint : (m.progress core).point = some p)
    (hp : p ≠ .lead .gathered)
    (hstep : p.step core spurious (m.own core) =
      ((m.own core).setPassed value, some q)) :
    (m.step core spurious).view =
      { m.view with
        phase := Function.update m.view.phase core q.phase
        next := if core = s.leader then q.next else m.view.next
        passed := Function.update m.view.passed (m.view.channel core) value } := by
  rw [view_step_of_some hpoint hstep, Channel.flag_setPassed, Channel.lock_setPassed,
    update_flag_self, update_locked_self, if_neg hp]
  rfl

/-! ### Every step is a move -/

/-- A step of a follower does not show or is a move. -/
lemma step_of_follow {p : FollowerPoint} (hpoint : (m.progress core).point = some (.follow p))
    (hcore : core ≠ s.leader) (hp : (Point.follow (n := s.cores) p).IsUnderWay) :
    (m.step core spurious).view = m.view ∨ m.view.Move core (m.step core spurious).view := by
  have hphase := view_phase_of_some hpoint
  have hlead : Point.follow p ≠ Point.lead (n := s.cores) .gathered := by simp
  cases p with
  | arrive w =>
    rcases Channel.writing_cases (m.own core) core true spurious hp with
      ⟨failures, h⟩ | ⟨w', hw', h⟩
    · refine Or.inr ?_
      rw [view_step_of_flag (q := .follow .watchLeader) hpoint hlead
        (by simp only [Point.step, FollowerPoint.step, h]; rfl), if_neg hcore]
      exact View.Move.arrive core hcore hphase
    · refine Or.inl (view_step_of_quiet (q := .follow (.arrive w')) hpoint ?_ rfl rfl hlead)
      simp only [Point.step, FollowerPoint.step, h, Writing.resume_of_isPending hw']
      rfl
  | watchLeader =>
    by_cases h : (m.own core).flag s.leader = true
    · refine Or.inr ?_
      rw [view_step_of_still (q := .follow (.enter .exchange)) hpoint
        (congrArg (fun x => (_, some (Point.follow x))) (if_pos h)), if_neg hcore, if_neg hlead]
      exact View.Move.notice core hcore hphase (Or.inl h)
    · exact Or.inl (view_step_of_quiet (q := .follow .watchOwn) hpoint
        (congrArg (fun x => (_, some (Point.follow x))) (if_neg h)) rfl rfl hlead)
  | watchOwn =>
    by_cases h : (m.own core).flag core = true
    · exact Or.inl (view_step_of_quiet (q := .follow .watchLeader) hpoint
        (congrArg (fun x => (_, some (Point.follow x))) (if_pos h)) rfl rfl hlead)
    · refine Or.inr ?_
      rw [view_step_of_still (q := .follow (.enter .exchange)) hpoint
        (congrArg (fun x => (_, some (Point.follow x))) (if_neg h)), if_neg hcore, if_neg hlead]
      exact View.Move.notice core hcore hphase (Or.inr (Bool.eq_false_iff.mpr h))
  | enter a =>
    rcases Channel.acquiring_cases (m.own core) spurious hp with
      ⟨hfree, h⟩ | ⟨a', ha', h⟩
    · refine Or.inr ?_
      rw [view_step_of_lock (q := .follow .leave) hpoint hlead
        (by simp only [Point.step, FollowerPoint.step, h]; rfl), if_neg hcore]
      exact View.Move.enter core hcore hphase hfree
    · refine Or.inl (view_step_of_quiet (q := .follow (.enter a')) hpoint ?_ rfl rfl hlead)
      simp only [Point.step, FollowerPoint.step, h, if_neg ha']
      rfl
  | leave =>
    refine Or.inr ?_
    rw [view_step_of_lock (q := .follow .count) hpoint hlead rfl, if_neg hcore]
    exact View.Move.leave core hcore hphase
  | count =>
    refine Or.inr ?_
    rw [view_step_of_passed (q := .follow .delay) hpoint hlead rfl, if_neg hcore]
    exact View.Move.count core hcore hphase
  | delay =>
    refine Or.inr ?_
    rw [view_step_of_over (c := m.own core) hpoint hlead rfl, if_neg hcore,
      update_flag_self, update_locked_self, update_passed_self]
    exact View.Move.finish core hcore hphase

/-- A step of the leader does not show or is a move. -/
lemma step_of_lead {p : LeaderPoint s.cores} (hpoint : (m.progress s.leader).point = some (.lead p))
    (hp : (Point.lead p).IsUnderWay) :
    (m.step s.leader spurious).view = m.view ∨
      m.view.Move s.leader (m.step s.leader spurious).view := by
  have hphase := view_phase_of_some hpoint
  have hnext := view_next_of_some hpoint
  cases p with
  | awaitPassed =>
    by_cases h : (m.own s.leader).passed = s.cores - 1
    · refine Or.inr ?_
      rw [view_step_of_still (q := .lead .resetPassed) hpoint
        (congrArg (fun x => (_, some (Point.lead x))) (if_pos h)), if_pos rfl, if_neg (by simp),
        show (Point.lead (n := s.cores) .resetPassed).next = m.view.next from hnext.symm]
      exact View.Move.find hphase h
    · exact Or.inl (view_step_of_quiet (q := .lead .awaitPassed) hpoint
        (congrArg (fun x => (_, some (Point.lead x))) (if_neg h)) rfl rfl (by simp))
  | resetPassed =>
    refine Or.inr ?_
    rw [view_step_of_passed (q := .lead (.acquire .exchange)) hpoint (by simp) rfl, if_pos rfl,
      show (Point.lead (n := s.cores) (.acquire .exchange)).next = m.view.next from hnext.symm]
    exact View.Move.reset hphase
  | acquire a =>
    rcases Channel.acquiring_cases (m.own s.leader) spurious hp with
      ⟨hfree, h⟩ | ⟨a', ha', h⟩
    · refine Or.inr ?_
      rw [view_step_of_lock (q := .lead (.raise .look)) hpoint (by simp)
        (by simp only [Point.step, LeaderPoint.step, h]; rfl), if_pos rfl,
        show (Point.lead (n := s.cores) (.raise .look)).next = m.view.next from hnext.symm]
      exact View.Move.lock hphase hfree
    · refine Or.inl (view_step_of_quiet (q := .lead (.acquire a')) hpoint ?_ rfl rfl (by simp))
      simp only [Point.step, LeaderPoint.step, h, if_neg ha']
      rfl
  | raise w =>
    rcases Channel.writing_cases (m.own s.leader) s.leader true spurious hp with
      ⟨failures, h⟩ | ⟨w', hw', h⟩
    · refine Or.inr ?_
      obtain ⟨hphase', hnext'⟩ := LeaderPoint.pollFrom_spec (n := s.cores) s.cores_pos
      rw [view_step_of_flag (q := .lead (.pollFrom 1)) hpoint (by simp)
        (by simp only [Point.step, LeaderPoint.step, h]; rfl), if_pos rfl]
      simp only [Point.phase, Point.next, hphase', hnext']
      exact View.Move.raise hphase
    · refine Or.inl (view_step_of_quiet (q := .lead (.raise w')) hpoint ?_ rfl rfl (by simp))
      simp only [Point.step, LeaderPoint.step, h, Writing.resume_of_isPending hw']
      rfl
  | poll follower =>
    refine Or.inr ?_
    by_cases h : (m.own s.leader).flag follower = true
    · obtain ⟨hphase', hnext'⟩ := LeaderPoint.pollFrom_spec (n := s.cores) follower.isLt
      rw [view_step_of_still (q := .lead (.pollFrom (follower + 1))) hpoint
        (congrArg (fun x => (_, some (Point.lead (.pollFrom x)))) (if_pos h)), if_pos rfl,
        if_neg (by simp)]
      simp only [Point.phase, Point.next, hphase', hnext']
      rw [show (4 : Nat) = m.view.phase s.leader from hphase.symm, Function.update_eq_self]
      exact View.Move.see follower hphase hnext h
    · obtain ⟨hphase', hnext'⟩ := LeaderPoint.pollFrom_spec (n := s.cores) s.cores_pos
      rw [view_step_of_still (q := .lead (.pollFrom 1)) hpoint
        (congrArg (fun x => (_, some (Point.lead (.pollFrom x)))) (if_neg h)), if_pos rfl,
        if_neg (by simp)]
      simp only [Point.phase, Point.next, hphase', hnext']
      rw [show (4 : Nat) = m.view.phase s.leader from hphase.symm, Function.update_eq_self]
      exact View.Move.miss follower hphase hnext (Bool.eq_false_iff.mpr h)
  | gathered =>
    refine Or.inr ?_
    obtain ⟨hphase', hnext'⟩ := LeaderPoint.lowerFrom_spec (n := s.cores) s.cores_pos
    rw [view_step_of_still (q := .lead (.lowerFrom 1)) hpoint rfl, if_pos rfl, if_pos rfl]
    simp only [Point.phase, Point.next, hphase', hnext']
    exact View.Move.gather hphase hnext
  | lower follower w =>
    rcases Channel.writing_cases (m.own s.leader) follower false spurious hp with
      ⟨failures, h⟩ | ⟨w', hw', h⟩
    · refine Or.inr ?_
      obtain ⟨hphase', hnext'⟩ := LeaderPoint.lowerFrom_spec (n := s.cores) follower.isLt
      rw [view_step_of_flag (q := .lead (.lowerFrom (follower + 1))) hpoint (by simp)
        (by simp only [Point.step, LeaderPoint.step, h]; rfl), if_pos rfl]
      simp only [Point.phase, Point.next, hphase', hnext']
      rw [show (5 : Nat) = m.view.phase s.leader from hphase.symm, Function.update_eq_self]
      exact View.Move.lower follower hphase hnext
    · refine Or.inl (view_step_of_quiet (q := .lead (.lower follower w')) hpoint ?_ rfl rfl
        (by simp))
      simp only [Point.step, LeaderPoint.step, h, Writing.resume_of_isPending hw']
      rfl
  | lowerOwn w =>
    rcases Channel.writing_cases (m.own s.leader) s.leader false spurious hp with
      ⟨failures, h⟩ | ⟨w', hw', h⟩
    · refine Or.inr ?_
      rw [view_step_of_flag (q := .lead .release) hpoint (by simp)
        (by simp only [Point.step, LeaderPoint.step, h]; rfl), if_pos rfl]
      exact View.Move.lowerOwn hphase hnext
    · refine Or.inl (view_step_of_quiet (q := .lead (.lowerOwn w')) hpoint ?_ rfl rfl (by simp))
      simp only [Point.step, LeaderPoint.step, h, Writing.resume_of_isPending hw']
      rfl
  | release =>
    refine Or.inr ?_
    rw [view_step_of_over (c := (m.own s.leader).setLock ⟨false⟩) hpoint
      (by simp) rfl, if_pos rfl, Channel.flag_setLock, Channel.passed_setLock, update_flag_self,
      update_passed_self]
    exact View.Move.release hphase

/-- **Steps are moves.**  A step of a core leaves the view as it is or is a move of the core. -/
theorem step_cases (hm : m.IsValid) (core : Fin s.cores) (spurious : Bool) :
    (m.step core spurious).view = m.view ∨ m.view.Move core (m.step core spurious).view := by
  cases hpoint : (m.progress core).point with
  | none => exact Or.inl (view_step_of_none hpoint)
  | some p =>
    obtain ⟨hsuits, hp⟩ := hm core p hpoint
    cases p with
    | lead p =>
      obtain rfl : core = s.leader := Fin.ext hsuits
      exact step_of_lead hpoint hp
    | follow p =>
      have hcore : core ≠ s.leader := fun h => hsuits (congrArg Fin.val h)
      exact step_of_follow hpoint hcore hp

end Meeting

end Lockstep
