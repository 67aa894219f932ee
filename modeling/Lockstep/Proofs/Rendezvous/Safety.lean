import Lockstep.Proofs.Rendezvous.Preservation

/-!
# Rounds and channels in every run

What the invariant says in the words of a meeting.  No follower is through a round before the leader
has seen all of them wait in it, and no two cores are more than one round apart.  The locks, flags
and numbers of the channels are what the places of the cores say, and between two rounds all
channels look as they did before the first one.
-/

namespace Lockstep

namespace Point

variable {n : Nat}

/-- The core is between taking and releasing the lock. -/
def HoldsLock : Point n → Prop
  | lead p => 3 ≤ p.phase
  | follow p => p = .leave

/-- The core is a follower that has done with the flags and has not counted itself yet. -/
def IsPassing : Point n → Prop
  | lead _ => False
  | follow (.enter _) => True
  | follow .leave => True
  | follow .count => True
  | follow _ => False

end Point

namespace Meeting

variable {s : Shape} {m : Meeting s} {core : Fin s.cores} {k : Fin s.channels}

/-- The core stands at a point of a round on the channel. -/
def IsAt (m : Meeting s) (core : Fin s.cores) (k : Fin s.channels) (p : Point s.cores) : Prop :=
  (m.progress core).point = some p ∧ s.channelFor ((m.progress core).rounds + 1) = k

/-- The core has entered a round on the channel. -/
def IsInside (m : Meeting s) (core : Fin s.cores) (k : Fin s.channels) : Prop :=
  ∃ p, m.IsAt core k p

/-- The core is between taking and releasing the lock of the channel. -/
def HoldsLock (m : Meeting s) (core : Fin s.cores) (k : Fin s.channels) : Prop :=
  ∃ p, m.IsAt core k p ∧ p.HoldsLock

/-- The follower has raised its flag in the given round. -/
def HasRaised (m : Meeting s) (core : Fin s.cores) (round : Nat) : Prop :=
  round ≤ (m.progress core).rounds ∨
    (round = (m.progress core).rounds + 1 ∧
      ∃ p, (m.progress core).point = some (.follow p) ∧ ∀ w, p ≠ .arrive w)

/-! ### From views to points -/

/-- A core that has come anywhere in a round has entered it. -/
lemma exists_point (h : 1 ≤ m.view.phase core) :
    ∃ p, (m.progress core).point = some p ∧ p.phase = m.view.phase core := by
  cases hpoint : (m.progress core).point with
  | none =>
    rw [view_phase_of_none hpoint] at h
    exact absurd h (by omega)
  | some p => exact ⟨p, rfl, (view_phase_of_some hpoint).symm⟩

/-- A core that has come anywhere in a round is inside of it. -/
lemma isInside_of_phase (h : 1 ≤ m.view.phase core) : m.IsInside core (m.view.channel core) := by
  obtain ⟨p, hpoint, -⟩ := exists_point h
  exact ⟨p, hpoint, rfl⟩

/-- A follower stands at points of followers. -/
lemma exists_follow (hm : m.IsValid) (hcore : core ≠ s.leader) {p : Point s.cores}
    (hpoint : (m.progress core).point = some p) : ∃ q, p = .follow q := by
  cases p with
  | lead q =>
    have hzero : core.val = s.leader.val := (hm core _ hpoint).1
    exact absurd (Fin.ext hzero) hcore
  | follow q => exact ⟨q, rfl⟩

/-- The leader stands at points of leaders. -/
lemma exists_lead (hm : m.IsValid) {p : Point s.cores}
    (hpoint : (m.progress s.leader).point = some p) : ∃ q, p = .lead q := by
  cases p with
  | lead q => exact ⟨q, rfl⟩
  | follow q => exact absurd rfl (hm s.leader _ hpoint).1

/-- A follower whose phase is past the first one has raised its flag. -/
lemma hasRaised_of_phase (hm : m.IsValid) (hcore : core ≠ s.leader) (h : 1 ≤ m.view.phase core) :
    m.HasRaised core ((m.progress core).rounds + 1) := by
  obtain ⟨p, hpoint, hphase⟩ := exists_point h
  obtain ⟨q, rfl⟩ := exists_follow hm hcore hpoint
  refine Or.inr ⟨rfl, q, hpoint, fun w hw => ?_⟩
  rw [hw] at hphase
  exact absurd hphase (by simp only [Point.phase, FollowerPoint.phase]; omega)

/-- The leader holds the lock from the third phase on, and a follower in the third phase. -/
lemma holdsLock_iff (hm : m.IsValid) :
    m.HoldsLock core k ↔
      k = m.view.channel core ∧
        if core = s.leader then 3 ≤ m.view.phase core else m.view.phase core = 3 := by
  constructor
  · rintro ⟨p, ⟨hpoint, rfl⟩, hlock⟩
    refine ⟨rfl, ?_⟩
    rw [view_phase_of_some hpoint]
    split_ifs with hcore
    · subst hcore
      obtain ⟨q, rfl⟩ := exists_lead hm hpoint
      exact hlock
    · obtain ⟨q, rfl⟩ := exists_follow hm hcore hpoint
      rw [show q = .leave from hlock]
      rfl
  · rintro ⟨rfl, hphase⟩
    split_ifs at hphase with hcore
    · subst hcore
      have hpos : 1 ≤ m.view.phase s.leader := by omega
      obtain ⟨p, hpoint, hp⟩ := exists_point hpos
      obtain ⟨q, rfl⟩ := exists_lead hm hpoint
      exact ⟨_, ⟨hpoint, rfl⟩, hphase.trans_eq hp.symm⟩
    · have hpos : 1 ≤ m.view.phase core := by omega
      obtain ⟨p, hpoint, hp⟩ := exists_point hpos
      obtain ⟨q, rfl⟩ := exists_follow hm hcore hpoint
      refine ⟨_, ⟨hpoint, rfl⟩, ?_⟩
      rw [hphase] at hp
      cases q <;> first | rfl | exact absurd hp (by simp [Point.phase, FollowerPoint.phase])

/-- A follower passes from the second phase to the fourth one. -/
lemma phase_of_isPassing {p : Point s.cores} (hpoint : (m.progress core).point = some p)
    (hp : p.IsPassing) : 2 ≤ m.view.phase core ∧ m.view.phase core ≤ 4 := by
  rw [view_phase_of_some hpoint]
  cases p with
  | lead q => exact absurd hp id
  | follow q =>
    cases q with
    | arrive | watchLeader | watchOwn | delay => exact absurd hp id
    | enter | leave | count => simp [Point.phase, FollowerPoint.phase]

/-- What holds of all elements of a vector holds at all of its places. -/
lemma forall_mem_toList_iff {α : Type} {n : Nat} (v : Vector α n) (q : α → Prop) :
    (∀ a ∈ v.toList, q a) ↔ ∀ i : Fin n, q (v.get i) := by
  constructor
  · intro h i
    exact h _ (Vector.mem_toList_iff.mpr (Vector.getElem_mem i.isLt))
  · intro h a ha
    obtain ⟨i, hi, rfl⟩ := Vector.mem_iff_getElem.mp (Vector.mem_toList_iff.mp ha)
    exact h ⟨i, hi⟩

/-- A barrier is between two rounds if all of its channels look as they did before the first one. -/
lemma isQuiescent_iff (m : Meeting s) :
    m.barrier.isQuiescent = true ↔
      ∀ k : Fin s.channels, (∀ core : Fin s.cores, (m.channel k).flag core = false) ∧
        (m.channel k).lock.isLocked = false ∧ (m.channel k).passed = s.cores - 1 := by
  rw [Barrier.isQuiescent, List.all_eq_true, forall_mem_toList_iff]
  refine forall_congr' fun k => ?_
  simp only [Channel.isQuiescent, FlagBoard.allClear, Bool.and_eq_true, List.all_eq_true,
    forall_mem_toList_iff, Bool.not_eq_true', beq_iff_eq, and_assoc]
  rfl

/-! ### Rounds -/

/-- A follower that is not through a round whose hook has run has raised its flag in it. -/
lemma raised_of_gathered {round : Nat} (hview : m.view.Sound) (hcore : core ≠ s.leader)
    (hround : round ≤ m.gathered) (hrounds : ¬ round ≤ (m.progress core).rounds) :
    round = (m.progress core).rounds + 1 ∧ 1 ≤ m.view.phase core := by
  have hstep := hview.inStep core hcore
  have hlast := hstep.le_rounds
  have hgathered : round ≤ _ := hround.trans_eq hview.gathered_eq
  have hown : ¬ round ≤ m.view.rounds core := hrounds
  change round = m.view.rounds core + 1 ∧ 1 ≤ m.view.phase core
  split_ifs at hgathered with h5
  · obtain ⟨hsame, hphase⟩ := hstep.seen (Or.inr h5)
    exact ⟨by omega, hphase⟩
  · refine ⟨by omega, ?_⟩
    by_contra h0
    have hsame := hstep.absent (by omega)
    omega

/-- **No core runs ahead.**  In every run the hook of a round runs in the leader's round of that
number; no follower is through a round whose hook has not run; when the hook of a round has run
every follower has raised its flag in that round, and so is through the one before; and no two cores
are more than one round apart. -/
theorem rounds_in_step (s : Shape) (schedule : List (Fin s.cores × Bool)) :
    let m := (idle s).follow schedule
    (∀ round, round ≤ m.gathered ↔ round ≤ (m.progress s.leader).rounds ∨
      (round = (m.progress s.leader).rounds + 1 ∧ 5 ≤ (m.progress s.leader).phase)) ∧
    (∀ core ≠ s.leader, ∀ round ≤ (m.progress core).rounds, round ≤ m.gathered) ∧
    (∀ round ≤ m.gathered, ∀ core ≠ s.leader,
      m.HasRaised core round ∧ round - 1 ≤ (m.progress core).rounds) ∧
    ∀ i j : Fin s.cores, (m.progress i).rounds ≤ (m.progress j).rounds + 1 := by
  intro m
  obtain ⟨hvalid, hview⟩ : m.Sound := (Sound.idle s).follow schedule
  clear_value m
  have hgathered : m.gathered =
      (m.progress s.leader).rounds + if 5 ≤ (m.progress s.leader).phase then 1 else 0 :=
    hview.gathered_eq
  have hle : ∀ core : Fin s.cores, (m.progress core).rounds ≤ (m.progress s.leader).rounds ∧
      (m.progress s.leader).rounds ≤ (m.progress core).rounds + 1 := by
    intro core
    by_cases hcore : core = s.leader
    · subst hcore
      omega
    · exact ⟨(hview.inStep core hcore).rounds_le, (hview.inStep core hcore).le_rounds⟩
  refine ⟨fun round => ?_, fun core _ round hround => ?_, fun round hround core hcore => ?_,
    fun i j => ?_⟩
  · rw [hgathered]
    split_ifs <;> omega
  · have hcore := (hle core).1
    rw [hgathered]
    omega
  · by_cases hrounds : round ≤ (m.progress core).rounds
    · exact ⟨Or.inl hrounds, by omega⟩
    · -- the round is the one that the follower is in, and it has raised its flag there
      obtain ⟨hnext, hphase⟩ := raised_of_gathered hview hcore hround hrounds
      rw [hnext]
      exact ⟨hasRaised_of_phase hvalid hcore hphase, by omega⟩
  · have hi := (hle i).1
    have hj := (hle j).2
    omega

/-! ### Channels -/

/-- At most one core holds a lock. -/
lemma holder_unique (hvalid : m.IsValid) (hview : m.view.Sound) {i j : Fin s.cores}
    (hi : m.HoldsLock i k) (hj : m.HoldsLock j k) : i = j := by
  obtain ⟨rfl, hlocki⟩ := (holdsLock_iff hvalid).mp hi
  obtain ⟨hsame, hlockj⟩ := (holdsLock_iff hvalid).mp hj
  by_cases hleadi : i = s.leader
  · rw [if_pos hleadi] at hlocki
    by_cases hleadj : j = s.leader
    · rw [hleadi, hleadj]
    · rw [if_neg hleadj] at hlockj
      rw [hleadi] at hsame hlocki
      exact absurd hsame.symm (hview.channel_ne_of_entered hleadj (by omega) (by omega) (by omega))
  · rw [if_neg hleadi] at hlocki
    by_cases hleadj : j = s.leader
    · rw [if_pos hleadj, hleadj] at hlockj
      rw [hleadj] at hsame
      exact absurd hsame (hview.channel_ne_of_entered hleadi (by omega) (by omega) (by omega))
    · rw [if_neg hleadj] at hlockj
      exact hview.alone i j hleadi hleadj hlocki hlockj

/-- A lock is held exactly if a core holds it. -/
lemma locked_iff_holder (hvalid : m.IsValid) (hview : m.view.Sound) :
    (m.channel k).lock.isLocked = true ↔ ∃ core, m.HoldsLock core k := by
  refine (hview.locked_iff k).trans ?_
  simp only [holdsLock_iff hvalid]
  constructor
  · rintro (⟨hk, hphase⟩ | ⟨core, hcore, hk, hphase⟩)
    · exact ⟨s.leader, hk, by rwa [if_pos rfl]⟩
    · exact ⟨core, hk, by rwa [if_neg hcore]⟩
  · rintro ⟨core, hk, hphase⟩
    split_ifs at hphase with hcore
    · subst hcore
      exact Or.inl ⟨hk, hphase⟩
    · exact Or.inr ⟨core, hcore, hk, hphase⟩

/-- When the leader goes for a lock, it is free and no follower passes. -/
lemma free_of_acquire (hvalid : m.IsValid) (hview : m.view.Sound) {a : Acquiring}
    (hacquire : m.IsAt s.leader k (.lead (.acquire a))) :
    (m.channel k).lock.isLocked = false ∧ ∀ core p, m.IsAt core k p → ¬ p.IsPassing := by
  obtain ⟨hpoint, rfl⟩ := hacquire
  have hlead : m.view.phase s.leader = 2 := view_phase_of_some hpoint
  have hnone : ∀ core p, m.IsAt core (m.view.channel s.leader) p → ¬ p.IsPassing := by
    rintro core p ⟨hp, hsame⟩ hpassing
    obtain ⟨h2, h4⟩ := phase_of_isPassing hp hpassing
    have hcore : core ≠ s.leader := by
      rintro rfl
      rw [hpoint] at hp
      obtain rfl := Option.some.inj hp
      exact hpassing
    -- a follower that passes is behind, or in the round of the leader, who has no lock yet
    have hstep := hview.inStep core hcore
    have hlast : m.view.rounds s.leader = m.view.rounds core + 1 := by
      have hle := hstep.rounds_le
      have hge := hstep.le_rounds
      by_contra hne
      rcases Nat.lt_or_ge 2 (m.view.phase core) with h | h
      · exact hne (hstep.entered h)
      · have hlock := hstep.noticed (by omega) (by omega)
        omega
    have hchannel : s.channelFor (m.view.rounds s.leader) = m.view.channel core := by
      rw [hlast]
      rfl
    exact hstep.caughtUp (by omega) (hchannel.trans hsame) ⟨hcore, by omega, by omega⟩
  refine ⟨?_, hnone⟩
  rw [← Bool.not_eq_true]
  intro hlocked
  obtain ⟨core, p, hp, hlock⟩ := (locked_iff_holder hvalid hview).mp hlocked
  by_cases hcore : core = s.leader
  · subst hcore
    rw [hp.1] at hpoint
    obtain rfl := Option.some.inj hpoint
    exact absurd hlock (by simp [Point.HoldsLock, LeaderPoint.phase])
  · obtain ⟨q, rfl⟩ := exists_follow hvalid hcore hp.1
    obtain rfl : q = .leave := hlock
    exact hnone core _ hp trivial

/-- A core whose flag is up is inside of a round on the channel. -/
lemma inside_of_flag (hview : m.view.Sound) (hflag : (m.channel k).flag core = true) :
    m.IsInside core k := by
  by_cases hcore : core = s.leader
  · subst hcore
    obtain ⟨rfl, hphase⟩ := (hview.flag_leader k).mp hflag
    exact isInside_of_phase (by omega)
  · obtain ⟨rfl, hphase, -⟩ := (hview.flag_follower k core hcore).mp hflag
    exact isInside_of_phase hphase

/-- No more than all followers are counted. -/
lemma passed_le (hview : m.view.Sound) (k : Fin s.channels) :
    (m.channel k).passed ≤ s.cores - 1 := by
  change m.view.passed k ≤ s.cores - 1
  by_cases h : m.view.phase s.leader < 2 ∨ k ≠ m.view.channel s.leader
  · have hadd := hview.passed_add k h
    omega
  · obtain ⟨hphase, hk⟩ := not_or.mp h
    rw [not_not.mp hk, hview.passed_reset (by omega)]
    exact Nat.zero_le _

/-- When all cores are outside of their rounds the barrier is between two of them. -/
lemma quiescent_of_outside (hview : m.view.Sound)
    (hnone : ∀ core : Fin s.cores, (m.progress core).point = none) :
    (∀ i j : Fin s.cores, (m.progress i).rounds = (m.progress j).rounds) ∧
      m.barrier.isQuiescent = true := by
  have hphase : ∀ core, m.view.phase core = 0 := fun core => view_phase_of_none (hnone core)
  have hrounds : ∀ core, m.view.rounds core = m.view.rounds s.leader := by
    intro core
    by_cases hcore : core = s.leader
    · rw [hcore]
    · exact (hview.inStep core hcore).absent (hphase core)
  refine ⟨fun i j => (hrounds i).trans (hrounds j).symm, ?_⟩
  rw [isQuiescent_iff]
  refine fun k => ⟨fun core => ?_, ?_, ?_⟩
  · rw [← Bool.not_eq_true]
    intro hflag
    obtain ⟨p, hp, -⟩ := inside_of_flag hview hflag
    exact Option.some_ne_none p (hp.symm.trans (hnone core))
  · rw [← Bool.not_eq_true]
    intro hlocked
    rcases (hview.locked_iff k).mp hlocked with ⟨-, h⟩ | ⟨core, -, -, h⟩
    · rw [hphase] at h
      exact absurd h (by omega)
    · rw [hphase] at h
      exact absurd h (by omega)
  · have hbehind : m.view.behind = 0 := by
      rw [View.behind_eq_zero_iff]
      intro core hcore
      exact absurd hcore.2.1 (hrounds core).not_lt
    have hadd := hview.passed_add k (Or.inl (by rw [hphase]; omega))
    rwa [hbehind, ite_self] at hadd

/-- **Channels stay consistent.**  In every run and for each channel: at most one core holds the
lock, and the lock is held exactly if one does; when the leader is about to take the lock, it is
free and no follower passes; the flag of a core is up only while the core is inside of a round on
the channel; and no more than all followers are counted.  When all cores are outside of their
rounds, all are through the same number of them and the barrier is between two rounds. -/
theorem channels_consistent (s : Shape) (schedule : List (Fin s.cores × Bool)) :
    let m := (idle s).follow schedule
    (∀ k : Fin s.channels,
      (∀ i j, m.HoldsLock i k → m.HoldsLock j k → i = j) ∧
      ((m.channel k).lock.isLocked = true ↔ ∃ core, m.HoldsLock core k) ∧
      (∀ a, m.IsAt s.leader k (.lead (.acquire a)) →
        (m.channel k).lock.isLocked = false ∧ ∀ core p, m.IsAt core k p → ¬ p.IsPassing) ∧
      (∀ core : Fin s.cores, (m.channel k).flag core = true → m.IsInside core k) ∧
      (m.channel k).passed ≤ s.cores - 1) ∧
    ((∀ core : Fin s.cores, (m.progress core).point = none) →
      (∀ i j : Fin s.cores, (m.progress i).rounds = (m.progress j).rounds) ∧
        m.barrier.isQuiescent = true) := by
  intro m
  obtain ⟨hvalid, hview⟩ : m.Sound := (Sound.idle s).follow schedule
  clear_value m
  refine ⟨fun k => ⟨fun i j hi hj => ?_, ?_, fun a hacquire => ?_, fun core hflag => ?_, ?_⟩,
    fun hnone => ?_⟩
  · exact holder_unique hvalid hview hi hj
  · exact locked_iff_holder hvalid hview
  · exact free_of_acquire hvalid hview hacquire
  · exact inside_of_flag hview hflag
  · exact passed_le hview k
  · exact quiescent_of_outside hview hnone

end Meeting

end Lockstep
