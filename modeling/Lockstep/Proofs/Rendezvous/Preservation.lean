import Lockstep.Proofs.Rendezvous.Invariant

/-!
# Moves keep the invariant

Each clause of the invariant is shown to hold after every move.  Where a clause hangs on what a core
has just seen, or on who else can stand at the lock, the case of that move is treated by itself; all
other moves leave alone what the clause speaks of.
-/

namespace Lockstep

namespace View

variable {s : Shape} {v v' : View s} {core : Fin s.cores}

/-- A flag after one flag was written. -/
lemma update_flag_apply (flag : Fin s.channels → Fin s.cores → Bool) (k k' : Fin s.channels)
    (i i' : Fin s.cores) (value : Bool) :
    Function.update flag k (Function.update (flag k) i value) k' i' =
      if k' = k ∧ i' = i then value else flag k' i' := by
  by_cases hk : k' = k
  · subst hk
    by_cases hi : i' = i
    · simp [hi]
    · simp [hi]
  · simp [hk]

/-! ### Rounds -/

/-- The leader notes a gathering in the middle of its round and ends the round later. -/
lemma gathered_eq_of_move (hv : v.Sound) (hmove : v.Move core v') :
    v'.gathered = v'.rounds s.leader + if 5 ≤ v'.phase s.leader then 1 else 0 := by
  have hgathered := hv.gathered_eq
  cases hmove <;> grind

/-- The leader turns to a follower, or has turned to all of them. -/
lemma next_of_move (hv : v.Sound) (hmove : v.Move core v') :
    (v'.phase s.leader = 4 ∨ v'.phase s.leader = 5 → 1 ≤ v'.next) ∧ v'.next ≤ s.cores := by
  have hpos := hv.next_pos
  have hle := hv.next_le
  have hcores := s.cores_pos
  cases hmove <;> grind

/-- Followers stay in step with the leader. -/
lemma inStep_of_move (hv : v.Sound) (hmove : v.Move core v') : ∀ i ≠ s.leader, v'.InStep i := by
  intro i hi
  have hpos := pos_of_ne hi
  have hstep := hv.inStep i hi
  cases hmove with
  | find hphase hpassed =>
    -- all followers are counted, so none of them is behind on this channel
    have hcaught : s.channelFor (v.rounds s.leader) = v.channel s.leader → ¬ v.IsBehind i := by
      intro hsame
      have hadd := hv.passed_add (v.channel s.leader) (Or.inl (by omega))
      rw [if_pos hsame.symm, hpassed] at hadd
      exact behind_eq_zero_iff.mp (by omega) i
    constructor <;> grind [InStep, IsSeen, channel, IsBehind]
  | see follower hphase hnext hflag =>
    -- a flag that is up was not lowered, so it belongs to this round
    have hseen : i = follower → v.rounds i = v.rounds s.leader ∧ 1 ≤ v.phase i := by
      rintro rfl
      obtain ⟨-, hup, hlowered⟩ := (hv.flag_follower _ i hi).mp hflag
      have hle := hstep.rounds_le
      have hlt : ¬ v.rounds i < v.rounds s.leader := fun h => hlowered (Or.inl h)
      exact ⟨by omega, hup⟩
    constructor <;> grind [InStep, IsSeen, channel, IsBehind]
  | notice core hcore hphase hflag =>
    have hlead : v.rounds core = v.rounds s.leader → 4 ≤ v.phase s.leader := by
      intro hrounds
      rcases hflag with h | h
      · have hup := ((hv.flag_leader _).mp h).2
        omega
      · -- its own flag is down, and the leader has lowered it in this round
        have hlowered : v.IsLowered core := by
          by_contra hnot
          have hup := (hv.flag_follower _ core hcore).mpr ⟨rfl, by omega, hnot⟩
          exact Bool.false_ne_true (h.symm.trans hup)
        rcases hlowered with h | h | h <;> omega
    constructor <;> grind [InStep, IsSeen, channel, IsBehind]
  | enter core hcore hphase hfree =>
    have hlast := hv.rounds_of_free hcore hphase hfree
    constructor <;> grind [InStep, IsSeen, channel, IsBehind]
  | _ => constructor <;> grind [InStep, IsSeen, channel, IsBehind]

/-! ### Flags -/

/-- The flag of the leader is up while it looks at flags and lowers them. -/
lemma flag_leader_of_move (hv : v.Sound) (hmove : v.Move core v') (k : Fin s.channels) :
    v'.flag k s.leader = true ↔
      k = v'.channel s.leader ∧ (v'.phase s.leader = 4 ∨ v'.phase s.leader = 5) := by
  have hflag := hv.flag_leader k
  -- the leader never turns to itself when it lowers the flags of the others
  have hpos := hv.next_pos
  have hzero : s.leader.val = 0 := rfl
  cases hmove <;> simp only [channel, Function.update_apply, update_flag_apply] <;> grind [channel]

/-- The flag of a follower is up from when it was raised until the leader lowers it. -/
lemma flag_follower_of_move (hv : v.Sound) (hmove : v.Move core v') (k : Fin s.channels)
    (i : Fin s.cores) (hi : i ≠ s.leader) :
    v'.flag k i = true ↔ k = v'.channel i ∧ 1 ≤ v'.phase i ∧ ¬ v'.IsLowered i := by
  have hpos := pos_of_ne hi
  have hlt := i.isLt
  have hflag := hv.flag_follower k i hi
  have hstep := hv.inStep i hi
  cases hmove with
  | lower follower hphase hnext =>
    -- the leader has seen all flags of its round up, and lowers one after the other
    obtain ⟨hsame, hup⟩ := hstep.seen (Or.inr hphase.ge)
    simp only [channel, IsLowered, update_flag_apply]
    grind [channel, IsLowered]
  | release hphase =>
    -- the flags of the round were lowered in it, and they are of an earlier round now
    have hlowered : v.IsLowered i := Or.inr (Or.inr hphase.ge)
    have hle := hstep.rounds_le
    simp only [channel, IsLowered, Function.update_apply]
    grind [channel]
  | arrive core hcore hphase =>
    -- the leader cannot have lowered a flag that it has not seen up
    have hfresh : i = core → ¬ v.IsLowered i := by
      rintro rfl (h | h | h)
      · have hsame := hstep.absent hphase
        omega
      · have hup := (hstep.seen (Or.inr h.1.ge)).2
        omega
      · have hup := (hstep.seen (Or.inr (by omega))).2
        omega
    simp only [channel, IsLowered, Function.update_apply, update_flag_apply]
    grind [channel, IsLowered]
  | finish core hcore hphase =>
    -- the round was over for the leader, so the flag is down already
    have hlowered : i = core → v.IsLowered i := by
      rintro rfl
      have hlast := hstep.entered (by omega)
      exact Or.inl (by omega)
    simp only [channel, IsLowered, Function.update_apply]
    grind [channel, IsLowered]
  | _ =>
    simp only [channel, IsLowered, Function.update_apply, update_flag_apply]
    grind [channel, IsLowered]

/-! ### Locks -/

/-- A lock is held exactly if some core stands between taking and releasing it. -/
lemma locked_iff_of_move (hv : v.Sound) (hmove : v.Move core v') (k : Fin s.channels) :
    v'.locked k = true ↔
      (k = v'.channel s.leader ∧ 3 ≤ v'.phase s.leader) ∨
        ∃ i ≠ s.leader, k = v'.channel i ∧ v'.phase i = 3 := by
  have hlocked := hv.locked_iff k
  cases hmove with
  | release hphase =>
    -- no follower can have taken the lock of the leader
    have hnone : ∀ i ≠ s.leader, v.phase i < 3 := fun i hi =>
      hv.phase_lt_of_seen hi (Or.inr (by omega))
    simp only [channel, Function.update_apply]
    grind [channel]
  | leave core hcore hphase =>
    have hnone : ∀ i ≠ s.leader, v.phase i = 3 → i = core := fun i hi h =>
      hv.alone i core hi hcore h hphase
    have hleader : v.channel core = v.channel s.leader → v.phase s.leader < 3 := by
      intro hsame
      by_contra h
      exact hv.channel_ne_of_entered hcore (by omega) (by omega) (by omega) hsame
    simp only [channel, Function.update_apply]
    grind [channel]
  | _ =>
    simp only [channel, Function.update_apply]
    grind [channel]

/-- No two followers hold a lock. -/
lemma alone_of_move (hv : v.Sound) (hmove : v.Move core v') (i j : Fin s.cores)
    (hi : i ≠ s.leader) (hj : j ≠ s.leader) (h3i : v'.phase i = 3) (h3j : v'.phase j = 3) :
    i = j := by
  have halone := hv.alone i j hi hj
  cases hmove with
  | enter core hcore hphase hfree =>
    have hnone : ∀ a ≠ s.leader, v.phase a ≠ 3 := by
      intro a ha h
      -- both are in the round that the leader has ended last, so they share a lock
      have hrounds : v.rounds a = v.rounds core := by
        have hcorelast := hv.rounds_of_free hcore hphase hfree
        have halast := (hv.inStep a ha).entered (by omega)
        omega
      have hlocked := hv.locked_of_follow ha h
      rw [show v.channel a = v.channel core by simp only [channel, hrounds], hfree] at hlocked
      exact Bool.false_ne_true hlocked
    simp only [Function.update_apply] at h3i h3j
    grind
  | _ =>
    simp only [Function.update_apply] at h3i h3j
    grind

/-! ### Followers that are through -/

/-- The followers that are through are counted. -/
lemma passed_of_move (hv : v.Sound) (hmove : v.Move core v') :
    (2 ≤ v'.phase s.leader → v'.passed (v'.channel s.leader) = 0) ∧
      ∀ k, v'.phase s.leader < 2 ∨ k ≠ v'.channel s.leader →
        v'.passed k + (if k = s.channelFor (v'.rounds s.leader) then v'.behind else 0) =
          s.cores - 1 := by
  have hreset := hv.passed_reset
  have hadd := hv.passed_add
  cases hmove with
  | release hphase =>
    -- all followers were in the leader's round, and all of them are behind from now on
    have hall : ∀ i ≠ s.leader, v.rounds i = v.rounds s.leader ∧ v.phase i < 3 := fun i hi =>
      ⟨((hv.inStep i hi).seen (Or.inr (by omega))).1,
        hv.phase_lt_of_seen hi (Or.inr (by omega))⟩
    have hnone : v.behind = 0 := by
      rw [behind_eq_zero_iff]
      intro i hi
      have hrounds := (hall i hi.1).1
      exact absurd hi.2.1 (by omega)
    refine ⟨by simp, fun k _ => ?_⟩
    rw [behind_of_forall]
    · simp only [channel, Function.update_apply] at *
      grind
    · intro i hi
      simp only [IsBehind, Function.update_apply]
      grind
  | count core hcore hphase =>
    have hlast := (hv.inStep core hcore).entered (by omega)
    have hbehind : v.IsBehind core := ⟨hcore, by omega, by omega⟩
    have hother : 1 ≤ v.phase s.leader → v.channel core ≠ v.channel s.leader :=
      hv.channel_ne_of_entered hcore (by omega) (by omega)
    have hless : behind { v with
        phase := Function.update v.phase core 5
        passed := Function.update v.passed (v.channel core) (v.passed (v.channel core) + 1) } + 1 =
        v.behind := by
      refine behind_succ hbehind fun i => ?_
      simp only [IsBehind, Function.update_apply]
      grind
    simp only [channel, Function.update_apply] at *
    grind
  | finish core hcore hphase =>
    have hlast := (hv.inStep core hcore).entered (by omega)
    have hsame : behind { v with
        rounds := Function.update v.rounds core (v.rounds core + 1)
        phase := Function.update v.phase core 0 } = v.behind := by
      refine behind_congr fun i => ?_
      simp only [IsBehind, Function.update_apply]
      grind
    simp only [channel, Function.update_apply] at *
    grind
  | _ =>
    rw [behind_congr (v := v) fun i => by grind [IsBehind]]
    simp only [channel, Function.update_apply] at *
    grind

/-- **Moves keep the invariant.** -/
theorem Sound.move (hv : v.Sound) (hmove : v.Move core v') : v'.Sound where
  gathered_eq := gathered_eq_of_move hv hmove
  next_pos := (next_of_move hv hmove).1
  next_le := (next_of_move hv hmove).2
  inStep := inStep_of_move hv hmove
  flag_leader := flag_leader_of_move hv hmove
  flag_follower := flag_follower_of_move hv hmove
  locked_iff := locked_iff_of_move hv hmove
  alone := alone_of_move hv hmove
  passed_reset := (passed_of_move hv hmove).1
  passed_add := (passed_of_move hv hmove).2

end View

/-! ### Runs -/

namespace Meeting

variable {s : Shape} {m : Meeting s}

/-- What holds of a meeting between two steps. -/
structure Sound (m : Meeting s) : Prop where
  valid : m.IsValid
  view : m.view.Sound

/-- Steps keep the invariant. -/
theorem Sound.step (hm : m.Sound) (core : Fin s.cores) (spurious : Bool) :
    (m.step core spurious).Sound := by
  refine ⟨isValid_step hm.valid core spurious, ?_⟩
  rcases step_cases hm.valid core spurious with h | h
  · rw [h]
    exact hm.view
  · exact hm.view.move h

/-- Runs keep the invariant. -/
theorem Sound.follow (hm : m.Sound) (schedule : List (Fin s.cores × Bool)) :
    (m.follow schedule).Sound := by
  induction schedule generalizing m with
  | nil => exact hm
  | cons turn schedule ih => exact ih (hm.step turn.1 turn.2)

/-- The invariant holds before the first round. -/
theorem Sound.idle (s : Shape) : (idle s).Sound :=
  ⟨isValid_idle s, sound_idle s⟩

end Meeting

end Lockstep
