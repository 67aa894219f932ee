import Lockstep.Proofs.Rendezvous.Moves
import Mathlib.Algebra.Order.Group.Nat

/-!
# What holds between two moves

The invariant of a meeting, `View.Sound`, says of every channel what its flags, its lock and its
number of followers are, given how far each core has come.  In its middle stands `View.InStep`,
which ties each follower to the leader:

* a follower is through as many rounds as the leader, or through one round less;
* it is through as many as long as its flag is not up, since the leader cannot have seen it;
* it can only take the lock of a round that the leader has taken the lock for;
* once the leader goes for the lock of a channel again, no follower has still to count itself there.

The last clause is what the number of followers that are through is for.  Without it a follower that
has seen the flag of one round could take the lock of the next round on the same channel.
-/

namespace Lockstep

namespace View

variable {s : Shape}

/-! ### Where a follower stands towards the leader -/

/-- The leader has seen the flag of the core up in its round. -/
def IsSeen (v : View s) (core : Fin s.cores) : Prop :=
  (v.phase s.leader = 4 ∧ core.val < v.next) ∨ 5 ≤ v.phase s.leader

/-- The leader has lowered the flag that the core has raised last. -/
def IsLowered (v : View s) (core : Fin s.cores) : Prop :=
  v.rounds core < v.rounds s.leader ∨ (v.phase s.leader = 5 ∧ core.val < v.next) ∨
    6 ≤ v.phase s.leader

/-- The core has still to count itself as through the last round of the leader. -/
def IsBehind (v : View s) (core : Fin s.cores) : Prop :=
  core ≠ s.leader ∧ v.rounds core < v.rounds s.leader ∧ v.phase core ≠ 5

instance (v : View s) : DecidablePred v.IsBehind :=
  fun _ => inferInstanceAs (Decidable (_ ∧ _ ∧ _))

/-- How many followers have still to count themselves. -/
def behind (v : View s) : Nat :=
  (Finset.univ.filter v.IsBehind).card

/-- How a follower stands towards the leader. -/
structure InStep (v : View s) (core : Fin s.cores) : Prop where
  /-- No round is over for a follower before it is over for the leader. -/
  rounds_le : v.rounds core ≤ v.rounds s.leader
  /-- No follower is more than one round behind. -/
  le_rounds : v.rounds s.leader ≤ v.rounds core + 1
  /-- The leader cannot end a round without a follower whose flag is not up. -/
  absent : v.phase core = 0 → v.rounds core = v.rounds s.leader
  /-- What the leader has seen is a flag of its own round. -/
  seen : v.IsSeen core → v.rounds core = v.rounds s.leader ∧ 1 ≤ v.phase core
  /-- A follower goes for the lock only after the leader holds it. -/
  noticed : v.phase core = 2 → v.rounds core = v.rounds s.leader → 4 ≤ v.phase s.leader
  /-- A follower gets the lock only after the round is over for the leader. -/
  entered : 3 ≤ v.phase core → v.rounds s.leader = v.rounds core + 1
  /-- Nobody is behind on a channel that the leader goes for again. -/
  caughtUp : 1 ≤ v.phase s.leader → s.channelFor (v.rounds s.leader) = v.channel s.leader →
    ¬ v.IsBehind core

/-! ### The invariant -/

/-- What holds between two moves. -/
structure Sound (v : View s) : Prop where
  /-- The leader has seen all followers in each round that is over for it, and perhaps in the one
  that it is in. -/
  gathered_eq : v.gathered = v.rounds s.leader + if 5 ≤ v.phase s.leader then 1 else 0
  next_pos : v.phase s.leader = 4 ∨ v.phase s.leader = 5 → 1 ≤ v.next
  next_le : v.next ≤ s.cores
  inStep : ∀ core ≠ s.leader, v.InStep core
  /-- The flag of the leader is up while it looks at flags and lowers them. -/
  flag_leader : ∀ k, v.flag k s.leader = true ↔
    k = v.channel s.leader ∧ (v.phase s.leader = 4 ∨ v.phase s.leader = 5)
  /-- The flag of a follower is up from when it was raised until the leader lowers it. -/
  flag_follower : ∀ k, ∀ core ≠ s.leader, v.flag k core = true ↔
    k = v.channel core ∧ 1 ≤ v.phase core ∧ ¬ v.IsLowered core
  /-- A lock is held exactly if some core stands between taking and releasing it. -/
  locked_iff : ∀ k, v.locked k = true ↔
    (k = v.channel s.leader ∧ 3 ≤ v.phase s.leader) ∨
      ∃ core ≠ s.leader, k = v.channel core ∧ v.phase core = 3
  /-- No two followers hold a lock. -/
  alone : ∀ i j, i ≠ s.leader → j ≠ s.leader → v.phase i = 3 → v.phase j = 3 → i = j
  passed_reset : 2 ≤ v.phase s.leader → v.passed (v.channel s.leader) = 0
  /-- Who is not counted on a channel is behind. -/
  passed_add : ∀ k, v.phase s.leader < 2 ∨ k ≠ v.channel s.leader →
    v.passed k + (if k = s.channelFor (v.rounds s.leader) then v.behind else 0) = s.cores - 1

/-- A follower is not the first core. -/
lemma pos_of_ne {core : Fin s.cores} (h : core ≠ s.leader) : 1 ≤ core.val := by
  rcases Nat.eq_zero_or_pos core.val with h0 | h0
  · exact absurd (Fin.ext h0) h
  · exact h0

/-- There are as many followers as cores, less one. -/
lemma card_followers (s : Shape) : (Finset.univ.erase s.leader).card = s.cores - 1 := by
  rw [Finset.card_erase_of_mem (Finset.mem_univ _), Finset.card_univ, Fintype.card_fin]

/-! ### Who is behind -/

variable {v v' : View s}

/-- None is behind exactly if no core is. -/
lemma behind_eq_zero_iff : v.behind = 0 ↔ ∀ core, ¬ v.IsBehind core := by
  simp [behind, Finset.filter_eq_empty_iff]

/-- As many are behind if the same ones are. -/
lemma behind_congr (h : ∀ core, v'.IsBehind core ↔ v.IsBehind core) : v'.behind = v.behind := by
  simp only [behind, h]

/-- All followers are behind. -/
lemma behind_of_forall (h : ∀ core ≠ s.leader, v.IsBehind core) : v.behind = s.cores - 1 := by
  have hfilter : Finset.univ.filter v.IsBehind = Finset.univ.erase s.leader := by
    ext core
    simp only [Finset.mem_filter, Finset.mem_univ, true_and, Finset.mem_erase, and_true]
    exact ⟨fun hcore => hcore.1, h core⟩
  rw [behind, hfilter, card_followers]

/-- One follower less is behind. -/
lemma behind_succ {core : Fin s.cores} (hcore : v.IsBehind core)
    (h : ∀ i, v'.IsBehind i ↔ v.IsBehind i ∧ i ≠ core) : v'.behind + 1 = v.behind := by
  have hfilter : Finset.univ.filter v'.IsBehind = (Finset.univ.filter v.IsBehind).erase core := by
    ext i
    simp only [Finset.mem_filter, Finset.mem_univ, true_and, Finset.mem_erase, h, and_comm]
  rw [behind, hfilter]
  refine Finset.card_erase_add_one ?_
  rw [Finset.mem_filter]
  exact ⟨Finset.mem_univ core, hcore⟩

/-! ### What follows from it -/

namespace Sound

variable {i j : Fin s.cores} {k : Fin s.channels}

/-- A lock is held while the leader has it. -/
lemma locked_of_lead (hv : v.Sound) (h : 3 ≤ v.phase s.leader) :
    v.locked (v.channel s.leader) = true :=
  (hv.locked_iff _).mpr (Or.inl ⟨rfl, h⟩)

/-- A lock is held while a follower has it. -/
lemma locked_of_follow (hv : v.Sound) (hi : i ≠ s.leader) (h : v.phase i = 3) :
    v.locked (v.channel i) = true :=
  (hv.locked_iff _).mpr (Or.inr ⟨i, hi, rfl, h⟩)

/-- A follower that finds the lock free is in a round that is over for the leader. -/
lemma rounds_of_free (hv : v.Sound) (hi : i ≠ s.leader) (h : v.phase i = 2)
    (hfree : v.locked (v.channel i) = false) : v.rounds s.leader = v.rounds i + 1 := by
  obtain hlt | heq := lt_or_eq_of_le (hv.inStep i hi).rounds_le
  · have hle := (hv.inStep i hi).le_rounds
    omega
  · -- in the same round the leader has the lock
    have hlead := (hv.inStep i hi).noticed h heq
    have hlocked := hv.locked_of_lead (by omega)
    rw [show v.channel s.leader = v.channel i by simp only [channel, heq], hfree] at hlocked
    exact absurd hlocked Bool.false_ne_true

/-- The leader does not hold the lock that a follower has come to. -/
lemma channel_ne_of_entered (hv : v.Sound) (hi : i ≠ s.leader) (h : 3 ≤ v.phase i)
    (h5 : v.phase i ≠ 5) (hlead : 1 ≤ v.phase s.leader) : v.channel i ≠ v.channel s.leader := by
  intro hsame
  have hlast := (hv.inStep i hi).entered h
  have hchannel : s.channelFor (v.rounds s.leader) = v.channel i := by
    rw [hlast]
    rfl
  exact (hv.inStep i hi).caughtUp hlead (hchannel.trans hsame) ⟨hi, by omega, h5⟩

/-- No follower stands at the lock while the leader lowers flags. -/
lemma phase_lt_of_seen (hv : v.Sound) (hi : i ≠ s.leader) (hseen : v.IsSeen i) :
    v.phase i < 3 := by
  by_contra h
  have hlast := (hv.inStep i hi).entered (by omega)
  have hrounds := ((hv.inStep i hi).seen hseen).1
  omega

/-- No core is ahead of one that is at the beginning of its round, and every core that is one round
behind it is past the beginning of its own. -/
lemma of_beginning (hv : v.Sound) (hi : v.phase i = 0) (j : Fin s.cores) :
    v.rounds j ≤ v.rounds i ∧ v.rounds i ≤ v.rounds j + 1 ∧
      (v.rounds j < v.rounds i → 1 ≤ v.phase j) := by
  have hlead : v.rounds i = v.rounds s.leader := by
    by_cases h : i = s.leader
    · rw [h]
    · exact (hv.inStep i h).absent hi
  rw [hlead]
  by_cases h : j = s.leader
  · subst h
    exact ⟨le_rfl, Nat.le_succ _, fun hlt => absurd hlt (lt_irrefl _)⟩
  · have hstep := hv.inStep j h
    refine ⟨hstep.rounds_le, hstep.le_rounds, fun hlt => ?_⟩
    by_contra hzero
    have hsame := hstep.absent (by omega)
    omega

end Sound

end View

/-! ### The beginning -/

namespace Meeting

variable {s : Shape}

/-- No core stands anywhere before the first round. -/
lemma isValid_idle (s : Shape) : (idle s).IsValid := by
  intro core point hpoint
  simp at hpoint

/-- What matters of a meeting before its first round. -/
lemma view_idle (s : Shape) :
    (idle s).view =
      { rounds := fun _ => 0
        phase := fun _ => 0
        next := 0
        flag := fun _ _ => false
        locked := fun _ => false
        passed := fun _ => s.cores - 1
        gathered := 0 } := by
  ext <;> simp [view, Progress.phase, Progress.next]
  · simp [Channel.idle]
  · simp [Channel.idle]
  · rfl

/-- The invariant holds before the first round. -/
theorem sound_idle (s : Shape) : (idle s).view.Sound := by
  rw [view_idle]
  have hbehind : ∀ core, ¬ View.IsBehind (s := s)
      ⟨fun _ => 0, fun _ => 0, 0, fun _ _ => false, fun _ => false, fun _ => s.cores - 1, 0⟩
      core := fun core h => absurd h.2.1 (lt_irrefl 0)
  refine ⟨by simp, by simp, Nat.zero_le _, fun core _ => ?_, by simp, by simp, by simp, by simp,
    by simp, fun k _ => ?_⟩
  · exact ⟨le_rfl, Nat.zero_le _, fun _ => rfl, by simp [View.IsSeen], by simp, by simp, by simp⟩
  · simp [View.behind_eq_zero_iff.mpr hbehind]

end Meeting

end Lockstep
