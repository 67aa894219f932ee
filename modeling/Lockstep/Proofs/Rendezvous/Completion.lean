import Lockstep.Proofs.Rendezvous.Preservation
import Mathlib.Algebra.BigOperators.Fin
import Mathlib.Algebra.Order.BigOperators.Group.Finset
import Mathlib.Data.Prod.Lex
import Mathlib.Logic.Relation

/-!
# Every meeting can be completed

A core may have to wait: the leader for followers that are not through, for the lock or for flags,
and a follower for flags or for the lock.  As long as some core has rounds to do, though, one of
these cores need not wait.  It is, in this order,

* a follower that holds a lock;
* a follower that is behind, for its flag is down by now, and no one else holds its lock;
* a follower that does not stand at the flags or at the lock;
* or else the leader, since all followers are through the last round and have raised their flags.

A step of a core that need not wait brings the end closer.  What is left is measured by two numbers.
The first one is how far all cores are from their end; the second one counts what has to be done
again whenever another core interferes, which can only happen when that core gets closer to its end.
-/

namespace Lockstep

/-! ### Cores that need not wait -/

namespace View

variable {s : Shape} {v : View s} {core : Fin s.cores}

/-- The core need not wait for anybody. -/
structure CanMove (v : View s) (core : Fin s.cores) : Prop where
  /-- The leader waits until all followers of the last round are through. -/
  passed : core = s.leader → v.phase core = 0 → v.passed (v.channel core) = s.cores - 1
  /-- Every core waits for the lock. -/
  free : v.phase core = 2 → v.locked (v.channel core) = false
  /-- The leader waits for the flags of the followers. -/
  raised : core = s.leader → v.phase core = 4 → ∀ i : Fin s.cores, v.next = i →
    v.flag (v.channel core) i = true
  /-- A follower waits until its flag is down, if it does not see the one of the leader. -/
  lowered : core ≠ s.leader → v.phase core = 1 → v.flag (v.channel core) core = false

/-- If no follower holds a lock, the lock of the leader is free while it waits for it. -/
lemma Sound.free_of_leader (hv : v.Sound) (hnone : ∀ i ≠ s.leader, v.phase i ≠ 3)
    (hphase : v.phase s.leader = 2) : v.locked (v.channel s.leader) = false := by
  rw [← Bool.not_eq_true, hv.locked_iff]
  rintro (⟨-, h⟩ | ⟨i, hi, -, h⟩)
  · omega
  · exact hnone i hi h

/-- If no follower holds a lock, a follower that is behind need not wait. -/
lemma Sound.canMove_of_behind (hv : v.Sound) (hnone : ∀ i ≠ s.leader, v.phase i ≠ 3)
    (hbehind : v.IsBehind core) : v.CanMove core := by
  obtain ⟨hcore, hrounds, h5⟩ := hbehind
  refine ⟨fun h => absurd h hcore, fun hphase => ?_, fun h => absurd h hcore, fun _ hphase => ?_⟩
  · rw [← Bool.not_eq_true, hv.locked_iff]
    rintro (⟨hsame, h⟩ | ⟨i, hi, -, h⟩)
    · -- the leader can only hold another lock while somebody is behind
      have hlast : v.rounds s.leader = v.rounds core + 1 := by
        have hle := (hv.inStep core hcore).le_rounds
        omega
      have hchannel : s.channelFor (v.rounds s.leader) = v.channel core := by
        rw [hlast]
        rfl
      exact (hv.inStep core hcore).caughtUp (by omega) (hchannel.trans hsame) ⟨hcore, hrounds, h5⟩
    · exact hnone i hi h
  · rw [← Bool.not_eq_true, hv.flag_follower _ core hcore]
    rintro ⟨-, -, hlowered⟩
    exact hlowered (Or.inl hrounds)

/-- If all followers wait in the round of the leader, the leader need not wait. -/
lemma Sound.canMove_of_leader (hv : v.Sound) (hbehind : v.behind = 0)
    (hwait : ∀ i ≠ s.leader, v.rounds i = v.rounds s.leader ∧ (v.phase i = 1 ∨ v.phase i = 2)) :
    v.CanMove s.leader := by
  refine ⟨fun _ hphase => ?_, fun hphase => ?_, fun _ hphase i hi => ?_, fun h => absurd rfl h⟩
  · have hadd := hv.passed_add (v.channel s.leader) (Or.inl (by omega))
    rwa [hbehind, ite_self] at hadd
  · refine hv.free_of_leader (fun i hi h => ?_) hphase
    have hphasei := (hwait i hi).2
    omega
  · have hne : i ≠ s.leader := by
      rintro rfl
      have hpos := hv.next_pos (Or.inl hphase)
      rw [hi] at hpos
      exact absurd hpos (by simp [Shape.leader])
    obtain ⟨hrounds, hphasei⟩ := hwait i hne
    rw [hv.flag_follower _ i hne]
    refine ⟨by simp only [channel, hrounds], by omega, ?_⟩
    rintro (h | h | h) <;> omega

/-- **Some core need not wait** as long as there are rounds to do. -/
theorem Sound.exists_canMove (hv : v.Sound) {limit : Nat} (hle : ∀ i, v.rounds i ≤ limit)
    (hlt : ∃ i, v.rounds i < limit) : ∃ i, v.rounds i < limit ∧ v.CanMove i := by
  have hlead := hle s.leader
  by_cases hholds : ∃ i ≠ s.leader, v.phase i = 3
  · obtain ⟨i, hi, hphase⟩ := hholds
    have hlast := (hv.inStep i hi).entered (by omega)
    refine ⟨i, by omega, fun h => absurd h hi, ?_, fun h => absurd h hi, ?_⟩
    · omega
    · omega
  simp only [not_exists, not_and] at hholds
  by_cases hbehind : ∃ i, v.IsBehind i
  · obtain ⟨i, hi⟩ := hbehind
    have hrounds := hi.2.1
    exact ⟨i, by omega, hv.canMove_of_behind hholds hi⟩
  simp only [not_exists] at hbehind
  by_cases hfar : ∃ i ≠ s.leader, v.rounds i < limit ∧ v.phase i ≠ 1 ∧ v.phase i ≠ 2
  · obtain ⟨i, hi, hrounds, h1, h2⟩ := hfar
    exact ⟨i, hrounds, fun h => absurd h hi, fun h => absurd h h2, fun h => absurd h hi,
      fun _ h => absurd h h1⟩
  simp only [not_exists, not_and, not_not] at hfar
  -- all followers with rounds to do wait, and they are in the round of the leader
  have hwait : ∀ i ≠ s.leader, v.rounds i < limit →
      v.rounds i = v.rounds s.leader ∧ (v.phase i = 1 ∨ v.phase i = 2) := by
    intro i hi hrounds
    have hphase : v.phase i = 1 ∨ v.phase i = 2 := by
      by_cases h1 : v.phase i = 1
      · exact Or.inl h1
      · exact Or.inr (hfar i hi hrounds h1)
    have hnot : ¬ v.rounds i < v.rounds s.leader := fun h => hbehind i ⟨hi, h, by omega⟩
    have hrle := (hv.inStep i hi).rounds_le
    exact ⟨by omega, hphase⟩
  have hleader : v.rounds s.leader < limit := by
    obtain ⟨i, hi⟩ := hlt
    by_cases h : i = s.leader
    · exact h ▸ hi
    · have hsame := (hwait i h hi).1
      omega
  refine ⟨s.leader, hleader, hv.canMove_of_leader (behind_eq_zero_iff.mpr hbehind) ?_⟩
  intro i hi
  have hrle := (hv.inStep i hi).rounds_le
  exact hwait i hi (by omega)

end View

/-! ### How far a core is from its end -/

/-- The accesses that the write still takes if nobody interferes. -/
def Writing.accesses (flag : Bool) : Writing → Nat
  | look => 2
  | exchange seen _ => if seen = flag then 1 else 2
  | landed _ => 0

/-- The accesses that the acquisition still takes once the lock is free. -/
def Acquiring.accesses : Acquiring → Nat
  | watch => 2
  | exchange => 1
  | held => 0

namespace LeaderPoint

variable {n : Nat}

/-- How far the leader is from the end of its round. -/
def distance : LeaderPoint n → Nat
  | awaitPassed => n + 7
  | resetPassed => n + 6
  | acquire _ => n + 5
  | raise _ => n + 4
  | poll _ => n + 3
  | gathered => n + 2
  | lower follower _ => n - follower + 1
  | lowerOwn _ => 1
  | release => 0

/-- What the leader has to do again when another core interferes. -/
def detail (leader : Fin n) (c : Channel n) : LeaderPoint n → Nat
  | acquire a => a.accesses
  | raise w => w.accesses (c.flag leader)
  | poll follower => n - follower
  | lower follower w => w.accesses (c.flag follower)
  | lowerOwn w => w.accesses (c.flag leader)
  | _ => 0

end LeaderPoint

namespace FollowerPoint

/-- How far a follower is from the end of its round. -/
def distance : FollowerPoint → Nat
  | arrive _ => 6
  | watchLeader => 5
  | watchOwn => 5
  | enter _ => 4
  | leave => 3
  | count => 2
  | delay => 1

/-- What a follower has to do again when another core interferes. -/
def detail {n : Nat} (follower : Fin n) (c : Channel n) : FollowerPoint → Nat
  | arrive w => w.accesses (c.flag follower)
  | watchLeader => 2
  | watchOwn => 1
  | enter a => a.accesses
  | _ => 0

end FollowerPoint

namespace Point

variable {n : Nat}

/-- How far a core is from the end of its round. -/
def distance : Point n → Nat
  | lead p => p.distance
  | follow p => p.distance

/-- What a core has to do again when another core interferes. -/
def detail (core : Fin n) (c : Channel n) : Point n → Nat
  | lead p => p.detail core c
  | follow p => p.detail core c

/-- What a step of a core that need not wait leads to. -/
inductive Closer (core : Fin n) (c : Channel n) (p : Point n) :
    Channel n × Option (Point n) → Prop where
  /-- The round is over for the core. -/
  | ended (c' : Channel n) : Closer core c p (c', none)
  /-- The core comes closer to the end of its round. -/
  | nearer (c' : Channel n) (q : Point n) (hdistance : q.distance < p.distance) :
      Closer core c p (c', some q)
  /-- The core has less to do for that, and does not interfere with others. -/
  | still (q : Point n) (hdistance : q.distance = p.distance)
      (hdetail : q.detail core c < p.detail core c) : Closer core c p (c, some q)

end Point

/-- How far a core is from the end of its rounds. -/
def Progress.remaining {n : Nat} (limit : Nat) (p : Progress n) : Nat :=
  (limit - p.rounds) * (n + 9) + p.point.elim (n + 8) Point.distance

/-! ### A core that need not wait comes closer to its end -/

/-- A write that does not land comes closer to its end if its exchanges fail only for a reason. -/
lemma Writing.accesses_step {w : Writing} {value flag : Bool} (hw : w.IsPending)
    (hnext : (w.step value false flag).2.IsPending) :
    (w.step value false flag).2.accesses flag < w.accesses flag := by
  cases w with
  | look => simp [step, accesses]
  | exchange seen failures =>
    by_cases h : flag = seen
    · rw [step, if_pos ⟨h, rfl⟩] at hnext
      exact absurd rfl (hnext failures)
    · rw [step, if_neg (fun hboth => h hboth.1)]
      simp [accesses, Ne.symm h]
  | landed failures => exact absurd rfl (hw failures)

/-- An acquisition that does not get a free lock comes closer to its end if its exchanges fail only
for a reason. -/
lemma Acquiring.accesses_step {a : Acquiring} {lock : RoundLock} (hfree : lock.isLocked = false)
    (ha : a ≠ held) (hnext : (a.step false lock).2 ≠ held) :
    (a.step false lock).2.accesses < a.accesses := by
  cases a with
  | exchange => exact absurd (congrArg Prod.snd (if_pos ⟨hfree, rfl⟩)) hnext
  | watch => simp [step, hfree, accesses]
  | held => exact absurd rfl ha

namespace Channel

variable {n : Nat} {c : Channel n} {core : Fin n}

/-- A write lands or comes closer to its end. -/
lemma writing_closer (c : Channel n) (core : Fin n) (value : Bool) {w : Writing}
    (hw : w.IsPending) :
    (∃ failures, c.writing core value false w =
        (c.setFlag core value, .landed failures)) ∨
      ∃ w' : Writing, w'.IsPending ∧ c.writing core value false w = (c, w') ∧
        w'.accesses (c.flag core) < w.accesses (c.flag core) := by
  rcases c.writing_cases core value false hw with h | ⟨w', hw', h⟩
  · exact Or.inl h
  · have hsnd : (w.step value false (c.flag core)).2 = w' := congrArg Prod.snd h
    subst hsnd
    exact Or.inr ⟨_, hw', h, Writing.accesses_step hw hw'⟩

/-- The acquisition of a free lock succeeds or comes closer to its end. -/
lemma acquiring_closer {a : Acquiring} (hfree : c.lock.isLocked = false) (ha : a ≠ .held) :
    c.acquiring false a = (c.setLock ⟨true⟩, .held) ∨
      ∃ a' : Acquiring, a' ≠ .held ∧ c.acquiring false a = (c, a') ∧
        a'.accesses < a.accesses := by
  rcases c.acquiring_cases false ha with ⟨-, h⟩ | ⟨a', ha', h⟩
  · exact Or.inl h
  · have hsnd : (a.step false c.lock).2 = a' := congrArg Prod.snd h
    subst hsnd
    exact Or.inr ⟨_, ha', h, Acquiring.accesses_step hfree ha ha'⟩

end Channel

namespace Point

variable {n : Nat} {c : Channel n} {core : Fin n}

/-- From where the leader looks at flags. -/
lemma distance_pollFrom (follower : Nat) :
    (LeaderPoint.pollFrom (n := n) follower).distance ≤ n + 3 := by
  unfold LeaderPoint.pollFrom
  split
  · exact le_rfl
  · exact Nat.le_succ _

/-- From where the leader lowers flags. -/
lemma distance_lowerFrom (follower : Nat) :
    (LeaderPoint.lowerFrom (n := n) follower).distance ≤ n - follower + 1 := by
  unfold LeaderPoint.lowerFrom
  split
  · exact le_rfl
  · exact Nat.le_add_left _ _

/-- A leader that need not wait ends its round or comes closer to its end. -/
lemma closer_of_lead {p : LeaderPoint n} (hp : (lead p).IsUnderWay)
    (hpassed : p.phase = 0 → c.passed = n - 1) (hfree : p.phase = 2 → c.lock.isLocked = false)
    (hraised : p.phase = 4 → ∀ i : Fin n, p.next = i → c.flag i = true) :
    Closer core c (lead p) ((lead p).step core false c) := by
  simp only [step]
  cases p with
  | awaitPassed =>
    simp only [LeaderPoint.step, if_pos (hpassed rfl)]
    exact Closer.nearer _ _ (Nat.lt_succ_self _)
  | resetPassed => exact Closer.nearer _ _ (Nat.lt_succ_self _)
  | acquire a =>
    rcases Channel.acquiring_closer (hfree rfl) hp with h | ⟨a', ha', h, hless⟩
    · simp only [LeaderPoint.step, h, if_true]
      exact Closer.nearer _ _ (Nat.lt_succ_self _)
    · simp only [LeaderPoint.step, h, if_neg ha']
      exact Closer.still _ rfl hless
  | raise w =>
    rcases c.writing_closer core true hp with ⟨failures, h⟩ | ⟨w', hw', h, hless⟩
    · simp only [LeaderPoint.step, h]
      exact Closer.nearer _ _ (Nat.lt_succ_of_le (distance_pollFrom 1))
    · simp only [LeaderPoint.step, h, Writing.resume_of_isPending hw']
      exact Closer.still _ rfl hless
  | poll follower =>
    simp only [LeaderPoint.step, if_pos (hraised rfl follower rfl)]
    by_cases hlt : follower.val + 1 < n
    · rw [LeaderPoint.pollFrom, dif_pos hlt]
      exact Closer.still _ rfl (Nat.sub_succ_lt_self _ _ follower.isLt)
    · rw [LeaderPoint.pollFrom, dif_neg hlt]
      exact Closer.nearer _ _ (Nat.lt_succ_self _)
  | gathered =>
    have hle := distance_lowerFrom (n := n) 1
    refine Closer.nearer _ _ (hle.trans_lt ?_)
    simp only [distance, LeaderPoint.distance]
    omega
  | lower follower w =>
    rcases c.writing_closer follower false hp with ⟨failures, h⟩ | ⟨w', hw', h, hless⟩
    · have hle := distance_lowerFrom (n := n) (follower + 1)
      simp only [LeaderPoint.step, h]
      refine Closer.nearer _ _ (hle.trans_lt ?_)
      simp only [distance, LeaderPoint.distance]
      omega
    · simp only [LeaderPoint.step, h, Writing.resume_of_isPending hw']
      exact Closer.still _ rfl hless
  | lowerOwn w =>
    rcases c.writing_closer core false hp with ⟨failures, h⟩ | ⟨w', hw', h, hless⟩
    · simp only [LeaderPoint.step, h]
      exact Closer.nearer _ _ Nat.zero_lt_one
    · simp only [LeaderPoint.step, h, Writing.resume_of_isPending hw']
      exact Closer.still _ rfl hless
  | release => exact Closer.ended _

/-- A follower that need not wait ends its round or comes closer to its end. -/
lemma closer_of_follow {p : FollowerPoint} (hp : (follow (n := n) p).IsUnderWay)
    (hfree : p.phase = 2 → c.lock.isLocked = false)
    (hlowered : p.phase = 1 → c.flag core = false) :
    Closer core c (follow p) ((follow p).step core false c) := by
  simp only [step]
  cases p with
  | arrive w =>
    rcases c.writing_closer core true hp with ⟨failures, h⟩ | ⟨w', hw', h, hless⟩
    · simp only [FollowerPoint.step, h]
      exact Closer.nearer _ _ (Nat.lt_succ_self _)
    · simp only [FollowerPoint.step, h, Writing.resume_of_isPending hw']
      exact Closer.still _ rfl hless
  | watchLeader =>
    simp only [FollowerPoint.step]
    split_ifs
    · exact Closer.nearer _ _ (Nat.lt_succ_self _)
    · exact Closer.still _ rfl (Nat.lt_succ_self _)
  | watchOwn =>
    simp only [FollowerPoint.step, hlowered rfl]
    exact Closer.nearer _ _ (Nat.lt_succ_self _)
  | enter a =>
    rcases Channel.acquiring_closer (hfree rfl) hp with h | ⟨a', ha', h, hless⟩
    · simp only [FollowerPoint.step, h, if_true]
      exact Closer.nearer _ _ (Nat.lt_succ_self _)
    · simp only [FollowerPoint.step, h, if_neg ha']
      exact Closer.still _ rfl hless
  | leave => exact Closer.nearer _ _ (Nat.lt_succ_self _)
  | count => exact Closer.nearer _ _ (Nat.lt_succ_self _)
  | delay => exact Closer.ended _

end Point

/-! ### How far a meeting is from its end -/

namespace Meeting

variable {s : Shape} {m m' : Meeting s} {core : Fin s.cores} {limit : Nat}

/-- What a core has to do again when another core interferes. -/
def detail (m : Meeting s) (core : Fin s.cores) : Nat :=
  (m.progress core).point.elim 0 (Point.detail core (m.own core))

/-- How far all cores are from the end of their rounds, and then what they have to do again when
another core interferes. -/
def weight (limit : Nat) (m : Meeting s) : Nat ×ₗ Nat :=
  toLex (∑ core : Fin s.cores, (m.progress core).remaining limit, ∑ core, m.detail core)

/-- The end is closer if it is closer for one core, and the other cores are where they were. -/
lemma weight_lt_of_remaining (hother : ∀ i ≠ core, m'.progress i = m.progress i)
    (hless : (m'.progress core).remaining limit < (m.progress core).remaining limit) :
    m'.weight limit < m.weight limit := by
  refine Prod.Lex.toLex_lt_toLex.mpr (Or.inl ?_)
  refine Finset.sum_lt_sum (fun i _ => ?_) ⟨core, Finset.mem_univ core, hless⟩
  by_cases hi : i = core
  · exact hi ▸ hless.le
  · rw [hother i hi]

/-- A core in the same round finds the same on its channel if no channel has changed. -/
lemma own_congr (hchannel : m'.channel = m.channel)
    (hrounds : (m'.progress core).rounds = (m.progress core).rounds) :
    m'.own core = m.own core := by
  simp only [own, view, View.channel, hchannel, hrounds]

/-- The end is closer if one core has less to do and does not interfere with others. -/
lemma weight_lt_of_detail (hother : ∀ i ≠ core, m'.progress i = m.progress i)
    (hchannel : m'.channel = m.channel)
    (hsame : (m'.progress core).remaining limit = (m.progress core).remaining limit)
    (hless : m'.detail core < m.detail core) : m'.weight limit < m.weight limit := by
  refine Prod.Lex.toLex_lt_toLex.mpr (Or.inr ⟨?_, ?_⟩)
  · change ∑ i : Fin s.cores, (m'.progress i).remaining limit = ∑ i : Fin s.cores, _
    refine Finset.sum_congr rfl fun i _ => ?_
    by_cases hi : i = core
    · rw [hi, hsame]
    · rw [hother i hi]
  · refine Finset.sum_lt_sum (fun i _ => ?_) ⟨core, Finset.mem_univ core, hless⟩
    by_cases hi : i = core
    · exact hi ▸ hless.le
    · rw [detail, detail, own_congr hchannel (by rw [hother i hi]), hother i hi]

/-- A core is farther from the end of a round that it has not entered than where it enters it. -/
lemma distance_start (core : Fin s.cores) : (Point.start core).distance < s.cores + 8 := by
  unfold Point.start
  split
  · exact Nat.lt_succ_self _
  · simp only [Point.distance, FollowerPoint.distance]
    omega

/-- A core that need not wait is at a point from which it comes closer to its end. -/
lemma closer_of_canMove (hvalid : m.IsValid) (hcan : m.view.CanMove core) {p : Point s.cores}
    (hpoint : (m.progress core).point = some p) :
    Point.Closer core (m.own core) p
      (p.step core false (m.own core)) := by
  have hphase := view_phase_of_some hpoint
  obtain ⟨hsuits, hp⟩ := hvalid core p hpoint
  cases p with
  | lead p =>
    obtain rfl : core = s.leader := Fin.ext hsuits
    refine Point.closer_of_lead hp (fun h => ?_) (fun h => ?_) fun h i hi => ?_
    · exact hcan.passed rfl (hphase.trans h)
    · exact hcan.free (hphase.trans h)
    · exact hcan.raised rfl (hphase.trans h) i ((view_next_of_some hpoint).trans hi)
  | follow p =>
    have hcore : core ≠ s.leader := fun h => hsuits (congrArg Fin.val h)
    refine Point.closer_of_follow hp (fun h => ?_) fun h => ?_
    · exact hcan.free (hphase.trans h)
    · exact hcan.lowered hcore (hphase.trans h)

/-- A step of a core that need not wait brings the end closer. -/
theorem weight_step_lt (hvalid : m.IsValid) (hrounds : (m.progress core).rounds < limit)
    (hcan : m.view.CanMove core) : (m.step core false).weight limit < m.weight limit := by
  have hother : ∀ i ≠ core, (m.step core false).progress i = m.progress i := fun i hi =>
    m.progress_step_of_ne hi false
  cases hpoint : (m.progress core).point with
  | none =>
    refine weight_lt_of_remaining hother ?_
    have hstart := distance_start core
    rw [progress_step_of_none hpoint]
    simp only [Progress.remaining, hpoint, Option.elim_some, Option.elim_none]
    omega
  | some p =>
    have hcloser := closer_of_canMove hvalid hcan hpoint
    generalize hstep : p.step core false (m.own core) = r at hcloser
    cases hcloser with
    | ended c =>
      refine weight_lt_of_remaining hother ?_
      obtain ⟨left, hleft⟩ : ∃ left, limit - (m.progress core).rounds = left + 1 :=
        Nat.exists_eq_add_of_lt (Nat.sub_pos_of_lt hrounds) |>.imp fun _ h => by omega
      rw [progress_step_of_over hpoint hstep]
      simp only [Progress.remaining, hpoint, Option.elim_some, Option.elim_none, hleft,
        Nat.sub_add_eq, Nat.add_sub_cancel, Nat.succ_mul]
      omega
    | nearer c q hdistance =>
      refine weight_lt_of_remaining hother ?_
      rw [progress_step_of_some hpoint hstep]
      simp only [Progress.remaining, hpoint, Option.elim_some]
      omega
    | still q hdistance hdetail =>
      have hself := progress_step_of_some hpoint hstep
      have hchannel : (m.step core false).channel = m.channel := by
        rw [step_of_some hpoint hstep, own, ← channel_noting m _ p, setChannel_channel]
        rfl
      refine weight_lt_of_detail hother hchannel ?_ ?_
      · rw [hself]
        simp only [Progress.remaining, hpoint, Option.elim_some, hdistance]
      · rw [detail, detail, own_congr hchannel (by rw [hself]), hself, hpoint]
        exact hdetail

/-- As long as there are rounds to do, some core that has rounds to do can bring the end closer. -/
theorem Sound.exists_weight_lt (hm : m.Sound)
    (hle : ∀ i : Fin s.cores, (m.progress i).rounds ≤ limit)
    (hlt : ∃ i : Fin s.cores, (m.progress i).rounds < limit) :
    ∃ i : Fin s.cores, (m.progress i).rounds < limit ∧
      (m.step i false).weight limit < m.weight limit := by
  obtain ⟨i, hi, hcan⟩ := hm.view.exists_canMove hle hlt
  exact ⟨i, hi, weight_step_lt hm.valid hi hcan⟩

/-! ### Meetings of a number of rounds -/

/-- What holds of a meeting in which every core does only so many rounds. -/
structure Within (limit : Nat) (m : Meeting s) : Prop where
  sound : m.Sound
  /-- No core does more rounds. -/
  rounds_le : ∀ core : Fin s.cores, (m.progress core).rounds ≤ limit
  /-- A core that is through all rounds does not enter another one. -/
  outside : ∀ core : Fin s.cores, (m.progress core).rounds = limit → (m.progress core).point = none

/-- No core has done anything before the first round. -/
lemma Within.idle (limit : Nat) (s : Shape) : Within limit (idle s) := by
  refine ⟨Sound.idle s, fun core => ?_, fun core _ => ?_⟩
  · simp
  · simp

/-- A step of a core that has rounds to do keeps the meeting within its limit. -/
lemma Within.step (hm : m.Within limit) (hrounds : (m.progress core).rounds < limit)
    (spurious : Bool) : (m.step core spurious).Within limit := by
  have hself : ((m.step core spurious).progress core).rounds ≤ limit ∧
      (((m.step core spurious).progress core).rounds = limit →
        ((m.step core spurious).progress core).point = none) := by
    cases hpoint : (m.progress core).point with
    | none =>
      rw [progress_step_of_none hpoint]
      exact ⟨hrounds.le, fun h => absurd h hrounds.ne⟩
    | some p =>
      rcases hstep : p.step core spurious (m.own core) with ⟨c, _ | q⟩
      · rw [progress_step_of_over hpoint hstep]
        exact ⟨hrounds, fun _ => rfl⟩
      · rw [progress_step_of_some hpoint hstep]
        exact ⟨hrounds.le, fun h => absurd h hrounds.ne⟩
  refine ⟨hm.sound.step core spurious, fun i => ?_, fun i hi => ?_⟩
  · by_cases h : i = core
    · exact h ▸ hself.1
    · rw [m.progress_step_of_ne h]
      exact hm.rounds_le i
  · by_cases h : i = core
    · subst h
      exact hself.2 hi
    · rw [m.progress_step_of_ne h] at hi ⊢
      exact hm.outside i hi

/-- A meeting within its limit can be completed. -/
theorem Within.exists_completion (hm : m.Within limit) :
    ∃ m', Relation.ReflTransGen (Step limit) m m' ∧
      ∀ core : Fin s.cores, m'.progress core = ⟨limit, none⟩ := by
  induction hweight : m.weight limit using WellFoundedLT.induction generalizing m with
  | ind w ih =>
    by_cases hover : ∃ core : Fin s.cores, (m.progress core).rounds < limit
    · obtain ⟨core, hrounds, hless⟩ := hm.sound.exists_weight_lt hm.rounds_le hover
      obtain ⟨m', hrun, hdone⟩ := ih _ (hweight ▸ hless) (hm.step hrounds false) rfl
      exact ⟨m', Relation.ReflTransGen.head (Step.mk m core false hrounds) hrun, hdone⟩
    · refine ⟨m, Relation.ReflTransGen.refl, fun core => ?_⟩
      have hrounds : (m.progress core).rounds = limit := by
        refine le_antisymm (hm.rounds_le core) (Nat.le_of_not_lt fun h => hover ⟨core, h⟩)
      have hpoint := hm.outside core hrounds
      generalize m.progress core = p at hrounds hpoint ⊢
      cases p
      simp_all

/-- Runs of a number of rounds stay within their limit. -/
theorem within_of_run (hrun : Relation.ReflTransGen (Step limit) (idle s) m) :
    m.Within limit := by
  induction hrun with
  | refl => exact Within.idle limit s
  | tail _ hstep ih =>
    cases hstep with
    | mk core spurious hrounds => exact ih.step hrounds spurious

/-- **No deadlock.**  Every state that a meeting of a number of rounds can get into can be continued
until every core has returned from all of its rounds. -/
theorem can_be_completed {s : Shape} {limit : Nat} {m : Meeting s}
    (hrun : Relation.ReflTransGen (Step limit) (idle s) m) :
    ∃ m', Relation.ReflTransGen (Step limit) m m' ∧
      ∀ core : Fin s.cores, m'.progress core = ⟨limit, none⟩ :=
  (within_of_run hrun).exists_completion

/-! ### A follower that sleeps through a round -/

/-- All turns are taken by cores that have rounds to do. -/
def Permits (limit : Nat) : Meeting s → List (Fin s.cores × Bool) → Prop
  | _, [] => True
  | m, (core, spurious) :: schedule =>
    (m.progress core).rounds < limit ∧ Permits limit (m.step core spurious) schedule

instance decidablePermits (limit : Nat) :
    ∀ (m : Meeting s) (schedule : List (Fin s.cores × Bool)), Decidable (m.Permits limit schedule)
  | _, [] => inferInstanceAs (Decidable True)
  | m, (core, spurious) :: schedule =>
    have := decidablePermits limit (m.step core spurious) schedule
    inferInstanceAs (Decidable (_ ∧ _))

/-- Such turns make a run. -/
lemma Permits.run {schedule : List (Fin s.cores × Bool)} (h : m.Permits limit schedule) :
    Relation.ReflTransGen (Step limit) m (m.follow schedule) := by
  induction schedule generalizing m with
  | nil => exact Relation.ReflTransGen.refl
  | cons turn schedule ih =>
    exact Relation.ReflTransGen.head (Step.mk m turn.1 turn.2 h.1) (ih h.2)

/-- Two cores that meet on one channel. -/
def pair : Shape :=
  ⟨2, 1, by decide, by decide, by decide, by decide⟩

/-- The follower raises its flag, and the leader does its whole first round and enters the next one
before the follower looks at a flag. -/
def lateFollower : List (Fin pair.cores × Bool) :=
  List.replicate 3 (⟨1, by decide⟩, false) ++ List.replicate 14 (pair.leader, false)

/-- The follower that has slept through the round still completes all of its rounds. -/
theorem can_be_completed_of_lateFollower :
    ((idle pair).follow lateFollower).cores.toList =
        [⟨1, some (.lead .awaitPassed)⟩, ⟨0, some (.follow .watchLeader)⟩] ∧
      ∃ m', Relation.ReflTransGen (Step 2) ((idle pair).follow lateFollower) m' ∧
        ∀ core : Fin pair.cores, m'.progress core = ⟨2, none⟩ := by
  have hpermits : (idle pair).Permits 2 lateFollower := by decide
  refine ⟨?_, can_be_completed hpermits.run⟩
  decide

end Meeting

end Lockstep
