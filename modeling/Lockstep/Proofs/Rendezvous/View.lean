import Lockstep.Rendezvous.Meeting
import Mathlib.Data.Fintype.Card
import Mathlib.Tactic.Lemma

/-!
# What matters of a meeting

Most of what a state of a meeting holds is of no interest outside of the core that it belongs to:
which exchange of a write comes next, how often it has failed, or which of the two flags a follower
looks at.  The *view* of a meeting leaves that out.  It keeps the rounds that each core is through,
how far each one has come in its next round, and what the channels hold.

A step of a core either does not show in the view, or it is one of the moves of `View.Move`.  So
whatever these moves preserve holds after every run.
-/

namespace Lockstep

/-! ### How far a core has come in its round -/

/-- How far the leader has come: 0 until it has seen that all followers of the last round are
through, 1 until it has forgotten them, 2 until it holds the lock, 3 until its flag is up, 4 until
it has seen the flags of all followers, 5 until all flags are down, and 6 until it releases the
lock. -/
def LeaderPoint.phase {n : Nat} : LeaderPoint n → Nat
  | awaitPassed => 0
  | resetPassed => 1
  | acquire _ => 2
  | raise _ => 3
  | poll _ => 4
  | gathered => 4
  | lower _ _ => 5
  | lowerOwn _ => 5
  | release => 6

/-- The follower whose flag is the next one to be looked at or to be lowered. -/
def LeaderPoint.next {n : Nat} : LeaderPoint n → Nat
  | poll follower => follower
  | gathered => n
  | lower follower _ => follower
  | lowerOwn _ => n
  | _ => 0

/-- How far a follower has come: 0 until its flag is up, 1 until it may take the lock, 2 until it
holds the lock, 3 until it has released it, 4 until it has counted itself, and 5 until it
returns. -/
def FollowerPoint.phase : FollowerPoint → Nat
  | arrive _ => 0
  | watchLeader => 1
  | watchOwn => 1
  | enter _ => 2
  | leave => 3
  | count => 4
  | delay => 5

namespace Point

variable {n : Nat}

/-- How far a core has come in its round. -/
def phase : Point n → Nat
  | lead p => p.phase
  | follow p => p.phase

/-- The follower that the core turns to next, if it leads. -/
def next : Point n → Nat
  | lead p => p.next
  | follow _ => 0

/-- What the core is about to do is not done yet. -/
def IsUnderWay : Point n → Prop
  | lead (.acquire a) => a ≠ .held
  | lead (.raise w) => w.IsPending
  | lead (.lower _ w) => w.IsPending
  | lead (.lowerOwn w) => w.IsPending
  | follow (.arrive w) => w.IsPending
  | follow (.enter a) => a ≠ .held
  | _ => True

/-- The first core leads and all others follow. -/
def Suits (core : Fin n) : Point n → Prop
  | lead _ => core.val = 0
  | follow _ => core.val ≠ 0

/-- The core can reach the point. -/
def IsValid (core : Fin n) (p : Point n) : Prop :=
  p.Suits core ∧ p.IsUnderWay

end Point

namespace Progress

variable {n : Nat}

/-- How far the core has come in its round; a core that has not entered it is at its beginning. -/
def phase (p : Progress n) : Nat :=
  (p.point.map Point.phase).getD 0

/-- The follower that the core turns to next, if it leads. -/
def next (p : Progress n) : Nat :=
  (p.point.map Point.next).getD 0

/-- The core stands nowhere or at a point that it can reach. -/
def IsValid (core : Fin n) (p : Progress n) : Prop :=
  ∀ point, p.point = some point → point.IsValid core

end Progress

/-! ### Views -/

/-- What matters of a meeting. -/
@[ext] structure View (s : Shape) where
  /-- The rounds that a core is through. -/
  rounds : Fin s.cores → Nat
  /-- How far a core has come in its next round. -/
  phase : Fin s.cores → Nat
  /-- The follower that the leader turns to next. -/
  next : Nat
  flag : Fin s.channels → Fin s.cores → Bool
  locked : Fin s.channels → Bool
  passed : Fin s.channels → Nat
  gathered : Nat

namespace View

variable {s : Shape}

/-- The channel of the round that a core is in or enters next. -/
def channel (v : View s) (core : Fin s.cores) : Fin s.channels :=
  s.channelFor (v.rounds core + 1)

/-- A move of the core. -/
inductive Move (v : View s) : Fin s.cores → View s → Prop where
  /-- The leader sees that all followers are through. -/
  | find (hphase : v.phase s.leader = 0)
      (hpassed : v.passed (v.channel s.leader) = s.cores - 1) :
      Move v s.leader { v with phase := Function.update v.phase s.leader 1 }
  /-- The leader forgets them. -/
  | reset (hphase : v.phase s.leader = 1) :
      Move v s.leader { v with
        phase := Function.update v.phase s.leader 2
        passed := Function.update v.passed (v.channel s.leader) 0 }
  /-- The leader takes the lock. -/
  | lock (hphase : v.phase s.leader = 2) (hfree : v.locked (v.channel s.leader) = false) :
      Move v s.leader { v with
        phase := Function.update v.phase s.leader 3
        locked := Function.update v.locked (v.channel s.leader) true }
  /-- The leader raises its flag. -/
  | raise (hphase : v.phase s.leader = 3) :
      Move v s.leader { v with
        phase := Function.update v.phase s.leader 4
        next := 1
        flag := Function.update v.flag (v.channel s.leader)
          (Function.update (v.flag (v.channel s.leader)) s.leader true) }
  /-- The leader sees the flag of a follower up. -/
  | see (follower : Fin s.cores) (hphase : v.phase s.leader = 4) (hnext : v.next = follower)
      (hflag : v.flag (v.channel s.leader) follower = true) :
      Move v s.leader { v with next := follower + 1 }
  /-- The leader sees the flag of a follower down, and begins again. -/
  | miss (follower : Fin s.cores) (hphase : v.phase s.leader = 4) (hnext : v.next = follower)
      (hflag : v.flag (v.channel s.leader) follower = false) :
      Move v s.leader { v with next := 1 }
  /-- The leader has seen all flags up. -/
  | gather (hphase : v.phase s.leader = 4) (hnext : v.next = s.cores) :
      Move v s.leader { v with
        phase := Function.update v.phase s.leader 5
        next := 1
        gathered := v.gathered + 1 }
  /-- The leader lowers the flag of a follower. -/
  | lower (follower : Fin s.cores) (hphase : v.phase s.leader = 5) (hnext : v.next = follower) :
      Move v s.leader { v with
        next := follower + 1
        flag := Function.update v.flag (v.channel s.leader)
          (Function.update (v.flag (v.channel s.leader)) follower false) }
  /-- The leader lowers its own flag. -/
  | lowerOwn (hphase : v.phase s.leader = 5) (hnext : v.next = s.cores) :
      Move v s.leader { v with
        phase := Function.update v.phase s.leader 6
        next := 0
        flag := Function.update v.flag (v.channel s.leader)
          (Function.update (v.flag (v.channel s.leader)) s.leader false) }
  /-- The leader releases the lock, and its round is over. -/
  | release (hphase : v.phase s.leader = 6) :
      Move v s.leader { v with
        rounds := Function.update v.rounds s.leader (v.rounds s.leader + 1)
        phase := Function.update v.phase s.leader 0
        next := 0
        locked := Function.update v.locked (v.channel s.leader) false }
  /-- A follower raises its flag. -/
  | arrive (core : Fin s.cores) (hcore : core ≠ s.leader) (hphase : v.phase core = 0) :
      Move v core { v with
        phase := Function.update v.phase core 1
        flag := Function.update v.flag (v.channel core)
          (Function.update (v.flag (v.channel core)) core true) }
  /-- A follower sees the leader's flag up or its own flag down. -/
  | notice (core : Fin s.cores) (hcore : core ≠ s.leader) (hphase : v.phase core = 1)
      (hflag : v.flag (v.channel core) s.leader = true ∨ v.flag (v.channel core) core = false) :
      Move v core { v with phase := Function.update v.phase core 2 }
  /-- A follower takes the lock. -/
  | enter (core : Fin s.cores) (hcore : core ≠ s.leader) (hphase : v.phase core = 2)
      (hfree : v.locked (v.channel core) = false) :
      Move v core { v with
        phase := Function.update v.phase core 3
        locked := Function.update v.locked (v.channel core) true }
  /-- A follower releases the lock. -/
  | leave (core : Fin s.cores) (hcore : core ≠ s.leader) (hphase : v.phase core = 3) :
      Move v core { v with
        phase := Function.update v.phase core 4
        locked := Function.update v.locked (v.channel core) false }
  /-- A follower counts itself as through. -/
  | count (core : Fin s.cores) (hcore : core ≠ s.leader) (hphase : v.phase core = 4) :
      Move v core { v with
        phase := Function.update v.phase core 5
        passed := Function.update v.passed (v.channel core) (v.passed (v.channel core) + 1) }
  /-- A follower returns, and its round is over. -/
  | finish (core : Fin s.cores) (hcore : core ≠ s.leader) (hphase : v.phase core = 5) :
      Move v core { v with
        rounds := Function.update v.rounds core (v.rounds core + 1)
        phase := Function.update v.phase core 0 }

end View

namespace Meeting

variable {s : Shape}

/-- What matters of a meeting. -/
def view (m : Meeting s) : View s where
  rounds core := (m.progress core).rounds
  phase core := (m.progress core).phase
  next := (m.progress s.leader).next
  flag channel core := (m.channel channel).flag core
  locked channel := (m.channel channel).lock.isLocked
  passed channel := (m.channel channel).passed
  gathered := m.gathered

/-- No core stands where it cannot be. -/
def IsValid (m : Meeting s) : Prop :=
  ∀ core : Fin s.cores, (m.progress core).IsValid core

variable {m : Meeting s} {core : Fin s.cores} {p : Point s.cores}

/-- A core that has not entered its round is at its beginning. -/
lemma view_phase_of_none (hpoint : (m.progress core).point = none) : m.view.phase core = 0 := by
  simp only [view, Progress.phase, hpoint]
  rfl

/-- A core is as far as its point is. -/
lemma view_phase_of_some (hpoint : (m.progress core).point = some p) :
    m.view.phase core = p.phase := by
  simp only [view, Progress.phase, hpoint]
  rfl

/-- The leader turns to the follower that its point names. -/
lemma view_next_of_some (hpoint : (m.progress s.leader).point = some p) : m.view.next = p.next := by
  simp only [view, Progress.next, hpoint]
  rfl

end Meeting

end Lockstep
