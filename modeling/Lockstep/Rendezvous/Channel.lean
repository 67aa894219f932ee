import Lockstep.Rendezvous.Flag
import Lockstep.Rendezvous.Lock

/-!
# A round on a channel

On a channel the cores meet in rounds.  The leader waits until every follower of the last round on
the channel is through its lock, takes the lock, raises its own flag, and waits until every follower
has raised its one.  It then lowers the flags of the followers, its own flag, and releases the lock.

A follower raises its flag, and waits until it sees the flag of the leader raised or its own one
lowered: in both cases the leader holds the lock already, or has even released it.  It then takes
the lock, releases it at once, and counts itself as through.  Before it returns it counts down its
stagger, which may take any time.

Everything a core does to the channel is one access to one flag, to the lock or to the number of the
followers that are through.  The countdown of a stagger is a step of its own, which accesses nothing.
-/

namespace Lockstep

/-- What the cores share. -/
structure Channel (n : Nat) where
  flags : FlagBoard n
  lock : RoundLock
  /-- The followers that are through the lock since the leader has last taken it. -/
  passed : Nat
  deriving DecidableEq, Repr

namespace Channel

variable {n : Nat}

/-- A channel before its first round. -/
def idle (n : Nat) : Channel n where
  flags := FlagBoard.clear n
  lock := {}
  passed := n - 1

/-- No flag is raised, the lock is free, and all followers are through. -/
def isQuiescent (c : Channel n) : Bool :=
  c.flags.allClear && !c.lock.isLocked && c.passed == n - 1

/-- The flag of a core. -/
def flag (c : Channel n) (core : Fin n) : Bool :=
  c.flags[core]

/-- Raises or lowers the flag of a core. -/
def setFlag (c : Channel n) (core : Fin n) (value : Bool) : Channel n :=
  { c with flags := c.flags.set core value }

/-- Takes or releases the lock. -/
def setLock (c : Channel n) (lock : RoundLock) : Channel n :=
  { c with lock := lock }

/-- Counts the followers that are through anew. -/
def setPassed (c : Channel n) (passed : Nat) : Channel n :=
  { c with passed := passed }

/-- Goes on with the write of a flag. -/
def writing (c : Channel n) (core : Fin n) (value spurious : Bool) (w : Writing) :
    Channel n × Writing :=
  let r := w.step value spurious (c.flag core)
  (c.setFlag core r.1, r.2)

/-- Goes on with the acquisition of the lock. -/
def acquiring (c : Channel n) (spurious : Bool) (a : Acquiring) : Channel n × Acquiring :=
  let r := a.step spurious c.lock
  (c.setLock r.1, r.2)

@[simp] theorem flag_idle (core : Fin n) : (idle n).flag core = false := by
  simp [flag, idle, FlagBoard.clear]

theorem isQuiescent_idle (n : Nat) : (idle n).isQuiescent = true := by
  simp [isQuiescent, idle, FlagBoard.allClear_clear]

@[simp] theorem flag_setFlag_self (c : Channel n) (core : Fin n) (value : Bool) :
    (c.setFlag core value).flag core = value := by
  simp [flag, setFlag]

theorem flag_setFlag_of_ne (c : Channel n) {core i : Fin n} (h : i ≠ core) (value : Bool) :
    (c.setFlag core value).flag i = c.flag i := by
  have hne : core.val ≠ i.val := fun hval => h (Fin.ext hval.symm)
  simp [flag, setFlag, Vector.getElem_set_ne _ _ hne]

@[simp] theorem setFlag_flag (c : Channel n) (core : Fin n) : c.setFlag core (c.flag core) = c := by
  simp [flag, setFlag]

@[simp] theorem lock_setFlag (c : Channel n) (core : Fin n) (value : Bool) :
    (c.setFlag core value).lock = c.lock := rfl

@[simp] theorem passed_setFlag (c : Channel n) (core : Fin n) (value : Bool) :
    (c.setFlag core value).passed = c.passed := rfl

@[simp] theorem flag_setLock (c : Channel n) (lock : RoundLock) : (c.setLock lock).flag = c.flag :=
  rfl

@[simp] theorem lock_setLock (c : Channel n) (lock : RoundLock) : (c.setLock lock).lock = lock :=
  rfl

@[simp] theorem passed_setLock (c : Channel n) (lock : RoundLock) :
    (c.setLock lock).passed = c.passed := rfl

@[simp] theorem setLock_lock (c : Channel n) : c.setLock c.lock = c := rfl

@[simp] theorem flag_setPassed (c : Channel n) (passed : Nat) :
    (c.setPassed passed).flag = c.flag := rfl

@[simp] theorem lock_setPassed (c : Channel n) (passed : Nat) :
    (c.setPassed passed).lock = c.lock := rfl

@[simp] theorem passed_setPassed (c : Channel n) (passed : Nat) :
    (c.setPassed passed).passed = passed := rfl

/-- One access either lands the write or leaves the channel as it is. -/
theorem writing_cases (c : Channel n) (core : Fin n) (value spurious : Bool) {w : Writing}
    (hw : w.IsPending) :
    (∃ failures, c.writing core value spurious w = (c.setFlag core value, .landed failures)) ∨
      ∃ w' : Writing, w'.IsPending ∧ c.writing core value spurious w = (c, w') := by
  rcases Writing.step_cases hw value spurious (c.flag core) with ⟨failures, h⟩ | ⟨hflag, hw'⟩
  · exact Or.inl ⟨failures, by simp only [writing, h]⟩
  · exact Or.inr ⟨_, hw', by simp only [writing, hflag, setFlag_flag]⟩

/-- One access either takes the lock, which is free, or leaves the channel as it is. -/
theorem acquiring_cases (c : Channel n) (spurious : Bool) {a : Acquiring} (ha : a ≠ .held) :
    (c.lock.isLocked = false ∧ c.acquiring spurious a = (c.setLock ⟨true⟩, .held)) ∨
      ∃ a' : Acquiring, a' ≠ .held ∧ c.acquiring spurious a = (c, a') := by
  rcases Acquiring.step_cases ha spurious c.lock with ⟨hfree, h⟩ | ⟨hlock, ha'⟩
  · exact Or.inl ⟨hfree, by simp only [acquiring, h]⟩
  · exact Or.inr ⟨_, ha', by simp only [acquiring, hlock, setLock_lock]⟩

end Channel

/-! ### Where a core stands -/

/-- Where the leader stands in a round. -/
inductive LeaderPoint (n : Nat) where
  /-- Waits until all followers of the last round are through. -/
  | awaitPassed
  /-- About to forget the followers of the last round. -/
  | resetPassed
  | acquire (a : Acquiring)
  /-- Raises its own flag. -/
  | raise (w : Writing)
  /-- About to look at the flag of a follower; those before it were seen raised. -/
  | poll (follower : Fin n)
  /-- Has seen all followers wait. -/
  | gathered
  /-- Lowers the flag of a follower. -/
  | lower (follower : Fin n) (w : Writing)
  /-- Lowers its own flag. -/
  | lowerOwn (w : Writing)
  | release
  deriving DecidableEq, Repr

/-- Where a follower stands in a round. -/
inductive FollowerPoint where
  /-- Raises its own flag. -/
  | arrive (w : Writing)
  /-- About to look at the flag of the leader. -/
  | watchLeader
  /-- About to look at its own flag. -/
  | watchOwn
  | enter (a : Acquiring)
  /-- About to release the lock. -/
  | leave
  /-- About to count itself as through. -/
  | count
  /-- Counts down its stagger. -/
  | delay
  deriving DecidableEq, Repr

/-- Where a core stands in a round. -/
inductive Point (n : Nat) where
  | lead (p : LeaderPoint n)
  | follow (p : FollowerPoint)
  deriving DecidableEq, Repr

namespace LeaderPoint

variable {n : Nat}

/-- The point at which the flag of the given follower is to be looked at, or the last of them was
seen raised. -/
def pollFrom (follower : Nat) : LeaderPoint n :=
  if h : follower < n then poll ⟨follower, h⟩ else gathered

/-- The point at which the flag of the given follower is to be lowered, or all of them are
lowered. -/
def lowerFrom (follower : Nat) : LeaderPoint n :=
  if h : follower < n then lower ⟨follower, h⟩ .look else lowerOwn .look

/-- One access of the leader to the channel, and where it stands then; nowhere when its round is
over. -/
def step (leader : Fin n) (spurious : Bool) (c : Channel n) :
    LeaderPoint n → Channel n × Option (LeaderPoint n)
  | awaitPassed => (c, some (if c.passed = n - 1 then resetPassed else awaitPassed))
  | resetPassed => (c.setPassed 0, some (acquire .exchange))
  | acquire a =>
    let r := c.acquiring spurious a
    (r.1, some (if r.2 = .held then raise .look else acquire r.2))
  | raise w =>
    let r := c.writing leader true spurious w
    (r.1, some (r.2.resume (pollFrom 1) raise))
  | poll follower => (c, some (pollFrom (if c.flag follower then follower + 1 else 1)))
  | gathered => (c, some (lowerFrom 1))
  | lower follower w =>
    let r := c.writing follower false spurious w
    (r.1, some (r.2.resume (lowerFrom (follower + 1)) (lower follower)))
  | lowerOwn w =>
    let r := c.writing leader false spurious w
    (r.1, some (r.2.resume release lowerOwn))
  | release => (c.setLock c.lock.release, none)

end LeaderPoint

/-- One step of a follower on the channel, and where it stands then; nowhere when its round is
over. -/
def FollowerPoint.step {n : Nat} (leader follower : Fin n) (spurious : Bool) (c : Channel n) :
    FollowerPoint → Channel n × Option FollowerPoint
  | arrive w =>
    let r := c.writing follower true spurious w
    (r.1, some (r.2.resume watchLeader arrive))
  | watchLeader => (c, some (if c.flag leader then enter .exchange else watchOwn))
  | watchOwn => (c, some (if c.flag follower then watchLeader else enter .exchange))
  | enter a =>
    let r := c.acquiring spurious a
    (r.1, some (if r.2 = .held then leave else enter r.2))
  | leave => (c.setLock c.lock.release, some count)
  | count => (c.setPassed (c.passed + 1), some delay)
  | delay => (c, none)

namespace Point

variable {n : Nat}

/-- Where a core enters a round. -/
def start (core : Fin n) : Point n :=
  if core.val = 0 then lead .awaitPassed else follow (.arrive .look)

/-- One step of a core on the channel, and where it stands then; nowhere when its round is
over. -/
def step (core : Fin n) (spurious : Bool) (c : Channel n) : Point n → Channel n × Option (Point n)
  | lead p =>
    let r := p.step core spurious c
    (r.1, r.2.map lead)
  | follow p =>
    let r := p.step ⟨0, core.pos⟩ core spurious c
    (r.1, r.2.map follow)

end Point

end Lockstep
