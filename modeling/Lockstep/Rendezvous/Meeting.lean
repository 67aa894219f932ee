import Lockstep.Rendezvous.Barrier

/-!
# Meetings

The cores of a meeting go through rounds, one after the other and each at its own pace.  One of them
at a time makes one step: it enters its next round, or does one access to the channel of the round
that it is in.  All orders of such steps are possible, and so are exchanges that fail for no reason.
-/

namespace Lockstep

/-- How far a core has come. -/
structure Progress (n : Nat) where
  /-- The rounds that the core is through. -/
  rounds : Nat := 0
  /-- Where it stands in its next round, if it has entered that. -/
  point : Option (Point n) := none
  deriving DecidableEq, Repr

/-- Cores that meet again and again. -/
structure Meeting (s : Shape) where
  barrier : Barrier s
  cores : Vector (Progress s.cores) s.cores
  /-- The rounds in which the leader has seen all followers wait. -/
  gathered : Nat
  deriving DecidableEq, Repr

namespace Meeting

variable {s : Shape}

/-- How far a core has come. -/
def progress (m : Meeting s) (core : Fin s.cores) : Progress s.cores :=
  m.cores[core]

/-- What the cores share on a channel. -/
def channel (m : Meeting s) (k : Fin s.channels) : Channel s.cores :=
  m.barrier[k]

/-- Puts a core somewhere else. -/
def setProgress (m : Meeting s) (core : Fin s.cores) (p : Progress s.cores) : Meeting s :=
  { m with cores := m.cores.set core p }

/-- Changes what the cores share on a channel. -/
def setChannel (m : Meeting s) (k : Fin s.channels) (c : Channel s.cores) : Meeting s :=
  { m with barrier := m.barrier.set k c }

/-- Notes a step from the point at which the leader has seen all followers wait. -/
def noting (m : Meeting s) (p : Point s.cores) : Meeting s :=
  { m with gathered := if p = .lead .gathered then m.gathered + 1 else m.gathered }

/-- All cores are about to enter the round after so many, on channels between two rounds. -/
def after (rounds : Nat) (barrier : Barrier s) : Meeting s where
  barrier := barrier
  cores := Vector.replicate s.cores { rounds := rounds }
  gathered := rounds

/-- The meeting before its first round. -/
def idle (s : Shape) : Meeting s :=
  after 0 (Barrier.idle s)

/-- One step of a core. -/
def step (core : Fin s.cores) (spurious : Bool) (m : Meeting s) : Meeting s :=
  let here := m.progress core
  match here.point with
  | none => m.setProgress core { here with point := some (Point.start core) }
  | some p =>
    let k := s.channelFor (here.rounds + 1)
    let r := p.step core spurious (m.channel k)
    ((m.noting p).setChannel k r.1).setProgress core
      (if r.2 = none then { rounds := here.rounds + 1 } else { here with point := r.2 })

/-- The state that steps in the given order lead to. -/
def follow (m : Meeting s) (schedule : List (Fin s.cores × Bool)) : Meeting s :=
  schedule.foldl (fun m turn => m.step turn.1 turn.2) m

/-- A core that is through fewer rounds than wanted may make a step. -/
inductive Step (limit : Nat) : Meeting s → Meeting s → Prop where
  | mk (m : Meeting s) (core : Fin s.cores) (spurious : Bool)
      (h : (m.progress core).rounds < limit) : Step limit m (m.step core spurious)

/-- All cores are through the wanted number of rounds. -/
def isOver (limit : Nat) (m : Meeting s) : Bool :=
  m.cores.toList.all fun p => limit ≤ p.rounds

/-- The followers that are through a number of rounds. -/
def followersThrough (rounds : Nat) (m : Meeting s) : Nat :=
  m.cores.toList.tail.countP fun p => rounds ≤ p.rounds

@[simp] theorem follow_nil (m : Meeting s) : m.follow [] = m := rfl

@[simp] theorem follow_cons (m : Meeting s) (core : Fin s.cores) (spurious : Bool)
    (schedule : List (Fin s.cores × Bool)) :
    m.follow ((core, spurious) :: schedule) = (m.step core spurious).follow schedule := rfl

section Access

variable (m : Meeting s) (core : Fin s.cores) (p : Progress s.cores) (k : Fin s.channels)
  (c : Channel s.cores) (q : Point s.cores)

@[simp] theorem progress_setProgress_self : (m.setProgress core p).progress core = p := by
  simp [progress, setProgress]

theorem progress_setProgress_of_ne {i : Fin s.cores} (h : i ≠ core) :
    (m.setProgress core p).progress i = m.progress i := by
  have hne : core.val ≠ i.val := fun hval => h (Fin.ext hval.symm)
  simp [progress, setProgress, Vector.getElem_set_ne _ _ hne]

@[simp] theorem progress_idle : (idle s).progress core = {} := by
  simp [progress, idle, after]

@[simp] theorem channel_idle : (idle s).channel k = Channel.idle s.cores := by
  simp [channel, idle, after, Barrier.idle]

@[simp] theorem progress_setChannel : (m.setChannel k c).progress core = m.progress core := rfl

@[simp] theorem progress_noting : (m.noting q).progress core = m.progress core := rfl

@[simp] theorem channel_setChannel_self : (m.setChannel k c).channel k = c := by
  simp [channel, setChannel]

theorem channel_setChannel_of_ne {i : Fin s.channels} (h : i ≠ k) :
    (m.setChannel k c).channel i = m.channel i := by
  have hne : k.val ≠ i.val := fun hval => h (Fin.ext hval.symm)
  simp [channel, setChannel, Vector.getElem_set_ne _ _ hne]

@[simp] theorem channel_setProgress : (m.setProgress core p).channel k = m.channel k := rfl

@[simp] theorem channel_noting : (m.noting q).channel k = m.channel k := rfl

@[simp] theorem setChannel_channel : m.setChannel k (m.channel k) = m := by
  simp [channel, setChannel]

end Access

/-! ### Taking turns -/

variable {α : Type}

/-- Every core that is through fewer rounds than wanted makes one step, in the order of their
numbers.  Something is noted about each step from the core and the states around it. -/
def sweep (limit : Nat) (note : α → Fin s.cores → Meeting s → Meeting s → α) (m : Meeting s)
    (a : α) : Meeting s × α :=
  (List.finRange s.cores).foldl
    (fun (m, a) core =>
      if (m.progress core).rounds < limit then
        let next := m.step core false
        (next, note a core m next)
      else (m, a))
    (m, a)

/-- The cores take turns, at most so many times, until all of them are through the wanted number of
rounds. -/
def takeTurns (limit : Nat) (note : α → Fin s.cores → Meeting s → Meeting s → α) :
    Nat → Meeting s → α → Meeting s × α
  | 0, m, a => (m, a)
  | turns + 1, m, a =>
    if m.isOver limit then (m, a)
    else
      let r := sweep limit note m a
      takeTurns limit note turns r.1 r.2

/-- The turns in which a round is over when the cores take turns. -/
def turnsPerRound : Nat := 64

/-! ### What a meeting shows -/

/-- What was seen of one round. -/
structure RoundView where
  /-- When the leader had seen all followers wait: whether the barrier was between two rounds, and
  the followers that were through already. -/
  atGathering : Option (Bool × Nat)
  /-- The followers that are through in the end. -/
  passed : Nat
  deriving DecidableEq, Repr

/-- Notes what can be seen when the leader has seen all followers wait. -/
def noteGathering (rounds : Nat) (seen : Option (Bool × Nat)) (_core : Fin s.cores)
    (m next : Meeting s) : Option (Bool × Nat) :=
  if m.gathered < next.gathered then
    some (m.barrier.isQuiescent, m.followersThrough rounds)
  else seen

/-- One round on a channel. -/
def oneRound (barrier : Barrier s) (channel : Fin s.channels) : Barrier s × RoundView :=
  let limit := channel.val + 1
  let r := takeTurns limit (noteGathering limit) turnsPerRound (after channel barrier) none
  (r.1.barrier, ⟨r.2, r.1.followersThrough limit⟩)

/-- What was seen of a number of rounds. -/
structure RunView where
  /-- The rounds of all cores together. -/
  rounds : Nat
  /-- The followers that got through a round in which the leader had not seen all of them. -/
  early : Nat
  /-- The gatherings together with the rounds of the followers. -/
  stamps : Nat
  deriving DecidableEq, Repr

/-- Counts followers that get through a round in which the leader has not seen all of them. -/
def noteEarly (early : Nat) (core : Fin s.cores) (m next : Meeting s) : Nat :=
  let through := (next.progress core).rounds
  if (m.progress core).rounds < through ∧ next.gathered < through then early + 1 else early

/-- A number of rounds from the first one on, each on its own channel. -/
def run (barrier : Barrier s) (rounds : Nat) : Barrier s × RunView :=
  let r := takeTurns rounds noteEarly (turnsPerRound * rounds) (after 0 barrier) 0
  let through := r.1.cores.toList.map (·.rounds)
  (r.1.barrier, ⟨through.foldl (· + ·) 0, r.2, r.1.gathered + through.tail.foldl (· + ·) 0⟩)

end Meeting

end Lockstep
