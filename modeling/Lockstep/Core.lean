/-!
# Cores

Up to four cores take part in an experiment.  Core 0 leads every round, all others follow it.
-/

namespace Lockstep

/-- The most cores that can take part. -/
def coreLimit : Nat := 4

/-- The most channels that the cores can meet on. -/
def channelLimit : Nat := 2

/-- What a core does in a round. -/
inductive Role where
  | leader
  | follower
  deriving DecidableEq, Repr

/-- A participating core. -/
structure CoreId where
  index : Nat
  deriving DecidableEq, Repr, Inhabited

namespace CoreId

/-- Why a number does not name a participating core. -/
inductive Refusal where
  /-- That many cores cannot take part. -/
  | cores (count : Nat)
  /-- The number is not below the number of cores. -/
  | illegal (index cores : Nat)
  deriving DecidableEq, Repr

/-- The sentence shown for a number that names no core. -/
def Refusal.message : Refusal → String
  | .cores n => n.repr ++ " participating cores, expected 1 to " ++ coreLimit.repr
  | .illegal i n => "illegal core number " ++ i.repr ++ " (only " ++ n.repr ++ " cores)"

/-- The core that leads. -/
def leader : CoreId := ⟨0⟩

/-- The core of that number among a number of cores. -/
def ofIndex (index cores : Nat) : Except Refusal CoreId :=
  if cores = 0 ∨ coreLimit < cores then .error (.cores cores)
  else if cores ≤ index then .error (.illegal index cores)
  else .ok ⟨index⟩

/-- The first core leads. -/
def role (core : CoreId) : Role :=
  if core.index = 0 then .leader else .follower

/-- The core as messages show it. -/
def text (core : CoreId) : String :=
  "core" ++ core.index.repr

theorem ofIndex_eq_ok_iff {index cores : Nat} {core : CoreId} :
    ofIndex index cores = .ok core ↔
      index < cores ∧ cores ≤ coreLimit ∧ core = ⟨index⟩ := by
  unfold ofIndex
  split
  · grind
  · split
    · grind
    · grind

end CoreId

end Lockstep
