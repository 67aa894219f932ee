import Lockstep.Attempt

/-!
# The lock of a round

A core acquires the lock by exchanging its being free for its being held.  An exchange that fails,
possibly for no reason at all, is followed by looks at the lock until it is free, and only then by
another exchange.  Whoever holds the lock releases it by a plain store, which nothing checks.
-/

namespace Lockstep

/-- A lock that at most one core holds. -/
structure RoundLock where
  isLocked : Bool := false
  deriving DecidableEq, Repr, Inhabited

/-- Where the acquisition of a lock stands. -/
inductive Acquiring where
  /-- About to exchange. -/
  | exchange
  /-- About to look at the lock. -/
  | watch
  /-- The lock is held. -/
  | held
  deriving DecidableEq, Repr

/-- One access to a lock in the course of its acquisition.  An exchange that would succeed fails if
it is `spurious`. -/
def Acquiring.step (spurious : Bool) (lock : RoundLock) : Acquiring → RoundLock × Acquiring
  | exchange =>
    if lock.isLocked = false ∧ spurious = false then (⟨true⟩, held) else (lock, watch)
  | watch => (lock, if lock.isLocked then watch else exchange)
  | held => (lock, held)

/-- One access either takes a lock that is free or leaves the lock as it is. -/
theorem Acquiring.step_cases {a : Acquiring} (ha : a ≠ held) (spurious : Bool) (lock : RoundLock) :
    (lock.isLocked = false ∧ a.step spurious lock = (⟨true⟩, held)) ∨
      ((a.step spurious lock).1 = lock ∧ (a.step spurious lock).2 ≠ held) := by
  cases a with
  | exchange =>
    by_cases h : lock.isLocked = false ∧ spurious = false
    · exact Or.inl ⟨h.1, if_pos h⟩
    · refine Or.inr ?_
      rw [step, if_neg h]
      exact ⟨rfl, Acquiring.noConfusion⟩
  | watch =>
    refine Or.inr ⟨rfl, ?_⟩
    rw [step]
    cases lock.isLocked <;> exact Acquiring.noConfusion
  | held => exact absurd rfl ha

namespace RoundLock

/-- The lock after one exchange of an acquisition that nobody interferes with. -/
def acquire (lock : RoundLock) : RoundLock :=
  (Acquiring.exchange.step false lock).1

/-- The lock after its release. -/
def release (_lock : RoundLock) : RoundLock :=
  ⟨false⟩

@[simp] theorem isLocked_acquire (lock : RoundLock) : lock.acquire.isLocked = true := by
  cases h : lock.isLocked <;> simp [acquire, Acquiring.step, h]

@[simp] theorem isLocked_release (lock : RoundLock) : lock.release.isLocked = false := rfl

end RoundLock

end Lockstep
