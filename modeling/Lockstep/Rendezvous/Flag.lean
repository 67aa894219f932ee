import Lockstep.Attempt
import Lockstep.Core

/-!
# Flags

Cores see each other's progress through flags, one for each core.  Every core may read and write
every flag, so a write looks at the flag first and then exchanges what it has seen for the new
value.  An exchange fails if the flag has changed in between, and it may fail for no reason at all;
it is then tried again with what the flag holds now.
-/

namespace Lockstep

/-! ### One flag -/

/-- Where the write of a flag stands. -/
inductive Writing where
  /-- About to look at the flag. -/
  | look
  /-- About to exchange what was seen, after a number of exchanges that failed. -/
  | exchange (seen : Bool) (failures : Nat)
  /-- Done, after a number of exchanges that failed. -/
  | landed (failures : Nat)
  deriving DecidableEq, Repr

namespace Writing

/-- One access to the flag in the course of a write.  An exchange that would succeed fails if it is
`spurious`. -/
def step (value spurious : Bool) (flag : Bool) : Writing → Bool × Writing
  | look => (flag, exchange flag 0)
  | exchange seen failures =>
    if flag = seen ∧ spurious = false then (value, landed failures)
    else (flag, exchange flag (failures + 1))
  | landed failures => (flag, landed failures)

/-- What comes next: `done` after a write that has landed, and otherwise the same write `again`. -/
def resume {α : Type} (done : α) (again : Writing → α) : Writing → α
  | landed _ => done
  | w => again w

/-- A write that nobody interferes with. -/
def alone (value flag : Bool) : Bool × Writing :=
  let looked := step value false flag look
  step value false looked.1 looked.2

/-- The write has not landed. -/
def IsPending (w : Writing) : Prop :=
  ∀ failures, w ≠ landed failures

theorem resume_of_isPending {α : Type} {w : Writing} (hw : w.IsPending) (done : α)
    (again : Writing → α) : w.resume done again = again w := by
  cases w with
  | look => rfl
  | exchange => rfl
  | landed failures => exact absurd rfl (hw failures)

/-- One access either lands the write or leaves the flag as it is. -/
theorem step_cases {w : Writing} (hw : w.IsPending) (value spurious flag : Bool) :
    (∃ failures, w.step value spurious flag = (value, landed failures)) ∨
      ((w.step value spurious flag).1 = flag ∧ (w.step value spurious flag).2.IsPending) := by
  cases w with
  | look => exact Or.inr ⟨rfl, fun _ => Writing.noConfusion⟩
  | exchange seen failures =>
    by_cases h : flag = seen ∧ spurious = false
    · exact Or.inl ⟨failures, if_pos h⟩
    · refine Or.inr ?_
      rw [step, if_neg h]
      exact ⟨rfl, fun _ => Writing.noConfusion⟩
  | landed failures => exact absurd rfl (hw failures)

end Writing

/-! ### One flag for each core -/

/-- The flags of a number of cores. -/
abbrev FlagBoard (n : Nat) := Vector Bool n

namespace FlagBoard

variable {n : Nat}

/-- The flags before anybody has written one. -/
def clear (n : Nat) : FlagBoard n :=
  Vector.replicate n false

/-- The fault of asking for flags of a number of cores that cannot take part. -/
def countFault (cores : Nat) : Fault :=
  .stopped ("a flag board holds 1 to " ++ coreLimit.repr ++ " cores, not " ++ cores.repr)

/-- Flags for a number of cores that can take part. -/
def ofCores (cores : Nat) : Except Fault (FlagBoard cores) :=
  if 0 < cores ∧ cores ≤ coreLimit then .ok (clear cores) else .error (countFault cores)

/-- The flag of a core. -/
def read (board : FlagBoard n) (core : Nat) : Except Fault Bool :=
  if h : core < n then .ok board[core] else .error .outOfBounds

/-- Writes the flag of a core. -/
def write (board : FlagBoard n) (core : Nat) (value : Bool) : Except Fault (FlagBoard n) :=
  if h : core < n then .ok (board.set core (Writing.alone value board[core]).1)
  else .error .outOfBounds

/-- Whether all flags from one core on and before another one are set. -/
def allSet (board : FlagBoard n) (first last : Nat) : Except Fault Bool :=
  if first ≤ last ∧ last ≤ n then .ok ((board.toList.drop first).take (last - first) |>.all id)
  else .error .outOfBounds

/-- Whether no flag is set. -/
def allClear (board : FlagBoard n) : Bool :=
  board.toList.all (! ·)

theorem allClear_clear (n : Nat) : (clear n).allClear = true := by
  simp [allClear, clear]

end FlagBoard

end Lockstep
