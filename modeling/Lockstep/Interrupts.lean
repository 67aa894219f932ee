import Lockstep.Counters.Basic
import Lockstep.Text.Quoted

/-!
# Interrupts

While a run is measured, interrupt handlers can be kept away from its core.  Where that is not
possible nothing is done.  A recording mask only notes its calls down with the counters of its core
and insists that they alternate.
-/

namespace Lockstep

/-- How interrupts are kept away. -/
inductive InterruptMask where
  /-- Not at all. -/
  | unmasked
  /-- Only noted down. -/
  | recording (masked : Bool)
  deriving DecidableEq, Repr, Inhabited

namespace InterruptMask

/-- Why a name gives no mask. -/
inductive Refusal where
  | unknown (name : String)
  /-- The mask exists on other processors only. -/
  | otherProcessor
  deriving DecidableEq, Repr

/-- The sentence shown for a name that gives no mask. -/
def Refusal.message : Refusal → String
  | .unknown name => Text.quoted name ++ " is not a valid interrupt mask"
  | .otherProcessor => "interrupt masking through DAIF is only supported on aarch64"

/-- The mask of a name. -/
def ofName (name : String) : Except Refusal InterruptMask :=
  if name = "unmasked" then .ok .unmasked
  else if name = "daif" then .error .otherProcessor
  else .error (.unknown name)

/-- The mask that a configuration asks for. -/
def ofFlag (mask : Bool) : Except Refusal InterruptMask :=
  ofName (if mask then "daif" else "unmasked")

/-- The name of a mask. -/
def name : InterruptMask → String
  | .unmasked => "unmasked"
  | .recording _ => "recording"

variable {P : Type} [Counters P]

/-- Keeps interrupts away. -/
def mask : Attempt (InterruptMask × P) Unit := do
  match (← Attempt.look).1 with
  | .unmasked => return
  | .recording true => Attempt.stop (.stopped "masked twice")
  | .recording false => Attempt.change fun s => (.recording true, Counters.note .mask s.2)

/-- Lets interrupts through again. -/
def unmask : Attempt (InterruptMask × P) Unit := do
  match (← Attempt.look).1 with
  | .unmasked => return
  | .recording false => Attempt.stop (.stopped "unmasked while not masked")
  | .recording true => Attempt.change fun s => (.recording false, Counters.note .unmask s.2)

end InterruptMask

end Lockstep
