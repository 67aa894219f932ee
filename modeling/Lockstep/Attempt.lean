/-!
# Attempts

A computation that changes a state may stop with a fault half-way.  The state then stays as the
fault left it, and whoever goes on works with that state.

Numbers of sixty-four bits are added and subtracted with a check: a result outside of their range is
a fault.
-/

namespace Lockstep

/-- Why a computation stops half-way. -/
inductive Fault where
  /-- A number leaves its range. -/
  | overflow
  /-- An index or a range lies outside of what it selects from. -/
  | outOfBounds
  /-- An assumption without a text of its own does not hold. -/
  | assertion
  /-- The computation stops with a text. -/
  | stopped (message : String)
  deriving DecidableEq, Repr

/-- A computation on a state that may stop with a fault. -/
def Attempt (σ α : Type) : Type := σ → Except Fault α × σ

namespace Attempt

variable {σ τ α β : Type}

/-- Does an attempt on a state. -/
def on (attempt : Attempt σ α) (s : σ) : Except Fault α × σ :=
  attempt s

/-- The attempt that does what a function on states says. -/
def ofRun (run : σ → Except Fault α × σ) : Attempt σ α :=
  run

/-- One attempt after the other; the second one is not made when the first one stops. -/
def andThen (attempt : Attempt σ α) (next : α → Attempt σ β) : Attempt σ β :=
  ofRun fun s =>
    match attempt.on s with
    | (.ok a, t) => (next a).on t
    | (.error fault, t) => (.error fault, t)

instance : Monad (Attempt σ) where
  pure a := ofRun fun s => (.ok a, s)
  bind := andThen

/-- Looks at the state. -/
def look : Attempt σ σ :=
  ofRun fun s => (.ok s, s)

/-- Changes the state. -/
def change (f : σ → σ) : Attempt σ Unit :=
  ofRun fun s => (.ok (), f s)

/-- Stops with a fault. -/
def stop (fault : Fault) : Attempt σ α :=
  ofRun fun s => (.error fault, s)

/-- Goes on with a result, or stops with the fault in its place. -/
def take (result : Except Fault α) : Attempt σ α :=
  ofRun fun s => (result, s)

/-- Does an attempt on a part of the state. -/
def within (get : σ → τ) (put : τ → σ → σ) (attempt : Attempt τ α) : Attempt σ α :=
  ofRun fun s =>
    let r := attempt.on (get s)
    (r.1, put r.2 s)

@[simp] theorem on_ofRun (run : σ → Except Fault α × σ) (s : σ) : (ofRun run).on s = run s := rfl

@[simp] theorem on_pure (a : α) (s : σ) : (pure a : Attempt σ α).on s = (.ok a, s) := rfl

@[simp] theorem on_look (s : σ) : (look : Attempt σ σ).on s = (.ok s, s) := rfl

@[simp] theorem on_change (f : σ → σ) (s : σ) : (change f).on s = (.ok (), f s) := rfl

@[simp] theorem on_stop (fault : Fault) (s : σ) :
    (stop fault : Attempt σ α).on s = (.error fault, s) := rfl

@[simp] theorem on_take (result : Except Fault α) (s : σ) :
    (take result).on s = (result, s) := rfl

@[simp] theorem on_within (get : σ → τ) (put : τ → σ → σ) (attempt : Attempt τ α) (s : σ) :
    (attempt.within get put).on s = ((attempt.on (get s)).1, put (attempt.on (get s)).2 s) := rfl

theorem on_bind (attempt : Attempt σ α) (next : α → Attempt σ β) (s : σ) :
    (attempt >>= next).on s =
      match attempt.on s with
      | (.ok a, t) => (next a).on t
      | (.error fault, t) => (.error fault, t) := rfl

/-- After an attempt that succeeds the next one goes on with its state. -/
@[simp] theorem on_bind_of_ok {attempt : Attempt σ α} {next : α → Attempt σ β} {s t : σ} {a : α}
    (h : attempt.on s = (.ok a, t)) : (attempt >>= next).on s = (next a).on t := by
  rw [on_bind, h]

/-- After an attempt that stops nothing else happens. -/
@[simp] theorem on_bind_of_error {attempt : Attempt σ α} {next : α → Attempt σ β} {s t : σ}
    {fault : Fault} (h : attempt.on s = (.error fault, t)) :
    (attempt >>= next).on s = (.error fault, t) := by
  rw [on_bind, h]

end Attempt

/-! ### Checked arithmetic -/

/-- The sum of two numbers of sixty-four bits, if it is one. -/
def checkedAdd (a b : UInt64) : Except Fault UInt64 :=
  if a.toNat + b.toNat < UInt64.size then .ok (a + b) else .error .overflow

/-- The difference of two numbers of sixty-four bits, if it is one. -/
def checkedSub (a b : UInt64) : Except Fault UInt64 :=
  if b ≤ a then .ok (a - b) else .error .overflow

theorem checkedAdd_of_lt {a b : UInt64} (h : a.toNat + b.toNat < UInt64.size) :
    checkedAdd a b = .ok (a + b) := if_pos h

theorem checkedSub_of_le {a b : UInt64} (h : b ≤ a) : checkedSub a b = .ok (a - b) := if_pos h

end Lockstep
