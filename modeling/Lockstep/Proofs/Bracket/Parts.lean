import Lockstep.Bracket
import Lockstep.Proofs.Attempt

/-!
# The parts of a measurement

Before a run its counters are started, interrupts are kept away, and the counters are set to zero;
after it the counters are stopped, interrupts come back, and the counters are read.  Four of these
six parts concern the counters alone, whatever counters these are.
-/

namespace Lockstep

namespace Bracket

variable {P α β γ : Type}

/-! ### What is done to a bracket -/

/-- Nothing that is done to the counters of a bracket binds events. -/
lemma preserves_onCounters {α : Type} (a : Attempt P α) : (onCounters a).Preserves bound := by
  refine Attempt.Preserves.within ?_ a
  exact fun _ _ => rfl

/-- Nothing that is done to the interrupts of a core binds events. -/
lemma preserves_onMask {α : Type} (a : Attempt (InterruptMask × P) α) :
    (onMask a).Preserves bound := by
  refine Attempt.Preserves.within ?_ a
  exact fun _ _ => rfl

/-- What is done to the counters of a bracket leaves everything else alone. -/
lemma on_onCounters {a : Attempt P α} {p q : P} {r : Except Fault α} {mask : InterruptMask}
    {bound : List (Event.Slot × Event.Code)} (h : a.on p = (r, q)) :
    (onCounters a).on ⟨p, mask, bound⟩ = (r, ⟨q, mask, bound⟩) := by
  rw [onCounters, Attempt.on_within, h]

/-- What is done to the counters of a bracket is done to them by themselves. -/
lemma on_of_onCounters {a : Attempt P α} {r : Except Fault α} {b b' : Bracket P}
    (h : (onCounters a).on b = (r, b')) : a.on b.counters = (r, b'.counters) := by
  rw [onCounters, Attempt.on_within, Prod.mk.injEq] at h
  obtain ⟨rfl, rfl⟩ := h
  rfl

/-- What is done to the counters of a bracket one after the other. -/
lemma onCounters_bind (a : Attempt P α) (next : α → Attempt P β) :
    onCounters (a >>= next) = onCounters a >>= fun x => onCounters (next x) := by
  funext b
  change (onCounters (a >>= next)).on b = (onCounters a >>= fun x => onCounters (next x)).on b
  rw [Attempt.on_bind, onCounters, Attempt.on_within, Attempt.on_bind, onCounters,
    Attempt.on_within]
  rcases a.on b.counters with ⟨_ | x, p⟩
  · rfl
  · rfl

/-- A result by itself concerns no counters. -/
lemma onCounters_pure (x : α) : onCounters (pure x : Attempt P α) = pure x := rfl

/-- What is done to the counters of a bracket for each thing of a list. -/
lemma onCounters_forM (xs : List γ) (next : γ → Attempt P PUnit) :
    onCounters (xs.forM next) = xs.forM fun x => onCounters (next x) := by
  induction xs with
  | nil => rfl
  | cons x xs ih =>
    change onCounters (next x >>= fun _ => xs.forM next) = _ >>= fun _ => _
    rw [onCounters_bind, ih]

/-- What is done to the counters of a bracket for each thing of a list, and the results. -/
lemma onCounters_mapM (xs : List γ) (next : γ → Attempt P α) :
    onCounters (xs.mapM next) = xs.mapM fun x => onCounters (next x) := by
  induction xs with
  | nil => rfl
  | cons x xs ih =>
    rw [List.mapM_cons, List.mapM_cons, onCounters_bind]
    refine congrArg (_ >>= ·) (funext fun y => ?_)
    rw [onCounters_bind, ih]
    rfl

/-- The bound events are the same before and after what does not bind events. -/
lemma on_bind_look_bound {a : Attempt (Bracket P) α} (ha : a.Preserves bound)
    (next : α → List (Event.Slot × Event.Code) → Attempt (Bracket P) β) (b : Bracket P) :
    (a >>= fun x => Attempt.look >>= fun b' => next x b'.bound).on b =
      (a >>= fun x => next x b.bound).on b := by
  have hbound := ha b
  rw [Attempt.on_bind, Attempt.on_bind]
  rcases h : a.on b with ⟨_ | x, b'⟩
  · rfl
  · rw [h] at hbound
    rw [← hbound]
    rfl

/-! ### Four parts -/

variable [Counters P] {bound : List (Event.Slot × Event.Code)} {now : UInt64}

/-- Starts the cycle counter and the counters of the bound events. -/
def starting (bound : List (Event.Slot × Event.Code)) (now : UInt64) : Attempt P Unit := do
  Counters.startCycles now
  bound.forM fun x => Counters.startEvent x.1 now

/-- Sets all counters to zero. -/
def clearing (now : UInt64) : Attempt P Unit := do
  Counters.clearCycles now
  Counters.clearEvents now

/-- Stops the cycle counter and the counters of the bound events. -/
def stopping (bound : List (Event.Slot × Event.Code)) (now : UInt64) : Attempt P Unit := do
  Counters.stopCycles now
  bound.forM fun x => Counters.stopEvent x.1 now

/-- Reads the counters of the bound events, after the cycle counter. -/
def tellingEvents (bound : List (Event.Slot × Event.Code)) (now cycles : UInt64) :
    Attempt P Measurement := do
  let events ← bound.mapM fun x => do return ⟨x.1, x.2, ← Counters.readEvent x.1 now⟩
  return ⟨cycles, events⟩

/-- Reads the cycle counter and the counters of the bound events. -/
def telling (bound : List (Event.Slot × Event.Code)) (now : UInt64) : Attempt P Measurement := do
  tellingEvents bound now (← Counters.readCycles now)

/-- The counters stop, and interrupts come back. -/
def halting (bound : List (Event.Slot × Event.Code)) (now : UInt64) :
    Attempt (Bracket P) Unit := do
  onCounters (stopping bound now)
  onMask InterruptMask.unmask

/-! ### Opening and closing -/

/-- Opening a bracket has three parts. -/
lemma opening_on (b : Bracket P) (now : UInt64) :
    (opening now).on b = (do
      onCounters (starting b.bound now)
      onMask InterruptMask.mask
      onCounters (clearing now)).on b := by
  rw [starting, onCounters_bind, clearing, onCounters_bind, opening,
    on_bind_look_bound (preserves_onCounters _) fun _ bound => do
      bound.forM fun x => onCounters (Counters.startEvent x.1 now)
      onMask InterruptMask.mask
      onCounters (Counters.clearCycles now)
      onCounters (Counters.clearEvents now)]
  simp only [onCounters_forM, bind_assoc]

/-- The counters stop, interrupts come back, and nothing binds events. -/
lemma preserves_halting :
    (halting bound now : Attempt (Bracket P) Unit).Preserves Bracket.bound :=
  (preserves_onCounters _).bind fun _ => preserves_onMask _

/-- Closing a bracket has three parts, and the counters are read in the last one. -/
lemma closing_on (b : Bracket P) (now : UInt64) :
    (closing now).on b = (do
      halting b.bound now
      onCounters (telling b.bound now)).on b :=
  calc (closing now).on b
      = (onCounters (Counters.stopCycles now) >>= fun _ => Attempt.look >>= fun b' =>
          (b'.bound.forM fun x => onCounters (Counters.stopEvent x.1 now)) >>= fun _ =>
            onMask InterruptMask.unmask >>= fun _ =>
              onCounters (Counters.readCycles now) >>= fun cycles =>
                Attempt.look >>= fun b'' =>
                  onCounters (tellingEvents b''.bound now cycles)).on b := by
        simp only [closing, tellingEvents, onCounters_bind, onCounters_mapM, onCounters_pure]
    _ = ((halting b.bound now >>= fun _ => onCounters (Counters.readCycles now)) >>= fun cycles =>
          Attempt.look >>= fun b'' => onCounters (tellingEvents b''.bound now cycles)).on b := by
        rw [on_bind_look_bound (preserves_onCounters _) fun _ bound =>
          (bound.forM fun x => onCounters (Counters.stopEvent x.1 now)) >>= fun _ =>
            onMask InterruptMask.unmask >>= fun _ =>
              onCounters (Counters.readCycles now) >>= fun cycles =>
                Attempt.look >>= fun b'' => onCounters (tellingEvents b''.bound now cycles)]
        simp only [halting, stopping, onCounters_bind, onCounters_forM, bind_assoc]
    _ = ((halting b.bound now >>= fun _ => onCounters (Counters.readCycles now)) >>= fun cycles =>
          onCounters (tellingEvents b.bound now cycles)).on b :=
        on_bind_look_bound (preserves_halting.bind fun _ => preserves_onCounters _)
          (fun cycles bound => onCounters (tellingEvents bound now cycles)) b
    _ = _ := by
        simp only [telling, onCounters_bind, bind_assoc]

end Bracket

end Lockstep
