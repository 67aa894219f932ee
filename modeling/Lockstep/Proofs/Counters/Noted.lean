import Lockstep.Proofs.Counters.Counted

/-!
# What counters note down

Counters of a simulated clock note every operation down before anything else, and nothing but the
operations.  So what is noted down does not depend on what else an attempt does, and is told part by
part (`Attempt.Appends`).  A counter that was to be stopped stands still, whether or not this has
succeeded.
-/

namespace Lockstep

/-! ### Attempts that append to a list -/

namespace Attempt

variable {σ τ α β γ δ : Type} {f : σ → List γ}

/-- When the attempt has succeeded, this list stands behind what `f` looked at before. -/
def Appends (f : σ → List γ) (noted : List γ) (a : Attempt σ α) : Prop :=
  ∀ s x t, a.on s = (.ok x, t) → f t = f s ++ noted

/-- What is left alone gets nothing appended. -/
lemma Preserves.appends {a : Attempt σ α} (h : a.Preserves f) : a.Appends f [] := by
  intro s x t hon
  rw [h.eq_of_on hon, List.append_nil]

/-- One attempt after the other appends what both of them append. -/
lemma Appends.bind {a : Attempt σ α} {next : α → Attempt σ β} {noted later : List γ}
    (ha : a.Appends f noted) (hnext : ∀ x, (next x).Appends f later) :
    (a >>= next).Appends f (noted ++ later) := by
  intro s y t hon
  obtain ⟨x, u, hx, hy⟩ := on_bind_eq_ok hon
  rw [hnext x u y t hy, ha s x u hx, List.append_assoc]

/-- A result that is made from the one of an attempt appends nothing. -/
lemma Appends.bind_pure {a : Attempt σ α} {noted : List γ} (ha : a.Appends f noted) (g : α → β) :
    (a >>= fun x => Pure.pure (g x)).Appends f noted := by
  have hpure := ha.bind fun x => (Preserves.pure f (g x)).appends
  rwa [List.append_nil] at hpure

/-- A loop appends what each of its rounds appends. -/
lemma Appends.forM {next : δ → Attempt σ PUnit} {g : δ → γ}
    (h : ∀ x, (next x).Appends f [g x]) (xs : List δ) : (xs.forM next).Appends f (xs.map g) := by
  induction xs with
  | nil => exact (Preserves.pure f _).appends
  | cons x xs ih => exact (h x).bind fun _ => ih

/-- A loop that collects results appends what each of its rounds appends. -/
lemma Appends.mapM {next : δ → Attempt σ α} {g : δ → γ}
    (h : ∀ x, (next x).Appends f [g x]) (xs : List δ) : (xs.mapM next).Appends f (xs.map g) := by
  induction xs with
  | nil => exact (Preserves.pure f _).appends
  | cons x xs ih =>
    rw [List.mapM_cons]
    exact (h x).bind fun y => ih.bind_pure fun ys => y :: ys

/-- An attempt that succeeds has appended what it appends. -/
lemma Succeeds.appends {a : Attempt σ α} {s : σ} {Q : α → σ → Prop} {noted : List γ}
    (h : a.Succeeds s Q) (ha : a.Appends f noted) :
    a.Succeeds s fun x t => Q x t ∧ f t = f s ++ noted := by
  obtain ⟨x, t, hon, hx⟩ := h
  exact ⟨x, t, hon, hx, ha s x t hon⟩

end Attempt

/-- A counter that was to be stopped stands still, even if its value leaves the range. -/
lemma Tally.since_stop (now : UInt64) (t : Tally) : ((Tally.stop now).on t).2.since? = none := by
  obtain ⟨counted, _ | since⟩ := t
  · rfl
  · simp only [Tally.stop, Attempt.on_look_bind, Attempt.on_change_bind]
    -- whether or not the subtraction and the addition fail, nothing starts the counter again
    have hlast : ∀ passed, (do
        let counted ← Attempt.take (checkedAdd counted passed)
        Attempt.change fun t : Tally => { t with counted := counted }).Preserves Tally.since? :=
      fun passed => (Attempt.Preserves.take _ _).bind fun _ => Attempt.Preserves.change fun _ => rfl
    exact ((Attempt.Preserves.take _ _).bind hlast) _

/-! ### What is noted down -/

namespace TickingCounters

variable {α : Type} {now : UInt64}

/-- The calls that were noted down, the first one first. -/
def log (p : TickingCounters) : List Call :=
  p.calls.toList

/-- An operation that begins by noting a call down, and notes nothing else down. -/
lemma appends_of_note (call : Call) {a : Attempt TickingCounters α} (h : a.Preserves log) :
    (Attempt.change (note call) >>= fun _ => a).Appends log [call] := by
  intro p x p' hon
  have hlog := h.eq_of_on (s := note call p) hon
  rw [hlog]
  exact Array.toList_push

/-- Nothing that is done to the cycle counter is noted down by itself. -/
lemma log_onCycles (a : Attempt Tally α) : (onCycles a).Preserves log :=
  fun _ => rfl

/-- Nothing that is done to an event counter is noted down by itself. -/
lemma log_onEvent (slot : Event.Slot) (a : Attempt Tally α) : (onEvent slot a).Preserves log :=
  preserves_onEvent (fun _ _ => rfl) slot a

variable {slot : Event.Slot} {code : Event.Code}

lemma appends_enable : (Counters.enable : Attempt TickingCounters Unit).Appends log [.enable] :=
  appends_of_note .enable fun _ => rfl

lemma appends_bind : (Counters.bind slot code : Attempt TickingCounters Unit).Appends log
    [.bind slot code] := by
  refine appends_of_note (.bind slot code) ((Attempt.Preserves.look log).bind fun p => ?_)
  split_ifs
  · exact fun _ => rfl
  · exact Attempt.Preserves.stop log _

lemma appends_startCycles :
    (Counters.startCycles now : Attempt TickingCounters Unit).Appends log [.startCycles] := by
  refine appends_of_note .startCycles ((Attempt.Preserves.look log).bind fun p => ?_)
  split_ifs
  · exact log_onCycles _
  · exact Attempt.Preserves.stop log _

lemma appends_stopCycles :
    (Counters.stopCycles now : Attempt TickingCounters Unit).Appends log [.stopCycles] :=
  appends_of_note .stopCycles (log_onCycles _)

lemma appends_clearCycles :
    (Counters.clearCycles now : Attempt TickingCounters Unit).Appends log [.clearCycles] :=
  appends_of_note .clearCycles (log_onCycles _)

lemma appends_readCycles :
    (Counters.readCycles now : Attempt TickingCounters UInt64).Appends log [.readCycles] :=
  appends_of_note .readCycles (log_onCycles _)

lemma appends_startEvent : (Counters.startEvent slot now : Attempt TickingCounters Unit).Appends log
    [.startEvent slot] :=
  appends_of_note (.startEvent slot) (log_onEvent slot _)

lemma appends_stopEvent : (Counters.stopEvent slot now : Attempt TickingCounters Unit).Appends log
    [.stopEvent slot] :=
  appends_of_note (.stopEvent slot) (log_onEvent slot _)

lemma appends_readEvent : (Counters.readEvent slot now : Attempt TickingCounters UInt32).Appends log
    [.readEvent slot] :=
  appends_of_note (.readEvent slot) ((log_onEvent slot _).bind fun _ => Attempt.Preserves.pure log _)

lemma appends_clearEvents :
    (Counters.clearEvents now : Attempt TickingCounters Unit).Appends log [.clearEvents] :=
  appends_of_note .clearEvents fun _ => rfl

/-! ### Counters that stand still -/

/-- The cycle counter and the event counters of these slots stand still. -/
structure StandStill (slots : List Event.Slot) (p : TickingCounters) : Prop where
  cycles : p.cycles.since? = none
  events : ∀ k : Fin Event.slotLimit, ∀ slot ∈ slots, slot.index.toNat = k →
    (p.events.get k).since? = none

/-- The cycle counter stands still after it was stopped. -/
lemma standStill_stopCycles (now : UInt64) (p : TickingCounters) :
    ((Counters.stopCycles now).on p).2.StandStill [] :=
  ⟨Tally.since_stop now p.cycles, fun _ _ hslot => absurd hslot List.not_mem_nil⟩

/-- An event counter that is stopped stands still as well. -/
lemma StandStill.stopEvent {slots : List Event.Slot} {p : TickingCounters}
    (h : p.StandStill slots) (slot : Event.Slot) (now : UInt64) :
    ((Counters.stopEvent slot now).on p).2.StandStill (slot :: slots) := by
  simp only [Counters.stopEvent, Attempt.on_change_bind]
  refine ⟨?_, fun k other hother hk => ?_⟩
  · have hcycles : (onEvent slot (Tally.stop now)).Preserves TickingCounters.cycles :=
      preserves_onEvent (fun _ _ => rfl) slot _
    exact (congrArg Tally.since? (hcycles _)).trans h.cycles
  · refine (congrArg Tally.since? (get_onEvent slot _ _ k)).trans ?_
    split_ifs with hsame
    · exact Tally.since_stop now _
    · rcases List.mem_cons.mp hother with rfl | hmem
      · exact absurd hk hsame
      · exact h.events k other hmem hk

/-- Event counters that were stopped one after the other stand still together. -/
lemma StandStill.forM {bound : List (Event.Slot × Event.Code)} {slots : List Event.Slot}
    {p p' : TickingCounters} {r : PUnit} (h : p.StandStill slots)
    (hon : (bound.forM fun x => Counters.stopEvent x.1 now).on p = (.ok r, p')) :
    p'.StandStill (bound.map Prod.fst ++ slots) := by
  induction bound generalizing p slots with
  | nil =>
    cases hon
    exact h
  | cons x bound ih =>
    obtain ⟨_, q, hq, hon⟩ := Attempt.on_bind_eq_ok hon
    have hx := h.stopEvent x.1 now
    rw [hq] at hx
    obtain ⟨hcycles, hevents⟩ := ih hx hon
    refine ⟨hcycles, fun k slot hslot => hevents k slot ?_⟩
    rw [List.map_cons, List.cons_append, List.mem_cons, List.mem_append] at hslot
    rw [List.mem_append, List.mem_cons]
    tauto

end TickingCounters

end Lockstep
