import Lockstep.Proofs.Counters.History
import Mathlib.Algebra.GroupWithZero.Nat

/-!
# Counters count the time in which they run

Ticking counters and stopwatches show, at any time, the ticks that have passed since they were set
to zero as far as they ran, however they were started, stopped, set to zero and read before.  The
proofs compare a counter with its history: one operation, or some time that passes, takes the one
from where it stands to where the other one says (`Gauge.isAt_act`, `Tally.IsAt.pass`), and so does
a whole history.

A cycle counter shows sixty-four bits.  An event counter has as many, but tells the lower half of
them only.
-/

namespace Lockstep

/-! ### Histories in the range of the clock -/

namespace Turn

variable {P : Type} [Counters P] {clock : Clock} {later earlier history : List Turn}

/-- A clock that begins like this stays in its range. -/
def InRange (clock : Clock) (history : List Turn) : Prop :=
  clock.ticks.toNat + (history.map ticks).sum < UInt64.size

/-- The cycle counter is not started before the master switch was turned on. -/
def EnablesFirst : List Turn → Prop
  | [] => True
  | turn :: earlier => (turn = .call .startCycles → .call .enable ∈ earlier) ∧ EnablesFirst earlier

instance : Decidable (InRange clock history) :=
  inferInstanceAs (Decidable (_ < _))

instance decidableEnablesFirst : (history : List Turn) → Decidable (EnablesFirst history)
  | [] => isTrue trivial
  | turn :: earlier =>
    have := decidableEnablesFirst earlier
    inferInstanceAs (Decidable ((turn = _ → _) ∧ _))

/-- A clock stays in its range until then if it stays in its range later on. -/
lemma InRange.of_append (later : List Turn) (h : InRange clock (later ++ earlier)) :
    InRange clock earlier := by
  rw [InRange, List.map_append, List.sum_append] at h
  rw [InRange]
  omega

/-- An operation does not concern the clock. -/
lemma InRange.without {c : Call} (h : InRange clock (later ++ .call c :: earlier)) :
    InRange clock (later ++ earlier) := by
  rw [InRange, List.map_append, List.sum_append, List.map_cons, List.sum_cons] at h
  rw [InRange, List.map_append, List.sum_append]
  omega

/-- The master switch comes first in the beginning of a history. -/
lemma EnablesFirst.of_append (later : List Turn) (h : EnablesFirst (later ++ earlier)) :
    EnablesFirst earlier := by
  induction later with
  | nil => exact h
  | cons _ later ih => exact ih h.2

/-- The master switch still comes first when another operation is left out. -/
lemma EnablesFirst.without {c : Call} (hc : c = .enable → .call .enable ∈ earlier)
    (h : EnablesFirst (later ++ .call c :: earlier)) : EnablesFirst (later ++ earlier) := by
  induction later with
  | nil => exact h.2
  | cons turn later ih =>
    refine ⟨fun hturn => ?_, ih h.2⟩
    rcases List.mem_append.mp (h.1 hturn) with hmem | hmem
    · exact List.mem_append_left _ hmem
    · refine List.mem_append_right _ ?_
      rcases List.mem_cons.mp hmem with heq | hmem
      · exact hc (Turn.call.inj heq).symm
      · exact hmem

/-- Time passes, and the counters do not notice. -/
lemma on_wait {n : UInt64} {s : P × Clock} (h : s.2.ticks.toNat + n.toNat < UInt64.size) :
    (wait n).perform.on s = (.ok none, s.1, { s.2 with ticks := s.2.ticks + n }) := by
  have hadvance := Clock.advance_of_lt h
  simp only [perform, Attempt.on_bind_pure, Attempt.on_within, hadvance]
  rfl

/-- An operation is done at the time that the clock shows. -/
lemma on_call (c : Call) (s : P × Clock) :
    (call c).perform.on s =
      (((c.perform s.2.ticks).on s.1).1, ((c.perform s.2.ticks).on s.1).2, s.2) := rfl

/-- The clock has gone on by the time that has passed. -/
lemma ticks_after (s : P × Clock) (h : InRange s.2 history) :
    (after history s).2.ticks.toNat = s.2.ticks.toNat + (history.map ticks).sum := by
  induction history with
  | nil => rfl
  | cons turn earlier ih =>
    have hearlier := ih (InRange.of_append [turn] h)
    rw [InRange, List.map_cons, List.sum_cons] at h
    rw [List.map_cons, List.sum_cons, after]
    cases turn with
    | wait n =>
      have hfits : (after earlier s).2.ticks.toNat + n.toNat < UInt64.size := by
        rw [hearlier]
        simp only [ticks] at h
        omega
      rw [on_wait hfits, UInt64.toNat_add, Nat.mod_eq_of_lt hfits, hearlier]
      simp only [ticks]
      omega
    | call c =>
      rw [on_call, hearlier]
      simp only [ticks]
      omega

/-- The time that passes next stays in the range of the clock. -/
lemma wait_fits {n : UInt64} (s : P × Clock) (h : InRange s.2 (wait n :: earlier)) :
    (after earlier s).2.ticks.toNat + n.toNat < UInt64.size := by
  rw [ticks_after s (InRange.of_append [wait n] h)]
  rw [InRange, List.map_cons, List.sum_cons] at h
  simp only [ticks] at h
  omega

end Turn

/-! ### What it means to count -/

namespace Gauge

variable {P : Type} [Counters P] {g : Gauge} {value : P × Clock → Except Fault UInt64}
  {s : P × Clock} {history : List Turn}

/-- The operation that reads the counter. -/
def reading : Gauge → Call
  | cycles => .readCycles
  | event slot => .readEvent ⟨UInt8.ofNat slot⟩

/-- A number as it is read from the counter. -/
def cut : Gauge → Nat → Nat
  | cycles, n => n
  | event _, n => n % UInt32.size

/-- The counter counts the ticks of the time in which it runs, from when the history begins until it
ends. -/
structure Counts (g : Gauge) (value : P × Clock → Except Fault UInt64) (s : P × Clock)
    (history : List Turn) : Prop where
  /-- Its value is the number of ticks that passed while it ran. -/
  shows : ∃ v, value (Turn.after history s) = .ok v ∧ v.toNat = g.counted history
  /-- This number is read from it. -/
  reads : ∃ v, ((Turn.call g.reading).perform.on (Turn.after history s)).1 = .ok (some v) ∧
    v.toNat = g.cut (g.counted history)
  /-- No number has left its range in the end. -/
  fits : ∀ turn earlier, history = turn :: earlier →
    (turn.perform.on (Turn.after earlier s)).1 ≠ .error .overflow
  /-- If it was not set to zero in the end, its value is the same as before. -/
  keeps : ∀ c earlier, history = .call c :: earlier → g.isClearedBy c = false →
    value (Turn.after history s) = value (Turn.after earlier s)
  /-- Its value is the same without an idle operation. -/
  ignores : ∀ later c earlier, history = later ++ .call c :: earlier →
    (c = .enable → .call .enable ∈ earlier) → g.IsIdle earlier c →
    value (Turn.after history s) = value (Turn.after (later ++ earlier) s)
  /-- Its value has not become less since it was set to zero. -/
  grows : ∀ later earlier, history = later ++ earlier →
    (∀ c, .call c ∈ later → g.isClearedBy c = false) →
    ∃ v w, value (Turn.after earlier s) = .ok v ∧ value (Turn.after history s) = .ok w ∧ v ≤ w

/-- A counter counts if its value is always what its history says, in histories of which the
beginnings are such histories as well, and which remain such without one of their operations. -/
lemma counts_of_value (Fine : List Turn → Prop)
    (hbeginning : ∀ later earlier, Fine (later ++ earlier) → Fine earlier)
    (hwithout : ∀ later c earlier, (c = .enable → .call .enable ∈ earlier) →
      Fine (later ++ .call c :: earlier) → Fine (later ++ earlier))
    (hvalue : ∀ h, Fine h → ∃ v, value (Turn.after h s) = .ok v ∧ v.toNat = g.counted h)
    (hreads : ∃ v, ((Turn.call g.reading).perform.on (Turn.after history s)).1 = .ok (some v) ∧
      v.toNat = g.cut (g.counted history))
    (hfits : ∀ turn earlier, history = turn :: earlier →
      (turn.perform.on (Turn.after earlier s)).1 ≠ .error .overflow)
    (hfine : Fine history) : g.Counts value s history := by
  have hsame : ∀ h h', Fine h → Fine h' → g.counted h = g.counted h' →
      value (Turn.after h s) = value (Turn.after h' s) := by
    intro h h' hh hh' hcounted
    obtain ⟨v, hv, hvc⟩ := hvalue h hh
    obtain ⟨w, hw, hwc⟩ := hvalue h' hh'
    have hvw : v = w := UInt64.toNat_inj.mp (hvc.trans (hcounted.trans hwc.symm))
    rw [hv, hw, hvw]
  refine ⟨hvalue history hfine, hreads, hfits, ?_, ?_, ?_⟩
  · rintro c earlier rfl hclear
    refine hsame _ _ hfine (hbeginning [.call c] earlier hfine) ?_
    rw [counted, hclear]
    rfl
  · rintro later c earlier rfl henable hidle
    exact hsame _ _ hfine (hwithout later c earlier henable hfine) (of_isIdle hidle later).2
  · rintro later earlier rfl hclear
    obtain ⟨v, hv, hvc⟩ := hvalue _ (hbeginning later earlier hfine)
    obtain ⟨w, hw, hwc⟩ := hvalue _ hfine
    refine ⟨v, w, hv, hw, UInt64.le_iff_toNat_le.mpr ?_⟩
    rw [hvc, hwc]
    exact counted_le_append hclear

end Gauge

/-! ### Ticking counters -/

namespace TickingCounters

variable {p : TickingCounters} {g : Gauge} {c : Call} {now : UInt64} {earlier history : List Turn}
  {α γ : Type} {a : Attempt Tally α} {slot : Event.Slot}

/-- One of the counters. -/
def tally (g : Gauge) (p : TickingCounters) : Tally :=
  match g with
  | .cycles => p.cycles
  | .event k => p.events.get k

/-- What is done to an event counter does not concern anything else. -/
lemma preserves_onEvent {f : TickingCounters → γ}
    (hf : ∀ p events, f { p with events := events } = f p) (slot : Event.Slot)
    (a : Attempt Tally α) : (onEvent slot a).Preserves f := by
  rw [onEvent]
  split_ifs with hslot
  · exact fun p => hf p _
  · exact Attempt.Preserves.stop f _

/-- What is done to an event counter does not concern the others. -/
lemma get_onEvent (slot : Event.Slot) (a : Attempt Tally α) (p : TickingCounters)
    (k : Fin Event.slotLimit) :
    ((onEvent slot a).on p).2.events.get k =
      if slot.index.toNat = k then (a.on (p.events.get k)).2 else p.events.get k := by
  by_cases hslot : slot.index.toNat < Event.slotLimit
  · rw [onEvent, dif_pos hslot]
    refine (get_set p.events ⟨slot.index.toNat, hslot⟩ k _).trans ?_
    by_cases hk : slot.index.toNat = k
    · obtain rfl : ⟨slot.index.toNat, hslot⟩ = k := Fin.ext hk
      rw [if_pos rfl, if_pos hk]
      rfl
    · rw [if_neg hk, if_neg fun h => hk (congrArg Fin.val h)]
  · have hk : slot.index.toNat ≠ k := fun h => hslot (h ▸ k.isLt)
    rw [onEvent, dif_neg hslot, if_neg hk]
    rfl

/-- What is done to an event counter answers what it answers by itself. -/
lemma fst_onEvent {k : Fin Event.slotLimit} (hk : slot.index.toNat = k) :
    ((onEvent slot a).on p).1 = (a.on (p.events.get k)).1 := by
  have hslot : slot.index.toNat < Event.slotLimit := hk ▸ k.isLt
  obtain rfl : ⟨slot.index.toNat, hslot⟩ = k := Fin.ext hk
  rw [onEvent, dif_pos hslot]
  rfl

/-- What is done to an event counter does not leave the range if it does so for none of them. -/
lemma onEvent_fits (h : ∀ k, (a.on (p.events.get k)).1 ≠ .error .overflow) :
    ((onEvent slot a).on p).1 ≠ .error .overflow := by
  rw [onEvent]
  split_ifs with hslot
  · exact h ⟨slot.index.toNat, hslot⟩
  · simp

/-- Every operation does to every counter what it is meant to do, but the cycle counter cannot be
started before the master switch is turned on. -/
lemma tally_perform (h : c = .startCycles → p.enabled = true) :
    ((c.perform now).on p).2.tally g = g.act Tally.stop c now (p.tally g) := by
  cases c with
  | startCycles =>
    have henabled : (note .startCycles p).enabled = true := h rfl
    simp only [Call.perform, Counters.startCycles, Attempt.on_bind_pure, Attempt.on_change_bind,
      Attempt.on_look_bind, if_pos henabled]
    cases g with
    | cycles => rfl
    | event k => rfl
  | clearEvents =>
    cases g with
    | cycles => rfl
    | event k => exact Vector.getElem_map _ _
  | bind slot code =>
    simp only [Call.perform, Counters.bind, Attempt.on_bind_pure, Attempt.on_change_bind,
      Attempt.on_look_bind]
    split_ifs <;> cases g <;> rfl
  | startEvent slot | stopEvent slot | readEvent slot =>
    simp only [Call.perform, Counters.startEvent, Counters.stopEvent, Counters.readEvent,
      Attempt.on_bind_pure, Attempt.on_change_bind]
    cases g with
    | cycles => exact preserves_onEvent (fun _ _ => rfl) slot _ _
    | event k =>
      refine (get_onEvent slot _ _ k).trans ?_
      by_cases hk : slot.index.toNat = k
      · simp only [Gauge.act, Gauge.switch?, if_pos hk]
        rfl
      · simp only [Gauge.act, Gauge.switch?, if_neg hk]
        rfl
  | enable | stopCycles | clearCycles | readCycles | mask | unmask =>
    simp only [Call.perform, Counters.enable, Counters.stopCycles, Counters.clearCycles,
      Counters.readCycles, Attempt.on_bind_pure, Attempt.on_change_bind]
    cases g <;> rfl

/-- Nothing turns the master switch off. -/
lemma enabled_perform (h : c = .enable ∨ p.enabled = true) :
    ((c.perform now).on p).2.enabled = true := by
  rcases h with rfl | henabled
  · rfl
  cases c with
  | enable => rfl
  | startCycles | bind slot code =>
    simp only [Call.perform, Counters.startCycles, Counters.bind, Attempt.on_bind_pure,
      Attempt.on_change_bind, Attempt.on_look_bind]
    split_ifs <;> exact henabled
  | startEvent slot | stopEvent slot | readEvent slot =>
    simp only [Call.perform, Counters.startEvent, Counters.stopEvent, Counters.readEvent,
      Attempt.on_bind_pure, Attempt.on_change_bind]
    exact (preserves_onEvent (fun _ _ => rfl) slot _ _).trans henabled
  | stopCycles | clearCycles | readCycles | clearEvents | mask | unmask =>
    simp only [Call.perform, Counters.stopCycles, Counters.clearCycles, Counters.readCycles,
      Counters.clearEvents, Attempt.on_bind_pure, Attempt.on_change_bind]
    exact henabled

/-- Operations may be refused, but no number leaves its range. -/
lemma perform_fits (h : ∀ g, ∃ runs count, (p.tally g).IsAt now runs count) :
    ((c.perform now).on p).1 ≠ .error .overflow := by
  have hstop : ∀ g, ((Tally.stop now).on (p.tally g)).1 ≠ .error .overflow := by
    intro g
    obtain ⟨runs, count, hg⟩ := h g
    obtain ⟨_, t, hon, -⟩ := Tally.halts_stop _ _ _ _ hg
    simp [hon]
  have hread : ∀ g, ((TickingCounters.reading now).on (p.tally g)).1 ≠ .error .overflow := by
    intro g
    obtain ⟨runs, count, hg⟩ := h g
    obtain ⟨v, hv, -⟩ := hg.exists_value
    change (p.tally g).value now ≠ _
    simp [hv]
  cases c with
  | startCycles | bind slot code =>
    simp only [Call.perform, Counters.startCycles, Counters.bind, Attempt.on_bind_pure,
      Attempt.on_change_bind, Attempt.on_look_bind, ne_eq, map_eq_error]
    split_ifs <;> simp [onCycles]
  | startEvent slot =>
    simp only [Call.perform, Counters.startEvent, Attempt.on_bind_pure, Attempt.on_change_bind,
      ne_eq, map_eq_error]
    exact onEvent_fits fun k => by simp
  | stopEvent slot =>
    simp only [Call.perform, Counters.stopEvent, Attempt.on_bind_pure, Attempt.on_change_bind,
      ne_eq, map_eq_error]
    exact onEvent_fits fun k => hstop (.event k)
  | readEvent slot =>
    simp only [Call.perform, Counters.readEvent, Attempt.on_bind_pure, Attempt.on_change_bind,
      ne_eq, map_eq_error]
    exact onEvent_fits fun k => hread (.event k)
  | stopCycles =>
    simp only [Call.perform, Counters.stopCycles, Attempt.on_bind_pure, Attempt.on_change_bind,
      ne_eq, map_eq_error]
    exact hstop .cycles
  | readCycles =>
    simp only [Call.perform, Counters.readCycles, Attempt.on_bind_pure, Attempt.on_change_bind,
      ne_eq, map_eq_error]
    exact hread .cycles
  | enable | clearCycles | clearEvents | mask | unmask =>
    intro hfault
    cases hfault

/-- The counters stand where their history says. -/
structure Follows (history : List Turn) (now : UInt64) (p : TickingCounters) : Prop where
  isAt : ∀ g, (p.tally g).IsAt now (g.isRunning history) (g.counted history)
  enabled : .call .enable ∈ history → p.enabled = true

/-- New counters have no history. -/
lemma follows_withSlots (slots : Nat) (now : UInt64) : (withSlots slots).Follows [] now := by
  refine ⟨fun g => ?_, nofun⟩
  have htally : (withSlots slots).tally g = {} := by
    cases g with
    | cycles => rfl
    | event k => exact Vector.getElem_replicate _
  rw [htally]
  exact Tally.isAt_new now

/-- Time that passes takes counters to where their history says. -/
lemma Follows.wait {n : UInt64} (h : p.Follows earlier now)
    (hfits : now.toNat + n.toNat < UInt64.size) : p.Follows (.wait n :: earlier) (now + n) :=
  ⟨fun g => (h.isAt g).pass hfits, fun hmem => h.enabled ((List.mem_cons.mp hmem).resolve_left nofun)⟩

/-- An operation takes counters to where their history says. -/
lemma Follows.call (h : p.Follows earlier now)
    (henables : c = .startCycles → .call .enable ∈ earlier) :
    ((c.perform now).on p).2.Follows (.call c :: earlier) now := by
  refine ⟨fun g => ?_, fun hmem => enabled_perform ?_⟩
  · rw [tally_perform fun hc => h.enabled (henables hc)]
    exact Gauge.isAt_act Tally.halts_stop (h.isAt g)
  · rcases List.mem_cons.mp hmem with heq | hmem
    · exact .inl (Turn.call.inj heq).symm
    · exact .inr (h.enabled hmem)

/-- A whole history takes new counters to where it says. -/
lemma follows_after {slots : Nat} {clock : Clock} (hrange : Turn.InRange clock history)
    (henables : Turn.EnablesFirst history) :
    (Turn.after history (withSlots slots, clock)).1.Follows history
      (Turn.after history (withSlots slots, clock)).2.ticks := by
  induction history with
  | nil => exact follows_withSlots slots clock.ticks
  | cons turn earlier ih =>
    have hearlier := ih (hrange.of_append [turn]) henables.2
    rw [Turn.after]
    cases turn with
    | wait n =>
      have hfits := Turn.wait_fits (withSlots slots, clock) hrange
      rw [Turn.on_wait hfits]
      exact hearlier.wait hfits
    | call c =>
      rw [Turn.on_call]
      exact hearlier.call fun hc => henables.1 (congrArg Turn.call hc)

/-- No number leaves its range in the next turn. -/
lemma Follows.fits {turn : Turn} {clock : Clock} (h : p.Follows earlier clock.ticks)
    (hfits : ∀ n, turn = .wait n → clock.ticks.toNat + n.toNat < UInt64.size) :
    (turn.perform.on (p, clock)).1 ≠ .error .overflow := by
  cases turn with
  | wait n =>
    rw [Turn.on_wait (hfits n rfl)]
    nofun
  | call c =>
    rw [Turn.on_call]
    exact perform_fits fun g => ⟨_, _, h.isAt g⟩

/-- What is read from a counter is what its history says. -/
lemma Follows.reads (h : p.Follows history now) (g : Gauge) :
    ∃ v, ((g.reading.perform now).on p).1 = .ok (some v) ∧ v.toNat = g.cut (g.counted history) := by
  obtain ⟨v, hv, -, hcount⟩ := (h.isAt g).exists_value
  rw [← hcount]
  cases g with
  | cycles =>
    refine ⟨v, ?_, rfl⟩
    simp only [Gauge.reading, Call.perform, Counters.readCycles, Attempt.on_bind_pure,
      Attempt.on_change_bind]
    change ((p.tally .cycles).value now).map some = _
    rw [hv]
    rfl
  | event k =>
    have hk : (⟨UInt8.ofNat k⟩ : Event.Slot).index.toNat = k :=
      UInt8.toNat_ofNat_of_lt (Nat.lt_trans k.isLt (by decide))
    refine ⟨v.toUInt32.toUInt64, ?_, UInt64.toNat_toUInt32 v⟩
    simp only [Gauge.reading, Call.perform, Counters.readEvent, Attempt.on_bind_pure,
      Attempt.on_change_bind, fst_onEvent hk]
    change (((p.tally (.event k)).value now).map UInt64.toUInt32).map _ = _
    rw [hv]
    rfl

/-- Every counter counts the time in which it runs. -/
lemma counts (slots : Nat) (clock : Clock) (history : List Turn)
    (hrange : Turn.InRange clock history) (henables : Turn.EnablesFirst history) (g : Gauge) :
    g.Counts (fun s => (s.1.tally g).value s.2.ticks) (withSlots slots, clock) history := by
  refine Gauge.counts_of_value (fun h => Turn.InRange clock h ∧ Turn.EnablesFirst h)
    (fun later _ h => ⟨h.1.of_append later, h.2.of_append later⟩)
    (fun _ _ _ hc h => ⟨h.1.without, h.2.without hc⟩) ?_ ?_ ?_ ⟨hrange, henables⟩
  · rintro h ⟨hr, he⟩
    obtain ⟨v, hv, -, hcount⟩ := ((follows_after hr he).isAt g).exists_value
    exact ⟨v, hv, hcount⟩
  · exact (follows_after hrange henables).reads g
  · rintro turn earlier rfl
    refine (follows_after (hrange.of_append [turn]) henables.2).fits ?_
    rintro n rfl
    exact Turn.wait_fits (withSlots slots, clock) hrange

end TickingCounters

/-! ### The stopwatch -/

namespace Stopwatch

variable {p : Stopwatch} {c : Call} {now : UInt64} {earlier history : List Turn} {clock : Clock}

/-- Every operation does to the cycle counter what it is meant to do. -/
lemma cycles_perform :
    ((c.perform now).on p).2.cycles = Gauge.cycles.act Stopwatch.stop c now p.cycles := by
  cases c with
  | enable | startCycles | stopCycles | clearCycles | readCycles | clearEvents | mask | unmask =>
    simp only [Call.perform, Counters.enable, Counters.startCycles, Counters.stopCycles,
      Counters.clearCycles, Counters.readCycles, Counters.clearEvents, Attempt.on_bind_pure]
    rfl
  | bind slot code | startEvent slot | stopEvent slot | readEvent slot => rfl

/-- No operation is refused, and no number leaves its range. -/
lemma perform_fits {runs : Bool} {count : Nat} (h : p.cycles.IsAt now runs count) :
    ((c.perform now).on p).1 ≠ .error .overflow := by
  cases c with
  | stopCycles =>
    obtain ⟨_, t, hon, -⟩ := Tally.halts_stopwatch _ _ _ _ h
    simp only [Call.perform, Counters.stopCycles, Attempt.on_bind_pure, onCycles,
      Attempt.on_within, hon]
    nofun
  | readCycles =>
    obtain ⟨v, -, hv, -⟩ := h.exists_value
    simp only [Call.perform, Counters.readCycles, Attempt.on_bind_pure, onCycles,
      Attempt.on_within, Attempt.on_look_bind, Attempt.on_take, hv]
    nofun
  | _ => nofun

/-- A whole history takes a new stopwatch to where it says. -/
lemma isAt_after (hrange : Turn.InRange clock history) :
    (Turn.after history (({} : Stopwatch), clock)).1.cycles.IsAt
      (Turn.after history (({} : Stopwatch), clock)).2.ticks
      (Gauge.cycles.isRunning history) (Gauge.cycles.counted history) := by
  induction history with
  | nil => exact Tally.isAt_new clock.ticks
  | cons turn earlier ih =>
    have hearlier := ih (hrange.of_append [turn])
    rw [Turn.after]
    cases turn with
    | wait n =>
      have hfits := Turn.wait_fits (({} : Stopwatch), clock) hrange
      rw [Turn.on_wait hfits]
      exact hearlier.pass hfits
    | call c =>
      rw [Turn.on_call, cycles_perform]
      exact Gauge.isAt_act Tally.halts_stopwatch hearlier

/-- A stopwatch counts the time in which it runs. -/
lemma counts (clock : Clock) (history : List Turn) (hrange : Turn.InRange clock history) :
    Gauge.cycles.Counts (fun s => Stopwatch.value s.2.ticks s.1.cycles) (({} : Stopwatch), clock)
      history := by
  refine Gauge.counts_of_value (Turn.InRange clock) (fun later _ h => h.of_append later)
    (fun _ _ _ _ h => h.without) ?_ ?_ ?_ hrange
  · intro h hr
    obtain ⟨v, -, hv, hcount⟩ := (isAt_after hr).exists_value
    exact ⟨v, hv, hcount⟩
  · obtain ⟨v, -, hv, hcount⟩ := (isAt_after hrange).exists_value
    refine ⟨v, ?_, hcount⟩
    simp only [Turn.on_call, Gauge.reading, Call.perform, Counters.readCycles,
      Attempt.on_bind_pure, onCycles, Attempt.on_within, Attempt.on_look_bind, Attempt.on_take, hv]
    rfl
  · rintro turn earlier rfl
    cases turn with
    | wait n =>
      rw [Turn.on_wait (Turn.wait_fits (({} : Stopwatch), clock) hrange)]
      nofun
    | call c =>
      rw [Turn.on_call]
      exact perform_fits (isAt_after (hrange.of_append [.call c]))

end Stopwatch

/-! ### Both of them -/

namespace Counters

/-- Ticking counters and stopwatches show the ticks that have passed while they ran since they were
set to zero, whatever is done to them and whenever it is done, as long as the clock stays in its
range.  Ticking counters have a master switch, which has to come before the start of the cycle
counter. -/
theorem count_while_running (slots : Nat) (clock : Clock) (history : List Turn)
    (hrange : Turn.InRange clock history) :
    (Turn.EnablesFirst history → ∀ g : Gauge,
      g.Counts (fun s => (s.1.tally g).value s.2.ticks) (TickingCounters.withSlots slots, clock)
        history) ∧
      Gauge.cycles.Counts (fun s => Stopwatch.value s.2.ticks s.1.cycles)
        (({} : Stopwatch), clock) history :=
  ⟨TickingCounters.counts slots clock history hrange, Stopwatch.counts clock history hrange⟩

/-- A session in which the cycle counter is started twice, set to zero while it runs and stopped
twice, and an event counter begins late, of which the latest turn comes first. -/
def session : List Turn :=
  [.wait 4, .call (.startEvent ⟨1⟩), .wait 2, .call .stopCycles, .call .readCycles,
    .call .stopCycles, .wait 7, .call .clearCycles, .wait 3, .call .startCycles, .wait 5,
    .call .startCycles, .call .enable]

/-- After the session the cycle counter has counted seven ticks, and the event counter four. -/
theorem count_in_session :
    Gauge.cycles.counted session = 7 ∧ (Gauge.event ⟨1, by decide⟩).counted session = 4 ∧
      (∀ g : Gauge, g.Counts (fun s => (s.1.tally g).value s.2.ticks)
        (TickingCounters.withSlots 2, Clock.shared) session) ∧
      Gauge.cycles.Counts (fun s => Stopwatch.value s.2.ticks s.1.cycles)
        (({} : Stopwatch), Clock.shared) session :=
  ⟨by decide, by decide, (count_while_running 2 Clock.shared session (by decide)).1 (by decide),
    (count_while_running 2 Clock.shared session (by decide)).2⟩

end Counters

end Lockstep
