import Lockstep.Proofs.Bracket.Setup
import Lockstep.Proofs.Counters

/-!
# What a bracket measures in simulated time

A bracket on counters of a simulated clock that were switched on, with its events in slots that
exist, never fails: it counts exactly the time between its opening and its closing.
-/

namespace Lockstep

/-- Counters of a simulated clock can be switched on and bound as they should, whatever they have
done before. -/
lemma TickingCounters.obliges : Counters.Obliges TickingCounters where
  enable p := by
    simp only [Counters.enable, Attempt.succeeds_bind, Attempt.succeeds_change]
    rfl
  bind p slot code hslot := by
    have hlt : slot.index.toNat < p.slots := hslot
    simp only [Counters.bind, Attempt.succeeds_bind, Attempt.succeeds_change,
      Attempt.succeeds_look, TickingCounters.note, hlt, if_true]
    rfl

namespace Bracket

/-! ### The parts of a measurement -/

section Parts

variable {bound : List (Event.Slot × Event.Code)} {now v : UInt64} {p : TickingCounters}
  {started told : List Event.Slot}

/-- Counters that are switched on can be started. -/
lemma succeeds_starting (h : p.enabled = true)
    (hbound : ∀ x ∈ bound, x.1.index.toNat < Event.slotLimit) (now : UInt64) :
    (starting bound now).Succeeds p fun _ p' => p'.Runs (bound.map Prod.fst) := by
  rw [starting, Attempt.succeeds_bind]
  refine (TickingCounters.succeeds_startCycles h).mono fun _ q hq => ?_
  -- the counters of the events start one after the other, and nothing else changes
  refine (Attempt.succeeds_forM_done (I := fun done q => q.Runs (done.map Prod.fst)) []
    (fun done x hx q hq => TickingCounters.succeeds_startEvent hq (hbound x hx)) hq).mono
    fun _ q hq => ?_
  refine ⟨hq.enabled, hq.running, fun k slot hslot => hq.events k slot ?_⟩
  rwa [List.append_nil, List.map_reverse, List.mem_reverse]

/-- Counters that run can be set to zero. -/
lemma succeeds_clearing (h : p.Runs started) (now : UInt64) :
    (clearing now).Succeeds p fun _ p' => p'.IsClear now ∧ p'.Counts now started := by
  rw [clearing, Attempt.succeeds_bind]
  exact TickingCounters.succeeds_clear h

/-- Counters that show something can be stopped, and show it still. -/
lemma succeeds_stopping (h : p.Shows now v told)
    (hbound : ∀ x ∈ bound, x.1.index.toNat < Event.slotLimit) :
    (stopping bound now).Succeeds p fun _ p' => p'.Shows now v told := by
  rw [stopping, Attempt.succeeds_bind]
  refine (TickingCounters.succeeds_stopCycles h).mono fun _ q hq => ?_
  exact Attempt.succeeds_forM
    (fun x hx q hq => TickingCounters.succeeds_stopEvent hq (hbound x hx)) hq

/-- A reading of a bound event, which tells that number if its counter has counted all the while. -/
structure IsReading (told : List Event.Slot) (ticks : UInt64) (x : Event.Slot × Event.Code)
    (reading : Event.Reading) : Prop where
  slot : reading.slot = x.1
  code : reading.code = x.2
  count : x.1 ∈ told → reading.count = ticks.toUInt32

/-- Counters that show something can be read, and show it still. -/
lemma succeeds_telling (h : p.Shows now v told)
    (hbound : ∀ x ∈ bound, x.1.index.toNat < Event.slotLimit) :
    (telling bound now).Succeeds p fun m p' => p'.Shows now v told ∧ m.cycles = v ∧
      List.Forall₂ (IsReading told v) bound m.events := by
  rw [telling, Attempt.succeeds_bind]
  refine (TickingCounters.succeeds_readCycles h).mono fun cycles q hq => ?_
  obtain ⟨rfl, hq⟩ := hq
  rw [tellingEvents, Attempt.succeeds_bind]
  refine (Attempt.succeeds_mapM_forall₂ (R := IsReading told cycles) (fun x hx q hq => ?_) hq).mono
    fun events q' hq' => Attempt.succeeds_pure.mpr ⟨hq'.2, rfl, hq'.1⟩
  rw [Attempt.succeeds_bind]
  refine (TickingCounters.succeeds_readEvent hq (hbound x hx)).mono fun count q' hq' => ?_
  exact Attempt.succeeds_pure.mpr ⟨⟨rfl, rfl, hq'.1⟩, hq'.2⟩

end Parts

/-! ### Opening and closing -/

variable {b : Bracket TickingCounters} {since now : UInt64}

/-- The bracket is on counters that are switched on, its events are in slots that exist, and it lets
interrupts through. -/
structure IsReady (b : Bracket TickingCounters) : Prop where
  enabled : b.counters.enabled = true
  mask : b.mask = .unmasked
  bound : ∀ x ∈ b.bound, x.1.index.toNat < Event.slotLimit

/-- The bracket is ready and has those events bound. -/
structure Binds (events : List Event.Code) (b : Bracket TickingCounters) : Prop
    extends IsReady b where
  slotted : b.bound = slotted events

/-- What is done to the counters of a bracket. -/
lemma succeeds_onCounters {P α : Type} {b : Bracket P} {a : Attempt P α}
    {Q : α → Bracket P → Prop} :
    (onCounters a).Succeeds b Q ↔ a.Succeeds b.counters fun x p => Q x { b with counters := p } :=
  Attempt.succeeds_within

/-- Interrupts that are let through stay so. -/
lemma succeeds_mask {P : Type} [Counters P] {b : Bracket P} (h : b.mask = .unmasked)
    {Q : Unit → Bracket P → Prop} : (onMask InterruptMask.mask).Succeeds b Q ↔ Q () b := by
  obtain ⟨counters, mask, bound⟩ := b
  obtain rfl : mask = .unmasked := h
  exact Attempt.succeeds_iff rfl

/-- Interrupts that were let through are so afterwards. -/
lemma succeeds_unmask {P : Type} [Counters P] {b : Bracket P} (h : b.mask = .unmasked)
    {Q : Unit → Bracket P → Prop} : (onMask InterruptMask.unmask).Succeeds b Q ↔ Q () b := by
  obtain ⟨counters, mask, bound⟩ := b
  obtain rfl : mask = .unmasked := h
  exact Attempt.succeeds_iff rfl

/-- The bracket is ready, its counters were set to zero at that time, and the cycle counter and
those of its events have run since then. -/
structure IsOpen (since : UInt64) (b : Bracket TickingCounters) : Prop extends IsReady b where
  clear : b.counters.IsClear since
  counts : b.counters.Counts since (b.bound.map Prod.fst)

/-- A bracket that is ready can be opened, whatever its counters have counted before. -/
theorem opens (h : b.IsReady) (now : UInt64) :
    (opening now).Succeeds b fun _ b' => b'.IsOpen now ∧ b'.bound = b.bound := by
  refine (Attempt.succeeds_congr (opening_on b now)).mpr ?_
  rw [Attempt.succeeds_bind, succeeds_onCounters]
  refine (succeeds_starting h.enabled h.bound now).mono fun _ p hp => ?_
  rw [Attempt.succeeds_bind, succeeds_mask (b := { b with counters := p }) h.mask,
    succeeds_onCounters]
  refine (succeeds_clearing hp now).mono fun _ q hq => ?_
  obtain ⟨hclear, hcounts⟩ := hq
  exact ⟨⟨⟨hclear.enabled, h.mask, h.bound⟩, hclear, hcounts⟩, rfl⟩

/-- A bracket whose counters were set to zero can be closed later on.  It has measured the time in
between, and so have those of its events that have counted all the while. -/
theorem closes (told : List Event.Slot) (h : b.IsReady) (hclear : b.counters.IsClear since)
    (hcounts : b.counters.Counts since told) (hle : since ≤ now) :
    (closing now).Succeeds b fun m b' => b'.IsReady ∧ b'.bound = b.bound ∧
      m.cycles = now - since ∧ List.Forall₂ (IsReading told (now - since)) b.bound m.events := by
  have hshows : b.counters.Shows now (now - since) told := hclear.shows hcounts hle
  refine (Attempt.succeeds_congr (closing_on b now)).mpr ?_
  rw [halting, bind_assoc, Attempt.succeeds_bind, succeeds_onCounters]
  refine (succeeds_stopping hshows h.bound).mono fun _ p hp => ?_
  rw [Attempt.succeeds_bind, succeeds_unmask (b := { b with counters := p }) h.mask,
    succeeds_onCounters]
  refine (succeeds_telling hp h.bound).mono fun m q hq => ?_
  obtain ⟨hq, hcycles, hevents⟩ := hq
  exact ⟨⟨hq.enabled, h.mask, h.bound⟩, rfl, hcycles, hevents⟩

/-- What is measured when every bound event happens once a tick. -/
def exactly (bound : List (Event.Slot × Event.Code)) (ticks : UInt64) : Measurement :=
  ⟨ticks, bound.map fun x => ⟨x.1, x.2, ticks.toUInt32⟩⟩

/-- A bracket that is open and is closed later on has measured exactly the time in between. -/
theorem IsOpen.closes (h : b.IsOpen since) (hle : since ≤ now) :
    (closing now).Succeeds b fun m b' => b'.IsReady ∧ b'.bound = b.bound ∧
      m = exactly b.bound (now - since) := by
  refine (Bracket.closes _ h.toIsReady h.clear h.counts hle).mono fun m b' hm => ?_
  obtain ⟨hready, hbound, hcycles, hevents⟩ := hm
  refine ⟨hready, hbound, ?_⟩
  have hmap : List.Forall₂ (· = ·)
      (b.bound.map fun x => (⟨x.1, x.2, (now - since).toUInt32⟩ : Event.Reading)) m.events := by
    rw [List.forall₂_map_left_iff, List.forall₂_iff_get]
    obtain ⟨hlength, hget⟩ := List.forall₂_iff_get.mp hevents
    refine ⟨hlength, fun i hi hi' => ?_⟩
    obtain ⟨hslot, hcode, hcount⟩ := hget i hi hi'
    have hmem : (b.bound.get ⟨i, hi⟩).1 ∈ b.bound.map Prod.fst :=
      List.mem_map_of_mem (List.get_mem _ _)
    rw [← hslot, ← hcode, ← hcount hmem]
  rw [List.forall₂_eq_eq_eq] at hmap
  rw [exactly, hmap, ← hcycles]

section Measure

variable {E α : Type} {run : Attempt E α} {here there : E}
  {Q : α → E → Prop}

/-- A run inside of a bracket that is ready is measured exactly, if it succeeds and the time does
not go back. -/
theorem measures {now : E → UInt64} (h : b.IsReady)
    (hrun : run.Succeeds here fun x there => now here ≤ now there ∧ Q x there) :
    (measure now run).Succeeds (b, here) fun r s => s.1.IsReady ∧ s.1.bound = b.bound ∧
      r.1 = exactly b.bound (now s.2 - now here) ∧ Q r.2 s.2 := by
  rw [measure, Attempt.succeeds_bind, Attempt.succeeds_look, Attempt.succeeds_bind,
    Attempt.succeeds_within]
  refine (opens h _).mono fun _ b₁ hb₁ => ?_
  obtain ⟨hopen, hbound₁⟩ := hb₁
  rw [Attempt.succeeds_bind, Attempt.succeeds_within]
  refine hrun.mono fun x there hthere => ?_
  obtain ⟨hle, hx⟩ := hthere
  rw [Attempt.succeeds_bind, Attempt.succeeds_look, Attempt.succeeds_bind, Attempt.succeeds_within]
  refine (hopen.closes hle).mono fun m b₂ hb₂ => ?_
  obtain ⟨hready, hbound₂, hm⟩ := hb₂
  rw [hbound₁] at hbound₂ hm
  exact Attempt.succeeds_pure.mpr ⟨hready, hbound₂, hm, hx⟩

/-- A run inside of a bracket that is ready is measured, if it succeeds and the time does not go
back. -/
theorem succeeds_measure {now : E → UInt64} (h : b.IsReady)
    (hrun : run.Succeeds here fun x there => now here ≤ now there ∧ Q x there) :
    (measure now run).Succeeds (b, here) fun r s =>
      s.1.IsReady ∧ r.1.cycles = now s.2 - now here ∧ Q r.2 s.2 := by
  refine (measures h hrun).mono fun r s hr => ?_
  obtain ⟨hready, -, hexact, hQ⟩ := hr
  exact ⟨hready, congrArg Measurement.cycles hexact, hQ⟩

/-- A run that stops half-way leaves a bracket that is ready. -/
theorem measure_stops (now : E → UInt64) {fault : Fault} (h : b.IsReady)
    (hrun : run.on here = (.error fault, there)) :
    ∃ b', (measure now run).on (b, here) = (.error fault, (b', there)) ∧ b'.IsReady ∧
      b'.bound = b.bound := by
  obtain ⟨_, b', hon, hopen, hbound⟩ := opens h (now here)
  refine ⟨b', ?_, hopen.toIsReady, hbound⟩
  rw [measure, Attempt.on_bind_of_ok (Attempt.on_look _), Attempt.on_bind_of_ok (t := (b', here))]
  · refine Attempt.on_bind_of_error ?_
    rw [Attempt.on_within, hrun]
  · rw [Attempt.on_within, hon]

end Measure

/-! ### Brackets that are ready -/

/-- A bracket can be made on counters that have enough slots, whatever they have done before. -/
theorem exists_ofCounters {counters : TickingCounters} {events : List Event.Code}
    (hevents : events.length ≤ counters.slots) :
    ∃ b, ofCounters counters .unmasked events = .ok (.ok b) ∧ b.bound = slotted events :=
  exists_ofCounters_of_obliges TickingCounters.obliges .unmasked hevents

/-- Binding an event does not switch the counters off. -/
lemma preserves_bind (slot : Event.Slot) (code : Event.Code) :
    (Counters.bind slot code : Attempt TickingCounters Unit).Preserves (·.enabled) := by
  have hnote : (Attempt.change (TickingCounters.note (.bind slot code))).Preserves
      (·.enabled) := Attempt.Preserves.change fun _ => rfl
  refine hnote.bind fun _ => (Attempt.Preserves.look _).bind fun p => ?_
  split_ifs
  · exact Attempt.Preserves.change fun _ => rfl
  · exact Attempt.Preserves.stop _ _

/-- Counters are switched on when events are bound. -/
lemma enabled_of_setUp {counters p : TickingCounters} {events : List Event.Code}
    (h : (setUp events).on counters = (.ok (), p)) : p.enabled = true := by
  obtain ⟨_, q, henable, hbind⟩ := Attempt.on_bind_eq_ok h
  have hq : q.enabled = true := by
    obtain rfl : _ = q := congrArg Prod.snd henable
    rfl
  have hforM := Attempt.Preserves.forM (fun x : Event.Slot × Event.Code => preserves_bind x.1 x.2)
    (slotted events)
  exact (hforM.eq_of_on hbind).trans hq

/-- A bracket that could be made is ready. -/
theorem isReady_of_ofCounters {counters : TickingCounters} {events : List Event.Code}
    (h : ofCounters counters .unmasked events = .ok (.ok b)) : b.IsReady := by
  unfold ofCounters at h
  split_ifs at h with hmany
  have hlength : events.length ≤ Event.slotLimit :=
    Nat.le_trans (Nat.not_lt.mp hmany) counters.slots_le
  rcases hon : (setUp events).on counters with ⟨_ | _, p⟩
  · rw [hon] at h
    cases h
  · rw [hon] at h
    obtain rfl : ⟨p, .unmasked, slotted events⟩ = b := by simpa [Except.map] using h
    exact ⟨enabled_of_setUp hon, rfl, fun x hx => index_lt_of_mem_slotted hx hlength⟩

end Bracket

/-! ### Countdowns -/

/-- Countdowns that let no time pass can be measured. -/
theorem Calibration.succeeds_measure {E : Type} {b : Bracket TickingCounters} (h : b.IsReady)
    (now : E → UInt64) (here : E) :
    (Calibration.measure now fun _ => pure ()).Succeeds (b, here) fun _ s => s.1.IsReady := by
  refine (Attempt.succeeds_mapM (I := fun s => s.1.IsReady) (fun count _ s hs => ?_) h).mono
    fun _ _ hs => hs
  rw [Attempt.succeeds_bind]
  refine (Bracket.succeeds_measure (Q := fun _ _ => True) hs
    (Attempt.succeeds_pure.mpr ⟨UInt64.le_refl _, trivial⟩)).mono fun r t ht => ?_
  exact Attempt.succeeds_pure.mpr ht.1

end Lockstep
