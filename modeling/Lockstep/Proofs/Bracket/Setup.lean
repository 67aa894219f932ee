import Lockstep.Calibration
import Lockstep.Proofs.Bracket.Parts

/-!
# Brackets on any counters

A bracket binds its events to the first slots of its counters, and never binds anything else.  So
what it measures has one reading for each of its events, in the same order, whatever the counters
do and whether or not they were bound before.

Counters oblige if they can be switched on, and bind events to all the slots that they have.  On
such counters a bracket can be made for as many events as there are slots.
-/

namespace Lockstep

/-- The counters can be switched on, and events can be bound to all the slots that there are. -/
structure Counters.Obliges (P : Type) [Counters P] : Prop where
  enable : ∀ p : P, (enable : Attempt P Unit).Succeeds p fun _ p' => slots p' = slots p
  bind : ∀ (p : P) (slot : Event.Slot) (code : Event.Code), slot.index.toNat < slots p →
    (bind slot code).Succeeds p fun _ p' => slots p' = slots p

namespace Bracket

variable {P : Type} [Counters P]

/-! ### Making a bracket -/

/-- The slots of bound events are the first ones. -/
lemma index_lt_length_of_mem_slotted {events : List Event.Code} {x : Event.Slot × Event.Code}
    (hx : x ∈ slotted events) : x.1.index.toNat < events.length := by
  obtain ⟨k, hk, rfl⟩ := List.mem_mapIdx.mp hx
  refine Nat.lt_of_le_of_lt ?_ hk
  change (UInt8.ofNat k).toNat ≤ k
  rw [UInt8.toNat_ofNat']
  exact Nat.mod_le _ _

/-- Events that can be bound are bound to slots that exist. -/
lemma index_lt_of_mem_slotted {events : List Event.Code} {x : Event.Slot × Event.Code}
    (hx : x ∈ slotted events) (hlength : events.length ≤ Event.slotLimit) :
    x.1.index.toNat < Event.slotLimit :=
  Nat.lt_of_lt_of_le (index_lt_length_of_mem_slotted hx) hlength

/-- As many events as there are slots can be bound. -/
lemma succeeds_setUp (hobliges : Counters.Obliges P) {counters : P} {events : List Event.Code}
    (hevents : events.length ≤ Counters.slots counters) :
    (setUp events).Succeeds counters fun _ _ => True := by
  rw [setUp, Attempt.succeeds_bind]
  refine (hobliges.enable counters).mono fun _ p hp => ?_
  refine (Attempt.succeeds_forM (I := fun p => Counters.slots p = Counters.slots counters)
    (fun x hx p hp => ?_) hp).mono fun _ _ _ => trivial
  have hlt : x.1.index.toNat < Counters.slots p :=
    hp ▸ Nat.lt_of_lt_of_le (index_lt_length_of_mem_slotted hx) hevents
  exact (hobliges.bind p x.1 x.2 hlt).mono fun _ p' hp' => hp'.trans hp

/-- **A bracket can be made** on counters that oblige, if they have enough slots. -/
theorem exists_ofCounters_of_obliges (hobliges : Counters.Obliges P) {counters : P}
    (mask : InterruptMask) {events : List Event.Code}
    (hevents : events.length ≤ Counters.slots counters) :
    ∃ b, ofCounters counters mask events = .ok (.ok b) ∧ b.bound = slotted events := by
  obtain ⟨_, p, hon, -⟩ := succeeds_setUp hobliges hevents
  refine ⟨⟨p, mask, slotted events⟩, ?_, rfl⟩
  rw [ofCounters, if_neg (Nat.not_lt.mpr hevents), hon]
  rfl

/-- A bracket that could be made has its events in the first slots. -/
lemma bound_of_ofCounters {counters : P} {mask : InterruptMask} {events : List Event.Code}
    {b : Bracket P} (h : ofCounters counters mask events = .ok (.ok b)) :
    b.bound = slotted events := by
  unfold ofCounters at h
  split_ifs at h
  obtain ⟨_, -, rfl⟩ := map_eq_ok.mp (Except.ok.inj h)
  rfl

/-! ### What is bound -/

/-- Opening a bracket does not bind events. -/
lemma preserves_opening (now : UInt64) :
    (opening now : Attempt (Bracket P) Unit).Preserves bound := by
  intro b
  rw [opening_on]
  exact ((preserves_onCounters _).bind fun _ => (preserves_onMask _).bind fun _ =>
    preserves_onCounters _) b

/-- Closing a bracket does not bind events. -/
lemma preserves_closing (now : UInt64) :
    (closing now : Attempt (Bracket P) Measurement).Preserves bound := by
  intro b
  rw [closing_on]
  exact (preserves_halting.bind fun _ => preserves_onCounters _) b

/-- Measuring a run does not bind events. -/
lemma preserves_measure {E α : Type} (now : E → UInt64) (run : Attempt E α) :
    (measure now run : Attempt (Bracket P × E) _).Preserves (·.1.bound) := by
  refine (Attempt.Preserves.look _).bind fun here => Attempt.Preserves.bind ?_ fun _ => ?_
  · exact fun s => preserves_opening _ s.1
  refine Attempt.Preserves.bind (fun _ => rfl) fun _ => ?_
  refine (Attempt.Preserves.look _).bind fun there => Attempt.Preserves.bind ?_ fun _ => ?_
  · exact fun s => preserves_closing _ s.1
  · exact Attempt.Preserves.pure _ _

/-- What is told has one reading for each bound event. -/
lemma events_of_telling {bound : List (Event.Slot × Event.Code)} {now : UInt64} {p p' : P}
    {m : Measurement} (h : (telling bound now).on p = (.ok m, p')) :
    m.events.map (fun reading => (reading.slot, reading.code)) = bound := by
  obtain ⟨cycles, q, -, h⟩ := Attempt.on_bind_eq_ok h
  obtain ⟨events, q', hevents, hlast⟩ := Attempt.on_bind_eq_ok h
  obtain ⟨rfl, rfl⟩ : ⟨cycles, events⟩ = m ∧ q' = p' := by simpa using hlast
  rw [eq_comm, ← List.forall₂_eq_eq_eq, List.forall₂_map_right_iff]
  refine Attempt.forall₂_of_mapM_on (fun x s reading t hreading => ?_) hevents
  obtain ⟨count, u, -, hpure⟩ := Attempt.on_bind_eq_ok hreading
  obtain ⟨rfl, -⟩ : (⟨x.1, x.2, count⟩ : Event.Reading) = reading ∧ u = t := by simpa using hpure
  rfl

/-- A measurement has one reading for each bound event, in the order in which they are bound. -/
lemma events_of_closing {now : UInt64} {b b' : Bracket P} {m : Measurement}
    (h : (closing now).on b = (.ok m, b')) :
    m.events.map (fun reading => (reading.slot, reading.code)) = b.bound := by
  rw [closing_on] at h
  obtain ⟨_, b₁, -, h⟩ := Attempt.on_bind_eq_ok h
  exact events_of_telling (on_of_onCounters h)

end Bracket

/-- Measuring countdowns does not bind events. -/
lemma Calibration.preserves_measure {P E : Type} [Counters P] (now : E → UInt64)
    (countdown : UInt64 → Attempt E Unit) :
    (measure now countdown : Attempt (Bracket P × E) _).Preserves (·.1.bound) :=
  Attempt.Preserves.mapM (fun _ => (Bracket.preserves_measure _ _).bind fun _ =>
    Attempt.Preserves.pure _ _) _

end Lockstep
