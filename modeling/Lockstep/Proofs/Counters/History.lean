import Lockstep.Clock
import Lockstep.Counters.Stopwatch
import Lockstep.Proofs.Counters

/-!
# What counters count in the course of time

A counter knows what it had counted when it was stopped, and when it was started if it runs.  What
it shows follows from that by a subtraction and an addition.  Here this is compared with a history
of the counter: the ticks that have passed since the counter was set to zero for the last time, as
far as they have passed while it ran (`Gauge.counted`).

Ticking counters and stopwatches do their arithmetic differently, but no number leaves its range as
long as the clock does not.  So both of them are held by one relation between a counter and its
history (`Tally.IsAt`), which every operation keeps.
-/

namespace Lockstep

/-! ### Histories -/

/-- What happens to counters: time passes, or an operation is done. -/
inductive Turn where
  | wait (ticks : UInt64)
  | call (call : Call)
  deriving DecidableEq, Repr

namespace Turn

variable {P : Type} [Counters P]

/-- The ticks that pass. -/
def ticks : Turn → Nat
  | wait n => n.toNat
  | call _ => 0

/-- Lets time pass, or does an operation at the time that the clock shows. -/
def perform : Turn → Attempt (P × Clock) (Option UInt64)
  | wait n => do
    (Clock.advance n).within Prod.snd fun c s => (s.1, c)
    return none
  | call c => do
    let now := (← Attempt.look).2.ticks
    (c.perform now).within Prod.fst fun p s => (p, s.2)

/-- What a history leads to, of which the latest turn comes first.  What comes after a fault goes on
with what the fault has left. -/
def after : List Turn → P × Clock → P × Clock
  | [], s => s
  | turn :: earlier, s => (turn.perform.on (after earlier s)).2

end Turn

/-- One of the counters of a core. -/
inductive Gauge where
  | cycles
  | event (slot : Fin Event.slotLimit)
  deriving DecidableEq, Repr

namespace Gauge

/-- Whether an operation starts the counter or stops it, if it is one of those. -/
def switch? : Gauge → Call → Option Bool
  | cycles, .startCycles => some true
  | cycles, .stopCycles => some false
  | event k, .startEvent slot => if slot.index.toNat = k then some true else none
  | event k, .stopEvent slot => if slot.index.toNat = k then some false else none
  | _, _ => none

/-- The operation sets the counter to zero. -/
def isClearedBy : Gauge → Call → Bool
  | cycles, .clearCycles => true
  | event _, .clearEvents => true
  | _, _ => false

/-- The counter was started and has not been stopped since. -/
def isRunning (g : Gauge) : List Turn → Bool
  | [] => false
  | .wait _ :: earlier => g.isRunning earlier
  | .call c :: earlier => (g.switch? c).getD (g.isRunning earlier)

/-- The ticks that have passed since the counter was set to zero, as far as it ran. -/
def counted (g : Gauge) : List Turn → Nat
  | [] => 0
  | .wait n :: earlier => g.counted earlier + if g.isRunning earlier then n.toNat else 0
  | .call c :: earlier => if g.isClearedBy c then 0 else g.counted earlier

/-- The operation does not set the counter to zero, and does not start or stop it unless it runs or
stands still already. -/
def IsIdle (g : Gauge) (earlier : List Turn) (c : Call) : Prop :=
  g.isClearedBy c = false ∧ ∀ runs ∈ g.switch? c, g.isRunning earlier = runs

variable {g : Gauge} {earlier : List Turn} {c : Call}

/-- Nothing gets lost while a counter is not set to zero. -/
lemma counted_le_append {later : List Turn}
    (h : ∀ c, .call c ∈ later → g.isClearedBy c = false) :
    g.counted earlier ≤ g.counted (later ++ earlier) := by
  induction later with
  | nil => exact Nat.le_refl _
  | cons turn later ih =>
    have hle := ih fun c hc => h c (List.mem_cons_of_mem _ hc)
    rw [List.cons_append]
    cases turn with
    | wait n =>
      rw [counted]
      omega
    | call c =>
      rw [counted, h c List.mem_cons_self]
      exact hle

/-- An idle operation does not decide whether a counter runs later on, nor what it counts. -/
lemma of_isIdle (h : g.IsIdle earlier c) (later : List Turn) :
    g.isRunning (later ++ .call c :: earlier) = g.isRunning (later ++ earlier) ∧
      g.counted (later ++ .call c :: earlier) = g.counted (later ++ earlier) := by
  induction later with
  | nil =>
    obtain ⟨hclear, hswitch⟩ := h
    refine ⟨?_, ?_⟩
    · change (g.switch? c).getD (g.isRunning earlier) = g.isRunning earlier
      cases hc : g.switch? c with
      | none => rfl
      | some runs => exact (hswitch runs hc).symm
    · change (if g.isClearedBy c then 0 else g.counted earlier) = g.counted earlier
      rw [hclear]
      rfl
  | cons turn later ih =>
    obtain ⟨hrunning, hcounted⟩ := ih
    cases turn with
    | wait n => exact ⟨hrunning, by simp only [List.cons_append, counted, hrunning, hcounted]⟩
    | call c' =>
      simp only [List.cons_append, isRunning, counted, hrunning, hcounted, and_self]

end Gauge

/-! ### A counter and its history -/

namespace Tally

variable {t : Tally} {now later v : UInt64} {runs : Bool} {count : Nat}

/-- What the counter comes to at that time. -/
def total (now : UInt64) (t : Tally) : Nat :=
  t.counted.toNat + (t.since?.elim 0 fun since => now.toNat - since.toNat)

/-- The counter runs or stands still at that time, and has counted so many ticks of the time until
then. -/
structure IsAt (now : UInt64) (runs : Bool) (count : Nat) (t : Tally) : Prop where
  isSome_since : t.since?.isSome = runs
  since_le : ∀ since ∈ t.since?, since ≤ now
  total_eq : t.total now = count
  count_le : count ≤ now.toNat

/-- A new counter has counted nothing. -/
lemma isAt_new (now : UInt64) : ({} : Tally).IsAt now false 0 :=
  ⟨rfl, nofun, rfl, Nat.zero_le _⟩

/-- A counter shows what it has counted, and the subtraction and the addition that are made for this
stay in their range. -/
lemma IsAt.exists_value (h : t.IsAt now runs count) :
    ∃ v, t.value now = .ok v ∧ Stopwatch.value now t = .ok v ∧ v.toNat = count := by
  obtain ⟨-, hle, htotal, hcount⟩ := h
  have hnow := now.toNat_lt
  obtain ⟨counted, _ | since⟩ := t
  · exact ⟨counted, rfl, rfl, htotal⟩
  · have hle : since ≤ now := hle since rfl
    have hpassed : (now - since).toNat = now.toNat - since.toNat := UInt64.toNat_sub_of_le _ _ hle
    have hsum : counted.toNat + (now - since).toNat = count := by rw [hpassed]; exact htotal
    have hfits : counted.toNat + (now - since).toNat < UInt64.size := by
      rw [hsum]
      exact Nat.lt_of_le_of_lt hcount hnow
    refine ⟨counted + (now - since), ?_, ?_, ?_⟩
    · simp only [value, checkedSub_of_le hle]
      exact checkedAdd_of_lt hfits
    · simp only [Stopwatch.value, checkedSub_of_le hle]
      rfl
    · rw [UInt64.toNat_add, Nat.mod_eq_of_lt hfits, hsum]

/-- Starting a counter does not change what it comes to, whether or not it runs already. -/
lemma IsAt.start (h : t.IsAt now runs count) : (t.start now).IsAt now true count := by
  obtain ⟨-, hle, htotal, hcount⟩ := h
  obtain ⟨counted, _ | since⟩ := t
  · refine ⟨rfl, fun since hsince => ?_, ?_, hcount⟩
    · obtain rfl := Option.some.inj hsince
      exact UInt64.le_refl _
    · rw [← htotal]
      simp [Tally.start, total]
  · exact ⟨rfl, hle, htotal, hcount⟩

/-- A counter that stands still at a number has counted this number. -/
lemma isAt_stopped (hcount : v.toNat ≤ now.toNat) :
    (⟨v, none⟩ : Tally).IsAt now false v.toNat :=
  ⟨rfl, nofun, rfl, hcount⟩

/-- A counter that is set to zero begins anew, and goes on if it runs. -/
lemma IsAt.clear (h : t.IsAt now runs count) : (t.clear now).IsAt now runs 0 := by
  obtain ⟨hsome, -, -, -⟩ := h
  obtain ⟨counted, _ | since⟩ := t
  · exact ⟨hsome, nofun, rfl, Nat.zero_le _⟩
  · refine ⟨hsome, fun since hsince => ?_, ?_, Nat.zero_le _⟩
    · obtain rfl := Option.some.inj hsince
      exact UInt64.le_refl _
    · simp [Tally.clear, total]

/-- A counter that runs counts the time that passes, and one that stands still does not. -/
lemma IsAt.pass (h : t.IsAt now runs count) {n : UInt64}
    (hfits : now.toNat + n.toNat < UInt64.size) :
    t.IsAt (now + n) runs (count + if runs then n.toNat else 0) := by
  obtain ⟨hsome, hle, htotal, hcount⟩ := h
  have hlater : (now + n).toNat = now.toNat + n.toNat := by
    rw [UInt64.toNat_add]
    exact Nat.mod_eq_of_lt hfits
  obtain ⟨counted, _ | since⟩ := t
  · obtain rfl : false = runs := hsome
    refine ⟨rfl, nofun, htotal, ?_⟩
    change count ≤ _
    omega
  · obtain rfl : true = runs := hsome
    have hsince : since.toNat ≤ now.toNat := UInt64.le_iff_toNat_le.mp (hle since rfl)
    have htotal : counted.toNat + (now.toNat - since.toNat) = count := htotal
    refine ⟨rfl, fun s hs => ?_, ?_, ?_⟩
    · obtain rfl := Option.some.inj hs
      exact UInt64.le_iff_toNat_le.mpr (by omega)
    · change counted.toNat + ((now + n).toNat - since.toNat) = count + n.toNat
      omega
    · change count + n.toNat ≤ _
      omega

/-- The way of stopping counters leaves every counter standing still at what it has counted. -/
def Halts (stop : UInt64 → Attempt Tally Unit) : Prop :=
  ∀ now runs count, ∀ t : Tally, t.IsAt now runs count →
    (stop now).Succeeds t fun _ t' => t'.IsAt now false count

/-- A counter that is stopped before its value leaves the range stands still. -/
lemma halts_stop : Halts Tally.stop := by
  intro now runs count t h
  obtain ⟨v, hv, -, rfl⟩ := h.exists_value
  refine (succeeds_stop hv).mono fun _ t' ht => ?_
  subst ht
  exact isAt_stopped h.count_le

/-- A stopwatch that is stopped before its value wraps around stands still. -/
lemma halts_stopwatch : Halts Stopwatch.stop := by
  intro now runs count t h
  obtain ⟨v, -, hv, rfl⟩ := h.exists_value
  obtain ⟨counted, _ | since⟩ := t
  · obtain rfl : counted = v := Except.ok.inj hv
    simpa [Stopwatch.stop] using isAt_stopped h.count_le
  · have hle : since ≤ now := h.since_le since rfl
    simp only [Stopwatch.value, checkedSub_of_le hle] at hv
    obtain rfl : counted + (now - since) = v := Except.ok.inj hv
    simpa [Stopwatch.stop, checkedSub_of_le hle] using isAt_stopped h.count_le

end Tally

namespace Gauge

variable {g : Gauge} {c : Call} {stop : UInt64 → Attempt Tally Unit} {now : UInt64} {t : Tally}
  {earlier : List Turn}

/-- What an operation does to a counter, if counters are stopped in this way. -/
def act (g : Gauge) (stop : UInt64 → Attempt Tally Unit) (c : Call) (now : UInt64) (t : Tally) :
    Tally :=
  match g.switch? c with
  | some true => t.start now
  | some false => ((stop now).on t).2
  | none => if g.isClearedBy c then t.clear now else t

/-- What starts a counter or stops it does not set it to zero. -/
lemma isClearedBy_of_switch {runs : Bool} (h : g.switch? c = some runs) :
    g.isClearedBy c = false := by
  cases c with
  | clearCycles => cases g <;> cases h
  | clearEvents => cases g <;> cases h
  | _ => cases g <;> rfl

/-- An operation takes a counter from where its history has led to where it leads with the
operation. -/
lemma isAt_act (hstop : Tally.Halts stop)
    (h : t.IsAt now (g.isRunning earlier) (g.counted earlier)) :
    (g.act stop c now t).IsAt now (g.isRunning (.call c :: earlier))
      (g.counted (.call c :: earlier)) := by
  rw [act, isRunning, counted]
  cases hswitch : g.switch? c with
  | none =>
    cases g.isClearedBy c with
    | false => exact h
    | true => exact h.clear
  | some runs =>
    rw [isClearedBy_of_switch hswitch]
    cases runs with
    | true => exact h.start
    | false =>
      obtain ⟨_, t', hon, ht⟩ := hstop _ _ _ _ h
      rwa [hon]

end Gauge

end Lockstep
