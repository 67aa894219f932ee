import Lockstep.Proofs.Sink.JsonLines
import Mathlib.Data.List.Forall2

/-!
# What is kept when writing fails

A device may fail at any time, and it may take bytes again afterwards.  What it has taken and what
is still collected stand one behind the other all the time: handing on moves bytes from the one to
the other, and a failure moves fewer of them.  Bytes get lost only where they are put.  Of bytes
that cannot be put a part is kept, and this part is never the whole (`Buffered.IsKept`).

So of a record at which writing fails an unfinished line is left behind, and the following lines
stand behind it.  When the writer is given up without a failure, the device has taken what was kept
(`Buffered.exists_parts_closing`).  This is everything exactly if nothing was told about a record
(`Buffered.taken_closing_eq_iff`).
-/

namespace Lockstep

variable {D : Type}

/-! ### What a device takes -/

/-- A device that remembers the bytes that it has taken.  It does what the device does otherwise. -/
structure Tapped (D : Type) where
  taken : List UInt8
  device : D

/-- Nothing has been taken yet. -/
def Tapped.start (device : D) : Tapped D :=
  ⟨[], device⟩

instance [Device D] : Device (Tapped D) where
  write bytes t :=
    match Device.write bytes t.device with
    | (.ok n, device) => (.ok n, ⟨t.taken ++ bytes.take n, device⟩)
    | (.error reason, device) => (.error reason, ⟨t.taken, device⟩)
  flush t := ((Device.flush t.device).1, { t with device := (Device.flush t.device).2 })

variable [Device D]

/-- Nothing else changes for what is remembered. -/
lemma Tapped.write_eq (t : Tapped D) (bytes : List UInt8) :
    (Device.write bytes t).1 = (Device.write bytes t.device).1 ∧
      (Device.write bytes t).2.device = (Device.write bytes t.device).2 := by
  simp only [Device.write]
  split
  · rename_i heq
    rw [heq]
    exact ⟨rfl, rfl⟩
  · rename_i heq
    rw [heq]
    exact ⟨rfl, rfl⟩

/-- What is taken is remembered. -/
lemma Tapped.taken_of_write_eq_ok {t t' : Tapped D} {bytes : List UInt8} {n : Nat}
    (h : Device.write bytes t = (.ok n, t')) : t'.taken = t.taken ++ bytes.take n := by
  simp only [Device.write] at h
  split at h
  · obtain ⟨hn, rfl⟩ := Prod.mk.inj h
    rw [Except.ok.inj hn]
  · cases h

/-- Where a device fails nothing is taken. -/
lemma Tapped.taken_of_write_eq_error {t t' : Tapped D} {bytes : List UInt8} {reason : String}
    (h : Device.write bytes t = (.error reason, t')) : t'.taken = t.taken := by
  simp only [Device.write] at h
  split at h
  · cases h
  · obtain ⟨-, rfl⟩ := Prod.mk.inj h
    rfl
namespace Buffered

/-! ### How bytes are put -/

/-- Nothing is left over exactly if nothing fails. -/
lemma handOn_eq_ok_iff (stuck : String) (device : D) (bytes : List UInt8) :
    (handOn stuck device bytes).1 = .ok () ↔ (handOn stuck device bytes).2.1 = [] := by
  fun_induction handOn stuck device bytes with
  | case1 device => simp
  | case2 device b rest reason device' heq => simp
  | case3 device b rest device' heq => simp
  | case4 device b rest n device' heq ih => exact ih

/-- Nothing is collected any more exactly if handing on what is collected does not fail. -/
lemma drain_eq_ok_iff (w : Buffered D) : w.drain.1 = .ok () ↔ w.drain.2.pending.toList = [] :=
  handOn_eq_ok_iff _ w.device w.pending.toList

/-- After everything was handed on the writer is as at the start. -/
lemma exists_start_of_drain {w w' : Buffered D} (h : w.drain = (.ok (), w')) :
    ∃ device, w' = start device := by
  have hempty : w'.pending.toList = [] := by
    have hok := w.drain_eq_ok_iff
    rw [h] at hok
    exact hok.mp rfl
  refine ⟨w'.device, ?_⟩
  rw [start, ← Array.toList_eq_nil_iff.mp hempty]

/-- No more bytes are collected than there may be. -/
def Fits (w : Buffered D) : Prop :=
  w.pending.size ≤ capacity

/-- What becomes of bytes that are put. -/
inductive Puts (w : Buffered D) (bytes : List UInt8) : Except String Unit × Buffered D → Prop where
  /-- They are collected behind the others. -/
  | behind (hroom : w.pending.size + bytes.length ≤ capacity) (hsmall : bytes.length < capacity) :
    Puts w bytes (.ok (), ⟨w.pending ++ bytes, w.device⟩)
  /-- They are collected after the others were handed on. -/
  | after {device : D} (hdrain : w.drain = (.ok (), start device))
    (hsmall : bytes.length < capacity) : Puts w bytes (.ok (), ⟨bytes.toArray, device⟩)
  /-- They are left out because the others cannot be handed on. -/
  | out {reason : String} {w' : Buffered D} (hdrain : w.drain = (.error reason, w'))
    (hne : w.Fits → bytes ≠ []) : Puts w bytes (.error reason, w')
  /-- They fill the buffer alone and are handed on after the others. -/
  | through {device : D} (hdrain : w.drain = (.ok (), start device))
    (hlarge : capacity ≤ bytes.length) :
    Puts w bytes ((handOn "failed to write whole buffer" device bytes).1,
      start (handOn "failed to write whole buffer" device bytes).2.2)

/-- There is nothing else that becomes of bytes. -/
lemma puts_put (w : Buffered D) (bytes : List UInt8) : Puts w bytes (w.put bytes) := by
  unfold put
  split
  · rename_i hroom
    exact .behind hroom.1 hroom.2
  · rename_i hroom
    rcases hdrain : w.drain with ⟨reason | ⟨⟨⟩⟩, w'⟩
    · refine .out hdrain fun hw => ?_
      rintro rfl
      exact hroom ⟨hw, by decide⟩
    · obtain ⟨device, rfl⟩ := exists_start_of_drain hdrain
      simp only [start]
      split
      · rename_i hsmall
        have hempty : (#[] : Array UInt8) ++ bytes = bytes.toArray := by simp
        rw [hempty]
        exact .after hdrain hsmall
      · rename_i hlarge
        exact .through hdrain (Nat.le_of_not_lt hlarge)

/-! ### Bytes on their way -/

/-- The bytes that were written: first those that the device has taken, then those that are
collected. -/
def written (w : Buffered (Tapped D)) : List UInt8 :=
  w.device.taken ++ w.pending.toList

/-- Bytes that are handed on are taken up to those that are left over. -/
lemma exists_taken_handOn (stuck : String) (t : Tapped D) (bytes : List UInt8) :
    ∃ done, (handOn stuck t bytes).2.2.taken = t.taken ++ done ∧
      done ++ (handOn stuck t bytes).2.1 = bytes := by
  fun_induction handOn stuck t bytes with
  | case1 t => exact ⟨[], (List.append_nil _).symm, rfl⟩
  | case2 t b rest reason t' heq =>
    refine ⟨[], ?_, rfl⟩
    rw [Tapped.taken_of_write_eq_error heq, List.append_nil]
  | case3 t b rest t' heq =>
    refine ⟨[], ?_, rfl⟩
    rw [Tapped.taken_of_write_eq_ok heq, List.take_zero]
  | case4 t b rest n t' heq ih =>
    obtain ⟨done, htaken, hdone⟩ := ih
    refine ⟨b :: (rest.take n ++ done), ?_, ?_⟩
    · rw [htaken, Tapped.taken_of_write_eq_ok heq, List.take_succ_cons, List.append_assoc,
        List.cons_append]
    · rw [List.cons_append, List.append_assoc, hdone, List.take_append_drop]

/-- Handing on what is collected does not change what was written, and there is no more collected
afterwards. -/
lemma written_drain (w : Buffered (Tapped D)) :
    w.drain.2.written = w.written ∧ w.drain.2.pending.size ≤ w.pending.size := by
  obtain ⟨done, htaken, hdone⟩ :=
    exists_taken_handOn "failed to write the buffered data" w.device w.pending.toList
  constructor
  · rw [drain, written, written, htaken, List.append_assoc, hdone]
  · have hlength := congrArg List.length hdone
    rw [List.length_append] at hlength
    rw [drain, List.size_toArray, ← Array.length_toList]
    omega

/-- A part of the bytes is kept: they begin with it, and it is all of them exactly if writing them
is done. -/
def IsKept (isDone : Prop) (bytes kept : List UInt8) : Prop :=
  kept <+: bytes ∧ (isDone ↔ kept = bytes)

/-- Everything is kept of what is done. -/
lemma IsKept.all {isDone : Prop} (h : isDone) (bytes : List UInt8) : IsKept isDone bytes bytes :=
  ⟨List.prefix_rfl, iff_of_true h rfl⟩

/-- What stands in front of the rest is kept; there is no rest when writing is done. -/
lemma IsKept.of_append (done rest : List UInt8) : IsKept (rest = []) (done ++ rest) done :=
  ⟨List.prefix_append _ _, List.self_eq_append_right.symm⟩

/-- When the first bytes are done, a part of the others is kept behind them. -/
lemma IsKept.append {isDone : Prop} {bytes kept : List UInt8} (h : IsKept isDone bytes kept)
    (first : List UInt8) : IsKept isDone (first ++ bytes) (first ++ kept) := by
  refine ⟨(List.prefix_append_right_inj first).mpr h.1, ?_⟩
  rw [h.2, List.append_cancel_left_eq]

/-- When the first bytes are not done, the others do not matter. -/
lemma IsKept.append_of_not {isDone : Prop} {bytes kept : List UInt8} (h : IsKept isDone bytes kept)
    (hnot : ¬ isDone) (others : List UInt8) : IsKept isDone (bytes ++ others) kept := by
  refine ⟨h.1.trans (List.prefix_append _ _), fun hdone => absurd hdone hnot, fun hkept => ?_⟩
  have hlength : bytes.length ≤ kept.length := by
    rw [hkept, List.length_append]
    exact Nat.le_add_right _ _
  exact absurd (h.2.mpr (h.1.eq_of_length_le hlength)) hnot

/-- Of bytes that are put a part is kept. -/
lemma exists_kept_put {w : Buffered (Tapped D)} (hw : w.Fits) (bytes : List UInt8) :
    (w.put bytes).2.Fits ∧ ∃ kept, (w.put bytes).2.written = w.written ++ kept ∧
      IsKept ((w.put bytes).1 = .ok ()) bytes kept := by
  have hdrained := w.written_drain
  generalize hput : w.put bytes = result
  cases hput ▸ w.puts_put bytes with
  | behind hroom hsmall =>
    refine ⟨?_, bytes, ?_, .all rfl bytes⟩
    · rw [Fits, ← Array.length_toList]
      simpa using hroom
    · simp [written]
  | @after t hdrain hsmall =>
    rw [hdrain] at hdrained
    refine ⟨?_, bytes, ?_, .all rfl bytes⟩
    · rw [Fits, List.size_toArray]
      exact Nat.le_of_lt hsmall
    · rw [← hdrained.1]
      simp [written, start]
  | @out reason w' hdrain hne =>
    rw [hdrain] at hdrained
    refine ⟨Nat.le_trans hdrained.2 hw, [], ?_, List.nil_prefix, ?_⟩
    · rw [List.append_nil]
      exact hdrained.1
    · exact iff_of_false (by simp) (hne hw).symm
  | @through t hdrain hlarge =>
    rw [hdrain] at hdrained
    obtain ⟨done, htaken, hdone⟩ := exists_taken_handOn "failed to write whole buffer" t bytes
    refine ⟨Nat.zero_le _, done, ?_, ?_⟩
    · rw [← hdrained.1]
      simp [written, start, htaken]
    · rw [handOn_eq_ok_iff]
      have hkept := IsKept.of_append done (handOn "failed to write whole buffer" t bytes).2.1
      rwa [hdone] at hkept

/-- Of pieces that are written one after the other a part is kept. -/
lemma exists_kept_putAll {w : Buffered (Tapped D)} (hw : w.Fits) (pieces : List (List UInt8)) :
    (putAll pieces w).2.Fits ∧ ∃ kept, (putAll pieces w).2.written = w.written ++ kept ∧
      IsKept ((putAll pieces w).1 = .ok ()) pieces.flatten kept := by
  induction pieces generalizing w with
  | nil => exact ⟨hw, [], (List.append_nil _).symm, .all rfl []⟩
  | cons piece pieces ih =>
    obtain ⟨hfits, kept, hwritten, hkept⟩ := exists_kept_put hw piece
    rw [putAll, List.flatten_cons]
    rcases hput : w.put piece with ⟨reason | ⟨⟨⟩⟩, w'⟩
    · rw [hput] at hfits hwritten hkept
      exact ⟨hfits, kept, hwritten, hkept.append_of_not (by simp) pieces.flatten⟩
    · rw [hput] at hfits hwritten hkept
      obtain rfl := hkept.2.mp rfl
      obtain ⟨hfits', kept', hwritten', hkept'⟩ := ih hfits
      refine ⟨hfits', kept ++ kept', ?_, hkept'.append kept⟩
      rw [hwritten', hwritten, List.append_assoc]

/-- Making sure of what was written does not change it. -/
lemma written_flush (w : Buffered (Tapped D)) :
    w.flush.2.written = w.written ∧ w.flush.2.pending.size ≤ w.pending.size := by
  have hdrained := w.written_drain
  rw [flush]
  rcases hdrain : w.drain with ⟨reason | ⟨⟨⟩⟩, w'⟩
  · rw [hdrain] at hdrained
    exact hdrained
  · rw [hdrain] at hdrained
    exact hdrained

/-- A writer that is given up without a failure has handed on everything that was written. -/
lemma taken_close {w : Buffered (Tapped D)} (h : w.close.1 = .ok ()) :
    w.close.2.taken = w.written := by
  have hdrained := w.written_drain.1
  rw [close] at h ⊢
  rcases hdrain : w.drain with ⟨reason | ⟨⟨⟩⟩, w'⟩
  · rw [hdrain] at h
    cases h
  · rw [hdrain] at hdrained
    obtain ⟨t, rfl⟩ := exists_start_of_drain hdrain
    rw [← hdrained]
    exact (List.append_nil _).symm

/-! ### Records and what is told about them -/

/-- What was told is nothing exactly if nothing failed. -/
lemma notices_eq_nil_iff (what : String) (outcome : Except String Unit) :
    notices what outcome = [] ↔ outcome = .ok () := by
  rcases outcome with reason | ⟨⟨⟩⟩
  · simp [notices]
  · simp [notices]

/-- Of a record a part of its line is kept, all of it exactly if nothing is told. -/
lemma exists_kept_emit {w : Buffered (Tapped D)} (hw : w.Fits) (r : Record) :
    (w.emit r).2.Fits ∧ ∃ kept, (w.emit r).2.written = w.written ++ kept ∧
      IsKept ((w.emit r).1 = []) (lineBytes [r]) kept := by
  have hline : (r.linePieces.map Text.encode).flatten = lineBytes [r] := by
    rw [Text.flatten_map_encode, Record.flatten_linePieces, lineBytes, List.flatMap_singleton]
  rw [← hline, emit, notices_eq_nil_iff]
  exact exists_kept_putAll hw (r.linePieces.map Text.encode)

/-- The lines of records stand one behind the other. -/
lemma lineBytes_eq_flatMap (records : List Record) :
    lineBytes records = records.flatMap fun r => lineBytes [r] := by
  induction records with
  | nil => rfl
  | cons r records ih => rw [← List.singleton_append, lineBytes_append, ih]; rfl

/-- The records that are written, and what is told about each of them. -/
def accounts : List Request → Buffered D → List (Record × List Notice)
  | [], _ => []
  | request :: requests, w =>
    let performed := request.perform w
    request.record?.toList.map (·, performed.1) ++ accounts requests performed.2

/-- There is an account of each record. -/
lemma map_fst_accounts (requests : List Request) (w : Buffered D) :
    (accounts requests w).map Prod.fst = requests.filterMap Request.record? := by
  induction requests generalizing w with
  | nil => rfl
  | cons request requests ih =>
    rw [accounts, List.map_append, ih]
    cases request <;> rfl

/-- **What is kept of the records.**  Of each line a part is kept, one behind the other. -/
lemma exists_kept_serve {w : Buffered (Tapped D)} (hw : w.Fits) (requests : List Request) :
    ∃ parts, (serve requests w).2.written = w.written ++ parts.flatten ∧
      List.Forall₂ (fun account part => IsKept (account.2 = []) (lineBytes [account.1]) part)
        (accounts requests w) parts := by
  induction requests generalizing w with
  | nil => exact ⟨[], (List.append_nil _).symm, .nil⟩
  | cons request requests ih =>
    cases request with
    | emit r =>
      obtain ⟨hfits, kept, hwritten, hkept⟩ := exists_kept_emit hw r
      obtain ⟨parts, hparts, hall⟩ := ih hfits
      refine ⟨kept :: parts, ?_, .cons hkept hall⟩
      rw [List.flatten_cons, ← List.append_assoc, ← hwritten]
      exact hparts
    | settle =>
      obtain ⟨hwritten, hsize⟩ := w.written_flush
      obtain ⟨parts, hparts, hall⟩ := ih (Nat.le_trans hsize hw)
      refine ⟨parts, ?_, hall⟩
      rw [← hwritten]
      exact hparts

section Parts

variable {α : Type} {isDone : α → Prop} {line : α → List UInt8} {as : List α}
  {parts : List (List UInt8)}

omit [Device D]

/-- Parts make up no more than what they are kept of. -/
lemma length_flatten_le
    (h : List.Forall₂ (fun a part => IsKept (isDone a) (line a) part) as parts) :
    parts.flatten.length ≤ (as.flatMap line).length := by
  induction h with
  | nil => exact Nat.le_refl _
  | cons hpart _ ih =>
    rw [List.flatten_cons, List.flatMap_cons, List.length_append, List.length_append]
    exact Nat.add_le_add hpart.1.length_le ih

/-- Parts make up all of what they are kept of exactly if all of it is done. -/
lemma flatten_eq_iff (h : List.Forall₂ (fun a part => IsKept (isDone a) (line a) part) as parts) :
    parts.flatten = as.flatMap line ↔ ∀ a ∈ as, isDone a := by
  induction h with
  | nil => exact iff_of_true rfl nofun
  | @cons a part as parts hpart hparts ih =>
    rw [List.flatten_cons, List.flatMap_cons, List.forall_mem_cons, hpart.2, ← ih]
    constructor
    · intro hall
      have hlength := congrArg List.length hall
      rw [List.length_append, List.length_append] at hlength
      have hothers := length_flatten_le hparts
      obtain rfl := hpart.1.eq_of_length_le (by omega)
      exact ⟨rfl, List.append_cancel_left hall⟩
    · rintro ⟨rfl, hothers⟩
      rw [hothers]

end Parts

/-! ### Giving up the writer -/

/-- What is told about each record when these things are asked for. -/
def told (device : D) (requests : List Request) : List (Record × List Notice) :=
  accounts requests (start (Tapped.start device))

/-- What comes of giving up the writer after these things were asked for. -/
def closing (device : D) (requests : List Request) : Except String Unit × Tapped D :=
  (serve requests (start (Tapped.start device))).2.close

/-- A writer that is given up without a failure has handed on the part of each line that was
kept. -/
lemma exists_parts_closing {device : D} {requests : List Request}
    (h : (closing device requests).1 = .ok ()) :
    ∃ parts, (closing device requests).2.taken = parts.flatten ∧
      List.Forall₂ (fun account part => IsKept (account.2 = []) (lineBytes [account.1]) part)
        (told device requests) parts := by
  obtain ⟨parts, hwritten, hparts⟩ :=
    exists_kept_serve (w := start (Tapped.start device)) (Nat.zero_le _) requests
  exact ⟨parts, (taken_close h).trans hwritten, hparts⟩

/-- These are all lines exactly if nothing was told about a record. -/
lemma taken_closing_eq_iff {device : D} {requests : List Request}
    (h : (closing device requests).1 = .ok ()) :
    (closing device requests).2.taken = lineBytes (requests.filterMap Request.record?) ↔
      ∀ account ∈ told device requests, account.2 = [] := by
  obtain ⟨parts, htaken, hparts⟩ := exists_parts_closing h
  have hlines : lineBytes (requests.filterMap Request.record?) =
      (told device requests).flatMap fun account => lineBytes [account.1] := by
    rw [← map_fst_accounts requests (start (Tapped.start device)), lineBytes_eq_flatMap,
      List.flatMap_map, told]
  rw [htaken, hlines]
  exact flatten_eq_iff hparts

end Buffered

end Lockstep
