import Lockstep.Proofs.Text.Encode
import Lockstep.Sink.JsonLines
import Lockstep.Sink.Store

/-!
# What lines of JSON leave behind

A device that never fails takes everything sooner or later.  What was written is what the device has
and what is still collected; each piece that is put is added to it, and handing on what is collected
does not change it.

The main statement, `Buffered.close_serve`, says that nothing but the records decides what the
device has in the end: neither how the device takes the bytes nor when somebody makes sure of them.
-/

namespace Lockstep

variable {D : Type} [Device D] {holds : D → List UInt8 → Prop} {device : D}

/-! ### Devices that do not fail -/

/-- A device that is known to hold some bytes never fails.  It always takes some of the bytes that
it is given, and then holds them behind the others. -/
structure Device.NeverFails (holds : D → List UInt8 → Prop) : Prop where
  write : ∀ {device : D} {content : List UInt8}, holds device content →
    ∀ (b : UInt8) (bytes : List UInt8), ∃ n,
      (Device.write (b :: bytes) device).1 = .ok (n + 1) ∧
        holds (Device.write (b :: bytes) device).2 (content ++ (b :: bytes).take (n + 1))
  flush : ∀ {device : D} {content : List UInt8}, holds device content →
    (Device.flush device).1 = .ok () ∧ holds (Device.flush device).2 content

/-- The store has no limit and holds these bytes. -/
def Store.HoldsFreely (s : Store) (content : List UInt8) : Prop :=
  s.limit = none ∧ s.content.toList = content

/-- A store without a limit never fails. -/
lemma Store.neverFails : Device.NeverFails Store.HoldsFreely where
  write := by
    rintro s content ⟨hlimit, rfl⟩ b bytes
    have hfree : s.isFull (b :: bytes).length = false := by rw [isFull, hlimit]
    have hwrite : Device.write (b :: bytes) s =
        (.ok (b :: bytes).length, { s with content := s.content ++ (b :: bytes) }) :=
      if_neg (by rw [hfree]; exact Bool.noConfusion)
    refine ⟨bytes.length, congrArg Prod.fst hwrite, ?_⟩
    rw [hwrite]
    exact ⟨hlimit, by simp⟩
  flush := fun h => ⟨rfl, h⟩

namespace Buffered

/-- All bytes are handed on to a device that never fails. -/
lemma handOn_of_neverFails (h : Device.NeverFails holds) (stuck : String) {content : List UInt8}
    (hdevice : holds device content) (bytes : List UInt8) :
    ∃ device', handOn stuck device bytes = (.ok (), [], device') ∧
      holds device' (content ++ bytes) := by
  fun_induction handOn stuck device bytes generalizing content with
  | case1 device =>
    rw [List.append_nil]
    exact ⟨device, rfl, hdevice⟩
  | case2 device b rest reason device' heq =>
    obtain ⟨n, hok, -⟩ := h.write hdevice b rest
    rw [heq] at hok
    cases hok
  | case3 device b rest device' heq =>
    obtain ⟨n, hok, -⟩ := h.write hdevice b rest
    rw [heq] at hok
    cases hok
  | case4 device b rest n device' heq ih =>
    obtain ⟨m, hok, hdevice'⟩ := h.write hdevice b rest
    rw [heq] at hok hdevice'
    obtain rfl : n = m := Nat.succ.inj (Except.ok.inj hok)
    obtain ⟨last, hlast, hholds⟩ := ih hdevice'
    rw [List.append_assoc, List.take_succ_cons, List.cons_append, List.take_append_drop] at hholds
    exact ⟨last, hlast, hholds⟩

/-! ### Collected bytes -/

/-- These bytes were written: first those that the device holds, then those that are collected. -/
def HasWritten (holds : D → List UInt8 → Prop) (w : Buffered D) (bytes : List UInt8) : Prop :=
  ∃ taken, holds w.device taken ∧ taken ++ w.pending.toList = bytes

variable {w : Buffered D} {bytes : List UInt8}

omit [Device D] in
/-- At first only those bytes are written that the device holds. -/
lemma hasWritten_start (hdevice : holds device bytes) : (start device).HasWritten holds bytes :=
  ⟨bytes, hdevice, List.append_nil bytes⟩

/-- Everything that is collected can be handed on. -/
lemma drain_of_hasWritten (h : Device.NeverFails holds) (hw : w.HasWritten holds bytes) :
    ∃ device', w.drain = (.ok (), start device') ∧ holds device' bytes := by
  obtain ⟨taken, htaken, rfl⟩ := hw
  obtain ⟨device', hhanded, hholds⟩ :=
    handOn_of_neverFails h "failed to write the buffered data" htaken w.pending.toList
  refine ⟨device', ?_, hholds⟩
  rw [drain, hhanded]
  rfl

/-- Bytes that are put are written behind the others, whether they are collected or handed on. -/
lemma put_of_hasWritten (h : Device.NeverFails holds) (hw : w.HasWritten holds bytes)
    (more : List UInt8) :
    ∃ w', w.put more = (.ok (), w') ∧ w'.HasWritten holds (bytes ++ more) := by
  unfold put
  split
  · obtain ⟨taken, htaken, rfl⟩ := hw
    exact ⟨_, rfl, taken, htaken, by simp⟩
  · obtain ⟨device', hdrained, hholds⟩ := drain_of_hasWritten h hw
    simp only [hdrained]
    split
    · exact ⟨_, rfl, bytes, hholds, by simp [start]⟩
    · obtain ⟨last, hhanded, hlast⟩ :=
        handOn_of_neverFails h "failed to write whole buffer" hholds more
      refine ⟨⟨#[], last⟩, ?_, bytes ++ more, hlast, List.append_nil _⟩
      simp only [start, hhanded]

/-- Pieces are written one after the other. -/
lemma putAll_of_hasWritten (h : Device.NeverFails holds) (hw : w.HasWritten holds bytes)
    (pieces : List (List UInt8)) :
    ∃ w', putAll pieces w = (.ok (), w') ∧ w'.HasWritten holds (bytes ++ pieces.flatten) := by
  induction pieces generalizing w bytes with
  | nil =>
    rw [List.flatten_nil, List.append_nil]
    exact ⟨w, rfl, hw⟩
  | cons piece pieces ih =>
    obtain ⟨w₁, hput, hw₁⟩ := put_of_hasWritten h hw piece
    obtain ⟨w₂, hall, hw₂⟩ := ih hw₁
    refine ⟨w₂, ?_, ?_⟩
    · rw [putAll, hput]
      exact hall
    · rwa [List.append_assoc] at hw₂

/-- Making sure of what was written does not change it. -/
lemma flush_of_hasWritten (h : Device.NeverFails holds) (hw : w.HasWritten holds bytes) :
    ∃ w', w.flush = (.ok (), w') ∧ w'.HasWritten holds bytes := by
  obtain ⟨device', hdrained, hholds⟩ := drain_of_hasWritten h hw
  obtain ⟨hok, hflushed⟩ := h.flush hholds
  refine ⟨_, ?_, hasWritten_start hflushed⟩
  simp only [flush, hdrained, start, hok]

/-- In the end the device holds what was written. -/
lemma close_of_hasWritten (h : Device.NeverFails holds) (hw : w.HasWritten holds bytes) :
    ∃ device', w.close = (.ok (), device') ∧ holds device' bytes := by
  obtain ⟨device', hdrained, hholds⟩ := drain_of_hasWritten h hw
  refine ⟨device', ?_, hholds⟩
  simp only [close, hdrained, start]

/-! ### Records -/

/-- Records as lines of JSON. -/
def lineBytes (records : List Record) : List UInt8 :=
  Text.encode (records.flatMap fun r => r.json.compact ++ ['\n'])

/-- The lines of some records stand before those of the others. -/
lemma lineBytes_append (first others : List Record) :
    lineBytes (first ++ others) = lineBytes first ++ lineBytes others := by
  rw [lineBytes, List.flatMap_append, Text.encode_append, lineBytes, lineBytes]

/-- What a writer of records is asked for. -/
inductive Request where
  | emit (r : Record)
  | settle

namespace Request

/-- The record that is to be written, if there is one. -/
def record? : Request → Option Record
  | emit r => some r
  | settle => none

/-- Does what is asked for. -/
def perform : Request → Buffered D → List Notice × Buffered D
  | emit r, w => w.emit r
  | settle, w => w.settle

/-- Nothing but a record is written, on a line of its own, and nothing is said about it. -/
lemma perform_of_hasWritten (h : Device.NeverFails holds) (hw : w.HasWritten holds bytes)
    (request : Request) :
    ∃ w', request.perform w = ([], w') ∧
      w'.HasWritten holds (bytes ++ lineBytes request.record?.toList) := by
  cases request with
  | emit r =>
    obtain ⟨w', hput, hw'⟩ := putAll_of_hasWritten h hw (r.linePieces.map Text.encode)
    rw [Text.flatten_map_encode, Record.flatten_linePieces] at hw'
    refine ⟨w', ?_, ?_⟩
    · rw [perform, Buffered.emit, writeRecord, hput]
      rfl
    · rwa [record?, Option.toList_some, lineBytes, List.flatMap_singleton]
  | settle =>
    obtain ⟨w', hflushed, hw'⟩ := flush_of_hasWritten h hw
    refine ⟨w', ?_, ?_⟩
    · rw [perform, Buffered.settle, hflushed]
      rfl
    · have hnone : lineBytes settle.record?.toList = [] := rfl
      rwa [hnone, List.append_nil]

end Request

/-- Does one thing after the other. -/
def serve : List Request → Buffered D → List Notice × Buffered D
  | [], w => ([], w)
  | request :: requests, w =>
    let first := request.perform w
    let others := serve requests first.2
    (first.1 ++ others.1, others.2)

/-- Nothing but the records is written, and nothing is said about them. -/
lemma serve_of_hasWritten (h : Device.NeverFails holds) (hw : w.HasWritten holds bytes)
    (requests : List Request) :
    ∃ w', serve requests w = ([], w') ∧
      w'.HasWritten holds (bytes ++ lineBytes (requests.filterMap Request.record?)) := by
  induction requests generalizing w bytes with
  | nil =>
    refine ⟨w, rfl, ?_⟩
    have hnone : lineBytes (([] : List Request).filterMap Request.record?) = [] := rfl
    rwa [hnone, List.append_nil]
  | cons request requests ih =>
    obtain ⟨w₁, hfirst, hw₁⟩ := request.perform_of_hasWritten h hw
    obtain ⟨w₂, hothers, hw₂⟩ := ih hw₁
    have hrecords : (request :: requests).filterMap Request.record? =
        request.record?.toList ++ requests.filterMap Request.record? := by
      cases request <;> rfl
    refine ⟨w₂, ?_, ?_⟩
    · simp only [serve, hfirst, hothers, List.append_nil]
    · rwa [hrecords, lineBytes_append, ← List.append_assoc]

/-- **What lines of JSON leave behind.**  A device that never fails holds one line for each record
in the end, whatever it took at once and whenever somebody made sure of the records before. -/
theorem close_serve (h : Device.NeverFails holds) (hdevice : holds device bytes)
    (requests : List Request) :
    ∃ w device', serve requests (start device) = ([], w) ∧ w.close = (.ok (), device') ∧
      holds device' (bytes ++ lineBytes (requests.filterMap Request.record?)) := by
  obtain ⟨w, hserved, hw⟩ := serve_of_hasWritten h (hasWritten_start hdevice) requests
  obtain ⟨device', hclosed, hholds⟩ := close_of_hasWritten h hw
  exact ⟨w, device', hserved, hclosed, hholds⟩

end Buffered

end Lockstep
