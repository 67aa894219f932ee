import Lockstep.Capture
import Lockstep.Proofs.Record.Json
import Lockstep.Proofs.Record.Line
import Lockstep.Proofs.Sink.JsonLines
import Mathlib.Tactic.Lemma

/-!
# Captures read back

A capture is made of lines: records in JSON, records in their text form behind what a log puts in
front, and other lines.  The bytes are cut at the same places where the lines were put together,
because no line holds a line break; what is left of a carriage return is trimmed off.  Each line is
then taken for what it is by its first visible character and by the marker.

The main statement, `Capture.reads_capture`, says that reading gives the records of the lines in
their order and finds nothing malformed.
-/

namespace Lockstep

namespace Record

/-! ### Records in their text form -/

/-- A plain record makes no line break. -/
lemma not_mem_text {r : Record} (h : r.IsPlain) : '\n' ∉ r.text.toList := by
  rw [toList_text]
  intro hmem
  rcases List.mem_append.mp hmem with hmem | hmem
  · exact absurd hmem (by decide)
  · obtain ⟨w, hw, hmem⟩ := List.mem_flatMap.mp hmem
    rcases List.mem_cons.mp hmem with hblank | hmem
    · exact absurd hblank (by decide)
    · have hvisible := (Text.isWord_iff.mp (isWord_of_mem_lineWords h hw)).2 '\n' hmem
      exact absurd hvisible (by decide)

/-- The text form of a plain record ends with a visible character. -/
lemma exists_getLast?_text {r : Record} (h : r.IsPlain) :
    ∃ c, r.text.toList.getLast? = some c ∧ Text.isBlank c = false := by
  rw [toList_text, List.getLast?_append]
  cases hlast : (r.lineWords.flatMap (' ' :: ·)).getLast? with
  | none => exact ⟨'T', rfl, by decide⟩
  | some c =>
    have hvisible := Text.not_isBlank_getLast?_flatMap fun w hw => isWord_of_mem_lineWords h hw
    exact ⟨c, Option.some_or, hvisible c hlast⟩

/-- Trimming takes nothing but blanks off what stands in front of a plain record. -/
lemma exists_trim_append_text {r : Record} (h : r.IsPlain) (front : List Char) :
    ∃ rest, rest <:+ front ∧ Text.trim (front ++ r.text.toList) = rest ++ r.text.toList := by
  refine ⟨front.dropWhile Text.isBlank, List.dropWhile_suffix _, ?_⟩
  have hne : front.dropWhile Text.isBlank ++ r.text.toList ≠ [] := by
    rw [toList_text]
    exact List.append_ne_nil_of_right_ne_nil _ (List.append_ne_nil_of_left_ne_nil (by decide) _)
  have hblank : ∀ c ∈ front.takeWhile Text.isBlank, Text.isBlank c = true :=
    fun c hc => List.all_eq_true.mp List.all_takeWhile c hc
  have hhead : ∀ c ∈ (front.dropWhile Text.isBlank ++ r.text.toList).head?,
      Text.isBlank c = false := by
    intro c hc
    have hrest := List.head?_dropWhile_not Text.isBlank front
    cases hdrop : front.dropWhile Text.isBlank with
    | nil =>
      rw [hdrop, List.nil_append, toList_text] at hc
      obtain rfl : 'C' = c := Option.some.inj hc
      decide
    | cons d ds =>
      rw [hdrop] at hc hrest
      obtain rfl : d = c := Option.some.inj hc
      simpa using hrest
  have hlast : ∀ c ∈ (front.dropWhile Text.isBlank ++ r.text.toList).getLast?,
      Text.isBlank c = false := by
    intro c hc
    obtain ⟨d, hd, hvisible⟩ := exists_getLast?_text h
    rw [List.getLast?_append, hd, Option.some_or] at hc
    obtain rfl : d = c := Option.some.inj hc
    exact hvisible
  have htrim := Text.trim_append hblank (fun c hc => absurd hc List.not_mem_nil) hne hhead hlast
  rwa [List.append_nil, ← List.append_assoc, List.takeWhile_append_dropWhile] at htrim

end Record

namespace Capture

/-! ### The lines of a capture -/

/-- What stands on a line of a capture. -/
inductive Line where
  /-- A record in JSON. -/
  | json (r : Record)
  /-- A record in its text form, and what a log puts in front of it. -/
  | log (front : String) (r : Record)
  /-- Anything else. -/
  | noise (text : String)
  deriving DecidableEq, Repr

/-- The ways to end a line. -/
inductive Ending where
  | feed
  | returnFeed
  deriving DecidableEq, Repr

/-- What stands before the line feed. -/
def Ending.before : Ending → List Char
  | .feed => []
  | .returnFeed => ['\r']

namespace Line

/-- The characters of a line. -/
def chars : Line → List Char
  | .json r => r.json.compact
  | .log front r => (front ++ r.text).toList
  | .noise text => text.toList

/-- The record that stands on a line. -/
def record? : Line → Option Record
  | .json r => some r
  | .log _ r => some r
  | .noise _ => none

/-- The first character that is not blank is no opening brace. -/
def BeginsOtherwise (cs : List Char) : Prop :=
  cs.find? (!Text.isBlank ·) ≠ some '\x7b'

instance (cs : List Char) : Decidable (BeginsOtherwise cs) :=
  inferInstanceAs (Decidable (_ ≠ _))

/-- The line can be told from other lines.  A record may be written in its text form if it is plain
and the marker does not occur before; other lines do not hold the marker. -/
def IsProper : Line → Prop
  | .json _ => True
  | .log front r => ¬ Record.marker.toList <:+: front.toList ∧ '\n' ∉ front.toList ∧ r.IsPlain ∧
      BeginsOtherwise (front ++ r.text).toList
  | .noise text => ¬ Record.marker.toList <:+: text.toList ∧ '\n' ∉ text.toList ∧
      BeginsOtherwise text.toList

end Line

/-- The bytes of a capture. -/
def bytes (ls : List (Line × Ending)) : List UInt8 :=
  Text.encode (ls.flatMap fun l => l.1.chars ++ l.2.before ++ ['\n'])

/-- Records in JSON, each on a line of its own. -/
def jsonLines (records : List Record) : List (Line × Ending) :=
  records.map fun r => (.json r, .feed)

/-! ### One line -/

/-- A carriage return at the end of a line makes no difference. -/
lemma record?_append_before (cs : List Char) (e : Ending) :
    record? (cs ++ e.before) = record? cs := by
  cases e with
  | feed => rw [Ending.before, List.append_nil]
  | returnFeed => rw [Ending.before, record?, record?, Text.trim_concat (by decide)]

/-- A record in JSON is found. -/
lemma record?_json (r : Record) : record? r.json.compact = some (some r) := by
  obtain ⟨cs, hcs⟩ := r.exists_compact_json
  have htrim : Text.trim r.json.compact = r.json.compact := by
    rw [hcs]
    refine Text.trim_eq_self (List.cons_ne_nil _ _) (fun c hc => ?_) (fun c hc => ?_)
    · obtain rfl : '\x7b' = c := Option.some.inj hc
      decide
    · rw [List.getLast?_append, List.getLast?_singleton, Option.some_or] at hc
      obtain rfl : '\x7d' = c := Option.some.inj hc
      decide
  have hhead : r.json.compact.head? = some '\x7b' := by rw [hcs]; rfl
  rw [record?, htrim, if_pos hhead, Record.ofChars_json]
  rfl

/-- A record in its text form is found behind anything that neither holds the marker nor makes the
line look like JSON. -/
lemma record?_log {front : String} {r : Record} (hfront : ¬ Record.marker.toList <:+: front.toList)
    (hplain : r.IsPlain) (hbegin : Line.BeginsOtherwise (front ++ r.text).toList) :
    record? (front ++ r.text).toList = some (some r) := by
  obtain ⟨rest, hrest, htrim⟩ := Record.exists_trim_append_text hplain front.toList
  have hmarked : Record.isMarked (rest ++ r.text.toList) = true := by
    rw [Record.isMarked_iff, Record.toList_text]
    exact ⟨rest, _, (List.append_assoc _ _ _)⟩
  have hunmarked : ¬ Record.marker.toList <:+: (String.ofList rest).toList := by
    rw [String.toList_ofList]
    exact fun hmem => hfront (hmem.trans hrest.isInfix)
  rw [Line.BeginsOtherwise, ← Text.head?_trim, String.toList_append, htrim] at hbegin
  have hline := Record.ofLine_text hunmarked hplain
  rw [record?, String.toList_append, htrim, if_neg hbegin, if_pos hmarked, String.ofList_append,
    String.ofList_toList, hline]
  rfl

/-- On other lines nothing is found. -/
lemma record?_noise {cs : List Char} (hmarker : ¬ Record.marker.toList <:+: cs)
    (hbegin : Line.BeginsOtherwise cs) : record? cs = none := by
  have hunmarked : Record.isMarked (Text.trim cs) ≠ true := by
    rw [ne_eq, Record.isMarked_iff]
    exact fun hmem => hmarker (hmem.trans (Text.trim_infix cs))
  rw [Line.BeginsOtherwise, ← Text.head?_trim] at hbegin
  rw [record?, if_neg hbegin, if_neg hunmarked]

/-- **A line is taken for what it is.** -/
theorem record?_chars {l : Line} (h : l.IsProper) : record? l.chars = l.record?.map some := by
  cases l with
  | json r => exact record?_json r
  | log front r => exact record?_log h.1 h.2.2.1 h.2.2.2
  | noise text => exact record?_noise h.1 h.2.2

/-- No line holds a line break. -/
lemma not_mem_chars {l : Line} (h : l.IsProper) : '\n' ∉ l.chars := by
  cases l with
  | json r => exact fun hmem => absurd (r.isVisible_json '\n' hmem) (by decide)
  | log front r =>
    rw [Line.chars, String.toList_append, List.mem_append, not_or]
    exact ⟨h.2.1, Record.not_mem_text h.2.2.1⟩
  | noise text => exact h.2.1

/-! ### All lines -/

/-- The bytes are cut where the lines were put together. -/
lemma lines_bytes {ls : List (Line × Ending)} (h : ∀ l ∈ ls, l.1.IsProper) :
    lines (bytes ls) = (ls.map fun l => l.1.chars ++ l.2.before).map Text.encode := by
  induction ls with
  | nil => exact Text.linesBy_nil _
  | cons l ls ih =>
    have hothers := ih fun x hx => h x (List.mem_cons_of_mem _ hx)
    have hbreak : '\n' ∉ l.1.chars ++ l.2.before := by
      rw [List.mem_append, not_or]
      refine ⟨not_mem_chars (h l List.mem_cons_self), ?_⟩
      cases l.2 <;> decide
    have hline : ∀ b ∈ Text.encode (l.1.chars ++ l.2.before), (b == lineBreak) = false := by
      rintro b hb
      refine beq_eq_false_iff_ne.mpr ?_
      rintro rfl
      exact Text.not_mem_encode hbreak hb
    have hbytes : bytes (l :: ls) =
        Text.encode (l.1.chars ++ l.2.before) ++ lineBreak :: bytes ls := by
      rw [bytes, List.flatMap_cons, Text.encode_append, Text.encode_append, List.append_assoc]
      rfl
    have hcut : lines (bytes (l :: ls)) =
        Text.encode (l.1.chars ++ l.2.before) :: lines (bytes ls) := by
      rw [hbytes]
      exact Text.linesBy_line (· == lineBreak) (beq_self_eq_true _) hline _
    rw [hcut, hothers, List.map_cons, List.map_cons]

/-- Encoded lines are texts. -/
lemma mapM_characters_encode (css : List (List Char)) :
    (css.map Text.encode).mapM characters = .ok css := by
  induction css with
  | nil => rfl
  | cons cs css ih =>
    have hcs : characters (Text.encode cs) = .ok cs := by
      rw [characters, Text.fromUTF8?_encode]
      exact congrArg Except.ok String.toList_ofList
    rw [List.map_cons, List.mapM_cons, hcs, ih]
    rfl

/-- The records of the lines are found, and nothing else. -/
lemma ofLines_chars {ls : List (Line × Ending)} (h : ∀ l ∈ ls, l.1.IsProper) :
    ofLines (ls.map fun l => l.1.chars ++ l.2.before) = ⟨ls.filterMap (·.1.record?), 0⟩ := by
  have hfound : (ls.map fun l => l.1.chars ++ l.2.before).filterMap record? =
      (ls.filterMap (·.1.record?)).map some := by
    rw [List.filterMap_map, List.map_filterMap]
    refine List.filterMap_congr fun l hl => ?_
    rw [Function.comp_apply, record?_append_before, record?_chars (h l hl)]
  rw [ofLines, hfound]
  simp

/-- **A capture is read back.**  The records of its lines are read in their order, and no line is
malformed. -/
lemma ofBytes_bytes {ls : List (Line × Ending)} (h : ∀ l ∈ ls, l.1.IsProper) :
    ofBytes ⟨(bytes ls).toArray⟩ = .ok ⟨ls.filterMap (·.1.record?), 0⟩ := by
  rw [ofBytes, List.toList_toArray, lines_bytes h, mapM_characters_encode, Except.map,
    ofLines_chars h]

/-! ### The main statement -/

/-- Lines of JSON are a capture. -/
lemma lineBytes_eq_bytes (records : List Record) :
    Buffered.lineBytes records = bytes (jsonLines records) := by
  rw [Buffered.lineBytes, bytes, jsonLines, List.flatMap_map]
  simp only [Line.chars, Ending.before, List.append_nil]

/-- The records of lines of JSON. -/
lemma filterMap_jsonLines (records : List Record) :
    (jsonLines records).filterMap (·.1.record?) = records := by
  rw [jsonLines, List.filterMap_map]
  exact List.filterMap_some

/-- **Captures are read back.**  A capture of proper lines is read as the records of its lines in
their order, with nothing malformed, and so is the capture that holds the same records in JSON.  A
sink that writes to a device that never fails leaves behind one line of JSON for each record, with
nothing said about failures, and whenever it is asked to make sure of them. -/
theorem reads_capture :
    (∀ ls : List (Line × Ending), (∀ l ∈ ls, l.1.IsProper) →
      ofBytes ⟨(bytes ls).toArray⟩ = .ok ⟨ls.filterMap (·.1.record?), 0⟩ ∧
      ofBytes ⟨(bytes (jsonLines (ls.filterMap (·.1.record?)))).toArray⟩ =
        ofBytes ⟨(bytes ls).toArray⟩) ∧
    ∀ {D : Type} [Device D] {holds : D → List UInt8 → Prop}, Device.NeverFails holds →
      ∀ {device : D} {before : List UInt8}, holds device before →
      ∀ requests : List Buffered.Request, ∃ w device',
        Buffered.serve requests (.start device) = ([], w) ∧ w.close = (.ok (), device') ∧
        holds device'
          (before ++ bytes (jsonLines (requests.filterMap Buffered.Request.record?))) := by
  refine ⟨fun ls hls => ?_, ?_⟩
  · have hjson : ∀ l ∈ jsonLines (ls.filterMap (·.1.record?)), l.1.IsProper := by
      intro l hl
      obtain ⟨r, -, rfl⟩ := List.mem_map.mp hl
      trivial
    have hread := ofBytes_bytes hls
    refine ⟨hread, ?_⟩
    rw [ofBytes_bytes hjson, filterMap_jsonLines, hread]
  · intro D _ holds hnever device before hdevice requests
    rw [← lineBytes_eq_bytes]
    exact Buffered.close_serve hnever hdevice requests

/-- A record that only JSON can hold. -/
def awkward : Record where
  label := "\"CYCLECOUNT\"\n"
  workload := " \\ \x01"
  cores := 2
  core := 1
  iteration := 1
  offset := 0
  cycles := 18446744073709551615
  events := List.replicate 5 ⟨⟨200⟩, ⟨3⟩, 0⟩

/-- A record that can be written in its text form. -/
def ordinary : Record where
  label := "CYCLECOUNT"
  workload := "bsort"
  cores := 2
  core := 0
  iteration := 1
  offset := 200
  cycles := 7
  events := [⟨⟨3⟩, ⟨0x17⟩, 4294967295⟩]

/-- A capture of both kinds of records and of other lines, and what a store has in the end. -/
theorem reads_capture_of_awkward :
    ofBytes ⟨(bytes [(.json awkward, .returnFeed), (.noise "\t pinning \x7b\x7d", .feed),
      (.log " [results \x7b] " ordinary, .returnFeed), (.noise "", .feed)]).toArray⟩ =
        .ok ⟨[awkward, ordinary], 0⟩ ∧
    ∃ w store, Buffered.serve [.emit awkward, .settle, .settle, .emit ordinary]
        (.start (default : Store)) = ([], w) ∧
      w.close = (.ok (), store) ∧
      Store.HoldsFreely store (bytes (jsonLines [awkward, ordinary])) := by
  have hplain : ordinary.IsPlain := ⟨by decide, by decide, by decide, by decide⟩
  have hproper : ∀ l ∈ [((.json awkward : Line), Ending.returnFeed),
      (.noise "\t pinning \x7b\x7d", .feed), (.log " [results \x7b] " ordinary, .returnFeed),
      (.noise "", .feed)], l.1.IsProper := by
    intro l hl
    simp only [List.mem_cons, List.not_mem_nil, or_false] at hl
    rcases hl with rfl | rfl | rfl | rfl
    · trivial
    · exact ⟨by decide, by decide, by decide⟩
    · exact ⟨by decide, by decide, hplain, by decide +kernel⟩
    · exact ⟨by decide, by decide, by decide⟩
  have hstore : Store.HoldsFreely default [] := ⟨rfl, rfl⟩
  exact ⟨(reads_capture.1 _ hproper).1, reads_capture.2 Store.neverFails hstore
    [.emit awkward, .settle, .settle, .emit ordinary]⟩

end Capture

end Lockstep
