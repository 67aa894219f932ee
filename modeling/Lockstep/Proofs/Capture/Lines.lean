import Lockstep.Capture
import Lockstep.Proofs.Attempt
import Lockstep.Proofs.Record.Line
import Lockstep.Proofs.Text.Encode

/-!
# Captures read line by line

Each line of a capture is read by itself, so that captures can be put one behind the other between
two lines.  Only a line that is no text can keep a capture from being read; a line that is meant to
hold a record and does not is counted.  Together with the records these are all the lines that begin
with a brace or hold the marker (`Capture.IsCandidate`).

What is read of a capture follows from the texts that its lines encode
(`Capture.ofBytes_eq_ok_iff`), and the rest of the argument is about lists of texts.
-/

namespace Lockstep.Capture

/-- The line is meant to hold a record: without the blanks at its ends it begins with a brace or
holds the marker. -/
def IsCandidate (line : List Char) : Prop :=
  (Text.trim line).head? = some '\x7b' ∨ Record.marker.toList <:+: Text.trim line

instance : DecidablePred IsCandidate :=
  fun _ => inferInstanceAs (Decidable (_ ∨ _))

/-- Nothing stands behind the last line break. -/
def EndsLine (bytes : ByteArray) : Prop :=
  bytes.data.toList = [] ∨ bytes.data.toList.getLast? = some lineBreak

/-! ### Lines of texts -/

/-- Something is found on a line exactly if it is meant to hold a record. -/
lemma isSome_record?_iff (line : List Char) : (record? line).isSome = true ↔ IsCandidate line := by
  rw [record?, IsCandidate, ← Record.isMarked_iff]
  split_ifs with hbrace hmarked
  · simp [hbrace]
  · simp [hmarked]
  · simp [hbrace, hmarked]

/-- What is read of lines is what is read of the first ones and then of the others. -/
lemma ofLines_append (ls ls' : List (List Char)) :
    ofLines (ls ++ ls') = ⟨(ofLines ls).records ++ (ofLines ls').records,
      (ofLines ls).malformed + (ofLines ls').malformed⟩ := by
  simp only [ofLines, List.filterMap_append, List.countP_append]

/-- Of what is found on lines each is a record or is malformed. -/
lemma length_ofLines (ls : List (List Char)) :
    (ofLines ls).records.length + (ofLines ls).malformed = ls.countP (IsCandidate ·) := by
  have hfound : ∀ found : List (Option Record),
      (found.filterMap id).length + found.countP (·.isNone) = found.length := by
    intro found
    rw [List.length_filterMap_eq_countP, List.length_eq_countP_add_countP (p := Option.isSome)]
    congr 1
    exact List.countP_congr fun r _ => by cases r <;> simp
  rw [ofLines, hfound, List.length_filterMap_eq_countP]
  refine List.countP_congr fun line _ => ?_
  rw [isSome_record?_iff, decide_eq_true_eq]

/-! ### Lines of bytes -/

/-- The characters of a line are those that it encodes. -/
lemma characters_eq_ok_iff {line : List UInt8} {cs : List Char} :
    characters line = .ok cs ↔ Text.encode cs = line := by
  rw [← Text.fromUTF8?_eq_some_iff, characters]
  cases String.fromUTF8? ⟨line.toArray⟩ with
  | none => simp
  | some s => rw [Except.ok.injEq, Option.some.injEq, String.ext_iff, String.toList_ofList]

/-- **A capture is read** as the texts that its lines encode. -/
lemma ofBytes_eq_ok_iff {bytes : ByteArray} {c : Capture} :
    ofBytes bytes = .ok c ↔
      ∃ texts : List (List Char), texts.map Text.encode = lines bytes.data.toList ∧
        ofLines texts = c := by
  have htexts : ∀ texts : List (List Char), (lines bytes.data.toList).mapM characters = .ok texts ↔
      texts.map Text.encode = lines bytes.data.toList := by
    intro texts
    rw [mapM_eq_ok, ← List.forall₂_eq_eq_eq, List.forall₂_map_left_iff]
    constructor
    · exact fun h => h.flip.imp fun _ _ => characters_eq_ok_iff.mp
    · exact fun h => h.flip.imp fun _ _ => characters_eq_ok_iff.mpr
  simp only [ofBytes, map_eq_ok, htexts]

/-- The texts of lines are the only ones that they encode. -/
lemma eq_of_map_encode_eq {texts texts' : List (List Char)}
    (h : texts.map Text.encode = texts'.map Text.encode) : texts = texts' := by
  refine List.map_injective_iff.mpr (fun cs cs' hline => ?_) h
  have hcs := characters_eq_ok_iff.mpr hline
  exact Except.ok.inj (hcs.symm.trans (characters_eq_ok_iff.mpr rfl))

/-- Bytes can be read if each of their lines is a text. -/
lemma exists_ofBytes_eq_ok_iff {bytes : ByteArray} :
    (∃ c, ofBytes bytes = .ok c) ↔
      ∀ line ∈ lines bytes.data.toList, ∃ cs, Text.encode cs = line := by
  constructor
  · rintro ⟨c, hc⟩ line hline
    obtain ⟨texts, htexts, -⟩ := ofBytes_eq_ok_iff.mp hc
    rw [← htexts] at hline
    obtain ⟨cs, -, rfl⟩ := List.mem_map.mp hline
    exact ⟨cs, rfl⟩
  · intro h
    have hcharacters : ∀ line ∈ lines bytes.data.toList, ∃ cs, characters line = .ok cs :=
      fun line hline => (h line hline).imp fun _ => characters_eq_ok_iff.mpr
    obtain ⟨texts, htexts⟩ := exists_mapM_eq_ok hcharacters
    exact ⟨ofLines texts, map_eq_ok.mpr ⟨texts, htexts, rfl⟩⟩

/-- The lines of bytes that end a line come before those of what follows. -/
lemma lines_append {a b : ByteArray} (ha : EndsLine a) :
    lines (a ++ b).data.toList = lines a.data.toList ++ lines b.data.toList := by
  rw [ByteArray.data_append, Array.toList_append]
  rcases ha with hnil | hlast
  · rw [hnil, List.nil_append, lines, lines, Text.linesBy_nil, List.nil_append]
  · obtain ⟨first, hfirst⟩ := List.getLast?_eq_some_iff.mp hlast
    rw [hfirst, List.append_assoc, List.singleton_append, lines, lines, lines]
    refine Text.linesBy_append ?_ first b.data.toList
    exact beq_self_eq_true lineBreak

/-- What is read of two captures is what is read of each of them. -/
lemma ofBytes_append_eq_ok_iff {a b : ByteArray} (ha : EndsLine a) (c : Capture) :
    ofBytes (a ++ b) = .ok c ↔ ∃ x y, ofBytes a = .ok x ∧ ofBytes b = .ok y ∧
      c = ⟨x.records ++ y.records, x.malformed + y.malformed⟩ := by
  simp only [ofBytes_eq_ok_iff, lines_append ha, List.map_eq_append_iff]
  constructor
  · rintro ⟨_, ⟨texts, texts', rfl, htexts, htexts'⟩, rfl⟩
    exact ⟨_, _, ⟨texts, htexts, rfl⟩, ⟨texts', htexts', rfl⟩, ofLines_append texts texts'⟩
  · rintro ⟨_, _, ⟨texts, htexts, rfl⟩, ⟨texts', htexts', rfl⟩, rfl⟩
    exact ⟨_, ⟨texts, texts', rfl, htexts, htexts'⟩, ofLines_append texts texts'⟩

/-- **Captures are read line by line.**  Bytes that end a line and any others behind them can be
read if and only if both can be read by themselves, and then they are read as what is read of the
one and then of the other.  Any bytes are cut into lines at the line breaks.  They can be read if
and only if each line is a text, and whatever the lines hold otherwise, each line that is meant to
hold a record is read as one or counted as malformed. -/
theorem reads_line_by_line :
    (∀ a b : ByteArray, EndsLine a → ∀ c, ofBytes (a ++ b) = .ok c ↔
      ∃ x y, ofBytes a = .ok x ∧ ofBytes b = .ok y ∧
        c = ⟨x.records ++ y.records, x.malformed + y.malformed⟩) ∧
    ∀ bytes : ByteArray, ∃ ls, Text.IsCut (· == lineBreak) bytes.data.toList ls ∧
      ((∃ c, ofBytes bytes = .ok c) ↔ ∀ line ∈ ls, ∃ cs, Text.encode cs = line) ∧
      ∀ c, ∀ texts : List (List Char), ofBytes bytes = .ok c → texts.map Text.encode = ls →
        c.records.length + c.malformed = texts.countP (IsCandidate ·) := by
  refine ⟨fun a b ha c => ofBytes_append_eq_ok_iff ha c, fun bytes => ?_⟩
  refine ⟨lines bytes.data.toList, Text.linesBy_eq_iff.mp rfl, exists_ofBytes_eq_ok_iff, ?_⟩
  intro c texts hc htexts
  obtain ⟨texts', htexts', rfl⟩ := ofBytes_eq_ok_iff.mp hc
  obtain rfl := eq_of_map_encode_eq (htexts.trans htexts'.symm)
  exact length_ofLines texts

/-- A line that holds no record and an empty one, both ended. -/
def hollow : ByteArray :=
  "CYCLECOUNT lots\r\n\n".toUTF8

/-- A line that holds a record, one that looks like JSON and one of neither kind, which is not
ended. -/
def unendedLines : List String :=
  ["1 CYCLECOUNT label: l benchmark: b cores: 2 core: 1 cycle_count: 7 iteration: 3 offset: 0\r",
    "\u2003\x7b", "é"]

/-- The bytes of these lines. -/
def unended : ByteArray :=
  ("\n".intercalate unendedLines).toUTF8

/-- The only record of these lines. -/
def unendedRecord : Record where
  label := "l"
  workload := "b"
  cores := 2
  core := 1
  iteration := 3
  offset := 0
  cycles := 7
  events := []

/-- One capture behind the other, and a record and a malformed line among three lines. -/
theorem reads_line_by_line_of_unended :
    EndsLine hollow ∧ ofBytes (hollow ++ unended) = .ok ⟨[unendedRecord], 2⟩ ∧
    ofBytes unended = .ok ⟨[unendedRecord], 1⟩ ∧
    (unendedLines.map String.toList).countP (IsCandidate ·) = 2 := by
  have hends : EndsLine hollow := .inr (by decide +kernel)
  have hhollow : ofBytes hollow = .ok ⟨[], 1⟩ := by decide +kernel
  have hunended : ofBytes unended = .ok ⟨[unendedRecord], 1⟩ := by decide +kernel
  have htexts : (unendedLines.map String.toList).map Text.encode = lines unended.data.toList := by
    decide +kernel
  obtain ⟨ls, hls, -, hcount⟩ := reads_line_by_line.2 unended
  obtain rfl := Text.linesBy_eq_iff.mpr hls
  exact ⟨hends, (reads_line_by_line.1 hollow unended hends _).mpr ⟨_, _, hhollow, hunended, rfl⟩,
    hunended, (hcount _ _ hunended htexts).symm⟩

end Lockstep.Capture
