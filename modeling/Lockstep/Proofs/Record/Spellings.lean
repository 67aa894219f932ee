import Lockstep.Proofs.Json.Parts
import Lockstep.Proofs.Json.Spelled
import Lockstep.Record.Json

/-!
# The spellings of a record

A record can be spelled in JSON in many ways.  It is an object with its members in any order, beside
members of other names that hold anything, or an array, and so is each of its readings; what there
is no reading of need not be mentioned.  Texts are spelled with escapes or without, with gaps or
without.  All this is said by the parts of a record (`Record.parts`), and all spellings are read as
the record (`Record.reads_spellings`).

An object in which a declared name occurs twice, or one does not occur that has to, is no spelling
of a record, and it is refused.  So it is if this happens within a reading.
-/

namespace Lockstep

open Json (Part Accepts Takes IsNamed)

/-! ### Readings -/

namespace Event.Reading

/-- The parts of a reading. -/
def parts (x : Event.Reading) : List Part :=
  [.natural "slot" x.slot.index.toNat, .natural "code" x.code.number.toNat,
    .natural "count" x.count.toNat]

/-- A reading of which these parts have been told. -/
def draft (x : Event.Reading) (seen : List String) : Event.Reading where
  slot := if "slot" ∈ seen then x.slot else ⟨0⟩
  code := if "code" ∈ seen then x.code else ⟨0⟩
  count := if "count" ∈ seen then x.count else 0

/-- A reading is read from its parts. -/
lemma describes (x : Event.Reading) : layout.Describes x x.parts x.draft where
  free := rfl
  blank := rfl
  whole seen h := by
    simp only [parts, Part.natural, List.forall_mem_cons, or_false] at h
    simp [draft, h]
  members := by
    refine .cons ?slot (.cons ?code (.cons ?count .nil))
    case slot =>
      exact Json.Member.reads_needed
        (fun t ht => (Json.reads_uint8 x.slot.index).takes_natural ht)
        (fun seen => by simp [draft, Part.natural]) id
    case code =>
      exact Json.Member.reads_needed
        (fun t ht => (Json.reads_uint32 x.code.number).takes_natural ht)
        (fun seen => by simp [draft, Part.natural]) id
    case count =>
      exact Json.Member.reads_needed (fun t ht => (Json.reads_uint32 x.count).takes_natural ht)
        (fun seen => by simp [draft, Part.natural]) id
  nodup := by simp [parts, Part.natural]

/-- The names of the members of a reading, all of which have to be there. -/
def names : List String :=
  ["slot", "code", "count"]

/-- Whether a tree is read as a reading depends on its members. -/
lemma accepts_reader : Accepts layout.reader layout.IsMadeOf := by
  have huint8 := (Json.accepts_natural "u8" UInt8.size).map UInt8.ofNat
  have huint32 := (Json.accepts_natural "u32" UInt32.size).map UInt32.ofNat
  refine Json.Layout.accepts_reader fun m hm => ?_
  simp only [layout, List.mem_cons, List.not_mem_nil, or_false] at hm
  rcases hm with rfl | rfl | rfl
  · exact huint8.needed _ _
  · exact huint32.needed _ _
  · exact huint32.needed _ _

/-- A flawed reading is not taken. -/
lemma not_isFlawed {t : Json.Tree} {x : Event.Reading} (h : layout.IsMadeOf t x) :
    ¬ t.IsFlawed names names := by
  refine Json.Layout.not_isFlawed ?_ ?_ h
  · decide
  · decide

end Event.Reading

namespace Record

/-! ### Records -/

/-- The part of a record that its readings are. -/
def readingsPart (events : List Event.Reading) : Part where
  name := "events"
  IsToldBy t := t.HasElements (fun u x => u.Tells x.parts) events
  MayLack := events = []

/-- The parts of a record. -/
def parts (r : Record) : List Part :=
  [.text "label" r.label, .text "workload" r.workload, .natural "cores" r.cores.toNat,
    .natural "core" r.core.toNat, .natural "iteration" r.iteration.toNat,
    .natural "offset" r.offset.toNat, .natural "cycles" r.cycles.toNat, readingsPart r.events]

/-- A record of which these parts have been told. -/
def draft (r : Record) (seen : List String) : Record where
  label := if "label" ∈ seen then r.label else ""
  workload := if "workload" ∈ seen then r.workload else ""
  cores := if "cores" ∈ seen then r.cores else 0
  core := if "core" ∈ seen then r.core else 0
  iteration := if "iteration" ∈ seen then r.iteration else 0
  offset := if "offset" ∈ seen then r.offset else 0
  cycles := if "cycles" ∈ seen then r.cycles else 0
  events := if "events" ∈ seen then r.events else []

/-- The readings of a record are read from arrays of what tells them. -/
lemma takes_events {events : List Event.Reading} {t : Json.Tree}
    (h : (readingsPart events).IsToldBy t) :
    Takes (Json.Reader.array Event.Reading.layout.reader) t events := by
  rw [(Json.accepts_array Event.Reading.accepts_reader).takes_iff]
  cases t with
  | array ts => exact List.Forall₂.imp (fun _ x hx => x.describes.isMadeOf hx) h
  | _ => exact absurd h id

/-- A record is read from its parts. -/
lemma describes (r : Record) : layout.Describes r r.parts r.draft where
  free := rfl
  blank := rfl
  whole seen h := by
    simp only [parts, Part.natural, Part.text, readingsPart, List.forall_mem_cons, or_false] at h
    obtain ⟨hlabel, hworkload, hcores, hcore, hiteration, hoffset, hcycles, hevents, -⟩ := h
    have hreadings : (if "events" ∈ seen then r.events else []) = r.events := by
      rcases hevents with hmem | hnone
      · rw [if_pos hmem]
      · rw [hnone, ite_self]
    simp only [draft, hlabel, hworkload, hcores, hcore, hiteration, hoffset, hcycles, hreadings,
      if_true]
  members := by
    refine .cons ?label (.cons ?workload (.cons ?cores (.cons ?core (.cons ?iteration
      (.cons ?offset (.cons ?cycles (.cons ?events .nil)))))))
    case label =>
      exact Json.Member.reads_needed (fun t ht => Json.takes_text ht)
        (fun seen => by simp [draft, Part.text]) id
    case workload =>
      exact Json.Member.reads_needed (fun t ht => Json.takes_text ht)
        (fun seen => by simp [draft, Part.text]) id
    case cores =>
      exact Json.Member.reads_needed (fun t ht => (Json.reads_count r.cores).takes_natural ht)
        (fun seen => by simp [draft, Part.natural]) id
    case core =>
      exact Json.Member.reads_needed (fun t ht => (Json.reads_count r.core).takes_natural ht)
        (fun seen => by simp [draft, Part.natural]) id
    case iteration =>
      exact Json.Member.reads_needed
        (fun t ht => (Json.reads_uint64 r.iteration).takes_natural ht)
        (fun seen => by simp [draft, Part.natural]) id
    case offset =>
      exact Json.Member.reads_needed (fun t ht => (Json.reads_uint64 r.offset).takes_natural ht)
        (fun seen => by simp [draft, Part.natural]) id
    case cycles =>
      exact Json.Member.reads_needed (fun t ht => (Json.reads_uint64 r.cycles).takes_natural ht)
        (fun seen => by simp [draft, Part.natural]) id
    case events =>
      exact Json.Member.reads_defaulted (fun t ht => takes_events ht)
        (fun seen => by simp [draft, readingsPart])
  nodup := by simp [parts, Part.natural, Part.text, readingsPart]

/-- Whether a tree is read as a record depends on its members. -/
lemma accepts_reader : Accepts layout.reader layout.IsMadeOf := by
  have hcount := (Json.accepts_natural "usize" UInt64.size).map UInt64.ofNat
  have huint64 := (Json.accepts_natural "u64" UInt64.size).map UInt64.ofNat
  have hevents := Json.accepts_array Event.Reading.accepts_reader
  refine Json.Layout.accepts_reader fun m hm => ?_
  simp only [layout, List.mem_cons, List.not_mem_nil, or_false] at hm
  rcases hm with rfl | rfl | rfl | rfl | rfl | rfl | rfl | rfl
  · exact Json.accepts_string.needed _ _
  · exact Json.accepts_string.needed _ _
  · exact hcount.needed _ _
  · exact hcount.needed _ _
  · exact huint64.needed _ _
  · exact huint64.needed _ _
  · exact huint64.needed _ _
  · exact hevents.defaulted _ _

/-- **A text that tells a record** is read as the record. -/
theorem ofChars_of_tells {r : Record} {t : Json.Tree} {cs : List Char} (h : t.Tells r.parts)
    (hcs : t.IsText cs) : Json.ofChars layout.reader cs = .ok r :=
  (accepts_reader.ofChars hcs).mpr (r.describes.isMadeOf h)

/-! ### What is written of a record -/

/-- A reading is written without doubles. -/
lemma isExact_reading (x : Event.Reading) : x.json.IsExact :=
  ⟨trivial, trivial, trivial, trivial⟩

/-- A record is written without doubles. -/
lemma isExact_json (r : Record) : r.json.IsExact := by
  have hevents : Json.Value.AllExact (r.events.map (·.json)) := by
    refine Json.Value.allExact_iff.mpr fun v hv => ?_
    obtain ⟨x, -, rfl⟩ := List.mem_map.mp hv
    exact isExact_reading x
  exact ⟨trivial, trivial, trivial, trivial, trivial, trivial, trivial, hevents, trivial⟩

/-- A reading is told by what is written of it. -/
lemma tells_reading (x : Event.Reading) : x.json.tree.Tells x.parts := by
  refine Json.tellByName_written ?_ x.describes.nodup
  refine .cons ⟨rfl, Json.Value.tree_natural _⟩ ?_
  refine .cons ⟨rfl, Json.Value.tree_natural _⟩ ?_
  exact .cons ⟨rfl, Json.Value.tree_natural _⟩ .nil

/-- Readings are told by what is written of them. -/
lemma tells_readings (events : List Event.Reading) :
    (readingsPart events).IsToldBy (Json.Value.array (events.map (·.json))).tree := by
  rw [Json.Value.tree, Json.Value.elementTrees_eq_map]
  change List.Forall₂ _ _ _
  rw [List.map_map, List.forall₂_map_left_iff]
  exact List.forall₂_same.mpr fun x _ => tells_reading x

/-- A record is told by what is written of it. -/
lemma tells_json (r : Record) : r.json.tree.Tells r.parts := by
  refine Json.tellByName_written ?_ r.describes.nodup
  have htext : ∀ s : String, (Json.Value.string s).tree.IsString s := fun s =>
    Json.characters_eq_ok_iff.mp (Json.characters_map_ofChar s.toList)
  refine .cons ⟨rfl, htext _⟩ (.cons ⟨rfl, htext _⟩ ?_)
  refine .cons ⟨rfl, Json.Value.tree_natural _⟩ (.cons ⟨rfl, Json.Value.tree_natural _⟩ ?_)
  refine .cons ⟨rfl, Json.Value.tree_natural _⟩ (.cons ⟨rfl, Json.Value.tree_natural _⟩ ?_)
  exact .cons ⟨rfl, Json.Value.tree_natural _⟩ (.cons ⟨rfl, tells_readings _⟩ .nil)

/-- What is written of a record is a text of its tree. -/
lemma isText_json (r : Record) : r.json.tree.IsText r.json.compact :=
  Json.Tree.isText_of_value (Json.Value.spells_compact r.json).isText r.isExact_json

/-! ### Refused records -/

/-- The names of the members that a record has to have. -/
def needed : List String :=
  ["label", "workload", "cores", "core", "iteration", "offset", "cycles"]

/-- These trees stand where the readings of a record are told. -/
def HasReadings (ts : List Json.Tree) : Json.Tree → Prop
  | .object ms => ∃ m ∈ ms, IsNamed "events" m ∧ m.2 = .array ts
  | .array us => us[7]? = some (.array ts)
  | _ => False

/-- The tree is an object for a record in which a declared name occurs twice or one that is needed
does not occur, or it has such an object for a reading. -/
def IsFlawed (t : Json.Tree) : Prop :=
  t.IsFlawed (needed ++ ["events"]) needed ∨
    ∃ ts, HasReadings ts t ∧ ∃ u ∈ ts, u.IsFlawed Event.Reading.names Event.Reading.names

/-- The readings of what is made of the members of a record are made of theirs. -/
lemma exists_isMadeOf {t : Json.Tree} {r : Record} (h : layout.IsMadeOf t r)
    {ts : List Json.Tree} (hts : HasReadings ts t) :
    ∀ u ∈ ts, ∃ x, Event.Reading.layout.IsMadeOf u x := by
  have hread : ∃ update, Takes ((Json.Reader.array Event.Reading.layout.reader).map
      fun events (r : Record) => { r with events := events }) (.array ts) update := by
    cases t with
    | object ms =>
      obtain ⟨seen, hgathers, -⟩ := h
      obtain ⟨m, hm, hname, heq⟩ := hts
      rw [← heq]
      exact hgathers.takes rfl hm hname
    | array us => exact Json.Layout.Lists.takes h (i := 7) rfl hts
    | _ => exact absurd hts id
  obtain ⟨update, htakes⟩ := hread
  have harray := Json.accepts_array Event.Reading.accepts_reader
  obtain ⟨events, hevents, -⟩ := (harray.map _).takes_iff.mp htakes
  intro u hu
  obtain ⟨x, -, hx⟩ := Json.exists_mem_of_forall₂ hevents hu
  exact ⟨x, hx⟩

/-- A flawed record is not taken. -/
lemma not_isFlawed {t : Json.Tree} {r : Record} (h : layout.IsMadeOf t r) : ¬ IsFlawed t := by
  rintro (hflawed | ⟨ts, hts, u, hu, hflawed⟩)
  · refine Json.Layout.not_isFlawed ?_ ?_ h hflawed
    · decide
    · decide
  · obtain ⟨x, hx⟩ := exists_isMadeOf h hts u hu
    exact Event.Reading.not_isFlawed hx hflawed

/-- **All spellings of a record are read as the record**, as objects and as arrays, with members in
any order and others beside them, with gaps and escapes.  A text in which a declared name occurs
twice in an object, or one does not occur that has to, is refused, in the object for the record and
in those for its readings. -/
theorem reads_spellings :
    (∀ (r : Record) (t : Json.Tree) (s : String), t.Tells r.parts → t.IsText s.toList →
      ofJson s = .ok r) ∧
    ∀ (t : Json.Tree) (s : String), IsFlawed t → t.IsText s.toList → ∃ e, ofJson s = .error e := by
  constructor
  · exact fun r t s htells htext => ofChars_of_tells htells htext
  · intro t s hflawed htext
    cases hread : ofJson s with
    | error e => exact ⟨e, rfl⟩
    | ok r => exact absurd hflawed (not_isFlawed ((accepts_reader.ofChars htext).mp hread))

/-- A record of a core that counted two events. -/
def counted : Record :=
  ⟨"ab", "c", 2, 0, 1, 0, 7, [⟨⟨1⟩, ⟨0x17⟩, 5⟩, ⟨⟨2⟩, ⟨0x10⟩, 6⟩]⟩

/-- A string without escapes. -/
def plain (s : String) : List Json.Piece :=
  s.toList.map .char

/-- A number in these digits. -/
def digits (s : String) : Json.Tree :=
  .number ⟨false, s.toList, [], none⟩

/-- The second reading as an object, with a member that is none of its own. -/
def oddReading : Json.Tree :=
  .object [(plain "count", digits "6"), (plain "slot", digits "2"), (plain "y", .object []),
    (plain "code", digits "16")]

/-- The record with its members in another order and a member that is none of its own, within which
a declared name occurs. -/
def oddTree : Json.Tree :=
  .object [(plain "cycles", digits "7"),
    (plain "x", .array
      [.object [(plain "cycles", .number ⟨true, ['0'], ['5'], some (false, ['3'])⟩)], .null]),
    (plain "events", .array [.array [digits "1", digits "23", digits "5"], oddReading]),
    (plain "label", .string [.unit 0x61, .char 'b']),
    (.unit 0x77 :: plain "orkload", .string (plain "c")), (plain "offset", digits "0"),
    (plain "iteration", digits "1"), (plain "core", digits "0"), (plain "cores", digits "2")]

/-- A text of the record, with gaps and escapes. -/
def oddText : String :=
  "\x7b \"cycles\":7,\"x\" :[\x7b\"cycles\":-0.5E+3\x7d, null],\n \"events\":[[1,23,5]," ++
    "\x7b\"count\":6,\"slot\":2,\"y\":\x7b\x7d,\"code\":16\x7d],\"label\":\"\\u0061b\"," ++
    "\"\\u0077orkload\":\"c\",\"offset\":0,\"iteration\":1,\"core\":0,\"cores\":2\x7d\n"

/-- The second reading is told. -/
lemma tells_oddReading : oddReading.Tells (Event.Reading.parts ⟨⟨2⟩, ⟨0x10⟩, 6⟩) where
  named := by
    simp only [List.forall_mem_cons]
    exact ⟨⟨"count", by decide⟩, ⟨"slot", by decide⟩, ⟨"y", by decide⟩, ⟨"code", by decide⟩, nofun⟩
  once := by decide
  told := by
    simp only [Event.Reading.parts, List.forall_mem_cons]
    exact ⟨.inl ⟨_, List.mem_of_getElem? (i := 1) rfl, by decide, rfl⟩,
      .inl ⟨_, List.mem_of_getElem? (i := 3) rfl, by decide, rfl⟩,
      .inl ⟨_, List.mem_of_getElem? (i := 0) rfl, by decide, rfl⟩, nofun⟩

/-- The record is told. -/
lemma tells_oddTree : oddTree.Tells counted.parts where
  named := by
    simp only [List.forall_mem_cons]
    exact ⟨⟨"cycles", by decide⟩, ⟨"x", by decide⟩, ⟨"events", by decide⟩, ⟨"label", by decide⟩,
      ⟨"workload", by decide⟩, ⟨"offset", by decide⟩, ⟨"iteration", by decide⟩,
      ⟨"core", by decide⟩, ⟨"cores", by decide⟩, nofun⟩
  once := by decide +kernel
  told := by
    simp only [parts, List.forall_mem_cons]
    exact ⟨.inl ⟨_, List.mem_of_getElem? (i := 3) rfl, by decide, Json.characters_eq_ok_iff.mp rfl⟩,
      .inl ⟨_, List.mem_of_getElem? (i := 4) rfl, by decide, Json.characters_eq_ok_iff.mp rfl⟩,
      .inl ⟨_, List.mem_of_getElem? (i := 8) rfl, by decide, rfl⟩,
      .inl ⟨_, List.mem_of_getElem? (i := 7) rfl, by decide, rfl⟩,
      .inl ⟨_, List.mem_of_getElem? (i := 6) rfl, by decide, rfl⟩,
      .inl ⟨_, List.mem_of_getElem? (i := 5) rfl, by decide, rfl⟩,
      .inl ⟨_, List.mem_of_getElem? (i := 0) rfl, by decide, rfl⟩,
      .inl ⟨_, List.mem_of_getElem? (i := 2) rfl, by decide,
        .cons (.item rfl (.item rfl (.item rfl .done))) (.cons tells_oddReading .nil)⟩, nofun⟩

/-- An object in which the label occurs twice, and other members do not occur. -/
def doubledTree : Json.Tree :=
  .object [(plain "label", .string (plain "a")), (plain "label", .string (plain "b"))]

/-- An array for a record with a reading that has a slot only. -/
def tornTree : Json.Tree :=
  .array [.string (plain "a"), .string (plain "b"), digits "1", digits "0", digits "1", digits "0",
    digits "5", .array [.object [(plain "slot", digits "1")]]]

/-- A record is read from a text with odd spellings; a label that occurs twice is refused, and so is
a reading without its code. -/
theorem reads_spellings_of_oddText :
    ofJson oddText = .ok counted ∧
      (∃ e, ofJson "\x7b\"label\":\"a\",\"label\":\"b\"\x7d" = .error e) ∧
      ∃ e, ofJson "[\"a\",\"b\",1,0,1,0,5,[\x7b\"slot\":1\x7d]]" = .error e := by
  have hdoubled : IsFlawed doubledTree := .inl (.inl ⟨"label", by decide, by decide⟩)
  have htorn : IsFlawed tornTree :=
    .inr ⟨_, rfl, _, List.mem_singleton_self _, .inr ⟨"code", by decide, by decide⟩⟩
  obtain ⟨hread, hrefused⟩ := reads_spellings
  exact ⟨hread counted oddTree oddText tells_oddTree (by decide +kernel),
    hrefused doubledTree _ hdoubled (by decide +kernel),
    hrefused tornTree _ htorn (by decide +kernel)⟩

end Record

end Lockstep
