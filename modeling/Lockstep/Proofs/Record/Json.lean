import Lockstep.Proofs.Record.Spellings

/-!
# Records read back from their JSON texts

The JSON text of a record is one of its spellings and is read as the record, whatever its texts are
and whatever it has counted (`Record.ofChars_json`).  The text has no line breaks and begins with a
brace, so that it makes a line of its own.
-/

namespace Lockstep.Record

/-- **A record is read back from its JSON text.** -/
theorem ofChars_json (r : Record) : Json.ofChars layout.reader r.json.compact = .ok r :=
  ofChars_of_tells (tells_json r) (isText_json r)

/-! ### The text of a record -/

/-- The JSON text of a record is on one line. -/
lemma isVisible_json (r : Record) : Json.Value.IsVisible r.json.compact :=
  Json.Value.isVisible_compact _ r.isExact_json

/-- The JSON text of a record stands between braces. -/
lemma exists_compact_json (r : Record) : ∃ cs, r.json.compact = '\x7b' :: cs ++ ['\x7d'] :=
  ⟨_, rfl⟩

end Lockstep.Record
