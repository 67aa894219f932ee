import Lockstep.Sink.JsonLines
import Mathlib.Tactic.Lemma
import Mathlib.Tactic.SplitIfs

/-!
# Encoded texts

A text is encoded character by character, and it is decoded to the same characters.  A byte below
`0x80` only ever stands for the character of that number, so that line breaks can be looked for in
the bytes as well as in the characters.
-/

namespace Lockstep.Text

/-- The parts of a text are encoded one after the other. -/
lemma encode_append (cs ds : List Char) : encode (cs ++ ds) = encode cs ++ encode ds :=
  List.flatMap_append

/-- The encoded pieces of a text make up the encoded text. -/
lemma flatten_map_encode (pieces : List (List Char)) :
    (pieces.map encode).flatten = encode pieces.flatten :=
  Json.flatten_map_flatMap String.utf8EncodeChar pieces

/-- **An encoded text is decoded again.** -/
theorem fromUTF8?_encode (cs : List Char) :
    String.fromUTF8? ⟨(encode cs).toArray⟩ = some (String.ofList cs) := by
  have hbytes : (⟨(encode cs).toArray⟩ : ByteArray) = cs.utf8Encode := by
    apply ByteArray.ext
    rw [List.utf8Encode, List.data_toByteArray, encode]
  have hvalid : (⟨(encode cs).toArray⟩ : ByteArray).IsValidUTF8 := by
    rw [hbytes]
    exact ByteArray.isValidUTF8_utf8Encode
  rw [String.fromUTF8?, dif_pos hvalid, Option.some_inj, ← String.toByteArray_inj,
    String.toByteArray_ofList]
  exact hbytes

/-- **Bytes are a text** if and only if they are the encoded text. -/
theorem fromUTF8?_eq_some_iff {bytes : List UInt8} {cs : List Char} :
    String.fromUTF8? ⟨bytes.toArray⟩ = some (String.ofList cs) ↔ encode cs = bytes := by
  constructor
  · intro h
    rw [String.fromUTF8?] at h
    split_ifs at h with hvalid
    have hbytes := congrArg String.toByteArray (Option.some.inj h)
    rw [String.toByteArray_ofList, List.utf8Encode] at hbytes
    have hdata : bytes = (cs.flatMap String.utf8EncodeChar).toByteArray.data.toList :=
      congrArg (·.data.toList) hbytes
    rw [hdata, List.data_toByteArray, List.toList_toArray, encode]
  · rintro rfl
    exact fromUTF8?_encode cs

/-- A byte below `0x80` stands for the character of that number. -/
lemma toNat_eq_of_mem_utf8EncodeChar {c : Char} {b : UInt8} (hb : b ∈ String.utf8EncodeChar c)
    (hlow : b.toNat < 0x80) : c.toNat = b.toNat := by
  -- the bytes of longer encodings are marked by their highest bit
  have hmarked : ∀ {n m : Nat}, b = UInt8.ofNat (n + m) → 0x80 ≤ m → n + m < 0x100 → False := by
    rintro n m rfl hm hsize
    rw [UInt8.toNat_ofNat_of_lt' hsize] at hlow
    omega
  simp only [String.utf8EncodeChar] at hb
  split_ifs at hb with hone htwo hthree
  · have hsize : c.val.toNat < UInt8.size := Nat.lt_of_le_of_lt hone (by decide)
    rw [List.mem_singleton.mp hb, UInt8.toNat_ofNat_of_lt' hsize]
    rfl
  all_goals simp only [List.mem_cons, List.not_mem_nil, or_false] at hb
  · rcases hb with hb | hb <;> exact (hmarked hb (by decide) (by omega)).elim
  · rcases hb with hb | hb | hb <;> exact (hmarked hb (by decide) (by omega)).elim
  · rcases hb with hb | hb | hb | hb <;> exact (hmarked hb (by decide) (by omega)).elim

/-- No byte of an encoded text is a line break, if no character is one. -/
lemma not_mem_encode {cs : List Char} (h : '\n' ∉ cs) : (0x0a : UInt8) ∉ encode cs := by
  intro hb
  obtain ⟨c, hc, hb⟩ := List.mem_flatMap.mp hb
  have hbreak : c = '\n' := by
    rw [← Char.toNat_inj]
    exact toNat_eq_of_mem_utf8EncodeChar hb (by decide)
  exact h (hbreak ▸ hc)

end Lockstep.Text
