import Lockstep.Json.Bytes
import Mathlib.Tactic.Lemma

/-!
# JSON texts in bytes of texts

The bytes of a text are cut into the tokens of the text.  So whatever is read from a text is read
from a file that holds the text.
-/

namespace Lockstep

namespace Text

/-- The bytes of one character are as many as its size says. -/
lemma size_utf8Encode_singleton (c : Char) : [c].utf8Encode.size = c.utf8Size := by
  rw [List.utf8Encode_singleton, List.size_toByteArray, String.length_utf8EncodeChar]

/-- Each character takes a byte at least. -/
lemma length_le_size_utf8Encode (cs : List Char) : cs.length ≤ cs.utf8Encode.size := by
  induction cs with
  | nil => exact Nat.zero_le _
  | cons c cs ih =>
    have hpos := c.utf8Size_pos
    rw [List.utf8Encode_cons, ByteArray.size_append, size_utf8Encode_singleton, List.length_cons]
    omega

/-- The characters of a text are found in its bytes, whatever stands before them. -/
lemma charsFrom_append (mark : Option Char) (before : ByteArray) (cs : List Char) {fuel : Nat}
    (hfuel : cs.length ≤ fuel) :
    charsFrom mark (before ++ cs.utf8Encode) fuel before.size = cs := by
  induction cs generalizing before fuel with
  | nil =>
    rw [List.utf8Encode_nil, ByteArray.append_empty]
    have hend : before.utf8DecodeChar? before.size = none := by
      rw [← Option.not_isSome_iff_eq_none]
      exact fun hsome => absurd (ByteArray.lt_size_of_isSome_utf8DecodeChar? hsome)
        (Nat.lt_irrefl _)
    cases fuel with
    | zero => rfl
    | succ fuel => cases mark <;> simp [charsFrom, hend]
  | cons c cs ih =>
    obtain ⟨fuel, rfl⟩ := Nat.exists_eq_add_one.mpr (Nat.lt_of_lt_of_le (Nat.succ_pos _) hfuel)
    have hchar : (before ++ (c :: cs).utf8Encode).utf8DecodeChar? before.size = some c := by
      rw [ByteArray.utf8DecodeChar?_eq_utf8DecodeChar?_extract,
        ByteArray.extract_append_eq_right rfl (ByteArray.size_append ..)]
      exact List.utf8DecodeChar?_utf8Encode_cons
    have hnext := ih (before ++ [c].utf8Encode) (Nat.le_of_succ_le_succ hfuel)
    rw [ByteArray.size_append, size_utf8Encode_singleton, ByteArray.append_assoc,
      ← List.utf8Encode_cons] at hnext
    simp only [charsFrom, hchar, hnext]

/-- **The characters of a text** are those that are found in its bytes. -/
theorem charsFrom_toUTF8 (mark : Option Char) (s : String) :
    charsFrom mark s.toUTF8 s.toUTF8.size 0 = s.toList := by
  have hbytes : s.toUTF8 = s.toList.utf8Encode := String.utf8Encode_toList.symm
  have h := charsFrom_append mark ByteArray.empty s.toList
    (length_le_size_utf8Encode s.toList)
  rwa [ByteArray.empty_append, ← hbytes] at h

end Text

namespace Json

/-- **The bytes of a text** are cut into the tokens of the text. -/
theorem tokensOfBytes_toUTF8 (s : String) : tokensOfBytes s.toUTF8 = tokens s.toList := by
  have hmarked : Text.markedChars stray s.toUTF8 = s.toList := Text.charsFrom_toUTF8 _ s
  have hleading : Text.leadingChars s.toUTF8 = s.toList := Text.charsFrom_toUTF8 _ s
  simp only [tokensOfBytes, hmarked, hleading]
  -- what comes last cannot be a string that is not closed and one that is closed
  split
  · rename_i hlast hdrop
    obtain ⟨front, htokens⟩ := List.getLast?_eq_some_iff.mp hlast
    rw [htokens, List.length_append, List.length_singleton, Nat.add_sub_cancel,
      List.drop_left] at hdrop
    cases hdrop
  · rfl

/-- What is read from a text is read from its bytes. -/
theorem ofBytes_toUTF8 {α : Type} (read : Reader α) (s : String) :
    ofBytes read s.toUTF8 = ofString read s := by
  rw [ofBytes, tokensOfBytes_toUTF8]
  rfl

end Json

end Lockstep
