/-!
# Bytes as text

A file holds bytes.  They are a text when they are valid UTF-8.  Of other bytes the longest leading
part that is a text can still be looked at, or all of them, with a mark for every byte that belongs
to no character.
-/

namespace Lockstep.Text

/-- The characters of bytes from a position on.  A byte that belongs to no character is marked, or
ends the text if there is no mark. -/
def charsFrom (mark : Option Char) (bytes : ByteArray) : Nat → Nat → List Char
  | 0, _ => []
  | fuel + 1, i =>
    match bytes.utf8DecodeChar? i, mark with
    | some c, _ => c :: charsFrom mark bytes fuel (i + c.utf8Size)
    | none, none => []
    | none, some stray => if i < bytes.size then stray :: charsFrom mark bytes fuel (i + 1) else []

/-- The characters of the longest leading part that is a text. -/
def leadingChars (bytes : ByteArray) : List Char :=
  charsFrom none bytes bytes.size 0

/-- All characters, with a mark for every byte that belongs to none. -/
def markedChars (stray : Char) (bytes : ByteArray) : List Char :=
  charsFrom (some stray) bytes bytes.size 0

end Lockstep.Text
