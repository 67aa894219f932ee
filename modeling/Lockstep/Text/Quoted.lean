import Lockstep.Text.Blank
import Lockstep.Text.GraphemeExtend
import Lockstep.Text.Invisible

/-!
# Quoted text

Messages show the text they complain about in double quotes.  Quotes and backslashes are escaped,
the usual control characters have short escapes, and every other character that would be invisible
or would attach itself to its neighbour is written by its code point in hexadecimal.  So are the
fillers of Hangul syllables, which are blank; the sound marks of halfwidth katakana take a place of
their own and are not.  All other characters stand for themselves.
-/

namespace Lockstep.Text

/-- The ranges of fillers, which are letters without a glyph. -/
def fillers : List (Nat × Nat) :=
  [(0x115f, 0x1160), (0x3164, 0x3164), (0xffa0, 0xffa0)]

/-- The range of sound marks that stand behind their letter. -/
def soundMarks : List (Nat × Nat) :=
  [(0xff9e, 0xff9f)]

/-- A character that quoted text writes by number. -/
def needsCode (c : Char) : Bool :=
  if c.toNat < 0x7f then c.toNat < 0x20
  else
    inRanges graphemeExtend c.toNat && !inRanges soundMarks c.toNat ||
      inRanges invisible c.toNat || inRanges fillers c.toNat

/-- A number in lower-case hexadecimal without padding. -/
def hexadecimal (n : Nat) : String :=
  String.ofList (Nat.toDigits 16 n)

/-- One character as it stands between the quotes. -/
def escaped (c : Char) : List Char :=
  match c with
  | '"' => ['\\', '"']
  | '\\' => ['\\', '\\']
  | '\t' => ['\\', 't']
  | '\r' => ['\\', 'r']
  | '\n' => ['\\', 'n']
  | '\x00' => ['\\', '0']
  | c =>
    if needsCode c then ['\\', 'u', '\x7b'] ++ Nat.toDigits 16 c.toNat ++ ['\x7d'] else [c]

/-- A text in double quotes, with everything escaped that would not show as it is. -/
def quoted (s : String) : String :=
  String.ofList ('"' :: s.toList.flatMap escaped ++ ['"'])

/-- Several names in one message, separated by a comma and a blank. -/
def commaSeparated (names : List String) : String :=
  String.intercalate ", " names

example : quoted "a\"b\\c\td" = "\"a\\\"b\\\\c\\td\"" := by decide +kernel

example : quoted "e\u0301 \u200b" = "\"e\\u\x7b301\x7d \\u\x7b200b\x7d\"" := by decide +kernel

end Lockstep.Text
