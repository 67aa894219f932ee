import Lockstep.Pattern.Basic
import Lockstep.Text.Numeral

/-!
# Escapes in written patterns

A backslash gives a meaning to the character behind it, or takes its meaning away.  Which escapes
there are depends on flags: sets of digits, blanks and parts of words are known for ASCII only, so
they can be named where a pattern is about ASCII, and so can conditions on words.
-/

namespace Lockstep.Pattern

/-- How a written pattern is to be understood. -/
structure Flags where
  /-- Letters stand for both of their cases. -/
  anyCase : Bool := false
  /-- The anchors stand for the ends of lines. -/
  lines : Bool := false
  /-- A point stands for the ends of lines as well. -/
  pointAll : Bool := false
  /-- A carriage return ends a line as well. -/
  returns : Bool := false
  /-- Sets and words are about ASCII. -/
  ascii : Bool := false
  /-- Blanks and comments mean nothing. -/
  verbose : Bool := false
  deriving DecidableEq, Repr

namespace Flags

/-- A blank that means nothing. -/
def ignores (f : Flags) (c : Char) : Bool :=
  f.verbose && Text.isBlank c

/-- Leaves out blanks and comments if they mean nothing.  A comment goes from a hash to the end of
its line. -/
def skipFrom (f : Flags) : Bool → List Char → List Char
  | _, [] => []
  | true, c :: cs => f.skipFrom (c ≠ '\n') cs
  | false, c :: cs =>
    if f.ignores c then f.skipFrom false cs
    else if f.verbose && c = '#' then f.skipFrom true cs
    else c :: cs

/-- Leaves out what means nothing, from a place outside of comments. -/
def skip (f : Flags) (cs : List Char) : List Char :=
  f.skipFrom false cs

end Flags

/-- What a character or an escape stands for. -/
inductive Atom where
  | char (c : Char)
  | set (s : CharSet)
  | look (l : Look)
  /-- A condition on words of all scripts, of which nothing is known. -/
  | unknown
  deriving DecidableEq, Repr

namespace Atom

/-! ### Characters by number -/

/-- The character of a number. -/
def ofNumber? (n : Nat) : Option Char :=
  if n.isValidChar then some (Char.ofNat n) else none

/-- The value of so many hexadecimal digits, behind the value of the digits before them. -/
def digits (f : Flags) (value : Nat) : Nat → List Char → Option (Nat × List Char)
  | 0, cs => some (value, cs)
  | _ + 1, [] => none
  | n + 1, c :: cs =>
    if f.ignores c then digits f value (n + 1) cs
    else (Text.Numeral.digit? 16 c).bind fun d => digits f (value * 16 + d) n cs

/-- A character by digits in braces, from behind the opening brace on. -/
def braced? (f : Flags) (cs : List Char) : Option (Char × List Char) :=
  let inner := (cs.takeWhile (· ≠ '\x7d')).filter fun c => !f.ignores c
  match cs.dropWhile (· ≠ '\x7d') with
  | [] => none
  | _ :: rest =>
    if inner.isEmpty then none
    else
      (Text.Numeral.magnitude 16 UInt32.size .tooLarge 0 inner).toOption.bind fun n =>
        (ofNumber? n).map fun c => (c, rest)

/-- A character by its number, in braces or in so many digits.  Two digits stand for a byte, which
has to be a character by itself where the pattern is about ASCII. -/
def numbered? (f : Flags) (count : Nat) (cs : List Char) : Option (Atom × List Char) :=
  match f.skip cs with
  | '\x7b' :: rest => (braced? f rest).map fun r => (char r.1, r.2)
  | cs =>
    (digits f 0 count cs).bind fun r =>
      if f.ascii ∧ count = 2 ∧ 0x80 ≤ r.1 then none else (ofNumber? r.1).map fun c => (char c, r.2)

/-! ### Words -/

/-- A condition on words. -/
def word (f : Flags) (l : Look) : Atom :=
  if f.ascii then look l else unknown

/-- The conditions on words that have names. -/
def wordLooks : List (String × Look) :=
  [("start", .wordStart), ("end", .wordEnd), ("start-half", .startHalf), ("end-half", .endHalf)]

/-- A part of the name of a condition. -/
def isNamePart (f : Flags) (c : Char) : Bool :=
  c.isAlpha || c = '-' || f.ignores c

/-- A condition on words, which may have a name in braces.  Braces around anything else do not
belong to it. -/
def boundary? (f : Flags) (cs : List Char) : Option (Atom × List Char) :=
  match cs with
  | '\x7b' :: rest =>
    match f.skip rest with
    | [] => none
    | c :: rest =>
      if isNamePart f c then
        match (c :: rest).dropWhile (isNamePart f) with
        | '\x7d' :: behind =>
          let name := ((c :: rest).takeWhile (isNamePart f)).filter fun c => !f.ignores c
          (wordLooks.lookup (String.ofList name)).map fun l => (word f l, behind)
        | _ => none
      else some (word f .boundary, cs)
  | _ => some (word f .boundary, cs)

/-! ### Escapes -/

/-- The control characters that have escapes. -/
def controls : List (Char × Char) :=
  [('a', '\x07'), ('f', '\x0c'), ('n', '\n'), ('r', '\r'), ('t', '\t'), ('v', '\x0b')]

/-- The sets that have escapes. -/
def sets : List (Char × String) :=
  [('d', "digit"), ('s', "space"), ('w', "word")]

/-- The conditions that have escapes. -/
def looks (f : Flags) : List (Char × Atom) :=
  [('A', look .textStart), ('z', look .textEnd), ('B', word f .noBoundary),
    ('<', word f .wordStart), ('>', word f .wordEnd)]

/-- The digits of a character's number, by the letter of the escape. -/
def lengths : List (Char × Nat) :=
  [('x', 2), ('u', 4), ('U', 8)]

/-- What an escape stands for, from behind the backslash on. -/
def ofEscape? (f : Flags) : List Char → Option (Atom × List Char)
  | [] => none
  | 'b' :: cs => boundary? f cs
  | c :: cs =>
    match lengths.lookup c, controls.lookup c, sets.lookup c, (looks f).lookup c with
    | some count, _, _, _ => numbered? f count cs
    | _, some control, _, _ => some (char control, cs)
    | _, _, some name, _ =>
      if f.ascii then (CharSet.ofName? name).map fun s => (set s, cs) else none
    | _, _, _, some atom => some (atom, cs)
    | none, none, none, none =>
      if c.toNat < 0x80 ∧ !c.isAlphanum then some (char c, cs) else none

/-- What a text begins with. -/
def next? (f : Flags) : List Char → Option (Atom × List Char)
  | [] => none
  | '\\' :: cs => ofEscape? f cs
  | c :: cs => some (char c, cs)

end Atom

end Lockstep.Pattern
