import Lockstep.Text.Blank

/-!
# Sets of characters

A set of characters is kept as ranges of code points, in ascending order and with gaps between them.
-/

namespace Lockstep

/-- A set of characters: the first and the last code point of each of its ranges. -/
structure CharSet where
  ranges : List (Nat × Nat)
  deriving DecidableEq, Repr, Inhabited

namespace CharSet

/-- The greatest code point. -/
def lastCode : Nat := 0x10ffff

/-- A character belongs to a set. -/
def contains (s : CharSet) (c : Char) : Bool :=
  Text.inRanges s.ranges c.toNat

/-- The set without characters. -/
def empty : CharSet := ⟨[]⟩

/-- All characters. -/
def full : CharSet := ⟨[(0, lastCode)]⟩

/-- All characters of ASCII. -/
def ascii : CharSet := ⟨[(0, 0x7f)]⟩

/-- Adds a range, which takes in the ranges that it meets. -/
def insert (r : Nat × Nat) : List (Nat × Nat) → List (Nat × Nat)
  | [] => [r]
  | t :: ts =>
    if r.2 + 1 < t.1 then r :: t :: ts
    else if t.2 + 1 < r.1 then t :: insert r ts
    else insert (min r.1 t.1, max r.2 t.2) ts

/-- The set of the characters in some ranges. -/
def ofRanges (ranges : List (Nat × Nat)) : CharSet :=
  ⟨ranges.foldr insert []⟩

/-- The set of one character. -/
def single (c : Char) : CharSet :=
  ⟨[(c.toNat, c.toNat)]⟩

/-- The set of some characters. -/
def ofChars (cs : List Char) : CharSet :=
  ofRanges (cs.map fun c => (c.toNat, c.toNat))

/-- The characters of either set. -/
def union (s t : CharSet) : CharSet :=
  ofRanges (s.ranges ++ t.ranges)

/-- The ranges between ranges, from a code point on. -/
def gaps : Nat → List (Nat × Nat) → List (Nat × Nat)
  | first, [] => if first ≤ lastCode then [(first, lastCode)] else []
  | first, r :: rs =>
    if first < r.1 then (first, r.1 - 1) :: gaps (r.2 + 1) rs else gaps (r.2 + 1) rs

/-- The characters that do not belong to a set. -/
def complement (s : CharSet) : CharSet :=
  ⟨gaps 0 s.ranges⟩

/-- The characters of both sets. -/
def inter (s t : CharSet) : CharSet :=
  (s.complement.union t.complement).complement

/-- The characters of the first set only. -/
def diff (s t : CharSet) : CharSet :=
  s.inter t.complement

/-- The characters of exactly one set. -/
def symmDiff (s t : CharSet) : CharSet :=
  (s.diff t).union (t.diff s)

/-- All characters of the set belong to ASCII. -/
def isAscii (s : CharSet) : Bool :=
  s.ranges.all fun r => r.2 < 0x80

/-- A set of ASCII characters together with the other case of all its letters. -/
def withBothCases (s : CharSet) : CharSet :=
  let moved (t : CharSet) (shift : Nat → Nat) : List (Nat × Nat) :=
    (s.inter t).ranges.map fun r => (shift r.1, shift r.2)
  ofRanges (s.ranges ++ moved ⟨[(0x41, 0x5a)]⟩ (· + 0x20) ++ moved ⟨[(0x61, 0x7a)]⟩ (· - 0x20))

/-- The sets of ASCII characters that have names. -/
def named : List (String × CharSet) :=
  let lower := (0x61, 0x7a)
  let upper := (0x41, 0x5a)
  let digit := (0x30, 0x39)
  [("alnum", ⟨[digit, upper, lower]⟩), ("alpha", ⟨[upper, lower]⟩), ("ascii", ascii),
    ("blank", ofChars ['\t', ' ']), ("cntrl", ⟨[(0, 0x1f), (0x7f, 0x7f)]⟩), ("digit", ⟨[digit]⟩),
    ("graph", ⟨[(0x21, 0x7e)]⟩), ("lower", ⟨[lower]⟩), ("print", ⟨[(0x20, 0x7e)]⟩),
    ("punct", ⟨[(0x21, 0x2f), (0x3a, 0x40), (0x5b, 0x60), (0x7b, 0x7e)]⟩),
    ("space", ⟨[(0x09, 0x0d), (0x20, 0x20)]⟩), ("upper", ⟨[upper]⟩),
    ("word", ⟨[digit, upper, (0x5f, 0x5f), lower]⟩),
    ("xdigit", ⟨[digit, (0x41, 0x46), (0x61, 0x66)]⟩)]

/-- The set of ASCII characters that has a name. -/
def ofName? (name : String) : Option CharSet :=
  named.lookup name

/-- The ASCII characters that words are made of. -/
def word : CharSet :=
  (ofName? "word").getD empty

example : (ofChars ['c', 'a', 'b', 'x']).ranges = [(0x61, 0x63), (0x78, 0x78)] := by decide +kernel

example : (ofChars ['a', '-']).withBothCases = ofChars ['-', 'A', 'a'] := by decide +kernel

example : full.diff (ofChars ['\n']) = (single '\n').complement := by decide +kernel

end CharSet

end Lockstep
