import Lockstep.Pattern.CharSet

/-!
# Patterns

A pattern describes pieces of text.  A piece lies between two positions of the text, and a pattern
leads from the positions where pieces may begin to the positions where they then may end.  Sets of
positions are kept as marks, one for each position, so a pattern is followed from all positions at
once and every step goes over the text only once.

A pattern occurs in a text when it leads from any position to any other.
-/

namespace Lockstep

/-- A condition on the characters on both sides of a position. -/
inductive Look where
  | textStart
  | textEnd
  | lineStart
  | lineEnd
  /-- Like the start of a line, where a carriage return ends a line as well, and so does the pair of
  a carriage return and a line feed. -/
  | returnStart
  /-- The end of such a line. -/
  | returnEnd
  /-- A word of ASCII characters begins or ends. -/
  | boundary
  | noBoundary
  | wordStart
  | wordEnd
  /-- There is no part of a word before. -/
  | startHalf
  /-- There is no part of a word behind. -/
  | endHalf
  deriving DecidableEq, Repr

/-- What pieces of text look like. -/
inductive Pattern where
  /-- The piece without characters. -/
  | nothing
  /-- Single characters. -/
  | one (set : CharSet)
  /-- The piece without characters, where a condition holds. -/
  | look (condition : Look)
  | seq (first second : Pattern)
  | either (left right : Pattern)
  /-- So many pieces in a row. -/
  | repeated (p : Pattern) (min : Nat) (max : Option Nat)
  deriving DecidableEq, Repr, Inhabited

/-! ### Positions -/

/-- A position: the characters before and behind it. -/
abbrev Gap : Type := Option Char × Option Char

/-- The positions of a text.  There is one more of them than there are characters. -/
def Gap.ofText (text : List Char) : List Gap :=
  (none :: text.map some).zip (text.map some ++ [none])

/-- A part of a word stands on one side of a position. -/
def Gap.isWord (side : Option Char) : Bool :=
  side.any CharSet.word.contains

/-- A condition holds at a position. -/
def Look.holds (l : Look) (g : Gap) : Bool :=
  match l with
  | textStart => g.1.isNone
  | textEnd => g.2.isNone
  | lineStart => g.1.isNone || g.1 == some '\n'
  | lineEnd => g.2.isNone || g.2 == some '\n'
  | returnStart => g.1.isNone || g.1 == some '\n' || (g.1 == some '\r' && g.2 != some '\n')
  | returnEnd => g.2.isNone || g.2 == some '\r' || (g.2 == some '\n' && g.1 != some '\r')
  | boundary => Gap.isWord g.1 != Gap.isWord g.2
  | noBoundary => Gap.isWord g.1 == Gap.isWord g.2
  | wordStart => !Gap.isWord g.1 && Gap.isWord g.2
  | wordEnd => Gap.isWord g.1 && !Gap.isWord g.2
  | startHalf => !Gap.isWord g.1
  | endHalf => !Gap.isWord g.2

/-! ### Marks -/

/-- A set of positions: one mark for each position. -/
abbrev Marks : Type := List Bool

namespace Marks

/-- The positions of either set. -/
def union (m n : Marks) : Marks :=
  List.zipWith (· || ·) m n

/-- Moves over one character that belongs to a set. -/
def across (set : CharSet) (text : List Char) (m : Marks) : Marks :=
  false :: List.zipWith (fun here c => here && set.contains c) m text

/-- Keeps the positions where a condition holds. -/
def keep (l : Look) (text : List Char) (m : Marks) : Marks :=
  List.zipWith (fun here g => here && l.holds g) m (Gap.ofText text)

/-- Moves so many times, or fewer if nothing changes any more. -/
def times (move : Marks → Marks) : Nat → Marks → Marks
  | 0, m => m
  | n + 1, m =>
    let next := move m
    if next = m then m else times move n next

/-- Moves up to so many times, or fewer if nothing is added any more. -/
def upTo (move : Marks → Marks) : Nat → Marks → Marks
  | 0, m => m
  | n + 1, m =>
    let next := m.union (move m)
    if next = m then m else upTo move n next

end Marks

/-! ### Pieces -/

namespace Pattern

/-- Where pieces may end that begin at marked positions.  Positions never go back, so after as many
repetitions as there are positions, one more changes nothing. -/
def ends (text : List Char) : Pattern → Marks → Marks
  | nothing, m => m
  | one set, m => m.across set text
  | look l, m => m.keep l text
  | seq p q, m => q.ends text (p.ends text m)
  | either p q, m => (p.ends text m).union (q.ends text m)
  | repeated p least most, m =>
    let bound := text.length + 1
    Marks.upTo (p.ends text) (match most with
      | none => bound
      | some most => min (most - least) bound) (Marks.times (p.ends text) (min least bound) m)

/-- A piece of the text looks like the pattern. -/
def occursIn (p : Pattern) (text : List Char) : Bool :=
  (p.ends text (List.replicate (text.length + 1) true)).any id

/-- So many pieces in a row, at least one.  Repetitions of repetitions are drawn together where that
changes nothing. -/
def loop (p : Pattern) (least : Nat) (most : Option Nat) : Pattern :=
  match p, least, most with
  | repeated q 0 none, _, _ => repeated q 0 none
  | repeated q 0 (some 1), _, none => repeated q 0 none
  | repeated q 1 none, 0, none => repeated q 0 none
  | repeated q 1 none, 0, some 1 => repeated q 0 none
  | repeated q 1 none, 1, none => repeated q 1 none
  | p, least, most => repeated p least most

/-- The piece with the given characters. -/
def literal (cs : List Char) : Pattern :=
  cs.foldr (fun c p => seq (one (.single c)) p) nothing

example : (literal "ab".toList).occursIn "cabd".toList = true := by decide +kernel

example : (seq (look .textStart) (literal "ab".toList)).occursIn "cab".toList = false := by
  decide +kernel

example : (seq (literal ['a']) (repeated (one (.single 'b')) 2 (some 3))).occursIn "cabc".toList =
    false := by decide +kernel

end Pattern

end Lockstep
