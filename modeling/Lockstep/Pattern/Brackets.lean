import Lockstep.Pattern.Escape

/-!
# Sets in brackets

Brackets hold the characters of a set: one by one, by their ranges, by names, or in brackets of
their own.  A caret behind the opening bracket stands for all other characters.  Doubled signs join
what stands before them with what stands behind them, from the left to the right.
-/

namespace Lockstep.Pattern

/-- A set that has been read, and the levels of nesting that it took. -/
structure NestedSet where
  set : CharSet
  depth : Nat := 0
  deriving DecidableEq, Repr

/-- How two sets are joined. -/
inductive SetOperator where
  | both
  | first
  | oneOnly
  deriving DecidableEq, Repr

/-- The joined set. -/
def SetOperator.apply : SetOperator → CharSet → CharSet → CharSet
  | both, s, t => s.inter t
  | first, s, t => s.diff t
  | oneOnly, s, t => s.symmDiff t

/-- Both cases of the letters of a set, if that is wanted.  Only ASCII letters have known cases, so
a set that is about more than ASCII must be empty then. -/
def cased? (f : Flags) (s : CharSet) : Option CharSet :=
  if !f.anyCase || s.ranges.isEmpty then some s
  else if f.ascii then some s.withBothCases
  else none

/-- A set that is complete, or the other characters.  Where a pattern is about ASCII, there must be
no others in the set. -/
def finished? (f : Flags) (negated : Bool) (s : CharSet) : Option CharSet := do
  let s ← cased? f s
  let s := if negated then s.complement else s
  if f.ascii && !s.isAscii then none else some s

/-- What has been read of a set: the sets since the last operator, and what stands before it. -/
structure SetDraft where
  before : Option (SetOperator × NestedSet) := none
  items : List NestedSet := []

namespace SetDraft

/-- One more set. -/
def push (d : SetDraft) (s : NestedSet) : SetDraft :=
  { d with items := s :: d.items }

/-- One more character. -/
def pushChar (d : SetDraft) (c : Char) : SetDraft :=
  d.push ⟨.single c, 0⟩

/-- Everything since the last operator. -/
def gathered (d : SetDraft) : NestedSet where
  set := d.items.foldl (fun s item => s.union item.set) .empty
  depth := d.items.foldl (fun n item => max n item.depth) 0 + if 1 < d.items.length then 1 else 0

/-- Everything that has been read. -/
def complete? (f : Flags) (d : SetDraft) : Option NestedSet :=
  match d.before with
  | none => some d.gathered
  | some (op, left) => do
    let s ← cased? f left.set
    let t ← cased? f d.gathered.set
    return ⟨op.apply s t, max left.depth d.gathered.depth + 1⟩

/-- Goes on behind an operator. -/
def operate? (f : Flags) (op : SetOperator) (d : SetDraft) : Option SetDraft :=
  (d.complete? f).map fun left => ⟨some (op, left), []⟩

end SetDraft

/-- Literal hyphens at the start of a set. -/
def hyphens (f : Flags) (d : SetDraft) : Nat → List Char → SetDraft × List Char
  | n + 1, '-' :: cs => hyphens f (d.pushChar '-') n (f.skip cs)
  | _, cs => (d, cs)

/-- The start of a set behind its opening bracket: whether the other characters are meant, and the
hyphens or the closing bracket that stand for themselves there. -/
def opening (f : Flags) (cs : List Char) : Bool × SetDraft × List Char :=
  let (negated, cs) := match f.skip cs with
    | '^' :: cs => (true, f.skip cs)
    | cs => (false, cs)
  match hyphens f {} cs.length cs with
  | (⟨none, []⟩, ']' :: rest) => (negated, ({} : SetDraft).pushChar ']', rest)
  | (d, rest) => (negated, d, rest)

/-- The name of a set of ASCII characters between colons and the closing bracket, from behind the
opening bracket on. -/
def namedSet? (f : Flags) (cs : List Char) : Option (CharSet × List Char) :=
  match cs with
  | ':' :: cs =>
    let (negated, cs) := match cs with
      | '^' :: cs => (true, cs)
      | cs => (false, cs)
    match cs.dropWhile (· ≠ ':') with
    | ':' :: ']' :: rest => do
      let s ← CharSet.ofName? (String.ofList (cs.takeWhile (· ≠ ':')))
      return (← finished? f negated s, rest)
    | _ => none
  | _ => none

/-- A name of a set stands there. -/
def isNamedSet (cs : List Char) : Bool :=
  (namedSet? {} cs).isSome

/-- The characters from one to another one. -/
def range? (f : Flags) (first last : Char) : Option NestedSet :=
  if last < first ∨ (f.ascii ∧ 0x80 ≤ last.toNat) then none
  else some ⟨⟨[(first.toNat, last.toNat)]⟩, 0⟩

/-- What a single character or escape adds to a set. -/
def item? (f : Flags) : Atom → Option NestedSet
  | .char c => range? f c c
  | .set s => some ⟨s, 0⟩
  | .look _ => none
  | .unknown => none

/-- A character, an escape, or a range.  A hyphen makes no range before the closing bracket or
another hyphen. -/
def itemOrRange? (f : Flags) (cs : List Char) : Option (NestedSet × List Char) := do
  let (left, cs) ← Atom.next? f cs
  match f.skip cs with
  | '-' :: rest =>
    match f.skip rest with
    | [] => none
    | ']' :: _ | '-' :: _ => return (← item? f left, '-' :: rest)
    | rest =>
      match left, ← Atom.next? f rest with
      | .char first, (.char last, rest) => return (← range? f first last, rest)
      | _, _ => none
  | cs => return (← item? f left, cs)

/-- Reads on to the closing bracket of a set. -/
def readSet (f : Flags) : Nat → SetDraft → List Char → Option (NestedSet × List Char)
  | 0, _, _ => none
  | fuel + 1, d, cs =>
    match f.skip cs with
    | [] => none
    | ']' :: rest => (d.complete? f).map fun s => (s, rest)
    | '[' :: rest =>
      if isNamedSet rest then do
        let (s, rest) ← namedSet? f rest
        readSet f fuel (d.push ⟨s, 0⟩) rest
      else do
        let (negated, start, rest) := opening f rest
        let (inner, rest) ← readSet f fuel start rest
        let s ← finished? f negated inner.set
        readSet f fuel (d.push ⟨s, inner.depth + 1⟩) rest
    | '&' :: '&' :: rest => do readSet f fuel (← d.operate? f .both) rest
    | '-' :: '-' :: rest => do readSet f fuel (← d.operate? f .first) rest
    | '~' :: '~' :: rest => do readSet f fuel (← d.operate? f .oneOnly) rest
    | cs => do
      let (s, rest) ← itemOrRange? f cs
      readSet f fuel (d.push s) rest

/-- A set in brackets, from behind the opening bracket on. -/
def brackets? (f : Flags) (cs : List Char) : Option (NestedSet × List Char) := do
  let (negated, start, rest) := opening f cs
  let (inner, rest) ← readSet f (cs.length + 1) start rest
  let s ← finished? f negated inner.set
  return (⟨s, inner.depth + 1⟩, rest)

/-- The ranges of a set in brackets, if all of the text is one. -/
def wholeSet? (s : String) : Option (List (Nat × Nat)) :=
  match brackets? {} s.toList with
  | some (s, []) => some s.set.ranges
  | _ => none

example : wholeSet? "a-c-]" = some [(0x2d, 0x2d), (0x61, 0x63)] := by decide +kernel

example : wholeSet? "[:digit:]&&[^5]]" = some [(0x30, 0x34), (0x36, 0x39)] := by decide +kernel

example : wholeSet? "b-a]" = none := by decide +kernel

end Lockstep.Pattern
