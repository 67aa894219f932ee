import Lockstep.Pattern.Brackets
import Lockstep.Text.Quoted

/-!
# Written patterns

A pattern is written as text.  Most characters stand for themselves, a point for any character, the
anchors for the ends of the text, and brackets for sets.  Signs behind a part say how often it is
repeated, bars separate alternatives, and parentheses hold groups, which may have names or change
the flags.

The text is read from the left; groups that are still open are remembered.  A pattern is refused
when its groups nest too deeply or when it unfolds to more steps than the limit, and when it
contains a condition about which nothing is known.
-/

namespace Lockstep.Pattern

/-! ### Parts -/

/-- A part of a pattern that has been read. -/
structure Part where
  pattern : Pattern
  /-- The steps that the part unfolds to. -/
  steps : Nat
  /-- How deeply it nests. -/
  depth : Nat := 0
  /-- It contains a condition about which nothing is known. -/
  unknown : Bool := false
  /-- It only changes flags, and cannot be repeated. -/
  directive : Bool := false

/-- The pattern takes no characters. -/
def isIdle : Pattern → Bool
  | nothing => true
  | one _ => false
  | look _ => true
  | seq p q => p.isIdle && q.isIdle
  | either p q => p.isIdle && q.isIdle
  | repeated p _ most => p.isIdle || most == some 0

namespace Part

/-- The part that stands for no characters. -/
def blank : Part := ⟨nothing, 1, 0, false, false⟩

/-- A change of flags. -/
def flagChange : Part := { blank with directive := true }

/-- A set of characters.  Beyond ASCII one character takes several steps. -/
def ofSet (s : CharSet) : Part :=
  ⟨one s, if s.isAscii then 2 else 12, 0, false, false⟩

/-- A single character, or both of its cases if flags want them.  Cases are known for ASCII only. -/
def ofChar? (f : Flags) (c : Char) : Option Part :=
  let part (s : CharSet) : Part := ⟨one s, c.utf8Size, 0, false, false⟩
  if !f.anyCase then some (part (.single c))
  else if !f.ascii then none
  else some (part (if c.toNat < 0x80 then (CharSet.single c).withBothCases else .single c))

/-- What a point stands for.  It would split characters in a pattern about ASCII. -/
def point? (f : Flags) : Option Part :=
  if f.ascii then none
  else if f.pointAll then some (ofSet .full)
  else some (ofSet (CharSet.ofChars (if f.returns then ['\r', '\n'] else ['\n'])).complement)

/-- A condition. -/
def ofLook (l : Look) : Part :=
  ⟨look l, 1, 0, false, false⟩

/-- The start of the text or of a line. -/
def start (f : Flags) : Part :=
  ofLook (if !f.lines then .textStart else if f.returns then .returnStart else .lineStart)

/-- The end of the text or of a line. -/
def finish (f : Flags) : Part :=
  ofLook (if !f.lines then .textEnd else if f.returns then .returnEnd else .lineEnd)

/-- What an escape stands for. -/
def ofAtom? (f : Flags) : Atom → Option Part
  | .char c => ofChar? f c
  | .set s => some (ofSet s)
  | .look l => some (ofLook l)
  | .unknown => some { blank with unknown := true }

/-- Two parts side by side, which make no further level. -/
def beside (join : Pattern → Pattern → Pattern) (p q : Part) : Part :=
  ⟨join p.pattern q.pattern, p.steps + q.steps, max p.depth q.depth, p.unknown || q.unknown, false⟩

/-- Parts in a row, the last one first. -/
def row : List Part → Part
  | [] => blank
  | [p] => p
  | p :: ps =>
    let all := ps.foldl (fun q p => beside seq p q) p
    { all with depth := all.depth + 1 }

/-- Alternatives, the last one first. -/
def choice : List Part → Part
  | [] => blank
  | [p] => p
  | p :: ps =>
    let all := ps.foldl (fun q p => beside either p q) p
    { all with depth := all.depth + 1, steps := all.steps + 2 }

/-- A group around a part. -/
def group (capturing : Bool) (p : Part) : Part :=
  { p with
    depth := p.depth + 1
    steps := p.steps + if capturing then 2 else 0
    directive := false }

/-- The steps of a repeated part. -/
def repeatedSteps (steps least : Nat) : Option Nat → Nat
  | none => max least 1 * steps + 1
  | some most => least * steps + (most - least) * (steps + 1) + 1

/-- A part that is repeated.  Repeating a part that takes no characters more than once is of no use,
and of a part that is left out nothing needs to be known. -/
def repeated (least : Nat) (most : Option Nat) (p : Part) : Part :=
  let (least', most') :=
    if p.pattern.isIdle then (min least 1, some (min (most.getD 1) 1)) else (least, most)
  if most' = some 0 then { blank with depth := p.depth + 1 }
  else
    ⟨p.pattern.loop least most, repeatedSteps p.steps least' most', p.depth + 1, p.unknown, false⟩

end Part

/-! ### Groups -/

/-- A group that is still open. -/
structure Group where
  /-- The flags behind the group. -/
  flags : Flags
  capturing : Bool
  /-- The complete alternatives, the last one first. -/
  branches : List Part := []
  /-- The parts of the alternative that is being read, the last one first. -/
  parts : List Part := []

namespace Group

/-- One more part. -/
def push (g : Group) (p : Part) : Group :=
  { g with parts := p :: g.parts }

/-- A bar follows. -/
def bar (g : Group) : Group :=
  { g with branches := .row g.parts :: g.branches, parts := [] }

/-- The group without what is around it. -/
def inner (g : Group) : Part :=
  .choice (.row g.parts :: g.branches)

/-- Repeats the last part. -/
def repeatLast? (g : Group) (least : Nat) (most : Option Nat) : Option Group :=
  match g.parts with
  | [] => none
  | p :: ps => if p.directive then none else some { g with parts := p.repeated least most :: ps }

end Group

/-! ### Flags -/

/-- The letters of flags and how each is set.  Greed does not change where a pattern occurs. -/
def flagSetters : List (Char × (Bool → Flags → Flags)) :=
  [('i', fun b f => { f with anyCase := b }), ('m', fun b f => { f with lines := b }),
    ('s', fun b f => { f with pointAll := b }), ('U', fun _ f => f),
    ('u', fun b f => { f with ascii := !b }), ('R', fun b f => { f with returns := b }),
    ('x', fun b f => { f with verbose := b })]

/-- Changes flags as letters say; those behind a hyphen are cleared. -/
def Flags.changed? : Bool → List Char → Flags → Option Flags
  | _, [], f => some f
  | _, '-' :: cs, f => Flags.changed? false cs f
  | b, c :: cs, f => (flagSetters.lookup c).bind fun set => Flags.changed? b cs (set b f)

/-- A way to write flags: no letter comes twice, and a hyphen is not the last one. -/
def isFlagText (cs : List Char) : Bool :=
  cs.eraseDups = cs && cs.getLast? != some '-'

/-! ### Reading -/

/-- How far a pattern has been read. -/
structure Reading where
  flags : Flags := {}
  /-- The innermost group; the whole pattern is a group of its own. -/
  here : Group := ⟨{}, false, [], []⟩
  /-- The groups around it, the innermost one first. -/
  around : List Group := []
  /-- The names of groups. -/
  names : List String := []

namespace Reading

/-- One more part. -/
def push (r : Reading) (p : Part) : Reading :=
  { r with here := r.here.push p }

/-- A group begins. -/
def enter (r : Reading) (capturing : Bool) (flags : Flags) : Reading :=
  { r with
    flags := flags
    here := ⟨r.flags, capturing, [], []⟩
    around := r.here :: r.around }

/-- A group ends. -/
def leave? (r : Reading) : Option Reading :=
  match r.around with
  | [] => none
  | g :: around =>
    some { r with
      flags := r.here.flags
      here := g.push (r.here.inner.group r.here.capturing)
      around := around }

/-- A character that may stand in the name of a group, which begins with a letter or an underscore.
-/
def isNameChar (first : Bool) (c : Char) : Bool :=
  c = '_' || c.isAlpha || (0x80 ≤ c.toNat && !Text.needsCode c) ||
    (!first && (c.isDigit || c = '.' || c = '[' || c = ']'))

/-- The name of a group, from behind its opening sign on. -/
def named? (r : Reading) (cs : List Char) : Option (Reading × List Char) :=
  let name := cs.takeWhile (· ≠ '>')
  match cs.dropWhile (· ≠ '>') with
  | [] => none
  | _ :: rest =>
    let text := String.ofList name
    let isName := name.head?.any (isNameChar true) && name.all (isNameChar false)
    if isName && !r.names.contains text then
      some ({ r with names := text :: r.names }.enter true r.flags, rest)
    else none

/-- Flags for a group or for what follows, from behind the question mark on. -/
def flagged? (r : Reading) (cs : List Char) : Option (Reading × List Char) :=
  let isEnd (c : Char) : Bool := c = ')' || c = ':'
  let text := cs.takeWhile (!isEnd ·)
  if isFlagText text then do
    let flags ← Flags.changed? true text r.flags
    match cs.dropWhile (!isEnd ·) with
    | [] => none
    | ')' :: rest =>
      if text.isEmpty then none else some ({ r with flags := flags }.push .flagChange, rest)
    | _ :: rest => some (r.enter false flags, rest)
  else none

/-- A group, from behind the opening parenthesis on.  Patterns cannot look beyond their pieces. -/
def group? (r : Reading) (cs : List Char) : Option (Reading × List Char) :=
  match r.flags.skip cs with
  | '?' :: 'P' :: '<' :: rest => r.named? rest
  | '?' :: '<' :: '=' :: _ | '?' :: '<' :: '!' :: _ => none
  | '?' :: '=' :: _ | '?' :: '!' :: _ => none
  | '?' :: '<' :: rest => r.named? rest
  | '?' :: rest => r.flagged? rest
  | rest => some (r.enter true r.flags, rest)

/-- Repeats the last part.  A question mark behind the sign makes no difference to where the pattern
occurs. -/
def repeat? (r : Reading) (least : Nat) (most : Option Nat) (rest : List Char) :
    Option (Reading × List Char) :=
  (r.here.repeatLast? least most).map fun g =>
    ({ r with here := g }, match rest with
      | '?' :: rest => rest
      | rest => rest)

/-- The digits of a number with blanks around them. -/
def digits (f : Flags) : List Char → List Char × List Char
  | [] => ([], [])
  | c :: cs =>
    if c.isDigit then (c :: (digits f cs).1, (digits f cs).2)
    else if f.ignores c then digits f cs
    else ([], c :: cs)

/-- A number of thirty-two bits with blanks around it, or nothing if there are no digits. -/
def count? (f : Flags) (cs : List Char) : Option (Option Nat × List Char) :=
  let (ds, rest) := digits f (cs.dropWhile Text.isBlank)
  let rest := f.skip (rest.dropWhile Text.isBlank)
  if ds.isEmpty then some (none, rest)
  else
    (Text.Numeral.magnitude 10 UInt32.size .tooLarge 0 ds).toOption.map fun n => (some n, rest)

/-- How often the last part is repeated, from behind the opening brace on. -/
def counted? (r : Reading) (cs : List Char) : Option (Reading × List Char) := do
  let (least?, rest) ← count? r.flags (r.flags.skip cs)
  let least ← least?
  match rest with
  | '\x7d' :: rest => r.repeat? least (some least) (r.flags.skip rest)
  | ',' :: rest =>
    match r.flags.skip rest with
    | '\x7d' :: rest => r.repeat? least none (r.flags.skip rest)
    | rest =>
      match ← count? r.flags rest with
      | (some most, '\x7d' :: rest) =>
        if least ≤ most then r.repeat? least (some most) (r.flags.skip rest) else none
      | _ => none
  | _ => none

/-- Reads what comes next. -/
def step? (r : Reading) : List Char → Option (Reading × List Char)
  | [] => none
  | '(' :: cs => r.group? cs
  | ')' :: cs => r.leave?.map fun r => (r, cs)
  | '|' :: cs => some ({ r with here := r.here.bar }, cs)
  | '[' :: cs =>
    (brackets? r.flags cs).map fun s => (r.push { Part.ofSet s.1.set with depth := s.1.depth }, s.2)
  | '?' :: cs => r.repeat? 0 (some 1) cs
  | '*' :: cs => r.repeat? 0 none cs
  | '+' :: cs => r.repeat? 1 none cs
  | '\x7b' :: cs => r.counted? cs
  | '.' :: cs => (Part.point? r.flags).map fun p => (r.push p, cs)
  | '^' :: cs => some (r.push (.start r.flags), cs)
  | '$' :: cs => some (r.push (.finish r.flags), cs)
  | cs => do
    let (atom, rest) ← Atom.next? r.flags cs
    let part ← Part.ofAtom? r.flags atom
    return (r.push part, rest)

/-- Reads to the end of a text. -/
def run? : Nat → Reading → List Char → Option Reading
  | 0, _, _ => none
  | fuel + 1, r, cs =>
    match r.flags.skip cs with
    | [] => some r
    | cs => (r.step? cs).bind fun next => run? fuel next.1 next.2

end Reading

/-- The levels to which a pattern may nest. -/
def depthLimit : Nat := 250

/-- The steps to which a pattern may unfold. -/
def stepLimit : Nat := 327680

/-- The pattern that a text spells, if it spells one. -/
def ofString? (s : String) : Option Pattern := do
  let r ← Reading.run? (s.length + 1) {} s.toList
  let whole := r.here.inner
  if r.around.isEmpty && whole.depth ≤ depthLimit && whole.steps ≤ stepLimit && !whole.unknown then
    some whole.pattern
  else none

/-- A text spells a pattern that occurs in another text. -/
def isFound (pattern text : String) : Bool :=
  (ofString? pattern).any fun p => p.occursIn text.toList

example : isFound "core: [01] .*iteration: 2" "core: 1 x iteration: 2" = true := by decide +kernel

example : isFound "^a+(?:b|c){2}$" "aabc" = true := by decide +kernel

example : ofString? "a{2,1}" = none := by decide +kernel

example : ofString? "\\bword" = none := by decide +kernel

end Lockstep.Pattern
