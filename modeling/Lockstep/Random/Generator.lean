/-!
# Random numbers

A small generator of sixty-four bits (xoshiro256++).  Its state of four words is filled from a seed
by a second generator (SplitMix64), so that every seed gives a state of its own.  Numbers of
thirty-two bits are the upper halves of the outputs.
-/

namespace Lockstep.Random

/-- The state from which the words of a generator are filled. -/
structure Splitter where
  state : UInt64
  deriving DecidableEq, Repr

/-- The next word, and the state after it. -/
def Splitter.next (s : Splitter) : UInt64 × Splitter :=
  let state := s.state + 0x9e3779b97f4a7c15
  let z := (state ^^^ (state >>> 30)) * 0xbf58476d1ce4e5b9
  let z := (z ^^^ (z >>> 27)) * 0x94d049bb133111eb
  (z ^^^ (z >>> 31), ⟨state⟩)

/-- The state of a generator. -/
structure Generator where
  a : UInt64
  b : UInt64
  c : UInt64
  d : UInt64
  deriving DecidableEq, Repr, Inhabited

/-- A word with its bits moved up by a number of places; what leaves at the top comes in at the
bottom. -/
def rotated (x places : UInt64) : UInt64 :=
  (x <<< places) ||| (x >>> (64 - places))

namespace Generator

/-- The generator of a seed. -/
def ofSeed (seed : UInt64) : Generator :=
  let (a, s) := (Splitter.mk seed).next
  let (b, s) := s.next
  let (c, s) := s.next
  ⟨a, b, c, s.next.1⟩

/-- The next number of sixty-four bits, and the generator after it. -/
def next (g : Generator) : UInt64 × Generator :=
  let c := g.c ^^^ g.a
  let d := g.d ^^^ g.b
  (rotated (g.a + g.d) 23 + g.a,
    ⟨g.a ^^^ d, g.b ^^^ c, c ^^^ (g.b <<< 17), rotated d 45⟩)

/-- The next number of thirty-two bits, and the generator after it. -/
def next32 (g : Generator) : UInt32 × Generator :=
  let r := g.next
  ((r.1 >>> 32).toUInt32, r.2)

/-- The next number of thirty-two bits with a sign, and the generator after it. -/
def nextInt (g : Generator) : Int32 × Generator :=
  let r := g.next32
  (r.1.toInt32, r.2)

/-- That many numbers in the order in which they are drawn, and the generator after them. -/
def draw : Nat → Generator → List Int32 × Generator
  | 0, g => ([], g)
  | n + 1, g =>
    let first := g.nextInt
    let r := draw n first.2
    (first.1 :: r.1, r.2)

/-- A number below a bound, and the generator after it.  When the first product might be biased a
second number is drawn to correct it by one. -/
def below (bound : Nat) (g : Generator) : Nat × Generator :=
  let first := g.next32
  let p := first.1.toNat * bound
  let low := p % UInt32.size
  if UInt32.size - bound < low then
    let second := first.2.next32
    let q := second.1.toNat * bound / UInt32.size
    (p / UInt32.size + (low + q) / UInt32.size, second.2)
  else (p / UInt32.size, first.2)

end Generator

end Lockstep.Random
