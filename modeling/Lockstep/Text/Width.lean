import Lockstep.Attempt
import Lockstep.Text.Blank
import Lockstep.Text.EastAsianWide
import Lockstep.Text.Emoji
import Lockstep.Text.Joining
import Lockstep.Text.ZeroWidth

/-!
# The width of text

Where characters are lined up, most of them take one column.  East Asian wide characters and emoji
take two, and characters that are drawn together with others take none.  Some characters are drawn
as one with what follows them, so a text is measured from its end: each character meets a summary of
what comes next and adds its own columns.  In a text control characters take a column like others.

A sequence that changes the colours of a terminal, from an escape character and a bracket to the
next `m`, is hidden; only the escape character itself keeps its column.
-/

namespace Lockstep.Text

/-! ### Characters -/

/-- The columns that a visible character takes on its own. -/
def ownWidth (c : Char) : Nat :=
  if inRanges zeroWidth c.toNat then 0
  else if c.toNat = 0x17d8 then 3
  else if c.toNat = 0x17a4 || inRanges eastAsianWide c.toNat then 2
  else 1

/-- A control character. -/
def isControl (c : Char) : Bool :=
  c.toNat < 0x20 || inRanges [(0x7f, 0x9f)] c.toNat

/-- The columns that a character takes where it stands alone: none if it is a control character. -/
def charWidth (c : Char) : Nat :=
  if isControl c then 0 else ownWidth c

/-! ### What comes next -/

/-- The letters and signs that are drawn as one with certain others before them. -/
inductive Ligature where
  /-- An Arabic alef, which a lam before it takes in. -/
  | alef
  /-- A Hebrew lamed, which a joined alef takes in. -/
  | lamed
  /-- A Khmer letter that can be written below another one. -/
  | subscriptLetter
  /-- A Buginese ya. -/
  | ya
  /-- A Buginese vowel sign i that is joined to a ya. -/
  | vowelYa
  | tifinagh
  /-- A Tifinagh letter behind the sign that joins it to another one. -/
  | tifinaghJoined
  /-- A Lisu tone that forms one mark with the tone before it. -/
  | lisuTone
  /-- An Old Turkic letter i. -/
  | orkhon
  deriving DecidableEq, Repr

/-- What a text goes on with, as far as this matters to the character before. -/
inductive Following where
  | nothing
  /-- A part of a ligature, perhaps with a joiner before it. -/
  | ligature (part : Ligature) (tied : Bool)
  | emoji
  /-- A colour of the skin. -/
  | modifier
  /-- One letter of a flag. -/
  | regional
  /-- Several letters of flags. -/
  | regionals
  /-- A joiner before an emoji. -/
  | joined
  /-- A keycap before a joiner and an emoji. -/
  | joinedKeycap
  /-- One letter of a flag before a joiner and an emoji. -/
  | joinedRegional
  /-- An even number of letters of flags before a joiner and an emoji. -/
  | joinedEven
  /-- An odd number of them that is greater than one. -/
  | joinedOdd
  /-- The end of the name of a region. -/
  | tagEnd
  /-- Letters at the end of the name of a region. -/
  | tagLetters (count : Nat)
  /-- Digits before them. -/
  | tagDigits (count : Nat)
  deriving DecidableEq, Repr

/-- How a selector wants the character before it to be drawn. -/
inductive Presentation where
  | sign
  | picture
  deriving DecidableEq, Repr

/-- What a character meets behind itself. -/
structure Surrounding where
  following : Following := .nothing
  selector : Option Presentation := none
  deriving DecidableEq, Repr

/-- A lam, which takes in an alef that follows. -/
def isLam (c : Char) : Bool :=
  inRanges [(0x644, 0x644), (0x6b5, 0x6b8), (0x76a, 0x76a), (0x8a6, 0x8a6), (0x8c7, 0x8c7)] c.toNat

/-- An alef, which is taken in by a lam before it. -/
def isAlef (c : Char) : Bool :=
  inRanges [(0x622, 0x623), (0x625, 0x625), (0x627, 0x627), (0x671, 0x673), (0x675, 0x675),
    (0x773, 0x774), (0x870, 0x882)] c.toNat

/-- A mark between two Arabic letters that are drawn as one. -/
def isTransparent (c : Char) : Bool :=
  inRanges zeroWidth c.toNat && !inRanges interrupting c.toNat

/-- A character that does not keep the parts of a ligature apart. -/
def isIgnored (c : Char) : Bool :=
  inRanges [(0x34f, 0x34f), (0x17b4, 0x17b5), (0x180b, 0x180d), (0x180f, 0x180f), (0x200d, 0x200d),
    (0xfe00, 0xfe0f), (0xe0100, 0xe01ef)] c.toNat

/-- A Khmer letter that can be written below another one. -/
def isSubscriptLetter (c : Char) : Bool :=
  inRanges [(0x1780, 0x1782), (0x1784, 0x1787), (0x1789, 0x178c), (0x178e, 0x1793),
    (0x1795, 0x1798), (0x179b, 0x179d), (0x17a0, 0x17a0), (0x17a2, 0x17a2), (0x17a7, 0x17a7),
    (0x17ab, 0x17ac), (0x17af, 0x17af)] c.toNat

/-- A Tifinagh consonant. -/
def isTifinagh (c : Char) : Bool :=
  inRanges [(0x2d31, 0x2d65), (0x2d6f, 0x2d6f)] c.toNat

/-- A letter of a flag. -/
def isRegional (c : Char) : Bool :=
  inRanges [(0x1f1e6, 0x1f1ff)] c.toNat

/-- A colour of the skin. -/
def isModifier (c : Char) : Bool :=
  inRanges [(0x1f3fb, 0x1f3ff)] c.toNat

/-- What a character stands for when the text behind it does not matter. -/
def Following.ofChar (c : Char) : Following :=
  if isModifier c then .modifier
  else if isRegional c then .regional
  else if inRanges emojiPresentation c.toNat then .emoji
  else if isAlef c then .ligature .alef false
  else if c = '\u05dc' then .ligature .lamed false
  else if c = '\u1a10' then .ligature .ya false
  else if isTifinagh c then .ligature .tifinagh false
  else if inRanges [(0xa4fc, 0xa4fd)] c.toNat then .ligature .lisuTone false
  else if c.toNat = 0x10c03 then .ligature .orkhon false
  else if isSubscriptLetter c then .ligature .subscriptLetter false
  else .nothing

/-! ### One more character -/

/-- The joiner of characters. -/
def joiner : Char := '\u200d'

/-- The columns that a part of a ligature adds or takes back before the parts behind it, and what it
stands for. -/
def Ligature.before? (part : Ligature) (tied : Bool) (c : Char) : Option (Int × Following) :=
  if part ≠ .alef && c = joiner then some (0, .ligature part true)
  else if part ≠ .alef && isIgnored c then some (0, .ligature part tied)
  else
    match part with
    | .alef =>
      if isLam c then some (0, .nothing)
      else if isTransparent c then some (0, .ligature .alef tied)
      else none
    | .lamed => if tied && c = '\u05d0' then some (0, .nothing) else none
    | .subscriptLetter => if c = '\u17d2' then some (-1, .nothing) else none
    | .ya => if tied && c = '\u1a17' then some (0, .ligature .vowelYa false) else none
    | .vowelYa => if c = '\u1a15' then some (0, .nothing) else none
    | .tifinagh =>
      if c = '\u2d7f' then some (1, .ligature .tifinaghJoined false)
      else if tied && isTifinagh c then some (0, .nothing)
      else none
    | .tifinaghJoined => if isTifinagh c then some (-1, .nothing) else none
    | .lisuTone => if inRanges [(0xa4f8, 0xa4fb)] c.toNat then some (0, .nothing) else none
    | .orkhon => if tied && c.toNat = 0x10c32 then some (0, .nothing) else none

/-- The black flag that begins the name of a region. -/
def isBlackFlag (c : Char) : Bool :=
  c.toNat = 0x1f3f4

/-- A letter in the name of a region. -/
def isTagLetter (c : Char) : Bool :=
  inRanges [(0xe0061, 0xe007a)] c.toNat

/-- A digit in the name of a region. -/
def isTagDigit (c : Char) : Bool :=
  inRanges [(0xe0030, 0xe0039)] c.toNat

/-- The columns that a character adds or takes back where it is drawn as one with what follows, and
what it stands for.  There is no answer where it stands for itself. -/
def Following.before? (f : Following) (c : Char) : Option (Int × Following) :=
  match f with
  | .nothing => none
  | .ligature part tied => part.before? tied c
  | .emoji => if c = joiner then some (0, .joined) else none
  | .modifier =>
    if inRanges modifierBases c.toNat then some (0, .emoji)
    else if c = joiner then some (0, .joined)
    else none
  | .regional => if isRegional c then some (1, .regionals) else none
  | .regionals =>
    if isRegional c then some (1, .regionals)
    else if c = joiner then some (0, .joined)
    else none
  | .joined =>
    if c = '\u20e3' then some (0, .joinedKeycap)
    else if isRegional c then some (1, .joinedRegional)
    else if isModifier c then some (0, .modifier)
    else if c.toNat = 0xe007f then some (0, .tagEnd)
    else if inRanges emojiPresentation c.toNat then some (0, .emoji)
    else none
  | .joinedKeycap => none
  | .joinedRegional => if isRegional c then some (-1, .joinedEven) else none
  | .joinedEven =>
    if isRegional c then some (3, .joinedOdd)
    else if c = joiner then some (0, .joined)
    else none
  | .joinedOdd =>
    if isRegional c then some (-1, .joinedEven)
    else if c = joiner then some (0, .joined)
    else none
  | .tagEnd =>
    if isTagLetter c then some (0, .tagLetters 1)
    else if isTagDigit c then some (0, .tagDigits 1)
    else none
  | .tagLetters n =>
    if n < 6 && isTagLetter c then some (0, .tagLetters (n + 1))
    else if n < 5 && isTagDigit c then some (0, .tagDigits 1)
    else if 3 ≤ n && isBlackFlag c then some (0, .emoji)
    else none
  | .tagDigits n =>
    if n < 3 && isTagDigit c then some (0, .tagDigits (n + 1))
    else if n = 3 && isBlackFlag c then some (0, .emoji)
    else none

namespace Following

/-- Only parts of ligatures are still joined to what stands before a selector. -/
def pastSelector : Following → Following
  | .ligature part tied => .ligature part tied
  | _ => .nothing

/-- A joiner before an emoji, with or without a keycap. -/
def isJoined : Following → Bool
  | .joined => true
  | .joinedKeycap => true
  | _ => false

/-- The columns that a character adds before what follows it, where no selector has a say. -/
def addChar (f : Following) (c : Char) : Int × Surrounding :=
  if c = '\ufe0f' then
    (0, ⟨if f.isJoined then f else f.pastSelector, some .picture⟩)
  else if c = '\ufe0e' then (0, ⟨f.pastSelector, some .sign⟩)
  else
    match f.before? c with
    | some (w, next) => (w, ⟨next, none⟩)
    | none => (ownWidth c, ⟨ofChar c, none⟩)

end Following

/-- The columns that a character adds before what it meets behind itself.  A selector changes how
the character is drawn if it can. -/
def Surrounding.addChar (s : Surrounding) (c : Char) : Int × Surrounding :=
  if s.selector = some .picture ∧ inRanges variationBases c.toNat then
    (if s.following.isJoined then 0 else 2, ⟨.emoji, none⟩)
  else if c.toNat ≤ 0xa0 then (1, {})
  else
    match s.selector with
    | none => s.following.addChar c
    | some .picture => s.following.pastSelector.addChar c
    | some .sign =>
      if inRanges narrowedBases c.toNat then (1, {})
      else s.following.addChar c

/-- The columns of a text with all its characters, and what it begins with. -/
def measured (cs : List Char) : Int × Surrounding :=
  cs.foldr (fun c s =>
    let added := s.2.addChar c
    (added.1 + s.1, added.2)) (0, {})

/-! ### Hidden sequences -/

/-- Where a text stands with respect to the sequences that change colours. -/
inductive Escape where
  /-- Outside of them. -/
  | outside
  /-- Behind an escape character. -/
  | begun
  /-- Behind the bracket. -/
  | inside
  deriving DecidableEq, Repr

/-- Where a text stands after one more character. -/
def Escape.next (e : Escape) (c : Char) : Escape :=
  match e with
  | outside => if c = '\x1b' then begun else outside
  | begun => if c = '[' then inside else outside
  | inside => if c = 'm' then outside else inside

/-- The characters within sequences that would take columns elsewhere. -/
def hiddenFrom (e : Escape) : List Char → Nat
  | [] => 0
  | c :: cs =>
    (if (e = .inside ∨ e.next c = .inside) ∧ 0 < charWidth c then 1 else 0) +
      hiddenFrom (e.next c) cs

/-- The columns that a text takes.  Characters that are drawn as one may be hidden one by one, so
that more would be hidden than there is: such a text cannot be lined up. -/
def width (cs : List Char) : Except Fault Nat :=
  let columns := (measured cs).1 - hiddenFrom .outside cs
  if columns < 0 then .error .overflow else .ok columns.toNat

example : (width "日本".toList).toOption = some 4 := by decide +kernel

example : (width "e\u0301\x1b[31mred\x1b[0m".toList).toOption = some 6 := by decide +kernel

end Lockstep.Text
