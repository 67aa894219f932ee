import Lockstep.Json.Number

/-!
# Tokens of JSON texts

A text is cut into tokens from the left.  The first place where that fails becomes the last token,
together with the reason, so that a reader that refuses an earlier token never learns of it.

Most escapes of a string are resolved, but code units that are written by number are kept as they
are: a string that nobody looks at may hold halves of surrogate pairs in any arrangement.
-/

namespace Lockstep.Json

/-- Why a text is no JSON text. -/
inductive Fault where
  | endsInList
  | endsInObject
  | endsInString
  | endsInValue
  /-- Something else stands where a colon should be. -/
  | noColon
  /-- Neither a comma nor the end of the array follows an element. -/
  | noListEnd
  /-- Neither a comma nor the end of the object follows a member. -/
  | noObjectEnd
  /-- A word starts like `null`, `true` or `false` and goes on differently. -/
  | noWord
  /-- Nothing that stands there starts a value. -/
  | noValue
  /-- The letter behind a backslash has no meaning. -/
  | unknownEscape
  /-- An escape by number is not written in four hexadecimal digits. -/
  | badUnit
  /-- The number is not written as numbers are. -/
  | badNumber
  /-- The number is larger than any double. -/
  | numberRange
  /-- The bytes of a string are no text. -/
  | badText
  /-- A control character stands in a string. -/
  | control
  /-- The name of a member is not a string. -/
  | keyNotString
  /-- A half of a surrogate pair is followed by another escape that does not complete it, or
  comes second without a first one. -/
  | loneSurrogate
  /-- The first half of a surrogate pair is not followed by an escape by number. -/
  | noSecondUnit
  | trailingComma
  | trailingText
  deriving DecidableEq, Repr

namespace Fault

/-- The text ends too early. -/
def isEnd (fault : Fault) : Bool :=
  fault matches .endsInList | .endsInObject | .endsInString | .endsInValue

/-- The sentence shown for a text that is no JSON text. -/
def message : Fault → String
  | .endsInList => "EOF while parsing a list"
  | .endsInObject => "EOF while parsing an object"
  | .endsInString => "EOF while parsing a string"
  | .endsInValue => "EOF while parsing a value"
  | .noColon => "expected `:`"
  | .noListEnd => "expected `,` or `]`"
  | .noObjectEnd => "expected `,` or `\x7d`"
  | .noWord => "expected ident"
  | .noValue => "expected value"
  | .unknownEscape => "invalid escape"
  | .badUnit => "invalid escape"
  | .badNumber => "invalid number"
  | .numberRange => "number out of range"
  | .badText => "invalid unicode code point"
  | .control => "control character (\\u0000-\\u001F) found while parsing a string"
  | .keyNotString => "key must be a string"
  | .loneSurrogate => "lone leading surrogate in hex escape"
  | .noSecondUnit => "unexpected end of hex escape"
  | .trailingComma => "trailing comma"
  | .trailingText => "trailing characters"

end Fault

/-- A part of a string. -/
inductive Piece where
  | char (c : Char)
  /-- A code unit of sixteen bits, written by number. -/
  | unit (number : Nat)
  deriving DecidableEq, Repr

/-- A unit of meaning of a JSON text. -/
inductive Token where
  | beginObject
  | endObject
  | beginArray
  | endArray
  | colon
  | comma
  | null
  | boolean (value : Bool)
  | number (literal : Literal)
  | string (pieces : List Piece)
  /-- A string that is not closed properly. -/
  | brokenString (pieces : List Piece) (fault : Fault)
  /-- The start of a number. -/
  | brokenNumber (fault : Fault)
  /-- Anything else that is no token. -/
  | broken (fault : Fault)
  deriving DecidableEq, Repr

/-- The characters that may stand between tokens. -/
def isSpace (c : Char) : Bool :=
  c == ' ' || c == '\t' || c == '\n' || c == '\r'

/-! ### Strings -/

/-- The character that a one-letter escape stands for. -/
def unescaped? : Char → Option Char
  | '"' => some '"'
  | '\\' => some '\\'
  | '/' => some '/'
  | 'b' => some '\x08'
  | 'f' => some '\x0c'
  | 'n' => some '\n'
  | 'r' => some '\r'
  | 't' => some '\t'
  | _ => none

/-- The value of a hexadecimal digit. -/
def hexDigit? (c : Char) : Option Nat :=
  if '0' ≤ c ∧ c ≤ '9' then some (c.toNat - 0x30)
  else if 'a' ≤ c ∧ c ≤ 'f' then some (c.toNat - 0x61 + 10)
  else if 'A' ≤ c ∧ c ≤ 'F' then some (c.toNat - 0x41 + 10)
  else none

/-- The code unit that four hexadecimal digits spell. -/
def unit? (a b c d : Char) : Option Nat := do
  return (((← hexDigit? a) * 16 + (← hexDigit? b)) * 16 + (← hexDigit? c)) * 16 + (← hexDigit? d)

/-- What was found by reading on to the end of a string. -/
structure Scanned where
  pieces : List Piece
  fault : Option Fault
  rest : List Char

/-- Puts a piece in front of what was found behind it. -/
def Scanned.push (piece : Piece) (s : Scanned) : Scanned :=
  { s with pieces := piece :: s.pieces }

/-- Reads a string behind its opening quote.  An escape by number takes four bytes, which have to
be there before they are looked at. -/
def scanString : List Char → Scanned
  | [] => ⟨[], some .endsInString, []⟩
  | '"' :: rest => ⟨[], none, rest⟩
  | '\\' :: 'u' :: a :: b :: c :: d :: rest =>
    match unit? a b c d with
    | some number => (scanString rest).push (.unit number)
    | none => ⟨[], some .badUnit, []⟩
  | '\\' :: 'u' :: rest =>
    ⟨[], some (if 4 ≤ (String.ofList rest).utf8ByteSize then .badUnit else .endsInString), []⟩
  | ['\\'] => ⟨[], some .endsInString, []⟩
  | '\\' :: e :: rest =>
    match unescaped? e with
    | some c => (scanString rest).push (.char c)
    | none => ⟨[], some .unknownEscape, []⟩
  | c :: rest =>
    if c.toNat < 0x20 then ⟨[], some .control, []⟩ else (scanString rest).push (.char c)

theorem scanString_rest_length (cs : List Char) :
    (scanString cs).rest.length ≤ cs.length := by
  fun_induction scanString cs <;> simp_all [Scanned.push] <;> omega

/-- What is wrong with a string that ends behind the first half of a surrogate pair. -/
def Fault.afterHalf : Option Fault → Fault
  | some .endsInString => .endsInString
  | some .badUnit => .badUnit
  | _ => .noSecondUnit

/-- The characters of a string whose surrogates are paired; the first fault decides. -/
def characters : List Piece → Option Fault → Except Fault (List Char)
  | [], none => .ok []
  | [], some fault => .error fault
  | .char c :: rest, fault => (characters rest fault).map (c :: ·)
  | .unit n :: rest, fault =>
    if n < 0xd800 ∨ 0xe000 ≤ n then (characters rest fault).map (Char.ofNat n :: ·)
    else if 0xdc00 ≤ n then .error .loneSurrogate
    else
      match rest with
      | [] => .error (.afterHalf fault)
      | .char _ :: _ => .error .noSecondUnit
      | .unit low :: rest =>
        if 0xdc00 ≤ low ∧ low < 0xe000 then
          (characters rest fault).map
            (Char.ofNat (0x10000 + (n - 0xd800) * 0x400 + (low - 0xdc00)) :: ·)
        else .error .loneSurrogate

/-- The first fault of a string that is not closed properly. -/
def brokenStringFault (pieces : List Piece) (fault : Fault) : Fault :=
  match characters pieces (some fault) with
  | .ok _ => fault
  | .error first => first

/-! ### Numbers -/

/-- The fault of a number that should go on where this text starts. -/
def Fault.unfinished : List Char → Fault
  | [] => .endsInValue
  | _ :: _ => .badNumber

/-- Takes at least one digit. -/
def scanDigits (cs : List Char) : Except Fault (List Char × List Char) :=
  let digits := cs.takeWhile Char.isDigit
  if digits.isEmpty then .error (.unfinished cs) else .ok (digits, cs.dropWhile Char.isDigit)

/-- Reads the digits of an exponent behind its sign. -/
def scanSigned (negative : Bool) (cs : List Char) :
    Except Fault (Option (Bool × List Char) × List Char) :=
  (scanDigits cs).map fun r => (some (negative, r.1), r.2)

/-- Reads the part of a number behind the letter `e`. -/
def scanExponent : List Char → Except Fault (Option (Bool × List Char) × List Char)
  | '+' :: rest => scanSigned false rest
  | '-' :: rest => scanSigned true rest
  | cs => scanSigned false cs

/-- Reads the exponent of a number, if it has one. -/
def scanOptionalExponent : List Char → Except Fault (Option (Bool × List Char) × List Char)
  | 'e' :: rest => scanExponent rest
  | 'E' :: rest => scanExponent rest
  | cs => .ok (none, cs)

/-- Reads the fraction of a number, if it has one. -/
def scanFraction : List Char → Except Fault (List Char × List Char)
  | '.' :: rest => scanDigits rest
  | cs => .ok ([], cs)

/-- Reads a number behind its sign.  Only a single zero may start with zero. -/
def scanNumber (negative : Bool) (cs : List Char) : Except Fault (Literal × List Char) :=
  match scanDigits cs with
  | .error fault => .error fault
  | .ok (whole, rest) =>
    if whole.head? = some '0' ∧ whole ≠ ['0'] then .error .badNumber
    else
      match scanFraction rest with
      | .error fault => .error fault
      | .ok (fraction, rest) =>
        match scanOptionalExponent rest with
        | .error fault => .error fault
        | .ok (exponent, rest) => .ok (⟨negative, whole, fraction, exponent⟩, rest)

/-- Digits that were taken are at least one. -/
theorem scanDigits_rest_length {cs rest digits : List Char}
    (h : scanDigits cs = .ok (digits, rest)) : rest.length < cs.length := by
  simp only [scanDigits] at h
  split at h
  · cases h
  · cases h
    have split :=
      congrArg List.length (List.takeWhile_append_dropWhile (p := Char.isDigit) (l := cs))
    rw [List.length_append] at split
    have : (cs.takeWhile Char.isDigit).length ≠ 0 := by simp_all
    omega

theorem scanSigned_rest_length {cs rest : List Char} {negative : Bool}
    {e : Option (Bool × List Char)} (h : scanSigned negative cs = .ok (e, rest)) :
    rest.length < cs.length := by
  unfold scanSigned at h
  cases hd : scanDigits cs with
  | error => simp [hd, Except.map] at h
  | ok r =>
    simp only [hd, Except.map, Except.ok.injEq, Prod.mk.injEq] at h
    exact h.2 ▸ scanDigits_rest_length hd

theorem scanExponent_rest_length {cs rest : List Char} {e : Option (Bool × List Char)}
    (h : scanExponent cs = .ok (e, rest)) : rest.length < cs.length := by
  unfold scanExponent at h
  split at h <;> have := scanSigned_rest_length h <;> simp <;> omega

theorem scanOptionalExponent_rest_length {cs rest : List Char} {e : Option (Bool × List Char)}
    (h : scanOptionalExponent cs = .ok (e, rest)) : rest.length ≤ cs.length := by
  unfold scanOptionalExponent at h
  split at h
  · have := scanExponent_rest_length h; simp; omega
  · have := scanExponent_rest_length h; simp; omega
  · cases h; exact Nat.le_refl _

theorem scanFraction_rest_length {cs fraction rest : List Char}
    (h : scanFraction cs = .ok (fraction, rest)) : rest.length ≤ cs.length := by
  unfold scanFraction at h
  split at h
  · have := scanDigits_rest_length h; simp; omega
  · cases h; exact Nat.le_refl _

/-- A number that was read takes at least one character. -/
theorem scanNumber_rest_length {negative : Bool} {cs rest : List Char} {n : Literal}
    (h : scanNumber negative cs = .ok (n, rest)) : rest.length < cs.length := by
  unfold scanNumber at h
  split at h
  · cases h
  · split at h
    · cases h
    · split at h
      · cases h
      · split at h
        · cases h
        · cases h
          have := scanDigits_rest_length ‹_›
          have := scanFraction_rest_length ‹_›
          have := scanOptionalExponent_rest_length ‹_›
          omega

/-! ### Words -/

/-- Reads on in a word that has to be there. -/
def scanWord : List Char → List Char → Except Fault (List Char)
  | [], cs => .ok cs
  | _ :: _, [] => .error .endsInValue
  | w :: ws, c :: cs => if w = c then scanWord ws cs else .error .noWord

theorem scanWord_rest_length {word cs rest : List Char} (h : scanWord word cs = .ok rest) :
    rest.length ≤ cs.length := by
  fun_induction scanWord word cs with
  | case1 => cases h; exact Nat.le_refl _
  | case2 => cases h
  | case3 _ _ _ ih => have := ih h; simp; omega
  | case4 => cases h

/-! ### Texts -/

/-- The punctuation marks and the tokens they make. -/
def punctuation? : Char → Option Token
  | '\x7b' => some .beginObject
  | '\x7d' => some .endObject
  | '[' => some .beginArray
  | ']' => some .endArray
  | ':' => some .colon
  | ',' => some .comma
  | _ => none

/-- The words that are values, by their first letter. -/
def word? : Char → Option (List Char × Token)
  | 'n' => some ("ull".toList, .null)
  | 't' => some ("rue".toList, .boolean true)
  | 'f' => some ("alse".toList, .boolean false)
  | _ => none

/-- The tokens of a text, up to the first place where there is none. -/
def tokens : List Char → List Token
  | [] => []
  | c :: cs =>
    if isSpace c then tokens cs
    else if let some token := punctuation? c then token :: tokens cs
    else if c = '"' then
      match (scanString cs).fault with
      | none => .string (scanString cs).pieces :: tokens (scanString cs).rest
      | some fault => [.brokenString (scanString cs).pieces fault]
    else if c = '-' ∨ c.isDigit then
      match _h : scanNumber (c = '-') (if c = '-' then cs else c :: cs) with
      | .ok (literal, rest) => .number literal :: tokens rest
      | .error fault => [.brokenNumber fault]
    else
      match word? c with
      | none => [.broken .noValue]
      | some (word, token) =>
        match _h : scanWord word cs with
        | .ok rest => token :: tokens rest
        | .error fault => [.broken fault]
termination_by cs => cs.length
decreasing_by
  · simp
  · simp
  · have := scanString_rest_length cs; simp; omega
  · have := scanNumber_rest_length ‹_›
    simp
    split at this <;> simp_all
    omega
  · have := scanWord_rest_length ‹_›; simp; omega

example : tokens "[1, true]".toList =
    [.beginArray, .number ⟨false, ['1'], [], none⟩, .comma, .boolean true, .endArray] := by
  decide +kernel

example : tokens "nul".toList = [.broken .endsInValue] := by decide +kernel

example : tokens "\"\\ud800".toList = [.brokenString [.unit 0xd800] .endsInString] := by
  decide +kernel

end Lockstep.Json
