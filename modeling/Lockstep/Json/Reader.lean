import Lockstep.Json.Failure
import Lockstep.Json.Skip

/-!
# Typed reading

A reader takes a value of its type off the tokens and answers it with the tokens that are left, or
refuses them.  A structure is read from an object whose members may come in any order, or from an
array that holds the members in the order in which they are declared.  What a member leaves unsaid
stays as it is in the blank structure, unless the member is required.
-/

namespace Lockstep.Json

/-- Takes a value off the tokens. -/
abbrev Reader (α : Type) : Type := List Token → Except Failure (α × List Token)

namespace Reader

/-! ### Refusals -/

/-- The reason against tokens that do not start with the wanted kind of value. -/
def refusal (expected : String) : List Token → Failure
  | [] => .fault .endsInValue
  | .null :: _ => .mismatch (.invalidType .null expected)
  | .boolean value :: _ => .mismatch (.invalidType (.boolean value) expected)
  | .number literal :: _ =>
    match literal.value? with
    | none => .fault .numberRange
    | some (.integer value) => .mismatch (.invalidType (.integer value) expected)
    | some (.real value) => .mismatch (.invalidType (.real value) expected)
  | .string pieces :: _ =>
    match characters pieces none with
    | .ok cs => .mismatch (.invalidType (.text (String.ofList cs)) expected)
    | .error fault => .fault fault
  | .brokenString pieces fault :: _ => .fault (brokenStringFault pieces fault)
  | .beginArray :: _ => .mismatch (.invalidType .sequence expected)
  | .beginObject :: _ => .mismatch (.invalidType .map expected)
  | .brokenNumber fault :: _ => .fault fault
  | .broken fault :: _ => .fault fault
  | .endArray :: _ | .endObject :: _ | .colon :: _ | .comma :: _ => .fault .noValue

/-- The reason against tokens that go on with something else than the wanted punctuation: one
fault if the text ends there and another one if it does not. -/
def unpunctuated (atEnd otherwise : Fault) : List Token → Failure
  | [] => .fault atEnd
  | _ :: _ => .fault otherwise

/-! ### Simple values -/

/-- Changes the value that is read. -/
def map {α β : Type} (f : α → β) (read : Reader α) : Reader β :=
  fun ts => (read ts).map fun r => (f r.1, r.2)

/-- An integer from zero up to a bound. -/
def natural (title : String) (bound : Nat) : Reader Nat
  | .number literal :: rest =>
    match literal.value? with
    | none => .error (.fault .numberRange)
    | some (.integer value) =>
      if 0 ≤ value ∧ value < bound then .ok (value.toNat, rest)
      else .error (.mismatch (.invalidValue value title))
    | some (.real value) => .error (.mismatch (.invalidType (.real value) title))
  | ts => .error (refusal title ts)

/-- A number of sixty-four bits. -/
def uint64 : Reader UInt64 :=
  (natural "u64" UInt64.size).map UInt64.ofNat

/-- A number of sixty-four bits that counts something. -/
def count : Reader UInt64 :=
  (natural "usize" UInt64.size).map UInt64.ofNat

/-- A number of thirty-two bits. -/
def uint32 : Reader UInt32 :=
  (natural "u32" UInt32.size).map UInt32.ofNat

/-- A number of eight bits. -/
def uint8 : Reader UInt8 :=
  (natural "u8" UInt8.size).map UInt8.ofNat

/-- A truth value. -/
def boolean : Reader Bool
  | .boolean value :: rest => .ok (value, rest)
  | ts => .error (refusal "a boolean" ts)

/-- A string. -/
def string : Reader String
  | .string pieces :: rest =>
    match characters pieces none with
    | .ok cs => .ok (String.ofList cs, rest)
    | .error fault => .error (.fault fault)
  | ts => .error (refusal "a string" ts)

/-- A value that may be `null`. -/
def nullable {α : Type} (read : Reader α) : Reader (Option α)
  | .null :: rest => .ok (none, rest)
  | ts => read.map some ts

/-! ### Arrays -/

/-- One or more elements and the end of their array. -/
def elements {α : Type} (read : Reader α) : Nat → Reader (List α)
  | 0, _ => .error (.fault .endsInList)
  | fuel + 1, ts =>
    match read ts with
    | .error e => .error e
    | .ok (a, .endArray :: rest) => .ok ([a], rest)
    | .ok (_, .comma :: .endArray :: _) => .error (.fault .trailingComma)
    | .ok (a, .comma :: rest) => (elements read fuel).map (a :: ·) rest
    | .ok (_, rest) => .error (unpunctuated .endsInList .noListEnd rest)

/-- An array with elements of one kind. -/
def array {α : Type} (read : Reader α) : Reader (List α)
  | [.beginArray] => .error (.fault .endsInList)
  | .beginArray :: .endArray :: rest => .ok ([], rest)
  | .beginArray :: rest => elements read (rest.length + 1) rest
  | ts => .error (refusal "a sequence" ts)

/-! ### Choices -/

/-- The variant of a name. -/
def variant {α : Type} (variants : List (String × α)) (name : String) : Except Failure α :=
  match variants.lookup name with
  | some a => .ok a
  | none => .error (.mismatch (.unknownVariant name (variants.map (·.1))))

/-- The name of a variant that is written as a member. -/
def variantName : Reader String
  | [] => .error (.fault .endsInValue)
  | ts@(.string _ :: _) | ts@(.brokenString _ _ :: _) => string ts
  | .endObject :: _ => .error (.fault .noValue)
  | _ :: _ => .error (.fault .keyNotString)

/-- One of several names, either alone or as the only member of an object with the value `null`. -/
def choice {α : Type} (variants : List (String × α)) : Reader α
  | .beginObject :: ts =>
    match variantName ts with
    | .error e => .error e
    | .ok (name, rest) =>
      match variant variants name, rest with
      | .error e, _ => .error e
      | .ok a, .colon :: .null :: .endObject :: rest => .ok (a, rest)
      | .ok _, .colon :: .null :: rest => .error (unpunctuated .endsInObject .noValue rest)
      | .ok _, .colon :: rest => .error (refusal "unit" rest)
      | .ok _, rest => .error (unpunctuated .endsInObject .noColon rest)
  | ts@(.string _ :: _) | ts@(.brokenString _ _ :: _) =>
    match string ts with
    | .error e => .error e
    | .ok (name, rest) => (variant variants name).map fun a => (a, rest)
  | ts => .error (unpunctuated .endsInValue .noValue ts)

end Reader

/-! ### Structures -/

/-- A member of a structure. -/
structure Member (σ : Type) where
  name : String
  /-- A structure without this member is refused. -/
  required : Bool
  /-- Reads the member and answers how it changes the structure. -/
  read : Reader (σ → σ)

/-- A member that has to be there. -/
def Member.needed {σ α : Type} (name : String) (read : Reader α) (put : α → σ → σ) : Member σ :=
  ⟨name, true, read.map put⟩

/-- A member that may be left out. -/
def Member.defaulted {σ α : Type} (name : String) (read : Reader α) (put : α → σ → σ) : Member σ :=
  ⟨name, false, read.map put⟩

/-- How a structure is written. -/
structure Layout (σ : Type) where
  /-- The words by which messages call the structure. -/
  title : String
  /-- Members of other names are refused, and skipped otherwise. -/
  strict : Bool
  /-- The members in the order of their declaration. -/
  members : List (Member σ)
  /-- The structure before any member is read. -/
  blank : σ

namespace Layout

variable {σ : Type}

/-- The first required member that has not been seen. -/
def missing? (layout : Layout σ) (seen : List String) : Option (Member σ) :=
  layout.members.find? fun m => m.required && !seen.contains m.name

/-- Ends an object of which these members have been seen. -/
def finish (layout : Layout σ) (seen : List String) (draft : σ) : Except Failure σ :=
  match layout.missing? seen with
  | some m => .error (.mismatch (.missingMember m.name))
  | none => .ok draft

/-- Reads the value behind the name of a member, with the colon between them. -/
def entry (layout : Layout σ) (seen : List String) (draft : σ) (name : String) :
    Reader (List String × σ) :=
  match layout.members.find? (·.name == name) with
  | some m =>
    if seen.contains name then fun _ => .error (.mismatch (.repeatedMember name))
    else fun
      | .colon :: rest => m.read.map (fun update => (name :: seen, update draft)) rest
      | ts => .error (Reader.unpunctuated .endsInObject .noColon ts)
  | none =>
    if layout.strict then
      fun _ => .error (.mismatch (.unknownMember name (layout.members.map (·.name))))
    else fun
      | .colon :: rest =>
        match skip rest with
        | .error fault => .error (.fault fault)
        | .ok rest => .ok ((seen, draft), rest)
      | ts => .error (Reader.unpunctuated .endsInObject .noColon ts)

/-- One or more members and the end of their object.  With `first` no comma has been read yet. -/
def entries (layout : Layout σ) : Nat → Bool → List String → σ → Reader σ
  | 0, _, _, _, _ => .error (.fault .endsInObject)
  | fuel + 1, first, seen, draft, ts =>
    match ts with
    | .string pieces :: rest =>
      match characters pieces none with
      | .error fault => .error (.fault fault)
      | .ok cs =>
        match layout.entry seen draft (String.ofList cs) rest with
        | .error e => .error e
        | .ok ((seen, draft), .endObject :: rest) =>
          (layout.finish seen draft).map fun a => (a, rest)
        | .ok ((seen, draft), .comma :: rest) => layout.entries fuel false seen draft rest
        | .ok (_, rest) => .error (Reader.unpunctuated .endsInObject .noObjectEnd rest)
    | .brokenString pieces fault :: _ => .error (.fault (brokenStringFault pieces fault))
    | .endObject :: _ => .error (.fault .trailingComma)
    | ts =>
      .error (Reader.unpunctuated (if first then .endsInObject else .endsInValue) .keyNotString ts)

/-- The end of an array that holds all the members of a structure. -/
def closing {α : Type} (a : α) : Reader α
  | .endArray :: rest => .ok (a, rest)
  | .comma :: .endArray :: _ => .error (.fault .trailingComma)
  | ts => .error (Reader.unpunctuated .endsInList .trailingText ts)

/-- The members in their order up to the end of an array, of which some have been read. -/
def positions (layout : Layout σ) : List (Member σ) → Nat → σ → Reader σ
  | [], _, draft, ts => closing draft ts
  | m :: ms, read, draft, .endArray :: rest =>
    if m.required then
      .error (.mismatch (.invalidLength read layout.title layout.members.length))
    else layout.positions ms (read + 1) draft (.endArray :: rest)
  | _ :: _, _, _, [] => .error (.fault .endsInList)
  | m :: ms, read, draft, ts =>
    let item (ts : List Token) :=
      match m.read ts with
      | .error e => .error e
      | .ok (update, rest) => layout.positions ms (read + 1) (update draft) rest
    if read = 0 then item ts
    else
      match ts with
      | .comma :: .endArray :: _ => .error (.fault .trailingComma)
      | .comma :: rest => item rest
      | _ => .error (.fault .noListEnd)

/-- A structure, written as an object or as an array. -/
def reader (layout : Layout σ) : Reader σ
  | .beginObject :: .endObject :: rest => (layout.finish [] layout.blank).map fun a => (a, rest)
  | .beginObject :: rest => layout.entries (rest.length + 1) true [] layout.blank rest
  | .beginArray :: rest => layout.positions layout.members 0 layout.blank rest
  | ts => .error (Reader.refusal layout.title ts)

end Layout

/-! ### Texts -/

/-- Reads tokens that make up nothing but one value. -/
def ofTokens {α : Type} (read : Reader α) (ts : List Token) : Except Failure α :=
  match read ts with
  | .error e => .error e
  | .ok (a, []) => .ok a
  | .ok (_, _ :: _) => .error (.fault .trailingText)

/-- Reads a text that holds nothing but one value. -/
def ofChars {α : Type} (read : Reader α) (cs : List Char) : Except Failure α :=
  ofTokens read (tokens cs)

/-- Reads a string that holds nothing but one value. -/
def ofString {α : Type} (read : Reader α) (s : String) : Except Failure α :=
  ofChars read s.toList

end Lockstep.Json
