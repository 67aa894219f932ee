import Lockstep.Json.Token

/-!
# Values that nobody looks at

A value that is skipped only has to be built like a JSON value.  The brackets that are still open
are remembered in a list, so values may nest to any depth.  Less is checked than for a value that is
read: surrogates need not be paired and numbers may have any size.
-/

namespace Lockstep.Json

/-- An open bracket. -/
inductive Frame where
  | array
  | object
  deriving DecidableEq, Repr

/-- What has to come next. -/
inductive Place where
  | value
  /-- The first element or member, or the closing bracket. -/
  | first
  /-- A comma or the closing bracket. -/
  | next
  | key
  | colon
  deriving DecidableEq, Repr

/-- How far a value has been skipped. -/
structure Skipping where
  place : Place
  /-- The open brackets, the innermost first. -/
  frames : List Frame
  deriving DecidableEq, Repr

namespace Skipping

/-- A value is complete when something could follow it and no bracket is open. -/
def done (s : Skipping) : Bool :=
  s.place == .next && s.frames.isEmpty

/-- A token where a value has to come. -/
def value (frames : List Frame) : Token → Except Fault Skipping
  | .null | .boolean _ | .number _ | .string _ => .ok ⟨.next, frames⟩
  | .beginArray => .ok ⟨.first, .array :: frames⟩
  | .beginObject => .ok ⟨.first, .object :: frames⟩
  | .brokenString _ fault => .error fault
  | .brokenNumber _ => .error .badNumber
  | .broken fault => .error fault
  | _ => .error .noValue

/-- A token where the name of a member has to come. -/
def key (frames : List Frame) : Token → Except Fault Skipping
  | .string _ => .ok ⟨.colon, frames⟩
  | .brokenString _ fault => .error fault
  | _ => .error .keyNotString

/-- Goes over one token. -/
def step (s : Skipping) (token : Token) : Except Fault Skipping :=
  match s.place, s.frames, token with
  | .value, frames, token => value frames token
  | .key, frames, token => key frames token
  | .colon, frames, .colon => .ok ⟨.value, frames⟩
  | .colon, _, _ => .error .noColon
  | .first, .array :: frames, .endArray => .ok ⟨.next, frames⟩
  | .first, .object :: frames, .endObject => .ok ⟨.next, frames⟩
  | .first, .object :: frames, token => key (.object :: frames) token
  | .first, frames, token => value frames token
  | .next, .array :: frames, .endArray => .ok ⟨.next, frames⟩
  | .next, .object :: frames, .endObject => .ok ⟨.next, frames⟩
  | .next, .array :: frames, .comma => .ok ⟨.value, .array :: frames⟩
  | .next, .object :: frames, .comma => .ok ⟨.key, .object :: frames⟩
  | .next, .object :: _, _ => .error .noObjectEnd
  | .next, _, _ => .error .noListEnd

/-- The fault of a text that ends here. -/
def ending (s : Skipping) : Fault :=
  match s.place, s.frames with
  | .value, _ => .endsInValue
  | .first, .array :: _ => .endsInList
  | .next, .array :: _ => .endsInList
  | _, _ => .endsInObject

/-- Goes over tokens until the value is complete; answers the tokens behind it. -/
def run (s : Skipping) : List Token → Except Fault (List Token)
  | [] => if s.done then .ok [] else .error s.ending
  | token :: rest =>
    if s.done then .ok (token :: rest)
    else
      match s.step token with
      | .error fault => .error fault
      | .ok s => run s rest

end Skipping

/-- Skips one value. -/
def skip (tokens : List Token) : Except Fault (List Token) :=
  Skipping.run ⟨.value, []⟩ tokens

example : (skip [.beginArray, .beginObject, .endObject, .endArray, .comma]).toOption =
    some [.comma] := by decide

end Lockstep.Json
