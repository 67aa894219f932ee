import Lockstep.Text.Numeral

/-!
# Arguments

A program is asked for something by its arguments.  An option has a name behind two hyphens, and
maybe a value: behind an equals sign or in the next argument, which then must not look like an
option itself.  Arguments without hyphens are operands, and so is everything behind two hyphens
alone.

The arguments are read from the left, and the first one that cannot be understood or asks for help
ends that.  Whether all operands are there, and whether options exclude each other, is seen at the
end.
-/

namespace Lockstep.CommandLine

/-- Why a program does not begin. -/
inductive Refusal where
  /-- The arguments ask for help. -/
  | help
  /-- The arguments cannot be understood. -/
  | misuse
  deriving DecidableEq, Repr

/-! ### Single arguments -/

/-- What an argument looks like. -/
inductive Argument where
  | operand
  /-- Everything behind it is an operand. -/
  | separator
  /-- The name of an option, and the value behind an equals sign. -/
  | long (name : String) (attached : Option String)
  /-- Letters behind a single hyphen. -/
  | short (letters : List Char)
  deriving DecidableEq, Repr

namespace Argument

/-- What characters behind two hyphens look like. -/
def ofName (cs : List Char) : Argument :=
  let name := String.ofList (cs.takeWhile (· != '='))
  match cs.dropWhile (· != '=') with
  | [] => long name none
  | _ :: value => long name (some (String.ofList value))

/-- What an argument looks like.  A single hyphen is an operand. -/
def ofString (s : String) : Argument :=
  match s.toList with
  | ['-', '-'] => separator
  | '-' :: '-' :: cs => ofName cs
  | '-' :: c :: cs => short (c :: cs)
  | _ => operand

end Argument

/-! ### Grammars -/

/-- What an option takes. -/
inductive Takes where
  | nothing
  /-- A single value. -/
  | value
  /-- Values with commas between them.  The option may be given again. -/
  | values
  deriving DecidableEq, Repr

/-- An option, which changes what the program is asked for. -/
structure Flag (σ : Type) where
  name : String
  takes : Takes
  /-- What a value changes, unless it is refused. -/
  put : String → σ → Option σ

/-- An operand, which changes what the program is asked for. -/
structure Operand (σ : Type) where
  name : String
  put : String → σ → Option σ

/-- The arguments that a program understands. -/
structure Grammar (σ : Type) where
  flags : List (Flag σ)
  /-- The operands, all of which have to be there. -/
  operands : List (Operand σ)
  /-- Options that exclude each other. -/
  exclusive : List (String × String) := []
  /-- What the program is asked for without any arguments. -/
  blank : σ

/-- How far the arguments have been read. -/
structure Draft (σ : Type) where
  /-- The names of the options that were given. -/
  seen : List String
  /-- The operands that are still missing. -/
  missing : List (Operand σ)
  /-- What the program is asked for so far. -/
  request : σ

namespace Flag

variable {σ : Type}

/-- An option that takes nothing. -/
def switch (name : String) (put : σ → σ) : Flag σ :=
  ⟨name, .nothing, fun _ s => some (put s)⟩

/-- An option whose value is text. -/
def text (name : String) (put : String → σ → σ) : Flag σ :=
  ⟨name, .value, fun v s => some (put v s)⟩

/-- An option whose value is converted. -/
def converted {α : Type} (name : String) (convert : String → Option α) (put : α → σ → σ) :
    Flag σ :=
  ⟨name, .value, fun v s => (convert v).map fun a => put a s⟩

/-- An option with several values, each of which is converted. -/
def several {α : Type} (name : String) (convert : String → Option α) (put : α → σ → σ) :
    Flag σ :=
  ⟨name, .values, fun v s => (convert v).map fun a => put a s⟩

end Flag

/-- A number of sixty-four bits. -/
def number? (s : String) : Option UInt64 :=
  (Text.Numeral.uint64 s.toList).toOption

/-- A path is not empty. -/
def path? (s : String) : Option String :=
  if s = "" then none else some s

namespace Draft

variable {σ : Type}

/-- Goes on with a request, if there is one. -/
def withRequest (d : Draft σ) : Option σ → Except Refusal (Draft σ)
  | none => .error .misuse
  | some request => .ok { d with request := request }

/-- Takes an operand. -/
def operand (d : Draft σ) (value : String) : Except Refusal (Draft σ) :=
  match d.missing with
  | [] => .error .misuse
  | o :: missing => { d with missing := missing }.withRequest (o.put value d.request)

/-- Takes operands one after the other. -/
def operands (d : Draft σ) (values : List String) : Except Refusal (Draft σ) :=
  values.foldlM operand d

/-- Takes an option with its value, which is empty if the option takes none. -/
def flag (d : Draft σ) (f : Flag σ) (value : String) : Except Refusal (Draft σ) :=
  if f.takes = .values then
    { d with seen := f.name :: d.seen }.withRequest
      ((value.splitOn ",").foldlM (fun s v => f.put v s) d.request)
  else if d.seen.contains f.name then .error .misuse
  else { d with seen := f.name :: d.seen }.withRequest (f.put value d.request)

end Draft

namespace Grammar

variable {σ : Type}

/-- Reads arguments from the left. -/
def readFrom (g : Grammar σ) (d : Draft σ) : List String → Except Refusal (Draft σ)
  | [] => .ok d
  | a :: args =>
    match Argument.ofString a with
    | .operand => do readFrom g (← d.operand a) args
    | .separator => d.operands args
    | .short letters => .error (if letters.head? = some 'h' then .help else .misuse)
    | .long name attached =>
      match g.flags.find? (·.name = name), attached with
      | none, none => .error (if name = "help" then .help else .misuse)
      | none, some _ => .error .misuse
      | some f, some value =>
        if f.takes = .nothing then .error .misuse
        else do readFrom g (← d.flag f value) args
      | some f, none =>
        if f.takes = .nothing then do readFrom g (← d.flag f "") args
        else
          match args with
          | [] => .error .misuse
          | value :: args =>
            if Argument.ofString value = .operand then do readFrom g (← d.flag f value) args
            else .error .misuse

/-- What the arguments ask for. -/
def read (g : Grammar σ) (args : List String) : Except Refusal σ := do
  let d ← g.readFrom ⟨[], g.operands, g.blank⟩ args
  if !d.missing.isEmpty then .error .misuse
  else if g.exclusive.any fun p => d.seen.contains p.1 && d.seen.contains p.2 then .error .misuse
  else .ok d.request

/-- What a program says about its arguments. -/
def usage (g : Grammar σ) (command : String) : String :=
  "Usage: " ++ command ++ " [OPTIONS]" ++
    String.join (g.operands.map fun o => " <" ++ o.name ++ ">") ++ "\n\nOptions:\n" ++
    String.join (g.flags.map fun f =>
      "  --" ++ f.name ++
        (match f.takes with
          | .nothing => ""
          | .value => " <VALUE>"
          | .values => " <VALUE,...>") ++ "\n") ++
    "  --help\n"

end Grammar

end Lockstep.CommandLine
