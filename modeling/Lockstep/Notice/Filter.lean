import Lockstep.Notice
import Lockstep.Pattern.Reader

/-!
# Which notices are shown

A filter says for each topic how much detail is shown.  It is written as directives with commas
between them: a level alone counts for all topics, a topic alone is shown in full, and a topic with
a level behind an equals sign is shown up to that level.  A directive takes the place of an earlier
one for the same topic.  Of the directives for a topic the longest one decides, and the last one
among equals.  What follows a slash is a pattern that has to occur in a notice; if it is no pattern,
every notice will do.  A filter without directives shows errors only.
-/

namespace Lockstep

/-- How much detail is shown of the topics that begin in a certain way, or of all topics. -/
structure Directive where
  topic : Option String
  detail : Nat
  deriving DecidableEq, Repr

namespace Directive

/-- The bytes of the topic. -/
def weight (d : Directive) : Nat :=
  (d.topic.map (·.utf8ByteSize)).getD 0

/-- A directive is about a topic. -/
def isAbout (d : Directive) (topic : String) : Bool :=
  (d.topic.map fun start => topic.startsWith start).getD true

end Directive

namespace Notice

/-- Which notices are shown. -/
structure Filter where
  /-- The directives, each topic at most once. -/
  directives : List Directive
  /-- What has to occur in a notice. -/
  mention : Option Pattern
  deriving DecidableEq, Repr

namespace Filter

/-- The detail of a level that is spelled in letters of either case. -/
def detail? (s : String) : Option Nat :=
  let lower := s.map Char.toLower
  (("off", 0) :: [Level.error, .warn, .info, .debug, .trace].map fun level =>
    (level.name.map Char.toLower, level.detail)).lookup lower

/-- A text without the blanks at its two ends. -/
def trimmed (s : String) : String :=
  String.ofList (Text.trim s.toList)

/-- The directive that a text spells, if it spells one. -/
def directive? (s : String) : Option Directive :=
  match (trimmed s).splitOn "=" with
  | [""] => none
  | [part] => some (((detail? part).map fun n => ⟨none, n⟩).getD ⟨some part, Level.trace.detail⟩)
  | [topic, level] =>
    if trimmed level = "" then some ⟨some topic, Level.trace.detail⟩
    else (detail? (trimmed level)).map fun n => ⟨some topic, n⟩
  | _ => none

/-- Adds a directive, in the place of one for the same topic if there is any. -/
def insert (d : Directive) : List Directive → List Directive
  | [] => [d]
  | e :: es => if e.topic = d.topic then d :: es else e :: insert d es

/-- The directives that a text spells. -/
def directivesOf (s : String) : List Directive :=
  ((s.splitOn ",").filterMap directive?).foldl (fun ds d => insert d ds) []

/-- The filter that a text spells. -/
def ofString (s : String) : Filter :=
  match s.splitOn "/" with
  | [spec] => ⟨directivesOf spec, none⟩
  | [spec, mention] => ⟨directivesOf spec, Pattern.ofString? mention⟩
  | _ => ⟨[], none⟩

/-- The directive that decides about a topic: of the longest ones about it the last one. -/
def deciding? (f : Filter) (topic : String) : Option Directive :=
  (f.directives.filter (·.isAbout topic)).foldl
    (fun best d =>
      match best with
      | none => some d
      | some b => if b.weight ≤ d.weight then some d else some b) none

/-- A notice is shown. -/
def shows (f : Filter) (n : Notice) : Bool :=
  let detail :=
    if f.directives.isEmpty then Level.error.detail
    else ((f.deciding? n.topic).map (·.detail)).getD 0
  decide (n.level.detail ≤ detail) &&
    (f.mention.map fun p => p.occursIn n.message.toList).getD true

end Filter

/-- A notice as a line of a log. -/
def line (n : Notice) : String :=
  let level := n.level.name
  "[" ++ level ++ String.ofList (List.replicate (5 - level.length) ' ') ++ " " ++ n.topic ++ "] " ++
    n.message

end Notice

end Lockstep
