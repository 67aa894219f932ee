import Lockstep.CommandLine.Measure
import Lockstep.CommandLine.Summarize
import Lockstep.Folder
import Lockstep.Notice.Filter

/-!
# Outcomes

A program that is carried out within a folder leaves an outcome behind: what it has shown and told,
how it has ended, and what is in the folder then.
-/

namespace Lockstep.CommandLine

/-- What a program leaves behind. -/
structure Outcome where
  /-- What it has shown. -/
  output : String
  /-- What it has told beside that. -/
  notices : List Notice
  /-- Why it has failed, if it has. -/
  trouble : Option Trouble
  folder : Folder

/-- The number by which a program tells that it does not begin. -/
def Refusal.status : Refusal → Nat
  | help => 0
  | misuse => misuseStatus

namespace Outcome

/-- The program has shown something, and that is all. -/
def shown (folder : Folder) (text : String) : Outcome :=
  ⟨text, [], none, folder⟩

/-- The program has failed at once. -/
def failed (folder : Folder) (notices : List Notice) (trouble : Trouble) : Outcome :=
  ⟨"", notices, some trouble, folder⟩

/-- The number by which a program tells how it has ended. -/
def status (o : Outcome) : Nat :=
  (o.trouble.map (·.status)).getD 0

/-- The log of a program, of which a filter shows a part.  Its last line tells why it has failed. -/
def log (filter : Notice.Filter) (o : Outcome) : String :=
  String.join ((o.notices.filter filter.shows).map fun n => n.line ++ "\n") ++
    (o.trouble.map fun t => t.line ++ "\n").getD ""

/-- Puts a file into the folder, or fails. -/
def writing (folder : Folder) (notices : List Notice) (path : String) (content : ByteArray)
    (next : Folder → Option Outcome) : Option Outcome :=
  match folder.put path content with
  | .error fault => some (failed folder notices (.file fault))
  | .ok folder => next folder

/-- Summarizes captures. -/
def summarizing (folder : Folder) (args : List String) : Except Refusal (Option Outcome) := do
  let r ← SummaryRequest.ofArguments args
  match r.answer folder.look with
  | .error trouble => return some (failed folder [] trouble)
  | .ok (.shown text) => return some (shown folder text)
  | .ok (.written path content) =>
    return writing folder [] path content.toUTF8 fun folder => some (shown folder "")

/-- Carries an experiment out.  The file for its records is there before it begins. -/
def carryingOut (s : Surroundings) (folder : Folder) (job : Job) : Option Outcome :=
  match job.json with
  | none =>
    (job.findings s.look).map fun found => ⟨"", found.notices, found.trouble, folder⟩
  | some path =>
    writing folder job.openingNotices path ByteArray.empty fun folder => do
      let found ← job.findings s.look
      writing folder found.notices path found.content fun folder =>
        some ⟨"", found.notices, found.trouble, folder⟩

/-- Measures.  There is no outcome if the experiment has no limit. -/
def measuring (s : Surroundings) (folder : Folder) (args : List String) :
    Except Refusal (Option Outcome) := do
  let r ← MeasureRequest.grammar.read args
  match r.begin s with
  | .error trouble => return some (failed folder [] trouble)
  | .ok (.shown text) => return some (shown folder text)
  | .ok (.job job) => return carryingOut s folder job

end Outcome

end Lockstep.CommandLine
