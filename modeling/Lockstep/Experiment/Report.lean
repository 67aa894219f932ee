import Lockstep.Experiment.Basic

/-!
# Reports

An experiment that has ended reports how many iterations each core has completed, or why a core
ended early.  If a core could not be set up, the one that was the first to say so is reported, and
not one that was ready.
-/

namespace Lockstep

/-- What an experiment without failures reports. -/
structure Report where
  /-- The iterations of each core. -/
  completed : List UInt64
  /-- What the leader found out about countdowns. -/
  calibration : List Calibration
  deriving DecidableEq, Repr

namespace Report

/-- How a core has ended. -/
abbrev Outcome : Type := Except Cause (UInt64 × List Calibration)

/-- The report of cores that have ended, counted from the given one, or the first failure. -/
def ofOutcomes : Nat → List Outcome → Except Failure Report
  | _, [] => .ok ⟨[], []⟩
  | core, .ok (completed, rows) :: outcomes => do
    let report ← ofOutcomes (core + 1) outcomes
    return ⟨completed :: report.completed, rows ++ report.calibration⟩
  | core, .error cause :: _ => .error ⟨core, cause⟩

/-- The failure of a core. -/
def failure? (outcomes : List Outcome) (core : Nat) : Option Failure :=
  match outcomes[core]? with
  | some (.error cause) => some ⟨core, cause⟩
  | _ => none

/-- The report of cores that have ended, or the failure of the given core, or else the first
failure. -/
def ofAll (firstFailure : Option Nat) (outcomes : List Outcome) : Except Failure Report :=
  match firstFailure.bind (failure? outcomes) with
  | some failure => .error failure
  | none => ofOutcomes 0 outcomes

end Report

/-- How a core has ended. -/
def Phase.outcome? {P W : Type} : Phase P W → Option Report.Outcome
  | ended outcome => some outcome
  | _ => none

namespace Experiment

variable {plan : Plan} {P W : Type}

/-- What an experiment reports when all cores have ended. -/
def report? (e : Experiment plan P W) : Option (Except Failure Report) :=
  (e.phases.toList.mapM Phase.outcome?).map (Report.ofAll (e.startup.firstFailure.map (·.val)))

end Experiment

end Lockstep
