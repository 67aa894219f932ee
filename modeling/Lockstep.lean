import Lockstep.CommandLine.Outcome
import Lockstep.Counters.Bench
import Lockstep.Experiment.Solo
import Lockstep.Main
import Lockstep.Proofs.Rendezvous.View
import Lockstep.Proofs.Rendezvous.Moves
import Lockstep.Proofs.Rendezvous.Invariant
import Lockstep.Proofs.Rendezvous.Preservation
import Lockstep.Proofs.Rendezvous.Completion
import Lockstep.Proofs.Rendezvous.Safety
import Lockstep.Proofs.Experiment.Blocks
import Lockstep.Proofs.Experiment.Runner
import Lockstep.Proofs.Experiment.Invariant
import Lockstep.Proofs.Experiment.Preservation
import Lockstep.Proofs.Counters.Counted
import Lockstep.Proofs.Bracket
import Lockstep.Proofs.Bracket.Sequence
import Lockstep.Proofs.Bracket.Log
import Lockstep.Proofs.Experiment.Ending
import Lockstep.Proofs.Experiment.Outcome
import Lockstep.Proofs.Experiment.Startup
import Lockstep.Proofs.Experiment.Together
import Lockstep.Proofs.Record.Line
import Lockstep.Proofs.Record.Json
import Lockstep.Proofs.Record.Spellings
import Lockstep.Proofs.Sink.JsonLines
import Lockstep.Proofs.Sink.Recovery
import Lockstep.Proofs.Capture
import Lockstep.Proofs.Capture.Lines
import Lockstep.Proofs.Analysis.Orders
import Lockstep.Proofs.Analysis.LargeCycles
import Lockstep.Proofs.Analysis.Steps
import Lockstep.Proofs.Analysis.Coarsening
import Lockstep.Proofs.Experiment.Validated
import Lockstep.Proofs.Experiment.Opening
import Lockstep.Proofs.Experiment.Retries
import Lockstep.Proofs.Config.Json
import Lockstep.Proofs.Stagger
import Lockstep.Proofs.Cache
import Lockstep.Proofs.Workload.ArrayWalk
import Lockstep.Proofs.Workload.BubbleSort
import Lockstep.Proofs.Workload.MatrixProduct
import Lockstep.Proofs.CommandLine.Override
import Lockstep.Proofs.Rendezvous.Exclusion
import Lockstep.Proofs.Rendezvous.Atomicity
