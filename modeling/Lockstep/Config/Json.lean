import Lockstep.Config
import Lockstep.Json.Reader
import Lockstep.Json.Value

/-!
# Configurations in JSON

A configuration is written as an object with all its members.  It is read from an object in which
any of them may be missing except the workload of a core; members of other names are refused at
every level.
-/

namespace Lockstep

/-- The entry of a core in JSON. -/
def CoreConfig.layout : Json.Layout CoreConfig where
  title := "struct CoreConfig"
  strict := true
  members :=
    [.needed "workload" Json.Reader.string fun workload c => { c with workload := workload },
      .defaulted "input_size" (Json.Reader.nullable Json.Reader.count)
        fun inputSize c => { c with inputSize := inputSize },
      .defaulted "events" (Json.Reader.array Json.Reader.string)
        fun events c => { c with events := events }]
  blank := ⟨"", none, []⟩

/-- The entry of a core as a JSON value. -/
def CoreConfig.json (c : CoreConfig) : Json.Value :=
  .object [("workload", .string c.workload),
    ("input_size", (c.inputSize.map fun n => Json.Value.natural n.toNat).getD .null),
    ("events", .array (c.events.map .string))]

/-- The stagger in JSON. -/
def StaggerConfig.layout : Json.Layout StaggerConfig where
  title := "struct StaggerConfig"
  strict := true
  members :=
    [.defaulted "iterations_per_step" Json.Reader.uint64
        fun n c => { c with iterationsPerStep := n },
      .defaulted "offset_step" Json.Reader.uint64 fun n c => { c with offsetStep := n },
      .defaulted "delay_step_countdown" Json.Reader.uint64
        fun n c => { c with delayStepCountdown := n }]
  blank := {}

/-- The stagger as a JSON value. -/
def StaggerConfig.json (c : StaggerConfig) : Json.Value :=
  .object [("iterations_per_step", .natural c.iterationsPerStep.toNat),
    ("offset_step", .natural c.offsetStep.toNat),
    ("delay_step_countdown", .natural c.delayStepCountdown.toNat)]

/-- The names of the cache modes. -/
def CacheMode.named : List (String × CacheMode) :=
  [("none", .none), ("evict", .evict)]

/-- The name of a cache mode. -/
def CacheMode.name : CacheMode → String
  | .none => "none"
  | .evict => "evict"

/-- The conditioning of the caches in JSON. -/
def CacheConfig.layout : Json.Layout CacheConfig where
  title := "struct CacheConfig"
  strict := true
  members :=
    [.defaulted "mode" (Json.Reader.choice CacheMode.named) fun mode c => { c with mode := mode },
      .defaulted "full_bytes" Json.Reader.count fun n c => { c with fullBytes := n },
      .defaulted "private_bytes" Json.Reader.count fun n c => { c with privateBytes := n }]
  blank := {}

/-- The conditioning of the caches as a JSON value. -/
def CacheConfig.json (c : CacheConfig) : Json.Value :=
  .object [("mode", .string c.mode.name), ("full_bytes", .natural c.fullBytes.toNat),
    ("private_bytes", .natural c.privateBytes.toNat)]

namespace Config

/-- A configuration in JSON. -/
def layout : Json.Layout Config where
  title := "struct ExperimentConfig"
  strict := true
  members :=
    [.defaulted "label" Json.Reader.string fun label c => { c with label := label },
      .defaulted "cores" (Json.Reader.array CoreConfig.layout.reader)
        fun cores c => { c with cores := cores },
      .defaulted "counter" Json.Reader.string fun counter c => { c with counter := counter },
      .defaulted "mask_interrupts" Json.Reader.boolean
        fun mask c => { c with maskInterrupts := mask },
      .defaulted "channels" Json.Reader.count fun channels c => { c with channels := channels },
      .defaulted "stagger" StaggerConfig.layout.reader
        fun stagger c => { c with stagger := stagger },
      .defaulted "cache" CacheConfig.layout.reader fun cache c => { c with cache := cache },
      .defaulted "calibrate_countdown" Json.Reader.boolean
        fun calibrate c => { c with calibrateCountdown := calibrate },
      .defaulted "iterations" (Json.Reader.nullable Json.Reader.uint64)
        fun iterations c => { c with iterations := iterations },
      .defaulted "seed" Json.Reader.uint64 fun seed c => { c with seed := seed }]
  blank := {}

/-- Reads a configuration from a JSON text, without checking it. -/
def ofJson (s : String) : Except Json.Failure Config :=
  Json.ofString layout.reader s

/-- A configuration as a JSON value. -/
def json (c : Config) : Json.Value :=
  .object [("label", .string c.label), ("cores", .array (c.cores.map (·.json))),
    ("counter", .string c.counter), ("mask_interrupts", .boolean c.maskInterrupts),
    ("channels", .natural c.channels.toNat), ("stagger", c.stagger.json),
    ("cache", c.cache.json), ("calibrate_countdown", .boolean c.calibrateCountdown),
    ("iterations", (c.iterations.map fun n => Json.Value.natural n.toNat).getD .null),
    ("seed", .natural c.seed.toNat)]

end Config

end Lockstep
