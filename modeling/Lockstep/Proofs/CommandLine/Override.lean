import Lockstep.Proofs.Config.Json
import Lockstep.Proofs.Config.Validation

/-!
# Options above a configuration

The configuration of an experiment is put together from a file and from options.  An option replaces
one member of the configuration, in one of three ways: a value takes the place of the one below it,
a list of workloads takes the place of all cores, and a switch can be turned on but not off.
`MeasureRequest.Overrides` says member by member what comes of it.

The file is checked before the options are put above it, and the whole is checked again.  So a file
that is refused stays refused whatever the options say, and an option that is refused is so above
every file.

What stands above a configuration already changes nothing when it is put above it once more.
Therefore a configuration that was shown can take the place of the file.  The main statement is
`MeasureRequest.plan_overrides`.
-/

namespace Lockstep

/-! ### Known workloads -/

/-- The names of the workloads that are always there. -/
def Registry.builtInNames : List String :=
  ["linear_array_write", "linear_array_read", "random_array_read", "random_array_write", "bsort",
    "matmult", "countdown"]

/-- Which workloads are always there. -/
lemma Registry.contains_builtIn_iff {name : String} :
    builtIn.contains name = true ↔ name ∈ builtInNames := by
  have hnames : builtIn.entries.map (·.1) = builtInNames := rfl
  unfold contains
  rw [← hnames, List.any_eq_true, List.mem_map]
  simp only [beq_iff_eq]

namespace Plan

variable {W : Type} {registry : Registry W} {p : Plan}

/-- No core is found whose workload is not known if all workloads are known. -/
lemma firstUnknown?_eq_none_iff (core : Nat) {cores : List CoreConfig} :
    firstUnknown? registry core cores = none ↔
      ∀ entry ∈ cores, registry.contains entry.workload = true := by
  induction cores generalizing core with
  | nil => exact ⟨fun _ _ h => absurd h List.not_mem_nil, fun _ => rfl⟩
  | cons entry cores ih =>
    unfold firstUnknown?
    rw [List.forall_mem_cons]
    split_ifs with hknown
    · rw [ih]
      exact ⟨fun h => ⟨hknown, h⟩, fun h => h.2⟩
    · exact ⟨nofun, fun h => absurd h.1 hknown⟩

/-- A plan passes if all of its workloads are known. -/
lemma checkWorkloads_eq_ok_iff :
    p.checkWorkloads registry = .ok () ↔
      ∀ entry ∈ p.config.cores, registry.contains entry.workload = true := by
  rw [← firstUnknown?_eq_none_iff 0]
  unfold checkWorkloads
  cases firstUnknown? registry 0 p.config.cores with
  | none => exact ⟨fun _ => rfl, fun _ => rfl⟩
  | some e => exact ⟨nofun, nofun⟩

/-- A plan is its configuration. -/
lemma eq_of_config_eq {q : Plan} (h : p.config = q.config) : p = q := by
  cases p
  cases q
  cases h
  rfl

/-- The plan of a configuration is the one that holds it. -/
lemma ofConfig_eq_ok_iff {c : Config} : ofConfig c = .ok p ↔ p.config = c := by
  unfold ofConfig
  split
  · rename_i hvalid
    rw [Except.ok.injEq]
    exact ⟨fun h => h ▸ rfl, fun h => eq_of_config_eq h.symm⟩
  · rename_i cause hinvalid
    refine ⟨nofun, fun h => ?_⟩
    subst h
    cases hinvalid.symm.trans p.valid

end Plan

/-- A file gives the valid configurations that can be read from its bytes. -/
lemma Config.ofFile_eq_ok_iff {path : String} {file : File} {c : Config} :
    ofFile path file = .ok c ↔
      ∃ bytes, file = .bytes bytes ∧ Json.ofBytes layout.reader bytes = .ok c ∧ c.IsValid := by
  unfold ofFile
  cases file with
  | absent fault => exact ⟨nofun, fun ⟨_, h, _⟩ => nomatch h⟩
  | directory => exact ⟨nofun, fun ⟨_, h, _⟩ => nomatch h⟩
  | bytes bytes =>
    simp only [File.bytes.injEq, exists_eq_left']
    cases Json.ofBytes layout.reader bytes with
    | error failure => exact ⟨nofun, fun h => nomatch h.1⟩
    | ok base =>
      rw [Except.ok.injEq, ← validate_eq_ok_iff]
      dsimp only
      cases hvalid : base.validate with
      | error cause =>
        refine ⟨nofun, ?_⟩
        rintro ⟨rfl, h⟩
        cases hvalid.symm.trans h
      | ok _ =>
        rw [Except.ok.injEq]
        exact ⟨fun h => ⟨h, h ▸ hvalid⟩, fun h => h.1⟩

namespace CommandLine.MeasureRequest

/-! ### What stands above what -/

/-- The value is the one that was given, or else the one below it. -/
def Stands {α : Type} (given : Option α) (below value : α) : Prop :=
  (∀ a, given = some a → value = a) ∧ (given = none → value = below)

/-- Which value stands. -/
lemma stands_iff {α : Type} {given : Option α} {below value : α} :
    Stands given below value ↔ value = given.getD below := by
  unfold Stands
  cases given with
  | none => simp
  | some a => simp

/-- The configuration of the file if one is named, which is valid in itself, and otherwise the
default one. -/
def HasBase (look : String → File) (r : MeasureRequest) (base : Config) : Prop :=
  match r.config with
  | none => base = {}
  | some path => ∃ bytes, look path = .bytes bytes ∧
      Json.ofBytes Config.layout.reader bytes = .ok base ∧ base.IsValid

/-- What comes of a configuration below options. -/
structure Overrides (r : MeasureRequest) (base c : Config) : Prop where
  label : Stands r.label base.label c.label
  counter : Stands r.counter base.counter c.counter
  iterations : Stands (r.iterations.map some) base.iterations c.iterations
  channels : Stands r.channels base.channels c.channels
  seed : Stands r.seed base.seed c.seed
  /-- Workloads that are listed run with their own default sizes, and nothing is counted. -/
  cores_listed : r.workloads ≠ [] → c.cores = r.workloads.map fun name => ⟨name, none, []⟩
  cores_kept : r.workloads = [] → c.cores = base.cores
  maskInterrupts : c.maskInterrupts = true ↔ base.maskInterrupts = true ∨ r.maskInterrupts = true
  calibrateCountdown : c.calibrateCountdown = true ↔
    base.calibrateCountdown = true ∨ r.calibrateCountdown = true
  stagger : c.stagger = base.stagger
  cache : c.cache = base.cache

variable {look : String → File} {r : MeasureRequest} {base c : Config}

/-- All members are overridden as they should be. -/
lemma overrides_override (r : MeasureRequest) (base : Config) :
    r.Overrides base (r.override base) := by
  refine ⟨stands_iff.mpr rfl, stands_iff.mpr rfl, stands_iff.mpr ?_, stands_iff.mpr rfl,
    stands_iff.mpr rfl, fun h => if_neg ?_, fun h => if_pos ?_, Bool.or_eq_true_iff,
    Bool.or_eq_true_iff, rfl, rfl⟩
  · unfold override
    cases r.iterations <;> rfl
  · rwa [List.isEmpty_iff]
  · rwa [List.isEmpty_iff]

/-- Nothing is left open by what is said of the members. -/
lemma Overrides.unique {c' : Config} (h : r.Overrides base c) (h' : r.Overrides base c') :
    c = c' := by
  have hcores : c.cores = c'.cores := by
    by_cases hempty : r.workloads = []
    · exact (h.cores_kept hempty).trans (h'.cores_kept hempty).symm
    · exact (h.cores_listed hempty).trans (h'.cores_listed hempty).symm
  have hmask : c.maskInterrupts = c'.maskInterrupts :=
    Bool.eq_iff_iff.mpr (h.maskInterrupts.trans h'.maskInterrupts.symm)
  have hcalibrate : c.calibrateCountdown = c'.calibrateCountdown :=
    Bool.eq_iff_iff.mpr (h.calibrateCountdown.trans h'.calibrateCountdown.symm)
  cases c
  cases c'
  simp only [Config.mk.injEq]
  exact ⟨(stands_iff.mp h.label).trans (stands_iff.mp h'.label).symm, hcores,
    (stands_iff.mp h.counter).trans (stands_iff.mp h'.counter).symm, hmask,
    (stands_iff.mp h.channels).trans (stands_iff.mp h'.channels).symm,
    h.stagger.trans h'.stagger.symm, h.cache.trans h'.cache.symm, hcalibrate,
    (stands_iff.mp h.iterations).trans (stands_iff.mp h'.iterations).symm,
    (stands_iff.mp h.seed).trans (stands_iff.mp h'.seed).symm⟩

/-- What stands above a configuration stands above what comes of it. -/
lemma Overrides.again (h : r.Overrides base c) : r.Overrides c c := by
  have hstands : ∀ {α : Type} {given : Option α} {below value : α},
      Stands given below value → Stands given value value := fun h => ⟨h.1, fun _ => rfl⟩
  have hswitch : ∀ {a b c : Bool}, (a = true ↔ b = true ∨ c = true) →
      (a = true ↔ a = true ∨ c = true) := by
    intro a b c h
    rw [h, or_assoc, or_self]
  exact ⟨hstands h.label, hstands h.counter, hstands h.iterations, hstands h.channels,
    hstands h.seed, h.cores_listed, fun _ => rfl, hswitch h.maskInterrupts,
    hswitch h.calibrateCountdown, rfl, rfl⟩

/-! ### Plans -/

/-- Where the configuration below the options comes from. -/
lemma baseConfig_eq_ok_iff : r.baseConfig look = .ok base ↔ r.HasBase look base := by
  unfold baseConfig HasBase
  cases r.config with
  | none => rw [Except.ok.injEq, eq_comm]
  | some path => exact mapError_eq_ok.trans Config.ofFile_eq_ok_iff

/-- The plan that a request comes to, if it comes to one. -/
lemma plan_eq_ok_iff {p : Plan} :
    r.plan look = .ok p ↔ ∃ base, r.HasBase look base ∧ r.Overrides base p.config ∧
      ∀ core ∈ p.config.cores, core.workload ∈ Registry.builtInNames := by
  have hknown : ∀ q : Plan, q.checkWorkloads Registry.builtIn = .ok () ↔
      ∀ core ∈ q.config.cores, core.workload ∈ Registry.builtInNames := by
    intro q
    simp only [Plan.checkWorkloads_eq_ok_iff, Registry.contains_builtIn_iff]
  constructor
  · intro h
    obtain ⟨base, hbase, h⟩ := bind_eq_ok.mp h
    obtain ⟨q, hq, h⟩ := bind_eq_ok.mp h
    rw [mapError_eq_ok, Plan.ofConfig_eq_ok_iff] at hq
    split at h
    · rename_i hcheck
      obtain rfl := Except.ok.inj h
      exact ⟨base, baseConfig_eq_ok_iff.mp hbase, hq ▸ r.overrides_override base,
        (hknown q).mp hcheck⟩
    · cases h
  · rintro ⟨base, hbase, hoverrides, hnames⟩
    have hconfig : p.config = r.override base :=
      hoverrides.unique (r.overrides_override base)
    refine bind_eq_ok.mpr ⟨base, baseConfig_eq_ok_iff.mpr hbase, bind_eq_ok.mpr ⟨p, ?_, ?_⟩⟩
    · exact mapError_eq_ok.mpr (Plan.ofConfig_eq_ok_iff.mpr hconfig)
    · rw [(hknown p).mpr hnames]
      rfl

/-- A plan that was shown can take the place of the file. -/
lemma plan_of_shown {p : Plan} (h : r.plan look = .ok p) {look' : String → File} {path : String}
    (hlook : look' path = .bytes (p.config.json.prettyText ++ "\n").toUTF8) :
    ({ r with config := some path } : MeasureRequest).plan look' = .ok p := by
  obtain ⟨base, -, hoverrides, hknown⟩ := plan_eq_ok_iff.mp h
  obtain ⟨bytes, hbytes, hread, hvalid⟩ :=
    Config.ofFile_eq_ok_iff.mp (Config.ofFile_shown p.valid path)
  obtain ⟨hlabel, hcounter, hiterations, hchannels, hseed, hlisted, hkept, hmask, hcalibrate,
    hstagger, hcache⟩ := hoverrides.again
  refine plan_eq_ok_iff.mpr ⟨p.config, ⟨bytes, hlook.trans hbytes, hread, hvalid⟩, ?_, hknown⟩
  exact ⟨hlabel, hcounter, hiterations, hchannels, hseed, hlisted, hkept, hmask, hcalibrate,
    hstagger, hcache⟩

/-- **Options stand above a configuration.**  A request comes to a configuration if and only if the
file that it names, if any, gives one that is valid in itself, and what comes of that one (or of the
default one) below the options is valid and has workloads only that are always there; and that is
the configuration.  What is shown of it can be put into a file, and the same options above this file
come to the same again. -/
theorem plan_overrides (look : String → File) (r : MeasureRequest) :
    (∀ c : Config, (∃ p, r.plan look = .ok p ∧ p.config = c) ↔
      ∃ base, r.HasBase look base ∧ r.Overrides base c ∧ c.IsValid ∧
        ∀ core ∈ c.cores, core.workload ∈ Registry.builtInNames) ∧
    ∀ p, r.plan look = .ok p →
      (∀ s : Surroundings, s.look = look →
        ({ r with printConfig := true, listWorkloads := false } : MeasureRequest).begin s =
          .ok (.shown (p.config.json.prettyText ++ "\n"))) ∧
      ∀ (look' : String → File) (path : String),
        look' path = .bytes (p.config.json.prettyText ++ "\n").toUTF8 →
        ({ r with config := some path } : MeasureRequest).plan look' = .ok p := by
  refine ⟨fun c => ⟨?_, ?_⟩, fun p hp => ⟨?_, fun _ _ => plan_of_shown hp⟩⟩
  · rintro ⟨p, hp, rfl⟩
    obtain ⟨base, hbase, hoverrides, hknown⟩ := plan_eq_ok_iff.mp hp
    exact ⟨base, hbase, hoverrides, Config.validate_eq_ok_iff.mp p.valid, hknown⟩
  · rintro ⟨base, hbase, hoverrides, hvalid, hknown⟩
    exact ⟨⟨c, Config.validate_eq_ok_iff.mpr hvalid⟩,
      plan_eq_ok_iff.mpr ⟨base, hbase, hoverrides, hknown⟩, rfl⟩
  · rintro s rfl
    unfold begin
    have hplan : ({ r with printConfig := true, listWorkloads := false } : MeasureRequest).plan
        s.look = .ok p := hp
    rw [hplan]
    rfl

/-- A configuration of two cores with an input size, an event and masked interrupts. -/
def weekly : Config where
  label := "weekly"
  cores := [⟨"bsort", some 64, ["0x11"]⟩, ⟨"matmult", none, []⟩]
  maskInterrupts := true
  stagger := { offsetStep := 2 }
  seed := 5

/-- A file with this configuration is found under every path. -/
def weeklyFiles (_path : String) : File :=
  .bytes (weekly.json.prettyText ++ "\n").toUTF8

/-- Three other workloads for three iterations, above the configuration in a file. -/
def hurried : MeasureRequest where
  config := some "weekly.json"
  workloads := ["countdown", "bsort", "countdown"]
  iterations := some 3
  calibrateCountdown := true

/-- What the request comes to. -/
def hurriedWeekly : Config where
  label := "weekly"
  cores := [⟨"countdown", none, []⟩, ⟨"bsort", none, []⟩, ⟨"countdown", none, []⟩]
  maskInterrupts := true
  stagger := { offsetStep := 2 }
  calibrateCountdown := true
  iterations := some 3
  seed := 5

/-- A file of another configuration and what was shown of this one come to the same. -/
theorem plan_overrides_of_hurried :
    hurried.HasBase weeklyFiles weekly ∧ hurried.Overrides weekly hurriedWeekly ∧
    hurriedWeekly.IsValid ∧ (∀ core ∈ hurriedWeekly.cores, core.workload ∈ Registry.builtInNames) ∧
    ∃ p, hurried.plan weeklyFiles = .ok p ∧ p.config = hurriedWeekly ∧
      ({ hurried with config := some "shown.json" } : MeasureRequest).plan
        (fun _ => .bytes (hurriedWeekly.json.prettyText ++ "\n").toUTF8) = .ok p := by
  have hbase : hurried.HasBase weeklyFiles weekly :=
    Config.ofFile_eq_ok_iff.mp (Config.ofFile_shown (by decide +kernel) "weekly.json")
  have hoverrides : hurried.Overrides weekly hurriedWeekly := hurried.overrides_override weekly
  have hvalid : hurriedWeekly.IsValid := Config.validate_eq_ok_iff.mp (by decide +kernel)
  have hknown : ∀ core ∈ hurriedWeekly.cores, core.workload ∈ Registry.builtInNames := by decide
  obtain ⟨hplan, hagain⟩ := plan_overrides weeklyFiles hurried
  obtain ⟨p, hp, hconfig⟩ := (hplan hurriedWeekly).mpr ⟨weekly, hbase, hoverrides, hvalid, hknown⟩
  have hlook : File.bytes (hurriedWeekly.json.prettyText ++ "\n").toUTF8 =
      .bytes (p.config.json.prettyText ++ "\n").toUTF8 := by rw [hconfig]
  exact ⟨hbase, hoverrides, hvalid, hknown, p, hp, hconfig, (hagain p hp).2 _ "shown.json" hlook⟩

end CommandLine.MeasureRequest

end Lockstep
