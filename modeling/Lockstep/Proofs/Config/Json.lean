import Lockstep.CommandLine.Measure
import Lockstep.Proofs.Json.Arrangement
import Lockstep.Proofs.Json.Bytes

/-!
# Configurations read from JSON

Whoever writes a configuration by hand leaves out what is as usual and takes the members in any
order.  What is left out has its default, and a structure within the configuration has its own
defaults: `Config.Layers.meant` says which configuration is meant.  A member of another name is a
mistake, wherever it stands, and the configuration is refused then.

The main statement, `Config.ofJson_arranged`, is about all texts of all such objects.  In particular
a configuration that was shown by the program can be put into a file and is read from there again.
-/

namespace Lockstep

open Json (Reads Refuses IsDecided Arrangement)

/-! ### Cores -/

namespace CoreConfig

/-- A member of the entry of a core. -/
inductive Field where
  | workload
  | inputSize
  | events
  deriving DecidableEq, Repr

/-- The entry with those of its members replaced that are taken from another one. -/
def taking (d : CoreConfig) (fields : List Field) (c : CoreConfig) : CoreConfig where
  workload := if .workload ∈ fields then c.workload else d.workload
  inputSize := if .inputSize ∈ fields then c.inputSize else d.inputSize
  events := if .events ∈ fields then c.events else d.events

namespace Field

/-- How the member is called. -/
def name : Field → String
  | workload => "workload"
  | inputSize => "input_size"
  | events => "events"

/-- What the member holds. -/
def value (c : CoreConfig) : Field → Json.Value
  | workload => .string c.workload
  | inputSize => (c.inputSize.map fun n => Json.Value.natural n.toNat).getD .null
  | events => .array (c.events.map .string)

/-- What the layout says about the member. -/
def declared : Field → Json.Member CoreConfig
  | workload => layout.members.get ⟨0, by decide⟩
  | inputSize => layout.members.get ⟨1, by decide⟩
  | events => layout.members.get ⟨2, by decide⟩

/-- Takes the member from another entry. -/
def put (c : CoreConfig) : Field → CoreConfig → CoreConfig
  | workload, d => { d with workload := c.workload }
  | inputSize, d => { d with inputSize := c.inputSize }
  | events, d => { d with events := c.events }

/-- Each member is read back. -/
lemma reads_value (c : CoreConfig) (f : Field) :
    (f.value c).IsExact ∧ Reads f.declared.read (f.value c) (f.put c) := by
  cases f with
  | workload => exact ⟨trivial, (Json.reads_string c.workload).needed _ _⟩
  | inputSize =>
    exact ⟨Json.isExact_nullable c.inputSize,
      (Json.reads_nullable Json.reads_count c.inputSize).defaulted _ _⟩
  | events => exact ⟨Json.isExact_strings c.events, (Json.reads_strings c.events).defaulted _ _⟩

end Field

/-- The fields of the entry of a core in JSON. -/
def fields : Json.Fields layout Field where
  all := [.workload, .inputSize, .events]
  name := Field.name
  declared := Field.declared
  put := Field.put
  taking := taking
  mem_all f := by cases f <;> decide
  strict := rfl
  members_eq := rfl
  name_eq f := by cases f <;> rfl
  nodup := by decide
  taking_nil _ _ := rfl
  taking_cons _ _ f _ := by cases f <;> simp [taking, Field.put]

/-- An arrangement of the entry of a core that names its workload is read if nothing was added. -/
lemma reads_arranged {A : Arrangement Field.name} (hworkload : .workload ∈ A.fields)
    (hpure : ¬ A.HasStray) (c : CoreConfig) :
    (A.object (Field.value c)).IsExact ∧
      Reads layout.reader (A.object (Field.value c)) (layout.blank.taking A.fields c) :=
  fields.reads_arranged hpure (fun f _ => f.reads_value c) fun f hf => by
    cases f with
    | workload => exact hworkload
    | _ => cases hf

end CoreConfig

/-! ### The stagger -/

namespace StaggerConfig

/-- A member of the stagger. -/
inductive Field where
  | iterationsPerStep
  | offsetStep
  | delayStepCountdown
  deriving DecidableEq, Repr

/-- The stagger with those of its members replaced that are taken from another one. -/
def taking (d : StaggerConfig) (fields : List Field) (c : StaggerConfig) : StaggerConfig where
  iterationsPerStep :=
    if .iterationsPerStep ∈ fields then c.iterationsPerStep else d.iterationsPerStep
  offsetStep := if .offsetStep ∈ fields then c.offsetStep else d.offsetStep
  delayStepCountdown :=
    if .delayStepCountdown ∈ fields then c.delayStepCountdown else d.delayStepCountdown

namespace Field

/-- How the member is called. -/
def name : Field → String
  | iterationsPerStep => "iterations_per_step"
  | offsetStep => "offset_step"
  | delayStepCountdown => "delay_step_countdown"

/-- What the member holds. -/
def value (c : StaggerConfig) : Field → Json.Value
  | iterationsPerStep => .natural c.iterationsPerStep.toNat
  | offsetStep => .natural c.offsetStep.toNat
  | delayStepCountdown => .natural c.delayStepCountdown.toNat

/-- What the layout says about the member. -/
def declared : Field → Json.Member StaggerConfig
  | iterationsPerStep => layout.members.get ⟨0, by decide⟩
  | offsetStep => layout.members.get ⟨1, by decide⟩
  | delayStepCountdown => layout.members.get ⟨2, by decide⟩

/-- Takes the member from another stagger. -/
def put (c : StaggerConfig) : Field → StaggerConfig → StaggerConfig
  | iterationsPerStep, d => { d with iterationsPerStep := c.iterationsPerStep }
  | offsetStep, d => { d with offsetStep := c.offsetStep }
  | delayStepCountdown, d => { d with delayStepCountdown := c.delayStepCountdown }

/-- Each member is read back. -/
lemma reads_value (c : StaggerConfig) (f : Field) :
    (f.value c).IsExact ∧ Reads f.declared.read (f.value c) (f.put c) := by
  cases f with
  | iterationsPerStep => exact ⟨trivial, (Json.reads_uint64 c.iterationsPerStep).defaulted _ _⟩
  | offsetStep => exact ⟨trivial, (Json.reads_uint64 c.offsetStep).defaulted _ _⟩
  | delayStepCountdown => exact ⟨trivial, (Json.reads_uint64 c.delayStepCountdown).defaulted _ _⟩

end Field

/-- The fields of the stagger in JSON. -/
def fields : Json.Fields layout Field where
  all := [.iterationsPerStep, .offsetStep, .delayStepCountdown]
  name := Field.name
  declared := Field.declared
  put := Field.put
  taking := taking
  mem_all f := by cases f <;> decide
  strict := rfl
  members_eq := rfl
  name_eq f := by cases f <;> rfl
  nodup := by decide
  taking_nil _ _ := rfl
  taking_cons _ _ f _ := by cases f <;> simp [taking, Field.put]

end StaggerConfig

/-! ### The conditioning of the caches -/

namespace CacheConfig

/-- A member of the conditioning of the caches. -/
inductive Field where
  | mode
  | fullBytes
  | privateBytes
  deriving DecidableEq, Repr

/-- The conditioning with those of its members replaced that are taken from another one. -/
def taking (d : CacheConfig) (fields : List Field) (c : CacheConfig) : CacheConfig where
  mode := if .mode ∈ fields then c.mode else d.mode
  fullBytes := if .fullBytes ∈ fields then c.fullBytes else d.fullBytes
  privateBytes := if .privateBytes ∈ fields then c.privateBytes else d.privateBytes

namespace Field

/-- How the member is called. -/
def name : Field → String
  | mode => "mode"
  | fullBytes => "full_bytes"
  | privateBytes => "private_bytes"

/-- What the member holds. -/
def value (c : CacheConfig) : Field → Json.Value
  | mode => .string c.mode.name
  | fullBytes => .natural c.fullBytes.toNat
  | privateBytes => .natural c.privateBytes.toNat

/-- What the layout says about the member. -/
def declared : Field → Json.Member CacheConfig
  | mode => layout.members.get ⟨0, by decide⟩
  | fullBytes => layout.members.get ⟨1, by decide⟩
  | privateBytes => layout.members.get ⟨2, by decide⟩

/-- Takes the member from another conditioning. -/
def put (c : CacheConfig) : Field → CacheConfig → CacheConfig
  | mode, d => { d with mode := c.mode }
  | fullBytes, d => { d with fullBytes := c.fullBytes }
  | privateBytes, d => { d with privateBytes := c.privateBytes }

/-- Each member is read back. -/
lemma reads_value (c : CacheConfig) (f : Field) :
    (f.value c).IsExact ∧ Reads f.declared.read (f.value c) (f.put c) := by
  have hmode : CacheMode.named.lookup c.mode.name = some c.mode := by
    cases c.mode <;> rfl
  cases f with
  | mode => exact ⟨trivial, (Json.reads_choice hmode).defaulted _ _⟩
  | fullBytes => exact ⟨trivial, (Json.reads_count c.fullBytes).defaulted _ _⟩
  | privateBytes => exact ⟨trivial, (Json.reads_count c.privateBytes).defaulted _ _⟩

end Field

/-- The fields of the conditioning of the caches in JSON. -/
def fields : Json.Fields layout Field where
  all := [.mode, .fullBytes, .privateBytes]
  name := Field.name
  declared := Field.declared
  put := Field.put
  taking := taking
  mem_all f := by cases f <;> decide
  strict := rfl
  members_eq := rfl
  name_eq f := by cases f <;> rfl
  nodup := by decide
  taking_nil _ _ := rfl
  taking_cons _ _ f _ := by cases f <;> simp [taking, Field.put]

end CacheConfig

/-! ### Configurations -/

namespace Config

/-- A member of a configuration. -/
inductive Field where
  | label
  | cores
  | counter
  | maskInterrupts
  | channels
  | stagger
  | cache
  | calibrateCountdown
  | iterations
  | seed
  deriving DecidableEq, Repr

/-- The configuration with those of its members replaced that are taken from another one. -/
def taking (d : Config) (fields : List Field) (c : Config) : Config where
  label := if .label ∈ fields then c.label else d.label
  cores := if .cores ∈ fields then c.cores else d.cores
  counter := if .counter ∈ fields then c.counter else d.counter
  maskInterrupts := if .maskInterrupts ∈ fields then c.maskInterrupts else d.maskInterrupts
  channels := if .channels ∈ fields then c.channels else d.channels
  stagger := if .stagger ∈ fields then c.stagger else d.stagger
  cache := if .cache ∈ fields then c.cache else d.cache
  calibrateCountdown :=
    if .calibrateCountdown ∈ fields then c.calibrateCountdown else d.calibrateCountdown
  iterations := if .iterations ∈ fields then c.iterations else d.iterations
  seed := if .seed ∈ fields then c.seed else d.seed

namespace Field

/-- How the member is called. -/
def name : Field → String
  | label => "label"
  | cores => "cores"
  | counter => "counter"
  | maskInterrupts => "mask_interrupts"
  | channels => "channels"
  | stagger => "stagger"
  | cache => "cache"
  | calibrateCountdown => "calibrate_countdown"
  | iterations => "iterations"
  | seed => "seed"

/-- What the layout says about the member. -/
def declared : Field → Json.Member Config
  | label => layout.members.get ⟨0, by decide⟩
  | cores => layout.members.get ⟨1, by decide⟩
  | counter => layout.members.get ⟨2, by decide⟩
  | maskInterrupts => layout.members.get ⟨3, by decide⟩
  | channels => layout.members.get ⟨4, by decide⟩
  | stagger => layout.members.get ⟨5, by decide⟩
  | cache => layout.members.get ⟨6, by decide⟩
  | calibrateCountdown => layout.members.get ⟨7, by decide⟩
  | iterations => layout.members.get ⟨8, by decide⟩
  | seed => layout.members.get ⟨9, by decide⟩

/-- Takes the member from another configuration. -/
def put (c : Config) : Field → Config → Config
  | label, d => { d with label := c.label }
  | cores, d => { d with cores := c.cores }
  | counter, d => { d with counter := c.counter }
  | maskInterrupts, d => { d with maskInterrupts := c.maskInterrupts }
  | channels, d => { d with channels := c.channels }
  | stagger, d => { d with stagger := c.stagger }
  | cache, d => { d with cache := c.cache }
  | calibrateCountdown, d => { d with calibrateCountdown := c.calibrateCountdown }
  | iterations, d => { d with iterations := c.iterations }
  | seed, d => { d with seed := c.seed }

end Field

/-- The fields of a configuration in JSON. -/
def fields : Json.Fields layout Field where
  all :=
    [.label, .cores, .counter, .maskInterrupts, .channels, .stagger, .cache, .calibrateCountdown,
      .iterations, .seed]
  name := Field.name
  declared := Field.declared
  put := Field.put
  taking := taking
  mem_all f := by cases f <;> decide
  strict := rfl
  members_eq := rfl
  name_eq f := by cases f <;> rfl
  nodup := by decide
  taking_nil _ _ := rfl
  taking_cons _ _ f _ := by cases f <;> simp [taking, Field.put]

/-- How a configuration is arranged: the members of the configuration itself, of the entries of the
cores, each of which names its workload, and of the structures within. -/
structure Layers where
  top : Arrangement Field.name
  core : Nat → Arrangement CoreConfig.Field.name
  stagger : Arrangement StaggerConfig.Field.name
  cache : Arrangement CacheConfig.Field.name
  workload_mem : ∀ i, .workload ∈ (core i).fields

namespace Field

variable (L : Layers) (c : Config)

/-- What the member holds. -/
def value : Field → Json.Value
  | label => .string c.label
  | cores => .array (c.cores.mapIdx fun i core => (L.core i).object (CoreConfig.Field.value core))
  | counter => .string c.counter
  | maskInterrupts => .boolean c.maskInterrupts
  | channels => .natural c.channels.toNat
  | stagger => L.stagger.object (StaggerConfig.Field.value c.stagger)
  | cache => L.cache.object (CacheConfig.Field.value c.cache)
  | calibrateCountdown => .boolean c.calibrateCountdown
  | iterations => (c.iterations.map fun n => Json.Value.natural n.toNat).getD .null
  | seed => .natural c.seed.toNat

/-- Something was added to a structure that the member holds. -/
def IsSpoilt : Field → Prop
  | cores => ∃ i < c.cores.length, (L.core i).HasStray
  | stagger => L.stagger.HasStray
  | cache => L.cache.HasStray
  | _ => False

end Field

namespace Layers

/-- The object in which a configuration is arranged. -/
def object (L : Layers) (c : Config) : Json.Value :=
  L.top.object (Field.value L c)

/-- Something was added, to the configuration or to a structure within. -/
def HasStray (L : Layers) (c : Config) : Prop :=
  L.top.HasStray ∨ ∃ f ∈ L.top.fields, f.IsSpoilt L c

/-- The configuration with the structures within as they are read: what they leave out is as it is
in a structure of that kind of its own. -/
def inner (L : Layers) (c : Config) : Config :=
  { c with
    cores := c.cores.mapIdx fun i core =>
      (⟨"", none, []⟩ : CoreConfig).taking (L.core i).fields core
    stagger := ({} : StaggerConfig).taking L.stagger.fields c.stagger
    cache := ({} : CacheConfig).taking L.cache.fields c.cache }

/-- The configuration that is meant: what is left out is as it is in the default configuration. -/
def meant (L : Layers) (c : Config) : Config :=
  ({} : Config).taking L.top.fields (L.inner c)

/-- Nothing is left out. -/
structure IsComplete (L : Layers) : Prop where
  top : ∀ f, f ∈ L.top.fields
  core : ∀ i f, f ∈ (L.core i).fields
  stagger : ∀ f, f ∈ L.stagger.fields
  cache : ∀ f, f ∈ L.cache.fields

/-- If nothing is left out the configuration is meant as it is. -/
theorem IsComplete.meant_eq {L : Layers} (h : L.IsComplete) (c : Config) : L.meant c = c := by
  have hcores : (c.cores.mapIdx fun i core =>
      (⟨"", none, []⟩ : CoreConfig).taking (L.core i).fields core) = c.cores := by
    refine List.ext_getElem (List.length_mapIdx ..) fun i _ _ => ?_
    rw [List.getElem_mapIdx]
    simp [CoreConfig.taking, h.core]
  simp [meant, inner, taking, StaggerConfig.taking, CacheConfig.taking, h.top, h.stagger, h.cache,
    hcores]

end Layers

namespace Field

/-- The entries of the cores are read if nothing was added to them. -/
lemma reads_cores (L : Layers) (cores : List CoreConfig)
    (hpure : ∀ i < cores.length, ¬ (L.core i).HasStray) :
    (Json.Value.array (cores.mapIdx fun i core =>
        (L.core i).object (CoreConfig.Field.value core))).IsExact ∧
      Reads (Json.Reader.array CoreConfig.layout.reader)
        (.array (cores.mapIdx fun i core => (L.core i).object (CoreConfig.Field.value core)))
        (cores.mapIdx fun i core =>
          (⟨"", none, []⟩ : CoreConfig).taking (L.core i).fields core) := by
  have hcore := fun i hi => CoreConfig.reads_arranged (L.workload_mem i) (hpure i hi)
  have hexact : (Json.Value.array (cores.mapIdx fun i core =>
      (L.core i).object (CoreConfig.Field.value core))).IsExact := by
    refine Json.Value.allExact_iff.mpr fun v hv => ?_
    obtain ⟨i, hi, rfl⟩ := List.mem_mapIdx.mp hv
    exact (hcore i hi _).1
  refine ⟨hexact, Json.reads_array ?_ (Json.Value.allExact_iff.mp hexact)⟩
  refine List.forall₂_iff_get.mpr ⟨by simp, fun i hi _ => ?_⟩
  rw [List.length_mapIdx] at hi
  rw [List.get_eq_getElem, List.get_eq_getElem, List.getElem_mapIdx, List.getElem_mapIdx]
  exact (hcore i hi _).2

/-- The entries of the cores are refused if something was added to one of them. -/
lemma refuses_cores (L : Layers) (cores : List CoreConfig)
    (hstray : ∃ i < cores.length, (L.core i).HasStray) :
    Refuses (Json.Reader.array CoreConfig.layout.reader)
      (.array (cores.mapIdx fun i core => (L.core i).object (CoreConfig.Field.value core))) := by
  refine Json.refuses_array (fun v hv => ?_) (fun v hv => ?_) ?_
  · obtain ⟨i, hi, rfl⟩ := List.mem_mapIdx.mp hv
    exact ⟨_, rfl⟩
  · obtain ⟨i, hi, rfl⟩ := List.mem_mapIdx.mp hv
    by_cases hcore : (L.core i).HasStray
    · exact Or.inr (CoreConfig.fields.refuses_arranged hcore (CoreConfig.Field.reads_value _))
    · obtain ⟨hexact, hreads⟩ := CoreConfig.reads_arranged (L.workload_mem i) hcore cores[i]
      exact Or.inl ⟨hexact, _, hreads⟩
  · obtain ⟨i, hi, hcore⟩ := hstray
    exact ⟨_, List.mem_mapIdx.mpr ⟨i, hi, rfl⟩,
      CoreConfig.fields.refuses_arranged hcore (CoreConfig.Field.reads_value _)⟩

variable {L : Layers} {c : Config} {f : Field}

/-- A member is read if nothing was added to what it holds. -/
lemma reads_value (hpure : ¬ f.IsSpoilt L c) :
    (f.value L c).IsExact ∧ Reads f.declared.read (f.value L c) (f.put (L.inner c)) := by
  cases f with
  | label => exact ⟨trivial, (Json.reads_string c.label).defaulted _ _⟩
  | cores =>
    obtain ⟨hexact, hreads⟩ := reads_cores L c.cores fun i hi hstray => hpure ⟨i, hi, hstray⟩
    exact ⟨hexact, hreads.defaulted _ _⟩
  | counter => exact ⟨trivial, (Json.reads_string c.counter).defaulted _ _⟩
  | maskInterrupts => exact ⟨trivial, (Json.reads_boolean c.maskInterrupts).defaulted _ _⟩
  | channels => exact ⟨trivial, (Json.reads_count c.channels).defaulted _ _⟩
  | stagger =>
    obtain ⟨hexact, hreads⟩ := StaggerConfig.fields.reads_arranged hpure
      (fun f _ => StaggerConfig.Field.reads_value c.stagger f) fun f hf => by cases f <;> cases hf
    exact ⟨hexact, hreads.defaulted _ _⟩
  | cache =>
    obtain ⟨hexact, hreads⟩ := CacheConfig.fields.reads_arranged hpure
      (fun f _ => CacheConfig.Field.reads_value c.cache f) fun f hf => by cases f <;> cases hf
    exact ⟨hexact, hreads.defaulted _ _⟩
  | calibrateCountdown =>
    exact ⟨trivial, (Json.reads_boolean c.calibrateCountdown).defaulted _ _⟩
  | iterations =>
    exact ⟨Json.isExact_nullable c.iterations,
      (Json.reads_nullable Json.reads_uint64 c.iterations).defaulted _ _⟩
  | seed => exact ⟨trivial, (Json.reads_uint64 c.seed).defaulted _ _⟩

/-- A member is refused if something was added to what it holds. -/
lemma refuses_value (hspoilt : f.IsSpoilt L c) : Refuses f.declared.read (f.value L c) := by
  cases f with
  | cores => exact (refuses_cores L c.cores hspoilt).defaulted _ _
  | stagger =>
    have hrefuses := StaggerConfig.fields.refuses_arranged hspoilt
      (StaggerConfig.Field.reads_value c.stagger)
    exact hrefuses.defaulted _ _
  | cache =>
    have hrefuses := CacheConfig.fields.refuses_arranged hspoilt
      (CacheConfig.Field.reads_value c.cache)
    exact hrefuses.defaulted _ _
  | _ => exact absurd hspoilt id

end Field

namespace Layers

variable {L : Layers} {c : Config}

/-- A configuration is read as it is meant if nothing was added. -/
lemma reads_object (hpure : ¬ L.HasStray c) :
    (L.object c).IsExact ∧ Reads layout.reader (L.object c) (L.meant c) := by
  have hfields : ∀ f ∈ L.top.fields, ¬ f.IsSpoilt L c :=
    fun f hf hspoilt => hpure (Or.inr ⟨f, hf, hspoilt⟩)
  have htop : ¬ L.top.HasStray := fun hstray => hpure (Or.inl hstray)
  exact fields.reads_arranged htop (fun f hf => Field.reads_value (hfields f hf))
    fun f hf => by cases f <;> cases hf

/-- A configuration is refused if something was added. -/
lemma refuses_object (hstray : L.HasStray c) : Refuses layout.reader (L.object c) := by
  have hdecided : ∀ f : Field, IsDecided f.declared.read (f.value L c) := by
    intro f
    by_cases hspoilt : f.IsSpoilt L c
    · exact Or.inr (Field.refuses_value hspoilt)
    · obtain ⟨hexact, hreads⟩ := Field.reads_value hspoilt
      exact Or.inl ⟨hexact, _, hreads⟩
  refine L.top.refuses_object fields.declares (fun f _ => hdecided f) ?_
  rcases hstray with hstray | ⟨f, hf, hspoilt⟩
  · exact Or.inl hstray
  · exact Or.inr ⟨f, hf, Field.refuses_value hspoilt⟩

/-- Nothing was added if nothing was added at any level. -/
lemma not_hasStray (htop : ¬ L.top.HasStray) (hcore : ∀ i, ¬ (L.core i).HasStray)
    (hstagger : ¬ L.stagger.HasStray) (hcache : ¬ L.cache.HasStray) : ¬ L.HasStray c := by
  rintro (hstray | ⟨f, -, hspoilt⟩)
  · exact htop hstray
  · cases f with
    | cores =>
      obtain ⟨i, -, hstray⟩ := hspoilt
      exact hcore i hstray
    | stagger => exact hstagger hspoilt
    | cache => exact hcache hspoilt
    | _ => exact hspoilt

/-- All members in the order of their declaration. -/
def inOrder : Layers where
  top := fields.inOrder
  core := fun _ => CoreConfig.fields.inOrder
  stagger := StaggerConfig.fields.inOrder
  cache := CacheConfig.fields.inOrder
  workload_mem := fun _ => CoreConfig.fields.mem_inOrder _

/-- Nothing is left out of them. -/
lemma isComplete_inOrder : inOrder.IsComplete where
  top := fields.mem_inOrder
  core := fun _ => CoreConfig.fields.mem_inOrder
  stagger := StaggerConfig.fields.mem_inOrder
  cache := CacheConfig.fields.mem_inOrder

/-- Nothing is added to them. -/
lemma not_hasStray_inOrder (c : Config) : ¬ inOrder.HasStray c :=
  not_hasStray fields.not_hasStray_inOrder (fun _ => CoreConfig.fields.not_hasStray_inOrder)
    StaggerConfig.fields.not_hasStray_inOrder CacheConfig.fields.not_hasStray_inOrder

/-- A configuration is written in this way. -/
lemma object_inOrder (c : Config) : inOrder.object c = c.json := by
  have hcores : (c.cores.mapIdx fun i core =>
      (inOrder.core i).object (CoreConfig.Field.value core)) = c.cores.map (·.json) := by
    refine List.ext_getElem (by simp) fun i _ _ => ?_
    rw [List.getElem_mapIdx, List.getElem_map]
    rfl
  change Json.Value.object [_, ("cores", .array (c.cores.mapIdx fun i core =>
    (inOrder.core i).object (CoreConfig.Field.value core))), _, _, _, _, _, _, _, _] = _
  rw [hcores]
  rfl

end Layers

/-! ### Texts of configurations -/

/-- A text of an arranged configuration is read as the configuration is meant, unless something was
added. -/
theorem ofJson_of_isText {L : Layers} {c : Config} {text : String}
    (htext : (L.object c).IsText text.toList) (hpure : ¬ L.HasStray c) :
    ofJson text = .ok (L.meant c) := by
  obtain ⟨hexact, hreads⟩ := Layers.reads_object hpure
  exact hreads.ofText hexact htext

/-- The text over several lines, and the end of the last line, are a text of the configuration. -/
lemma isText_shown (c : Config) :
    (Layers.inOrder.object c).IsText (c.json.prettyText ++ "\n").toList := by
  have htext := Json.Value.IsText.mk Json.isGap_nil (Json.Value.spells_pretty 0 c.json)
    (Json.isGap_newLine 0)
  rw [Layers.object_inOrder, String.toList_append, Json.Value.prettyText, String.toList_ofList]
  exact htext

/-- A configuration that was shown is read from a file that holds what was shown. -/
theorem ofFile_shown {c : Config} (hvalid : c.validate = .ok ()) (path : String) :
    ofFile path (.bytes (c.json.prettyText ++ "\n").toUTF8) = .ok c := by
  have hread : ofJson (c.json.prettyText ++ "\n") = .ok c := by
    have hmeant := ofJson_of_isText (isText_shown c) (Layers.not_hasStray_inOrder c)
    rwa [Layers.isComplete_inOrder.meant_eq] at hmeant
  simp only [ofFile, Json.ofBytes_toUTF8, show Json.ofString layout.reader _ = _ from hread,
    hvalid]

/-- **A configuration is read from each text in which it is arranged**, with everything that was
left out as it is by default, and it is refused if anything was added to it or within it.  If
nothing is left out it is read as it is.  So what is shown of a valid configuration is read from a
file again, and that is what a request to show it is answered with. -/
theorem ofJson_arranged (c : Config) :
    (∀ (L : Layers) (text : String), (L.object c).IsText text.toList →
      (¬ L.HasStray c → ofJson text = .ok (L.meant c)) ∧
      (L.HasStray c → ∃ stray known,
        ofJson text = .error (.mismatch (.unknownMember stray known)))) ∧
    (∀ L : Layers, L.IsComplete → L.meant c = c) ∧
    (c.validate = .ok () → ∀ path,
      ofFile path (.bytes (c.json.prettyText ++ "\n").toUTF8) = .ok c) ∧
    (∀ (s : CommandLine.Surroundings) (r : CommandLine.MeasureRequest) (p : Plan),
      r.listWorkloads = false → r.printConfig = true → r.plan s.look = .ok p → p.config = c →
      r.begin s = .ok (.shown (c.json.prettyText ++ "\n"))) := by
  refine ⟨fun L text htext => ⟨ofJson_of_isText htext, fun hstray => ?_⟩,
    fun L hcomplete => hcomplete.meant_eq c, ofFile_shown, ?_⟩
  · exact (Layers.refuses_object hstray).ofText htext
  · rintro s r p hlist hprint hplan rfl
    rw [CommandLine.MeasureRequest.begin, if_neg (by simp [hlist]), hplan]
    exact if_pos hprint

/-- A configuration of two cores, the second of which counts an event. -/
def nightly : Config where
  label := "nightly"
  cores := [⟨"bsort", some 64, []⟩, ⟨"matmult", none, ["0x11"]⟩]
  stagger := { offsetStep := 2 }
  iterations := some 3
  seed := 18446744073709551615

/-- Few members, the last ones first. -/
def backwards : Layers where
  top := .ofFields [.seed, .stagger, .cores] (by decide)
  core := fun _ => .ofFields [.events, .workload] (by decide)
  stagger := .ofFields [.offsetStep] (by decide)
  cache := .ofFields [] (by decide)
  workload_mem := fun _ => by decide

/-- The same members, and a name that is spelt wrong in the entry of each core. -/
def misspelt : Layers where
  __ := backwards
  core := fun _ =>
    { items := [.field .workload, .stray "inputsize" (.natural 64)]
      nodup := by decide
      undeclared := by
        rintro stray v hmem f rfl
        cases f <;> simp [CoreConfig.Field.name] at hmem }
  workload_mem := fun _ => by decide

/-- What few members look like. -/
def fewMembers : String :=
  "\x7b\"seed\":18446744073709551615,\"stagger\":\x7b\"offset_step\":2\x7d,\"cores\":[" ++
    "\x7b\"events\":[],\"workload\":\"bsort\"\x7d," ++
    "\x7b\"events\":[\"0x11\"],\"workload\":\"matmult\"\x7d]\x7d"

/-- What few members mean. -/
def fewMeant : Config where
  cores := [⟨"bsort", none, []⟩, ⟨"matmult", none, ["0x11"]⟩]
  stagger := { offsetStep := 2 }
  seed := 18446744073709551615

/-- A file whose text was shown is found under every path. -/
def nightlyFiles : CommandLine.Surroundings where
  look := fun _ => .bytes (nightly.json.prettyText ++ "\n").toUTF8
  names := fun _ => .error .isDirectory
  processors := []

/-- Members are read from the last to the first, a wrong name is refused, and what was shown is
shown again from a file. -/
theorem ofJson_arranged_of_nightly :
    ofJson fewMembers = .ok fewMeant ∧
    (∃ stray known, ofJson (misspelt.object nightly).text =
      .error (.mismatch (.unknownMember stray known))) ∧
    Layers.inOrder.meant nightly = nightly ∧
    ofFile "nightly.json" (nightlyFiles.look "nightly.json") = .ok nightly ∧
    CommandLine.MeasureRequest.begin nightlyFiles
        { config := some "nightly.json", printConfig := true } =
      .ok (.shown (nightly.json.prettyText ++ "\n")) := by
  obtain ⟨htexts, hcomplete, hfile, hshown⟩ := ofJson_arranged nightly
  have hvalid : nightly.validate = .ok () := by decide +kernel
  have hpure : ¬ backwards.HasStray nightly :=
    Layers.not_hasStray (Arrangement.not_hasStray_ofFields _ (by decide))
      (fun _ => Arrangement.not_hasStray_ofFields _ (by decide))
      (Arrangement.not_hasStray_ofFields _ (by decide))
      (Arrangement.not_hasStray_ofFields _ (by decide))
  have hstray : misspelt.HasStray nightly :=
    Or.inr ⟨.cores, by decide, 0, by decide, "inputsize", .natural 64,
      List.mem_cons_of_mem _ List.mem_cons_self⟩
  have hplan : CommandLine.MeasureRequest.plan nightlyFiles.look
      { config := some "nightly.json", printConfig := true } = .ok ⟨nightly, hvalid⟩ := by
    have hbase := hfile hvalid "nightly.json"
    simp only [CommandLine.MeasureRequest.plan, CommandLine.MeasureRequest.baseConfig,
      nightlyFiles, hbase]
    rfl
  have htext : (backwards.object nightly).text = fewMembers := by decide +kernel
  have hmeant : backwards.meant nightly = fewMeant := by decide +kernel
  have hread := (htexts backwards _ (Json.Value.isText_text _)).1 hpure
  rw [htext, hmeant] at hread
  exact ⟨hread, (htexts misspelt _ (Json.Value.isText_text _)).2 hstray,
    hcomplete _ Layers.isComplete_inOrder, hfile hvalid _, hshown _ _ _ rfl rfl hplan rfl⟩

end Config

end Lockstep
