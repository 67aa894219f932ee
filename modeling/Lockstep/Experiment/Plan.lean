import Lockstep.Rendezvous.Barrier
import Lockstep.Workload.Registry

/-!
# Plans

A plan is a configuration that was checked.  It fixes how many cores meet on how many channels, and
it can be carried out if all of its workloads are known.
-/

namespace Lockstep

/-- A configuration that was checked. -/
structure Plan where
  config : Config
  valid : config.validate = .ok ()

namespace Plan

/-- Checks a configuration. -/
def ofConfig (config : Config) : Except Config.Invalid Plan :=
  match h : config.validate with
  | .ok () => .ok ⟨config, h⟩
  | .error e => .error e

/-- The limits that a checked configuration keeps. -/
theorem bounds (p : Plan) :
    (0 < p.config.cores.length ∧ p.config.cores.length ≤ coreLimit) ∧
      0 < p.config.channels.toNat ∧ p.config.channels.toNat ≤ channelLimit := by
  have h := p.valid
  unfold Config.validate at h
  split at h
  · simp at h
  · rename_i hcores
    split at h
    · simp at h
    · split at h
      · simp at h
      · rename_i hchannels
        have hzero : p.config.channels.toNat ≠ 0 := fun h0 =>
          hchannels (Or.inl (UInt64.toNat_inj.1 (by simpa using h0)))
        simp only [not_or, Nat.not_lt, List.isEmpty_iff] at hcores hchannels
        refine ⟨⟨List.length_pos_iff.2 hcores.1, hcores.2⟩, ?_, hchannels.2⟩
        omega

/-- How many cores meet on how many channels. -/
def shape (p : Plan) : Shape where
  cores := p.config.cores.length
  channels := p.config.channels.toNat
  cores_pos := p.bounds.1.1
  cores_le := p.bounds.1.2
  channels_pos := p.bounds.2.1
  channels_le := p.bounds.2.2

/-- The entry of a core. -/
def entry (p : Plan) (core : Fin p.shape.cores) : CoreConfig :=
  p.config.cores.get core

/-- The parameters for the workload of a core. -/
def params (p : Plan) (core : Fin p.shape.cores) : WorkloadParams :=
  ⟨(p.entry core).inputSize, p.config.seed + UInt64.ofNat core⟩

/-- A core whose workload is not known. -/
structure UnknownWorkload where
  core : Nat
  name : String
  known : List String
  deriving DecidableEq, Repr

/-- The sentence shown for a core whose workload is not known. -/
def UnknownWorkload.message (e : UnknownWorkload) : String :=
  "core " ++ e.core.repr ++ ": " ++ Registry.unknownText e.name e.known

variable {W : Type}

/-- The first core, counted from the given one, whose workload is not known. -/
def firstUnknown? (registry : Registry W) : Nat → List CoreConfig → Option UnknownWorkload
  | _, [] => none
  | core, c :: cs =>
    if registry.contains c.workload then firstUnknown? registry (core + 1) cs
    else some ⟨core, c.workload, registry.names⟩

/-- Checks that all workloads of a plan are known. -/
def checkWorkloads (p : Plan) (registry : Registry W) : Except UnknownWorkload Unit :=
  match firstUnknown? registry 0 p.config.cores with
  | none => .ok ()
  | some e => .error e

end Plan

end Lockstep
