import Mathlib.Tactic.Lemma

set_option relaxedAutoImplicit false
set_option autoImplicit false

/-!
# Container configurations and state records

The data of `config.rs`, `error.rs` and the first half of `state.rs`: what a container was asked
to be, and the lifecycle record kept for it on disk.

## Main definitions

* `Mincontainer.ContainerConfig` — the specification of a container.
* `Mincontainer.Status`, `Mincontainer.ContainerState` — the lifecycle record. Its status is a
  string on disk; `ContainerState.is` compares it with a `Status`.
* `Mincontainer.RuntimeError` — the errors of the runtime.

## Main results

* `Mincontainer.Status.asStr_inj` — different statuses have different string forms.
-/

namespace Mincontainer

/-- The bytes of a file or a stream. -/
abbrev Bytes := List UInt8

/-! ### Configurations -/

/-- A volume mount: host path to container path. -/
structure Volume where
  hostPath : String
  containerPath : String
deriving DecidableEq, Repr

/-- Resource limits; zero stands for unlimited. -/
structure Resources where
  memoryMax : Nat
  cpuQuota : Nat
  cpuPeriod : Nat
  pidsMax : Nat
deriving DecidableEq, Repr

/-- Full specification for a single container run. -/
structure ContainerConfig where
  id : String
  hostname : String
  rootfs : String
  command : List String
  env : List String
  volumes : List Volume
  resources : Resources
  network : Bool
  seccomp : Bool
  dropCaps : Bool
deriving DecidableEq, Repr

/-! ### Statuses and records -/

/-- Lifecycle status of a container. -/
inductive Status where
  | created
  | running
  | stopped
  | failed
  /-- A dump is in flight. -/
  | checkpointing
  /-- Frozen to a snapshot; no processes exist. -/
  | checkpointed
  /-- A restore is in flight; the host may hold partial resources. -/
  | restoring
  /-- Checkpointed here, then handed to another node. -/
  | migrated
deriving DecidableEq, Repr

/-- The form a status has on disk. -/
def Status.asStr : Status → String
  | .created => "created"
  | .running => "running"
  | .stopped => "stopped"
  | .failed => "failed"
  | .checkpointing => "checkpointing"
  | .checkpointed => "checkpointed"
  | .restoring => "restoring"
  | .migrated => "migrated"

/-- Different statuses have different string forms. -/
@[simp] lemma Status.asStr_inj (a b : Status) : a.asStr = b.asStr ↔ a = b := by
  constructor
  · intro h
    cases a <;> cases b <;> first | rfl | exact absurd h (by decide)
  · rintro rfl; rfl

/-- Container state, persisted to disk and read back on lifecycle operations. -/
structure ContainerState where
  id : String
  pid : Option Int
  status : String
  exitCode : Option Int
  createdAt : String
  startedAt : Option String
  stoppedAt : Option String
  /-- Path to the snapshot this container was last checkpointed to. -/
  snapshot : Option String
  checkpointedAt : Option String
  restoredAt : Option String
  /-- How many times this container has been restored, on any node. -/
  generation : UInt32
  /-- Host this container last ran on, set when it arrives via migration. -/
  originHost : Option String
  /-- Pid of the detached supervisor owning this container, if any. -/
  supervisorPid : Option Int
deriving DecidableEq, Repr

/-- The record has the given status. -/
def ContainerState.is (st : ContainerState) (s : Status) : Bool := st.status = s.asStr

@[simp] lemma ContainerState.is_iff (st : ContainerState) (s : Status) :
    st.is s = true ↔ st.status = s.asStr := by
  simp [ContainerState.is]

/-! ### Errors -/

/-- The errors of the runtime, with their messages. -/
inductive RuntimeError where
  | io (msg : String)
  | syscall (name msg : String)
  | filesystem (msg : String)
  | seccomp (msg : String)
  | cgroup (msg : String)
  | network (msg : String)
  | config (msg : String)
  | json (msg : String)
  | snapshot (msg : String)
  | checkpoint (msg : String)
  | restore (msg : String)
  | migration (msg : String)
deriving DecidableEq, Repr

/-- The text an error is displayed as. -/
def RuntimeError.display : RuntimeError → String
  | .io m => s!"io error: {m}"
  | .syscall name m => s!"syscall {name} failed: {m}"
  | .filesystem m => s!"filesystem error: {m}"
  | .seccomp m => s!"seccomp error: {m}"
  | .cgroup m => s!"cgroup error: {m}"
  | .network m => s!"network error: {m}"
  | .config m => s!"config error: {m}"
  | .json m => s!"json error: {m}"
  | .snapshot m => s!"snapshot error: {m}"
  | .checkpoint m => s!"checkpoint error: {m}"
  | .restore m => s!"restore error: {m}"
  | .migration m => s!"migration error: {m}"

end Mincontainer
