import Mincontainer.Lifecycle.Pids
import Mincontainer.Migration.Transport

set_option relaxedAutoImplicit false
set_option autoImplicit false

/-!
# Handing a container over

`migrate.rs`: freeze the container, or take the snapshot it was frozen into before; ship the
snapshot; and release the container once the other side has restored it. Timings are left out.

## Main definitions

* `Mincontainer.Migrate.freeze` — the snapshot that is shipped.
* `Mincontainer.Migrate.migrate` — the operation.
-/

namespace Mincontainer

open Effects Files Bytes

namespace Migrate

/-- Knobs for one migration. -/
structure Options where
  /-- Shared secret the receiver must match. -/
  token : String
  /-- Migrate an existing snapshot instead of taking a fresh one. -/
  useExisting : Bool
  /-- Serialise established TCP connections. -/
  allowTcp : Bool
  /-- Keep the local container after a successful migration. -/
  keepLocal : Bool
deriving DecidableEq, Repr

/-- What a migration did. -/
structure Report where
  id : String
  target : String
  snapshotBytes : Nat
  remotePid : Int
  remoteIp : Option String
deriving DecidableEq, Repr

/-- The options of the checkpoint that freezes the container. -/
def freezeOptions (opts : Options) : Checkpoint.Options := ⟨"migrate", none, false, opts.allowTcp⟩

/-- The snapshot that the record names, if it is on disk. -/
def existingSnapshot (env : Env) (st : ContainerState) : HostM PathBuf := do
  let found ← (match st.snapshot with
    | some text => do
      let b : PathBuf := ⟨text, env.cwd⟩
      let there ← isFile b.path
      pure (if there then some b else none)
    | none => pure none : HostM (Option PathBuf))
  match found with
  | some b => pure b
  | none =>
    throw (.migration "--use-existing was given but this container has no snapshot on disk")

/-- The snapshot to ship: an existing one, or that of a checkpoint taken now. -/
def freeze (env : Env) (codec : Codec Manifest) (id : String) (opts : Options) :
    HostM PathBuf := do
  let st ← (ContainerStateDir.forId env id).loadState
  if opts.useExisting then
    existingSnapshot env st
  else if !st.is .running then
    throw (.migration (s!"container {id} is {st.status} — migrate freezes a running container. " ++
      "To ship an existing snapshot, pass --use-existing."))
  else do
    let rep ← Checkpoint.checkpoint env codec id (freezeOptions opts)
    pure rep.snapshot

/-- What the operator is told when the transfer failed. -/
def notHandedOver (id target : String) (e : RuntimeError) : RuntimeError :=
  .migration (s!"{e.display}\n\nThe container is checkpointed on this node and was NOT handed " ++
    s!"over. Recover with:\n    mincontainer restore {id}\nor retry with:\n    " ++
    s!"mincontainer migrate {id} {target} --use-existing")

/-- Ship the snapshot. -/
def ship (env : Env) (proto : Protocol) (id target : String) (snapshot : PathBuf)
    (opts : Options) : HostM Transport.Transfer := do
  let sent ← (Fallible.attempt
    (Transport.sendSnapshot env proto id snapshot target opts.token) : HostM _)
  match (sent : Except RuntimeError Transport.Transfer) with
  | .ok tx => pure tx
  | .error e => throw (notHandedOver id target e)

/-- Move `id` to `target`. -/
def migrate (env : Env) (codec : Codec Manifest) (proto : Protocol) (id target : String)
    (opts : Options) : HostM Report := do
  let found ← (ContainerStateDir.forId env id).pathExists
  if !found then
    throw (.migration s!"container {id} not found")
  else
    let snapshot ← freeze env codec id opts
    let tx ← ship env proto id target snapshot opts
    when (!opts.keepLocal) (release env id)
    pure ⟨id, target, tx.bytes, tx.result.pid, tx.result.containerIp⟩

end Migrate

end Mincontainer
