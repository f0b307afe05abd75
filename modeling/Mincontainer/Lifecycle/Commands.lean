import Mincontainer.Migration.Migrate

set_option relaxedAutoImplicit false
set_option autoImplicit false

/-!
# The commands and the supervisor

`main.rs`, the commands that act on one container and the supervisor that a detached start leaves
behind, and of `container.rs` what the parent of a container does. The tree itself, the two processes
below the parent, is one call here; `Container.Spawn` models them one by one.

A command ends with an exit code; what it prints is left out.

## Main definitions

* `Mincontainer.Container.spawn`, `Mincontainer.Container.Handle.wait` — start a container and wait for
  it.
* `Mincontainer.supervise` — the supervisor; `Mincontainer.superviseExit` is its way out.
* `Mincontainer.Command` — the commands, and `Mincontainer.Command.prog` their programs.
-/

namespace Mincontainer

open Effects Files Bytes

/-! ### Starting a container -/

namespace Container

/-- A started container, as its parent holds it. -/
structure Handle where
  containerPid : Int
  cgroup : Cgroup
  network : Option Network

/-- Start the container `id` without waiting for it. -/
def spawn (id : String) (cfg : ContainerConfig) (index : UInt8) : HostM Handle := do
  let cgroup ← Cgroup.create cfg.id
  cgroup.apply cfg.resources
  let pid ← orErr (← sys (.startTree id)) (RuntimeError.syscall "fork")
  cgroup.addProcess pid
  if cfg.network then
    let net ← Network.setup cfg.shortId pid index
    pure ⟨pid, cgroup, some net⟩
  else
    pure ⟨pid, cgroup, none⟩

/-- Block until the container exits, then tear down; the result is its exit code. -/
def Handle.wait (handle : Handle) : HostM Int := do
  let code ← sys (.waitTree handle.containerPid)
  Restore.Rollback.dropNetwork handle.network
  handle.cgroup.cleanup
  pure code

/-- Run a container to completion. -/
def run (id : String) (cfg : ContainerConfig) (index : UInt8) : HostM Int := do
  let handle ← spawn id cfg index
  handle.wait

end Container

/-! ### The supervisor -/

/-- Do something whose failure is ignored. -/
def ignore {α : Type} (x : HostM α) : HostM Unit := do
  let _ ← (Fallible.attempt x : HostM (Except RuntimeError α))
  pure ()

/-- The record says that the container was frozen on purpose; without a readable record it does
not. -/
def isFrozen (env : Env) (id : String) : HostM Bool := do
  let st ← (Fallible.attempt (getContainer env id) : HostM (Except RuntimeError ContainerState))
  pure (match st with
    | .ok s => s.is .checkpointing || s.is .checkpointed
    | .error _ => false)

/-- The end of the supervisor: record the exit, unless the container was frozen. -/
def superviseExit (env : Env) (id : String) (code : Int) : HostM Unit := do
  let frozen ← isFrozen env id
  when (!frozen) (ignore (setStopped env id code))

/-- The supervisor once its container is up. -/
def superviseUp (env : Env) (id : String) (handle : Container.Handle) (self : Int) : HostM Unit := do
  ignore (setRunningUnder env id handle.containerPid (some self))
  let code ← handle.wait
  superviseExit env id code

/-- The detached supervisor, a process with the pid `self`. -/
def supervise (env : Env) (id : String) (cfg : ContainerConfig) (self : Int) : HostM Unit := do
  let started ← (Fallible.attempt (Container.spawn id cfg 0) :
    HostM (Except RuntimeError Container.Handle))
  match started with
  | .error _ => ignore (markFailed env id)
  | .ok handle => superviseUp env id handle self

/-! ### The commands -/

/-- Go on with the value of `x`; the exit code of a failure is one. -/
def orOne {α : Type} (x : HostM α) (f : α → HostM Int) : HostM Int := do
  match ← (Fallible.attempt x : HostM (Except RuntimeError α)) with
  | .ok a => f a
  | .error _ => pure 1

/-- A bind mount argument, `host:container`. -/
def parseBind (bind : String) : Option Volume :=
  match (bind.toList.splitOn ':').map String.ofList with
  | [hostPath, containerPath] => some ⟨hostPath, containerPath⟩
  | _ => none

/-- The arguments of `create`; an id or hostname that is not given is made up. -/
structure CreateArgs where
  id : String
  hostname : String
  rootfs : String
  cmd : List String
  resources : Resources
  net : Bool
  seccomp : Bool
  dropCaps : Bool
  bind : List String
deriving DecidableEq, Repr

/-- The configuration of a container that is created. -/
def CreateArgs.config (a : CreateArgs) (volumes : List Volume) : ContainerConfig where
  id := a.id
  hostname := a.hostname
  rootfs := a.rootfs
  command := a.cmd
  env := ["PATH=/usr/local/sbin:/usr/local/bin:/usr/sbin:/usr/bin:/sbin:/bin", "HOME=/root",
    "TERM=xterm"]
  volumes := volumes
  resources := a.resources
  network := a.net
  seccomp := a.seccomp
  dropCaps := a.dropCaps

def cmdCreate (env : Env) (a : CreateArgs) : HostM Int :=
  orOne (ContainerStateDir.init env) fun _ =>
  orOne (initContainer env a.id) fun _ =>
    match a.bind.mapM parseBind with
    | none => pure 1
    | some volumes =>
      orOne ((ContainerStateDir.forId env a.id).saveConfig (a.config volumes)) fun _ => pure 0

/-- Poll the record until it names the process of a running container, at most `n` times. -/
def awaitRunning (env : Env) (id : String) : Nat → HostM (Option Int)
  | 0 => pure none
  | n + 1 => do
    match ← (Fallible.attempt (getContainer env id) : HostM (Except RuntimeError ContainerState)) with
    | .ok st =>
      match st.is .running, st.pid with
      | true, some pid => pure (some pid)
      | _, _ =>
        if st.is .failed || st.is .stopped then pure none else awaitRunning env id n
    | .error _ => awaitRunning env id n

/-- A start in the foreground ends with the container. -/
def startAttached (env : Env) (id : String) (cfg : ContainerConfig) : HostM Int := do
  match ← (Fallible.attempt (Container.run id cfg 0) : HostM (Except RuntimeError Int)) with
  | .ok code =>
    ignore (setStopped env id code)
    pure code
  | .error _ =>
    ignore (setStopped env id 127)
    pure 1

/-- A detached start empties the logs, forks the supervisor, and waits until the container is
recorded as running; it looks `polls` times. -/
def startDetached (env : Env) (id : String) (cfg : ContainerConfig) (polls : Nat) : HostM Int := do
  let dir := ContainerStateDir.forId env id
  ignore (createFile (dir.ioDir ++ ["stdout"]) RuntimeError.io)
  ignore (createFile (dir.ioDir ++ ["stderr"]) RuntimeError.io)
  match ← sys (.fork id cfg) with
  | .ok _ => do
    match ← awaitRunning env id polls with
    | some _ => pure 0
    | none => pure 1
  | .error _ => pure 1

/-- Everything before a start does anything but prepare directories. -/
def prepareStart (env : Env) (id : String) : HostM ContainerConfig := do
  ContainerStateDir.init env
  let dir := ContainerStateDir.forId env id
  let found ← dir.pathExists
  if !found then
    throw (.config s!"container {id} not found")
  else
    dir.create
    dir.loadConfig

def cmdStart (env : Env) (id : String) (detach : Bool) (polls : Nat) : HostM Int :=
  orOne (prepareStart env id) fun cfg =>
    if detach then startDetached env id cfg polls else startAttached env id cfg

def cmdStop (env : Env) (id : String) : HostM Int :=
  orOne (ContainerStateDir.init env) fun _ =>
  orOne (getContainer env id) fun st =>
    if st.is .checkpointed then pure 1
    else
      match st.pid with
      | none => pure 1
      | some pid => do
        sys (.term pid)
        let _ ← sys (.awaitExit pid)
        let still ← sys (.pidAlive pid)
        when (still : Bool) (sys (.kill pid))
        pure 0

/-- The records of the containers with these names, where they can be read. -/
def readAll (env : Env) : List String → HostM (List ContainerState)
  | [] => pure []
  | name :: names =>
    if name.toList.head? = some '.' then readAll env names
    else do
      let st ← (Fallible.attempt (getContainer env name) : HostM (Except RuntimeError ContainerState))
      let rest ← readAll env names
      pure (match st with
        | .ok s => s :: rest
        | .error _ => rest)

/-- The records of all containers. -/
def listAll (env : Env) : HostM (List ContainerState) := do
  let k : Option Kind ← sys (.stat (ContainerStateDir.containers env))
  if k.isNone then
    pure []
  else
    let names ← orErr (← sys (.listDirs (ContainerStateDir.containers env))) fun e =>
      .config s!"list containers: {e}"
    readAll env names

/-- Reconcile containers, ignoring individual failures. -/
def reconcileEach (env : Env) : List ContainerState → HostM Unit
  | [] => pure ()
  | st :: sts => do
    ignore (Restore.reconcile env st.id)
    reconcileEach env sts

/-- Reconcile every container; nothing happens when they cannot be listed. -/
def reconcileAll (env : Env) : HostM Unit := do
  match ← (Fallible.attempt (listAll env) : HostM (Except RuntimeError (List ContainerState))) with
  | .ok all => reconcileEach env all
  | .error _ => pure ()

def cmdPs (env : Env) : HostM Int :=
  orOne (ContainerStateDir.init env) fun _ => do
    reconcileAll env
    orOne (listAll env) fun _ => pure 0

def cmdRm (env : Env) (id : String) : HostM Int :=
  orOne (ContainerStateDir.init env) fun _ => do
    let dir := ContainerStateDir.forId env id
    let found ← dir.pathExists
    if !found then
      pure 1
    else
      orOne dir.cleanup fun _ => pure 0

def cmdCheckpoint (env : Env) (codec : Codec Manifest) (id : String) (opts : Checkpoint.Options) :
    HostM Int :=
  orOne (ContainerStateDir.init env) fun _ =>
  orOne (Checkpoint.checkpoint env codec id opts) fun _ => pure 0

def cmdRestore (env : Env) (codec : Codec Manifest) (id : String) (opts : Restore.Options) :
    HostM Int :=
  orOne (ContainerStateDir.init env) fun _ =>
  orOne (Restore.restore env codec id opts) fun _ => pure 0

def cmdMigrate (env : Env) (codec : Codec Manifest) (proto : Protocol) (id target : String)
    (opts : Migrate.Options) : HostM Int :=
  orOne (ContainerStateDir.init env) fun _ =>
  orOne (Migrate.migrate env codec proto id target opts) fun _ => pure 0

/-- The commands on one container, and the one that looks after all of them. -/
inductive Command where
  | create (a : CreateArgs)
  | start (detach : Bool) (polls : Nat)
  | stop
  | checkpoint (opts : Checkpoint.Options)
  | restore (opts : Restore.Options)
  | migrate (target : String) (opts : Migrate.Options)
  | ps
  | rm

/-- The program of a command on the container `id`, issued from the directory `env` names. -/
def Command.prog (codec : Codec Manifest) (proto : Protocol) (env : Env) (id : String) :
    Command → HostM Int
  | create a => cmdCreate env { a with id := id }
  | start detach polls => cmdStart env id detach polls
  | stop => cmdStop env id
  | checkpoint opts => cmdCheckpoint env codec id opts
  | restore opts => cmdRestore env codec id opts
  | migrate target opts => cmdMigrate env codec proto id target opts
  | ps => cmdPs env
  | rm => cmdRm env id

end Mincontainer
