import Mincontainer.Bytes.Endian
import Mincontainer.Effects.Processes
import Mincontainer.Resources.Network

set_option relaxedAutoImplicit false
set_option autoImplicit false

/-!
# Starting a container

`spawn`, `middle` and `grandchild` of `container.rs`, and `supervise` of `main.rs` around them, as
programs of three processes. The parent prepares the cgroup and the network of the container from
outside; the middle process unshares the namespaces and forks the container; the container waits for
the parent at a pipe before it sets up its root and runs its command.

The work on cgroups, networks and mounts is one call each here, which may fail: none of the three
processes sees another's half done. Descriptors are named by the pipe and the end they refer to.

## Main definitions

* `Mincontainer.SpawnAct` — what the processes do next to forking and piping.
* `Mincontainer.Spawn.spawn`, `Mincontainer.Spawn.middle`, `Mincontainer.Spawn.grandchild` — the
  three processes.
* `Mincontainer.Spawn.Caller` — the process that starts the container: the detached supervisor, or
  the command in the foreground.
* `Mincontainer.Confinement` — what the parent has done for which process.
-/

namespace Mincontainer

open Effects Files Bytes

/-- The pipes of `spawn`. -/
inductive Pipe where
  /-- From the parent to the container: it may run. -/
  | go
  /-- From the middle process to the parent: the pid of the container. -/
  | pidp
deriving DecidableEq, Repr

/-- The steps of the container on its way to its command. -/
inductive Stage where
  | setsid
  | sethostname (name : String)
  | mountVolumeIntoRootfs (rootfs hostPath containerPath : String)
  | setupRootfs (rootfs : String)
  | chdir (path : String)
  | redirectStdio
  | dropDangerous
  | applySeccomp
deriving DecidableEq, Repr

/-- What the processes do next to forking and piping. -/
inductive SpawnAct where
  | cgroupCreate (id : String)
  | cgroupApply (res : Resources)
  | addProcess (pid : ℕ)
  | networkSetup (shortId : String) (pid : ℕ) (index : UInt8)
  | unshare
  | stage (s : Stage)
  /-- Become the command. -/
  | execvpe (prog : String) (argv env : List String)
deriving DecidableEq, Repr

/-- The calls of the processes. -/
abbrev SpawnSig : Signature := ProcSig Pipe ⟨SpawnAct, fun _ => Except RuntimeError Unit⟩

/-- Programs of the processes. -/
abbrev SpawnM := Fallible SpawnSig RuntimeError

namespace Spawn

def goRead : Fd Pipe := ⟨.go, .read⟩
def goWrite : Fd Pipe := ⟨.go, .write⟩
def pidRead : Fd Pipe := ⟨.pidp, .read⟩
def pidWrite : Fd Pipe := ⟨.pidp, .write⟩

/-- Perform one call of a process. -/
def call (o : SpawnSig.Op) : SpawnM (SpawnSig.Reply o) := Fallible.sys o

/-- A call whose error ends the function. -/
def act (a : SpawnAct) : SpawnM Unit := do
  match ← call (.act a) with
  | .ok _ => pure ()
  | .error e => throw e

/-- Leave the process. -/
def exit {α : Type} (code : ℤ) : SpawnM α := do
  let r ← call (.exit code)
  nomatch (r : Empty)

def makePipe (p : Pipe) : SpawnM Unit := do
  if (← call (.pipe p) : Bool) then pure () else throw (.io "Too many open files (os error 24)")

def close (fd : Fd Pipe) : SpawnM Unit := call (.close fd)

def notify (fd : Fd Pipe) : SpawnM Unit := call (.write fd [1])

/-- Read one byte; what is read, and whether anything is, does not matter. -/
def waitFor (fd : Fd Pipe) : SpawnM Unit := do
  let _ ← call (.read fd 1)
  pure ()

def writePid (fd : Fd Pipe) (pid : ℕ) : SpawnM Unit := call (.write fd (toLE 4 pid))

/-- Read a pid; bytes that do not come are zero. -/
def readPid (fd : Fd Pipe) : SpawnM ℕ := do
  let b ← call (.read fd 4)
  pure (ofLE (b : List UInt8))

/-- A text that cannot be passed to the kernel. -/
def hasNul (s : String) : Bool := s.toList.contains '\x00'

/-- The stages of the container between the parent's go and its command. -/
def stages (cfg : ContainerConfig) (io : Option String) : List Stage :=
  (if io.isSome then [.setsid] else []) ++ [.sethostname cfg.hostname] ++
    (cfg.volumes.map fun v => .mountVolumeIntoRootfs cfg.rootfs v.hostPath v.containerPath) ++
    (match io with
      | some dir => [.mountVolumeIntoRootfs cfg.rootfs dir ".mcio"]
      | none => []) ++
    [.setupRootfs cfg.rootfs, .chdir "/"] ++ (if io.isSome then [.redirectStdio] else []) ++
    (if cfg.dropCaps then [.dropDangerous] else []) ++
    (if cfg.seccomp then [.applySeccomp] else [])

/-- Go through stages until one fails. -/
def runStages : List Stage → SpawnM Unit
  | [] => pure ()
  | s :: ss => do
    act (.stage s)
    runStages ss

/-- Replace this process with the container command. -/
def execCommand (cfg : ContainerConfig) : SpawnM Unit :=
  match cfg.command with
  -- there is no first argument to index
  | [] => exit 101
  | prog :: args =>
    if hasNul prog then throw (.config "command contains NUL")
    else if (args ++ cfg.env).any hasNul then exit 101
    else act (.execvpe prog (prog :: args) cfg.env)

/-- The container process, first in its namespace. -/
def grandchild (cfg : ContainerConfig) (io : Option String) (goR : Fd Pipe) : SpawnM Unit := do
  waitFor goR
  close goR
  runStages (stages cfg io)
  execCommand cfg

/-- The middle process: unshare the namespaces, fork the container, tell its pid, wait for it. -/
def middle {α : Type} (cfg : ContainerConfig) (io : Option String) (goR pidpW : Fd Pipe) :
    SpawnM α := do
  match ← (Fallible.attempt (act .unshare) : SpawnM (Except RuntimeError Unit)) with
  | .error _ => exit 127
  | .ok _ =>
    match (← call .fork : Forked) with
    | .child =>
      close pidpW
      let _ ← (Fallible.attempt (grandchild cfg io goR) : SpawnM (Except RuntimeError Unit))
      exit 127
    | .parent gc =>
      writePid pidpW gc
      let code ← call (.wait gc)
      exit code
    | .failed => exit 127

/-- A container that has been started. -/
structure Handle where
  containerPid : ℕ
  supervisorPid : ℕ

/-- Start a container without waiting for it. -/
def spawn (cfg : ContainerConfig) (index : UInt8) (io : Option String) : SpawnM Handle := do
  act (.cgroupCreate cfg.id)
  act (.cgroupApply cfg.resources)
  makePipe .go
  makePipe .pidp
  match (← call .fork : Forked) with
  | .failed => throw (.syscall "fork" "Resource temporarily unavailable")
  | .child =>
    close goWrite
    close pidRead
    middle cfg io goRead pidWrite
  | .parent middlePid =>
    close goRead
    close pidWrite
    let gcPid ← readPid pidRead
    close pidRead
    act (.addProcess gcPid)
    if cfg.network then act (.networkSetup cfg.shortId gcPid index) else pure ()
    notify goWrite
    close goWrite
    pure ⟨gcPid, middlePid⟩

/-- The detached supervisor. What it writes to the state file concerns none of the processes. -/
def supervise (cfg : ContainerConfig) (io : String) : SpawnM Unit := do
  match ← (Fallible.attempt (spawn cfg 0 (some io)) : SpawnM (Except RuntimeError Handle)) with
  | .error _ => exit 1
  | .ok handle =>
    let _ ← call (.wait handle.supervisorPid)
    exit 0

/-- Run a container to completion; the result is its exit code. -/
def run (cfg : ContainerConfig) (index : UInt8) : SpawnM ℤ := do
  let handle ← spawn cfg index none
  let code ← call (.wait handle.supervisorPid)
  pure code

/-- The command that starts a container in the foreground, which ends with the container. -/
def startAttached (cfg : ContainerConfig) (index : UInt8) : SpawnM Unit := do
  match ← (Fallible.attempt (run cfg index) : SpawnM (Except RuntimeError ℤ)) with
  | .ok code => exit code
  | .error _ => exit 1

/-- Who starts the container. -/
inductive Caller where
  /-- The supervisor, with the directory for the container's output. -/
  | detached (io : String)
  | attached (index : UInt8)
deriving DecidableEq, Repr

/-- The program of the parent. -/
def Caller.prog (cfg : ContainerConfig) : Caller → SpawnM Unit
  | .detached io => supervise cfg io
  | .attached index => startAttached cfg index

end Spawn

/-! ### The world of the processes -/

/-- What the parent has done, by the pid it was done for. -/
structure Confinement where
  /-- The processes moved into the cgroup. -/
  moved : List ℕ
  /-- The processes whose network was set up. -/
  wired : List ℕ
deriving DecidableEq, Repr

/-- Everything but the command can succeed and fail; the command replaces the process. -/
def spawnMachine : Machine ⟨SpawnAct, fun _ => Except RuntimeError Unit⟩ Confinement where
  Enabled _ a r :=
    match a, r with
    | .execvpe _ _ _, .ok _ => False
    | _, _ => True
  next w a r :=
    match a, r with
    | .addProcess pid, .ok _ => { w with moved := pid :: w.moved }
    | .networkSetup _ pid _, .ok _ => { w with wired := pid :: w.wired }
    | _, _ => w

instance : ∀ w a r, Decidable (spawnMachine.Enabled w a r) := fun _ a r =>
  match a, r with
  | .execvpe _ _ _, .ok _ => .isFalse id
  | .execvpe _ _ _, .error _ => .isTrue trivial
  | .cgroupCreate _, _ => .isTrue trivial
  | .cgroupApply _, _ => .isTrue trivial
  | .addProcess _, _ => .isTrue trivial
  | .networkSetup _ _ _, _ => .isTrue trivial
  | .unshare, _ => .isTrue trivial
  | .stage _, _ => .isTrue trivial

namespace Spawn

/-- The processes of one container. -/
abbrev System := Processes Pipe ⟨SpawnAct, fun _ => Except RuntimeError Unit⟩ Confinement

/-- A program of one process, from its start. -/
def toProcess (x : SpawnM Unit) : Program SpawnSig Unit := x.run >>= fun _ => .ret ()

/-- The parent alone, about to start a container. -/
def start (root : ℕ) (cfg : ContainerConfig) (caller : Caller) : System where
  procs := [⟨root, toProcess (caller.prog cfg), []⟩]
  buf _ := []
  world := ⟨[], []⟩

end Spawn

end Mincontainer
