import Mincontainer.Engine.Criu
import Mincontainer.Files.Given
import Mincontainer.Resources.Cgroup
import Mincontainer.Snapshot.Writer

set_option relaxedAutoImplicit false
set_option autoImplicit false

/-!
# Freezing a running container into a snapshot

`checkpoint.rs`: validate, pre-flight, collect metadata, mark, dump, pack, commit. Each phase is a
function of its own, in the order in which `checkpoint` runs them. Timings, which nothing reads
back, are left out.

## Main definitions

* `Mincontainer.Checkpoint.layoutFor` — the mounts that are supplied from outside.
* `Mincontainer.Checkpoint.pack` — engine images, logs and metadata into one file.
* `Mincontainer.Checkpoint.checkpoint` — the operation.
-/

namespace Mincontainer

open Effects Files Bytes Snapshot

namespace Checkpoint

/-- Knobs for one checkpoint. -/
structure Options where
  /-- Snapshot name. -/
  name : String
  /-- Explicit destination, overriding the default location. -/
  dest : Option PathArg
  /-- Leave the container running after dumping. -/
  leaveRunning : Bool
  /-- Serialise established TCP connections instead of refusing them. -/
  allowTcp : Bool
deriving DecidableEq, Repr

/-- What a checkpoint produced. -/
structure Report where
  id : String
  snapshot : PathBuf
  snapshotBytes : Nat
  imageBytes : Nat
  entries : Nat
deriving DecidableEq, Repr

/-- Metadata gathered before the dump, handed to the packer. -/
structure SnapshotMeta where
  engine : String
  engineVersion : String
  config : ContainerConfig
  lifecycle : ContainerState
  cgroup : CgroupSnapshot
  namespaces : NamespaceSnapshot
  mounts : List MountEntry
  openFds : List FdEntry
  checkpointPid : Int

/-- The directory inside a container its output directory is mounted to. -/
def ioMount : String := ".mcio"

/-- Which mounts the engine must be told are supplied from outside. -/
def layoutFor (cfg : ContainerConfig) (dir : ContainerStateDir) : Layout where
  root := some cfg.rootfs
  externalMounts := ⟨"/" ++ ioMount, "mcio", display dir.ioDir⟩ ::
    cfg.volumes.mapIdx fun i v => ⟨v.containerPath, s!"mcvol{i}", v.hostPath⟩
  emptyNetNs := true

/-! ### The phases -/

/-- Resolve and validate: the container must be recorded as running, with a live process. -/
def validate (env : Env) (id : String) : HostM (ContainerState × ContainerConfig × Int) := do
  let dir := ContainerStateDir.forId env id
  let found ← dir.pathExists
  if !found then
    throw (.checkpoint s!"container {id} not found")
  else
    let st ← dir.loadState
    let cfg ← dir.loadConfig
    if !st.is .running then
      throw (.checkpoint (s!"container {id} is {st.status}, not running — " ++
        "only a running container can be checkpointed"))
    else
      match st.pid with
      | none => throw (.checkpoint s!"container {id} is marked running but has no pid")
      | some pid =>
        let live ← sys (.pidAlive pid)
        if !live then
          throw (.checkpoint (s!"container {id} is marked running but pid {pid} is gone — " ++
            "state is stale, run `mincontainer ps` after the supervisor reaps it"))
        else
          pure (st, cfg, pid)

/-- Refuse to checkpoint state the engine cannot honestly reproduce. -/
def preflight (env : Env) (pid : Int) (cfg : ContainerConfig) (opts : Options) : HostM Unit := do
  let conns ← sys (.connections pid)
  if conns ≠ [] ∧ !opts.allowTcp then
    let list := "\n".intercalate (conns.map fun c => s!"      {c.local_} -> {c.remote}")
    throw (.checkpoint (s!"container has {conns.length} established TCP connection(s):\n" ++
      s!"{list}\n\nFreezing drops these on the floor: the peer is not part of the checkpoint and " ++
      "will keep its half of the connection open until it times out.\n" ++
      "Either close them first, or pass --allow-tcp to serialise them — which is only " ++
      "correct if the container resumes at the same address, soon, and the peer's " ++
      "timeout is longer than the freeze. It is never correct across a migration to a " ++
      "different address."))
  else
    let rooted ← isDir (resolve env.cwd cfg.rootfs)
    if !rooted then
      throw (.checkpoint (s!"rootfs {cfg.rootfs} does not exist — " ++
        "cannot checkpoint a container whose root is gone"))
    else
      pure ()

/-- Collect the metadata of a running container; the lifecycle record is still the one on disk. -/
def collect (engineVersion : String) (st : ContainerState) (cfg : ContainerConfig) (pid : Int) :
    HostM SnapshotMeta := do
  let namespaces ← sys (.namespaces pid)
  let mounts ← orErr (← sys (.mounts pid)) fun e => .checkpoint s!"read /proc/{pid}/mountinfo: {e}"
  let openFds ← orErr (← sys (.fds pid)) fun e => .checkpoint s!"read /proc/{pid}/fd: {e}"
  let cgroup ← sys (.cgroupStats (resolve Cgroup.cgroupRoot cfg.id))
  pure
    { engine := Criu.binary, engineVersion := engineVersion, config := cfg, lifecycle := st
      cgroup := cgroup, namespaces := namespaces, mounts := mounts, openFds := openFds
      checkpointPid := pid }

/-- Everything that happens before the container is touched. -/
def prepare (env : Env) (id : String) (opts : Options) : HostM SnapshotMeta := do
  let engineVersion ← Criu.version
  let (st, cfg, pid) ← validate env id
  preflight env pid cfg opts
  collect engineVersion st cfg pid

/-- The directory the engine dumps into. -/
def imagesDir (dir : ContainerStateDir) : Path := dir.stagingDir ++ ["dump-images"]

/-- An empty directory for the images of this dump. -/
def makeImagesDir (dir : ContainerStateDir) : HostM Unit := do
  sys (.removeDirAll (imagesDir dir))
  mkdirAll (imagesDir dir) fun e => .checkpoint s!"mkdir images: {e}"

/-- The options of the dump. -/
def dumpOptions (dir : ContainerStateDir) (info : SnapshotMeta) (opts : Options) : DumpOptions where
  pid := info.checkpointPid
  imagesDir := imagesDir dir
  layout := layoutFor info.config dir
  leaveRunning := opts.leaveRunning
  tcpEstablished := opts.allowTcp

/-- The way out of a failed dump: report whether the container is still running, and say so in
its record. -/
def dumpFailed {α : Type} (env : Env) (id : String) (pid : Int) (e : String) : HostM α := do
  let still ← sys (.pidAlive pid)
  let status := if (still : Bool) then Status.running else Status.failed
  let _ ← (Fallible.attempt (setStatus env id status) : HostM (Except RuntimeError Unit))
  let outcome :=
    if (still : Bool) then "still running" else "NOT running — its processes were lost"
  throw (.checkpoint s!"{e}\n\ncontainer {id} is {outcome} after the failed dump")

/-- Freeze and dump the tree. -/
def dumpTree (env : Env) (id : String) (info : SnapshotMeta) (opts : Options) : HostM Unit := do
  match ← Criu.dump (dumpOptions (ContainerStateDir.forId env id) info opts) with
  | .ok _ => pure ()
  | .error e => dumpFailed env id info.checkpointPid e

/-- Wait for a container's detached supervisor to exit, at most until a deadline. -/
def awaitSupervisorExit (st : ContainerState) : HostM Unit :=
  match st.supervisorPid with
  | none => pure ()
  | some sup => do
    let _ ← sys (.awaitExit sup)
    pure ()

/-- After a dump that killed the tree: let the supervisor finish, and remove the cgroup. -/
def settle (info : SnapshotMeta) (opts : Options) : HostM Unit :=
  when (!opts.leaveRunning) do
    awaitSupervisorExit info.lifecycle
    (Cgroup.open info.config.id).cleanup

/-- Where the snapshot goes. -/
def destination (env : Env) (dir : ContainerStateDir) (opts : Options) : PathBuf :=
  match opts.dest with
  | some given => ⟨given.text, env.cwd⟩
  | none => PathBuf.ofPath (dir.snapshotFile opts.name)

/-! ### Packing -/

/-- The length of a file, as its metadata gives it. -/
def fileLen (p : Path) : HostM Nat := do
  match ← sys (.openFile p) with
  | .ok n => pure n
  | .error _ => pure 0

/-- Pack the images of the engine; the result is the number of their bytes. -/
def addImages (images : Path) : List String → SnapshotWriter → Nat → HostM (SnapshotWriter × Nat)
  | [], w, n => pure (w, n)
  | name :: names, w, n => do
    let len ← fileLen (images ++ [name])
    let w ← w.addFile ("images/" ++ name) (images ++ [name])
    addImages images names w (n + len)

/-- Pack the logs that exist. -/
def addLogs (dir : ContainerStateDir) : List String → SnapshotWriter → HostM SnapshotWriter
  | [], w => pure w
  | name :: names, w => do
    let there ← isFile (dir.ioDir ++ [name])
    if there then
      let w ← w.addFile ("io/" ++ name) (dir.ioDir ++ [name])
      addLogs dir names w
    else
      addLogs dir names w

/-- The manifest around an entry table. -/
def buildManifest (env : Env) (info : SnapshotMeta) (entries : List EntryMeta) : HostM Manifest := do
  let createdAt ← sys .now
  let sourceHost ← sys .hostname
  let sourceKernel ← sys .kernelRelease
  pure
    { formatVersion := formatVersion, producer := "mincontainer/0.1.0", engine := info.engine
      engineVersion := info.engineVersion, createdAt := createdAt, sourceHost := sourceHost
      sourceArch := env.arch, sourceKernel := sourceKernel, containerId := info.config.id
      config := info.config, lifecycle := info.lifecycle, cgroup := info.cgroup
      namespaces := info.namespaces, mounts := info.mounts, openFds := info.openFds
      checkpointPid := info.checkpointPid, entries := entries }

/-- Assemble engine images, container logs and metadata into one snapshot file. -/
def pack (env : Env) (codec : Codec Manifest) (dest : PathBuf) (dir : ContainerStateDir)
    (info : SnapshotMeta) : HostM (Manifest × Nat × Nat) := do
  let packed ← SnapshotWriter.scope dest fun w => do
    let files ← Criu.imageFiles (imagesDir dir)
    let (w, imageBytes) ← addImages (imagesDir dir) files w 0
    if imageBytes = 0 then
      throw (.checkpoint "engine produced no images — refusing to write an empty snapshot")
    else
      let w ← addLogs dir ["stdout", "stderr"] w
      let manifest ← w.finish codec dest (buildManifest env info)
      pure (manifest, imageBytes)
  let snapshotBytes ← fileLen dest.path
  pure (packed.1, snapshotBytes, packed.2)

/-! ### The commit -/

/-- What `dest.display()` gives; a destination that was not asked for is UTF-8. -/
def displayed (opts : Options) (dest : PathBuf) : String :=
  match opts.dest with
  | some given => given.shown
  | none => dest.text

/-- Record the outcome. A container that never stopped goes back to running. -/
def commit (env : Env) (id : String) (opts : Options) (dest : PathBuf) : HostM Unit :=
  if opts.leaveRunning then do
    let now ← sys .now
    update env id fun s => { s with
      status := Status.running.asStr
      snapshot := some (displayed opts dest)
      checkpointedAt := some now }
  else
    setCheckpointed env id (displayed opts dest)

/-- Pack the dump and record it. -/
def store (env : Env) (codec : Codec Manifest) (id : String) (info : SnapshotMeta)
    (opts : Options) : HostM Report := do
  let dir := ContainerStateDir.forId env id
  let dest := destination env dir opts
  let now ← sys .now
  let lifecycle := { info.lifecycle with
    status := Status.checkpointed.asStr
    pid := none
    checkpointedAt := some now }
  let (manifest, snapshotBytes, imageBytes) ←
    pack env codec dest dir { info with lifecycle := lifecycle }
  sys (.removeDirAll dir.stagingDir)
  commit env id opts dest
  pure ⟨id, dest, snapshotBytes, imageBytes, manifest.entries.length⟩

/-- Everything after the mark. -/
def freeze (env : Env) (codec : Codec Manifest) (id : String) (info : SnapshotMeta)
    (opts : Options) : HostM Report := do
  makeImagesDir (ContainerStateDir.forId env id)
  dumpTree env id info opts
  settle info opts
  store env codec id info opts

/-- Freeze `id` and write a snapshot. -/
def checkpoint (env : Env) (codec : Codec Manifest) (id : String) (opts : Options) :
    HostM Report := do
  let info ← prepare env id opts
  setStatus env id .checkpointing
  freeze env codec id info opts

end Checkpoint

end Mincontainer
