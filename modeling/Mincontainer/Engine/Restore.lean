import Mincontainer.Engine.Checkpoint
import Mincontainer.Resources.Network
import Mincontainer.Snapshot.Reader

set_option relaxedAutoImplicit false
set_option autoImplicit false

/-!
# Rebuilding a container from a snapshot

`restore.rs`: verify everything, then build; an undo list for what was built; and `reconcile`,
which sweeps up after an operation that was killed. Each phase of `restore` is a function of its
own, in the order in which it runs them.

The model is of a release build: the debug assertion that an undo list was used is left out.

## Main definitions

* `Mincontainer.Restore.reconcile` — clean up after an interrupted operation.
* `Mincontainer.Restore.Rollback` — the undo list.
* `Mincontainer.Restore.restore` — the operation.
* `Mincontainer.Restore.adoptSnapshot` — take over a snapshot from another node.
-/

namespace Mincontainer

open Effects Files Bytes

namespace Restore

/-- Knobs for one restore. -/
structure Options where
  /-- Snapshot to restore from, in place of the recorded one. -/
  from_ : Option String
  /-- Gives each restored container a distinct address. -/
  index : UInt8
  /-- Restore established TCP connections. -/
  allowTcp : Bool
deriving DecidableEq, Repr

/-- What a restore produced. -/
structure Report where
  id : String
  pid : Int
  generation : UInt32
  snapshot : PathBuf
  snapshotBytes : Nat
  containerIp : Option String
deriving DecidableEq, Repr

/-! ### Reconciliation -/

/-- The record is left over from an operation that did not finish, or from a container that is
gone. -/
def isStale (st : ContainerState) : HostM Bool :=
  if st.status = "restoring" then pure true
  else if st.status = "checkpointing" then pure true
  else if st.status = "running" then
    match st.pid with
    | some pid => do
      let live ← sys (.pidAlive pid)
      pure (!live)
    | none => pure true
  else pure false

/-- Kill what is still alive under the recorded pid, and wait for it to exit. -/
def killRecorded (pid : Option Int) : HostM Unit :=
  match pid with
  | none => pure ()
  | some pid => do
    let live ← sys (.pidAlive pid)
    when live do
      sys (.kill pid)
      let _ ← sys (.awaitExit pid)
      pure ()

/-- Remove the cgroup and the veth that the configuration names. -/
def cleanResources (dir : ContainerStateDir) : HostM Unit := do
  match ← (Fallible.attempt dir.loadConfig : HostM (Except RuntimeError ContainerConfig)) with
  | .ok cfg =>
    (Cgroup.open cfg.id).cleanup
    when cfg.network (Network.cleanupById cfg.shortId)
  | .error _ => pure ()

/-- A snapshot is on disk: the recorded one, or the latest. -/
def hasSnapshot (env : Env) (dir : ContainerStateDir) (st : ContainerState) : HostM Bool := do
  let recorded ← (match st.snapshot with
    | some text => isFile (resolve env.cwd text)
    | none => pure false : HostM Bool)
  if recorded then pure true else isFile (dir.snapshotFile "latest")

/-- Remove what an interrupted operation left behind: processes, kernel objects and the scratch
directory. The result says whether there is a snapshot to go back to. -/
def clear (env : Env) (id : String) (st : ContainerState) : HostM Bool := do
  let dir := ContainerStateDir.forId env id
  killRecorded st.pid
  cleanResources dir
  sys (.removeDirAll dir.stagingDir)
  hasSnapshot env dir st

/-- Sweep the debris of an interrupted operation, and settle the record. -/
def sweep (env : Env) (id : String) (st : ContainerState) : HostM Unit := do
  let found ← clear env id st
  update env id fun s => { s with
    pid := none
    status := if found then Status.checkpointed.asStr else Status.failed.asStr }

/-- Clean up after a restore or checkpoint that was killed mid-flight. -/
def reconcile (env : Env) (id : String) : HostM Unit := do
  let dir := ContainerStateDir.forId env id
  let found ← dir.pathExists
  if !found then
    pure ()
  else
    let st ← dir.loadState
    let stale ← isStale st
    if !stale then pure () else sweep env id st

/-! ### The undo list -/

/-- Undo list for a restore in progress. -/
structure Rollback where
  id : String
  pid : Option Int
  cgroup : Option String
  network : Option Network
  armed : Bool

namespace Rollback

def new (id : String) : Rollback := ⟨id, none, none, none, true⟩

/-- Tear down the network, if it was set up. -/
def dropNetwork : Option Network → HostM Unit
  | some net => net.cleanup
  | none => pure ()

/-- Kill the restored tree, if it is up, and wait for it to exit. -/
def killTree : Option Int → HostM Unit
  | some pid => do
    sys (.kill pid)
    let _ ← sys (.awaitExit pid)
    pure ()
  | none => pure ()

/-- Remove the cgroup, if it was created; it is empty once the tree is gone. -/
def dropCgroup : Option String → HostM Unit
  | some cg => (Cgroup.open cg).cleanup
  | none => pure ()

/-- Tear down everything this restore created, in reverse order. -/
def run (env : Env) (rb : Rollback) : HostM Unit :=
  when rb.armed do
    dropNetwork rb.network
    killTree rb.pid
    dropCgroup rb.cgroup
    sys (.removeDirAll (ContainerStateDir.forId env rb.id).stagingDir)

end Rollback

/-! ### The phases of a restore -/

/-- The container exists, and is not running already. -/
def refuseRunning (env : Env) (id : String) : HostM ContainerState := do
  let dir := ContainerStateDir.forId env id
  let found ← dir.pathExists
  if !found then
    throw (.restore s!"container {id} not found")
  else
    let st ← dir.loadState
    match st.is .running, st.pid with
    | true, some pid =>
      let live ← sys (.pidAlive pid)
      if live then
        throw (.restore (s!"container {id} is already running as pid {pid} — " ++
          "restoring would give you two copies of the same container"))
      else
        pure st
    | _, _ => pure st

/-- The snapshot to restore from: the one asked for, the recorded one, or the latest. -/
def resolveSnapshot (env : Env) (dir : ContainerStateDir) (st : ContainerState) (opts : Options) :
    HostM PathBuf :=
  match opts.from_ with
  | some text => do
    let b : PathBuf := ⟨text, env.cwd⟩
    let there ← isFile b.path
    if !there then throw (.restore s!"snapshot {text} does not exist") else pure b
  | none => do
    let recorded ← (match st.snapshot with
      | some text => do
        let b : PathBuf := ⟨text, env.cwd⟩
        let there ← isFile b.path
        pure (if there then some b else none)
      | none => pure none : HostM (Option PathBuf))
    match recorded with
    | some b => pure b
    | none => do
      let latest := dir.snapshotFile "latest"
      let there ← isFile latest
      if there then
        pure (PathBuf.ofPath latest)
      else
        throw (.restore ("no snapshot found for this container; checkpoint it first or pass " ++
          s!"--from <file>. Looked in {display dir.snapshotsDir}"))

/-- Refuse a snapshot this host cannot honestly restore. -/
def checkCompatible (env : Env) (m : Manifest) : HostM Unit :=
  if m.sourceArch ≠ env.arch then
    throw (.restore (s!"snapshot was taken on {m.sourceArch} but this host is {env.arch} — " ++
      "process images are architecture-specific and cannot be translated"))
  else do
    let _ ← Criu.version
    pure ()

/-- Open and verify a snapshot, entirely before touching the host. -/
def examine (env : Env) (codec : Codec Manifest) (path : PathBuf) : HostM SnapshotReader := do
  let reader ← SnapshotReader.open codec path.path
  reader.verify
  checkCompatible env reader.manifest
  pure reader

/-- Everything before the first effect: sweep up, refuse a running container, and choose and examine the snapshot. -/
def select (env : Env) (codec : Codec Manifest) (id : String) (opts : Options) :
    HostM (PathBuf × SnapshotReader) := do
  reconcile env id
  let st ← refuseRunning env id
  let path ← resolveSnapshot env (ContainerStateDir.forId env id) st opts
  let reader ← examine env codec path
  pure (path, reader)

/-- Unpack the snapshot into the staging directory. -/
def unpack (reader : SnapshotReader) (staging : Path) : HostM Unit := do
  sys (.removeDirAll staging)
  reader.extractAll staging
  let there ← isDir (staging ++ ["images"])
  if !there then
    throw (.restore "snapshot contains no images/ entries — nothing to restore")
  else
    pure ()

/-- The root file system of the container is staged on this host. -/
def checkRootfs (env : Env) (cfg : ContainerConfig) : HostM Unit := do
  let there ← isDir (resolve env.cwd cfg.rootfs)
  if !there then
    throw (.restore (s!"rootfs {cfg.rootfs} does not exist on this host — a snapshot carries " ++
      "the container's memory, not its filesystem; stage the rootfs first"))
  else
    pure ()

/-- Copy a file over another. -/
def copyFile (src dst : Path) (f : String → RuntimeError) : HostM Unit := do
  let content ← orErr (← sys (.readFile src)) f
  createFile dst f
  appendTo dst content.raw f

/-- Put one of the logs back. -/
def restoreIoFile (staging ioDir : Path) (name : String) : HostM Unit := do
  let src := staging ++ ["io", name]
  let dst := ioDir ++ [name]
  let saved ← isFile src
  if saved then
    copyFile src dst fun e => .restore s!"restore {display dst}: {e}"
  else
    let there : Option Kind ← sys (.stat dst)
    when there.isNone (createFile dst fun e => .restore s!"create {display dst}: {e}")

/-- Put the container's stdout and stderr back where its restored descriptors expect them. -/
def restoreIoFiles (staging : Path) (dir : ContainerStateDir) : HostM Unit := do
  mkdirAll dir.ioDir fun e => .restore s!"mkdir io dir: {e}"
  restoreIoFile staging dir.ioDir "stdout"
  restoreIoFile staging dir.ioDir "stderr"

/-- The target of a mount inside the root file system. -/
def mountTarget (env : Env) (cfg : ContainerConfig) (m : ExternalMount) : Path :=
  resolve (resolve env.cwd cfg.rootfs)
    (String.ofList (m.containerPath.toList.dropWhile (· = '/')))

/-- The source of a mount exists; only the runtime's own directory is created when missing. -/
def prepareSource (env : Env) (m : ExternalMount) : HostM Unit := do
  let there : Option Kind ← sys (.stat (resolve env.cwd m.hostPath))
  when there.isNone <|
    if m.key = "mcio" then
      mkdirAll (resolve env.cwd m.hostPath) fun e => .restore s!"create io dir {m.hostPath}: {e}"
    else
      throw (.restore (s!"volume source {m.hostPath} does not exist on this host, but the " ++
        s!"container has {m.containerPath} bind-mounted from it — stage the volume before " ++
        "restoring, or the container comes back with its data missing"))

/-- Create each external mount's target inside the root file system. -/
def prepareMountPoints (env : Env) (cfg : ContainerConfig) : List ExternalMount → HostM Unit
  | [] => pure ()
  | m :: ms => do
    let target := mountTarget env cfg m
    mkdirAll target fun e => .restore s!"create mount point {display target}: {e}"
    prepareSource env m
    prepareMountPoints env cfg ms

/-- Everything between the mark and the engine. -/
def build (env : Env) (cfg : ContainerConfig) (dir : ContainerStateDir) : HostM Cgroup := do
  restoreIoFiles dir.stagingDir dir
  prepareMountPoints env cfg (Checkpoint.layoutFor cfg dir).externalMounts
  let cgroup ← Cgroup.create cfg.id
  cgroup.apply cfg.resources
  pure cgroup

/-- The options of the engine. -/
def engineOptions (cfg : ContainerConfig) (dir : ContainerStateDir) (opts : Options) :
    RestoreOptions where
  imagesDir := dir.stagingDir ++ ["images"]
  layout := Checkpoint.layoutFor cfg dir
  pidfile := dir.stagingDir ++ ["restored.pid"]
  tcpEstablished := opts.allowTcp

/-- The restored process shares none of the host's namespaces. -/
def assertIsolatedFromHost (pid : Int) : List String → HostM Unit
  | [] => pure ()
  | kind :: kinds => do
    let host ← sys (.nsInode none kind)
    let restored ← sys (.nsInode (some pid) kind)
    match (host : Option Nat), (restored : Option Nat) with
    | some h, some r =>
      if h = r then
        throw (.restore (s!"restored process {pid} shares the host's {kind} namespace " ++
          s!"(inode {h}) — the container was not isolated and must not be left running"))
      else
        assertIsolatedFromHost pid kinds
    | _, _ => assertIsolatedFromHost pid kinds

/-- Check the restored tree and wire it up. The network handle, the last thing to be built, is the
result; a failure leaves nothing of it to undo. -/
def wire (cfg : ContainerConfig) (cgroup : Cgroup) (pid : Int) (index : UInt8) :
    HostM (Option Network) := do
  let live ← sys (.pidAlive pid)
  if !live then
    throw (.restore s!"restored pid {pid} died immediately after restore")
  else
    cgroup.addProcess pid
    assertIsolatedFromHost pid ["pid", "mnt", "uts", "ipc", "net"]
    if cfg.network then
      let net ← Network.setup cfg.shortId pid index
      pure (some net)
    else
      pure none

/-- The way out of a failure that is undone: run the undo list, then put the record back. -/
def undo {α : Type} (env : Env) (id : String) (rb : Rollback) (e : RuntimeError) : HostM α := do
  rb.run env
  let _ ← (Fallible.attempt (setStatus env id .checkpointed) : HostM (Except RuntimeError Unit))
  throw e

/-- Record the restored container. -/
def commit (env : Env) (id : String) (m : Manifest) (pid : Int) : HostM Unit := do
  setRestored env id pid
  let here : String ← sys .hostname
  when (m.sourceHost ≠ here) (update env id fun s => { s with originHost := some m.sourceHost })

/-- What follows the commit. -/
def report (env : Env) (id : String) (path : PathBuf) (pid : Int) (net : Option Network) :
    HostM Report := do
  let dir := ContainerStateDir.forId env id
  sys (.removeDirAll dir.stagingDir)
  let st ← (Fallible.attempt dir.loadState : HostM (Except RuntimeError ContainerState))
  let generation := match st with
    | .ok s => s.generation
    | .error _ => 0
  let snapshotBytes ← Checkpoint.fileLen path.path
  pure ⟨id, pid, generation, path, snapshotBytes, net.map Network.containerIp⟩

/-- Everything after the tree is up. -/
def finish (env : Env) (id : String) (opts : Options) (path : PathBuf) (m : Manifest)
    (cgroup : Cgroup) (pid : Int) (rb : Rollback) : HostM Report := do
  let built ← (Fallible.attempt (wire m.config cgroup pid opts.index) :
    HostM (Except RuntimeError (Option Network)))
  match built with
  | .error e => undo env id rb e
  | .ok net =>
    commit env id m pid
    report env id path pid net

/-- Bring the tree back. -/
def revive (env : Env) (id : String) (opts : Options) (path : PathBuf) (m : Manifest)
    (cgroup : Cgroup) : HostM Report := do
  let dir := ContainerStateDir.forId env id
  let rb := { Rollback.new id with cgroup := some m.config.id }
  match ← Criu.restore id (engineOptions m.config dir opts) with
  | .error e => undo env id rb (.restore s!"{e}\n\nThe snapshot is untouched; fix the cause and retry.")
  | .ok pid => finish env id opts path m cgroup pid { rb with pid := some pid }

/-- Everything after the mark. -/
def rebuild (env : Env) (id : String) (opts : Options) (path : PathBuf) (m : Manifest) :
    HostM Report := do
  let cgroup ← build env m.config (ContainerStateDir.forId env id)
  revive env id opts path m cgroup

/-- Restore `id` from a snapshot and resume it on this host. -/
def restore (env : Env) (codec : Codec Manifest) (id : String) (opts : Options) :
    HostM Report := do
  let (path, reader) ← select env codec id opts
  unpack reader (ContainerStateDir.forId env id).stagingDir
  checkRootfs env reader.manifest.config
  setStatus env id .restoring
  rebuild env id opts path reader.manifest

/-! ### Snapshots from another node -/

/-- Adopt a snapshot that arrived from another node, creating local state for its container. -/
def adoptSnapshot (env : Env) (codec : Codec Manifest) (path : PathBuf) :
    HostM (String × ContainerConfig) := do
  let reader ← SnapshotReader.open codec path.path
  reader.verify
  let m := reader.manifest
  let lifecycle := { m.lifecycle with
    status := Status.checkpointed.asStr
    pid := none
    snapshot := some path.text
    originHost := some m.sourceHost }
  adopt env lifecycle m.config
  pure (m.containerId, m.config)

end Restore

end Mincontainer
