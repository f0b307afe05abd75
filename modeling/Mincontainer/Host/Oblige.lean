import Mincontainer.Bytes.Codec
import Mincontainer.Host.Symlinks
import Mincontainer.State.Store

set_option relaxedAutoImplicit false
set_option autoImplicit false

/-!
# A host that obliges

One reply for each call: the one in which nothing goes wrong that does not have to. With it a
program can be run on a concrete host, step by step and by evaluation alone; a policy that departs
from it at a chosen call describes a failure there, and one that stops replying a kill.

## Main definitions

* `Mincontainer.Host.oblige` — the reply.
* `Mincontainer.obliging`, `Mincontainer.obligingLinked`, `Mincontainer.killedAt`,
  `Mincontainer.departing` — the policies.
* `Mincontainer.Demo` — one container on one host, to run programs on.
-/

namespace Mincontainer

open Effects Files

namespace Host

/-- The reply in which nothing goes wrong that does not have to; calls that do not return get
none. -/
def oblige (h : Host) : (o : HostOp) → Option o.Reply
  | .stat p => some (h.kind p)
  | .readFile p => some <|
    match h.file p with
    | some c => .ok c
    | none => .error "No such file or directory (os error 2)"
  | .openFile p => some <|
    match h.file p with
    | some c => .ok c.raw.length
    | none => .error "No such file or directory (os error 2)"
  | .readAll p => some <|
    match h.file p with
    | some c => (if c.raw = [] then [] else [c.raw], none)
    | none => ([], some "No such file or directory (os error 2)")
  | .readSpan _ span => some (if span = [] then [] else [span], none)
  | .listDir p => some (.ok ((h.fs.childFiles p).map Prod.fst))
  | .listDirs p => some (.ok (h.fs.childDirs p))
  | .mkdirAll p => some <|
    if h.clearWay p then .ok () else .error (0, "Not a directory (os error 20)")
  | .createFile p => some <|
    if h.kind p.dropLast = some .dir ∧ h.kind p ≠ some .dir ∧ p ≠ [] then .ok ()
    else .error "No such file or directory (os error 2)"
  | .append p _ => some <|
    if h.kind p = some .file then .ok () else .error (0, "Bad file descriptor (os error 9)")
  | .putDoc p _ => some <|
    if h.kind p = some .file then .ok [0x7B, 0x7D]
    else .error ([], "Bad file descriptor (os error 9)")
  | .removeFile _ => some ()
  | .removeDirAll _ => some ()
  | .removeTree p => some <|
    if h.kind p = some .dir then .ok () else .error ([], "Not a directory (os error 20)")
  | .removeDir p => some (h.removable p)
  | .rename src dst => some <|
    if h.kind src = some .file ∧ h.kind dst.dropLast = some .dir ∧ h.kind dst ≠ some .dir ∧
        dst ≠ [] then .ok ()
    else .error "No such file or directory (os error 2)"
  | .now => some "2026-01-01T00:00:00Z"
  | .hostname => some "node"
  | .kernelRelease => some "6.1.0"
  | .pidAlive pid => some (h.alive pid)
  | .kill _ => some ()
  | .term _ => some ()
  | .awaitExit _ => some true
  | .nsInode _ _ => some none
  | .connections _ => some []
  | .namespaces _ => some ⟨none, none, none, none, none⟩
  | .mounts _ => some (.ok [])
  | .fds _ => some (.ok [])
  | .cgroupStats _ => some ⟨"", 0, "", "", 0⟩
  | .startTree _ => some (.ok (h.procs.foldl (fun m t => max m (t.pid + 1)) 100))
  | .waitTree pid => if h.alive pid then none else some 0
  | .fork _ _ => some (.ok 7)
  | .criuVersion => some (.ok "3.17.1")
  | .criuDump opts => some <|
    if h.alive opts.pid then .ok [("core-1.img", [1])] else .error ⟨false, [], "no such process"⟩
  | .criuRestore _ _ => some <|
    let pid := h.procs.foldl (fun m t => max m (t.pid + 1)) 100
    .up pid (.ok pid)
  | .delegate => some (.ok ())
  | .cgroupWrite leaf _ _ => some <|
    if h.kind leaf = some .dir then .ok () else .error "No such file or directory (os error 2)"
  | .cgroupAdd leaf pid => some <|
    if h.kind leaf = some .dir ∧ h.alive pid then .ok ()
    else .error "No such file or directory (os error 2)"
  | .net c => some (if h.netCan c then .ok () else .error "Cannot find device")
  | .resolveAddr _ => some (.ok true)
  | .connect _ => some (.ok ())
  | .send _ => some (.ok ())
  | .flush => some (.ok ())
  | .recv _ => some (.error "Resource temporarily unavailable (os error 11)")
  | .spin => none
  | .abort => none

end Host

/-- Every call is obliged. -/
def obliging : ℕ → Host → (o : HostOp) → Option o.Reply := fun _ h o => h.oblige o

/-- Every call is obliged, on the path that it leads to. -/
def obligingLinked : ℕ → Linked → (o : HostOp) → Option o.Reply := fun _ w o =>
  (w.host.oblige (o.through w.symlinks)).map (cast (HostOp.reply_through w.symlinks o))

/-- Every call is obliged until the process is killed before call number `k`. -/
def killedAt (k : ℕ) : ℕ → Host → (o : HostOp) → Option o.Reply :=
  fun i h o => if i < k then h.oblige o else none

/-- Every call is obliged but those that get a reply from `other`. -/
def departing (other : ℕ → Host → (o : HostOp) → Option o.Reply) :
    ℕ → Host → (o : HostOp) → Option o.Reply :=
  fun i h o => match other i h o with
    | some r => some r
    | none => h.oblige o

/-! ### One container on one host -/

namespace Demo

/-- A process that works in the home directory. -/
def env : Env := ⟨["root"], ["root"], "x86_64", by decide, by decide⟩

def config : ContainerConfig where
  id := "web"
  hostname := "web"
  rootfs := "/srv"
  command := ["/bin/sh"]
  env := []
  volumes := []
  resources := ⟨0, 0, 100000, 0⟩
  network := false
  seccomp := true
  dropCaps := true

/-- The record right after a checkpoint. -/
def frozen : ContainerState where
  id := "web"
  pid := none
  status := "checkpointed"
  exitCode := none
  createdAt := "2026-01-01T00:00:00Z"
  startedAt := some "2026-01-01T00:00:00Z"
  stoppedAt := none
  snapshot := none
  checkpointedAt := some "2026-01-01T00:00:00Z"
  restoredAt := none
  generation := 0
  originHost := none
  supervisorPid := none

/-- The record while the container runs as process 42. -/
def running : ContainerState := { frozen with
  status := "running"
  pid := some 42
  checkpointedAt := none }

def manifest : Manifest where
  formatVersion := 1
  producer := "mincontainer/0.1.0"
  engine := "criu"
  engineVersion := "3.17.1"
  createdAt := "2026-01-01T00:00:00Z"
  sourceHost := "node"
  sourceArch := "x86_64"
  sourceKernel := "6.1.0"
  containerId := "web"
  config := config
  lifecycle := frozen
  cgroup := ⟨"", 0, "", "", 0⟩
  namespaces := ⟨none, none, none, none, none⟩
  mounts := []
  openFds := []
  checkpointPid := 42
  entries := [⟨"images/core-1.img", 1, 2768625435⟩]

/-- The JSON text of a manifest of a container with or without a network, whose table of entries has
the given text. -/
def manifestTextOf (network table : String) : String :=
  "\x7b\"format_version\":1,\"producer\":\"mincontainer/0.1.0\",\"engine\":\"criu\"," ++
  "\"engine_version\":\"3.17.1\",\"created_at\":\"2026-01-01T00:00:00Z\"," ++
  "\"source_host\":\"node\",\"source_arch\":\"x86_64\",\"source_kernel\":\"6.1.0\"," ++
  "\"container_id\":\"web\",\"config\":\x7b\"id\":\"web\",\"hostname\":\"web\"," ++
  "\"rootfs\":\"/srv\",\"command\":[\"/bin/sh\"],\"env\":[],\"volumes\":[]," ++
  "\"resources\":\x7b\"memory_max\":0,\"cpu_quota\":0,\"cpu_period\":100000," ++
  "\"pids_max\":0\x7d,\"network\":" ++ network ++ ",\"seccomp\":true,\"drop_caps\":true\x7d," ++
  "\"lifecycle\":\x7b\"id\":\"web\",\"pid\":null,\"status\":\"checkpointed\"," ++
  "\"exit_code\":null,\"created_at\":\"2026-01-01T00:00:00Z\"," ++
  "\"started_at\":\"2026-01-01T00:00:00Z\",\"stopped_at\":null,\"snapshot\":null," ++
  "\"checkpointed_at\":\"2026-01-01T00:00:00Z\",\"restored_at\":null,\"generation\":0," ++
  "\"origin_host\":null,\"supervisor_pid\":null\x7d,\"cgroup\":\x7b\"memory_max\":\"\"," ++
  "\"memory_peak\":0,\"cpu_max\":\"\",\"pids_max\":\"\",\"cpu_usage_usec\":0\x7d," ++
  "\"namespaces\":\x7b\"pid\":null,\"mnt\":null,\"net\":null,\"uts\":null," ++
  "\"ipc\":null\x7d,\"mounts\":[],\"open_fds\":[],\"checkpoint_pid\":42,\"dump_ms\":1.5," ++
  "\"entries\":[" ++ table ++ "]\x7d"

/-- The row of the image in the table of entries. -/
def imageRow : String :=
  "\x7b\"name\":\"images/core-1.img\",\"len\":1,\"crc32\":2768625435\x7d"

/-- The JSON text of the manifest. -/
def manifestText : String := manifestTextOf "false" imageRow

/-- The serialiser at a manifest with this JSON text. -/
def codecOf (text : String) (m : Manifest) : Bytes.Codec Manifest where
  encode _ := text.toUTF8.data.toList
  decode b :=
    if b = text.toUTF8.data.toList then .ok m else .error "expected value at line 1 column 1"

/-- The serialiser at this manifest. -/
def codec : Bytes.Codec Manifest := codecOf manifestText manifest

/-- The configuration of a networked container. -/
def networked (a : String) : ContainerConfig := { config with id := a, network := true }

/-- The manifest of the container with a network. -/
def networkedManifest : Manifest := { manifest with config := networked "web" }

/-- The serialiser at this manifest. -/
def networkedCodec : Bytes.Codec Manifest := codecOf (manifestTextOf "true" imageRow) networkedManifest

/-- The directories of a host. -/
def dirs : List Path :=
  [[], ["root"], ["root", ".mincontainer"], ["root", ".mincontainer", "containers"],
    ["root", ".mincontainer", "containers", "web"],
    ["root", ".mincontainer", "containers", "web", "io"],
    ["root", ".mincontainer", "containers", "web", "snapshots"],
    ["srv"], ["sys"], ["sys", "fs"], ["sys", "fs", "cgroup"], ["tmp"]]

/-- A file of the container's state directory. -/
def place (p : Path) : Path := ["root", ".mincontainer", "containers", "web"] ++ p

/-- A host that holds the container with the given record, further files and trees. -/
def host (st : ContainerState) (files : List (Path × Content)) (procs : List Proc) : Host where
  fs := ⟨dirs.map (fun p => (p, .dir)) ++
    [(place ["state.json"], .file (.doc [0x7B, 0x7D] (.state st))),
      (place ["config.json"], .file (.doc [0x7B, 0x7D] (.config config)))] ++
    files.map fun f => (f.1, .file f.2)⟩
  procs := procs
  links := []

/-- A host on which the container runs as process 42. -/
def live : Host := host running [] [⟨42, "web", none⟩]

end Demo

end Mincontainer
