import Mincontainer.Host.Calls

set_option relaxedAutoImplicit false
set_option autoImplicit false

/-!
# The state store

`state.rs`: the directory of a container, its `state.json` and `config.json`, and the
read-modify-write operations on the record. A save creates (truncates) the file and then writes
the text: two calls, between which the record is unreadable.

## Main definitions

* `Mincontainer.Env` — what a process inherits: its home and working directories, and the
  architecture it was built for.
* `Mincontainer.ContainerStateDir` — the paths of a container.
* `Mincontainer.ContainerStateDir.loadState`, `Mincontainer.ContainerStateDir.saveState`,
  `Mincontainer.update` — the record on disk.
* `Mincontainer.initContainer`, `Mincontainer.setRunningUnder`, `Mincontainer.setStopped`,
  `Mincontainer.setCheckpointed`, `Mincontainer.setRestored` — who writes it.
-/

namespace Mincontainer

open Effects Files

/-- What a process of the runtime inherits from where it runs. -/
structure Env where
  /-- The directory `HOME` names. -/
  home : Path
  /-- The working directory. -/
  cwd : Path
  /-- The architecture of the build. -/
  arch : String
  home_clean : Clean home
  cwd_clean : Clean cwd

/-- The state directory of one container. -/
structure ContainerStateDir where
  root : Path
deriving DecidableEq, Repr

namespace ContainerStateDir

/-- The directory of all containers. -/
def containers (env : Env) : Path := env.home ++ [".mincontainer", "containers"]

def forId (env : Env) (id : String) : ContainerStateDir :=
  ⟨resolve env.home (".mincontainer/containers/" ++ id)⟩

def stateFile (dir : ContainerStateDir) : Path := dir.root ++ ["state.json"]

def configFile (dir : ContainerStateDir) : Path := dir.root ++ ["config.json"]

/-- Directory holding the container's stdout and stderr. -/
def ioDir (dir : ContainerStateDir) : Path := dir.root ++ ["io"]

/-- Where snapshots for this container live. -/
def snapshotsDir (dir : ContainerStateDir) : Path := dir.root ++ ["snapshots"]

/-- Default snapshot path for a given name. -/
def snapshotFile (dir : ContainerStateDir) (name : String) : Path :=
  resolve dir.snapshotsDir (name ++ ".mcsnap")

/-- Scratch directory a restore unpacks into before it commits. -/
def stagingDir (dir : ContainerStateDir) : Path := dir.root ++ ["staging"]

/-- Create the directory of all containers. -/
def init (env : Env) : HostM Unit :=
  mkdirAll (containers env) fun e => .config s!"mkdir state dir: {e}"

/-- Create the container's directories. -/
def create (dir : ContainerStateDir) : HostM Unit := do
  let mk (d : Path) : HostM Unit := mkdirAll d fun e => .config s!"mkdir {display d}: {e}"
  mk dir.root
  mk dir.ioDir
  mk dir.snapshotsDir

def loadConfig (dir : ContainerStateDir) : HostM ContainerConfig := do
  let content ← orErr (← sys (.readFile dir.configFile)) fun e => .config s!"read config: {e}"
  match content with
  | .doc _ (.config cfg) => pure cfg
  | _ => throw (.json "not a container configuration")

def loadState (dir : ContainerStateDir) : HostM ContainerState := do
  let content ← orErr (← sys (.readFile dir.stateFile)) fun e => .config s!"read state: {e}"
  match content with
  | .doc _ (.state st) => pure st
  | _ => throw (.json "not a container state")

/-- Write a JSON document: create or truncate the file, then write the text. -/
def writeDoc (p : Path) (d : Doc) (err : String → RuntimeError) : HostM Unit := do
  createFile p err
  match ← sys (.putDoc p d) with
  | .ok _ => pure ()
  | .error (_, e) => throw (err e)

def saveState (dir : ContainerStateDir) (st : ContainerState) : HostM Unit :=
  writeDoc dir.stateFile (.state st) fun e => .config s!"write state: {e}"

def saveConfig (dir : ContainerStateDir) (cfg : ContainerConfig) : HostM Unit :=
  writeDoc dir.configFile (.config cfg) fun e => .config s!"write config: {e}"

/-- Remove the container's directory with everything in it. -/
def cleanup (dir : ContainerStateDir) : HostM Unit := do
  match ← sys (.removeTree dir.root) with
  | .ok _ => pure ()
  | .error (_, e) => throw (.config s!"cleanup {display dir.root}: {e}")

/-- The container's directory exists. -/
def pathExists (dir : ContainerStateDir) : HostM Bool := do
  let k : Option Kind ← sys (.stat dir.root)
  pure k.isSome

end ContainerStateDir

/-- Whether a path is a regular file. -/
def isFile (p : Path) : HostM Bool := do
  let k : Option Kind ← sys (.stat p)
  pure (k == some .file)

/-- Whether a path is a directory. -/
def isDir (p : Path) : HostM Bool := do
  let k : Option Kind ← sys (.stat p)
  pure (k == some .dir)

/-- The record of a container that was just created. -/
def ContainerState.new (id createdAt : String) : ContainerState where
  id := id
  pid := none
  status := "created"
  exitCode := none
  createdAt := createdAt
  startedAt := none
  stoppedAt := none
  snapshot := none
  checkpointedAt := none
  restoredAt := none
  generation := 0
  originHost := none
  supervisorPid := none

/-- Create a container's directories and its first record. -/
def initContainer (env : Env) (id : String) : HostM ContainerState := do
  ContainerStateDir.init env
  let dir := ContainerStateDir.forId env id
  dir.create
  let now ← sys .now
  let state := ContainerState.new id now
  dir.saveState state
  pure state

/-- The record of a container, when there is one. -/
def getContainer (env : Env) (id : String) : HostM ContainerState := do
  let dir := ContainerStateDir.forId env id
  let found ← dir.pathExists
  if !found then throw (.config s!"container {id} not found") else dir.loadState

/-- Read-modify-write one container's state file. -/
def update (env : Env) (id : String) (f : ContainerState → ContainerState) : HostM Unit := do
  let dir := ContainerStateDir.forId env id
  let state ← dir.loadState
  dir.saveState (f state)

/-- Mark a container running, optionally recording the supervisor that owns it. -/
def setRunningUnder (env : Env) (id : String) (pid : Int) (supervisor : Option Int) :
    HostM Unit := do
  let now ← sys .now
  update env id fun s => { s with
    status := Status.running.asStr
    pid := some pid
    startedAt := some now
    supervisorPid := supervisor }

/-- Record the end of a container. -/
def setStopped (env : Env) (id : String) (exitCode : Int) : HostM Unit := do
  let now ← sys .now
  update env id fun s => { s with
    status := Status.stopped.asStr
    exitCode := some exitCode
    stoppedAt := some now }

/-- Move a container to `status`, leaving every other field alone. -/
def setStatus (env : Env) (id : String) (status : Status) : HostM Unit :=
  update env id fun s => { s with status := status.asStr }

/-- Record a completed checkpoint; the pid is cleared because the dump engine has killed the
process tree. -/
def setCheckpointed (env : Env) (id : String) (snapshot : String) : HostM Unit := do
  let now ← sys .now
  update env id fun s => { s with
    status := Status.checkpointed.asStr
    pid := none
    supervisorPid := none
    snapshot := some snapshot
    checkpointedAt := some now }

/-- Record a completed restore. -/
def setRestored (env : Env) (id : String) (pid : Int) : HostM Unit := do
  let now ← sys .now
  update env id fun s => { s with
    status := Status.running.asStr
    pid := some pid
    restoredAt := some now
    supervisorPid := none
    generation := s.generation + 1
    exitCode := none
    stoppedAt := none }

/-- Write a state record that did not originate here. -/
def adopt (env : Env) (state : ContainerState) (config : ContainerConfig) : HostM Unit := do
  ContainerStateDir.init env
  let dir := ContainerStateDir.forId env state.id
  dir.create
  dir.saveState state
  dir.saveConfig config

end Mincontainer
