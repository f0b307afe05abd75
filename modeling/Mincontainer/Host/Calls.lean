import Mincontainer.Effects.Program
import Mincontainer.Files.Path
import Mincontainer.Snapshot.Manifest

set_option relaxedAutoImplicit false
set_option autoImplicit false

/-!
# The calls the runtime makes on its host

Every effect of the runtime is one of these calls: file system calls, process and cgroup calls,
the `ip` and `nsenter` commands, the checkpoint engine, and the socket of a migration. An error
reply carries the text the operating system gives; an interrupted write carries what had reached
the disk.

## Main definitions

* `Mincontainer.Content` — what a file holds. A JSON document is kept together with its text, so
  that reading it back gives what was written.
* `Mincontainer.HostOp`, `Mincontainer.HostOp.Reply` — the calls and their replies.
* `Mincontainer.HostM` — programs over these calls that may fail with a `RuntimeError`.
-/

namespace Mincontainer

open Effects Files

/-! ### File contents -/

/-- A JSON document of the state directory. -/
inductive Doc where
  | state (st : ContainerState)
  | config (cfg : ContainerConfig)
deriving DecidableEq, Repr

/-- What a file holds: plain bytes, or a JSON text with the document it decodes to. -/
inductive Content where
  | bytes (b : Bytes)
  | doc (text : Bytes) (d : Doc)
deriving DecidableEq, Repr

/-- The bytes of a file. -/
def Content.raw : Content → Bytes
  | .bytes b => b
  | .doc text _ => text

/-! ### The checkpoint engine -/

/-- A mount the engine must treat as supplied from outside. -/
structure ExternalMount where
  containerPath : String
  /-- Stable key used to pair dump and restore. -/
  key : String
  hostPath : String
deriving DecidableEq, Repr

/-- Arguments shared by dump and restore that describe a container's shape. -/
structure Layout where
  root : Option String
  externalMounts : List ExternalMount
  emptyNetNs : Bool
deriving DecidableEq, Repr

/-- Options for a dump. -/
structure DumpOptions where
  pid : Int
  imagesDir : Path
  layout : Layout
  leaveRunning : Bool
  tcpEstablished : Bool
deriving DecidableEq, Repr

/-- Options for a restore. -/
structure RestoreOptions where
  imagesDir : Path
  layout : Layout
  /-- File the engine writes the restored root pid into. -/
  pidfile : Path
  tcpEstablished : Bool
deriving DecidableEq, Repr

/-- What is left of a dump that failed: whether the tree was lost with it, the images already
written, and the engine's message. -/
structure DumpFailure where
  killed : Bool
  images : List (String × Bytes)
  msg : String
deriving DecidableEq, Repr

/-- How a run of the engine's restore ended. -/
inductive EngineRestore where
  /-- The engine failed and left no process. -/
  | failed (msg : String)
  /-- The engine left a live detached tree with this root pid; `readback` is what reading the
  pidfile gives. -/
  | up (pid : Int) (readback : Except String Int)

/-! ### Network commands -/

/-- The commands of `network.rs`. -/
inductive NetCommand where
  | linkShow (name : String)
  | linkAddBridge (name : String)
  | addrAdd (addr dev : String)
  | linkSetUp (name : String)
  | iptables (args : List String)
  | linkAddVeth (name peer : String)
  | linkSetMaster (name bridge : String)
  | linkSetNetns (name : String) (pid : Int)
  | nsenter (pid : Int) (args : List String)
  | linkDelete (name : String)
deriving DecidableEq, Repr

/-! ### Calls and replies -/

/-- A directory or a regular file. -/
inductive Kind where
  | dir
  | file
deriving DecidableEq, Repr

/-- An established TCP connection of the container. -/
structure Connection where
  local_ : String
  remote : String
deriving DecidableEq, Repr

/-- The calls. -/
inductive HostOp where
  | stat (p : Path)
  | readFile (p : Path)
  /-- Open a file and ask for its length. -/
  | openFile (p : Path)
  /-- Read an open file to its end. -/
  | readAll (p : Path)
  /-- Read a span of an open file that nobody writes, in as many pieces as the kernel likes; the
  program knows the span from the content the file was opened with. -/
  | readSpan (p : Path) (span : Bytes)
  /-- The regular files in a directory. -/
  | listDir (p : Path)
  /-- The directories in a directory. -/
  | listDirs (p : Path)
  | mkdirAll (p : Path)
  /-- Create a file, or truncate it. -/
  | createFile (p : Path)
  | append (p : Path) (data : Bytes)
  /-- Write the JSON text of a document into a file just created. -/
  | putDoc (p : Path) (d : Doc)
  | removeFile (p : Path)
  | removeDirAll (p : Path)
  /-- The same where the outcome is looked at. -/
  | removeTree (p : Path)
  | removeDir (p : Path)
  | rename (src dst : Path)
  | now
  | hostname
  | kernelRelease
  /-- Read and classify the state of a process. -/
  | pidAlive (pid : Int)
  | kill (pid : Int)
  /-- Ask a process to end. -/
  | term (pid : Int)
  /-- Poll until a process is gone or a deadline passes. -/
  | awaitExit (pid : Int)
  /-- The inode of a namespace of a process, or of this process. -/
  | nsInode (pid : Option Int) (kind : String)
  | connections (pid : Int)
  | namespaces (pid : Int)
  | mounts (pid : Int)
  | fds (pid : Int)
  | cgroupStats (leaf : Path)
  /-- Fork the tree of the container `owner`, which waits before it does anything, and learn its
  pid; the pid is zero when the namespaces could not be made. -/
  | startTree (owner : String)
  /-- Wait until a tree is gone. -/
  | waitTree (pid : Int)
  /-- Fork the supervisor of the container `id`; the reply is its pid. -/
  | fork (id : String) (cfg : ContainerConfig)
  | criuVersion
  | criuDump (opts : DumpOptions)
  /-- Rebuild the tree of the container `owner`, whose images the options name. -/
  | criuRestore (owner : String) (opts : RestoreOptions)
  /-- Enable the controllers needed for child cgroups. -/
  | delegate
  | cgroupWrite (leaf : Path) (file value : String)
  | cgroupAdd (leaf : Path) (pid : Int)
  | net (c : NetCommand)
  /-- Look a target up; the reply says whether it has an address. -/
  | resolveAddr (target : String)
  | connect (target : String)
  | send (data : Bytes)
  | flush
  | recv (n : Nat)
  /-- Keep running without another call. -/
  | spin
  /-- Unwind and end the process without returning. -/
  | abort
deriving DecidableEq, Repr

/-- The replies of each call. -/
@[reducible] def HostOp.Reply : HostOp → Type
  | .stat _ => Option Kind
  | .readFile _ => Except String Content
  | .openFile _ => Except String Nat
  | .readAll _ => List Bytes × Option String
  | .readSpan _ _ => List Bytes × Option String
  | .listDir _ => Except String (List String)
  | .listDirs _ => Except String (List String)
  | .mkdirAll _ => Except (Nat × String) Unit
  | .createFile _ => Except String Unit
  | .append _ _ => Except (Nat × String) Unit
  | .putDoc _ _ => Except (Bytes × String) Bytes
  | .removeFile _ => Unit
  | .removeDirAll _ => Unit
  | .removeTree _ => Except (List Path × String) Unit
  | .removeDir _ => Bool
  | .rename _ _ => Except String Unit
  | .now => String
  | .hostname => String
  | .kernelRelease => String
  | .pidAlive _ => Bool
  | .kill _ => Unit
  | .term _ => Unit
  | .awaitExit _ => Bool
  | .nsInode _ _ => Option Nat
  | .connections _ => List Connection
  | .namespaces _ => NamespaceSnapshot
  | .mounts _ => Except String (List MountEntry)
  | .fds _ => Except String (List FdEntry)
  | .cgroupStats _ => CgroupSnapshot
  | .startTree _ => Except String Int
  | .waitTree _ => Int
  | .fork _ _ => Except String Int
  | .criuVersion => Except String String
  | .criuDump _ => Except DumpFailure (List (String × Bytes))
  | .criuRestore _ _ => EngineRestore
  | .delegate => Except String Unit
  | .cgroupWrite _ _ _ => Except String Unit
  | .cgroupAdd _ _ => Except String Unit
  | .net _ => Except String Unit
  | .resolveAddr _ => Except String Bool
  | .connect _ => Except String Unit
  | .send _ => Except (Nat × String) Unit
  | .flush => Except String Unit
  | .recv _ => Except String Bytes
  | .spin => Empty
  | .abort => Empty

/-- The signature of the host. -/
abbrev HostSig : Signature := ⟨HostOp, HostOp.Reply⟩

/-- Programs of the runtime: sequences of host calls that may fail. -/
abbrev HostM := Fallible HostSig RuntimeError

/-- Perform one host call. -/
def sys (o : HostOp) : HostM o.Reply := Fallible.sys (S := HostSig) o

/-- The function ends without returning, as a panic does. -/
def abort {α : Type} : HostM α := do
  let r ← sys .abort
  nomatch (r : Empty)

/-- A result that is already known. -/
def ofExcept {α : Type} : Except RuntimeError α → HostM α
  | .ok a => pure a
  | .error e => throw e

/-- The value of a reply; its error ends the function with what `f` makes of it. -/
def orErr {ε α : Type} (r : Except ε α) (f : ε → RuntimeError) : HostM α :=
  match r with
  | .ok a => pure a
  | .error e => throw (f e)

/-- Do `x` under a condition. -/
def when (c : Prop) [Decidable c] (x : HostM Unit) : HostM Unit := if c then x else pure ()

/-- Create a directory and the missing ones above it. -/
def mkdirAll (p : Path) (f : String → RuntimeError) : HostM Unit := do
  match ← sys (.mkdirAll p) with
  | .ok _ => pure ()
  | .error (_, e) => throw (f e)

/-- Create a file, or truncate it. -/
def createFile (p : Path) (f : String → RuntimeError) : HostM Unit := do
  orErr (← sys (.createFile p)) f

/-- Write bytes at the end of an open file. -/
def appendTo (p : Path) (data : Bytes) (f : String → RuntimeError) : HostM Unit := do
  match ← sys (.append p data) with
  | .ok _ => pure ()
  | .error (_, e) => throw (f e)

/-- Write the buffers of a read loop at the end of an open file, one after the other. -/
def copyChunks (p : Path) (f : String → RuntimeError) : List Bytes → HostM Unit
  | [] => pure ()
  | b :: bs => do
    appendTo p b f
    copyChunks p f bs

end Mincontainer
