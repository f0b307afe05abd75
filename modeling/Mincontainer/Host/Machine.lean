import Mincontainer.Effects.Exec
import Mincontainer.Files.Tree
import Mincontainer.Host.Calls

set_option relaxedAutoImplicit false
set_option autoImplicit false

/-!
# The host

A Linux host as the runtime sees it: one file tree, which includes the cgroup hierarchy; the
live process trees that belong to containers, each named by the host pid of its root; and the
network links of the host's own namespace.

A process tree is the first process of a pid namespace with everything below it: killing its
root kills the tree, closes its network namespace and with it both ends of a veth pair one of
whose ends had been moved there. A cgroup leaf can be removed once no process is in it.

The file tree has no symbolic links; `Mincontainer.linkedMachine` lays them over it. It takes names and
paths of any length, except where a snapshot is unpacked. Removing a file, removing a directory with all
that is in it and killing a process always succeed where the code ignores whether they do.

Replies that are data of the outside world (the time, procfs, the engine's version, the bytes a
peer sends) are arbitrary, and a call whose failure the code handles may fail at any time.

## Main definitions

* `Mincontainer.Host` — the state of a host.
* `Mincontainer.Host.enabled`, `Mincontainer.Host.next` — the replies a call can give, and the
  host afterwards.
* `Mincontainer.machine` — the resulting machine.
* `Mincontainer.Host.Exits` — the environment in which trees end on their own.
-/

namespace Mincontainer

open Effects Files

/-- A live process tree. -/
structure Proc where
  /-- Host pid of the root. -/
  pid : Int
  /-- The container it is a tree of. -/
  owner : String
  /-- The cgroup leaf it was moved into. -/
  leaf : Option Path
deriving DecidableEq, Repr

/-- A network link of the host. -/
structure Link where
  name : String
  /-- The other end of a veth pair. -/
  peer : Option String
  /-- Root pid of the tree whose network namespace holds the other end. -/
  holder : Option Int
deriving DecidableEq, Repr

/-- The state of a host. -/
structure Host where
  fs : Files.Tree Content
  procs : List Proc
  links : List Link
deriving DecidableEq, Repr

namespace Host

/-! ### Reading the state -/

/-- A tree with this root pid is alive. -/
def alive (h : Host) (pid : Int) : Bool := h.procs.any fun t => t.pid = pid

/-- The live trees of a container. -/
def treesOf (h : Host) (id : String) : List Proc := h.procs.filter fun t => t.owner = id

/-- A link of this name exists. -/
def hasLink (h : Host) (name : String) : Bool := h.links.any fun l => l.name = name

/-- What a path is. -/
def kind (h : Host) (p : Path) : Option Kind :=
  (h.fs.get p).map fun
    | .dir => .dir
    | .file _ => .file

/-- The content of a regular file. -/
def file (h : Host) (p : Path) : Option Content :=
  match h.fs.get p with
  | some (.file c) => some c
  | _ => none

/-- No component on the way to a path is a regular file. -/
def clearWay (h : Host) (p : Path) : Bool := p.inits.all fun q => h.kind q ≠ some .file

/-- A cgroup leaf or directory that `rmdir` can remove. -/
def removable (h : Host) (p : Path) : Bool :=
  h.kind p = some .dir && h.fs.emptyBelow p && h.procs.all fun t => t.leaf ≠ some p

/-! ### Changing the state -/

/-- The tree with this root is gone, and with it its namespaces. -/
def reap (h : Host) (pid : Int) : Host :=
  { h with
    procs := h.procs.filter fun t => t.pid ≠ pid
    links := h.links.filter fun l => l.holder ≠ some pid }

/-- Set the content of a file. -/
def write (h : Host) (p : Path) (c : Content) : Host := { h with fs := h.fs.set p (.file c) }

/-- Write a family of files into a directory. -/
def writeAll (h : Host) (dir : Path) (files : List (String × Bytes)) : Host :=
  files.foldl (fun h f => h.write (dir ++ [f.1]) (.bytes f.2)) h

/-- Add bytes at the end of a file. -/
def extend (h : Host) (p : Path) (data : Bytes) : Host :=
  match h.file p with
  | some c => h.write p (.bytes (c.raw ++ data))
  | none => h

/-- The effect of a network command that succeeded. -/
def netDone (h : Host) : NetCommand → Host
  | .linkAddBridge name => { h with links := ⟨name, none, none⟩ :: h.links }
  | .linkAddVeth name peer =>
    { h with links := ⟨name, some peer, none⟩ :: ⟨peer, some name, none⟩ :: h.links }
  | .linkSetNetns name pid =>
    { h with links := (h.links.filter fun l => l.name ≠ name).map fun l =>
        if l.peer = some name then { l with holder := some pid } else l }
  | .linkDelete name =>
    { h with links := h.links.filter fun l => l.name ≠ name ∧ l.peer ≠ some name }
  | _ => h

/-- The network command can succeed. -/
def netCan (h : Host) : NetCommand → Bool
  | .linkShow name => h.hasLink name
  | .linkAddBridge name => !h.hasLink name
  | .linkAddVeth name peer => !h.hasLink name && !h.hasLink peer && name ≠ peer
  | .linkSetMaster name _ => h.hasLink name
  | .linkSetUp name => h.hasLink name
  | .linkSetNetns name pid => h.hasLink name && h.alive pid
  | .nsenter pid _ => h.alive pid
  | .linkDelete name => h.hasLink name
  | .addrAdd _ _ => true
  | .iptables _ => true

/-! ### The calls -/

/-- The replies a call can give in a state. -/
def enabled (h : Host) : (o : HostOp) → o.Reply → Bool
  | .stat p, (k : Option Kind) => k = h.kind p
  | .readFile p, r =>
    match (r : Except String Content) with
    | .ok c => h.file p = some c
    | .error _ => true
  | .openFile p, r =>
    match (r : Except String Nat) with
    | .ok n => (h.file p).map (fun c => c.raw.length) = some n
    | .error _ => true
  | .readAll p, r =>
    match (r : List Bytes × Option String), h.file p with
    | (chunks, none), some c => chunks.all (fun b => b ≠ []) && chunks.flatten = c.raw
    | (chunks, _), _ => chunks.all fun b => b ≠ []
  | .readSpan _ span, r =>
    match (r : List Bytes × Option String) with
    | (chunks, none) => chunks.all (fun b => b ≠ []) && chunks.flatten = span
    | (chunks, some _) => chunks.all (fun b => b ≠ []) && chunks.flatten.isPrefixOf span
  | .listDir p, r =>
    match (r : Except String (List String)) with
    | .ok names => names.Nodup && names.all (fun n => h.kind (p ++ [n]) = some .file) &&
        (h.fs.childFiles p).all fun e => names.contains e.1
    | .error _ => true
  | .listDirs p, r =>
    match (r : Except String (List String)) with
    | .ok names => names.Nodup && names.all (fun n => h.kind (p ++ [n]) = some .dir) &&
        (h.fs.childDirs p).all names.contains
    | .error _ => true
  | .mkdirAll p, r =>
    match (r : Except (Nat × String) Unit) with
    | .ok _ => h.clearWay p
    | .error (k, _) => k < p.length && h.clearWay (p.take k)
  | .createFile p, r =>
    match (r : Except String Unit) with
    | .ok _ => h.kind p.dropLast = some .dir && h.kind p ≠ some .dir && p ≠ []
    | .error _ => true
  | .append p data, r =>
    match (r : Except (Nat × String) Unit) with
    | .ok _ => h.kind p = some .file
    | .error (n, _) => n ≤ data.length
  | .putDoc p _, r =>
    match (r : Except (Bytes × String) Bytes) with
    | .ok text => h.kind p = some .file && text.head? = some 0x7B
    | .error (part, _) => part = [] || part.head? = some 0x7B
  | .removeTree p, r =>
    match (r : Except (List Path × String) Unit) with
    | .ok _ => h.kind p = some .dir
    | .error _ => true
  | .removeDir p, (b : Bool) => b = h.removable p
  | .rename src dst, r =>
    match (r : Except String Unit) with
    | .ok _ => h.kind src = some .file && h.kind dst.dropLast = some .dir &&
        h.kind dst ≠ some .dir && dst ≠ []
    | .error _ => true
  | .pidAlive pid, (b : Bool) => b = h.alive pid
  | .startTree _, r =>
    match (r : Except String Int) with
    | .ok pid => pid = 0 || 0 < pid && !h.alive pid
    | .error _ => true
  | .waitTree pid, _ => !h.alive pid
  | .criuDump opts, r =>
    match (r : Except DumpFailure (List (String × Bytes))) with
    | .ok _ => h.alive opts.pid
    | .error _ => true
  | .criuRestore _ _, r =>
    match (r : EngineRestore) with
    | .up pid readback => 0 < pid && !h.alive pid &&
        match readback with
        | .ok q => q = pid
        | .error _ => true
    | .failed _ => true
  | .cgroupWrite leaf _ _, r =>
    match (r : Except String Unit) with
    | .ok _ => h.kind leaf = some .dir
    | .error _ => true
  | .cgroupAdd leaf pid, r =>
    match (r : Except String Unit) with
    -- writing zero moves the writer
    | .ok _ => h.kind leaf = some .dir && (pid = 0 || h.alive pid)
    | .error _ => true
  | .net c, r =>
    match (r : Except String Unit), c with
    | .ok _, c => h.netCan c
    | .error _, .linkDelete name => !h.hasLink name
    | .error _, _ => true
  | .recv n, r =>
    match (r : Except String Bytes) with
    | .ok b => b.length = n
    | .error _ => true
  | .send data, r =>
    match (r : Except (Nat × String) Unit) with
    | .ok _ => true
    | .error (n, _) => n ≤ data.length
  | _, _ => true

/-- The host after a call has given a reply. -/
def next (h : Host) : (o : HostOp) → o.Reply → Host
  | .mkdirAll p, r =>
    match (r : Except (Nat × String) Unit) with
    | .ok _ => { h with fs := h.fs.mkdirAll p }
    | .error (k, _) => { h with fs := h.fs.mkdirAll (p.take k) }
  | .createFile p, r =>
    match (r : Except String Unit) with
    | .ok _ => h.write p (.bytes [])
    | .error _ => h
  | .append p data, r =>
    match (r : Except (Nat × String) Unit) with
    | .ok _ => h.extend p data
    | .error (n, _) => h.extend p (data.take n)
  | .putDoc p d, r =>
    match (r : Except (Bytes × String) Bytes) with
    | .ok text => h.write p (.doc text d)
    | .error (part, _) => h.extend p part
  | .removeFile p, _ => if h.kind p = some .file then { h with fs := h.fs.remove p } else h
  | .removeDirAll p, _ => { h with fs := h.fs.removeAll p }
  | .removeTree p, r =>
    match (r : Except (List Path × String) Unit) with
    | .ok _ => { h with fs := h.fs.removeAll p }
    -- what is below some of the paths is gone before it fails
    | .error (gone, _) => { h with
        fs := h.fs.keep fun q => !(gone.any fun g => p.isPrefixOf g && g.isPrefixOf q) }
  | .removeDir p, (b : Bool) => if b then { h with fs := h.fs.remove p } else h
  | .rename src dst, r =>
    match (r : Except String Unit), h.file src with
    | .ok _, some c => { h with fs := (h.fs.remove src).set dst (.file c) }
    | _, _ => h
  | .kill pid, _ => h.reap pid
  | .startTree owner, r =>
    match (r : Except String Int) with
    | .ok pid => if pid = 0 then h else { h with procs := ⟨pid, owner, none⟩ :: h.procs }
    | .error _ => h
  | .criuDump opts, r =>
    match (r : Except DumpFailure (List (String × Bytes))) with
    | .ok images =>
      let h' := h.writeAll opts.imagesDir images
      if opts.leaveRunning then h' else h'.reap opts.pid
    | .error f =>
      let h' := h.writeAll opts.imagesDir f.images
      if f.killed then h'.reap opts.pid else h'
  | .criuRestore owner opts, r =>
    match (r : EngineRestore) with
    | .up pid _ =>
      let h' := h.write opts.pidfile (.bytes [])
      { h' with procs := ⟨pid, owner, none⟩ :: h'.procs }
    | .failed _ => h
  | .cgroupAdd leaf pid, r =>
    match (r : Except String Unit) with
    | .ok _ => { h with procs := h.procs.map fun t =>
        if t.pid = pid then { t with leaf := some leaf } else t }
    | .error _ => h
  | .net c, r =>
    match (r : Except String Unit) with
    | .ok _ => h.netDone c
    | .error _ => h
  | _, _ => h

/-- Trees that end on their own: some tree of the host is gone. -/
def Exits (h h' : Host) : Prop := ∃ pid, h' = h.reap pid

/-! ### The replies of a call -/

section Replies

variable {h : Host} {p : Path} {chunks : List Bytes} {span : Bytes}

lemma enabled_stat {k : Option Kind} : h.enabled (.stat p) k = true ↔ k = h.kind p :=
  decide_eq_true_iff

lemma enabled_readFile {c : Content} :
    h.enabled (.readFile p) (.ok c : Except String Content) = true ↔ h.file p = some c :=
  decide_eq_true_iff

lemma enabled_openFile {n : Nat} : h.enabled (.openFile p) (.ok n : Except String Nat) = true ↔
    (h.file p).map (fun c => c.raw.length) = some n :=
  decide_eq_true_iff

/-- A complete read of a file delivers its bytes. -/
lemma enabled_readAll {c : Content} (hc : h.file p = some c)
    (hr : h.enabled (.readAll p) ((chunks, none) : List Bytes × Option String) = true) :
    chunks.flatten = c.raw := by
  simp only [enabled, hc, Bool.and_eq_true, decide_eq_true_eq] at hr
  exact hr.2

lemma enabled_readSpan :
    h.enabled (.readSpan p span) ((chunks, none) : List Bytes × Option String) = true ↔
      (∀ b ∈ chunks, b ≠ []) ∧ chunks.flatten = span := by
  change (chunks.all (fun b => b ≠ []) && decide (chunks.flatten = span)) = true ↔ _
  simp only [Bool.and_eq_true, List.all_eq_true, decide_eq_true_eq]

lemma enabled_readSpan_error {e : String} :
    h.enabled (.readSpan p span) ((chunks, some e) : List Bytes × Option String) = true ↔
      (∀ b ∈ chunks, b ≠ []) ∧ chunks.flatten <+: span := by
  change (chunks.all (fun b => b ≠ []) && chunks.flatten.isPrefixOf span) = true ↔ _
  simp only [Bool.and_eq_true, List.all_eq_true, decide_eq_true_eq, List.isPrefixOf_iff_prefix]

lemma enabled_mkdirAll_error {k : Nat} {e : String} :
    h.enabled (.mkdirAll p) (.error (k, e) : Except (Nat × String) Unit) = true ↔
      k < p.length ∧ h.clearWay (p.take k) = true := by
  change (decide (k < p.length) && h.clearWay (p.take k)) = true ↔ _
  rw [Bool.and_eq_true, decide_eq_true_iff]

lemma enabled_createFile {u : Unit} :
    h.enabled (.createFile p) (.ok u : Except String Unit) = true ↔
      h.kind p.dropLast = some .dir ∧ h.kind p ≠ some .dir ∧ p ≠ [] := by
  change (decide (h.kind p.dropLast = some .dir) && decide (h.kind p ≠ some .dir) &&
    decide (p ≠ [])) = true ↔ _
  simp only [Bool.and_eq_true, decide_eq_true_eq, and_assoc]

lemma enabled_append {data : Bytes} {u : Unit} :
    h.enabled (.append p data) (.ok u : Except (Nat × String) Unit) = true ↔
      h.kind p = some .file :=
  decide_eq_true_iff

lemma enabled_putDoc {d : Doc} {text : Bytes} :
    h.enabled (.putDoc p d) (.ok text : Except (Bytes × String) Bytes) = true ↔
      h.kind p = some .file ∧ text.head? = some 0x7B := by
  change (decide (h.kind p = some .file) && decide (text.head? = some 0x7B)) = true ↔ _
  simp only [Bool.and_eq_true, decide_eq_true_eq]

lemma enabled_removeDir {b : Bool} : h.enabled (.removeDir p) b = true ↔ b = h.removable p :=
  decide_eq_true_iff

lemma enabled_pidAlive {pid : Int} {b : Bool} :
    h.enabled (.pidAlive pid) b = true ↔ b = h.alive pid :=
  decide_eq_true_iff

lemma enabled_recv {n : Nat} {b : Bytes} :
    h.enabled (.recv n) (.ok b : Except String Bytes) = true ↔ b.length = n :=
  decide_eq_true_iff

end Replies

end Host

/-- The machine of a single host. -/
def machine : Machine HostSig Host where
  Enabled h o r := h.enabled o r = true
  next h o r := h.next o r

instance : ∀ w o r, Decidable (machine.Enabled w o r) := fun w o r =>
  inferInstanceAs (Decidable (Host.enabled w o r = true))

/-- A run of a program of the runtime on a host. -/
abbrev Runs (R : Host → Host → Prop) {α : Type} (x : HostM α) (h : Host)
    (tr : List HostSig.Event) (out : Option (Except RuntimeError α)) (h' : Host) : Prop :=
  Exec machine R x.run h tr out h'

end Mincontainer
