import Mincontainer.Engine.Mounts
import Mincontainer.Files.Mounts
import Mincontainer.Linux.Tasks

set_option relaxedAutoImplicit false
set_option autoImplicit false

/-!
# The container's own setup

What the container process does between the parent's go and its command, call by call: the mounts and
the change of root of `setup_rootfs`, the descriptors of `redirect_stdio`, the capabilities of
`drop_dangerous` and the filter of `seccomp::apply`. `grandchild` is the sequence of these steps.

The kernel keeps the mount namespace of the process beside that of the host, its credentials, its
filters and its descriptors. A call may fail at any time; what it needs to succeed is stated where
something here depends on it. Path texts are resolved from the working directory, and a path that is
joined from pieces is given by the pieces. Which directories exist is left out.

## Main definitions

* `Mincontainer.Syscall.Asked` — which call is asked for by the data that a filter sees.
* `Mincontainer.Sys`, `Mincontainer.Inside`, `Mincontainer.inside` — the calls, the process as the
  kernel sees it, and what the calls do.
* `Mincontainer.Setup.mountVolumeIntoRootfs`, `Mincontainer.Setup.setupRootfs`,
  `Mincontainer.Setup.redirectStdio`, `Mincontainer.Setup.dropDangerous`,
  `Mincontainer.Setup.applySeccomp` — the steps.
* `Mincontainer.Setup.setup` — all of them, for a configuration.

## Main results

* `Mincontainer.Setup.setup_eq` — the setup is the sequence of the stages of the container.
-/

namespace Mincontainer

open Effects Files Linux

/-! ### The calls -/

/-- Flags of a mount. -/
inductive MsFlag where
  | msRec
  | msPrivate
  | msBind
deriving DecidableEq, Repr

/-- How a file is opened. -/
inductive OFlag where
  | rdwr
  | wronly
  | creat
  | append
deriving DecidableEq, Repr

/-- The capability sets that are named in a call. -/
inductive CapSet where
  | bounding
  | ambient
  | inheritable
deriving DecidableEq, Repr

/-- System calls with a number that matters to the filter. -/
inductive Syscall where
  | ptrace | keyctl | addKey | requestKey | mount | umount2 | pivotRoot | reboot | swapon | swapoff
  | initModule | finitModule | deleteModule | kexecLoad | perfEventOpen
deriving DecidableEq, Repr

/-- The number of a call. -/
def Syscall.number : TargetArch → Syscall → ℤ
  | .x86_64, .ptrace => 101
  | .x86_64, .keyctl => 250
  | .x86_64, .addKey => 248
  | .x86_64, .requestKey => 249
  | .x86_64, .mount => 165
  | .x86_64, .umount2 => 166
  | .x86_64, .pivotRoot => 155
  | .x86_64, .reboot => 169
  | .x86_64, .swapon => 167
  | .x86_64, .swapoff => 168
  | .x86_64, .initModule => 175
  | .x86_64, .finitModule => 313
  | .x86_64, .deleteModule => 176
  | .x86_64, .kexecLoad => 246
  | .x86_64, .perfEventOpen => 298
  | .aarch64, .ptrace => 117
  | .aarch64, .keyctl => 219
  | .aarch64, .addKey => 217
  | .aarch64, .requestKey => 218
  | .aarch64, .mount => 40
  | .aarch64, .umount2 => 39
  | .aarch64, .pivotRoot => 41
  | .aarch64, .reboot => 142
  | .aarch64, .swapon => 224
  | .aarch64, .swapoff => 225
  | .aarch64, .initModule => 105
  | .aarch64, .finitModule => 273
  | .aarch64, .deleteModule => 106
  | .aarch64, .kexecLoad => 104
  | .aarch64, .perfEventOpen => 241

/-- What the process asks of the kernel. -/
inductive Sys where
  | setsid
  | sethostname (name : String)
  | mount (source : Option (List String)) (target : List String) (fstype : Option String)
      (flags : List MsFlag)
  | createDirAll (path : List String)
  | removeDir (path : List String)
  | chdir (path : List String)
  | pivotRoot (newRoot putOld : String)
  /-- Detach what is mounted at the path, at once and for later. -/
  | umountDetach (path : String)
  | mknod (path : String) (major minor : ℕ)
  | open (path : String) (flags : List OFlag)
  | dup2 (oldFd newFd : ℕ)
  | close (fd : ℕ)
  | capDrop (set : CapSet) (cap : Capability)
  | capClear (set : CapSet)
  /-- Give up new privileges and install a filter. -/
  | applyFilter (l : DenyList)

/-- The result of a call, or the text of its error. -/
abbrev SysSig : Signature := ⟨Sys, fun _ => Except String ℕ⟩

/-- Programs of the process. -/
abbrev SysM := Fallible SysSig RuntimeError

/-- The call with a number that the filter may list. -/
def Sys.syscall : Sys → Option Syscall
  | .mount .. => some .mount
  | .umountDetach .. => some .umount2
  | .pivotRoot .. => some .pivotRoot
  | _ => none

/-! ### The process as the kernel sees it -/

/-- An open file. -/
structure OpenFile where
  spot : Spot
  flags : List OFlag
deriving DecidableEq, Repr

/-- The process. -/
structure Inside where
  mounts : Mounts
  cwd : Path
  fds : ℕ → Option OpenFile
  creds : Credentials
  /-- The newest first. -/
  filters : List Linux.Filter
  hostname : String
  /-- It leads its own session. -/
  leader : Bool

namespace Inside

/-- The path that joined pieces of text denote. -/
def place (w : Inside) (path : List String) : Path := path.foldl resolve w.cwd

/-- The filters let the call run. -/
def Passes (arch : TargetArch) (w : Inside) (o : Sys) : Prop :=
  ∀ c, o.syscall = some c → (strictest w.filters ⟨some arch, c.number arch, []⟩).Runs

/-- What the kernel demands of a call that succeeds with the result `n`. -/
def Grants (w : Inside) : Sys → ℕ → Prop
  | .mount _ target _ flags, _ =>
    w.mounts.old.isNone ∧ (.msPrivate ∈ flags → w.place target = [])
  | .pivotRoot newRoot putOld, _ =>
    w.mounts.old.isNone ∧ resolve w.cwd newRoot ≠ [] ∧ resolve w.cwd newRoot <+: resolve w.cwd putOld
  | .umountDetach path, _ => w.mounts.old.map Prod.fst = some (resolve w.cwd path)
  | .open _ _, fd => w.fds fd = none ∧ ∀ k < fd, w.fds k ≠ none
  | .dup2 oldFd newFd, n => w.fds oldFd ≠ none ∧ n = newFd
  | .close fd, _ => w.fds fd ≠ none
  | .capDrop .bounding _, _ => .setpcap ∈ w.creds.effective
  | _, _ => True

/-- What a call that fails needs; an open descriptor is closed whatever is reported. -/
def Refuses (w : Inside) : Sys → Prop
  | .capDrop .bounding _ => .setpcap ∉ w.creds.effective
  | .close fd => w.fds fd = none
  | _ => True

/-- The process after a call that succeeded. -/
def after (w : Inside) : Sys → ℕ → Inside
  | .setsid, _ => { w with leader := true }
  | .sethostname name, _ => { w with hostname := name }
  | .mount source target fstype flags, _ =>
    if .msPrivate ∈ flags then { w with mounts := w.mounts.makePrivate }
    else if .msBind ∈ flags then
      { w with mounts := w.mounts.bind (w.place (source.getD [])) (w.place target) }
    else { w with mounts := w.mounts.mountFs (fstype.getD "") (w.place target) }
  | .chdir path, _ => { w with cwd := w.place path }
  | .pivotRoot newRoot putOld, _ =>
    let new := resolve w.cwd newRoot
    let old := (resolve w.cwd putOld).drop new.length
    { w with
      mounts := w.mounts.pivotRoot new old
      cwd := if new <+: w.cwd then w.cwd.drop new.length else old ++ w.cwd }
  | .umountDetach _, _ => { w with mounts := w.mounts.detach }
  | .open path flags, fd =>
    { w with fds := fun k => if k = fd then some ⟨w.mounts.own (resolve w.cwd path), flags⟩ else w.fds k }
  | .dup2 oldFd newFd, _ => { w with fds := fun k => if k = newFd then w.fds oldFd else w.fds k }
  | .close fd, _ => { w with fds := fun k => if k = fd then none else w.fds k }
  | .capDrop .bounding cap, _ => { w with creds := w.creds.dropBounding cap }
  | .capDrop .ambient cap, _ => { w with creds := w.creds.lowerAmbient cap }
  | .capClear .inheritable, _ =>
    { w with creds := w.creds.capset w.creds.permitted w.creds.effective ∅ }
  | .applyFilter l, _ =>
    { w with filters := l.verdict :: w.filters, creds := { w.creds with noNewPrivs := true } }
  | _, _ => w

instance (arch : TargetArch) (w : Inside) (o : Sys) : Decidable (w.Passes arch o) :=
  match ho : o.syscall with
  | none => .isTrue fun c hc => by rw [ho] at hc; cases hc
  | some c =>
    decidable_of_iff (strictest w.filters ⟨some arch, c.number arch, []⟩).Runs
      ⟨fun h c' hc' => by rw [ho] at hc'; cases hc'; exact h, fun h => h c ho⟩

instance (w : Inside) : ∀ o n, Decidable (w.Grants o n)
  | .mount _ _ _ _, _ => inferInstanceAs (Decidable (_ ∧ (_ → _)))
  | .pivotRoot _ _, _ => inferInstanceAs (Decidable (_ ∧ _ ∧ _))
  | .umountDetach _, _ => inferInstanceAs (Decidable (_ = _))
  | .open _ _, fd => inferInstanceAs (Decidable (w.fds fd = none ∧ ∀ k < fd, w.fds k ≠ none))
  | .dup2 _ _, _ => inferInstanceAs (Decidable (_ ∧ _))
  | .close _, _ => inferInstanceAs (Decidable (_ ≠ _))
  | .capDrop .bounding _, _ => inferInstanceAs (Decidable (_ ∈ _))
  | .capDrop .ambient _, _ => .isTrue trivial
  | .capDrop .inheritable _, _ => .isTrue trivial
  | .setsid, _ => .isTrue trivial
  | .sethostname _, _ => .isTrue trivial
  | .createDirAll _, _ => .isTrue trivial
  | .removeDir _, _ => .isTrue trivial
  | .chdir _, _ => .isTrue trivial
  | .mknod _ _ _, _ => .isTrue trivial
  | .capClear _, _ => .isTrue trivial
  | .applyFilter _, _ => .isTrue trivial

instance (w : Inside) : ∀ o, Decidable (w.Refuses o)
  | .capDrop .bounding _ => inferInstanceAs (Decidable (_ ∉ _))
  | .close _ => inferInstanceAs (Decidable (_ = _))
  | .capDrop .ambient _ => .isTrue trivial
  | .capDrop .inheritable _ => .isTrue trivial
  | .setsid => .isTrue trivial
  | .sethostname _ => .isTrue trivial
  | .mount _ _ _ _ => .isTrue trivial
  | .createDirAll _ => .isTrue trivial
  | .removeDir _ => .isTrue trivial
  | .chdir _ => .isTrue trivial
  | .pivotRoot _ _ => .isTrue trivial
  | .umountDetach _ => .isTrue trivial
  | .mknod _ _ _ => .isTrue trivial
  | .open _ _ => .isTrue trivial
  | .dup2 _ _ => .isTrue trivial
  | .capClear _ => .isTrue trivial
  | .applyFilter _ => .isTrue trivial

end Inside

/-- What the calls do. A call that a filter stops fails. -/
def inside (arch : TargetArch) : Machine SysSig Inside where
  Enabled w o r :=
    match (r : Except String ℕ) with
    | .ok n => w.Grants o n ∧ w.Passes arch o
    | .error _ => w.Refuses o ∨ ¬ w.Passes arch o
  next w o r :=
    match (r : Except String ℕ) with
    | .ok n => w.after o n
    | .error _ => w

instance (arch : TargetArch) : ∀ w o r, Decidable ((inside arch).Enabled w o r) := fun w o r =>
  match r with
  | .ok n => inferInstanceAs (Decidable (w.Grants o n ∧ w.Passes arch o))
  | .error _ => inferInstanceAs (Decidable (w.Refuses o ∨ ¬ w.Passes arch o))

/-! ### The steps -/

namespace Setup

/-- A call whose error ends the function. -/
def act (o : Sys) (err : String → RuntimeError) : SysM ℕ := do
  match (← Fallible.sys o : Except String ℕ) with
  | .ok n => pure n
  | .error e => throw (err e)

/-- A call whose outcome does not matter. -/
def ignore (o : Sys) : SysM Unit := do
  let _ ← Fallible.sys o
  pure ()

/-- The text of a path joined from two pieces. -/
def joinText (a b : String) : String :=
  if b.toList.head? = some '/' ∨ a = "" then b
  else if a.toList.getLast? = some '/' then a ++ b
  else a ++ "/" ++ b

/-- Bind a directory of the host into the root file system, before it becomes the root. -/
def mountVolumeIntoRootfs (rootfs hostPath containerPath : String) : SysM Unit := do
  let relPath := Mounts.trimRoot containerPath
  let _ ← act (.createDirAll [rootfs, relPath])
    fun e => .filesystem s!"mkdir {joinText rootfs relPath}: {e}"
  let _ ← act (.mount (some [hostPath]) [rootfs, relPath] none [.msBind, .msRec])
    (.syscall "mount(volume bind)")
  pure ()

/-- The volumes, in order. -/
def mountVolumes (rootfs : String) : List Volume → SysM Unit
  | [] => pure ()
  | v :: vs => do
    mountVolumeIntoRootfs rootfs v.hostPath v.containerPath
    mountVolumes rootfs vs

/-- The device nodes a shell needs. -/
def devNodes : List (String × ℕ × ℕ) :=
  [("/dev/null", 1, 3), ("/dev/zero", 1, 5), ("/dev/full", 1, 7), ("/dev/random", 1, 8),
    ("/dev/urandom", 1, 9), ("/dev/tty", 5, 0)]

def makeDevNodes : List (String × ℕ × ℕ) → SysM Unit
  | [] => pure ()
  | (path, major, minor) :: rest => do
    ignore (.mknod path major minor)
    makeDevNodes rest

/-- What is mounted at `/dev`. -/
def mountDev : SysM Unit := do
  match (← Fallible.sys (Sys.mount (some ["devtmpfs"]) ["/dev"] (some "devtmpfs") []) : Except String ℕ) with
  | .ok _ => pure ()
  | .error _ =>
    let _ ← act (.mount (some ["tmpfs"]) ["/dev"] (some "tmpfs") []) (.syscall "mount(/dev tmpfs)")
    makeDevNodes devNodes

/-- Make the root file system the root and mount `/proc` and `/dev`. -/
def setupRootfs (rootfs : String) : SysM Unit := do
  let _ ← act (.mount none ["/"] none [.msRec, .msPrivate]) (.syscall "mount(/ private)")
  let _ ← act (.mount (some [rootfs]) [rootfs] none [.msBind, .msRec]) (.syscall "mount(bind rootfs)")
  let _ ← act (.chdir [rootfs]) (.syscall "chdir(rootfs)")
  let _ ← act (.createDirAll [rootfs, ".oldroot"]) fun e => .filesystem s!"mkdir .oldroot: {e}"
  let _ ← act (.pivotRoot "." ".oldroot") (.syscall "pivot_root")
  let _ ← act (.chdir ["/"]) (.syscall "chdir(/) post-pivot")
  let _ ← act (.umountDetach "/.oldroot") (.syscall "umount(.oldroot)")
  ignore (.removeDir ["/.oldroot"])
  ignore (.createDirAll ["/proc"])
  let _ ← act (.mount (some ["proc"]) ["/proc"] (some "proc") []) (.syscall "mount(/proc)")
  ignore (.createDirAll ["/dev"])
  mountDev

/-- Close a descriptor above the standard ones. -/
def closeAbove (fd : ℕ) : SysM Unit := if 2 < fd then ignore (.close fd) else pure ()

/-- A log of the container, as the container sees it. -/
def logText (name : String) : String := s!"/.mcio/{name}"

/-- Open a log of the container as the descriptor `fd`. -/
def redirectTo (fd : ℕ) (name : String) : SysM Unit := do
  let f ← act (.open (logText name) [.wronly, .creat, .append]) (.syscall "open(container log)")
  let _ ← act (.dup2 f fd) (.syscall "dup2(container log)")
  closeAbove f

/-- Point the standard descriptors at `/dev/null` and the logs. -/
def redirectStdio : SysM Unit := do
  let devnull ← act (.open "/dev/null" [.rdwr]) (.syscall "open(/dev/null)")
  let _ ← act (.dup2 devnull 0) (.syscall "dup2(stdin)")
  closeAbove devnull
  redirectTo 1 "stdout"
  redirectTo 2 "stderr"

/-- The capabilities to drop. -/
def dangerous : List Capability :=
  [.sysAdmin, .sysModule, .sysRawio, .sysBoot, .sysTime, .netAdmin, .netRaw, .mknod, .sysPtrace]

/-- Drop capabilities from the bounding and the ambient set, whether or not that works. -/
def dropEach : List Capability → SysM Unit
  | [] => pure ()
  | cap :: caps => do
    ignore (.capDrop .bounding cap)
    ignore (.capDrop .ambient cap)
    dropEach caps

def dropDangerous : SysM Unit := do
  dropEach dangerous
  let _ ← act (.capClear .inheritable) fun e => .config s!"clear inheritable caps: {e}"
  pure ()

/-- The calls that a container may not make. -/
def blockedSyscalls : List Syscall :=
  [.ptrace, .keyctl, .addKey, .requestKey, .mount, .umount2, .pivotRoot, .reboot, .swapon, .swapoff,
    .initModule, .finitModule, .deleteModule, .kexecLoad, .perfEventOpen]

/-- The error for what is not permitted. -/
def EPERM : ℕ := 1

/-- The filter: every call is allowed but the listed ones, which fail. -/
def seccompFilter (arch : TargetArch) : DenyList :=
  ⟨blockedSyscalls.map (Syscall.number arch), .allow, .errno EPERM, arch⟩

/-- Install the filter. -/
def applySeccomp (arch : TargetArch) : SysM Unit := do
  let _ ← act (.applyFilter (seccompFilter arch)) fun e => .seccomp s!"apply filter: {e}"
  pure ()

/-- Bind the volumes, and the directory for the logs of a detached container. -/
def bindDirectories (cfg : ContainerConfig) (io : Option String) : SysM Unit := do
  mountVolumes cfg.rootfs cfg.volumes
  match io with
  | some dir => mountVolumeIntoRootfs cfg.rootfs dir ".mcio"
  | none => pure ()

/-- Once the root is changed: the descriptors, and the hardening last. -/
def harden (arch : TargetArch) (cfg : ContainerConfig) (io : Option String) : SysM Unit := do
  if io.isSome then redirectStdio
  if cfg.dropCaps then dropDangerous
  if cfg.seccomp then applySeccomp arch

/-- From the parent's go to the command. -/
def setup (arch : TargetArch) (cfg : ContainerConfig) (io : Option String) : SysM Unit := do
  if io.isSome then
    let _ ← act .setsid (.syscall "setsid")
  let _ ← act (.sethostname cfg.hostname) (.syscall "sethostname")
  bindDirectories cfg io
  setupRootfs cfg.rootfs
  let _ ← act (.chdir ["/"]) (.syscall "chdir(/)")
  harden arch cfg io

/-! ### The stages -/

/-- The error of a change of directory. -/
def chdirError (path : String) : String := s!"chdir({path})"

/-- What a stage of the container stands for. -/
def stage (arch : TargetArch) : Stage → SysM Unit
  | .setsid => do
    let _ ← act .setsid (.syscall "setsid")
    pure ()
  | .sethostname name => do
    let _ ← act (.sethostname name) (.syscall "sethostname")
    pure ()
  | .mountVolumeIntoRootfs rootfs hostPath containerPath =>
    mountVolumeIntoRootfs rootfs hostPath containerPath
  | .setupRootfs rootfs => setupRootfs rootfs
  | .chdir path => do
    let _ ← act (.chdir [path]) (.syscall (chdirError path))
    pure ()
  | .redirectStdio => redirectStdio
  | .dropDangerous => dropDangerous
  | .applySeccomp => applySeccomp arch

/-- Stages one after the other. -/
def stagesIn (arch : TargetArch) : List Stage → SysM Unit
  | [] => pure ()
  | s :: ss => do
    stage arch s
    stagesIn arch ss

lemma stagesIn_append (arch : TargetArch) (ss ts : List Stage) :
    stagesIn arch (ss ++ ts) = (stagesIn arch ss >>= fun _ => stagesIn arch ts) := by
  induction ss with
  | nil => rfl
  | cons s ss ih => rw [List.cons_append, stagesIn, stagesIn, ih, bind_assoc]

/-- A stage that may be left out. -/
lemma stagesIn_ite (arch : TargetArch) (b : Bool) (s : Stage) :
    stagesIn arch (if b then [s] else []) = if b then stage arch s else pure () := by
  cases b with
  | false => rfl
  | true =>
    show (stage arch s >>= fun _ => pure ()) = stage arch s
    exact bind_pure_unit

lemma stagesIn_mountVolumes (arch : TargetArch) (rootfs : String) (vs : List Volume) :
    stagesIn arch (vs.map fun v => .mountVolumeIntoRootfs rootfs v.hostPath v.containerPath) =
      mountVolumes rootfs vs := by
  induction vs with
  | nil => rfl
  | cons v vs ih =>
    rw [List.map_cons, stagesIn, ih]
    rfl

/-- **The setup is the sequence of the stages** of the container: what the processes take for one call
each is done here call by call, in the same order.

**Proof sketch.** The stages are appended, and a sequence of appended stages is one after the other. -/
theorem setup_eq (arch : TargetArch) (cfg : ContainerConfig) (io : Option String) :
    setup arch cfg io = stagesIn arch (Spawn.stages cfg io) := by
  unfold Spawn.stages setup bindDirectories harden
  simp only [stagesIn_append, stagesIn_ite, stagesIn_mountVolumes, bind_assoc]
  have htext : chdirError "/" = "chdir(/)" := by decide
  cases io with
  | none =>
    simp only [Option.isSome_none, Bool.false_eq_true, if_false, stagesIn, stage, pure_bind, bind_assoc,
      htext]
    cases cfg.dropCaps <;> rfl
  | some dir =>
    simp only [Option.isSome_some, if_true, stagesIn, stage, pure_bind, bind_assoc, htext]
    cases cfg.dropCaps <;> rfl

end Setup

end Mincontainer
