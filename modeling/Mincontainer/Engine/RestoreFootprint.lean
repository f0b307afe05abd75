import Mincontainer.Engine.RestorePhases

set_option relaxedAutoImplicit false
set_option autoImplicit false

/-!
# Which calls a restore makes

One walk through a restore, for whatever is asked of its calls. The sweep before it depends on the
configuration that is saved in the directory of the container, and all that follows the choice of the
snapshot on the configuration in it; so the walk takes the calls that belong to a configuration apart
from the others.

## Main definitions

* `Mincontainer.Restore.Sweeps`, `Mincontainer.Restore.Builds` — the calls of the sweep and those of
  the rebuilding are among the calls.
* `Mincontainer.Restore.pick`, `Mincontainer.Restore.restoreFrom` — the choice of the snapshot, and
  the restore from it.

## Main results

* `Mincontainer.Restore.reconcile_relies`, `Mincontainer.Restore.select_relies` — the sweep and the
  choice.
* `Mincontainer.Restore.within_restoreFrom` — what follows.
* `Mincontainer.Restore.restore_relies` — the whole.
-/

namespace Mincontainer

open Effects Files Bytes Snapshot

namespace Restore

variable {P : HostOp → Prop} {G : HostSig.Event → Prop} {T : ContainerConfig → Prop} {env : Env}
  {codec : Codec Manifest} {id : String} {opts : Options}

/-! ### The sweep and the choice -/

/-- The calls that clean up are among the calls, for configurations of the kind `T`. -/
structure Sweeps (P : HostOp → Prop) (env : Env) (id : String) (T : ContainerConfig → Prop) :
    Prop where
  reads : ∀ o : HostOp, o.reads = true → P o
  kill : ∀ pid, P (.kill pid)
  leaf : ∀ cfg, T cfg → P (.removeDir (Cgroup.open cfg.id).path)
  link : ∀ cfg, T cfg → cfg.network = true → (Network.cleanupById cfg.shortId).run.Within P
  staging : P (.removeDirAll (ContainerStateDir.forId env id).stagingDir)
  create : P (.createFile (ContainerStateDir.forId env id).stateFile)
  put : ∀ d, P (.putDoc (ContainerStateDir.forId env id).stateFile d)

/-- Recording something about the container. -/
lemma Sweeps.update (hs : Sweeps P env id T) (f : ContainerState → ContainerState) :
    (update env id f).run.Within P :=
  within_update hs.reads hs.create hs.put

lemma AllowsSweep.sweeps (hs : AllowsSweep P env id) : Sweeps P env id fun _ => True where
  reads := hs.reads
  kill := hs.kill
  leaf _ _ := hs.leaf _
  link _ _ _ := within_cleanupById hs.reads hs.link _
  staging := hs.staging
  create := hs.create
  put := hs.put

/-- **The sweep.** It cleans up what the saved configuration names. -/
lemma reconcile_relies (hs : Sweeps P env id T)
    (hload : Fallible.Relies G P T (ContainerStateDir.forId env id).loadConfig) :
    Fallible.Relies G P (fun _ => True) (reconcile env id) := by
  refine Fallible.Relies.bind (.of_within ((pathExists_reads _).mono hs.reads)) fun found _ => ?_
  split
  · exact Fallible.Relies.pure trivial
  refine Fallible.Relies.bind (.of_within ((loadState_reads _).mono hs.reads)) fun st _ => ?_
  refine Fallible.Relies.bind (.of_within ((isStale_reads st).mono hs.reads)) fun stale _ => ?_
  split
  · exact Fallible.Relies.pure trivial
  refine Fallible.Relies.bind (Q := fun _ => True) ?_ fun found _ => .of_within (hs.update _)
  refine Fallible.Relies.bind (.of_within (within_killRecorded hs.reads fun pid _ => hs.kill pid)) fun _ _ => ?_
  refine Fallible.Relies.bind (Q := fun _ => True) ?_ fun _ _ => ?_
  · refine Fallible.Relies.bind (Fallible.Relies.attempt hload) fun r hr => ?_
    split
    · rename_i cfg
      refine Fallible.Relies.of_within (Fallible.within_bind
        (within_cleanup (hs.leaf cfg (hr cfg rfl))) fun _ => within_when fun hnet => ?_)
      exact hs.link cfg (hr cfg rfl) hnet
    · exact Fallible.Relies.pure trivial
  · exact Fallible.Relies.of_within (Fallible.within_bind
      ((within_sys (.removeDirAll _)).mpr hs.staging) fun _ => (hasSnapshot_reads _ _).mono hs.reads)

/-- Examining a snapshot gives what opening it does. -/
lemma examine_relies {path : PathBuf} {Q : SnapshotReader → Prop}
    (hreads : ∀ o : HostOp, o.reads = true → P o)
    (hopen : Fallible.Relies G P Q (SnapshotReader.open codec path.path)) :
    Fallible.Relies G P Q (examine env codec path) := by
  refine Fallible.Relies.bind hopen fun reader hreader => ?_
  refine Fallible.Relies.bind (.of_within ((verify_reads reader).mono hreads)) fun _ _ => ?_
  refine Fallible.Relies.bind (.of_within ?_) fun _ _ => Fallible.Relies.pure hreader
  rw [checkCompatible]
  split
  · exact trivial
  · exact Fallible.within_bind (version_reads.mono hreads) fun _ => trivial

/-- **Sweep and choice.** They give what opening the snapshots among `B` does, when one of these is
chosen. -/
lemma select_relies {B : PathBuf → Prop} {Q : SnapshotReader → Prop} (hs : Sweeps P env id T)
    (hload : Fallible.Relies G P T (ContainerStateDir.forId env id).loadConfig)
    (hchoose : ∀ st, Fallible.Relies G P B
      (resolveSnapshot env (ContainerStateDir.forId env id) st opts))
    (hopen : ∀ b : PathBuf, B b → Fallible.Relies G P Q (SnapshotReader.open codec b.path)) :
    Fallible.Relies G P (fun x => Q x.2) (select env codec id opts) := by
  refine Fallible.Relies.bind (reconcile_relies hs hload) fun _ _ => ?_
  refine Fallible.Relies.bind (.of_within (refuseRunning_reads.mono hs.reads)) fun st _ => ?_
  refine Fallible.Relies.bind (hchoose st) fun b hb => ?_
  exact Fallible.Relies.bind (examine_relies hs.reads (hopen b hb)) fun _ hreader =>
    Fallible.Relies.pure hreader

/-! ### The rebuilding -/

/-- The calls that unpack and rebuild are among the calls, for this configuration. -/
structure Builds (P : HostOp → Prop) (env : Env) (id : String) (index : UInt8)
    (cfg : ContainerConfig) : Prop where
  reads : ∀ o : HostOp, o.reads = true → P o
  kill : ∀ pid, P (.kill pid)
  extract : ∀ source, AllowsExtract P source (ContainerStateDir.forId env id).stagingDir
  staging : P (.removeDirAll (ContainerStateDir.forId env id).stagingDir)
  create : P (.createFile (ContainerStateDir.forId env id).stateFile)
  put : ∀ d, P (.putDoc (ContainerStateDir.forId env id).stateFile d)
  io : P (.mkdirAll (ContainerStateDir.forId env id).ioDir)
  log : ∀ name ∈ ["stdout", "stderr"], AllowsFile P ((ContainerStateDir.forId env id).ioDir ++ [name])
  mount : ∀ m ∈ (Checkpoint.layoutFor cfg (ContainerStateDir.forId env id)).externalMounts,
    P (.mkdirAll (mountTarget env cfg m))
  delegate : P .delegate
  leaf : P (.mkdirAll (Cgroup.open cfg.id).path)
  limit : ∀ file value, P (.cgroupWrite (Cgroup.open cfg.id).path file value)
  join : ∀ pid, P (.cgroupAdd (Cgroup.open cfg.id).path pid)
  drop : P (.removeDir (Cgroup.open cfg.id).path)
  engine : ∀ o : RestoreOptions,
    o.pidfile = (ContainerStateDir.forId env id).stagingDir ++ ["restored.pid"] →
      P (.criuRestore id o)
  setup : cfg.network = true → ∀ pid, (Network.setup cfg.shortId pid index).run.Within P

section Rebuild

variable {index : UInt8} {cfg : ContainerConfig}

lemma Builds.update (hb : Builds P env id index cfg) (f : ContainerState → ContainerState) :
    (update env id f).run.Within P :=
  within_update hb.reads hb.create hb.put

/-- Everything between the mark and the engine; the leaf is that of the configuration. -/
lemma build_obeys (hb : Builds P env id index cfg) :
    Fallible.Obeys P (fun cgroup => cgroup = Cgroup.open cfg.id)
      (build env cfg (ContainerStateDir.forId env id)) := by
  refine Fallible.Obeys.bind (.of_within (within_restoreIoFiles hb.reads hb.io hb.log)) fun _ _ => ?_
  refine Fallible.Obeys.bind (.of_within (within_prepareMountPoints hb.reads hb.mount
    fun m hm hkey => ?_)) fun _ _ => ?_
  · rw [source_of_layout hm hkey]
    exact hb.io
  refine Fallible.Obeys.bind (Q := fun cgroup => cgroup = Cgroup.open cfg.id) ?_
    fun cgroup hcgroup => ?_
  · refine Fallible.Obeys.bind (.of_within ((within_sys .delegate).mpr hb.delegate)) fun _ _ => ?_
    refine Fallible.Obeys.bind (.of_within (within_orErr _ _)) fun _ _ => ?_
    refine Fallible.Obeys.bind (.of_within ((within_mkdirAll _ _).mpr hb.leaf)) fun _ _ => ?_
    exact Fallible.Obeys.pure rfl
  · subst hcgroup
    exact Fallible.Obeys.bind (.of_within (within_apply hb.limit)) fun _ _ =>
      Fallible.Obeys.pure rfl

/-- The way out of a failure: nothing of the network is left to undo. -/
lemma Builds.undo {m : Manifest} (hb : Builds P env id index m.config) {α : Type} (pid : Option Int)
    (e : RuntimeError) :
    (undo env id { pending id m with pid := pid } e : HostM α).run.Within P := by
  refine Fallible.within_bind (within_rollback hb.reads hb.kill (fun cg hcg => ?_) nofun hb.staging)
    fun _ => ?_
  · obtain rfl := Option.some.inj hcg
    exact hb.drop
  · exact Fallible.within_bind (Fallible.within_attempt (hb.update _)) fun _ => trivial

/-- Everything after the mark. -/
lemma within_rebuild {path : PathBuf} {m : Manifest} (hb : Builds P env id opts.index m.config) :
    (rebuild env id opts path m).run.Within P := by
  have hpidfile : AllowsFile P (engineOptions m.config (ContainerStateDir.forId env id) opts).pidfile :=
    (hb.extract []).file _ (List.prefix_append _ ["restored.pid"])
  refine Fallible.Obeys.within (Q := fun _ => True)
    (Fallible.Obeys.bind (build_obeys hb) fun cgroup hcgroup => .of_within ?_)
  subst hcgroup
  refine Fallible.within_bind ?_ fun r => ?_
  · refine Fallible.within_bind ((within_sys (.removeFile _)).mpr hpidfile.remove) fun _ => ?_
    refine Fallible.within_bind ((within_sys (.criuRestore _ _)).mpr (hb.engine _ rfl)) fun r => ?_
    split <;> exact trivial
  split
  · exact hb.undo none _
  rename_i pid
  refine Fallible.within_bind (Fallible.within_attempt (within_wire_of hb.reads (hb.join pid)
    fun hnet => hb.setup hnet pid)) fun built => ?_
  split
  · exact hb.undo (some pid) _
  refine Fallible.within_bind (within_commit hb.reads hb.create hb.put) fun _ => ?_
  exact within_report hb.reads hb.staging

end Rebuild

/-- Everything from the mark on. -/
def proceed (env : Env) (id : String) (opts : Options) (x : PathBuf × SnapshotReader) :
    HostM Report := do
  setStatus env id .restoring
  rebuild env id opts x.1 x.2.manifest

/-- Sweep, refuse a running container, and choose the snapshot. -/
def pick (env : Env) (id : String) (opts : Options) : HostM PathBuf := do
  reconcile env id
  let st ← refuseRunning env id
  resolveSnapshot env (ContainerStateDir.forId env id) st opts

/-- Restore from the snapshot that was examined. -/
def restoreFrom (env : Env) (id : String) (opts : Options) (path : PathBuf)
    (reader : SnapshotReader) : HostM Report := do
  unpack reader (ContainerStateDir.forId env id).stagingDir
  checkRootfs env reader.manifest.config
  proceed env id opts (path, reader)

lemma restore_eq_pick : restore env codec id opts =
    pick env id opts >>= fun path => examine env codec path >>= fun reader =>
      restoreFrom env id opts path reader := by
  simp only [restore, select, pick, restoreFrom, proceed, bind_assoc, pure_bind]

lemma restore_eq_select : restore env codec id opts =
    select env codec id opts >>= fun x => restoreFrom env id opts x.1 x.2 := rfl

/-- **From the snapshot on.** -/
lemma within_restoreFrom {path : PathBuf} {reader : SnapshotReader}
    (hb : Builds P env id opts.index reader.manifest.config) :
    (restoreFrom env id opts path reader).run.Within P := by
  refine Fallible.within_bind (within_unpack_of (hb.extract _) hb.staging (hb.reads _ rfl)) fun _ => ?_
  refine Fallible.within_bind ((checkRootfs_reads _).mono hb.reads) fun _ => ?_
  exact Fallible.within_bind (hb.update _) fun _ => within_rebuild hb

/-- **A restore.** It sweeps what the saved configuration names, and builds what the configuration in
the snapshot names. -/
lemma restore_relies {B : PathBuf → Prop} {Q : SnapshotReader → Prop} (hs : Sweeps P env id T)
    (hload : Fallible.Relies G P T (ContainerStateDir.forId env id).loadConfig)
    (hchoose : ∀ st, Fallible.Relies G P B
      (resolveSnapshot env (ContainerStateDir.forId env id) st opts))
    (hopen : ∀ b : PathBuf, B b → Fallible.Relies G P Q (SnapshotReader.open codec b.path))
    (hb : ∀ reader, Q reader → Builds P env id opts.index reader.manifest.config) :
    Fallible.Relies G P (fun _ => True) (restore env codec id opts) := by
  rw [restore_eq_select]
  exact Fallible.Relies.bind (select_relies hs hload hchoose hopen) fun x hx =>
    .of_within (within_restoreFrom (hb x.2 hx))

/-- Any snapshot may be chosen. -/
lemma resolveSnapshot_relies (hreads : ∀ o : HostOp, o.reads = true → P o) (st : ContainerState) :
    Fallible.Relies G P (fun _ => True)
      (resolveSnapshot env (ContainerStateDir.forId env id) st opts) :=
  .of_within ((resolveSnapshot_reads _ _ _).mono hreads)

end Restore

end Mincontainer
