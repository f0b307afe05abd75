import Mincontainer.Engine.RestoreFootprint
import Mincontainer.Migration.Migrate
import Mincontainer.Migration.Wire

set_option relaxedAutoImplicit false
set_option autoImplicit false

/-!
# What does not use the connection

A checkpoint and a restore are made of calls to the kernel and the engine; neither writes into the
connection that a migration runs over, nor reads from it. So whatever a peer gets was written by the
transport, and whatever it wrote is left for the transport to read.

## Main definitions

* `Mincontainer.HostOp.Offline` — the call leaves the connection alone.

## Main results

* `Mincontainer.Restore.restore_offline`, `Mincontainer.Restore.adoptSnapshot_offline` — neither a
  restore nor an adoption uses the connection.
* `Mincontainer.Checkpoint.checkpoint_offline` — nor does a checkpoint.
-/

namespace Mincontainer

open Effects Files Bytes Snapshot

/-- The call leaves the connection alone. -/
def HostOp.Offline (o : HostOp) : Prop := o.speaks = false ∧ o.hears = false

/-- The program leaves the connection alone. -/
abbrev Offline {α : Type} (x : HostM α) : Prop := x.run.Within HostOp.Offline

section

variable {α : Type} {R : Host → Host → Prop} {h h' : Host} {tr : List HostSig.Event} {x : HostM α}
  {out : Option (Except RuntimeError α)}

lemma Offline.sent (hx : Offline x) (hrun : Runs R x h tr out h') : sent tr = [] :=
  Runs.sent_nil (hx.mono fun _ ho => ho.1) hrun

lemma Offline.received (hx : Offline x) (hrun : Runs R x h tr out h') : received tr = [] :=
  Runs.received_nil (hx.mono fun _ ho => ho.2) hrun

end

/-- A call that leaves the connection alone, and what follows it. -/
lemma offline_call {β : Type} {o : HostOp} {f : o.Reply → HostM β} (ho : o.Offline)
    (hf : ∀ r, Offline (f r)) : Offline (sys o >>= f) :=
  Fallible.within_bind ((within_sys o).mpr ho) hf

lemma offline_file (p : Path) : AllowsFile HostOp.Offline p :=
  ⟨⟨rfl, rfl⟩, fun _ => ⟨rfl, rfl⟩, ⟨rfl, rfl⟩⟩

lemma offline_mkdirAll (p : Path) (f : String → RuntimeError) : Offline (mkdirAll p f) :=
  (within_mkdirAll p f).mpr ⟨rfl, rfl⟩

lemma offline_createFile (p : Path) (f : String → RuntimeError) : Offline (createFile p f) :=
  (within_createFile p f).mpr ⟨rfl, rfl⟩

lemma offline_isFile (p : Path) : Offline (isFile p) :=
  offline_call ⟨rfl, rfl⟩ fun _ => trivial

lemma offline_isDir (p : Path) : Offline (isDir p) :=
  offline_call ⟨rfl, rfl⟩ fun _ => trivial

/-! ### Records -/

section

variable {env : Env} {id : String} {dir : ContainerStateDir}

lemma offline_pathExists : Offline dir.pathExists := offline_call ⟨rfl, rfl⟩ fun _ => trivial

lemma offline_loadState : Offline dir.loadState := by
  refine offline_call ⟨rfl, rfl⟩ fun _ => Fallible.within_bind (within_orErr _ _) fun _ => ?_
  split <;> exact trivial

lemma offline_loadConfig : Offline dir.loadConfig := by
  refine offline_call ⟨rfl, rfl⟩ fun _ => Fallible.within_bind (within_orErr _ _) fun _ => ?_
  split <;> exact trivial

lemma offline_update (f : ContainerState → ContainerState) : Offline (update env id f) :=
  Fallible.within_bind offline_loadState fun _ => within_writeDoc ⟨rfl, rfl⟩ ⟨rfl, rfl⟩

lemma offline_adopt (st : ContainerState) (cfg : ContainerConfig) : Offline (adopt env st cfg) := by
  refine Fallible.within_bind (offline_mkdirAll _ _) fun _ => ?_
  refine Fallible.within_bind ?_ fun _ => ?_
  · refine Fallible.within_bind (offline_mkdirAll _ _) fun _ => ?_
    exact Fallible.within_bind (offline_mkdirAll _ _) fun _ => offline_mkdirAll _ _
  · exact Fallible.within_bind (within_writeDoc ⟨rfl, rfl⟩ ⟨rfl, rfl⟩) fun _ =>
      within_writeDoc ⟨rfl, rfl⟩ ⟨rfl, rfl⟩

end

/-! ### Snapshots -/

namespace SnapshotReader

variable {r : SnapshotReader} {dir : Path}

lemma offline_open {codec : Codec Manifest} {path : Path} : Offline (SnapshotReader.open codec path) :=
  offline_call ⟨rfl, rfl⟩ fun _ => Fallible.within_bind (within_orErr _ _) fun _ => within_ofExcept _

lemma offline_verify : Offline r.verify := by
  refine offline_call ⟨rfl, rfl⟩ fun read => ?_
  split
  · exact trivial
  · dsimp only
    split
    · exact trivial
    · split <;> exact trivial

lemma offline_extractEntry (expected : EntryMeta) (rest : Bytes) :
    Offline (r.extractEntry dir expected rest) := by
  refine offline_call ⟨rfl, rfl⟩ fun buffered => ?_
  split
  · exact trivial
  refine Fallible.within_bind (within_ofExcept _) fun header => ?_
  dsimp only
  split
  · exact trivial
  refine Fallible.within_bind (within_ofExcept _) fun dest => ?_
  refine Fallible.within_bind ?_ fun _ => Fallible.within_bind ?_ fun _ => trivial
  · refine Fallible.within_bind (offline_mkdirAll _ _) fun _ => ?_
    split
    · exact offline_createFile _ _
    · exact trivial
  · refine offline_call ⟨rfl, rfl⟩ fun read => ?_
    refine Fallible.within_bind (within_copyChunks (offline_file _).append) fun _ => ?_
    split
    · exact trivial
    · dsimp only
      split
      · exact trivial
      · split <;> exact trivial

lemma offline_extractAll : Offline (r.extractAll dir) := by
  have hentries (es : List EntryMeta) : ∀ rest, Offline (r.extractEntries dir es rest) := by
    induction es with
    | nil => exact fun _ => trivial
    | cons e es ih =>
      exact fun rest => Fallible.within_bind (offline_extractEntry e rest) fun rest => ih rest
  exact Fallible.within_bind (offline_mkdirAll _ _) fun _ => hentries _ _

end SnapshotReader

/-! ### Restoring -/

namespace Restore

variable {env : Env} {codec : Codec Manifest} {id : String} {opts : Options}

lemma offline_net (c : NetCommand) : Offline (Network.run c) := within_run ⟨rfl, rfl⟩

lemma offline_cleanupById (s : String) : Offline (Network.cleanupById s) := by
  unfold Network.cleanupById
  split
  · exact Fallible.within_bind (Fallible.within_attempt (offline_net _)) fun _ => trivial
  · exact within_abort.mpr ⟨rfl, rfl⟩

lemma offline_hasSnapshot {dir : ContainerStateDir} (st : ContainerState) :
    Offline (hasSnapshot env dir st) := by
  refine Fallible.within_bind ?_ fun _ => ?_
  · split
    · exact offline_isFile _
    · exact trivial
  · split
    · exact trivial
    · exact offline_isFile _

lemma offline_clear (st : ContainerState) : Offline (clear env id st) := by
  refine Fallible.within_bind ?_ fun _ => Fallible.within_bind ?_ fun _ =>
    offline_call ⟨rfl, rfl⟩ fun _ => offline_hasSnapshot st
  · unfold killRecorded
    split
    · exact trivial
    · exact offline_call ⟨rfl, rfl⟩ fun _ => within_when fun _ =>
        offline_call ⟨rfl, rfl⟩ fun _ => offline_call ⟨rfl, rfl⟩ fun _ => trivial
  · refine Fallible.within_bind (Fallible.within_attempt offline_loadConfig) fun r => ?_
    split
    · exact Fallible.within_bind (within_cleanup ⟨rfl, rfl⟩) fun _ =>
        within_when fun _ => offline_cleanupById _
    · exact trivial

lemma offline_reconcile : Offline (reconcile env id) := by
  refine Fallible.within_bind offline_pathExists fun found => ?_
  split
  · exact trivial
  refine Fallible.within_bind offline_loadState fun st => Fallible.within_bind ?_ fun stale => ?_
  · unfold isStale
    split
    · exact trivial
    split
    · exact trivial
    split
    · split
      · exact offline_call ⟨rfl, rfl⟩ fun _ => trivial
      · exact trivial
    · exact trivial
  · split
    · exact trivial
    · exact Fallible.within_bind (offline_clear st) fun _ => offline_update _

lemma offline_refuseRunning : Offline (refuseRunning env id) := by
  refine Fallible.within_bind offline_pathExists fun found => ?_
  split
  · exact trivial
  refine Fallible.within_bind offline_loadState fun st => ?_
  split
  · refine offline_call ⟨rfl, rfl⟩ fun live => ?_
    split <;> exact trivial
  · exact trivial

lemma offline_resolveSnapshot {dir : ContainerStateDir} (st : ContainerState) :
    Offline (resolveSnapshot env dir st opts) := by
  unfold resolveSnapshot
  split
  · refine Fallible.within_bind (offline_isFile _) fun there => ?_
    split <;> exact trivial
  · refine Fallible.within_bind ?_ fun recorded => ?_
    · split
      · exact Fallible.within_bind (offline_isFile _) fun _ => trivial
      · exact trivial
    split
    · exact trivial
    · refine Fallible.within_bind (offline_isFile _) fun there => ?_
      split <;> exact trivial

lemma offline_examine (path : PathBuf) : Offline (examine env codec path) := by
  refine Fallible.within_bind SnapshotReader.offline_open fun reader => ?_
  refine Fallible.within_bind SnapshotReader.offline_verify fun _ => ?_
  refine Fallible.within_bind ?_ fun _ => trivial
  unfold checkCompatible
  split
  · exact trivial
  · exact Fallible.within_bind (offline_call ⟨rfl, rfl⟩ fun _ => within_orErr _ _) fun _ => trivial

lemma offline_restoreIoFile {staging ioDir : Path} {name : String} :
    Offline (restoreIoFile staging ioDir name) := by
  refine Fallible.within_bind (offline_isFile _) fun saved => ?_
  split
  · refine offline_call ⟨rfl, rfl⟩ fun _ => Fallible.within_bind (within_orErr _ _) fun _ => ?_
    exact Fallible.within_bind (offline_createFile _ _) fun _ => (within_appendTo _ _ _).mpr ⟨rfl, rfl⟩
  · exact offline_call ⟨rfl, rfl⟩ fun _ => within_when fun _ => offline_createFile _ _

lemma offline_prepareMountPoints {cfg : ContainerConfig} (ms : List ExternalMount) :
    Offline (prepareMountPoints env cfg ms) := by
  induction ms with
  | nil => exact trivial
  | cons m ms ih =>
    refine Fallible.within_bind (offline_mkdirAll _ _) fun _ => Fallible.within_bind ?_ fun _ => ih
    refine offline_call ⟨rfl, rfl⟩ fun _ => within_when fun _ => ?_
    split
    · exact offline_mkdirAll _ _
    · exact trivial

lemma offline_build {cfg : ContainerConfig} {dir : ContainerStateDir} : Offline (build env cfg dir) := by
  refine Fallible.within_bind ?_ fun _ => Fallible.within_bind (offline_prepareMountPoints _) fun _ =>
    Fallible.within_bind ?_ fun cgroup => Fallible.within_bind (within_apply fun _ _ => ⟨rfl, rfl⟩)
      fun _ => trivial
  · refine Fallible.within_bind (offline_mkdirAll _ _) fun _ => ?_
    exact Fallible.within_bind offline_restoreIoFile fun _ => offline_restoreIoFile
  · refine offline_call ⟨rfl, rfl⟩ fun _ => Fallible.within_bind (within_orErr _ _) fun _ => ?_
    exact Fallible.within_bind (offline_mkdirAll _ _) fun _ => trivial

lemma offline_assertIsolated (pid : Int) (kinds : List String) :
    Offline (assertIsolatedFromHost pid kinds) := by
  induction kinds with
  | nil => exact trivial
  | cons kind kinds ih =>
    refine offline_call ⟨rfl, rfl⟩ fun _ => offline_call ⟨rfl, rfl⟩ fun _ => ?_
    split
    · split
      · exact trivial
      · exact ih
    · exact ih

lemma offline_wire {cfg : ContainerConfig} {cgroup : Cgroup} {pid : Int} {index : UInt8} :
    Offline (wire cfg cgroup pid index) := by
  refine offline_call ⟨rfl, rfl⟩ fun live => ?_
  split
  · exact trivial
  refine Fallible.within_bind (within_addProcess ⟨rfl, rfl⟩) fun _ => ?_
  refine Fallible.within_bind (offline_assertIsolated _ _) fun _ => ?_
  split
  · exact Fallible.within_bind (Network.within_setup (fun _ => ⟨rfl, rfl⟩) ⟨rfl, rfl⟩) fun _ => trivial
  · exact trivial

lemma offline_undo {β : Type} {rb : Rollback} {e : RuntimeError} :
    Offline (undo env id rb e : HostM β) := by
  refine Fallible.within_bind (within_when fun _ => ?_) fun _ =>
    Fallible.within_bind (Fallible.within_attempt (offline_update _)) fun _ => trivial
  refine Fallible.within_bind ?_ fun _ => Fallible.within_bind ?_ fun _ =>
    Fallible.within_bind ?_ fun _ => (within_sys _).mpr ⟨rfl, rfl⟩
  · unfold Rollback.dropNetwork
    split
    · exact Fallible.within_bind (Fallible.within_attempt (offline_net _)) fun _ => trivial
    · exact trivial
  · unfold Rollback.killTree
    split
    · exact offline_call ⟨rfl, rfl⟩ fun _ => offline_call ⟨rfl, rfl⟩ fun _ => trivial
    · exact trivial
  · unfold Rollback.dropCgroup
    split
    · exact within_cleanup ⟨rfl, rfl⟩
    · exact trivial

lemma offline_revive {path : PathBuf} {m : Manifest} {cgroup : Cgroup} :
    Offline (revive env id opts path m cgroup) := by
  refine Fallible.within_bind ?_ fun r => ?_
  · refine offline_call ⟨rfl, rfl⟩ fun _ => offline_call ⟨rfl, rfl⟩ fun r => ?_
    split <;> exact trivial
  split
  · exact offline_undo
  refine Fallible.within_bind (Fallible.within_attempt offline_wire) fun built => ?_
  split
  · exact offline_undo
  refine Fallible.within_bind ?_ fun _ => ?_
  · refine Fallible.within_bind (offline_call ⟨rfl, rfl⟩ fun _ => offline_update _) fun _ => ?_
    exact offline_call ⟨rfl, rfl⟩ fun _ => within_when fun _ => offline_update _
  · refine offline_call ⟨rfl, rfl⟩ fun _ => ?_
    refine Fallible.within_bind (Fallible.within_attempt offline_loadState) fun _ => ?_
    exact Fallible.within_bind (Checkpoint.within_fileLen ⟨rfl, rfl⟩) fun _ => trivial

/-- **A restore** does not use the connection. -/
lemma restore_offline : Offline (restore env codec id opts) := by
  refine Fallible.within_bind ?_ fun x => Fallible.within_bind ?_ fun _ => Fallible.within_bind ?_ fun _ =>
    Fallible.within_bind (offline_update _) fun _ => Fallible.within_bind offline_build fun _ =>
      offline_revive
  · refine Fallible.within_bind offline_reconcile fun _ => ?_
    refine Fallible.within_bind offline_refuseRunning fun st => ?_
    refine Fallible.within_bind (offline_resolveSnapshot st) fun path => ?_
    exact Fallible.within_bind (offline_examine path) fun _ => trivial
  · refine offline_call ⟨rfl, rfl⟩ fun _ => ?_
    refine Fallible.within_bind SnapshotReader.offline_extractAll fun _ => ?_
    refine Fallible.within_bind (offline_isDir _) fun there => ?_
    split <;> exact trivial
  · refine Fallible.within_bind (offline_isDir _) fun there => ?_
    split <;> exact trivial

/-- **An adoption** does not use the connection. -/
lemma adoptSnapshot_offline {path : PathBuf} : Offline (adoptSnapshot env codec path) := by
  refine Fallible.within_bind SnapshotReader.offline_open fun reader => ?_
  refine Fallible.within_bind SnapshotReader.offline_verify fun _ => ?_
  exact Fallible.within_bind (offline_adopt _ _) fun _ => trivial

end Restore

/-! ### Checkpointing -/

namespace Checkpoint

variable {env : Env} {codec : Codec Manifest} {id : String} {opts : Options}

lemma offline_prepare : Offline (prepare env id opts) := by
  refine Fallible.within_bind (offline_call ⟨rfl, rfl⟩ fun _ => within_orErr _ _) fun _ =>
    Fallible.within_bind ?_ fun x => Fallible.within_bind ?_ fun _ => ?_
  · refine Fallible.within_bind offline_pathExists fun found => ?_
    split
    · exact trivial
    refine Fallible.within_bind offline_loadState fun st => ?_
    refine Fallible.within_bind offline_loadConfig fun cfg => ?_
    split
    · exact trivial
    split
    · exact trivial
    · refine offline_call ⟨rfl, rfl⟩ fun live => ?_
      split <;> exact trivial
  · refine offline_call ⟨rfl, rfl⟩ fun conns => ?_
    split
    · exact trivial
    · refine Fallible.within_bind (offline_isDir _) fun rooted => ?_
      split <;> exact trivial
  · refine offline_call ⟨rfl, rfl⟩ fun _ => offline_call ⟨rfl, rfl⟩ fun _ => ?_
    refine Fallible.within_bind (within_orErr _ _) fun _ => offline_call ⟨rfl, rfl⟩ fun _ => ?_
    exact Fallible.within_bind (within_orErr _ _) fun _ => offline_call ⟨rfl, rfl⟩ fun _ => trivial

lemma offline_dumpTree {info : SnapshotMeta} : Offline (dumpTree env id info opts) := by
  refine Fallible.within_bind (within_dump ⟨rfl, rfl⟩ ⟨rfl, rfl⟩) fun r => ?_
  split
  · exact trivial
  · refine offline_call ⟨rfl, rfl⟩ fun still => ?_
    exact Fallible.within_bind (Fallible.within_attempt (offline_update _)) fun _ => trivial

lemma offline_settle {info : SnapshotMeta} : Offline (settle info opts) := by
  refine within_when fun _ => Fallible.within_bind ?_ fun _ => within_cleanup ⟨rfl, rfl⟩
  unfold awaitSupervisorExit
  split
  · exact trivial
  · exact offline_call ⟨rfl, rfl⟩ fun _ => trivial

lemma offline_store {info : SnapshotMeta} : Offline (store env codec id info opts) := by
  refine offline_call ⟨rfl, rfl⟩ fun _ => ?_
  refine Fallible.within_bind (AllowsPack.within ⟨⟨rfl, rfl⟩, fun _ => ⟨⟨rfl, rfl⟩, ⟨rfl, rfl⟩⟩,
    fun _ => ⟨⟨rfl, rfl⟩, ⟨rfl, rfl⟩, ⟨rfl, rfl⟩⟩, ⟨⟨rfl, rfl⟩, ⟨rfl, rfl⟩, ⟨rfl, rfl⟩⟩,
    fun _ _ => ⟨rfl, rfl⟩, offline_file _, ⟨rfl, rfl⟩, offline_file _, ⟨rfl, rfl⟩⟩) fun _ => ?_
  refine offline_call ⟨rfl, rfl⟩ fun _ => Fallible.within_bind ?_ fun _ => trivial
  unfold commit
  split
  · exact offline_call ⟨rfl, rfl⟩ fun _ => offline_update _
  · exact offline_call ⟨rfl, rfl⟩ fun _ => offline_update _

/-- **A checkpoint** does not use the connection. -/
lemma checkpoint_offline : Offline (checkpoint env codec id opts) := by
  refine Fallible.within_bind offline_prepare fun info => ?_
  refine Fallible.within_bind (offline_update _) fun _ => ?_
  refine Fallible.within_bind (offline_call ⟨rfl, rfl⟩ fun _ => offline_mkdirAll _ _) fun _ => ?_
  refine Fallible.within_bind offline_dumpTree fun _ => ?_
  exact Fallible.within_bind offline_settle fun _ => offline_store

end Checkpoint

end Mincontainer
