import Mincontainer.Engine.Checkpoint
import Mincontainer.Snapshot.Footprint
import Mincontainer.State.Update

set_option relaxedAutoImplicit false
set_option autoImplicit false

/-!
# What the phases of a checkpoint do

One specification for each phase: the phases before the mark only read, the phases after the dump
are file calls, and the metadata that is collected is that of the recorded container.

## Main results

* `Mincontainer.Checkpoint.prepare_reads`, `Mincontainer.Checkpoint.prepare_ok` — nothing happens
  before the mark, and what is known then.
* `Mincontainer.Checkpoint.AllowsPack.within`, `Mincontainer.Checkpoint.within_settle` — the calls that
  packing and settling make.
-/

namespace Mincontainer

open Effects Files Bytes Snapshot

section Footprints

variable {P : HostOp → Prop}

lemma within_writeDoc {p : Path} {d : Doc} {f : String → RuntimeError} (h₁ : P (.createFile p))
    (h₂ : P (.putDoc p d)) : (ContainerStateDir.writeDoc p d f).run.Within P := by
  refine Fallible.within_bind ((within_createFile _ _).mpr h₁) fun _ => ?_
  refine Fallible.within_bind ((within_sys (.putDoc p d)).mpr h₂) fun r => ?_
  rcases r with ⟨k, e⟩ | t <;> exact trivial

lemma within_update {env : Env} {id : String} {f : ContainerState → ContainerState}
    (hr : ∀ o : HostOp, o.reads = true → P o)
    (h₁ : P (.createFile (ContainerStateDir.forId env id).stateFile))
    (h₂ : ∀ d, P (.putDoc (ContainerStateDir.forId env id).stateFile d)) :
    (update env id f).run.Within P :=
  Fallible.within_bind ((loadState_reads _).mono hr) fun _ => within_writeDoc h₁ (h₂ _)

lemma pathExists_reads (dir : ContainerStateDir) :
    dir.pathExists.run.Within fun o : HostOp => o.reads = true :=
  Fallible.within_bind ((within_sys (.stat dir.root)).mpr rfl) fun _ => trivial

lemma isFile_reads (p : Path) : (isFile p).run.Within fun o : HostOp => o.reads = true :=
  Fallible.within_bind ((within_sys (.stat p)).mpr rfl) fun _ => trivial

lemma isDir_reads (p : Path) : (isDir p).run.Within fun o : HostOp => o.reads = true :=
  Fallible.within_bind ((within_sys (.stat p)).mpr rfl) fun _ => trivial

lemma version_reads : Criu.version.run.Within fun o : HostOp => o.reads = true :=
  Fallible.within_bind ((within_sys .criuVersion).mpr rfl) fun _ => within_orErr _ _

lemma within_cleanup {c : Cgroup} (h : P (.removeDir c.path)) : c.cleanup.run.Within P :=
  Fallible.within_bind ((within_sys (.removeDir c.path)).mpr h) fun _ => trivial

end Footprints

namespace Checkpoint

variable {env : Env} {id : String} {opts : Options}

/-! ### Before the mark -/

lemma validate_reads : (validate env id).run.Within fun o : HostOp => o.reads = true := by
  refine Fallible.within_bind (pathExists_reads _) fun found => ?_
  split
  · exact trivial
  refine Fallible.within_bind (loadState_reads _) fun st => ?_
  refine Fallible.within_bind (loadConfig_reads _) fun cfg => ?_
  split
  · exact trivial
  split
  · exact trivial
  · rename_i pid _
    refine Fallible.within_bind ((within_sys (.pidAlive pid)).mpr rfl) fun live => ?_
    split <;> exact trivial

lemma preflight_reads (pid : Int) (cfg : ContainerConfig) :
    (preflight env pid cfg opts).run.Within fun o : HostOp => o.reads = true := by
  refine Fallible.within_bind ((within_sys (.connections pid)).mpr rfl) fun conns => ?_
  split
  · exact trivial
  refine Fallible.within_bind (isDir_reads _) fun rooted => ?_
  split <;> exact trivial

lemma collect_reads (v : String) (st : ContainerState) (cfg : ContainerConfig) (pid : Int) :
    (collect v st cfg pid).run.Within fun o : HostOp => o.reads = true := by
  refine Fallible.within_bind ((within_sys (.namespaces pid)).mpr rfl) fun _ => ?_
  refine Fallible.within_bind ((within_sys (.mounts pid)).mpr rfl) fun _ => ?_
  refine Fallible.within_bind (within_orErr _ _) fun _ => ?_
  refine Fallible.within_bind ((within_sys (.fds pid)).mpr rfl) fun _ => ?_
  refine Fallible.within_bind (within_orErr _ _) fun _ => ?_
  refine Fallible.within_bind ((within_sys (.cgroupStats _)).mpr rfl) fun _ => ?_
  exact trivial

/-- Nothing happens before the mark. -/
lemma prepare_reads : (prepare env id opts).run.Within fun o : HostOp => o.reads = true := by
  refine Fallible.within_bind version_reads fun _ => ?_
  refine Fallible.within_bind validate_reads fun r => ?_
  refine Fallible.within_bind (preflight_reads _ _) fun _ => ?_
  exact collect_reads _ _ _ _

variable {R : Host → Host → Prop} {h h' : Host} {tr : List HostSig.Event}

/-- What is validated is the recorded state and configuration of a running container. -/
lemma validate_ok {st : ContainerState} {cfg : ContainerConfig} {pid : Int}
    (hk : Keeps R (ContainerStateDir.forId env id).stateFile)
    (hrun : Runs R (validate env id) h tr (some (.ok (st, cfg, pid))) h') :
    h.record env id = some st ∧ st.status = Status.running.asStr ∧ st.pid = some pid := by
  obtain ⟨found, tr₁, tr₂, h₁, rfl, hfound, hrun⟩ := Exec.fallible_bind_ok hrun
  split at hrun
  · exact (Exec.throw_ok_false hrun).elim
  obtain ⟨st', tr₂, tr₃, h₂, rfl, hst, hrun⟩ := Exec.fallible_bind_ok hrun
  obtain ⟨cfg', tr₃, tr₄, h₃, rfl, hcfg, hrun⟩ := Exec.fallible_bind_ok hrun
  have hrec : h.record env id = some st' := by
    rw [← loadState_ok hk hst]
    exact (Host.record_congr (hk.star (Runs.of_reads (pathExists_reads _) hfound))).symm
  split at hrun
  · exact (Exec.throw_ok_false hrun).elim
  rename_i hstatus
  split at hrun
  · exact (Exec.throw_ok_false hrun).elim
  rename_i pid' hpid
  obtain ⟨live, tr₄, tr₅, h₄, rfl, -, hrun⟩ := Exec.fallible_bind_ok hrun
  split at hrun
  · exact (Exec.throw_ok_false hrun).elim
  obtain ⟨-, -, hres⟩ := Exec.ret_some_inv hrun
  obtain ⟨rfl, rfl, rfl⟩ : st = st' ∧ cfg = cfg' ∧ pid = pid' := by simpa using hres
  exact ⟨hrec, by simpa using hstatus, hpid⟩

/-- What is collected is the metadata of the recorded container. -/
lemma prepare_ok {info : SnapshotMeta} (hk : Keeps R (ContainerStateDir.forId env id).stateFile)
    (hrun : Runs R (prepare env id opts) h tr (some (.ok info)) h') :
    h.record env id = some info.lifecycle ∧ info.lifecycle.status = Status.running.asStr ∧
      info.lifecycle.pid = some info.checkpointPid := by
  obtain ⟨v, tr₁, tr₂, h₁, rfl, hversion, hrun⟩ := Exec.fallible_bind_ok hrun
  obtain ⟨⟨st, cfg, pid⟩, tr₂, tr₃, h₂, rfl, hvalid, hrun⟩ := Exec.fallible_bind_ok hrun
  obtain ⟨_, tr₃, tr₄, h₃, rfl, -, hrun⟩ := Exec.fallible_bind_ok hrun
  have hinfo : info.lifecycle = st ∧ info.checkpointPid = pid := by
    obtain ⟨_, tr₄, tr₅, h₄, rfl, -, hrun⟩ := Exec.fallible_bind_ok hrun
    obtain ⟨_, tr₅, tr₆, h₅, rfl, -, hrun⟩ := Exec.fallible_bind_ok hrun
    obtain ⟨_, tr₆, tr₇, h₆, rfl, -, hrun⟩ := Exec.fallible_bind_ok hrun
    obtain ⟨_, tr₇, tr₈, h₇, rfl, -, hrun⟩ := Exec.fallible_bind_ok hrun
    obtain ⟨_, tr₈, tr₉, h₈, rfl, -, hrun⟩ := Exec.fallible_bind_ok hrun
    obtain ⟨_, tr₉, tr₁₀, h₉, rfl, -, hrun⟩ := Exec.fallible_bind_ok hrun
    obtain ⟨-, -, hres⟩ := Exec.ret_some_inv hrun
    obtain rfl := Except.ok.inj hres
    exact ⟨rfl, rfl⟩
  obtain ⟨hrec, hstatus, hpid⟩ := validate_ok hk hvalid
  rw [hinfo.1, hinfo.2]
  refine ⟨?_, hstatus, hpid⟩
  rw [← hrec]
  exact (Host.record_congr (hk.star (Runs.of_reads version_reads hversion))).symm

/-! ### The dump -/

lemma within_dump {P : HostOp → Prop} {d : DumpOptions} (h₁ : P (.mkdirAll d.imagesDir))
    (h₂ : P (.criuDump d)) : (Criu.dump d).run.Within P := by
  refine Fallible.within_bind ((within_sys (.mkdirAll _)).mpr h₁) fun _ => ?_
  refine Fallible.within_bind ((within_sys (.criuDump d)).mpr h₂) fun r => ?_
  rcases r with f | images <;> exact trivial

/-- A dump is two calls, and its outcome is the reply of the second. -/
lemma dump_inv {d : DumpOptions} {res : Except RuntimeError (Except String Unit)}
    (hrun : Runs R (Criu.dump d) h tr (some res) h') :
    ∃ (m : Except (Nat × String) Unit) (r : Except DumpFailure (List (String × Bytes))),
      tr = [⟨.mkdirAll d.imagesDir, m⟩, ⟨.criuDump d, r⟩] ∧
        ((∃ images, r = .ok images ∧ res = .ok (.ok ())) ∨
          ∃ f, r = .error f ∧ res = .ok (.error f.msg)) := by
  obtain ⟨h₁, m, tr₁, -, -, rfl, hrun₁⟩ := Exec.call_some_inv hrun
  obtain ⟨h₂, r, tr₂, -, -, rfl, hrun₂⟩ := Exec.call_some_inv hrun₁
  rcases r with f | images
  · obtain ⟨rfl, -, hres⟩ := Exec.ret_some_inv hrun₂
    exact ⟨m, .error f, rfl, .inr ⟨f, rfl, hres⟩⟩
  · obtain ⟨rfl, -, hres⟩ := Exec.ret_some_inv hrun₂
    exact ⟨m, .ok images, rfl, .inl ⟨images, rfl, hres⟩⟩

/-- The state file does not lie in the directory of the images. -/
lemma stateFile_not_below_imagesDir (dir : ContainerStateDir) : ¬ imagesDir dir <+: dir.stateFile := by
  rw [imagesDir, ContainerStateDir.stagingDir, ContainerStateDir.stateFile, List.append_assoc,
    List.prefix_append_right_inj]
  decide

/-! ### After the dump -/

section Pack

variable {P : HostOp → Prop}

lemma fileLen_reads (p : Path) : (fileLen p).run.Within fun o : HostOp => o.reads = true := by
  refine Fallible.within_bind ((within_sys (.openFile p)).mpr rfl) fun r => ?_
  rcases r with e | n <;> exact trivial

/-- The calls that packing makes: it lists and reads the images and the logs, and writes the scratch file
and the destination. -/
structure AllowsPack (P : HostOp → Prop) (dest : PathBuf) (dir : ContainerStateDir) : Prop where
  list : P (.listDir (imagesDir dir))
  image : ∀ name, P (.openFile (imagesDir dir ++ [name])) ∧ P (.readAll (imagesDir dir ++ [name]))
  log : ∀ name, P (.stat (dir.ioDir ++ [name])) ∧ P (.openFile (dir.ioDir ++ [name])) ∧
    P (.readAll (dir.ioDir ++ [name]))
  about : P .now ∧ P .hostname ∧ P .kernelRelease
  parent : ∀ p, dest.parent = some p → P (.mkdirAll p)
  scratch : AllowsFile P (dest.withExtension "mcsnap.part")
  copy : P (.readAll (dest.withExtension "mcsnap.part"))
  final : AllowsFile P dest.path
  size : P (.openFile dest.path)

lemma within_fileLen {p : Path} (h : P (.openFile p)) : (fileLen p).run.Within P := by
  refine Fallible.within_bind ((within_sys (.openFile p)).mpr h) fun r => ?_
  rcases r with e | n <;> exact trivial

lemma addImages_obeys_of {images : Path} {names : List String} {w : SnapshotWriter} {n : ℕ}
    (hi : ∀ name, P (.openFile (images ++ [name])) ∧ P (.readAll (images ++ [name])))
    (hs : AllowsFile P w.scratchPath) :
    Fallible.Obeys P (fun r => r.1.scratchPath = w.scratchPath) (addImages images names w n) := by
  induction names generalizing w n with
  | nil => exact Fallible.Obeys.pure rfl
  | cons name names ih =>
    refine Fallible.Obeys.bind (Fallible.Obeys.of_within (within_fileLen (hi name).1)) fun _ _ => ?_
    refine Fallible.Obeys.bind (addFile_obeys (hi name).1 (hi name).2 hs) fun w' hw' => ?_
    rw [← hw']
    exact ih (hw' ▸ hs)

lemma addImages_obeys {images : Path} {names : List String} {w : SnapshotWriter} {n : ℕ}
    (hr : ∀ o : HostOp, o.reads = true → P o) (hs : AllowsFile P w.scratchPath) :
    Fallible.Obeys P (fun r => r.1.scratchPath = w.scratchPath) (addImages images names w n) :=
  addImages_obeys_of (fun _ => ⟨hr _ rfl, hr _ rfl⟩) hs

lemma addLogs_obeys_of {dir : ContainerStateDir} {names : List String} {w : SnapshotWriter}
    (hl : ∀ name, P (.stat (dir.ioDir ++ [name])) ∧ P (.openFile (dir.ioDir ++ [name])) ∧
      P (.readAll (dir.ioDir ++ [name])))
    (hs : AllowsFile P w.scratchPath) :
    Fallible.Obeys P (fun w' => w'.scratchPath = w.scratchPath) (addLogs dir names w) := by
  induction names generalizing w with
  | nil => exact Fallible.Obeys.pure rfl
  | cons name names ih =>
    obtain ⟨hstat, hopen, hread⟩ := hl name
    refine Fallible.Obeys.bind (Fallible.Obeys.of_within
      (Fallible.within_bind ((within_sys (.stat _)).mpr hstat) fun _ => trivial)) fun _ _ => ?_
    split
    · refine Fallible.Obeys.bind (addFile_obeys hopen hread hs) fun w' hw' => ?_
      rw [← hw']
      exact ih (hw' ▸ hs)
    · exact ih hs

lemma addLogs_obeys {dir : ContainerStateDir} {names : List String} {w : SnapshotWriter}
    (hr : ∀ o : HostOp, o.reads = true → P o) (hs : AllowsFile P w.scratchPath) :
    Fallible.Obeys P (fun w' => w'.scratchPath = w.scratchPath) (addLogs dir names w) :=
  addLogs_obeys_of (fun _ => ⟨hr _ rfl, hr _ rfl, hr _ rfl⟩) hs

/-- Packing makes only such calls. -/
lemma AllowsPack.within {codec : Codec Manifest} {dest : PathBuf} {dir : ContainerStateDir}
    {info : SnapshotMeta} (hp : AllowsPack P dest dir) :
    (pack env codec dest dir info).run.Within P := by
  refine Fallible.within_bind (within_scope hp.parent hp.scratch fun w hw => ?_) fun packed =>
    Fallible.within_bind (within_fileLen hp.size) fun _ => trivial
  have hs : AllowsFile P w.scratchPath := hw ▸ hp.scratch
  refine Fallible.within_bind (Fallible.within_bind ((within_sys (.listDir _)).mpr hp.list) fun _ =>
    Fallible.within_bind (within_orErr _ _) fun _ => trivial) fun files => ?_
  refine Fallible.Obeys.within (Q := fun _ => True) ?_
  refine Fallible.Obeys.bind (addImages_obeys_of hp.image hs) fun r hw₁ => ?_
  dsimp only
  split
  · exact Fallible.Obeys.throw _
  refine Fallible.Obeys.bind (addLogs_obeys_of hp.log (hw₁ ▸ hs)) fun w₂ hw₂ => ?_
  have hlast : w₂.scratchPath = dest.withExtension "mcsnap.part" := hw₂.trans (hw₁.trans hw)
  refine Fallible.Obeys.of_within (Fallible.within_bind (within_finish (hlast ▸ hp.copy)
    (hlast ▸ hp.scratch) hp.final fun t => ?_) fun _ => trivial)
  refine Fallible.within_bind ((within_sys .now).mpr hp.about.1) fun _ => ?_
  refine Fallible.within_bind ((within_sys .hostname).mpr hp.about.2.1) fun _ => ?_
  exact Fallible.within_bind ((within_sys .kernelRelease).mpr hp.about.2.2) fun _ => trivial

/-- Packing makes file calls at the scratch file and the destination. -/
lemma within_pack {codec : Codec Manifest} {dest : PathBuf} {dir : ContainerStateDir}
    {info : SnapshotMeta} (hr : ∀ o : HostOp, o.reads = true → P o) (hmk : ∀ p, P (.mkdirAll p))
    (hs : AllowsFile P (dest.withExtension "mcsnap.part")) (hd : AllowsFile P dest.path) :
    (pack env codec dest dir info).run.Within P :=
  AllowsPack.within ⟨hr _ rfl, fun _ => ⟨hr _ rfl, hr _ rfl⟩, fun _ => ⟨hr _ rfl, hr _ rfl, hr _ rfl⟩,
    ⟨hr _ rfl, hr _ rfl, hr _ rfl⟩, fun p _ => hmk p, hs, hr _ rfl, hd, hr _ rfl⟩

/-- The settling after a dump removes a directory at most. -/
lemma within_settle {info : SnapshotMeta} (hr : ∀ o : HostOp, o.reads = true → P o)
    (hd : ∀ p, P (.removeDir p)) : (settle info opts).run.Within P := by
  refine within_when fun _ => ?_
  refine Fallible.within_bind ?_ fun _ => within_cleanup (hd _)
  rw [awaitSupervisorExit]
  split
  · exact trivial
  · exact Fallible.within_bind ((within_sys (.awaitExit _)).mpr (hr _ rfl)) fun _ => trivial

end Pack

end Checkpoint

end Mincontainer
