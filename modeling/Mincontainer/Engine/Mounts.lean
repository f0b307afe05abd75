import Mincontainer.Container.Spawn
import Mincontainer.Engine.Arguments
import Mincontainer.Engine.RestorePhases
import Mincontainer.Host.Oblige
import Mincontainer.Lifecycle.Commands

set_option relaxedAutoImplicit false
set_option autoImplicit false

/-!
# The mounts of a container and those the engine is told of

`grandchild` binds the volumes and the directory of the logs into the root file system; `layout_for`
lists the same mounts for the engine, by the text of their mount points; `prepare_mount_points` makes
the directories they are restored onto. Each of the three has its own way with the text.

## Main definitions

* `Mincontainer.Mounts.bindTarget` — where a mount point lies below the root file system.
* `Mincontainer.Mounts.targets` — the bind mounts of a container.
* `Mincontainer.Mounts.Told` — the engine is told the mounts that the container has.
* `Mincontainer.Mounts.Canonical` — the text of a mount point is the absolute path of it.

## Main results

* `Mincontainer.Mounts.targets_stages` — where the container binds its mounts.
* `Mincontainer.Mounts.prepareMountPoints_run` — a restore makes these directories.
* `Mincontainer.Mounts.told_iff_canonical` — when the engine is told the mounts.
* `Mincontainer.Mounts.told_places` — the mount points as places, whatever their spelling.
* `Mincontainer.Mounts.not_told_up` — a mount point without a slash, and one that goes up.
-/

namespace Mincontainer

open Effects Files Restore

namespace Mounts

/-! ### Mount points as text -/

/-- The text without the slashes in front. -/
def trimRoot (text : String) : String := String.ofList (text.toList.dropWhile (· = '/'))

/-- The place of a mount point, for a root file system at `root`. -/
def bindTarget (root : Path) (containerPath : String) : Path := resolve root (trimRoot containerPath)

/-- The steps a text stands for, from wherever it is taken. -/
def body (text : String) : List Component := (splitSlash text).filterMap component?

lemma splitSlash_slash (cs : List Char) :
    splitSlash (String.ofList ('/' :: cs)) = "" :: splitSlash (String.ofList cs) := by
  rw [splitSlash, splitSlash, String.toList_ofList, String.toList_ofList,
    List.splitOn_cons_eq_if_modifyHead]
  rfl

/-- Slashes in front are no steps. -/
lemma body_dropWhile (cs : List Char) :
    body (String.ofList (cs.dropWhile (· = '/'))) = body (String.ofList cs) := by
  induction cs with
  | nil => rfl
  | cons c cs ih =>
    by_cases hc : c = '/'
    · subst hc
      rw [List.dropWhile_cons_of_pos (by simp), ih, body, body, splitSlash_slash]
      rfl
    · rw [List.dropWhile_cons_of_neg (by simpa using hc)]

/-- A text without a slash in front takes its steps from the directory it is resolved from. -/
lemma resolve_relative {root : Path} {text : String} (h : text.toList.head? ≠ some '/') :
    resolve root text = (body text).foldl follow root := by
  unfold resolve components
  rw [if_neg h]
  split
  · rfl
  · rfl

/-- An absolute text takes its steps from the root; so does any other that is resolved there. -/
lemma resolve_root (text : String) : resolve [] text = (body text).foldl follow [] := by
  by_cases h : text.toList.head? = some '/'
  · unfold resolve components
    rw [if_pos h]
    rfl
  · exact resolve_relative h

/-- **The place of a mount point.** It is reached from the root file system by the steps of the text. -/
lemma bindTarget_eq (root : Path) (text : String) :
    bindTarget root text = (body text).foldl follow root := by
  have hhead : (trimRoot text).toList.head? ≠ some '/' := by
    rw [trimRoot, String.toList_ofList]
    intro h
    have hslash := List.head?_dropWhile_not (fun c => decide (c = '/')) text.toList
    rw [h] at hslash
    simp at hslash
  rw [bindTarget, resolve_relative hhead, trimRoot, body_dropWhile, String.ofList_toList]

/-- Steps that go down only lead below the place they start from. -/
lemma foldl_follow_below {cs : List Component} (hroot : .rootDir ∉ cs) (hup : .parentDir ∉ cs)
    (dir : Path) : cs.foldl follow dir = dir ++ cs.foldl follow [] := by
  have hdown : ∀ (cs : List Component) (dir base : Path), .rootDir ∉ cs → .parentDir ∉ cs →
      cs.foldl follow (base ++ dir) = base ++ cs.foldl follow dir := by
    intro cs
    induction cs with
    | nil => exact fun _ _ _ _ => rfl
    | cons c cs ih =>
      intro dir base hroot hup
      rw [List.mem_cons, not_or] at hroot hup
      rw [List.foldl_cons, List.foldl_cons]
      cases c with
      | rootDir => exact absurd rfl hroot.1
      | curDir => exact ih dir base hroot.2 hup.2
      | parentDir => exact absurd rfl hup.1
      | normal n =>
        have hnext : follow (base ++ dir) (.normal n) = base ++ follow dir (.normal n) :=
          List.append_assoc base dir [n]
        rw [hnext]
        exact ih _ base hroot.2 hup.2
  simpa using hdown cs [] dir hroot hup

lemma rootDir_not_mem_body (text : String) : .rootDir ∉ body text := by
  intro h
  obtain ⟨piece, -, hpiece⟩ := List.mem_filterMap.mp h
  unfold component? at hpiece
  split at hpiece
  · cases hpiece
  · split at hpiece
    · cases hpiece
    · cases hpiece

/-- A mount point that never goes up lies below the root file system, at the path of its text. -/
lemma bindTarget_below {text : String} (hup : .parentDir ∉ body text) (root : Path) :
    bindTarget root text = root ++ resolve [] text := by
  rw [bindTarget_eq, resolve_root]
  exact foldl_follow_below (rootDir_not_mem_body text) hup root

/-- The text is the absolute path that it denotes: one slash before each name, and names only. -/
def Canonical (text : String) : Prop := text = display (resolve [] text)

instance : DecidablePred Canonical := fun _ => inferInstanceAs (Decidable (_ = _))

/-- The text of a path never goes up. -/
lemma parentDir_not_mem_body {p : Path} (hp : Clean p) : .parentDir ∉ body (display p) := by
  by_cases hnil : p = []
  · subst hnil
    decide
  · rw [body, splitSlash_display hp hnil, List.filterMap_cons_none (by decide),
      filterMap_component?_of_clean hp]
    simp

lemma clean_resolve_root (text : String) : Clean (resolve [] text) :=
  clean_resolve (by decide) text

lemma canonical_display {p : Path} (hp : Clean p) : Canonical (display p) := by
  rw [Canonical, resolve_display hp]

/-- A canonical mount point lies where its text says. -/
lemma bindTarget_of_canonical {text : String} (h : Canonical text) (root : Path) :
    bindTarget root text = root ++ resolve [] text := by
  refine bindTarget_below ?_ root
  rw [h]
  exact parentDir_not_mem_body (clean_resolve_root text)

/-! ### The mounts of a container -/

/-- The bind mount that a stage makes: the text of its source, and its target. -/
def bindMount (cwd : Path) : Stage → Option (String × Path)
  | .mountVolumeIntoRootfs rootfs hostPath containerPath =>
    some (hostPath, bindTarget (resolve cwd rootfs) containerPath)
  | _ => none

/-- The targets of the bind mounts that the container makes on its way to its command. -/
def targets (cwd : Path) (cfg : ContainerConfig) (io : String) : List Path :=
  ((Spawn.stages cfg (some io)).filterMap (bindMount cwd)).map Prod.snd

/-- **The mounts of a container.** They are its volumes and the directory of the logs, each below the
root file system at the place of its mount point. -/
lemma targets_stages (cwd : Path) (cfg : ContainerConfig) (io : String) :
    targets cwd cfg io =
      (cfg.volumes.map fun v => bindTarget (resolve cwd cfg.rootfs) v.containerPath) ++
        [bindTarget (resolve cwd cfg.rootfs) ".mcio"] := by
  have hvolumes : (cfg.volumes.map fun v =>
      Stage.mountVolumeIntoRootfs cfg.rootfs v.hostPath v.containerPath).filterMap (bindMount cwd) =
      cfg.volumes.map fun v => (v.hostPath, bindTarget (resolve cwd cfg.rootfs) v.containerPath) := by
    rw [List.filterMap_map]
    exact congrFun (List.filterMap_eq_map (f := fun v : Volume => (v.hostPath,
      bindTarget (resolve cwd cfg.rootfs) v.containerPath))) cfg.volumes
  have hcaps : (if cfg.dropCaps then [Stage.dropDangerous] else []).filterMap (bindMount cwd) = [] := by
    cases cfg.dropCaps
    · rfl
    · rfl
  have hseccomp : (if cfg.seccomp then [Stage.applySeccomp] else []).filterMap (bindMount cwd) = [] := by
    cases cfg.seccomp
    · rfl
    · rfl
  rw [targets, Spawn.stages]
  simp only [List.filterMap_append, hvolumes, hcaps, hseccomp, List.append_nil, List.map_append,
    List.map_map, List.append_assoc]
  rfl

lemma mem_targets {cwd : Path} {cfg : ContainerConfig} {io : String} {q : Path} :
    q ∈ targets cwd cfg io ↔
      ∃ m ∈ "/.mcio" :: cfg.volumes.map Volume.containerPath,
        bindTarget (resolve cwd cfg.rootfs) m = q := by
  have hio : bindTarget (resolve cwd cfg.rootfs) "/.mcio" = bindTarget (resolve cwd cfg.rootfs) ".mcio" := by
    rw [bindTarget_eq, bindTarget_eq, show body "/.mcio" = body ".mcio" by decide]
  rw [targets_stages, List.mem_append, List.mem_map, List.mem_singleton]
  constructor
  · rintro (⟨v, hv, rfl⟩ | rfl)
    · exact ⟨_, List.mem_cons_of_mem _ (List.mem_map_of_mem hv), rfl⟩
    · exact ⟨_, List.mem_cons_self, hio⟩
  · rintro ⟨m, hm, rfl⟩
    rcases List.mem_cons.mp hm with rfl | hm
    · exact .inr hio
    · obtain ⟨v, hv, rfl⟩ := List.mem_map.mp hm
      exact .inl ⟨v, hv, rfl⟩

/-- The mount points of a layout, as text. -/
lemma map_containerPath_layoutFor (cfg : ContainerConfig) (dir : ContainerStateDir) :
    (Checkpoint.layoutFor cfg dir).externalMounts.map ExternalMount.containerPath =
      "/.mcio" :: cfg.volumes.map Volume.containerPath := by
  rw [Checkpoint.layoutFor, List.map_cons]
  congr 1
  exact List.ext_getElem (by simp) fun i h₁ h₂ => by simp

/-! ### The directories that a restore makes -/

/-- **A restore makes the mount points.** When it gets through, it made the directory of each mount. -/
lemma prepareMountPoints_run {R : Host → Host → Prop} {env : Env} {cfg : ContainerConfig}
    {ms : List ExternalMount} {h h' : Host} {tr : List HostSig.Event}
    (hrun : Runs R (prepareMountPoints env cfg ms) h tr (some (.ok ())) h') :
    ∀ m ∈ ms, (⟨.mkdirAll (mountTarget env cfg m), .ok ()⟩ : HostSig.Event) ∈ tr := by
  induction ms generalizing h tr with
  | nil => exact fun m hm => absurd hm List.not_mem_nil
  | cons m ms ih =>
    obtain ⟨u, tr₁, tr₂, h₁, rfl, hmade, hrest⟩ := Exec.fallible_bind_ok hrun
    obtain ⟨v, tr₃, tr₄, h₂, rfl, -, hmore⟩ := Exec.fallible_bind_ok hrest
    intro x hx
    rcases List.mem_cons.mp hx with rfl | hx
    · obtain ⟨r, tr₅, tr₆, h₃, rfl, hcall, hret⟩ := Exec.fallible_bind_ok hmade
      rcases Exec.sys_inv hcall with ⟨-, hcut, -⟩ | ⟨h₄, r', -, -, rfl, -, hcut | hr⟩
      · cases hcut
      · cases hcut
      · obtain rfl : r = r' := by
          simpa using hr
        cases r with
        | ok u => exact List.mem_append_left _ (List.mem_append_left _ List.mem_cons_self)
        | error e =>
          obtain ⟨-, -, hbad⟩ := Exec.ret_inv hret
          simp at hbad
    · exact List.mem_append_right _ (List.mem_append_right _ (ih hmore x hx))

/-- No other directory is made but the runtime's own, for its mount. -/
lemma prepareMountPoints_only {R : Host → Host → Prop} {env : Env} {cfg : ContainerConfig}
    {dir : ContainerStateDir} {h h' : Host} {tr : List HostSig.Event}
    {out : Option (Except RuntimeError Unit)}
    (hrun : Runs R (prepareMountPoints env cfg (Checkpoint.layoutFor cfg dir).externalMounts) h tr
      out h') {q : Path} {r : Except (ℕ × String) Unit}
    (hq : (⟨.mkdirAll q, r⟩ : HostSig.Event) ∈ tr) :
    (∃ m ∈ (Checkpoint.layoutFor cfg dir).externalMounts, mountTarget env cfg m = q) ∨
      q = resolve env.cwd (display dir.ioDir) := by
  have hwithin := Exec.mem_within (within_prepareMountPoints
    (P := fun o => ∀ q, o = .mkdirAll q →
      (∃ m ∈ (Checkpoint.layoutFor cfg dir).externalMounts, mountTarget env cfg m = q) ∨
        q = resolve env.cwd (display dir.ioDir))
    (fun o ho q hq => by rw [hq] at ho; cases ho)
    (fun m hm q hq => .inl ⟨m, hm, HostOp.mkdirAll.inj hq⟩)
    (fun m hm hkey q hq => .inr ?_)) hrun
  · exact hwithin _ hq q rfl
  · rcases List.mem_cons.mp hm with rfl | hm
    · exact (HostOp.mkdirAll.inj hq).symm
    · obtain ⟨i, hi, rfl⟩ := List.mem_mapIdx.mp hm
      exact absurd hkey (Checkpoint.volumeKey_ne i)

/-! ### What the engine is told -/

/-- How a text names a mount point, as a path from the root of the container. -/
abbrev Reading := String → Path → Prop

/-- The text is the absolute path of the mount point. -/
def AsText : Reading := fun text p => Clean p ∧ text = display p

/-- The text leads to the mount point from the root of the container, however it is spelled. -/
def AsPlace : Reading := fun text p => resolve [] text = p

/-- The engine is told the mounts that the container has. The container was started from the directory
`cwd`; a checkpoint with this metadata and these options declares the mounts; a restore of it, on any
host, prepares and supplies them. -/
structure Told (reads : Reading) (cwd : Path) (dir : ContainerStateDir) (info : Checkpoint.SnapshotMeta)
    (opts : Checkpoint.Options) : Prop where
  /-- What is declared as a mount is one. -/
  bound : ∀ text key, Criu.Declares (Criu.dumpArgs (Checkpoint.dumpOptions dir info opts)) text key →
    ∃ p, reads text p ∧
      resolve cwd info.config.rootfs ++ p ∈ targets cwd info.config (display dir.ioDir)
  /-- Each mount is declared. -/
  declared : ∀ q ∈ targets cwd info.config (display dir.ioDir), ∃ text key p,
    Criu.Declares (Criu.dumpArgs (Checkpoint.dumpOptions dir info opts)) text key ∧
      reads text p ∧ resolve cwd info.config.rootfs ++ p = q
  /-- The keys are different. -/
  keys : ((Checkpoint.dumpOptions dir info opts).layout.externalMounts.map ExternalMount.key).Nodup
  /-- A restore makes the targets of the mounts, and no other directory than the one of the logs. -/
  prepared : ∀ (env : Env) (dir' : ContainerStateDir) (R : Host → Host → Prop) (h h' : Host)
    (tr : List HostSig.Event) (out : Option (Except RuntimeError Unit)),
    Runs R (prepareMountPoints env info.config (Checkpoint.layoutFor info.config dir').externalMounts)
      h tr out h' →
    (out = some (.ok ()) → ∀ q ∈ targets env.cwd info.config (display dir'.ioDir),
      (⟨.mkdirAll q, .ok ()⟩ : HostSig.Event) ∈ tr) ∧
    ∀ q r, (⟨.mkdirAll q, r⟩ : HostSig.Event) ∈ tr →
      q ∈ targets env.cwd info.config (display dir'.ioDir) ∨ q = resolve env.cwd (display dir'.ioDir)
  /-- The key that a volume is declared under is mapped to the host path of the volume. -/
  mapped : ∀ (dir' : ContainerStateDir) (ropts : Restore.Options) (i : ℕ) (v : Volume),
    info.config.volumes[i]? = some v →
    Criu.Declares (Criu.dumpArgs (Checkpoint.dumpOptions dir info opts)) v.containerPath
        (Checkpoint.volumeKey i) ∧
      Criu.mapped (Criu.restoreArgs (engineOptions info.config dir' ropts)) (Checkpoint.volumeKey i) =
        [v.hostPath]
  /-- The key of the logs is mapped to their directory on the host of the restore. -/
  logs : ∀ (dir' : ContainerStateDir) (ropts : Restore.Options),
    Criu.Declares (Criu.dumpArgs (Checkpoint.dumpOptions dir info opts)) "/.mcio" "mcio" ∧
      Criu.mapped (Criu.restoreArgs (engineOptions info.config dir' ropts)) "mcio" =
        [display dir'.ioDir]

section Told

variable {cwd : Path} {dir : ContainerStateDir} {info : Checkpoint.SnapshotMeta}
  {opts : Checkpoint.Options}

/-- What a dump declares are the mount points of the configuration, as they are written. -/
lemma declares_of_mem (dir : ContainerStateDir) (opts : Checkpoint.Options) {text : String}
    (htext : text ∈ "/.mcio" :: info.config.volumes.map Volume.containerPath) :
    ∃ key, Criu.Declares (Criu.dumpArgs (Checkpoint.dumpOptions dir info opts)) text key := by
  rw [← map_containerPath_layoutFor info.config dir] at htext
  obtain ⟨m, hm, rfl⟩ := List.mem_map.mp htext
  exact ⟨m.key, (Criu.declares_iff fun x hx => Checkpoint.isKey_of_layoutFor hx).mpr
    ⟨m, hm, rfl, rfl⟩⟩

lemma mem_of_declares {text key : String}
    (h : Criu.Declares (Criu.dumpArgs (Checkpoint.dumpOptions dir info opts)) text key) :
    text ∈ "/.mcio" :: info.config.volumes.map Volume.containerPath := by
  obtain ⟨m, hm, rfl, -⟩ :=
    (Criu.declares_iff fun x hx => Checkpoint.isKey_of_layoutFor hx).mp h
  rw [← map_containerPath_layoutFor info.config dir]
  exact List.mem_map_of_mem hm

/-- A key of a layout is declared for its mount, and mapped to the host path it has at the restore. -/
lemma declared_and_mapped {i : ℕ} {m m' : ExternalMount} {dir' : ContainerStateDir}
    {ropts : Restore.Options} (hm : (Checkpoint.layoutFor info.config dir).externalMounts[i]? = some m)
    (hm' : (Checkpoint.layoutFor info.config dir').externalMounts[i]? = some m')
    (hkey : m'.key = m.key) :
    Criu.Declares (Criu.dumpArgs (Checkpoint.dumpOptions dir info opts)) m.containerPath m.key ∧
      Criu.mapped (Criu.restoreArgs (engineOptions info.config dir' ropts)) m.key = [m'.hostPath] := by
  have hmem := List.mem_of_getElem? hm
  have hmem' := List.mem_of_getElem? hm'
  refine ⟨(Criu.declares_iff fun x hx => Checkpoint.isKey_of_layoutFor hx).mpr ⟨m, hmem, rfl, rfl⟩, ?_⟩
  have hkeys : ∀ x ∈ (engineOptions info.config dir' ropts).layout.externalMounts,
      Criu.IsKey x.key := fun x hx => Checkpoint.isKey_of_layoutFor hx
  have hnodup : ((Checkpoint.layoutFor info.config dir').externalMounts.map ExternalMount.key).Nodup :=
    Checkpoint.layoutFor_keys_nodup
  rw [Criu.mapped_restoreArgs (Checkpoint.isKey_of_layoutFor hmem) hkeys, ← hkey]
  exact congrArg (List.map ExternalMount.hostPath) (Criu.filter_eq_singleton hnodup hmem')

/-- **What does not depend on the spelling.** When each mount point is read as the place it has below
the root file system, the engine is told the mounts of the container.

**Proof sketch.** The layout has the mount points of the configuration, in order, under keys of their
own, and so has the layout of the restore; and both the start and the restore put a mount point at its
place below the root file system. -/
lemma told_of_reads {reads : Reading}
    (h : ∀ text ∈ "/.mcio" :: info.config.volumes.map Volume.containerPath,
      ∃ p, reads text p ∧ ∀ root, bindTarget root text = root ++ p) :
    Told reads cwd dir info opts where
  bound text key hdecl := by
    obtain ⟨p, hp, hbelow⟩ := h text (mem_of_declares hdecl)
    exact ⟨p, hp, mem_targets.mpr ⟨text, mem_of_declares hdecl, hbelow _⟩⟩
  declared q hq := by
    obtain ⟨text, htext, rfl⟩ := mem_targets.mp hq
    obtain ⟨p, hp, hbelow⟩ := h text htext
    obtain ⟨key, hkey⟩ := declares_of_mem dir opts htext
    exact ⟨text, key, p, hkey, hp, (hbelow _).symm⟩
  keys := Checkpoint.layoutFor_keys_nodup
  prepared env dir' R h h' tr out hrun := by
    have hmounts := map_containerPath_layoutFor info.config dir'
    constructor
    · rintro rfl q hq
      obtain ⟨text, htext, rfl⟩ := mem_targets.mp hq
      rw [← hmounts] at htext
      obtain ⟨m, hm, rfl⟩ := List.mem_map.mp htext
      exact prepareMountPoints_run hrun m hm
    · intro q r hq
      rcases prepareMountPoints_only hrun hq with ⟨m, hm, rfl⟩ | hio
      · exact .inl (mem_targets.mpr ⟨_, hmounts ▸ List.mem_map_of_mem hm, rfl⟩)
      · exact .inr hio
  mapped dir' ropts i v hv := by
    have hmount : ∀ d : ContainerStateDir,
        (Checkpoint.layoutFor info.config d).externalMounts[i + 1]? =
          some ⟨v.containerPath, Checkpoint.volumeKey i, v.hostPath⟩ := fun d => by
      rw [Checkpoint.layoutFor, List.getElem?_cons_succ, List.getElem?_mapIdx, hv]
      rfl
    exact declared_and_mapped (hmount dir) (hmount dir') rfl
  logs dir' ropts := by
    have hmount : ∀ d : ContainerStateDir, (Checkpoint.layoutFor info.config d).externalMounts[0]? =
        some ⟨"/.mcio", "mcio", display d.ioDir⟩ := fun _ => rfl
    exact declared_and_mapped (hmount dir) (hmount dir') rfl

/-- **The places agree.** Read as places, the mount points are those of the container when no text of
them goes up. -/
lemma told_places (h : ∀ v ∈ info.config.volumes, .parentDir ∉ body v.containerPath) :
    Told AsPlace cwd dir info opts := by
  refine told_of_reads fun text htext => ⟨_, rfl, bindTarget_below ?_⟩
  rcases List.mem_cons.mp htext with rfl | htext
  · decide
  · obtain ⟨v, hv, rfl⟩ := List.mem_map.mp htext
    exact h v hv

/-- **When the engine is told the mounts.** The mounts that a checkpoint declares are those the
container has exactly when every mount point is written as the absolute path that it is: with one slash
in front of each name, none at the end, and without `.` and `..`.

**Proof sketch.** What is declared is the text of the configuration, as it stands. If it is the text of
a path, it is the text of the path it denotes; and the start takes such a text to that path below the
root file system. -/
theorem told_iff_canonical (cwd : Path) (dir : ContainerStateDir) (info : Checkpoint.SnapshotMeta)
    (opts : Checkpoint.Options) :
    Told AsText cwd dir info opts ↔ ∀ v ∈ info.config.volumes, Canonical v.containerPath := by
  constructor
  · intro h v hv
    obtain ⟨key, hkey⟩ := declares_of_mem dir opts
      (List.mem_cons_of_mem "/.mcio" (List.mem_map_of_mem hv))
    obtain ⟨p, ⟨hclean, htext⟩, -⟩ := h.bound _ _ hkey
    rw [htext]
    exact canonical_display hclean
  · intro h
    refine told_of_reads fun text htext => ?_
    have hcanonical : Canonical text := by
      rcases List.mem_cons.mp htext with rfl | htext
      · decide
      · obtain ⟨v, hv, rfl⟩ := List.mem_map.mp htext
        exact h v hv
    exact ⟨_, ⟨clean_resolve_root text, hcanonical⟩, bindTarget_of_canonical hcanonical⟩

/-- A mount point that is read as no mount of the container. -/
lemma not_told_of {reads : Reading} (text : String)
    (htext : text ∈ info.config.volumes.map Volume.containerPath)
    (hnone : ∀ p, reads text p →
      resolve cwd info.config.rootfs ++ p ∉ targets cwd info.config (display dir.ioDir)) :
    ¬ Told reads cwd dir info opts := by
  intro h
  obtain ⟨key, hkey⟩ := declares_of_mem dir opts
    (List.mem_cons_of_mem "/.mcio" htext)
  obtain ⟨p, hp, hmem⟩ := h.bound text key hkey
  exact hnone p hp hmem

end Told

end Mounts

/-! ### Two mount points -/

namespace Demo

open Mounts

/-- The command that creates the container with these bind mounts. -/
def creating (bind : List String) : CreateArgs where
  id := "web"
  hostname := "web"
  rootfs := "/srv"
  cmd := ["/bin/sh"]
  resources := ⟨0, 0, 100000, 0⟩
  net := false
  seccomp := true
  dropCaps := true
  bind := bind

/-- What a checkpoint of the container gathers. -/
def gathered (cfg : ContainerConfig) : Checkpoint.SnapshotMeta where
  engine := "criu"
  engineVersion := "3.17.1"
  config := cfg
  lifecycle := running
  cgroup := ⟨"", 0, "", "", 0⟩
  namespaces := ⟨none, none, none, none, none⟩
  mounts := []
  openFds := []
  checkpointPid := 42

end Demo

namespace Mounts

open Demo

/-- **Mounts the engine is not told.** The text `data` is no absolute path; the mount it stands for is
at `/data`. The text `../data` does not even lead there: the volume is bound outside the root file
system of the container. -/
theorem not_told_up :
    (∃ volumes, ["/data:data"].mapM parseBind = some volumes ∧
      ¬ Told AsText ["root"] (ContainerStateDir.forId env "web")
        (gathered ((creating ["/data:data"]).config volumes)) ⟨"latest", none, false, false⟩) ∧
    ∃ volumes, ["/data:../data"].mapM parseBind = some volumes ∧
      ¬ Told AsText ["root"] (ContainerStateDir.forId env "web")
        (gathered ((creating ["/data:../data"]).config volumes)) ⟨"latest", none, false, false⟩ ∧
      ¬ Told AsPlace ["root"] (ContainerStateDir.forId env "web")
        (gathered ((creating ["/data:../data"]).config volumes)) ⟨"latest", none, false, false⟩ := by
  refine ⟨⟨[⟨"/data", "data"⟩], by decide, ?_⟩, ⟨[⟨"/data", "../data"⟩], by decide, ?_, ?_⟩⟩
  · refine not_told_of "data" List.mem_cons_self fun p hp => ?_
    have hslash := congrArg (fun t : String => t.toList.head?) hp.2
    exact absurd hslash (by simp [display])
  · refine not_told_of "../data" List.mem_cons_self fun p hp => ?_
    have hslash := congrArg (fun t : String => t.toList.head?) hp.2
    exact absurd hslash (by simp [display])
  · refine not_told_of "../data" List.mem_cons_self fun p hp => ?_
    obtain rfl : resolve [] "../data" = p := hp
    decide

end Mounts

end Mincontainer
