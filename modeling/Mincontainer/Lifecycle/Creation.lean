import Mincontainer.Host.Directories
import Mincontainer.Host.Oblige
import Mincontainer.Lifecycle.Footprint

set_option relaxedAutoImplicit false
set_option autoImplicit false

/-!
# What a failed create leaves behind

`cmd_create` makes the container's directories and writes its first record before it looks at the bind
mounts and before it writes the configuration, and nothing undoes the first half when the second fails.
So a create that fails is harmless only where the host's files already keep the first half from doing
anything: otherwise some failure leaves a container without a configuration, or, for an id that is in
use, a record that was reset.

## Main definitions

* `Mincontainer.SameContainers` — the containers of a host, with their records and configurations, are
  those of another.
* `Mincontainer.CanRegister`, `Mincontainer.CanReset` — the first half can add a container, or
  overwrite the record of one.

## Main results

* `Mincontainer.cmdCreate_inv` — a create makes directories, and then writes the two files.
* `Mincontainer.cmdCreate_failed_harmless_iff` — when every failed create changes nothing.
-/

namespace Mincontainer

open Effects Files

/-! ### Saved files -/

/-- `h'` has the directories of `h`, and the files that are not in `S`. -/
structure Host.Saved (S : Path → Prop) (h h' : Host) : Prop where
  dirs : ∀ q, h'.kind q = some .dir ↔ h.kind q = some .dir
  file : ∀ q, ¬ S q → h'.file q = h.file q

namespace Host.Saved

variable {S : Path → Prop} {h h' h'' : Host}

lemma of_fs (hfs : h'.fs = h.fs) : Host.Saved S h h' :=
  ⟨fun q => by rw [Host.kind, Host.kind, hfs], fun q _ => by rw [Host.file, Host.file, hfs]⟩

lemma trans (h₁ : Host.Saved S h h') (h₂ : Host.Saved S h' h'') : Host.Saved S h h'' :=
  ⟨fun q => (h₂.dirs q).trans (h₁.dirs q), fun q hq => (h₂.file q hq).trans (h₁.file q hq)⟩

/-- Writing a file where no directory is. -/
lemma write {p : Path} (hp : S p) (hdir : h.kind p ≠ some .dir) (c : Content) :
    Host.Saved S h (h.write p c) where
  dirs q := by
    simp only [Host.kind, h.write_get] at hdir ⊢
    by_cases hq : q = p
    · subst hq
      simp [hdir]
    · rw [if_neg hq]
  file q hq := h.file_write_of_ne c fun heq => hq (heq ▸ hp)

lemma extend {p : Path} (hp : S p) (data : Bytes) : Host.Saved S h (h.extend p data) := by
  simp only [Host.extend]
  split
  · rename_i c hc
    have hfile : h.kind p = some .file := (h.kind_file_iff p).mpr ⟨c, hc⟩
    exact write hp (by simp [hfile]) _
  · exact of_fs rfl

end Host.Saved

/-- The call reads, or saves a file in `S`. -/
def HostOp.saves (S : Path → Prop) : HostOp → Prop
  | .createFile p | .putDoc p _ => S p
  | o => o.reads = true

lemma HostOp.saves_of_reads {S : Path → Prop} {o : HostOp} (ho : o.reads = true) : o.saves S := by
  cases o <;> first | exact ho | cases ho

section Runs

variable {α : Type} {S : Path → Prop} {x : HostM α} {h h' : Host} {tr : List HostSig.Event}
  {env : Env} {a : CreateArgs} {id : String}

/-- A call that saves a file saves no other. -/
lemma Host.Saved.next {o : HostOp} {r : o.Reply} (ho : o.saves S) (hr : h.enabled o r = true) :
    Host.Saved S h (h.next o r) := by
  cases o with
  | createFile p =>
    rcases r with e | u
    · exact .of_fs rfl
    · have hdir : h.kind p ≠ some .dir := (Host.enabled_createFile.mp hr).2.1
      exact .write ho hdir _
  | putDoc p d =>
    rcases r with ⟨part, e⟩ | text
    · exact .extend ho part
    · have hfile : h.kind p = some .file := (Host.enabled_putDoc.mp hr).1
      exact .write ho (by simp [hfile]) _
  | _ => exact .of_fs (congrArg Host.fs (h.next_of_reads ho r))

/-- A program of such calls saves no other file. -/
lemma Runs.saved {out : Option (Except RuntimeError α)} (hx : x.run.Within (HostOp.saves S))
    (hrun : Runs Host.Exits x h tr out h') : Host.Saved S h h' :=
  Exec.rel (K := fun g g' => Host.Saved S g g') (fun _ => .of_fs rfl) (fun h₁ h₂ => h₁.trans h₂)
    (fun _ _ _ ho hr => Host.Saved.next ho hr) (fun _ _ hR => .of_fs (exits_fs (.single hR))) hx hrun

lemma writeDoc_saves {p : Path} {d : Doc} {f : String → RuntimeError} (hp : S p) :
    (ContainerStateDir.writeDoc p d f).run.Within (HostOp.saves S) := by
  refine Fallible.within_bind (Fallible.within_bind ((within_sys (.createFile p)).mpr hp)
    fun r => within_orErr _ _) fun _ => ?_
  refine Fallible.within_bind ((within_sys (.putDoc p d)).mpr hp) fun r => ?_
  split <;> exact trivial

/-! ### The steps of a create -/

/-- The directories a create makes: that of all containers, the container's own, and the two in it. -/
def createDirs (env : Env) (id : String) : List (Path × (String → RuntimeError)) :=
  let dir := ContainerStateDir.forId env id
  (ContainerStateDir.containers env, fun e => .config s!"mkdir state dir: {e}") ::
    [dir.root, dir.ioDir, dir.snapshotsDir].map fun d => (d, fun e => .config s!"mkdir {display d}: {e}")

/-- The directories of a container. -/
def ContainerStateDir.own (dir : ContainerStateDir) : List Path :=
  [dir.root, dir.ioDir, dir.snapshotsDir]

lemma createDirs_map (env : Env) (id : String) : (createDirs env id).map Prod.fst =
    ContainerStateDir.containers env :: (ContainerStateDir.forId env id).own := rfl

/-- The first record of a container whose directories are there. -/
def firstRecord (env : Env) (id : String) : HostM ContainerState := do
  let now ← sys .now
  (ContainerStateDir.forId env id).saveState (.new id now)
  pure (.new id now)

/-- What a create does once the record is there. -/
def createConfig (env : Env) (a : CreateArgs) : HostM Int :=
  match a.bind.mapM parseBind with
  | none => pure 1
  | some volumes =>
    orOne ((ContainerStateDir.forId env a.id).saveConfig (a.config volumes)) fun _ => pure 0

/-- A container is initialised by making directories and writing its first record. -/
lemma initContainer_eq (env : Env) (id : String) :
    initContainer env id = makeDirs (createDirs env id) >>= fun _ => firstRecord env id := by
  simp only [initContainer, ContainerStateDir.init, ContainerStateDir.create, createDirs, makeDirs,
    firstRecord, List.map_cons, List.map_nil, bind_assoc, pure_bind]

lemma cmdCreate_eq (env : Env) (a : CreateArgs) : cmdCreate env a =
    orOne (ContainerStateDir.init env) fun _ =>
      orOne (makeDirs (createDirs env a.id) >>= fun _ => firstRecord env a.id) fun _ =>
        createConfig env a := by
  rw [cmdCreate, ← initContainer_eq]
  rfl

/-- The two files of a container that a create writes. -/
def ContainerStateDir.Documents (dir : ContainerStateDir) (q : Path) : Prop :=
  q = dir.stateFile ∨ q = dir.configFile

lemma createConfig_saves (env : Env) (a : CreateArgs) :
    (createConfig env a).run.Within (HostOp.saves (ContainerStateDir.forId env a.id).Documents) := by
  rw [createConfig]
  split
  · exact trivial
  · exact within_orOne (writeDoc_saves (.inr rfl)) fun _ => Fallible.within_pure _ _

/-- **The first record.** Either the host's files are as they were, or no directory is in the place
of the record and no other file was written. -/
lemma firstRecord_inv {out : Option (Except RuntimeError ContainerState)}
    (hrun : Runs Host.Exits (firstRecord env id) h tr out h') :
    ((∀ st, out ≠ some (.ok st)) ∧ h'.fs = h.fs) ∨
      (h.kind (ContainerStateDir.forId env id).stateFile ≠ some .dir ∧
        Host.Saved (ContainerStateDir.forId env id).Documents h h') := by
  have hsaved : Host.Saved (ContainerStateDir.forId env id).Documents h h' := by
    refine Runs.saved ?_ hrun
    refine Fallible.within_bind ((within_sys .now).mpr (HostOp.saves_of_reads rfl)) fun now => ?_
    exact Fallible.within_bind (writeDoc_saves (.inl rfl)) fun _ => Fallible.within_pure _ _
  obtain ⟨h₁, hR₁, ⟨rfl, rfl, rfl⟩ | ⟨now, tr₁, -, rfl, hrun₁⟩⟩ := Exec.call_inv hrun
  · exact .inl ⟨by rintro _ ⟨⟩, exits_fs hR₁⟩
  obtain ⟨h₂, hR₂, ⟨rfl, rfl, rfl⟩ | ⟨r, tr₂, hr, rfl, hrun₂⟩⟩ := Exec.call_inv hrun₁
  · exact .inl ⟨by rintro _ ⟨⟩, (exits_fs hR₂).trans (exits_fs hR₁)⟩
  have hfs : h₂.fs = h.fs := (exits_fs hR₂).trans (exits_fs hR₁)
  rcases r with e | u
  · obtain ⟨rfl, hR₃, hout⟩ := Exec.ret_inv hrun₂
    refine .inl ⟨?_, (exits_fs hR₃).trans hfs⟩
    rintro st rfl
    rcases hout with hout | hout <;> cases hout
  · refine .inr ⟨?_, hsaved⟩
    have hdir : h₂.kind (ContainerStateDir.forId env id).stateFile ≠ some .dir :=
      (Host.enabled_createFile.mp hr).2.1
    rwa [Host.kind, hfs] at hdir

/-- **One create.** Some directories were made that it can get to; then the two files were written,
unless the files are what they were.

**Proof sketch.** The steps one after the other: a failure ends the create. -/
lemma cmdCreate_inv {out : Option (Except RuntimeError Int)}
    (hrun : Runs Host.Exits (cmdCreate env a) h tr out h') :
    ∃ es g, Host.Grown es h g ∧ (∀ e ∈ es, e <+: ContainerStateDir.containers env ∨
        h.Attains (ContainerStateDir.forId env a.id).own e) ∧
      (h'.fs = g.fs ∨ ((∀ d ∈ (ContainerStateDir.forId env a.id).own, h.clearWay d = true) ∧
        g.kind (ContainerStateDir.forId env a.id).stateFile ≠ some .dir ∧
        Host.Saved (ContainerStateDir.forId env a.id).Documents g h')) := by
  have hinit : ∀ {out' tr' g}, Runs Host.Exits (ContainerStateDir.init env) h tr' out' g →
      ∃ es, Host.Grown es h g ∧ ∀ e ∈ es, e <+: ContainerStateDir.containers env := by
    intro out' tr' g hrun₁
    rcases mkdirAll_inv hrun₁ with ⟨-, hg⟩ | ⟨-, hg | ⟨q, hq, -, hg⟩⟩
    · exact ⟨_, hg, by simp⟩
    · exact ⟨_, hg, by simp⟩
    · exact ⟨[q], hg, by simpa using hq⟩
  rw [cmdCreate_eq] at hrun
  rcases orOne_inv hrun with ⟨out', -, hrun₁⟩ | ⟨u, tr₁, tr₂, g₁, rfl, hrun₁, hrun₂⟩
  · obtain ⟨es, hg, hes⟩ := hinit hrun₁
    exact ⟨es, h', hg, fun e he => .inl (hes e he), .inl rfl⟩
  obtain ⟨es₁, hg₁, hes₁⟩ := hinit hrun₁
  -- the directories made before and those made now
  have hmade : ∀ {out' tr' g}, Runs Host.Exits (makeDirs (createDirs env a.id)) g₁ tr' out' g →
      ∃ es, Host.Grown es h g ∧ ∀ e ∈ es, e <+: ContainerStateDir.containers env ∨
        h.Attains (ContainerStateDir.forId env a.id).own e := by
    intro out' tr' g hrun₃
    obtain ⟨es, hg, hes⟩ := makeDirs_grown _ hrun₃
    refine ⟨es₁ ++ es, hg₁.trans hg, fun e he => ?_⟩
    rcases List.mem_append.mp he with he | he
    · exact .inl (hes₁ e he)
    · exact (hg₁.attains_iff.mp (hes e he)).imp And.left And.right
  have hclear : ∀ {u tr' g}, Runs Host.Exits (makeDirs (createDirs env a.id)) g₁ tr'
      (some (.ok u)) g → ∀ d ∈ (ContainerStateDir.forId env a.id).own, h.clearWay d = true := by
    intro u tr' g hrun₃ d hd
    exact (hg₁.clearWay d).symm.trans ((makeDirs_ok _ hrun₃).1 d (List.mem_cons_of_mem _ hd))
  rcases orOne_inv hrun₂ with ⟨out', hout', hrun₃⟩ | ⟨st, tr₃, tr₄, g₃, rfl, hrun₃, hrun₄⟩
  · rcases Exec.fallible_bind_inv hrun₃ with ⟨-, hrun₅⟩ | ⟨e, -, hrun₅⟩ |
      ⟨u, tr₅, tr₆, g₅, rfl, hrun₅, hrun₆⟩
    · obtain ⟨es, hg, hes⟩ := hmade hrun₅
      exact ⟨es, h', hg, hes, .inl rfl⟩
    · obtain ⟨es, hg, hes⟩ := hmade hrun₅
      exact ⟨es, h', hg, hes, .inl rfl⟩
    · obtain ⟨es, hg, hes⟩ := hmade hrun₅
      refine ⟨es, g₅, hg, hes, ?_⟩
      exact (firstRecord_inv hrun₆).imp And.right fun hrec => ⟨hclear hrun₅, hrec⟩
  · obtain ⟨u, tr₅, tr₆, g₅, rfl, hrun₅, hrun₆⟩ := Exec.fallible_bind_ok hrun₃
    obtain ⟨es, hg, hes⟩ := hmade hrun₅
    refine ⟨es, g₅, hg, hes, .inr ⟨hclear hrun₅, ?_⟩⟩
    rcases firstRecord_inv hrun₆ with ⟨hout, -⟩ | ⟨hdir, hsaved⟩
    · exact absurd rfl (hout st)
    · exact ⟨hdir, hsaved.trans (Runs.saved (createConfig_saves env a) hrun₄)⟩

end Runs

/-! ### Failed creates -/

/-- The state directory that is the entry `name` of the directory of all containers. -/
def ContainerStateDir.entry (env : Env) (name : String) : ContainerStateDir :=
  ⟨ContainerStateDir.containers env ++ [name]⟩

/-- The containers of `h'` are those of `h`, with their records and configurations. -/
structure SameContainers (env : Env) (h h' : Host) : Prop where
  dirs : ∀ name, h'.kind (ContainerStateDir.entry env name).root = some .dir ↔
    h.kind (ContainerStateDir.entry env name).root = some .dir
  record : ∀ name, h.kind (ContainerStateDir.entry env name).root = some .dir →
    h'.file (ContainerStateDir.entry env name).stateFile =
      h.file (ContainerStateDir.entry env name).stateFile
  config : ∀ name, h.kind (ContainerStateDir.entry env name).root = some .dir →
    h'.file (ContainerStateDir.entry env name).configFile =
      h.file (ContainerStateDir.entry env name).configFile

/-- Making the directories of `id` can add a container. -/
def CanRegister (env : Env) (id : String) (h : Host) : Prop :=
  ∃ name, h.kind (ContainerStateDir.entry env name).root = none ∧
    h.Attains (ContainerStateDir.forId env id).own (ContainerStateDir.entry env name).root

/-- The directory of `id` is that of a container, and its record can be overwritten. -/
def CanReset (env : Env) (id : String) (h : Host) : Prop :=
  (∃ name, ContainerStateDir.forId env id = ContainerStateDir.entry env name) ∧
    h.kind (ContainerStateDir.forId env id).root = some .dir ∧
    (∀ d ∈ (ContainerStateDir.forId env id).own, h.clearWay d = true) ∧
    h.kind (ContainerStateDir.forId env id).stateFile ≠ some .dir

section Failed

variable {env : Env} {id : String} {a : CreateArgs} {h h' : Host} {tr : List HostSig.Event}

/-- No entry of the directory of all containers is on the way to it. -/
lemma entry_not_prefix (name : String) :
    ¬ (ContainerStateDir.entry env name).root <+: ContainerStateDir.containers env := by
  intro hp
  have := hp.length_le
  simp [ContainerStateDir.entry] at this

/-- A document of `id` that is one of an entry's is that of the same name. -/
lemma forId_eq_entry_of_documents {name file : String}
    (hq : (ContainerStateDir.forId env id).Documents
      ((ContainerStateDir.entry env name).root ++ [file])) :
    ContainerStateDir.forId env id = ContainerStateDir.entry env name := by
  rcases hq with hq | hq
  · exact congrArg ContainerStateDir.mk (List.append_inj' hq rfl).1.symm
  · exact congrArg ContainerStateDir.mk (List.append_inj' hq rfl).1.symm

/-- **Harmless creates.** A create that can neither add a container nor reset a record leaves the
containers as they are, however it ends. -/
lemma cmdCreate_harmless {out : Option (Except RuntimeError Int)}
    (hrun : Runs Host.Exits (cmdCreate env a) h tr out h') (hnew : ¬ CanRegister env a.id h)
    (hreset : ¬ CanReset env a.id h) : SameContainers env h h' := by
  obtain ⟨es, g, hg, hes, hsave⟩ := cmdCreate_inv hrun
  have hdirs : ∀ name, g.kind (ContainerStateDir.entry env name).root = some .dir ↔
      h.kind (ContainerStateDir.entry env name).root = some .dir := by
    refine fun name => ⟨fun hdir => ?_, hg.kind_of_some⟩
    by_contra hold
    obtain ⟨hnone, e, he, hpre⟩ := hg.new_dir hdir hold
    rcases hes e he with hup | hown
    · exact entry_not_prefix name (hpre.trans hup)
    · exact hnew ⟨name, hnone, hown.of_prefix hpre⟩
  rcases hsave with hfs | ⟨hclear, hstate, hsaved⟩
  · have hfile : ∀ q, h'.file q = h.file q := fun q => by
      rw [← hg.file q, Host.file, Host.file, hfs]
    refine ⟨fun name => ?_, fun name _ => hfile _, fun name _ => hfile _⟩
    rw [← hdirs name, Host.kind, Host.kind, hfs]
  · have hother : ∀ name file, h.kind (ContainerStateDir.entry env name).root = some .dir →
        h'.file ((ContainerStateDir.entry env name).root ++ [file]) =
          h.file ((ContainerStateDir.entry env name).root ++ [file]) := by
      intro name file hdir
      refine (hsaved.file _ fun hdoc => hreset ?_).trans (hg.file _)
      have heq := forId_eq_entry_of_documents hdoc
      exact ⟨⟨name, heq⟩, heq ▸ hdir, hclear, fun hold => hstate (hg.kind_of_some hold)⟩
    exact ⟨fun name => (hsaved.dirs _).trans (hdirs name), fun name => hother name _,
      fun name => hother name _⟩

/-! ### Creates that fail late -/

/-- The first record cannot be created. -/
lemma exists_firstRecord_error : ∃ tr e, Runs Host.Exits (firstRecord env id) h tr (some (.error e)) h := by
  have hnow : machine.Enabled h .now "" := rfl
  have hcreate : machine.Enabled h (.createFile (ContainerStateDir.forId env id).stateFile)
      (.error "" : Except String Unit) := rfl
  exact ⟨_, _, Exec.call hnow (Exec.call hcreate (.ret _ _))⟩

/-- The directory of all containers can be made when a container's can. -/
lemma clearWay_containers {name : String}
    (hq : h.clearWay (ContainerStateDir.entry env name).root = true) :
    h.clearWay (ContainerStateDir.containers env) = true :=
  Host.clearWay_of_prefix (List.prefix_append _ _) hq

/-- A create that fails after it has added a container. -/
lemma exists_registered (hnew : CanRegister env a.id h) :
    ∃ tr h', Runs Host.Exits (cmdCreate env a) h tr (some (.ok 1)) h' ∧ ¬ SameContainers env h h' := by
  obtain ⟨name, hnone, hatt⟩ := hnew
  have hway : h.clearWay (ContainerStateDir.containers env) = true := clearWay_containers hatt.clearWay
  obtain ⟨tr₁, g₁, hrun₁, hg₁⟩ := exists_mkdirAll (fun e => .config s!"mkdir state dir: {e}") hway
  have hatt₁ : g₁.Attains ((createDirs env a.id).map Prod.fst)
      (ContainerStateDir.entry env name).root :=
    hg₁.attains_iff.mpr (.inr ⟨hway, hatt⟩)
  obtain ⟨tr₂, res, g₂, es, hrun₂, hg₂, hmem⟩ := exists_makeDirs _ hatt₁
  have hadded : ¬ SameContainers env h g₂ := by
    intro hsame
    have hdir := (hg₁.trans hg₂).dir_of_mem (List.mem_append_right _ hmem) hatt.clearWay
    have := (hsame.dirs name).mp hdir
    rw [hnone] at this
    cases this
  rw [cmdCreate_eq]
  cases res with
  | error e =>
    exact ⟨tr₁ ++ tr₂, g₂, orOne_ok hrun₁ (orOne_error (Exec.fallible_bind_error hrun₂)), hadded⟩
  | ok u =>
    obtain ⟨tr₃, e, hrun₃⟩ := @exists_firstRecord_error env a.id g₂
    exact ⟨tr₁ ++ (tr₂ ++ tr₃), g₂, orOne_ok hrun₁ (orOne_error (Exec.fallible_bind hrun₂ hrun₃)), hadded⟩

/-- The configuration cannot be saved, whether or not the bind mounts are well formed. -/
lemma exists_createConfig_error : ∃ tr, Runs Host.Exits (createConfig env a) h tr (some (.ok 1)) h := by
  rw [createConfig]
  split
  · exact ⟨[], .ret _ _⟩
  · have hcreate : machine.Enabled h (.createFile (ContainerStateDir.forId env a.id).configFile)
        (.error "" : Except String Unit) := rfl
    exact ⟨_, orOne_error (Exec.call hcreate (.ret _ _))⟩

/-- Once the directories are there, the first record can be truncated and left empty, or written. -/
lemma exists_firstRecord (hroot : h.kind (ContainerStateDir.forId env id).root = some .dir)
    (hstate : h.kind (ContainerStateDir.forId env id).stateFile ≠ some .dir) :
    (∃ tr e h', Runs Host.Exits (firstRecord env id) h tr (some (.error e)) h' ∧
      h'.file (ContainerStateDir.forId env id).stateFile = some (.bytes [])) ∧
    ∃ tr st h' text d, Runs Host.Exits (firstRecord env id) h tr (some (.ok st)) h' ∧
      h'.file (ContainerStateDir.forId env id).stateFile = some (.doc text d) := by
  have hnow : machine.Enabled h .now "" := rfl
  have hcreate : machine.Enabled h (.createFile (ContainerStateDir.forId env id).stateFile)
      (.ok () : Except String Unit) := by
    refine Host.enabled_createFile.mpr ⟨?_, hstate, by simp [ContainerStateDir.stateFile]⟩
    rw [ContainerStateDir.stateFile, List.dropLast_concat, hroot]
  have hempty := h.file_write (ContainerStateDir.forId env id).stateFile (.bytes [])
  have hfile : (h.write (ContainerStateDir.forId env id).stateFile (.bytes [])).kind
      (ContainerStateDir.forId env id).stateFile = some .file := (Host.kind_file_iff _ _).mpr ⟨_, hempty⟩
  constructor
  · have hput : machine.Enabled (h.write (ContainerStateDir.forId env id).stateFile (.bytes []))
        (.putDoc (ContainerStateDir.forId env id).stateFile (.state (.new id "")))
        (.error ([], "") : Except (Bytes × String) Bytes) := rfl
    exact ⟨_, _, _, Exec.call hnow (Exec.call hcreate (Exec.call hput (.ret _ _))),
      Host.file_extend _ hempty []⟩
  · have hput : machine.Enabled (h.write (ContainerStateDir.forId env id).stateFile (.bytes []))
        (.putDoc (ContainerStateDir.forId env id).stateFile (.state (.new id "")))
        (.ok [0x7B] : Except (Bytes × String) Bytes) :=
      Host.enabled_putDoc.mpr ⟨hfile, rfl⟩
    exact ⟨_, _, _, _, _, Exec.call hnow (Exec.call hcreate (Exec.call hput (.ret _ _))),
      Host.file_write _ _ _⟩

/-- The record of a container is not on the way to a directory that a create makes. -/
lemma state_not_prefix {name : String}
    (heq : ContainerStateDir.forId env id = ContainerStateDir.entry env name) (d : Path)
    (hd : d = ContainerStateDir.containers env ∨ d ∈ (ContainerStateDir.forId env id).own) :
    ¬ (ContainerStateDir.forId env id).stateFile <+: d := by
  intro hpre
  rcases hd with rfl | hd
  · rw [heq] at hpre
    exact entry_not_prefix name ((List.prefix_append _ _).trans hpre)
  simp only [ContainerStateDir.own, ContainerStateDir.ioDir, ContainerStateDir.snapshotsDir,
    List.mem_cons, List.not_mem_nil, or_false] at hd
  simp only [ContainerStateDir.stateFile] at hpre
  rcases hd with rfl | rfl | rfl
  · have := hpre.length_le
    simp at this
  · simp [List.prefix_append_right_inj] at hpre
  · simp [List.prefix_append_right_inj] at hpre

/-- **Two failures.** Where a record can be reset, one failing create leaves it empty and another
leaves a new one, so one of them has changed it. -/
lemma exists_reset (hreset : CanReset env a.id h) :
    ∃ tr h', Runs Host.Exits (cmdCreate env a) h tr (some (.ok 1)) h' ∧ ¬ SameContainers env h h' := by
  obtain ⟨⟨name, heq⟩, hdir, hclear, hstate⟩ := hreset
  have hway : h.clearWay (ContainerStateDir.containers env) = true :=
    @clearWay_containers _ _ name (heq ▸ hclear _ List.mem_cons_self)
  obtain ⟨tr₁, g₁, hrun₁, hg₁⟩ := exists_mkdirAll (fun e => .config s!"mkdir state dir: {e}") hway
  have hall : ∀ d ∈ (createDirs env a.id).map Prod.fst, g₁.clearWay d = true := by
    rw [createDirs_map, List.forall_mem_cons]
    exact ⟨(hg₁.clearWay _).trans hway, fun d hd => (hg₁.clearWay d).trans (hclear d hd)⟩
  obtain ⟨tr₂, g₂, hrun₂, hg₂⟩ := exists_makeDirs_ok _ hall
  have hg := hg₁.trans hg₂
  have hstate₂ : g₂.kind (ContainerStateDir.forId env a.id).stateFile ≠ some .dir := by
    intro hnew
    obtain ⟨-, d, hd, hpre⟩ := hg.new_dir hnew hstate
    rw [createDirs_map] at hd
    refine state_not_prefix heq d ?_ hpre
    simpa using hd
  obtain ⟨⟨tr₃, e, g₃, hrun₃, hfile₃⟩, tr₄, st, g₄, text, d, hrun₄, hfile₄⟩ :=
    exists_firstRecord (hg.kind_of_some hdir) hstate₂
  by_contra hno
  have hkept : ∀ tr h', Runs Host.Exits (cmdCreate env a) h tr (some (.ok 1)) h' →
      h'.file (ContainerStateDir.forId env a.id).stateFile =
        h.file (ContainerStateDir.forId env a.id).stateFile := by
    intro tr h' hrun
    by_contra hne
    refine hno ⟨tr, h', hrun, fun hsame => hne ?_⟩
    rw [heq] at hdir ⊢
    exact hsame.record name hdir
  rw [cmdCreate_eq] at hkept
  have hempty := hkept _ _ (orOne_ok hrun₁ (orOne_error (Exec.fallible_bind hrun₂ hrun₃)))
  obtain ⟨tr₅, hrun₅⟩ := @exists_createConfig_error env a g₄
  have hdoc := hkept _ _ (orOne_ok hrun₁ (orOne_ok (Exec.fallible_bind hrun₂ hrun₄) hrun₅))
  rw [hfile₃] at hempty
  rw [hfile₄, ← hempty] at hdoc
  cases hdoc

end Failed

/-- **Failed creates.** Every failed create leaves the containers, their records and their
configurations as they were if and only if the first half can neither add a container nor overwrite
the record of one.

**Proof sketch.** What a create can do before it fails is to make directories and to write the two
files of the container. Where it can add a container, it can fail right after; where it can overwrite
a record, it can fail after emptying it and after writing it, and one of these is a change. -/
theorem cmdCreate_failed_harmless_iff (env : Env) (a : CreateArgs) (h : Host) :
    (∀ tr code h', Runs Host.Exits (cmdCreate env a) h tr (some (.ok code)) h' → code ≠ 0 →
      SameContainers env h h') ↔ ¬ CanRegister env a.id h ∧ ¬ CanReset env a.id h := by
  constructor
  · intro hall
    refine ⟨fun hnew => ?_, fun hreset => ?_⟩
    · obtain ⟨tr, h', hrun, hchanged⟩ := exists_registered hnew
      exact hchanged (hall tr 1 h' hrun (by decide))
    · obtain ⟨tr, h', hrun, hchanged⟩ := exists_reset hreset
      exact hchanged (hall tr 1 h' hrun (by decide))
  · rintro ⟨hnew, hreset⟩ tr code h' hrun -
    exact cmdCreate_harmless hrun hnew hreset

namespace Demo

/-- A create with a bind mount of three parts. -/
def mistyped (id : String) : CreateArgs where
  id := id
  hostname := id
  rootfs := "/r"
  cmd := ["sh"]
  resources := ⟨0, 0, 100000, 0⟩
  net := false
  seccomp := true
  dropCaps := true
  bind := ["/a:/b:ro"]

/-- **A bind mount too long.** The create ends with code one; a new id has become a container, and for
the id of the running container its record is the one of a container just created. -/
theorem cmdCreate_mistyped :
    (∃ tr h', Runs Host.Exits (cmdCreate env (mistyped "new")) live tr (some (.ok 1)) h' ∧
      ¬ SameContainers env live h') ∧
    ∃ tr h', Runs Host.Exits (cmdCreate env (mistyped "web")) live tr (some (.ok 1)) h' ∧
      ¬ SameContainers env live h' := by
  constructor
  · have hdrive : (machine.drive obliging 20 0 (cmdCreate env (mistyped "new")).run live).map (fun x =>
        (x.2.1, x.2.2.kind (ContainerStateDir.entry env "new").root)) =
        some (some (.ok 1), some .dir) := by
      decide +kernel
    obtain ⟨⟨tr, out, h'⟩, hx, hall⟩ := Option.map_eq_some_iff.mp hdrive
    obtain ⟨rfl, hdir⟩ := Prod.mk.inj hall
    refine ⟨tr, h', (Machine.drive_exec hx).of_quiet, fun hsame => ?_⟩
    have hbefore : live.kind (ContainerStateDir.entry env "new").root ≠ some .dir := by decide +kernel
    exact hbefore ((hsame.dirs "new").mp hdir)
  · have hdrive : (machine.drive obliging 20 0 (cmdCreate env (mistyped "web")).run live).map (fun x =>
        (x.2.1, x.2.2.file (ContainerStateDir.entry env "web").stateFile)) =
        some (some (.ok 1), some (.doc [0x7B, 0x7D] (.state (.new "web" "2026-01-01T00:00:00Z")))) := by
      decide +kernel
    obtain ⟨⟨tr, out, h'⟩, hx, hall⟩ := Option.map_eq_some_iff.mp hdrive
    obtain ⟨rfl, hfile⟩ := Prod.mk.inj hall
    refine ⟨tr, h', (Machine.drive_exec hx).of_quiet, fun hsame => ?_⟩
    have hbefore : live.kind (ContainerStateDir.entry env "web").root = some .dir ∧
        live.file (ContainerStateDir.entry env "web").stateFile ≠
          some (.doc [0x7B, 0x7D] (.state (.new "web" "2026-01-01T00:00:00Z"))) := by
      decide +kernel
    exact hbefore.2 ((hsame.record "web" hbefore.1).symm.trans hfile)

end Demo

end Mincontainer
