import Mincontainer.Engine.CheckpointErrors
import Mincontainer.Engine.RestoreErrors
import Mincontainer.Lifecycle.Node
import Mincontainer.Migration.Footprint

set_option relaxedAutoImplicit false
set_option autoImplicit false

/-!
# What the commands can call

The footprints of the commands, and what a listing leaves alone: it reconciles every container, but a
container whose record is not stale keeps its record.

## Main definitions

* `Mincontainer.Tends` — the calls of those who start a container and look after it.

## Main results

* `Mincontainer.orOne_inv` — a command ends at a step, or goes on.
* `Mincontainer.Tends.supervise`, `Mincontainer.Tends.startAttached` — what starting a container and looking
  after it calls.
* `Mincontainer.Restore.restore_no_fork`, `Mincontainer.Checkpoint.checkpoint_calm`,
  `Mincontainer.Command.no_fork` — who starts whom.
* `Mincontainer.ps_kept` — a listing leaves a container alone that is not stale.
-/

namespace Mincontainer

open Effects Files Bytes

/-! ### Sequences of commands -/

section Calls

variable {α : Type} {P : HostOp → Prop} {x : HostM α} {f : α → HostM Int}
  {tr : List HostSig.Event} {out : Option (Except RuntimeError Int)}

lemma within_orOne (hx : x.run.Within P) (hf : ∀ a, (f a).run.Within P) :
    (orOne x f).run.Within P := by
  refine Fallible.within_bind (Fallible.within_attempt hx) fun r => ?_
  split
  · exact hf _
  · exact trivial

lemma within_ignore (hx : x.run.Within P) : (ignore x).run.Within P :=
  Fallible.within_bind (Fallible.within_attempt hx) fun _ => trivial

/-- Removing the directory of a container is one call. -/
lemma within_removeTree {dir : ContainerStateDir} (h : P (.removeTree dir.root)) :
    dir.cleanup.run.Within P := by
  refine Fallible.within_bind ((within_sys (.removeTree dir.root)).mpr h) fun r => ?_
  rcases r with ⟨gone, e⟩ | u <;> exact trivial

variable {W : Type} {M : Machine HostSig W} {Q : W → W → Prop} {w w' : W}

/-- A step of a command is cut or fails, and nothing follows; or the command goes on. -/
lemma orOne_inv (hrun : Exec M Q (orOne x f).run w tr out w') :
    (∃ out', (∀ a, out' ≠ some (.ok a)) ∧ Exec M Q x.run w tr out' w') ∨
      ∃ a tr₁ tr₂ w₁, tr = tr₁ ++ tr₂ ∧ Exec M Q x.run w tr₁ (some (.ok a)) w₁ ∧
        Exec M Q (f a).run w₁ tr₂ out w' := by
  rcases Exec.fallible_bind_inv hrun with ⟨-, hx⟩ | ⟨e, -, hx⟩ | ⟨r, tr₁, tr₂, h₁, rfl, hx, hrun₁⟩
  · rcases Exec.attempt_inv hx with ⟨-, hx⟩ | ⟨r, hr, -⟩
    · exact .inl ⟨none, nofun, hx⟩
    · cases hr
  · rcases Exec.attempt_inv hx with ⟨hout, -⟩ | ⟨r, hr, -⟩
    · cases hout
    · cases hr
  rcases Exec.attempt_inv hx with ⟨hout, -⟩ | ⟨r', hr, hx⟩
  · cases hout
  obtain rfl := Except.ok.inj (Option.some.inj hr)
  cases r with
  | ok a => exact .inr ⟨a, tr₁, tr₂, h₁, rfl, hx, hrun₁⟩
  | error e =>
    obtain ⟨rfl, hR, -⟩ := Exec.ret_inv hrun₁
    refine .inl ⟨some (.error e), nofun, ?_⟩
    rw [List.append_nil]
    exact Exec.append_env_star hx hR

/-- A command goes on with what a step returned. -/
lemma orOne_ok {a : α} {w₁ : W} {tr₂ : List HostSig.Event}
    (hx : Exec M Q x.run w tr (some (.ok a)) w₁) (hf : Exec M Q (f a).run w₁ tr₂ out w') :
    Exec M Q (orOne x f).run w (tr ++ tr₂) out w' := by
  rw [orOne, Fallible.run_attempt_bind]
  exact Exec.bind hx hf

/-- A command ends with code one when a step fails. -/
lemma orOne_error {e : RuntimeError} (hx : Exec M Q x.run w tr (some (.error e)) w') :
    Exec M Q (orOne x f).run w tr (some (.ok 1)) w' := by
  rw [orOne, Fallible.run_attempt_bind, ← List.append_nil tr]
  exact Exec.bind hx (.ret _ _)

/-- What is ignored ran, to some end. -/
lemma ignore_inv {x : HostM α} {out : Option (Except RuntimeError Unit)}
    (hrun : Exec M Q (ignore x).run w tr out w') : ∃ out', Exec M Q x.run w tr out' w' := by
  rcases Exec.fallible_bind_inv hrun with ⟨-, hx⟩ | ⟨e, -, hx⟩ | ⟨r, tr₁, tr₂, h₁, rfl, hx, hrun₁⟩
  · rcases Exec.attempt_inv hx with ⟨-, hx⟩ | ⟨r, hr, -⟩
    · exact ⟨none, hx⟩
    · cases hr
  · rcases Exec.attempt_inv hx with ⟨hout, -⟩ | ⟨r, hr, -⟩
    · cases hout
    · cases hr
  rcases Exec.attempt_inv hx with ⟨hout, -⟩ | ⟨r', -, hx⟩
  · cases hout
  obtain ⟨rfl, hR, -⟩ := Exec.ret_inv hrun₁
  refine ⟨some r', ?_⟩
  rw [List.append_nil]
  exact Exec.append_env_star hx hR

end Calls

/-! ### Calls that read -/

lemma getContainer_reads (e : Env) (id : String) :
    (getContainer e id).run.Within fun o : HostOp => o.reads = true := by
  refine Fallible.within_bind (pathExists_reads _) fun _ => ?_
  split
  · exact trivial
  · exact loadState_reads _

lemma readAll_reads (e : Env) (names : List String) :
    (readAll e names).run.Within fun o : HostOp => o.reads = true := by
  induction names with
  | nil => exact trivial
  | cons name names ih =>
    rw [readAll]
    split
    · exact ih
    · exact Fallible.within_bind (Fallible.within_attempt (getContainer_reads _ _)) fun _ =>
        Fallible.within_bind ih fun _ => trivial

lemma listAll_reads (e : Env) : (listAll e).run.Within fun o : HostOp => o.reads = true := by
  refine Fallible.within_bind ((within_sys (.stat _)).mpr rfl) fun k => ?_
  split
  · exact trivial
  refine Fallible.within_bind ((within_sys (.listDirs _)).mpr rfl) fun _ => ?_
  exact Fallible.within_bind (within_orErr _ _) fun _ => readAll_reads _ _

namespace Migrate

variable {env : Env}

lemma existingSnapshot_reads (st : ContainerState) :
    (existingSnapshot env st).run.Within fun o : HostOp => o.reads = true := by
  refine Fallible.within_bind ?_ fun found => ?_
  · split
    · exact Fallible.within_bind (isFile_reads _) fun _ => trivial
    · exact trivial
  · split <;> exact trivial

end Migrate

lemma awaitRunning_reads (e : Env) (n : String) (polls : ℕ) :
    (awaitRunning e n polls).run.Within fun o : HostOp => o.reads = true := by
  induction polls with
  | zero => exact trivial
  | succ polls ih =>
    refine Fallible.within_bind (Fallible.within_attempt (getContainer_reads _ _)) fun r => ?_
    split
    · split
      · exact trivial
      · split
        · exact trivial
        · exact ih
    · exact ih

/-- A directory of the same user is the same directory, wherever the command is issued from. -/
lemma forId_congr {env e : Env} (he : e.home = env.home) (id : String) :
    ContainerStateDir.forId e id = ContainerStateDir.forId env id := by
  rw [ContainerStateDir.forId, he, ContainerStateDir.forId]

/-! ### Starting a container and looking after it -/

/-- What starting the container `id`, and looking after it, calls besides its record. -/
structure Tends (P : HostOp → Prop) (id : String) (index : UInt8) (cfg : ContainerConfig) : Prop where
  delegate : P .delegate
  leaf : P (.mkdirAll (Cgroup.open cfg.id).path)
  limit : ∀ file value, P (.cgroupWrite (Cgroup.open cfg.id).path file value)
  tree : P (.startTree id)
  join : ∀ pid, P (.cgroupAdd (Cgroup.open cfg.id).path pid)
  setup : ∀ pid, Fallible.Obeys P (fun net => Network.hostVethName cfg.shortId = some net.hostVeth)
    (Network.setup cfg.shortId pid index)
  wait : ∀ pid, P (.waitTree pid)
  delete : ∀ name, Network.hostVethName cfg.shortId = some name → P (.net (.linkDelete name))
  drop : P (.removeDir (Cgroup.open cfg.id).path)

namespace Tends

/-- The handle is one of a container with this configuration. -/
def HandleOf (cfg : ContainerConfig) (handle : Container.Handle) : Prop :=
  handle.cgroup = Cgroup.open cfg.id ∧
    ∀ net, handle.network = some net → Network.hostVethName cfg.shortId = some net.hostVeth

variable {P : HostOp → Prop} {env : Env} {id : String} {index : UInt8} {cfg : ContainerConfig}

lemma spawn (ht : Tends P id index cfg) :
    Fallible.Obeys P (HandleOf cfg) (Container.spawn id cfg index) := by
  refine Fallible.Obeys.bind (Q := fun c => c = Cgroup.open cfg.id) ?_ fun cgroup hcgroup => ?_
  · refine Fallible.Obeys.bind (.of_within ((within_sys .delegate).mpr ht.delegate)) fun _ _ => ?_
    refine Fallible.Obeys.bind (.of_within (within_orErr _ _)) fun _ _ => ?_
    exact Fallible.Obeys.bind (.of_within ((within_mkdirAll _ _).mpr ht.leaf)) fun _ _ =>
      Fallible.Obeys.pure rfl
  subst hcgroup
  refine Fallible.Obeys.bind (.of_within (Restore.within_apply ht.limit)) fun _ _ => ?_
  refine Fallible.Obeys.bind (.of_within ((within_sys (.startTree id)).mpr ht.tree)) fun _ _ => ?_
  refine Fallible.Obeys.bind (.of_within (within_orErr _ _)) fun pid _ => ?_
  refine Fallible.Obeys.bind (.of_within (Restore.within_addProcess (ht.join pid))) fun _ _ => ?_
  split
  · refine Fallible.Obeys.bind (ht.setup pid) fun net hnet => Fallible.Obeys.pure ⟨rfl, ?_⟩
    rintro _ ⟨⟩
    exact hnet
  · exact Fallible.Obeys.pure ⟨rfl, nofun⟩

lemma handleWait (ht : Tends P id index cfg) {handle : Container.Handle} (hof : HandleOf cfg handle) :
    handle.wait.run.Within P := by
  obtain ⟨hleaf, hnet⟩ := hof
  refine Fallible.within_bind ((within_sys (.waitTree _)).mpr (ht.wait _)) fun code => ?_
  refine Fallible.within_bind ?_ fun _ =>
    Fallible.within_bind (within_cleanup (hleaf ▸ ht.drop)) fun _ => trivial
  cases h : handle.network with
  | none => exact trivial
  | some net =>
    refine Fallible.within_bind (Fallible.within_attempt (Restore.within_run ?_)) fun _ => trivial
    exact ht.delete _ (hnet net h)

/-- Running a container to its end. -/
lemma run (ht : Tends P id index cfg) : (Container.run id cfg index).run.Within P :=
  Fallible.Obeys.within (Q := fun _ => True)
    (Fallible.Obeys.bind ht.spawn fun _ hof => .of_within (ht.handleWait hof))

variable (ht : Tends P id 0 cfg) (hnow : P .now) (hupdate : ∀ f, (update env id f).run.Within P)
include ht hnow hupdate

/-- The supervisor of a container. -/
lemma supervise (hget : (getContainer env id).run.Within P) (self : Int) :
    (Mincontainer.supervise env id cfg self).run.Within P := by
  have hstamp (f : String → ContainerState → ContainerState) :
      (sys .now >>= fun t : String => update env id (f t)).run.Within P :=
    Fallible.within_bind ((within_sys .now).mpr hnow) fun _ => hupdate _
  refine Fallible.Obeys.within (Q := fun _ => True)
    (Fallible.Obeys.bind (Fallible.Obeys.attempt ht.spawn) fun started hstarted => .of_within ?_)
  split
  · exact within_ignore (hupdate _)
  rename_i handle
  refine Fallible.within_bind (within_ignore (hstamp _)) fun _ => ?_
  refine Fallible.within_bind (ht.handleWait (hstarted handle rfl)) fun code => ?_
  refine Fallible.within_bind (Fallible.within_bind (Fallible.within_attempt hget) fun _ => trivial)
    fun frozen => ?_
  exact within_when fun _ => within_ignore (hstamp _)

/-- A start in the foreground goes through what a supervisor would. -/
lemma startAttached : (Mincontainer.startAttached env id cfg).run.Within P := by
  have hstamp (f : String → ContainerState → ContainerState) :
      (sys .now >>= fun t : String => update env id (f t)).run.Within P :=
    Fallible.within_bind ((within_sys .now).mpr hnow) fun _ => hupdate _
  refine Fallible.within_bind (Fallible.within_attempt ht.run) fun r => ?_
  split
  · exact Fallible.within_bind (within_ignore (hstamp _)) fun _ => trivial
  · exact Fallible.within_bind (within_ignore (hstamp _)) fun _ => trivial

end Tends

/-! ### Who starts whom -/

/-- The call forks no supervisor. -/
def HostOp.NoFork (o : HostOp) : Prop := ∀ id cfg, o ≠ .fork id cfg

lemma noFork_of_calm {o : HostOp} (ho : o.calm = true) : o.NoFork := by
  rintro id cfg rfl
  cases ho

lemma noFork_of_reads {o : HostOp} (ho : o.reads = true) : o.NoFork :=
  noFork_of_calm (HostOp.calm_of_reads ho)

lemma noFork_of_plain {o : HostOp} (ho : o.plain = true) : o.NoFork :=
  noFork_of_calm (HostOp.calm_of_plain ho)

lemma forks_of_noFork {e : HostSig.Event} (he : e.1.NoFork) : forks e = false := by
  obtain ⟨o, r⟩ := e
  cases o with
  | fork id cfg => exact absurd rfl (he id cfg)
  | _ => rfl

section Calm

variable {env : Env} {id : String}

lemma update_calm {f : ContainerState → ContainerState} :
    (update env id f).run.Within fun o : HostOp => o.calm = true :=
  within_update (fun _ => HostOp.calm_of_reads) rfl fun _ => rfl

lemma init_calm : (ContainerStateDir.init env).run.Within fun o : HostOp => o.calm = true :=
  (within_mkdirAll _ _).mpr rfl

lemma sweep_calm : Restore.AllowsSweep (fun o : HostOp => o.calm = true) env id where
  reads _ := HostOp.calm_of_reads
  kill _ := rfl
  leaf _ := rfl
  link _ := rfl
  staging := rfl
  create := rfl
  put _ := rfl

/-- A checkpoint starts nobody. -/
lemma Checkpoint.checkpoint_calm {codec : Codec Manifest} {opts : Checkpoint.Options} :
    (Checkpoint.checkpoint env codec id opts).run.Within fun o : HostOp => o.calm = true := by
  have hfile : ∀ p, AllowsFile (fun o : HostOp => o.calm = true) p := fun p =>
    ⟨rfl, fun _ => rfl, rfl⟩
  refine Fallible.within_bind (prepare_reads.mono fun _ => HostOp.calm_of_reads) fun info => ?_
  refine Fallible.within_bind update_calm fun _ => ?_
  refine Fallible.within_bind ?_ fun _ => Fallible.within_bind ?_ fun _ =>
    Fallible.within_bind ?_ fun _ => ?_
  · exact Fallible.within_bind ((within_sys (.removeDirAll _)).mpr rfl) fun _ =>
      (within_mkdirAll _ _).mpr rfl
  · refine Fallible.within_bind (within_dump rfl rfl) fun r => ?_
    split
    · exact trivial
    · refine Fallible.within_bind ((within_sys (.pidAlive _)).mpr rfl) fun still => ?_
      exact Fallible.within_bind (Fallible.within_attempt update_calm) fun _ => trivial
  · exact within_settle (fun _ => HostOp.calm_of_reads) fun _ => rfl
  · refine Fallible.within_bind ((within_sys .now).mpr rfl) fun _ => ?_
    refine Fallible.within_bind (within_pack (fun _ => HostOp.calm_of_reads) (fun _ => rfl) (hfile _)
      (hfile _)) fun _ => ?_
    refine Fallible.within_bind ((within_sys (.removeDirAll _)).mpr rfl) fun _ => ?_
    exact Fallible.within_bind (within_commit (fun _ => HostOp.calm_of_reads) rfl fun _ => rfl)
      fun _ => trivial

lemma reconcileEach_calm (sts : List ContainerState) :
    (reconcileEach env sts).run.Within fun o : HostOp => o.calm = true := by
  induction sts with
  | nil => exact trivial
  | cons st sts ih =>
    exact Fallible.within_bind (within_ignore (Restore.within_reconcile sweep_calm)) fun _ => ih

lemma reconcileAll_calm : (reconcileAll env).run.Within fun o : HostOp => o.calm = true := by
  refine Fallible.within_bind (Fallible.within_attempt
    ((listAll_reads env).mono fun _ => HostOp.calm_of_reads)) fun r => ?_
  split
  · exact reconcileEach_calm _
  · exact trivial

lemma initContainer_calm : (initContainer env id).run.Within fun o : HostOp => o.calm = true := by
  have hmk : ∀ (d : Path) (f : String → RuntimeError),
      (mkdirAll d f).run.Within fun o : HostOp => o.calm = true :=
    fun d f => (within_mkdirAll _ _).mpr rfl
  refine Fallible.within_bind init_calm fun _ => Fallible.within_bind ?_ fun _ => ?_
  · exact Fallible.within_bind (hmk _ _) fun _ => Fallible.within_bind (hmk _ _) fun _ => hmk _ _
  refine Fallible.within_bind ((within_sys .now).mpr rfl) fun _ => ?_
  exact Fallible.within_bind (within_writeDoc rfl rfl) fun _ => Fallible.within_pure _ _

lemma Migrate.migrate_calm {codec : Codec Manifest} {proto : Protocol} {target : String}
    {opts : Migrate.Options} :
    (Migrate.migrate env codec proto id target opts).run.Within fun o : HostOp => o.calm = true := by
  refine Fallible.within_bind ((pathExists_reads _).mono fun _ => HostOp.calm_of_reads) fun found => ?_
  split
  · exact trivial
  refine Fallible.within_bind ?_ fun snapshot => Fallible.within_bind ?_ fun tx =>
    Fallible.within_bind (within_when fun _ => update_calm) fun _ => trivial
  · refine Fallible.within_bind ((loadState_reads _).mono fun _ => HostOp.calm_of_reads) fun st => ?_
    split
    · exact (existingSnapshot_reads st).mono fun _ => HostOp.calm_of_reads
    split
    · exact trivial
    · exact Fallible.within_bind Checkpoint.checkpoint_calm fun _ => trivial
  · refine Fallible.within_bind (Fallible.within_attempt
      ((Transport.sendSnapshot_reads _ _ _ _).mono fun _ => HostOp.calm_of_reads)) fun r => ?_
    split <;> exact trivial

/-- A restore forks no supervisor. -/
lemma Restore.restore_no_fork {codec : Codec Manifest} {opts : Restore.Options} :
    (Restore.restore env codec id opts).run.Within HostOp.NoFork := by
  have hcalm : ∀ {o : HostOp}, o.calm = true → o.NoFork := fun ho => noFork_of_calm ho
  have hfile : ∀ p, AllowsFile HostOp.NoFork p := fun p =>
    ⟨hcalm rfl, fun _ => hcalm rfl, hcalm rfl⟩
  have hsweep : AllowsSweep HostOp.NoFork env id :=
    ⟨fun _ => noFork_of_reads, fun _ => hcalm rfl, fun _ => hcalm rfl, fun _ => hcalm rfl, hcalm rfl,
      hcalm rfl, fun _ => hcalm rfl⟩
  rw [restore_eq_select]
  refine Fallible.within_bind (within_select hsweep) fun x => within_restoreFrom ?_
  exact
    { reads := fun _ => noFork_of_reads
      kill := hsweep.kill
      extract := StaysBelow.extract fun o ho => noFork_of_plain ho.plain
      staging := hsweep.staging
      create := hsweep.create
      put := hsweep.put
      io := hcalm rfl
      log := fun _ _ => hfile _
      mount := fun _ _ => hcalm rfl
      delegate := hcalm rfl
      leaf := hcalm rfl
      limit := fun _ _ => hcalm rfl
      join := fun _ => hcalm rfl
      drop := hcalm rfl
      engine := fun _ _ => by rintro _ _ ⟨⟩
      setup := fun _ _ => Network.within_setup (fun _ => hcalm rfl) (hcalm rfl) }

/-- The commands other than a start and a restore start nobody. -/
lemma Command.calm {codec : Codec Manifest} {proto : Protocol} {c : Command}
    (hstart : ∀ d n, c ≠ .start d n) (hrestore : ∀ opts, c ≠ .restore opts) :
    (c.prog codec proto env id).run.Within fun o : HostOp => o.calm = true := by
  have hget : (getContainer env id).run.Within fun o : HostOp => o.calm = true :=
    (getContainer_reads _ _).mono fun _ => HostOp.calm_of_reads
  cases c with
  | create a =>
    refine within_orOne init_calm fun _ => within_orOne initContainer_calm fun _ => ?_
    split
    · exact trivial
    · exact within_orOne (within_writeDoc rfl rfl) fun _ => Fallible.within_pure _ _
  | start d n => exact absurd rfl (hstart d n)
  | stop =>
    refine within_orOne init_calm fun _ => within_orOne hget fun st => ?_
    split
    · exact trivial
    split
    · exact trivial
    refine Fallible.within_bind ((within_sys (.term _)).mpr rfl) fun _ => ?_
    refine Fallible.within_bind ((within_sys (.awaitExit _)).mpr rfl) fun _ => ?_
    refine Fallible.within_bind ((within_sys (.pidAlive _)).mpr rfl) fun _ => ?_
    exact Fallible.within_bind (within_when fun _ => (within_sys (.kill _)).mpr rfl) fun _ => trivial
  | checkpoint opts =>
    exact within_orOne init_calm fun _ => within_orOne Checkpoint.checkpoint_calm fun _ =>
      Fallible.within_pure _ _
  | restore opts => exact absurd rfl (hrestore opts)
  | migrate target opts =>
    exact within_orOne init_calm fun _ => within_orOne Migrate.migrate_calm fun _ =>
      Fallible.within_pure _ _
  | ps =>
    refine within_orOne init_calm fun _ => Fallible.within_bind reconcileAll_calm fun _ => ?_
    exact within_orOne ((listAll_reads env).mono fun _ => HostOp.calm_of_reads) fun _ =>
      Fallible.within_pure _ _
  | rm =>
    refine within_orOne init_calm fun _ => ?_
    refine Fallible.within_bind ((pathExists_reads _).mono fun _ => HostOp.calm_of_reads) fun found => ?_
    split
    · exact trivial
    · exact within_orOne (within_removeTree rfl) fun _ => trivial

/-- Only a start forks a supervisor. -/
lemma Command.no_fork {codec : Codec Manifest} {proto : Protocol} {c : Command}
    (hstart : ∀ d n, c ≠ .start d n) : (c.prog codec proto env id).run.Within HostOp.NoFork := by
  by_cases hrestore : ∃ opts, c = .restore opts
  · obtain ⟨opts, rfl⟩ := hrestore
    exact within_orOne (init_calm.mono fun _ => noFork_of_calm) fun _ =>
      within_orOne Restore.restore_no_fork fun _ => Fallible.within_pure _ _
  · exact (Command.calm hstart fun opts h => hrestore ⟨opts, h⟩).mono fun _ => noFork_of_calm

end Calm

/-! ### Calls that leave a record alone -/

/-- The call neither overwrites the file nor starts a tree; it may remove an empty directory. -/
def Idle (p : Path) (o : HostOp) : Prop :=
  (¬ o.overwrites p ∨ ∃ q, o = .removeDir q) ∧ o.starts = false

lemma idle_of_reads {p : Path} {o : HostOp} (ho : o.reads = true) : Idle p o :=
  ⟨.inl (HostOp.not_overwrites_of_reads ho p), HostOp.starts_of_reads ho⟩

/-- A plain call that does not overwrite the file. -/
lemma idle_of_plain {p : Path} {o : HostOp} (hp : o.plain = true) (ho : ¬ o.overwrites p) :
    Idle p o :=
  ⟨.inl ho, HostOp.starts_of_plain hp⟩

lemma init_idle {e : Env} {p : Path} : (ContainerStateDir.init e).run.Within (Idle p) :=
  (within_mkdirAll _ _).mpr (idle_of_plain rfl fun h => h)

lemma cmdStop_idle {e : Env} {n : String} {p : Path} : (cmdStop e n).run.Within (Idle p) := by
  refine within_orOne init_idle fun _ => ?_
  refine within_orOne ((getContainer_reads _ _).mono fun _ => idle_of_reads) fun st => ?_
  split
  · exact trivial
  split
  · exact trivial
  refine Fallible.within_bind ((within_sys (.term _)).mpr (idle_of_reads rfl)) fun _ => ?_
  refine Fallible.within_bind ((within_sys (.awaitExit _)).mpr (idle_of_reads rfl)) fun _ => ?_
  refine Fallible.within_bind ((within_sys (.pidAlive _)).mpr (idle_of_reads rfl)) fun _ => ?_
  refine Fallible.within_bind (within_when fun _ => ?_) fun _ => trivial
  exact (within_sys (.kill _)).mpr ⟨.inl fun h => h, rfl⟩

lemma prepareStart_idle {e : Env} {n : String} {p : Path} :
    (prepareStart e n).run.Within (Idle p) := by
  have hmk : ∀ (d : Path) (f : String → RuntimeError), (mkdirAll d f).run.Within (Idle p) :=
    fun d f => (within_mkdirAll _ _).mpr (idle_of_plain rfl fun h => h)
  refine Fallible.within_bind init_idle fun _ => ?_
  refine Fallible.within_bind ((pathExists_reads _).mono fun _ => idle_of_reads) fun found => ?_
  split
  · exact trivial
  refine Fallible.within_bind ?_ fun _ => (loadConfig_reads _).mono fun _ => idle_of_reads
  exact Fallible.within_bind (hmk _ _) fun _ => Fallible.within_bind (hmk _ _) fun _ => hmk _ _

lemma startDetached_idle {e : Env} {n : String} {cfg : ContainerConfig} {polls : ℕ} :
    (startDetached e n cfg polls).run.Within (Idle (ContainerStateDir.forId e n).stateFile) := by
  have hlog : ∀ name, (ContainerStateDir.forId e n).stateFile ≠
      (ContainerStateDir.forId e n).ioDir ++ [name] := fun name h => by
    simp [ContainerStateDir.stateFile, ContainerStateDir.ioDir] at h
  refine Fallible.within_bind (within_ignore ((within_createFile _ _).mpr
    (idle_of_plain rfl (hlog _)))) fun _ => ?_
  refine Fallible.within_bind (within_ignore ((within_createFile _ _).mpr
    (idle_of_plain rfl (hlog _)))) fun _ => ?_
  refine Fallible.within_bind ((within_sys (.fork _ _)).mpr ⟨.inl fun h => h, rfl⟩) fun r => ?_
  split
  · refine Fallible.within_bind ((awaitRunning_reads _ _ _).mono fun _ => idle_of_reads) fun r => ?_
    split <;> exact trivial
  · exact trivial

/-! ### Listing -/

section Listing

variable {env : Env} {id : String} {R : Host → Host → Prop} {h h' : Host} {tr : List HostSig.Event}

/-- Containers with one record have one directory. -/
lemma ContainerStateDir.stateFile_injective {d d' : ContainerStateDir} (h : d.stateFile = d'.stateFile) :
    d = d' := by
  obtain ⟨hroot, -⟩ := List.append_inj' h rfl
  cases d
  cases d'
  exact congrArg _ hroot

/-- The record is not one that a reconciliation asks about. -/
def Fresh (env : Env) (id : String) (h : Host) : Prop :=
  ∀ st, h.record env id = some st → Restore.isStale st = pure false

lemma Fresh.congr (hf : Fresh env id h)
    (hfile : h'.file (ContainerStateDir.forId env id).stateFile =
      h.file (ContainerStateDir.forId env id).stateFile) : Fresh env id h' := by
  rw [Fresh, Host.record_congr hfile]
  exact hf

/-- A reconciliation finds nothing to do for a container that is not stale. -/
lemma reconcile_kept_self (hk : Keeps R (ContainerStateDir.forId env id).stateFile) (hf : Fresh env id h)
    {n : String} (hdir : ContainerStateDir.forId env n = ContainerStateDir.forId env id)
    {out : Option (Except RuntimeError Unit)} (hrun : Runs R (Restore.reconcile env n) h tr out h') :
    h'.file (ContainerStateDir.forId env id).stateFile =
      h.file (ContainerStateDir.forId env id).stateFile := by
  rcases Exec.fallible_bind_inv hrun with ⟨-, h₁⟩ | ⟨e, -, h₁⟩ | ⟨found, tr₁, tr₂, g₁, -, h₁, hrun₁⟩
  · exact Runs.file_kept_of_reads hk (pathExists_reads _) h₁
  · exact Runs.file_kept_of_reads hk (pathExists_reads _) h₁
  rw [← Runs.file_kept_of_reads hk (pathExists_reads _) h₁]
  replace hf := hf.congr (Runs.file_kept_of_reads hk (pathExists_reads _) h₁)
  split at hrun₁
  · exact Runs.file_kept_of_reads hk (x := pure ()) trivial hrun₁
  rcases Exec.fallible_bind_inv hrun₁ with ⟨-, h₂⟩ | ⟨e, -, h₂⟩ | ⟨st, tr₃, tr₄, g₂, -, h₂, hrun₂⟩
  · exact Runs.file_kept_of_reads hk (loadState_reads _) h₂
  · exact Runs.file_kept_of_reads hk (loadState_reads _) h₂
  rw [← Runs.file_kept_of_reads hk (loadState_reads _) h₂]
  have hst : g₁.record env id = some st := by
    rw [hdir] at h₂
    exact loadState_ok hk h₂
  rw [hf st hst] at hrun₂
  exact Runs.file_kept_of_reads hk (x := pure ()) trivial hrun₂

/-- **Reconciling.** A reconciliation of any container keeps a record that is not stale; the scratch
directory it removes is not one that the record lies in. -/
lemma reconcile_kept (hk : Keeps R (ContainerStateDir.forId env id).stateFile) (hf : Fresh env id h)
    (hid : "staging" ∉ (ContainerStateDir.forId env id).root) {n : String}
    {out : Option (Except RuntimeError Unit)} (hrun : Runs R (Restore.reconcile env n) h tr out h') :
    h'.file (ContainerStateDir.forId env id).stateFile =
      h.file (ContainerStateDir.forId env id).stateFile := by
  by_cases hsame : ContainerStateDir.forId env n = ContainerStateDir.forId env id
  · exact reconcile_kept_self hk hf hsame hrun
  have hstate : (ContainerStateDir.forId env n).stateFile ≠ (ContainerStateDir.forId env id).stateFile :=
    fun h => hsame (ContainerStateDir.stateFile_injective h)
  have hstaging : ¬ (ContainerStateDir.forId env n).stagingDir <+:
      (ContainerStateDir.forId env id).stateFile := fun hpre => by
    have hmem : "staging" ∈ (ContainerStateDir.forId env id).stateFile :=
      hpre.subset (by simp [ContainerStateDir.stagingDir])
    rcases List.mem_append.mp hmem with h | h
    · exact hid h
    · exact absurd h (by decide)
  exact Runs.file_kept_of_removeDir hk (Restore.within_reconcile
    ⟨fun o ho => .inl (HostOp.not_overwrites_of_reads ho _), fun pid => .inl fun h => h,
      fun p => .inr ⟨p, rfl⟩, fun _ => .inl fun h => h, .inl hstaging,
      .inl fun h => hstate h.symm, fun d => .inl fun h => hstate h.symm⟩) hrun

lemma reconcileEach_kept (hk : Keeps R (ContainerStateDir.forId env id).stateFile) (hf : Fresh env id h)
    (hid : "staging" ∉ (ContainerStateDir.forId env id).root) {sts : List ContainerState}
    {out : Option (Except RuntimeError Unit)} (hrun : Runs R (reconcileEach env sts) h tr out h') :
    h'.file (ContainerStateDir.forId env id).stateFile =
      h.file (ContainerStateDir.forId env id).stateFile := by
  induction sts generalizing h tr with
  | nil => exact Runs.file_kept_of_reads hk (x := pure ()) trivial hrun
  | cons st sts ih =>
    rcases Exec.fallible_bind_inv hrun with ⟨-, h₁⟩ | ⟨e, -, h₁⟩ | ⟨u, tr₁, tr₂, g, -, h₁, h₂⟩
    · obtain ⟨out', h₁⟩ := ignore_inv h₁
      exact reconcile_kept hk hf hid h₁
    · obtain ⟨out', h₁⟩ := ignore_inv h₁
      exact reconcile_kept hk hf hid h₁
    · obtain ⟨out', h₁⟩ := ignore_inv h₁
      have hfile := reconcile_kept hk hf hid h₁
      rw [← hfile]
      exact ih (hf.congr hfile) h₂

/-- **Listing.** A listing keeps the record of a container that is not stale. -/
lemma ps_kept (hk : Keeps R (ContainerStateDir.forId env id).stateFile) (hf : Fresh env id h)
    (hid : "staging" ∉ (ContainerStateDir.forId env id).root) {out : Option (Except RuntimeError Int)}
    (hrun : Runs R (cmdPs env) h tr out h') :
    h'.file (ContainerStateDir.forId env id).stateFile =
      h.file (ContainerStateDir.forId env id).stateFile := by
  have hinit : (ContainerStateDir.init env).run.Within
      fun o : HostOp => ¬ o.overwrites (ContainerStateDir.forId env id).stateFile :=
    (within_mkdirAll _ _).mpr fun h => h
  have hlist : (Fallible.attempt (listAll env) :
      HostM (Except RuntimeError (List ContainerState))).run.Within fun o : HostOp => o.reads = true :=
    Fallible.within_attempt (listAll_reads env)
  have hall : ∀ {g g' : Host} {tr out}, Runs R (reconcileAll env) g tr out g' →
      Fresh env id g → g'.file (ContainerStateDir.forId env id).stateFile =
        g.file (ContainerStateDir.forId env id).stateFile := fun hrun hf => by
    rcases Exec.fallible_bind_inv hrun with ⟨-, h₁⟩ | ⟨e, -, h₁⟩ | ⟨r, tr₁, tr₂, g, -, h₁, h₂⟩
    · exact Runs.file_kept_of_reads hk hlist h₁
    · exact Runs.file_kept_of_reads hk hlist h₁
    have hfile := Runs.file_kept_of_reads hk hlist h₁
    rw [← hfile]
    split at h₂
    · exact reconcileEach_kept hk (hf.congr hfile) hid h₂
    · exact Runs.file_kept_of_reads hk (x := pure ()) trivial h₂
  rcases orOne_inv hrun with ⟨out', -, h₁⟩ | ⟨u, tr₁, tr₂, g, -, h₁, hrun₁⟩
  · exact Runs.file_kept hk hinit h₁
  have hfile := Runs.file_kept hk hinit h₁
  rw [← hfile]
  replace hf := hf.congr hfile
  rcases Exec.fallible_bind_inv hrun₁ with ⟨-, h₂⟩ | ⟨e, -, h₂⟩ | ⟨r, tr₁, tr₂, g₂, -, h₂, h₃⟩
  · exact hall h₂ hf
  · exact hall h₂ hf
  have hrest := within_orOne (listAll_reads env) (f := fun _ => pure 0) fun _ => Fallible.within_pure _ _
  rw [← hall h₂ hf]
  exact Runs.file_kept_of_reads hk hrest h₃

end Listing

end Mincontainer
