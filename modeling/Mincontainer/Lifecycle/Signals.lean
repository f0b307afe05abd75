import Mincontainer.Container.Handed
import Mincontainer.Lifecycle.Pids
import Mincontainer.Lifecycle.Wiring
import Mincontainer.State.Carried

set_option relaxedAutoImplicit false
set_option autoImplicit false

/-!
# Which processes are recorded and signalled

The pid under which `spawn` hands out a container goes into its cgroup, into its record, and from there
to `kill` when the container is stopped. Zero means something else to each of them: the process that
writes, nothing in particular, and the group of the caller.

The supervisors of the containers of a host, the commands that stop them and everything else that
records something run side by side, interleaved call by call.

## Main definitions

* `Mincontainer.ContainerState.Names` — the record names a process, if any, by a positive pid.
* `Mincontainer.HostOp.Sends` — what is recorded, moved or signalled has a positive pid.
* `Mincontainer.Recorder` — whatever records or signals.
* `Mincontainer.Spawned` — a tree is started as `spawn` does, and told of.

## Main results

* `Mincontainer.Recorder.relies` — whatever records or signals passes on the pids it is given.
* `Mincontainer.pids_real` — when the pids are real.
* `Mincontainer.spawned_zero` — what happens when the namespaces cannot be unshared.
-/

namespace Mincontainer

open Effects Files Bytes

/-! ### Positive pids -/

/-- The record names a process, if any, by a positive pid. -/
def ContainerState.Names (st : ContainerState) : Prop := ∀ pid ∈ st.pid, 0 < pid

/-- Every record on the host names a process, if any, by a positive pid. -/
def Host.Names (h : Host) : Prop :=
  ∀ (p : Path) (text : Bytes) (st : ContainerState), h.file p = some (.doc text (.state st)) → st.Names

/-- What the call records, moves into a cgroup or kills has a positive pid. -/
def HostOp.Sends : HostOp → Prop
  | .putDoc _ (.state st) => st.Names
  | .cgroupAdd _ pid => 0 < pid
  | .kill pid => 0 < pid
  | _ => True

/-- What the call brings in has a positive pid: a record that is read, and a tree that is started. -/
structure Brings (e : HostSig.Event) : Prop where
  record : ∀ p text st, e = ⟨.readFile p, (.ok (.doc text (.state st)) : Except String Content)⟩ →
    st.Names
  tree : ∀ owner pid, e = ⟨.startTree owner, (.ok pid : Except String Int)⟩ → 0 < pid

lemma HostOp.sends_of_reads {o : HostOp} (ho : o.reads = true) : o.Sends := by
  cases o <;> trivial

/-- A call that sends positive pids keeps the records as they should be. -/
lemma Host.Names.next {h : Host} (hh : h.Names) {o : HostOp} (ho : o.Sends) (r : o.Reply) :
    (h.next o r).Names := by
  intro q text st hfile
  by_cases hputs : o.puts q
  · cases o with
    | putDoc p d =>
      obtain rfl : q = p := hputs
      rcases r with ⟨part, e⟩ | text'
      · exact hh q text st (Host.extend_doc hfile)
      · have hd := (h.file_write q (.doc text' d)).symm.trans hfile
        obtain ⟨rfl, rfl⟩ : text' = text ∧ d = .state st := by simpa using hd
        exact ho
    | rename src dst =>
      obtain rfl : q = dst := hputs
      simp only [Host.next] at hfile
      split at hfile
      · rename_i c hsrc
        have hc := (Host.file_write { h with fs := h.fs.remove src } q c).symm.trans hfile
        exact hh src text st (hsrc.trans hc)
      · exact hh q text st hfile
    | _ => exact hputs.elim
  · exact hh q text st (Host.next_doc hputs r hfile)

/-! ### What records and signals -/

section Programs

variable {env : Env} {codec : Codec Manifest} {id : String} {α : Type}

/-- A program that sends positive pids as long as positive pids are brought in. -/
abbrev Passes {α : Type} (Q : α → Prop) (x : HostM α) : Prop :=
  Fallible.Relies Brings HostOp.Sends Q x

lemma mkdirAll_sends {p : Path} {f : String → RuntimeError} :
    (mkdirAll p f).run.Within HostOp.Sends := (within_mkdirAll _ _).mpr trivial

lemma create_sends (dir : ContainerStateDir) : dir.create.run.Within HostOp.Sends :=
  Fallible.within_bind mkdirAll_sends fun _ => Fallible.within_bind mkdirAll_sends fun _ =>
    mkdirAll_sends

/-- Positive pids are carried from record to record. -/
lemma carriesOver_names : CarriesOver Brings HostOp.Sends fun _ => ContainerState.Names where
  read p text st hG := hG.record p text st rfl
  reads _ := HostOp.sends_of_reads
  create _ := trivial
  put _ _ hst := hst

lemma writeDoc_sends {p : Path} {d : Doc} {f : String → RuntimeError}
    (hd : HostOp.Sends (.putDoc p d)) : (ContainerStateDir.writeDoc p d f).run.Within HostOp.Sends :=
  within_writeDoc trivial hd

lemma ignore_passes {x : HostM α} {Q : α → Prop} (hx : Passes Q x) :
    Passes (fun _ => True) (ignore x) :=
  Fallible.Relies.bind (Fallible.Relies.attempt hx) fun _ _ => Fallible.Relies.pure trivial

lemma names_none {st : ContainerState} (h : st.pid = none) : st.Names := by
  intro pid hpid
  rw [h] at hpid
  cases hpid

lemma names_some {st : ContainerState} {pid : Int} (h : st.pid = some pid) (hpos : 0 < pid) :
    st.Names := by
  intro p hp
  rw [h] at hp
  obtain rfl := Option.some.inj hp
  exact hpos

/-- **The start of a container.** The process that is moved into the cgroup, and handed out, is the one
that the tree was started as. -/
lemma spawn_passes {cfg : ContainerConfig} {index : UInt8} :
    Passes (fun handle : Container.Handle => 0 < handle.containerPid)
      (Container.spawn id cfg index) := by
  refine Fallible.Relies.bind (Q := fun _ => True) (.of_within ?_) fun cgroup _ => ?_
  · refine Fallible.within_bind ((within_sys .delegate).mpr trivial) fun _ => ?_
    refine Fallible.within_bind (within_orErr _ _) fun _ => ?_
    exact Fallible.within_bind mkdirAll_sends fun _ => trivial
  refine Fallible.Relies.bind (.of_within (Restore.within_apply fun _ _ => trivial)) fun _ _ => ?_
  refine Fallible.Relies.bind (Q := fun r => Brings ⟨.startTree id, r⟩)
    (Fallible.Relies.sys trivial fun _ hr => hr) fun r hr => ?_
  refine Fallible.Relies.bind (Q := fun pid => 0 < pid) (relies_orErr fun pid hpid => ?_)
    fun pid hpid => ?_
  · subst hpid
    exact hr.tree _ _ rfl
  refine Fallible.Relies.bind (.of_within (Restore.within_addProcess hpid)) fun _ _ => ?_
  split
  · exact Fallible.Relies.bind (.of_within (Network.within_setup (fun _ => trivial) trivial))
      fun _ _ => Fallible.Relies.pure hpid
  · exact Fallible.Relies.pure hpid

lemma wait_passes (handle : Container.Handle) : Passes (fun _ => True) handle.wait := by
  refine .of_within (Fallible.within_bind ((within_sys (.waitTree _)).mpr trivial) fun code => ?_)
  refine Fallible.within_bind ?_ fun _ =>
    Fallible.within_bind (within_cleanup trivial) fun _ => trivial
  cases handle.network with
  | none => exact trivial
  | some net =>
    exact Fallible.within_bind (Fallible.within_attempt (Restore.within_run trivial)) fun _ => trivial

/-- **The supervisor** records the process that it was handed out. -/
lemma supervise_passes {cfg : ContainerConfig} {self : Int} :
    Passes (fun _ => True) (supervise env id cfg self) := by
  refine Fallible.Relies.bind (Fallible.Relies.attempt spawn_passes) fun started hstarted => ?_
  split
  · exact ignore_passes (carriesOver_names.update fun _ _ => names_none rfl)
  rename_i handle
  refine Fallible.Relies.bind (ignore_passes (carriesOver_names.stamp fun _ _ _ =>
    names_some rfl (hstarted handle rfl))) fun _ _ => ?_
  refine Fallible.Relies.bind (wait_passes handle) fun code _ => ?_
  refine Fallible.Relies.bind (Q := fun _ => True) (.of_within (Fallible.within_bind
    (Fallible.within_attempt ((getContainer_reads _ _).mono fun _ => HostOp.sends_of_reads))
    fun _ => trivial)) fun frozen _ => ?_
  rw [when]
  split
  · exact ignore_passes (carriesOver_names.stamp fun _ st hst => hst)
  · exact Fallible.Relies.pure trivial

/-- A start in the foreground records no pid. -/
lemma startAttached_passes {cfg : ContainerConfig} :
    Passes (fun _ => True) (startAttached env id cfg) := by
  refine Fallible.Relies.bind (Fallible.Relies.attempt (Fallible.Relies.bind spawn_passes
    fun handle _ => wait_passes handle)) fun r _ => ?_
  split
  · exact Fallible.Relies.bind (ignore_passes (carriesOver_names.stamp fun _ st hst => hst)) fun _ _ =>
      Fallible.Relies.pure trivial
  · exact Fallible.Relies.bind (ignore_passes (carriesOver_names.stamp fun _ st hst => hst)) fun _ _ =>
      Fallible.Relies.pure trivial

/-- What `stop` may call: it signals positive pids only. -/
def HostOp.Stops (o : HostOp) : Prop := o.Sends ∧ ∀ pid, o = .term pid → 0 < pid

/-- **Stopping** signals the process on record. -/
lemma stop_relies : Fallible.Relies Brings HostOp.Stops (fun _ => True) (cmdStop env id) := by
  have hplain : ∀ o : HostOp, o.Sends → (∀ pid, o ≠ .term pid) → o.Stops :=
    fun o ho hne => ⟨ho, fun pid h => absurd h (hne pid)⟩
  have hget : Fallible.Relies Brings HostOp.Stops ContainerState.Names (getContainer env id) := by
    refine Fallible.Relies.bind (Q := fun _ => True) (.of_within (Fallible.within_bind
      ((within_sys (.stat _)).mpr (hplain _ trivial (by simp))) fun _ => trivial)) fun found _ => ?_
    split
    · exact Fallible.Relies.throw _
    refine Fallible.Relies.bind (Q := fun r => Brings ⟨.readFile _, r⟩)
      (Fallible.Relies.sys (hplain _ trivial (by simp)) fun _ hr => hr) fun r hr => ?_
    refine Fallible.Relies.bind (Q := fun c => ∀ text st, c = .doc text (.state st) → st.Names)
      (relies_orErr fun c hc => ?_) fun c hc => ?_
    · subst hc
      rintro text st rfl
      exact hr.record _ text st rfl
    · split
      · exact Fallible.Relies.pure (hc _ _ rfl)
      · exact Fallible.Relies.throw _
  refine Fallible.Relies.bind (Fallible.Relies.attempt (.of_within
    ((within_mkdirAll _ _).mpr (hplain _ trivial (by simp))))) fun r _ => ?_
  split
  swap
  · exact Fallible.Relies.pure trivial
  refine Fallible.Relies.bind (Fallible.Relies.attempt hget) fun r hr => ?_
  split
  swap
  · exact Fallible.Relies.pure trivial
  rename_i st
  have hst : st.Names := hr st rfl
  dsimp only
  split
  · exact Fallible.Relies.pure trivial
  split
  · exact Fallible.Relies.pure trivial
  rename_i pid hpid
  have hpos : 0 < pid := hst pid hpid
  have hterm : HostOp.Stops (.term pid) :=
    ⟨trivial, fun p hp => HostOp.term.inj hp ▸ hpos⟩
  refine Fallible.Relies.bind (Q := fun _ => True) (.of_within ((within_sys (.term pid)).mpr hterm))
    fun _ _ => ?_
  refine .of_within (Fallible.within_bind ((within_sys (.awaitExit pid)).mpr
    (hplain _ trivial (by simp))) fun _ => ?_)
  refine Fallible.within_bind ((within_sys (.pidAlive pid)).mpr (hplain _ trivial (by simp)))
    fun still => ?_
  refine Fallible.within_bind (within_when fun _ => ?_) fun _ => trivial
  exact (within_sys (.kill pid)).mpr (hplain _ hpos (by simp))

/-! ### Everything else that records -/

/-- The pids that an operation is given are positive. -/
def Operation.Given : Operation → Prop
  | .setRunningUnder _ pid _ => 0 < pid
  | .setRestored _ pid => 0 < pid
  | .restoreCommit _ _ pid => 0 < pid
  | _ => True

/-- A reconciliation kills the process on record. -/
lemma reconcile_passes : Passes (fun _ => True) (Restore.reconcile env id) :=
  carriesOver_names.reconcile (fun _ hst => hst) (fun _ => trivial) (fun _ => trivial) trivial
    fun _ _ _ => names_none rfl

lemma initContainer_sends : (initContainer env id).run.Within HostOp.Sends := by
  refine Fallible.within_bind mkdirAll_sends fun _ => ?_
  refine Fallible.within_bind (create_sends _) fun _ => ?_
  refine Fallible.within_bind ((within_sys .now).mpr trivial) fun now => ?_
  exact Fallible.within_bind (writeDoc_sends (names_none rfl)) fun _ => trivial

lemma adoptSnapshot_sends {path : PathBuf} :
    (Restore.adoptSnapshot env codec path).run.Within HostOp.Sends := by
  have hreads : ∀ o : HostOp, o.reads = true → o.Sends := fun _ => HostOp.sends_of_reads
  refine Fallible.within_bind (open_reads.mono hreads) fun reader => ?_
  refine Fallible.within_bind ((verify_reads reader).mono hreads) fun _ => ?_
  refine Fallible.within_bind ?_ fun _ => trivial
  refine Fallible.within_bind mkdirAll_sends fun _ => ?_
  refine Fallible.within_bind (create_sends _) fun _ => ?_
  exact Fallible.within_bind (writeDoc_sends (names_none rfl)) fun _ => writeDoc_sends trivial

lemma restoreCommit_passes {m : Manifest} {pid : Int} (hpid : 0 < pid) :
    Passes (fun _ => True) (Restore.commit env id m pid) := by
  refine Fallible.Relies.bind (carriesOver_names.stamp fun _ _ _ => names_some rfl hpid) fun _ _ => ?_
  refine Fallible.Relies.bind (.of_within ((within_sys .hostname).mpr trivial)) fun here _ => ?_
  rw [when]
  split
  · exact carriesOver_names.update fun st hst => hst
  · exact Fallible.Relies.pure trivial

/-- **An operation** that is given positive pids records no other. -/
lemma Operation.passes {op : Operation} (hop : op.Given) :
    Passes (fun _ => True) (op.prog env codec) := by
  cases op with
  | initContainer id =>
    exact .of_within (Fallible.within_bind initContainer_sends fun _ => Fallible.within_pure _ ())
  | setRunningUnder id pid supervisor => exact carriesOver_names.stamp fun _ _ _ => names_some rfl hop
  | setStopped id exitCode => exact carriesOver_names.stamp fun _ st hst => hst
  | setStatus id status => exact carriesOver_names.update fun st hst => hst
  | setCheckpointed id snapshot => exact carriesOver_names.stamp fun _ _ _ => names_none rfl
  | setRestored id pid => exact carriesOver_names.stamp fun _ _ _ => names_some rfl hop
  | adopt snapshot =>
    exact .of_within (Fallible.within_bind adoptSnapshot_sends fun _ => Fallible.within_pure _ ())
  | reconcile id => exact reconcile_passes
  | markFailed id => exact carriesOver_names.update fun _ _ => names_none rfl
  | checkpointCommit id opts dest =>
    change Passes (fun _ => True) (Checkpoint.commit env id opts dest)
    rw [Checkpoint.commit]
    split
    · exact carriesOver_names.stamp fun _ st hst => hst
    · exact carriesOver_names.stamp fun _ _ _ => names_none rfl
  | restoreCommit id m pid => exact restoreCommit_passes hop
  | release id => exact carriesOver_names.update fun _ _ => names_none rfl

end Programs

/-! ### Side by side -/

/-- Whatever records or signals: the supervisors, the starts in the foreground, the commands that stop
a container, and the operations that are given positive pids. -/
inductive Recorder where
  | supervise (id : String) (cfg : ContainerConfig) (self : Int)
  | startAttached (id : String) (cfg : ContainerConfig)
  | stop (id : String)
  | operation (op : Operation) (given : op.Given)

/-- The program of a recorder. -/
def Recorder.prog (env : Env) (codec : Codec Manifest) : Recorder → Program HostSig Unit
  | supervise id cfg self => discard (Mincontainer.supervise env id cfg self)
  | startAttached id cfg => discard (Mincontainer.startAttached env id cfg)
  | stop id => discard (cmdStop env id)
  | operation op _ => discard (op.prog env codec)

/-- The calls of a recorder. -/
def Recorder.May : Recorder → HostOp → Prop
  | stop _, o => o.Stops
  | _, o => o.Sends

lemma Recorder.May.sends {l : Recorder} {o : HostOp} (h : l.May o) : o.Sends := by
  cases l with
  | stop id => exact h.1
  | _ => exact h

/-- **Recorders** pass on the pids that they are given. -/
lemma Recorder.relies {env : Env} {codec : Codec Manifest} (l : Recorder) :
    (l.prog env codec).Relies Brings l.May fun _ => True := by
  cases l with
  | supervise id cfg self => exact Program.Relies.bind supervise_passes fun _ _ => trivial
  | startAttached id cfg => exact Program.Relies.bind startAttached_passes fun _ _ => trivial
  | stop id => exact Program.Relies.bind stop_relies fun _ _ => trivial
  | operation op given => exact Program.Relies.bind (Operation.passes given) fun _ _ => trivial

/-- The program is that of the recorder, in some process. -/
def Records (codec : Codec Manifest) (l : Recorder) (p : Program HostSig Unit) : Prop :=
  ∃ env, p = l.prog env codec

/-- A tree is started as `spawn` starts it, by processes of which the middle one tells the pid of the
container; its pid is the one that the parent reads. -/
def Spawned (_ : Host) (e : HostSig.Event) : Prop :=
  ∀ owner pid, e = ⟨.startTree owner, (.ok pid : Except String Int)⟩ →
    ∃ root cfg caller tr s c, Processes.Run spawnMachine (Spawn.start root cfg caller) tr s ∧
      Spawn.Learnt root tr c ∧ Spawn.Told tr ∧ pid = (c : Int)

/-- A tree that is started so has a positive pid. -/
lemma Spawned.pos {h : Host} {owner : String} {pid : Int}
    (hs : Spawned h ⟨.startTree owner, (.ok pid : Except String Int)⟩) : 0 < pid := by
  obtain ⟨root, cfg, caller, tr, s, c, hrun, hlearnt, htold, rfl⟩ := hs owner pid rfl
  have hreal := (Spawn.learnt_real_iff hrun hlearnt).mpr htold
  exact_mod_cast hreal.1

/-- What a host brings in while its records are as they should be. -/
lemma brings_of_enabled {h : Host} {o : HostOp} {r : o.Reply} (hh : h.Names)
    (hr : (machine.guarded Spawned).Enabled h o r) : Brings ⟨o, r⟩ where
  record p text st he := by
    obtain ⟨rfl, hreply⟩ := Sigma.mk.inj he
    obtain rfl := eq_of_heq hreply
    have hfile : h.file p = some (.doc text (.state st)) := of_decide_eq_true hr.1
    exact hh p text st hfile
  tree owner pid he := by
    obtain ⟨rfl, hreply⟩ := Sigma.mk.inj he
    obtain rfl := eq_of_heq hreply
    exact Spawned.pos hr.2

/-- **When the pids are real.** The pid that `spawn` hands out, and the one that it moves into the
cgroup, is the positive pid of the container that the middle process has forked exactly when the middle
process has told it. Where all trees are started so, then among any recorders on a host, interleaved
call by call, every record names a process by a positive pid, and so does every call that records,
moves into a cgroup, or stops a container.

**Proof sketch.** Who is gone, the calls of the others keep the relay: what the parent reads is what
the middle process has written, or nothing when nobody is left to write. The recorders pass on the pids
that they get from a start or from a record. -/
theorem pids_real (codec : Codec Manifest) :
    (∀ (root : ℕ) (cfg : ContainerConfig) (caller : Spawn.Caller) (tr : Spawn.Calls)
      (s : Spawn.System), Processes.Run spawnMachine (Spawn.start root cfg caller) tr s →
        (∀ handle, Spawn.Returned root cfg tr handle →
          (Spawn.Real root tr handle.containerPid ↔ Spawn.Told tr)) ∧
        ∀ m c r, (m, ⟨.act (.addProcess c), r⟩) ∈ tr → (Spawn.Real root tr c ↔ Spawn.Told tr)) ∧
    ∀ h : Host, h.Names → ∀ q : Pool HostSig Recorder Host,
      Pool.Reach (fun _ => machine.guarded Spawned) (Records codec) Host.Exits ⟨h, []⟩ q →
        q.world.Names ∧ ∀ l o k, (l, Program.call o k) ∈ q.members → l.May o := by
  constructor
  · intro root cfg caller tr s hrun
    exact ⟨fun handle hret => Spawn.learnt_real_iff hrun hret.learnt,
      fun m c r hadd => Spawn.added_real_iff hrun hadd⟩
  · intro h hh q hreach
    have hrelies : ∀ l p, Records codec l p → p.Relies Brings l.May fun _ => True := by
      rintro l p ⟨env, rfl⟩
      exact l.relies
    have hexits : ∀ w w', Host.Exits w w' → w.Names → w'.Names := by
      rintro w w' ⟨pid, rfl⟩ hw p text st hfile
      exact hw p text st hfile
    obtain ⟨hfits, hnames⟩ := hreach.relying (G := fun _ => Brings) (P := Recorder.May) hrelies
      (fun l w o r hw hr => brings_of_enabled hw hr) (fun l w o r ho _ hw => hw.next ho.sends r)
      hexits (Pool.Fits.nil h) hh
    exact ⟨hnames, fun l o k hmem => (hfits _ hmem).1⟩

/-! ### Two containers -/

namespace Demo

lemma bare_names : bare.Names := by
  intro p text st hfile
  rw [bare_file] at hfile
  cases hfile

/-- Calls are obliged; the tree of the container is started as this process, and does not exit. -/
def startsAs (pid : Int) : ℕ → Host → (o : HostOp) → Option o.Reply :=
  fun _ h o =>
    match o with
    | .startTree _ => some (.ok pid)
    | .cgroupAdd _ _ => some (.ok ())
    | .waitTree _ => none
    | o => h.oblige o

/-- The container is created; then its supervisor starts it as this process, and it is stopped. -/
def startAndStop (pid : Int) : Option ((List HostSig.Event × Option Unit × Host) ×
    (List HostSig.Event × Option Unit × Host) × (List HostSig.Event × Option Unit × Host)) :=
  (machine.drive obliging 40 0
    ((Recorder.operation (.initContainer "web") trivial).prog env codec) bare).bind fun x =>
  (machine.drive (startsAs pid) 60 0 ((Recorder.supervise "web" config 7).prog env codec)
    x.2.2).bind fun y =>
  (machine.drive obliging 20 0 ((Recorder.stop "web").prog env codec) y.2.2).map fun z => (x, y, z)

/-- A tree that the call starts is this process. -/
def startsOnly (pid : Int) (e : HostSig.Event) : Bool :=
  match e with
  | ⟨.startTree _, r⟩ =>
    match (r : Except String Int) with
    | .ok p => p = pid
    | .error _ => true
  | _ => true

/-- The call is a signal to this process. -/
def signals (pid : Int) (e : HostSig.Event) : Bool :=
  match e with
  | ⟨.term p, _⟩ => p = pid
  | _ => false

/-- What is seen of it: how the record names the process, and whether it is signalled. -/
def seen (pid : Int) : Option (Bool × Option (String × Option Int) × Bool) :=
  (startAndStop pid).map fun x =>
    ((x.1.1 ++ x.2.1.1 ++ x.2.2.1).all (startsOnly pid),
      (x.2.1.2.2.record env "web").map fun st => (st.status, st.pid), x.2.2.1.any (signals pid))

lemma seen_zero : seen 0 = some (true, some ("running", some 0), true) := by
  decide +kernel

lemma seen_three : seen 3 = some (true, some ("running", some 3), true) := by
  decide +kernel

lemma signals_mem {pid : Int} {tr : List HostSig.Event} (h : tr.any (signals pid) = true) :
    (⟨.term pid, ()⟩ : HostSig.Event) ∈ tr := by
  obtain ⟨e, he, hsignal⟩ := List.any_eq_true.mp h
  obtain ⟨o, r⟩ := e
  cases o with
  | term p =>
    obtain rfl : p = pid := of_decide_eq_true hsignal
    exact he
  | _ => cases hsignal

/-- What is seen are executions. -/
lemma executed_of_seen {pid : Int} {text : String} (h : seen pid = some (true, some (text, some pid), true)) :
    ∃ h₁ h₂ h₃ tr₁ tr₂ tr₃ out₁ out₂ out₃ st,
      Exec machine quiet ((Recorder.operation (.initContainer "web") trivial).prog env codec) bare tr₁
        out₁ h₁ ∧
      Exec machine quiet ((Recorder.supervise "web" config 7).prog env codec) h₁ tr₂ out₂ h₂ ∧
      Exec machine quiet ((Recorder.stop "web").prog env codec) h₂ tr₃ out₃ h₃ ∧
      (∀ e ∈ tr₁ ++ tr₂ ++ tr₃, startsOnly pid e = true) ∧
      (h₂.record env "web" = some st ∧ st.status = text ∧ st.pid = some pid) ∧
      (⟨.term pid, ()⟩ : HostSig.Event) ∈ tr₃ := by
  obtain ⟨⟨x, y, z⟩, hx, hseen⟩ := Option.map_eq_some_iff.mp h
  obtain ⟨x', hcreate, hx⟩ := Option.bind_eq_some_iff.mp hx
  obtain ⟨y', hstart, hx⟩ := Option.bind_eq_some_iff.mp hx
  obtain ⟨z', hstop, hx⟩ := Option.map_eq_some_iff.mp hx
  obtain ⟨rfl, hyz⟩ := Prod.mk.inj hx
  obtain ⟨rfl, rfl⟩ := Prod.mk.inj hyz
  obtain ⟨hall, hrest⟩ := Prod.mk.inj hseen
  obtain ⟨hrecord, hany⟩ := Prod.mk.inj hrest
  obtain ⟨st, hst, hfields⟩ := Option.map_eq_some_iff.mp hrecord
  obtain ⟨hstatus, hpid⟩ := Prod.mk.inj hfields
  exact ⟨_, _, _, _, _, _, _, _, _, st, Machine.drive_exec hcreate, Machine.drive_exec hstart,
    Machine.drive_exec hstop, List.all_eq_true.mp hall, ⟨hst, hstatus, hpid⟩, signals_mem hany⟩

end Demo

/-- **A container that is the process zero.** When the namespaces cannot be unshared, `spawn` moves the
process zero into the cgroup and hands it out; the supervisor records it as running, and stopping the
container signals it. -/
theorem spawned_zero :
    (∃ tr s, Processes.Run spawnMachine Spawn.Demo.begin tr s ∧
      Spawn.Returned 1 Spawn.Demo.cfg tr ⟨0, 2⟩ ∧ (1, ⟨.act (.addProcess 0), .ok ()⟩) ∈ tr ∧
      ¬ Spawn.Real 1 tr 0) ∧
    ∃ h h₂ h₃ tr₂ tr₃ out₂ out₃ st, h.Names ∧
      Exec machine quiet ((Recorder.supervise "web" Demo.config 7).prog Demo.env Demo.codec) h tr₂ out₂
        h₂ ∧
      (h₂.record Demo.env "web" = some st ∧ st.status = Status.running.asStr ∧ st.pid = some 0) ∧
      Exec machine quiet ((Recorder.stop "web").prog Demo.env Demo.codec) h₂ tr₃ out₃ h₃ ∧
      (⟨.term 0, ()⟩ : HostSig.Event) ∈ tr₃ := by
  constructor
  · obtain ⟨tr, s, hrun, hret, hadd⟩ := Spawn.Demo.returned_zero
    exact ⟨tr, s, hrun, hret, hadd, fun hreal => absurd hreal.1 (lt_irrefl 0)⟩
  · obtain ⟨h₁, h₂, h₃, tr₁, tr₂, tr₃, out₁, out₂, out₃, st, hcreate, hstart, hstop, -, hrecord, hterm⟩ :=
      Demo.executed_of_seen Demo.seen_zero
    have hsends : ((Recorder.operation (.initContainer "web") trivial).prog Demo.env
        Demo.codec).Within HostOp.Sends :=
      Program.within_bind (Fallible.within_bind initContainer_sends fun _ => trivial) fun _ => trivial
    have hnames : h₁.Names := Exec.invariant (I := Host.Names) (G := fun _ => True)
      (fun _ _ r ho _ _ hw => hw.next ho r) (fun _ _ hR => hR.elim) hsends hcreate
      (fun _ _ => trivial) Demo.bare_names
    exact ⟨h₁, h₂, h₃, tr₂, tr₃, out₂, out₃, st, hnames, hstart, hrecord, hstop, hterm⟩

/-- A start that is told of, and the container that is stopped after it. -/
theorem pids_real_demo :
    (∃ tr s, Processes.Run spawnMachine Spawn.Demo.begin tr s ∧
      Spawn.Returned 1 Spawn.Demo.cfg tr ⟨3, 2⟩ ∧ Spawn.Real 1 tr 3) ∧
    ∃ (q : Pool HostSig Recorder Host) (k : Unit → Program HostSig Unit),
      Pool.Reach (fun _ => machine.guarded Spawned) (Records Demo.codec) Host.Exits ⟨Demo.bare, []⟩ q ∧
      (Recorder.stop "web", Program.call (S := HostSig) (.term 3) k) ∈ q.members ∧
      HostOp.Stops (.term 3) ∧ q.world.Names := by
  obtain ⟨tr, s, hrun, hret, htold⟩ := Spawn.Demo.returned_three
  refine ⟨⟨tr, s, hrun, hret,
    (((pids_real Demo.codec).1 1 Spawn.Demo.cfg (.detached "/io") tr s hrun).1 _ hret).mpr htold⟩, ?_⟩
  have hspawned : ∀ w, ∀ e, Demo.startsOnly 3 e = true → Spawned w e := by
    rintro w e he owner pid rfl
    obtain rfl : pid = 3 := of_decide_eq_true he
    exact ⟨1, Spawn.Demo.cfg, .detached "/io", tr, s, 3, hrun, hret.learnt, htold, rfl⟩
  obtain ⟨h₁, h₂, h₃, tr₁, tr₂, tr₃, out₁, out₂, out₃, st, hcreate, hstart, hstop, hall, -, hterm⟩ :=
    Demo.executed_of_seen Demo.seen_three
  obtain ⟨hall₁₂, hall₃⟩ := List.forall_mem_append.mp hall
  obtain ⟨hall₁, hall₂⟩ := List.forall_mem_append.mp hall₁₂
  obtain ⟨y₁, hreach₁⟩ := Pool.Reach.join_exec
    (F := Records Demo.codec) (R := Host.Exits) (M := fun _ => machine.guarded Spawned)
    (p := ⟨Demo.bare, []⟩) .refl ⟨Demo.env, rfl⟩
    (hcreate.guarded fun w e he => hspawned w e (hall₁ e he))
  obtain ⟨y₂, hreach₂⟩ := hreach₁.join_exec ⟨Demo.env, rfl⟩
    (hstart.guarded fun w e he => hspawned w e (hall₂ e he))
  obtain ⟨h₄, k, hreach₃, -⟩ := Pool.reach_call (F := Records Demo.codec) (R := Host.Exits)
    (M := fun _ : Recorder => machine.guarded Spawned) (l := Recorder.stop "web") _
    (hstop.guarded fun w e he => hspawned w e (hall₃ e he)) hterm
  have hjoin := hreach₂.tail ⟨none, .join (l := Recorder.stop "web") ⟨Demo.env, rfl⟩⟩
  have hreach := hjoin.trans hreach₃
  obtain ⟨hnames, hmay⟩ := (pids_real Demo.codec).2 Demo.bare Demo.bare_names _ hreach
  exact ⟨_, k, hreach, List.mem_cons_self, hmay _ _ k List.mem_cons_self, hnames⟩

end Mincontainer
