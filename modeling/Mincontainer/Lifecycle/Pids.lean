import Mincontainer.Effects.Monitor
import Mincontainer.Engine.Reconcile
import Mincontainer.Host.Oblige

set_option relaxedAutoImplicit false
set_option autoImplicit false

/-!
# Which records name a process

A record that says *created*, *stopped*, *failed*, *checkpointed*, *restoring* or *migrated* should
name no process: `stop` and `reconcile` signal the pid they find. Who writes a whole record, or clears
the pid, keeps it so. `setStopped` and `setStatus` leave the pid as it is: they keep it so when the
record they find names no process.

## Main definitions

* `Mincontainer.Operation` — the operations that write records.
* `Mincontainer.ContainerState.Tidy` — a record of one of these statuses names no process.
* `Mincontainer.Operation.Due` — what an operation must find.

## Main results

* `Mincontainer.tidy_of_due` — in a history of operations that are due, every record is tidy.
* `Mincontainer.stopped_keeps_pid` — a container that runs and is stopped leaves its pid.
-/

namespace Mincontainer

open Effects Files Bytes

/-! ### The operations that write records -/

/-- What the supervisor records when it could not start the container. -/
def markFailed (env : Env) (id : String) : HostM Unit :=
  update env id fun s => { s with
    status := Status.failed.asStr
    pid := none }

/-- What the source of a migration records when the target has the container. -/
def release (env : Env) (id : String) : HostM Unit :=
  update env id fun s => { s with
    status := Status.migrated.asStr
    pid := none }

/-- The operations that write records. -/
inductive Operation where
  | initContainer (id : String)
  | setRunningUnder (id : String) (pid : Int) (supervisor : Option Int)
  | setStopped (id : String) (exitCode : Int)
  | setStatus (id : String) (status : Status)
  | setCheckpointed (id snapshot : String)
  | setRestored (id : String) (pid : Int)
  /-- Adopt the container of a snapshot that came from another node. -/
  | adopt (snapshot : PathBuf)
  | reconcile (id : String)
  | markFailed (id : String)
  /-- The commit of a checkpoint. -/
  | checkpointCommit (id : String) (opts : Checkpoint.Options) (dest : PathBuf)
  /-- The commit of a restore. -/
  | restoreCommit (id : String) (m : Manifest) (pid : Int)
  | release (id : String)

namespace Operation

/-- The program of an operation. -/
def prog (env : Env) (codec : Codec Manifest) : Operation → HostM Unit
  | initContainer id => do
    let _ ← Mincontainer.initContainer env id
    pure ()
  | setRunningUnder id pid supervisor => Mincontainer.setRunningUnder env id pid supervisor
  | setStopped id exitCode => Mincontainer.setStopped env id exitCode
  | setStatus id status => Mincontainer.setStatus env id status
  | setCheckpointed id snapshot => Mincontainer.setCheckpointed env id snapshot
  | setRestored id pid => Mincontainer.setRestored env id pid
  | adopt snapshot => do
    let _ ← Restore.adoptSnapshot env codec snapshot
    pure ()
  | reconcile id => Restore.reconcile env id
  | markFailed id => Mincontainer.markFailed env id
  | checkpointCommit id opts dest => Checkpoint.commit env id opts dest
  | restoreCommit id m pid => Restore.commit env id m pid
  | release id => Mincontainer.release env id

end Operation

/-! ### Tidy records -/

/-- The statuses under which a process may be recorded. -/
def Status.hasProcess : Status → Bool
  | .running => true
  | .checkpointing => true
  | _ => false

/-- A record under another status names no process. -/
def ContainerState.Tidy (st : ContainerState) : Prop :=
  ∀ s : Status, s.hasProcess = false → st.status = s.asStr → st.pid = none

/-- Every record on the host is tidy. -/
def Host.Tidy (h : Host) : Prop :=
  ∀ (p : Path) (text : Bytes) (st : ContainerState), h.file p = some (.doc text (.state st)) →
    st.Tidy

/-- The record of the container, if there is one, names no process. -/
def Host.NoPid (h : Host) (env : Env) (id : String) : Prop :=
  ∀ st, h.record env id = some st → st.pid = none

/-- What an operation must find so as to keep records tidy. -/
def Operation.Due (env : Env) (h : Host) : Operation → Prop
  | setStopped id _ => h.NoPid env id
  | setStatus id status => status.hasProcess = false → h.NoPid env id
  | _ => True

namespace ContainerState

lemma tidy_of_noPid {st : ContainerState} (h : st.pid = none) : st.Tidy := fun _ _ _ => h

/-- A record under a status that has a process is tidy. -/
lemma tidy_of_status {st : ContainerState} {s : Status} (hs : s.hasProcess = true)
    (h : st.status = s.asStr) : st.Tidy := by
  intro s' hs' h'
  obtain rfl : s = s' := (Status.asStr_inj s s').mp (h.symm.trans h')
  rw [hs] at hs'
  cases hs'

end ContainerState

/-! ### What the calls keep -/

/-- The records the call writes are tidy. -/
def HostOp.WritesTidy (o : HostOp) : Prop := ∀ p st, o = .putDoc p (.state st) → st.Tidy

lemma HostOp.writesTidy_of_reads {o : HostOp} (h : o.reads = true) : o.WritesTidy := by
  rintro p st rfl
  cases h

/-- A call that writes tidy records keeps the records tidy. -/
lemma Host.Tidy.next {h : Host} (hh : h.Tidy) {o : HostOp} (ho : o.WritesTidy) (r : o.Reply) :
    (h.next o r).Tidy := by
  intro q text st hfile
  by_cases hputs : o.puts q
  · cases o with
    | putDoc p d =>
      obtain rfl : q = p := hputs
      rcases r with ⟨part, e⟩ | text'
      · exact hh q text st (Host.extend_doc hfile)
      · have hd := (h.file_write q (.doc text' d)).symm.trans hfile
        obtain ⟨rfl, rfl⟩ : text' = text ∧ d = .state st := by simpa using hd
        exact ho q st rfl
    | rename src dst =>
      obtain rfl : q = dst := hputs
      simp only [Host.next] at hfile
      split at hfile
      · rename_i c hsrc
        have hc := (Host.file_write { h with fs := h.fs.remove src } q c).symm.trans hfile
        exact hh src text st (hsrc.trans hc)
      · exact hh q text st hfile
    | _ => exact hputs.elim
  · exact hh q text st (Host.next_doc hputs r hfile)

section

variable {R : Host → Host → Prop} {env : Env} {id : String} {h h' : Host} {tr : List HostSig.Event}

/-- A program that writes tidy records keeps the records tidy. -/
lemma Runs.tidy {α : Type} {x : HostM α} {out : Option (Except RuntimeError α)}
    (hk : ∀ p, Keeps R p) (hx : x.run.Within HostOp.WritesTidy) (hrun : Runs R x h tr out h')
    (hh : h.Tidy) : h'.Tidy :=
  Exec.invariant (I := Host.Tidy) (G := fun _ => True) (fun _ _ r ho _ _ hw => hw.next ho r)
    (fun a b hR hw p text st hfile => hw p text st ((hk p a b hR).symm.trans hfile)) hx hrun
    (fun _ _ => trivial) hh

/-- **An update keeps the records tidy** when what it makes of the record is tidy. -/
lemma update_tidy {f : ContainerState → ContainerState} {out : Option (Except RuntimeError Unit)}
    (hk : ∀ p, Keeps R p) (hf : ∀ st, h.record env id = some st → (f st).Tidy)
    (hrun : Runs R (update env id f) h tr out h') (hh : h.Tidy) : h'.Tidy := by
  intro p text st hfile
  by_cases hp : p = (ContainerStateDir.forId env id).stateFile
  · subst hp
    have hrec : h'.record env id = some st := Host.record_eq_some.mpr ⟨text, hfile⟩
    cases update_inv (hk _) hrun with
    | untouched _ _ _ hkept => exact hh _ text st (hkept.symm.trans hfile)
    | torn _ _ _ _ hnone =>
      rw [hnone] at hrec
      cases hrec
    | done hst _ _ _ hnew =>
      obtain rfl := Option.some.inj (hnew.symm.trans hrec)
      exact hf _ hst
  · have hkept := Runs.file_kept (hk p) (within_update
      (P := fun o => ¬ o.overwrites p) (fun o ho => HostOp.not_overwrites_of_reads ho p)
      hp (fun _ => hp)) hrun
    exact hh p text st (hkept.symm.trans hfile)

/-- An update with a time stamp. -/
lemma update_now_tidy {f : String → ContainerState → ContainerState}
    {out : Option (Except RuntimeError Unit)} (hk : ∀ p, Keeps R p)
    (hf : ∀ now st, h.record env id = some st → (f now st).Tidy)
    (hrun : Runs R (sys .now >>= fun now => update env id (f now)) h tr out h') (hh : h.Tidy) :
    h'.Tidy := by
  obtain ⟨h₁, hR, ⟨rfl, rfl, rfl⟩ | ⟨now, tr₁, -, rfl, hrun₁⟩⟩ := Exec.call_inv hrun
  · exact fun p text st hfile => hh p text st (((hk p).star hR).symm.trans hfile)
  · refine update_tidy hk (fun st hst => hf now st ?_) hrun₁ fun p text st hfile =>
      hh p text st (((hk p).star hR).symm.trans hfile)
    exact (Host.record_congr ((hk _).star hR)).symm.trans hst

lemma Host.Tidy.record (hh : h.Tidy) {st : ContainerState} (hst : h.record env id = some st) :
    st.Tidy := by
  obtain ⟨text, hfile⟩ := Host.record_eq_some.mp hst
  exact hh _ text st hfile

/-! ### The operations -/

lemma create_writesTidy (dir : ContainerStateDir) : dir.create.run.Within HostOp.WritesTidy := by
  have hmk : ∀ (d : Path) (f : String → RuntimeError),
      (mkdirAll d f).run.Within HostOp.WritesTidy := fun d f =>
    (within_mkdirAll _ _).mpr fun _ _ h => by cases h
  exact Fallible.within_bind (hmk _ _) fun _ => Fallible.within_bind (hmk _ _) fun _ => hmk _ _

lemma writeDoc_writesTidy {p : Path} {d : Doc} {f : String → RuntimeError}
    (hd : ∀ st, d = .state st → st.Tidy) :
    (ContainerStateDir.writeDoc p d f).run.Within HostOp.WritesTidy :=
  within_writeDoc (fun _ _ h => by cases h) fun q st h => by
    obtain ⟨-, rfl⟩ : p = q ∧ d = .state st := by simpa using h
    exact hd st rfl

/-- The first record of a container names no process. -/
lemma initContainer_writesTidy : (initContainer env id).run.Within HostOp.WritesTidy := by
  refine Fallible.within_bind ((within_mkdirAll _ _).mpr fun _ _ h => by cases h) fun _ => ?_
  refine Fallible.within_bind (create_writesTidy _) fun _ => ?_
  refine Fallible.within_bind ((within_sys .now).mpr fun _ _ h => by cases h) fun now => ?_
  refine Fallible.within_bind (writeDoc_writesTidy fun st hst => ?_) fun _ => trivial
  obtain rfl := Doc.state.inj hst
  exact ContainerState.tidy_of_noPid rfl

/-- An adopted record names no process. -/
lemma adoptSnapshot_writesTidy {codec : Codec Manifest} {path : PathBuf} :
    (Restore.adoptSnapshot env codec path).run.Within HostOp.WritesTidy := by
  have hreads : ∀ o : HostOp, o.reads = true → o.WritesTidy := fun o => HostOp.writesTidy_of_reads
  refine Fallible.within_bind (open_reads.mono hreads) fun reader => ?_
  refine Fallible.within_bind ((verify_reads reader).mono hreads) fun _ => ?_
  refine Fallible.within_bind ?_ fun _ => trivial
  refine Fallible.within_bind ((within_mkdirAll _ _).mpr fun _ _ h => by cases h) fun _ => ?_
  refine Fallible.within_bind (create_writesTidy _) fun _ => ?_
  refine Fallible.within_bind (writeDoc_writesTidy fun st hst => ?_) fun _ => ?_
  · obtain rfl := Doc.state.inj hst
    exact ContainerState.tidy_of_noPid rfl
  · refine writeDoc_writesTidy fun st hst => ?_
    cases hst

/-- A reconciliation clears the pid of the records it settles. -/
lemma reconcile_tidy {out : Option (Except RuntimeError Unit)} (hk : ∀ p, Keeps R p)
    (hrun : Runs R (Restore.reconcile env id) h tr out h') (hh : h.Tidy) : h'.Tidy := by
  rcases Restore.reconcile_inv hrun with hall | ⟨st, -, tr₁, tr₂, g, -, -, -, -, hR, hsweep⟩
  · have hstar := Runs.star_of_reads hrun hall
    exact fun p text st hfile => hh p text st (((hk p).star hstar).symm.trans hfile)
  have hg : g.Tidy := fun p text st hfile => hh p text st (((hk p).star hR).symm.trans hfile)
  have hclear : (Restore.clear env id st).run.Within HostOp.WritesTidy :=
    Restore.within_clear (fun o => HostOp.writesTidy_of_reads) (fun _ _ _ h => by cases h)
      (fun _ _ _ h => by cases h) (fun _ _ _ h => by cases h) (fun _ _ h => by cases h) st
  rcases Exec.fallible_bind_inv hsweep with ⟨-, h₁⟩ | ⟨e, -, h₁⟩ | ⟨found, tr₃, tr₄, g', -, h₁, h₂⟩
  · exact Runs.tidy hk hclear h₁ hg
  · exact Runs.tidy hk hclear h₁ hg
  · exact update_tidy hk (fun _ _ => ContainerState.tidy_of_noPid rfl) h₂
      (Runs.tidy hk hclear h₁ hg)

/-- The commit of a restore records a running container. -/
lemma restoreCommit_tidy {m : Manifest} {pid : Int} {out : Option (Except RuntimeError Unit)}
    (hk : ∀ p, Keeps R p) (hrun : Runs R (Restore.commit env id m pid) h tr out h')
    (hh : h.Tidy) : h'.Tidy := by
  have hset : ∀ {tr : List HostSig.Event} {out} {g : Host},
      Runs R (setRestored env id pid) h tr out g → g.Tidy := fun hrun =>
    update_now_tidy hk (fun _ _ _ => ContainerState.tidy_of_status (s := .running) rfl rfl) hrun hh
  rcases Exec.fallible_bind_inv hrun with ⟨-, h₁⟩ | ⟨e, -, h₁⟩ | ⟨u, tr₁, tr₂, g, -, h₁, h₂⟩
  · exact hset h₁
  · exact hset h₁
  have hg := hset h₁
  obtain ⟨g₁, hR, ⟨-, -, rfl⟩ | ⟨here, tr₃, -, -, h₃⟩⟩ := Exec.call_inv h₂
  · exact fun p text st hfile => hg p text st (((hk p).star hR).symm.trans hfile)
  have hg₁ : g₁.Tidy := fun p text st hfile => hg p text st (((hk p).star hR).symm.trans hfile)
  change Runs R (when _ _) g₁ tr₃ out h' at h₃
  rw [when] at h₃
  split at h₃
  · refine update_tidy hk (fun st hst => ?_) h₃ hg₁
    exact fun s hs hstat => (hg₁.record hst) s hs hstat
  · obtain ⟨-, hR', -⟩ := Exec.ret_inv h₃
    exact fun p text st hfile => hg₁ p text st (((hk p).star hR').symm.trans hfile)

/-- **One operation.** An operation that is due keeps the records tidy. -/
lemma Operation.tidy {codec : Codec Manifest} {op : Operation}
    {out : Option (Except RuntimeError Unit)} (hk : ∀ p, Keeps R p) (hdue : op.Due env h)
    (hrun : Runs R (op.prog env codec) h tr out h') (hh : h.Tidy) : h'.Tidy := by
  cases op with
  | initContainer id =>
    refine Runs.tidy hk ?_ hrun hh
    exact Fallible.within_bind initContainer_writesTidy fun _ => Fallible.within_pure _ ()
  | setRunningUnder id pid supervisor =>
    exact update_now_tidy hk
      (fun _ _ _ => ContainerState.tidy_of_status (s := .running) rfl rfl) hrun hh
  | setStopped id exitCode =>
    refine update_now_tidy hk ?_ hrun hh
    exact fun _ st hst => ContainerState.tidy_of_noPid (hdue st hst)
  | setStatus id status =>
    refine update_tidy hk (fun st hst => ?_) hrun hh
    cases hs : status.hasProcess with
    | true => exact ContainerState.tidy_of_status hs rfl
    | false => exact ContainerState.tidy_of_noPid (hdue hs st hst)
  | setCheckpointed id snapshot =>
    exact update_now_tidy hk (fun _ _ _ => ContainerState.tidy_of_noPid rfl) hrun hh
  | setRestored id pid =>
    exact update_now_tidy hk
      (fun _ _ _ => ContainerState.tidy_of_status (s := .running) rfl rfl) hrun hh
  | adopt snapshot =>
    refine Runs.tidy hk ?_ hrun hh
    exact Fallible.within_bind adoptSnapshot_writesTidy fun _ => Fallible.within_pure _ ()
  | reconcile id => exact reconcile_tidy hk hrun hh
  | markFailed id =>
    exact update_tidy hk (fun _ _ => ContainerState.tidy_of_noPid rfl) hrun hh
  | checkpointCommit id opts dest =>
    change Runs R (Checkpoint.commit env id opts dest) h tr out h' at hrun
    rw [Checkpoint.commit] at hrun
    split at hrun
    · exact update_now_tidy hk
        (fun _ _ _ => ContainerState.tidy_of_status (s := .running) rfl rfl) hrun hh
    · exact update_now_tidy hk (fun _ _ _ => ContainerState.tidy_of_noPid rfl) hrun hh
  | restoreCommit id m pid => exact restoreCommit_tidy hk hrun hh
  | release id =>
    exact update_tidy hk (fun _ _ => ContainerState.tidy_of_noPid rfl) hrun hh

/-- **No stale pid.** In every history of operations in which `setStopped`, and `setStatus` to a
status without a process, find a record that names no process, every record on the host that has
such a status names no process. The operations may be cut anywhere.

**Proof sketch.** Each operation keeps the records tidy (`Operation.tidy`). -/
theorem tidy_of_due {codec : Codec Manifest} {h₀ : Host} (hk : ∀ p, Keeps R p) (h₀t : h₀.Tidy)
    (hreach : History machine R (fun op : Operation => (op.prog env codec).run)
      (fun h op _ => op.Due env h) h₀ h) : h.Tidy :=
  hreach.invariant h₀t fun _ _ _ _ _ hw hdue hrun => Operation.tidy hk hdue hrun hw

end

/-! ### Histories of one container -/

namespace Demo

/-- A host with nothing on it. -/
def bare : Host := ⟨⟨[([], .dir), (["root"], .dir)]⟩, [], []⟩

lemma bare_file (p : Path) : bare.file p = none := by
  have hget : ∀ c, bare.fs.get p ≠ some (.file c) := by
    intro c hc
    simp only [Files.Tree.get, bare, List.find?_cons, List.find?_nil] at hc
    split at hc
    · cases hc
    · split at hc <;> cases hc
  rw [Host.file]
  split
  · rename_i c hc
    exact absurd hc (hget c)
  · rfl

lemma bare_tidy : bare.Tidy := by
  intro p text st hfile
  rw [bare_file] at hfile
  cases hfile

/-- Whether an operation is due. -/
def due (h : Host) : Operation → Bool
  | .setStopped id _ => (h.record env id).all fun st => st.pid.isNone
  | .setStatus id _ => (h.record env id).all fun st => st.pid.isNone
  | _ => true

lemma due_iff {h : Host} {op : Operation} (hd : due h op = true) : op.Due env h := by
  cases op with
  | setStopped id _ =>
    intro st hst
    simpa [due, hst] using hd
  | setStatus id _ =>
    intro _ st hst
    simpa [due, hst] using hd
  | _ => exact trivial

/-- Each operation runs to its end, with replies as a host gives them. -/
def replay (check : Host → Operation → List HostSig.Event → Bool) (ops : List Operation) :
    Option Host :=
  machine.replay obliging 40 (fun op : Operation => (op.prog env codec).run) check ops bare

end Demo

/-- A container that is created, runs and stops is recorded as stopped with the pid it had. -/
theorem stopped_keeps_pid :
    ∃ h, History machine quiet (fun op : Operation => (op.prog Demo.env Demo.codec).run)
        (fun _ _ _ => True) Demo.bare h ∧
      ∃ st, h.record Demo.env "web" = some st ∧ st.status = Status.stopped.asStr ∧
        st.pid = some 42 := by
  have hrun : ((Demo.replay (fun _ _ _ => true)
      [.initContainer "web", .setRunningUnder "web" 42 none, .setStopped "web" 0]).bind fun h =>
        (h.record Demo.env "web").map fun st => (st.status, st.pid)) =
      some (Status.stopped.asStr, some 42) := by
    decide +kernel
  obtain ⟨h, hreplay, hrec⟩ := Option.bind_eq_some_iff.mp hrun
  rw [Demo.replay] at hreplay
  obtain ⟨st, hst, hfields⟩ := Option.map_eq_some_iff.mp hrec
  obtain ⟨hstatus, hpid⟩ := Prod.mk.inj hfields
  exact ⟨h, Machine.replay_history (fun _ _ _ _ => trivial) .start hreplay, st, hst, hstatus, hpid⟩

theorem tidy_of_due_demo :
    ∃ h, History machine quiet (fun op : Operation => (op.prog Demo.env Demo.codec).run)
        (fun h op _ => op.Due Demo.env h) Demo.bare h ∧
      ∃ st, h.record Demo.env "web" = some st ∧ st.status = Status.stopped.asStr ∧ h.Tidy := by
  have hrun : ((Demo.replay (fun h op _ => Demo.due h op)
      [.initContainer "web", .setRunningUnder "web" 42 none, .reconcile "web",
        .setStopped "web" 0]).bind fun h =>
        (h.record Demo.env "web").map fun st => st.status) = some Status.stopped.asStr := by
    decide +kernel
  obtain ⟨h, hreplay, hrec⟩ := Option.bind_eq_some_iff.mp hrun
  rw [Demo.replay] at hreplay
  obtain ⟨st, hst, hstatus⟩ := Option.map_eq_some_iff.mp hrec
  have hhist : History machine quiet (fun op : Operation => (op.prog Demo.env Demo.codec).run)
      (fun h op _ => op.Due Demo.env h) Demo.bare h :=
    Machine.replay_history (fun _ _ _ hd => Demo.due_iff hd) .start hreplay
  exact ⟨h, hhist, st, hst, hstatus, tidy_of_due keeps_quiet Demo.bare_tidy hhist⟩

end Mincontainer
