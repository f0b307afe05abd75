import Mincontainer.Engine.CheckpointPhases
import Mincontainer.Host.Oblige

set_option relaxedAutoImplicit false
set_option autoImplicit false

/-!
# How a failing checkpoint leaves the record

Between the mark and the commit the record says *checkpointing*, and reconciliation takes such a
record for debris of a killed run: it kills whatever is alive under the recorded pid. A checkpoint
that returns an error should therefore not leave the mark behind. It settles the record on two of
its ways out only: before the mark, where there is nothing to settle, and after a failed dump.

## Main definitions

* `Mincontainer.Checkpoint.Settled` — the record tells whether the container is alive.
* `Mincontainer.Checkpoint.dumpFailure` — the event of a dump that failed.

## Main results

* `Mincontainer.Checkpoint.checkpoint_error_settles` — when a failing checkpoint settles the
  record.
* `Mincontainer.Checkpoint.checkpoint_error_strands` — a full disk strands a live container.
-/

namespace Mincontainer

open Effects Files Bytes Snapshot

/-- The call is a dump. -/
def HostOp.dumps : HostOp → Bool
  | .criuDump _ => true
  | _ => false

namespace Checkpoint

/-- The record is readable and not marked, and it says *running* with the pid `pid` exactly when
the tree with that root is alive. -/
def Settled (env : Env) (id : String) (pid : Int) (h : Host) : Prop :=
  ∃ st, h.record env id = some st ∧ st.is .checkpointing = false ∧
    ((st.is .running = true ∧ st.pid = some pid) ↔ h.alive pid = true)

/-- The event is a dump that failed. -/
def dumpFailure : HostSig.Event → Bool
  | ⟨.criuDump _, r⟩ => !(r : Except DumpFailure (List (String × Bytes))).isOk
  | _ => false

section

variable {R : Host → Host → Prop} {α : Type} {env : Env} {codec : Codec Manifest} {id : String}
  {opts : Options} {info : SnapshotMeta} {h h' : Host} {tr : List HostSig.Event}

/-- A program that does not dump has no failed dump in its trace. -/
lemma no_dumpFailure {x : HostM α} {out : Option (Except RuntimeError α)}
    (hx : x.run.Within fun o : HostOp => o.dumps = false) (hrun : Runs R x h tr out h') :
    ∀ e ∈ tr, dumpFailure e = false := by
  rintro ⟨o, r⟩ he
  have ho := Exec.mem_within hx hrun _ he
  cases o with
  | criuDump opts => cases ho
  | _ => rfl

/-! ### Records that keep the mark -/

/-- The record, if there is one, is marked. -/
def Marked (env : Env) (id : String) (h : Host) : Prop :=
  ∀ st, h.record env id = some st → st.is .checkpointing = true

lemma Marked.not_settled {pid : Int} (hm : Marked env id h) : ¬ Settled env id pid h := by
  rintro ⟨st, hst, hmark, -⟩
  rw [hm st hst] at hmark
  cases hmark

/-- A record that was lost carries no other label. -/
lemma Marked.of_none (hrec : h.record env id = none) : Marked env id h := fun st hst => by
  rw [hrec] at hst
  cases hst

/-- Where a checkpoint that fails leaves the record: settled if `c`, and marked or lost otherwise. -/
def Exited (env : Env) (id : String) (pid : Int) (h : Host) (c : Prop) : Prop :=
  (c ∧ Settled env id pid h) ∨ (¬ c ∧ Marked env id h)

lemma Exited.settled_iff {pid : Int} {c : Prop} (hx : Exited env id pid h c) :
    Settled env id pid h ↔ c :=
  hx.elim (fun ⟨hc, hs⟩ => iff_of_true hs hc) fun ⟨hc, hm⟩ => iff_of_false hm.not_settled hc

/-- An update that fails leaves the mark. -/
lemma Marked.update {f : ContainerState → ContainerState} {e : RuntimeError}
    (hm : Marked env id h) (hk : Keeps R (ContainerStateDir.forId env id).stateFile)
    (hrun : Runs R (update env id f) h tr (some (.error e)) h') : Marked env id h' := by
  cases update_inv hk hrun with
  | untouched _ _ _ hfile => rwa [Marked, Host.record_congr hfile]
  | torn _ _ _ _ hrec => exact .of_none hrec
  | done _ hout _ _ _ => exact absurd rfl (hout e)

/-- The calls after the dump that are not the commit. -/
abbrev Packs (env : Env) (id : String) (o : HostOp) : Prop :=
  ¬ o.puts (ContainerStateDir.forId env id).stateFile ∧ o.dumps = false

lemma dumps_of_reads {o : HostOp} (ho : o.reads = true) : o.dumps = false := by
  cases o <;> first | rfl | cases ho

lemma packs_of_reads {o : HostOp} (ho : o.reads = true) : Packs env id o := by
  refine ⟨?_, dumps_of_reads ho⟩
  cases o <;> first | exact fun h => h | cases ho

lemma packs_file (p : Path) : AllowsFile (Packs env id) p :=
  ⟨⟨fun h => h, rfl⟩, fun _ => ⟨fun h => h, rfl⟩, ⟨fun h => h, rfl⟩⟩

lemma within_commit {P : HostOp → Prop} {dest : PathBuf}
    (hr : ∀ o : HostOp, o.reads = true → P o)
    (h₁ : P (.createFile (ContainerStateDir.forId env id).stateFile))
    (h₂ : ∀ d, P (.putDoc (ContainerStateDir.forId env id).stateFile d)) :
    (commit env id opts dest).run.Within P := by
  rw [commit]
  split
  all_goals
    refine Fallible.within_bind ((within_sys .now).mpr (hr _ rfl)) fun _ => ?_
    exact within_update hr h₁ h₂

/-- A commit that fails leaves the mark. -/
lemma Marked.commit {dest : PathBuf} {e : RuntimeError}
    (hm : Marked env id h) (hk : Keeps R (ContainerStateDir.forId env id).stateFile)
    (hrun : Runs R (commit env id opts dest) h tr (some (.error e)) h') : Marked env id h' := by
  have hnow : ∀ {f : String → ContainerState → ContainerState},
      Runs R (sys .now >>= fun now => Mincontainer.update env id (f now)) h tr
        (some (.error e)) h' → Marked env id h' := fun hrun => by
    obtain ⟨h₁, now, tr₁, hR, -, -, hupdate⟩ := Exec.call_some_inv hrun
    have hm₁ : Marked env id h₁ := by rwa [Marked, Host.record_congr (hk.star hR)]
    exact hm₁.update hk hupdate
  rw [Checkpoint.commit] at hrun
  split at hrun <;> exact hnow hrun

/-- Packing and committing: a failure leaves the mark. -/
lemma Marked.store {e : RuntimeError} (hm : Marked env id h)
    (hk : Keeps R (ContainerStateDir.forId env id).stateFile)
    (hrun : Runs R (store env codec id info opts) h tr (some (.error e)) h') :
    Marked env id h' := by
  have hputs : ∀ {β : Type} {x : HostM β} {g g' : Host} {tr} {out},
      x.run.Within (Packs env id) → Runs R x g tr out g' → Marked env id g → Marked env id g' :=
    fun hx hrun hm st hst =>
      hm st (Runs.record_inherited hk (Program.Within.mono (fun _ ho => ho.1) hx) hrun st hst)
  obtain ⟨h₁, now, tr₁, hR, -, -, hrun₁⟩ := Exec.call_some_inv hrun
  have hm₁ : Marked env id h₁ := by rwa [Marked, Host.record_congr (hk.star hR)]
  have hpack : ∀ info, (pack env codec (destination env (ContainerStateDir.forId env id) opts)
      (ContainerStateDir.forId env id) info).run.Within (Packs env id) := fun info =>
    within_pack (fun _ => packs_of_reads) (fun _ => ⟨fun h => h, rfl⟩) (packs_file _)
      (packs_file _)
  rcases Exec.fallible_bind_inv hrun₁ with ⟨hout, -⟩ | ⟨e', -, hrun₂⟩ |
    ⟨⟨manifest, snapshotBytes, imageBytes⟩, tr₂, tr₃, h₂, rfl, hrun₂, hrun₃⟩
  · cases hout
  · exact hputs (hpack _) hrun₂ hm₁
  have hm₂ := hputs (hpack _) hrun₂ hm₁
  rcases Exec.fallible_bind_inv hrun₃ with ⟨hout, -⟩ | ⟨e', -, hrun₄⟩ |
    ⟨_, tr₄, tr₅, h₃, rfl, hrun₄, hrun₅⟩
  · cases hout
  · exact hputs ((within_sys (.removeDirAll _)).mpr ⟨fun h => h, rfl⟩) hrun₄ hm₂
  have hm₃ := hputs ((within_sys (.removeDirAll _)).mpr ⟨fun h => h, rfl⟩) hrun₄ hm₂
  rcases Exec.fallible_bind_inv hrun₅ with ⟨hout, -⟩ | ⟨e', -, hrun₆⟩ |
    ⟨_, tr₆, tr₇, h₄, rfl, hrun₆, hrun₇⟩
  · cases hout
  · exact hm₃.commit hk hrun₆
  · obtain ⟨-, -, hres⟩ := Exec.ret_some_inv hrun₇
    cases hres

/-- Packing and committing contain no dump. -/
lemma store_no_dump : (store env codec id info opts).run.Within
    fun o : HostOp => o.dumps = false := by
  have hfile : ∀ p, AllowsFile (fun o : HostOp => o.dumps = false) p :=
    fun p => ⟨rfl, fun _ => rfl, rfl⟩
  refine Fallible.within_bind ((within_sys .now).mpr rfl) fun _ => ?_
  refine Fallible.within_bind
    (within_pack (fun _ => dumps_of_reads) (fun _ => rfl) (hfile _) (hfile _)) fun _ => ?_
  refine Fallible.within_bind ((within_sys (.removeDirAll _)).mpr rfl) fun _ => ?_
  exact Fallible.within_bind (within_commit (fun _ => dumps_of_reads) rfl fun _ => rfl)
    fun _ => trivial

/-! ### The dump -/

/-- A dump keeps the state file. -/
lemma dump_file_kept {res : Option (Except RuntimeError (Except String Unit))}
    (hk : Keeps R (ContainerStateDir.forId env id).stateFile)
    (hrun : Runs R (Criu.dump (dumpOptions (ContainerStateDir.forId env id) info opts)) h tr res h') :
    h'.file (ContainerStateDir.forId env id).stateFile =
      h.file (ContainerStateDir.forId env id).stateFile := by
  refine Runs.file_kept hk (within_dump (fun h => h) ?_) hrun
  exact stateFile_not_below_imagesDir (ContainerStateDir.forId env id)

lemma dumpTree_ok {u : Unit} (hk : Keeps R (ContainerStateDir.forId env id).stateFile)
    (hrun : Runs R (dumpTree env id info opts) h tr (some (.ok u)) h') :
    (∀ e ∈ tr, dumpFailure e = false) ∧ h'.record env id = h.record env id := by
  obtain ⟨res, tr₁, tr₂, h₁, rfl, hdump, hrun₁⟩ := Exec.fallible_bind_ok hrun
  have hfile := dump_file_kept hk hdump
  obtain ⟨m, r, rfl, ⟨images, rfl, hres⟩ | ⟨f, rfl, hres⟩⟩ := dump_inv hdump
  · obtain rfl := Except.ok.inj hres
    obtain ⟨rfl, hR, -⟩ := Exec.ret_some_inv hrun₁
    refine ⟨?_, Host.record_congr ((hk.star hR).trans hfile)⟩
    simp [dumpFailure, Except.isOk, Except.toBool]
  · obtain rfl := Except.ok.inj hres
    obtain ⟨_, _, _, _, -, -, hrun₂⟩ := Exec.fallible_bind_ok hrun₁
    obtain ⟨_, _, _, _, -, -, hrun₃⟩ := Exec.fallible_bind_ok hrun₂
    exact (Exec.throw_ok_false hrun₃).elim

lemma update_plain {f : ContainerState → ContainerState} :
    (update env id f).run.Within fun o : HostOp => o.plain = true :=
  within_update (fun _ => HostOp.plain_of_reads) rfl fun _ => rfl

/-- The way out of a failed dump: it looks whether the tree is alive, and writes what it saw. -/
lemma dumpFailed_inv {pid : Int} {msg : String} {res : Except RuntimeError α}
    (hrun : Runs R (dumpFailed env id pid msg : HostM α) h tr (some res) h') :
    ∃ h₁ tr₁ r, Relation.ReflTransGen R h h₁ ∧
      tr = ⟨.pidAlive pid, (h₁.alive pid : Bool)⟩ :: tr₁ ∧
      Runs R (setStatus env id (if h₁.alive pid then .running else .failed)) h₁ tr₁ (some r) h' := by
  obtain ⟨h₁, still, tr₁, hR, hstill, rfl, hrun₁⟩ := Exec.call_some_inv hrun
  obtain rfl : still = h₁.alive pid := Host.enabled_pidAlive.mp hstill
  rcases Exec.fallible_bind_inv hrun₁ with ⟨hout, -⟩ | ⟨e, -, hset⟩ | ⟨r, tr₂, tr₃, h₂, rfl, hset, hthrow⟩
  · cases hout
  · rcases Exec.attempt_inv hset with ⟨hout, -⟩ | ⟨r, hout, -⟩ <;> cases hout
  rcases Exec.attempt_inv hset with ⟨hout, -⟩ | ⟨r', -, hupdate⟩
  · cases hout
  obtain ⟨rfl, hR₃, -⟩ := Exec.ret_some_inv hthrow
  refine ⟨h₁, tr₂, r', hR, by rw [List.append_nil], ?_⟩
  exact Exec.append_env_star hupdate hR₃

/-- **A failed dump.** Its way out settles the record when its write goes through. -/
lemma dumpTree_error {st : ContainerState} {e : RuntimeError} (hst : h.record env id = some st)
    (hmark : st.is .checkpointing = true) (hpid : st.pid = some info.checkpointPid)
    (hk : Keeps R (ContainerStateDir.forId env id).stateFile)
    (hlive : ∀ a b, R a b → b.alive info.checkpointPid = a.alive info.checkpointPid)
    (hrun : Runs R (dumpTree env id info opts) h tr (some (.error e)) h') :
    Exited env id info.checkpointPid h'
      (∃ d, Writes (since dumpFailure tr) (ContainerStateDir.forId env id).stateFile d) := by
  rcases Exec.fallible_bind_inv hrun with ⟨hout, -⟩ | ⟨e', -, hdump⟩ |
    ⟨res, tr₁, tr₂, h₁, rfl, hdump, hrun₁⟩
  · cases hout
  · obtain ⟨_, _, _, ⟨_, _, hres⟩ | ⟨_, _, hres⟩⟩ := dump_inv hdump <;> cases hres
  have hfile := dump_file_kept hk hdump
  obtain ⟨m, r, rfl, ⟨images, rfl, hres⟩ | ⟨f, rfl, hres⟩⟩ := dump_inv hdump
  · obtain rfl := Except.ok.inj hres
    obtain ⟨-, -, hres⟩ := Exec.ret_some_inv hrun₁
    cases hres
  obtain rfl := Except.ok.inj hres
  obtain ⟨h₂, tr₃, r, hR, rfl, hupdate⟩ := dumpFailed_inv hrun₁
  have hst₂ : h₂.record env id = some st := by
    rw [Host.record_congr ((hk.star hR).trans hfile), hst]
  have hsince : ∀ d, Writes (since dumpFailure
        ([⟨.mkdirAll (dumpOptions (ContainerStateDir.forId env id) info opts).imagesDir, m⟩,
          ⟨.criuDump (dumpOptions (ContainerStateDir.forId env id) info opts), .error f⟩] ++
        ⟨.pidAlive info.checkpointPid, (h₂.alive info.checkpointPid : Bool)⟩ :: tr₃))
          (ContainerStateDir.forId env id).stateFile d ↔
      Writes tr₃ (ContainerStateDir.forId env id).stateFile d := by
    intro d
    simp [since, dumpFailure, Writes, Except.isOk, Except.toBool]
  simp only [hsince]
  have halive := Runs.alive_kept update_plain hlive hupdate
  cases update_inv hk hupdate with
  | untouched _ _ hw hf =>
    refine .inr ⟨not_exists.mpr hw, fun st' hst' => ?_⟩
    rw [Host.record_congr hf, hst₂] at hst'
    exact Option.some.inj hst' ▸ hmark
  | torn _ _ _ hw hrec => exact .inr ⟨not_exists.mpr hw, .of_none hrec⟩
  | done hst₂' _ _ hw hrec =>
    obtain rfl := Option.some.inj (hst₂.symm.trans hst₂')
    refine .inl ⟨⟨_, (hw _).mpr rfl⟩, _, hrec, ?_, ?_⟩
    · cases h₂.alive info.checkpointPid <;> rfl
    · rw [halive]
      cases h₂.alive info.checkpointPid <;> simp [hpid, ContainerState.is]

/-- **After the mark.** A failure settles the record when it is that of the dump and the write on
its way out goes through. -/
lemma freeze_error {st : ContainerState} {e : RuntimeError} (hst : h.record env id = some st)
    (hmark : st.is .checkpointing = true) (hpid : st.pid = some info.checkpointPid)
    (hk : Keeps R (ContainerStateDir.forId env id).stateFile)
    (hlive : ∀ a b, R a b → b.alive info.checkpointPid = a.alive info.checkpointPid)
    (hrun : Runs R (freeze env codec id info opts) h tr (some (.error e)) h') :
    Exited env id info.checkpointPid h'
      (∃ d, Writes (since dumpFailure tr) (ContainerStateDir.forId env id).stateFile d) := by
  have hmarked : ∀ {g : Host}, g.record env id = some st → Marked env id g :=
    fun hg st' hst' => Option.some.inj (hg.symm.trans hst') ▸ hmark
  have hnone : ∀ {tr : List HostSig.Event}, (∀ e ∈ tr, dumpFailure e = false) →
      ¬ ∃ d, Writes (since dumpFailure tr) (ContainerStateDir.forId env id).stateFile d := by
    rintro tr htr ⟨d, hd⟩
    rw [since_eq_nil htr] at hd
    exact writes_nil _ _ hd
  have hmake : (makeImagesDir (ContainerStateDir.forId env id)).run.Within
      fun o : HostOp => o.dumps = false ∧ ¬ o.overwrites (ContainerStateDir.forId env id).stateFile :=
    Fallible.within_bind
      ((within_sys (.removeDirAll _)).mpr ⟨rfl, stateFile_not_below_imagesDir _⟩) fun _ =>
      (within_mkdirAll _ _).mpr ⟨rfl, fun h => h⟩
  have hrec : ∀ {g : Host} {tr out}, Runs R (makeImagesDir (ContainerStateDir.forId env id)) h tr out g →
      g.record env id = some st := fun hrun => by
    rw [← hst]
    exact Host.record_congr (Runs.file_kept hk (hmake.mono fun _ ho => ho.2) hrun)
  rcases Exec.fallible_bind_inv hrun with ⟨hout, -⟩ | ⟨e', -, hmk⟩ |
    ⟨u, tr₁, tr₂, h₁, rfl, hmk, hrun₁⟩
  · cases hout
  · exact .inr ⟨hnone (no_dumpFailure (hmake.mono fun _ ho => ho.1) hmk), hmarked (hrec hmk)⟩
  rw [since_append (no_dumpFailure (hmake.mono fun _ ho => ho.1) hmk)]
  rcases Exec.fallible_bind_inv hrun₁ with ⟨hout, -⟩ | ⟨e', -, hdump⟩ |
    ⟨u, tr₂, tr₃, h₂, rfl, hdump, hrun₂⟩
  · cases hout
  · exact dumpTree_error (hrec hmk) hmark hpid hk hlive hdump
  obtain ⟨hno, hrec₂⟩ := dumpTree_ok hk hdump
  rw [since_append hno]
  have hm₂ := hmarked (hrec₂.trans (hrec hmk))
  rcases Exec.fallible_bind_inv hrun₂ with ⟨hout, -⟩ | ⟨e', -, hsettle⟩ |
    ⟨u, tr₃, tr₄, h₃, rfl, hsettle, hstore⟩
  · cases hout
  all_goals
    have hpacks : (settle info opts).run.Within (Packs env id) :=
      within_settle (fun _ => packs_of_reads) fun _ => ⟨fun h => h, rfl⟩
    have hno₃ := no_dumpFailure (hpacks.mono fun _ ho => ho.2) hsettle
    have hm₃ : Marked env id _ := fun st' hst' =>
      hm₂ st' (Runs.record_inherited hk (hpacks.mono fun _ ho => ho.1) hsettle st' hst')
  · exact .inr ⟨hnone hno₃, hm₃⟩
  · rw [since_append hno₃]
    exact .inr ⟨hnone (no_dumpFailure store_no_dump hstore), hm₃.store hk hstore⟩

/-- **The exits of a checkpoint.** Whatever else the environment does, it leaves the state file and the
tree `pid` alone.

**Proof sketch.** Before the mark nothing changes. A mark that fails half way leaves no record.
After it the record stays marked through the dump, and the settling, packing and committing that
follow can lose it or keep it; only the way out of a failed dump writes another one. -/
lemma checkpoint_exits {st : ContainerState} {pid : Int} {e : RuntimeError}
    (hst : h.record env id = some st) (hrunning : st.is .running = true) (hpid : st.pid = some pid)
    (halive : h.alive pid = true) (hk : Keeps R (ContainerStateDir.forId env id).stateFile)
    (hlive : ∀ a b, R a b → b.alive pid = a.alive pid)
    (hrun : Runs R (checkpoint env codec id opts) h tr (some (.error e)) h') :
    Exited env id pid h' (¬ Truncates tr (ContainerStateDir.forId env id).stateFile ∨
      ∃ d, Writes (since dumpFailure tr) (ContainerStateDir.forId env id).stateFile d) := by
  have hsettled : ∀ {g : Host}, g.alive pid = h.alive pid →
      g.file (ContainerStateDir.forId env id).stateFile =
        h.file (ContainerStateDir.forId env id).stateFile → Settled env id pid g := by
    refine fun hp hf => ⟨st, (Host.record_congr hf).trans hst, ?_, ?_⟩
    · simp only [ContainerState.is_iff] at hrunning
      simp [ContainerState.is, hrunning]
    · rw [hp]
      exact iff_of_true ⟨hrunning, hpid⟩ halive
  have hprepare : ∀ {tr out} {g : Host}, Runs R (prepare env id opts) h tr out g →
      (∀ e ∈ tr, dumpFailure e = false) ∧
        ¬ Truncates tr (ContainerStateDir.forId env id).stateFile ∧ g.alive pid = h.alive pid ∧
        g.file (ContainerStateDir.forId env id).stateFile =
          h.file (ContainerStateDir.forId env id).stateFile := fun hrun =>
    ⟨no_dumpFailure (prepare_reads.mono fun _ => dumps_of_reads) hrun,
      not_truncates (prepare_reads.mono fun o ho => by rintro rfl; cases ho) hrun,
      Runs.alive_kept (prepare_reads.mono fun _ => HostOp.plain_of_reads) hlive hrun,
      hk.star (Runs.of_reads prepare_reads hrun)⟩
  rcases Exec.fallible_bind_inv hrun with ⟨hout, -⟩ | ⟨e', -, hprep⟩ |
    ⟨info, tr₁, tr₂, h₁, rfl, hprep, hrun₁⟩
  · cases hout
  · obtain ⟨-, hno, hp, hf⟩ := hprepare hprep
    exact .inl ⟨.inl hno, hsettled hp hf⟩
  obtain ⟨hnodump, hno, hp, hf⟩ := hprepare hprep
  obtain ⟨hinfo, -, hinfopid⟩ := prepare_ok hk hprep
  obtain rfl : st = info.lifecycle := Option.some.inj (hst.symm.trans hinfo)
  obtain rfl : pid = info.checkpointPid := Option.some.inj (hpid.symm.trans hinfopid)
  rw [since_append hnodump, Truncates.append_iff, or_iff_right hno]
  have hmarknodump : ∀ {tr out} {g : Host}, Runs R (setStatus env id .checkpointing) h₁ tr out g →
      ∀ e ∈ tr, dumpFailure e = false :=
    fun hrun => no_dumpFailure (within_update (fun _ => dumps_of_reads) rfl fun _ => rfl) hrun
  rcases Exec.fallible_bind_inv hrun₁ with ⟨hout, -⟩ | ⟨e', -, hmark⟩ |
    ⟨u, tr₃, tr₄, h₂, rfl, hmark, hfreeze⟩
  · cases hout
  · have hp' := (Runs.alive_kept update_plain hlive hmark).trans hp
    have hnil := since_eq_nil (hmarknodump hmark)
    cases update_inv hk hmark with
    | untouched _ ht _ hf₂ => exact .inl ⟨.inl ht, hsettled hp' (hf₂.trans hf)⟩
    | torn _ _ ht _ hrec =>
      refine .inr ⟨?_, .of_none hrec⟩
      · rintro (hnt | ⟨d, hd⟩)
        · exact hnt ht
        · rw [hnil] at hd
          exact writes_nil _ _ hd
    | done _ hout _ _ _ => exact absurd rfl (hout e')
  rw [since_append (hmarknodump hmark)]
  cases update_inv hk hmark with
  | untouched hout _ _ _ => exact absurd rfl hout
  | torn _ hout _ _ _ => exact absurd rfl hout
  | done hst₁ _ ht _ hrec =>
    obtain rfl : info.lifecycle = _ :=
      Option.some.inj (hst.symm.trans ((Host.record_congr hf).symm.trans hst₁))
    have htrunc : ¬ ¬ Truncates (tr₃ ++ tr₄) (ContainerStateDir.forId env id).stateFile :=
      not_not_intro (Truncates.append_iff.mpr (.inl ht))
    rw [or_iff_right htrunc]
    exact freeze_error hrec (by simp [ContainerState.is]) hinfopid hk hlive hfreeze

/-- **Error paths of a checkpoint.** Let `id` run as `pid`. A checkpoint that returns an error
leaves a settled record if and only if it failed before the state file was truncated for the mark,
or its dump failed and a document was written to the state file after that. -/
theorem checkpoint_error_settles {st : ContainerState} {pid : Int} {e : RuntimeError}
    (hst : h.record env id = some st) (hrunning : st.is .running = true) (hpid : st.pid = some pid)
    (halive : h.alive pid = true) (hk : Keeps R (ContainerStateDir.forId env id).stateFile)
    (hprocs : ∀ a b, R a b → b.procs = a.procs)
    (hrun : Runs R (checkpoint env codec id opts) h tr (some (.error e)) h') :
    Settled env id pid h' ↔
      ¬ Truncates tr (ContainerStateDir.forId env id).stateFile ∨
        ∃ d, Writes (since dumpFailure tr) (ContainerStateDir.forId env id).stateFile d :=
  (checkpoint_exits hst hrunning hpid halive hk
    (fun a b hR => by rw [Host.alive, hprocs a b hR, Host.alive]) hrun).settled_iff

end

/-! ### A full disk -/

/-- The directory for the images cannot be created. -/
def diskFull : ℕ → Host → (o : HostOp) → Option o.Reply
  | _, _, .mkdirAll p =>
    if p = imagesDir (ContainerStateDir.forId Demo.env "web") then
      some (.error (4, "No space left on device (os error 28)"))
    else none
  | _, _, _ => none

/-- **A full disk strands a live container.** The directory for the images cannot be created: the
checkpoint returns an error, the container is alive, and its record says *checkpointing*. -/
theorem checkpoint_error_strands :
    ∃ tr e h', Demo.live.record Demo.env "web" = some Demo.running ∧
      Runs quiet (checkpoint Demo.env Demo.codec "web" ⟨"latest", none, false, false⟩) Demo.live tr
        (some (.error e)) h' ∧
      h'.alive 42 = true ∧ ¬ Settled Demo.env "web" 42 h' := by
  have hrun : ((machine.drive (departing diskFull) 40 0
      (checkpoint Demo.env Demo.codec "web" ⟨"latest", none, false, false⟩).run Demo.live).map
        fun x => (x.2.1.map Except.isOk, x.2.2.alive 42, x.2.2.record Demo.env "web")) =
      some (some false, true, some { Demo.running with status := "checkpointing" }) := by
    decide +kernel
  obtain ⟨⟨tr, out, h'⟩, hdrive, hx⟩ := Option.map_eq_some_iff.mp hrun
  simp only [Prod.mk.injEq] at hx
  obtain ⟨hout, halive, hrec⟩ := hx
  have hexec := Machine.drive_exec hdrive
  obtain ⟨res, rfl, hres⟩ := Option.map_eq_some_iff.mp hout
  cases res with
  | ok r => cases hres
  | error e =>
    refine ⟨tr, e, h', by decide +kernel, hexec, halive, Marked.not_settled fun st hst => ?_⟩
    obtain rfl := Option.some.inj (hrec.symm.trans hst)
    rfl

/-- The engine refuses to dump. -/
def dumpRefused : ℕ → Host → (o : HostOp) → Option o.Reply
  | _, _, .criuDump _ => some (.error ⟨false, [], "Can't dump a file lock"⟩)
  | _, _, _ => none

/-- A refused dump puts the record back. -/
theorem checkpoint_error_settles_demo :
    ∃ tr e h', Runs quiet (checkpoint Demo.env Demo.codec "web" ⟨"latest", none, false, false⟩)
      Demo.live tr (some (.error e)) h' ∧ Settled Demo.env "web" 42 h' := by
  have hrun : ((machine.drive (departing dumpRefused) 40 0
      (checkpoint Demo.env Demo.codec "web" ⟨"latest", none, false, false⟩).run Demo.live).map
        fun x => (x.2.1.map Except.isOk, (since dumpFailure x.1).any
          (writesTo (ContainerStateDir.forId Demo.env "web").stateFile))) =
      some (some false, true) := by
    decide +kernel
  obtain ⟨⟨tr, out, h'⟩, hdrive, hx⟩ := Option.map_eq_some_iff.mp hrun
  simp only [Prod.mk.injEq] at hx
  obtain ⟨hout, hwrites⟩ := hx
  have hexec := Machine.drive_exec hdrive
  obtain ⟨res, rfl, hres⟩ := Option.map_eq_some_iff.mp hout
  cases res with
  | ok r => cases hres
  | error e =>
    have hrec : Demo.live.record Demo.env "web" = some Demo.running := by decide +kernel
    have hrunning : Demo.running.is .running = true := by decide
    refine ⟨tr, e, h', hexec, ?_⟩
    exact (checkpoint_error_settles hrec hrunning rfl (by decide) (keeps_quiet _)
      (fun _ _ hR => hR.elim) hexec).mpr (.inr (exists_writes_of_any hwrites))

end Checkpoint

end Mincontainer
