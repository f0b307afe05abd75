import Mincontainer.Host.Oblige
import Mincontainer.Lifecycle.PassedOn

set_option relaxedAutoImplicit false
set_option autoImplicit false

/-!
# The latest checkpoint is what comes back

Three places read the snapshot of the record, each from a working directory of its own: a restore, a
migration of an existing snapshot, and a reconciliation. Until a later checkpoint records its snapshot,
or the record is replaced as a whole, they read the text that the last checkpoint wrote. An absolute
text means the same file everywhere; a relative one, another file in another directory, and then a
restore quietly takes the latest snapshot of the default name.

The steps in between are whole programs, cut anywhere, among others that keep the snapshot on record.

## Main definitions

* `Mincontainer.Step` — what may happen after the checkpoint, and `Mincontainer.Step.KeepsSnapshot`,
  that it neither replaced the record nor recorded a later snapshot.
* `Mincontainer.Finds` — a restore, a migration and a reconciliation all find this file.

## Main results

* `Mincontainer.Step.pointsTo` — such a step keeps the snapshot on record.
* `Mincontainer.latest_found_iff` — when the file of the latest checkpoint is the one that is found.
* `Mincontainer.latest_not_found` — a relative path, resolved in another directory.
-/

namespace Mincontainer

open Effects Files Bytes

/-! ### What may happen in between -/

/-- The commands, the supervisors, and the single changes of a record. -/
inductive Step where
  | command (id : String) (c : Command)
  | supervise (id : String) (cfg : ContainerConfig) (self : Int)
  | operation (op : Operation)

namespace Step

/-- The program of a step. -/
def prog (codec : Codec Manifest) (proto : Protocol) (env : Env) : Step → Program HostSig Unit
  | command id c => discard (c.prog codec proto env id)
  | supervise id cfg self => discard (Mincontainer.supervise env id cfg self)
  | operation op => discard (op.prog env codec)

/-- The step neither replaced the record in the file `q` nor recorded a later snapshot there: whoever
creates a container, takes one over or records a checkpoint did not write that file, and a checkpoint
did not get as far as recording its snapshot. -/
def KeepsSnapshot (q : Path) (env : Env) (tr : List HostSig.Event) : Step → Prop
  | command _ (.create _) => ∀ d, ¬ Writes tr q d
  | command id (.checkpoint _) => ¬ RecordsSnapshot q (ContainerStateDir.forId env id).stagingDir tr
  | command id (.migrate _ _) => ¬ RecordsSnapshot q (ContainerStateDir.forId env id).stagingDir tr
  | operation (.initContainer _) => ∀ d, ¬ Writes tr q d
  | operation (.adopt _) => ∀ d, ¬ Writes tr q d
  | operation (.setCheckpointed _ _) => ∀ d, ¬ Writes tr q d
  | operation (.checkpointCommit _ _ _) => ∀ d, ¬ Writes tr q d
  | _ => True

end Step

/-- The call moves no file. -/
def HostOp.NoRename (o : HostOp) : Prop := ∀ src dst, o ≠ .rename src dst

section

variable {q : Path} {text : String} {env : Env} {codec : Codec Manifest} {proto : Protocol}
  {R : Host → Host → Prop} {h h' : Host} {tr : List HostSig.Event}

lemma noRename_of_reads {o : HostOp} (ho : o.reads = true) : o.NoRename := by
  rintro src dst rfl
  cases ho

lemma mkdirAll_noRename (p : Path) (f : String → RuntimeError) :
    (mkdirAll p f).run.Within HostOp.NoRename := (within_mkdirAll _ _).mpr (by rintro _ _ ⟨⟩)

lemma create_noRename (dir : ContainerStateDir) : dir.create.run.Within HostOp.NoRename :=
  Fallible.within_bind (mkdirAll_noRename _ _) fun _ =>
    Fallible.within_bind (mkdirAll_noRename _ _) fun _ => mkdirAll_noRename _ _

lemma writeDoc_noRename (p : Path) (d : Doc) (f : String → RuntimeError) :
    (ContainerStateDir.writeDoc p d f).run.Within HostOp.NoRename :=
  within_writeDoc (by rintro _ _ ⟨⟩) (by rintro _ _ ⟨⟩)

lemma initContainer_noRename {id : String} :
    (initContainer env id).run.Within HostOp.NoRename := by
  refine Fallible.within_bind (mkdirAll_noRename _ _) fun _ => ?_
  refine Fallible.within_bind (create_noRename _) fun _ => ?_
  refine Fallible.within_bind ((within_sys .now).mpr (noRename_of_reads rfl)) fun now => ?_
  exact Fallible.within_bind (writeDoc_noRename _ _ _) fun _ => trivial

lemma cmdCreate_noRename {a : CreateArgs} : (cmdCreate env a).run.Within HostOp.NoRename := by
  refine within_orOne (mkdirAll_noRename _ _) fun _ => within_orOne initContainer_noRename fun _ => ?_
  split
  · exact trivial
  · exact within_orOne (writeDoc_noRename _ _ _) fun _ => Fallible.within_pure _ _

lemma adoptSnapshot_noRename {path : PathBuf} :
    (Restore.adoptSnapshot env codec path).run.Within HostOp.NoRename := by
  refine Fallible.within_bind (open_reads.mono fun _ => noRename_of_reads) fun reader => ?_
  refine Fallible.within_bind ((verify_reads reader).mono fun _ => noRename_of_reads) fun _ => ?_
  refine Fallible.within_bind ?_ fun _ => trivial
  refine Fallible.within_bind (mkdirAll_noRename _ _) fun _ => ?_
  refine Fallible.within_bind (create_noRename _) fun _ => ?_
  exact Fallible.within_bind (writeDoc_noRename _ _ _) fun _ => writeDoc_noRename _ _ _

lemma stamp_noRename {id : String} {f : String → ContainerState → ContainerState} :
    (sys .now >>= fun now : String => update env id (f now)).run.Within HostOp.NoRename :=
  Fallible.within_bind ((within_sys .now).mpr (noRename_of_reads rfl)) fun now =>
    within_update (fun _ => noRename_of_reads) (by rintro _ _ ⟨⟩) fun _ => by rintro _ _ ⟨⟩

/-- A run of a program whose result is not looked at. -/
lemma discard_inv {α : Type} {x : HostM α} {out : Option Unit}
    (hrun : Exec machine R (discard x) h tr out h') :
    ∃ out' : Option (Except RuntimeError α), Runs R x h tr out' h' := by
  rcases Exec.bind_inv hrun with ⟨-, h₁⟩ | ⟨r, tr₁, tr₂, g, rfl, h₁, h₂⟩
  · exact ⟨none, h₁⟩
  · obtain ⟨rfl, hR, -⟩ := Exec.ret_inv h₂
    rw [List.append_nil]
    exact ⟨some r, h₁.append_env_star hR⟩

/-- **The single changes.** A change that neither replaces the record nor records a snapshot keeps the
one on record. -/
lemma Operation.pointsTo {op : Operation} {out : Option (Except RuntimeError Unit)}
    (hR : ∀ a b, R a b → a.PointsTo q text → b.PointsTo q text)
    (hrun : Runs R (op.prog env codec) h tr out h')
    (hkeeps : (Step.operation op).KeepsSnapshot q env tr) (hp : h.PointsTo q text) :
    h'.PointsTo q text := by
  cases op with
  | initContainer id =>
    exact Runs.pointsTo_of_not_writes hR (Fallible.within_bind initContainer_noRename fun _ =>
      Fallible.within_pure _ ()) hrun hkeeps hp
  | setRunningUnder id pid supervisor =>
    refine Runs.pointsTo (Q := fun _ => True) hR ?_ hrun hp
    exact stamp_passesOn fun _ _ => rfl
  | setStopped id exitCode =>
    refine Runs.pointsTo (Q := fun _ => True) hR ?_ hrun hp
    exact stamp_passesOn fun _ _ => rfl
  | setStatus id status =>
    refine Runs.pointsTo (Q := fun _ => True) hR ?_ hrun hp
    exact update_passesOn fun _ => rfl
  | setCheckpointed id snapshot => exact Runs.pointsTo_of_not_writes hR stamp_noRename hrun hkeeps hp
  | setRestored id pid =>
    refine Runs.pointsTo (Q := fun _ => True) hR ?_ hrun hp
    exact stamp_passesOn fun _ _ => rfl
  | adopt snapshot =>
    exact Runs.pointsTo_of_not_writes hR (Fallible.within_bind adoptSnapshot_noRename fun _ =>
      Fallible.within_pure _ ()) hrun hkeeps hp
  | reconcile id => exact Runs.pointsTo hR reconcile_passesOn hrun hp
  | markFailed id =>
    refine Runs.pointsTo (Q := fun _ => True) hR ?_ hrun hp
    exact update_passesOn fun _ => rfl
  | checkpointCommit id opts dest =>
    refine Runs.pointsTo_of_not_writes hR ?_ hrun hkeeps hp
    change (Checkpoint.commit env id opts dest).run.Within HostOp.NoRename
    rw [Checkpoint.commit]
    split
    · exact stamp_noRename
    · exact stamp_noRename
  | restoreCommit id m pid => exact Runs.pointsTo hR restoreCommit_passesOn hrun hp
  | release id =>
    refine Runs.pointsTo (Q := fun _ => True) hR ?_ hrun hp
    exact update_passesOn fun _ => rfl

/-- **The commands.** A command that neither replaces the record nor records a snapshot keeps the one on
record. -/
lemma Command.pointsTo {id : String} {c : Command} {out : Option (Except RuntimeError Int)}
    (hR : ∀ a b, R a b → a.PointsTo q text → b.PointsTo q text)
    (hrun : Runs R (c.prog codec proto env id) h tr out h')
    (hkeeps : (Step.command id c).KeepsSnapshot q env tr) (hp : h.PointsTo q text) :
    h'.PointsTo q text := by
  cases c with
  | create a => exact Runs.pointsTo_of_not_writes hR cmdCreate_noRename hrun hkeeps hp
  | start detach polls => exact Runs.pointsTo hR start_passesOn hrun hp
  | stop => exact Runs.pointsTo hR (.of_within stop_heeds) hrun hp
  | checkpoint opts =>
    rcases orOne_inv hrun with ⟨out', -, h₁⟩ | ⟨u, tr₁, tr₂, g, rfl, h₁, hrun₁⟩
    · exact Runs.pointsTo hR init_passesOn h₁ hp
    have hp₁ := Runs.pointsTo hR init_passesOn h₁ hp
    rcases orOne_inv hrun₁ with ⟨out', -, h₂⟩ | ⟨rep, tr₃, tr₄, g₂, rfl, h₂, hrun₂⟩
    · exact (Checkpoint.checkpoint_pointsTo hR h₂ (fun hrec => hkeeps (hrec.append_left tr₁)) hp₁).1
    · have hp₂ := (Checkpoint.checkpoint_pointsTo hR h₂
        (fun hrec => hkeeps ((hrec.append_right tr₄).append_left tr₁)) hp₁).1
      exact Runs.pointsTo (Q := fun _ => True) hR (Fallible.Relies.pure trivial) hrun₂ hp₂
  | restore opts =>
    exact Runs.pointsTo hR (orOne_passesOn init_passesOn fun _ => orOne_passesOn restore_passesOn
      fun _ => Fallible.Relies.pure trivial) hrun hp
  | migrate target opts =>
    rcases orOne_inv hrun with ⟨out', -, h₁⟩ | ⟨u, tr₁, tr₂, g, rfl, h₁, hrun₁⟩
    · exact Runs.pointsTo hR init_passesOn h₁ hp
    have hp₁ := Runs.pointsTo hR init_passesOn h₁ hp
    rcases orOne_inv hrun₁ with ⟨out', -, h₂⟩ | ⟨rep, tr₃, tr₄, g₂, rfl, h₂, hrun₂⟩
    · exact Migrate.migrate_pointsTo hR h₂ (fun hrec => hkeeps (hrec.append_left tr₁)) hp₁
    · have hp₂ := Migrate.migrate_pointsTo hR h₂
        (fun hrec => hkeeps ((hrec.append_right tr₄).append_left tr₁)) hp₁
      exact Runs.pointsTo (Q := fun _ => True) hR (Fallible.Relies.pure trivial) hrun₂ hp₂
  | ps => exact Runs.pointsTo hR ps_passesOn hrun hp
  | rm => exact Runs.pointsTo hR (.of_within rm_heeds) hrun hp

/-- **One step.** A step that neither replaces the record nor records a later snapshot keeps the
snapshot on record, however far it gets. -/
lemma Step.pointsTo {s : Step} {out : Option Unit}
    (hR : ∀ a b, R a b → a.PointsTo q text → b.PointsTo q text)
    (hrun : Exec machine R (s.prog codec proto env) h tr out h')
    (hkeeps : s.KeepsSnapshot q env tr) (hp : h.PointsTo q text) : h'.PointsTo q text := by
  cases s with
  | command id c =>
    obtain ⟨out', hrun'⟩ := discard_inv hrun
    exact Command.pointsTo hR hrun' hkeeps hp
  | supervise id cfg self =>
    obtain ⟨out', hrun'⟩ := discard_inv hrun
    exact Runs.pointsTo hR supervise_passesOn hrun' hp
  | operation op =>
    obtain ⟨out', hrun'⟩ := discard_inv hrun
    exact Operation.pointsTo hR hrun' hkeeps hp

end

/-! ### What is found -/

/-- A restore without `--from`, a migration of an existing snapshot, and the question of a
reconciliation, asked in the directory that `env` names, all find this file: it is what the first two
resolve, and the only one that the third looks at. -/
structure Finds (env : Env) (id : String) (h : Host) (st : ContainerState) (p : Path) : Prop where
  restore : ∀ opts : Restore.Options, opts.from_ = none → ∃ b : PathBuf, b.path = p ∧
    Reports machine
      (Restore.resolveSnapshot env (ContainerStateDir.forId env id) st opts).run h (.ok b)
  migrate : ∃ b : PathBuf, b.path = p ∧ Reports machine (Migrate.existingSnapshot env st).run h (.ok b)
  reconcile : Runs quiet (Restore.hasSnapshot env (ContainerStateDir.forId env id) st) h
    [⟨.stat p, (some .file : Option Kind)⟩] (some (.ok true)) h

section

variable {env : Env} {id : String} {h : Host} {st : ContainerState}

/-- **What a migration resolves.** The recorded snapshot, if it is there. -/
lemma existingSnapshot_reports :
    (∃ b, h.recorded env st = some b ∧
        Reports machine (Migrate.existingSnapshot env st).run h (.ok b)) ∨
      h.recorded env st = none ∧
        ∃ e, Reports machine (Migrate.existingSnapshot env st).run h (.error e) := by
  have hfirst := @Restore.lookRecorded_reports env st h
  cases hrec : h.recorded env st with
  | some b =>
    rw [hrec] at hfirst
    exact .inl ⟨b, rfl, Reports.bind hfirst (Reports.ret _ _)⟩
  | none =>
    rw [hrec] at hfirst
    exact .inr ⟨rfl, _, Reports.bind hfirst (Reports.ret _ _)⟩

/-- **What is found** is the file that the text on record means where the question is asked, if that is
there. -/
lemma finds_iff {text : String} {p : Path} (hst : st.snapshot = some text)
    (hplace : h.kind p = some .file) : Finds env id h st p ↔ resolve env.cwd text = p := by
  have hrec : h.recorded env st =
      if h.kind (resolve env.cwd text) = some .file then some ⟨text, env.cwd⟩ else none := by
    rw [Host.recorded, hst]
    rfl
  constructor
  · intro hfinds
    obtain ⟨b, hb, hreports⟩ := hfinds.migrate
    rcases @existingSnapshot_reports env h st with
      ⟨b', hb', hreports'⟩ | ⟨-, e, hreports'⟩
    · obtain rfl : b = b' := Except.ok.inj (hreports.det hreports')
      rw [hrec] at hb'
      split at hb'
      · obtain rfl := Option.some.inj hb'
        exact hb
      · cases hb'
    · cases hreports.det hreports'
  · intro hsame
    rw [hsame, if_pos hplace] at hrec
    have hlook : h.lookup env (ContainerStateDir.forId env id) st = some ⟨text, env.cwd⟩ := by
      rw [Host.lookup, hrec]
    refine ⟨fun opts hopts => ⟨⟨text, env.cwd⟩, hsame, ?_⟩, ⟨⟨text, env.cwd⟩, hsame, ?_⟩, ?_⟩
    · rcases @Restore.resolveSnapshot_reports env (ContainerStateDir.forId env id) st h
        opts hopts with ⟨b, hb, hreports⟩ | ⟨hnone, -⟩
      · obtain rfl := Option.some.inj (hlook.symm.trans hb)
        exact hreports
      · rw [hlook] at hnone
        cases hnone
    · rcases @existingSnapshot_reports env h st with
        ⟨b, hb, hreports⟩ | ⟨hnone, -⟩
      · obtain rfl := Option.some.inj (hrec.symm.trans hb)
        exact hreports
      · rw [hrec] at hnone
        cases hnone
    · rw [Restore.hasSnapshot, hst]
      dsimp only
      rw [hsame]
      have hstat : machine.Enabled h (.stat p) (some .file : Option Kind) :=
        Host.enabled_stat.mpr hplace.symm
      exact Exec.call hstat (.ret _ _)

end

/-! ### The latest checkpoint -/

section

variable {env : Env} {codec : Codec Manifest} {id : String} {opts : Checkpoint.Options}

/-- What is printed of the output path means in a directory the file that was written, unless the path
was asked for and is relative or is not printed as it is. -/
lemma resolve_destination_iff {dir : ContainerStateDir} (hdir : Clean dir.snapshotsDir) {cwd : Path} :
    resolve cwd (Checkpoint.displayed opts (Checkpoint.destination env dir opts)) =
        (Checkpoint.destination env dir opts).path ↔
      ∀ given, opts.dest = some given → resolve cwd given.shown = resolve env.cwd given.text := by
  rw [Checkpoint.displayed, Checkpoint.destination]
  cases hdest : opts.dest with
  | some given => simp [PathBuf.path]
  | none =>
    have hclean : Clean (dir.snapshotFile opts.name) := clean_resolve hdir _
    refine iff_of_true ?_ (by simp)
    exact (resolve_display hclean _).trans (resolve_display hclean _).symm

/-- A checkpoint that returned has put its output path on record. -/
lemma Checkpoint.checkpoint_recorded {R : Host → Host → Prop} {h h' : Host} {tr : List HostSig.Event}
    {rep : Checkpoint.Report} (hk : Keeps R (ContainerStateDir.forId env id).stateFile)
    (hrun : Runs R (Checkpoint.checkpoint env codec id opts) h tr (some (.ok rep)) h') :
    rep.snapshot = Checkpoint.destination env (ContainerStateDir.forId env id) opts ∧
      h'.PointsTo (ContainerStateDir.forId env id).stateFile
        (Checkpoint.displayed opts rep.snapshot) := by
  have hpoints : ∀ {g : Host} {st : ContainerState} {text : String}, g.record env id = some st →
      st.snapshot = some text → g.PointsTo (ContainerStateDir.forId env id).stateFile text := by
    intro g st text hst htext json st' hfile
    obtain rfl := Option.some.inj (hst.symm.trans (Host.record_eq_some.mpr ⟨json, hfile⟩))
    exact htext
  rw [Checkpoint.checkpoint_eq] at hrun
  obtain ⟨x, tr₁, tr₂, g, rfl, -, hconclude⟩ := Exec.fallible_bind_ok hrun
  obtain ⟨u, tr₃, tr₄, g₁, rfl, -, hrun₁⟩ := Exec.fallible_bind_ok hconclude
  obtain ⟨u', tr₅, tr₆, g₂, rfl, hcommit, hrun₂⟩ := Exec.fallible_bind_ok hrun₁
  obtain ⟨-, hR, hrep⟩ := Exec.ret_some_inv hrun₂
  obtain rfl := Except.ok.inj hrep
  refine ⟨rfl, ?_⟩
  have hcommitted : g₂.PointsTo (ContainerStateDir.forId env id).stateFile
      (Checkpoint.displayed opts
        (Checkpoint.destination env (ContainerStateDir.forId env id) opts)) := by
    rw [Checkpoint.commit] at hcommit
    split at hcommit
    · obtain ⟨now, hend⟩ := update_now_inv hk hcommit
      cases hend with
      | untouched hout => exact absurd rfl hout
      | torn _ hout => exact absurd rfl hout
      | done _ _ _ _ hrec => exact hpoints hrec rfl
    · obtain ⟨now, hend⟩ := update_now_inv hk hcommit
      cases hend with
      | untouched hout => exact absurd rfl hout
      | torn _ hout => exact absurd rfl hout
      | done _ _ _ _ hrec => exact hpoints hrec rfl
  intro json st hfile
  exact hcommitted json st ((hk.star hR).symm.trans hfile)

/-- **The latest checkpoint.** After a checkpoint that returned, and any steps that neither replaced the
record nor recorded a later snapshot, the file it wrote is what is found, as long as it is there, by
whoever reads the record in a directory in which what is printed of the output path means the same
file: in every directory, if none was asked for or an absolute one that is UTF-8; and nowhere else.

**Proof sketch.** The checkpoint put what is printed of its output path on record
(`Checkpoint.checkpoint_recorded`), where each of the steps keeps it (`Step.pointsTo`). -/
theorem latest_found_iff {proto : Protocol} {R₀ R : Host → Host → Prop} {h₀ h₁ h : Host}
    {tr : List HostSig.Event} {rep : Checkpoint.Report} {st : ContainerState} {e : Env}
    (hkeeps : Keeps R₀ (ContainerStateDir.forId env id).stateFile)
    (hR : ∀ a b, R a b →
      a.PointsTo (ContainerStateDir.forId env id).stateFile (Checkpoint.displayed opts rep.snapshot) →
      b.PointsTo (ContainerStateDir.forId env id).stateFile (Checkpoint.displayed opts rep.snapshot))
    (hrun : Runs R₀ (Checkpoint.checkpoint env codec id opts) h₀ tr (some (.ok rep)) h₁)
    (hlater : History machine R (fun x : Env × Step => x.2.prog codec proto x.1)
      (fun _ x tr => x.2.KeepsSnapshot (ContainerStateDir.forId env id).stateFile x.1 tr) h₁ h)
    (hplace : h.kind rep.snapshot.path = some .file) (hhome : e.home = env.home)
    (hst : h.record e id = some st) :
    Finds e id h st rep.snapshot.path ↔
      ∀ given, opts.dest = some given → resolve e.cwd given.shown = resolve env.cwd given.text := by
  obtain ⟨hsnapshot, hpoints⟩ := Checkpoint.checkpoint_recorded hkeeps hrun
  have hlast : h.PointsTo (ContainerStateDir.forId env id).stateFile
      (Checkpoint.displayed opts rep.snapshot) :=
    hlater.invariant hpoints fun _ _ _ _ _ hp hok hstep => Step.pointsTo hR hstep hok hp
  obtain ⟨json, hfile⟩ := Host.record_eq_some.mp hst
  rw [forId_congr hhome] at hfile
  have htext := hlast json st hfile
  rw [finds_iff htext hplace, hsnapshot]
  refine resolve_destination_iff ?_
  exact (clean_resolve env.home_clean _).append (by decide)

end

/-! ### A relative output path -/

namespace Demo

/-- A checkpoint into a file of the working directory. -/
def intoFile : Checkpoint.Options := ⟨"latest", some (.ofText "snap.mcsnap"), false, false⟩

/-- A host on which the container runs, and has been checkpointed before. -/
def again : Host :=
  host running [(place ["snapshots", "latest.mcsnap"], .bytes [])] [⟨42, "web", none⟩]

lemma clean_root : Files.Clean ["root"] := by decide

lemma clean_tmp : Files.Clean ["tmp"] := by decide

/-- The same user in another directory. -/
def elsewhere : Env := ⟨["root"], ["tmp"], "x86_64", clean_root, clean_tmp⟩

/-- The checkpoint, and a container that cannot be stopped afterwards since it is frozen. -/
lemma checkpoint_again : ∃ rep tr h tr' h' st,
    Runs quiet (Checkpoint.checkpoint env codec "web" intoFile) again tr (some (.ok rep)) h ∧
      Exec machine quiet ((Step.command "web" .stop).prog codec (protocol "web") env) h tr' (some ()) h' ∧
      rep.snapshot = ⟨"snap.mcsnap", ["root"]⟩ ∧ h'.kind ["root", "snap.mcsnap"] = some .file ∧
      h'.kind ["tmp", "snap.mcsnap"] = none ∧
      h'.kind (place ["snapshots", "latest.mcsnap"]) = some .file ∧
      h'.record env "web" = some st ∧ st.snapshot = some "snap.mcsnap" := by
  have hdrive : ((machine.drive obliging 80 0 (Checkpoint.checkpoint env codec "web" intoFile).run
      again).bind fun x => (machine.drive obliging 20 0
        ((Step.command "web" .stop).prog codec (protocol "web") env) x.2.2).map fun y =>
          ((x.2.1.map fun r => r.map fun rep => rep.snapshot, y.2.1),
            ([["root", "snap.mcsnap"], ["tmp", "snap.mcsnap"],
              place ["snapshots", "latest.mcsnap"]].map y.2.2.kind,
            (y.2.2.record env "web").map ContainerState.snapshot))) =
      some ((some (.ok ⟨"snap.mcsnap", ["root"]⟩), some ()), ([some .file, none, some .file],
        some (some "snap.mcsnap"))) := by
    decide +kernel
  obtain ⟨⟨tr, out, h⟩, hx, hdrive⟩ := Option.bind_eq_some_iff.mp hdrive
  obtain ⟨⟨tr', out', h'⟩, hy, hall⟩ := Option.map_eq_some_iff.mp hdrive
  simp only [Prod.mk.injEq, List.map_cons, List.map_nil, List.cons.injEq, and_true] at hall
  obtain ⟨⟨hout, hout'⟩, ⟨hthere, hnot, hlatest⟩, hrec⟩ := hall
  obtain ⟨res, rfl, hres⟩ := Option.map_eq_some_iff.mp hout
  obtain ⟨st, hst, hsnapshot⟩ := Option.map_eq_some_iff.mp hrec
  subst hout'
  cases res with
  | error e => cases hres
  | ok rep =>
    exact ⟨rep, tr, h, tr', h', st, Machine.drive_exec hx, Machine.drive_exec hy, Except.ok.inj hres,
      hthere, hnot, hlatest, hst, hsnapshot⟩

end Demo

theorem latest_found_iff_demo : ∃ rep tr h tr' h' st,
    Runs quiet (Checkpoint.checkpoint Demo.env Demo.codec "web" Demo.intoFile) Demo.again tr
        (some (.ok rep)) h ∧
      Exec machine quiet ((Step.command "web" .stop).prog Demo.codec (Demo.protocol "web") Demo.env) h tr'
        (some ()) h' ∧
      Finds Demo.env "web" h' st rep.snapshot.path := by
  obtain ⟨rep, tr, h, tr', h', st, hrun, hstep, hsnapshot, hthere, -, -, hst, -⟩ :=
    Demo.checkpoint_again
  have hplace : h'.kind rep.snapshot.path = some .file := by rw [hsnapshot]; exact hthere
  have hlater : History machine quiet
      (fun x : Env × Step => x.2.prog Demo.codec (Demo.protocol "web") x.1) (fun _ x tr =>
        x.2.KeepsSnapshot (ContainerStateDir.forId Demo.env "web").stateFile x.1 tr) h h' :=
    History.run (c := (Demo.env, .command "web" .stop)) .start hstep trivial
  refine ⟨rep, tr, h, tr', h', st, hrun, hstep, (latest_found_iff (keeps_quiet _)
    (fun _ _ hR => hR.elim) hrun hlater hplace rfl hst).mpr fun given hgiven => ?_⟩
  obtain rfl : PathArg.ofText "snap.mcsnap" = given := Option.some.inj hgiven
  rw [PathArg.shown_ofText, PathArg.text_ofText]

/-- A checkpoint into a file of the working directory, and a restore from another directory: the file is
in place, and the restore takes an older snapshot. -/
theorem latest_not_found : ∃ rep tr h tr' h' st,
    Runs quiet (Checkpoint.checkpoint Demo.env Demo.codec "web" Demo.intoFile) Demo.again tr
        (some (.ok rep)) h ∧
      Exec machine quiet ((Step.command "web" .stop).prog Demo.codec (Demo.protocol "web") Demo.env) h tr'
        (some ()) h' ∧
      h'.kind rep.snapshot.path = some .file ∧ h'.record Demo.elsewhere "web" = some st ∧
      ¬ Finds Demo.elsewhere "web" h' st rep.snapshot.path ∧
      ∃ b : PathBuf, b.path ≠ rep.snapshot.path ∧
        Reports machine (Restore.resolveSnapshot Demo.elsewhere
          (ContainerStateDir.forId Demo.elsewhere "web") st ⟨none, 0, false⟩).run h' (.ok b) := by
  obtain ⟨rep, tr, h, tr', h', st, hrun, hstep, hsnapshot, hthere, hnot, hlatest, hst, htext⟩ :=
    Demo.checkpoint_again
  have hpath : rep.snapshot.path = ["root", "snap.mcsnap"] := by
    rw [hsnapshot]
    decide
  refine ⟨rep, tr, h, tr', h', st, hrun, hstep, hpath ▸ hthere, hst, ?_, ?_⟩
  · rw [hpath, finds_iff htext hthere]
    decide
  · have hlook : h'.lookup Demo.elsewhere (ContainerStateDir.forId Demo.elsewhere "web") st =
        some (PathBuf.ofPath (Demo.place ["snapshots", "latest.mcsnap"])) := by
      have hrec : h'.recorded Demo.elsewhere st = none := by
        rw [Host.recorded, htext]
        exact if_neg (by rw [show resolve Demo.elsewhere.cwd "snap.mcsnap" = ["tmp", "snap.mcsnap"] by
          decide, hnot]; simp)
      rw [Host.lookup, hrec]
      exact if_pos hlatest
    rcases @Restore.resolveSnapshot_reports Demo.elsewhere
      (ContainerStateDir.forId Demo.elsewhere "web") st h' ⟨none, 0, false⟩ rfl with ⟨b, hb, hreports⟩ | ⟨hnone, -⟩
    · obtain rfl := Option.some.inj (hlook.symm.trans hb)
      refine ⟨_, ?_, hreports⟩
      rw [hpath]
      decide
    · rw [hlook] at hnone
      cases hnone

end Mincontainer
