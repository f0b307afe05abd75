import Mincontainer.Lifecycle.Footprint

set_option relaxedAutoImplicit false
set_option autoImplicit false

/-!
# After a container was handed over

A record that says *migrated* is meant to be the last one on its node. Stopping, checkpointing and
listing leave it alone. A start asks for the configuration only, and a restore only refuses a
container that runs: each brings the container back once it gets that far. A second migration of the
snapshot writes the record again, and loses it when it is cut in the middle of the write.

## Main definitions

* `Mincontainer.Terminal` — the record says *migrated* and no process was started.
* `Mincontainer.HostOp.PassesBy` — a call that does not concern the container.
* `Mincontainer.Command.StandsDown` — a command that does not get to what brings the container back.

## Main results

* `Mincontainer.migrated_terminal` — in a history of such commands the container stays migrated.
* `Mincontainer.migrated_started` — a start brings a migrated container back.
-/

namespace Mincontainer

open Effects Files Bytes

/-- The record of the container says *migrated*, and its processes are among those of `h₀`. -/
structure Terminal (env : Env) (id : String) (h₀ h : Host) : Prop where
  record : ∃ st, h.record env id = some st ∧ st.is .migrated = true
  procs : ∀ t ∈ h.procs, t.owner = id → ∃ t' ∈ h₀.procs, t'.pid = t.pid ∧ t'.owner = id

/-- The commands that act on a container that is there, issued by the same user from any
directory. -/
def Command.Local (env : Env) (e : Env) : Command → Prop
  | create _ => False
  | rm => False
  | _ => e.home = env.home

/-- The command stopped before what would bring the container back: a start before it forks or runs
the container, a restore before its mark; and a migration that began to write the record wrote it. -/
def Command.StandsDown (env : Env) (id : String) (tr : List HostSig.Event) : Command → Prop
  | start _ _ => ∀ e ∈ tr, e.1 ≠ .delegate ∧ forks e = false
  | restore _ => ¬ Truncates tr (ContainerStateDir.forId env id).stateFile
  | migrate _ _ => Truncates tr (ContainerStateDir.forId env id).stateFile →
      ∃ d, Writes tr (ContainerStateDir.forId env id).stateFile d
  | _ => True

/-- The call does not concern the container: it does not overwrite its record, and starts neither a tree
nor a supervisor of it. It may remove an empty directory. -/
structure HostOp.PassesBy (env : Env) (id : String) (o : HostOp) : Prop where
  record : ¬ o.overwrites (ContainerStateDir.forId env id).stateFile ∨ ∃ q, o = .removeDir q
  tree : o ≠ .startTree id
  restore : ∀ opts, o ≠ .criuRestore id opts
  supervisor : ∀ n cfg, o = .fork n cfg → ContainerStateDir.forId env n ≠ ContainerStateDir.forId env id

/-- The command stands down, or it does not concern the container: it is one on another. -/
def Command.Yields (env : Env) (id : String) (e : Env) (n : String) (tr : List HostSig.Event)
    (c : Command) : Prop :=
  (n = id ∧ c.Local env e ∧ c.StandsDown env id tr) ∨ ∀ ev ∈ tr, ev.1.PassesBy env id

/-! ### Who does not concern the container -/

section Bystanders

variable {env : Env} {id : String} {o : HostOp} {h h' : Host}

lemma passesBy_of_idle (ho : Idle (ContainerStateDir.forId env id).stateFile o) (hfork : o.NoFork) :
    o.PassesBy env id where
  record := ho.1
  tree := by
    rintro rfl
    cases ho.2
  restore := by
    rintro opts rfl
    cases ho.2
  supervisor n cfg h := absurd h (hfork n cfg)

lemma passesBy_of_reads (ho : o.reads = true) : o.PassesBy env id :=
  passesBy_of_idle (idle_of_reads ho) (noFork_of_reads ho)

/-- The supervisor of another container. -/
lemma supervise_passesBy {n : String} {cfg : ContainerConfig} {self : Int}
    (hother : ContainerStateDir.forId env n ≠ ContainerStateDir.forId env id) :
    (supervise env n cfg self).run.Within (HostOp.PassesBy env id) := by
  have hplain : ∀ {o : HostOp}, (¬ o.overwrites (ContainerStateDir.forId env id).stateFile) →
      o.calm = true → o.PassesBy env id := fun ho hcalm =>
    passesBy_of_idle ⟨.inl ho, HostOp.starts_of_calm hcalm⟩ (noFork_of_calm hcalm)
  have hstate : (ContainerStateDir.forId env id).stateFile ≠ (ContainerStateDir.forId env n).stateFile :=
    fun h => hother (ContainerStateDir.stateFile_injective h.symm)
  have hnet : ∀ c, (HostOp.net c).PassesBy env id := fun c => hplain (fun h => h) rfl
  have htends : Tends (HostOp.PassesBy env id) n 0 cfg :=
    { delegate := hplain (fun h => h) rfl
      leaf := hplain (fun h => h) rfl
      limit := fun _ _ => hplain (fun h => h) rfl
      tree := by
        refine ⟨.inl fun h => h, ?_, nofun, nofun⟩
        rintro ⟨⟩
        exact hother rfl
      join := fun _ => hplain (fun h => h) rfl
      setup := fun _ => Network.setup_obeys (fun c _ => hnet c) (fun _ _ _ _ => ⟨hnet _, fun c _ => hnet c⟩)
        (passesBy_of_reads rfl)
      wait := fun _ => passesBy_of_reads rfl
      delete := fun _ _ => hnet _
      drop := passesBy_of_idle ⟨.inr ⟨_, rfl⟩, rfl⟩ nofun }
  exact htends.supervise (passesBy_of_reads rfl)
    (fun _ => within_update (fun _ => passesBy_of_reads) (hplain hstate rfl) fun _ => hplain hstate rfl)
    ((getContainer_reads _ _).mono fun _ => passesBy_of_reads) self

/-- A supervisor that is forked by a call that does not concern the container does not concern it
either. -/
lemma forked_passesBy {r : o.Reply} {q : Program HostSig (Except RuntimeError Unit)} (ho : o.PassesBy env id)
    (hq : forked env ⟨o, r⟩ = some q) : q.Within (HostOp.PassesBy env id) := by
  cases o with
  | fork n cfg =>
    rcases r with e | self
    · cases hq
    · obtain rfl := Option.some.inj hq
      exact supervise_passesBy (ho.supervisor n cfg rfl)
  | _ => cases hq

/-- The trees of the container in `b` were there in `a`. -/
def Host.Inherits (id : String) (a b : Host) : Prop :=
  ∀ t ∈ b.procs, t.owner = id → ∃ t' ∈ a.procs, t'.pid = t.pid ∧ t'.owner = id

lemma Host.Inherits.refl (a : Host) : a.Inherits id a := fun t ht hown => ⟨t, ht, rfl, hown⟩

lemma Host.Inherits.trans {a b c : Host} (hab : a.Inherits id b) (hbc : b.Inherits id c) :
    a.Inherits id c := fun t ht hown => by
  obtain ⟨t₁, ht₁, hp₁, ho₁⟩ := hbc t ht hown
  obtain ⟨t₂, ht₂, hp₂, ho₂⟩ := hab t₁ ht₁ ho₁
  exact ⟨t₂, ht₂, hp₂.trans hp₁, ho₂⟩

lemma Host.inherits_of_starts (ho : o.starts = false) (r : o.Reply) : h.Inherits id (h.next o r) :=
  fun t ht hown => by
    obtain ⟨t', ht', hp, hown'⟩ := Host.mem_next_procs ho ht
    exact ⟨t', ht', hp, hown'.trans hown⟩

lemma Host.inherits_next (htree : o ≠ .startTree id) (hrestore : ∀ opts, o ≠ .criuRestore id opts)
    (r : o.Reply) : h.Inherits id (h.next o r) := by
  cases hs : o.starts with
  | false => exact Host.inherits_of_starts hs r
  | true =>
    -- a tree of another container comes up
    cases o with
    | startTree owner =>
      have hne : owner ≠ id := fun heq => htree (heq ▸ rfl)
      intro t ht hown
      rcases r with e | pid
      · exact ⟨t, ht, rfl, hown⟩
      · simp only [Host.next] at ht
        split at ht
        · exact ⟨t, ht, rfl, hown⟩
        · rcases List.mem_cons.mp ht with rfl | ht
          · exact absurd hown hne
          · exact ⟨t, ht, rfl, hown⟩
    | criuRestore owner opts =>
      have hne : owner ≠ id := fun heq => hrestore opts (heq ▸ rfl)
      intro t ht hown
      cases r with
      | up pid text =>
        rcases List.mem_cons.mp ht with rfl | ht
        · exact absurd hown hne
        · exact ⟨t, ht, rfl, hown⟩
      | failed f => exact ⟨t, ht, rfl, hown⟩
    | _ => cases hs

/-- A call that does not concern the container keeps its record. -/
lemma HostOp.PassesBy.next_file {r : o.Reply} (ho : o.PassesBy env id) (hr : h.enabled o r = true) :
    (h.next o r).file (ContainerStateDir.forId env id).stateFile =
      h.file (ContainerStateDir.forId env id).stateFile := by
  rcases ho.record with hno | ⟨q, rfl⟩
  · exact h.next_file hno r
  · exact Host.next_file_removeDir (Host.enabled_removeDir.mp hr)

/-- What the environment does does not concern the container. -/
structure Aside (env : Env) (id : String) (R : Host → Host → Prop) : Prop where
  record : Keeps R (ContainerStateDir.forId env id).stateFile
  trees : ∀ a b, R a b → a.Inherits id b

/-- Trees exit, and others make calls that do not concern the container. -/
lemma aside_beside : Aside env id (Beside machine Host.Exits (HostOp.PassesBy env id)) where
  record := by
    rintro a b (hexit | ⟨o, r, ho, hr, rfl⟩)
    · exact keeps_exits _ a b hexit
    · exact ho.next_file hr
  trees := by
    rintro a b (⟨pid, rfl⟩ | ⟨o, r, ho, -, rfl⟩)
    · exact fun t ht hown => ⟨t, (Host.mem_reap.mp ht).1, rfl, hown⟩
    · exact Host.inherits_next ho.tree ho.restore r

end Bystanders

section

variable {env : Env} {id : String} {h₀ h h' : Host} {tr : List HostSig.Event} {R : Host → Host → Prop}

lemma Terminal.status (ht : Terminal env id h₀ h) {st : ContainerState}
    (hst : h.record env id = some st) : st.status = Status.migrated.asStr := by
  obtain ⟨st', hst', hm⟩ := ht.record
  obtain rfl := Option.some.inj (hst.symm.trans hst')
  exact (ContainerState.is_iff _ _).mp hm

/-- A record that says *migrated* is not stale. -/
lemma Terminal.fresh (ht : Terminal env id h₀ h) : Fresh env id h := by
  intro st hst
  rw [Restore.isStale, ht.status hst]
  simp [Status.asStr]

lemma Terminal.congr {e : Env} (he : e.home = env.home) (ht : Terminal e id h₀ h) :
    Terminal env id h₀ h := by
  refine ⟨?_, ht.procs⟩
  obtain ⟨st, hst, hm⟩ := ht.record
  rw [Host.record, forId_congr he] at hst
  exact ⟨st, hst, hm⟩

lemma Command.StandsDown.congr {e : Env} (he : e.home = env.home) {c : Command}
    (h : c.StandsDown env id tr) : c.StandsDown e id tr := by
  cases c with
  | restore opts => simpa only [StandsDown, forId_congr he] using h
  | migrate target opts => simpa only [StandsDown, forId_congr he] using h
  | _ => exact h

lemma Aside.congr {e : Env} (he : e.home = env.home) (ha : Aside env id R) : Aside e id R := by
  refine ⟨?_, ha.trees⟩
  rw [forId_congr he]
  exact ha.record

variable (ha : Aside env id R)
include ha

/-- A program that starts no tree, and leaves a migrated record. -/
lemma Terminal.of_record {α : Type} {x : HostM α} {out : Option (Except RuntimeError α)}
    (hx : x.run.Within fun o : HostOp => o.starts = false)
    (hrun : Runs R x h tr out h')
    (hrec : ∃ st, h'.record env id = some st ∧ st.is .migrated = true)
    (ht : Terminal env id h₀ h) : Terminal env id h₀ h' := by
  have hprocs : h.Inherits id h' := Exec.rel (fun w => .refl w) (fun h₁ h₂ => h₁.trans h₂)
    (fun _ _ r ho _ => Host.inherits_of_starts ho r) ha.trees hx hrun
  exact ⟨hrec, Host.Inherits.trans ht.procs hprocs⟩

/-- A run of which no call concerns the container. -/
lemma Terminal.of_passesBy {α : Type} {p : Program HostSig α} {out : Option α}
    (hrun : Exec machine R p h tr out h') (htr : ∀ e ∈ tr, e.1.PassesBy env id)
    (ht : Terminal env id h₀ h) : Terminal env id h₀ h' := by
  have hboth := Exec.rel_of_good (G := fun e : HostSig.Event => e.1.PassesBy env id)
    (K := fun a b : Host => b.file (ContainerStateDir.forId env id).stateFile =
      a.file (ContainerStateDir.forId env id).stateFile ∧ a.Inherits id b)
    (fun w => ⟨rfl, .refl w⟩) (fun h₁ h₂ => ⟨h₂.1.trans h₁.1, h₁.2.trans h₂.2⟩) ?_
    (fun a b hR => ⟨ha.record a b hR, ha.trees a b hR⟩) (Program.within_true _) hrun htr
  · refine ⟨?_, Host.Inherits.trans ht.procs hboth.2⟩
    rw [Host.record_congr hboth.1]
    exact ht.record
  · intro w o r _ ho hr
    exact ⟨ho.next_file hr, Host.inherits_next ho.tree ho.restore r⟩

/-- A program that starts no tree and keeps the record. -/
lemma Terminal.of_file {α : Type} {x : HostM α} {out : Option (Except RuntimeError α)}
    (hx : x.run.Within fun o : HostOp => o.starts = false) (hrun : Runs R x h tr out h')
    (hfile : h'.file (ContainerStateDir.forId env id).stateFile =
      h.file (ContainerStateDir.forId env id).stateFile)
    (ht : Terminal env id h₀ h) : Terminal env id h₀ h' := by
  refine ht.of_record ha hx hrun ?_
  rw [Host.record_congr hfile]
  exact ht.record

/-- **Idle programs.** -/
lemma Terminal.of_idle {α : Type} {x : HostM α} {out : Option (Except RuntimeError α)}
    (hx : x.run.Within (Idle (ContainerStateDir.forId env id).stateFile))
    (hrun : Runs R x h tr out h') (ht : Terminal env id h₀ h) : Terminal env id h₀ h' :=
  ht.of_file ha (hx.mono fun _ ho => ho.2) hrun
    (Runs.file_kept_of_removeDir ha.record (hx.mono fun _ ho => ho.1) hrun)

lemma Terminal.of_reads {α : Type} {x : HostM α} {out : Option (Except RuntimeError α)}
    (hx : x.run.Within fun o : HostOp => o.reads = true)
    (hrun : Runs R x h tr out h') (ht : Terminal env id h₀ h) : Terminal env id h₀ h' :=
  ht.of_idle ha (hx.mono fun _ => idle_of_reads) hrun

lemma Terminal.of_star (hR : Relation.ReflTransGen R h h') (ht : Terminal env id h₀ h) :
    Terminal env id h₀ h' :=
  ht.of_reads ha (α := Unit) (x := pure ()) trivial (Exec.env_star hR (.ret _ _))

/-! ### What the commands do to it -/

lemma Terminal.reconcile (ht : Terminal env id h₀ h) {out : Option (Except RuntimeError Unit)}
    (hrun : Runs R (Restore.reconcile env id) h tr out h') : Terminal env id h₀ h' :=
  ht.of_file ha (Restore.within_reconcile ⟨fun _ => HostOp.starts_of_reads, fun _ => rfl, fun _ => rfl,
    fun _ => rfl, rfl, rfl, fun _ => rfl⟩) hrun
    (reconcile_kept_self ha.record ht.fresh rfl hrun)

lemma Terminal.ps (ht : Terminal env id h₀ h)
    (hid : "staging" ∉ (ContainerStateDir.forId env id).root) {out : Option (Except RuntimeError Int)}
    (hrun : Runs R (cmdPs env) h tr out h') : Terminal env id h₀ h' := by
  have hcalm : (cmdPs env).run.Within fun o : HostOp => o.calm = true :=
    within_orOne init_calm fun _ => Fallible.within_bind reconcileAll_calm fun _ =>
      within_orOne ((listAll_reads env).mono fun _ => HostOp.calm_of_reads) fun _ =>
        Fallible.within_pure _ _
  exact ht.of_file ha (hcalm.mono fun _ => HostOp.starts_of_calm) hrun
    (ps_kept ha.record ht.fresh hid hrun)

/-- A checkpoint refuses a container that is migrated. -/
lemma Terminal.checkpoint (ht : Terminal env id h₀ h) {codec : Codec Manifest}
    {opts : Checkpoint.Options} {out : Option (Except RuntimeError Checkpoint.Report)}
    (hrun : Runs R (Checkpoint.checkpoint env codec id opts) h tr out h') :
    Terminal env id h₀ h' := by
  rcases Exec.fallible_bind_inv hrun with ⟨-, h₁⟩ | ⟨e, -, h₁⟩ | ⟨info, tr₁, tr₂, g, -, h₁, -⟩
  · exact ht.of_reads ha Checkpoint.prepare_reads h₁
  · exact ht.of_reads ha Checkpoint.prepare_reads h₁
  · obtain ⟨hst, hrunning, -⟩ := Checkpoint.prepare_ok ha.record h₁
    exact absurd ((ht.status hst).symm.trans hrunning) (by decide)

/-- A restore that does not get to its mark. -/
lemma Terminal.restore (ht : Terminal env id h₀ h) {codec : Codec Manifest}
    {opts : Restore.Options} {out : Option (Except RuntimeError Restore.Report)}
    (hrun : Runs R (Restore.restore env codec id opts) h tr out h')
    (hmark : ¬ Truncates tr (ContainerStateDir.forId env id).stateFile) : Terminal env id h₀ h' := by
  have hselect : ∀ {g : Host} {tr out}, Runs R (Restore.select env codec id opts) h tr out g →
      Terminal env id h₀ g := fun hrun => by
    rcases Exec.fallible_bind_inv hrun with ⟨-, h₁⟩ | ⟨e, -, h₁⟩ | ⟨u, tr₁, tr₂, g, -, h₁, h₂⟩
    · exact ht.reconcile ha h₁
    · exact ht.reconcile ha h₁
    refine (ht.reconcile ha h₁).of_reads ha (Fallible.within_bind Restore.refuseRunning_reads
      fun st => ?_) h₂
    refine Fallible.within_bind (Restore.resolveSnapshot_reads _ _ _) fun path => ?_
    exact Fallible.within_bind (Restore.examine_reads _ _) fun _ => trivial
  rcases Exec.fallible_bind_inv hrun with ⟨-, h₁⟩ | ⟨e, -, h₁⟩ | ⟨x, tr₁, tr₂, g, rfl, h₁, hrun₁⟩
  · exact hselect h₁
  · exact hselect h₁
  replace ht := hselect h₁
  replace hmark := fun h => hmark (Truncates.append_iff.mpr (.inr h))
  have hunpack : (Restore.unpack x.2 (ContainerStateDir.forId env id).stagingDir).run.Within
      (Idle (ContainerStateDir.forId env id).stateFile) := Restore.within_unpack fun o ho =>
    idle_of_plain ho.plain fun h => Restore.staging_not_prefix_stateFile _ (ho.overwrites _ h)
  rcases Exec.fallible_bind_inv hrun₁ with ⟨-, h₂⟩ | ⟨e, -, h₂⟩ | ⟨u, tr₃, tr₄, g₂, rfl, h₂, hrun₂⟩
  · exact ht.of_idle ha hunpack h₂
  · exact ht.of_idle ha hunpack h₂
  replace ht := ht.of_idle ha hunpack h₂
  replace hmark := fun h => hmark (Truncates.append_iff.mpr (.inr h))
  rcases Exec.fallible_bind_inv hrun₂ with ⟨-, h₃⟩ | ⟨e, -, h₃⟩ | ⟨u, tr₅, tr₆, g₃, rfl, h₃, hrun₃⟩
  · exact ht.of_reads ha (Restore.checkRootfs_reads _) h₃
  · exact ht.of_reads ha (Restore.checkRootfs_reads _) h₃
  replace ht := ht.of_reads ha (Restore.checkRootfs_reads _) h₃
  replace hmark := fun h => hmark (Truncates.append_iff.mpr (.inr h))
  -- the mark itself: without the truncation it left the record alone, and did not return
  have huntouched : ∀ {g : Host} {tr out},
      Runs R (setStatus env id .restoring) g₃ tr out g →
      ¬ Truncates tr (ContainerStateDir.forId env id).stateFile →
      out ≠ some (.ok ()) ∧ Terminal env id h₀ g := fun hrun hno => by
    cases update_inv ha.record hrun with
    | untouched hout _ _ hfile =>
      refine ⟨hout, ht.of_record ha (within_update (fun _ => HostOp.starts_of_reads) rfl fun _ => rfl)
        hrun ?_⟩
      rw [Host.record_congr hfile]
      exact ht.record
    | torn _ _ htr _ _ => exact absurd htr hno
    | done _ _ htr _ _ => exact absurd htr hno
  rcases Exec.fallible_bind_inv hrun₃ with ⟨-, h₄⟩ | ⟨e, -, h₄⟩ | ⟨u, tr₇, tr₈, g₄, rfl, h₄, -⟩
  · exact (huntouched h₄ hmark).2
  · exact (huntouched h₄ hmark).2
  · exact absurd rfl (huntouched h₄ fun h => hmark (Truncates.append_iff.mpr (.inl h))).1

/-- A migration that wrote the record where it began to. -/
lemma Terminal.migrate (ht : Terminal env id h₀ h) {codec : Codec Manifest} {proto : Protocol}
    {target : String} {opts : Migrate.Options} {out : Option (Except RuntimeError Migrate.Report)}
    (hrun : Runs R (Migrate.migrate env codec proto id target opts) h tr out h')
    (hwrote : Truncates tr (ContainerStateDir.forId env id).stateFile →
      ∃ d, Writes tr (ContainerStateDir.forId env id).stateFile d) : Terminal env id h₀ h' := by
  rcases Exec.fallible_bind_inv hrun with ⟨-, h₁⟩ | ⟨e, -, h₁⟩ | ⟨found, tr₁, tr₂, g, rfl, h₁, hrun₁⟩
  · exact ht.of_reads ha (pathExists_reads _) h₁
  · exact ht.of_reads ha (pathExists_reads _) h₁
  replace ht := ht.of_reads ha (pathExists_reads _) h₁
  have hreads₁ := Exec.mem_within (pathExists_reads _) h₁
  split at hrun₁
  · exact ht.of_reads ha (α := Migrate.Report) (x := throw _) trivial hrun₁
  -- nothing is frozen: what is shipped, if anything, is the snapshot that is there
  have hfreeze : ∀ {g' : Host} {tr out}, Runs R (Migrate.freeze env codec id opts) g tr out g' →
      Terminal env id h₀ g' ∧ ∀ e ∈ tr, e.1.reads = true := fun hrun => by
    rcases Exec.fallible_bind_inv hrun with ⟨-, h₂⟩ | ⟨e, -, h₂⟩ | ⟨st, tr₃, tr₄, g₂, rfl, h₂, hrun₂⟩
    · exact ⟨ht.of_reads ha (loadState_reads _) h₂, Exec.mem_within (loadState_reads _) h₂⟩
    · exact ⟨ht.of_reads ha (loadState_reads _) h₂, Exec.mem_within (loadState_reads _) h₂⟩
    have hstatus := ht.status (loadState_ok ha.record h₂)
    have hreads₂ := Exec.mem_within (loadState_reads _) h₂
    have ht₂ := ht.of_reads ha (loadState_reads _) h₂
    split at hrun₂
    · refine ⟨ht₂.of_reads ha (Migrate.existingSnapshot_reads st) hrun₂, fun e he => ?_⟩
      exact (List.mem_append.mp he).elim (hreads₂ e)
        (Exec.mem_within (Migrate.existingSnapshot_reads st) hrun₂ e)
    · have hnot : st.is .running = false := by
        rw [Bool.eq_false_iff, Ne, ContainerState.is_iff, hstatus]
        decide
      rw [hnot] at hrun₂
      refine ⟨ht₂.of_reads ha (α := PathBuf) (x := throw _) trivial hrun₂, fun e he => ?_⟩
      exact (List.mem_append.mp he).elim (hreads₂ e)
        (Exec.mem_within (P := fun o : HostOp => o.reads = true)
          (p := (throw _ : HostM PathBuf).run) trivial hrun₂ e)
  rcases Exec.fallible_bind_inv hrun₁ with ⟨-, h₂⟩ | ⟨e, -, h₂⟩ | ⟨snapshot, tr₃, tr₄, g₂, rfl, h₂, hrun₂⟩
  · exact (hfreeze h₂).1
  · exact (hfreeze h₂).1
  obtain ⟨ht₂, hreads₂⟩ := hfreeze h₂
  have hship : (Migrate.ship env proto id target snapshot opts).run.Within
      fun o : HostOp => o.reads = true := by
    refine Fallible.within_bind (Fallible.within_attempt
      (Transport.sendSnapshot_reads id snapshot target opts.token)) fun r => ?_
    split <;> exact trivial
  rcases Exec.fallible_bind_inv hrun₂ with ⟨-, h₃⟩ | ⟨e, -, h₃⟩ | ⟨tx, tr₅, tr₆, g₃, rfl, h₃, hrun₃⟩
  · exact ht₂.of_reads ha hship h₃
  · exact ht₂.of_reads ha hship h₃
  have hreads₃ := Exec.mem_within hship h₃
  replace ht := ht₂.of_reads ha hship h₃
  -- the release writes the same status again
  have hrelease : ∀ {g' : Host} {tr out},
      Runs R (when (!opts.keepLocal) (release env id)) g₃ tr out g' →
      (Truncates tr (ContainerStateDir.forId env id).stateFile →
        ∃ d, Writes tr (ContainerStateDir.forId env id).stateFile d) → Terminal env id h₀ g' :=
    fun hrun hw => by
      rw [when] at hrun
      split at hrun
      · refine ht.of_record ha (within_update (fun _ => HostOp.starts_of_reads) rfl fun _ => rfl)
          hrun ?_
        cases update_inv ha.record hrun with
        | untouched _ _ _ hfile =>
          rw [Host.record_congr hfile]
          exact ht.record
        | torn _ _ htr hno _ =>
          obtain ⟨d, hd⟩ := hw htr
          exact absurd hd (hno d)
        | done _ _ _ _ hrec => exact ⟨_, hrec, by simp [ContainerState.is]⟩
      · exact ht.of_reads ha (α := Unit) (x := pure ()) trivial hrun
  have hquiet : ∀ e ∈ tr₁ ++ (tr₃ ++ tr₅), e.1.reads = true := fun e he => by
    simp only [List.mem_append] at he
    exact he.elim (hreads₁ e) fun he => he.elim (hreads₂ e) (hreads₃ e)
  have hwrote₆ : Truncates tr₆ (ContainerStateDir.forId env id).stateFile →
      ∃ d, Writes tr₆ (ContainerStateDir.forId env id).stateFile d := fun htr => by
    obtain ⟨d, text, hmem⟩ := hwrote (by simp only [Truncates.append_iff]; exact .inr (.inr (.inr htr)))
    refine ⟨d, text, ?_⟩
    rw [show tr₁ ++ (tr₃ ++ (tr₅ ++ tr₆)) = (tr₁ ++ (tr₃ ++ tr₅)) ++ tr₆ by simp] at hmem
    exact (List.mem_append.mp hmem).resolve_left fun h => by cases hquiet _ h
  rcases Exec.fallible_bind_inv hrun₃ with ⟨-, h₄⟩ | ⟨e, -, h₄⟩ | ⟨u, tr₇, tr₈, g₄, rfl, h₄, h₅⟩
  · exact hrelease h₄ hwrote₆
  · exact hrelease h₄ hwrote₆
  · obtain ⟨rfl, hR, -⟩ := Exec.ret_inv h₅
    rw [List.append_nil] at hwrote₆
    exact (hrelease h₄ hwrote₆).of_star ha hR

/-- A start that stands down. -/
lemma Terminal.start (ht : Terminal env id h₀ h) {detach : Bool} {polls : ℕ}
    {out : Option (Except RuntimeError Int)}
    (hrun : Runs R (cmdStart env id detach polls) h tr out h')
    (hdown : ∀ e ∈ tr, e.1 ≠ .delegate) : Terminal env id h₀ h' := by
  rcases orOne_inv hrun with ⟨out', -, h₁⟩ | ⟨cfg, tr₁, tr₂, g, rfl, h₁, hrun₁⟩
  · exact ht.of_idle ha prepareStart_idle h₁
  replace ht := ht.of_idle ha prepareStart_idle h₁
  split at hrun₁
  · exact ht.of_idle ha startDetached_idle hrun₁
  -- a run in the foreground begins with the controllers
  obtain ⟨g₁, hR, ⟨-, -, rfl⟩ | ⟨r, tr₃, -, rfl, -⟩⟩ := Exec.call_inv hrun₁
  · exact ht.of_star ha hR
  · exact absurd rfl (hdown _ (List.mem_append_right _ List.mem_cons_self))

/-- **One command.** A command that stands down leaves a migrated container alone. -/
lemma Terminal.command (ht : Terminal env id h₀ h)
    (hid : "staging" ∉ (ContainerStateDir.forId env id).root) {codec : Codec Manifest}
    {proto : Protocol} {c : Command} {out : Option (Except RuntimeError Int)}
    (hlocal : c.Local env env) (hdown : c.StandsDown env id tr)
    (hrun : Runs R (c.prog codec proto env id) h tr out h') : Terminal env id h₀ h' := by
  cases c with
  | create a => exact hlocal.elim
  | rm => exact hlocal.elim
  | ps => exact ht.ps ha hid hrun
  | stop => exact ht.of_idle ha cmdStop_idle hrun
  | start detach polls => exact ht.start ha hrun fun e he => (hdown e he).1
  | checkpoint opts =>
    rcases orOne_inv hrun with ⟨out', -, h₁⟩ | ⟨u, tr₁, tr₂, g, -, h₁, hrun₁⟩
    · exact ht.of_idle ha init_idle h₁
    replace ht := ht.of_idle ha init_idle h₁
    rcases orOne_inv hrun₁ with ⟨out', -, h₂⟩ | ⟨rep, tr₃, tr₄, g₂, -, h₂, hrun₂⟩
    · exact ht.checkpoint ha h₂
    · exact (ht.checkpoint ha h₂).of_reads ha (Fallible.within_pure _ _) hrun₂
  | restore opts =>
    rcases orOne_inv hrun with ⟨out', -, h₁⟩ | ⟨u, tr₁, tr₂, g, rfl, h₁, hrun₁⟩
    · exact ht.of_idle ha init_idle h₁
    replace ht := ht.of_idle ha init_idle h₁
    replace hdown := fun h => hdown (Truncates.append_iff.mpr (.inr h))
    rcases orOne_inv hrun₁ with ⟨out', -, h₂⟩ | ⟨rep, tr₃, tr₄, g₂, rfl, h₂, hrun₂⟩
    · exact ht.restore ha h₂ hdown
    · exact (ht.restore ha h₂ fun h => hdown (Truncates.append_iff.mpr (.inl h))).of_reads ha
        (Fallible.within_pure _ _) hrun₂
  | migrate target opts =>
    have hrest : ∀ {t t' : List HostSig.Event} {p : Path},
        (Truncates (t ++ t') p → ∃ d, Writes (t ++ t') p d) → (∀ e ∈ t, ∀ d, e.1 ≠ .putDoc p d) →
        Truncates t' p → ∃ d, Writes t' p d := fun hw hput htr => by
      obtain ⟨d, text, hmem⟩ := hw (Truncates.append_iff.mpr (.inr htr))
      exact ⟨d, text, (List.mem_append.mp hmem).resolve_left fun h => hput _ h d rfl⟩
    rcases orOne_inv hrun with ⟨out', -, h₁⟩ | ⟨u, tr₁, tr₂, g, rfl, h₁, hrun₁⟩
    · exact ht.of_idle ha init_idle h₁
    replace ht := ht.of_idle ha init_idle h₁
    have hdown₂ := hrest hdown fun e he d h => by
      obtain ⟨p, hp⟩ := Exec.mem_within (P := fun o : HostOp => ∃ p, o = .mkdirAll p)
        ((within_mkdirAll _ _).mpr ⟨_, rfl⟩) h₁ e he
      rw [hp] at h
      cases h
    rcases orOne_inv hrun₁ with ⟨out', -, h₂⟩ | ⟨rep, tr₃, tr₄, g₂, rfl, h₂, hrun₂⟩
    · exact ht.migrate ha h₂ hdown₂
    · obtain ⟨rfl, hR, -⟩ := Exec.ret_inv hrun₂
      rw [List.append_nil] at hdown₂
      exact (ht.migrate ha h₂ hdown₂).of_star ha hR

end

/-! ### Histories of a node -/

/-- **Migrated is terminal.** In every history of starts, stops, checkpoints, restores, migrations and
listings that stand down, and of commands on other containers, a container whose record says *migrated*
keeps it, and no process of it is started, as long as no supervisor of it was left over. The commands may
be cut anywhere.

**Proof sketch.** Nobody in the background concerns the container, so that each run is one on the host
among calls that do not (`Exec.crowd_project`). A command on the container leaves it alone
(`Terminal.command`), and one on another makes no call that concerns it (`Terminal.of_passesBy`). -/
theorem migrated_terminal {env : Env} {id : String} {codec : Codec Manifest} {proto : Protocol}
    {w₀ w : Node} (hid : "staging" ∉ (ContainerStateDir.forId env id).root)
    (hothers : ∀ p ∈ w₀.others, p.Within (HostOp.PassesBy env id))
    (hrec : ∃ st, w₀.world.record env id = some st ∧ st.is .migrated = true)
    (hreach : History (nodeMachine env) (Background env)
      (fun x : Env × String × Command => (x.2.2.prog codec proto x.1 x.2.1).run)
      (fun _ x tr => x.2.2.Yields env id x.1 x.2.1 tr) w₀ w) : Terminal env id w₀.world w.world := by
  refine (hreach.invariant (I := fun w : Node =>
    (∀ p ∈ w.others, p.Within (HostOp.PassesBy env id)) ∧ Terminal env id w₀.world w.world)
    ⟨hothers, hrec, fun t ht hown => ⟨t, ht, rfl, hown⟩⟩ ?_).2
  rintro w ⟨e, n, c⟩ tr out w' ⟨hw, ht⟩ hok hrun
  have hstarted : ∀ ev ∈ tr, ∀ q, forked env ev = some q → q.Within (HostOp.PassesBy env id) := by
    intro ev hev q hq
    rcases hok with ⟨-, -, hdown⟩ | hpass
    · have hfork : forks ev = false := by
        by_cases hstart : ∃ d k, c = .start d k
        · obtain ⟨d, k, rfl⟩ := hstart
          exact (hdown ev hev).2
        · exact forks_of_noFork
            (Exec.mem_within (Command.no_fork fun d k h => hstart ⟨d, k, h⟩) hrun ev hev)
      rw [forked_eq_none hfork] at hq
      cases hq
    · exact forked_passesBy (hpass ev hev) hq
  obtain ⟨hrun', hw'⟩ := hrun.crowd_project (fun _ _ _ ho hq => forked_passesBy ho hq) hw hstarted
  refine ⟨hw', ?_⟩
  rcases hok with ⟨rfl, hlocal, hdown⟩ | hpass
  · have he : e.home = env.home := by
      revert hlocal
      cases c with
      | create a => exact False.elim
      | rm => exact False.elim
      | _ => exact fun h => h
    have hlocal' : c.Local e e := by
      revert hlocal
      cases c with
      | create a => exact False.elim
      | rm => exact False.elim
      | _ => exact fun _ => rfl
    have hstart : Terminal e n w₀.world w.world := ht.congr he.symm
    rw [← forId_congr he] at hid
    exact (hstart.command (aside_beside.congr he) hid hlocal' (hdown.congr he) hrun').congr he
  · exact ht.of_passesBy aside_beside hrun' hpass

/-! ### Histories of one container -/

namespace Demo

/-- The record after a migration. -/
def migrated : ContainerState := { frozen with status := "migrated" }

/-- The configuration of another container. -/
def other : ContainerConfig := { config with id := "db" }

/-- A supervisor of another container runs in the background of this host. -/
def node : Node := ⟨host migrated [] [], [(supervise env "db" other 7).run]⟩

lemma other_elsewhere : ContainerStateDir.forId env "db" ≠ ContainerStateDir.forId env "web" := by
  decide +kernel

lemma node_others : ∀ p ∈ node.others, p.Within (HostOp.PassesBy env "web") :=
  List.forall_mem_singleton.mpr (supervise_passesBy other_elsewhere)

lemma node_record : ∃ st, node.world.record env "web" = some st ∧ st.is .migrated = true :=
  ⟨migrated, by rfl, rfl⟩

instance : ∀ w o r, Decidable ((nodeMachine env).Enabled w o r) :=
  fun w o r => inferInstanceAs (Decidable (machine.Enabled w.world o r))

/-- The call makes a directory, looks at something, or writes a file that is not the record. -/
def writesElsewhere (o : HostOp) : Bool :=
  match o with
  | .mkdirAll _ => true
  | .createFile p | .putDoc p _ => decide (p ≠ (ContainerStateDir.forId env "web").stateFile)
  | o => o.reads

lemma passesBy_of_writesElsewhere {o : HostOp} (h : writesElsewhere o = true) : o.PassesBy env "web" := by
  cases o with
  | mkdirAll p => exact ⟨.inl fun h => h, nofun, nofun, nofun⟩
  | createFile p => exact ⟨.inl fun heq => of_decide_eq_true h heq.symm, nofun, nofun, nofun⟩
  | putDoc p d => exact ⟨.inl fun heq => of_decide_eq_true h heq.symm, nofun, nofun, nofun⟩
  | _ => exact passesBy_of_reads h

/-- Whether a command is one on a container that is there, which no run of it brings back, or one that
writes elsewhere. -/
def modest : Env × String × Command → List HostSig.Event → Bool
  | (e, "web", .ps), tr | (e, "web", .stop), tr | (e, "web", .checkpoint _), tr
  | (e, "web", .restore _), tr =>
    decide (e.home = env.home) && tr.all fun ev => match ev.1 with
      | .createFile _ => false
      | _ => true
  | _, tr => tr.all fun ev => writesElsewhere ev.1

lemma modest_yields {x : Env × String × Command} {tr : List HostSig.Event} (h : modest x tr = true) :
    x.2.2.Yields env "web" x.1 x.2.1 tr := by
  have hcalls : ∀ {e : Env} {tr : List HostSig.Event}, (decide (e.home = env.home) && tr.all fun ev =>
      match ev.1 with
      | .createFile _ => false
      | _ => true) = true → e.home = env.home ∧ ∀ p, ¬ Truncates tr p := fun h => by
    obtain ⟨he, htr⟩ := Bool.and_eq_true_iff.mp h
    rw [List.all_eq_true] at htr
    exact ⟨of_decide_eq_true he, fun p hp => absurd (htr _ hp) (by simp)⟩
  unfold modest at h
  split at h
  · exact .inl ⟨rfl, (hcalls h).1, trivial⟩
  · exact .inl ⟨rfl, (hcalls h).1, trivial⟩
  · exact .inl ⟨rfl, (hcalls h).1, trivial⟩
  · exact .inl ⟨rfl, (hcalls h).1, (hcalls h).2 _⟩
  · exact .inr fun ev hev => passesBy_of_writesElsewhere (List.all_eq_true.mp h ev hev)

/-- Another container is created. -/
def created : CreateArgs := ⟨"db", "db", "/srv", ["/bin/sh"], ⟨0, 0, 100000, 0⟩, false, true, true, []⟩

end Demo

/-- A listing, a stop, a checkpoint and a restore that are refused, and another container is created. -/
theorem migrated_terminal_demo :
    ∃ w, History (nodeMachine Demo.env) (Background Demo.env)
        (fun x : Env × String × Command => (x.2.2.prog Demo.codec (Demo.protocol "web") x.1 x.2.1).run)
        (fun _ x tr => x.2.2.Yields Demo.env "web" x.1 x.2.1 tr) Demo.node w ∧
      (w.world.record Demo.env "db").isSome = true ∧
      Terminal Demo.env "web" Demo.node.world w.world := by
  have hrun : ((nodeMachine Demo.env).replay (fun i w o => obliging i w.world o) 40
      (fun x : Env × String × Command => (x.2.2.prog Demo.codec (Demo.protocol "web") x.1 x.2.1).run)
      (fun _ x tr => Demo.modest x tr)
      [(Demo.env, "web", .ps), (Demo.env, "web", .stop),
        (Demo.env, "web", .checkpoint ⟨"main", none, false, false⟩),
        (Demo.env, "web", .restore ⟨some "missing", 0, false⟩), (Demo.env, "db", .create Demo.created)]
      Demo.node).map (fun w => (w.world.record Demo.env "db").isSome) = some true := by
    decide +kernel
  obtain ⟨w, hreplay, hthere⟩ := Option.map_eq_some_iff.mp hrun
  have hhist : History (nodeMachine Demo.env) (Background Demo.env)
      (fun x : Env × String × Command => (x.2.2.prog Demo.codec (Demo.protocol "web") x.1 x.2.1).run)
      (fun _ x tr => x.2.2.Yields Demo.env "web" x.1 x.2.1 tr) Demo.node w :=
    Machine.replay_history (fun _ _ _ h => Demo.modest_yields h) .start hreplay
  exact ⟨w, hhist, hthere, migrated_terminal (by decide) Demo.node_others Demo.node_record hhist⟩

/-- A start in the foreground runs a migrated container again. -/
theorem migrated_started :
    (∀ p ∈ Demo.node.others, p.Within (HostOp.PassesBy Demo.env "web")) ∧
    (∃ st, Demo.node.world.record Demo.env "web" = some st ∧ st.is .migrated = true) ∧
    ∃ w, History (nodeMachine Demo.env) (Background Demo.env)
        (fun x : Env × String × Command => (x.2.2.prog Demo.codec (Demo.protocol "web") x.1 x.2.1).run)
        (fun _ x _ => x.2.1 = "web" ∧ x.2.2.Local Demo.env x.1) Demo.node w ∧
      ¬ Terminal Demo.env "web" Demo.node.world w.world := by
  have hrun : ((nodeMachine Demo.env).drive (fun i w o => obliging i w.world o) 40 0
      ((Command.start false 0).prog Demo.codec (Demo.protocol "web") Demo.env "web").run Demo.node).map
      (fun x => x.2.2.world.procs.map Proc.owner) = some ["web"] := by
    decide +kernel
  obtain ⟨x, hx, howner⟩ := Option.map_eq_some_iff.mp hrun
  refine ⟨Demo.node_others, Demo.node_record, x.2.2,
    .run (c := (Demo.env, "web", .start false 0)) .start (Machine.drive_exec hx).of_quiet ⟨rfl, rfl⟩,
    fun ht => ?_⟩
  obtain ⟨t, ht', hown⟩ := List.mem_map.mp (howner.symm ▸ List.mem_singleton_self "web")
  obtain ⟨t', hmem, -⟩ := ht.procs t ht' hown
  exact List.not_mem_nil hmem

end Mincontainer
