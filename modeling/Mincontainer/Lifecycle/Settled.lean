import Mincontainer.Engine.Lookup
import Mincontainer.Engine.Reconcile
import Mincontainer.Host.Oblige

set_option relaxedAutoImplicit false
set_option autoImplicit false

/-!
# Reconciliation settles a record

A reconciliation that succeeds leaves a container in no transient status, and says that it runs
only where a process of it does. Where it rewrites the record, what it writes is what the next
restore will find: *checkpointed* when that restore resolves a snapshot, *failed* when it does not.
Nothing is left for a second reconciliation to do.

Nothing else moves meanwhile: the file system and the process table change by its own calls only.

## Main definitions

* `Mincontainer.Host.Holds` — the container exists, and this is its record.
* `Mincontainer.Host.Leftover` — what a reconciliation takes for left over.
* `Mincontainer.Restore.Resolves`, `Mincontainer.Restore.Refuses` — what a restore that is told no
  snapshot makes of a record.
* `Mincontainer.Restore.Settled` — what a reconciliation leaves.

## Main results

* `Mincontainer.Restore.sweep_ok` — what a completed sweep leaves.
* `Mincontainer.Restore.reconcile_idle` — a record that is not left over is left alone.
* `Mincontainer.Restore.reconcile_settles` — the whole reconciliation.
-/

namespace Mincontainer

open Effects Files Bytes Snapshot

/-- The container exists, and this is its record. -/
def Host.Holds (h : Host) (env : Env) (id : String) (st : ContainerState) : Prop :=
  h.kind (ContainerStateDir.forId env id).root ≠ none ∧ h.record env id = some st

/-- The record says *restoring* or *checkpointing*, or that a process runs that does not. -/
def Host.Leftover (h : Host) (st : ContainerState) : Prop :=
  st.status = Status.restoring.asStr ∨ st.status = Status.checkpointing.asStr ∨
    (st.status = Status.running.asStr ∧ ∀ pid, st.pid = some pid → h.alive pid = false)

namespace Restore

variable {env : Env} {id : String} {h h' : Host} {tr : List HostSig.Event}

/-- A restore that is told no snapshot resolves one. -/
def Resolves (env : Env) (id : String) (h : Host) (st : ContainerState) : Prop :=
  ∀ opts : Options, opts.from_ = none →
    ∃ b, Reports machine (resolveSnapshot env (ContainerStateDir.forId env id) st opts).run h (.ok b)

/-- A restore that is told no snapshot finds none, and fails. -/
def Refuses (env : Env) (id : String) (h : Host) (st : ContainerState) : Prop :=
  ∀ opts : Options, opts.from_ = none →
    ∃ e, Reports machine (resolveSnapshot env (ContainerStateDir.forId env id) st opts).run h
      (.error e)

/-- What a reconciliation leaves. -/
structure Settled (env : Env) (id : String) (h : Host) (tr : List HostSig.Event) (h' : Host) :
    Prop where
  /-- No operation is pending. -/
  idle : ∀ st, h'.Holds env id st →
    st.status ≠ Status.restoring.asStr ∧ st.status ≠ Status.checkpointing.asStr
  /-- A container that is said to run has a live process. -/
  live : ∀ st, h'.Holds env id st → st.status = Status.running.asStr →
    ∃ pid, st.pid = some pid ∧ h'.alive pid = true
  /-- Unless it writes the record, the reconciliation changes nothing. -/
  kept : ¬ Truncates tr (ContainerStateDir.forId env id).stateFile → h' = h
  /-- A record that was written names no process, and its status says whether there is a snapshot;
  its other fields are the old ones. -/
  rewritten : Truncates tr (ContainerStateDir.forId env id).stateFile →
    ∃ st st' : ContainerState, h.record env id = some st ∧ h'.record env id = some st' ∧
      st'.pid = none ∧ st' = { st with pid := st'.pid, status := st'.status } ∧
      (st'.status = Status.checkpointed.asStr ↔ Resolves env id h' st') ∧
      (st'.status = Status.failed.asStr ↔ Refuses env id h' st') ∧
      (Resolves env id h' st' ∨ Refuses env id h' st')
  /-- A second reconciliation, however far it gets, changes nothing. -/
  again : ∀ {tr₂ : List HostSig.Event} {out : Option (Except RuntimeError Unit)} {h₂ : Host},
    Runs quiet (reconcile env id) h' tr₂ out h₂ → h₂ = h'

/-! ### What a restore would resolve -/

lemma resolves_or_refuses (env : Env) (id : String) (h : Host) (st : ContainerState) :
    ((h.lookup env (ContainerStateDir.forId env id) st).isSome = true ∧ Resolves env id h st) ∨
      ((h.lookup env (ContainerStateDir.forId env id) st).isSome = false ∧
        Refuses env id h st) := by
  cases hlook : h.lookup env (ContainerStateDir.forId env id) st with
  | some b =>
    refine .inl ⟨rfl, fun opts hopts => ?_⟩
    rcases @resolveSnapshot_reports env (ContainerStateDir.forId env id) st h opts hopts with ⟨b', -, hrep⟩ | ⟨hnone, -⟩
    · exact ⟨b', hrep⟩
    · rw [hlook] at hnone
      cases hnone
  | none =>
    refine .inr ⟨rfl, fun opts hopts => ?_⟩
    rcases @resolveSnapshot_reports env (ContainerStateDir.forId env id) st h opts hopts with ⟨b', hsome, -⟩ | ⟨-, hrep⟩
    · rw [hlook] at hsome
      cases hsome
    · exact hrep

/-- A restore does not both resolve a snapshot and find none. -/
lemma not_resolves_of_refuses {st : ContainerState} (hrefuses : Refuses env id h st) :
    ¬ Resolves env id h st := fun hresolves => by
  obtain ⟨e, he⟩ := hrefuses ⟨none, 0, false⟩ rfl
  obtain ⟨b, hb⟩ := hresolves ⟨none, 0, false⟩ rfl
  cases he.det hb

/-! ### The steps of a reconciliation -/

lemma isStale_reports (st : ContainerState) :
    ∃ stale, (stale = true ↔ h.Leftover st) ∧
      Reports machine (isStale st).run h (.ok stale) := by
  rw [isStale]
  by_cases hrestoring : st.status = "restoring"
  · rw [if_pos hrestoring]
    exact ⟨true, ⟨fun _ => .inl hrestoring, fun _ => rfl⟩, Reports.ret _ _⟩
  rw [if_neg hrestoring]
  by_cases hcheck : st.status = "checkpointing"
  · rw [if_pos hcheck]
    exact ⟨true, ⟨fun _ => .inr (.inl hcheck), fun _ => rfl⟩, Reports.ret _ _⟩
  rw [if_neg hcheck]
  have hleft : h.Leftover st ↔
      st.status = "running" ∧ ∀ pid, st.pid = some pid → h.alive pid = false := by
    rw [Host.Leftover, or_iff_right (show ¬ st.status = Status.restoring.asStr from hrestoring),
      or_iff_right (show ¬ st.status = Status.checkpointing.asStr from hcheck)]
    exact Iff.rfl
  by_cases hrunning : st.status = "running"
  · rw [if_pos hrunning]
    cases hpid : st.pid with
    | none =>
      refine ⟨true, ⟨fun _ => hleft.mpr ⟨hrunning, fun pid hp => ?_⟩, fun _ => rfl⟩,
        Reports.ret _ _⟩
      rw [hpid] at hp
      cases hp
    | some pid =>
      refine ⟨!h.alive pid, ?_, ?_⟩
      · rw [hleft, hpid]
        simp [hrunning]
      · change Reports machine (sys (.pidAlive pid) >>= fun live : Bool => pure !live : HostM Bool).run
          h _
        rw [sys, Fallible.run_sys_bind]
        refine Reports.call (r := h.alive pid) ?_ (fun r hr => ?_) rfl (Reports.ret _ _)
        · exact Host.enabled_pidAlive.mpr rfl
        · exact Host.enabled_pidAlive.mp hr
  · rw [if_neg hrunning]
    exact ⟨false, iff_of_false Bool.false_ne_true fun hl => hrunning (hleft.mp hl).1,
      Reports.ret _ _⟩

lemma pathExists_reports (dir : ContainerStateDir) :
    Reports machine dir.pathExists.run h (.ok (h.kind dir.root).isSome) :=
  stat_reports (Reports.ret _ _)

/-- What the sweep was told is what the lookup finds when everything has been cleared. -/
lemma clear_ok {st : ContainerState} {found : Bool}
    (hrun : Runs quiet (clear env id st) h tr (some (.ok found)) h') :
    found = (h'.lookup env (ContainerStateDir.forId env id) st).isSome := by
  obtain ⟨u₁, tr₁, tr₂, h₁, rfl, -, hrun₁⟩ := Exec.fallible_bind_ok hrun
  obtain ⟨u₂, tr₃, tr₄, h₂, rfl, -, hrun₂⟩ := Exec.fallible_bind_ok hrun₁
  obtain ⟨u₃, tr₅, tr₆, h₃, rfl, -, hrun₃⟩ := Exec.fallible_bind_ok hrun₂
  obtain ⟨rfl, hout | hout⟩ := hasSnapshot_reports.unique hrun₃
  · cases hout
  · exact Except.ok.inj (Option.some.inj hout)

/-- An update of the record changes which paths are files in no way. -/
lemma update_kinds {f : ContainerState → ContainerState} {u : Unit}
    (hrun : Runs quiet (update env id f) h tr (some (.ok u)) h') (p : Path) :
    h'.kind p = some .file ↔ h.kind p = some .file := by
  simp only [Host.kind_file_iff]
  by_cases hp : p = (ContainerStateDir.forId env id).stateFile
  · subst hp
    obtain ⟨st, hst, hst', -⟩ := update_ok (keeps_quiet _) hrun
    obtain ⟨text, hfile⟩ := Host.record_eq_some.mp hst
    obtain ⟨text', hfile'⟩ := Host.record_eq_some.mp hst'
    exact ⟨fun _ => ⟨_, hfile⟩, fun _ => ⟨_, hfile'⟩⟩
  · have hkept : h'.file p = h.file p := by
      refine Runs.file_kept (keeps_quiet _) (within_update ?_ ?_ ?_) hrun
      · exact fun o ho => HostOp.not_overwrites_of_reads ho p
      · exact hp
      · exact fun _ => hp
    rw [hkept]

/-- **What a completed sweep leaves.** The old record without a process, under the status that says
whether the lookup finds a snapshot now.

**Proof sketch.** What was cleared before the lookup stays cleared, and the write of the record
turns no path into a file or out of one (`update_kinds`). -/
lemma sweep_ok {st : ContainerState} {u : Unit} (hst : h.record env id = some st)
    (hrun : Runs quiet (sweep env id st) h tr (some (.ok u)) h') :
    Truncates tr (ContainerStateDir.forId env id).stateFile ∧
      h'.record env id = some { st with
        pid := none
        status := if (h'.lookup env (ContainerStateDir.forId env id) st).isSome then
          Status.checkpointed.asStr else Status.failed.asStr } := by
  obtain ⟨found, tr₁, tr₂, g, rfl, h₁, hrun₁⟩ := Exec.fallible_bind_ok hrun
  have hfound := clear_ok h₁
  have hsame : g.lookup env (ContainerStateDir.forId env id) st =
      h'.lookup env (ContainerStateDir.forId env id) st :=
    Host.lookup_congr fun p => (update_kinds hrun₁ p).symm
  have hinherit : ∀ st', g.record env id = some st' → h.record env id = some st' := by
    refine Runs.record_inherited (keeps_quiet _) (within_clear (fun o ho => ?_) (fun _ hp => hp)
      (fun _ hp => hp) (fun _ hp => hp) (fun hp => hp) st) h₁
    cases o <;> first | exact fun hp => hp | cases ho
  cases update_inv (keeps_quiet _) hrun₁ with
  | untouched hout => exact absurd rfl hout
  | torn _ hout => exact absurd rfl hout
  | done hg _ ht _ hrec =>
    obtain rfl := Option.some.inj ((hinherit _ hg).symm.trans hst)
    refine ⟨Truncates.append_iff.mpr (.inr ht), ?_⟩
    rw [hrec, hfound, hsame]

/-- **The decision.** Undisturbed, a reconciliation changes nothing, unless it finds a record that
is left over; then it sweeps. -/
lemma reconcile_decides {out : Option (Except RuntimeError Unit)}
    (hrun : Runs quiet (reconcile env id) h tr out h') :
    (h' = h ∧ (∀ e ∈ tr, e.1.reads = true) ∧
        ∀ u, out = some (.ok u) → ∀ st, h.Holds env id st → ¬ h.Leftover st) ∨
      ∃ (st : ContainerState) (tr₁ tr₂ : List HostSig.Event), tr = tr₁ ++ tr₂ ∧
        h.Holds env id st ∧ h.Leftover st ∧ Runs quiet (sweep env id st) h tr₂ out h' := by
  have hcons : ∀ {tr₁ tr₂ : List HostSig.Event}, (∀ e ∈ tr₁, e.1.reads = true) →
      (∀ e ∈ tr₂, e.1.reads = true) → ∀ e ∈ tr₁ ++ tr₂, e.1.reads = true := fun h₁ h₂ e he =>
    (List.mem_append.mp he).elim (h₁ e) (h₂ e)
  have hexists := pathExists_reports (h := h) (ContainerStateDir.forId env id)
  rcases Exec.fallible_bind_inv hrun with ⟨rfl, h₁⟩ | ⟨e, rfl, h₁⟩ | ⟨found, tr₁, tr₂, g₁, rfl, h₁, hrun₁⟩
  · exact .inl ⟨(hexists.unique h₁).1, Exec.mem_within (pathExists_reads _) h₁,
      fun u hu => by cases hu⟩
  · exact .inl ⟨(hexists.unique h₁).1, Exec.mem_within (pathExists_reads _) h₁,
      fun u hu => by cases hu⟩
  have hreads₁ := Exec.mem_within (pathExists_reads _) h₁
  obtain ⟨rfl, hfound | hfound⟩ := hexists.unique h₁
  · cases hfound
  obtain rfl := Except.ok.inj (Option.some.inj hfound)
  split at hrun₁
  · rename_i hnone
    obtain ⟨rfl, hR, -⟩ := Exec.ret_inv hrun₁
    refine .inl ⟨(reflTransGen_quiet.mp hR).symm, hcons hreads₁ (List.forall_mem_nil _), ?_⟩
    rintro u - st ⟨hdir, -⟩
    exact absurd (by simpa using hnone) hdir
  rename_i hsome
  have hdir : g₁.kind (ContainerStateDir.forId env id).root ≠ none :=
    by simpa using hsome
  have hload : ∀ {tr₃ out₃ g₂}, Runs quiet (ContainerStateDir.forId env id).loadState g₁ tr₃ out₃ g₂ →
      g₂ = g₁ ∧ ∀ e ∈ tr₃, e.1.reads = true := fun hrun =>
    ⟨(reflTransGen_quiet.mp (Runs.of_reads (loadState_reads _) hrun)).symm,
      Exec.mem_within (loadState_reads _) hrun⟩
  rcases Exec.fallible_bind_inv hrun₁ with ⟨rfl, h₂⟩ | ⟨e, rfl, h₂⟩ | ⟨st, tr₃, tr₄, g₂, rfl, h₂, hrun₂⟩
  · obtain ⟨rfl, hreads₂⟩ := hload h₂
    exact .inl ⟨rfl, hcons hreads₁ hreads₂, fun u hu => by cases hu⟩
  · obtain ⟨rfl, hreads₂⟩ := hload h₂
    exact .inl ⟨rfl, hcons hreads₁ hreads₂, fun u hu => by cases hu⟩
  have hst := loadState_ok (keeps_quiet _) h₂
  obtain ⟨rfl, hreads₂⟩ := hload h₂
  obtain ⟨stale, hstale, hreports⟩ := isStale_reports (h := g₂) st
  rcases Exec.fallible_bind_inv hrun₂ with ⟨rfl, h₃⟩ | ⟨e, rfl, h₃⟩ | ⟨stale', tr₅, tr₆, g₃, rfl, h₃, hrun₃⟩
  · exact .inl ⟨(hreports.unique h₃).1, hcons hreads₁ (hcons hreads₂
      (Exec.mem_within (isStale_reads _) h₃)), fun u hu => by cases hu⟩
  · exact .inl ⟨(hreports.unique h₃).1, hcons hreads₁ (hcons hreads₂
      (Exec.mem_within (isStale_reads _) h₃)), fun u hu => by cases hu⟩
  have hreads₃ := Exec.mem_within (isStale_reads _) h₃
  obtain ⟨rfl, hres | hres⟩ := hreports.unique h₃
  · cases hres
  obtain rfl := Except.ok.inj (Option.some.inj hres)
  split at hrun₃
  · rename_i hfresh
    obtain ⟨rfl, hR, -⟩ := Exec.ret_inv hrun₃
    refine .inl ⟨(reflTransGen_quiet.mp hR).symm, hcons hreads₁ (hcons hreads₂ (hcons hreads₃
      (List.forall_mem_nil _))), ?_⟩
    rintro u - st' ⟨-, hst'⟩ hleft
    obtain rfl := Option.some.inj (hst.symm.trans hst')
    rw [hstale.mpr hleft] at hfresh
    cases hfresh
  · rename_i hstaled
    refine .inr ⟨st, tr₁ ++ (tr₃ ++ tr₅), tr₆, by simp, ⟨hdir, hst⟩, hstale.mp ?_, hrun₃⟩
    simpa using hstaled

/-- **A record that is not left over is left alone.** -/
lemma reconcile_idle (hidle : ∀ st, h.Holds env id st → ¬ h.Leftover st)
    {out : Option (Except RuntimeError Unit)}
    (hrun : Runs quiet (reconcile env id) h tr out h') : h' = h := by
  rcases reconcile_decides hrun with ⟨rfl, -, -⟩ | ⟨st, -, -, -, hst, hleft, -⟩
  · rfl
  · exact absurd hleft (hidle st hst)

/-- A record that is not left over is neither pending nor that of a dead process. -/
lemma idle_of_not_leftover {st : ContainerState} (hidle : ¬ h.Leftover st) :
    (st.status ≠ Status.restoring.asStr ∧ st.status ≠ Status.checkpointing.asStr) ∧
      (st.status = Status.running.asStr → ∃ pid, st.pid = some pid ∧ h.alive pid = true) := by
  refine ⟨⟨fun hs => hidle (.inl hs), fun hs => hidle (.inr (.inl hs))⟩, fun hs => ?_⟩
  by_contra hdead
  refine hidle (.inr (.inr ⟨hs, fun pid hpid => ?_⟩))
  rw [← Bool.not_eq_true]
  exact fun hlive => hdead ⟨pid, hpid, hlive⟩

/-- What a sweep writes is not left over. -/
lemma not_leftover_of_swept {st : ContainerState} (hswept : Swept st) : ¬ h.Leftover st := by
  rintro (hs | hs | ⟨hs, -⟩) <;>
  · obtain ⟨-, hstatus | hstatus⟩ := hswept <;>
    · rw [hstatus] at hs
      exact absurd hs (by decide)

/-- **Reconciliation settles.** Whatever the record, the configuration, the files and the processes
were, a reconciliation that succeeds leaves a settled container.

**Proof sketch.** Either the record was not left over, and then nothing changed; or the sweep
wrote a record that is not (`sweep_ok`). A record that is not left over is left alone by the next
reconciliation (`reconcile_idle`). -/
theorem reconcile_settles (hrun : Runs quiet (reconcile env id) h tr (some (.ok ())) h') :
    Settled env id h tr h' := by
  rcases reconcile_decides hrun with ⟨rfl, hreads, hidle⟩ | ⟨st, tr₁, tr₂, rfl, ⟨-, hst⟩, -, hsweep⟩
  · have hidle := hidle () rfl
    refine ⟨fun st hst => (idle_of_not_leftover (hidle st hst)).1,
      fun st hst => (idle_of_not_leftover (hidle st hst)).2, fun _ => rfl, fun ht => ?_,
      fun hrun₂ => reconcile_idle hidle hrun₂⟩
    cases hreads _ ht
  · obtain ⟨ht, hrec⟩ := sweep_ok hst hsweep
    have hidle : ∀ st', h'.Holds env id st' → ¬ h'.Leftover st' := by
      rintro st' ⟨-, hst'⟩
      obtain rfl := Option.some.inj (hrec.symm.trans hst')
      refine not_leftover_of_swept ⟨rfl, ?_⟩
      dsimp only
      split
      · exact .inl rfl
      · exact .inr rfl
    have ht' : Truncates (tr₁ ++ tr₂) _ := Truncates.append_iff.mpr (.inr ht)
    refine ⟨fun st hst => (idle_of_not_leftover (hidle st hst)).1,
      fun st hst => (idle_of_not_leftover (hidle st hst)).2, fun hno => absurd ht' hno, fun _ => ?_,
      fun hrun₂ => reconcile_idle hidle hrun₂⟩
    refine ⟨st, _, hst, hrec, rfl, rfl, ?_⟩
    -- the lookup depends on the snapshot of the record only, which the sweep keeps
    rcases resolves_or_refuses env id h' { st with
      pid := none
      status := if (h'.lookup env (ContainerStateDir.forId env id) st).isSome then
        Status.checkpointed.asStr else Status.failed.asStr } with ⟨hlook, hres⟩ | ⟨hlook, href⟩
    · have hlook' : (h'.lookup env (ContainerStateDir.forId env id) st).isSome = true := hlook
      simp only [hlook', if_true] at hres ⊢
      exact ⟨iff_of_true trivial hres, iff_of_false (by decide)
        fun href => not_resolves_of_refuses href hres, .inl hres⟩
    · have hlook' : (h'.lookup env (ContainerStateDir.forId env id) st).isSome = false := hlook
      simp only [hlook', Bool.false_eq_true, if_false] at href ⊢
      exact ⟨iff_of_false (by decide) (not_resolves_of_refuses href), iff_of_true trivial href,
        .inr href⟩

end Restore

/-! ### An interrupted restore -/

namespace Demo

/-- A restore of the container was killed after its engine had brought process 42 up; a snapshot is
still there. -/
def interrupted : Host :=
  host { running with status := "restoring" } [(place ["snapshots", "latest.mcsnap"], .bytes [])]
    [⟨42, "web", none⟩]

end Demo

theorem Restore.reconcile_settles_demo :
    ∃ tr h', Runs quiet (Restore.reconcile Demo.env "web") Demo.interrupted tr (some (.ok ())) h' ∧
      h'.record Demo.env "web" = some { Demo.running with pid := none, status := "checkpointed" } ∧
      Demo.interrupted.alive 42 = true ∧ h'.alive 42 = false ∧
      Restore.Settled Demo.env "web" Demo.interrupted tr h' := by
  have hdrive : (machine.drive obliging 30 0 (Restore.reconcile Demo.env "web").run
      Demo.interrupted).map (fun x => (x.2.1.map Except.isOk,
        x.2.2.record Demo.env "web", x.2.2.alive 42)) =
      some (some true, some { Demo.running with pid := none, status := "checkpointed" }, false) := by
    decide +kernel
  obtain ⟨⟨tr, out, h'⟩, hdrive, hfields⟩ := Option.map_eq_some_iff.mp hdrive
  have hrun := Machine.drive_exec hdrive
  obtain ⟨hout, hrest⟩ := Prod.mk.inj hfields
  obtain ⟨hrec, hdead⟩ := Prod.mk.inj hrest
  obtain ⟨res, rfl, hok⟩ := Option.map_eq_some_iff.mp hout
  cases res with
  | error e => cases hok
  | ok u => exact ⟨tr, h', hrun, hrec, by decide, hdead, Restore.reconcile_settles hrun⟩

end Mincontainer
