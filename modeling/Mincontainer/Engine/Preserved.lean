import Mincontainer.Engine.RestoreErrors
import Mincontainer.Engine.RestoreFootprint

set_option relaxedAutoImplicit false
set_option autoImplicit false

/-!
# What a restore leaves alone

Between the sweep and the mark a restore looks: it chooses, opens, verifies and unpacks the snapshot,
and checks the root file system. All it writes there lies below the staging directory, whatever the
snapshot says. And over the whole of it and its rollback, no call names a file that lies apart from what
it unpacks and rebuilds; whether such a file is kept depends on where the paths lead.

## Main definitions

* `Mincontainer.Restore.vet` — everything between the sweep and the mark.
* `Mincontainer.HostOp.reaches` — the files a call can change, those of a cgroup leaf among them.
* `Mincontainer.Restore.Aside` — a path that is none of those a restore writes.
* `Mincontainer.Chosen` — the manifest of a snapshot that was read.

## Main results

* `Mincontainer.Restore.refused_changes_nothing` — what is refused has changed nothing.
* `Mincontainer.Restore.restore_spares` — a restore names no path aside.
-/

namespace Mincontainer

open Effects Files Bytes Snapshot

namespace Restore

variable {R : Host → Host → Prop} {env : Env} {codec : Codec Manifest} {id : String}
  {opts : Options} {h h' : Host} {tr : List HostSig.Event}

/-! ### Before the mark -/

/-- Everything between the sweep and the mark: choose, examine and unpack the snapshot, and check
that the root file system is there. -/
def vet (env : Env) (codec : Codec Manifest) (id : String) (opts : Options) :
    HostM (PathBuf × SnapshotReader) := do
  let dir := ContainerStateDir.forId env id
  let st ← refuseRunning env id
  let path ← resolveSnapshot env dir st opts
  let reader ← examine env codec path
  unpack reader dir.stagingDir
  checkRootfs env reader.manifest.config
  pure (path, reader)

/-- A restore sweeps, vets and proceeds. -/
lemma restore_eq : restore env codec id opts =
    reconcile env id >>= fun _ => vet env codec id opts >>= proceed env id opts := by
  simp only [restore, select, vet, proceed, bind_assoc, pure_bind]

lemma within_vet : (vet env codec id opts).run.Within
    (StaysBelow (ContainerStateDir.forId env id).stagingDir) := by
  have hreads : ∀ o : HostOp, o.reads = true →
      StaysBelow (ContainerStateDir.forId env id).stagingDir o := fun o ho =>
    HostOp.stays_of_reads ho
  refine Fallible.within_bind (refuseRunning_reads.mono hreads) fun st => ?_
  refine Fallible.within_bind ((resolveSnapshot_reads _ _ _).mono hreads) fun path => ?_
  refine Fallible.within_bind ((examine_reads _ _).mono hreads) fun reader => ?_
  refine Fallible.within_bind (within_unpack fun _ ho => ho) fun _ => ?_
  exact Fallible.within_bind ((checkRootfs_reads _).mono hreads) fun _ => trivial

/-- Nothing happened but in the staging directory: neither processes nor links nor cgroups were
touched, and where the environment left a file outside of it alone, it is as it was. -/
structure OnlyStaging (R : Host → Host → Prop) (staging : Path) (h : Host)
    (tr : List HostSig.Event) (h' : Host) : Prop where
  /-- No call creates, signals or removes a process, a cgroup or a link. -/
  plain : ∀ e ∈ tr, e.1.plain = true
  /-- A call above the staging directory can only make a missing directory. -/
  calls : ∀ e ∈ tr, ∀ q, e.1.overwrites q → staging <+: q
  files : ∀ q, ¬ staging <+: q → Keeps R q → h'.file q = h.file q
  nodes : (∀ a b, R a b → b.fs = a.fs) → ∀ q, ¬ staging <+: q → h'.fs.get q = h.fs.get q ∨
    (q <+: staging ∧ h.fs.get q = none ∧ h'.fs.get q = some .dir)

/-- A run of file calls that stays below the staging directory. -/
lemma OnlyStaging.of_within {α : Type} {x : HostM α} {out : Option (Except RuntimeError α)}
    {staging : Path} (hx : x.run.Within (StaysBelow staging)) (hrun : Runs R x h tr out h') :
    OnlyStaging R staging h tr h' where
  plain e he := (Exec.mem_within hx hrun e he).plain
  calls e he := (Exec.mem_within hx hrun e he).overwrites
  files q hq hk := hrun.file_kept hk
    (hx.mono fun (o : HostOp) ho (hover : o.overwrites q) => hq (ho.overwrites q hover))
  nodes hR q hq := by
    refine Exec.rel (K := fun a b => b.fs.get q = a.fs.get q ∨
      (q <+: staging ∧ a.fs.get q = none ∧ b.fs.get q = some .dir)) (fun _ => .inl rfl) ?_
      (fun w o r ho _ => ?_) (fun a b hab => .inl (by rw [hR a b hab])) hx hrun
    · rintro a b c (hab | ⟨hpre, hnone, hdir⟩) (hbc | ⟨hpre', hnone', hdir'⟩)
      · exact .inl (hbc.trans hab)
      · exact .inr ⟨hpre', hab ▸ hnone', hdir'⟩
      · exact .inr ⟨hpre, hnone, hbc.trans hdir⟩
      · rw [hdir] at hnone'
        cases hnone'
    · by_cases htouch : o.touches q
      · have habove : q <+: staging := (ho.touches q htouch).resolve_right hq
        exact (w.next_get_of_not_overwrites (fun hover => hq (ho.overwrites q hover)) r).imp_right
          fun hnew => ⟨habove, hnew⟩
      · exact .inl (w.next_get htouch r)

/-- What lies beside the staging directory does not lie below it. -/
lemma not_below_staging {dir : ContainerStateDir} {q : Path} (name : String)
    (hname : name ≠ "staging") (hq : dir.root ++ [name] <+: q) : ¬ dir.stagingDir <+: q := by
  intro hs
  obtain ⟨t, rfl⟩ := hq
  obtain ⟨t', ht'⟩ := hs
  rw [ContainerStateDir.stagingDir, List.append_assoc, List.append_assoc,
    List.append_cancel_left_eq] at ht'
  exact hname (List.cons.inj ht').1.symm

/-- **Verify everything, then build.** A restore that fails does so in the sweep, or while it vets
the snapshot, or from the mark on. In the second case, from the end of the sweep on no process, cgroup
or link was touched, and nothing was written outside the staging directory; in particular the record,
the configuration, the snapshots and the logs of the container are as they were. -/
theorem refused_changes_nothing {e : RuntimeError}
    (hrun : Runs R (restore env codec id opts) h tr (some (.error e)) h') :
    let dir := ContainerStateDir.forId env id
    Runs R (reconcile env id) h tr (some (.error e)) h' ∨
    (∃ tr₁ tr₂ h₁, tr = tr₁ ++ tr₂ ∧ Runs R (reconcile env id) h tr₁ (some (.ok ())) h₁ ∧
      Runs R (vet env codec id opts) h₁ tr₂ (some (.error e)) h' ∧
      OnlyStaging R dir.stagingDir h₁ tr₂ h' ∧
      ∀ q, (q = dir.stateFile ∨ q = dir.configFile ∨ dir.snapshotsDir <+: q ∨ dir.ioDir <+: q) →
        Keeps R q → h'.file q = h₁.file q) ∨
    ∃ tr₁ tr₂ tr₃ h₁ h₂ x, tr = tr₁ ++ (tr₂ ++ tr₃) ∧
      Runs R (reconcile env id) h tr₁ (some (.ok ())) h₁ ∧
      Runs R (vet env codec id opts) h₁ tr₂ (some (.ok x)) h₂ ∧
      Runs R (proceed env id opts x) h₂ tr₃ (some (.error e)) h' := by
  rw [restore_eq] at hrun
  rcases Exec.fallible_bind_inv hrun with ⟨h, -⟩ | ⟨e', he, hrec⟩ |
    ⟨u, tr₁, tr₂, h₁, rfl, hrec, hrun₁⟩
  · cases h
  · cases he
    exact .inl hrec
  rcases Exec.fallible_bind_inv hrun₁ with ⟨h, -⟩ | ⟨e', he, hadmit⟩ |
    ⟨x, tr₃, tr₄, h₂, rfl, hadmit, hrun₂⟩
  · cases h
  · cases he
    have honly := OnlyStaging.of_within within_vet hadmit
    refine .inr (.inl ⟨tr₁, tr₂, h₁, rfl, hrec, hadmit, honly, fun q hq hk => honly.files q ?_ hk⟩)
    rcases hq with rfl | rfl | hq | hq
    · exact not_below_staging "state.json" (by decide) List.prefix_rfl
    · exact not_below_staging "config.json" (by decide) List.prefix_rfl
    · exact not_below_staging "snapshots" (by decide) hq
    · exact not_below_staging "io" (by decide) hq
  · exact .inr (.inr ⟨tr₁, tr₃, tr₄, h₁, h₂, x, rfl, hrec, hadmit, hrun₂⟩)

/-- A damaged snapshot is refused while it is vetted. -/
theorem refused_changes_nothing_demo :
    let host := Demo.host Demo.frozen [(Demo.latest.path, .bytes [0x4D, 0x43])] []
    ∃ tr₁ tr₂ e h₁ h', Runs quiet (restore Demo.env Demo.codec "web" Demo.restoreOptions) host (tr₁ ++ tr₂)
        (some (.error e)) h' ∧
      Runs quiet (reconcile Demo.env "web") host tr₁ (some (.ok ())) h₁ ∧
      Runs quiet (vet Demo.env Demo.codec "web" Demo.restoreOptions) h₁ tr₂ (some (.error e)) h' ∧
      OnlyStaging quiet Demo.dir.stagingDir h₁ tr₂ h' ∧
      ∀ q, (q = Demo.dir.stateFile ∨ q = Demo.dir.configFile ∨ Demo.dir.snapshotsDir <+: q ∨
        Demo.dir.ioDir <+: q) → h'.file q = h₁.file q := by
  intro host
  have hdrive : ((machine.drive obliging 40 0 (reconcile Demo.env "web").run host).bind fun x =>
      (machine.drive obliging 40 0 (vet Demo.env Demo.codec "web" Demo.restoreOptions).run x.2.2).map
        fun y => (x.2.1.map Except.isOk, y.2.1.map Except.isOk)) = some (some true, some false) := by
    decide +kernel
  obtain ⟨⟨t₁, out, g₁⟩, hx, hrest⟩ := Option.bind_eq_some_iff.mp hdrive
  obtain ⟨⟨t₂, out', h'⟩, hy, hall⟩ := Option.map_eq_some_iff.mp hrest
  obtain ⟨hout, hout'⟩ := Prod.mk.inj hall
  obtain ⟨res, rfl, hres⟩ := Option.map_eq_some_iff.mp hout
  obtain ⟨res', rfl, hres'⟩ := Option.map_eq_some_iff.mp hout'
  rcases res with m | u
  · cases hres
  rcases res' with e | x
  swap
  · cases hres'
  have hsweep : Runs quiet (reconcile Demo.env "web") host t₁ (some (.ok ())) g₁ := Machine.drive_exec hx
  have hvet : Runs quiet (vet Demo.env Demo.codec "web" Demo.restoreOptions) g₁ t₂ (some (.error e)) h' :=
    Machine.drive_exec hy
  have hrun : Runs quiet (restore Demo.env Demo.codec "web" Demo.restoreOptions) host (t₁ ++ t₂)
      (some (.error e)) h' := by
    rw [restore_eq]
    exact Exec.fallible_bind hsweep (Exec.fallible_bind_error hvet)
  rcases refused_changes_nothing hrun with hrec | ⟨tr₁, tr₂, h₁, htr, hrec, hvet', honly, hfiles⟩ |
    ⟨tr₁, tr₂, tr₃, h₁, h₂, y, htr, hrec, hvet', -⟩
  · obtain ⟨-, -, hres⟩ := Exec.returned_eq hsweep hrec (List.append_nil _).symm
    cases hres
  · rw [htr] at hrun
    exact ⟨tr₁, tr₂, e, h₁, h', hrun, hrec, hvet', honly, fun q hq => hfiles q hq (keeps_quiet _)⟩
  · obtain ⟨-, htr', -⟩ := Exec.returned_eq hsweep hrec htr
    rw [← List.append_nil t₂] at htr'
    obtain ⟨-, -, hres⟩ := Exec.returned_eq hvet hvet' htr'
    cases hres

end Restore

/-- The snapshot that was read at this path has this manifest. -/
def Chosen (codec : Codec Manifest) (tr : List HostSig.Event) (p : Path) (m : Manifest) : Prop :=
  ∃ c reader, ⟨.readFile p, (.ok c : Except String Content)⟩ ∈ tr ∧
    SnapshotReader.openBytes codec p (display p) c.raw = .ok reader ∧ reader.manifest = m

lemma chosen_mono {codec : Codec Manifest} {p : Path} {m : Manifest} {tr tr' : List HostSig.Event}
    (hsub : tr ⊆ tr') (hc : Chosen codec tr p m) : Chosen codec tr' p m := by
  obtain ⟨c, reader, hmem, hopen, hm⟩ := hc
  exact ⟨c, reader, hsub hmem, hopen, hm⟩

/-- Opening a snapshot reads it. -/
lemma open_chosen {W : Type} {M : Machine HostSig W} {R : W → W → Prop} {codec : Codec Manifest}
    {w w' : W} {tr : List HostSig.Event} {p : Path} {reader : SnapshotReader}
    (hrun : Exec M R (SnapshotReader.open codec p).run w tr (some (.ok reader)) w') :
    Chosen codec tr p reader.manifest := by
  obtain ⟨g, r, tr', -, -, rfl, hrun₁⟩ := Exec.call_some_inv hrun
  rcases r with e | c
  · obtain ⟨-, -, hres⟩ := Exec.ret_some_inv hrun₁
    cases hres
  · change Exec M R (ofExcept (SnapshotReader.openBytes codec p (display p) c.raw)).run _ _ _ _ at hrun₁
    obtain ⟨rfl, hreader⟩ := ofExcept_ok hrun₁
    exact ⟨c, reader, List.mem_singleton.mpr rfl, hreader, rfl⟩

/-! ### What a call reaches -/

/-- The files that a call can change, those of a cgroup leaf among them; a directory that is removed
is none. -/
def HostOp.reaches : HostOp → Path → Prop
  | .removeDir _, _ => False
  | .cgroupWrite leaf file _, q => q = leaf ++ [file]
  | .cgroupAdd leaf _, q => q = leaf ++ ["cgroup.procs"]
  | .delegate, q => Cgroup.cgroupRoot <+: q
  | o, q => o.overwrites q

lemma HostOp.not_reaches_of_reads {o : HostOp} {q : Path} (ho : o.reads = true) : ¬ o.reaches q := by
  cases o <;> first | exact fun h => h.elim | cases ho

/-- A file call reaches what it overwrites at most. -/
lemma HostOp.overwrites_of_reaches {o : HostOp} {q : Path} (hplain : o.plain = true)
    (h : o.reaches q) : o.overwrites q := by
  cases o <;> first | exact h | exact h.elim | cases hplain

/-- A file that is not reached is the same afterwards. -/
lemma Host.next_file_of_not_reaches {h : Host} {o : HostOp} {q : Path} {r : o.Reply}
    (ho : ¬ o.reaches q) (hr : h.enabled o r = true) : (h.next o r).file q = h.file q := by
  cases o with
  | removeDir p => exact Host.next_file_removeDir (Host.enabled_removeDir.mp hr)
  | cgroupWrite leaf file value => rfl
  | delegate => rfl
  | cgroupAdd leaf pid =>
    exact h.next_file (o := .cgroupAdd leaf pid) (fun hq => hq.elim) r
  | _ =>
    refine h.next_file (q := q) ?_ r
    exact ho

/-- A run that does not reach a file keeps it. -/
lemma Runs.file_kept_of_not_reaches {R : Host → Host → Prop} {α : Type} {x : HostM α}
    {h h' : Host} {tr : List HostSig.Event} {out : Option (Except RuntimeError α)} {p : Path}
    (hk : Keeps R p) (hrun : Runs R x h tr out h') (htr : ∀ e ∈ tr, ¬ e.1.reaches p) :
    h'.file p = h.file p :=
  Exec.rel_of_good (K := fun a b => Host.file b p = Host.file a p) (fun _ => rfl)
    (fun h₁ h₂ => h₂.trans h₁) (fun _ _ _ _ ho hr => Host.next_file_of_not_reaches ho hr) hk
    (Program.within_true _) hrun htr

namespace Restore

variable {R : Host → Host → Prop} {env : Env} {codec : Codec Manifest} {id : String}
  {opts : Options} {h h' : Host} {tr : List HostSig.Event} {p : Path}

/-- The path is none that a restore of the container writes: it lies outside of its staging directory
and of the cgroup hierarchy, and is neither one of its logs nor its record. -/
structure Aside (env : Env) (id : String) (p : Path) : Prop where
  staging : ¬ (ContainerStateDir.forId env id).stagingDir <+: p
  io : ∀ name ∈ ["stdout", "stderr"], p ≠ (ContainerStateDir.forId env id).ioDir ++ [name]
  state : p ≠ (ContainerStateDir.forId env id).stateFile
  cgroup : ¬ Cgroup.cgroupRoot <+: p

/-- Cleaning up does not reach such a path. -/
lemma Aside.sweep (hp : Aside env id p) : AllowsSweep (fun o : HostOp => ¬ o.reaches p) env id where
  reads _ := HostOp.not_reaches_of_reads
  kill _ := fun h => h
  leaf _ := fun h => h
  link _ := fun h => h
  staging := hp.staging
  create := hp.state
  put _ := hp.state

/-- Nor does putting the logs back. -/
lemma Aside.log (hp : Aside env id p) (name : String) (hname : name ∈ ["stdout", "stderr"]) :
    AllowsFile (fun o : HostOp => ¬ o.reaches p) ((ContainerStateDir.forId env id).ioDir ++ [name]) :=
  ⟨hp.io name hname, fun _ => hp.io name hname, hp.io name hname⟩

/-- The files of a leaf with a plain name lie in the cgroup hierarchy. -/
lemma Aside.leaf (hp : Aside env id p) {n : String} (hn : IsName n) (file : String) :
    p ≠ (Cgroup.open n).path ++ [file] := by
  rintro rfl
  refine hp.cgroup ?_
  rw [Cgroup.open, resolve_of_isName hn, List.append_assoc]
  exact List.prefix_append _ _

/-- When the configuration names its leaf plainly, nothing that follows the examination of the snapshot
reaches a path aside. -/
lemma Aside.builds (hp : Aside env id p) {index : UInt8} {cfg : ContainerConfig} (hn : IsName cfg.id) :
    Builds (fun o : HostOp => ¬ o.reaches p) env id index cfg where
  reads _ := HostOp.not_reaches_of_reads
  kill _ := fun h => h
  extract := StaysBelow.extract fun o ho hreach =>
    hp.staging (ho.overwrites p (HostOp.overwrites_of_reaches ho.plain hreach))
  staging := hp.staging
  create := hp.state
  put _ := hp.state
  io := fun h => h
  log := hp.log
  mount _ _ := fun h => h
  delegate := hp.cgroup
  leaf := fun h => h
  limit file _ := hp.leaf hn file
  join _ := hp.leaf hn "cgroup.procs"
  drop := fun h => h
  engine o ho h := hp.staging (by rw [show p = _ from h, ho]; exact List.prefix_append _ _)
  setup _ _ := Network.within_setup (fun _ h => h) fun h => h

/-- The choice of the snapshot does not reach a path aside. -/
lemma within_pick (hp : Aside env id p) :
    (pick env id opts).run.Within fun o : HostOp => ¬ o.reaches p := by
  have hreads : ∀ o : HostOp, o.reads = true → ¬ o.reaches p := fun _ => HostOp.not_reaches_of_reads
  refine Fallible.within_bind (within_reconcile hp.sweep) fun _ => ?_
  refine Fallible.within_bind (refuseRunning_reads.mono hreads) fun st => ?_
  exact (resolveSnapshot_reads _ _ _).mono hreads

/-- What is opened at a path is what the file there holds. -/
lemma examine_ok {path : PathBuf} {c : Content} {reader : SnapshotReader} (hk : Keeps R path.path)
    (hc : h.file path.path = some c)
    (hrun : Runs R (examine env codec path) h tr (some (.ok reader)) h') :
    SnapshotReader.openBytes codec path.path (display path.path) c.raw = .ok reader := by
  obtain ⟨r, tr₁, tr₂, h₁, rfl, hopen, hrun₁⟩ := Exec.fallible_bind_ok hrun
  obtain ⟨u, tr₃, tr₄, h₂, rfl, -, hrun₂⟩ := Exec.fallible_bind_ok hrun₁
  obtain ⟨u', tr₅, tr₆, h₃, rfl, -, hrun₃⟩ := Exec.fallible_bind_ok hrun₂
  obtain rfl := Except.ok.inj (Exec.ret_some_inv hrun₃).2.2
  obtain ⟨reply, tr₇, tr₈, h₄, rfl, hread, hopen₁⟩ := Exec.fallible_bind_ok hopen
  obtain ⟨c', tr₉, tr₁₀, h₅, rfl, hor, hbytes⟩ := Exec.fallible_bind_ok hopen₁
  obtain rfl : c = c' := Option.some.inj (hc.symm.trans (readFile_ok hk (Exec.bind hread hor)))
  exact (ofExcept_ok hbytes).2

section

variable {W : Type} {M : Machine HostSig W} {R : W → W → Prop} {env : Env} {codec : Codec Manifest}
  {id : String} {opts : Options} {w w' : W} {tr : List HostSig.Event} {p : Path}

/-- What was examined was read. -/
lemma examine_chosen {path : PathBuf} {reader : SnapshotReader}
    (hrun : Exec M R (examine env codec path).run w tr (some (.ok reader)) w') :
    Chosen codec tr path.path reader.manifest := by
  obtain ⟨r, tr₁, tr₂, w₁, rfl, hopen, hrun₁⟩ := Exec.fallible_bind_ok hrun
  obtain ⟨u, tr₃, tr₄, w₂, rfl, -, hrun₂⟩ := Exec.fallible_bind_ok hrun₁
  obtain ⟨u', tr₅, tr₆, w₃, rfl, -, hrun₃⟩ := Exec.fallible_bind_ok hrun₂
  obtain rfl := Except.ok.inj (Exec.ret_some_inv hrun₃).2.2
  exact chosen_mono (List.subset_append_left _ _) (open_chosen hopen)

/-- **What a restore names.** Let the configuration in each snapshot that was read name its leaf plainly.
Then on whatever machine a restore runs, and wherever it is cut, no call reaches a path aside.

**Proof sketch.** The calls before the examination clean up; the examination reads; those after it
write below the staging directory, the two logs, the record, and the leaf, whose place is known from the
snapshot. -/
lemma restore_spares {out : Option (Except RuntimeError Report)} (hp : Aside env id p)
    (hid : ∀ q m, Chosen codec tr q m → IsName m.config.id)
    (hrun : Exec M R (restore env codec id opts).run w tr out w') : ∀ e ∈ tr, ¬ e.1.reaches p := by
  rw [restore_eq_pick] at hrun
  rcases Exec.fallible_bind_inv hrun with ⟨-, hpicked⟩ | ⟨e, -, hpicked⟩ |
    ⟨path, tr₀, tr₁, w₁, rfl, hpicked, hrun₁⟩
  · exact Exec.mem_within (within_pick hp) hpicked
  · exact Exec.mem_within (within_pick hp) hpicked
  have hreads : (examine env codec path).run.Within fun o : HostOp => ¬ o.reaches p :=
    (examine_reads codec path).mono fun o ho => HostOp.not_reaches_of_reads ho
  refine List.forall_mem_append.mpr ⟨Exec.mem_within (within_pick hp) hpicked, ?_⟩
  rcases Exec.fallible_bind_inv hrun₁ with ⟨-, hexam⟩ | ⟨e, -, hexam⟩ |
    ⟨reader, tr₂, tr₃, w₂, rfl, hexam, hrun₂⟩
  · exact Exec.mem_within hreads hexam
  · exact Exec.mem_within hreads hexam
  · have hchosen : Chosen codec (tr₀ ++ (tr₂ ++ tr₃)) path.path reader.manifest :=
      chosen_mono (fun e he => by simp [he]) (examine_chosen hexam)
    refine List.forall_mem_append.mpr ⟨Exec.mem_within hreads hexam, ?_⟩
    exact Exec.mem_within (within_restoreFrom (hp.builds (hid _ _ hchosen))) hrun₂

end

end Restore

end Mincontainer
