import Mincontainer.Engine.Preserved
import Mincontainer.Engine.Unpacking
import Mincontainer.Host.Symlinks

set_option relaxedAutoImplicit false
set_option autoImplicit false

/-!
# A planted link

The log files of a container lie in a directory that the container sees and may write to. A restore copies
the logs of the snapshot over them, and follows the links that it finds there. So a container that has
replaced its standard output by a link to its own snapshot has the snapshot overwritten by the restore
from it.

## Main definitions

* `Mincontainer.Linked.Clear` — no link leads what a restore writes to a file.
* `Mincontainer.Demo.plantedHost`, `Mincontainer.Demo.planted` — a container and the link it has planted.

## Main results

* `Mincontainer.HostOp.not_reaches_through` — what a call reaches through links.
* `Mincontainer.Restore.snapshot_kept` — where no link leads there, a restore does not consume its
  snapshot.
* `Mincontainer.Restore.snapshot_consumed` — where one does, it may.
-/

namespace Mincontainer

open Effects Files Bytes Snapshot

variable {t : Links} {f : Path}

/-- A call through links reaches a file only if, on some path that leads there, the call itself does. -/
lemma HostOp.not_reaches_through {o : HostOp} (hreal : t.Real f)
    (ho : ∀ q, t.lead q = f → ¬ o.reaches q) : ¬ (o.through t).reaches f := by
  cases o with
  | createFile p => exact fun h => ho p (Eq.symm h) rfl
  | append p data => exact fun h => ho p (Eq.symm h) rfl
  | putDoc p d => exact fun h => ho p (Eq.symm h) rfl
  | removeFile p => exact fun h => ho p (Links.lead_of_entry hreal h) rfl
  | removeDirAll p =>
    intro h
    obtain ⟨q, hq, hlead⟩ := Links.exists_of_entry hreal h
    exact ho q hlead hq
  | removeTree p =>
    intro h
    obtain ⟨q, hq, hlead⟩ := Links.exists_of_entry hreal h
    exact ho q hlead hq
  | rename src dst =>
    rintro (h | h)
    · exact ho src (Links.lead_of_entry hreal h) (.inl rfl)
    · exact ho dst (Links.lead_of_entry hreal h) (.inr rfl)
  | criuDump opts =>
    rintro ⟨q, hq⟩
    exact ho _ (Links.lead_append_of_lead hreal hq.symm) (List.prefix_append _ _)
  | criuRestore owner opts => exact fun h => ho opts.pidfile (Eq.symm h) rfl
  | delegate => exact fun h => ho f hreal.lead h
  | cgroupWrite leaf file value => exact fun h => ho _ (Links.lead_append_of_lead hreal h) rfl
  | cgroupAdd leaf pid => exact fun h => ho _ (Links.lead_append_of_lead hreal h) rfl
  | _ => exact fun h => h.elim

namespace Linked

/-- Nothing that a restore of the container `id` writes leads to the file `f`, which lies at no link: no link
lies in the staging directory or among the cgroups, and neither a log nor the record leads there. -/
structure Clear (env : Env) (id : String) (f : Path) (t : Links) : Prop where
  real : t.Real f
  staging : ¬ t.entry (ContainerStateDir.forId env id).stagingDir <+: f
  bare : ∀ l ∈ t, ¬ t.entry (ContainerStateDir.forId env id).stagingDir <+: l.1
  log : ∀ name ∈ ["stdout", "stderr"], t.lead ((ContainerStateDir.forId env id).ioDir ++ [name]) ≠ f
  state : t.lead (ContainerStateDir.forId env id).stateFile ≠ f
  cgroup : ¬ t.entry Cgroup.cgroupRoot <+: f
  leaves : ∀ l ∈ t, ¬ t.entry Cgroup.cgroupRoot <+: l.1

instance (env : Env) (id : String) (f : Path) (t : Links) : Decidable (Clear env id f t) :=
  decidable_of_iff (_ ∧ _ ∧ _ ∧ _ ∧ _ ∧ _ ∧ _)
    ⟨fun ⟨h₁, h₂, h₃, h₄, h₅, h₆, h₇⟩ => ⟨h₁, h₂, h₃, h₄, h₅, h₆, h₇⟩,
      fun h => ⟨h.real, h.staging, h.bare, h.log, h.state, h.cgroup, h.leaves⟩⟩

variable {env : Env} {id : String} {w : Linked}

/-- Every path that leads to the file lies aside. -/
lemma Clear.aside (h : Clear env id f t) {q : Path} (hq : t.lead q = f) :
    Restore.Aside env id q where
  staging := by
    rintro ⟨rest, rfl⟩
    rw [Links.lead_below h.bare] at hq
    exact h.staging ⟨rest, hq⟩
  io name hname := by
    rintro rfl
    exact h.log name hname hq
  state := by
    rintro rfl
    exact h.state hq
  cgroup := by
    rintro ⟨rest, rfl⟩
    rw [Links.lead_below h.leaves] at hq
    exact h.cgroup ⟨rest, hq⟩

/-- One call that names no path aside keeps the file. -/
lemma Clear.next_file (h : Clear env id f w.symlinks) {o : HostOp} {r : o.Reply}
    (ho : ∀ q, Restore.Aside env id q → ¬ o.reaches q) (hr : linkedMachine.Enabled w o r) :
    (linkedMachine.next w o r).host.file f = w.host.file f :=
  Host.next_file_of_not_reaches
    (HostOp.not_reaches_through h.real fun q hq => ho q (h.aside hq)) hr

/-- The calls on a host with links while the file is clear of them. -/
def clearMachine (env : Env) (id : String) (f : Path) : Machine HostSig Linked :=
  linkedMachine.guarded fun w _ => Clear env id f w.symlinks

instance (env : Env) (id : String) (f : Path) (w : Linked) (o : HostOp) (r : o.Reply) :
    Decidable ((clearMachine env id f).Enabled w o r) :=
  inferInstanceAs (Decidable (linkedMachine.Enabled w o r ∧ Clear env id f w.symlinks))

/-- A run of such calls keeps the file. -/
lemma file_kept {α : Type} {R : Linked → Linked → Prop} {x : Program HostSig α} {w' : Linked}
    {tr : List HostSig.Event} {out : Option α}
    (hk : ∀ a b, R a b → b.host.file f = a.host.file f)
    (hrun : Exec (clearMachine env id f) R x w tr out w')
    (htr : ∀ e ∈ tr, ∀ q, Restore.Aside env id q → ¬ e.1.reaches q) :
    w'.host.file f = w.host.file f :=
  Exec.rel_of_good (M := clearMachine env id f) (K := fun a b => Host.file b.host f = Host.file a.host f)
    (fun _ => rfl) (fun h₁ h₂ => h₂.trans h₁) (fun _ _ _ _ ho hr => Clear.next_file hr.2 ho hr.1) hk
    (Program.within_true _) hrun htr

end Linked

namespace Restore

/-- **A restore does not consume its snapshot.** Let a file be clear of links at every call of a restore
and of the sweep after it, and let the configuration in each snapshot that was read name its leaf plainly.
Then however the restore ends, and however the sweep does, the file holds the bytes it held. -/
theorem snapshot_kept {R : Linked → Linked → Prop} {env : Env} {codec : Codec Manifest} {id : String}
    {opts : Options} {w w₁ w' : Linked} {tr tr' : List HostSig.Event} {f : Path} {c : Content}
    {out : Option (Except RuntimeError Report)} {out' : Option (Except RuntimeError Unit)}
    (hk : ∀ a b, R a b → b.host.file f = a.host.file f) (hc : w.host.file f = some c)
    (hid : ∀ p m, Chosen codec tr p m → IsName m.config.id)
    (hrun : Exec (Linked.clearMachine env id f) R (restore env codec id opts).run w tr out w₁)
    (hnext : Exec (Linked.clearMachine env id f) R (reconcile env id).run w₁ tr' out' w') :
    w₁.host.file f = some c ∧ w'.host.file f = some c := by
  have hkept := (Linked.file_kept hk hrun fun e he q hq => restore_spares hq hid hrun e he).trans hc
  refine ⟨hkept, (Linked.file_kept hk hnext fun e he q hq => ?_).trans hkept⟩
  exact Exec.mem_within (within_reconcile hq.sweep) hnext e he

end Restore

namespace Demo

open Restore

/-- The host of a checkpointed container and its snapshot with the standard output. -/
def plantedHost : Host := host frozen [(latest.path, .bytes outputBytes)] []

/-- The standard output of the container is a link to the file `f`. -/
def planted (f : Path) : Links := [(dir.ioDir ++ ["stdout"], f)]

lemma plantedHost_latest : plantedHost.file latest.path = some (.bytes outputBytes) := by
  rw [plantedHost, latest_path]
  rfl

lemma real_planted {f p : Path} (hp : ¬ dir.ioDir ++ ["stdout"] <+: p) : (planted f).Real p := by
  intro l hl
  obtain rfl := List.mem_singleton.mp hl
  exact hp

lemma not_prefix_staging {p : Path} (hp : p <+: dir.stagingDir ∨ dir.stagingDir <+: p) :
    ¬ dir.ioDir ++ ["stdout"] <+: p := by
  have hne : ¬ dir.stagingDir <+: dir.ioDir ++ ["stdout"] := by decide +kernel
  have hne' : ¬ dir.ioDir ++ ["stdout"] <+: dir.stagingDir := by decide +kernel
  rintro h
  rcases hp with hp | hp
  · exact hne' (h.trans hp)
  · exact (List.prefix_or_prefix_of_prefix h hp).elim hne' hne

/-- Unpacking the snapshot does not meet the link. -/
lemma planted_extract (f : Path) :
    AllowsExtract (fun o : HostOp => ∀ r, HostOp.Straight (planted f) ⟨o, r⟩) latest.path dir.stagingDir where
  read span r := by
    have hreal : (planted f).Real latest.path := real_planted (by decide +kernel)
    exact ⟨by rw [HostOp.through, hreal.lead], fun _ _ => rfl⟩
  mkdir p hp r := by
    have hreal : (planted f).Real p := real_planted (not_prefix_staging hp)
    exact ⟨by rw [HostOp.through, hreal.lead], fun _ _ => rfl⟩
  file p hp := by
    have hreal : (planted f).Real p := real_planted (not_prefix_staging (.inr hp))
    refine ⟨fun r => ⟨by rw [HostOp.through, hreal.lead], fun _ _ => rfl⟩,
      fun b r => ⟨by rw [HostOp.through, hreal.lead], fun _ _ => rfl⟩,
      fun r => ⟨by rw [HostOp.through, hreal.entry], fun l hl => ?_⟩⟩
    obtain rfl := List.mem_singleton.mp hl
    have hne : dir.ioDir ++ ["stdout"] ≠ p := fun h =>
      not_prefix_staging (.inr hp) (h ▸ List.prefix_rfl)
    rw [HostOp.unlinks, hreal.entry]
    exact decide_eq_false hne

/-- The call looks, and meets no link. -/
def looksStraight (f : Path) (e : HostSig.Event) : Bool :=
  e.1.reads && decide (HostOp.Straight (planted f) e)

/-- **The first half of the restore.** Selecting and unpacking the snapshot do not meet the link, so what the
second half does, the whole restore does. -/
lemma planted_restore {A : Linked → HostSig.Event → Prop} {f : Path} {tr : List HostSig.Event}
    {out : Option (Except RuntimeError Report)} {w : Linked} (hA : ∀ h e, A ⟨h, planted f⟩ e)
    (hchosen : chosenBy (looksStraight f) "web" restoreOptions plantedHost = some (some (.ok latest), true))
    (hrun : Exec (linkedMachine.guarded A) quiet
      (onwardsWith outputManifest "web" restoreOptions latest).run
      ⟨unpacked outputEntries "web" plantedHost, planted f⟩ tr out w) :
    ∃ tr₀, Exec (linkedMachine.guarded A) quiet (restore env outputCodec "web" restoreOptions).run
      ⟨plantedHost, planted f⟩ (tr₀ ++ tr) out w := by
  have hlatest : (planted f).Real latest.path := real_planted (by decide +kernel)
  have hmax : (outputCodec.encode outputManifest).length ≤ maxManifest := by decide +kernel
  have hexamine : ∀ o, Examines latest.path o → ∀ r, looksStraight f ⟨o, r⟩ = true := fun o ho r => by
    have hstraight : HostOp.Straight (planted f) ⟨o, r⟩ := by
      rcases ho with rfl | ⟨span, rfl⟩ | rfl
      · exact ⟨by rw [HostOp.through, hlatest.lead], fun _ _ => rfl⟩
      · exact ⟨by rw [HostOp.through, hlatest.lead], fun _ _ => rfl⟩
      · exact ⟨rfl, fun _ _ => rfl⟩
    exact Bool.and_eq_true_iff.mpr ⟨reads_of_examines ho, decide_eq_true hstraight⟩
  obtain ⟨tr₁, hgood, hselect⟩ := select_snapshot (fun e he => (Bool.and_eq_true_iff.mp he).1)
    (codecOf_roundTrips _ _) hmax rfl hchosen hexamine plantedHost_latest
  have hclear : ∀ l ∈ planted f, (dir.stagingDir.isPrefixOf l.1) = false := by
    have hnot : dir.stagingDir.isPrefixOf (dir.ioDir ++ ["stdout"]) = false := by decide +kernel
    exact List.forall_mem_singleton.mpr hnot
  have hstaging : (planted f).Real dir.stagingDir := real_planted (by decide +kernel)
  have himages : (planted f).Real (dir.stagingDir ++ ["images"]) := real_planted (by decide +kernel)
  have hunpacks : ∃ tr, (∀ e ∈ tr, ∀ r, HostOp.Straight (planted f) ⟨e.1, r⟩) ∧
      Runs quiet (unpack (SnapshotReader.ofImage latest.path outputManifest
        (outputCodec.encode outputManifest) outputEntries) dir.stagingDir) plantedHost tr (some (.ok ()))
        (unpacked outputEntries "web" plantedHost) := unpack_snapshot rfl
    outputEntries_valid (by decide +kernel) outputEntries_apart (by decide +kernel)
    ⟨_, List.mem_cons_self, by decide⟩ (planted_extract f)
    (fun r => ⟨by rw [HostOp.through, ← dir, hstaging.entry], fun l hl => by
      rw [HostOp.unlinks, ← dir, hstaging.entry]
      exact hclear l hl⟩)
    (fun r => ⟨by rw [HostOp.through, ← dir, himages.lead], fun _ _ => rfl⟩)
  obtain ⟨tr₂, hstraight, hunpack⟩ := hunpacks
  have hselect' := Linked.exec hA hselect fun e he =>
    of_decide_eq_true (Bool.and_eq_true_iff.mp (hgood e he)).2
  have hunpack' := Linked.exec hA hunpack fun e he => hstraight e he e.2
  exact ⟨tr₁ ++ tr₂, by rw [List.append_assoc]; exact Exec.bind hselect' (Exec.bind hunpack' hrun)⟩

end Demo

namespace Restore

/-- **The snapshot is consumed.** The container has replaced its standard output by a link to its snapshot.
The restore from this snapshot returns `Ok`, and in its place lies what was the standard output. -/
theorem snapshot_consumed : ∃ tr rep w,
    Exec linkedMachine quiet (restore Demo.env Demo.outputCodec "web" Demo.restoreOptions).run
      ⟨Demo.plantedHost, Demo.planted Demo.latest.path⟩ tr (some (.ok rep)) w ∧
    rep.snapshot = Demo.latest ∧ Aside Demo.env "web" Demo.latest.path ∧
    (∀ m, Demo.outputCodec.decode (Demo.outputCodec.encode Demo.outputManifest) = .ok m →
      IsName m.config.id) ∧
    Demo.plantedHost.file Demo.latest.path = some (.bytes Demo.outputBytes) ∧
    w.host.file Demo.latest.path = some (.bytes [2]) := by
  have hdrive : ((linkedMachine.drive obligingLinked 60 0
      (Demo.onwardsWith Demo.outputManifest "web" Demo.restoreOptions Demo.latest).run
      ⟨Demo.unpacked Demo.outputEntries "web" Demo.plantedHost, Demo.planted Demo.latest.path⟩).map fun x =>
        (x.2.1.map (Except.map Report.snapshot), x.2.2.host.file Demo.latest.path)) =
      some (some (.ok Demo.latest), some (.bytes [2])) := by
    decide +kernel
  obtain ⟨⟨tr, out, w⟩, hx, hout⟩ := Option.map_eq_some_iff.mp hdrive
  obtain ⟨hout, hfile⟩ := Prod.mk.inj hout
  obtain ⟨res, rfl, hres⟩ := Option.map_eq_some_iff.mp hout
  cases res with
  | error e => cases hres
  | ok rep =>
    obtain ⟨tr₀, hrun⟩ := Demo.planted_restore (A := fun _ _ => True) (fun _ _ => trivial)
      (by decide +kernel) ((Machine.drive_exec hx).guarded fun _ _ _ => trivial)
    have haside : Aside Demo.env "web" Demo.latest.path :=
      ⟨by decide +kernel, by decide +kernel, by decide +kernel, by decide +kernel⟩
    refine ⟨tr₀ ++ tr, rep, w, ?_, Except.ok.inj hres, haside, fun m hm => ?_, Demo.plantedHost_latest, hfile⟩
    · exact hrun.unguarded
    · obtain rfl := Except.ok.inj (hm.symm.trans (Demo.codecOf_roundTrips _ Demo.outputManifest))
      decide

/-- A container that writes its standard output to a file elsewhere: the restore unpacks and rebuilds, the
sweep follows, and the snapshot is kept. -/
theorem snapshot_kept_demo : ∃ tr tr' rep w₁ w',
    Exec (Linked.clearMachine Demo.env "web" Demo.latest.path) quiet
      (restore Demo.env Demo.outputCodec "web" Demo.restoreOptions).run
      ⟨Demo.plantedHost, Demo.planted ["tmp", "web.log"]⟩ tr (some (.ok rep)) w₁ ∧
    Exec (Linked.clearMachine Demo.env "web" Demo.latest.path) quiet (reconcile Demo.env "web").run w₁ tr'
      (some (.ok ())) w' ∧
    w₁.host.file ["tmp", "web.log"] = some (.bytes [2]) ∧
    w'.host.file Demo.latest.path = some (.bytes Demo.outputBytes) := by
  have hdrive : (((Linked.clearMachine Demo.env "web" Demo.latest.path).drive obligingLinked 60 0
      (Demo.onwardsWith Demo.outputManifest "web" Demo.restoreOptions Demo.latest).run
      ⟨Demo.unpacked Demo.outputEntries "web" Demo.plantedHost, Demo.planted ["tmp", "web.log"]⟩).bind
        fun x => ((Linked.clearMachine Demo.env "web" Demo.latest.path).drive obligingLinked 40 0
          (reconcile Demo.env "web").run x.2.2).map fun y =>
            (x.2.1.map Except.isOk, x.2.2.host.file ["tmp", "web.log"], y.2.1.map Except.isOk)) =
      some (some true, some (.bytes [2]), some true) := by
    decide +kernel
  obtain ⟨⟨tr, out, w₁⟩, hx, hdrive⟩ := Option.bind_eq_some_iff.mp hdrive
  obtain ⟨⟨tr', out', w'⟩, hy, hout⟩ := Option.map_eq_some_iff.mp hdrive
  simp only [Prod.mk.injEq, Option.map_eq_some_iff] at hout
  obtain ⟨⟨res, rfl, hres⟩, hlog, res', rfl, hres'⟩ := hout
  cases res with
  | error e => cases hres
  | ok rep =>
    cases res' with
    | error e => cases hres'
    | ok u =>
      have hclear : Linked.Clear Demo.env "web" Demo.latest.path (Demo.planted ["tmp", "web.log"]) := by
        decide +kernel
      obtain ⟨tr₀, hrun⟩ := Demo.planted_restore (fun _ _ => hclear) (by decide +kernel)
        (Machine.drive_exec hx)
      have hnext := Machine.drive_exec hy
      refine ⟨tr₀ ++ tr, tr', rep, w₁, w', hrun, hnext, hlog, (snapshot_kept (fun _ _ hR => hR.elim)
        Demo.plantedHost_latest (fun p m hm => ?_) hrun hnext).2⟩
      obtain ⟨c, reader, -, hopen, rfl⟩ := hm
      have hdec := (SnapshotReader.openBytes_ok hopen).manifest
      simp only [Demo.outputCodec, Demo.codecOf] at hdec
      split at hdec
      · rw [← Except.ok.inj hdec]
        decide
      · cases hdec

end Restore

end Mincontainer
