import Mincontainer.Engine.Arguments
import Mincontainer.Engine.CheckpointErrors
import Mincontainer.Engine.Unpacking
import Mincontainer.Migration.Gate
import Mincontainer.Snapshot.SignOff

set_option relaxedAutoImplicit false
set_option autoImplicit false

/-!
# The engine on both ends of a migration

The source runs the engine with arguments made from the live configuration and the options of the
checkpoint; the receiver runs it with arguments made from the manifest that arrived, and with
options of its own. The manifest carries the configuration across, and nothing else that the
arguments depend on.

## Main definitions

* `Mincontainer.Criu.Agree` — the options of a dump and of a restore fit together.

## Main results

* `Mincontainer.Criu.agree_iff` — over the layouts of one configuration, what decides is whether
  established connections are asked for on both ends or on none.
* `Mincontainer.Checkpoint.checkpoint_ships` — the file that a checkpoint leaves carries the
  configuration that its dump was described with.
* `Mincontainer.Transport.handleOne_engine` — the engine on the receiver is described with the
  configuration that arrived.
* `Mincontainer.Transport.agree_iff_of_handedOver` — the two ends agree exactly when the checkpoint
  was taken without established connections.
-/

namespace Mincontainer

open Effects Files Bytes Snapshot

/-! ### Two command lines -/

namespace Criu

/-- The same mount on two hosts: it has the same key and the same place in the container, and comes
from the same volume. The runtime's own directory is that of each host. -/
structure SameVolume (x y : ExternalMount) : Prop where
  key : y.key = x.key
  containerPath : y.containerPath = x.containerPath
  hostPath : x.key ≠ "mcio" → y.hostPath = x.hostPath

/-- The arguments of a dump and of a restore agree: whatever is declared as external is supplied once,
from the same volume; and the network namespace and established connections are left out or in on
both ends. -/
structure Agree (d : DumpOptions) (r : RestoreOptions) : Prop where
  mapped : ∀ p key, Declares (dumpArgs d) p key →
    ∃ x ∈ d.layout.externalMounts, ∃ y ∈ r.layout.externalMounts,
      x.containerPath = p ∧ x.key = key ∧ SameVolume x y ∧
        mapped (restoreArgs r) key = [y.hostPath]
  net : ("--empty-ns", some "net") ∈ options (dumpArgs d) ↔
    ("--empty-ns", some "net") ∈ options (restoreArgs r)
  tcp : ("--tcp-established", none) ∈ options (dumpArgs d) ↔
    ("--tcp-established", none) ∈ options (restoreArgs r)

/-- **Where the ends can differ.** When both layouts are those of one configuration, the arguments agree
exactly when established connections are asked for on both ends or on none.

**Proof sketch.** The keys of a layout are the number of the volume, so both layouts list the same keys
for the same volumes; they are different, so that one mapping is supplied for each. -/
lemma agree_iff {d : DumpOptions} {r : RestoreOptions} {cfg : ContainerConfig}
    {dir dir' : ContainerStateDir} (hd : d.layout = Checkpoint.layoutFor cfg dir)
    (hr : r.layout = Checkpoint.layoutFor cfg dir') :
    Agree d r ↔ (d.tcpEstablished = true ↔ r.tcpEstablished = true) := by
  constructor
  · intro h
    rw [← tcp_mem_dumpArgs, ← tcp_mem_restoreArgs]
    exact h.tcp
  · intro htcp
    refine ⟨fun p key hdecl => ?_, ?_, ?_⟩
    · have hkey : IsKey key := hdecl.1
      rw [declares_iff fun m hm => Checkpoint.isKey_of_layoutFor (hd ▸ hm), hd] at hdecl
      obtain ⟨x, hx, rfl, rfl⟩ := hdecl
      have hsame : ∃ y ∈ (Checkpoint.layoutFor cfg dir').externalMounts, SameVolume x y := by
        rcases List.mem_cons.mp hx with rfl | hx
        · exact ⟨_, List.mem_cons_self, rfl, rfl, fun h => absurd rfl h⟩
        · exact ⟨x, List.mem_cons_of_mem _ hx, rfl, rfl, fun _ => rfl⟩
      obtain ⟨y, hy, hxy⟩ := hsame
      refine ⟨x, hd ▸ hx, y, hr ▸ hy, rfl, rfl, hxy, ?_⟩
      rw [mapped_restoreArgs hkey fun m hm => Checkpoint.isKey_of_layoutFor (hr ▸ hm), hr, ← hxy.key,
        filter_eq_singleton Checkpoint.layoutFor_keys_nodup hy]
      rfl
    · rw [net_mem_dumpArgs, net_mem_restoreArgs, hd, hr]
      rfl
    · rw [tcp_mem_dumpArgs, tcp_mem_restoreArgs]
      exact htcp

end Criu

/-! ### The source -/

section Source

variable {R : Host → Host → Prop} {h h' : Host} {tr : List HostSig.Event}

namespace SnapshotWriter

/-- **The life of a writer.** A successful use has run its body to the end, with a writer whose scratch
file lies beside the destination; at other paths, what is there afterwards is what the body left. -/
lemma scope_ok {α : Type} {dest : PathBuf} {body : SnapshotWriter → HostM α} {a : α} {q : Path}
    (hq : Keeps R q) (hrun : Runs R (scope dest body) h tr (some (.ok a)) h') :
    ∃ w h₁ h₂ tr₁, w.scratchPath = dest.withExtension "mcsnap.part" ∧
      (∃ n, dest.fileName = some n) ∧ Runs R (body w) h₁ tr₁ (some (.ok a)) h₂ ∧
      (w.scratchPath ≠ q → h'.file q = h₂.file q) := by
  obtain ⟨w, tr₁, tr₂, h₁, rfl, hnew, hrun₁⟩ := Exec.fallible_bind_ok hrun
  obtain ⟨r, tr₃, tr₄, h₂, rfl, hbody, hrun₂⟩ := Exec.fallible_bind_ok hrun₁
  obtain ⟨u, tr₅, tr₆, h₃, rfl, hremove, hend⟩ := Exec.fallible_bind_ok hrun₂
  have hname : ∃ n, dest.fileName = some n := by
    obtain ⟨u', tr₇, tr₈, h₄, -, -, hrest⟩ := Exec.fallible_bind_ok hnew
    cases hn : dest.fileName with
    | none =>
      rw [hn] at hrest
      exact (Exec.throw_ok_false hrest).elim
    | some n => exact ⟨n, rfl⟩
  have hscratch : w.scratchPath = dest.withExtension "mcsnap.part" :=
    Exec.out_obeys (new_obeys (P := fun _ => True) (fun _ => trivial)
      ⟨trivial, fun _ => trivial, trivial⟩) hnew _ rfl _ rfl
  obtain ⟨rfl, hR⟩ : r = .ok a ∧ Relation.ReflTransGen R h₃ h' := by
    cases r with
    | error e => exact (Exec.throw_ok_false hend).elim
    | ok a' =>
      obtain ⟨-, hR, ha⟩ := Exec.ret_some_inv hend
      exact ⟨congrArg Except.ok (Except.ok.inj ha).symm, hR⟩
  rcases Exec.attempt_inv hbody with ⟨hout, -⟩ | ⟨r', hout, hbody⟩
  · cases hout
  obtain rfl : .ok a = r' := by simpa using hout
  refine ⟨w, h₁, h₂, tr₃, hscratch, hname, hbody, fun hne => ?_⟩
  rw [hq.star hR, Runs.sys_file_kept (o := .removeFile w.scratchPath) hq hne.symm hremove]

end SnapshotWriter

namespace Checkpoint

variable {env : Env} {codec : Codec Manifest} {id : String} {opts : Options} {info : SnapshotMeta}
  {dest : PathBuf} {dir : ContainerStateDir}

/-- The manifest that is built carries the configuration. -/
lemma buildManifest_config {entries : List EntryMeta} {m : Manifest}
    (hrun : Runs R (buildManifest env info entries) h tr (some (.ok m)) h') :
    m.config = info.config := by
  obtain ⟨_, tr₁, tr₂, h₁, rfl, -, hrun₁⟩ := Exec.fallible_bind_ok hrun
  obtain ⟨_, tr₃, tr₄, h₂, rfl, -, hrun₂⟩ := Exec.fallible_bind_ok hrun₁
  obtain ⟨_, tr₅, tr₆, h₃, rfl, -, hrun₃⟩ := Exec.fallible_bind_ok hrun₂
  obtain ⟨-, -, hm⟩ := Exec.ret_some_inv hrun₃
  rw [Except.ok.inj hm]

/-- **What is packed.** The destination holds bytes that are framed as a snapshot, with a manifest that
carries the configuration. -/
lemma pack_ships {x : Manifest × ℕ × ℕ} (hk : Keeps R dest.path)
    (hrun : Runs R (pack env codec dest dir info) h tr (some (.ok x)) h') :
    ∃ m data, m.config = info.config ∧
      h'.file dest.path = some (.bytes (sealedBytes (codec.encode m) data)) := by
  obtain ⟨packed, tr₁, tr₂, h₁, rfl, hscope, hrun₁⟩ := Exec.fallible_bind_ok hrun
  obtain ⟨n, tr₃, tr₄, h₂, rfl, hlen, hret⟩ := Exec.fallible_bind_ok hrun₁
  obtain ⟨-, hR, -⟩ := Exec.ret_some_inv hret
  have hkept : h'.file dest.path = h₁.file dest.path := by
    rw [hk.star hR, hk.star (Runs.of_reads (fileLen_reads _) hlen)]
  obtain ⟨w, h₂, h₃, tr₃, hw, ⟨n, hn⟩, hbody, hscratch⟩ := SnapshotWriter.scope_ok hk hscope
  have hne : w.scratchPath ≠ dest.path := by
    rw [hw]
    exact PathBuf.withExtension_ne hn (by decide)
  rw [hkept, hscratch hne]
  obtain ⟨files, tr₄, tr₅, h₄, rfl, -, hbody₁⟩ := Exec.fallible_bind_ok hbody
  obtain ⟨⟨w₁, imageBytes⟩, tr₆, tr₇, h₅, rfl, himages, hbody₂⟩ := Exec.fallible_bind_ok hbody₁
  dsimp only at hbody₂
  split at hbody₂
  · exact (Exec.throw_ok_false hbody₂).elim
  obtain ⟨w₂, tr₈, tr₉, h₆, rfl, hlogs, hbody₃⟩ := Exec.fallible_bind_ok hbody₂
  obtain ⟨m, tr₁₀, tr₁₁, h₇, rfl, hfinish, hret⟩ := Exec.fallible_bind_ok hbody₃
  obtain ⟨-, hR, -⟩ := Exec.ret_some_inv hret
  have hall : ∀ p, AllowsFile (fun _ => True) p := fun p => ⟨trivial, fun _ => trivial, trivial⟩
  have hw₁ : w₁.scratchPath = w.scratchPath :=
    Exec.out_obeys (addImages_obeys (P := fun _ => True) (fun _ _ => trivial) (hall _)) himages _ rfl _ rfl
  have hw₂ : w₂.scratchPath = w₁.scratchPath :=
    Exec.out_obeys (addLogs_obeys (P := fun _ => True) (fun _ _ => trivial) (hall _)) hlogs _ rfl _ rfl
  rw [SnapshotWriter.finish_eq] at hfinish
  obtain ⟨m', tr₁₂, tr₁₃, h₈, rfl, hwrite, hfinish₁⟩ := Exec.fallible_bind_ok hfinish
  obtain ⟨_, tr₁₄, tr₁₅, h₉, rfl, hremove, hret'⟩ := Exec.fallible_bind_ok hfinish₁
  obtain ⟨-, hR', hm'⟩ := Exec.ret_some_inv hret'
  obtain ⟨-, ⟨g, tr', -, hbuild⟩, data, hfile, -⟩ := writeFinal_ok hk hwrite
  refine ⟨m', data, buildManifest_config hbuild, ?_⟩
  rw [hk.star hR, hk.star hR', Runs.sys_file_kept (o := .removeFile w₂.scratchPath) hk
    (by rw [hw₂, hw₁]; exact hne.symm) hremove, hfile]

/-- What is there after a directory was removed was there before. -/
lemma file_before_removeDirAll {u : Unit} {c : Content} {p q : Path} (hk : Keeps R p)
    (hc : h'.file p = some c) (hrun : Runs R (sys (.removeDirAll q)) h tr (some (.ok u)) h') :
    h.file p = some c := by
  rcases Exec.sys_inv hrun with ⟨-, hout, -⟩ | ⟨g, r, hR, -, -, hR', -⟩
  · cases hout
  · rw [hk.star hR'] at hc
    have hgone : (g.fs.removeAll q).get p = if q <+: p then none else g.fs.get p :=
      Tree.get_removeAll _ _ _
    rw [← hk.star hR, ← hc]
    change _ = Host.file { g with fs := g.fs.removeAll q } p
    by_cases hqp : q <+: p
    · rw [if_pos hqp] at hgone
      change Host.file { g with fs := g.fs.removeAll q } p = _ at hc
      simp only [Host.file, hgone] at hc
      cases hc
    · rw [if_neg hqp] at hgone
      simp only [Host.file, hgone]

/-- Bytes that are there after a successful update were there before: a record is a document. -/
lemma file_before_update {f : ContainerState → ContainerState} {u : Unit} {b : Bytes} {p : Path}
    (hk : Keeps R p) (hb : h'.file p = some (.bytes b))
    (hrun : Runs R (update env id f) h tr (some (.ok u)) h') : h.file p = some (.bytes b) := by
  by_cases hp : p = (ContainerStateDir.forId env id).stateFile
  · subst hp
    obtain ⟨st, -, hrec, -⟩ := update_ok hk hrun
    obtain ⟨text, hdoc⟩ := Host.record_eq_some.mp hrec
    rw [hb] at hdoc
    cases hdoc
  · rw [← hb]
    refine (Runs.file_kept hk (within_update (fun o ho => ?_) hp fun _ => hp) hrun).symm
    exact HostOp.not_overwrites_of_reads ho _

/-- Bytes that are there after a commit were there before. -/
lemma file_before_commit {u : Unit} {b : Bytes} {p : Path} (hk : Keeps R p)
    (hb : h'.file p = some (.bytes b))
    (hrun : Runs R (commit env id opts dest) h tr (some (.ok u)) h') :
    h.file p = some (.bytes b) := by
  have htimed : ∀ f : String → ContainerState → ContainerState,
      Runs R (sys .now >>= fun now => update env id (f now)) h tr (some (.ok u)) h' →
      h.file p = some (.bytes b) := fun f hrun => by
    obtain ⟨now, tr₁, tr₂, h₁, rfl, hnow, hupdate⟩ := Exec.fallible_bind_ok hrun
    rw [← file_before_update hk hb hupdate]
    exact (Runs.sys_file_kept (o := .now) hk (fun h => h) hnow).symm
  rw [commit] at hrun
  split at hrun
  · exact htimed _ hrun
  · exact htimed _ hrun

/-- **What a checkpoint stores.** If the file of the snapshot holds bytes in the end, they are framed as a
snapshot, with a manifest that carries the configuration. -/
lemma store_ships {rep : Report} {b : Bytes} (hk : Keeps R rep.snapshot.path)
    (hb : h'.file rep.snapshot.path = some (.bytes b))
    (hrun : Runs R (store env codec id info opts) h tr (some (.ok rep)) h') :
    ∃ m data, m.config = info.config ∧ b = sealedBytes (codec.encode m) data := by
  obtain ⟨now, tr₁, tr₂, h₁, rfl, -, hrun₁⟩ := Exec.fallible_bind_ok hrun
  obtain ⟨⟨m₀, n, n'⟩, tr₃, tr₄, h₂, rfl, hpack, hrun₂⟩ := Exec.fallible_bind_ok hrun₁
  obtain ⟨u, tr₅, tr₆, h₃, rfl, hremove, hrun₃⟩ := Exec.fallible_bind_ok hrun₂
  obtain ⟨u', tr₇, tr₈, h₄, rfl, hcommit, hret⟩ := Exec.fallible_bind_ok hrun₃
  obtain ⟨-, hR, hrep⟩ := Exec.ret_some_inv hret
  obtain rfl := Except.ok.inj hrep
  rw [hk.star hR] at hb
  have hb₃ := file_before_commit hk hb hcommit
  have hb₂ := file_before_removeDirAll hk hb₃ hremove
  obtain ⟨m, data, hm, hfile⟩ := pack_ships hk hpack
  rw [hfile] at hb₂
  exact ⟨m, data, hm, (Content.bytes.inj (Option.some.inj hb₂)).symm⟩

/-- Of the dumps of the engine only this one. -/
def OnlyDumps (d₀ : DumpOptions) (o : HostOp) : Prop := ∀ d, o = .criuDump d → d = d₀

lemma only_of_reads {d₀ : DumpOptions} {o : HostOp} (ho : o.reads = true) : OnlyDumps d₀ o := by
  rintro d rfl
  cases ho

/-- The only dump of a checkpoint is described with what was collected. -/
lemma freeze_dumps : (freeze env codec id info opts).run.Within
    (OnlyDumps (dumpOptions (ContainerStateDir.forId env id) info opts)) := by
  have hfile : ∀ p, AllowsFile (OnlyDumps (dumpOptions (ContainerStateDir.forId env id) info opts)) p :=
    fun p => ⟨by rintro d ⟨⟩, by rintro b d ⟨⟩, by rintro d ⟨⟩⟩
  have hput : ∀ p doc, OnlyDumps (dumpOptions (ContainerStateDir.forId env id) info opts) (.putDoc p doc) := by
    rintro p doc d ⟨⟩
  have hmk : ∀ p, OnlyDumps (dumpOptions (ContainerStateDir.forId env id) info opts) (.mkdirAll p) := by
    rintro p d ⟨⟩
  have hremove : ∀ p, OnlyDumps (dumpOptions (ContainerStateDir.forId env id) info opts) (.removeDirAll p) := by
    rintro p d ⟨⟩
  refine Fallible.within_bind ?_ fun _ => Fallible.within_bind ?_ fun _ =>
    Fallible.within_bind ?_ fun _ => ?_
  · exact Fallible.within_bind ((within_sys (.removeDirAll _)).mpr (hremove _)) fun _ =>
      (within_mkdirAll _ _).mpr (hmk _)
  · refine Fallible.within_bind (within_dump (hmk _) ?_) fun r => ?_
    · rintro d ⟨⟩
      rfl
    split
    · exact trivial
    · refine Fallible.within_bind ((within_sys (.pidAlive _)).mpr (only_of_reads rfl)) fun still => ?_
      exact Fallible.within_bind (Fallible.within_attempt
        (within_update (fun _ => only_of_reads) (hfile _).create (hput _))) fun _ => trivial
  · refine within_settle (fun _ => only_of_reads) ?_
    rintro p d ⟨⟩
  · refine Fallible.within_bind ((within_sys .now).mpr (only_of_reads rfl)) fun _ => ?_
    refine Fallible.within_bind (within_pack (fun _ => only_of_reads) hmk (hfile _) (hfile _))
      fun _ => ?_
    refine Fallible.within_bind ((within_sys (.removeDirAll _)).mpr (hremove _)) fun _ => ?_
    exact Fallible.within_bind (within_commit (fun _ => only_of_reads) (hfile _).create (hput _))
      fun _ => trivial

/-- **What a checkpoint ships.** The dump is described with a configuration, and the bytes that the
checkpoint leaves carry that same configuration. -/
lemma checkpoint_ships {rep : Report} {b : Bytes} {d : DumpOptions}
    {rd : Except DumpFailure (List (String × Bytes))} (hk : Keeps R rep.snapshot.path)
    (hb : h'.file rep.snapshot.path = some (.bytes b))
    (hrun : Runs R (checkpoint env codec id opts) h tr (some (.ok rep)) h')
    (hd : ⟨.criuDump d, rd⟩ ∈ tr) :
    ∃ m data, b = sealedBytes (codec.encode m) data ∧
      d.layout = layoutFor m.config (ContainerStateDir.forId env id) ∧
      d.tcpEstablished = opts.allowTcp := by
  obtain ⟨info, tr₁, tr₂, h₁, rfl, hprepare, hrun₁⟩ := Exec.fallible_bind_ok hrun
  obtain ⟨u, tr₃, tr₄, h₂, rfl, hmark, hfreeze⟩ := Exec.fallible_bind_ok hrun₁
  have hdump : d = dumpOptions (ContainerStateDir.forId env id) info opts := by
    rcases List.mem_append.mp hd with hd | hd
    · cases Exec.mem_within prepare_reads hprepare _ hd
    rcases List.mem_append.mp hd with hd | hd
    · have hmarked : (setStatus env id .checkpointing).run.Within
          (OnlyDumps (dumpOptions (ContainerStateDir.forId env id) info opts)) :=
        within_update (fun _ => only_of_reads) (by rintro d ⟨⟩) (by rintro doc d ⟨⟩)
      exact Exec.mem_within hmarked hmark _ hd d rfl
    · exact Exec.mem_within freeze_dumps hfreeze _ hd d rfl
  obtain ⟨u', tr₅, tr₆, h₃, rfl, -, hrun₂⟩ := Exec.fallible_bind_ok hfreeze
  obtain ⟨u'', tr₇, tr₈, h₄, rfl, -, hrun₃⟩ := Exec.fallible_bind_ok hrun₂
  obtain ⟨u₃, tr₉, tr₁₀, h₅, rfl, -, hstore⟩ := Exec.fallible_bind_ok hrun₃
  obtain ⟨m, data, hm, hbytes⟩ := store_ships hk hb hstore
  refine ⟨m, data, hbytes, ?_, ?_⟩
  · rw [hdump, hm]
    rfl
  · rw [hdump]
    rfl

end Checkpoint

end Source

/-! ### The snapshot in between -/

/-- The serialiser decodes what it encoded for this value, and nothing that was cut short. -/
structure Faithful {α : Type} (c : Codec α) (a : α) : Prop where
  roundTrips : c.RoundTrips a
  strict : ∀ k < (c.encode a).length, ∃ e, c.decode ((c.encode a).take k) = .error e

/-- These bytes are a snapshot with this manifest. -/
def SnapshotOf (codec : Codec Manifest) (b : Bytes) (m : Manifest) : Prop :=
  ∃ path shown r, SnapshotReader.openBytes codec path shown b = .ok r ∧ r.manifest = m

/-- What was written with a manifest is a snapshot with that manifest, and with no other.

**Proof sketch.** The reader decodes the text up to the length that the header holds, which is that of
the text cut to 32 bits. Nothing that was cut short is decoded, so it was not cut. -/
lemma SnapshotOf.unique {codec : Codec Manifest} {m m' : Manifest} {data : Bytes} (hm : Faithful codec m)
    (h : SnapshotOf codec (sealedBytes (codec.encode m) data) m') : m' = m := by
  obtain ⟨path, shown, r, hr, rfl⟩ := h
  have hdecoded := (SnapshotReader.openBytes_ok hr).manifest
  rw [manifest_of_sealedBytes] at hdecoded
  by_cases hbig : (codec.encode m).length % 2 ^ 32 < (codec.encode m).length
  · obtain ⟨e, he⟩ := hm.strict _ hbig
    rw [he] at hdecoded
    cases hdecoded
  · rw [List.take_of_length_le (Nat.le_of_not_lt hbig), hm.roundTrips] at hdecoded
    exact (Except.ok.inj hdecoded).symm

/-! ### The receiver -/

namespace Restore

variable {P : HostOp → Prop} {env : Env} {codec : Codec Manifest} {id : String} {opts : Options}

/-- The restores of the engine are described with the configuration of one of these manifests, and
without established connections. -/
def Engines (Arr : Manifest → Prop) (o : HostOp) : Prop :=
  ∀ owner r, o = .criuRestore owner r → r.tcpEstablished = false ∧
    ∃ m dir, Arr m ∧ r.layout = Checkpoint.layoutFor m.config dir

lemma engines_of_reads {Arr : Manifest → Prop} {o : HostOp} (ho : o.reads = true) : Engines Arr o := by
  rintro owner r rfl
  cases ho

lemma engines_of_stays {Arr : Manifest → Prop} {staging : Path} {o : HostOp}
    (ho : StaysBelow staging o) : Engines Arr o := by
  rintro owner r rfl
  cases ho.plain

lemma engines_file (Arr : Manifest → Prop) (p : Path) : AllowsFile (Engines Arr) p :=
  ⟨by rintro owner r ⟨⟩, by rintro b owner r ⟨⟩, by rintro owner r ⟨⟩⟩

/-- Sweeping runs no engine. -/
lemma sweep_engines (Arr : Manifest → Prop) : AllowsSweep (Engines Arr) env id where
  reads _ := engines_of_reads
  kill _ := by rintro owner r ⟨⟩
  leaf _ := by rintro owner r ⟨⟩
  link _ := by rintro owner r ⟨⟩
  staging := by rintro owner r ⟨⟩
  create := by rintro owner r ⟨⟩
  put _ := by rintro owner r ⟨⟩

/-- From the snapshot on, the engine is run with the configuration in its manifest. -/
lemma restoreFrom_engines {Arr : Manifest → Prop} {path : PathBuf} {reader : SnapshotReader}
    (hArr : Arr reader.manifest) (htcp : opts.allowTcp = false) :
    (restoreFrom env id opts path reader).run.Within (Engines Arr) := by
  have hs : AllowsSweep (Engines Arr) env id := sweep_engines Arr
  have hmk : ∀ p, Engines Arr (.mkdirAll p) := by rintro p owner r ⟨⟩
  refine Fallible.within_bind (within_unpack fun _ => engines_of_stays) fun _ => ?_
  refine Fallible.within_bind ((checkRootfs_reads _).mono hs.reads) fun _ => ?_
  refine Fallible.within_bind (within_update hs.reads hs.create hs.put) fun _ => ?_
  refine Fallible.within_bind (within_build hs.reads hmk (fun _ => engines_file _ _)
    (by rintro owner r ⟨⟩) (by rintro p f v owner r ⟨⟩)) fun cgroup => ?_
  refine Fallible.within_bind ?_ fun res => ?_
  · refine Fallible.within_bind ((within_sys (.removeFile _)).mpr (engines_file Arr _).remove) fun _ => ?_
    refine Fallible.within_bind ((within_sys (.criuRestore _ _)).mpr ?_) fun r => ?_
    · rintro owner r ⟨⟩
      exact ⟨htcp, reader.manifest, _, hArr, rfl⟩
    · split <;> exact trivial
  split
  · exact within_undo hs rfl
  refine Fallible.within_bind (Fallible.within_attempt (within_wire hs.reads (by rintro owner r ⟨⟩)
    (by rintro c owner r ⟨⟩))) fun built => ?_
  split
  · exact within_undo hs rfl
  · refine Fallible.within_bind (within_commit hs.reads hs.create hs.put) fun _ => ?_
    exact within_report hs.reads hs.staging

/-- A restore from a file that holds nothing but this snapshot runs the engine with the configuration in
its manifest. -/
lemma restore_engines {G : HostSig.Event → Prop} {Arr : Manifest → Prop} {final : PathBuf}
    (hopen : Fallible.Relies G (Engines Arr) (fun reader => Arr reader.manifest)
      (SnapshotReader.open codec final.path))
    (hopts : opts.from_ = some final.text) (habs : final.text.toList.head? = some '/')
    (htcp : opts.allowTcp = false) :
    Fallible.Relies G (Engines Arr) (fun _ => True) (restore env codec id opts) := by
  have hs : AllowsSweep (Engines Arr) env id := sweep_engines Arr
  rw [restore_eq_select]
  refine Fallible.Relies.bind (select_relies (Q := fun reader => Arr reader.manifest) hs.sweeps
    (.of_within ((loadConfig_reads _).mono hs.reads)) (fun st =>
      ((resolveSnapshot_obeys hopts).mono (fun _ => engines_of_reads) fun _ h => h).relies)
    fun b hb => ?_) fun x hx => .of_within (restoreFrom_engines hx htcp)
  have hpath : b.path = final.path := by
    rw [hb]
    exact resolve_absolute habs _ _
  rw [hpath]
  exact hopen

end Restore

namespace Transport

variable {env : Env} {codec : Codec Manifest} {proto : Protocol} {fuel : ℕ} {token : String}
  {index : UInt8} {hello : Hello}

/-- **The engine on the receiver.** When the snapshot that arrived carries this manifest, the engine is
run with its configuration, and without established connections.

**Proof sketch.** Until the snapshot is in the inbox the engine is not run. It is opened twice, to be
adopted and to be restored, and both times the manifest is found in it. -/
lemma handleOne_engine {R : Host → Host → Prop} {h h' : Host} {tr : List HostSig.Event}
    {out : Option (Except RuntimeError String)} {m : Manifest} (hann : Announced proto tr hello)
    (harrived : ∀ m', Arrived env codec hello tr m' → m' = m)
    (hrun : Runs R (handleOne env codec proto fuel token index) h tr out h') :
    ∀ e ∈ tr, Restore.Engines (fun m' => m' = m) e.1 := by
  have hquiet : ∀ {α : Type} {x : HostM α} {g g' : Host} {t : List HostSig.Event} {out},
      (x.run.Within fun o : HostOp => o.reads = true) → Runs R x g t out g' →
        ∀ e ∈ t, Restore.Engines (fun m' => m' = m) e.1 := fun hx hr e he =>
    Restore.engines_of_reads (Exec.mem_within hx hr e he)
  rcases Exec.fallible_bind_inv hrun with ⟨-, h₁⟩ | ⟨e, -, h₁⟩ | ⟨hello', tr₁, tr₂, g, rfl, h₁, hrun₁⟩
  · exact hquiet (greet_reads _) h₁
  · exact hquiet (greet_reads _) h₁
  have hsame : hello' = hello := by
    obtain ⟨hdr, n, body, rest, rfl, hdec⟩ := greet_ok h₁
    obtain ⟨hdr', n', body', rest', htr, hdec'⟩ := hann
    simp only [List.cons_append, List.cons.injEq] at htr
    obtain ⟨-, hbody, -⟩ := htr
    cases hbody
    exact Except.ok.inj (hdec.symm.trans hdec')
  subst hsame
  refine List.forall_mem_append.mpr ⟨hquiet (greet_reads _) h₁, ?_⟩
  set G : HostSig.Event → Prop := fun e => ∀ c,
    e = ⟨.readFile (finalFile env hello').path, (.ok c : Except String Content)⟩ →
      ∀ reader, SnapshotReader.openBytes codec (finalFile env hello').path
        (display (finalFile env hello').path) c.raw = .ok reader → reader.manifest = m with hG
  have hgood : ∀ e ∈ tr₂, G e := fun e he c hc reader hopen =>
    harrived _ ⟨c, reader, List.mem_append_right _ (hc ▸ he), hopen, rfl⟩
  have hopen : Fallible.Relies G (Restore.Engines fun m' => m' = m) (fun reader => reader.manifest = m)
      (SnapshotReader.open codec (finalFile env hello').path) := by
    refine Fallible.Relies.bind (Q := fun r => G ⟨.readFile (finalFile env hello').path, r⟩)
      (Fallible.Relies.sys (Restore.engines_of_reads rfl) fun _ h => h) fun r hr => ?_
    refine Fallible.Relies.bind (relies_orErr fun c hc => ?_) fun c hc => relies_ofExcept hc
    subst hc
    exact hr c rfl
  have hput : ∀ p doc, Restore.Engines (fun m' => m' = m) (.putDoc p doc) := by
    rintro p doc owner r ⟨⟩
  have hmk : ∀ p, Restore.Engines (fun m' => m' = m) (.mkdirAll p) := by rintro p owner r ⟨⟩
  have hadopt : Fallible.Relies G (Restore.Engines fun m' => m' = m) (fun _ => True)
      (Restore.adoptSnapshot env codec (finalFile env hello')) := by
    refine Fallible.Relies.bind hopen fun reader _ => .of_within ?_
    refine Fallible.within_bind ((verify_reads reader).mono fun _ => Restore.engines_of_reads)
      fun _ => Fallible.within_bind ?_ fun _ => trivial
    refine Fallible.within_bind ((within_mkdirAll _ _).mpr (hmk _)) fun _ => Fallible.within_bind ?_
      fun _ => ?_
    · exact Fallible.within_bind ((within_mkdirAll _ _).mpr (hmk _)) fun _ =>
        Fallible.within_bind ((within_mkdirAll _ _).mpr (hmk _)) fun _ =>
          (within_mkdirAll _ _).mpr (hmk _)
    · exact Fallible.within_bind (within_writeDoc (Restore.engines_file _ _).create (hput _ _))
        fun _ => within_writeDoc (Restore.engines_file _ _).create (hput _ _)
  have hrelies : Fallible.Relies G (Restore.Engines fun m' => m' = m) (fun _ => True) (do
        let final ← receiveFile env proto fuel hello'
        let outcome ← (Fallible.attempt (adoptAndRestore env codec final index) :
          HostM (Except RuntimeError Restore.Report))
        answer proto hello' outcome) := by
    refine Fallible.Relies.bind (receiveFile_obeys (fun _ => Restore.engines_of_reads) (hmk _)
      (Restore.engines_file _ _) (by rintro owner r ⟨⟩)).relies fun final hfinal => ?_
    subst hfinal
    refine Fallible.Relies.bind (Fallible.Relies.attempt (Q := fun _ => True) ?_) fun outcome _ =>
      .of_within ((answer_reads _ _).mono fun _ => Restore.engines_of_reads)
    exact Fallible.Relies.bind hadopt fun x _ =>
      Restore.restore_engines hopen rfl finalFile_absolute rfl
  exact (Exec.of_relies hrelies hrun₁ hgood).1

/-- **Both ends of a migration.** A checkpoint returned and its file is still in place, and what arrived at
a receiver is the snapshot in that file. Then the arguments of the checkpoint's dump and those of
the receiver's restore agree exactly when the checkpoint was taken without established connections:
the receiver never asks for them.

The environment of the checkpoint leaves its snapshot alone, and the serialiser decodes what it encoded
for the manifest in it, and nothing that was cut short. -/
theorem agree_iff_of_handedOver {R R' : Host → Host → Prop} {env' : Env} {id : String}
    {opts : Checkpoint.Options} {rep : Checkpoint.Report} {h₁ h₁' h₂ h₂' : Host}
    {tr₁ tr₂ : List HostSig.Event} {out : Option (Except RuntimeError String)} {b : Bytes}
    {d : DumpOptions} {rd : Except DumpFailure (List (String × Bytes))} {owner : String}
    {r : RestoreOptions} {rr : EngineRestore}
    (hcheckpoint : Runs R (Checkpoint.checkpoint env codec id opts) h₁ tr₁ (some (.ok rep)) h₁')
    (hkeeps : Keeps R rep.snapshot.path) (hfile : h₁'.file rep.snapshot.path = some (.bytes b))
    (hcodec : ∀ m data, b = sealedBytes (codec.encode m) data → Faithful codec m)
    (hdump : ⟨.criuDump d, rd⟩ ∈ tr₁)
    (hreceive : Runs R' (handleOne env' codec proto fuel token index) h₂ tr₂ out h₂')
    (hhello : Announced proto tr₂ hello) 
    (harrived : ∀ m, Arrived env' codec hello tr₂ m → SnapshotOf codec b m)
    (hrestore : ⟨.criuRestore owner r, rr⟩ ∈ tr₂) :
    Criu.Agree d r ↔ opts.allowTcp = false := by
  obtain ⟨m, data, rfl, hlayout, htcp⟩ :=
    Checkpoint.checkpoint_ships hkeeps hfile hcheckpoint hdump
  obtain ⟨htcp', m', dir, rfl, hlayout'⟩ :=
    handleOne_engine hhello (fun m' hm' => (harrived m' hm').unique (hcodec m data rfl)) hreceive _
      hrestore owner r rfl
  rw [Criu.agree_iff hlayout hlayout', htcp, htcp']
  simp

end Transport

namespace Demo

open Restore Transport

/-- The serialiser at the manifest of the snapshot, and at no other. -/
def exactCodec : Codec Manifest where
  encode m := if m = manifest then codec.encode manifest else []
  decode := codec.decode

/-- A checkpoint that keeps established connections. -/
def tcpOptions : Checkpoint.Options := ⟨"latest", none, false, true⟩

/-- A checkpoint that does not. -/
def plainOptions : Checkpoint.Options := ⟨"latest", none, false, false⟩

/-- The engine was run on a dump. -/
def dumps : HostSig.Event → Bool
  | ⟨.criuDump _, _⟩ => true
  | _ => false

lemma mem_of_dumps {tr : List HostSig.Event} (h : tr.any dumps = true) :
    ∃ d rd, ⟨.criuDump d, rd⟩ ∈ tr := by
  obtain ⟨⟨o, r⟩, hmem, he⟩ := List.any_eq_true.mp h
  cases o with
  | criuDump d => exact ⟨d, r, hmem⟩
  | _ => cases he

/-- These are the bytes of a snapshot whose manifest is not empty. -/
def hasManifest : Option Content → Bool
  | some (.bytes b) => decide (ofLE ((b.drop 8).take 4) ≠ 0)
  | _ => false

/-- What becomes of a checkpoint of the container: its snapshot, whether the engine was run on a dump, and
whether there is a manifest. -/
def freezes (opts : Checkpoint.Options) : Option (Option (Except RuntimeError Path) × Bool × Bool) :=
  (machine.drive obliging 60 0 (Checkpoint.checkpoint env exactCodec "web" opts).run live).map fun x =>
    (x.2.1.map fun r => r.map fun rep => rep.snapshot.path, x.1.any dumps, hasManifest (x.2.2.file latest.path))

/-- **The source's end.** The checkpoint leaves a snapshot. -/
lemma web_frozen {opts : Checkpoint.Options} (hdrive : freezes opts = some (some (.ok latest.path), true, true)) :
    ∃ rep tr h' b d rd,
      Runs quiet (Checkpoint.checkpoint env exactCodec "web" opts) live tr (some (.ok rep)) h' ∧
        h'.file rep.snapshot.path = some (.bytes b) ∧ ofLE ((b.drop 8).take 4) ≠ 0 ∧
        ⟨.criuDump d, rd⟩ ∈ tr := by
  obtain ⟨⟨tr, out, h'⟩, hx, hall⟩ := Option.map_eq_some_iff.mp hdrive
  simp only [Prod.mk.injEq] at hall
  obtain ⟨hout, hany, hmanifest⟩ := hall
  obtain ⟨res, rfl, hres⟩ := Option.map_eq_some_iff.mp hout
  obtain ⟨d, rd, hmem⟩ := mem_of_dumps hany
  cases res with
  | error e => cases hres
  | ok rep =>
    have hpath : rep.snapshot.path = latest.path := Except.ok.inj hres
    obtain ⟨b, hb, hlen⟩ : ∃ b, h'.file latest.path = some (.bytes b) ∧ ofLE ((b.drop 8).take 4) ≠ 0 := by
      cases hc : h'.file latest.path with
      | none => simp [hc, hasManifest] at hmanifest
      | some c =>
        cases c with
        | bytes b => exact ⟨b, rfl, by simpa [hc, hasManifest] using hmanifest⟩
        | doc text d => simp [hc, hasManifest] at hmanifest
    exact ⟨rep, tr, h', b, d, rd, Machine.drive_exec hx, hpath ▸ hb, hlen, hmem⟩

lemma tcp_freezes : freezes tcpOptions = some (some (.ok latest.path), true, true) := by decide +kernel

lemma plain_freezes : freezes plainOptions = some (some (.ok latest.path), true, true) := by decide +kernel

lemma exactCodec_encode (m : Manifest) :
    exactCodec.encode m = if m = manifest then codec.encode manifest else [] := rfl

lemma exactCodec_decode : exactCodec.decode = codec.decode := rfl

/-- A snapshot whose manifest is not empty has the one manifest that can be encoded. -/
lemma manifest_of_nonempty {m : Manifest} {data : Bytes}
    (h : ofLE (((sealedBytes (exactCodec.encode m) data).drop 8).take 4) ≠ 0) : m = manifest := by
  by_contra hm
  rw [length_of_sealedBytes, exactCodec_encode, if_neg hm] at h
  exact h rfl

lemma exactCodec_faithful : Faithful exactCodec manifest where
  roundTrips := by
    rw [Codec.RoundTrips, exactCodec_encode, if_pos rfl, exactCodec_decode]
    exact codec_roundTrips
  strict := by
    rw [exactCodec_encode, if_pos rfl, exactCodec_decode]
    exact codecOf_strict _ _

lemma snapshotOf_manifest (data : Bytes) :
    SnapshotOf exactCodec (sealedBytes (exactCodec.encode manifest) data) manifest :=
  ⟨[], "", _, openBytes_sealed exactCodec [] "" manifest data exactCodec_faithful.roundTrips
    (by rw [exactCodec_encode, if_pos rfl]; exact manifest_fits), rfl⟩

end Demo

namespace Transport

/-- What arrives is what the checkpoint left, where its manifest is not empty. -/
lemma snapshotOf_arrived {opts : Checkpoint.Options} {rep : Checkpoint.Report} {tr₁ tr₂ : List HostSig.Event}
    {h h₁ : Host} {b : Bytes} {d : DumpOptions} {rd : Except DumpFailure (List (String × Bytes))}
    (hcheckpoint : Runs quiet (Checkpoint.checkpoint Demo.env Demo.exactCodec "web" opts) h tr₁
      (some (.ok rep)) h₁) (hb : h₁.file rep.snapshot.path = some (.bytes b))
    (hlen : ofLE ((b.drop 8).take 4) ≠ 0) (hdump : ⟨.criuDump d, rd⟩ ∈ tr₁) {m : Manifest}
    (hm : Arrived Demo.env Demo.exactCodec Demo.webHello tr₂ m) : SnapshotOf Demo.exactCodec b m := by
  obtain rfl := Demo.manifest_of_arrived hm
  obtain ⟨m, data, rfl, -, -⟩ := Checkpoint.checkpoint_ships (keeps_quiet _) hb hcheckpoint hdump
  obtain rfl := Demo.manifest_of_nonempty hlen
  exact Demo.snapshotOf_manifest data

/-- **Established connections are lost on the way.** A checkpoint that keeps them, and a transfer of its
snapshot: the dump asks for them and the restore does not. -/
theorem handedOver_disagrees : ∃ rep b tr₁ h₁ d rd tr₂ h₂ owner r rr,
    Runs quiet (Checkpoint.checkpoint Demo.env Demo.exactCodec "web" Demo.tcpOptions) Demo.live tr₁
      (some (.ok rep)) h₁ ∧ h₁.file rep.snapshot.path = some (.bytes b) ∧
    ⟨.criuDump d, rd⟩ ∈ tr₁ ∧
    Runs quiet (handleOne Demo.env Demo.exactCodec Demo.webProtocol 2 "secret" 0)
      (Demo.host Demo.frozen [] []) tr₂ none h₂ ∧ Announced Demo.webProtocol tr₂ Demo.webHello ∧
    (∀ m, Arrived Demo.env Demo.exactCodec Demo.webHello tr₂ m → SnapshotOf Demo.exactCodec b m) ∧
    ⟨.criuRestore owner r, rr⟩ ∈ tr₂ ∧ ¬ Criu.Agree d r := by
  obtain ⟨rep, tr₁, h₁, b, d, rd, hcheckpoint, hb, hlen, hdump⟩ := Demo.web_frozen Demo.tcp_freezes
  obtain ⟨t₁, t₂, rep', h₂, hh⟩ := Demo.web_handed
  obtain ⟨owner, r, rr, hengine⟩ := hh.engine
  have hrestore : ⟨.criuRestore owner r, rr⟩ ∈ t₁ ++ (Demo.receiving ++ (t₂ ++ Demo.answering)) := by
    simp [hengine]
  refine ⟨rep, b, tr₁, h₁, d, rd, _, h₂, owner, r, rr, hcheckpoint, hb, hdump, hh.handleOne.to_cut,
    hh.announced, fun m => snapshotOf_arrived hcheckpoint hb hlen hdump, hrestore, fun hagree => ?_⟩
  obtain ⟨m, data, rfl, hlayout, htcp⟩ := Checkpoint.checkpoint_ships (keeps_quiet _) hb hcheckpoint hdump
  obtain rfl := Demo.manifest_of_nonempty hlen
  obtain ⟨htcp', m', dir, rfl, hlayout'⟩ :=
    handleOne_engine hh.announced (fun m' => Demo.manifest_of_arrived) hh.handleOne _ hrestore owner r rfl
  have hboth := (Criu.agree_iff hlayout hlayout').mp hagree
  rw [htcp, htcp'] at hboth
  exact absurd (hboth.mp rfl) Bool.false_ne_true

/-- The two ends of a transfer agree for a checkpoint that does not keep established connections, and do
not for one that does. -/
theorem agree_iff_of_handedOver_demo : (∃ rep tr₁ h₁ d rd tr₂ h₂ owner r rr,
    Runs quiet (Checkpoint.checkpoint Demo.env Demo.exactCodec "web" Demo.plainOptions) Demo.live tr₁
      (some (.ok rep)) h₁ ∧ ⟨.criuDump d, rd⟩ ∈ tr₁ ∧
    Runs quiet (handleOne Demo.env Demo.exactCodec Demo.webProtocol 2 "secret" 0)
      (Demo.host Demo.frozen [] []) tr₂ (some (.ok "web")) h₂ ∧
    ⟨.criuRestore owner r, rr⟩ ∈ tr₂ ∧ Criu.Agree d r) ∧
    ∃ d r, (Criu.Agree d r ↔ Demo.tcpOptions.allowTcp = false) := by
  obtain ⟨t₁, t₂, rep', h₂, hh⟩ := Demo.web_handed
  obtain ⟨owner, r, rr, hengine⟩ := hh.engine
  have hrestore : ⟨.criuRestore owner r, rr⟩ ∈ t₁ ++ (Demo.receiving ++ (t₂ ++ Demo.answering)) := by
    simp [hengine]
  have hcodec : ∀ {b : Bytes}, ofLE ((b.drop 8).take 4) ≠ 0 →
      ∀ m data, b = sealedBytes (Demo.exactCodec.encode m) data → Faithful Demo.exactCodec m := by
    rintro b hlen m data rfl
    obtain rfl := Demo.manifest_of_nonempty hlen
    exact Demo.exactCodec_faithful
  constructor
  · obtain ⟨rep, tr₁, h₁, b, d, rd, hcheckpoint, hb, hlen, hdump⟩ := Demo.web_frozen Demo.plain_freezes
    exact ⟨rep, tr₁, h₁, d, rd, _, h₂, owner, r, rr, hcheckpoint, hdump, hh.handleOne, hrestore,
      (agree_iff_of_handedOver hcheckpoint (keeps_quiet _) hb (hcodec hlen) hdump hh.handleOne hh.announced
        (fun m => snapshotOf_arrived hcheckpoint hb hlen hdump) hrestore).mpr rfl⟩
  · obtain ⟨rep, tr₁, h₁, b, d, rd, hcheckpoint, hb, hlen, hdump⟩ := Demo.web_frozen Demo.tcp_freezes
    exact ⟨d, r, agree_iff_of_handedOver hcheckpoint (keeps_quiet _) hb (hcodec hlen) hdump hh.handleOne
      hh.announced (fun m => snapshotOf_arrived hcheckpoint hb hlen hdump) hrestore⟩

end Transport

end Mincontainer
