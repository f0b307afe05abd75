import Mincontainer.Effects.Points
import Mincontainer.Engine.Preserved
import Mincontainer.Migration.Packed
import Mincontainer.Snapshot.Tiling

set_option relaxedAutoImplicit false
set_option autoImplicit false

/-!
# What a restore stages

A restore unpacks its snapshot into a directory of its own, puts the logs back, and only then runs the
engine on the images. When the snapshot is one that a checkpoint packed, the engine finds the images
that the engine of the checkpoint wrote.

## Main definitions

* `Mincontainer.Restore.Staged` — the images are in the staging directory, and the logs in place.

## Main results

* `Mincontainer.Restore.unpack_ok` — what unpacking leaves.
* `Mincontainer.Restore.restoreFrom_atCalls` — what is staged when the engine is run.
-/

namespace Mincontainer

open Effects Files Bytes Snapshot

namespace Snapshot

/-! ### The payload -/

/-- A payload and the table of its entries determine the entries. -/
lemma payload_inj {es es' : List Entry} {x y : Bytes} (hmeta : es.map Entry.meta = es'.map Entry.meta)
    (h : payload es ++ x = payload es' ++ y) : es = es' := by
  induction es generalizing es' with
  | nil => exact (List.map_eq_nil_iff.mp hmeta.symm).symm
  | cons e es ih =>
    cases es' with
    | nil => cases hmeta
    | cons e' es' =>
      obtain ⟨hhead, htail⟩ := List.cons.inj hmeta
      obtain ⟨hname, hlen, -⟩ := EntryMeta.mk.inj hhead
      rw [payload_cons, payload_cons, List.append_assoc, List.append_assoc, Snapshot.frame, Snapshot.frame,
        hname, hlen, List.append_assoc, List.append_assoc, List.append_cancel_left_eq] at h
      obtain ⟨hdata, hrest⟩ := List.append_inj h hlen
      obtain ⟨name, data⟩ := e
      obtain ⟨name', data'⟩ := e'
      obtain rfl : name = name' := hname
      obtain rfl : data = data' := hdata
      rw [ih htail hrest]

/-- What is opened in the image of entries: the manifest, and the frames of the entries.

**Proof sketch.** The manifest was not cut short, or it would not have been decoded; so the frames begin
where the header says. -/
lemma opened_image {codec : Codec Manifest} {m : Manifest} {es : List Entry} {path : Path} {shown : String}
    {reader : SnapshotReader} (hm : Faithful codec m)
    (h : SnapshotReader.openBytes codec path shown (image (codec.encode m) es) = .ok reader) :
    reader.manifest = m ∧ ∃ rest, reader.file.drop reader.payloadStart = payload es ++ rest := by
  have hof : SnapshotOf codec (sealedBytes (codec.encode m) (payload es)) reader.manifest :=
    ⟨path, shown, reader, h, rfl⟩
  have ho := SnapshotReader.openBytes_ok h
  have hdecoded := ho.manifest
  have hstart := ho.start
  rw [image_eq_sealedBytes, manifest_of_sealedBytes] at hdecoded
  rw [image_eq_sealedBytes, length_of_sealedBytes] at hstart
  have hwhole : (codec.encode m).length % 2 ^ 32 = (codec.encode m).length := by
    by_contra hne
    have hmod := Nat.mod_le (codec.encode m).length (2 ^ 32)
    obtain ⟨e, he⟩ := hm.strict ((codec.encode m).length % 2 ^ 32) (by omega)
    rw [he] at hdecoded
    cases hdecoded
  have hdrop := drop_image (codec.encode m) es
  rw [← hwhole, ← hstart, ← ho.file] at hdrop
  exact ⟨hof.unique hm, _, hdrop⟩

end Snapshot

namespace Checkpoint

variable {tr : List HostSig.Event} {dir : ContainerStateDir} {images : List (String × Bytes)}
  {es : List Entry} {staging : Path}

lemma resolve_imageEntry {name : String} (data : Bytes) (hn : IsName name) :
    resolve staging (imageEntry name data).name = staging ++ ["images", name] :=
  resolve_pair (d := "images") (by decide) hn

lemma resolve_logEntry {name : String} (data : Bytes) (hn : IsName name) :
    resolve staging (logEntry name data).name = staging ++ ["io", name] :=
  resolve_pair (d := "io") (by decide) hn

namespace PacksDump

/-- Each entry has its place one level below the directory. -/
lemma place (hp : PacksDump tr dir images es) (hnames : ∀ x ∈ images, IsName x.1) {e : Entry} (he : e ∈ es) :
    ∃ d n, e.name = d ++ "/" ++ n ∧ resolve staging e.name = staging ++ [d, n] := by
  rcases hp.kinds e he with ⟨n, data, rfl⟩ | ⟨n, hn, data, rfl⟩
  · have hname : IsName n := hnames (n, data) (mem_of_dumped ((hp.image n data).mp he))
    exact ⟨"images", n, rfl, resolve_imageEntry data hname⟩
  · have hall : ∀ n ∈ ["stdout", "stderr"], IsName n := by decide
    exact ⟨"io", n, rfl, resolve_logEntry data (hall n hn)⟩

/-- No two entries have the same place. -/
lemma apart (hp : PacksDump tr dir images es) (hnames : ∀ x ∈ images, IsName x.1) :
    es.Pairwise fun d e => resolve staging d.name ≠ resolve staging e.name := by
  have hnodup := List.pairwise_map.mp hp.nodup
  refine hnodup.imp_of_mem fun {a b} ha hb hab heq => hab ?_
  obtain ⟨d, n, hname, hplace⟩ : ∃ d n, a.name = d ++ "/" ++ n ∧ resolve staging a.name = staging ++ [d, n] :=
    hp.place hnames ha
  obtain ⟨d', n', hname', hplace'⟩ : ∃ d n, b.name = d ++ "/" ++ n ∧
      resolve staging b.name = staging ++ [d, n] := hp.place hnames hb
  rw [hplace, hplace', List.append_cancel_left_eq] at heq
  obtain ⟨rfl, hrest⟩ := List.cons.inj heq
  obtain ⟨rfl, -⟩ := List.cons.inj hrest
  rw [hname, hname']

end PacksDump

end Checkpoint

namespace Restore

variable {R : Host → Host → Prop} {env : Env} {codec : Codec Manifest} {id : String} {opts : Options}
  {h h' : Host} {tr : List HostSig.Event} {staging ioDir : Path} {reader : SnapshotReader}
  {es : List Entry} {images : List (String × Bytes)}

/-! ### Unpacking -/

/-- **Unpacking.** The directory is emptied and then holds the entries, each in its place, and nothing
else. -/
lemma unpack_ok {rest : Bytes} {u : Unit} (hk : ∀ q, staging <+: q → Keeps R q)
    (hentries : reader.manifest.entries = es.map Entry.meta)
    (hpayload : reader.file.drop reader.payloadStart = payload es ++ rest)
    (hapart : es.Pairwise fun d e => resolve staging d.name ≠ resolve staging e.name)
    (hrun : Runs R (unpack reader staging) h tr (some (.ok u)) h') :
    (∀ e ∈ es, h'.file (resolve staging e.name) = some (.bytes e.data)) ∧
      ∀ q, staging <+: q → (∀ e ∈ es, q ≠ resolve staging e.name) → h'.file q = none := by
  obtain ⟨h₁, r, tr₁, -, -, rfl, hrun₁⟩ := Exec.call_some_inv hrun
  obtain ⟨u₁, tr₂, tr₃, h₂, rfl, hextract, hrun₂⟩ := Exec.fallible_bind_ok hrun₁
  obtain ⟨there, tr₄, tr₅, h₃, rfl, hstat, hrun₃⟩ := Exec.fallible_bind_ok hrun₂
  obtain ⟨u₂, tr₆, tr₇, h₄, rfl, hmk, hwalk⟩ := Exec.fallible_bind_ok hextract
  have hempty : ∀ q, staging <+: q → h₄.file q = none := fun q hq => by
    rw [Runs.file_kept (hk q hq) ((within_mkdirAll _ _).mpr fun h => h) hmk]
    show Host.file { h₁ with fs := h₁.fs.removeAll staging } q = none
    simp only [Host.file, Tree.get_removeAll, hq, if_true]
  have hlast : ∀ q, staging <+: q → h'.file q = h₂.file q := fun q hq => by
    have hend : (if !there then
        throw (.restore "snapshot contains no images/ entries — nothing to restore")
      else pure () : HostM Unit).run.Within fun o : HostOp => ¬ o.overwrites q := by
      split
      · exact trivial
      · exact trivial
    rw [Runs.file_kept (hk q hq) hend hrun₃, (hk q hq).star (Runs.of_reads (isDir_reads _) hstat)]
  obtain ⟨es', rest', hmeta, hdrop, hbelow, hfiles, hothers⟩ := SnapshotReader.extractEntries_ok hk hwalk
  obtain rfl : es = es' := payload_inj (hentries.symm.trans hmeta) (hpayload.symm.trans hdrop)
  constructor
  · intro e he
    rw [hlast _ (hbelow e he)]
    exact hfiles hapart e he
  · intro q hq hnot
    rw [hlast q hq, hothers q hq hnot]
    exact hempty q hq

/-! ### What is staged -/

/-- The images of the dump, and no others, are in the staging directory, and the logs that were packed are
in place. -/
structure Staged (dir : ContainerStateDir) (images : List (String × Bytes)) (es : List Entry) (h : Host) :
    Prop where
  images : ∀ n, h.file (dir.stagingDir ++ ["images", n]) = (dumped images n).map Content.bytes
  logs : ∀ name ∈ ["stdout", "stderr"], ∀ data, Checkpoint.logEntry name data ∈ es →
    h.file (dir.ioDir ++ [name]) = some (.bytes data)

/-- The images and the logs are in the staging directory. -/
structure Unpacked (staging : Path) (images : List (String × Bytes)) (es : List Entry) (h : Host) : Prop where
  images : ∀ n, h.file (staging ++ ["images", n]) = (dumped images n).map Content.bytes
  logs : ∀ name ∈ ["stdout", "stderr"], ∀ data, Checkpoint.logEntry name data ∈ es →
    h.file (staging ++ ["io", name]) = some (.bytes data)

/-- What was packed of a dump is unpacked. -/
lemma unpacked_of_packed {tr₀ : List HostSig.Event} {dir : ContainerStateDir}
    (hp : Checkpoint.PacksDump tr₀ dir images es) (hnames : ∀ x ∈ images, IsName x.1)
    (hfiles : ∀ e ∈ es, h.file (resolve staging e.name) = some (.bytes e.data))
    (hothers : ∀ q, staging <+: q → (∀ e ∈ es, q ≠ resolve staging e.name) → h.file q = none) :
    Unpacked staging images es h where
  images n := by
    cases hdata : dumped images n with
    | some data =>
      have hfile := hfiles _ ((hp.image n data).mpr hdata)
      rw [Checkpoint.resolve_imageEntry data (hnames (n, data) (mem_of_dumped hdata))] at hfile
      exact hfile
    | none =>
      refine hothers _ (List.prefix_append _ _) fun e he heq => ?_
      rcases hp.kinds e he with ⟨n', data, rfl⟩ | ⟨n', hn', data, rfl⟩
      · have hdata' := (hp.image n' data).mp he
        rw [Checkpoint.resolve_imageEntry data (hnames (n', data) (mem_of_dumped hdata')),
          List.append_cancel_left_eq] at heq
        obtain rfl : n = n' := by simpa using heq
        rw [hdata] at hdata'
        cases hdata'
      · have hall : ∀ n ∈ ["stdout", "stderr"], IsName n := by decide
        rw [Checkpoint.resolve_logEntry data (hall n' hn'), List.append_cancel_left_eq] at heq
        simp at heq
  logs name hname data he := by
    have hall : ∀ n ∈ ["stdout", "stderr"], IsName n := by decide
    have hfile := hfiles _ he
    rw [Checkpoint.resolve_logEntry data (hall name hname)] at hfile
    exact hfile

/-- Only the files of the staging directory matter. -/
lemma Unpacked.of_eq (hu : Unpacked staging images es h)
    (hkept : ∀ q, staging <+: q → h'.file q = h.file q) : Unpacked staging images es h' where
  images n := by
    rw [hkept _ (List.prefix_append _ _)]
    exact hu.images n
  logs name hname data he := by
    rw [hkept _ (List.prefix_append _ _)]
    exact hu.logs name hname data he

/-- A log that was saved is put back. -/
lemma restoreIoFile_ok {name : String} {data : Bytes} {u : Unit} (hk : ∀ q, staging <+: q → Keeps R q)
    (hio : Keeps R (ioDir ++ [name])) (hapart : ¬ staging <+: ioDir ++ [name])
    (hsaved : h.file (staging ++ ["io", name]) = some (.bytes data))
    (hrun : Runs R (restoreIoFile staging ioDir name) h tr (some (.ok u)) h') :
    h'.file (ioDir ++ [name]) = some (.bytes data) := by
  have hsrc : Keeps R (staging ++ ["io", name]) := hk _ (List.prefix_append _ _)
  have hne : staging ++ ["io", name] ≠ ioDir ++ [name] := fun heq =>
    hapart (heq ▸ List.prefix_append _ _)
  obtain ⟨saved, tr₁, tr₂, h₁, rfl, hstat, hrun₁⟩ := Exec.fallible_bind_ok hrun
  have hsaved₁ := (hsrc.star (Runs.of_reads (isFile_reads _) hstat)).trans hsaved
  have hyes : saved = true := by
    obtain ⟨g, k, tr₃, hR, hkind, -, hret⟩ := Exec.call_some_inv hstat
    obtain ⟨-, -, hres⟩ := Exec.ret_some_inv hret
    have hfile : g.kind (staging ++ ["io", name]) = some .file :=
      (g.kind_file_iff _).mpr ⟨_, (hsrc.star hR).trans hsaved⟩
    rw [Host.enabled_stat.mp hkind, hfile] at hres
    exact Except.ok.inj hres
  rw [hyes, if_pos rfl] at hrun₁
  obtain ⟨reply, tr₃, tr₄, h₂, rfl, hread, hrun₂⟩ := Exec.fallible_bind_ok hrun₁
  obtain ⟨c, tr₅, tr₆, h₃, rfl, hor, hrun₃⟩ := Exec.fallible_bind_ok hrun₂
  obtain ⟨u₁, tr₇, tr₈, h₄, rfl, hcreate, happend⟩ := Exec.fallible_bind_ok hrun₃
  obtain rfl : Content.bytes data = c :=
    Option.some.inj (hsaved₁.symm.trans (readFile_ok hsrc (Exec.bind hread hor)))
  obtain ⟨c', hc', hfile⟩ := appendTo_ok hio happend
  rw [createFile_ok hio hcreate] at hc'
  obtain rfl := Option.some.inj hc'
  exact hfile

/-- **Staging.** What was unpacked is staged when everything before the engine succeeded: the images stay
where they are, and the logs are put back.

**Proof sketch.** The logs go back one after the other, into files of their own outside of the staging
directory; what follows makes directories and writes into the leaf. -/
lemma build_stages {dir : ContainerStateDir} {cfg : ContainerConfig} {cgroup : Cgroup}
    (hk : ∀ q, dir.stagingDir <+: q → Keeps R q) (hio : ∀ name, Keeps R (dir.ioDir ++ [name]))
    (hu : Unpacked dir.stagingDir images es h)
    (hrun : Runs R (build env cfg dir) h tr (some (.ok cgroup)) h') : Staged dir images es h' := by
  have hapart : ∀ name, ¬ dir.stagingDir <+: dir.ioDir ++ [name] := fun name =>
    not_below_staging "io" (by decide) (List.prefix_append _ _)
  have hreads : ∀ (q : Path) (o : HostOp), o.reads = true → ¬ o.overwrites q := fun q o ho =>
    HostOp.not_overwrites_of_reads ho q
  have hfile : ∀ q name, q ≠ dir.ioDir ++ [name] →
      AllowsFile (fun o : HostOp => ¬ o.overwrites q) (dir.ioDir ++ [name]) := fun q name hne =>
    ⟨hne, fun _ => hne, hne⟩
  obtain ⟨u, tr₁, tr₂, h₁, rfl, hlogs, hrun₁⟩ := Exec.fallible_bind_ok hrun
  obtain ⟨u₁, tr₃, tr₄, h₂, rfl, hmk, hlogs₁⟩ := Exec.fallible_bind_ok hlogs
  obtain ⟨u₂, tr₅, tr₆, h₃, rfl, hout, herr⟩ := Exec.fallible_bind_ok hlogs₁
  -- what follows the logs overwrites nothing
  have hrest : ∀ q, Keeps R q → h'.file q = h₁.file q := fun q hq => by
    refine Runs.file_kept hq ?_ hrun₁
    refine Fallible.within_bind (within_prepareMountPoints (hreads q) (fun _ _ h => h) fun _ _ _ h => h)
      fun _ => Fallible.within_bind ?_ fun cgroup => ?_
    · refine Fallible.within_bind ((within_sys .delegate).mpr fun h => h) fun _ => ?_
      refine Fallible.within_bind (within_orErr _ _) fun _ => ?_
      exact Fallible.within_bind ((within_mkdirAll _ _).mpr fun h => h) fun _ => trivial
    · exact Fallible.within_bind (within_apply fun _ _ h => h) fun _ => trivial
  have hbelow : ∀ q, dir.stagingDir <+: q → ∀ name, q ≠ dir.ioDir ++ [name] := fun q hq name heq =>
    hapart name (heq ▸ hq)
  have hu₂ : Unpacked dir.stagingDir images es h₂ := hu.of_eq fun q hq =>
    Runs.file_kept (hk q hq) ((within_mkdirAll _ _).mpr fun h => h) hmk
  have hu₃ : Unpacked dir.stagingDir images es h₃ := hu₂.of_eq fun q hq =>
    Runs.file_kept (hk q hq) (within_restoreIoFile (hreads q) (hfile q _ (hbelow q hq _))) hout
  have hu₁ : Unpacked dir.stagingDir images es h₁ := hu₃.of_eq fun q hq =>
    Runs.file_kept (hk q hq) (within_restoreIoFile (hreads q) (hfile q _ (hbelow q hq _))) herr
  refine ⟨fun n => ?_, fun name hname data he => ?_⟩
  · rw [hrest _ (hk _ (List.prefix_append _ _))]
    exact hu₁.images n
  · rw [hrest _ (hio _)]
    obtain rfl | rfl : name = "stdout" ∨ name = "stderr" := by simpa using hname
    · have hne : dir.ioDir ++ ["stdout"] ≠ dir.ioDir ++ ["stderr"] := by simp
      rw [Runs.file_kept (hio _) (within_restoreIoFile (hreads _) (hfile _ _ hne)) herr]
      exact restoreIoFile_ok hk (hio _) (hapart _) (hu₂.logs _ hname data he) hout
    · exact restoreIoFile_ok hk (hio _) (hapart _) (hu₃.logs _ hname data he) herr

/-- The engine is run on the staging directory of the container, and finds the images and the logs. -/
def AtEngine (env : Env) (id : String) (images : List (String × Bytes)) (es : List Entry) (h : Host)
    (o : HostOp) : Prop :=
  ∀ owner ro, o = .criuRestore owner ro →
    ro.imagesDir = (ContainerStateDir.forId env id).stagingDir ++ ["images"] ∧
      Staged (ContainerStateDir.forId env id) images es h

lemma atEngine_of_engines {o : HostOp} (ho : Engines (fun _ => False) o) : AtEngine env id images es h o := by
  rintro owner ro rfl
  obtain ⟨-, m, dir, hm, -⟩ := ho owner ro rfl
  exact hm.elim

/-- What makes no call of the engine needs no look inside. -/
lemma atCalls_of_within {α : Type} {x : HostM α} (hx : x.run.Within (Engines fun _ => False)) :
    machine.AtCalls R (AtEngine env id images es) x.run h :=
  .of_within hx fun _ _ => atEngine_of_engines

/-- **At the engine.** From a snapshot that was packed of a dump, whenever the engine is run the images
of that dump are staged, and the logs.

**Proof sketch.** Unpacking leaves the entries; checking the root file system and recording the mark
touch no file of the staging directory; the build stages them; and between the build and the engine
there is the removal of the old pidfile. After the engine it is not run again. -/
lemma restoreFrom_atCalls {tr₀ : List HostSig.Event} {dir : ContainerStateDir} {path : PathBuf} {rest : Bytes}
    (hk : ∀ q, (ContainerStateDir.forId env id).stagingDir <+: q → Keeps R q)
    (hio : ∀ name, Keeps R ((ContainerStateDir.forId env id).ioDir ++ [name]))
    (hentries : reader.manifest.entries = es.map Entry.meta)
    (hpayload : reader.file.drop reader.payloadStart = payload es ++ rest)
    (hp : Checkpoint.PacksDump tr₀ dir images es) (hnames : ∀ x ∈ images, IsName x.1) :
    machine.AtCalls R (AtEngine env id images es) (restoreFrom env id opts path reader).run h := by
  have hs : AllowsSweep (Engines fun _ => False) env id := sweep_engines _
  have hmk : ∀ p, Engines (fun _ => False) (.mkdirAll p) := by rintro p owner r ⟨⟩
  refine .fallible_bind (atCalls_of_within (within_unpack fun _ => engines_of_stays)) fun u tr₁ h₁ hunpack => ?_
  have hu₁ : Unpacked (ContainerStateDir.forId env id).stagingDir images es h₁ :=
    have hall := unpack_ok hk hentries hpayload (hp.apart hnames) hunpack
    unpacked_of_packed hp hnames hall.1 hall.2
  refine .fallible_bind (atCalls_of_within ((checkRootfs_reads _).mono hs.reads)) fun u tr₂ h₂ hrootfs => ?_
  have hu₂ := hu₁.of_eq fun q hq => (hk q hq).star (Runs.of_reads (checkRootfs_reads _) hrootfs)
  refine .fallible_bind (atCalls_of_within (within_update hs.reads hs.create hs.put)) fun u tr₃ h₃ hmark => ?_
  have hu₃ := hu₂.of_eq fun q hq => by
    have hne : q ≠ (ContainerStateDir.forId env id).stateFile := by
      rintro rfl
      exact not_below_staging "state.json" (by decide) List.prefix_rfl hq
    exact Runs.file_kept (hk q hq) (within_update (fun o ho => HostOp.not_overwrites_of_reads ho q) hne
      fun _ => hne) hmark
  refine .fallible_bind (atCalls_of_within (within_build hs.reads hmk (fun _ => engines_file _ _)
    (by rintro owner r ⟨⟩) (by rintro p f v owner r ⟨⟩))) fun cgroup tr₄ h₄ hbuild => ?_
  have hstaged : Staged (ContainerStateDir.forId env id) images es h₄ := build_stages hk hio hu₃ hbuild
  have hlog : ∀ name, ¬ (ContainerStateDir.forId env id).stagingDir <+:
      (ContainerStateDir.forId env id).ioDir ++ [name] := fun name =>
    not_below_staging "io" (by decide) (List.prefix_append _ _)
  refine .fallible_bind (.fallible_bind (atCalls_of_within ((within_sys (.removeFile _)).mpr
    (engines_file _ _).remove)) fun u tr₅ h₅ hremove => .fallible_bind (.sys fun h₆ hR => ?_)
      fun r tr₆ h₆ _ => ?_) fun res tr₆ h₆ _ => atCalls_of_within ?_
  · rintro owner ro ⟨⟩
    refine ⟨rfl, fun n => ?_, fun name hname data he => ?_⟩
    · have hbelow : (ContainerStateDir.forId env id).stagingDir <+:
          (ContainerStateDir.forId env id).stagingDir ++ ["images", n] := List.prefix_append _ _
      rw [(hk _ hbelow).star hR, Runs.sys_file_kept (o := .removeFile _) (hk _ hbelow) ?_ hremove]
      · exact hstaged.images n
      · intro heq
        have := List.append_cancel_left heq
        simp at this
    · rw [(hio _).star hR, Runs.sys_file_kept (o := .removeFile _) (hio _) ?_ hremove]
      · exact hstaged.logs name hname data he
      · intro heq
        exact hlog name (heq ▸ List.prefix_append _ _)
  · split <;> exact trivial
  · split
    · exact within_undo hs rfl
    refine Fallible.within_bind (Fallible.within_attempt (within_wire hs.reads (by rintro owner r ⟨⟩)
      (by rintro c owner r ⟨⟩))) fun built => ?_
    split
    · exact within_undo hs rfl
    · refine Fallible.within_bind (within_commit hs.reads hs.create hs.put) fun _ => ?_
      exact within_report hs.reads hs.staging

end Restore

end Mincontainer
