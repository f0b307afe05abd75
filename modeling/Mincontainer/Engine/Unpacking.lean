import Mincontainer.Engine.RestorePhases
import Mincontainer.Snapshot.Damage

set_option relaxedAutoImplicit false
set_option autoImplicit false

/-!
# A snapshot that can be restored

Examining and unpacking the image of valid entries, as the first half of a restore does it, and a
host that holds such an image of a checkpointed container.

## Main definitions

* `Mincontainer.Demo.frozenHost` — the host of a checkpointed container and its snapshot.
* `Mincontainer.Demo.unpackedHost` — the same host once the snapshot lies in the staging directory.

## Main results

* `Mincontainer.Restore.examine_yields`, `Mincontainer.Restore.unpack_yields` — the two steps on an
  image, when no call fails.
* `Mincontainer.Demo.restore_run` — a restore gets from the one host to the other.
-/

namespace Mincontainer

open Effects Files Bytes Snapshot

namespace Restore

variable {env : Env} {codec : Codec Manifest} {m : Manifest} {es : List Entry} {h : Host}

/-- Examining an image that was taken on this architecture. -/
lemma examine_yields {path : PathBuf} {c : Content} (hcodec : codec.RoundTrips m)
    (hmax : (codec.encode m).length ≤ maxManifest) (hc : h.file path.path = some c)
    (hraw : c.raw = image (codec.encode m) es) (harch : m.sourceArch = env.arch) :
    Yields (examine env codec path) h (SnapshotReader.ofImage path.path m (codec.encode m) es) h := by
  refine Yields.bind (open_yields hcodec hmax hc hraw) ?_
  refine Yields.bind (verify_yields path.path m _ es _) ?_
  have hcompatible : Yields (checkCompatible env m) h () h := by
    rw [checkCompatible, if_neg (not_not_intro harch), Criu.version, bind_assoc]
    refine Yields.call ⟨.ok "", rfl, rfl⟩ fun r _ hs => ?_
    rcases r with e | v
    · cases hs
    · exact Yields.pure () h
  exact Yields.bind hcompatible (Yields.pure _ h)

/-- The calls of examining the snapshot at a path. -/
def Examines (p : Path) (o : HostOp) : Prop :=
  o = .readFile p ∨ (∃ span, o = .readSpan p span) ∨ o = .criuVersion

lemma reads_of_examines {p : Path} {o : HostOp} (ho : Examines p o) : o.reads = true := by
  rcases ho with rfl | ⟨span, rfl⟩ | rfl <;> rfl

lemma within_examine (codec : Codec Manifest) (path : PathBuf) :
    (examine env codec path).run.Within (Examines path.path) := by
  have hopen : Fallible.Obeys (Examines path.path) (fun reader => reader.path = path.path)
      (SnapshotReader.open codec path.path) := by
    refine Fallible.Obeys.bind (Q := fun _ => True)
      (.of_within ((within_sys (.readFile _)).mpr (.inl rfl))) fun r _ => ?_
    refine Fallible.Obeys.bind (Q := fun _ => True) (.of_within (within_orErr _ _)) fun c _ => ?_
    cases hreader : SnapshotReader.openBytes codec path.path (display path.path) c.raw with
    | error e => exact Fallible.Obeys.throw e
    | ok reader => exact Fallible.Obeys.pure (SnapshotReader.openBytes_ok hreader).path
  refine Fallible.Obeys.within (Q := fun _ => True) (hopen.bind fun reader hpath => .of_within ?_)
  refine Fallible.within_bind ?_ fun _ => Fallible.within_bind ?_ fun _ => trivial
  · exact within_verify reader fun span => .inr (.inl ⟨span, by rw [hpath]⟩)
  · rw [checkCompatible]
    split
    · exact trivial
    · exact ⟨.inr (.inr rfl), fun r => by cases r <;> exact trivial⟩

/-- Unpacking an image that holds something below `images/`. -/
lemma unpack_yields {path staging : Path} {json : Bytes} (htable : m.entries = es.map Entry.meta)
    (hv : ∀ e ∈ es, e.Valid) (hfits : ∀ e ∈ es, SnapshotReader.Fits staging e.name)
    (hes : es.Pairwise Entry.Apart)
    (hway : ({ h with fs := h.fs.removeAll staging } : Host).clearWay staging = true)
    (himages : ∃ e ∈ es, ["images"] <+: e.path ∧ e.path ≠ ["images"]) :
    Yields (unpack (SnapshotReader.ofImage path m json es) staging) h ()
      (es.foldl (Host.unpack staging)
        { h with fs := (h.fs.removeAll staging).mkdirAll staging }) := by
  have hgone : ∀ q, q ≠ [] → (h.fs.removeAll staging).get (staging ++ q) = none := fun q _ => by
    rw [Tree.get_removeAll, if_pos (List.prefix_append _ _)]
  refine Yields.call ⟨(), rfl, rfl⟩ fun _ _ _ => ?_
  obtain ⟨hy, hu⟩ := extractAll_yields (h := { h with fs := h.fs.removeAll staging }) path json
    htable hv hfits hes hway hgone
  refine Yields.bind hy ?_
  obtain ⟨e, he, hp, hne⟩ := himages
  have hdir := hu.above e he _ hp (fun h => hne h.symm) (by simp)
  have hthere : ∀ {g : Host}, g.fs.get (staging ++ ["images"]) = some .dir →
      Yields (isDir (staging ++ ["images"])) g true g := fun {g} hg => by
    refine Yields.call ⟨some .dir, Host.enabled_stat.mpr (by simp [Host.kind, hg]), rfl⟩ fun k hk _ => ?_
    obtain rfl : k = some .dir := by simpa [Host.kind, hg] using Host.enabled_stat.mp hk
    exact Yields.pure true _
  exact Yields.bind (hthere hdir) (Yields.pure () _)

end Restore

/-! ### One checkpointed container -/

namespace Demo

open Restore

/-- A host that holds a checkpointed container and its snapshot. -/
def frozenHost : Host := host frozen [(latest.path, .bytes snapshotBytes)] []

/-- The same with the snapshot of a networked container. -/
def networkedHost : Host :=
  host frozen [(latest.path, .bytes (image (networkedCodec.encode networkedManifest) entries))] []

/-- The container's directory. -/
def dir : ContainerStateDir := ContainerStateDir.forId env "web"

/-- The same host with the snapshot unpacked. -/
def unpackedHost : Host :=
  entries.foldl (Host.unpack dir.stagingDir)
    { frozenHost with fs := (frozenHost.fs.removeAll dir.stagingDir).mkdirAll dir.stagingDir }

/-- A plain restore. -/
def restoreOptions : Options := ⟨none, 0, false⟩

lemma frozenHost_latest : frozenHost.file latest.path = some (.bytes snapshotBytes) := by
  rw [frozenHost, latest_path]
  rfl

/-- Which snapshot a restore of the container `id` chooses, and whether all its calls on the way are
`good`. -/
def chosenBy (good : HostSig.Event → Bool) (id : String) (opts : Options) (h : Host) :
    Option (Option (Except RuntimeError PathBuf) × Bool) :=
  (machine.drive obliging 40 0 (do
    reconcile env id
    let st ← refuseRunning env id
    resolveSnapshot env (ContainerStateDir.forId env id) st opts : HostM PathBuf).run h).map
  fun x => (x.2.1, x.1.all good)

/-- Which snapshot it chooses, and whether it only looked. -/
def chosen : String → Options → Host → Option (Option (Except RuntimeError PathBuf) × Bool) :=
  chosenBy fun e => e.1.reads

/-- A restore that chooses a snapshot of the image selects it. -/
lemma select_snapshot {good : HostSig.Event → Bool} (hgood : ∀ e, good e = true → e.1.reads = true)
    {codec : Codec Manifest} {m : Manifest} {es : List Entry}
    (hcodec : codec.RoundTrips m) (hmax : (codec.encode m).length ≤ maxManifest)
    (harch : m.sourceArch = env.arch) {id : String} {opts : Options} {h : Host} {b : PathBuf}
    (hchosen : chosenBy good id opts h = some (some (.ok b), true))
    (hexamine : ∀ o, Examines b.path o → ∀ r, good ⟨o, r⟩ = true)
    (hfile : h.file b.path = some (.bytes (image (codec.encode m) es))) :
    ∃ tr, (∀ e ∈ tr, good e = true) ∧ Runs quiet (select env codec id opts) h tr
      (some (.ok (b, SnapshotReader.ofImage b.path m (codec.encode m) es))) h := by
  obtain ⟨⟨tr, out, h'⟩, hx, hall⟩ := Option.map_eq_some_iff.mp hchosen
  obtain ⟨rfl, htr⟩ := Prod.mk.inj hall
  have htrace : ∀ e ∈ tr, good e = true := List.all_eq_true.mp htr
  have hchosen := Machine.drive_exec hx
  obtain rfl := reflTransGen_quiet.mp (Runs.star_of_reads hchosen fun e he => hgood e (htrace e he))
  obtain ⟨tr', -, hexamined⟩ := (examine_yields hcodec hmax hfile rfl harch :
    Yields (examine env codec b) h _ h).possible
  have hexamined' := Exec.mem_within (within_examine _ _) hexamined
  obtain ⟨u, tr₁, tr₂, h₁, rfl, hrec, hchosen₁⟩ := Exec.fallible_bind_ok hchosen
  obtain ⟨st, tr₃, tr₄, h₂, rfl, hst, hpath⟩ := Exec.fallible_bind_ok hchosen₁
  refine ⟨tr₁ ++ (tr₃ ++ (tr₄ ++ (tr' ++ []))), fun e he => ?_, ?_⟩
  · simp only [List.append_nil, List.mem_append] at he
    rcases he with he | he | he | he
    · exact htrace e (by simp [he])
    · exact htrace e (by simp [he])
    · exact htrace e (by simp [he])
    · exact hexamine _ (hexamined' e he) _
  · exact Exec.bind hrec (Exec.bind hst (Exec.bind hpath (Exec.bind hexamined (.ret _ _))))

/-- The host with a snapshot of these entries unpacked for the container `id`. -/
def unpacked (es : List Entry) (id : String) (h : Host) : Host :=
  es.foldl (Host.unpack (ContainerStateDir.forId env id).stagingDir)
    { h with
      fs := (h.fs.removeAll (ContainerStateDir.forId env id).stagingDir).mkdirAll
        (ContainerStateDir.forId env id).stagingDir }

/-- An image with files of the engine is unpacked. -/
lemma unpack_snapshot {P : HostOp → Prop} {m : Manifest} {json : Bytes} {es : List Entry} {id : String}
    {h : Host} {path : Path} (htable : m.entries = es.map Entry.meta) (hv : ∀ e ∈ es, e.Valid)
    (hfits : ∀ e ∈ es, SnapshotReader.Fits (ContainerStateDir.forId env id).stagingDir e.name)
    (hes : es.Pairwise Entry.Apart)
    (hway : ({ h with fs := h.fs.removeAll (ContainerStateDir.forId env id).stagingDir } :
      Host).clearWay (ContainerStateDir.forId env id).stagingDir = true)
    (himages : ∃ e ∈ es, ["images"] <+: e.path ∧ e.path ≠ ["images"])
    (hp : AllowsExtract P path (ContainerStateDir.forId env id).stagingDir)
    (hremove : P (.removeDirAll (ContainerStateDir.forId env id).stagingDir))
    (hstat : P (.stat ((ContainerStateDir.forId env id).stagingDir ++ ["images"]))) :
    ∃ tr, (∀ e ∈ tr, P e.1) ∧ Runs quiet (unpack (SnapshotReader.ofImage path m json es)
      (ContainerStateDir.forId env id).stagingDir) h tr (some (.ok ())) (unpacked es id h) := by
  obtain ⟨tr, -, hunpack⟩ := (unpack_yields htable hv hfits hes hway himages :
    Yields (unpack (SnapshotReader.ofImage path m json es)
      (ContainerStateDir.forId env id).stagingDir) h () (unpacked es id h)).possible
  exact ⟨tr, Exec.mem_within (within_unpack_of hp hremove hstat) hunpack, hunpack⟩

/-- Unpacking makes file calls only. -/
lemma plain_extract (source dir : Path) : AllowsExtract (fun o : HostOp => o.plain = true) source dir :=
  ⟨fun _ => rfl, fun _ _ => rfl, fun _ _ => ⟨rfl, fun _ => rfl, rfl⟩⟩

lemma entries_images : ∃ e ∈ entries, ["images"] <+: e.path ∧ e.path ≠ ["images"] :=
  ⟨_, List.mem_singleton.mpr rfl, by decide⟩

/-- A restore of the container `id` once the snapshot with this manifest is unpacked. -/
def onwardsWith (m : Manifest) (id : String) (opts : Options) (b : PathBuf) : HostM Report := do
  checkRootfs env m.config
  setStatus env id .restoring
  rebuild env id opts b m

/-- The same for the one manifest there is. -/
def onwardsFrom (id : String) (opts : Options) (b : PathBuf) : HostM Report :=
  onwardsWith manifest id opts b

/-- **The first half of a restore.** What the second half does from the host with the snapshot
unpacked, the whole restore does from the one before that; on the way there it makes calls in `P` only. -/
lemma restore_of_selected {good : HostSig.Event → Bool} {P : HostOp → Prop} {text : String} {m : Manifest}
    {id : String} {opts : Options} {h h' : Host} {b : PathBuf} {tr : List HostSig.Event}
    {out : Option (Except RuntimeError Report)}
    (hgood : ∀ e, good e = true → e.1.reads = true ∧ P e.1)
    (hexamine : ∀ o, Examines b.path o → ∀ r, good ⟨o, r⟩ = true)
    (hextract : AllowsExtract P b.path (ContainerStateDir.forId env id).stagingDir)
    (hremove : P (.removeDirAll (ContainerStateDir.forId env id).stagingDir))
    (hstat : P (.stat ((ContainerStateDir.forId env id).stagingDir ++ ["images"])))
    (hmax : ((codecOf text m).encode m).length ≤ maxManifest) (harch : m.sourceArch = env.arch)
    (htable : m.entries = entries.map Entry.meta)
    (hchosen : chosenBy good id opts h = some (some (.ok b), true))
    (hfile : h.file b.path = some (.bytes (image ((codecOf text m).encode m) entries)))
    (hway : ({ h with fs := h.fs.removeAll (ContainerStateDir.forId env id).stagingDir } :
      Host).clearWay (ContainerStateDir.forId env id).stagingDir = true)
    (hfits : ∀ e ∈ entries, SnapshotReader.Fits (ContainerStateDir.forId env id).stagingDir e.name)
    (hrun : Runs quiet (onwardsWith m id opts b) (unpacked entries id h) tr out h') :
    ∃ tr₀, (∀ e ∈ tr₀, P e.1) ∧ Runs quiet (restore env (codecOf text m) id opts) h (tr₀ ++ tr) out h' := by
  obtain ⟨tr₁, hlooks, hselect⟩ := select_snapshot (fun e he => (hgood e he).1) (codecOf_roundTrips text m)
    hmax harch hchosen hexamine hfile
  obtain ⟨tr₂, hunpacks, hunpack⟩ : ∃ tr, (∀ e ∈ tr, P e.1) ∧
      Runs quiet (unpack (SnapshotReader.ofImage b.path m ((codecOf text m).encode m) entries)
        (ContainerStateDir.forId env id).stagingDir) h tr (some (.ok ())) (unpacked entries id h) :=
    unpack_snapshot htable entries_valid hfits (List.pairwise_singleton _ _) hway
      entries_images hextract hremove hstat
  refine ⟨tr₁ ++ tr₂, fun e he => ?_, ?_⟩
  · exact (List.mem_append.mp he).elim (fun h => (hgood e (hlooks e h)).2) (hunpacks e)
  · rw [List.append_assoc]
    exact Exec.bind hselect (Exec.bind hunpack hrun)

/-- On the way there it makes plain calls only. -/
lemma restore_of_unpacked {text : String} {m : Manifest} {id : String} {opts : Options} {h h' : Host}
    {b : PathBuf} {tr : List HostSig.Event} {out : Option (Except RuntimeError Report)}
    (hmax : ((codecOf text m).encode m).length ≤ maxManifest) (harch : m.sourceArch = env.arch)
    (htable : m.entries = entries.map Entry.meta)
    (hchosen : chosen id opts h = some (some (.ok b), true))
    (hfile : h.file b.path = some (.bytes (image ((codecOf text m).encode m) entries)))
    (hway : ({ h with fs := h.fs.removeAll (ContainerStateDir.forId env id).stagingDir } :
      Host).clearWay (ContainerStateDir.forId env id).stagingDir = true)
    (hfits : ∀ e ∈ entries, SnapshotReader.Fits (ContainerStateDir.forId env id).stagingDir e.name)
    (hrun : Runs quiet (onwardsWith m id opts b) (unpacked entries id h) tr out h') :
    ∃ tr₀, (∀ e ∈ tr₀, e.1.plain = true) ∧
      Runs quiet (restore env (codecOf text m) id opts) h (tr₀ ++ tr) out h' :=
  restore_of_selected (fun _ h => ⟨h, HostOp.plain_of_reads h⟩) (fun _ ho _ => reads_of_examines ho)
    (plain_extract _ _) rfl rfl hmax harch htable hchosen hfile hway hfits hrun

/-- The same for the one manifest there is. -/
lemma restore_of_chosen {id : String} {opts : Options} {h h' : Host} {b : PathBuf}
    {tr : List HostSig.Event} {out : Option (Except RuntimeError Report)}
    (hchosen : chosen id opts h = some (some (.ok b), true))
    (hfile : h.file b.path = some (.bytes snapshotBytes))
    (hway : ({ h with fs := h.fs.removeAll (ContainerStateDir.forId env id).stagingDir } :
      Host).clearWay (ContainerStateDir.forId env id).stagingDir = true)
    (hfits : ∀ e ∈ entries, SnapshotReader.Fits (ContainerStateDir.forId env id).stagingDir e.name)
    (hrun : Runs quiet (onwardsFrom id opts b) (unpacked entries id h) tr out h') :
    ∃ tr₀, (∀ e ∈ tr₀, e.1.plain = true) ∧
      Runs quiet (restore env codec id opts) h (tr₀ ++ tr) out h' :=
  restore_of_unpacked (m := manifest) manifest_fits rfl (by decide +kernel) hchosen hfile hway hfits hrun

/-- A restore once the snapshot is unpacked. -/
def onwards : HostM Report := do
  checkRootfs env manifest.config
  setStatus env "web" .restoring
  rebuild env "web" restoreOptions latest manifest

/-- The same for the checkpointed container. -/
lemma restore_run {tr : List HostSig.Event} {out : Option (Except RuntimeError Report)} {h' : Host}
    (hrun : Runs quiet onwards unpackedHost tr out h') :
    ∃ tr₀, (∀ e ∈ tr₀, e.1.plain = true) ∧
      Runs quiet (restore env codec "web" restoreOptions) frozenHost (tr₀ ++ tr) out h' :=
  restore_of_chosen (by decide +kernel) frozenHost_latest (by decide +kernel) (by decide +kernel) hrun

end Demo

end Mincontainer
