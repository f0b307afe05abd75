import Mincontainer.Migration.Staged

set_option relaxedAutoImplicit false
set_option autoImplicit false

/-!
# From one engine to the other

A container changes hosts as the images that its engine wrote. On the source they are packed into a
snapshot, on the destination they are unpacked from a copy of it, and in between there are a writer, a
reader, and whoever brings the copy.

## Main results

* `Mincontainer.Restore.finds_what_was_dumped` — the engine of the destination is run on the images that
  the engine of the source wrote.
-/

namespace Mincontainer

open Effects Files Bytes Snapshot

namespace Restore

section

variable {R : Host → Host → Prop} {env : Env} {id : String} {opts : Options} {h h' : Host}
  {tr : List HostSig.Event}

/-- The engine is not run by what runs no engine. -/
lemma not_mem_of_engines {α : Type} {x : HostM α} {out : Option (Except RuntimeError α)} {owner : String}
    {ro : RestoreOptions} {r : EngineRestore} (hx : x.run.Within (Engines fun _ => False))
    (hrun : Runs R x h tr out h') : ⟨.criuRestore owner ro, r⟩ ∉ tr := by
  intro hmem
  obtain ⟨-, m, dir, hm, -⟩ := Exec.mem_within hx hrun _ hmem owner ro rfl
  exact hm

/-- Picking runs no engine. -/
lemma pick_engines : (pick env id opts).run.Within (Engines fun _ => False) := by
  refine Fallible.within_bind (within_reconcile (sweep_engines _)) fun _ => ?_
  refine Fallible.within_bind (refuseRunning_reads.mono fun _ => engines_of_reads) fun st => ?_
  exact (resolveSnapshot_reads _ _ _).mono fun _ => engines_of_reads

end

/-- **What was dumped is what is resumed.** A checkpoint returned and left its snapshot, and a restore, on
another host or the same, picks a file with the same bytes. Then at whatever point the restore runs the
engine, the directory that it is run on holds exactly the images that the dump of the checkpoint wrote,
by name; and each log of the container is as it was read for the snapshot, unless it was not there.

The environment of the checkpoint leaves the images and the snapshot alone, that of the restore the
file, the staging directory and the logs; the serialiser decodes what it encoded for the manifest, and
nothing that was cut short.

**Proof sketch.** The checkpoint packs the images of its dump. What the restore opens is their table and
their payload, and these determine the entries; so unpacking leaves them, each under its name, and up to
the engine nothing overwrites them. -/
theorem finds_what_was_dumped {R R' : Host → Host → Prop} {env env' : Env} {codec : Codec Manifest}
    {id id' : String} {opts : Checkpoint.Options} {opts' : Options} {rep : Checkpoint.Report}
    {h h' g g' : Host} {tr tr' : List HostSig.Event} {b : Bytes} {p : Path} {c : Content}
    {out : Option (Except RuntimeError Report)} {owner : String} {ro : RestoreOptions} {r : EngineRestore}
    (hcheckpoint : Runs R (Checkpoint.checkpoint env codec id opts) h tr (some (.ok rep)) h')
    (himages : ∀ n, Keeps R (Checkpoint.imagesDir (ContainerStateDir.forId env id) ++ [n]))
    (hscratch : Keeps R (rep.snapshot.withExtension "mcsnap.part"))
    (hsnapshot : Keeps R rep.snapshot.path)
    (hapart : ∀ n, Checkpoint.imagesDir (ContainerStateDir.forId env id) ++ [n] ≠
      rep.snapshot.withExtension "mcsnap.part")
    (hb : h'.file rep.snapshot.path = some (.bytes b))
    (hcodec : ∀ m data, b = sealedBytes (codec.encode m) data → Faithful codec m)
    (hnames : ∀ d images, ⟨.criuDump d, (.ok images : Except DumpFailure (List (String × Bytes)))⟩ ∈ tr →
      ∀ x ∈ images, IsName x.1)
    (haside : Aside env' id' p) (hfile : Keeps R' p) (hc : g.file p = some c) (hraw : c.raw = b)
    (hstaging : ∀ q, (ContainerStateDir.forId env' id').stagingDir <+: q → Keeps R' q)
    (hlogs : ∀ name, Keeps R' ((ContainerStateDir.forId env' id').ioDir ++ [name]))
    (hpick : ∀ path tr₀ tr₁ h₀, tr' = tr₀ ++ tr₁ →
      Runs R' (pick env' id' opts') g tr₀ (some (.ok path)) h₀ → path.path = p)
    (hrestore : Runs R' (restore env' codec id' opts') g tr' out g')
    (hengine : ⟨.criuRestore owner ro, r⟩ ∈ tr') :
    ∃ info images tr₁ tr₂ g₁,
      ⟨.criuDump (Checkpoint.dumpOptions (ContainerStateDir.forId env id) info opts),
        (.ok images : Except DumpFailure (List (String × Bytes)))⟩ ∈ tr ∧
      tr' = tr₁ ++ ⟨.criuRestore owner ro, r⟩ :: tr₂ ∧
      Runs R' (restore env' codec id' opts') g tr₁ none g₁ ∧
      (∀ n, g₁.file (ro.imagesDir ++ [n]) = (dumped images n).map Content.bytes) ∧
      ∀ name ∈ ["stdout", "stderr"],
        (∃ k : Option Kind, ⟨.stat ((ContainerStateDir.forId env id).ioDir ++ [name]), k⟩ ∈ tr ∧
          k ≠ some .file) ∨
        ∃ chunks : List Bytes,
          ⟨.readAll ((ContainerStateDir.forId env id).ioDir ++ [name]), (chunks, none)⟩ ∈ tr ∧
          g₁.file ((ContainerStateDir.forId env' id').ioDir ++ [name]) = some (.bytes chunks.flatten) := by
  obtain ⟨info, images, m, es, hdump, hpacks, hentries, rfl⟩ :=
    Checkpoint.checkpoint_packs himages hscratch hsnapshot hapart hb hcheckpoint
  have hfaithful : Faithful codec m := hcodec m (payload es) (image_eq_sealedBytes _ _)
  have hexamines : ∀ path : PathBuf, (examine env' codec path).run.Within (Engines fun _ => False) :=
    fun path => (examine_reads codec path).mono fun _ => engines_of_reads
  rw [restore_eq_pick] at hrestore ⊢
  -- the engine is run after the snapshot was picked and examined
  rcases Exec.fallible_bind_inv hrestore with ⟨-, hpicked⟩ | ⟨e, -, hpicked⟩ |
    ⟨path, tr₁, tr₂, g₁, rfl, hpicked, hrestore₁⟩
  · exact absurd hengine (not_mem_of_engines pick_engines hpicked)
  · exact absurd hengine (not_mem_of_engines pick_engines hpicked)
  replace hengine := (List.mem_append.mp hengine).resolve_left (not_mem_of_engines pick_engines hpicked)
  obtain rfl := hpick path tr₁ tr₂ g₁ rfl hpicked
  rcases Exec.fallible_bind_inv hrestore₁ with ⟨-, hexamined⟩ | ⟨e, -, hexamined⟩ |
    ⟨reader, tr₃, tr₄, g₂, rfl, hexamined, hrestore₂⟩
  · exact absurd hengine (not_mem_of_engines (hexamines _) hexamined)
  · exact absurd hengine (not_mem_of_engines (hexamines _) hexamined)
  replace hengine := (List.mem_append.mp hengine).resolve_left
    (not_mem_of_engines (hexamines _) hexamined)
  have hc₁ : g₁.file path.path = some c :=
    (Runs.file_kept_of_not_reaches hfile hpicked (Exec.mem_within (within_pick haside) hpicked)).trans hc
  obtain ⟨hmanifest, rest, hpayload⟩ :=
    opened_image hfaithful (hraw ▸ examine_ok hfile hc₁ hexamined)
  rw [← hmanifest] at hentries
  have hcalls : machine.AtCalls R' (AtEngine env' id' images es)
      (restoreFrom env' id' opts' path reader).run g₂ :=
    restoreFrom_atCalls hstaging hlogs hentries hpayload hpacks (hnames _ _ hdump)
  obtain ⟨s, t, rfl⟩ := List.append_of_mem hengine
  obtain ⟨g₃, hcut, -, hat⟩ := hcalls.exec hrestore₂ rfl
  obtain ⟨hdir, hstaged⟩ := hat owner ro rfl
  refine ⟨info, images, tr₁ ++ (tr₃ ++ s), t, g₃, hdump, by simp, ?_, fun n => ?_, fun name hname => ?_⟩
  · exact Exec.fallible_bind hpicked (Exec.fallible_bind hexamined hcut)
  · rw [hdir, List.append_assoc]
    exact hstaged.images n
  · refine (hpacks.log name hname).imp (fun h => h) ?_
    rintro ⟨chunks, hread, he⟩
    exact ⟨chunks, hread, hstaged.logs name hname _ he⟩

end Restore

/-! ### One container -/

namespace Demo

open Restore

/-- A restore from the snapshot, by its path. -/
def fromLatest : Options := ⟨some latest.text, 0, false⟩

/-- The file that it picks. -/
def latestFile : PathBuf := ⟨latest.text, env.cwd⟩

/-- A dump that succeeded has written the one image. -/
def dumpsCore : HostSig.Event → Bool
  | ⟨.criuDump _, .ok images⟩ => decide (images = [("core-1.img", [1])])
  | _ => true

/-- The scratch file of the snapshot is none of the images. -/
lemma images_apart (n : String) :
    Checkpoint.imagesDir (ContainerStateDir.forId env "web") ++ [n] ≠ latest.withExtension "mcsnap.part" := by
  intro heq
  have hparent := congrArg List.dropLast heq
  rw [List.dropLast_concat] at hparent
  have hne : Checkpoint.imagesDir (ContainerStateDir.forId env "web") ≠
      (latest.withExtension "mcsnap.part").dropLast := by
    decide +kernel
  exact hne hparent

/-- The checkpoint leaves the snapshot of the container. -/
lemma web_packed : ∃ rep tr h',
    Runs quiet (Checkpoint.checkpoint env exactCodec "web" tcpOptions) live tr (some (.ok rep)) h' ∧
      rep.snapshot = latest ∧ h'.file latest.path = some (.bytes snapshotBytes) ∧
      ∀ d images, ⟨.criuDump d, (.ok images : Except DumpFailure (List (String × Bytes)))⟩ ∈ tr →
        images = [("core-1.img", [1])] := by
  have hdrive : ((machine.drive obliging 60 0 (Checkpoint.checkpoint env exactCodec "web"
      tcpOptions).run live).map fun x => (x.2.1.map fun r => r.map fun rep => rep.snapshot,
        x.1.all dumpsCore, hasManifest (x.2.2.file latest.path))) =
      some (some (.ok latest), true, true) := by
    decide +kernel
  obtain ⟨⟨tr, out, h'⟩, hx, hall⟩ := Option.map_eq_some_iff.mp hdrive
  simp only [Prod.mk.injEq] at hall
  obtain ⟨hout, hcore, hmanifest⟩ := hall
  obtain ⟨res, rfl, hres⟩ := Option.map_eq_some_iff.mp hout
  cases res with
  | error e => cases hres
  | ok rep =>
    have hsnapshot : rep.snapshot = latest := Except.ok.inj hres
    have hrun := Machine.drive_exec hx
    have himages : ∀ d images,
        ⟨.criuDump d, (.ok images : Except DumpFailure (List (String × Bytes)))⟩ ∈ tr →
          images = [("core-1.img", [1])] := fun d images hmem =>
      of_decide_eq_true (List.all_eq_true.mp hcore _ hmem)
    obtain ⟨b, hb, hlen⟩ : ∃ b, h'.file latest.path = some (.bytes b) ∧ ofLE ((b.drop 8).take 4) ≠ 0 := by
      cases hc : h'.file latest.path with
      | none => simp [hc, hasManifest] at hmanifest
      | some c =>
        cases c with
        | bytes b => exact ⟨b, rfl, by simpa [hc, hasManifest] using hmanifest⟩
        | doc text d => simp [hc, hasManifest] at hmanifest
    refine ⟨rep, tr, h', hrun, hsnapshot, ?_, himages⟩
    obtain ⟨info, images, m, es, hdump, hpacks, hentries, rfl⟩ :=
      Checkpoint.checkpoint_packs (fun _ => keeps_quiet _) (keeps_quiet _) (keeps_quiet _)
        (fun n => hsnapshot ▸ images_apart n) (hsnapshot ▸ hb) hrun
    obtain rfl := manifest_of_nonempty hlen
    obtain rfl := himages _ _ hdump
    have htable : manifest.entries = entries.map Entry.meta := by decide +kernel
    have hone : es.length = 1 := by
      rw [← List.length_map Entry.meta, ← hentries, htable]
      rfl
    obtain ⟨e, rfl⟩ := List.length_eq_one_iff.mp hone
    have hcore : Checkpoint.imageEntry "core-1.img" [1] ∈ [e] := (hpacks.image _ _).mpr rfl
    rw [hb, ← List.mem_singleton.mp hcore, exactCodec_encode, if_pos rfl]
    rfl

/-- A restore from it gets to the engine. -/
lemma web_resumed : ∃ tr out h',
    Runs quiet (restore env exactCodec "web" fromLatest) frozenHost tr out h' ∧
      ∃ owner ro r, ⟨.criuRestore owner ro, r⟩ ∈ tr := by
  have hchosen : chosen "web" fromLatest frozenHost = some (some (.ok latestFile), true) := by
    decide +kernel
  have hway : ({ frozenHost with fs := frozenHost.fs.removeAll (ContainerStateDir.forId env "web").stagingDir } :
      Host).clearWay (ContainerStateDir.forId env "web").stagingDir = true := by
    decide +kernel
  have hany : ((machine.drive obliging 60 0 (onwardsFrom "web" fromLatest latestFile).run
      (unpacked entries "web" frozenHost)).any fun x => x.1.any revives) = true := by
    decide +kernel
  have hpath : latestFile.path = latest.path := by decide +kernel
  obtain ⟨⟨tr, out, h'⟩, hx, hrevives⟩ := (Option.any_eq_true _ _).mp hany
  obtain ⟨tr₀, -, hrestore⟩ :=
    restore_of_chosen hchosen (hpath ▸ frozenHost_latest) hway (by decide +kernel) (Machine.drive_exec hx)
  obtain ⟨owner, ro, r, hmem⟩ := mem_of_revives hrevives
  exact ⟨tr₀ ++ tr, out, h', hrestore, owner, ro, r, List.mem_append_right _ hmem⟩

end Demo

namespace Restore

/-- A container is checkpointed, and another host restores it from the snapshot: the engine finds the one
image. -/
theorem finds_what_was_dumped_demo : ∃ tr₁ g₁ ro,
    Runs quiet (restore Demo.env Demo.exactCodec "web" Demo.fromLatest) Demo.frozenHost tr₁ none g₁ ∧
      g₁.file (RestoreOptions.imagesDir ro ++ ["core-1.img"]) = some (.bytes [1]) := by
  obtain ⟨rep, tr, h', hcheckpoint, hsnapshot, hb, himages⟩ := Demo.web_packed
  obtain ⟨tr', out, g', hrestore, owner, ro, r, hengine⟩ := Demo.web_resumed
  have haside : Aside Demo.env "web" Demo.latest.path :=
    ⟨by decide +kernel, by decide +kernel, by decide +kernel, by decide +kernel⟩
  have hcodec : ∀ m data, Demo.snapshotBytes = sealedBytes (Demo.exactCodec.encode m) data →
      Faithful Demo.exactCodec m := fun m data hm => by
    have hlen : ofLE (((sealedBytes (Demo.exactCodec.encode m) data).drop 8).take 4) ≠ 0 := by
      rw [← hm]
      decide +kernel
    rw [Demo.manifest_of_nonempty hlen]
    exact Demo.exactCodec_faithful
  have hnames : ∀ d images,
      ⟨.criuDump d, (.ok images : Except DumpFailure (List (String × Bytes)))⟩ ∈ tr →
        ∀ x ∈ images, IsName x.1 := fun d images hmem x hx => by
    rw [himages d images hmem, List.mem_singleton] at hx
    rw [hx]
    decide
  have hpick : ∀ path t₀ t₁ k₀, tr' = t₀ ++ t₁ →
      Runs quiet (pick Demo.env "web" Demo.fromLatest) Demo.frozenHost t₀ (some (.ok path)) k₀ →
        path.path = Demo.latest.path := fun path t₀ t₁ k₀ _ hpicked => by
    obtain ⟨u', t₂, t₃, k₂, -, -, hpicked₁⟩ := Exec.fallible_bind_ok hpicked
    obtain ⟨st, t₄, t₅, k₃, -, -, hpicked₂⟩ := Exec.fallible_bind_ok hpicked₁
    obtain rfl := Exec.out_obeys (resolveSnapshot_obeys rfl) hpicked₂ _ rfl path rfl
    decide +kernel
  obtain ⟨info, images, tr₁, tr₂, g₁, hdump, -, hcut, hall, -⟩ := finds_what_was_dumped hcheckpoint
    (fun _ => keeps_quiet _) (keeps_quiet _) (keeps_quiet _) (fun n => hsnapshot ▸ Demo.images_apart n)
    (hsnapshot ▸ hb) hcodec hnames haside (keeps_quiet _) Demo.frozenHost_latest rfl
    (fun _ _ => keeps_quiet _) (fun _ => keeps_quiet _) hpick hrestore hengine
  have hone := hall "core-1.img"
  rw [himages _ _ hdump] at hone
  exact ⟨tr₁, g₁, ro, hcut, hone⟩

end Restore

end Mincontainer
