import Mincontainer.Snapshot.Damage

set_option relaxedAutoImplicit false
set_option autoImplicit false

/-!
# What an interrupted `finish` leaves at its destination

`finish` writes the destination in place: it truncates the file before the first byte of the new
snapshot is there. Whether the old snapshot, the new one, or neither is found afterwards depends
on where it was stopped.

## Main definitions

* `Mincontainer.landing` — what one call leaves of a file that is only created and appended to.
* `Mincontainer.Accepted` — a content that `open` and `verify` accept, wherever it lies.

## Main results

* `Mincontainer.Runs.file_landing` — such a file is determined by the replies of a run.
* `Mincontainer.SnapshotWriter.finish_atomic` — stopped before the file is created, or after the
  last write, `finish` leaves the old content or a complete snapshot.
* `Mincontainer.SnapshotWriter.finish_truncates` — stopped in between, it leaves neither.
-/

namespace Mincontainer

open Effects Files Bytes Snapshot

/-! ### A file that is streamed to -/

/-- What a call leaves of the file at `p`, when it creates the file or appends to it. -/
def landing (p : Path) (c : Option Content) : HostSig.Event → Option Content
  | ⟨.createFile q, r⟩ =>
    match (r : Except String Unit) with
    | .ok _ => if q = p then some (.bytes []) else c
    | .error _ => c
  | ⟨.append q data, r⟩ =>
    let landed := match (r : Except (Nat × String) Unit) with
      | .ok _ => data
      | .error (n, _) => data.take n
    if q = p then c.map fun c => .bytes (c.raw ++ landed) else c
  | _ => c

/-- The call changes the file at `p` by creating it or appending to it only. -/
def HostOp.Streams (p : Path) (o : HostOp) : Prop :=
  ¬ o.overwrites p ∨ o = .createFile p ∨ ∃ data, o = .append p data

lemma Host.file_extend_map (h : Host) (p : Path) (data : Bytes) :
    (h.extend p data).file p = (h.file p).map fun c => .bytes (c.raw ++ data) := by
  cases hc : h.file p with
  | some c => exact h.file_extend hc data
  | none => simp [Host.extend, hc]

/-- One call. -/
lemma Host.next_landing (h : Host) {p : Path} {o : HostOp} (ho : o.Streams p) (r : o.Reply) :
    (h.next o r).file p = landing p (h.file p) ⟨o, r⟩ := by
  rcases ho with ho | rfl | ⟨data, rfl⟩
  · rw [h.next_file ho r]
    cases o with
    | createFile q =>
      have hq : q ≠ p := fun hq => ho hq.symm
      rcases r with e | u
      · rfl
      · exact (if_neg hq).symm
    | append q data =>
      have hq : q ≠ p := fun hq => ho hq.symm
      exact (if_neg hq).symm
    | _ => rfl
  · rcases r with e | u
    · rfl
    · exact (h.file_write p _).trans (if_pos rfl).symm
  · rcases r with ⟨n, e⟩ | u
    · exact (h.file_extend_map p _).trans (if_pos rfl).symm
    · exact (h.file_extend_map p _).trans (if_pos rfl).symm

section

variable {R : Host → Host → Prop} {α : Type} {x : Program HostSig α} {h h' : Host}
  {tr : List HostSig.Event} {out : Option α} {p : Path}

/-- **Streaming.** A file that is only created and appended to holds what the replies say has
reached it. -/
lemma Runs.file_landing (hk : Keeps R p) (hx : x.Within (HostOp.Streams p))
    (hrun : Exec machine R x h tr out h') : h'.file p = tr.foldl (landing p) (h.file p) := by
  induction hrun with
  | cut y h => rfl
  | ret a h => rfl
  | call hr _ ih =>
    rw [List.foldl_cons, ih (hx.2 _), ← Host.next_landing _ hx.1]
    rfl
  | env hR _ ih => rw [ih hx, hk _ _ hR]

end

/-! ### Accepted contents -/

/-- Wherever this content lies, `open` and `verify` accept it: they return, and only with success,
unless a read fails. -/
def Accepted (codec : Codec Manifest) (c : Content) : Prop :=
  ∀ (g : Host) (path : Path), g.file path = some c →
    Yields (SnapshotReader.accept codec path) g () g

/-- A file that is framed as a snapshot is accepted. -/
lemma accepted_sealedBytes {codec : Codec Manifest} {m : Manifest} {data : Bytes} {c : Content}
    (hcodec : codec.RoundTrips m) (hmax : (codec.encode m).length ≤ maxManifest)
    (hc : c.raw = sealedBytes (codec.encode m) data) : Accepted codec c := fun _ path hg =>
  Yields.bind (open_yields_sealed hcodec hmax hg hc) (verify_yields_sealed path m _ data _)

/-- What is accepted is at least as long as the fixed parts of a snapshot. -/
lemma Accepted.long {codec : Codec Manifest} {c : Content} (hc : Accepted codec c) :
    24 ≤ c.raw.length := by
  set g : Host := ⟨⟨[(["x"], .file c)]⟩, [], []⟩
  have hg : g.file ["x"] = some c := rfl
  obtain ⟨tr, -, hrun⟩ := (hc g ["x"] hg).possible
  obtain ⟨r, tr₁, tr₂, h₁, rfl, hopen, -⟩ := Exec.fallible_bind_ok hrun
  exact (SnapshotReader.open_ok (keeps_quiet _) hg hopen).long

/-! ### `finish` -/

namespace SnapshotWriter

variable {R : Host → Host → Prop} {w : SnapshotWriter} {codec : Codec Manifest} {dest : PathBuf}
  {build : List EntryMeta → HostM Manifest} {h h' : Host} {tr : List HostSig.Event}
  {out : Option (Except RuntimeError Manifest)}

/-- The writes of `finish` only create the destination and append to it. -/
lemma streams_writeFinal
    (hbuild : (build w.entries).run.Within fun o : HostOp => o.reads = true) :
    (w.writeFinal codec dest build).run.Within (HostOp.Streams dest.path) := by
  have happ : ∀ (v : CrcWriter) (data : Bytes) (f : String → RuntimeError), v.path = dest.path →
      Fallible.Obeys (HostOp.Streams dest.path) (fun v' : CrcWriter => v'.path = dest.path)
        (v.writeAll data f) := fun v data f hv => by
    refine Fallible.Obeys.bind (Fallible.Obeys.of_within ((within_appendTo _ _ _).mpr ?_))
      fun _ _ => Fallible.Obeys.pure hv
    exact .inr (.inr ⟨data, by rw [hv]⟩)
  have hreads : ∀ o : HostOp, o.reads = true → o.Streams dest.path := fun o ho =>
    .inl (HostOp.not_overwrites_of_reads ho _)
  refine Fallible.within_bind (hbuild.mono hreads) fun m => ?_
  dsimp only
  split
  · exact trivial
  refine Fallible.within_bind ((within_createFile _ _).mpr (.inr (.inl rfl))) fun _ => ?_
  refine Fallible.Obeys.within (Q := fun _ => True) (Fallible.Obeys.bind (happ _ _ _ rfl) fun v hv => ?_)
  refine Fallible.Obeys.bind (Fallible.Obeys.of_within ((within_sys _).mpr (hreads _ rfl)))
    fun read _ => ?_
  refine Fallible.Obeys.bind (Q := fun v' : CrcWriter => v'.path = dest.path)
    (Fallible.Obeys.bind (Fallible.Obeys.of_within (within_copyChunks fun b => ?_)) fun _ _ =>
      Fallible.Obeys.pure hv) fun v' hv' => ?_
  · exact .inr (.inr ⟨b, by rw [hv]⟩)
  split
  · exact Fallible.Obeys.throw _
  · refine Fallible.Obeys.bind (happ _ _ _ hv') fun v'' hv'' => ?_
    exact Fallible.Obeys.bind (happ _ _ _ hv'') fun _ _ => Fallible.Obeys.pure trivial

/-- Until it has created the destination, `finish` leaves it alone. -/
lemma writeFinal_kept (hk : Keeps R dest.path)
    (hbuild : (build w.entries).run.Within fun o : HostOp => o.reads = true)
    (hrun : Runs R (w.writeFinal codec dest build) h tr out h')
    (hcreate : ⟨.createFile dest.path, .ok ()⟩ ∉ tr) : h'.file dest.path = h.file dest.path := by
  have hkept : ∀ {g g' tr' out'}, Runs R (build w.entries) g tr' out' g' →
      g'.file dest.path = g.file dest.path := fun hrun' =>
    Runs.file_kept hk (hbuild.mono fun o ho => HostOp.not_overwrites_of_reads ho _) hrun'
  rcases Exec.fallible_bind_inv hrun with ⟨-, hm⟩ | ⟨e, -, hm⟩ | ⟨m, tr₁, tr₂, h₁, rfl, hm, hrun₁⟩
  · exact hkept hm
  · exact hkept hm
  dsimp only at hrun₁
  split at hrun₁
  · obtain ⟨-, hR, -⟩ := Exec.ret_inv hrun₁
    exact (hk.star hR).trans (hkept hm)
  obtain ⟨h₂, hR, ⟨-, -, rfl⟩ | ⟨r, tr₃, -, rfl, hrun₂⟩⟩ := Exec.call_inv hrun₁
  · exact (hk.star hR).trans (hkept hm)
  rcases r with e | u
  · obtain ⟨-, hR', -⟩ := Exec.ret_inv hrun₂
    exact (hk.star hR').trans ((hk.star hR).trans (hkept hm))
  · exact absurd (List.mem_append_right _ List.mem_cons_self) hcreate

/-- **The destination of an interrupted `finish`.** Let `finish` be killed, fail or return. If it
has created the file at its destination, let it then have made all its writes; and let the
manifests that are built have fewer than 2³² bytes, and be decoded as they were encoded. Then the
destination is what it was, or a complete snapshot that `open` and `verify` accept.

**Proof sketch.** Before the file is created nothing touches it. After the last write it is framed
as a snapshot; a run with the same replies that was cut there leaves the same file, since the
replies determine it. -/
theorem finish_atomic (hk : Keeps R dest.path) (hne : w.scratchPath ≠ dest.path)
    (hbuild : (build w.entries).run.Within fun o : HostOp => o.reads = true)
    (hcodec : ∀ g tr' m g', Runs R (build w.entries) g tr' (some (.ok m)) g' → codec.RoundTrips m)
    (hsmall : ∀ g tr' m g', Runs R (build w.entries) g tr' (some (.ok m)) g' →
      (codec.encode m).length < 2 ^ 32)
    (hrun : Runs R (w.finish codec dest build) h tr out h')
    (hwritten : ⟨.createFile dest.path, .ok ()⟩ ∈ tr → ∃ tr₁ tr₂ m h₁, tr = tr₁ ++ tr₂ ∧
      Runs R (w.writeFinal codec dest build) h tr₁ (some (.ok m)) h₁) :
    h'.file dest.path = h.file dest.path ∨
      ∃ c, h'.file dest.path = some c ∧ Accepted codec c := by
  rw [finish_eq] at hrun
  have hdone : ∀ {m tr₁ h₁}, Runs R (w.writeFinal codec dest build) h tr₁ (some (.ok m)) h₁ →
      ∃ c, h₁.file dest.path = some c ∧ Accepted codec c := fun {m _ _} hwrite => by
    obtain ⟨hmax, ⟨g, tr', -, hm⟩, data, hfile, -⟩ := writeFinal_ok hk hwrite
    rw [Nat.mod_eq_of_lt (hsmall _ _ _ _ hm)] at hmax
    exact ⟨_, hfile, accepted_sealedBytes (hcodec _ _ _ _ hm) hmax rfl⟩
  -- stopped within its writes
  have hstopped : ∀ {o}, Runs R (w.writeFinal codec dest build) h tr o h' →
      h'.file dest.path = h.file dest.path ∨
        ∃ c, h'.file dest.path = some c ∧ Accepted codec c := fun hwrite => by
    by_cases hcreate : ⟨.createFile dest.path, .ok ()⟩ ∈ tr
    · obtain ⟨tr₁, tr₂, m, h₁, rfl, hfull⟩ := hwritten hcreate
      obtain ⟨rfl, -⟩ := Exec.returned_unique hfull hwrite
      obtain ⟨c, hc, haccept⟩ := hdone hfull
      have hstreams : (w.writeFinal codec dest build).run.Within (HostOp.Streams dest.path) :=
        streams_writeFinal hbuild
      refine .inr ⟨c, ?_, haccept⟩
      rw [← hc, Runs.file_landing hk hstreams hwrite, Runs.file_landing hk hstreams hfull,
        List.append_nil]
    · exact .inl (writeFinal_kept hk hbuild hwrite hcreate)
  rcases Exec.fallible_bind_inv hrun with ⟨-, hwrite⟩ | ⟨e, -, hwrite⟩ |
    ⟨m, tr₁, tr₂, h₁, rfl, hwrite, hrest⟩
  · exact hstopped hwrite
  · exact hstopped hwrite
  · obtain ⟨c, hc, haccept⟩ := hdone hwrite
    refine .inr ⟨c, ?_, haccept⟩
    rw [← hc]
    refine Runs.file_kept hk (x := do sys (.removeFile w.scratchPath); pure m) ?_ hrest
    exact Fallible.within_bind ((within_sys _).mpr hne.symm) fun _ => trivial

end SnapshotWriter

namespace Demo

/-- The writer of a second snapshot of the container, under the name of the first. -/
def second : SnapshotWriter := ⟨latest.withExtension "mcsnap.part", []⟩

/-- The manifest of the second snapshot. -/
def buildSecond : List EntryMeta → HostM Manifest := fun _ => pure manifest

/-- The host before the second snapshot is written. -/
def rewritten : Host :=
  host frozen [(latest.path, .bytes snapshotBytes), (latest.withExtension "mcsnap.part", .bytes [])] []

lemma rewritten_latest : rewritten.file latest.path = some (.bytes snapshotBytes) := by
  rw [rewritten, latest_path]
  rfl

lemma accepted_snapshotBytes : Accepted codec (.bytes snapshotBytes) :=
  accepted_sealedBytes codec_roundTrips manifest_fits (image_eq_sealedBytes _ entries)

end Demo

/-- `finish` is killed right after it has created its destination: the snapshot that was there
under the same name is gone, and what is there instead is not a snapshot. -/
theorem SnapshotWriter.finish_truncates :
    ∃ tr h' c, Runs quiet (Demo.second.finish Demo.codec Demo.latest Demo.buildSecond)
        Demo.rewritten tr none h' ∧
      Demo.rewritten.file Demo.latest.path = some (.bytes Demo.snapshotBytes) ∧
      Accepted Demo.codec (.bytes Demo.snapshotBytes) ∧
      h'.file Demo.latest.path = some c ∧ c ≠ .bytes Demo.snapshotBytes ∧
      ¬ Accepted Demo.codec c := by
  have hkilled : ((machine.drive (killedAt 1) 10 0
      (Demo.second.finish Demo.codec Demo.latest Demo.buildSecond).run Demo.rewritten).map
        fun x => (x.2.1.isNone, x.2.2.file Demo.latest.path)) = some (true, some (.bytes [])) := by
    decide +kernel
  obtain ⟨⟨tr, out, h'⟩, hx, hall⟩ := Option.map_eq_some_iff.mp hkilled
  obtain ⟨hout, hfile⟩ := Prod.mk.inj hall
  obtain rfl := Option.isNone_iff_eq_none.mp hout
  refine ⟨tr, h', .bytes [], Machine.drive_exec hx, Demo.rewritten_latest,
    Demo.accepted_snapshotBytes, hfile, fun heq => ?_, fun haccept => ?_⟩
  · have hlen : Demo.snapshotBytes.length = 0 := by
      rw [← Content.bytes.inj heq]
      rfl
    rw [Demo.snapshotBytes, length_image] at hlen
    omega
  · exact absurd haccept.long (by decide)

/-- Undisturbed, the second snapshot takes the place of the first. -/
theorem SnapshotWriter.finish_atomic_demo :
    ∃ h' c, Host.file h' Demo.latest.path = some c ∧ Accepted Demo.codec c := by
  have hdone : ((machine.drive obliging 20 0
      (Demo.second.writeFinal Demo.codec Demo.latest Demo.buildSecond).run Demo.rewritten).map
        fun x => x.2.1) = some (some (.ok Demo.manifest)) := by
    decide +kernel
  obtain ⟨⟨tr, out, h'⟩, hx, hout⟩ := Option.map_eq_some_iff.mp hdone
  obtain rfl : out = some (.ok Demo.manifest) := hout
  have hwrite : Runs quiet (Demo.second.writeFinal Demo.codec Demo.latest Demo.buildSecond)
      Demo.rewritten tr (some (.ok Demo.manifest)) h' := Machine.drive_exec hx
  have hbuild : (Demo.buildSecond Demo.second.entries).run.Within
      fun o : HostOp => o.reads = true := trivial
  have hbuilt : ∀ {g tr' m g'}, Runs quiet (Demo.buildSecond Demo.second.entries) g tr'
      (some (.ok m)) g' → m = Demo.manifest := fun hm => by
    obtain ⟨-, -, hm⟩ := Exec.quiet_ret_iff.mp hm
    exact Except.ok.inj hm
  have hrun : Runs quiet (Demo.second.finish Demo.codec Demo.latest Demo.buildSecond)
      Demo.rewritten (tr ++ []) none h' := by
    rw [SnapshotWriter.finish_eq]
    exact Exec.fallible_bind hwrite (.cut _ _)
  refine ⟨h', ?_⟩
  rcases SnapshotWriter.finish_atomic (keeps_quiet _) (by decide +kernel) hbuild
    (fun _ _ _ _ hm => hbuilt hm ▸ Demo.codec_roundTrips)
    (fun _ _ _ _ hm => hbuilt hm ▸ Demo.manifest_small) hrun
    (fun _ => ⟨tr, [], _, h', rfl, hwrite⟩) with hsame | haccept
  · exact ⟨_, hsame.trans Demo.rewritten_latest, Demo.accepted_snapshotBytes⟩
  · exact haccept

end Mincontainer
