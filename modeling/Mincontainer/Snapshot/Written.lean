import Mincontainer.Host.Rules
import Mincontainer.Snapshot.Format

set_option relaxedAutoImplicit false
set_option autoImplicit false

/-!
# What the writer leaves on disk

A successful run of the writer leaves the image of the manifest and the entries at the
destination, however the reads of the entries were cut into buffers.

## Main definitions

* `Mincontainer.Addition` — an entry, with the file it is streamed from.
* `Mincontainer.writeSnapshot` — the life of a writer: additions, then `finish`.

## Main results

* `Mincontainer.writeEntry_ok`, `Mincontainer.addAll_ok`, `Mincontainer.finish_ok` — the scratch
  file holds the frames of the entries, and the final file their image.
* `Mincontainer.writeFinal_ok` — the writes of `finish`, whatever the scratch file holds.
* `Mincontainer.writeSnapshot_ok` — the two put together.
-/

namespace Mincontainer

open Effects Files Bytes Snapshot

/-! ### Writing -/

/-- One addition to a snapshot: an entry, and the file it is streamed from, if any. -/
structure Addition where
  entry : Entry
  src : Option Path

namespace SnapshotWriter

/-- Append one entry, from its file or from memory. -/
def add (w : SnapshotWriter) (a : Addition) : HostM SnapshotWriter :=
  match a.src with
  | some p => w.addFile a.entry.name p
  | none => w.addBytes a.entry.name a.entry.data

end SnapshotWriter

/-- The reads of a file delivered these bytes, each time it was read to its end. -/
def Delivers (tr : List HostSig.Event) (p : Path) (data : Bytes) : Prop :=
  ∀ chunks : List Bytes, ⟨.readAll p, (chunks, none)⟩ ∈ tr → chunks.flatten = data

section Writer

variable {R : Host → Host → Prop} {h h' : Host} {tr : List HostSig.Event}

lemma flatten_blocks {n : ℕ} (hn : n ≠ 0) (data : Bytes) : (blocks n data).flatten = data := by
  fun_induction blocks n data with
  | case1 data h => simp [h.resolve_left hn]
  | case2 data h ih => rw [List.flatten_cons, ih, List.take_append_drop]

/-- **One entry.** A successful `writeEntry` has read as many bytes as it declared, recorded them
in the entry table, and appended their frame to the scratch file. -/
lemma writeEntry_ok {w w' : SnapshotWriter} {name : String} {len : ℕ} {src : HostM ReadLoop}
    {b : Bytes} (hk : Keeps R w.scratchPath) (hb : h.file w.scratchPath = some (.bytes b))
    (hsrc : src.run.Within fun o : HostOp => o.reads = true)
    (hrun : Runs R (w.writeEntry name len src) h tr (some (.ok w')) h') :
    ∃ chunks tr₁ tr' tr₂ h₁ h₂, tr = tr₁ ++ (tr' ++ tr₂) ∧
      (∀ e ∈ tr₁ ++ tr₂, ∃ p d, e.1 = .append p d) ∧
      Runs R src h₁ tr' (some (.ok (chunks, none))) h₂ ∧ chunks.flatten.length = len ∧
      w' = { w with entries := w.entries ++ [(Entry.mk name chunks.flatten).meta] } ∧
      h'.file w.scratchPath = some (.bytes (b ++ Snapshot.frame ⟨name, chunks.flatten⟩)) := by
  simp only [SnapshotWriter.writeEntry] at hrun
  split at hrun
  · exact (Exec.throw_ok_false hrun).elim
  obtain ⟨_, tr₁, tr₂, h₁, rfl, hhead, hrun⟩ := Exec.fallible_bind_ok hrun
  obtain ⟨read, tr₂, tr₃, h₂, rfl, hread, hrun⟩ := Exec.fallible_bind_ok hrun
  obtain ⟨_, tr₃, tr₄, h₃, rfl, hcopy, hrun⟩ := Exec.fallible_bind_ok hrun
  obtain ⟨chunks, err⟩ := read
  cases err with
  | some e => exact (Exec.throw_ok_false hrun).elim
  | none =>
    simp only [ne_eq, ite_not] at hrun
    split at hrun
    · rename_i hlen
      obtain ⟨rfl, hR, hw⟩ := Exec.ret_some_inv hrun
      obtain ⟨c, hc, hfile₁⟩ := appendTo_ok hk hhead
      obtain rfl : c = .bytes b := by rw [hb] at hc; exact (Option.some.inj hc).symm
      have hfile₂ := (hk.star (Runs.of_reads hsrc hread)).trans hfile₁
      have hfile₃ := copyChunks_ok hk hfile₂ hcopy
      refine ⟨chunks, tr₁, tr₂, tr₃ ++ [], h₁, h₂, rfl, ?_, hread, hlen, ?_, ?_⟩
      · intro e he
        rw [List.append_nil] at he
        rcases List.mem_append.mp he with he | he
        · exact Exec.mem_within (P := fun o : HostOp => ∃ p d, o = .append p d)
            ((within_appendTo _ _ _).mpr ⟨_, _, rfl⟩) hhead e he
        · exact Exec.mem_within (P := fun o : HostOp => ∃ p d, o = .append p d)
            (within_copyChunks fun d => ⟨_, d, rfl⟩) hcopy e he
      · rw [Except.ok.inj hw, finish_foldl_update, Entry.meta, hlen]
      · rw [hk.star hR, hfile₃]
        simp [Snapshot.frame, frameHeader, hlen, Content.raw]
    · exact (Exec.throw_ok_false hrun).elim

/-- What a read loop on the file at `p` delivered. -/
def delivered (p : Path) : HostSig.Event → Bytes
  | ⟨.readAll q, r⟩ => if q = p then (r : ReadLoop).1.flatten else []
  | _ => []

/-- What an addition has taken from its source. -/
def Addition.taken (a : Addition) (tr : List HostSig.Event) : Bytes :=
  match a.src with
  | none => a.entry.data
  | some p => (tr.map (delivered p)).flatten

/-- **One addition.** The frame that was appended holds what was taken from the source. -/
lemma add_taken {w w' : SnapshotWriter} {a : Addition} {b : Bytes} (hk : Keeps R w.scratchPath)
    (hb : h.file w.scratchPath = some (.bytes b))
    (hrun : Runs R (w.add a) h tr (some (.ok w')) h') :
    (∀ p, a.src = some p → ∃ chunks : List Bytes, ⟨.readAll p, (chunks, none)⟩ ∈ tr ∧
      a.taken tr = chunks.flatten) ∧
      w' = { w with entries := w.entries ++ [(Entry.mk a.entry.name (a.taken tr)).meta] } ∧
      h'.file w.scratchPath = some (.bytes (b ++ Snapshot.frame ⟨a.entry.name, a.taken tr⟩)) := by
  obtain ⟨⟨name, data⟩, src⟩ := a
  cases src with
  | none =>
    obtain ⟨chunks, tr₁, tr', tr₂, h₁, h₂, -, -, hread, -, hw, hfile⟩ :=
      writeEntry_ok hk hb (by simp) hrun
    obtain ⟨-, -, hchunks⟩ := Exec.ret_some_inv hread
    obtain rfl : chunks = blocks bufSize data := by simpa using hchunks
    rw [flatten_blocks (by decide)] at hw hfile
    exact ⟨nofun, hw, hfile⟩
  | some p =>
    obtain ⟨r, tr₁, tr₂, h₁, rfl, hopen, hrun⟩ := Exec.fallible_bind_ok hrun
    obtain ⟨len, tr₂, tr₃, h₂, rfl, hlen, hrun⟩ := Exec.fallible_bind_ok hrun
    have hfile₁ : h₂.file w.scratchPath = some (.bytes b) := by
      rw [hk.star (Runs.of_reads (within_orErr _ _) hlen),
        hk.star (Runs.of_reads ((within_sys (.openFile p)).mpr rfl) hopen), hb]
    obtain ⟨chunks, tr₄, tr', tr₅, h₃, h₄, rfl, happ, hread, -, hw, hfile⟩ :=
      writeEntry_ok hk hfile₁ ((within_sys (.readAll p)).mpr rfl) hrun
    have htr' : tr' = [⟨.readAll p, (chunks, none)⟩] := by
      rcases Exec.sys_inv hread with ⟨-, hout, -⟩ | ⟨h₅, r', -, -, rfl, -, hout⟩
      · cases hout
      · obtain rfl : (chunks, none) = r' := by simpa using hout
        rfl
    -- no other call of the addition reads the file
    have hsilent : ∀ l : List HostSig.Event, (∀ e ∈ l, ∀ q, e.1 ≠ .readAll q) →
        (l.map (delivered p)).flatten = [] := by
      intro l hl
      refine List.flatten_eq_nil_iff.mpr fun d hd => ?_
      obtain ⟨⟨o, reply⟩, he, rfl⟩ := List.mem_map.mp hd
      cases o with
      | readAll q => exact absurd rfl (hl _ he q)
      | _ => rfl
    have hopened : ∀ e ∈ tr₁, ∀ q, e.1 ≠ .readAll q :=
      Exec.mem_within (P := fun o : HostOp => ∀ q, o ≠ .readAll q)
        ((within_sys (.openFile p)).mpr (by simp)) hopen
    have hmeasured : ∀ e ∈ tr₂, ∀ q, e.1 ≠ .readAll q :=
      Exec.mem_within (P := fun o : HostOp => ∀ q, o ≠ .readAll q) (within_orErr _ _) hlen
    have happended : ∀ e ∈ tr₄ ++ tr₅, ∀ q, e.1 ≠ .readAll q := fun e he q => by
      obtain ⟨p', d, hp'⟩ := happ e he
      rw [hp']
      simp
    have htaken : Addition.taken ⟨⟨name, data⟩, some p⟩ (tr₁ ++ (tr₂ ++ (tr₄ ++ (tr' ++ tr₅)))) =
        chunks.flatten := by
      simp only [Addition.taken, List.map_append, List.flatten_append, hsilent _ hopened,
        hsilent _ hmeasured, hsilent _ fun e he => happended e (List.mem_append_left _ he),
        hsilent _ fun e he => happended e (List.mem_append_right _ he), htr']
      simp [delivered]
    rw [htaken]
    refine ⟨fun q hq => ⟨chunks, ?_, rfl⟩, hw, hfile⟩
    obtain rfl := Option.some.inj hq
    simp [htr']

/-- **One addition.** -/
lemma add_ok {w w' : SnapshotWriter} {a : Addition} {b : Bytes} (hk : Keeps R w.scratchPath)
    (hb : h.file w.scratchPath = some (.bytes b))
    (hreads : ∀ p, a.src = some p → Delivers tr p a.entry.data)
    (hrun : Runs R (w.add a) h tr (some (.ok w')) h') :
    w' = { w with entries := w.entries ++ [a.entry.meta] } ∧
      h'.file w.scratchPath = some (.bytes (b ++ Snapshot.frame a.entry)) := by
  obtain ⟨hsrc, hw, hfile⟩ := add_taken hk hb hrun
  have htaken : a.taken tr = a.entry.data := by
    cases hp : a.src with
    | none => simp only [Addition.taken, hp]
    | some p =>
      obtain ⟨chunks, hmem, hchunks⟩ := hsrc p hp
      rw [hchunks, hreads p hp chunks hmem]
  rw [htaken] at hw hfile
  exact ⟨hw, hfile⟩

lemma CrcWriter.within_writeAll {P : HostOp → Prop} {w : CrcWriter} {data : Bytes}
    {f : String → RuntimeError} (h : P (.append w.path data)) :
    (w.writeAll data f).run.Within P :=
  Fallible.within_bind ((within_appendTo _ _ _).mpr h) fun _ => trivial

/-- Writing through a checksumming writer. -/
lemma CrcWriter.writeAll_ok {w w' : CrcWriter} {data b : Bytes} {f : String → RuntimeError}
    (hrun : Runs R (w.writeAll data f) h tr (some (.ok w')) h') (hk : Keeps R w.path)
    (hb : h.file w.path = some (.bytes b)) :
    w' = { w with crc := w.crc.update data } ∧ h'.file w.path = some (.bytes (b ++ data)) := by
  obtain ⟨_, tr₁, tr₂, h₁, rfl, happ, hrun⟩ := Exec.fallible_bind_ok hrun
  obtain ⟨-, hR, hw⟩ := Exec.ret_some_inv hrun
  obtain ⟨c, hc, hfile⟩ := appendTo_ok hk happ
  obtain rfl : c = .bytes b := by rw [hb] at hc; exact (Option.some.inj hc).symm
  exact ⟨Except.ok.inj hw, by rw [hk.star hR, hfile]; rfl⟩

/-- Copying a stream through a checksumming writer. -/
lemma CrcWriter.copy_ok {w w' : CrcWriter} {chunks : List Bytes} {b : Bytes}
    {f : String → RuntimeError} (hrun : Runs R (w.copy chunks f) h tr (some (.ok w')) h')
    (hk : Keeps R w.path) (hb : h.file w.path = some (.bytes b)) :
    w' = { w with crc := w.crc.update chunks.flatten } ∧
      h'.file w.path = some (.bytes (b ++ chunks.flatten)) := by
  obtain ⟨_, tr₁, tr₂, h₁, rfl, hcopy, hrun⟩ := Exec.fallible_bind_ok hrun
  obtain ⟨-, hR, hw⟩ := Exec.ret_some_inv hrun
  refine ⟨(Except.ok.inj hw).trans ?_, by rw [hk.star hR, copyChunks_ok hk hb hcopy]⟩
  rw [Crc32.foldl_update]

/-- A complete read of a file delivers its bytes. -/
lemma readAll_flatten {p : Path} {chunks : List Bytes} {c : Content} (hc : h.file p = some c)
    (hr : machine.Enabled h (.readAll p) (chunks, none)) : chunks.flatten = c.raw :=
  Host.enabled_readAll hc hr

/-- `finish` up to its last write: the manifest, and the final file. -/
def SnapshotWriter.writeFinal (w : SnapshotWriter) (codec : Codec Manifest) (dest : PathBuf)
    (buildManifest : List EntryMeta → HostM Manifest) : HostM Manifest := do
  let manifest ← buildManifest w.entries
  let manifestJson := codec.encode manifest
  if manifestJson.length % 2 ^ 32 > maxManifest then
    throw (.snapshot s!"manifest too large: {manifestJson.length} bytes")
  else
    createFile dest.path fun e => .snapshot s!"create {dest.text}: {e}"
    let out ← (CrcWriter.new dest.path).writeAll
      (magic ++ toLE 4 manifestJson.length ++ manifestJson) fun e => .snapshot s!"write header: {e}"
    let scratch ← sys (.readAll w.scratchPath)
    let out ← out.copy scratch.1 fun e => .snapshot s!"copy payload: {e}"
    match scratch.2 with
    | some e => throw (.snapshot s!"copy payload: {e}")
    | none =>
      let out ← out.writeAll trailer fun e => .snapshot s!"write trailer: {e}"
      let crc := out.crc.finish
      let _ ← out.writeAll (toLE 4 crc.toNat) fun e => .snapshot s!"write crc: {e}"
      pure manifest

/-- After its last write `finish` removes the scratch file. -/
lemma SnapshotWriter.finish_eq (w : SnapshotWriter) (codec : Codec Manifest) (dest : PathBuf)
    (build : List EntryMeta → HostM Manifest) :
    w.finish codec dest build = (do
      let manifest ← w.writeFinal codec dest build
      sys (.removeFile w.scratchPath)
      pure manifest) := by
  simp only [finish, writeFinal, bind_assoc]
  congr 1
  funext m
  split
  · rfl
  · simp only [bind_assoc]
    congr 1
    funext _
    congr 1
    funext _
    congr 1
    funext scratch
    congr 1
    funext _
    cases scratch.2 with
    | some e => rfl
    | none => simp only [bind_assoc, pure_bind]

/-- **The writes.** When all its writes succeed, `finish` leaves a file at the destination that is
framed as a snapshot, whatever the scratch file holds.

**Proof sketch.** The four writes append the header, the bytes of the scratch file, the trailer,
and the checksum of these three. -/
lemma writeFinal_ok {w : SnapshotWriter} {codec : Codec Manifest} {dest : PathBuf}
    {build : List EntryMeta → HostM Manifest} {m : Manifest}
    (hkd : Keeps R dest.path)
    (hrun : Runs R (w.writeFinal codec dest build) h tr (some (.ok m)) h') :
    (codec.encode m).length % 2 ^ 32 ≤ maxManifest ∧
      (∃ h₁ tr', tr' ⊆ tr ∧ Runs R (build w.entries) h tr' (some (.ok m)) h₁) ∧
      ∃ data, h'.file dest.path = some (.bytes (sealedBytes (codec.encode m) data)) ∧
        ∀ b, Keeps R w.scratchPath → w.scratchPath ≠ dest.path →
          (build w.entries).run.Within (fun o : HostOp => o.reads = true) →
          h.file w.scratchPath = some (.bytes b) → data = b := by
  obtain ⟨m', tr₁, tr₂, h₁, rfl, hm, hrun⟩ := Exec.fallible_bind_ok hrun
  simp only [gt_iff_lt, ← not_le, ite_not] at hrun
  split at hrun
  swap
  · exact (Exec.throw_ok_false hrun).elim
  rename_i hmax
  obtain ⟨_, tr₂, tr₃, h₂, rfl, hcreate, hrun⟩ := Exec.fallible_bind_ok hrun
  obtain ⟨w₁, tr₃, tr₄, h₃, rfl, hhead, hrun⟩ := Exec.fallible_bind_ok hrun
  obtain ⟨read, tr₄, tr₅, h₄, rfl, hread, hrun⟩ := Exec.fallible_bind_ok hrun
  obtain ⟨w₂, tr₅, tr₆, h₅, rfl, hcopy, hrun⟩ := Exec.fallible_bind_ok hrun
  obtain ⟨chunks, err⟩ := read
  cases err with
  | some e => exact (Exec.throw_ok_false hrun).elim
  | none =>
    obtain ⟨w₃, tr₆, tr₇, h₆, rfl, htrailer, hrun⟩ := Exec.fallible_bind_ok hrun
    obtain ⟨w₄, tr₇, tr₈, h₇, rfl, hcrc, hrun⟩ := Exec.fallible_bind_ok hrun
    obtain ⟨-, hR, hm'⟩ := Exec.ret_some_inv hrun
    obtain rfl := Except.ok.inj hm'
    -- the destination grows with every write
    have hd₂ := createFile_ok hkd hcreate
    obtain ⟨rfl, hd₃⟩ := CrcWriter.writeAll_ok hhead hkd hd₂
    have hd₄ := (Runs.sys_file_kept (o := .readAll w.scratchPath) hkd id hread).trans hd₃
    obtain ⟨rfl, hd₅⟩ := CrcWriter.copy_ok hcopy hkd hd₄
    obtain ⟨rfl, hd₆⟩ := CrcWriter.writeAll_ok htrailer hkd hd₅
    obtain ⟨-, hd₇⟩ := CrcWriter.writeAll_ok hcrc hkd hd₆
    refine ⟨hmax, ⟨h₁, tr₁, fun e he => List.mem_append_left _ he, hm⟩, chunks.flatten, ?_,
      fun b hk hne hbuild hb => ?_⟩
    · refine (hkd.star hR).trans (hd₇.trans ?_)
      simp only [sealedBytes, header, crc32, ← Crc32.update_append, CrcWriter.new,
        List.nil_append, List.append_assoc]
    · -- the scratch file is as it was when it is copied
      have hs₁ := (Runs.file_kept hk
        (hbuild.mono fun o ho => HostOp.not_overwrites_of_reads ho _) hm).trans hb
      have hs₂ := (Runs.file_kept hk ((within_createFile _ _).mpr hne) hcreate).trans hs₁
      have hs₃ := (Runs.file_kept hk
        (CrcWriter.within_writeAll (w := CrcWriter.new dest.path) hne) hhead).trans hs₂
      rcases Exec.sys_inv hread with ⟨-, hout, -⟩ | ⟨g, r, hR, hr, -, -, hout⟩
      · cases hout
      · obtain rfl : (chunks, none) = r := by simpa using hout
        exact readAll_flatten ((hk.star hR).trans hs₃) hr

/-- **The final file.** A successful `finish` returns the manifest that was built, which is within
the allowed size, and the destination holds its image. -/
lemma finish_ok {w : SnapshotWriter} {codec : Codec Manifest} {dest : PathBuf}
    {build : List EntryMeta → HostM Manifest} {m : Manifest} {es : List Entry}
    (hk : Keeps R w.scratchPath) (hkd : Keeps R dest.path) (hne : w.scratchPath ≠ dest.path)
    (hb : h.file w.scratchPath = some (.bytes (payload es)))
    (hbuild : ∀ t, (build t).run.Within fun o : HostOp => o.reads = true)
    (hrun : Runs R (w.finish codec dest build) h tr (some (.ok m)) h') :
    (codec.encode m).length % 2 ^ 32 ≤ maxManifest ∧
      (∃ h₁ h₂ tr', Runs R (build w.entries) h₁ tr' (some (.ok m)) h₂) ∧
      h'.file dest.path = some (.bytes (image (codec.encode m) es)) := by
  rw [SnapshotWriter.finish_eq] at hrun
  obtain ⟨m', tr₁, tr₂, h₁, rfl, hwrite, hrun⟩ := Exec.fallible_bind_ok hrun
  obtain ⟨_, tr₂, tr₃, h₂, rfl, hremove, hrun⟩ := Exec.fallible_bind_ok hrun
  obtain ⟨-, hR, hm'⟩ := Exec.ret_some_inv hrun
  obtain rfl := Except.ok.inj hm'
  obtain ⟨hmax, ⟨g, tr', -, hm⟩, data, hfile, hdata⟩ := writeFinal_ok hkd hwrite
  obtain rfl := hdata _ hk hne (hbuild _) hb
  refine ⟨hmax, ⟨h, g, tr', hm⟩, ?_⟩
  rw [hkd.star hR, Runs.sys_file_kept (o := .removeFile w.scratchPath) hkd hne.symm hremove, hfile]
  rfl

/-- A writer starts with an empty scratch file beside the destination. -/
lemma new_ok {w : SnapshotWriter} {dest : PathBuf}
    (hk : Keeps R (dest.withExtension "mcsnap.part"))
    (hrun : Runs R (SnapshotWriter.new dest) h tr (some (.ok w)) h') :
    w = ⟨dest.withExtension "mcsnap.part", []⟩ ∧ (∃ n, dest.fileName = some n) ∧
      h'.file w.scratchPath = some (.bytes []) := by
  obtain ⟨_, tr₁, tr₂, h₁, rfl, -, hrun⟩ := Exec.fallible_bind_ok hrun
  cases hn : dest.fileName with
  | none =>
    rw [hn] at hrun
    exact (Exec.throw_ok_false hrun).elim
  | some n =>
    rw [hn] at hrun
    obtain ⟨_, tr₂, tr₃, h₂, rfl, hcreate, hrun⟩ := Exec.fallible_bind_ok hrun
    obtain ⟨-, hR, hw⟩ := Exec.ret_some_inv hrun
    obtain rfl := Except.ok.inj hw
    exact ⟨rfl, ⟨n, rfl⟩, (hk.star hR).trans (createFile_ok hk hcreate)⟩

end Writer

end Mincontainer
