import Mincontainer.Snapshot.Damage
import Mincontainer.Snapshot.Footprint

set_option relaxedAutoImplicit false
set_option autoImplicit false

/-!
# What an accepted snapshot looks like

The reader walks the frames that the manifest names, one after the other from the end of the
manifest on, and nothing makes it compare where it ends with where the trailer begins, or the
places of the files with each other. So a file that is opened, verified and unpacked begins its
payload with the frames of the manifest; it is well formed exactly when these frames have the size of
the payload, and no two of them name the same place.

## Main definitions

* `Mincontainer.Snapshot.regionStart`, `Mincontainer.Snapshot.regionEnd` — the bounds of the
  payload in the bytes of a snapshot.
* `Mincontainer.Snapshot.WellFormed` — the frames of the manifest are the payload, and each file
  holds the data of its entry.

## Main results

* `Mincontainer.SnapshotReader.extractEntries_ok` — what a successful walk has found, and left.
* `Mincontainer.SnapshotReader.accepted_wellFormed_iff` — when an accepted file is well formed.
* `Mincontainer.SnapshotReader.accepts_leftover` — an accepted file that is not.
-/

namespace Mincontainer

open Effects Files Bytes Snapshot

namespace Snapshot

/-- Where the payload begins: after the magic, the length of the manifest, and the manifest. -/
def regionStart (b : Bytes) : ℕ := 12 + ofLE ((b.drop 8).take 4)

/-- Where the payload ends: before the trailer and the checksum. -/
def regionEnd (b : Bytes) : ℕ := b.length - 12

/-- The payload of the bytes of a snapshot. -/
def region (b : Bytes) : Bytes := (b.drop (regionStart b)).take (regionEnd b - regionStart b)

/-- The size of the frame that an entry of the table stands for. -/
def frameSize (e : EntryMeta) : ℕ := 12 + (utf8 e.name).length + e.len

/-- The frames of the manifest's entries are the payload, none of them lands on the file of another,
and after unpacking into `dir` each file holds the data of its entry. -/
def WellFormed (m : Manifest) (b : Bytes) (dir : Path) (h : Host) : Prop :=
  ∃ es : List Entry, m.entries = es.map Entry.meta ∧ region b = payload es ∧
    (es.Pairwise fun d e => resolve dir d.name ≠ resolve dir e.name) ∧
    ∀ e ∈ es, h.file (resolve dir e.name) = some (.bytes e.data)

lemma length_frame (e : Entry) : (Snapshot.frame e).length = frameSize e.meta := by
  simp only [Snapshot.frame, frameHeader, frameSize, Entry.meta, List.length_append, length_toLE]
  omega

lemma length_payload (es : List Entry) :
    (payload es).length = ((es.map Entry.meta).map frameSize).sum := by
  induction es with
  | nil => rfl
  | cons e es ih =>
    rw [payload_cons, List.length_append, ih, length_frame, List.map_cons, List.map_cons,
      List.sum_cons]

end Snapshot

namespace SnapshotReader

/-- **The header of a frame.** Bytes that are read as the header of an entry are one. -/
lemma readEntryHeader_ok {rest data : Bytes} {name : String} {len : ℕ}
    (h : readEntryHeader rest = .ok (name, len, data)) :
    rest = frameHeader name len ++ data ∧ 0 < (utf8 name).length ∧ (utf8 name).length ≤ 4096 := by
  simp only [readEntryHeader] at h
  split at h
  · cases h
  split at h
  · cases h
  split at h
  · cases h
  split at h
  · cases h
  rename_i hfour hbound hlong text hutf
  split at h
  · cases h
  cases h
  have hname := utf8_of_fromUTF8? hutf
  have hlen : (utf8 name).length = ofLE (rest.take 4) := by
    rw [hname, List.length_take, Nat.min_eq_left (by omega)]
  refine ⟨?_, by omega, by omega⟩
  have hfirst : toLE 4 (utf8 name).length = rest.take 4 := by
    have := toLE_ofLE (rest.take 4)
    rwa [List.length_take, Nat.min_eq_left (by omega), ← hlen] at this
  have hlast : toLE 8 (ofLE (((rest.drop 4).drop (ofLE (rest.take 4))).take 8)) =
      ((rest.drop 4).drop (ofLE (rest.take 4))).take 8 := by
    have := toLE_ofLE (((rest.drop 4).drop (ofLE (rest.take 4))).take 8)
    rwa [List.length_take, Nat.min_eq_left (by omega)] at this
  rw [frameHeader, hfirst, hlast, hname, List.append_assoc, List.append_assoc,
    List.take_append_drop, List.take_append_drop, List.take_append_drop]

section

variable {R : Host → Host → Prop} {dir dest : Path} {h h' : Host} {tr : List HostSig.Event}
  {r : SnapshotReader} {u : Unit}

/-- A copy that succeeded found as many bytes as were declared, with the checksum that was
declared, and wrote them. -/
lemma copyEntry_ok {name : String} {len : ℕ} {crc : UInt32} {rest : Bytes} (hk : Keeps R dest)
    (hd : h.file dest = some (.bytes []))
    (hrun : Runs R (r.copyEntry name len crc dest rest) h tr (some (.ok u)) h') :
    len ≤ rest.length ∧ crc32 (rest.take len) = crc ∧ h'.file dest = some (.bytes (rest.take len)) := by
  obtain ⟨h₁, ⟨chunks, err⟩, tr₁, hR, hr, rfl, hrun₁⟩ := Exec.call_some_inv hrun
  obtain ⟨u', tr₂, tr₃, h₂, rfl, hcopy, hrun₂⟩ := Exec.fallible_bind_ok hrun₁
  rcases err with _ | e
  · have hspan : chunks.flatten = rest.take len := (Host.enabled_readSpan.mp hr).2
    have hfile := copyChunks_ok hk ((hk.star hR).trans hd) hcopy
    change Runs R (if chunks.flatten.length < len then _ else _) _ _ _ _ at hrun₂
    split at hrun₂
    · exact (Exec.throw_ok_false hrun₂).elim
    rename_i hlong
    change Runs R (if (chunks.foldl Crc32.update Crc32.new).finish ≠ crc then _ else _) _ _ _ _
      at hrun₂
    split at hrun₂
    · exact (Exec.throw_ok_false hrun₂).elim
    rename_i hcrc
    obtain ⟨-, hR₂, -⟩ := Exec.ret_some_inv hrun₂
    rw [finish_foldl_update, hspan] at hcrc
    rw [hspan, List.length_take] at hlong
    refine ⟨by omega, not_not.mp hcrc, ?_⟩
    rw [hk.star hR₂, hfile, List.nil_append, hspan]
  · exact (Exec.throw_ok_false hrun₂).elim

/-- The calls of an entry change no file but that of the entry. -/
lemma createEntry_file {name : String} {out : Option (Except RuntimeError Unit)} {q : Path}
    (hk : Keeps R q) (hq : q ≠ dest) (hrun : Runs R (createEntry dir name dest) h tr out h') :
    h'.file q = h.file q := by
  refine Runs.file_kept hk ?_ hrun
  refine Fallible.within_bind ((within_mkdirAll _ _).mpr fun h => h) fun _ => ?_
  split
  · exact (within_createFile _ _).mpr hq
  · exact trivial

lemma copyEntry_file {name : String} {len : ℕ} {crc : UInt32} {rest : Bytes}
    {out : Option (Except RuntimeError Unit)} {q : Path} (hk : Keeps R q) (hq : q ≠ dest)
    (hrun : Runs R (r.copyEntry name len crc dest rest) h tr out h') : h'.file q = h.file q := by
  refine Runs.file_kept hk ?_ hrun
  refine Fallible.within_bind ((within_sys (.readSpan _ _)).mpr fun h => h) fun read => ?_
  refine Fallible.within_bind (within_copyChunks fun b => hq) fun _ => ?_
  split
  · exact trivial
  · split
    · exact trivial
    · dsimp only
      split <;> exact trivial

/-- A file was created for the entry, below the directory. -/
lemma createEntry_ok {name : String} (hk : Keeps R dest)
    (hrun : Runs R (createEntry dir name dest) h tr (some (.ok u)) h') :
    Fits dir name ∧ creatable name = true ∧ h'.file dest = some (.bytes []) := by
  obtain ⟨u', tr₁, tr₂, h₁, rfl, -, hrun₁⟩ := Exec.fallible_bind_ok hrun
  split at hrun₁
  · rename_i hname
    exact ⟨hname.1, hname.2, createFile_ok hk hrun₁⟩
  · exact (Exec.throw_ok_false hrun₁).elim

lemma safeJoin_ok {name : String} (h : safeJoin dir name = .ok dest) :
    dest = resolve dir name ∧ dir <+: dest := by
  refine ⟨?_, prefix_of_safeJoin h⟩
  simp only [safeJoin] at h
  split at h
  · cases h
  split at h
  · cases h
  exact (Except.ok.inj h).symm

/-- The stages of an entry that was unpacked. -/
lemma extractEntry_inv {expected : EntryMeta} {rest rest' : Bytes}
    (hrun : Runs R (r.extractEntry dir expected rest) h tr (some (.ok rest')) h') :
    ∃ data h₁ h₂ h₃ tr₁ tr₂,
      readEntryHeader rest = .ok (expected.name, expected.len, data) ∧
      safeJoin dir expected.name = .ok (resolve dir expected.name) ∧
      Relation.ReflTransGen R h h₁ ∧
      Runs R (createEntry dir expected.name (resolve dir expected.name)) h₁ tr₁ (some (.ok ())) h₂ ∧
      Runs R (r.copyEntry expected.name expected.len expected.crc32 (resolve dir expected.name) data)
        h₂ tr₂ (some (.ok ())) h₃ ∧
      Relation.ReflTransGen R h₃ h' ∧ rest' = data.drop expected.len := by
  obtain ⟨h₁, ⟨buffered, err⟩, tr₁, hR, -, rfl, hrun₁⟩ := Exec.call_some_inv hrun
  rcases err with _ | e
  swap
  · exact (Exec.throw_ok_false hrun₁).elim
  obtain ⟨⟨name, len, data⟩, tr₂, tr₃, h₂, rfl, hheader, hrun₂⟩ := Exec.fallible_bind_ok hrun₁
  change Runs R (if name ≠ expected.name ∨ len ≠ expected.len then _ else _) _ _ _ _ at hrun₂
  split at hrun₂
  · exact (Exec.throw_ok_false hrun₂).elim
  rename_i hagree
  obtain ⟨rfl, rfl⟩ : name = expected.name ∧ len = expected.len := by
    simpa only [ne_eq, not_or, not_not] using hagree
  obtain ⟨dest, tr₄, tr₅, h₃, rfl, hjoin, hrun₃⟩ := Exec.fallible_bind_ok hrun₂
  obtain ⟨rfl, -⟩ := safeJoin_ok (ofExcept_ok hjoin).2
  obtain ⟨u, tr₆, tr₇, h₄, rfl, hcreate, hrun₄⟩ := Exec.fallible_bind_ok hrun₃
  obtain ⟨u', tr₈, tr₉, h₅, rfl, hcopy, hrun₅⟩ := Exec.fallible_bind_ok hrun₄
  obtain ⟨-, hR₅, hrest'⟩ := Exec.ret_some_inv hrun₅
  refine ⟨data, h₃, h₄, h₅, tr₆, tr₈, (ofExcept_ok hheader).2, (ofExcept_ok hjoin).2, ?_, hcreate, hcopy, hR₅,
    Except.ok.inj hrest'⟩
  exact hR.trans ((Runs.of_reads (within_ofExcept _) hheader).trans
    (Runs.of_reads (within_ofExcept _) hjoin))

/-- **One entry.** Unpacking that succeeded consumed the frame of an entry, which is the one
expected, wrote its data to its file, and changed no other file below the directory. -/
lemma extractEntry_ok {expected : EntryMeta} {rest rest' : Bytes}
    (hk : ∀ q, dir <+: q → Keeps R q)
    (hrun : Runs R (r.extractEntry dir expected rest) h tr (some (.ok rest')) h') :
    ∃ e : Entry, expected = e.meta ∧ rest = Snapshot.frame e ++ rest' ∧ dir <+: resolve dir e.name ∧
      h'.file (resolve dir e.name) = some (.bytes e.data) ∧
      ∀ q, dir <+: q → q ≠ resolve dir e.name → h'.file q = h.file q := by
  obtain ⟨data, h₁, h₂, h₃, tr₁, tr₂, hheader, hjoin, hR, hcreate, hcopy, hR₃, rfl⟩ :=
    extractEntry_inv hrun
  obtain ⟨hrest, -⟩ := readEntryHeader_ok hheader
  obtain ⟨-, hbelow⟩ := safeJoin_ok hjoin
  obtain ⟨-, -, hempty⟩ := createEntry_ok (hk _ hbelow) hcreate
  obtain ⟨hlong, hcrc, hfile⟩ := copyEntry_ok (hk _ hbelow) hempty hcopy
  have hdata : (data.take expected.len).length = expected.len := by
    rw [List.length_take, Nat.min_eq_left hlong]
  refine ⟨⟨expected.name, data.take expected.len⟩, ?_, ?_, hbelow, ?_, fun q hq hne => ?_⟩
  · rw [Entry.meta, hdata, hcrc]
  · rw [Snapshot.frame, hdata, List.append_assoc, List.take_append_drop]
    exact hrest
  · rw [(hk _ hbelow).star hR₃]
    exact hfile
  · rw [(hk _ hq).star hR₃, copyEntry_file (hk q hq) hne hcopy,
      createEntry_file (hk q hq) hne hcreate, (hk q hq).star hR]

/-- **The walk.** Unpacking that succeeded consumed the frames of the entries expected. Where no two
of them name the same place, each file holds the data of its entry.

**Proof sketch.** Induction on the entries: each consumes its frame, and leaves the files of the
others. -/
lemma extractEntries_ok {expected : List EntryMeta} {rest : Bytes}
    (hk : ∀ q, dir <+: q → Keeps R q)
    (hrun : Runs R (r.extractEntries dir expected rest) h tr (some (.ok u)) h') :
    ∃ (es : List Entry) (rest' : Bytes), expected = es.map Entry.meta ∧ rest = payload es ++ rest' ∧
      (∀ e ∈ es, dir <+: resolve dir e.name) ∧ ((es.Pairwise fun d e => resolve dir d.name ≠ resolve dir e.name) →
        ∀ e ∈ es, h'.file (resolve dir e.name) = some (.bytes e.data)) ∧
      ∀ q, dir <+: q → (∀ e ∈ es, q ≠ resolve dir e.name) → h'.file q = h.file q := by
  induction expected generalizing rest h tr with
  | nil =>
    obtain ⟨-, hR, -⟩ := Exec.ret_some_inv hrun
    exact ⟨[], rest, rfl, rfl, List.forall_mem_nil _, fun _ => List.forall_mem_nil _, fun q hq _ => (hk q hq).star hR⟩
  | cons expected metas ih =>
    obtain ⟨rest₁, tr₁, tr₂, h₁, rfl, hentry, hrun₁⟩ := Exec.fallible_bind_ok hrun
    obtain ⟨e, rfl, rfl, hbelow, hfile, hothers⟩ := extractEntry_ok hk hentry
    obtain ⟨es, rest', rfl, rfl, hbelow', hfiles, hothers'⟩ := ih hrun₁
    refine ⟨e :: es, rest', rfl, by rw [payload_cons, List.append_assoc],
      List.forall_mem_cons.mpr ⟨hbelow, hbelow'⟩, fun hne => ?_, fun q hq hnot => ?_⟩
    · obtain ⟨hhead, htail⟩ := List.pairwise_cons.mp hne
      refine List.forall_mem_cons.mpr ⟨?_, hfiles htail⟩
      rw [hothers' _ hbelow hhead]
      exact hfile
    · obtain ⟨hhead, htail⟩ := List.forall_mem_cons.mp hnot
      exact (hothers' q hq htail).trans (hothers q hq hhead)

/-- **Accepted files.** A file that is opened, verified and unpacked begins its payload with the
frames of the manifest; it is well formed exactly when these frames have the size of the payload and
no two of them name the same place. -/
theorem accepted_wellFormed_iff {codec : Codec Manifest} {path : Path} {c : Content} {m : Manifest}
    (hpath : Keeps R path) (hk : ∀ q, dir <+: q → Keeps R q) (hc : h.file path = some c)
    (hrun : Runs R (readBack codec path dir) h tr (some (.ok m)) h') :
    WellFormed m c.raw dir h' ↔
      (m.entries.map frameSize).sum = regionEnd c.raw - regionStart c.raw ∧
        m.entries.Pairwise fun d e => resolve dir d.name ≠ resolve dir e.name := by
  obtain ⟨r, tr₁, tr₂, h₁, rfl, hopen, hrun₁⟩ := Exec.fallible_bind_ok hrun
  obtain ⟨u, tr₃, tr₄, h₂, rfl, -, hrun₂⟩ := Exec.fallible_bind_ok hrun₁
  obtain ⟨u', tr₅, tr₆, h₃, rfl, hextract, hrun₃⟩ := Exec.fallible_bind_ok hrun₂
  obtain ⟨-, hR, hm⟩ := Exec.ret_some_inv hrun₃
  obtain rfl := Except.ok.inj hm
  have ho := open_ok hpath hc hopen
  obtain ⟨u'', tr₇, tr₈, h₄, rfl, -, hwalk⟩ := Exec.fallible_bind_ok hextract
  obtain ⟨es, rest, hentries, hdrop, hbelow, hfiles, -⟩ := extractEntries_ok hk hwalk
  rw [ho.file, ho.start] at hdrop
  have hstop : regionStart c.raw ≤ regionEnd c.raw ∧ regionEnd c.raw ≤ c.raw.length := by
    have := ho.start
    have := ho.order
    have := ho.ends
    rw [regionStart, regionEnd]
    omega
  rw [hentries]
  constructor
  · rintro ⟨es', hes', hregion, hapart, -⟩
    have hsame : es.map Entry.meta = es'.map Entry.meta := hentries.symm.trans hes'
    refine ⟨?_, ?_⟩
    · rw [hsame, ← length_payload, ← hregion, region, List.length_take, List.length_drop]
      omega
    · rw [hsame, List.pairwise_map]
      exact hapart
  · rintro ⟨hsum, hapart⟩
    rw [List.pairwise_map] at hapart
    refine ⟨es, hentries, ?_, hapart, fun e he => ?_⟩
    · rw [region, regionStart, hdrop]
      refine List.take_left' ?_
      rw [length_payload, hsum, regionStart]
    · rw [(hk _ (hbelow e he)).star hR]
      exact hfiles hapart e he

end

end SnapshotReader

/-! ### A frame that the manifest does not name -/

/-- Reading back an image whose payload goes on after the entries of the manifest: what follows is
never looked at. -/
lemma readBack_leftover {codec : Codec Manifest} {m : Manifest} {es extra : List Entry}
    {path dir : Path} {c : Content} {h : Host} (hcodec : codec.RoundTrips m)
    (hmax : (codec.encode m).length ≤ maxManifest) (htable : m.entries = es.map Entry.meta)
    (hv : ∀ e ∈ es, e.Valid) (hfits : ∀ e ∈ es, SnapshotReader.Fits dir e.name)
    (hes : es.Pairwise Entry.Apart) (hc : h.file path = some c)
    (hraw : c.raw = image (codec.encode m) (es ++ extra)) (hway : h.clearWay dir = true)
    (hempty : ∀ q, q ≠ [] → h.fs.get (dir ++ q) = none) :
    Yields (readBack codec path dir) h m
      (es.foldl (Host.unpack dir) { h with fs := h.fs.mkdirAll dir }) := by
  refine Yields.bind (open_yields hcodec hmax hc hraw) ?_
  refine Yields.bind (verify_yields path m _ (es ++ extra) _) ?_
  have hwalk := (extractEntries_yields (SnapshotReader.ofImage path m (codec.encode m) (es ++ extra))
    (payload extra ++ (trailer ++ toLE 4 (crc32 (body (codec.encode m) (es ++ extra))).toNat)) hv hfits
    hes (by simp) (unpacked_nil hway hempty)).1
  rw [← List.append_assoc, ← payload_append, ← htable, ← drop_image] at hwalk
  exact Yields.bind (Yields.bind (Yields.mkdirAll hway) hwalk) (Yields.pure m _)

namespace Demo

/-- The snapshot of the container with one more frame behind its payload. -/
def leftoverBytes : Bytes := image (codec.encode manifest) (entries ++ [⟨"junk", [0]⟩])

/-- An empty directory of the host. -/
def outDir : Path := ["tmp"]

lemma outDir_clear (b : Bytes) : (hostWith b).clearWay outDir = true := rfl

lemma outDir_fits : ∀ e ∈ entries, SnapshotReader.Fits outDir e.name := by decide +kernel

lemma outDir_empty (b : Bytes) : ∀ q, q ≠ [] → (hostWith b).fs.get (outDir ++ q) = none := by
  have hempty : (hostWith b).fs.emptyBelow outDir = true := rfl
  exact fun q hq => Tree.emptyBelow_iff.mp hempty _ (List.prefix_append _ _) (by simp [hq])

end Demo

namespace SnapshotReader

/-- **Bytes are left over.** A file with a frame that the manifest does not name is opened, verified
and unpacked, and the frames of the manifest are not its payload. -/
theorem accepts_leftover :
    ∃ tr h', Runs quiet (readBack Demo.codec Demo.latest.path Demo.outDir)
        (Demo.hostWith Demo.leftoverBytes) tr (some (.ok Demo.manifest)) h' ∧
      ¬ WellFormed Demo.manifest Demo.leftoverBytes Demo.outDir h' := by
  have htable : Demo.manifest.entries = Demo.entries.map Entry.meta := by decide +kernel
  obtain ⟨tr, -, hrun⟩ := (readBack_leftover Demo.codec_roundTrips Demo.manifest_fits htable
    Demo.entries_valid Demo.outDir_fits (List.pairwise_singleton _ _) (Demo.hostWith_latest Demo.leftoverBytes) rfl
    (Demo.outDir_clear _) (Demo.outDir_empty _)).possible
  refine ⟨tr, _, hrun, ?_⟩
  rintro ⟨es, hes, hregion, -⟩
  have hlength := congrArg List.length hregion
  rw [length_payload, ← hes] at hlength
  exact absurd hlength (by decide +kernel)

/-- A snapshot of two entries is well formed. -/
theorem accepted_wellFormed_demo :
    ∃ h', WellFormed Demo.outputManifest Demo.outputBytes Demo.outDir h' := by
  have hfits : ∀ e ∈ Demo.outputEntries, Fits Demo.outDir e.name := by decide +kernel
  have hmax : (Demo.outputCodec.encode Demo.outputManifest).length ≤ maxManifest := by decide +kernel
  obtain ⟨tr, -, hrun⟩ := (readBack_leftover (Demo.codecOf_roundTrips _ _) hmax rfl
    Demo.outputEntries_valid hfits Demo.outputEntries_apart (Demo.hostWith_latest Demo.outputBytes)
    (by rw [List.append_nil]; rfl) (Demo.outDir_clear _) (Demo.outDir_empty _)).possible
  exact ⟨_, (accepted_wellFormed_iff (keeps_quiet _) (fun q _ => keeps_quiet q)
    (Demo.hostWith_latest Demo.outputBytes) hrun).mpr
      ⟨by decide +kernel, List.pairwise_pair.mpr (by decide +kernel)⟩⟩

end SnapshotReader

end Mincontainer
