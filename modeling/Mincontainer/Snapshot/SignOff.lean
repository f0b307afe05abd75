import Mincontainer.Snapshot.Atomic
import Mincontainer.Snapshot.Tiling

set_option relaxedAutoImplicit false
set_option autoImplicit false

/-!
# What `finish` signs off on

A writer goes on after an addition that failed, and what this addition has written to the scratch
file stays there. The reader then finds these bytes where the manifest says that the next entry
begins. A name that the reader refuses is not refused by the writer either. So a snapshot that is
signed off can be read exactly when the scratch file begins with the frames of the entries that were
added, and their names can be unpacked beside each other.

## Main definitions

* `Mincontainer.ReadsAs` — a content that is read back as the given entries, wherever it lies.
* `Mincontainer.SnapshotWriter.Call` — a call of `add_file` or `add_bytes`, with what the host answered.
* `Mincontainer.SnapshotWriter.Session` — such calls on one writer, any of which may fail.

## Main results

* `Mincontainer.readsAs_sealedBytes_iff` — which framed bytes are read back as which entries.
* `Mincontainer.SnapshotWriter.session_readsAs_iff` — when `finish` signs off on a snapshot of the
  entries that were added.
* `Mincontainer.SnapshotWriter.signs_off_unreadable` — a snapshot that is signed off and cannot be
  read.
-/

namespace Mincontainer

open Effects Files Bytes Snapshot

/-! ### Calls that only add to a tree -/

/-- The call reads, or creates or extends a directory or a file. -/
def HostOp.Builds (o : HostOp) : Prop :=
  o.reads = true ∨ (∃ p, o = .mkdirAll p) ∨ (∃ p, o = .createFile p) ∨ ∃ p data, o = .append p data

/-- Such a call makes neither a directory of a file nor a file of a directory. -/
lemma Host.kind_of_builds {h : Host} {o : HostOp} {r : o.Reply} (ho : o.Builds)
    (hr : h.enabled o r = true) {q : Path} {k : Kind} (hq : h.kind q = some k) :
    (h.next o r).kind q = some k := by
  rcases ho with ho | ⟨p, rfl⟩ | ⟨p, rfl⟩ | ⟨p, data, rfl⟩
  · rw [h.next_of_reads ho]
    exact hq
  · obtain ⟨n, hn, hk⟩ := Option.map_eq_some_iff.mp hq
    rcases r with ⟨j, e⟩ | u <;>
      simp only [Host.next, Host.kind, Tree.get_mkdirAll_of_some _ _ hn] <;> exact congrArg some hk
  · rcases r with e | u
    · exact hq
    · by_cases hp : q = p
      · subst hp
        cases k with
        | dir => exact absurd hq (Host.enabled_createFile.mp hr).2.1
        | file => exact (Host.kind_file_iff _ _).mpr ⟨_, h.file_write _ _⟩
      · simpa only [Host.kind, Host.next, h.write_get_of_ne _ hp] using hq
  · have hextend : ∀ d, (h.extend p d).kind q = some k := fun d => by
      by_cases hp : q = p
      · subst hp
        cases hc : h.file q with
        | none =>
          rw [Host.extend, hc]
          exact hq
        | some c =>
          obtain rfl : k = .file := Option.some.inj (hq.symm.trans ((h.kind_file_iff _).mpr ⟨c, hc⟩))
          exact (Host.kind_file_iff _ _).mpr ⟨_, h.file_extend hc d⟩
      · simpa only [Host.kind, h.extend_get_of_ne _ hp] using hq
    rcases r with ⟨j, e⟩ | u
    · exact hextend _
    · exact hextend _

/-- A program of such calls keeps every directory a directory and every file a file. -/
lemma Runs.kind_kept {α : Type} {x : HostM α} {h h' : Host} {tr : List HostSig.Event}
    {out : Option (Except RuntimeError α)} (hx : x.run.Within HostOp.Builds)
    (hrun : Runs quiet x h tr out h') {q : Path} {k : Kind} (hq : h.kind q = some k) :
    h'.kind q = some k :=
  Exec.rel (K := fun a b => Host.kind a q = some k → Host.kind b q = some k) (fun _ => id)
    (fun h₁ h₂ ha => h₂ (h₁ ha)) (fun _ _ _ ho hr hq => Host.kind_of_builds ho hr hq)
    (fun _ _ hR => hR.elim) hx hrun hq

namespace SnapshotReader

variable {r : SnapshotReader} {dir dest : Path} {h h' : Host} {tr : List HostSig.Event} {u : Unit}

/-- The file of an entry was created, and everything above it is a directory. -/
lemma createEntry_places {name : String}
    (hrun : Runs quiet (createEntry dir name dest) h tr (some (.ok u)) h') :
    Fits dir name ∧ creatable name = true ∧ h'.kind dest = some .file ∧
      ∀ q, q <+: dest → q ≠ dest → h'.kind q = some .dir := by
  obtain ⟨hfits, hcreatable, hfile⟩ := createEntry_ok (keeps_quiet _) hrun
  refine ⟨hfits, hcreatable, (Host.kind_file_iff _ _).mpr ⟨_, hfile⟩, fun q hq hne => ?_⟩
  obtain ⟨u', tr₁, tr₂, h₁, rfl, hmkdir, hrun₁⟩ := Exec.fallible_bind_ok hrun
  have habove : q <+: dest.dropLast := by
    obtain ⟨t, rfl⟩ := hq
    have ht : t ≠ [] := by rintro rfl; simp at hne
    exact ⟨t.dropLast, by rw [List.dropLast_append_of_ne_nil ht]⟩
  have hdir : h₁.kind q = some .dir := by
    obtain ⟨reply, tr₃, hr, -, hret⟩ := Exec.quiet_call_iff.mp hmkdir
    rcases reply with ⟨j, e⟩ | u''
    · obtain ⟨-, -, hret⟩ := Exec.quiet_ret_iff.mp hret
      cases hret
    · obtain ⟨-, rfl, -⟩ := Exec.quiet_ret_iff.mp hret
      have hclear := Host.not_file_of_clearWay (h := h) hr habove
      simp only [machine, Host.next, Host.kind, Tree.get_mkdirAll, habove, true_and]
      split
      · rfl
      · rename_i hget
        rcases hn : h.fs.get q with _ | _ | c
        · exact absurd hn hget
        · rfl
        · exact absurd hn (hclear c)
  rw [if_pos ⟨hfits, hcreatable⟩] at hrun₁
  exact Runs.kind_kept ((within_createFile _ _).mpr (.inr (.inr (.inl ⟨_, rfl⟩)))) hrun₁ hdir

lemma builds_createEntry (dir : Path) (name : String) (dest : Path) :
    (createEntry dir name dest).run.Within HostOp.Builds := by
  refine Fallible.within_bind ((within_mkdirAll _ _).mpr (.inr (.inl ⟨_, rfl⟩))) fun _ => ?_
  split
  · exact (within_createFile _ _).mpr (.inr (.inr (.inl ⟨_, rfl⟩)))
  · exact trivial

lemma builds_copyEntry (r : SnapshotReader) (name : String) (len : ℕ) (crc : UInt32) (dest : Path)
    (rest : Bytes) : (r.copyEntry name len crc dest rest).run.Within HostOp.Builds := by
  refine Fallible.within_bind ((within_sys (.readSpan _ _)).mpr (.inl rfl)) fun read => ?_
  refine Fallible.within_bind (within_copyChunks fun b => .inr (.inr (.inr ⟨_, _, rfl⟩))) fun _ => ?_
  split
  · exact trivial
  · split
    · exact trivial
    · dsimp only
      split <;> exact trivial

lemma builds_extractEntry (r : SnapshotReader) (dir : Path) (expected : EntryMeta) (rest : Bytes) :
    (r.extractEntry dir expected rest).run.Within HostOp.Builds := by
  refine Fallible.within_bind ((within_sys (.readSpan _ _)).mpr (.inl rfl)) fun buffered => ?_
  split
  · exact trivial
  refine Fallible.within_bind (within_ofExcept _) fun header => ?_
  dsimp only
  split
  · exact trivial
  refine Fallible.within_bind (within_ofExcept _) fun dest => ?_
  refine Fallible.within_bind (builds_createEntry _ _ _) fun _ => ?_
  exact Fallible.within_bind (builds_copyEntry _ _ _ _ _ _) fun _ => trivial

lemma builds_extractEntries (r : SnapshotReader) (dir : Path) (expected : List EntryMeta)
    (rest : Bytes) : (r.extractEntries dir expected rest).run.Within HostOp.Builds := by
  induction expected generalizing rest with
  | nil => exact trivial
  | cons e expected ih => exact Fallible.within_bind (builds_extractEntry _ _ _ _) fun _ => ih _

lemma readable_of_ok {expected : EntryMeta} {rest data : Bytes} {dest : Path}
    (hheader : readEntryHeader rest = .ok (expected.name, expected.len, data))
    (hjoin : safeJoin dir expected.name = .ok dest) (hfits : Fits dir expected.name)
    (hc : creatable expected.name = true) : Readable dir expected.name := by
  obtain ⟨-, -, hshort⟩ := readEntryHeader_ok hheader
  refine ⟨hshort, ?_, hfits, hc⟩
  simp only [safeJoin] at hjoin
  split at hjoin
  · cases hjoin
  split at hjoin
  · cases hjoin
  rename_i hnormal
  rw [List.all_eq_not_any_not, Bool.not_eq_true'] 
  exact Bool.not_eq_true _ |>.mp hnormal

/-- **Places.** Each entry that was unpacked has a readable name, its file is a file, and everything
above it is a directory. -/
lemma extractEntries_places {expected : List EntryMeta} {rest : Bytes}
    (hrun : Runs quiet (r.extractEntries dir expected rest) h tr (some (.ok u)) h') :
    ∀ e ∈ expected, Readable dir e.name ∧ h'.kind (resolve dir e.name) = some .file ∧
      ∀ q, q <+: resolve dir e.name → q ≠ resolve dir e.name → h'.kind q = some .dir := by
  induction expected generalizing rest h tr with
  | nil => exact List.forall_mem_nil _
  | cons expected metas ih =>
    obtain ⟨rest₁, tr₁, tr₂, h₁, rfl, hentry, hrun₁⟩ := Exec.fallible_bind_ok hrun
    refine List.forall_mem_cons.mpr ⟨?_, ih hrun₁⟩
    obtain ⟨data, g₁, g₂, g₃, tr₃, tr₄, hheader, hjoin, -, hcreate, hcopy, hR, -⟩ :=
      extractEntry_inv hentry
    obtain rfl := reflTransGen_quiet.mp hR
    obtain ⟨hfits, hc, hfile, hdirs⟩ := createEntry_places hcreate
    have hkept : ∀ {q k}, g₂.kind q = some k → h'.kind q = some k := fun hq =>
      Runs.kind_kept (builds_extractEntries _ _ _ _) hrun₁
        (Runs.kind_kept (builds_copyEntry _ _ _ _ _ _) hcopy hq)
    exact ⟨readable_of_ok hheader hjoin hfits hc, hkept hfile, fun q hq hne => hkept (hdirs q hq hne)⟩

end SnapshotReader

/-! ### Reading framed bytes -/

/-- Wherever this content lies, it is opened, verified and unpacked into the directory if that is empty,
with one file for each of the entries and no other. -/
def ReadsAs (codec : Codec Manifest) (c : Content) (m : Manifest) (es : List Entry) (dir : Path) : Prop :=
  ∀ (g : Host) (path : Path), g.file path = some c → g.clearWay dir = true →
    g.kind dir = some .dir → g.fs.emptyBelow dir = true →
    (es.Pairwise fun d e => resolve dir d.name ≠ resolve dir e.name) ∧
      ∃ g', Yields (readBack codec path dir) g m g' ∧ ∀ q c, dir <+: q →
        (g'.file q = some c ↔ ∃ e ∈ es, q = resolve dir e.name ∧ c = .bytes e.data)

/-- The entries can be read back from these bytes behind a manifest: the bytes begin with their
frames, their names can be unpacked into the directory, and none is in the way of another. -/
structure Legible (dir : Path) (es : List Entry) (data : Bytes) : Prop where
  frames : payload es <+: data
  readable : ∀ e ∈ es, Readable dir e.name
  apart : es.Pairwise fun d e => d.normal.Apart e.normal

/-- Entries with the same description and, under the same name, the same data are the same. -/
lemma eq_of_map_meta {es es' : List Entry} (hmeta : es.map Entry.meta = es'.map Entry.meta)
    (hdata : ∀ e ∈ es, ∀ e' ∈ es', e.name = e'.name → e.data = e'.data) : es = es' := by
  induction es generalizing es' with
  | nil => exact (List.map_eq_nil_iff.mp hmeta.symm).symm
  | cons e es ih =>
    cases es' with
    | nil => cases hmeta
    | cons e' es' =>
      obtain ⟨hhead, htail⟩ := List.cons.inj hmeta
      have hname : e.name = e'.name := congrArg EntryMeta.name hhead
      have hsame : e = e' := by
        cases e
        cases e'
        have := hdata _ List.mem_cons_self _ List.mem_cons_self hname
        simp_all
      rw [hsame, ih htail fun a ha b hb =>
        hdata a (List.mem_cons_of_mem _ ha) b (List.mem_cons_of_mem _ hb)]

section

variable {codec : Codec Manifest} {m : Manifest} {es : List Entry} {data : Bytes} {dir : Path}

/-- Unpacking a reader whose payload begins with the frames of the entries. -/
lemma Legible.extractAll_yields {r : SnapshotReader} {rest : Bytes} {g : Host}
    (h : Legible dir es data) (hfits : ∀ e ∈ es, e.data.length < 2 ^ 64)
    (htable : r.manifest.entries = es.map Entry.meta)
    (hdrop : r.file.drop r.payloadStart = data ++ rest) (hway : g.clearWay dir = true)
    (hdir : g.kind dir = some .dir) (hempty : g.fs.emptyBelow dir = true) :
    ∃ g', Yields (r.extractAll dir) g () g' ∧ ∀ q c, dir <+: q →
      (g'.file q = some c ↔ ∃ e ∈ es, q = resolve dir e.name ∧ c = .bytes e.data) := by
  obtain ⟨more, rfl⟩ := h.frames
  obtain ⟨hy, hu⟩ := extractEntries_normal r (more ++ rest) h.readable hfits h.apart (by simp)
    (unpacked_nil hway fun q hq => Tree.emptyBelow_iff.mp hempty _ (List.prefix_append _ _) (by simp [hq]))
  rw [← htable, ← List.append_assoc, ← hdrop] at hy
  have hdir₁ : ({ g with fs := g.fs.mkdirAll dir } : Host).kind dir = some .dir := by
    obtain ⟨n, hn, hk⟩ := Option.map_eq_some_iff.mp hdir
    simp only [Host.kind, Tree.get_mkdirAll_of_some _ _ hn]
    exact congrArg some hk
  refine ⟨_, Yields.bind (Yields.mkdirAll hway) hy, fun q c hq => ?_⟩
  rw [List.nil_append] at hu
  rw [hu.file_iff (Host.kind_foldl_unpack _ _ hdir₁) hq c]
  have hplace : ∀ e ∈ es, resolve dir e.name = dir ++ e.normal.path := fun e he => by
    rw [(h.readable e he).resolve_eq, (h.readable e he).path_normal]
  constructor
  · rintro ⟨e', he', rfl, rfl⟩
    obtain ⟨e, he, rfl⟩ := List.mem_map.mp he'
    exact ⟨e, he, (hplace e he).symm, rfl⟩
  · rintro ⟨e, he, rfl, rfl⟩
    exact ⟨e.normal, List.mem_map_of_mem he, hplace e he, rfl⟩

/-- Legible entries are read back. -/
lemma Legible.readsAs (h : Legible dir es data) (hcodec : codec.RoundTrips m)
    (hmax : (codec.encode m).length ≤ maxManifest) (htable : m.entries = es.map Entry.meta)
    (hfits : ∀ e ∈ es, e.data.length < 2 ^ 64) :
    ReadsAs codec (.bytes (sealedBytes (codec.encode m) data)) m es dir := by
  intro g path hc hway hdir hempty
  refine ⟨?_, ?_⟩
  · refine h.apart.imp_of_mem fun {d e} hd he hde heq => ?_
    rw [(h.readable d hd).resolve_eq, (h.readable e he).resolve_eq, ← (h.readable d hd).path_normal,
      ← (h.readable e he).path_normal] at heq
    refine hde.1 ?_
    rw [List.append_cancel_left heq]
  · have hraw : (Content.bytes (sealedBytes (codec.encode m) data)).raw =
        sealedBytes (codec.encode m) data := rfl
    have hopen := open_yields_sealed hcodec hmax hc hraw
    generalize hr : (⟨path, sealedBytes (codec.encode m) data, m, 12 + (codec.encode m).length,
      12 + (codec.encode m).length + data.length,
      crc32 (header (codec.encode m) ++ data ++ trailer)⟩ : SnapshotReader) = r at hopen
    have hverify : Yields r.verify g () g := hr ▸ verify_yields_sealed path m _ _ _
    have hm : r.manifest = m := by rw [← hr]
    have hdrop := drop_sealedBytes (codec.encode m) data
    obtain ⟨g', hy, hfiles⟩ := h.extractAll_yields (r := r) hfits (by rw [hm, htable])
      (by rw [← hr]; exact hdrop) hway hdir hempty
    refine ⟨g', ?_, hfiles⟩
    rw [← hm]
    exact Yields.bind hopen (Yields.bind hverify (Yields.bind hy (Yields.pure _ _)))

/-- The length field has the length of the manifest, cut to 32 bits. -/
lemma length_of_sealedBytes (json data : Bytes) :
    ofLE (((sealedBytes json data).drop 8).take 4) = json.length % 2 ^ 32 := by
  have hbytes : ((sealedBytes json data).drop 8).take 4 = toLE 4 json.length := by
    simp only [sealedBytes, header, List.append_assoc]
    rw [List.drop_left' length_magic]
    exact List.take_left' (length_toLE _ _)
  rw [hbytes, ofLE_toLE]
  norm_num

/-- What a reader finds where the header says that the manifest lies. -/
lemma manifest_of_sealedBytes (json data : Bytes) :
    ((sealedBytes json data).drop 12).take (ofLE (((sealedBytes json data).drop 8).take 4)) =
      json.take (json.length % 2 ^ 32) := by
  have hhead : (magic ++ toLE 4 json.length).length = 12 := by simp
  rw [length_of_sealedBytes, sealedBytes, header]
  rw [List.append_assoc, List.append_assoc, List.append_assoc, List.drop_left' hhead,
    List.take_append_of_le_length (Nat.mod_le _ _)]

/-- A host that holds a file with this content and, apart from it, an empty directory. -/
lemma exists_probe (c : Content) (hdir : dir ≠ []) : ∃ (g : Host) (path : Path), g.file path = some c ∧
    g.clearWay dir = true ∧ g.kind dir = some .dir ∧ g.fs.emptyBelow dir = true := by
  obtain ⟨n, rest, rfl⟩ := List.exists_cons_of_ne_nil hdir
  have hname : n ++ "x" ≠ n := fun h => by simpa using congrArg String.toList h
  set g : Host := ⟨((⟨[]⟩ : Files.Tree Content).mkdirAll (n :: rest)).set [n ++ "x"] (.file c), [], []⟩ with hg
  have hget : ∀ q, q ≠ [n ++ "x"] → g.fs.get q = if q <+: n :: rest then some .dir else none := by
    intro q hq
    rw [hg, Tree.get_set_of_ne _ _ hq, Tree.get_mkdirAll]
    simp [Files.Tree.get]
  have habove : ∀ q, q <+: n :: rest → q ≠ [n ++ "x"] := by
    rintro q hq rfl
    exact hname (List.cons_prefix_cons.mp hq).1
  have hkind : ∀ q, q <+: n :: rest → g.kind q = some .dir := fun q hq => by
    rw [Host.kind, hget q (habove q hq), if_pos hq]
    rfl
  refine ⟨g, [n ++ "x"], ?_, ?_, hkind _ List.prefix_rfl, Tree.emptyBelow_iff.mpr fun q hq hne => ?_⟩
  · rw [Host.file, hg, Tree.get_set_self]
  · refine List.all_eq_true.mpr fun q hq => ?_
    rw [hkind q ((List.mem_inits _ _).mp hq)]
    decide
  · have hlong : ¬ q <+: n :: rest := fun h => hne (h.eq_of_length_le hq.length_le)
    have hx : q ≠ [n ++ "x"] := by
      rintro rfl
      obtain ⟨hhead, -⟩ := List.cons_prefix_cons.mp hq
      exact hname hhead.symm
    rw [hget q hx, if_neg hlong]

/-- A manifest that is decoded from what its length field says of it is not cut short by it. -/
lemma small_of_decode {m' : Manifest}
    (hstrict : ∀ k < (codec.encode m).length, ∃ e, codec.decode ((codec.encode m).take k) = .error e)
    (hdec : codec.decode ((codec.encode m).take ((codec.encode m).length % 2 ^ 32)) = .ok m') :
    (codec.encode m).length < 2 ^ 32 := by
  by_contra hbig
  have hlt : (codec.encode m).length % 2 ^ 32 < (codec.encode m).length := by
    have := Nat.mod_lt (codec.encode m).length (by decide : 0 < 2 ^ 32)
    omega
  obtain ⟨e, he⟩ := hstrict _ hlt
  rw [he] at hdec
  cases hdec

/-- What is read back as the entries is legible.

**Proof sketch.** Read it back from a host that holds nothing else. A manifest of 2³² bytes or more
is cut short by its length field, and not decoded. The frames that were unpacked are those of the
manifest with the data that was found, and the files hold the data of the entries. The file of an
entry is not above the file of another, as that would make it a directory. -/
lemma legible_of_readsAs (hdir : dir ≠ []) (hcodec : codec.RoundTrips m)
    (hstrict : ∀ k < (codec.encode m).length, ∃ e, codec.decode ((codec.encode m).take k) = .error e)
    (htable : m.entries = es.map Entry.meta) (hlong : (payload es).length ≤ data.length)
    (h : ReadsAs codec (.bytes (sealedBytes (codec.encode m) data)) m es dir) :
    (codec.encode m).length < 2 ^ 32 ∧ Legible dir es data := by
  set c : Content := .bytes (sealedBytes (codec.encode m) data) with hc
  obtain ⟨probe, path, hfile, hway, hkind, hempty⟩ := exists_probe c hdir
  obtain ⟨hplaces, g', hy, hfiles⟩ := h probe path hfile hway hkind hempty
  obtain ⟨tr, -, hrun⟩ := hy.possible
  obtain ⟨r, tr₁, tr₂, h₁, rfl, hopen, hrun₁⟩ := Exec.fallible_bind_ok hrun
  obtain ⟨u, tr₃, tr₄, h₂, rfl, -, hrun₂⟩ := Exec.fallible_bind_ok hrun₁
  obtain ⟨u', tr₅, tr₆, h₃, rfl, hextract, hrun₃⟩ := Exec.fallible_bind_ok hrun₂
  obtain ⟨-, rfl, hm⟩ := Exec.quiet_ret_iff.mp hrun₃
  obtain rfl := Except.ok.inj hm
  have ho := SnapshotReader.open_ok (c := c) (keeps_quiet _) hfile hopen
  obtain ⟨u'', tr₇, tr₈, h₄, rfl, -, hwalk⟩ := Exec.fallible_bind_ok hextract
  have hmanifest := ho.manifest
  rw [show c.raw = sealedBytes (codec.encode r.manifest) data from rfl, manifest_of_sealedBytes] at hmanifest
  have hsmall := small_of_decode hstrict hmanifest
  -- the walk begins right behind the manifest
  have hstart : r.file.drop r.payloadStart = data ++ (trailer ++
      toLE 4 (crc32 (header (codec.encode r.manifest) ++ data ++ trailer)).toNat) := by
    have hmlen : r.payloadStart = 12 + (codec.encode r.manifest).length := by
      rw [ho.start, show c.raw = sealedBytes (codec.encode r.manifest) data from rfl,
        length_of_sealedBytes, Nat.mod_eq_of_lt hsmall]
    rw [ho.file, hmlen]
    exact drop_sealedBytes _ _
  rw [hstart, htable] at hwalk
  obtain ⟨es', rest, hmeta, hdata, -, hfiles', -⟩ :=
    SnapshotReader.extractEntries_ok (fun q _ => keeps_quiet q) hwalk
  have hplace := SnapshotReader.extractEntries_places hwalk
  have hmem : ∀ e ∈ es, Readable dir e.name ∧ g'.kind (resolve dir e.name) = some .file ∧
      ∀ q, q <+: resolve dir e.name → q ≠ resolve dir e.name → g'.kind q = some .dir :=
    fun e he => hplace e.meta (List.mem_map_of_mem he)
  have hsame : es = es' := by
    refine eq_of_map_meta hmeta fun e he e' he' hname => ?_
    have hapart : es'.Pairwise fun d e => resolve dir d.name ≠ resolve dir e.name := by
      have hmetas : (es.map Entry.meta).Pairwise
          fun d e => resolve dir d.name ≠ resolve dir e.name := List.pairwise_map.mpr hplaces
      rw [hmeta, List.pairwise_map] at hmetas
      exact hmetas
    have hbelow : dir <+: resolve dir e.name := by
      rw [(hmem e he).1.resolve_eq]
      exact List.prefix_append _ _
    have hfile := (hfiles _ _ hbelow).mpr ⟨e, he, rfl, rfl⟩
    rw [hname, hfiles' hapart e' he'] at hfile
    exact (Content.bytes.inj (Option.some.inj hfile)).symm
  obtain rfl := hsame
  refine ⟨hsmall, ?_, fun e he => (hmem e he).1, ?_⟩
  · exact List.prefix_of_prefix_length_le ⟨rest, hdata.symm⟩ (List.prefix_append _ _) hlong
  · -- the file of one entry is not above the file of another
    have hnot : ∀ d ∈ es, ∀ e ∈ es, resolve dir d.name ≠ resolve dir e.name →
        ¬ d.normal.path <+: e.normal.path := fun d hd e he hne hp => by
      obtain ⟨hrd, hfile, -⟩ := hmem d hd
      obtain ⟨hre, -, hdirs⟩ := hmem e he
      rw [hrd.path_normal, hre.path_normal] at hp
      rw [hdirs _ (by rw [hrd.resolve_eq, hre.resolve_eq]; exact (List.prefix_append_right_inj _).mpr hp)
        hne] at hfile
      cases hfile
    exact hplaces.imp_of_mem fun hd he hne => ⟨hnot _ hd _ he hne, hnot _ he _ hd hne.symm⟩

end

/-! ### Additions that may fail -/

namespace SnapshotWriter

/-- One call of `add_file` or `add_bytes`: what it was given, how the system answered it, and whether it
returned `Ok`. -/
structure Call where
  addition : Addition
  events : List HostSig.Event
  accepted : Bool

/-- Calls on one writer, in any order. -/
inductive Session (R : Host → Host → Prop) :
    SnapshotWriter → Host → List Call → SnapshotWriter → Host → Prop
  /-- No more calls. -/
  | done (w : SnapshotWriter) (h : Host) : Session R w h [] w h
  /-- A call that returns `Ok`. -/
  | added {w w₁ w' : SnapshotWriter} {h h₁ h' : Host} {tr : List HostSig.Event} {cs : List Call}
      (a : Addition) (hrun : Runs R (w.add a) h tr (some (.ok w₁)) h₁)
      (rest : Session R w₁ h₁ cs w' h') : Session R w h (⟨a, tr, true⟩ :: cs) w' h'
  /-- A call that returns `Err`: the table is as it was. -/
  | refused {w w' : SnapshotWriter} {h h₁ h' : Host} {tr : List HostSig.Event} {cs : List Call}
      (a : Addition) {e : RuntimeError} (hrun : Runs R (w.add a) h tr (some (.error e)) h₁)
      (rest : Session R w h₁ cs w' h') : Session R w h (⟨a, tr, false⟩ :: cs) w' h'

/-! ### What a call writes -/

/-- The length that was given for a file when it was opened. -/
def opened (p : Path) : HostSig.Event → Option ℕ
  | ⟨.openFile q, r⟩ => if q = p then (r : Except String ℕ).toOption else none
  | _ => none

/-- What the disk took of a piece that was appended. -/
def taking : HostSig.Event → Bytes
  | ⟨.append _ data, r⟩ =>
    match (r : Except (ℕ × String) Unit) with
    | .ok _ => data
    | .error (n, _) => data.take n
  | _ => []

/-- The length that the source of an addition was announced with. -/
def announced (a : Addition) (tr : List HostSig.Event) : ℕ :=
  match a.src with
  | none => a.entry.data.length
  | some p => (tr.filterMap (opened p)).head?.getD 0

namespace Call

/-- How many bytes the disk took in the course of the call. -/
def took (c : Call) : ℕ := (c.events.flatMap taking).length

/-- What the call has written: as much as the disk took of the header and of what the source gave. -/
def wrote (c : Call) : Bytes :=
  (frameHeader c.addition.entry.name (announced c.addition c.events) ++
    c.addition.taken c.events).take c.took

/-- The entry of a call that returned `Ok`, with the data that was taken from its source. -/
def added (c : Call) : Option Entry :=
  if c.accepted then some ⟨c.addition.entry.name, c.addition.taken c.events⟩ else none

end Call

/-- A writer only appends to its scratch file. -/
lemma within_add (w : SnapshotWriter) (a : Addition) : (w.add a).run.Within
    fun o : HostOp => o.reads = true ∨ ∃ data, o = .append w.scratchPath data := by
  have hentry : ∀ (name : String) (len : ℕ) (src : HostM ReadLoop),
      src.run.Within (fun o : HostOp => o.reads = true) → (w.writeEntry name len src).run.Within
        fun o : HostOp => o.reads = true ∨ ∃ data, o = .append w.scratchPath data := by
    intro name len src hsrc
    rw [writeEntry]
    split
    · exact trivial
    refine Fallible.within_bind ((within_appendTo _ _ _).mpr (.inr ⟨_, rfl⟩)) fun _ => ?_
    refine Fallible.within_bind (hsrc.mono fun o ho => .inl ho) fun read => ?_
    refine Fallible.within_bind (within_copyChunks fun b => .inr ⟨b, rfl⟩) fun _ => ?_
    split
    · exact trivial
    · dsimp only
      split <;> exact trivial
  rw [add]
  split
  · rename_i p _
    refine Fallible.within_bind ((within_sys (.openFile p)).mpr (.inl rfl)) fun _ => ?_
    refine Fallible.within_bind (within_orErr _ _) fun len => ?_
    exact hentry _ _ _ ((within_sys (.readAll p)).mpr rfl)
  · exact hentry _ _ _ trivial

section

variable {R : Host → Host → Prop} {w w' : SnapshotWriter} {h h' : Host} {tr : List HostSig.Event}

/-- What is appended to a file stands behind what it held. -/
lemma foldl_landing {p : Path} (tr : List HostSig.Event) (b : Bytes)
    (htr : ∀ e ∈ tr, e.1.reads = true ∨ ∃ data, e.1 = .append p data) :
    tr.foldl (landing p) (some (.bytes b)) = some (.bytes (b ++ tr.flatMap taking)) := by
  induction tr generalizing b with
  | nil => simp
  | cons e tr ih =>
    have hrest := ih (b ++ taking e) fun e' he' => htr e' (List.mem_cons_of_mem _ he')
    have hstep : landing p (some (.bytes b)) e = some (.bytes (b ++ taking e)) := by
      obtain ⟨o, r⟩ := e
      rcases htr _ List.mem_cons_self with ho | ⟨data, rfl⟩
      · have hnone : taking ⟨o, r⟩ = [] := by cases o <;> first | rfl | cases ho
        rw [hnone, List.append_nil]
        cases o <;> first | rfl | cases ho
      · rcases r with ⟨n, e⟩ | u <;> simp [landing, taking, Content.raw]
    rw [List.foldl_cons, hstep, hrest, List.flatMap_cons, List.append_assoc]

/-- An append writes a part of its data, and all of it where it succeeds. -/
lemma appendTo_taking {p : Path} {data : Bytes} {f : String → RuntimeError}
    {res : Except RuntimeError Unit} (hrun : Runs R (appendTo p data f) h tr (some res) h') :
    tr.flatMap taking <+: data ∧ (res = .ok () → tr.flatMap taking = data) := by
  obtain ⟨h₁, r, tr', -, -, rfl, hrun₁⟩ := Exec.call_some_inv hrun
  rcases r with ⟨n, e⟩ | u
  · obtain ⟨rfl, -, rfl⟩ := Exec.ret_some_inv hrun₁
    refine ⟨?_, nofun⟩
    simpa [taking] using List.take_prefix n data
  · obtain ⟨rfl, -, rfl⟩ := Exec.ret_some_inv hrun₁
    simp [taking]

/-- A read loop writes a part of what was read. -/
lemma copyChunks_taking {p : Path} {f : String → RuntimeError} {chunks : List Bytes}
    {res : Except RuntimeError Unit} (hrun : Runs R (copyChunks p f chunks) h tr (some res) h') :
    tr.flatMap taking <+: chunks.flatten := by
  induction chunks generalizing h tr with
  | nil =>
    obtain ⟨rfl, -, -⟩ := Exec.ret_some_inv hrun
    exact List.prefix_rfl
  | cons b chunks ih =>
    rcases Exec.fallible_bind_inv hrun with ⟨hout, -⟩ | ⟨e, -, happend⟩ |
      ⟨u, tr₁, tr₂, h₁, rfl, happend, hrest⟩
    · cases hout
    · exact (appendTo_taking happend).1.trans (List.prefix_append _ _)
    · rw [List.flatMap_append, (appendTo_taking happend).2 rfl, List.flatten_cons]
      exact (List.prefix_append_right_inj _).mpr (ih hrest)

/-- Reading calls write nothing. -/
lemma taking_of_reads (htr : ∀ e ∈ tr, e.1.reads = true) : tr.flatMap taking = [] := by
  refine List.flatMap_eq_nil_iff.mpr ?_
  rintro ⟨o, r⟩ he
  have ho := htr _ he
  cases o <;> first | rfl | cases ho

/-- **One entry, as far as it gets.** What is written is a part of the header and the data that was
read, in this order. -/
lemma writeEntry_taking {name : String} {len : ℕ} {src : HostM ReadLoop}
    {res : Except RuntimeError SnapshotWriter} (hsrc : src.run.Within fun o : HostOp => o.reads = true)
    (hrun : Runs R (w.writeEntry name len src) h tr (some res) h') :
    tr.flatMap taking <+: frameHeader name len ∨
      ∃ read tr₁ tr₂ tr₃ h₁ h₂, tr = tr₁ ++ (tr₂ ++ tr₃) ∧ (∀ e ∈ tr₁ ++ tr₃, e.1.reads = false) ∧
        Runs R src h₁ tr₂ (some (.ok read)) h₂ ∧
        tr.flatMap taking <+: frameHeader name len ++ read.1.flatten := by
  simp only [writeEntry] at hrun
  split at hrun
  · obtain ⟨rfl, -, -⟩ := Exec.ret_some_inv hrun
    exact .inl List.nil_prefix
  have happends : ∀ {tr : List HostSig.Event} {x : HostM Unit} {out : Option (Except RuntimeError Unit)}
      {g g' : Host}, x.run.Within (fun o : HostOp => ∃ p data, o = .append p data) →
      Runs R x g tr out g' → ∀ e ∈ tr, e.1.reads = false := by
    intro tr x out g g' hx hx' e he
    obtain ⟨p, data, ho⟩ := Exec.mem_within hx hx' e he
    rw [ho]
    rfl
  rcases Exec.fallible_bind_inv hrun with ⟨hout, -⟩ | ⟨e, -, hhead⟩ |
    ⟨u, tr₁, tr₂, h₁, rfl, hhead, hrun₁⟩
  · cases hout
  · exact .inl (appendTo_taking hhead).1
  have hheader := (appendTo_taking hhead).2 rfl
  have hhead' := happends ((within_appendTo _ _ _).mpr ⟨_, _, rfl⟩) hhead
  rcases Exec.fallible_bind_inv hrun₁ with ⟨hout, -⟩ | ⟨e, -, hread⟩ |
    ⟨read, tr₂, tr₃, h₂, rfl, hread, hrun₂⟩
  · cases hout
  · refine .inl ?_
    rw [List.flatMap_append, hheader, taking_of_reads (Exec.mem_within hsrc hread), List.append_nil]
    exact List.prefix_rfl
  right
  have hsilent := taking_of_reads (Exec.mem_within hsrc hread)
  have hcopied : (∀ e ∈ tr₃, e.1.reads = false) ∧ tr₃.flatMap taking <+: read.1.flatten := by
    have hwithin : (copyChunks w.scratchPath (fun e => .snapshot s!"write {name}: {e}") read.1).run.Within
        fun o : HostOp => ∃ p data, o = .append p data := within_copyChunks fun b => ⟨_, b, rfl⟩
    rcases Exec.fallible_bind_inv hrun₂ with ⟨hout, -⟩ | ⟨e, -, hcopy⟩ |
      ⟨u', tr₃, tr₄, h₃, rfl, hcopy, hrun₃⟩
    · cases hout
    · exact ⟨happends hwithin hcopy, copyChunks_taking hcopy⟩
    · have hend : tr₄ = [] := by
        split at hrun₃
        · exact (Exec.ret_some_inv hrun₃).1
        · split at hrun₃
          · exact (Exec.ret_some_inv hrun₃).1
          · exact (Exec.ret_some_inv hrun₃).1
      rw [hend, List.append_nil]
      exact ⟨happends hwithin hcopy, copyChunks_taking hcopy⟩
  refine ⟨read, tr₁, tr₂, tr₃, h₁, h₂, rfl, ?_, hread, ?_⟩
  · exact List.forall_mem_append.mpr ⟨hhead', hcopied.1⟩
  · rw [List.flatMap_append, List.flatMap_append, hheader, hsilent, List.nil_append]
    exact (List.prefix_append_right_inj _).mpr hcopied.2

/-- **One call, as far as it gets.** What is written is determined by what the call was given. -/
lemma wrote_eq {a : Addition} {res : Except RuntimeError SnapshotWriter} (accepted : Bool)
    (hrun : Runs R (w.add a) h tr (some res) h') :
    (Call.mk a tr accepted).wrote = tr.flatMap taking := by
  suffices hpart : tr.flatMap taking <+: frameHeader a.entry.name (announced a tr) ++ a.taken tr from
    (List.prefix_iff_eq_take.mp hpart).symm
  obtain ⟨⟨name, data⟩, src⟩ := a
  cases src with
  | none =>
    have hsrc : (pure (blocks bufSize data, none) : HostM ReadLoop).run.Within
        fun o : HostOp => o.reads = true := trivial
    rcases writeEntry_taking hsrc hrun with hhead | ⟨read, tr₁, tr₂, tr₃, h₁, h₂, -, -, hread, hpart⟩
    · exact hhead.trans (List.prefix_append _ _)
    · obtain ⟨-, -, hblocks⟩ := Exec.ret_some_inv hread
      obtain rfl : read = (blocks bufSize data, none) := Except.ok.inj hblocks
      rwa [flatten_blocks (by decide)] at hpart
  | some p =>
    obtain ⟨h₁, r, tr', -, -, rfl, hrun₁⟩ := Exec.call_some_inv hrun
    rcases r with e | n
    · obtain ⟨rfl, -, -⟩ := Exec.ret_some_inv hrun₁
      exact List.nil_prefix
    have hlen : announced ⟨⟨name, data⟩, some p⟩ (⟨.openFile p, (.ok n : Except String ℕ)⟩ :: tr') = n := by
      simp [announced, opened, Except.toOption]
    rw [hlen]
    change tr'.flatMap taking <+: _
    rcases writeEntry_taking ((within_sys (.readAll p)).mpr rfl) hrun₁ with
      hhead | ⟨read, tr₁, tr₂, tr₃, h₂, h₃, rfl, hwrites, hread, hpart⟩
    · exact hhead.trans (List.prefix_append _ _)
    obtain ⟨hwrites₁, hwrites₃⟩ := List.forall_mem_append.mp hwrites
    have hsilent : ∀ {t : List HostSig.Event}, (∀ e ∈ t, e.1.reads = false) →
        (t.map (delivered p)).flatten = [] := by
      intro t ht
      refine List.flatten_eq_nil_iff.mpr fun b hb => ?_
      obtain ⟨⟨o, r⟩, he, rfl⟩ := List.mem_map.mp hb
      have ho := ht _ he
      cases o <;> first | rfl | cases ho
    obtain ⟨h₄, r, tr₄, -, -, rfl, hret⟩ := Exec.call_some_inv hread
    obtain ⟨rfl, -, hr⟩ := Exec.ret_some_inv hret
    obtain rfl : read = r := Except.ok.inj hr
    have htaken : Addition.taken ⟨⟨name, data⟩, some p⟩ (⟨.openFile p, (.ok n : Except String ℕ)⟩ ::
        (tr₁ ++ ([⟨.readAll p, read⟩] ++ tr₃))) = read.1.flatten := by
      simp only [Addition.taken, List.map_cons, List.map_append, List.flatten_cons, List.flatten_append,
        hsilent hwrites₁, hsilent hwrites₃]
      simp [delivered]
    rw [htaken]
    exact hpart

/-- The scratch file grows by what a call has written, however it ends. -/
lemma add_lands {a : Addition} {res : Except RuntimeError SnapshotWriter} {b : Bytes}
    (hk : Keeps R w.scratchPath) (hb : h.file w.scratchPath = some (.bytes b))
    (hrun : Runs R (w.add a) h tr (some res) h') :
    h'.file w.scratchPath = some (.bytes (b ++ tr.flatMap taking)) := by
  have hstreams : (w.add a).run.Within (HostOp.Streams w.scratchPath) :=
    (within_add w a).mono fun o ho => by
      rcases ho with ho | ⟨data, rfl⟩
      · exact .inl (HostOp.not_overwrites_of_reads ho _)
      · exact .inr (.inr ⟨data, rfl⟩)
  have happends : ∀ e ∈ tr, e.1.reads = true ∨ ∃ data, e.1 = .append w.scratchPath data :=
    Exec.mem_within (within_add w a) hrun
  rw [Runs.file_landing hk hstreams hrun, hb, foldl_landing tr b happends]

/-- **Sessions.** The table of the writer describes the entries that were added, and the scratch file
has grown by what the calls have written, which is as long as the frames of these entries at least.

**Proof sketch.** Induction on the calls: one that returned `Ok` has appended its frame, and one
that returned `Err` has appended something or nothing. -/
lemma Session.grows {cs : List Call} (hs : Session R w h cs w' h') (hk : Keeps R w.scratchPath)
    {b : Bytes} (hb : h.file w.scratchPath = some (.bytes b)) :
    w' = { w with entries := w.entries ++ (cs.filterMap Call.added).map Entry.meta } ∧
      h'.file w.scratchPath = some (.bytes (b ++ cs.flatMap Call.wrote)) ∧
      (payload (cs.filterMap Call.added)).length ≤ (cs.flatMap Call.wrote).length := by
  induction hs generalizing b with
  | done w h => exact ⟨by simp, by simpa using hb, by simp⟩
  | @added w w₁ w' h h₁ h' tr cs a hrun _ ih =>
    obtain ⟨-, rfl, hfile⟩ := add_taken hk hb hrun
    have hland := add_lands hk hb hrun
    rw [← wrote_eq true hrun] at hland
    have hframe : Snapshot.frame ⟨a.entry.name, a.taken tr⟩ = (Call.mk a tr true).wrote :=
      List.append_cancel_left (Content.bytes.inj (Option.some.inj (hfile.symm.trans hland)))
    have hentry : (Call.mk a tr true).added = some ⟨a.entry.name, a.taken tr⟩ := rfl
    obtain ⟨hw, ht, hlong⟩ := ih hk hland
    rw [List.filterMap_cons_some hentry, List.flatMap_cons, payload_cons, hframe]
    refine ⟨by simpa using hw, ?_, ?_⟩
    · rw [← List.append_assoc]
      exact ht
    · rw [List.length_append, List.length_append]
      omega
  | @refused w w' h h₁ h' tr cs a e hrun _ ih =>
    have hland := add_lands hk hb hrun
    rw [← wrote_eq false hrun] at hland
    have hentry : (Call.mk a tr false).added = none := rfl
    obtain ⟨hw, ht, hlong⟩ := ih hk hland
    rw [List.filterMap_cons_none hentry, List.flatMap_cons]
    refine ⟨hw, by rw [← List.append_assoc]; exact ht, ?_⟩
    rw [List.length_append]
    omega

end

section

variable {R : Host → Host → Prop} {codec : Codec Manifest} {dest : PathBuf}
  {build : List EntryMeta → HostM Manifest} {w w' : SnapshotWriter} {h h₁ h₂ : Host}
  {tr : List HostSig.Event} {m : Manifest} {cs : List Call} {dir : Path}

/-- What `finish` leaves after a session on a new writer: the scratch file, framed as a snapshot. -/
lemma Session.finish_ok (hsession : Session R w h cs w' h₁) (hscratch : Keeps R w.scratchPath)
    (hdest : Keeps R dest.path) (hne : w.scratchPath ≠ dest.path) (hnew : w.entries = [])
    (hempty : h.file w.scratchPath = some (.bytes []))
    (hbuild : ∀ t, (build t).run.Within fun o : HostOp => o.reads = true)
    (hfinish : Runs R (w'.finish codec dest build) h₁ tr (some (.ok m)) h₂) :
    h₁.file w.scratchPath = some (.bytes (cs.flatMap Call.wrote)) ∧
      h₂.file dest.path = some (.bytes (sealedBytes (codec.encode m) (cs.flatMap Call.wrote))) ∧
      w'.entries = (cs.filterMap Call.added).map Entry.meta ∧
      (payload (cs.filterMap Call.added)).length ≤ (cs.flatMap Call.wrote).length ∧
      (codec.encode m).length % 2 ^ 32 ≤ maxManifest := by
  obtain ⟨rfl, hdata, hlong⟩ := hsession.grows hscratch hempty
  rw [List.nil_append] at hdata
  rw [finish_eq] at hfinish
  obtain ⟨m', tr₁, tr₂, g, rfl, hwrite, hrest⟩ := Exec.fallible_bind_ok hfinish
  obtain ⟨_, tr₃, tr₄, g', rfl, hremove, hret⟩ := Exec.fallible_bind_ok hrest
  obtain ⟨-, hR, hm⟩ := Exec.ret_some_inv hret
  obtain rfl := Except.ok.inj hm
  obtain ⟨hmax, -, data', hfile, hscratch'⟩ := writeFinal_ok hdest hwrite
  obtain rfl := hscratch' _ hscratch hne (hbuild _) hdata
  refine ⟨hdata, ?_, by simp [hnew], hlong, hmax⟩
  rw [hdest.star hR, Runs.sys_file_kept (o := .removeFile w.scratchPath) hdest hne.symm hremove]
  exact hfile

/-- **What `finish` signs off on.** Let `add_file` and `add_bytes` be called on a new writer, with any
names and any outcomes, and let `finish` then return a manifest that carries the entry table. The
file it leaves is read back, in a directory, as the entries that were added exactly when the manifest
has fewer than 2³² bytes and what the calls have written is legible: it begins with the frames of these
entries, their names can be unpacked into the directory, and none is in the way of another.

What a call writes is given by the name and the length that it was called with, by what its source gave,
and by how much of it the disk took (`Call.wrote`). The serialiser decodes what it encoded, and nothing
that was cut short; lengths fit 64 bits; and not the root of the host is unpacked into. -/
theorem session_readsAs_iff (hscratch : Keeps R w.scratchPath) (hdest : Keeps R dest.path)
    (hne : w.scratchPath ≠ dest.path) (hnew : w.entries = [])
    (hempty : h.file w.scratchPath = some (.bytes [])) (hsession : Session R w h cs w' h₁)
    (hbuild : ∀ t, (build t).run.Within fun o : HostOp => o.reads = true)
    (hfinish : Runs R (w'.finish codec dest build) h₁ tr (some (.ok m)) h₂)
    (htable : m.entries = w'.entries) (hcodec : codec.RoundTrips m)
    (hstrict : ∀ k < (codec.encode m).length, ∃ e, codec.decode ((codec.encode m).take k) = .error e)
    (hfits : ∀ e ∈ cs.filterMap Call.added, e.data.length < 2 ^ 64) (hdir : dir ≠ []) :
    ∃ c, h₂.file dest.path = some c ∧
      (ReadsAs codec c m (cs.filterMap Call.added) dir ↔ (codec.encode m).length < 2 ^ 32 ∧
        Legible dir (cs.filterMap Call.added) (cs.flatMap Call.wrote)) := by
  obtain ⟨hdata, hfile, hentries, hlong, hmax⟩ :=
    hsession.finish_ok hscratch hdest hne hnew hempty hbuild hfinish
  refine ⟨_, hfile, fun h => legible_of_readsAs hdir hcodec hstrict (htable.trans hentries) hlong h, ?_⟩
  rintro ⟨hsmall, hlegible⟩
  rw [Nat.mod_eq_of_lt hsmall] at hmax
  exact hlegible.readsAs hcodec hmax (htable.trans hentries) hfits

end

end SnapshotWriter

namespace Demo

/-- An image that cannot be read to its end. -/
def broken : Addition := ⟨⟨"images/core-2.img", []⟩, some ["tmp", "core-2.img"]⟩

/-- The entry of the snapshot, from memory. -/
def intact : Addition := ⟨⟨"images/core-1.img", [1]⟩, none⟩

/-- A host with an empty scratch file beside the snapshot, and with the broken image. -/
def scratched : Host :=
  host frozen [(second.scratchPath, .bytes []), (["tmp", "core-2.img"], .bytes [9])] []

lemma second_ne : second.scratchPath ≠ latest.path := by decide +kernel

lemma scratched_empty : scratched.file second.scratchPath = some (.bytes []) := by decide +kernel

lemma reads_buildSecond (t : List EntryMeta) :
    (buildSecond t).run.Within fun o : HostOp => o.reads = true := trivial

/-- Reading the broken image fails after its length was asked for. -/
def breaking : ℕ → Host → (o : HostOp) → Option o.Reply
  | _, _, .readAll p => if p = ["tmp", "core-2.img"] then some ([], some "Input/output error (os error 5)") else none
  | _, _, _ => none

/-- Add an image if there is one; `true` unless it was added. -/
def refusing : Option Addition → HostM Bool
  | some a => do
    let r ← (Fallible.attempt (second.add a) : HostM (Except RuntimeError SnapshotWriter))
    pure !r.isOk
  | none => pure true

/-- A first image is added, then the intact one, and the writer signs off; `true` if only the second
is in the table, with the scratch file before `finish`. -/
def signing (first : Option Addition) : HostM (Bool × Option Content × Manifest) := do
  let refused ← refusing first
  let w ← second.add intact
  let scratch ← sys (.readFile second.scratchPath)
  let m ← w.finish codec latest buildSecond
  pure (refused && w.entries = manifest.entries, scratch.toOption, m)

/-- A run of it is a session, and a `finish` that signs off. -/
lemma signing_ok {first : Option Addition} {s : Content} {m : Manifest} {tr : List HostSig.Event}
    {h h' : Host} (hrun : Runs quiet (signing first) h tr (some (.ok (true, some s, m))) h') :
    ∃ cs w' h₁ tr', SnapshotWriter.Session quiet second h cs w' h₁ ∧
      cs.filterMap SnapshotWriter.Call.added = entries ∧
      h₁.file second.scratchPath = some s ∧ w'.entries = manifest.entries ∧
      Runs quiet (w'.finish codec latest buildSecond) h₁ tr' (some (.ok m)) h' := by
  obtain ⟨refused, tr₁, tr₂, h₁, rfl, hfirst, hrun₁⟩ := Exec.fallible_bind_ok hrun
  obtain ⟨w, tr₃, tr₄, h₂, rfl, hadd, hrun₂⟩ := Exec.fallible_bind_ok hrun₁
  obtain ⟨reply, tr₅, tr₆, h₃, rfl, hread, hrun₃⟩ := Exec.fallible_bind_ok hrun₂
  obtain ⟨m', tr₇, tr₈, h₄, rfl, hfinish, hret⟩ := Exec.fallible_bind_ok hrun₃
  obtain ⟨-, rfl, hout⟩ := Exec.quiet_ret_iff.mp hret
  obtain ⟨hflag, hout⟩ := Prod.mk.inj (Except.ok.inj hout)
  obtain ⟨hs, rfl⟩ := Prod.mk.inj hout
  replace hflag := Bool.and_eq_true_iff.mp hflag.symm
  have htable : w.entries = manifest.entries := of_decide_eq_true hflag.2
  have hscratch : h₂.file second.scratchPath = some s ∧ h₃ = h₂ := by
    obtain ⟨r, tr', hr, -, hk⟩ := Exec.quiet_call_iff.mp hread
    obtain ⟨-, rfl, hrep⟩ := Exec.quiet_ret_iff.mp hk
    obtain rfl := Except.ok.inj hrep
    rcases reply with e | c
    · cases hs
    · obtain rfl : s = c := Option.some.inj hs
      exact ⟨Host.enabled_readFile.mp hr, rfl⟩
  obtain ⟨hscratch, rfl⟩ := hscratch
  have hrest : SnapshotWriter.Session quiet second h₁ [⟨intact, tr₃, true⟩] w h₃ :=
    .added intact hadd (.done w h₃)
  cases first with
  | none =>
    obtain ⟨-, rfl, -⟩ := Exec.quiet_ret_iff.mp hfirst
    exact ⟨_, w, h₃, tr₇, hrest, rfl, hscratch, htable, hfinish⟩
  | some a =>
    obtain ⟨r, tr₉, tr₁₀, h₅, rfl, hattempt, hk⟩ := Exec.fallible_bind_ok hfirst
    obtain ⟨-, rfl, hr⟩ := Exec.quiet_ret_iff.mp hk
    rcases Exec.attempt_inv hattempt with ⟨hout, -⟩ | ⟨r', hout, hadd'⟩
    · cases hout
    · obtain rfl : r = r' := by simpa using hout
      cases r with
      | ok w' =>
        obtain rfl : refused = false := Except.ok.inj hr
        exact absurd hflag.1 Bool.false_ne_true
      | error e =>
        exact ⟨_, w, h₃, tr₇, .refused a hadd' hrest, rfl, hscratch, htable, hfinish⟩

end Demo

namespace SnapshotWriter

/-- **A snapshot that cannot be read is signed off.** The first addition fails in the middle of its
source and returns an error, the second returns `Ok`, and so does `finish`; the bytes of the first
lie where the reader looks for the second. -/
theorem signs_off_unreadable :
    ∃ cs w' h₁ h₂ tr m c, Session quiet Demo.second Demo.scratched cs w' h₁ ∧
      Runs quiet (w'.finish Demo.codec Demo.latest Demo.buildSecond) h₁ tr (some (.ok m)) h₂ ∧
      m.entries = w'.entries ∧ h₂.file Demo.latest.path = some c ∧
      ¬ ReadsAs Demo.codec c m (cs.filterMap Call.added) Demo.outDir := by
  have hdone : ((machine.drive (departing Demo.breaking) 40 0 (Demo.signing (some Demo.broken)).run
      Demo.scratched).map fun x => x.2.1) = some (some (.ok (true,
        some (.bytes (frameHeader "images/core-2.img" 1 ++ payload Demo.entries)), Demo.manifest))) := by
    decide +kernel
  obtain ⟨⟨tr, out, h₂⟩, hx, hout⟩ := Option.map_eq_some_iff.mp hdone
  obtain rfl : out = some (.ok (true, some (.bytes (frameHeader "images/core-2.img" 1 ++
    payload Demo.entries)), Demo.manifest)) := hout
  obtain ⟨cs, w', h₁, tr', hsession, hes, hscratch, htable, hfinish⟩ :=
    Demo.signing_ok (Machine.drive_exec hx)
  obtain ⟨hdata, hfile, hentries, hlong, -⟩ := hsession.finish_ok (keeps_quiet _)
    (keeps_quiet _) Demo.second_ne rfl Demo.scratched_empty Demo.reads_buildSecond hfinish
  have hwrote := Content.bytes.inj (Option.some.inj (hscratch.symm.trans hdata))
  refine ⟨cs, w', h₁, h₂, tr', Demo.manifest, _, hsession, hfinish, htable.symm, hfile, fun h => ?_⟩
  have hlegible := (legible_of_readsAs (by decide) Demo.codec_roundTrips (Demo.codecOf_strict _ _)
    (htable.symm.trans hentries) hlong h).2
  have hframes := hlegible.frames
  rw [hes, ← hwrote] at hframes
  exact absurd (List.isPrefixOf_iff_prefix.mpr hframes) (by decide +kernel)

/-- With the intact image alone, what is signed off can be read. -/
theorem session_readsAs_demo :
    ∃ h₂ m c, Host.file h₂ Demo.latest.path = some c ∧
      ReadsAs Demo.codec c m Demo.entries Demo.outDir := by
  have hdone : ((machine.drive obliging 40 0 (Demo.signing none).run Demo.scratched).map
      fun x => x.2.1) = some (some (.ok (true, some (.bytes (payload Demo.entries)), Demo.manifest))) := by
    decide +kernel
  obtain ⟨⟨tr, out, h₂⟩, hx, hout⟩ := Option.map_eq_some_iff.mp hdone
  obtain rfl : out = some (.ok (true, some (.bytes (payload Demo.entries)), Demo.manifest)) := hout
  obtain ⟨cs, w', h₁, tr', hsession, hes, hscratch, htable, hfinish⟩ :=
    Demo.signing_ok (Machine.drive_exec hx)
  have hdata := (hsession.finish_ok (keeps_quiet _) (keeps_quiet _) Demo.second_ne rfl
    Demo.scratched_empty Demo.reads_buildSecond hfinish).1
  have hwrote := Content.bytes.inj (Option.some.inj (hscratch.symm.trans hdata))
  obtain ⟨c, hc, hiff⟩ := session_readsAs_iff (keeps_quiet _) (keeps_quiet _)
    Demo.second_ne rfl Demo.scratched_empty hsession Demo.reads_buildSecond hfinish htable.symm
    Demo.codec_roundTrips (Demo.codecOf_strict _ _) (by rw [hes]; decide) (by decide : Demo.outDir ≠ [])
  rw [hes, ← hwrote] at hiff
  refine ⟨h₂, Demo.manifest, c, hc, hiff.mpr ⟨by decide +kernel, List.prefix_rfl, ?_, ?_⟩⟩
  · exact fun e he => (Demo.entries_valid e he).readable (Demo.outDir_fits e he)
  · exact List.pairwise_singleton _ _

end SnapshotWriter

end Mincontainer
