import Mincontainer.Host.Rules
import Mincontainer.Snapshot.Reader

set_option relaxedAutoImplicit false
set_option autoImplicit false

/-!
# Footprints of the snapshot writer and reader

The writer makes calls at its scratch file and its destination only, next to creating the
directory they lie in. The reader only reads, except when it unpacks, and then stays below the
directory it unpacks into whatever the snapshot says.

## Main definitions

* `Mincontainer.AllowsFile` — a set of calls that includes writing one file.

## Main results

* `Mincontainer.within_scope`, `Mincontainer.within_finish` — the writer.
* `Mincontainer.within_extractAll` — unpacking cannot leave its directory.
-/

namespace Mincontainer

open Effects Files Bytes Snapshot

/-- Creating, extending and removing the file at `p` are among the calls. -/
structure AllowsFile (P : HostOp → Prop) (p : Path) : Prop where
  create : P (.createFile p)
  append : ∀ b, P (.append p b)
  remove : P (.removeFile p)

section Writer

variable {P : HostOp → Prop} {dest : PathBuf} {w : SnapshotWriter}

/-- A writer makes the directory of its destination, and its scratch file. -/
lemma new_obeys_of (hmk : ∀ p, dest.parent = some p → P (.mkdirAll p))
    (hs : AllowsFile P (dest.withExtension "mcsnap.part")) :
    Fallible.Obeys P (fun w => w.scratchPath = dest.withExtension "mcsnap.part")
      (SnapshotWriter.new dest) := by
  have hparent : (SnapshotWriter.makeParent dest).run.Within P := by
    rw [SnapshotWriter.makeParent]
    split
    · exact trivial
    · exact (within_mkdirAll _ _).mpr (hmk _ ‹_›)
  refine Fallible.Obeys.bind (Fallible.Obeys.of_within hparent) fun _ _ => ?_
  split
  · exact Fallible.Obeys.throw _
  · refine Fallible.Obeys.bind (Fallible.Obeys.of_within ((within_createFile _ _).mpr hs.create))
      fun _ _ => ?_
    exact Fallible.Obeys.pure rfl

lemma new_obeys (hmk : ∀ p, P (.mkdirAll p))
    (hs : AllowsFile P (dest.withExtension "mcsnap.part")) :
    Fallible.Obeys P (fun w => w.scratchPath = dest.withExtension "mcsnap.part")
      (SnapshotWriter.new dest) :=
  new_obeys_of (fun p _ => hmk p) hs

/-- The life of a writer. -/
lemma within_scope {α : Type} {body : SnapshotWriter → HostM α}
    (hmk : ∀ p, dest.parent = some p → P (.mkdirAll p))
    (hs : AllowsFile P (dest.withExtension "mcsnap.part"))
    (hbody : ∀ w, w.scratchPath = dest.withExtension "mcsnap.part" → (body w).run.Within P) :
    (SnapshotWriter.scope dest body).run.Within P := by
  refine Fallible.Obeys.within (Fallible.Obeys.bind (new_obeys_of hmk hs) fun w hw => ?_)
    (Q := fun _ => True)
  refine Fallible.Obeys.of_within ?_
  refine Fallible.within_bind (Fallible.within_attempt (hbody w hw)) fun r => ?_
  refine Fallible.within_bind ((within_sys (.removeFile w.scratchPath)).mpr ?_) fun _ => ?_
  · rw [hw]; exact hs.remove
  · exact within_ofExcept r

lemma writeEntry_obeys {name : String} {len : ℕ} {src : HostM ReadLoop}
    (hs : AllowsFile P w.scratchPath) (hsrc : src.run.Within P) :
    Fallible.Obeys P (fun w' => w'.scratchPath = w.scratchPath) (w.writeEntry name len src) := by
  rw [SnapshotWriter.writeEntry]
  split
  · exact Fallible.Obeys.throw _
  refine Fallible.Obeys.bind (Fallible.Obeys.of_within ((within_appendTo _ _ _).mpr (hs.append _)))
    fun _ _ => ?_
  refine Fallible.Obeys.bind (Fallible.Obeys.of_within hsrc) fun read _ => ?_
  refine Fallible.Obeys.bind (Fallible.Obeys.of_within (within_copyChunks hs.append)) fun _ _ => ?_
  split
  · exact Fallible.Obeys.throw _
  · dsimp only
    split
    · exact Fallible.Obeys.throw _
    · exact Fallible.Obeys.pure rfl

/-- Of the calls that read, adding a file makes those that open and read it. -/
lemma addFile_obeys {name : String} {src : Path} (hopen : P (.openFile src))
    (hread : P (.readAll src)) (hs : AllowsFile P w.scratchPath) :
    Fallible.Obeys P (fun w' => w'.scratchPath = w.scratchPath) (w.addFile name src) := by
  refine Fallible.Obeys.bind (Fallible.Obeys.of_within ((within_sys (.openFile src)).mpr hopen))
    fun _ _ => ?_
  refine Fallible.Obeys.bind (Fallible.Obeys.of_within (within_orErr _ _)) fun _ _ => ?_
  exact writeEntry_obeys hs ((within_sys (.readAll src)).mpr hread)

/-- Of the calls that read, finishing makes the one that reads the scratch file. -/
lemma within_finish {codec : Codec Manifest} {build : List EntryMeta → HostM Manifest}
    (hread : P (.readAll w.scratchPath)) (hs : AllowsFile P w.scratchPath)
    (hd : AllowsFile P dest.path) (hbuild : ∀ t, (build t).run.Within P) :
    (w.finish codec dest build).run.Within P := by
  have hwrite : ∀ (c : CrcWriter) (b : Bytes) (f : String → RuntimeError), c.path = dest.path →
      Fallible.Obeys P (fun c' => c'.path = dest.path) (c.writeAll b f) := fun c b f hc => by
    refine Fallible.Obeys.bind (Fallible.Obeys.of_within ((within_appendTo _ _ _).mpr ?_))
      fun _ _ => Fallible.Obeys.pure hc
    rw [hc]
    exact hd.append b
  have hcopy : ∀ (c : CrcWriter) (b : List Bytes) (f : String → RuntimeError), c.path = dest.path →
      Fallible.Obeys P (fun c' => c'.path = dest.path) (c.copy b f) := fun c b f hc => by
    refine Fallible.Obeys.bind (Fallible.Obeys.of_within (within_copyChunks fun b => ?_))
      fun _ _ => Fallible.Obeys.pure hc
    rw [hc]
    exact hd.append b
  refine Fallible.within_bind (hbuild _) fun m => ?_
  dsimp only
  split
  · exact trivial
  refine Fallible.within_bind ((within_createFile _ _).mpr hd.create) fun _ => ?_
  refine Fallible.Obeys.within (Q := fun _ => True) ?_
  refine Fallible.Obeys.bind (hwrite _ _ _ rfl) fun c hc => ?_
  refine Fallible.Obeys.bind
    (Fallible.Obeys.of_within ((within_sys (.readAll w.scratchPath)).mpr hread))
    fun read _ => ?_
  refine Fallible.Obeys.bind (hcopy _ _ _ hc) fun c hc => ?_
  split
  · exact Fallible.Obeys.throw _
  refine Fallible.Obeys.bind (hwrite _ _ _ hc) fun c hc => ?_
  refine Fallible.Obeys.bind (hwrite _ _ _ hc) fun _ _ => ?_
  refine Fallible.Obeys.of_within ?_
  exact Fallible.within_bind ((within_sys (.removeFile w.scratchPath)).mpr hs.remove) fun _ => trivial

end Writer

/-! ### The reader -/

lemma open_reads {codec : Codec Manifest} {path : Path} :
    (SnapshotReader.open codec path).run.Within fun o : HostOp => o.reads = true := by
  refine Fallible.within_bind ((within_sys (.readFile path)).mpr rfl) fun r => ?_
  exact Fallible.within_bind (within_orErr _ _) fun _ => within_ofExcept _

/-- Checking a snapshot reads a span of it. -/
lemma within_verify {P : HostOp → Prop} (r : SnapshotReader) (hspan : ∀ span, P (.readSpan r.path span)) :
    r.verify.run.Within P := by
  refine Fallible.within_bind ((within_sys (.readSpan _ _)).mpr (hspan _)) fun read => ?_
  split
  · exact trivial
  · split
    · exact trivial
    · dsimp only
      split <;> exact trivial

lemma verify_reads (r : SnapshotReader) : r.verify.run.Within fun o : HostOp => o.reads = true :=
  within_verify r fun _ => rfl

/-- A joined name lies below the directory. -/
lemma prefix_of_safeJoin {dir dest : Path} {name : String} (h : safeJoin dir name = .ok dest) :
    dir <+: dest := by
  simp only [safeJoin] at h
  split at h
  · cases h
  split at h
  · cases h
  rename_i hnormal
  obtain rfl := Except.ok.inj h
  rw [resolve_normal]
  · exact List.prefix_append _ _
  · intro c hc
    cases c with
    | normal n => exact ⟨n, rfl⟩
    | _ => exact absurd (List.any_eq_true.mpr ⟨_, hc, rfl⟩) hnormal

section Extract

variable {r : SnapshotReader} {dir : Path}

/-- The calls of unpacking into `dir`. -/
abbrev StaysBelow (dir : Path) (o : HostOp) : Prop :=
  o.Stays (fun q => q <+: dir ∨ dir <+: q) (fun q => dir <+: q)

lemma staysBelow_mkdirAll {dir p : Path} (h : p <+: dir ∨ dir <+: p) :
    StaysBelow dir (.mkdirAll p) :=
  ⟨rfl, fun _ hq => h.elim (fun hp => .inl (hq.trans hp))
    fun hp => List.prefix_or_prefix_of_prefix hq hp, fun _ hq => hq.elim⟩

lemma staysBelow_file {dir p : Path} (h : dir <+: p) : AllowsFile (StaysBelow dir) p where
  create := ⟨rfl, fun _ hq => .inr (hq ▸ h), fun _ hq => hq ▸ h⟩
  append _ := ⟨rfl, fun _ hq => .inr (hq ▸ h), fun _ hq => hq ▸ h⟩
  remove := ⟨rfl, fun _ hq => .inr (hq ▸ h), fun _ hq => hq ▸ h⟩

/-- The calls of unpacking `source` into `dir` are among the calls. -/
structure AllowsExtract (P : HostOp → Prop) (source dir : Path) : Prop where
  read : ∀ span, P (.readSpan source span)
  mkdir : ∀ p, p <+: dir ∨ dir <+: p → P (.mkdirAll p)
  file : ∀ p, dir <+: p → AllowsFile P p

variable {P : HostOp → Prop}

lemma staysBelow_removeDirAll (dir : Path) : StaysBelow dir (.removeDirAll dir) :=
  ⟨rfl, fun _ hq => .inr hq, fun _ hq => hq⟩

/-- Where all calls below the directory are allowed, unpacking into it is. -/
lemma StaysBelow.extract (hs : ∀ o, StaysBelow dir o → P o) (source : Path) : AllowsExtract P source dir where
  read _ := hs _ (HostOp.stays_of_reads rfl)
  mkdir _ hp := hs _ (staysBelow_mkdirAll hp)
  file _ hp :=
    have hfile := staysBelow_file hp
    ⟨hs _ hfile.create, fun b => hs _ (hfile.append b), hs _ hfile.remove⟩

lemma within_createEntry {source : Path} (hp : AllowsExtract P source dir) {name : String} {dest : Path}
    (h : dir <+: dest) : (SnapshotReader.createEntry dir name dest).run.Within P := by
  refine Fallible.within_bind ((within_mkdirAll _ _).mpr (hp.mkdir _ ?_)) fun _ => ?_
  · exact (List.prefix_or_prefix_of_prefix (List.dropLast_prefix dest) h)
  · split
    · exact (within_createFile _ _).mpr (hp.file _ h).create
    · exact trivial

lemma within_copyEntry (hp : AllowsExtract P r.path dir) {name : String} {len : ℕ} {crc : UInt32}
    {dest : Path} {rest : Bytes} (h : dir <+: dest) :
    (r.copyEntry name len crc dest rest).run.Within P := by
  refine Fallible.within_bind ((within_sys (.readSpan _ _)).mpr (hp.read _)) fun read => ?_
  refine Fallible.within_bind (within_copyChunks (hp.file _ h).append) fun _ => ?_
  split
  · exact trivial
  · split
    · exact trivial
    · dsimp only
      split <;> exact trivial

lemma within_extractEntry (hp : AllowsExtract P r.path dir) {expected : EntryMeta} {rest : Bytes} :
    (r.extractEntry dir expected rest).run.Within P := by
  refine Fallible.within_bind ((within_sys (.readSpan _ _)).mpr (hp.read _)) fun read => ?_
  split
  · exact trivial
  refine Fallible.within_bind (within_ofExcept _) fun header => ?_
  dsimp only
  split
  · exact trivial
  have hjoin : Fallible.Obeys P (fun dest => dir <+: dest) (ofExcept (safeJoin dir header.1)) := by
    cases hdest : safeJoin dir header.1 with
    | error e => exact Fallible.Obeys.throw e
    | ok dest => exact Fallible.Obeys.pure (prefix_of_safeJoin hdest)
  refine Fallible.Obeys.within (Fallible.Obeys.bind hjoin fun dest hdest => ?_) (Q := fun _ => True)
  refine Fallible.Obeys.of_within ?_
  refine Fallible.within_bind (within_createEntry hp hdest) fun _ => ?_
  exact Fallible.within_bind (within_copyEntry hp hdest) fun _ => trivial

lemma within_extractAll (hp : AllowsExtract P r.path dir) : (r.extractAll dir).run.Within P := by
  have hentries : ∀ (es : List EntryMeta) (rest : Bytes), (r.extractEntries dir es rest).run.Within P := by
    intro es
    induction es with
    | nil => exact fun _ => trivial
    | cons e es ih =>
      exact fun rest => Fallible.within_bind (within_extractEntry hp) fun rest => ih rest
  exact Fallible.within_bind ((within_mkdirAll _ _).mpr (hp.mkdir _ (.inl List.prefix_rfl)))
    fun _ => hentries _ _

end Extract

end Mincontainer
