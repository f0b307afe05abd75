import Mincontainer.Migration.Agreement

set_option relaxedAutoImplicit false
set_option autoImplicit false

/-!
# What a checkpoint packs

The engine writes its images into a directory that was emptied before, and from there each of them is
packed into the snapshot, and the logs of the container with them.

## Main definitions

* `Mincontainer.dumped` — the images of a dump, by name.
* `Mincontainer.Checkpoint.PacksDump` — the entries are the images of a dump and the logs.

## Main results

* `Mincontainer.Checkpoint.pack_packs` — what packing leaves, when the images of a dump are in place.
* `Mincontainer.Checkpoint.checkpoint_packs` — what a checkpoint leaves.
-/

namespace Mincontainer

open Effects Files Bytes Snapshot

/-! ### The images of a dump -/

/-- The image that a dump wrote under a name: the last one counts. -/
def dumped (images : List (String × Bytes)) (name : String) : Option Bytes :=
  images.reverse.lookup name

@[simp] lemma dumped_nil (name : String) : dumped [] name = none := rfl

lemma dumped_concat (images : List (String × Bytes)) (x : String × Bytes) (name : String) :
    dumped (images ++ [x]) name = if name = x.1 then some x.2 else dumped images name := by
  unfold dumped
  rw [List.reverse_append, List.reverse_singleton, List.singleton_append, List.lookup_cons]
  by_cases h : name = x.1
  · rw [if_pos h, beq_iff_eq.mpr h]
  · rw [if_neg h, beq_eq_false_iff_ne.mpr h]

/-- It is one of the images. -/
lemma mem_of_dumped {images : List (String × Bytes)} {name : String} {data : Bytes}
    (h : dumped images name = some data) : (name, data) ∈ images := by
  obtain ⟨l₁, l₂, hl, -⟩ := List.lookup_eq_some_iff.mp h
  rw [← List.mem_reverse, hl]
  simp

/-- After a family of files was written, a name holds the last of the files under it. -/
lemma Host.file_writeAll (h : Host) (dir : Path) (images : List (String × Bytes)) (name : String) :
    (h.writeAll dir images).file (dir ++ [name]) =
      match dumped images name with
      | some data => some (.bytes data)
      | none => h.file (dir ++ [name]) := by
  induction images using List.reverseRecOn with
  | nil => rfl
  | append_singleton images x ih =>
    have hall : h.writeAll dir (images ++ [x]) =
        (h.writeAll dir images).write (dir ++ [x.1]) (.bytes x.2) := by
      unfold Host.writeAll
      rw [List.foldl_append, List.foldl_cons, List.foldl_nil]
    rw [hall, dumped_concat]
    by_cases hx : name = x.1
    · rw [if_pos hx, hx]
      exact Host.file_write _ _ _
    · have hne : dir ++ [name] ≠ dir ++ [x.1] := fun heq =>
        hx (List.cons.inj (List.append_cancel_left heq)).1
      rw [if_neg hx, Host.file_write_of_ne _ _ hne]
      exact ih

variable {R : Host → Host → Prop} {h h' : Host} {tr : List HostSig.Event}

/-- A file that a program overwrites at no point is delivered as it was at the beginning. -/
lemma Exec.delivers {α : Type} {x : Program HostSig α} {out : Option α} {p : Path} {c : Content}
    (hk : Keeps R p) (hx : x.Within fun o : HostOp => ¬ o.overwrites p) (hc : h.file p = some c)
    (hrun : Exec machine R x h tr out h') : Delivers tr p c.raw := by
  induction hrun with
  | cut x w => exact fun _ hmem => absurd hmem List.not_mem_nil
  | ret a w => exact fun _ hmem => absurd hmem List.not_mem_nil
  | @call o k w w' r tr out hr _ ih =>
    intro chunks hmem
    rcases List.mem_cons.mp hmem with heq | hmem
    · cases heq
      exact readAll_flatten hc hr
    · exact ih (hx.2 r) ((w.next_file hx.1 r).trans hc) chunks hmem
  | env hR _ ih => exact ih hx ((hk _ _ hR).trans hc)

namespace Criu

/-- A listing names the files of the directory, each of them once. -/
lemma imageFiles_ok {dir : Path} {names : List String} (hk : ∀ n, Keeps R (dir ++ [n]))
    (hrun : Runs R (imageFiles dir) h tr (some (.ok names)) h') :
    names.Nodup ∧ ∀ n, n ∈ names ↔ ∃ c, h.file (dir ++ [n]) = some c := by
  obtain ⟨h₁, r, tr₁, hR, hr, rfl, hrun₁⟩ := Exec.call_some_inv hrun
  rcases r with e | listed
  · obtain ⟨files, tr₂, tr₃, h₂, -, hfiles, -⟩ := Exec.fallible_bind_ok hrun₁
    exact (Exec.throw_ok_false hfiles).elim
  obtain ⟨-, -, hnames⟩ := Exec.ret_some_inv hrun₁
  obtain rfl := Except.ok.inj hnames
  have hall : (listed.Nodup ∧ ∀ n ∈ listed, h₁.kind (dir ++ [n]) = some .file) ∧
      ∀ e ∈ h₁.fs.childFiles dir, e.1 ∈ listed := by
    have henabled : (decide listed.Nodup &&
        listed.all (fun n => decide (h₁.kind (dir ++ [n]) = some .file)) &&
        (h₁.fs.childFiles dir).all fun e => listed.contains e.1) = true := hr
    simpa only [Bool.and_eq_true, decide_eq_true_eq, List.all_eq_true, List.contains_iff_mem] using henabled
  obtain ⟨⟨hnodup, hfiles⟩, hchildren⟩ := hall
  refine ⟨(List.perm_insertionSort _ _).nodup_iff.mpr hnodup, fun n => ?_⟩
  rw [(List.perm_insertionSort _ _).mem_iff, ← (hk n).star hR]
  constructor
  · intro hn
    exact (h₁.kind_file_iff _).mp (hfiles n hn)
  · rintro ⟨c, hc⟩
    refine hchildren (n, c) ?_
    have hget : h₁.fs.get (dir ++ [n]) = some (.file c) := by
      unfold Host.file at hc
      split at hc
      · rename_i c' hget
        rw [hget, Option.some.inj hc]
      · cases hc
    obtain ⟨e, he, hnode⟩ := Option.map_eq_some_iff.mp hget
    have hpath : e.1 = dir ++ [n] := by
      have := List.find?_some he
      simpa using this
    refine List.mem_filterMap.mpr ⟨e, List.mem_of_find?_eq_some he, ?_⟩
    obtain ⟨q, node⟩ := e
    dsimp only at hnode hpath ⊢
    subst hnode hpath
    simp

end Criu

namespace Checkpoint

variable {env : Env} {codec : Codec Manifest} {id : String} {opts : Options} {info : SnapshotMeta}
  {dir : ContainerStateDir} {dest : PathBuf} {images : List (String × Bytes)}

/-! ### The entries -/

/-- The entry of an image. -/
def imageEntry (name : String) (data : Bytes) : Entry := ⟨"images/" ++ name, data⟩

/-- The entry of a log. -/
def logEntry (name : String) (data : Bytes) : Entry := ⟨"io/" ++ name, data⟩

/-- The log was not there when it was packed, or what was read of it is packed. -/
def LogPacked (tr : List HostSig.Event) (dir : ContainerStateDir) (es : List Entry) (name : String) : Prop :=
  (∃ k : Option Kind, ⟨.stat (dir.ioDir ++ [name]), k⟩ ∈ tr ∧ k ≠ some .file) ∨
    ∃ chunks : List Bytes, ⟨.readAll (dir.ioDir ++ [name]), (chunks, none)⟩ ∈ tr ∧
      logEntry name chunks.flatten ∈ es

/-- The entries are the images of the dump, and the logs that were there. -/
structure PacksDump (tr : List HostSig.Event) (dir : ContainerStateDir) (images : List (String × Bytes))
    (es : List Entry) : Prop where
  image : ∀ name data, imageEntry name data ∈ es ↔ dumped images name = some data
  kinds : ∀ e ∈ es, (∃ name data, e = imageEntry name data) ∨
    ∃ name ∈ ["stdout", "stderr"], ∃ data, e = logEntry name data
  log : ∀ name ∈ ["stdout", "stderr"], LogPacked tr dir es name
  nodup : (es.map Entry.name).Nodup

/-- The images are packed as they are delivered. -/
lemma addImages_ok {from_ : Path} {names : List String} {data : String → Bytes} {w w' : SnapshotWriter}
    {n n' : ℕ} {b : Bytes} (hk : Keeps R w.scratchPath) (hb : h.file w.scratchPath = some (.bytes b))
    (hreads : ∀ name ∈ names, Delivers tr (from_ ++ [name]) (data name))
    (hrun : Runs R (addImages from_ names w n) h tr (some (.ok (w', n'))) h') :
    w' = { w with entries := w.entries ++
      (names.map fun name => imageEntry name (data name)).map Entry.meta } ∧
    h'.file w.scratchPath = some (.bytes (b ++ payload (names.map fun name => imageEntry name (data name)))) := by
  induction names generalizing w h tr b n with
  | nil =>
    obtain ⟨-, hR, hw⟩ := Exec.ret_some_inv hrun
    obtain ⟨rfl, -⟩ := Prod.mk.inj (Except.ok.inj hw)
    exact ⟨by simp, by rw [hk.star hR, hb]; simp⟩
  | cons name names ih =>
    obtain ⟨len, tr₁, tr₂, h₁, rfl, hlen, hrun₁⟩ := Exec.fallible_bind_ok hrun
    obtain ⟨w₁, tr₃, tr₄, h₂, rfl, hadd, hrun₂⟩ := Exec.fallible_bind_ok hrun₁
    have hb₁ : h₁.file w.scratchPath = some (.bytes b) :=
      (hk.star (Runs.of_reads (fileLen_reads _) hlen)).trans hb
    obtain ⟨rfl, hfile⟩ := add_ok (a := ⟨imageEntry name (data name), some (from_ ++ [name])⟩) hk hb₁
      (fun p hp chunks hc => by
        obtain rfl := Option.some.inj hp
        exact hreads name List.mem_cons_self chunks (by simp [hc])) hadd
    obtain ⟨hw, hfile'⟩ := ih (w := ⟨w.scratchPath, w.entries ++ [(imageEntry name (data name)).meta]⟩) hk hfile
      (fun name' hn chunks hc => hreads name' (List.mem_cons_of_mem _ hn) chunks (by simp [hc])) hrun₂
    exact ⟨by simpa using hw, by simpa using hfile'⟩

/-- The logs that are there are packed as they are read. -/
lemma addLogs_ok {names : List String} {w w' : SnapshotWriter} {b : Bytes}
    (hk : Keeps R w.scratchPath) (hb : h.file w.scratchPath = some (.bytes b))
    (hrun : Runs R (addLogs dir names w) h tr (some (.ok w')) h') :
    ∃ es : List Entry, w' = { w with entries := w.entries ++ es.map Entry.meta } ∧
      h'.file w.scratchPath = some (.bytes (b ++ payload es)) ∧
      (∃ kept : List String, kept.Sublist names ∧ es.map Entry.name = kept.map ("io/" ++ ·)) ∧
      ∀ name ∈ names, LogPacked tr dir es name := by
  induction names generalizing w h tr b with
  | nil =>
    obtain ⟨-, hR, hw⟩ := Exec.ret_some_inv hrun
    obtain rfl := Except.ok.inj hw
    refine ⟨[], by simp, by rw [hk.star hR, hb]; simp, ⟨[], .refl _, rfl⟩, ?_⟩
    exact List.forall_mem_nil _
  | cons name names ih =>
    obtain ⟨there, tr₁, tr₂, h₁, rfl, hstat, hrun₁⟩ := Exec.fallible_bind_ok hrun
    have hb₁ : h₁.file w.scratchPath = some (.bytes b) :=
      (hk.star (Runs.of_reads (isFile_reads _) hstat)).trans hb
    obtain ⟨g, k, tr₃, -, -, rfl, hret⟩ := Exec.call_some_inv hstat
    obtain ⟨rfl, -, hthere⟩ := Exec.ret_some_inv hret
    split at hrun₁
    · obtain ⟨w₁, tr₄, tr₅, h₂, rfl, hadd, hrun₂⟩ := Exec.fallible_bind_ok hrun₁
      obtain ⟨htaken, rfl, hfile⟩ :=
        add_taken (a := ⟨logEntry name [], some (dir.ioDir ++ [name])⟩) hk hb₁ hadd
      obtain ⟨chunks, hmem, hdata⟩ := htaken _ rfl
      rw [hdata] at hfile hrun₂
      obtain ⟨es, hw, hfile', ⟨kept, hkept, hnames⟩, hlogs⟩ := ih
        (w := ⟨w.scratchPath, w.entries ++ [(logEntry name chunks.flatten).meta]⟩) hk hfile hrun₂
      refine ⟨logEntry name chunks.flatten :: es, by simpa using hw, ?_,
        ⟨name :: kept, hkept.cons_cons name, ?_⟩, List.forall_mem_cons.mpr ⟨.inr ⟨chunks, ?_, ?_⟩, ?_⟩⟩
      · rw [payload_cons, ← List.append_assoc]
        exact hfile'
      · rw [List.map_cons, List.map_cons, hnames]
        rfl
      · simp [hmem]
      · exact List.mem_cons_self
      · intro name' hn
        refine (hlogs name' hn).imp ?_ ?_
        · rintro ⟨k, hk, hne⟩
          exact ⟨k, by simp [hk], hne⟩
        · rintro ⟨chunks', hc, he⟩
          exact ⟨chunks', by simp [hc], List.mem_cons_of_mem _ he⟩
    · rename_i hnot
      obtain ⟨es, hw, hfile', ⟨kept, hkept, hnames⟩, hlogs⟩ := ih hk hb₁ hrun₁
      refine ⟨es, hw, hfile', ⟨kept, hkept.cons name, hnames⟩,
        List.forall_mem_cons.mpr ⟨.inl ⟨k, List.mem_cons_self, ?_⟩, ?_⟩⟩
      · rintro rfl
        exact hnot (Except.ok.inj hthere)
      · intro name' hn
        refine (hlogs name' hn).imp ?_ ?_
        · rintro ⟨k, hk, hne⟩
          exact ⟨k, List.mem_cons_of_mem _ hk, hne⟩
        · rintro ⟨chunks', hc, he⟩
          exact ⟨chunks', List.mem_cons_of_mem _ hc, he⟩

/-! ### Packing -/

lemma imageEntry_inj {name name' : String} {data data' : Bytes} :
    imageEntry name data = imageEntry name' data' ↔ name = name' ∧ data = data' := by
  unfold imageEntry
  rw [Entry.mk.injEq, String.append_right_inj]

/-- An image has another name than a log. -/
lemma image_name_ne (name name' : String) : "images/" ++ name ≠ "io/" ++ name' := by
  intro h
  have hlist := congrArg String.toList h
  rw [String.toList_append, String.toList_append] at hlist
  have hsecond := congrArg (·[1]?) hlist
  simp at hsecond

/-- The parts of a use of a writer. -/
lemma scope_parts {α : Type} {body : SnapshotWriter → HostM α} {a : α}
    (hk : Keeps R (dest.withExtension "mcsnap.part"))
    (hrun : Runs R (SnapshotWriter.scope dest body) h tr (some (.ok a)) h') :
    ∃ h₁ h₂ tr₁ tr₂ tr₃, tr = tr₁ ++ (tr₂ ++ tr₃) ∧ (∃ n, dest.fileName = some n) ∧
      (∀ q, q ≠ dest.withExtension "mcsnap.part" → Keeps R q → h₁.file q = h.file q) ∧
      h₁.file (dest.withExtension "mcsnap.part") = some (.bytes []) ∧
      Runs R (body ⟨dest.withExtension "mcsnap.part", []⟩) h₁ tr₂ (some (.ok a)) h₂ ∧
      ∀ q, q ≠ dest.withExtension "mcsnap.part" → Keeps R q → h'.file q = h₂.file q := by
  obtain ⟨w, tr₁, tr₂, h₁, rfl, hnew, hrun₁⟩ := Exec.fallible_bind_ok hrun
  obtain ⟨r, tr₃, tr₄, h₂, rfl, hbody, hrun₂⟩ := Exec.fallible_bind_ok hrun₁
  obtain ⟨u, tr₅, tr₆, h₃, rfl, hremove, hend⟩ := Exec.fallible_bind_ok hrun₂
  obtain ⟨rfl, hname, hempty⟩ := new_ok hk hnew
  obtain ⟨rfl, hR⟩ : r = .ok a ∧ Relation.ReflTransGen R h₃ h' := by
    cases r with
    | error e => exact (Exec.throw_ok_false hend).elim
    | ok a' =>
      obtain ⟨-, hR, ha⟩ := Exec.ret_some_inv hend
      exact ⟨congrArg Except.ok (Except.ok.inj ha).symm, hR⟩
  rcases Exec.attempt_inv hbody with ⟨hout, -⟩ | ⟨r', hout, hbody⟩
  · cases hout
  obtain rfl : .ok a = r' := by simpa using hout
  refine ⟨h₁, h₂, tr₁, tr₃, tr₅ ++ tr₆, rfl, hname, fun q hq hkq => ?_, hempty, hbody, fun q hq hkq => ?_⟩
  · refine Runs.file_kept hkq ?_ hnew
    exact (new_obeys (P := fun o : HostOp => ¬ o.overwrites q) (fun _ h => h)
      ⟨hq, fun _ => hq, hq⟩).within
  · rw [hkq.star hR]
    exact Runs.sys_file_kept (o := .removeFile (dest.withExtension "mcsnap.part")) hkq hq hremove

/-- The manifest carries the table of the entries. -/
lemma buildManifest_entries {entries : List EntryMeta} {m : Manifest}
    (hrun : Runs R (buildManifest env info entries) h tr (some (.ok m)) h') : m.entries = entries := by
  obtain ⟨_, tr₁, tr₂, h₁, rfl, -, hrun₁⟩ := Exec.fallible_bind_ok hrun
  obtain ⟨_, tr₃, tr₄, h₂, rfl, -, hrun₂⟩ := Exec.fallible_bind_ok hrun₁
  obtain ⟨_, tr₅, tr₆, h₃, rfl, -, hrun₃⟩ := Exec.fallible_bind_ok hrun₂
  obtain ⟨-, -, hm⟩ := Exec.ret_some_inv hrun₃
  rw [Except.ok.inj hm]

lemma buildManifest_reads (entries : List EntryMeta) :
    (buildManifest env info entries).run.Within fun o : HostOp => o.reads = true := by
  refine Fallible.within_bind ((within_sys .now).mpr rfl) fun _ => ?_
  refine Fallible.within_bind ((within_sys .hostname).mpr rfl) fun _ => ?_
  exact Fallible.within_bind ((within_sys .kernelRelease).mpr rfl) fun _ => trivial

/-- The images and the logs together are what is to be packed. -/
lemma PacksDump.of_parts {names kept : List String} {logs : List Entry}
    (hnodup : names.Nodup) (hnames : ∀ n, n ∈ names ↔ ∃ data, dumped images n = some data)
    (hkept : kept.Sublist ["stdout", "stderr"]) (hlogs : logs.map Entry.name = kept.map ("io/" ++ ·))
    (hall : ∀ name ∈ ["stdout", "stderr"], LogPacked tr dir logs name) :
    PacksDump tr dir images
      ((names.map fun n => imageEntry n ((dumped images n).getD [])) ++ logs) where
  image name data := by
    rw [List.mem_append]
    constructor
    · rintro (hmem | hmem)
      · obtain ⟨n, hn, heq⟩ := List.mem_map.mp hmem
        obtain ⟨rfl, rfl⟩ := imageEntry_inj.mp heq
        obtain ⟨data, hdata⟩ := (hnames n).mp hn
        rw [hdata]
        rfl
      · have hname : (imageEntry name data).name ∈ kept.map ("io/" ++ ·) :=
          hlogs ▸ List.mem_map_of_mem hmem
        obtain ⟨n, -, hn⟩ := List.mem_map.mp hname
        exact absurd hn.symm (image_name_ne name n)
    · intro hdata
      refine .inl (List.mem_map.mpr ⟨name, (hnames name).mpr ⟨data, hdata⟩, ?_⟩)
      rw [hdata]
      rfl
  kinds e he := by
    rcases List.mem_append.mp he with he | he
    · obtain ⟨n, -, rfl⟩ := List.mem_map.mp he
      exact .inl ⟨n, _, rfl⟩
    · have hname : e.name ∈ kept.map ("io/" ++ ·) := hlogs ▸ List.mem_map_of_mem he
      obtain ⟨n, hn, heq⟩ := List.mem_map.mp hname
      refine .inr ⟨n, hkept.subset hn, e.data, ?_⟩
      obtain ⟨name, data⟩ := e
      exact congrArg (Entry.mk · data) heq.symm
  log name hname := (hall name hname).imp id fun ⟨chunks, hc, he⟩ =>
    ⟨chunks, hc, List.mem_append_right _ he⟩
  nodup := by
    rw [List.map_append, hlogs, List.map_map]
    refine List.nodup_append.mpr ⟨hnodup.map fun a b hab => ?_, ?_, ?_⟩
    · exact (String.append_right_inj _).mp hab
    · refine List.Nodup.map (fun a b hab => (String.append_right_inj _).mp hab) (hkept.nodup ?_)
      decide
    · intro a ha b hb
      obtain ⟨n, -, rfl⟩ := List.mem_map.mp ha
      obtain ⟨n', -, rfl⟩ := List.mem_map.mp hb
      exact image_name_ne n n'

/-- **Packing.** When the images of a dump lie in the directory, the destination holds the image of their
entries and those of the logs.

**Proof sketch.** The listing names the images, and each is read as the engine wrote it: the writer only
writes its scratch file until then. -/
lemma pack_packs {x : Manifest × ℕ × ℕ} (hk : ∀ n, Keeps R (imagesDir dir ++ [n]))
    (hks : Keeps R (dest.withExtension "mcsnap.part")) (hkd : Keeps R dest.path)
    (hapart : ∀ n, imagesDir dir ++ [n] ≠ dest.withExtension "mcsnap.part")
    (himages : ∀ n, h.file (imagesDir dir ++ [n]) = (dumped images n).map Content.bytes)
    (hrun : Runs R (pack env codec dest dir info) h tr (some (.ok x)) h') :
    ∃ m es, PacksDump tr dir images es ∧ m.entries = es.map Entry.meta ∧
      h'.file dest.path = some (.bytes (image (codec.encode m) es)) := by
  obtain ⟨packed, tr₁, tr₂, h₁, rfl, hscope, hrun₁⟩ := Exec.fallible_bind_ok hrun
  obtain ⟨n, tr₃, tr₄, h₂, rfl, hlen, hret⟩ := Exec.fallible_bind_ok hrun₁
  obtain ⟨-, hR, -⟩ := Exec.ret_some_inv hret
  have hkept : h'.file dest.path = h₁.file dest.path := by
    rw [hkd.star hR, hkd.star (Runs.of_reads (fileLen_reads _) hlen)]
  obtain ⟨g₁, g₂, tr₅, tr₆, tr₇, rfl, ⟨n', hn'⟩, hbefore, hempty, hbody, hafter⟩ := scope_parts hks hscope
  have hne : dest.withExtension "mcsnap.part" ≠ dest.path := PathBuf.withExtension_ne hn' (by decide)
  rw [hkept, hafter _ hne.symm hkd]
  obtain ⟨names, tr₈, tr₉, g₃, rfl, hlist, hbody₁⟩ := Exec.fallible_bind_ok hbody
  obtain ⟨⟨w₁, imageBytes⟩, tr₁₀, tr₁₁, g₄, rfl, hadd, hbody₂⟩ := Exec.fallible_bind_ok hbody₁
  dsimp only at hbody₂
  split at hbody₂
  · exact (Exec.throw_ok_false hbody₂).elim
  obtain ⟨w₂, tr₁₂, tr₁₃, g₅, rfl, hlogs, hbody₃⟩ := Exec.fallible_bind_ok hbody₂
  obtain ⟨m, tr₁₄, tr₁₅, g₆, rfl, hfinish, hret'⟩ := Exec.fallible_bind_ok hbody₃
  obtain ⟨-, hR', -⟩ := Exec.ret_some_inv hret'
  have hreads : (Criu.imageFiles (imagesDir dir)).run.Within fun o : HostOp => o.reads = true :=
    Fallible.within_bind ((within_sys (.listDir _)).mpr rfl) fun _ =>
      Fallible.within_bind (within_orErr _ _) fun _ => trivial
  have hstar := Runs.of_reads hreads hlist
  have hfiles : ∀ n, g₁.file (imagesDir dir ++ [n]) = (dumped images n).map Content.bytes := fun n => by
    rw [hbefore _ (hapart n) (hk n), himages]
  obtain ⟨hnodup, hmem⟩ := Criu.imageFiles_ok hk hlist
  have hnames : ∀ n, n ∈ names ↔ ∃ data, dumped images n = some data := fun n => by
    rw [hmem, hfiles]
    cases dumped images n with
    | none => simp
    | some data => simp
  -- each image is read as it was listed
  have hdelivers : ∀ name ∈ names, Delivers tr₁₀ (imagesDir dir ++ [name]) ((dumped images name).getD []) := by
    intro name hname
    obtain ⟨data, hdata⟩ := (hnames name).mp hname
    have hfile : g₃.file (imagesDir dir ++ [name]) = some (.bytes data) := by
      rw [(hk name).star hstar, hfiles, hdata]
      rfl
    rw [hdata]
    refine Exec.delivers (c := .bytes data) (hk name) ?_ hfile hadd
    exact (addImages_obeys (P := fun o : HostOp => ¬ o.overwrites (imagesDir dir ++ [name]))
      (w := ⟨dest.withExtension "mcsnap.part", []⟩) (fun o ho => HostOp.not_overwrites_of_reads ho _)
      ⟨hapart name, fun _ => hapart name, hapart name⟩).within
  obtain ⟨rfl, hfile₁⟩ := addImages_ok hks ((hks.star hstar).trans hempty) hdelivers hadd
  dsimp only at hfile₁ hlogs
  rw [List.nil_append] at hfile₁ hlogs
  obtain ⟨logs, rfl, hfile₂, ⟨kept, hsub, hlognames⟩, hall⟩ := addLogs_ok
    (w := ⟨dest.withExtension "mcsnap.part", _⟩) hks hfile₁ hlogs
  dsimp only at hfile₂ hfinish
  rw [← payload_append] at hfile₂
  rw [← List.map_append] at hfinish
  obtain ⟨-, ⟨f₁, f₂, tr₁₆, hbuild⟩, himage⟩ := finish_ok
    (w := ⟨dest.withExtension "mcsnap.part", _⟩) hks hkd hne hfile₂ buildManifest_reads hfinish
  refine ⟨m, _, PacksDump.of_parts hnodup hnames hsub hlognames fun name hname => ?_,
    buildManifest_entries hbuild, (hkd.star hR').trans himage⟩
  refine (hall name hname).imp ?_ ?_
  · rintro ⟨k, hstat, hk⟩
    exact ⟨k, by simp [hstat], hk⟩
  · rintro ⟨chunks, hread, he⟩
    exact ⟨chunks, by simp [hread], he⟩

/-! ### The dump -/

/-- The directory of the images is emptied before the dump. -/
lemma makeImagesDir_ok {u : Unit} (hk : ∀ n, Keeps R (imagesDir dir ++ [n]))
    (hrun : Runs R (makeImagesDir dir) h tr (some (.ok u)) h') (n : String) :
    h'.file (imagesDir dir ++ [n]) = none := by
  obtain ⟨h₁, r, tr₁, -, -, rfl, hrun₁⟩ := Exec.call_some_inv hrun
  rw [Runs.file_kept (hk n) ((within_mkdirAll _ _).mpr fun h => h) hrun₁]
  show Host.file { h₁ with fs := h₁.fs.removeAll (imagesDir dir) } (imagesDir dir ++ [n]) = none
  simp only [Host.file, Tree.get_removeAll, List.prefix_append, if_true]

/-- A dump that succeeded has written its images. -/
lemma dumpTree_images {u : Unit} (hk : ∀ n, Keeps R (imagesDir (ContainerStateDir.forId env id) ++ [n]))
    (hempty : ∀ n, h.file (imagesDir (ContainerStateDir.forId env id) ++ [n]) = none)
    (hrun : Runs R (dumpTree env id info opts) h tr (some (.ok u)) h') :
    ∃ images : List (String × Bytes),
      ⟨.criuDump (dumpOptions (ContainerStateDir.forId env id) info opts),
        (.ok images : Except DumpFailure (List (String × Bytes)))⟩ ∈ tr ∧
      ∀ n, h'.file (imagesDir (ContainerStateDir.forId env id) ++ [n]) =
        (dumped images n).map Content.bytes := by
  obtain ⟨res, tr₁, tr₂, h₁, rfl, hdump, hrun₁⟩ := Exec.fallible_bind_ok hrun
  obtain ⟨g₁, r₁, tr₃, hR₁, -, rfl, hdump₁⟩ := Exec.call_some_inv hdump
  obtain ⟨g₂, r₂, tr₄, hR₂, -, rfl, hdump₂⟩ := Exec.call_some_inv hdump₁
  rcases r₂ with f | images
  · obtain ⟨-, -, hres⟩ := Exec.ret_some_inv hdump₂
    obtain rfl := Except.ok.inj hres
    -- what follows a failed dump does not return
    obtain ⟨still, tr₅, tr₆, h₂, -, -, hfailed⟩ := Exec.fallible_bind_ok hrun₁
    obtain ⟨x, tr₇, tr₈, h₃, -, -, hthrow⟩ := Exec.fallible_bind_ok hfailed
    exact (Exec.throw_ok_false hthrow).elim
  · obtain ⟨-, hR₃, hres⟩ := Exec.ret_some_inv hdump₂
    obtain rfl := Except.ok.inj hres
    obtain ⟨-, hR₄, -⟩ := Exec.ret_some_inv hrun₁
    refine ⟨images, by simp, fun n => ?_⟩
    have hbefore : g₂.file (imagesDir (ContainerStateDir.forId env id) ++ [n]) = none := by
      rw [(hk n).star hR₂]
      refine (g₁.next_file (o := .mkdirAll _) (fun h => h) r₁).trans ?_
      rw [(hk n).star hR₁]
      exact hempty n
    rw [(hk n).star hR₄, (hk n).star hR₃]
    have hwritten := Host.file_writeAll g₂ (imagesDir (ContainerStateDir.forId env id)) images n
    rw [hbefore] at hwritten
    have hnext : (g₂.next (.criuDump (dumpOptions (ContainerStateDir.forId env id) info opts))
        (.ok images : Except DumpFailure (List (String × Bytes)))).file
          (imagesDir (ContainerStateDir.forId env id) ++ [n]) =
        (g₂.writeAll (imagesDir (ContainerStateDir.forId env id)) images).file
          (imagesDir (ContainerStateDir.forId env id) ++ [n]) := by
      show Host.file (if (dumpOptions (ContainerStateDir.forId env id) info opts).leaveRunning then _ else _) _ = _
      split
      · rfl
      · rfl
    refine hnext.trans (hwritten.trans ?_)
    cases dumped images n with
    | none => rfl
    | some data => rfl

/-- **What a checkpoint leaves.** When it succeeds, its dump did, and if the file of the snapshot holds
bytes in the end they are the image of the entries of that dump and of the logs.

**Proof sketch.** The images are not touched between the dump and the packing, and the file is not
touched behind it. -/
lemma checkpoint_packs {rep : Report} {b : Bytes}
    (hk : ∀ n, Keeps R (imagesDir (ContainerStateDir.forId env id) ++ [n]))
    (hks : Keeps R (rep.snapshot.withExtension "mcsnap.part")) (hkd : Keeps R rep.snapshot.path)
    (hapart : ∀ n, imagesDir (ContainerStateDir.forId env id) ++ [n] ≠
      rep.snapshot.withExtension "mcsnap.part")
    (hb : h'.file rep.snapshot.path = some (.bytes b))
    (hrun : Runs R (checkpoint env codec id opts) h tr (some (.ok rep)) h') :
    ∃ info images m es, ⟨.criuDump (dumpOptions (ContainerStateDir.forId env id) info opts),
        (.ok images : Except DumpFailure (List (String × Bytes)))⟩ ∈ tr ∧
      PacksDump tr (ContainerStateDir.forId env id) images es ∧ m.entries = es.map Entry.meta ∧
      b = image (codec.encode m) es := by
  obtain ⟨info, tr₁, tr₂, h₁, rfl, -, hrun₁⟩ := Exec.fallible_bind_ok hrun
  obtain ⟨u, tr₃, tr₄, h₂, rfl, -, hfreeze⟩ := Exec.fallible_bind_ok hrun₁
  obtain ⟨u₁, tr₅, tr₆, h₃, rfl, hmake, hfreeze₁⟩ := Exec.fallible_bind_ok hfreeze
  obtain ⟨u₂, tr₇, tr₈, h₄, rfl, hdump, hfreeze₂⟩ := Exec.fallible_bind_ok hfreeze₁
  obtain ⟨u₃, tr₉, tr₁₀, h₅, rfl, hsettle, hstore⟩ := Exec.fallible_bind_ok hfreeze₂
  obtain ⟨now, tr₁₁, tr₁₂, h₆, rfl, hnow, hstore₁⟩ := Exec.fallible_bind_ok hstore
  obtain ⟨x, tr₁₃, tr₁₄, h₇, rfl, hpack, hstore₂⟩ := Exec.fallible_bind_ok hstore₁
  obtain ⟨u₄, tr₁₅, tr₁₆, h₈, rfl, hremove, hstore₃⟩ := Exec.fallible_bind_ok hstore₂
  obtain ⟨u₅, tr₁₇, tr₁₈, h₉, rfl, hcommit, hret⟩ := Exec.fallible_bind_ok hstore₃
  obtain ⟨-, hR, hrep⟩ := Exec.ret_some_inv hret
  obtain rfl := Except.ok.inj hrep
  obtain ⟨images, hevent, himages⟩ := dumpTree_images hk (makeImagesDir_ok hk hmake) hdump
  have hthere : ∀ n, h₆.file (imagesDir (ContainerStateDir.forId env id) ++ [n]) =
      (dumped images n).map Content.bytes := fun n => by
    rw [Runs.sys_file_kept (o := .now) (hk n) (fun h => h) hnow]
    rw [Runs.file_kept_of_removeDir (hk n) (within_settle (fun o ho =>
      .inl (HostOp.not_overwrites_of_reads ho _)) fun p => .inr ⟨p, rfl⟩) hsettle]
    exact himages n
  obtain ⟨m, es, hpacks, hentries, himage⟩ := pack_packs hk hks hkd hapart hthere hpack
  have hbytes : h₇.file (destination env (ContainerStateDir.forId env id) opts).path = some (.bytes b) := by
    rw [hkd.star hR] at hb
    exact file_before_removeDirAll hkd (file_before_commit hkd hb hcommit) hremove
  rw [himage] at hbytes
  refine ⟨_, images, m, es, List.mem_append_right _ (List.mem_append_right _
    (List.mem_append_right _ (List.mem_append_left _ hevent))), ⟨hpacks.image, hpacks.kinds, fun name hname => ?_,
    hpacks.nodup⟩, hentries, (Content.bytes.inj (Option.some.inj hbytes)).symm⟩
  refine (hpacks.log name hname).imp ?_ ?_
  · rintro ⟨k, hstat, hne⟩
    exact ⟨k, by simp [hstat], hne⟩
  · rintro ⟨chunks, hread, he⟩
    exact ⟨chunks, by simp [hread], he⟩

end Checkpoint

end Mincontainer
