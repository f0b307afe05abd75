import Mincontainer.Host.Oblige
import Mincontainer.Snapshot.Tiling

set_option relaxedAutoImplicit false
set_option autoImplicit false

/-!
# Unpacking stays inside its directory

What unpacking a snapshot may create, whatever its manifest and its payload say: the directory
itself and the missing ones above it, and what lies strictly below it, reached through names only.
An entry whose name would lead elsewhere ends the walk before anything is created for it.

## Main definitions

* `Files.Beneath` — the strict descendants of a directory that are reached through names.
* `Mincontainer.Snapshot.Escapes` — the names that would lead elsewhere.

## Main results

* `Mincontainer.safeJoin_ok_iff` — the names that are joined, and where they lead.
* `Mincontainer.SnapshotReader.extractEntry_lands` — the calls made for one entry.
* `Mincontainer.SnapshotReader.extractEntries_escapes` — a walk ends at a name that escapes.
* `Mincontainer.SnapshotReader.extractAll_confined` — all of it, for every run.
-/

namespace Files

/-- A strict descendant of the directory, reached through names only. -/
def Beneath (dir q : Path) : Prop := ∃ ns, ns ≠ [] ∧ Clean ns ∧ q = dir ++ ns

/-- On the way to a descendant there are the directory, what is above it, and descendants. -/
lemma Beneath.of_prefix {dir p q : Path} (h : Beneath dir q) (hp : p <+: q) :
    p <+: dir ∨ Beneath dir p := by
  obtain ⟨ns, -, hclean, rfl⟩ := h
  rcases List.prefix_or_prefix_of_prefix hp (List.prefix_append dir ns) with hp | ⟨ms, rfl⟩
  · exact .inl hp
  · have hms : ms <+: ns := (List.prefix_append_right_inj dir).mp hp
    by_cases hnil : ms = []
    · exact .inl (by simp [hnil])
    · exact .inr ⟨ms, hnil, fun n hn => hclean n (hms.subset hn), rfl⟩

end Files

namespace Mincontainer

open Effects Files Bytes Snapshot

/-! ### Names -/

/-- A name that is absolute, begins with `.`, or has a component `..`. -/
def Snapshot.Escapes (name : String) : Prop :=
  name.toList.head? = some '/' ∨ (splitSlash name).head? = some "." ∨ ".." ∈ splitSlash name

instance : DecidablePred Snapshot.Escapes := fun _ => inferInstanceAs (Decidable (_ ∨ _))

example : Snapshot.Escapes "a/../../b" := by decide
example : ¬ Snapshot.Escapes "a//./..b/" := by decide

/-- A `..` among the pieces of a text is one of its components. -/
lemma parentDir_mem_components {text : String} (h : ".." ∈ splitSlash text) :
    .parentDir ∈ components text := by
  have hbody : .parentDir ∈ (splitSlash text).filterMap component? :=
    List.mem_filterMap.mpr ⟨"..", h, by decide⟩
  simp only [components]
  split
  · exact List.mem_cons_of_mem _ hbody
  · split
    · exact List.mem_cons_of_mem _ hbody
    · exact hbody

/-- The components of a name that does not escape are names. -/
lemma isNormal_of_not_escapes {name : String} (h : ¬ Snapshot.Escapes name) :
    ∀ c ∈ components name, c.isNormal = true := by
  obtain ⟨habs, hcur, hparent⟩ : name.toList.head? ≠ some '/' ∧
      (splitSlash name).head? ≠ some "." ∧ ".." ∉ splitSlash name := by
    simpa only [Snapshot.Escapes, not_or] using h
  intro c hc
  rw [components, if_neg habs, if_neg hcur] at hc
  obtain ⟨piece, hpiece, hc⟩ := List.mem_filterMap.mp hc
  simp only [component?] at hc
  split at hc
  · cases hc
  · split at hc
    · rename_i heq
      exact absurd (heq ▸ hpiece) hparent
    · cases hc
      rfl

/-- **Joining.** The names that are joined are those that do not escape, and they lead where their
components say. -/
lemma safeJoin_ok_iff {dir dest : Path} {name : String} :
    safeJoin dir name = .ok dest ↔ ¬ Snapshot.Escapes name ∧ dest = resolve dir name := by
  have hany : (components name).any (fun c => !c.isNormal) = false ∧
      name.toList.head? ≠ some '/' ↔ ¬ Snapshot.Escapes name := by
    constructor
    · rintro ⟨hany, habs⟩ (h | h | h)
      all_goals rw [List.any_eq_false] at hany
      · exact habs h
      · have hcur : .curDir ∈ components name := by
          rw [components, if_neg habs, if_pos h]
          exact List.mem_cons_self
        exact hany _ hcur rfl
      · exact hany _ (parentDir_mem_components h) rfl
    · intro h
      refine ⟨?_, fun habs => h (.inl habs)⟩
      rw [List.any_eq_false]
      intro c hc
      simp [isNormal_of_not_escapes h c hc]
  rw [safeJoin, ← hany]
  constructor
  · intro h
    split at h
    · cases h
    split at h
    · cases h
    rename_i habs hnormal
    exact ⟨⟨by simpa using hnormal, habs⟩, (Except.ok.inj h).symm⟩
  · rintro ⟨⟨hnormal, habs⟩, rfl⟩
    rw [if_neg habs, hnormal, if_neg (by simp)]

/-- A name that does not escape has a component, unless it is empty.

**Proof sketch.** Its first piece is not empty, because the name does not begin with a slash. -/
lemma components_ne_nil {name : String} (h : ¬ Snapshot.Escapes name) (hne : name ≠ "") :
    components name ≠ [] := by
  obtain ⟨habs, hcur, hparent⟩ : name.toList.head? ≠ some '/' ∧
      (splitSlash name).head? ≠ some "." ∧ ".." ∉ splitSlash name := by
    simpa only [Snapshot.Escapes, not_or] using h
  obtain ⟨c, cs, hname⟩ := List.exists_cons_of_ne_nil (show name.toList ≠ [] by simpa using hne)
  have hc : (c == '/') = false := by simpa [hname] using habs
  obtain ⟨p, ps, hps⟩ := List.exists_cons_of_ne_nil (List.splitOn_ne_nil '/' cs)
  have hpieces : splitSlash name = String.ofList (c :: p) :: ps.map String.ofList := by
    rw [splitSlash, hname, List.splitOn_cons_eq_if_modifyHead, hc, hps]
    rfl
  have hfirst : component? (String.ofList (c :: p)) = some (.normal (String.ofList (c :: p))) := by
    have hdot : String.ofList (c :: p) ≠ "." := fun heq => hcur (by rw [hpieces, heq]; rfl)
    have hdots : String.ofList (c :: p) ≠ ".." := fun heq => hparent (by simp [hpieces, heq])
    have hempty : String.ofList (c :: p) ≠ "" := fun heq => by simpa using congrArg String.toList heq
    rw [component?, if_neg (by simp only [hempty, hdot, or_self, not_false_eq_true]), if_neg hdots]
  rw [components, if_neg habs, if_neg hcur, hpieces, List.filterMap_cons_some hfirst]
  exact List.cons_ne_nil _ _

/-- **Where a name leads.** A name that does not escape leads strictly below the directory. -/
lemma beneath_resolve {dir : Path} {name : String} (h : ¬ Snapshot.Escapes name) (hne : name ≠ "") :
    Beneath dir (resolve dir name) := by
  have hnormal : ∀ c ∈ components name, ∃ n, c = .normal n := fun c hc => by
    have := isNormal_of_not_escapes h c hc
    cases c with
    | normal n => exact ⟨n, rfl⟩
    | _ => cases this
  refine ⟨names (components name), ?_, fun n hn => ?_, resolve_normal _ _ hnormal⟩
  · obtain ⟨c, cs, hcs⟩ := List.exists_cons_of_ne_nil (components_ne_nil h hne)
    obtain ⟨n, rfl⟩ := hnormal c (by simp [hcs])
    simp [hcs, names]
  · obtain ⟨c, hc, hcn⟩ := List.mem_filterMap.mp hn
    obtain ⟨m, rfl⟩ := hnormal c hc
    obtain rfl : m = n := by simpa using hcn
    exact isName_of_mem_components hc

/-! ### One entry -/

namespace SnapshotReader

variable {r : SnapshotReader} {dir : Path}

/-- The calls made for an entry: reads, and calls on the way to the place its name leads to. -/
def Lands (dir : Path) (name : String) (o : HostOp) : Prop :=
  o.reads = true ∨ Beneath dir (resolve dir name) ∧
    o.Stays (fun q => q <+: resolve dir name) (fun q => q = resolve dir name)

lemma Lands.touches {name : String} {o : HostOp} (h : Lands dir name o) {q : Path}
    (hq : o.touches q) : q <+: resolve dir name ∧ Beneath dir (resolve dir name) := by
  rcases h with hreads | ⟨hbeneath, hstays⟩
  · exact ((HostOp.stays_of_reads (A := fun _ => False) (B := fun _ => False) hreads).touches q hq).elim
  · exact ⟨hstays.touches q hq, hbeneath⟩

lemma Lands.overwrites {name : String} {o : HostOp} (h : Lands dir name o) {q : Path}
    (hq : o.overwrites q) : Beneath dir q := by
  rcases h with hreads | ⟨hbeneath, hstays⟩
  · exact ((HostOp.stays_of_reads (A := fun _ => False) (B := fun _ => False) hreads).overwrites q hq).elim
  · rw [hstays.overwrites q hq]
    exact hbeneath

/-- The calls on the way to a file. -/
lemma stays_file (p : Path) : AllowsFile (HostOp.Stays (fun q => q <+: p) (fun q => q = p)) p where
  create := ⟨rfl, fun _ hq => hq ▸ List.prefix_rfl, fun _ hq => hq⟩
  append _ := ⟨rfl, fun _ hq => hq ▸ List.prefix_rfl, fun _ hq => hq⟩
  remove := ⟨rfl, fun _ hq => hq ▸ List.prefix_rfl, fun _ hq => hq⟩

/-- **One entry.** Whatever its frame and the manifest say, unpacking an entry makes calls on the way
to the place its name leads to, which lies strictly below the directory; when it succeeds, what is
left is what follows the frame. -/
lemma extractEntry_lands {expected : EntryMeta} {rest : Bytes} :
    Fallible.Obeys (Lands dir expected.name) (fun rest' => rest' = rest.drop (frameSize expected))
      (r.extractEntry dir expected rest) := by
  refine Fallible.Obeys.bind
    (Fallible.Obeys.of_within ((within_sys (.readSpan _ _)).mpr (.inl rfl))) fun read _ => ?_
  split
  · exact Fallible.Obeys.throw _
  have hheader : Fallible.Obeys (Lands dir expected.name)
      (fun header : String × ℕ × Bytes => 0 < (utf8 header.1).length ∧
        header.2.2.drop header.2.1 = rest.drop (12 + (utf8 header.1).length + header.2.1))
      (ofExcept (readEntryHeader rest)) := by
    cases hread : readEntryHeader rest with
    | error e => exact Fallible.Obeys.throw e
    | ok header =>
      refine Fallible.Obeys.pure ?_
      obtain ⟨name, len, data⟩ := header
      obtain ⟨hrest, hpos, -⟩ := readEntryHeader_ok hread
      have hlength : (frameHeader name len).length = 12 + (utf8 name).length := by
        simp only [frameHeader, List.length_append, length_toLE]
        omega
      refine ⟨hpos, ?_⟩
      rw [hrest, ← List.drop_drop, List.drop_left' hlength]
  refine Fallible.Obeys.bind hheader fun header hh => ?_
  dsimp only
  split
  · exact Fallible.Obeys.throw _
  rename_i hagree
  obtain ⟨name, len, data⟩ := header
  obtain ⟨rfl, rfl⟩ : name = expected.name ∧ len = expected.len := by
    simpa only [ne_eq, not_or, not_not] using hagree
  obtain ⟨hpos, hdrop⟩ := hh
  have hjoin : Fallible.Obeys (Lands dir expected.name)
      (fun dest => Beneath dir dest ∧ dest = resolve dir expected.name)
      (ofExcept (safeJoin dir expected.name)) := by
    cases hdest : safeJoin dir expected.name with
    | error e => exact Fallible.Obeys.throw e
    | ok dest =>
      obtain ⟨hescapes, rfl⟩ := safeJoin_ok_iff.mp hdest
      refine Fallible.Obeys.pure ⟨beneath_resolve hescapes fun hempty => ?_, rfl⟩
      rw [hempty] at hpos
      exact absurd hpos (show ¬ 0 < (utf8 "").length by decide)
  refine Fallible.Obeys.bind hjoin fun dest hdest => ?_
  obtain ⟨hbeneath, rfl⟩ := hdest
  set dest := resolve dir expected.name
  have hland : ∀ {o : HostOp}, o.Stays (fun q => q <+: dest) (fun q => q = dest) →
      Lands dir expected.name o := fun h => .inr ⟨hbeneath, h⟩
  refine Fallible.Obeys.bind (Fallible.Obeys.of_within ?_) fun _ _ =>
    Fallible.Obeys.bind (Fallible.Obeys.of_within ?_) fun _ _ => Fallible.Obeys.pure hdrop
  · refine Fallible.within_bind ((within_mkdirAll _ _).mpr (hland ⟨rfl, fun q hq => ?_, fun _ hq => hq.elim⟩))
      fun _ => ?_
    · exact List.IsPrefix.trans hq (List.dropLast_prefix dest)
    · split
      · exact (within_createFile _ _).mpr (hland (stays_file dest).create)
      · exact trivial
  · refine Fallible.within_bind ((within_sys (.readSpan _ _)).mpr (.inl rfl)) fun read => ?_
    refine Fallible.within_bind (within_copyChunks fun b => hland ((stays_file dest).append b))
      fun _ => ?_
    split
    · exact trivial
    · split
      · exact trivial
      · dsimp only
        split <;> exact trivial

/-! ### Names that escape -/

/-- The bytes of a frame's header tell its name. -/
lemma name_of_frameHeader {name name' : String} {len len' : ℕ} {data data' : Bytes}
    (hname : (utf8 name).length < 2 ^ 32) (hname' : (utf8 name').length < 2 ^ 32)
    (h : frameHeader name len ++ data = frameHeader name' len' ++ data') : name = name' := by
  have hflat : ∀ (n : String) (l : ℕ) (d : Bytes),
      frameHeader n l ++ d = toLE 4 (utf8 n).length ++ (utf8 n ++ (toLE 8 l ++ d)) := fun n l d => by
    simp [frameHeader]
  rw [hflat, hflat] at h
  obtain ⟨hlen, hrest⟩ := List.append_inj h (by simp)
  have hlength : (utf8 name).length = (utf8 name').length := by
    have := congrArg ofLE hlen
    rwa [ofLE_toLE_of_lt (by simpa using hname), ofLE_toLE_of_lt (by simpa using hname')] at this
  obtain ⟨hutf, -⟩ := List.append_inj hrest hlength
  have := fromUTF8?_utf8 name
  rw [hutf, fromUTF8?_utf8] at this
  exact (Option.some.inj this).symm

/-- **A name that escapes.** When the frame in front carries a name that is empty or escapes, the
entry is refused, and until then nothing but reading happens. -/
lemma extractEntry_escapes {expected : EntryMeta} {rest data : Bytes} {name : String} {len : ℕ}
    (hrest : rest = frameHeader name len ++ data) (hname : (utf8 name).length < 2 ^ 32)
    (hbad : name = "" ∨ Escapes name) :
    Fallible.Obeys (fun o : HostOp => o.reads = true) (fun _ => False)
      (r.extractEntry dir expected rest) := by
  refine Fallible.Obeys.bind
    (Fallible.Obeys.of_within ((within_sys (.readSpan _ _)).mpr rfl)) fun read _ => ?_
  split
  · exact Fallible.Obeys.throw _
  have hheader : Fallible.Obeys (fun o : HostOp => o.reads = true)
      (fun header : String × ℕ × Bytes => Escapes header.1) (ofExcept (readEntryHeader rest)) := by
    cases hread : readEntryHeader rest with
    | error e => exact Fallible.Obeys.throw e
    | ok header =>
      obtain ⟨name', len', data'⟩ := header
      obtain ⟨hrest', hpos, hmax⟩ := readEntryHeader_ok hread
      obtain rfl : name' = name :=
        name_of_frameHeader (lt_of_le_of_lt hmax (by decide)) hname (hrest'.symm.trans hrest)
      refine Fallible.Obeys.pure (hbad.resolve_left fun hempty => ?_)
      rw [hempty] at hpos
      exact absurd hpos (show ¬ 0 < (utf8 "").length by decide)
  refine Fallible.Obeys.bind hheader fun header hescapes => ?_
  dsimp only
  split
  · exact Fallible.Obeys.throw _
  have hjoin : Fallible.Obeys (fun o : HostOp => o.reads = true) (fun _ => False)
      (ofExcept (safeJoin dir header.1)) := by
    cases hdest : safeJoin dir header.1 with
    | error e => exact Fallible.Obeys.throw e
    | ok dest => exact absurd hescapes (safeJoin_ok_iff.mp hdest).1
  exact Fallible.Obeys.bind hjoin fun _ hfalse => hfalse.elim

/-- **A walk ends at a name that escapes.** Let the frame behind those of the first entries carry a
name that is empty or escapes. Then the walk fails, and all it makes are calls for the first entries.

**Proof sketch.** Induction on the first entries: each of them that is unpacked leaves what follows
its frame. -/
lemma extractEntries_escapes {es₁ es₂ : List EntryMeta} {expected : EntryMeta} {rest data : Bytes}
    {name : String} {len : ℕ}
    (hrest : rest.drop (es₁.map frameSize).sum = frameHeader name len ++ data)
    (hname : (utf8 name).length < 2 ^ 32) (hbad : name = "" ∨ Escapes name) :
    Fallible.Obeys (fun o : HostOp => o.reads = true ∨ ∃ e ∈ es₁, Lands dir e.name o)
      (fun _ => False) (r.extractEntries dir (es₁ ++ expected :: es₂) rest) := by
  induction es₁ generalizing rest with
  | nil =>
    refine Fallible.Obeys.bind ((extractEntry_escapes hrest hname hbad).mono (fun o ho => .inl ho)
      fun _ hfalse => hfalse) fun _ hfalse => hfalse.elim
  | cons e es₁ ih =>
    refine Fallible.Obeys.bind (extractEntry_lands.mono
      (fun o ho => .inr ⟨e, List.mem_cons_self, ho⟩) fun _ h => h) fun rest' hrest' => ?_
    refine (ih ?_).mono (fun o ho => ?_) fun _ hfalse => hfalse
    · rw [hrest', List.drop_drop, ← hrest, List.map_cons, List.sum_cons]
    · exact ho.imp_right fun ⟨e', he', hlands⟩ => ⟨e', List.mem_cons_of_mem _ he', hlands⟩

/-- The calls of a walk are those for its entries. -/
lemma within_extractEntries {es : List EntryMeta} {rest : Bytes} :
    (r.extractEntries dir es rest).run.Within fun o : HostOp =>
      o.reads = true ∨ ∃ e ∈ es, Lands dir e.name o := by
  induction es generalizing rest with
  | nil => exact trivial
  | cons e es ih =>
    refine Fallible.within_bind (extractEntry_lands.within.mono
      fun o ho => .inr ⟨e, List.mem_cons_self, ho⟩) fun rest' => ?_
    exact ih.mono fun o ho => ho.imp_right fun ⟨e', he', hlands⟩ =>
      ⟨e', List.mem_cons_of_mem _ he', hlands⟩

/-! ### Whole runs -/

/-- The calls of unpacking, over the entries of a manifest. -/
lemma within_extractAll_lands : (r.extractAll dir).run.Within fun o : HostOp =>
    o = .mkdirAll dir ∨ o.reads = true ∨ ∃ e ∈ r.manifest.entries, Lands dir e.name o :=
  Fallible.within_bind ((within_mkdirAll _ _).mpr (.inl rfl)) fun _ =>
    within_extractEntries.mono fun _ ho => .inr ho

/-- What a path can hold after calls that only create missing directories above and in `dir`, or
change what is strictly below it. -/
lemma get_of_beneath {dir q : Path} {h : Host} {o : HostOp} (ht : ∀ q, o.touches q → q <+: dir ∨ Beneath dir q)
    (hw : ∀ q, o.overwrites q → Beneath dir q) (rep : o.Reply) :
    Beneath dir q ∨ (h.next o rep).fs.get q = h.fs.get q ∨
      (q <+: dir ∧ h.fs.get q = none ∧ (h.next o rep).fs.get q = some .dir) := by
  by_cases htouch : o.touches q
  · rcases ht q htouch with hq | hq
    · by_cases hover : o.overwrites q
      · exact .inl (hw q hover)
      · exact .inr ((h.next_get_of_not_overwrites hover rep).imp_right fun hnew => ⟨hq, hnew⟩)
    · exact .inl hq
  · exact .inr (.inl (h.next_get htouch rep))

/-- **Unpacking stays inside its directory.** Whatever the bytes of the snapshot are, each call of
unpacking touches only the directory, what is above it, and what is strictly below it through names,
and overwrites only the latter; so those are the paths that change, and above the directory only
missing directories appear. When the frame behind those of the first entries carries a name that is
empty, absolute, begins with `.` or has a component `..`, unpacking does not succeed, and what it
touches are the places of the first entries.

**Proof sketch.** The footprint of each entry is that of the place its name leads to; the frame of
each entry that was unpacked is consumed, so the walk stands at the frame that escapes. -/
theorem extractAll_confined {R : Host → Host → Prop} {h h' : Host} {tr : List HostSig.Event}
    {out : Option (Except RuntimeError Unit)} (hrun : Runs R (r.extractAll dir) h tr out h') :
    (∀ e ∈ tr, (∀ q, e.1.touches q → q <+: dir ∨ Beneath dir q) ∧
      ∀ q, e.1.overwrites q → Beneath dir q) ∧
    ((∀ a b, R a b → b.fs = a.fs) → ∀ q, Beneath dir q ∨ h'.fs.get q = h.fs.get q ∨
      (q <+: dir ∧ h.fs.get q = none ∧ h'.fs.get q = some .dir)) ∧
    ∀ es₁ expected es₂ name len data, r.manifest.entries = es₁ ++ expected :: es₂ →
      r.file.drop (r.payloadStart + (es₁.map frameSize).sum) = frameHeader name len ++ data →
      (utf8 name).length < 2 ^ 32 → name = "" ∨ Escapes name →
      (∀ res, out = some res → ∃ e, res = .error e) ∧
        ∀ e ∈ tr, ∀ q, e.1.touches q → q <+: dir ∨ ∃ m ∈ es₁, q <+: resolve dir m.name := by
  have hscope : ∀ o : HostOp,
      (o = .mkdirAll dir ∨ o.reads = true ∨ ∃ e ∈ r.manifest.entries, Lands dir e.name o) →
      (∀ q, o.touches q → q <+: dir ∨ Beneath dir q) ∧ ∀ q, o.overwrites q → Beneath dir q := by
    rintro o (rfl | hreads | ⟨m, -, hlands⟩)
    · exact ⟨fun q hq => .inl hq, fun q hq => hq.elim⟩
    · have hstay := HostOp.stays_of_reads (A := fun _ => False) (B := fun _ => False) hreads
      exact ⟨fun q hq => (hstay.touches q hq).elim, fun q hq => (hstay.overwrites q hq).elim⟩
    · refine ⟨fun q hq => ?_, fun q hq => hlands.overwrites hq⟩
      obtain ⟨hpre, hbeneath⟩ := hlands.touches hq
      exact hbeneath.of_prefix hpre
  refine ⟨fun e he => hscope e.1 (Exec.mem_within within_extractAll_lands hrun e he), fun hR q => ?_, ?_⟩
  · refine Exec.rel (K := fun a b => Beneath dir q ∨ b.fs.get q = a.fs.get q ∨
      (q <+: dir ∧ a.fs.get q = none ∧ b.fs.get q = some .dir)) (fun _ => .inr (.inl rfl))
      ?_ (fun w o rep ho _ => get_of_beneath (hscope o ho).1 (hscope o ho).2 rep)
      (fun a b hab => .inr (.inl (by rw [hR a b hab]))) within_extractAll_lands hrun
    rintro a b c (hq | hab | ⟨hq, hnone, hdir⟩) (hq' | hbc | ⟨hq', hnone', hdir'⟩)
    all_goals first
      | exact .inl hq
      | exact .inl hq'
      | skip
    · exact .inr (.inl (hbc.trans hab))
    · exact .inr (.inr ⟨hq', hab ▸ hnone', hdir'⟩)
    · exact .inr (.inr ⟨hq, hnone, hbc.trans hdir⟩)
    · rw [hdir] at hnone'
      cases hnone'
  · intro es₁ expected es₂ name len data hentries hframe hname hbad
    have hobeys : Fallible.Obeys (fun o : HostOp => o = .mkdirAll dir ∨ o.reads = true ∨
        ∃ e ∈ es₁, Lands dir e.name o) (fun _ => False) (r.extractAll dir) := by
      refine Fallible.Obeys.bind
        (Fallible.Obeys.of_within ((within_mkdirAll _ _).mpr (.inl rfl))) fun _ _ => ?_
      have hrest : (r.file.drop r.payloadStart).drop (es₁.map frameSize).sum =
          frameHeader name len ++ data := by
        rw [List.drop_drop, hframe]
      rw [hentries]
      exact (extractEntries_escapes hrest hname hbad).mono (fun o ho => .inr ho) fun _ hfalse => hfalse
    constructor
    · rintro (e | u) hres
      · exact ⟨e, rfl⟩
      · exact (Exec.out_obeys hobeys hrun _ hres u rfl).elim
    · intro e he q hq
      rcases Exec.mem_within hobeys.within hrun e he with heq | hreads | ⟨m, hm, hlands⟩
      · rw [heq] at hq
        exact .inl hq
      · have hstay := HostOp.stays_of_reads (A := fun _ => False) (B := fun _ => False) hreads
        exact (hstay.touches q hq).elim
      · exact .inr ⟨m, hm, (hlands.touches hq).1⟩

end SnapshotReader

namespace Demo

/-- A snapshot whose second entry would leave the directory. -/
def hostile : SnapshotReader where
  path := ["tmp", "hostile.mcsnap"]
  file := frameHeader "a" 0 ++ (frameHeader "../x" 1 ++ [7])
  manifest := { manifest with entries := [⟨"a", 0, 0⟩, ⟨"../x", 1, 0⟩] }
  payloadStart := 0
  payloadEnd := 33
  storedCrc := 0

end Demo

/-- The second entry of the hostile snapshot is refused, and only the first has left a trace. -/
theorem SnapshotReader.extractAll_confined_demo :
    ∃ tr e h', Runs quiet (Demo.hostile.extractAll ["tmp", "out"]) (Demo.host Demo.frozen [] []) tr
        (some (.error e)) h' ∧
      (∀ q, Beneath ["tmp", "out"] q ∨ h'.fs.get q = (Demo.host Demo.frozen [] []).fs.get q ∨
        (q <+: ["tmp", "out"] ∧ (Demo.host Demo.frozen [] []).fs.get q = none ∧
          h'.fs.get q = some .dir)) ∧
      ∀ f ∈ tr, ∀ q, f.1.touches q → q <+: ["tmp", "out"] ∨
        ∃ m ∈ [(⟨"a", 0, 0⟩ : EntryMeta)], q <+: resolve ["tmp", "out"] m.name := by
  have hdrive : ((machine.drive obliging 20 0 (Demo.hostile.extractAll ["tmp", "out"]).run
      (Demo.host Demo.frozen [] [])).map fun x => x.2.1.any fun r => !r.isOk) = some true := by
    decide +kernel
  obtain ⟨⟨tr, out, h'⟩, hx, hout⟩ := Option.map_eq_some_iff.mp hdrive
  obtain ⟨e, rfl⟩ : ∃ e, out = some (.error e) := by
    match out, hout with
    | some (.error e), _ => exact ⟨e, rfl⟩
  have hrun := Machine.drive_exec hx
  obtain ⟨-, hstate, hescapes⟩ := SnapshotReader.extractAll_confined hrun
  have hframe : Demo.hostile.file.drop 13 = frameHeader "../x" 1 ++ [7] := by decide +kernel
  exact ⟨tr, e, h', hrun, hstate fun _ _ hR => hR.elim,
    (hescapes [⟨"a", 0, 0⟩] ⟨"../x", 1, 0⟩ [] "../x" 1 [7] rfl hframe (by decide +kernel)
      (.inr (by decide))).2⟩

end Mincontainer
