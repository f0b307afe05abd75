import Mincontainer.Effects.Monitor
import Mincontainer.Engine.RestoreFootprint
import Mincontainer.Migration.Arrival

set_option relaxedAutoImplicit false
set_option autoImplicit false

/-!
# Where a transfer can write

Four texts of an incoming transfer become paths: the container id of the hello names the file in the
inbox, the id of the lifecycle record and the container id of the manifest name state directories,
and the id of the configuration names the cgroup leaf. Nothing checks them. Where each leads to where
a single name would, all that the receiver writes for the container lies in its own directories.

## Main definitions

* `Mincontainer.Transport.Own` — the paths that belong to a container that arrives.
* `Mincontainer.Transport.Confined` — a call that creates, overwrites, renames and removes only such
  paths.
* `Mincontainer.Transport.Fitting` — the identifiers of a transfer lead there.

## Main results

* `Mincontainer.Transport.handleOne_confined` — a transfer whose identifiers fit stays confined.
* `Mincontainer.Transport.handleOne_escapes` — one whose hello names `../x` does not.
-/

namespace Mincontainer

open Effects Files Bytes Restore

namespace Transport

/-! ### Paths of a container that arrives -/

/-- The path lies strictly below the directory. -/
def Below (dir p : Path) : Prop := dir <+: p ∧ p ≠ dir

instance (dir p : Path) : Decidable (Below dir p) := inferInstanceAs (Decidable (_ ∧ _))

/-- The paths that belong to a container that arrives: its file in the inbox, its state directory
and its cgroup leaf. -/
def Own (env : Env) (q : Path) : Prop :=
  Below (inbox env) q ∨ (∃ n, IsName n ∧ ContainerStateDir.containers env ++ [n] <+: q) ∨
    ∃ n, IsName n ∧ q = Cgroup.cgroupRoot ++ [n]

/-- The directories that all containers share, and those above them. -/
def Ground (env : Env) (q : Path) : Prop :=
  q <+: inbox env ∨ q <+: ContainerStateDir.containers env ∨ q <+: Cgroup.cgroupRoot

/-- The call creates, overwrites, renames and removes only what belongs to the container; missing
shared directories, and mount points, may be made on the way. -/
structure Confined (env : Env) (mounts : Path → Prop) (o : HostOp) : Prop where
  overwrites : ∀ q, o.overwrites q → Own env q
  touches : ∀ q, o.touches q → Own env q ∨ Ground env q ∨ mounts q

/-! ### Identifiers -/

/-- The container id of the hello names files below the inbox. -/
structure HelloFits (env : Env) (hello : Hello) : Prop where
  part : Below (inbox env) (partFile env hello).path
  final : Below (inbox env) (finalFile env hello).path

/-- The id names a state directory below the directory of all containers. -/
def NamesState (env : Env) (id : String) : Prop :=
  ∃ n, IsName n ∧ ContainerStateDir.containers env ++ [n] <+: (ContainerStateDir.forId env id).root

/-- The id names a direct child of the cgroup root. -/
def NamesLeaf (id : String) : Prop :=
  ∃ n, IsName n ∧ resolve Cgroup.cgroupRoot id = Cgroup.cgroupRoot ++ [n]

/-- The three identifiers of a manifest lead where single names do. -/
structure ManifestFits (env : Env) (m : Manifest) : Prop where
  lifecycle : NamesState env m.lifecycle.id
  container : NamesState env m.containerId
  leaf : NamesLeaf m.config.id

/-- The mount points of the container that arrived, and what is above them. -/
def MountPoint (env : Env) (codec : Codec Manifest) (proto : Protocol) (tr : List HostSig.Event)
    (q : Path) : Prop :=
  ∃ hello m dir x, Announced proto tr hello ∧ Arrived env codec hello tr m ∧
    x ∈ (Checkpoint.layoutFor m.config dir).externalMounts ∧ q <+: mountTarget env m.config x

/-- The identifiers of the transfer, and that of the configuration found in the container's
directory, lead where single names do. -/
structure Fitting (env : Env) (codec : Codec Manifest) (proto : Protocol)
    (tr : List HostSig.Event) : Prop where
  hello : ∀ hello, Announced proto tr hello → HelloFits env hello
  manifest : ∀ hello m, Announced proto tr hello → Arrived env codec hello tr m →
    ManifestFits env m
  config : ∀ hello m text cfg, Announced proto tr hello → Arrived env codec hello tr m →
    ⟨.readFile (ContainerStateDir.forId env m.containerId).configFile,
      (.ok (.doc text (.config cfg)) : Except String Content)⟩ ∈ tr → NamesLeaf cfg.id

/-! ### Confined calls -/

section Calls

variable {env : Env} {mounts : Path → Prop} {p : Path}

lemma confined_of_reads {o : HostOp} (ho : o.reads = true) : Confined env mounts o := by
  cases o <;> first | exact ⟨fun _ h => h.elim, fun _ h => h.elim⟩ | cases ho

/-- A call that only touches what it overwrites. -/
lemma confined_of_overwrites {o : HostOp} (htouch : ∀ q, o.touches q → o.overwrites q)
    (ho : ∀ q, o.overwrites q → Own env q) : Confined env mounts o :=
  ⟨ho, fun q hq => .inl (ho q (htouch q hq))⟩

/-- Writing one file of the container. -/
lemma confined_file (hp : Own env p) : AllowsFile (Confined env mounts) p where
  create := confined_of_overwrites (fun _ => id) fun _ hq => hq ▸ hp
  append _ := confined_of_overwrites (fun _ => id) fun _ hq => hq ▸ hp
  remove := confined_of_overwrites (fun _ => id) fun _ hq => hq ▸ hp

lemma confined_putDoc (hp : Own env p) (d : Doc) : Confined env mounts (.putDoc p d) :=
  confined_of_overwrites (fun _ => id) fun _ hq => hq ▸ hp

/-- What is above or below a state directory belongs to it, or is shared. -/
lemma own_or_ground {dir : ContainerStateDir} {n q : Path}
    (hdir : ∃ n, IsName n ∧ ContainerStateDir.containers env ++ [n] <+: dir.root)
    (hn : dir.root <+: n) (hq : q <+: n) : Own env q ∨ Ground env q := by
  obtain ⟨name, hname, hpre⟩ := hdir
  rcases List.prefix_or_prefix_of_prefix hq (hpre.trans hn) with h | h
  · rcases List.prefix_concat_iff.mp h with rfl | h
    · exact .inl (.inr (.inl ⟨name, hname, List.prefix_rfl⟩))
    · exact .inr (.inr (.inl h))
  · exact .inl (.inr (.inl ⟨name, hname, h⟩))

lemma own_below {dir : ContainerStateDir}
    (hdir : ∃ n, IsName n ∧ ContainerStateDir.containers env ++ [n] <+: dir.root)
    (hp : dir.root <+: p) : Own env p := by
  obtain ⟨n, hn, hpre⟩ := hdir
  exact .inr (.inl ⟨n, hn, hpre.trans hp⟩)

/-- Making a directory in a state directory. -/
lemma confined_mkdirAll {dir : ContainerStateDir}
    (hdir : ∃ n, IsName n ∧ ContainerStateDir.containers env ++ [n] <+: dir.root)
    (hp : dir.root <+: p) : Confined env mounts (.mkdirAll p) :=
  ⟨fun _ h => h.elim, fun _ hq => (own_or_ground hdir hp hq).imp_right .inl⟩

/-- Making a shared directory. -/
lemma confined_ground (hp : Ground env p) : Confined env mounts (.mkdirAll p) :=
  ⟨fun _ h => h.elim, fun _ hq => .inr (.inl (hp.imp hq.trans (.imp hq.trans hq.trans)))⟩

/-- Making a mount point. -/
lemma confined_mount (hp : ∀ q, q <+: p → mounts q) : Confined env mounts (.mkdirAll p) :=
  ⟨fun _ h => h.elim, fun _ hq => .inr (.inr (hp _ hq))⟩

/-- Making a cgroup leaf. -/
lemma confined_leaf {id : String} (hid : NamesLeaf id) :
    Confined env mounts (.mkdirAll (resolve Cgroup.cgroupRoot id)) := by
  obtain ⟨n, hn, hleaf⟩ := hid
  refine ⟨fun _ h => h.elim, fun q hq => ?_⟩
  replace hq : q <+: Cgroup.cgroupRoot ++ [n] := by rw [← hleaf]; exact hq
  rcases List.prefix_concat_iff.mp hq with rfl | h
  · exact .inl (.inr (.inr ⟨n, hn, rfl⟩))
  · exact .inr (.inl (.inr (.inr h)))

/-- Removing a cgroup leaf. -/
lemma confined_removeDir {id : String} (hid : NamesLeaf id) :
    Confined env mounts (.removeDir (Cgroup.open id).path) := by
  obtain ⟨n, hn, hleaf⟩ := hid
  exact confined_of_overwrites (fun _ h => h) fun q hq => .inr (.inr ⟨n, hn, hq.trans hleaf⟩)

/-- Unpacking below a state directory. -/
lemma confined_unpack {dir : ContainerStateDir} {staging : Path}
    (hdir : ∃ n, IsName n ∧ ContainerStateDir.containers env ++ [n] <+: dir.root)
    (hp : dir.root <+: staging) {o : HostOp} (ho : StaysBelow staging o) :
    Confined env mounts o := by
  refine ⟨fun q hq => own_below hdir (hp.trans (ho.overwrites q hq)), fun q hq => ?_⟩
  rcases ho.touches q hq with h | h
  · exact (own_or_ground hdir hp h).imp_right .inl
  · exact .inl (own_below hdir (hp.trans h))

end Calls

/-! ### What the receiver relies on -/

/-- The reply brings in no identifier that leads elsewhere: what is read at the final path is a
snapshot whose manifest is among `Arr`, and the configuration of a container of `Arr` names a
leaf. -/
def Trusted (env : Env) (codec : Codec Manifest) (final : PathBuf) (Arr : Manifest → Prop)
    (e : HostSig.Event) : Prop :=
  ∀ p c, e = ⟨.readFile p, (.ok c : Except String Content)⟩ →
    (p = final.path → ∀ reader,
      SnapshotReader.openBytes codec p (display p) c.raw = .ok reader → Arr reader.manifest) ∧
    ∀ m text cfg, Arr m → p = (ContainerStateDir.forId env m.containerId).configFile →
      c = .doc text (.config cfg) → NamesLeaf cfg.id

section Receiver

variable {env : Env} {codec : Codec Manifest} {final : PathBuf} {Arr : Manifest → Prop}
  {mounts : Path → Prop} {id : String}

/-- Opening the snapshot that arrived. -/
lemma open_relies : Fallible.Relies (Trusted env codec final Arr) (Confined env mounts)
    (fun reader => Arr reader.manifest) (SnapshotReader.open codec final.path) := by
  refine Fallible.Relies.bind (Q := fun r => Trusted env codec final Arr ⟨.readFile final.path, r⟩)
    (Fallible.Relies.sys (confined_of_reads rfl) fun _ h => h) fun r hr => ?_
  refine Fallible.Relies.bind (relies_orErr fun c hc => ?_) fun c hc => relies_ofExcept hc
  subst hc
  exact (hr _ c rfl).1 rfl

/-- The configuration in the directory of the container that arrived. -/
lemma loadConfig_relies {m : Manifest} (hm : Arr m) :
    Fallible.Relies (Trusted env codec final Arr) (Confined env mounts)
      (fun cfg => NamesLeaf cfg.id) (ContainerStateDir.forId env m.containerId).loadConfig := by
  refine Fallible.Relies.bind (Q := fun r => Trusted env codec final Arr ⟨.readFile _, r⟩)
    (Fallible.Relies.sys (confined_of_reads rfl) fun _ h => h) fun r hr => ?_
  refine Fallible.Relies.bind (Q := fun c => ∀ text cfg, c = .doc text (.config cfg) →
    NamesLeaf cfg.id) (relies_orErr fun c hc => ?_) fun c hc => ?_
  · subst hc
    exact fun text cfg hdoc => (hr _ c rfl).2 m text cfg hm rfl hdoc
  · split
    · exact Fallible.Relies.pure (hc _ _ rfl)
    · exact Fallible.Relies.throw _

variable (hfits : ∀ m, Arr m → ManifestFits env m)
include hfits

/-- Sweeping up in the directory of the container that arrived. -/
lemma sweeps_confined {m : Manifest} (hm : Arr m) :
    Sweeps (Confined env mounts) env m.containerId fun cfg => NamesLeaf cfg.id where
  reads _ := confined_of_reads
  kill _ := ⟨fun _ h => h.elim, fun _ h => h.elim⟩
  leaf _ hcfg := confined_removeDir hcfg
  link _ _ _ := within_cleanupById (fun _ => confined_of_reads)
    (fun _ => ⟨fun _ h => h.elim, fun _ h => h.elim⟩) _
  staging := confined_of_overwrites (fun _ h => h) fun _ hq =>
    own_below (hfits m hm).container ((List.prefix_append _ _).trans hq)
  create := (confined_file (own_below (hfits m hm).container (List.prefix_append _ _))).create
  put := confined_putDoc (own_below (hfits m hm).container (List.prefix_append _ _))

variable (hmounts : ∀ m dir x, Arr m → x ∈ (Checkpoint.layoutFor m.config dir).externalMounts →
  ∀ q, q <+: mountTarget env m.config x → mounts q)
include hmounts

/-- Rebuilding the container that arrived. -/
lemma builds_confined {m : Manifest} {id : String} {index : UInt8} (hm : Arr m)
    (hid : NamesState env id) : Builds (Confined env mounts) env id index m.config := by
  have hother : ∀ o : HostOp, (∀ q, ¬ o.touches q) → Confined env mounts o := fun o ho =>
    ⟨fun q hq => absurd (HostOp.touches_of_overwrites hq) (ho q), fun q hq => absurd hq (ho q)⟩
  have hstate : Own env (ContainerStateDir.forId env id).stateFile :=
    own_below hid (List.prefix_append _ _)
  have hio : (ContainerStateDir.forId env id).root <+: (ContainerStateDir.forId env id).ioDir :=
    List.prefix_append _ _
  refine
    { reads := fun _ => confined_of_reads
      kill := fun _ => hother _ fun _ h => h
      extract := StaysBelow.extract fun o ho => confined_unpack hid (List.prefix_append _ _) ho
      staging := confined_unpack hid (List.prefix_append _ _) (staysBelow_removeDirAll _)
      create := (confined_file hstate).create
      put := confined_putDoc hstate
      io := confined_mkdirAll hid hio
      log := fun name _ => confined_file (own_below hid (hio.trans (List.prefix_append _ _)))
      mount := fun x hx => confined_mount (hmounts m _ x hm hx)
      delegate := hother _ fun _ h => h
      leaf := confined_leaf (hfits m hm).leaf
      limit := fun _ _ => hother _ fun _ h => h
      join := fun _ => hother _ fun _ h => h
      drop := confined_removeDir (hfits m hm).leaf
      engine := fun o ho => confined_of_overwrites (fun _ h => h) fun q hq => ?_
      setup := fun _ _ => Network.within_setup (fun _ => hother _ fun _ h => h)
        (confined_of_reads rfl) }
  rw [show q = o.pidfile from hq, ho]
  exact own_below hid ((List.prefix_append _ _).trans (List.prefix_append _ _))

/-- **The restore of the container that arrived.** -/
lemma restore_confined {m : Manifest} {opts : Restore.Options} (hm : Arr m)
    (hopts : opts.from_ = some final.text) (habs : final.text.toList.head? = some '/') :
    Fallible.Relies (Trusted env codec final Arr) (Confined env mounts) (fun _ => True)
      (restore env codec m.containerId opts) := by
  refine restore_relies (sweeps_confined hfits hm) (loadConfig_relies hm) (fun st =>
    ((resolveSnapshot_obeys hopts).mono (fun _ => confined_of_reads) fun _ h => h).relies)
    (fun b hb => ?_) fun reader hreader => builds_confined hfits hmounts hreader
      (hfits m hm).container
  have hpath : b.path = final.path := by
    rw [hb]
    exact resolve_absolute habs _ _
  rw [hpath]
  exact open_relies

omit hmounts in
/-- **The adoption of the container that arrived.** -/
lemma adoptSnapshot_relies :
    Fallible.Relies (Trusted env codec final Arr) (Confined env mounts)
      (fun x => ∃ m, Arr m ∧ x.1 = m.containerId) (adoptSnapshot env codec final) := by
  refine Fallible.Relies.bind open_relies fun reader hreader => ?_
  refine Fallible.Relies.bind (.of_within ((verify_reads reader).mono fun o => confined_of_reads))
    fun _ _ => ?_
  refine Fallible.Relies.bind (.of_within ?_) fun _ _ => Fallible.Relies.pure ⟨_, hreader, rfl⟩
  have hid := (hfits _ hreader).lifecycle
  have hfile : ∀ name, Own env ((ContainerStateDir.forId env reader.manifest.lifecycle.id).root ++
      [name]) := fun name => own_below hid (List.prefix_append _ _)
  have hmk : ∀ (p : Path) (f : String → RuntimeError),
      (ContainerStateDir.forId env reader.manifest.lifecycle.id).root <+: p →
      (mkdirAll p f).run.Within (Confined env mounts) := fun p f hp =>
    (within_mkdirAll _ _).mpr (confined_mkdirAll hid hp)
  refine Fallible.within_bind ((within_mkdirAll _ _).mpr
    (confined_ground (.inr (.inl List.prefix_rfl)))) fun _ => ?_
  refine Fallible.within_bind ?_ fun _ => ?_
  · exact Fallible.within_bind (hmk _ _ List.prefix_rfl) fun _ =>
      Fallible.within_bind (hmk _ _ (List.prefix_append _ _)) fun _ =>
        hmk _ _ (List.prefix_append _ _)
  · exact Fallible.within_bind (within_writeDoc (confined_file (hfile _)).create
      (confined_putDoc (hfile _) _)) fun _ =>
        within_writeDoc (confined_file (hfile _)).create (confined_putDoc (hfile _) _)

end Receiver

/-! ### One transfer -/

section

variable {env : Env} {codec : Codec Manifest} {proto : Protocol} {fuel : ℕ} {token : String}
  {index : UInt8} {mounts : Path → Prop} {hello : Hello}

/-- Receiving the snapshot writes into the inbox only. -/
lemma receiveFile_confined (hfits : HelloFits env hello) :
    Fallible.Obeys (Confined env mounts) (fun b => b = finalFile env hello)
      (receiveFile env proto fuel hello) := by
  refine receiveFile_obeys (fun o => confined_of_reads) (confined_ground (.inl List.prefix_rfl))
    (confined_file (.inl hfits.part)) ?_
  refine confined_of_overwrites (fun _ h => h) fun q hq => ?_
  rcases hq with rfl | rfl
  · exact .inl hfits.part
  · exact .inl hfits.final

/-- **Confined transfers.** In every run of the receiver, whatever the peer sends and wherever the run
stops: if the identifiers fit, then every call creates, overwrites, renames and removes only what
belongs to the container.

**Proof sketch.** The hello is the first frame, and until the handshake is over nothing is written.
The file in the inbox is named by the hello. From there on every path is made from the manifest of
the snapshot in the inbox, or from the configuration in the directory it names; both were read in
this run, so both fit. -/
theorem handleOne_confined {R : Host → Host → Prop} {h h' : Host} {tr : List HostSig.Event}
    {out : Option (Except RuntimeError String)}
    (hrun : Runs R (handleOne env codec proto fuel token index) h tr out h')
    (hfits : Fitting env codec proto tr) :
    ∀ e ∈ tr, Confined env (MountPoint env codec proto tr) e.1 := by
  have hreads : ∀ {α : Type} {x : HostM α} {g g' : Host} {t : List HostSig.Event} {out},
      (x.run.Within fun o : HostOp => o.reads = true) → Runs R x g t out g' →
        ∀ e ∈ t, Confined env (MountPoint env codec proto tr) e.1 := fun hx hr e he =>
    confined_of_reads (Exec.mem_within hx hr e he)
  rcases Exec.fallible_bind_inv hrun with ⟨-, h₁⟩ | ⟨e, -, h₁⟩ | ⟨hello, tr₁, tr₂, g, rfl, h₁, hrun₁⟩
  · exact hreads (greet_reads _) h₁
  · exact hreads (greet_reads _) h₁
  obtain ⟨hdr, n, body, rest, rfl, hdec⟩ := greet_ok h₁
  have hann : Announced proto ((⟨.recv 5, (.ok hdr : Except String Bytes)⟩ ::
      ⟨.recv n, (.ok body : Except String Bytes)⟩ :: rest) ++ tr₂) hello :=
    ⟨hdr, n, body, rest ++ tr₂, rfl, hdec⟩
  refine List.forall_mem_append.mpr ⟨hreads (greet_reads _) h₁, ?_⟩
  clear h₁
  set tr := (⟨.recv 5, (.ok hdr : Except String Bytes)⟩ ::
      ⟨.recv n, (.ok body : Except String Bytes)⟩ :: rest) ++ tr₂ with htr
  set Arr : Manifest → Prop := Arrived env codec hello tr
  have hArr : ∀ m, Arr m → ManifestFits env m := fun m hm => hfits.manifest hello m hann hm
  have hmounts : ∀ m dir x, Arr m → x ∈ (Checkpoint.layoutFor m.config dir).externalMounts →
      ∀ q, q <+: mountTarget env m.config x → MountPoint env codec proto tr q :=
    fun m dir x hm hx q hq => ⟨hello, m, dir, x, hann, hm, hx, hq⟩
  have htrusted : ∀ e ∈ tr₂, Trusted env codec (finalFile env hello) Arr e := by
    rintro e he p c rfl
    have hmem := List.mem_append_right (⟨.recv 5, (.ok hdr : Except String Bytes)⟩ ::
      ⟨.recv n, (.ok body : Except String Bytes)⟩ :: rest) he
    refine ⟨?_, ?_⟩
    · rintro rfl reader hreader
      exact ⟨c, reader, hmem, hreader, rfl⟩
    · rintro m text cfg hm rfl rfl
      exact hfits.config hello m text cfg hann hm hmem
  have hrelies : Fallible.Relies (Trusted env codec (finalFile env hello) Arr)
      (Confined env (MountPoint env codec proto tr)) (fun _ => True) (do
        let final ← receiveFile env proto fuel hello
        let outcome ← (Fallible.attempt (adoptAndRestore env codec final index) :
          HostM (Except RuntimeError Restore.Report))
        answer proto hello outcome) := by
    refine Fallible.Relies.bind (receiveFile_confined (hfits.hello hello hann)).relies
      fun final hfinal => ?_
    subst hfinal
    refine Fallible.Relies.bind (Fallible.Relies.attempt (Q := fun _ => True) ?_) fun outcome _ =>
      .of_within ((answer_reads _ _).mono fun o => confined_of_reads)
    refine Fallible.Relies.bind (adoptSnapshot_relies hArr) fun x hx => ?_
    obtain ⟨m, hm, hid⟩ := hx
    obtain ⟨id, cfg⟩ := x
    obtain rfl : id = m.containerId := hid
    exact restore_confined hArr hmounts hm rfl finalFile_absolute
  exact (Exec.of_relies hrelies hrun₁ htrusted).1

end

end Transport

/-! ### Two transfers -/

namespace Demo

open Transport

/-- What arrives as a snapshot has the one manifest that can be decoded. -/
lemma manifest_of_arrived {hello : Hello} {tr : List HostSig.Event} {m : Manifest}
    (h : Arrived env codec hello tr m) : m = manifest := by
  obtain ⟨c, reader, -, hopen, rfl⟩ := h
  have hdec := (SnapshotReader.openBytes_ok hopen).manifest
  simp only [codec, codecOf] at hdec
  split at hdec
  · exact (Except.ok.inj hdec).symm
  · cases hdec

/-- The event created the file. -/
def creates (p : Path) : HostSig.Event → Bool
  | ⟨.createFile q, r⟩ => q = p && (r : Except String Unit).isOk
  | _ => false

lemma created_of_any {p : Path} {tr : List HostSig.Event} (hany : tr.any (creates p) = true) :
    ⟨.createFile p, (.ok () : Except String Unit)⟩ ∈ tr := by
  obtain ⟨⟨o, r⟩, hmem, he⟩ := List.any_eq_true.mp hany
  cases o with
  | createFile q =>
    rcases r with e | ⟨⟩
    · simp [creates, Except.isOk, Except.toBool] at he
    · obtain rfl : q = _ := by simpa [creates, Except.isOk, Except.toBool] using he
      exact hmem
  | _ => cases he

end Demo

namespace Transport

/-- **A transfer that escapes.** The hello of a peer that knows the token names the container `../x`:
the receiver creates a file next to its inbox. -/
theorem handleOne_escapes : ∃ tr out h',
    Runs quiet (handleOne Demo.env Demo.codec (Demo.protocol "../x") 2 "secret" 0) (Demo.host Demo.frozen [] [])
      tr out h' ∧
    ⟨.createFile ["root", ".mincontainer", "x.mcsnap.part"], (.ok () : Except String Unit)⟩ ∈ tr ∧
    ¬ ∀ e ∈ tr, Confined Demo.env (MountPoint Demo.env Demo.codec (Demo.protocol "../x") tr) e.1 := by
  have hdrive : ((machine.drive (departing (Demo.peer "../x")) 40 0
      (handleOne Demo.env Demo.codec (Demo.protocol "../x") 2 "secret" 0).run
      (Demo.host Demo.frozen [] [])).map fun x =>
        x.1.any (Demo.creates ["root", ".mincontainer", "x.mcsnap.part"])) = some true := by
    decide +kernel
  obtain ⟨⟨tr, out, h'⟩, hx, hany⟩ := Option.map_eq_some_iff.mp hdrive
  have hcreated := Demo.created_of_any hany
  refine ⟨tr, out, h', Machine.drive_exec hx, hcreated, fun hall => ?_⟩
  rcases (hall _ hcreated).overwrites _ rfl with ⟨hinbox, -⟩ | ⟨n, -, hpre⟩ | ⟨n, -, hleaf⟩
  · exact absurd hinbox (by decide)
  · have hshort := hpre.length_le
    simp [ContainerStateDir.containers, Demo.env] at hshort
  · simp [Cgroup.cgroupRoot] at hleaf

/-- A transfer that hands the container `web` over: its snapshot is stored in the inbox and adopted, and
the engine run. -/
theorem handleOne_confined_demo : ∃ tr h',
    Runs quiet (handleOne Demo.env Demo.codec Demo.webProtocol 2 "secret" 0) (Demo.host Demo.frozen [] []) tr
      (some (.ok "web")) h' ∧ (∃ owner r rr, ⟨.criuRestore owner r, rr⟩ ∈ tr) ∧
    ∀ e ∈ tr, Confined Demo.env (MountPoint Demo.env Demo.codec Demo.webProtocol tr) e.1 := by
  obtain ⟨tr₁, tr₂, rep, h, hh⟩ := Demo.web_handed
  obtain ⟨owner, r, rr, hengine⟩ := hh.engine
  refine ⟨_, h, hh.handleOne, ⟨owner, r, rr, ?_⟩, handleOne_confined hh.handleOne ⟨?_, ?_, ?_⟩⟩
  · simp [hengine]
  · rintro hello ⟨hdr, n, body, rest, -, hdec⟩
    obtain rfl := Demo.webHello_of_decode hdec
    exact ⟨by decide +kernel, by decide +kernel⟩
  · intro hello m _ harr
    obtain rfl := Demo.manifest_of_arrived harr
    have hstate : NamesState Demo.env "web" := ⟨"web", by decide, by decide +kernel⟩
    exact ⟨hstate, hstate, ⟨"web", by decide, by decide +kernel⟩⟩
  · intro hello m text cfg _ harr hmem
    obtain rfl := Demo.manifest_of_arrived harr
    have hread : Demo.ignores (.readFile (ContainerStateDir.forId Demo.env "web").configFile) = true :=
      hh.expects _ hmem
    exact absurd hread (by decide +kernel)

end Transport

end Mincontainer
