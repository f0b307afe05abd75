import Mincontainer.Engine.CheckpointPhases
import Mincontainer.Engine.Restore
import Mincontainer.Host.Leftovers

set_option relaxedAutoImplicit false
set_option autoImplicit false

/-!
# What the phases of a restore do

One footprint for each phase, and specifications of the sweep, of the network set-up and of the
undo list.

## Main definitions

* `Mincontainer.Restore.AllowsSweep` — a set of calls that includes those that clean up.
* `Mincontainer.Host.Wired` — a veth whose other end lies in the namespace of a tree.

## Main results

* `Mincontainer.Restore.setup_wired` — a veth that was moved goes away with its tree.
* `Mincontainer.Restore.undo_inv` — what a completed undo leaves.
-/

namespace Mincontainer

open Effects Files Bytes Snapshot

namespace Restore

variable {P : HostOp → Prop} {env : Env} {id : String}

/-! ### Footprints -/

/-- The calls that clean up are among the calls. -/
structure AllowsSweep (P : HostOp → Prop) (env : Env) (id : String) : Prop where
  reads : ∀ o : HostOp, o.reads = true → P o
  kill : ∀ pid, P (.kill pid)
  leaf : ∀ p, P (.removeDir p)
  link : ∀ name, P (.net (.linkDelete name))
  staging : P (.removeDirAll (ContainerStateDir.forId env id).stagingDir)
  create : P (.createFile (ContainerStateDir.forId env id).stateFile)
  put : ∀ d, P (.putDoc (ContainerStateDir.forId env id).stateFile d)

lemma within_run {c : NetCommand} (h : P (.net c)) : (Network.run c).run.Within P :=
  Fallible.within_bind ((within_sys (.net c)).mpr h) fun _ => within_orErr _ _

lemma isStale_reads (st : ContainerState) :
    (isStale st).run.Within fun o : HostOp => o.reads = true := by
  rw [isStale]
  split
  · exact trivial
  split
  · exact trivial
  split
  · split
    · exact Fallible.within_bind ((within_sys (.pidAlive _)).mpr rfl) fun _ => trivial
    · exact trivial
  · exact trivial

lemma hasSnapshot_reads (dir : ContainerStateDir) (st : ContainerState) :
    (hasSnapshot env dir st).run.Within fun o : HostOp => o.reads = true := by
  refine Fallible.within_bind ?_ fun _ => ?_
  · split
    · exact isFile_reads _
    · exact trivial
  · split
    · exact trivial
    · exact isFile_reads _

lemma within_killRecorded {pid : Option Int} (hr : ∀ o : HostOp, o.reads = true → P o)
    (hkill : ∀ p ∈ pid, P (.kill p)) : (killRecorded pid).run.Within P := by
  cases pid with
  | none => exact trivial
  | some pid =>
    refine Fallible.within_bind ((within_sys (.pidAlive pid)).mpr (hr _ rfl)) fun live => ?_
    refine within_when fun _ => ?_
    refine Fallible.within_bind ((within_sys (.kill pid)).mpr (hkill pid rfl)) fun _ => ?_
    exact Fallible.within_bind ((within_sys (.awaitExit pid)).mpr (hr _ rfl)) fun _ => trivial

lemma within_cleanupById (hr : ∀ o : HostOp, o.reads = true → P o)
    (hlink : ∀ name, P (.net (.linkDelete name))) (s : String) :
    (Network.cleanupById s).run.Within P := by
  rw [Network.cleanupById]
  split
  · exact Fallible.within_bind (Fallible.within_attempt (within_run (hlink _))) fun _ => trivial
  · exact within_abort.mpr (hr _ rfl)

lemma within_cleanResources {dir : ContainerStateDir} (hr : ∀ o : HostOp, o.reads = true → P o)
    (hleaf : ∀ p, P (.removeDir p)) (hlink : ∀ name, P (.net (.linkDelete name))) :
    (cleanResources dir).run.Within P := by
  refine Fallible.within_bind
    (Fallible.within_attempt ((loadConfig_reads _).mono hr)) fun r => ?_
  split
  · refine Fallible.within_bind (within_cleanup (hleaf _)) fun _ => ?_
    exact within_when fun _ => within_cleanupById hr hlink _
  · exact trivial

lemma within_clear (hr : ∀ o : HostOp, o.reads = true → P o) (hkill : ∀ pid, P (.kill pid))
    (hleaf : ∀ p, P (.removeDir p)) (hlink : ∀ name, P (.net (.linkDelete name)))
    (hstaging : P (.removeDirAll (ContainerStateDir.forId env id).stagingDir))
    (st : ContainerState) : (clear env id st).run.Within P := by
  refine Fallible.within_bind (within_killRecorded hr fun pid _ => hkill pid) fun _ => ?_
  refine Fallible.within_bind (within_cleanResources hr hleaf hlink) fun _ => ?_
  refine Fallible.within_bind ((within_sys (.removeDirAll _)).mpr hstaging) fun _ => ?_
  exact (hasSnapshot_reads _ _).mono hr

lemma within_sweep (hs : AllowsSweep P env id) (st : ContainerState) :
    (sweep env id st).run.Within P :=
  Fallible.within_bind (within_clear hs.reads hs.kill hs.leaf hs.link hs.staging st) fun _ =>
    within_update hs.reads hs.create hs.put

lemma within_reconcile (hs : AllowsSweep P env id) : (reconcile env id).run.Within P := by
  refine Fallible.within_bind ((pathExists_reads _).mono hs.reads) fun found => ?_
  split
  · exact trivial
  refine Fallible.within_bind ((loadState_reads _).mono hs.reads) fun st => ?_
  refine Fallible.within_bind ((isStale_reads st).mono hs.reads) fun stale => ?_
  split
  · exact trivial
  · exact within_sweep hs st

lemma refuseRunning_reads : (refuseRunning env id).run.Within fun o : HostOp => o.reads = true := by
  refine Fallible.within_bind (pathExists_reads _) fun found => ?_
  split
  · exact trivial
  refine Fallible.within_bind (loadState_reads _) fun st => ?_
  split
  · refine Fallible.within_bind ((within_sys (.pidAlive _)).mpr rfl) fun live => ?_
    split <;> exact trivial
  · exact trivial

lemma resolveSnapshot_reads (dir : ContainerStateDir) (st : ContainerState) (opts : Options) :
    (resolveSnapshot env dir st opts).run.Within fun o : HostOp => o.reads = true := by
  rw [resolveSnapshot]
  split
  · refine Fallible.within_bind (isFile_reads _) fun _ => ?_
    split <;> exact trivial
  · refine Fallible.within_bind ?_ fun recorded => ?_
    · split
      · exact Fallible.within_bind (isFile_reads _) fun _ => trivial
      · exact trivial
    · split
      · exact trivial
      · refine Fallible.within_bind (isFile_reads _) fun _ => ?_
        split <;> exact trivial

/-- The snapshot that was asked for is the one that is chosen. -/
lemma resolveSnapshot_obeys {dir : ContainerStateDir} {st : ContainerState} {text : String}
    {opts : Options} (hopts : opts.from_ = some text) :
    Fallible.Obeys (fun o : HostOp => o.reads = true) (fun b => b = ⟨text, env.cwd⟩)
      (resolveSnapshot env dir st opts) := by
  rw [resolveSnapshot, hopts]
  refine Fallible.Obeys.bind (.of_within (isFile_reads _)) fun there _ => ?_
  split
  · exact Fallible.Obeys.throw _
  · exact Fallible.Obeys.pure rfl

lemma examine_reads (codec : Codec Manifest) (path : PathBuf) :
    (examine env codec path).run.Within fun o : HostOp => o.reads = true := by
  refine Fallible.within_bind open_reads fun reader => ?_
  refine Fallible.within_bind (verify_reads reader) fun _ => ?_
  refine Fallible.within_bind ?_ fun _ => trivial
  rw [checkCompatible]
  split
  · exact trivial
  · exact Fallible.within_bind version_reads fun _ => trivial

lemma within_select {codec : Codec Manifest} {opts : Options} (hs : AllowsSweep P env id) :
    (select env codec id opts).run.Within P := by
  refine Fallible.within_bind (within_reconcile hs) fun _ => ?_
  refine Fallible.within_bind (refuseRunning_reads.mono hs.reads) fun st => ?_
  refine Fallible.within_bind ((resolveSnapshot_reads _ _ _).mono hs.reads) fun path => ?_
  exact Fallible.within_bind ((examine_reads _ _).mono hs.reads) fun _ => trivial

lemma within_unpack_of {reader : SnapshotReader} {staging : Path}
    (hp : AllowsExtract P reader.path staging) (hremove : P (.removeDirAll staging))
    (hstat : P (.stat (staging ++ ["images"]))) : (unpack reader staging).run.Within P := by
  refine Fallible.within_bind ((within_sys (.removeDirAll staging)).mpr hremove) fun _ => ?_
  refine Fallible.within_bind (within_extractAll hp) fun _ => ?_
  refine Fallible.within_bind ?_ fun _ => ?_
  · exact Fallible.within_bind ((within_sys (.stat _)).mpr hstat) fun _ => trivial
  split <;> exact trivial

lemma within_unpack {reader : SnapshotReader} {staging : Path}
    (hs : ∀ o, StaysBelow staging o → P o) : (unpack reader staging).run.Within P :=
  within_unpack_of (StaysBelow.extract hs _) (hs _ (staysBelow_removeDirAll staging))
    (hs _ (HostOp.stays_of_reads rfl))

lemma checkRootfs_reads (cfg : ContainerConfig) :
    (checkRootfs env cfg).run.Within fun o : HostOp => o.reads = true := by
  refine Fallible.within_bind (isDir_reads _) fun _ => ?_
  split <;> exact trivial

lemma within_restoreIoFile {staging ioDir : Path} {name : String}
    (hr : ∀ o : HostOp, o.reads = true → P o) (hf : AllowsFile P (ioDir ++ [name])) :
    (restoreIoFile staging ioDir name).run.Within P := by
  refine Fallible.within_bind ((isFile_reads _).mono hr) fun saved => ?_
  split
  · refine Fallible.within_bind ((within_sys (.readFile _)).mpr (hr _ rfl)) fun _ => ?_
    refine Fallible.within_bind (within_orErr _ _) fun content => ?_
    refine Fallible.within_bind ((within_createFile _ _).mpr hf.create) fun _ => ?_
    exact (within_appendTo _ _ _).mpr (hf.append _)
  · refine Fallible.within_bind ((within_sys (.stat _)).mpr (hr _ rfl)) fun _ => ?_
    exact within_when fun _ => (within_createFile _ _).mpr hf.create

/-- Two kinds of directories are made: the targets of the mounts, and the runtime's own source. -/
lemma within_prepareMountPoints {cfg : ContainerConfig} {ms : List ExternalMount}
    (hr : ∀ o : HostOp, o.reads = true → P o)
    (htarget : ∀ m ∈ ms, P (.mkdirAll (mountTarget env cfg m)))
    (hsource : ∀ m ∈ ms, m.key = "mcio" → P (.mkdirAll (resolve env.cwd m.hostPath))) :
    (prepareMountPoints env cfg ms).run.Within P := by
  induction ms with
  | nil => exact trivial
  | cons m ms ih =>
    refine Fallible.within_bind ((within_mkdirAll _ _).mpr (htarget m List.mem_cons_self))
      fun _ => ?_
    refine Fallible.within_bind ?_ fun _ => ih
      (fun x hx => htarget x (List.mem_cons_of_mem _ hx))
      fun x hx => hsource x (List.mem_cons_of_mem _ hx)
    refine Fallible.within_bind ((within_sys (.stat _)).mpr (hr _ rfl)) fun _ => ?_
    refine within_when fun _ => ?_
    split
    · rename_i hkey
      exact (within_mkdirAll _ _).mpr (hsource m List.mem_cons_self hkey)
    · exact trivial

lemma within_apply {c : Cgroup} {r : Resources} (hw : ∀ f v, P (.cgroupWrite c.path f v)) :
    (c.apply r).run.Within P := by
  have hwrite : ∀ file value, (c.write file value).run.Within P := fun file value =>
    Fallible.within_bind ((within_sys (.cgroupWrite _ _ _)).mpr (hw _ _)) fun _ => within_orErr _ _
  refine Fallible.within_bind (within_when fun _ => ?_) fun _ => ?_
  · refine Fallible.within_bind (hwrite _ _) fun _ => ?_
    exact Fallible.within_bind (Fallible.within_attempt (hwrite _ _)) fun _ => trivial
  · exact Fallible.within_bind (within_when fun _ => hwrite _ _) fun _ =>
      within_when fun _ => hwrite _ _

/-- The one mount source that the runtime makes itself is the directory of the logs. -/
lemma source_of_layout {cfg : ContainerConfig} {m : ExternalMount}
    (hm : m ∈ (Checkpoint.layoutFor cfg (ContainerStateDir.forId env id)).externalMounts)
    (hkey : m.key = "mcio") :
    resolve env.cwd m.hostPath = (ContainerStateDir.forId env id).ioDir := by
  have hclean : Clean (ContainerStateDir.forId env id).ioDir :=
    (clean_resolve env.home_clean _).append (by decide)
  rcases List.mem_cons.mp hm with rfl | hm
  · exact resolve_display hclean _
  · obtain ⟨i, hi, rfl⟩ := List.mem_mapIdx.mp hm
    have hletters : (toString "mcvol").toList = ['m', 'c', 'v', 'o', 'l'] := by decide
    have hthird := congrArg (fun s : String => s.toList[2]?) hkey
    simp [hletters] at hthird

lemma within_restoreIoFiles {dir : ContainerStateDir} (hr : ∀ o : HostOp, o.reads = true → P o)
    (hmk : P (.mkdirAll dir.ioDir))
    (hio : ∀ name ∈ ["stdout", "stderr"], AllowsFile P (dir.ioDir ++ [name])) :
    (restoreIoFiles dir.stagingDir dir).run.Within P :=
  Fallible.within_bind ((within_mkdirAll _ _).mpr hmk) fun _ =>
    Fallible.within_bind (within_restoreIoFile hr (hio _ (by simp))) fun _ =>
      within_restoreIoFile hr (hio _ (by simp))

/-- What happens before the leaf is created. -/
lemma within_stage (env : Env) (cfg : ContainerConfig) (dir : ContainerStateDir)
    (hr : ∀ o : HostOp, o.reads = true → P o) (hmk : ∀ p, P (.mkdirAll p))
    (hio : ∀ name, AllowsFile P (dir.ioDir ++ [name])) :
    (restoreIoFiles dir.stagingDir dir).run.Within P ∧
      (prepareMountPoints env cfg (Checkpoint.layoutFor cfg dir).externalMounts).run.Within P :=
  ⟨within_restoreIoFiles hr (hmk _) fun name _ => hio name,
    within_prepareMountPoints hr (fun _ _ => hmk _) fun _ _ _ => hmk _⟩

lemma within_build {cfg : ContainerConfig} {dir : ContainerStateDir}
    (hr : ∀ o : HostOp, o.reads = true → P o) (hmk : ∀ p, P (.mkdirAll p))
    (hio : ∀ name, AllowsFile P (dir.ioDir ++ [name])) (hd : P .delegate)
    (hw : ∀ p f v, P (.cgroupWrite p f v)) : (build env cfg dir).run.Within P := by
  refine Fallible.within_bind (within_stage env cfg dir hr hmk hio).1 fun _ => ?_
  refine Fallible.within_bind (within_stage env cfg dir hr hmk hio).2 fun _ => ?_
  refine Fallible.within_bind ?_ fun cgroup => ?_
  · refine Fallible.within_bind ((within_sys .delegate).mpr hd) fun _ => ?_
    refine Fallible.within_bind (within_orErr _ _) fun _ => ?_
    exact Fallible.within_bind ((within_mkdirAll _ _).mpr (hmk _)) fun _ => trivial
  · exact Fallible.within_bind (within_apply (hw _)) fun _ => trivial

lemma assertIsolated_reads (pid : Int) (kinds : List String) :
    (assertIsolatedFromHost pid kinds).run.Within fun o : HostOp => o.reads = true := by
  induction kinds with
  | nil => exact trivial
  | cons kind kinds ih =>
    refine Fallible.within_bind ((within_sys (.nsInode none kind)).mpr rfl) fun _ => ?_
    refine Fallible.within_bind ((within_sys (.nsInode (some pid) kind)).mpr rfl) fun _ => ?_
    split
    · split
      · exact trivial
      · exact ih
    · exact ih

lemma within_rollback {rb : Rollback} (hr : ∀ o : HostOp, o.reads = true → P o)
    (hkill : ∀ pid, P (.kill pid))
    (hleaf : ∀ cg, rb.cgroup = some cg → P (.removeDir (Cgroup.open cg).path))
    (hlink : ∀ net, rb.network = some net → P (.net (.linkDelete net.hostVeth)))
    (hstaging : P (.removeDirAll (ContainerStateDir.forId env rb.id).stagingDir)) :
    (rb.run env).run.Within P := by
  refine within_when fun _ => Fallible.within_bind ?_ fun _ => Fallible.within_bind ?_ fun _ =>
    Fallible.within_bind ?_ fun _ => (within_sys (.removeDirAll _)).mpr hstaging
  · cases hnet : rb.network with
    | none => exact trivial
    | some net =>
      refine Fallible.within_bind (Fallible.within_attempt (within_run ?_)) fun _ => trivial
      exact hlink net hnet
  · cases rb.pid with
    | none => exact trivial
    | some pid =>
      refine Fallible.within_bind ((within_sys (.kill pid)).mpr (hkill pid)) fun _ => ?_
      exact Fallible.within_bind ((within_sys (.awaitExit pid)).mpr (hr _ rfl)) fun _ => trivial
  · cases hcg : rb.cgroup with
    | none => exact trivial
    | some cg => exact within_cleanup (hleaf cg hcg)

lemma within_undo {α : Type} {rb : Rollback} {e : RuntimeError} (hs : AllowsSweep P env id)
    (hid : rb.id = id) : (undo env id rb e : HostM α).run.Within P := by
  refine Fallible.within_bind
    (within_rollback hs.reads hs.kill (fun _ _ => hs.leaf _) (fun _ _ => hs.link _)
      (hid ▸ hs.staging)) fun _ => ?_
  refine Fallible.within_bind (Fallible.within_attempt ?_) fun _ => trivial
  exact within_update hs.reads hs.create hs.put

/-- The commands that prepare the bridge. -/
def Bridges : NetCommand → Prop
  | .linkShow _ | .iptables _ => True
  | .linkAddBridge name | .addrAdd _ name | .linkSetUp name => name = Network.bridge
  | _ => False

lemma within_ensureBridge (hlink : ∀ c, Bridges c → P (.net c)) :
    Network.ensureBridge.run.Within P := by
  refine Fallible.within_bind (Fallible.within_attempt (within_run (hlink _ trivial)))
    fun found => ?_
  split
  · exact trivial
  refine Fallible.within_bind (within_run (hlink _ rfl)) fun _ => ?_
  refine Fallible.within_bind (within_run (hlink _ rfl)) fun _ => ?_
  refine Fallible.within_bind (within_run (hlink _ rfl)) fun _ => ?_
  refine Fallible.within_bind (Fallible.within_attempt (within_run (hlink _ trivial)))
    fun r => ?_
  split
  · exact trivial
  · exact Fallible.within_bind (Fallible.within_attempt (within_run (hlink _ trivial)))
      fun _ => trivial

end Restore

/-! ### The network -/

/-- The links of this name belong to a veth pair whose other end is `peer`. -/
def Host.Paired (name peer : String) (h : Host) : Prop :=
  ∀ l ∈ h.links, l.name = name → l.peer = some peer

/-- The other ends of the links of this name lie in the namespace of the tree with this root. -/
def Host.Wired (name : String) (pid : Int) (h : Host) : Prop :=
  ∀ l ∈ h.links, l.name = name → l.holder = some pid

/-- A wired link goes away with its tree. -/
lemma Host.Wired.unlinked {name : String} {pid : Int} {h : Host} (hw : h.Wired name pid) :
    (h.reap pid).hasLink name = false := by
  refine Bool.eq_false_iff.mpr fun hl => ?_
  obtain ⟨l, hl, hname⟩ := Host.hasLink_iff.mp hl
  obtain ⟨hmem, hholder⟩ := List.mem_filter.mp hl
  simp [hw l hmem hname] at hholder

namespace Network

/-- The commands that follow the creation of the pair. -/
def Configures (peer : String) (pid : Int) : HostOp → Prop
  | .net (.linkSetMaster _ _) | .net (.linkSetUp _) | .net (.nsenter _ _) => True
  | .net (.linkSetNetns p q) => p = peer ∧ q = pid
  | _ => False

variable {name peer : String} {pid : Int} {h h' : Host} {tr : List HostSig.Event}

lemma paired_next {o : HostOp} (ho : Configures peer pid o) (r : o.Reply)
    (hp : h.Paired name peer) : (h.next o r).Paired name peer := by
  intro l hl hname
  have hplugs : o.plugs = false := by
    cases o with
    | net c => cases c <;> first | rfl | exact ho.elim
    | _ => exact ho.elim
  obtain ⟨l', hl', hname', hpeer'⟩ := Host.mem_next_links hplugs hl
  rw [← hpeer']
  exact hp l' hl' (hname'.trans hname)

lemma wired_next {o : HostOp} (ho : Configures peer pid o) (r : o.Reply)
    (hw : h.Wired name pid) : (h.next o r).Wired name pid := by
  intro l hl hname
  cases o with
  | net c =>
    simp only [Host.next] at hl
    split at hl
    · cases c with
      | linkSetNetns p q =>
        obtain ⟨l', hl', rfl⟩ := List.mem_map.mp hl
        split
        · exact congrArg some ho.2
        · rename_i hne
          rw [if_neg hne] at hname
          exact hw l' (List.mem_of_mem_filter hl') hname
      | linkSetMaster p q => exact hw l hl hname
      | linkSetUp p => exact hw l hl hname
      | nsenter p q => exact hw l hl hname
      | _ => exact ho.elim
    · exact hw l hl hname
  | _ => exact ho.elim

/-- Moving the peer into the namespace of a tree wires the pair. -/
lemma wired_of_moved (hp : h.Paired name peer) :
    (h.next (.net (.linkSetNetns peer pid)) (.ok () : Except String Unit)).Wired name pid := by
  intro l hl hname
  obtain ⟨l', hl', rfl⟩ := List.mem_map.mp hl
  split at hname
  · rename_i heq
    rw [if_pos heq]
  · rename_i hne
    exact absurd (hp l' (List.mem_of_mem_filter hl') hname) hne

/-- The pair right after its creation. -/
lemma paired_of_added
    (hr : h.enabled (.net (.linkAddVeth name peer)) (.ok () : Except String Unit) = true) :
    (h.next (.net (.linkAddVeth name peer)) (.ok () : Except String Unit)).Paired name peer := by
  obtain ⟨⟨hname, -⟩, hne⟩ : (h.hasLink name = false ∧ h.hasLink peer = false) ∧ name ≠ peer := by
    simpa [Host.enabled, Host.netCan] using hr
  intro l hl hl'
  rcases List.mem_cons.mp hl with rfl | hl
  · rfl
  rcases List.mem_cons.mp hl with rfl | hl
  · exact absurd hl'.symm hne
  · rw [Host.hasLink_iff.mpr ⟨l, hl, hl'⟩] at hname
    cases hname

/-- One command, run to its end. -/
lemma run_inv {R : Host → Host → Prop} {c : NetCommand} {out : Option (Except RuntimeError Unit)}
    (hrun : Runs R (Network.run c) h tr out h') :
    (tr = [] ∧ out = none) ∨ ∃ h₁ r, Relation.ReflTransGen R h h₁ ∧ h₁.enabled (.net c) r = true ∧
      tr = [⟨.net c, r⟩] ∧ Relation.ReflTransGen R (h₁.next (.net c) r) h' := by
  obtain ⟨h₁, hR, ⟨rfl, rfl, -⟩ | ⟨r, tr₁, hr, rfl, hrun₁⟩⟩ := Exec.call_inv hrun
  · exact .inl ⟨rfl, rfl⟩
  · rcases r with e | u
    · obtain ⟨rfl, hR', -⟩ := Exec.ret_inv hrun₁
      exact .inr ⟨h₁, _, hR, hr, rfl, hR'⟩
    · obtain ⟨rfl, hR', -⟩ := Exec.ret_inv hrun₁
      exact .inr ⟨h₁, _, hR, hr, rfl, hR'⟩

lemma paired_of_star (hR : Relation.ReflTransGen Host.Exits h h') (hp : h.Paired name peer) :
    h'.Paired name peer := by
  induction hR with
  | refl => exact hp
  | tail _ hR ih => exact fun l hl => ih l (Host.Exits.mem_links hR hl)

/-- The address a container with this index gets. -/
def address (index : UInt8) : String := s!"10.66.0.{1 + index.toNat + 1}"

/-- The commands that attach a pair to the bridge and configure its peer end inside a container. -/
def Attaches (hostVeth peer ip : String) (pid : Int) : NetCommand → Prop
  | .linkSetMaster name _ | .linkSetUp name => name = hostVeth
  | .linkSetNetns name q => name = peer ∧ q = pid
  | .nsenter q args => q = pid ∧ ∀ a, args = ["ip", "addr", "add", a, "dev", "eth0"] → a = s!"{ip}/24"
  | _ => False

lemma Attaches.configures {hostVeth ip : String} {c : NetCommand}
    (hc : Attaches hostVeth peer ip pid c) : Configures peer pid (.net c) := by
  cases c with
  | linkSetMaster name bridge => exact trivial
  | linkSetUp name => exact trivial
  | linkSetNetns name q => exact hc
  | nsenter q args => exact trivial
  | _ => exact hc.elim

lemma within_attach {hostVeth ip : String} {P : HostOp → Prop}
    (hc : ∀ c, Attaches hostVeth peer ip pid c → P (.net c)) :
    (attach hostVeth peer ip pid).run.Within P := by
  have hother : ∀ args : List String, args.length ≠ 6 → P (.net (.nsenter pid args)) :=
    fun args hargs => hc _ ⟨rfl, fun a ha => absurd (congrArg List.length ha) hargs⟩
  refine Fallible.within_bind (Restore.within_run (hc _ rfl)) fun _ => ?_
  refine Fallible.within_bind (Restore.within_run (hc _ rfl)) fun _ => ?_
  refine Fallible.within_bind (Restore.within_run (hc _ ⟨rfl, rfl⟩)) fun _ => ?_
  refine Fallible.within_bind (Restore.within_run (hc _ ⟨rfl, fun a ha => ?_⟩)) fun _ => ?_
  · simp at ha
  refine Fallible.within_bind (Restore.within_run (hc _ ⟨rfl, fun a ha => ?_⟩)) fun _ => ?_
  · cases ha
    rfl
  refine Fallible.within_bind (Restore.within_run (hother _ (by decide))) fun _ => ?_
  refine Fallible.within_bind (Restore.within_run (hother _ (by decide))) fun _ => ?_
  exact Restore.within_run (hc _ ⟨rfl, fun a ha => by simp at ha⟩)

/-- **The set-up.** It prepares the bridge, adds the pair of its container, and attaches it; the handle
it returns names the host end of that pair. -/
lemma setup_obeys {P : HostOp → Prop} {s : String} {index : UInt8}
    (hbridge : ∀ c, Restore.Bridges c → P (.net c))
    (hpair : ∀ hostVeth peer, hostVethName s = some hostVeth → slice 15 ("mcp" ++ s) = some peer →
      P (.net (.linkAddVeth hostVeth peer)) ∧
        ∀ c, Attaches hostVeth peer (address index) pid c → P (.net c)) (habort : P .abort) :
    Fallible.Obeys P (fun net => hostVethName s = some net.hostVeth) (setup s pid index) := by
  refine Fallible.Obeys.bind (.of_within (Restore.within_ensureBridge hbridge)) fun _ _ => ?_
  have hstop : Fallible.Obeys P (fun net => hostVethName s = some net.hostVeth)
      (abort : HostM Network) := ⟨habort, fun r => nomatch (r : Empty)⟩
  split
  · rename_i hostVeth hname
    split
    · rename_i peer hpeer
      obtain ⟨hadd, hattach⟩ := hpair hostVeth peer hname hpeer
      refine Fallible.Obeys.bind (.of_within (Restore.within_run hadd)) fun _ _ => ?_
      refine Fallible.Obeys.bind (.of_within (within_attach hattach)) fun _ _ => ?_
      exact Fallible.Obeys.pure hname
    · exact hstop
  · exact hstop

lemma within_setup {P : HostOp → Prop} {s : String} {index : UInt8} (hnet : ∀ c, P (.net c))
    (habort : P .abort) : (setup s pid index).run.Within P :=
  (setup_obeys (fun c _ => hnet c) (fun _ _ _ _ => ⟨hnet _, fun c _ => hnet c⟩) habort).within

/-- **A veth that was moved goes away with its tree.** In every run of the set-up that created a
veth, wherever it stopped, the veth has the name that belongs to the container; and if an end of
it was moved after that, it is wired to the tree.

**Proof sketch.** The bridge is prepared without creating or moving a pair. After the pair is
created the links of its name are paired, the commands that follow keep that, and moving the peer
turns paired links into wired ones. -/
lemma setup_wired {s : String} {index : UInt8} {out : Option (Except RuntimeError Network)}
    (hrun : Runs Host.Exits (setup s pid index) h tr out h')
    (hadd : ⟨.net (.linkAddVeth name peer), (.ok () : Except String Unit)⟩ ∈ tr) :
    hostVethName s = some name ∧
      ((∃ p q, ⟨.net (.linkSetNetns p q), (.ok () : Except String Unit)⟩ ∈ tr) →
        h'.Wired name pid) := by
  have hbridge : ∀ {tr out} {g : Host}, Runs Host.Exits ensureBridge h tr out g →
      (∀ n m r, ⟨.net (.linkAddVeth n m), r⟩ ∉ tr) ∧ ∀ n m r, ⟨.net (.linkSetNetns n m), r⟩ ∉ tr := by
    intro tr out g hrun
    have hmem := Exec.mem_within (P := fun o : HostOp => ∀ n m, o ≠ .net (.linkAddVeth n m) ∧
      ∀ q, o ≠ .net (.linkSetNetns n q)) (Restore.within_ensureBridge fun c hc n m =>
        ⟨fun h => by cases h; exact hc, fun q h => by cases h; exact hc⟩) hrun
    exact ⟨fun n m r he => (hmem _ he n m).1 rfl, fun n m r he => (hmem _ he n "").2 m rfl⟩
  rcases Exec.fallible_bind_inv hrun with ⟨-, hb⟩ | ⟨e, -, hb⟩ | ⟨u, tr₁, tr₂, h₁, rfl, hb, hrun₁⟩
  · exact absurd hadd ((hbridge hb).1 _ _ _)
  · exact absurd hadd ((hbridge hb).1 _ _ _)
  replace hadd := (List.mem_append.mp hadd).resolve_left ((hbridge hb).1 _ _ _)
  have habort : ∀ {tr out}, Runs Host.Exits (abort : HostM Network) h₁ tr out h' →
      ⟨.net (.linkAddVeth name peer), (.ok () : Except String Unit)⟩ ∉ tr := fun hrun hmem =>
    Exec.mem_within (P := fun o : HostOp => o ≠ .net (.linkAddVeth name peer))
      (within_abort.mpr nofun) hrun _ hmem rfl
  split at hrun₁
  swap
  · exact absurd hadd (habort hrun₁)
  split at hrun₁
  swap
  · exact absurd hadd (habort hrun₁)
  rename_i hostVeth hname _ peer' _
  have hpair : ∀ {tr out} {g : Host}, Runs Host.Exits (run (.linkAddVeth hostVeth peer')) h₁ tr out g →
      (∀ p q, ⟨.net (.linkSetNetns p q), (.ok () : Except String Unit)⟩ ∉ tr) ∧
        (⟨.net (.linkAddVeth name peer), (.ok () : Except String Unit)⟩ ∈ tr →
          name = hostVeth ∧ peer = peer' ∧ g.Paired hostVeth peer') := by
    intro tr out g hrun
    rcases run_inv hrun with ⟨rfl, -⟩ | ⟨h₂, r, -, hr, rfl, hR⟩
    · exact ⟨nofun, nofun⟩
    refine ⟨fun p q hmem => (by cases List.mem_singleton.mp hmem), fun hmem => ?_⟩
    cases List.mem_singleton.mp hmem
    exact ⟨rfl, rfl, paired_of_star hR (paired_of_added hr)⟩
  have hnone : ∀ {tr out}, Runs Host.Exits (run (.linkAddVeth hostVeth peer')) h₁ tr out h' →
      ⟨.net (.linkAddVeth name peer), (.ok () : Except String Unit)⟩ ∈ tr →
      hostVethName s = some name ∧
        ((∃ p q, ⟨.net (.linkSetNetns p q), (.ok () : Except String Unit)⟩ ∈ tr₁ ++ tr) →
          h'.Wired name pid) := by
    intro tr out hp hadd
    obtain ⟨rfl, -, -⟩ := (hpair hp).2 hadd
    refine ⟨hname, fun ⟨p, q, hmoved⟩ => ?_⟩
    rcases List.mem_append.mp hmoved with hmoved | hmoved
    · exact absurd hmoved ((hbridge hb).2 _ _ _)
    · exact absurd hmoved ((hpair hp).1 p q)
  rcases Exec.fallible_bind_inv hrun₁ with ⟨-, hp⟩ | ⟨e, -, hp⟩ | ⟨u, tr₃, tr₄, h₂, rfl, hp, hrun₂⟩
  · exact hnone hp hadd
  · exact hnone hp hadd
  have hrest : (attach hostVeth peer' s!"10.66.0.{1 + index.toNat + 1}" pid >>= fun _ =>
      (pure ⟨hostVeth, s!"10.66.0.{1 + index.toNat + 1}"⟩ : HostM Network)).run.Within
        (Configures peer' pid) :=
    Fallible.within_bind (within_attach fun _ hc => hc.configures) fun _ => trivial
  obtain ⟨rfl, rfl, hpaired⟩ := (hpair hp).2
    ((List.mem_append.mp hadd).resolve_right fun hmem => Exec.mem_within hrest hrun₂ _ hmem)
  refine ⟨hname, fun ⟨p, q, hmoved⟩ => ?_⟩
  replace hmoved := (List.mem_append.mp ((List.mem_append.mp hmoved).resolve_left
    ((hbridge hb).2 _ _ _))).resolve_left ((hpair hp).1 p q)
  obtain ⟨rfl, rfl⟩ : p = peer ∧ q = pid := Exec.mem_within hrest hrun₂ _ hmoved
  exact Exec.establishes (I := fun g => Host.Paired name p g) (J := fun g => Host.Wired name q g)
    (fun w _ r ho _ hw => paired_next (h := w) ho r hw)
    (fun w _ r ho _ hw => wired_next (h := w) ho r hw) (fun w hw _ => wired_of_moved (h := w) hw)
    (fun _ _ hR hw => paired_of_star (.single hR) hw)
    (fun _ _ ⟨_, hb⟩ hw => hb ▸ fun l hl => hw l (List.mem_of_mem_filter hl))
    hrest hrun₂ hpaired hmoved

end Network

namespace Restore

variable {P : HostOp → Prop} {env : Env} {id : String} {h h' : Host} {tr : List HostSig.Event}

/-! ### Wiring the tree up -/

section Wire

variable {cfg : ContainerConfig} {cgroup : Cgroup} {pid : Int} {index : UInt8}
  {out : Option (Except RuntimeError (Option Network))}

lemma within_addProcess (hadd : P (.cgroupAdd cgroup.path pid)) :
    (cgroup.addProcess pid).run.Within P :=
  Fallible.within_bind ((within_sys (.cgroupAdd _ pid)).mpr hadd) fun _ => within_orErr _ _

lemma within_wire_of (hr : ∀ o : HostOp, o.reads = true → P o)
    (hadd : P (.cgroupAdd cgroup.path pid))
    (hsetup : cfg.network = true → (Network.setup cfg.shortId pid index).run.Within P) :
    (wire cfg cgroup pid index).run.Within P := by
  refine Fallible.within_bind ((within_sys (.pidAlive pid)).mpr (hr _ rfl)) fun live => ?_
  split
  · exact trivial
  refine Fallible.within_bind (within_addProcess hadd) fun _ => ?_
  refine Fallible.within_bind ((assertIsolated_reads _ _).mono hr) fun _ => ?_
  split
  · exact Fallible.within_bind (hsetup ‹_›) fun _ => trivial
  · exact trivial

lemma within_wire (hr : ∀ o : HostOp, o.reads = true → P o) (hadd : P (.cgroupAdd cgroup.path pid))
    (hnet : ∀ c, P (.net c)) : (wire cfg cgroup pid index).run.Within P :=
  within_wire_of hr hadd fun _ => Network.within_setup hnet (hr _ rfl)

/-- Wiring writes no document. -/
lemma wire_no_put {R : Host → Host → Prop}
    (hrun : Runs R (wire cfg cgroup pid index) h tr out h') (p : Path) (d : Doc) :
    ¬ Writes tr p d := by
  refine not_writes (within_wire (fun o ho => ?_) ?_ fun c => ?_) hrun
  · rintro rfl
    cases ho
  · exact fun h => nomatch h
  · exact fun h => nomatch h

/-- Wiring moves nobody but the restored tree into a cgroup. -/
lemma wire_hollow {leaf : Path} (hrun : Runs Host.Exits (wire cfg cgroup pid index) h tr out h')
    (hown : ∀ e ∈ tr, OwnCall leaf e) (hh : h.Hollow leaf none) : h'.Hollow leaf (some pid) := by
  refine Exec.invariant (I := fun g => Host.Hollow leaf (some pid) g) (G := OwnCall leaf)
    (P := fun o : HostOp => o.joins = false ∨ ∃ l, o = .cgroupAdd l pid) (fun w o r ho hgood _ hw => ?_)
    (fun _ _ ⟨p, hb⟩ ha => hb ▸ Host.Hollow.reap ha p) ?_ hrun hown (hh.weaken _)
  · rcases ho with ho | ⟨l, rfl⟩
    · exact Host.Hollow.next (h := w) hw ho hgood
    · exact Host.Hollow.next_add (h := w) (fun m hm => hm ▸ hw) (.inr rfl)
  · exact within_wire (fun o ho => .inl (HostOp.joins_of_reads ho)) (.inr ⟨_, rfl⟩)
      fun c => .inl rfl

/-- A veth that wiring creates is that of the container, and once it was moved it is wired. -/
lemma wire_veth {name peer : String}
    (hrun : Runs Host.Exits (wire cfg cgroup pid index) h tr out h')
    (hadd : ⟨.net (.linkAddVeth name peer), (.ok () : Except String Unit)⟩ ∈ tr) :
    cfg.network = true ∧ Network.hostVethName cfg.shortId = some name ∧
      ((∃ p q, ⟨.net (.linkSetNetns p q), (.ok () : Except String Unit)⟩ ∈ tr) →
        h'.Wired name pid) := by
  have hno : ∀ {β : Type} {x : HostM β} {g g' : Host} {tr out}, Runs Host.Exits x g tr out g' →
      (x.run.Within fun o : HostOp => ∀ c, o ≠ .net c) → ∀ c r, ⟨.net c, r⟩ ∉ tr :=
    fun hrun hx c r hmem => Exec.mem_within hx hrun _ hmem c rfl
  have hr : ∀ o : HostOp, o.reads = true → ∀ c, o ≠ .net c := by
    rintro o ho c rfl
    cases ho
  have hlive : (sys (.pidAlive pid)).run.Within fun o : HostOp => ∀ c, o ≠ .net c :=
    (within_sys (.pidAlive pid)).mpr (hr (.pidAlive pid) rfl)
  have hjoin : (cgroup.addProcess pid).run.Within fun o : HostOp => ∀ c, o ≠ .net c :=
    within_addProcess fun c => nofun
  have hisolated := (assertIsolated_reads pid ["pid", "mnt", "uts", "ipc", "net"]).mono hr
  rcases Exec.fallible_bind_inv hrun with ⟨-, h₁⟩ | ⟨e, -, h₁⟩ | ⟨live, tr₁, tr₂, g₁, rfl, h₁, hrun₁⟩
  · exact absurd hadd (hno h₁ hlive _ _)
  · exact absurd hadd (hno h₁ hlive _ _)
  replace hadd := (List.mem_append.mp hadd).resolve_left (hno h₁ hlive _ _)
  split at hrun₁
  · exact absurd hadd (hno hrun₁ trivial _ _)
  rcases Exec.fallible_bind_inv hrun₁ with ⟨-, h₂⟩ | ⟨e, -, h₂⟩ | ⟨u, tr₃, tr₄, g₂, rfl, h₂, hrun₂⟩
  · exact absurd hadd (hno h₂ hjoin _ _)
  · exact absurd hadd (hno h₂ hjoin _ _)
  replace hadd := (List.mem_append.mp hadd).resolve_left (hno h₂ hjoin _ _)
  rcases Exec.fallible_bind_inv hrun₂ with ⟨-, h₃⟩ | ⟨e, -, h₃⟩ | ⟨u, tr₅, tr₆, g₃, rfl, h₃, hrun₃⟩
  · exact absurd hadd (hno h₃ hisolated _ _)
  · exact absurd hadd (hno h₃ hisolated _ _)
  replace hadd := (List.mem_append.mp hadd).resolve_left (hno h₃ hisolated _ _)
  split at hrun₃
  swap
  · exact absurd hadd (hno hrun₃ trivial _ _)
  rename_i hnet
  have hmoved : (∃ p q, ⟨.net (.linkSetNetns p q), (.ok () : Except String Unit)⟩ ∈
      tr₁ ++ (tr₃ ++ (tr₅ ++ tr₆))) →
      ∃ p q, ⟨.net (.linkSetNetns p q), (.ok () : Except String Unit)⟩ ∈ tr₆ := by
    rintro ⟨p, q, hmem⟩
    refine ⟨p, q, ?_⟩
    have := (List.mem_append.mp hmem).resolve_left (hno h₁ hlive _ _)
    have := (List.mem_append.mp this).resolve_left (hno h₂ hjoin _ _)
    exact (List.mem_append.mp this).resolve_left (hno h₃ hisolated _ _)
  rcases Exec.fallible_bind_inv hrun₃ with ⟨-, h₄⟩ | ⟨e, -, h₄⟩ | ⟨net, tr₇, tr₈, g₄, rfl, h₄, h₅⟩
  · obtain ⟨hname, hwired⟩ := Network.setup_wired h₄ hadd
    exact ⟨hnet, hname, fun hm => hwired (hmoved hm)⟩
  · obtain ⟨hname, hwired⟩ := Network.setup_wired h₄ hadd
    exact ⟨hnet, hname, fun hm => hwired (hmoved hm)⟩
  · obtain ⟨rfl, hR, -⟩ := Exec.ret_inv h₅
    simp only [List.append_nil] at hadd hmoved ⊢
    obtain ⟨hname, hwired⟩ := Network.setup_wired (Exec.append_env_star h₄ hR) hadd
    exact ⟨hnet, hname, fun hm => hwired (hmoved hm)⟩

end Wire

/-! ### Undoing -/

lemma wired_of_star {name : String} {pid : Int} (hR : Relation.ReflTransGen Host.Exits h h')
    (hw : h.Wired name pid) : h'.Wired name pid := by
  induction hR with
  | refl => exact hw
  | tail _ hR ih => exact fun l hl => ih l (Host.Exits.mem_links hR hl)

lemma unlinked_of_star {name : String} (hR : Relation.ReflTransGen Host.Exits h h')
    (hn : h.hasLink name = false) : h'.hasLink name = false := by
  induction hR with
  | refl => exact hn
  | tail _ hR ih => exact Bool.eq_false_iff.mpr fun hb => by simp [Host.Exits.hasLink hR hb] at ih

lemma absent_of_star {p : Path} (hR : Relation.ReflTransGen Host.Exits h h') (ha : h.Absent p) :
    h'.Absent p := by
  induction hR with
  | refl => exact ha
  | tail _ hR ih => obtain ⟨_, rfl⟩ := hR; exact ih

lemma hollow_of_star {leaf : Path} {member : Option Int}
    (hR : Relation.ReflTransGen Host.Exits h h') (hh : h.Hollow leaf member) :
    h'.Hollow leaf member := by
  induction hR with
  | refl => exact hh
  | tail _ hR ih => obtain ⟨p, rfl⟩ := hR; exact ih.reap p

lemma killTree_ok {pid : Option Int} {res : Except RuntimeError Unit}
    (hrun : Runs Host.Exits (Rollback.killTree pid) h tr (some res) h') :
    res = .ok () ∧ ∀ p, pid = some p → h'.alive p = false ∧
      ∀ name, h.Wired name p → h'.hasLink name = false := by
  cases pid with
  | none =>
    obtain ⟨-, -, rfl⟩ := Exec.ret_some_inv hrun
    exact ⟨rfl, nofun⟩
  | some pid =>
    have hstarts : (Rollback.killTree (some pid)).run.Within fun o : HostOp => o.starts = false :=
      Fallible.within_bind ((within_sys (.kill pid)).mpr rfl) fun _ =>
        Fallible.within_bind ((within_sys (.awaitExit pid)).mpr rfl) fun _ => trivial
    obtain ⟨h₁, u, tr₁, hR, -, rfl, hrun₁⟩ := Exec.call_some_inv hrun
    obtain ⟨h₂, b, tr₂, hR₂, -, rfl, hrun₂⟩ := Exec.call_some_inv hrun₁
    obtain ⟨rfl, hR₃, rfl⟩ := Exec.ret_some_inv hrun₂
    refine ⟨rfl, fun p hp => ?_⟩
    obtain rfl := Option.some.inj hp
    refine ⟨Runs.dead_of_kill hstarts hrun List.mem_cons_self, fun name hw => ?_⟩
    exact unlinked_of_star hR₃ (unlinked_of_star hR₂ (wired_of_star hR hw).unlinked)

lemma dropCgroup_ok {c : Option String} {res : Except RuntimeError Unit}
    (hrun : Runs Host.Exits (Rollback.dropCgroup c) h tr (some res) h') :
    res = .ok () ∧ ∀ cg, c = some cg → h.Hollow (Cgroup.open cg).path none →
      h'.Absent (Cgroup.open cg).path := by
  cases c with
  | none =>
    obtain ⟨-, -, rfl⟩ := Exec.ret_some_inv hrun
    exact ⟨rfl, nofun⟩
  | some cg =>
    obtain ⟨h₁, b, tr₁, hR, hb, rfl, hrun₁⟩ := Exec.call_some_inv hrun
    obtain ⟨rfl, hR₁, rfl⟩ := Exec.ret_some_inv hrun₁
    refine ⟨rfl, fun cg' hcg hh => ?_⟩
    obtain rfl := Option.some.inj hcg
    have hgone : (machine.next h₁ (.removeDir (Cgroup.open cg).path) b).Absent (Cgroup.open cg).path :=
      (hollow_of_star hR hh).absent_of_removeDir (Host.enabled_removeDir.mp hb)
    exact absent_of_star hR₁ hgone

/-- **Undoing.** A completed undo list has killed the tree, removed its leaf, which nobody else is
in, and the staging directory; and the veth went with the tree. -/
lemma rollback_ok {rb : Rollback} {res : Except RuntimeError Unit} (harmed : rb.armed = true)
    (hnet : rb.network = none) (hid : rb.id = id)
    (hrun : Runs Host.Exits (rb.run env) h tr (some res) h') :
    res = .ok () ∧ h'.Absent (ContainerStateDir.forId env id).stagingDir ∧
      (∀ pid, rb.pid = some pid → h'.alive pid = false) ∧
      (∀ pid name, rb.pid = some pid → h.Wired name pid → h'.hasLink name = false) ∧
      ∀ cg, rb.cgroup = some cg → h.Hollow (Cgroup.open cg).path rb.pid →
        (∀ e ∈ tr, OwnCall (Cgroup.open cg).path e) → h'.Absent (Cgroup.open cg).path := by
  subst hid
  rw [Rollback.run, when, if_pos harmed, hnet] at hrun
  -- the network
  rcases Exec.fallible_bind_inv hrun with ⟨hout, -⟩ | ⟨e, -, hnone⟩ | ⟨u, tr₁, tr₂, h₁, rfl, hnone, hrun₁⟩
  · cases hout
  · obtain ⟨-, -, hres⟩ := Exec.ret_some_inv hnone
    cases hres
  obtain ⟨rfl, hR₁, -⟩ := Exec.ret_some_inv hnone
  -- the tree
  rcases Exec.fallible_bind_inv hrun₁ with ⟨hout, -⟩ | ⟨e, -, hkill⟩ | ⟨u, tr₃, tr₄, h₂, rfl, hkill, hrun₂⟩
  · cases hout
  · cases (killTree_ok hkill).1
  replace hkill := Exec.env_star hR₁ hkill
  have hkilled := (killTree_ok hkill).2
  -- the leaf
  rcases Exec.fallible_bind_inv hrun₂ with ⟨hout, -⟩ | ⟨e, -, hdrop⟩ | ⟨u, tr₅, tr₆, h₃, rfl, hdrop, hrun₃⟩
  · cases hout
  · cases (dropCgroup_ok hdrop).1
  have hdropped := (dropCgroup_ok hdrop).2
  -- the directory
  obtain ⟨h₄, b, tr₇, hR₄, -, rfl, hrun₄⟩ := Exec.call_some_inv hrun₃
  obtain ⟨rfl, hR₅, rfl⟩ := Exec.ret_some_inv hrun₄
  have hplain : (Rollback.dropCgroup rb.cgroup >>= fun _ =>
      sys (.removeDirAll (ContainerStateDir.forId env rb.id).stagingDir)).run.Within
        fun o : HostOp => o.plain = true ∧ o.plugs = false := by
    refine Fallible.within_bind ?_ fun _ => (within_sys (.removeDirAll _)).mpr ⟨rfl, rfl⟩
    cases rb.cgroup with
    | none => exact trivial
    | some cg => exact within_cleanup ⟨rfl, rfl⟩
  refine ⟨rfl, absent_of_star hR₅ (Host.absent_removeDirAll ()), fun pid hpid => ?_,
    fun pid name hpid hw => ?_, fun cg hcg hh hown => ?_⟩
  · refine Runs.dead (hplain.mono fun _ ho => HostOp.starts_of_plain ho.1) hrun₂ ?_
    exact (hkilled pid hpid).1
  · exact Runs.unlinked (hplain.mono fun _ ho => ho.2) hrun₂ ((hkilled pid hpid).2 name hw)
  · have hjoins : (Rollback.killTree rb.pid).run.Within fun o : HostOp => o.joins = false := by
      cases rb.pid with
      | none => exact trivial
      | some pid =>
        exact Fallible.within_bind ((within_sys (.kill pid)).mpr rfl) fun _ =>
          Fallible.within_bind ((within_sys (.awaitExit pid)).mpr rfl) fun _ => trivial
    have hh₂ : h₂.Hollow (Cgroup.open cg).path rb.pid := by
      refine Runs.hollow hjoins hkill (fun e he => hown e ?_) hh
      simp [he]
    have hnone : h₂.Hollow (Cgroup.open cg).path none := by
      cases hpid : rb.pid with
      | none => exact hpid ▸ hh₂
      | some pid => exact (hpid ▸ hh₂).of_dead (hkilled pid hpid).1
    have habsent := absent_of_star hR₄ (hdropped cg hcg hnone)
    exact absent_of_star hR₅ (habsent.next (o := .removeDirAll _) (.inl rfl) b)

/-- The way out runs the undo list, and then puts the record back, if it can. -/
lemma undo_inv {α : Type} {rb : Rollback} {e : RuntimeError} {out : Option (Except RuntimeError α)}
    (harmed : rb.armed = true) (hnet : rb.network = none)
    (hrun : Runs Host.Exits (undo env id rb e : HostM α) h tr out h') :
    (out = none ∧ Runs Host.Exits (rb.run env) h tr none h') ∨
      ∃ tr₁ tr₂ h₁ r, tr = tr₁ ++ tr₂ ∧ Runs Host.Exits (rb.run env) h tr₁ (some (.ok ())) h₁ ∧
        Runs Host.Exits (setStatus env id .checkpointed) h₁ tr₂ r h' ∧
        (out = none ∨ out = some (.error e)) := by
  rcases Exec.fallible_bind_inv hrun with ⟨hout, hcut⟩ | ⟨e', -, hrb⟩ | ⟨u, tr₁, tr₂, h₁, rfl, hrb, hrun₁⟩
  · exact .inl ⟨hout, hcut⟩
  · cases (rollback_ok harmed hnet rfl hrb).1
  refine .inr ?_
  rcases Exec.fallible_bind_inv hrun₁ with ⟨hout, hset⟩ | ⟨e', -, hset⟩ | ⟨r, tr₃, tr₄, h₂, rfl, hset, hrun₂⟩
  · rcases Exec.attempt_inv hset with ⟨-, hset⟩ | ⟨r, hr, -⟩
    · exact ⟨tr₁, tr₂, h₁, none, rfl, hrb, hset, .inl hout⟩
    · cases hr
  · rcases Exec.attempt_inv hset with ⟨hout, -⟩ | ⟨r, hr, -⟩
    · cases hout
    · cases hr
  · obtain ⟨rfl, hR, hout⟩ := Exec.ret_inv hrun₂
    rcases Exec.attempt_inv hset with ⟨hnone, -⟩ | ⟨r', -, hset⟩
    · cases hnone
    · refine ⟨tr₁, tr₃, h₁, some r', by simp, hrb, Exec.append_env_star hset hR, hout⟩

/-! ### Committing -/

lemma within_commit {m : Manifest} {pid : Int} (hr : ∀ o : HostOp, o.reads = true → P o)
    (h₁ : P (.createFile (ContainerStateDir.forId env id).stateFile))
    (h₂ : ∀ d, P (.putDoc (ContainerStateDir.forId env id).stateFile d)) :
    (commit env id m pid).run.Within P := by
  refine Fallible.within_bind ?_ fun _ => ?_
  · refine Fallible.within_bind ((within_sys .now).mpr (hr _ rfl)) fun _ => ?_
    exact within_update hr h₁ h₂
  · refine Fallible.within_bind ((within_sys .hostname).mpr (hr _ rfl)) fun _ => ?_
    exact within_when fun _ => within_update hr h₁ h₂

lemma within_report {path : PathBuf} {pid : Int} {net : Option Network}
    (hr : ∀ o : HostOp, o.reads = true → P o)
    (hs : P (.removeDirAll (ContainerStateDir.forId env id).stagingDir)) :
    (report env id path pid net).run.Within P := by
  refine Fallible.within_bind ((within_sys (.removeDirAll _)).mpr hs) fun _ => ?_
  refine Fallible.within_bind (Fallible.within_attempt ((loadState_reads _).mono hr)) fun _ => ?_
  exact Fallible.within_bind ((Checkpoint.fileLen_reads _).mono hr) fun _ => trivial

/-- The record says that the container runs as `pid`. -/
def RunsAs (pid : Int) (st : ContainerState) : Prop :=
  st.status = Status.running.asStr ∧ st.pid = some pid

/-- How a commit can end: the record is untouched, lost, or says that the container runs. -/
inductive CommitEnd (env : Env) (id : String) (pid : Int) (h h' : Host) (tr : List HostSig.Event) :
    Prop
  | untouched (hw : ∀ d, ¬ Writes tr (ContainerStateDir.forId env id).stateFile d)
      (hrec : h'.record env id = h.record env id) : CommitEnd env id pid h h' tr
  | lost (hrec : h'.record env id = none) : CommitEnd env id pid h h' tr
  | running {st : ContainerState} (hst : RunsAs pid st) (hrec : h'.record env id = some st) :
      CommitEnd env id pid h h' tr

lemma CommitEnd.of_update {pid : Int} {f : ContainerState → ContainerState}
    {out : Option (Except RuntimeError Unit)}
    (hf : ∀ st, h.record env id = some st → RunsAs pid (f st))
    (hend : UpdateEnd env id f h h' tr out) :
    CommitEnd env id pid h h' tr ∧
      ∀ d, Writes tr (ContainerStateDir.forId env id).stateFile d →
        ∃ st, d = .state st ∧ RunsAs pid st := by
  cases hend with
  | untouched _ _ hw hfile =>
    exact ⟨.untouched hw (Host.record_congr hfile), fun d hd => absurd hd (hw d)⟩
  | torn _ _ _ hw hrec => exact ⟨.lost hrec, fun d hd => absurd hd (hw d)⟩
  | done hst _ _ hw hrec =>
    exact ⟨.running (hf _ hst) hrec, fun d hd => ⟨_, (hw d).mp hd, hf _ hst⟩⟩

/-- **Committing.** Every run of a commit ends in one of the three ways, and all the records it
writes say that the container runs. -/
lemma commit_inv {R : Host → Host → Prop} {m : Manifest} {pid : Int}
    {out : Option (Except RuntimeError Unit)}
    (hk : Keeps R (ContainerStateDir.forId env id).stateFile)
    (hrun : Runs R (commit env id m pid) h tr out h') :
    CommitEnd env id pid h h' tr ∧
      ∀ d, Writes tr (ContainerStateDir.forId env id).stateFile d →
        ∃ st, d = .state st ∧ RunsAs pid st := by
  have hset : ∀ {tr out} {g : Host}, Runs R (setRestored env id pid) h tr out g →
      CommitEnd env id pid h g tr ∧ ∀ d, Writes tr (ContainerStateDir.forId env id).stateFile d →
        ∃ st, d = .state st ∧ RunsAs pid st := fun hrun => by
    obtain ⟨now, hend⟩ := update_now_inv hk hrun
    exact CommitEnd.of_update (fun st _ => ⟨rfl, rfl⟩) hend
  rcases Exec.fallible_bind_inv hrun with ⟨-, h₁⟩ | ⟨e, -, h₁⟩ | ⟨u, tr₁, tr₂, g, rfl, h₁, hrun₁⟩
  · exact hset h₁
  · exact hset h₁
  obtain ⟨hend₁, hw₁⟩ := hset h₁
  obtain ⟨st, hst, hrec⟩ : ∃ st, RunsAs pid st ∧ g.record env id = some st := by
    obtain ⟨now, hend⟩ := update_now_inv hk h₁
    cases hend with
    | untouched hout _ _ _ => exact absurd rfl hout
    | torn _ hout _ _ _ => exact absurd rfl hout
    | done _ _ _ _ hrec => exact ⟨_, ⟨rfl, rfl⟩, hrec⟩
  -- what follows changes the origin at most
  have hrest : CommitEnd env id pid g h' tr₂ ∧
      ∀ d, Writes tr₂ (ContainerStateDir.forId env id).stateFile d →
        ∃ st, d = .state st ∧ RunsAs pid st := by
    obtain ⟨g₁, hR, ⟨rfl, rfl, rfl⟩ | ⟨here, tr₃, -, rfl, hrun₂⟩⟩ := Exec.call_inv hrun₁
    · exact ⟨.untouched (writes_nil _) (Host.record_congr (hk.star hR)), fun d hd =>
        absurd hd (writes_nil _ d)⟩
    have hhost : ∀ d, ¬ Writes [⟨.hostname, here⟩] (ContainerStateDir.forId env id).stateFile d := by
      rintro d ⟨text, hmem⟩
      cases List.mem_singleton.mp hmem
    change Runs R (when (m.sourceHost ≠ here) _) _ _ _ _ at hrun₂
    by_cases hne : m.sourceHost ≠ here
    · rw [when, if_pos hne] at hrun₂
      refine CommitEnd.of_update (fun st' hst' => ?_) (UpdateEnd.prepend (t := [⟨.hostname, here⟩])
        (fun h => by cases List.mem_singleton.mp h) hhost (hk.star hR) (update_inv hk hrun₂))
      obtain rfl := Option.some.inj (hrec.symm.trans hst')
      exact hst
    · rw [when, if_neg hne] at hrun₂
      obtain ⟨rfl, hR₂, -⟩ := Exec.ret_inv hrun₂
      exact ⟨.untouched hhost (Host.record_congr ((hk.star hR₂).trans (hk.star hR))), fun d hd =>
        absurd hd (hhost d)⟩
  refine ⟨?_, fun d hd => (Writes.append_iff.mp hd).elim (hw₁ d) (hrest.2 d)⟩
  cases hrest.1 with
  | untouched _ hrec' => exact .running hst (hrec'.trans hrec)
  | lost hrec' => exact .lost hrec'
  | running hst' hrec' => exact .running hst' hrec'

/-! ### The engine and what follows it -/

section Revive

variable {R : Host → Host → Prop} {opts : Options} {path : PathBuf} {m : Manifest}
  {cgroup : Cgroup} {out : Option (Except RuntimeError Report)}

/-- The undo list while the engine runs. -/
def pending (id : String) (m : Manifest) : Rollback :=
  { Rollback.new id with cgroup := some m.config.id }

/-- Reviving removes the old pidfile and runs the engine. What follows is the way out when the
engine failed or its pidfile is unreadable, and otherwise the finish. -/
lemma revive_inv (hrun : Runs R (revive env id opts path m cgroup) h tr out h') :
    (out = none ∧ (tr = [] ∨ tr = [⟨.removeFile (engineOptions m.config
      (ContainerStateDir.forId env id) opts).pidfile, ()⟩])) ∨
    ∃ (h₁ : Host) (r : EngineRestore) (tr₂ : List HostSig.Event),
      Runs R (sys (.removeFile (engineOptions m.config
        (ContainerStateDir.forId env id) opts).pidfile)) h [⟨.removeFile (engineOptions m.config
        (ContainerStateDir.forId env id) opts).pidfile, ()⟩] (some (.ok ())) h₁ ∧
      h₁.enabled (.criuRestore id (engineOptions m.config
        (ContainerStateDir.forId env id) opts)) r = true ∧
      tr = ⟨.removeFile (engineOptions m.config (ContainerStateDir.forId env id) opts).pidfile, ()⟩ ::
        ⟨.criuRestore id (engineOptions m.config
          (ContainerStateDir.forId env id) opts), r⟩ :: tr₂ ∧
      ((∃ pid, r = .up pid (.ok pid) ∧
          Runs R (finish env id opts path m cgroup pid { pending id m with pid := some pid })
            (h₁.next (.criuRestore id (engineOptions m.config
              (ContainerStateDir.forId env id) opts)) r) tr₂ out h') ∨
        ((∃ msg, r = .failed msg ∨ ∃ pid, r = .up pid (.error msg)) ∧ ∃ e,
          Runs R (undo env id (pending id m) e : HostM Report)
            (h₁.next (.criuRestore id (engineOptions m.config
              (ContainerStateDir.forId env id) opts)) r) tr₂ out h')) := by
  obtain ⟨g, hR, ⟨rfl, rfl, rfl⟩ | ⟨u, tr₁, hu, rfl, hrun₁⟩⟩ := Exec.call_inv hrun
  · exact .inl ⟨rfl, .inl rfl⟩
  obtain ⟨h₁, hR₁, ⟨rfl, rfl, rfl⟩ | ⟨r, tr₂, hr, rfl, hrun₂⟩⟩ := Exec.call_inv hrun₁
  · exact .inl ⟨rfl, .inr rfl⟩
  refine .inr ⟨h₁, r, tr₂, ?_, hr, rfl, ?_⟩
  · exact Exec.env_star hR (Exec.call hu (Exec.env_star hR₁ (.ret _ _)))
  rcases r with msg | ⟨pid, e | q⟩
  · exact .inr ⟨⟨msg, .inl rfl⟩, _, hrun₂⟩
  · exact .inr ⟨⟨e, .inr ⟨pid, rfl⟩⟩, _, hrun₂⟩
  · obtain rfl : q = pid := by
      have := hr
      simp only [machine, Host.enabled, Bool.and_eq_true, decide_eq_true_eq] at this
      exact this.2
    exact .inl ⟨q, rfl, hrun₂⟩

/-- Finishing wires the tree up, and then undoes everything or commits. -/
lemma finish_inv {pid : Int} {rb : Rollback}
    (hrun : Runs R (finish env id opts path m cgroup pid rb) h tr out h') :
    (out = none ∧ Runs R (wire m.config cgroup pid opts.index) h tr none h') ∨
      ∃ tr₁ tr₂ h₁, tr = tr₁ ++ tr₂ ∧
        ((∃ e, Runs R (wire m.config cgroup pid opts.index) h tr₁ (some (.error e)) h₁ ∧
            Runs R (undo env id rb e : HostM Report) h₁ tr₂ out h') ∨
          ∃ net, Runs R (wire m.config cgroup pid opts.index) h tr₁ (some (.ok net)) h₁ ∧
            Runs R (commit env id m pid >>= fun _ => report env id path pid net) h₁ tr₂ out h') := by
  rcases Exec.fallible_bind_inv hrun with ⟨hout, hw⟩ | ⟨e, -, hw⟩ | ⟨r, tr₁, tr₂, h₁, rfl, hw, hrun₁⟩
  · rcases Exec.attempt_inv hw with ⟨-, hw⟩ | ⟨r, hr, -⟩
    · exact .inl ⟨hout, hw⟩
    · cases hr
  · rcases Exec.attempt_inv hw with ⟨hout, -⟩ | ⟨r, hr, -⟩
    · cases hout
    · cases hr
  · rcases Exec.attempt_inv hw with ⟨hout, -⟩ | ⟨r', hr, hw⟩
    · cases hout
    obtain rfl := Except.ok.inj (Option.some.inj hr)
    refine .inr ⟨tr₁, tr₂, h₁, rfl, ?_⟩
    cases r with
    | error e => exact .inl ⟨e, hw, hrun₁⟩
    | ok net => exact .inr ⟨net, hw, hrun₁⟩

/-- Reporting does not fail. -/
lemma report_total {pid : Int} {net : Option Network} :
    Fallible.Total (report env id path pid net) := by
  refine Fallible.Total.bind (Fallible.Total.sys _) fun _ => ?_
  refine Fallible.Total.bind (Fallible.Total.attempt _) fun _ => ?_
  refine Fallible.Total.bind (Fallible.Total.bind (Fallible.Total.sys _) fun r => ?_) fun _ =>
    Fallible.Total.pure _
  cases r with
  | ok n => exact Fallible.Total.pure n
  | error e => exact Fallible.Total.pure 0

end Revive

end Restore

end Mincontainer
