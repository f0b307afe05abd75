import Mincontainer.Effects.Pool
import Mincontainer.Host.Oblige
import Mincontainer.Lifecycle.Footprint
import Mincontainer.Migration.Footprint

set_option relaxedAutoImplicit false
set_option autoImplicit false

/-!
# Who touches which interface

Everything that wires or unwires the network of a container: starts and their supervisors, restores
and what sweeps up before them, and arrivals. Each names interfaces by the configuration it reads, and
takes the address of the index it was given.

## Main definitions

* `Mincontainer.Job` — the programs, and `Mincontainer.Job.prog`.
* `Mincontainer.Reveals` — the reply of a call brings in a configuration.
* `Mincontainer.AllowsNet` — the network commands for configurations of some kind are among the calls.
* `Mincontainer.Wires` — the network commands of the jobs of a container.

## Main results

* `Mincontainer.Network.hostVethName_shortId` — the name of the host end of a pair.
* `Mincontainer.Job.relies` — a job makes network commands for the configurations it read only.
-/

namespace Mincontainer

open Effects Files Bytes

/-! ### Names -/

namespace Network

/-- A letter of one byte uses up one. -/
lemma takeBytes_cons {n : ℕ} {c : Char} {cs : List Char} (hc : c.utf8Size = 1) :
    takeBytes (n + 1) (c :: cs) = (takeBytes n cs).map fun ds => c :: ds := by
  rw [takeBytes, if_pos (by omega), hc, Nat.add_sub_cancel]
  exact Nat.succ_ne_zero n

/-- What was cut off at a length has that length. -/
lemma takeBytes_idem {n : ℕ} {cs ds : List Char} (h : takeBytes n cs = some ds) :
    takeBytes n ds = some ds := by
  fun_induction takeBytes n cs generalizing ds with
  | case1 cs =>
    obtain rfl := Option.some.inj h
    rfl
  | case2 n hn =>
    obtain rfl := Option.some.inj h
    cases n with
    | zero => rfl
    | succ n => rfl
  | case3 n c cs hn hle ih =>
    obtain ⟨es, hes, rfl⟩ := Option.map_eq_some_iff.mp h
    obtain ⟨n, rfl⟩ := Nat.exists_eq_succ_of_ne_zero hn
    rw [takeBytes, if_pos hle, ih hes]
    · rfl
    · exact hn
  | case4 n c cs hn hle => cases h

/-- An interface name is a prefix of three letters and the first 12 bytes of the id. -/
lemma slice_prefixed {a b c : Char} (ha : a.utf8Size = 1) (hb : b.utf8Size = 1)
    (hc : c.utf8Size = 1) (s : String) :
    slice 15 (String.ofList [a, b, c] ++ s) =
      (slice 12 s).map fun t => String.ofList [a, b, c] ++ t := by
  have hlist : (String.ofList [a, b, c] ++ s).toList = a :: b :: c :: s.toList := by simp
  rw [slice, hlist, takeBytes_cons ha, takeBytes_cons hb, takeBytes_cons hc, slice]
  simp only [Option.map_map]
  congr 1
  funext ds
  change String.ofList ([a, b, c] ++ ds) = _
  exact String.ofList_append

lemma slice_idem {n : ℕ} {s t : String} (h : slice n s = some t) : slice n t = some t := by
  obtain ⟨ds, hds, rfl⟩ := Option.map_eq_some_iff.mp h
  rw [slice, String.toList_ofList, takeBytes_idem hds]
  rfl

/-- Where the first 12 bytes of the id end inside of a character, the name that is derived from the
short id is cut inside of a character as well; elsewhere it is those bytes behind the letters. -/
lemma slice_shortId {a b c : Char} (ha : a.utf8Size = 1) (hb : b.utf8Size = 1)
    (hc : c.utf8Size = 1) (cfg : ContainerConfig) :
    slice 15 (String.ofList [a, b, c] ++ cfg.shortId) =
      (slice 12 cfg.id).map fun t => String.ofList [a, b, c] ++ t := by
  rw [slice_prefixed ha hb hc, ContainerConfig.shortId]
  cases h : slice 12 cfg.id with
  | none => rw [Option.getD_none, h]
  | some t => rw [Option.getD_some, slice_idem h]

/-- The host end of the pair of a container. -/
def veth (id : String) : Option String := (slice 12 id).map fun t => "mch" ++ t

/-- The end of the pair that is moved into the container. -/
def peerName (id : String) : Option String := (slice 12 id).map fun t => "mcp" ++ t

/-- Both names are made from the same bytes of the id. -/
lemma peerName_congr {a b : String} (h : veth a = veth b) : peerName a = peerName b := by
  have hslice : slice 12 a = slice 12 b :=
    Option.map_injective (fun s t hst => (String.append_right_inj _).mp hst) h
  rw [peerName, hslice, peerName]

lemma hostVethName_shortId (cfg : ContainerConfig) : hostVethName cfg.shortId = veth cfg.id :=
  slice_shortId (a := 'm') (b := 'c') (c := 'h') rfl rfl rfl cfg

lemma peer_shortId (cfg : ContainerConfig) : slice 15 ("mcp" ++ cfg.shortId) = peerName cfg.id :=
  slice_shortId (a := 'm') (b := 'c') (c := 'p') rfl rfl rfl cfg

end Network

/-! ### Jobs -/

/-- What runs on a node for one container and may touch an interface. -/
inductive Job where
  | start (detach : Bool) (polls : Nat)
  | supervise (cfg : ContainerConfig) (self : Int)
  | restore (opts : Restore.Options)
  | reconcile
  | receive (proto : Protocol) (fuel : Nat) (token : String) (index : UInt8)

/-- Run a program for its effects. -/
def discard {α : Type} (x : HostM α) : Program HostSig Unit := x.run >>= fun _ => .ret ()

/-- The program of a job for the container `id`. -/
def Job.prog (env : Env) (codec : Codec Manifest) (id : String) : Job → Program HostSig Unit
  | .start detach polls => discard (cmdStart env id detach polls)
  | .supervise cfg self => discard (Mincontainer.supervise env id cfg self)
  | .restore opts => discard (Restore.restore env codec id opts)
  | .reconcile => discard (Restore.reconcile env id)
  | .receive proto fuel token index =>
    discard (Transport.handleOne env codec proto fuel token index)

/-- The index that a job gives its container, if it sets up a network at all. -/
def Job.index : Job → Option UInt8
  | .start _ _ => some 0
  | .supervise _ _ => some 0
  | .restore opts => some opts.index
  | .reconcile => none
  | .receive _ _ _ index => some index

/-- The call brought in this configuration: from the directory of a container, or with a snapshot. -/
def Reveals (codec : Codec Manifest) (e : HostSig.Event) (cfg : ContainerConfig) : Prop :=
  ∃ p c, e = ⟨.readFile p, (.ok c : Except String Content)⟩ ∧
    ((∃ text, c = .doc text (.config cfg)) ∨
      ∃ reader, SnapshotReader.openBytes codec p (display p) c.raw = .ok reader ∧
        reader.manifest.config = cfg)

/-- All the configurations that the call brings in are of the kind `T`. -/
def Trusts (codec : Codec Manifest) (T : ContainerConfig → Prop) (e : HostSig.Event) : Prop :=
  ∀ cfg, Reveals codec e cfg → T cfg

/-- Among the calls are all that are no network commands, those that prepare the bridge, and, for
configurations of the kind `T`, those that add, attach and delete the pair. -/
structure AllowsNet (T : ContainerConfig → Prop) (index : UInt8) (P : HostOp → Prop) : Prop where
  other : ∀ o, (∀ c, o ≠ .net c) → P o
  bridge : ∀ c, Restore.Bridges c → P (.net c)
  delete : ∀ cfg, T cfg → ∀ name, Network.veth cfg.id = some name → P (.net (.linkDelete name))
  add : ∀ cfg, T cfg → ∀ name peer, Network.veth cfg.id = some name →
    Network.peerName cfg.id = some peer → P (.net (.linkAddVeth name peer)) ∧
      ∀ pid c, Network.Attaches name peer (Network.address index) pid c → P (.net c)

/-- The network commands of the jobs of a container. -/
def Wires (a : String) (c : NetCommand) : Prop :=
  Restore.Bridges c ∨ (∃ name, Network.veth a = some name ∧ c = .linkDelete name) ∨
    ∃ name peer, Network.veth a = some name ∧ Network.peerName a = some peer ∧
      (c = .linkAddVeth name peer ∨ ∃ ip pid, Network.Attaches name peer ip pid c)

/-- The calls of the jobs of a container. -/
def WiresOwn (a : String) (o : HostOp) : Prop := ∀ c, o = .net c → Wires a c

/-- Fewer configurations ask for less. -/
lemma AllowsNet.mono {T T' : ContainerConfig → Prop} {index : UInt8} {P : HostOp → Prop}
    (ha : AllowsNet T index P) (hT : ∀ cfg, T' cfg → T cfg) : AllowsNet T' index P where
  other := ha.other
  bridge := ha.bridge
  delete cfg hcfg := ha.delete cfg (hT cfg hcfg)
  add cfg hcfg := ha.add cfg (hT cfg hcfg)

/-- Configurations that name the interface of a container lead to its commands only. -/
lemma allowsNet_wiresOwn (a : String) (index : UInt8) :
    AllowsNet (fun cfg => Network.veth cfg.id = Network.veth a) index (WiresOwn a) where
  other o ho c hc := absurd hc (ho c)
  bridge c hc := by
    rintro _ ⟨⟩
    exact .inl hc
  delete cfg hcfg name hname := by
    rintro _ ⟨⟩
    exact .inr (.inl ⟨name, hcfg.symm.trans hname, rfl⟩)
  add cfg hcfg name peer hname hpeer := by
    replace hname := hcfg.symm.trans hname
    replace hpeer := (Network.peerName_congr hcfg).symm.trans hpeer
    refine ⟨?_, fun pid c hc => ?_⟩
    · rintro _ ⟨⟩
      exact .inr (.inr ⟨name, peer, hname, hpeer, .inl rfl⟩)
    · rintro _ ⟨⟩
      exact .inr (.inr ⟨name, peer, hname, hpeer, .inr ⟨_, pid, hc⟩⟩)

/-- The call is no network command. -/
def HostOp.offline (o : HostOp) : Prop := ∀ c, o ≠ .net c

lemma HostOp.offline_of_plain {o : HostOp} (ho : o.plain = true) : o.offline := by
  rintro c rfl
  cases ho

lemma HostOp.offline_of_reads {o : HostOp} (ho : o.reads = true) : o.offline :=
  HostOp.offline_of_plain (HostOp.plain_of_reads ho)

section Relies

variable {env : Env} {codec : Codec Manifest} {T : ContainerConfig → Prop} {index : UInt8}
  {P : HostOp → Prop} {cfg : ContainerConfig} {id : String}

lemma AllowsNet.reads (ha : AllowsNet T index P) (o : HostOp) (ho : o.reads = true) : P o :=
  ha.other o (HostOp.offline_of_reads ho)

/-- Deleting the interface of a container. -/
lemma AllowsNet.cleanup (ha : AllowsNet T index P) (hcfg : T cfg) :
    (Network.cleanupById cfg.shortId).run.Within P := by
  rw [Network.cleanupById, Network.hostVethName_shortId]
  split
  · rename_i name hname
    refine Fallible.within_bind (Fallible.within_attempt (Restore.within_run ?_)) fun _ => trivial
    exact ha.delete cfg hcfg name hname
  · exact within_abort.mpr (ha.reads _ rfl)

/-- Setting up the network of a container; the handle names its interface. -/
lemma AllowsNet.setup (ha : AllowsNet T index P) (hcfg : T cfg) (pid : Int) :
    Fallible.Obeys P (fun net => Network.veth cfg.id = some net.hostVeth)
      (Network.setup cfg.shortId pid index) := by
  rw [← Network.hostVethName_shortId]
  refine Network.setup_obeys ha.bridge (fun name peer hname hpeer => ?_) (ha.reads _ rfl)
  rw [Network.hostVethName_shortId] at hname
  rw [Network.peer_shortId] at hpeer
  obtain ⟨hadd, hattach⟩ := ha.add cfg hcfg name peer hname hpeer
  exact ⟨hadd, hattach pid⟩

/-- The configuration in the directory of a container. -/
lemma loadConfig_trusts (ha : AllowsNet T index P) (dir : ContainerStateDir) :
    Fallible.Relies (Trusts codec T) P T dir.loadConfig := by
  refine Fallible.Relies.bind (Q := fun r => Trusts codec T ⟨.readFile _, r⟩)
    (Fallible.Relies.sys (ha.reads _ rfl) fun _ h => h) fun r hr => ?_
  refine Fallible.Relies.bind (Q := fun c => ∀ text cfg, c = .doc text (.config cfg) → T cfg)
    (relies_orErr fun c hc => ?_) fun c hc => ?_
  · subst hc
    exact fun text cfg hdoc => hr cfg ⟨_, c, rfl, .inl ⟨text, hdoc⟩⟩
  · split
    · exact Fallible.Relies.pure (hc _ _ rfl)
    · exact Fallible.Relies.throw _

/-- The configuration in a snapshot. -/
lemma open_trusts (ha : AllowsNet T index P) (p : Path) :
    Fallible.Relies (Trusts codec T) P (fun reader => T reader.manifest.config)
      (SnapshotReader.open codec p) := by
  refine Fallible.Relies.bind (Q := fun r => Trusts codec T ⟨.readFile p, r⟩)
    (Fallible.Relies.sys (ha.reads _ rfl) fun _ h => h) fun r hr => ?_
  refine Fallible.Relies.bind (Q := fun c => ∀ reader,
    SnapshotReader.openBytes codec p (display p) c.raw = .ok reader → T reader.manifest.config)
    (relies_orErr fun c hc => ?_) fun c hc => relies_ofExcept hc
  subst hc
  exact fun reader hreader => hr _ ⟨p, c, rfl, .inr ⟨reader, hreader, rfl⟩⟩

/-- Sweeping up deletes the interface that the configuration names. -/
lemma AllowsNet.sweeps (ha : AllowsNet T index P) : Restore.Sweeps P env id T where
  reads := ha.reads
  kill _ := ha.other _ nofun
  leaf _ _ := ha.other _ nofun
  link _ hcfg _ := ha.cleanup hcfg
  staging := ha.other _ nofun
  create := ha.other _ nofun
  put _ := ha.other _ nofun

/-- Recording something about the container. -/
lemma AllowsNet.update (ha : AllowsNet T index P) (f : ContainerState → ContainerState) :
    (update env id f).run.Within P :=
  within_update ha.reads (ha.other _ nofun) fun _ => ha.other _ nofun

/-- Starting a container wires the interface of its configuration, and its end deletes it. -/
lemma AllowsNet.tends (ha : AllowsNet T index P) (hcfg : T cfg) : Tends P id index cfg where
  delegate := ha.other _ nofun
  leaf := ha.other _ nofun
  limit _ _ := ha.other _ nofun
  tree := ha.other _ nofun
  join _ := ha.other _ nofun
  setup pid := by
    rw [Network.hostVethName_shortId]
    exact ha.setup hcfg pid
  wait _ := ha.other _ nofun
  delete name hname := by
    rw [Network.hostVethName_shortId] at hname
    exact ha.delete cfg hcfg name hname
  drop := ha.other _ nofun

lemma within_supervise (ha : AllowsNet T 0 P) (hcfg : T cfg) (self : Int) :
    (supervise env id cfg self).run.Within P :=
  (ha.tends hcfg).supervise (ha.reads _ rfl) ha.update ((getContainer_reads _ _).mono ha.reads) self

lemma within_startAttached (ha : AllowsNet T 0 P) (hcfg : T cfg) :
    (startAttached env id cfg).run.Within P :=
  (ha.tends hcfg).startAttached (ha.reads _ rfl) ha.update

/-- A detached start touches no interface itself; its supervisor does. -/
lemma within_startDetached (ha : AllowsNet T index P) (polls : ℕ) :
    (startDetached env id cfg polls).run.Within P := by
  refine Fallible.within_bind (within_ignore ((within_createFile _ _).mpr (ha.other _ nofun)))
    fun _ => ?_
  refine Fallible.within_bind (within_ignore ((within_createFile _ _).mpr (ha.other _ nofun)))
    fun _ => ?_
  refine Fallible.within_bind ((within_sys (.fork _ _)).mpr (ha.other _ nofun)) fun r => ?_
  split
  · refine Fallible.within_bind ((awaitRunning_reads _ _ _).mono ha.reads) fun r => ?_
    split <;> exact trivial
  · exact trivial

lemma start_trusts (ha : AllowsNet T 0 P) (detach : Bool) (polls : ℕ) :
    Fallible.Relies (Trusts codec T) P (fun _ => True) (cmdStart env id detach polls) := by
  have hmk : ∀ (p : Path) (f : String → RuntimeError), (mkdirAll p f).run.Within P := fun p f =>
    (within_mkdirAll _ _).mpr (ha.other _ nofun)
  refine Fallible.Relies.bind (Fallible.Relies.attempt (Q := T) ?_) fun r hr => ?_
  · refine Fallible.Relies.bind (.of_within (hmk _ _)) fun _ _ => ?_
    refine Fallible.Relies.bind (.of_within ((pathExists_reads _).mono ha.reads)) fun found _ => ?_
    split
    · exact Fallible.Relies.throw _
    refine Fallible.Relies.bind (.of_within ?_) fun _ _ => loadConfig_trusts ha _
    exact Fallible.within_bind (hmk _ _) fun _ => Fallible.within_bind (hmk _ _) fun _ => hmk _ _
  split
  · rename_i cfg
    split
    · exact .of_within (within_startDetached ha polls)
    · exact .of_within (within_startAttached ha (hr cfg rfl))
  · exact Fallible.Relies.pure trivial

/-- Rebuilding wires the interface of the configuration in the snapshot. -/
lemma AllowsNet.builds (ha : AllowsNet T index P) (hcfg : T cfg) : Restore.Builds P env id index cfg where
  reads := ha.reads
  kill _ := ha.other _ nofun
  extract := StaysBelow.extract fun _ ho => ha.other _ (HostOp.offline_of_plain ho.plain)
  staging := ha.other _ nofun
  create := ha.other _ nofun
  put _ := ha.other _ nofun
  io := ha.other _ nofun
  log _ _ := ⟨ha.other _ nofun, fun _ => ha.other _ nofun, ha.other _ nofun⟩
  mount _ _ := ha.other _ nofun
  delegate := ha.other _ nofun
  leaf := ha.other _ nofun
  limit _ _ := ha.other _ nofun
  join _ := ha.other _ nofun
  drop := ha.other _ nofun
  engine _ _ := ha.other _ nofun
  setup _ pid := (ha.setup hcfg pid).within

lemma restore_trusts (ha : AllowsNet T index P) {opts : Restore.Options}
    (hindex : opts.index = index) :
    Fallible.Relies (Trusts codec T) P (fun _ => True) (Restore.restore env codec id opts) := by
  subst hindex
  exact Restore.restore_relies ha.sweeps (loadConfig_trusts ha _)
    (Restore.resolveSnapshot_relies ha.reads) (fun b _ => open_trusts ha b.path)
    fun reader hreader => ha.builds hreader

/-- Taking over a snapshot touches no interface. -/
lemma within_adoptSnapshot (ha : AllowsNet T index P) (path : PathBuf) :
    (Restore.adoptSnapshot env codec path).run.Within P := by
  have hmk : ∀ (p : Path) (f : String → RuntimeError), (mkdirAll p f).run.Within P := fun p f =>
    (within_mkdirAll _ _).mpr (ha.other _ nofun)
  refine Fallible.within_bind (open_reads.mono ha.reads) fun reader => ?_
  refine Fallible.within_bind ((verify_reads reader).mono ha.reads) fun _ => ?_
  refine Fallible.within_bind ?_ fun _ => trivial
  refine Fallible.within_bind (hmk _ _) fun _ => Fallible.within_bind ?_ fun _ => ?_
  · exact Fallible.within_bind (hmk _ _) fun _ => Fallible.within_bind (hmk _ _) fun _ => hmk _ _
  · exact Fallible.within_bind (within_writeDoc (ha.other _ nofun) (ha.other _ nofun)) fun _ =>
      within_writeDoc (ha.other _ nofun) (ha.other _ nofun)

/-- An arrival wires the interface of the configuration that arrived. -/
lemma handleOne_trusts (ha : AllowsNet T index P) {proto : Protocol} {fuel : ℕ} {token : String} :
    Fallible.Relies (Trusts codec T) P (fun _ => True)
      (Transport.handleOne env codec proto fuel token index) := by
  refine Fallible.Relies.bind (.of_within ((Transport.greet_reads _).mono ha.reads)) fun hello _ => ?_
  refine Fallible.Relies.bind (Transport.receiveFile_obeys ha.reads (ha.other _ nofun)
    ⟨ha.other _ nofun, fun _ => ha.other _ nofun, ha.other _ nofun⟩ (ha.other _ nofun)).relies
    fun final _ => ?_
  refine Fallible.Relies.bind (Fallible.Relies.attempt (Q := fun _ => True) ?_) fun outcome _ =>
    .of_within ((Transport.answer_reads _ _).mono ha.reads)
  refine Fallible.Relies.bind (.of_within (within_adoptSnapshot ha final)) fun x _ => ?_
  exact restore_trusts ha rfl

end Relies

/-- **The jobs of a container.** Of the network commands, a job makes those that prepare the bridge;
and, as long as all the configurations that its calls bring in are of one kind, those that add, attach
and delete the pair of a configuration of that kind. -/
lemma Job.relies {env : Env} {codec : Codec Manifest} {T : ContainerConfig → Prop} {index : UInt8}
    {P : HostOp → Prop} {id : String} {job : Job} (ha : AllowsNet T index P)
    (hindex : ∀ i, job.index = some i → i = index)
    (hcfg : ∀ cfg self, job = .supervise cfg self → T cfg) :
    (job.prog env codec id).Relies (Trusts codec T) P fun _ => True := by
  cases job with
  | start detach polls =>
    obtain rfl := hindex 0 rfl
    exact Program.Relies.bind (start_trusts ha detach polls) fun _ _ => trivial
  | supervise cfg self =>
    obtain rfl := hindex 0 rfl
    exact Program.Relies.bind (within_supervise ha (hcfg cfg self rfl) self).obeys.relies
      fun _ _ => trivial
  | restore opts => exact Program.Relies.bind (restore_trusts ha (hindex _ rfl)) fun _ _ => trivial
  | reconcile =>
    exact Program.Relies.bind (Restore.reconcile_relies ha.sweeps (loadConfig_trusts ha _))
      fun _ _ => trivial
  | receive proto fuel token index' =>
    obtain rfl := hindex _ rfl
    exact Program.Relies.bind (handleOne_trusts ha) fun _ _ => trivial

end Mincontainer
