import Mincontainer.Host.Leftovers
import Mincontainer.Lifecycle.Wiring

set_option relaxedAutoImplicit false
set_option autoImplicit false

/-!
# Whose interface it is

The jobs of any number of containers on one node, interleaved call by call, each for one container. A
pair of interfaces belongs to the container for which it was added. Its name is made from the first 12
bytes of the id, so the pair of one container is out of reach of the others as long as no two ids of
the node agree in these.

## Main definitions

* `Mincontainer.Owned` — a host, and which interface belongs to whom.
* `Mincontainer.Jobs` — the jobs of the containers of a node.

## Main results

* `Mincontainer.Owned.Inv.call` — an interface that belongs to somebody carries the names of its owner.
* `Mincontainer.interfaces_apart` — when no container touches the interface of another.
* `Mincontainer.Demo.interfaces_collide` — two ids that begin alike.
-/

namespace Mincontainer

open Effects Files Bytes

/-- A host, and the interfaces with the containers they belong to. -/
abbrev Owned := Host × List (String × String)

/-- The interface that is added belongs to the container it is added for. -/
def claim (a : String) (e : HostSig.Event) (owners : List (String × String)) :
    List (String × String) :=
  match e with
  | ⟨.net (.linkAddVeth name _), r⟩ =>
    match (r : Except String Unit) with
    | .ok _ => (name, a) :: owners
    | .error _ => owners
  | _ => owners

/-- The host as the jobs of the container `a` act on it. -/
def ownedMachine (a : String) : Machine HostSig Owned := machine.noting (claim a)

/-- Trees end on their own. -/
def OwnedExits (w w' : Owned) : Prop := Host.Exits w.1 w'.1 ∧ w'.2 = w.2

/-- The jobs of the containers of a node; a supervisor has been given the configuration of its
container. -/
def Jobs (codec : Codec Manifest) (Ids : String → Prop) (a : String) (p : Program HostSig Unit) :
    Prop :=
  Ids a ∧ ∃ env job, p = Job.prog env codec a job ∧ ∀ cfg self, job = .supervise cfg self → cfg.id = a

/-- Every configuration that the call brings in carries the id. -/
def Carries (codec : Codec Manifest) (a : String) : HostSig.Event → Prop :=
  Trusts codec fun cfg => cfg.id = a

/-- The jobs of a container make its network commands while the configurations carry its id. -/
lemma Jobs.relies {codec : Codec Manifest} {Ids : String → Prop} {a : String}
    {p : Program HostSig Unit} (hp : Jobs codec Ids a p) :
    p.Relies (Carries codec a) (WiresOwn a) fun _ => True := by
  obtain ⟨-, env, job, rfl, hcfg⟩ := hp
  have hallows : ∀ index, AllowsNet (fun cfg => cfg.id = a) index (WiresOwn a) := fun index =>
    (allowsNet_wiresOwn a index).mono fun cfg hid => by rw [hid]
  cases hindex : job.index with
  | none => exact Job.relies (hallows 0) (fun i hi => by rw [hindex] at hi; cases hi) hcfg
  | some index =>
    refine Job.relies (hallows index) (fun i hi => ?_) hcfg
    exact Option.some.inj (hi.symm.trans hindex)

/-! ### Names of interfaces -/

namespace Network

lemma veth_ne_peer {a b name peer : String} (ha : veth a = some name)
    (hb : peerName b = some peer) : name ≠ peer := by
  obtain ⟨s, -, rfl⟩ := Option.map_eq_some_iff.mp ha
  obtain ⟨t, -, rfl⟩ := Option.map_eq_some_iff.mp hb
  intro h
  have hthird := congrArg (fun s : String => s.toList[2]?) h
  simp [show "mch".toList = ['m', 'c', 'h'] by decide,
    show "mcp".toList = ['m', 'c', 'p'] by decide] at hthird

lemma veth_ne_bridge {a name : String} (ha : veth a = some name) : name ≠ bridge := by
  obtain ⟨s, -, rfl⟩ := Option.map_eq_some_iff.mp ha
  intro h
  have hthird := congrArg (fun s : String => s.toList[2]?) h
  simp [bridge, show "mch".toList = ['m', 'c', 'h'] by decide,
    show "mc0".toList = ['m', 'c', '0'] by decide] at hthird

/-- Two ids that give one name agree in their first 12 bytes. -/
lemma slice_of_veth {a b name : String} (ha : veth a = some name) (hb : veth b = some name) :
    ∃ t, slice 12 a = some t ∧ slice 12 b = some t := by
  obtain ⟨s, hs, rfl⟩ := Option.map_eq_some_iff.mp ha
  obtain ⟨t, ht, heq⟩ := Option.map_eq_some_iff.mp hb
  obtain rfl := (String.append_right_inj _).mp heq
  exact ⟨t, hs, ht⟩

lemma slice_of_peerName {a b peer : String} (ha : peerName a = some peer)
    (hb : peerName b = some peer) : ∃ t, slice 12 a = some t ∧ slice 12 b = some t := by
  obtain ⟨s, hs, rfl⟩ := Option.map_eq_some_iff.mp ha
  obtain ⟨t, ht, heq⟩ := Option.map_eq_some_iff.mp hb
  obtain rfl := (String.append_right_inj _).mp heq
  exact ⟨t, hs, ht⟩

end Network

/-- No two of the ids agree in their first 12 bytes. -/
def Apart (Ids : String → Prop) : Prop :=
  ∀ a b, Ids a → Ids b → a ≠ b → ∀ t, slice 12 a = some t → slice 12 b ≠ some t

lemma Apart.eq {Ids : String → Prop} (hd : Apart Ids) {a b : String} (ha : Ids a) (hb : Ids b)
    (h : ∃ t, slice 12 a = some t ∧ slice 12 b = some t) : a = b := by
  obtain ⟨t, hs, ht⟩ := h
  by_contra hne
  exact hd a b ha hb hne t hs ht

/-! ### The invariant -/

/-- An interface that belongs to a container carries the names of its pair. -/
structure Owned.Inv (Ids : String → Prop) (w : Owned) : Prop where
  owner : ∀ name a, (name, a) ∈ w.2 → Ids a ∧ Network.veth a = some name
  paired : ∀ name a, (name, a) ∈ w.2 → ∀ x ∈ w.1.links, x.name = name →
    x.peer = Network.peerName a

namespace Owned

variable {Ids : String → Prop} {w : Owned} {a : String}

/-- Nothing new belongs to anybody. -/
lemma claim_of_plugs {o : HostOp} (ho : o.plugs = false) (r : o.Reply)
    (owners : List (String × String)) : claim a ⟨o, r⟩ owners = owners := by
  cases o with
  | net c => cases c <;> first | rfl | cases ho
  | _ => rfl

/-- A call that creates no link keeps the invariant. -/
lemma Inv.unplugged {o : HostOp} (hw : w.Inv Ids) (ho : o.plugs = false) (r : o.Reply) :
    Inv Ids ((ownedMachine a).next w o r) := by
  have howners : ((ownedMachine a).next w o r).2 = w.2 := claim_of_plugs ho r w.2
  constructor
  · rw [howners]
    exact hw.owner
  · rw [howners]
    intro name b hb x hx hname
    obtain ⟨x', hx', hname', hpeer⟩ := Host.mem_next_links ho hx
    rw [← hpeer]
    exact hw.paired name b hb x' hx' (hname'.trans hname)

/-- **One call.** The commands of a container keep the invariant.

**Proof sketch.** The only links that are created are the bridge, which has the name of no interface
of a container, and the pair of the container itself. The names of a pair are free when it is added. -/
lemma Inv.call (hd : Apart Ids) (ha : Ids a) {o : HostOp} {r : o.Reply} (ho : WiresOwn a o)
    (hr : (ownedMachine a).Enabled w o r) (hw : w.Inv Ids) : Inv Ids ((ownedMachine a).next w o r) := by
  cases hplugs : o.plugs with
  | false => exact hw.unplugged hplugs r
  | true =>
    cases o with
    | net c =>
      rcases r with e | u
      · cases c with
        | linkAddBridge name => exact hw
        | linkAddVeth name peer => exact hw
        | _ => cases hplugs
      · cases c with
        | linkAddBridge name =>
          have hname : name = Network.bridge := by
            rcases ho _ rfl with h | ⟨_, _, h⟩ | ⟨_, _, _, _, h | ⟨_, _, h⟩⟩
            · exact h
            · cases h
            · cases h
            · exact h.elim
          refine ⟨hw.owner, fun n b hb x hx hxn => ?_⟩
          rcases List.mem_cons.mp hx with rfl | hx
          · exact absurd (hxn.symm.trans hname) (Network.veth_ne_bridge (hw.owner n b hb).2)
          · exact hw.paired n b hb x hx hxn
        | linkAddVeth name peer =>
          obtain ⟨hname, hpeer⟩ : Network.veth a = some name ∧ Network.peerName a = some peer := by
            rcases ho _ rfl with h | ⟨_, _, h⟩ | ⟨n, p, hn, hp, h | ⟨_, _, h⟩⟩
            · exact h.elim
            · cases h
            · cases h
              exact ⟨hn, hp⟩
            · exact h.elim
          have howner : ∀ n b, (n, b) ∈ (name, a) :: w.2 → Ids b ∧ Network.veth b = some n := by
            intro n b hb
            rcases List.mem_cons.mp hb with heq | hb
            · cases heq
              exact ⟨ha, hname⟩
            · exact hw.owner n b hb
          refine ⟨howner, fun n b hb x hx hxn => ?_⟩
          obtain ⟨hb', hn⟩ := howner n b hb
          rcases List.mem_cons.mp hx with rfl | hx
          · obtain rfl : name = n := hxn
            rw [← hd.eq ha hb' (Network.slice_of_veth hname hn)]
            exact hpeer.symm
          rcases List.mem_cons.mp hx with rfl | hx
          · exact absurd hxn.symm (Network.veth_ne_peer hn hpeer)
          rcases List.mem_cons.mp hb with heq | hb
          · cases heq
            have hpair := Network.paired_of_added (h := w.1) hr
            rw [hpeer]
            exact hpair x (List.mem_cons_of_mem _ (List.mem_cons_of_mem _ hx)) hxn
          · exact hw.paired n b hb x hx hxn
        | _ => cases hplugs
    | _ => cases hplugs

/-- A network command of a container leaves the interfaces of the others alone. -/
lemma Inv.untouched (hd : Apart Ids) (ha : Ids a) {c : NetCommand} (hc : Wires a c)
    (hw : w.Inv Ids) {name b : String} (hb : (name, b) ∈ w.2) (hne : b ≠ a) {x : Link}
    (hx : x.name = name) (hpeer : x.peer = Network.peerName b) :
    x ∈ (w.1.netDone c).links ↔ x ∈ w.1.links := by
  obtain ⟨hb', hname⟩ := hw.owner name b hb
  have hforeign : ∀ n, Network.veth a = some n → x.name ≠ n := by
    rintro n hn rfl
    exact hne (hd.eq hb' ha (Network.slice_of_veth (hx ▸ hname) hn))
  have hpeers : ∀ p, Network.peerName a = some p → x.peer ≠ some p := fun p hp h =>
    hne (hd.eq hb' ha (Network.slice_of_peerName (hpeer.symm.trans h) hp))
  rcases hc with hc | ⟨n, hn, rfl⟩ | ⟨n, p, hn, hp, rfl | ⟨ip, pid, hc⟩⟩
  · cases c with
    | linkAddBridge n =>
      obtain rfl : n = Network.bridge := hc
      refine List.mem_cons.trans ⟨fun h => h.resolve_left ?_, .inr⟩
      rintro rfl
      exact Network.veth_ne_bridge hname hx.symm
    | linkShow n => exact Iff.rfl
    | addrAdd addr dev => exact Iff.rfl
    | linkSetUp n => exact Iff.rfl
    | iptables args => exact Iff.rfl
    | _ => exact hc.elim
  · refine List.mem_filter.trans ⟨fun h => h.1, fun h => ⟨h, decide_eq_true ⟨hforeign n hn, ?_⟩⟩⟩
    intro h
    exact Network.veth_ne_peer hn (hpeer.symm.trans h) rfl
  · refine List.mem_cons.trans ⟨fun h => ?_, fun h => .inr (List.mem_cons_of_mem _ h)⟩
    rcases h with rfl | h
    · exact absurd rfl (hforeign n hn)
    · refine (List.mem_cons.mp h).resolve_left ?_
      rintro rfl
      exact Network.veth_ne_peer hname hp hx.symm
  · cases c with
    | linkSetNetns q pid' =>
      obtain ⟨rfl, -⟩ := hc
      have hfixed : (if x.peer = some q then { x with holder := some pid' } else x) = x :=
        if_neg (hpeers q hp)
      constructor
      · intro h
        obtain ⟨y, hy, rfl⟩ := List.mem_map.mp h
        split at hpeers
        · rename_i hyq
          exact absurd hyq (hpeers q hp)
        · rename_i hyq
          rw [if_neg hyq]
          exact List.mem_of_mem_filter hy
      · intro h
        refine List.mem_map.mpr ⟨x, List.mem_filter.mpr ⟨h, decide_eq_true ?_⟩, hfixed⟩
        rw [hx]
        exact Network.veth_ne_peer hname hp
    | linkSetMaster n' b => exact Iff.rfl
    | linkSetUp n' => exact Iff.rfl
    | nsenter pid' args => exact Iff.rfl
    | _ => exact hc.elim

end Owned

/-! ### All runs -/

section Runs

variable {codec : Codec Manifest} {Ids : String → Prop}

/-- The pools that are reached while the configurations carry the ids of their containers. -/
abbrev Owned.Reach (codec : Codec Manifest) (Ids : String → Prop) :
    Pool HostSig String Owned → Pool HostSig String Owned → Prop :=
  Pool.Reach (fun a => (ownedMachine a).guarded fun _ => Carries codec a) (Jobs codec Ids) OwnedExits

/-- One step of such a pool. -/
abbrev Owned.Step (codec : Codec Manifest) (Ids : String → Prop) :
    Pool HostSig String Owned → Option (String × HostSig.Event) → Pool HostSig String Owned → Prop :=
  Pool.Step (fun a => (ownedMachine a).guarded fun _ => Carries codec a) (Jobs codec Ids) OwnedExits

/-- The calls that the pool makes for a container. -/
def OwnCalls (Ids : String → Prop) (a : String) (o : HostOp) : Prop := Ids a ∧ WiresOwn a o

lemma Jobs.relies_own (a : String) (p : Program HostSig Unit) (hp : Jobs codec Ids a p) :
    p.Relies (Carries codec a) (OwnCalls Ids a) fun _ => True :=
  Program.Relies.mono (fun _ ho => ⟨hp.1, ho⟩) (fun _ _ => trivial) hp.relies

lemma carries_of_enabled (a : String) (w : Owned) (o : HostOp) (r : o.Reply)
    (hr : ((ownedMachine a).guarded fun _ => Carries codec a).Enabled w o r) : Carries codec a ⟨o, r⟩ := hr.2

/-- The invariant in every pool that is reached from one without jobs, in which nothing belongs to
anybody. -/
lemma Owned.Reach.inv (hd : Apart Ids) {h : Host} {p : Pool HostSig String Owned}
    (hp : Owned.Reach codec Ids ⟨(h, []), []⟩ p) : p.world.Inv Ids := by
  have hcall : ∀ (a : String) (w : Owned) (o : HostOp) (r : o.Reply), OwnCalls Ids a o →
      ((ownedMachine a).guarded fun _ => Carries codec a).Enabled w o r → w.Inv Ids →
      Owned.Inv Ids ((ownedMachine a).next w o r) := fun a w o r ho hr hw =>
    Owned.Inv.call hd ho.1 ho.2 hr.1 hw
  have henv : ∀ w w' : Owned, OwnedExits w w' → w.Inv Ids → w'.Inv Ids := fun w w' hR hw => by
    refine ⟨fun name a ha => hw.owner name a (hR.2 ▸ ha), fun name a ha x hx hname => ?_⟩
    exact hw.paired name a (hR.2 ▸ ha) x (hR.1.mem_links hx) hname
  exact Pool.Reach.invariant Jobs.relies_own carries_of_enabled hcall henv (.nil _)
    ⟨fun _ _ h => absurd h List.not_mem_nil, fun _ _ h => absurd h List.not_mem_nil⟩ hp

/-- What belongs to somebody still does after a call. -/
lemma Owned.mem_claim {a name b : String} {e : HostSig.Event} {owners : List (String × String)}
    (hb : (name, b) ∈ owners) : (name, b) ∈ claim a e owners := by
  obtain ⟨o, r⟩ := e
  cases o with
  | net c =>
    cases c with
    | linkAddVeth n p =>
      rcases r with e | u
      · exact hb
      · exact List.mem_cons_of_mem _ hb
    | _ => exact hb
  | _ => exact hb

/-- **Everybody's own interface.** For the containers of a node: if no two ids agree in their first 12
bytes, then the names of their interfaces differ, and in every interleaving of their jobs, wherever any
of them is killed, a network command that one of them makes neither removes nor changes nor replaces an
interface that belongs to another; and only then. The configurations that the jobs read carry the id of
their container.

**Proof sketch.** An interface that belongs to a container carries its names, and a command of a
container names no interface but its own and the bridge. -/
theorem interfaces_apart (codec : Codec Manifest) (Ids : String → Prop) :
    ((∀ cfg cfg' : ContainerConfig, Ids cfg.id → Ids cfg'.id → cfg.id ≠ cfg'.id →
        ∀ name, Network.hostVethName cfg.shortId = some name →
          Network.hostVethName cfg'.shortId ≠ some name) ∧
      ∀ (h : Host) (p q : Pool HostSig String Owned) (a : String) (c : NetCommand)
        (r : Except String Unit), Owned.Reach codec Ids ⟨(h, []), []⟩ p →
        Owned.Step codec Ids p (some (a, ⟨.net c, r⟩)) q →
        ∀ name b, (name, b) ∈ p.world.2 → b ≠ a → ∀ x : Link, x.name = name →
          (x ∈ q.world.1.links ↔ x ∈ p.world.1.links)) ↔
    ∀ a b, Ids a → Ids b → a ≠ b → ∀ t, slice 12 a = some t → slice 12 b ≠ some t := by
  constructor
  · rintro ⟨hnames, -⟩ a b ha hb hne t hs ht
    refine hnames { Demo.config with id := a } { Demo.config with id := b } ha hb hne ("mch" ++ t)
      ?_ ?_
    · rw [Network.hostVethName_shortId]
      exact Option.map_eq_some_iff.mpr ⟨t, hs, rfl⟩
    · rw [Network.hostVethName_shortId]
      exact Option.map_eq_some_iff.mpr ⟨t, ht, rfl⟩
  intro hd
  constructor
  · intro cfg cfg' hcfg hcfg' hne name hname hname'
    rw [Network.hostVethName_shortId] at hname hname'
    exact hne (Apart.eq hd hcfg hcfg' (Network.slice_of_veth hname hname'))
  · intro h p q a c r hp hstep name b hb hne x hx
    have hinv := Owned.Reach.inv hd hp
    have hinv' := Owned.Reach.inv hd (hp.tail ⟨_, hstep⟩)
    have hfit : Pool.Fits (Carries codec) (OwnCalls Ids) p :=
      Pool.Reach.fits Jobs.relies_own carries_of_enabled (.nil _) hp
    obtain ⟨⟨ha, hc⟩, -, hq⟩ := hstep.call_inv hfit
    have hb' : (name, b) ∈ q.world.2 := by
      rw [hq]
      exact Owned.mem_claim hb
    have huntouched : x.peer = Network.peerName b →
        (x ∈ (p.world.1.netDone c).links ↔ x ∈ p.world.1.links) := fun hpeer =>
      hinv.untouched hd ha (hc c rfl) hb hne hx hpeer
    have hlinks : q.world.1.links = (p.world.1.next (.net c) r).links := by rw [hq]; rfl
    rcases r with e | u
    · rw [hlinks]
      exact Iff.rfl
    · constructor
      · intro hmem
        have hpeer := hinv'.paired name b hb' x hmem hx
        rw [hlinks] at hmem
        exact (huntouched hpeer).mp hmem
      · intro hmem
        rw [hlinks]
        exact (huntouched (hinv.paired name b hb x hmem hx)).mpr hmem

end Runs

/-! ### Two containers whose ids begin alike -/

namespace Demo

/-- The directory of a container. -/
def home (a : String) : Path := ["root", ".mincontainer", "containers", a]

/-- A host on which the container was running when the host went down. -/
def crashed (a : String) : Host where
  fs := ⟨(dirs ++ [home a]).map (fun p => (p, .dir)) ++
    [(home a ++ ["state.json"], .file (.doc [0x7B, 0x7D] (.state { running with id := a }))),
      (home a ++ ["config.json"], .file (.doc [0x7B, 0x7D] (.config (networked a))))]⟩
  procs := []
  links := []

/-- The event deletes an interface. -/
def deletes (name : String) : HostSig.Event → Bool
  | ⟨.net (.linkDelete n), r⟩ => n = name && (r : Except String Unit).isOk
  | _ => false

lemma deletes_inv {name : String} {e : HostSig.Event} (he : deletes name e = true) :
    e = ⟨.net (.linkDelete name), (.ok () : Except String Unit)⟩ := by
  obtain ⟨o, r⟩ := e
  cases o with
  | net c =>
    cases c with
    | linkDelete n =>
      rcases r with e | u
      · simp [deletes, Except.isOk, Except.toBool] at he
      · obtain rfl : n = name := by simpa [deletes, Except.isOk, Except.toBool] using he
        rfl
    | _ => cases he
  | _ => cases he

/-- What belongs to somebody still does in the pools that are reached. -/
lemma owner_kept {F : String → Program HostSig Unit → Prop} {p q : Pool HostSig String Owned}
    {name b : String} (h : Pool.Reach ownedMachine F OwnedExits p q)
    (hb : (name, b) ∈ p.world.2) : (name, b) ∈ q.world.2 := by
  induction h with
  | refl => exact hb
  | tail _ hstep ih =>
    obtain ⟨act, hstep⟩ := hstep
    cases hstep with
    | join hp => exact ih
    | call hr => exact Owned.mem_claim ih
    | leave => exact ih
    | env hR => exact hR.2 ▸ ih

/-- **Ids that begin alike.** `web-frontend-1` is started, with a network; then the record of
`web-frontend-2`, which was running when the host went down, is reconciled: that deletes the interface
of `web-frontend-1`, for the interfaces of both would be called `mchweb-frontend`. -/
theorem interfaces_collide :
    Network.hostVethName (networked "web-frontend-1").shortId = some "mchweb-frontend" ∧
      Network.hostVethName (networked "web-frontend-2").shortId = some "mchweb-frontend" ∧
      ∃ p q : Pool HostSig String Owned,
        Pool.Reach ownedMachine (Jobs codec fun _ => True) OwnedExits
          ⟨(crashed "web-frontend-2", []), []⟩ p ∧
        Pool.Step ownedMachine (Jobs codec fun _ => True) OwnedExits p (some ("web-frontend-2",
          ⟨.net (.linkDelete "mchweb-frontend"), (.ok () : Except String Unit)⟩)) q ∧
        ("mchweb-frontend", "web-frontend-1") ∈ p.world.2 ∧
        p.world.1.hasLink "mchweb-frontend" = true ∧ q.world.1.hasLink "mchweb-frontend" = false := by
  have hdrive : ((machine.drive obliging 60 0 (Job.prog env codec "web-frontend-1"
      (.supervise (networked "web-frontend-1") 7)) (crashed "web-frontend-2")).bind fun x =>
        (machine.drive obliging 40 0 (Job.prog env codec "web-frontend-2" .reconcile) x.2.2).map
          fun y => (x.1.foldl (fun g e => claim "web-frontend-1" e g) [],
            y.1.any (deletes "mchweb-frontend"))) =
      some ([("mchweb-frontend", "web-frontend-1")], true) := by
    decide +kernel
  obtain ⟨⟨tr, out, h'⟩, hstart, hrest⟩ := Option.bind_eq_some_iff.mp hdrive
  obtain ⟨⟨tr', out', h''⟩, hsweep, heq⟩ := Option.map_eq_some_iff.mp hrest
  obtain ⟨howners, hdel⟩ := Prod.mk.inj heq
  obtain ⟨e, he, hdel⟩ := List.any_eq_true.mp hdel
  obtain rfl := deletes_inv hdel
  obtain ⟨y, hreach⟩ := Pool.reach_of_exec (M := ownedMachine) (F := Jobs codec fun _ => True)
    (R := OwnedExits) (l := "web-frontend-1") [] ((Machine.drive_exec hstart).noting [])
  obtain ⟨w, k, hreach', hr⟩ := Pool.reach_call (M := ownedMachine) (F := Jobs codec fun _ => True)
    (R := OwnedExits) (l := "web-frontend-2") [("web-frontend-1", y)]
    ((Machine.drive_exec hsweep).noting _) he
  have hjoin : Pool.Step ownedMachine (Jobs codec fun _ => True) OwnedExits
      ⟨(crashed "web-frontend-2", []), []⟩ none _ :=
    .join (l := "web-frontend-1") ⟨trivial, env, .supervise (networked "web-frontend-1") 7, rfl, ?_⟩
  have hjoin' : Pool.Step ownedMachine (Jobs codec fun _ => True) OwnedExits
      ⟨(h', tr.foldl (fun g e => claim "web-frontend-1" e g) []), [("web-frontend-1", y)]⟩ none _ :=
    .join (l := "web-frontend-2") ⟨trivial, env, .reconcile, rfl, nofun⟩
  refine ⟨by decide, by decide, _, _, (Relation.ReflTransGen.trans (.head ⟨_, hjoin⟩ hreach)
    (.head ⟨_, hjoin'⟩ hreach')), .call_head hr, ?_, hr, ?_⟩
  · refine owner_kept hreach' ?_
    change _ ∈ tr.foldl (fun g e => claim "web-frontend-1" e g) []
    rw [howners]
    exact List.mem_singleton.mpr rfl
  · refine Bool.eq_false_iff.mpr fun hl => ?_
    obtain ⟨x, hx, hname⟩ := Host.hasLink_iff.mp hl
    simpa [hname] using (List.mem_filter.mp hx).2
  · rintro cfg self ⟨⟩
    rfl

end Demo

end Mincontainer
