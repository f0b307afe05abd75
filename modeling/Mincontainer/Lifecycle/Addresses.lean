import Mincontainer.Engine.Unpacking
import Mincontainer.Lifecycle.Wiring

set_option relaxedAutoImplicit false
set_option autoImplicit false

/-!
# Who has which address

The addresses that the jobs of a node assign to containers, interleaved call by call. A container has an
address from the moment it is added inside of its namespace until its tree is gone. The address is made
from the index that the job was given, and nothing compares that index with those of the containers
that are alive.

## Main definitions

* `Mincontainer.Lease`, `Mincontainer.Leased` — an address of a tree, and a host with the addresses of
  its trees.
* `Mincontainer.leasingMachine` — the host as the jobs with one index act on it.
* `Mincontainer.Vacant` — the index is one that no living container was given.

## Main results

* `Mincontainer.addresses_distinct` — with vacant indices the addresses of the living containers are
  different host addresses of the subnet.
* `Mincontainer.Demo.addresses_collide` — two detached starts.
-/

namespace Mincontainer

open Effects Files Bytes

/-! ### Texts of addresses -/

namespace Network

/-- An octet of an address. -/
def isOctet (cs : List Char) : Bool :=
  cs ≠ [] && cs.all Char.isDigit && decide (Nat.ofDigitChars 10 cs 0 ≤ 255)

/-- The form of address that `ip` takes: four octets and the length of the prefix. -/
def isAddress (cs : List Char) : Bool :=
  match cs.splitOn '/' with
  | [quad, _] => (quad.splitOn '.').length = 4 && (quad.splitOn '.').all isOctet
  | _ => false

/-- The address of the subnet with this last octet. -/
def hostAddress (n : ℕ) : String := ("10.66.0." ++ toString n) ++ "/24"

lemma toList_hostAddress (n : ℕ) : (hostAddress n).toList =
    ['1', '0', '.', '6', '6', '.', '0', '.'] ++ Nat.toDigits 10 n ++ ['/', '2', '4'] := by
  have hnet : "10.66.0.".toList = ['1', '0', '.', '6', '6', '.', '0', '.'] := by decide
  have hlen : "/24".toList = ['/', '2', '4'] := by decide
  rw [hostAddress, String.toList_append, String.toList_append, Nat.toString_eq_repr, Nat.toList_repr, hnet, hlen]

/-- The address of an index. -/
lemma address_eq (index : UInt8) : s!"{address index}/24" = hostAddress (1 + index.toNat + 1) := rfl

/-- Of the addresses that are made from an index, `ip` takes those up to the broadcast address. -/
lemma isAddress_address (index : UInt8) :
    isAddress (s!"{address index}/24").toList = decide (index.toNat ≤ 253) := by
  have hall : ∀ n : Fin 256, isAddress (['1', '0', '.', '6', '6', '.', '0', '.'] ++
      Nat.toDigits 10 (1 + n.1 + 1) ++ ['/', '2', '4']) = decide (n.1 ≤ 253) := by
    decide +kernel
  rw [address_eq, toList_hostAddress]
  exact hall ⟨index.toNat, index.toNat_lt⟩

/-- The address determines the index. -/
lemma address_inj {i j : UInt8} (h : s!"{address i}/24" = s!"{address j}/24") : i = j := by
  have hlists := congrArg String.toList h
  rw [address_eq, address_eq, toList_hostAddress, toList_hostAddress] at hlists
  have hdigits := List.append_cancel_left (List.append_cancel_right hlists)
  have hnumbers := congrArg (fun cs => Nat.ofDigitChars 10 cs 0) hdigits
  simp only [Nat.ofDigitChars_ten_toDigits] at hnumbers
  exact UInt8.toNat_inj.mp (by omega)

end Network

/-! ### Leases -/

/-- An address of a tree, and the index it was made from. -/
structure Lease where
  pid : Int
  address : String
  index : UInt8
deriving DecidableEq, Repr

/-- A host with the addresses of its trees. -/
abbrev Leased := Host × List Lease

/-- The tree and the address of a call that added an address inside of a container. -/
def assigned : HostSig.Event → Option (Int × String)
  | ⟨.net (.nsenter pid ["ip", "addr", "add", a, "dev", "eth0"]), r⟩ =>
    match (r : Except String Unit) with
    | .ok _ => some (pid, a)
    | .error _ => none
  | _ => none

/-- The addresses after a call of a job with an index; a tree that is gone has none. -/
def leases (index : UInt8) (e : HostSig.Event) (h : Host) (xs : List Lease) : List Lease :=
  ((assigned e).toList.map (fun x => Lease.mk x.1 x.2 index) ++ xs).filter fun x => h.alive x.pid

/-- The host as the jobs with this index act on it. -/
def leasingMachine (index : UInt8) : Machine HostSig Leased where
  Enabled w o r := machine.Enabled w.1 o r ∧
    ∀ x ∈ (assigned ⟨o, r⟩).toList, Network.isAddress x.2.toList = true
  next w o r := (w.1.next o r, leases index ⟨o, r⟩ (w.1.next o r) w.2)

instance (index : UInt8) : ∀ w o r, Decidable ((leasingMachine index).Enabled w o r) := fun w o r =>
  inferInstanceAs (Decidable (machine.Enabled w.1 o r ∧
    ∀ x ∈ (assigned ⟨o, r⟩).toList, Network.isAddress x.2.toList = true))

/-- Trees end on their own, and their addresses with them. -/
def LeasedExits (w w' : Leased) : Prop :=
  Host.Exits w.1 w'.1 ∧ w'.2 = w.2.filter fun x => w'.1.alive x.pid

/-- The jobs with an index, of any containers. -/
def Tenants (codec : Codec Manifest) (index : UInt8) (p : Program HostSig Unit) : Prop :=
  ∃ env id job, p = Job.prog env codec id job ∧ ∀ i, job.index = some i → i = index

/-- When an address is assigned, the index is one that no container that is alive was given, and not
the one that leads to the broadcast address. -/
def Vacant (index : UInt8) (w : Leased) (e : HostSig.Event) : Prop :=
  ∀ x ∈ (assigned e).toList, index ≠ 253 ∧ ∀ y ∈ w.2, y.index ≠ index

instance (index : UInt8) : ∀ w e, Decidable (Vacant index w e) := fun w e =>
  inferInstanceAs (Decidable (∀ x ∈ (assigned e).toList, index ≠ 253 ∧ ∀ y ∈ w.2, y.index ≠ index))

/-- The call adds no address but the one of the index. -/
def Addresses (index : UInt8) (o : HostOp) : Prop :=
  ∀ pid a, o = .net (.nsenter pid ["ip", "addr", "add", a, "dev", "eth0"]) →
    a = s!"{Network.address index}/24"

lemma allowsNet_addresses (index : UInt8) : AllowsNet (fun _ => True) index (Addresses index) where
  other o ho pid a h := absurd h (ho _)
  bridge c hc := by
    rintro pid a ⟨⟩
    exact hc.elim
  delete := nofun
  add cfg _ name peer _ _ := by
    refine ⟨nofun, fun pid c hc => ?_⟩
    rintro pid' a ⟨⟩
    exact hc.2 a rfl

section Runs

variable {codec : Codec Manifest} {index : UInt8}

/-- A job adds no address but the one of its index. -/
lemma Tenants.relies (index : UInt8) (p : Program HostSig Unit) (hp : Tenants codec index p) :
    p.Relies (Trusts codec fun _ => True) (Addresses index) fun _ => True := by
  obtain ⟨env, id, job, rfl, hindex⟩ := hp
  exact Job.relies (allowsNet_addresses index) hindex fun _ _ _ => trivial

/-! ### The invariant -/

/-- Each address was made from its index, and no two of them from one. -/
structure Leased.Inv (w : Leased) : Prop where
  made : ∀ x ∈ w.2, x.address = s!"{Network.address x.index}/24" ∧ x.index.toNat ≤ 252
  apart : w.2.Pairwise fun x y => x.index ≠ y.index

lemma assigned_inv {e : HostSig.Event} {x : Int × String} (hx : assigned e = some x) :
    e = ⟨.net (.nsenter x.1 ["ip", "addr", "add", x.2, "dev", "eth0"]),
      (.ok () : Except String Unit)⟩ := by
  unfold assigned at hx
  split at hx
  · split at hx
    · cases hx
      rfl
    · cases hx
  · cases hx

/-- Losing addresses keeps the invariant. -/
lemma Leased.Inv.filter {h h' : Host} {xs : List Lease} (hw : Leased.Inv (h, xs)) (f : Lease → Bool) :
    Leased.Inv (h', xs.filter f) where
  made x hx := hw.made x (List.mem_of_mem_filter hx)
  apart := hw.apart.filter f

/-- **One call.** With a vacant index the addresses stay apart.

**Proof sketch.** What is added is the address of the index; `ip` takes it, so it is at most the
broadcast address, and the index is neither that one's nor that of another tree. -/
lemma Leased.Inv.call {w : Leased} {o : HostOp} {r : o.Reply} (ho : Addresses index o)
    (hr : ((leasingMachine index).guarded (Vacant index)).Enabled w o r) (hw : w.Inv) :
    Leased.Inv ((leasingMachine index).next w o r) := by
  obtain ⟨⟨-, haccepts⟩, hvacant⟩ := hr
  have hadded : Leased.Inv (w.1, (assigned ⟨o, r⟩).toList.map
      (fun x => Lease.mk x.1 x.2 index) ++ w.2) := by
    cases hx : assigned ⟨o, r⟩ with
    | none => exact hw
    | some x =>
      obtain ⟨hlimit, hothers⟩ := hvacant x (by rw [hx]; exact List.mem_singleton.mpr rfl)
      have htaken := haccepts x (by rw [hx]; exact List.mem_singleton.mpr rfl)
      have haddress : x.2 = s!"{Network.address index}/24" :=
        ho x.1 x.2 (congrArg Sigma.fst (assigned_inv hx))
      rw [haddress, Network.isAddress_address, decide_eq_true_iff] at htaken
      have hne : index.toNat ≠ 253 := fun h => hlimit (UInt8.toNat_inj.mp h)
      constructor
      · intro y hy
        rcases List.mem_cons.mp hy with rfl | hy
        · exact ⟨haddress, by change index.toNat ≤ 252; omega⟩
        · exact hw.made y hy
      · exact List.pairwise_cons.mpr ⟨fun y hy h => hothers y hy h.symm, hw.apart⟩
  exact hadded.filter _

/-- **Addresses of the living.** In every interleaving of detached and other starts, restores and
arrivals with any indices, wherever any of them is killed: as long as each address is assigned to an
index that no container that is alive was given, and not to the index 253, the addresses of the
containers that are alive are pairwise different, host addresses of `10.66.0.0/24` and not that of the
bridge.

**Proof sketch.** The address determines the index, so addresses that were made from different indices
differ. -/
theorem addresses_distinct {h : Host} {p : Pool HostSig UInt8 Leased}
    (hp : Pool.Reach (fun i => (leasingMachine i).guarded (Vacant i)) (Tenants codec) LeasedExits
      ⟨(h, []), []⟩ p) :
    (p.world.2.Pairwise fun x y => x.address ≠ y.address) ∧
      ∀ x ∈ p.world.2, x.address ≠ s!"{Network.bridgeAddr}/24" ∧
        ∃ n, 1 ≤ n ∧ n ≤ 254 ∧ x.address = Network.hostAddress n := by
  have hcall : ∀ (i : UInt8) (w : Leased) (o : HostOp) (r : o.Reply), Addresses i o →
      ((leasingMachine i).guarded (Vacant i)).Enabled w o r → w.Inv →
      Leased.Inv ((leasingMachine i).next w o r) := fun i w o r ho hr hw => hw.call ho hr
  have henv : ∀ w w' : Leased, LeasedExits w w' → w.Inv → w'.Inv := by
    rintro w w' ⟨-, hxs⟩ hw
    have hfiltered : Leased.Inv (w'.1, w.2.filter fun x => w'.1.alive x.pid) :=
      Leased.Inv.filter (h := w.1) hw _
    rw [← hxs] at hfiltered
    exact hfiltered
  have hinv : p.world.Inv := Pool.Reach.invariant Tenants.relies (fun _ _ _ _ _ _ _ => trivial)
    hcall henv (.nil _) ⟨fun _ hx => absurd hx List.not_mem_nil, List.Pairwise.nil⟩ hp
  constructor
  · refine hinv.apart.imp_of_mem fun {x y} hx hy hne heq => hne (Network.address_inj ?_)
    rw [← (hinv.made x hx).1, ← (hinv.made y hy).1, heq]
  · intro x hx
    obtain ⟨haddress, hindex⟩ := hinv.made x hx
    refine ⟨fun hbridge => ?_, 1 + x.index.toNat + 1, by omega, by omega, haddress⟩
    have hlists := congrArg String.toList (haddress.symm.trans hbridge)
    rw [Network.address_eq, Network.toList_hostAddress,
      show (s!"{Network.bridgeAddr}/24").toList = _ from Network.toList_hostAddress 1] at hlists
    have hdigits := List.append_cancel_left (List.append_cancel_right hlists)
    have hnumbers := congrArg (fun cs => Nat.ofDigitChars 10 cs 0) hdigits
    simp only [Nat.ofDigitChars_ten_toDigits] at hnumbers
    omega

end Runs

/-! ### Detached starts -/

namespace Demo

/-- The supervisor of a networked container. -/
def supervisor (a : String) : Program HostSig Unit := Job.prog env codec a (.supervise (networked a) 7)

lemma tenants_supervisor (codec : Codec Manifest) (a : String) : Tenants codec 0 (supervisor a) :=
  ⟨env, a, .supervise (networked a) 7, rfl, fun _ hi => (Option.some.inj hi).symm⟩

/-- Obliging a supervisor. -/
def obligingLeased : ℕ → Leased → (o : HostOp) → Option o.Reply := fun _ w o => w.1.oblige o

/-- The options of a restore with the index 1. -/
def nextIndex : Restore.Options := ⟨none, 1, false⟩

/-- Before there are addresses, a run that only handles files is one of the jobs with an index. -/
lemma leased_of_plain {α : Type} {p : Program HostSig α} {h h' : Host} {tr : List HostSig.Event}
    {out : Option α} (index : UInt8) (hplain : ∀ e ∈ tr, e.1.plain = true)
    (hrun : Exec machine quiet p h tr out h') :
    Exec ((leasingMachine index).guarded (Vacant index)) quiet p (h, []) tr out (h', []) := by
  have hnone : ∀ {o : HostOp} {r : o.Reply}, o.plain = true → assigned ⟨o, r⟩ = none := by
    intro o r ho
    cases o with
    | net c => cases ho
    | _ => rfl
  induction hrun with
  | cut => exact .cut _ _
  | ret => exact .ret _ _
  | env hR _ _ => exact hR.elim
  | @call o k w w' r tr out hr _ ih =>
    have ho := hnone (r := r) (hplain _ List.mem_cons_self)
    have hnext : ((leasingMachine index).guarded (Vacant index)).next (w, []) o r =
        (machine.next w o r, []) := by
      change (w.next o r, leases index ⟨o, r⟩ (w.next o r) []) = _
      rw [leases, ho]
      rfl
    refine .call ⟨⟨hr, fun x hx => ?_⟩, fun x hx => ?_⟩ ?_
    · simp [ho] at hx
    · simp [ho] at hx
    · rw [hnext]
      exact ih fun e he => hplain e (List.mem_cons_of_mem _ he)

/-- A restore with the index 1, and then a detached start next to the container that was restored. -/
theorem addresses_distinct_demo : ∃ p : Pool HostSig UInt8 Leased,
    p.world.2 = [⟨101, "10.66.0.2/24", 0⟩, ⟨100, "10.66.0.3/24", 1⟩] ∧
      (p.world.2.Pairwise fun x y => x.address ≠ y.address) ∧
      ∀ x ∈ p.world.2, x.address ≠ s!"{Network.bridgeAddr}/24" ∧
        ∃ n, 1 ≤ n ∧ n ≤ 254 ∧ x.address = Network.hostAddress n := by
  have hdrive : (((leasingMachine 1).guarded (Vacant 1)).drive obligingLeased 60 0
      (onwardsWith networkedManifest "web" nextIndex latest).run
      (unpacked entries "web" networkedHost, [])).bind (fun x =>
        (((leasingMachine 0).guarded (Vacant 0)).drive obligingLeased 60 0 (supervisor "one") x.2.2).map
          fun y => (x.2.1.map Except.isOk, y.2.2.2)) =
      some (some true, [⟨101, "10.66.0.2/24", 0⟩, ⟨100, "10.66.0.3/24", 1⟩]) := by
    decide +kernel
  obtain ⟨⟨tr, out, w⟩, hone, hrest⟩ := Option.bind_eq_some_iff.mp hdrive
  obtain ⟨⟨tr', out', w'⟩, htwo, heq⟩ := Option.map_eq_some_iff.mp hrest
  obtain ⟨hout, hleases⟩ := Prod.mk.inj heq
  obtain ⟨res, rfl, -⟩ := Option.map_eq_some_iff.mp hout
  have hfile : networkedHost.file latest.path =
      some (.bytes (Snapshot.image (networkedCodec.encode networkedManifest) entries)) := by
    rw [networkedHost, latest_path]
    rfl
  obtain ⟨tr₁, hreads, hselect⟩ := select_snapshot (fun _ h => h) (codecOf_roundTrips _ _)
    (by decide +kernel) rfl
    (by decide +kernel : chosen "web" nextIndex networkedHost = some (some (.ok latest), true))
    (fun _ ho _ => Restore.reads_of_examines ho) hfile
  obtain ⟨tr₂, hplain, hunpack⟩ : ∃ tr, (∀ e ∈ tr, e.1.plain = true) ∧
      Runs quiet (Restore.unpack (SnapshotReader.ofImage latest.path networkedManifest
        (networkedCodec.encode networkedManifest) entries) dir.stagingDir)
        networkedHost tr (some (.ok ())) (unpacked entries "web" networkedHost) := unpack_snapshot
    (by decide +kernel) entries_valid (by decide +kernel) (List.pairwise_singleton _ _)
    (by decide +kernel) entries_images (plain_extract _ _) rfl rfl
  have hselect' := leased_of_plain 1 (fun e he => HostOp.plain_of_reads (hreads e he)) hselect
  have honwards : Exec ((leasingMachine 1).guarded (Vacant 1)) quiet
      (onwardsWith networkedManifest "web" nextIndex latest).run (unpacked entries "web" networkedHost, []) tr
      (some res) w := Machine.drive_exec hone
  have hrestore : Exec ((leasingMachine 1).guarded (Vacant 1)) quiet
      (Restore.restore env networkedCodec "web" nextIndex).run (networkedHost, [])
      (tr₁ ++ (tr₂ ++ tr)) (some res) w :=
    Exec.bind hselect' (Exec.bind (leased_of_plain 1 hplain hunpack) honwards)
  obtain ⟨y, hreach⟩ := Pool.reach_of_exec (M := fun i => (leasingMachine i).guarded (Vacant i))
    (F := Tenants networkedCodec) (R := LeasedExits) (l := 1) []
    (Exec.bind hrestore (.ret () w) : Exec _ _
      (Job.prog env networkedCodec "web" (.restore nextIndex)) _ _ _ _)
  obtain ⟨z, hreach'⟩ := Pool.reach_of_exec (M := fun i => (leasingMachine i).guarded (Vacant i))
    (F := Tenants networkedCodec) (R := LeasedExits) (l := 0) [(1, y)] (Machine.drive_exec htwo)
  have hjoin : Tenants networkedCodec 1 (Job.prog env networkedCodec "web" (.restore nextIndex)) :=
    ⟨env, "web", .restore nextIndex, rfl, fun _ hi => (Option.some.inj hi).symm⟩
  exact ⟨_, hleases, addresses_distinct (Relation.ReflTransGen.trans (.head ⟨_, .join hjoin⟩ hreach)
    (.head ⟨_, .join (tenants_supervisor networkedCodec "one")⟩ hreach'))⟩

/-- **Two detached starts.** Each supervisor gives its container the index 0, so both have the address
`10.66.0.2` while both are alive. -/
theorem addresses_collide : ∃ p : Pool HostSig UInt8 Leased,
    Pool.Reach leasingMachine (Tenants codec) LeasedExits ⟨(host frozen [] [], []), []⟩ p ∧
      p.world.2 = [⟨101, "10.66.0.2/24", 0⟩, ⟨100, "10.66.0.2/24", 0⟩] ∧
      p.world.1.alive 100 = true ∧ p.world.1.alive 101 = true := by
  have hdrive : ((leasingMachine 0).drive obligingLeased 60 0 (supervisor "one")
      (host frozen [] [], [])).bind (fun x =>
        ((leasingMachine 0).drive obligingLeased 60 0 (supervisor "two") x.2.2).map fun y =>
          (y.2.2.2, y.2.2.1.alive 100, y.2.2.1.alive 101)) =
      some ([⟨101, "10.66.0.2/24", 0⟩, ⟨100, "10.66.0.2/24", 0⟩], true, true) := by
    decide +kernel
  obtain ⟨⟨tr, out, w⟩, hone, hrest⟩ := Option.bind_eq_some_iff.mp hdrive
  obtain ⟨⟨tr', out', w'⟩, htwo, heq⟩ := Option.map_eq_some_iff.mp hrest
  simp only [Prod.mk.injEq] at heq
  obtain ⟨y, hreach⟩ := Pool.reach_of_exec (M := leasingMachine) (F := Tenants codec)
    (R := LeasedExits) (l := 0) [] (Machine.drive_exec hone)
  obtain ⟨z, hreach'⟩ := Pool.reach_of_exec (M := leasingMachine) (F := Tenants codec)
    (R := LeasedExits) (l := 0) [(0, y)] (Machine.drive_exec htwo)
  exact ⟨_, Relation.ReflTransGen.trans (.head ⟨_, .join (tenants_supervisor codec "one")⟩ hreach)
    (.head ⟨_, .join (tenants_supervisor codec "two")⟩ hreach'), heq⟩

end Demo

end Mincontainer
