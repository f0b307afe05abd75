import Mincontainer.Host.Rules

set_option relaxedAutoImplicit false
set_option autoImplicit false

/-!
# What an operation can leave behind

Process trees, cgroup leaves, links and directories: which calls bring them about, and what makes
them go away for good. The environment is one in which trees end on their own.

## Main definitions

* `Mincontainer.Host.Absent` — nothing is at a path.
* `Mincontainer.Host.Hollow` — a cgroup leaf, if it is there at all, holds nothing but members of
  one tree.
* `Mincontainer.OwnCall` — the calls that touch a leaf from outside.

## Main results

* `Mincontainer.Runs.dead_of_kill` — a tree that was killed stays dead.
* `Mincontainer.Runs.hollow` — a leaf stays hollow when nobody moves in.
* `Mincontainer.Runs.absent_of_removeAll` — a directory that was removed stays absent.
-/

namespace Mincontainer

open Effects Files

namespace HostOp

/-- The call moves a process into a cgroup. -/
def joins : HostOp → Bool
  | .cgroupAdd _ _ => true
  | _ => false

/-- The call can bring a process up. -/
def starts : HostOp → Bool
  | .startTree _ => true
  | .criuRestore _ _ => true
  | _ => false

/-- The call starts nobody: neither a container's tree nor a supervisor. -/
def calm : HostOp → Bool
  | .startTree _ | .criuRestore _ _ | .fork _ _ => false
  | _ => true

/-- The call can create a link. -/
def plugs : HostOp → Bool
  | .net (.linkAddVeth _ _) | .net (.linkAddBridge _) => true
  | _ => false

/-- The call removes something. -/
def removes : HostOp → Bool
  | .removeFile _ | .removeDirAll _ | .removeTree _ | .removeDir _ => true
  | _ => false

/-- The call cannot bring anything about at the path. -/
def Spares (p : Path) (o : HostOp) : Prop := o.removes = true ∨ ¬ o.touches p

lemma spares_of_reads {p : Path} {o : HostOp} (ho : o.reads = true) : o.Spares p := by
  refine .inr ?_
  cases o <;> first | exact fun h => h | cases ho

lemma starts_of_reads {o : HostOp} (ho : o.reads = true) : o.starts = false := by
  cases o <;> first | rfl | cases ho

lemma joins_of_reads {o : HostOp} (ho : o.reads = true) : o.joins = false := by
  cases o <;> first | rfl | cases ho

lemma plugs_of_reads {o : HostOp} (ho : o.reads = true) : o.plugs = false := by
  cases o <;> first | rfl | cases ho

lemma starts_of_plain {o : HostOp} (ho : o.plain = true) : o.starts = false := by
  cases o <;> first | rfl | cases ho

lemma starts_of_calm {o : HostOp} (ho : o.calm = true) : o.starts = false := by
  cases o <;> first | rfl | cases ho

lemma calm_of_reads {o : HostOp} (ho : o.reads = true) : o.calm = true := by
  cases o <;> first | rfl | cases ho

lemma calm_of_plain {o : HostOp} (ho : o.plain = true) : o.calm = true := by
  cases o <;> first | rfl | cases ho

lemma joins_of_plain {o : HostOp} (ho : o.plain = true) : o.joins = false := by
  cases o <;> first | rfl | cases ho

lemma plugs_of_plain {o : HostOp} (ho : o.plain = true) : o.plugs = false := by
  cases o <;> first | rfl | cases ho

end HostOp

namespace Host

/-! ### Trees -/

variable {h : Host}

lemma alive_iff {pid : Int} : h.alive pid = true ↔ ∃ t ∈ h.procs, t.pid = pid := by
  simp [alive]

lemma mem_reap {pid : Int} {t : Proc} : t ∈ (h.reap pid).procs ↔ t ∈ h.procs ∧ t.pid ≠ pid := by
  simp [reap]

@[simp] lemma alive_reap_self (pid : Int) : (h.reap pid).alive pid = false := by
  simp [alive, reap]

/-- The trees after a call that starts none were there before; only their leaves may differ. -/
lemma mem_next_procs {o : HostOp} {r : o.Reply} {t : Proc} (ho : o.starts = false)
    (ht : t ∈ (h.next o r).procs) : ∃ t' ∈ h.procs, t'.pid = t.pid ∧ t'.owner = t.owner := by
  cases hp : o.plain with
  | true => exact ⟨t, h.next_procs hp r ▸ ht, rfl, rfl⟩
  | false =>
    cases o with
    | kill pid => exact ⟨t, (mem_reap.mp ht).1, rfl, rfl⟩
    | criuDump opts =>
      simp only [next] at ht
      split at ht <;> split at ht <;>
        simp only [mem_reap, writeAll_procs] at ht
      all_goals first | exact ⟨t, ht, rfl, rfl⟩ | exact ⟨t, ht.1, rfl, rfl⟩
    | startTree owner => cases ho
    | criuRestore owner opts => cases ho
    | fork id cfg => exact ⟨t, ht, rfl, rfl⟩
    | delegate => exact ⟨t, ht, rfl, rfl⟩
    | cgroupWrite leaf file value => exact ⟨t, ht, rfl, rfl⟩
    | cgroupAdd leaf pid =>
      simp only [next] at ht
      split at ht
      · obtain ⟨t', ht', rfl⟩ := List.mem_map.mp ht
        refine ⟨t', ht', ?_⟩
        split <;> exact ⟨rfl, rfl⟩
      · exact ⟨t, ht, rfl, rfl⟩
    | net c =>
      simp only [next] at ht
      split at ht
      · cases c <;> exact ⟨t, ht, rfl, rfl⟩
      · exact ⟨t, ht, rfl, rfl⟩
    | _ => cases hp

lemma next_alive {o : HostOp} {pid : Int} (ho : o.starts = false) (r : o.Reply)
    (ha : (h.next o r).alive pid = true) : h.alive pid = true := by
  obtain ⟨t, ht, rfl⟩ := alive_iff.mp ha
  obtain ⟨t', ht', hpid, -⟩ := mem_next_procs ho ht
  exact alive_iff.mpr ⟨t', ht', hpid⟩

lemma Exits.alive {h' : Host} {pid : Int} (he : Exits h h') (ha : h'.alive pid = true) :
    h.alive pid = true := by
  obtain ⟨p, rfl⟩ := he
  obtain ⟨t, ht, rfl⟩ := alive_iff.mp ha
  exact alive_iff.mpr ⟨t, (mem_reap.mp ht).1, rfl⟩

/-! ### Links -/

lemma hasLink_iff {name : String} : h.hasLink name = true ↔ ∃ l ∈ h.links, l.name = name := by
  simp [hasLink]

/-- The links after a call that creates none were there before; only their holders may differ. -/
lemma mem_next_links {o : HostOp} {r : o.Reply} {l : Link} (ho : o.plugs = false)
    (hl : l ∈ (h.next o r).links) : ∃ l' ∈ h.links, l'.name = l.name ∧ l'.peer = l.peer := by
  cases hp : o.plain with
  | true => exact ⟨l, h.next_links hp r ▸ hl, rfl, rfl⟩
  | false =>
    cases o with
    | kill pid => exact ⟨l, List.mem_of_mem_filter hl, rfl, rfl⟩
    | criuDump opts =>
      simp only [next] at hl
      split at hl <;> split at hl <;> refine ⟨l, ?_, rfl, rfl⟩
      all_goals first | simpa using hl | simpa using List.mem_of_mem_filter hl
    | startTree owner =>
      simp only [next] at hl
      split at hl
      · split at hl <;> exact ⟨l, hl, rfl, rfl⟩
      · exact ⟨l, hl, rfl, rfl⟩
    | criuRestore owner opts =>
      simp only [next] at hl
      split at hl <;> exact ⟨l, hl, rfl, rfl⟩
    | fork id cfg => exact ⟨l, hl, rfl, rfl⟩
    | delegate => exact ⟨l, hl, rfl, rfl⟩
    | cgroupWrite leaf file value => exact ⟨l, hl, rfl, rfl⟩
    | cgroupAdd leaf pid =>
      simp only [next] at hl
      split at hl <;> exact ⟨l, hl, rfl, rfl⟩
    | net c =>
      simp only [next] at hl
      split at hl
      · cases c with
        | linkAddBridge name => cases ho
        | linkAddVeth name peer => cases ho
        | linkSetNetns name pid =>
          obtain ⟨l', hl', rfl⟩ := List.mem_map.mp hl
          refine ⟨l', List.mem_of_mem_filter hl', ?_⟩
          split <;> exact ⟨rfl, rfl⟩
        | linkDelete name => exact ⟨l, List.mem_of_mem_filter hl, rfl, rfl⟩
        | _ => exact ⟨l, hl, rfl, rfl⟩
      · exact ⟨l, hl, rfl, rfl⟩
    | _ => cases hp

lemma next_hasLink {o : HostOp} {name : String} (ho : o.plugs = false) (r : o.Reply)
    (ha : (h.next o r).hasLink name = true) : h.hasLink name = true := by
  obtain ⟨l, hl, rfl⟩ := hasLink_iff.mp ha
  obtain ⟨l', hl', hname, -⟩ := mem_next_links ho hl
  exact hasLink_iff.mpr ⟨l', hl', hname⟩

lemma Exits.mem_links {h' : Host} {l : Link} (he : Exits h h') (hl : l ∈ h'.links) :
    l ∈ h.links := by
  obtain ⟨p, rfl⟩ := he
  exact List.mem_of_mem_filter hl

lemma Exits.hasLink {h' : Host} {name : String} (he : Exits h h')
    (ha : h'.hasLink name = true) : h.hasLink name = true := by
  obtain ⟨l, hl, rfl⟩ := hasLink_iff.mp ha
  exact hasLink_iff.mpr ⟨l, he.mem_links hl, rfl⟩

/-! ### Directories and leaves -/

/-- Nothing is at the path. -/
def Absent (p : Path) (h : Host) : Prop := h.fs.get p = none

lemma Absent.next {p : Path} {o : HostOp} (ho : o.Spares p) (r : o.Reply) (ha : Absent p h) :
    Absent p (h.next o r) := by
  rcases ho with hrm | hno
  · have hget : h.fs.get p = none := ha
    cases o with
    | removeFile q =>
      simp only [Absent, Host.next]
      split
      · simp [Tree.get_remove, hget]
      · exact ha
    | removeDirAll q => simp [Absent, Host.next, Tree.get_removeAll, hget]
    | removeTree q =>
      rcases r with ⟨gone, e⟩ | u
      · exact (Tree.get_keep _ _ _).trans (by rw [hget, ite_self])
      · exact (Tree.get_removeAll _ _ _).trans (by rw [hget, ite_self])
    | removeDir q =>
      simp only [Absent, Host.next]
      split
      · simp [Tree.get_remove, hget]
      · exact ha
    | _ => cases hrm
  · exact (h.next_get hno r).trans ha

lemma absent_removeDirAll {p : Path} (r : HostOp.Reply (.removeDirAll p)) :
    Absent p (h.next (.removeDirAll p) r) :=
  (Tree.get_removeAll _ _ _).trans (if_pos List.prefix_rfl)

lemma Absent.kind {p : Path} (ha : Absent p h) : h.kind p = none := by
  simp only [Host.kind, show h.fs.get p = none from ha, Option.map_none]

/-- The leaf, if it exists, is a directory with nothing in it, and the processes in it are those of
one tree, or none. -/
structure Hollow (leaf : Path) (member : Option Int) (h : Host) : Prop where
  nodes : ∀ q, leaf <+: q → h.fs.get q = none ∨ (q = leaf ∧ h.fs.get q = some .dir)
  procs : ∀ t ∈ h.procs, t.leaf = some leaf → some t.pid = member

end Host

/-- The event changes nothing at or below the leaf, unless it is the call that creates it or one
that removes it. -/
def OwnCall (leaf : Path) (e : HostSig.Event) : Prop :=
  ∀ q, leaf <+: q → e.1.touches q → e.1 = .mkdirAll leaf ∨ e.1 = .removeDir leaf

namespace Host

variable {h : Host} {leaf : Path} {member : Option Int}

/-- What a call of its own does to the nodes of a leaf. -/
lemma Hollow.next_nodes {o : HostOp} {r : o.Reply} (hh : Hollow leaf member h)
    (hown : OwnCall leaf ⟨o, r⟩) :
    ∀ q, leaf <+: q → (h.next o r).fs.get q = none ∨
      (q = leaf ∧ (h.next o r).fs.get q = some .dir) := by
  intro q hq
  by_cases ht : o.touches q
  · rcases hown q hq ht with heq | heq
    · obtain rfl : o = .mkdirAll leaf := heq
      obtain rfl : q = leaf := List.IsPrefix.eq_of_length_le ht hq.length_le
      rcases h.next_get_of_not_overwrites (o := .mkdirAll q) (fun h => h) r with hsame | ⟨-, hdir⟩
      · rw [hsame]
        exact hh.nodes q hq
      · exact .inr ⟨rfl, hdir⟩
    · obtain rfl : o = .removeDir leaf := heq
      obtain rfl : q = leaf := ht
      simp only [Host.next]
      split
      · exact .inl ((Tree.get_remove _ _ _).trans (if_pos rfl))
      · simpa using hh.nodes q hq
  · rw [h.next_get ht]
    exact hh.nodes q hq

/-- A leaf stays hollow under calls of its own that move nobody into a cgroup. -/
lemma Hollow.next {o : HostOp} {r : o.Reply} (hh : Hollow leaf member h) (ho : o.joins = false)
    (hown : OwnCall leaf ⟨o, r⟩) : Hollow leaf member (h.next o r) where
  nodes := hh.next_nodes hown
  procs t ht hleaf := by
    refine hh.procs t ?_ hleaf
    cases hp : o.plain with
    | true => exact h.next_procs hp r ▸ ht
    | false =>
      cases o with
      | kill pid => exact (mem_reap.mp ht).1
      | criuDump opts =>
        simp only [Host.next] at ht
        split at ht <;> split at ht <;> simp only [mem_reap, writeAll_procs] at ht
        all_goals first | exact ht | exact ht.1
      | startTree owner =>
        simp only [Host.next] at ht
        split at ht
        · split at ht
          · exact ht
          · rcases List.mem_cons.mp ht with rfl | ht
            · cases hleaf
            · exact ht
        · exact ht
      | criuRestore owner opts =>
        simp only [Host.next] at ht
        split at ht
        · rcases List.mem_cons.mp ht with rfl | ht
          · cases hleaf
          · exact ht
        · exact ht
      | fork id cfg => exact ht
      | delegate => exact ht
      | cgroupWrite leaf file value => exact ht
      | cgroupAdd leaf pid => cases ho
      | net c =>
        simp only [Host.next] at ht
        split at ht
        · cases c <;> exact ht
        · exact ht
      | _ => cases hp

/-- Moving the root of a tree into a hollow leaf makes it the member. -/
lemma Hollow.next_add {leaf' : Path} {pid : Int} {r : HostOp.Reply (.cgroupAdd leaf' pid)}
    (hh : ∀ m, m = member → Hollow leaf m h) (hm : member = none ∨ member = some pid) :
    Hollow leaf (some pid) (h.next (.cgroupAdd leaf' pid) r) where
  nodes q hq := by
    rw [h.next_get (o := .cgroupAdd leaf' pid) (fun h => h)]
    exact (hh _ rfl).nodes q hq
  procs t ht hleaf := by
    have hold : ∀ t ∈ h.procs, t.leaf = some leaf → some t.pid = some pid := fun t ht hl => by
      have := (hh _ rfl).procs t ht hl
      rcases hm with rfl | rfl
      · cases this
      · exact this
    simp only [Host.next] at ht
    split at ht
    · obtain ⟨t', ht', rfl⟩ := List.mem_map.mp ht
      split at hleaf
      · rename_i hpid
        rw [if_pos hpid, hpid]
      · rename_i hpid
        rw [if_neg hpid]
        exact hold t' ht' hleaf
    · exact hold t ht hleaf

lemma Hollow.reap (hh : Hollow leaf member h) (pid : Int) : Hollow leaf member (h.reap pid) :=
  ⟨hh.nodes, fun t ht => hh.procs t (mem_reap.mp ht).1⟩

/-- A leaf whose only member is dead has none. -/
lemma Hollow.of_dead {pid : Int} (hh : Hollow leaf (some pid) h) (hd : h.alive pid = false) :
    Hollow leaf none h where
  nodes := hh.nodes
  procs t ht hleaf := by
    have hpid := Option.some.inj (hh.procs t ht hleaf)
    rw [alive_iff.mpr ⟨t, ht, hpid⟩] at hd
    cases hd

lemma Hollow.weaken (hh : Hollow leaf none h) (m : Option Int) : Hollow leaf m h :=
  ⟨hh.nodes, fun t ht hleaf => by cases hh.procs t ht hleaf⟩

/-- A leaf without members can be removed. -/
lemma Hollow.absent_of_removeDir (hh : Hollow leaf none h) {b : Bool}
    (hb : b = h.removable leaf) : Absent leaf (h.next (.removeDir leaf) b) := by
  subst hb
  rcases hh.nodes leaf List.prefix_rfl with hnone | ⟨-, hdir⟩
  · simp [Absent, Host.next, removable, kind, hnone]
  · have hempty : h.fs.emptyBelow leaf = true := Tree.emptyBelow_iff.mpr fun q hq hne =>
      (hh.nodes q hq).resolve_right fun h => hne h.1
    have hprocs : ∀ t ∈ h.procs, t.leaf ≠ some leaf := fun t ht hl => by cases hh.procs t ht hl
    have hrem : h.removable leaf = true := by
      simpa [removable, kind, hdir, hempty] using hprocs
    simp only [Absent, Host.next, hrem, if_true]
    exact (Tree.get_remove _ _ _).trans (if_pos rfl)

end Host

/-! ### Whole runs -/

section Runs

variable {α : Type} {x : HostM α} {h h' : Host} {tr : List HostSig.Event}
  {out : Option (Except RuntimeError α)} {pid : Int} {p : Path}

/-- The dead stay dead while nothing is started. -/
lemma Runs.dead (hx : x.run.Within fun o : HostOp => o.starts = false)
    (hrun : Runs Host.Exits x h tr out h') (hd : h.alive pid = false) : h'.alive pid = false := by
  refine Exec.rel (K := fun a b => Host.alive a pid = false → Host.alive b pid = false)
    (fun _ => id) (fun h₁ h₂ ha => h₂ (h₁ ha)) (fun w o r ho _ hw => ?_) (fun a b hR hw => ?_) hx
    hrun hd
  · exact Bool.eq_false_iff.mpr fun ha => by simp [Host.next_alive ho r ha] at hw
  · exact Bool.eq_false_iff.mpr fun ha => by simp [Host.Exits.alive hR ha] at hw

/-- A tree that was killed stays dead while nothing is started. -/
lemma Runs.dead_of_kill (hx : x.run.Within fun o : HostOp => o.starts = false)
    (hrun : Runs Host.Exits x h tr out h') (hkill : ⟨.kill pid, ()⟩ ∈ tr) :
    h'.alive pid = false := by
  refine Exec.establishes (I := fun _ => True) (J := fun g => Host.alive g pid = false)
    (fun _ _ _ _ _ _ => trivial) (fun w o r ho _ hw => ?_) (fun w _ _ => ?_) (fun _ _ _ _ => trivial)
    (fun a b hR hw => ?_) hx hrun trivial hkill
  · exact Bool.eq_false_iff.mpr fun ha => by simp [Host.next_alive ho r ha] at hw
  · exact Host.alive_reap_self pid
  · exact Bool.eq_false_iff.mpr fun ha => by simp [Host.Exits.alive hR ha] at hw

/-- A link that is gone stays gone while none is created. -/
lemma Runs.unlinked {name : String} (hx : x.run.Within fun o : HostOp => o.plugs = false)
    (hrun : Runs Host.Exits x h tr out h') (hd : h.hasLink name = false) :
    h'.hasLink name = false := by
  refine Exec.rel (K := fun a b => Host.hasLink a name = false → Host.hasLink b name = false)
    (fun _ => id) (fun h₁ h₂ ha => h₂ (h₁ ha)) (fun w o r ho _ hw => ?_) (fun a b hR hw => ?_) hx
    hrun hd
  · exact Bool.eq_false_iff.mpr fun ha => by simp [Host.next_hasLink ho r ha] at hw
  · exact Bool.eq_false_iff.mpr fun ha => by simp [Host.Exits.hasLink hR ha] at hw

/-- What is absent stays absent while every call spares the path. -/
lemma Runs.absent (hx : x.run.Within (HostOp.Spares p)) (hrun : Runs Host.Exits x h tr out h')
    (ha : h.Absent p) : h'.Absent p :=
  Exec.rel (K := fun a b => Host.Absent p a → Host.Absent p b) (fun _ => id)
    (fun h₁ h₂ ha => h₂ (h₁ ha)) (fun w _ r ho _ hw => Host.Absent.next (h := w) ho r hw)
    (fun _ _ ⟨_, hb⟩ ha => hb ▸ ha) hx hrun ha

/-- A directory that was removed stays absent while every call spares the path. -/
lemma Runs.absent_of_removeAll (hx : x.run.Within (HostOp.Spares p))
    (hrun : Runs Host.Exits x h tr out h') (hmem : ⟨.removeDirAll p, ()⟩ ∈ tr) : h'.Absent p :=
  Exec.establishes (I := fun _ => True) (J := fun g => Host.Absent p g)
    (fun _ _ _ _ _ _ => trivial) (fun w _ r ho _ hw => Host.Absent.next (h := w) ho r hw)
    (fun w _ _ => Host.absent_removeDirAll (h := w) ()) (fun _ _ _ _ => trivial)
    (fun _ _ ⟨_, hb⟩ ha => hb ▸ ha) hx hrun trivial hmem

/-- A leaf stays hollow while nobody moves into a cgroup and only calls of its own touch it. -/
lemma Runs.hollow {leaf : Path} {member : Option Int}
    (hx : x.run.Within fun o : HostOp => o.joins = false) (hrun : Runs Host.Exits x h tr out h')
    (hown : ∀ e ∈ tr, OwnCall leaf e) (hh : h.Hollow leaf member) : h'.Hollow leaf member :=
  Exec.invariant (I := fun g => Host.Hollow leaf member g) (G := OwnCall leaf)
    (fun w _ _ ho hgood _ hw => Host.Hollow.next (h := w) hw ho hgood)
    (fun _ _ ⟨pid, hb⟩ ha => hb ▸ Host.Hollow.reap ha pid) hx hrun hown hh

/-- Trees that end on their own leave the files alone. -/
lemma keeps_exits (p : Path) : Keeps Host.Exits p := by
  rintro a b ⟨pid, rfl⟩
  rfl

end Runs

end Mincontainer
