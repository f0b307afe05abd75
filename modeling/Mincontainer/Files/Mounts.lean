import Mincontainer.Files.Path

set_option relaxedAutoImplicit false
set_option autoImplicit false

/-!
# Mount namespaces

A mount namespace is what its paths lead to: for each path the mount it is reached through, the file
system of that mount and the place there. Two namespaces are kept side by side, one that was copied
from the other. A mount that is shared is the same mount in both; what is mounted below a place of it
appears at that place in both, wherever they have it. What is mounted below a mount that is not shared
appears at one path only.

A mount hides what was below its mount point before. What is mounted on the root is not seen by a
process whose root it is. What is mounted is a new file system, but for the one that the kernel keeps
its devices in, which every mount of the kind shows.

## Main definitions

* `Files.FileSystem`, `Files.FileSystem.mounted` — file systems, and what a mount shows of which kind.
* `Files.Spot`, `Files.View` — what a path leads to.
* `Files.Mounts` — the namespace of a process beside the one of its host.
* `Files.Mounts.bind`, `Files.Mounts.mountFs`, `Files.Mounts.makePrivate`, `Files.Mounts.pivotRoot`,
  `Files.Mounts.detach` — the calls on it.
* `Files.View.Within` — every path leads where it did before, or below one of certain directories.

## Main results

* `Files.Mounts.own_attach_below` — a mount point shows what is mounted there.
* `Files.View.Within.bind` — binding such a directory keeps a view within.
* `Files.Mounts.host_attach` — no mount leaves a namespace without shared mounts.
* `Files.Mounts.InStep.bind` — where everything is shared, both namespaces stay the same.
-/

namespace Files

/-! ### Views -/

/-- A mount; the copy of a shared mount in another namespace is the same mount. -/
inductive Mount where
  /-- Mounted before. -/
  | given (n : ℕ) (shared : Bool)
  /-- A file system mounted by call number `k`. -/
  | fresh (k : ℕ) (shared : Bool)
  /-- The copy of a mount that was bound by call number `k`. -/
  | copy (k : ℕ) (of : Mount) (shared : Bool)
deriving DecidableEq, Repr

/-- What is mounted below the mount appears in other namespaces too. -/
def Mount.shared : Mount → Bool
  | .given _ s => s
  | .fresh _ s => s
  | .copy _ _ s => s

/-- The mount, no longer shared. -/
def Mount.apart : Mount → Mount
  | .given n _ => .given n false
  | .fresh k _ => .fresh k false
  | .copy k m _ => .copy k m false

@[simp] lemma Mount.shared_apart (m : Mount) : m.apart.shared = false := by
  cases m <;> rfl

/-- A file system: one that the host has, one mounted by call number `k`, or the only one of its kind. -/
inductive FileSystem where
  | host (name : String)
  | made (fstype : String) (k : ℕ)
  | sole (fstype : String)
deriving DecidableEq, Repr

/-- What a mount of this kind shows when it is made by call number `k`: the kernel has one `devtmpfs`, and
makes a new file system of any other kind. -/
def FileSystem.mounted (fstype : String) (k : ℕ) : FileSystem :=
  if fstype = "devtmpfs" then .sole fstype else .made fstype k

/-- What a path leads to: a place of a file system, through a mount of it. -/
structure Spot where
  mount : Mount
  fs : FileSystem
  path : Path
deriving DecidableEq, Repr

namespace Spot

/-- The file itself, whatever mount it is reached through. -/
def loc (s : Spot) : FileSystem × Path := (s.fs, s.path)

/-- The spot in a bound copy of its mount; a shared mount and its copies are one. -/
def copied (k : ℕ) (shared : Bool) (s : Spot) : Spot :=
  if s.mount.shared then s else { s with mount := .copy k s.mount shared }

/-- The spot on a mount that is no longer shared. -/
def apart (s : Spot) : Spot := { s with mount := s.mount.apart }

@[simp] lemma loc_copied (k : ℕ) (shared : Bool) (s : Spot) : (s.copied k shared).loc = s.loc := by
  unfold copied loc
  split <;> rfl

@[simp] lemma fs_copied (k : ℕ) (shared : Bool) (s : Spot) : (s.copied k shared).fs = s.fs := by
  unfold copied
  split <;> rfl

@[simp] lemma loc_apart (s : Spot) : s.apart.loc = s.loc := rfl

@[simp] lemma fs_apart (s : Spot) : s.apart.fs = s.fs := rfl

lemma shared_copied {k : ℕ} {shared : Bool} {s : Spot} (h : s.mount.shared = shared) :
    (s.copied k shared).mount.shared = shared := by
  unfold copied
  by_cases hs : s.mount.shared = true
  · rw [if_pos hs, h]
  · rw [if_neg hs]
    rfl

end Spot

/-- What each path of a namespace leads to. -/
abbrev View := Path → Spot

namespace View

/-- The number of components after which the way to `p` first comes to the spot. -/
def exposed (v : View) (at_ : Spot) (p : Path) : Option ℕ :=
  (List.range (p.length + 1)).find? fun n => decide (n ≠ 0 ∧ v (p.take n) = at_)

/-- A tree on the spot `at_`, wherever the view shows it. -/
def graft (v : View) (at_ : Spot) (tree : View) : View := fun p =>
  match v.exposed at_ p with
  | some n => tree (p.drop n)
  | none => v p

/-- A tree on the path `target` alone. -/
def mountAt (v : View) (target : Path) (tree : View) : View := fun p =>
  if target ≠ [] ∧ target <+: p then tree (p.drop target.length) else v p

lemma graft_cases (v : View) (at_ : Spot) (tree : View) (p : Path) :
    v.graft at_ tree p = v p ∨ ∃ rest, v.graft at_ tree p = tree rest := by
  unfold graft
  cases v.exposed at_ p with
  | none => exact .inl rfl
  | some q => exact .inr ⟨_, rfl⟩

/-- No mount of the view is shared. -/
def Private (v : View) : Prop := ∀ p, (v p).mount.shared = false

/-- Every mount of the view is shared. -/
def Shared (v : View) : Prop := ∀ p, (v p).mount.shared = true

end View

/-! ### Two namespaces -/

/-- The mount namespace of a process, and the one it was copied from. -/
structure Mounts where
  own : View
  host : View
  /-- After the root was changed: where the old one is, and what is below it. -/
  old : Option (Path × View)
  /-- The number of mounts made so far. -/
  made : ℕ

namespace Mounts

/-- A new namespace is a copy. -/
def unshare (host : View) : Mounts := ⟨host, host, none, 0⟩

/-- Mount a tree at a path. -/
def attach (m : Mounts) (target : Path) (tree : View) : Mounts :=
  if (m.own target).mount.shared then
    { m with
      own := m.own.graft (m.own target) tree
      host := m.host.graft (m.own target) tree
      made := m.made + 1 }
  else { m with own := m.own.mountAt target tree, made := m.made + 1 }

/-- The tree at a path with everything mounted below it, for a mount at `target`. -/
def subtree (m : Mounts) (source target : Path) : View := fun rest =>
  (m.own (source ++ rest)).copied m.made (m.own target).mount.shared

/-- Bind the tree at `source` to `target`, with everything mounted below it. -/
def bind (m : Mounts) (source target : Path) : Mounts := m.attach target (m.subtree source target)

/-- Mount a file system by its kind. -/
def mountFs (m : Mounts) (fstype : String) (target : Path) : Mounts :=
  m.attach target fun rest =>
    ⟨.fresh m.made (m.own target).mount.shared, .mounted fstype m.made, rest⟩

/-- Share none of the mounts any longer. -/
def makePrivate (m : Mounts) : Mounts := { m with own := fun p => (m.own p).apart }

/-- Make the directory `new` the root and keep the old root at `putOld` below the new one. -/
def pivotRoot (m : Mounts) (new putOld : Path) : Mounts :=
  { m with
    own := fun p => if putOld <+: p then m.own (p.drop putOld.length) else m.own (new ++ p)
    old := some (putOld, fun p => m.own (new ++ p)) }

/-- Detach the old root. -/
def detach (m : Mounts) : Mounts :=
  match m.old with
  | some (putOld, below) =>
    { m with own := fun p => if putOld <+: p then below p else m.own p, old := none }
  | none => m

/-- Bind directories one after the other. -/
def bindAll (m : Mounts) (binds : List (Path × Path)) : Mounts :=
  binds.foldl (fun m b => m.bind b.1 b.2) m

@[simp] lemma bindAll_nil (m : Mounts) : m.bindAll [] = m := rfl

@[simp] lemma bindAll_cons (m : Mounts) (b : Path × Path) (binds : List (Path × Path)) :
    m.bindAll (b :: binds) = (m.bind b.1 b.2).bindAll binds := rfl

lemma bindAll_append (m : Mounts) (as bs : List (Path × Path)) :
    m.bindAll (as ++ bs) = (m.bindAll as).bindAll bs := List.foldl_append

/-- What a namespace without shared mounts shows after a mount. -/
lemma own_attach {m : Mounts} {target : Path} (h : (m.own target).mount.shared = false)
    (tree : View) (p : Path) :
    (m.attach target tree).own p =
      if target ≠ [] ∧ target <+: p then tree (p.drop target.length) else m.own p := by
  unfold attach
  rw [if_neg (by simp [h])]
  rfl

/-- A file system at a path that is not shared. -/
lemma loc_mountFs {m : Mounts} {target : Path} (h : (m.own target).mount.shared = false)
    (htarget : target ≠ []) (fstype : String) {p : Path} (hp : target <+: p) :
    ((m.mountFs fstype target).own p).loc = (.mounted fstype m.made, p.drop target.length) := by
  rw [mountFs, own_attach h, if_pos ⟨htarget, hp⟩]
  rfl

lemma own_mountFs_of_not_prefix {m : Mounts} {target : Path} (h : (m.own target).mount.shared = false)
    (fstype : String) {p : Path} (hp : ¬ target <+: p) :
    (m.mountFs fstype target).own p = m.own p := by
  rw [mountFs, own_attach h, if_neg fun hb => hp hb.2]

/-- **No mount leaves a namespace** at a path that is not shared. -/
lemma host_attach {m : Mounts} {target : Path} (h : (m.own target).mount.shared = false)
    (tree : View) : (m.attach target tree).host = m.host := by
  unfold attach
  rw [if_neg (by simp [h])]

lemma old_attach (m : Mounts) (target : Path) (tree : View) :
    (m.attach target tree).old = m.old := by
  unfold attach
  split <;> rfl

/-- A mount of private trees keeps a namespace private. -/
lemma private_attach {m : Mounts} {target : Path} {tree : View} (h : m.own.Private)
    (htree : tree.Private) : (m.attach target tree).own.Private := by
  intro p
  rw [own_attach (h target)]
  by_cases hp : target ≠ [] ∧ target <+: p
  · rw [if_pos hp]
    exact htree _
  · rw [if_neg hp]
    exact h p

lemma private_subtree {m : Mounts} (source target : Path) (h : m.own.Private) :
    (m.subtree source target).Private := by
  intro rest
  show ((m.own (source ++ rest)).copied m.made (m.own target).mount.shared).mount.shared = false
  rw [h target]
  exact Spot.shared_copied (h _)

lemma private_bind {m : Mounts} (source target : Path) (h : m.own.Private) :
    (m.bind source target).own.Private := private_attach h (private_subtree source target h)

lemma private_mountFs {m : Mounts} (fstype : String) (target : Path) (h : m.own.Private) :
    (m.mountFs fstype target).own.Private := private_attach h fun _ => h target

/-- Nothing that a namespace without shared mounts binds reaches its host. -/
lemma host_bindAll {m : Mounts} (binds : List (Path × Path)) (h : m.own.Private) :
    (m.bindAll binds).host = m.host := by
  induction binds generalizing m with
  | nil => rfl
  | cons b binds ih =>
    rw [bindAll_cons, ih (private_bind b.1 b.2 h), bind, host_attach (h b.2)]

lemma private_makePrivate (m : Mounts) : m.makePrivate.own.Private := fun p =>
  Mount.shared_apart (m.own p).mount

end Mounts

/-! ### Where the paths lead -/

namespace Mounts

/-- What a mount shows is what was there before, or the tree. -/
lemma own_attach_cases (m : Mounts) (target : Path) (tree : View) (p : Path) :
    (m.attach target tree).own p = m.own p ∨ ∃ rest, (m.attach target tree).own p = tree rest := by
  unfold attach
  by_cases hs : (m.own target).mount.shared = true
  · rw [if_pos hs]
    exact m.own.graft_cases (m.own target) tree p
  · rw [if_neg hs]
    by_cases hp : target ≠ [] ∧ target <+: p
    · exact .inr ⟨_, if_pos hp⟩
    · exact .inl (if_neg hp)

/-- The way to the path does not come to where it leads before. -/
def Lone (m : Mounts) (target : Path) : Prop :=
  ∀ n, n ≠ 0 → n < target.length → m.own (target.take n) ≠ m.own target

/-- **A mount point shows what is mounted there**, and everything below it. -/
lemma own_attach_below {m : Mounts} {target : Path} (htarget : target ≠ [])
    (h : (m.own target).mount.shared = true → m.Lone target) (tree : View) (rest : Path) :
    (m.attach target tree).own (target ++ rest) = tree rest := by
  by_cases hs : (m.own target).mount.shared = true
  · have hexposed : m.own.exposed (m.own target) (target ++ rest) = some target.length := by
      unfold View.exposed
      rw [List.find?_range_eq_some]
      refine ⟨?_, ?_, fun j hj => ?_⟩
      · rw [decide_eq_true_eq, List.take_left]
        exact ⟨fun h0 => htarget (List.length_eq_zero_iff.mp h0), rfl⟩
      · rw [List.mem_range, List.length_append]
        omega
      · rw [Bool.not_eq_true', decide_eq_false_iff_not, List.take_append_of_le_length hj.le]
        exact fun hj' => h hs j hj'.1 hj hj'.2
    unfold attach
    rw [if_pos hs]
    show m.own.graft (m.own target) tree (target ++ rest) = tree rest
    unfold View.graft
    rw [hexposed]
    show tree ((target ++ rest).drop target.length) = tree rest
    rw [List.drop_left]
  · rw [own_attach (by simpa using hs), if_pos ⟨htarget, List.prefix_append _ _⟩, List.drop_left]

end Mounts

namespace View

/-- Every path leads where it, or a path at or below one of the directories, led in the view `w`. -/
def Within (roots : List Path) (w v : View) : Prop :=
  ∀ p, ∃ q, (v p).loc = (w q).loc ∧ (q = p ∨ ∃ r ∈ roots, r <+: q)

lemma Within.refl (roots : List Path) (w : View) : Within roots w w := fun p => ⟨p, rfl, .inl rfl⟩

/-- **Binding keeps within.** A bind of one of the directories shows nothing else of the host.

**Proof sketch.** A path leads where it led before, or to a place below the source of the bind, and
the source is one of the directories. -/
lemma Within.bind {roots : List Path} {w : View} {m : Mounts} {source : Path} (target : Path)
    (h : Within roots w m.own) (hsource : source ∈ roots) :
    Within roots w (m.bind source target).own := by
  intro p
  rcases m.own_attach_cases target (m.subtree source target) p with hp | ⟨rest, hp⟩
  · obtain ⟨q, hq, hway⟩ := h p
    exact ⟨q, (congrArg Spot.loc hp).trans hq, hway⟩
  · obtain ⟨q, hq, hway⟩ := h (source ++ rest)
    refine ⟨q, (congrArg Spot.loc hp).trans ((Spot.loc_copied _ _ _).trans hq), .inr ?_⟩
    rcases hway with rfl | hroot
    · exact ⟨source, hsource, List.prefix_append _ _⟩
    · exact hroot

lemma Within.bindAll {roots : List Path} {w : View} {m : Mounts} {binds : List (Path × Path)}
    (h : Within roots w m.own) (hbinds : ∀ b ∈ binds, b.1 ∈ roots) :
    Within roots w (m.bindAll binds).own := by
  induction binds generalizing m with
  | nil => exact h
  | cons b binds ih =>
    obtain ⟨hb, hrest⟩ := List.forall_mem_cons.mp hbinds
    exact ih (h.bind b.2 hb) hrest

end View

/-! ### Namespaces apart -/

/-- Nothing in the namespace of the process is shared, hidden parts included. -/
structure Mounts.Apart (m : Mounts) : Prop where
  own : m.own.Private
  below : ∀ o ∈ m.old, o.2.Private

namespace Mounts.Apart

variable {m : Mounts}

lemma attach {target : Path} {tree : View} (h : m.Apart) (htree : tree.Private) :
    (m.attach target tree).Apart :=
  ⟨private_attach h.own htree, fun o ho => h.below o (old_attach m target tree ▸ ho)⟩

lemma bind (h : m.Apart) (source target : Path) : (m.bind source target).Apart :=
  h.attach (private_subtree source target h.own)

lemma mountFs (h : m.Apart) (fstype : String) (target : Path) : (m.mountFs fstype target).Apart :=
  h.attach fun _ => h.own target

lemma makePrivate (h : ∀ o ∈ m.old, o.2.Private) : m.makePrivate.Apart := ⟨private_makePrivate m, h⟩

lemma pivotRoot (h : m.Apart) (new putOld : Path) : (m.pivotRoot new putOld).Apart := by
  refine ⟨fun p => ?_, fun o ho => ?_⟩
  · show (if putOld <+: p then m.own (p.drop putOld.length) else m.own (new ++ p)).mount.shared = false
    by_cases hp : putOld <+: p
    · rw [if_pos hp]
      exact h.own _
    · rw [if_neg hp]
      exact h.own _
  · obtain rfl := Option.some.inj ho
    exact fun p => h.own (new ++ p)

lemma detach (h : m.Apart) : m.detach.Apart := by
  unfold Mounts.detach
  cases ho : m.old with
  | none => exact h
  | some o =>
    refine ⟨fun p => ?_, fun o ho => by cases ho⟩
    show (if o.1 <+: p then o.2 p else m.own p).mount.shared = false
    by_cases hp : o.1 <+: p
    · rw [if_pos hp]
      exact h.below o ho p
    · rw [if_neg hp]
      exact h.own p

end Mounts.Apart

lemma Mounts.host_detach (m : Mounts) : m.detach.host = m.host := by
  unfold Mounts.detach
  cases m.old <;> rfl

/-! ### Namespaces in step -/

/-- Both namespaces show the same, and everything in them is shared. -/
structure Mounts.InStep (m : Mounts) : Prop where
  same : m.host = m.own
  shared : m.own.Shared

namespace Mounts.InStep

lemma unshare {host : View} (h : host.Shared) : (Mounts.unshare host).InStep := ⟨rfl, h⟩

/-- **What is bound reaches the host** where everything is shared: both stay the same. -/
lemma bind {m : Mounts} (h : m.InStep) (source target : Path) : (m.bind source target).InStep := by
  have hat : (m.own target).mount.shared = true := h.shared target
  have hbind : m.bind source target =
      { m with
        own := m.own.graft (m.own target) (m.subtree source target)
        host := m.host.graft (m.own target) (m.subtree source target)
        made := m.made + 1 } := if_pos hat
  rw [hbind]
  constructor
  · show m.host.graft _ _ = m.own.graft _ _
    rw [h.same]
  · intro p
    show (m.own.graft (m.own target) (m.subtree source target) p).mount.shared = true
    rcases m.own.graft_cases (m.own target) (m.subtree source target) p with hp | ⟨rest, hp⟩
    · rw [hp]
      exact h.shared p
    · rw [hp]
      show ((m.own (source ++ rest)).copied m.made (m.own target).mount.shared).mount.shared = true
      rw [hat]
      exact Spot.shared_copied (h.shared _)

lemma bindAll {m : Mounts} (h : m.InStep) (binds : List (Path × Path)) : (m.bindAll binds).InStep := by
  induction binds generalizing m with
  | nil => exact h
  | cons b binds ih => exact ih (h.bind b.1 b.2)

end Mounts.InStep

end Files
