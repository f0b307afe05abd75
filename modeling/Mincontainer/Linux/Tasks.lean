import Mincontainer.Linux.Credentials
import Mincontainer.Linux.Filters

set_option relaxedAutoImplicit false
set_option autoImplicit false

/-!
# The processes below one process

A set of processes, each with its credentials, its user and mount namespace and its filters, and what
one of them may do next. The rules say what the kernel demands at least: a call that needs a capability
over a namespace needs the capability in the effective set when the process is in the user namespace
that owns it, may succeed when that one is further down, and fails otherwise. A new user namespace
gives its first process every capability, over what that namespace owns.

User namespaces are named by the way to them from the first one.

## Main definitions

* `Linux.Task`, `Linux.System` — processes and their mount namespaces.
* `Linux.Act`, `Linux.System.step` — what a process does next.
* `Linux.System.Reaches` — the systems that are reached by steps of any of the processes.

## Main results

* `Linux.System.Reaches.lacks` — capabilities that the processes of the first user namespace lack stay
  lacking.
* `Linux.System.Reaches.table` — without the capability for it, the mounts of a namespace stay.
* `Linux.System.Reaches.filtered` — a filter of all processes is one for good.
-/

namespace Linux

/-- A user namespace, by the way to it from the first one. -/
abbrev UserNs := List ℕ

/-- A process. -/
structure Task where
  pid : ℕ
  creds : Credentials
  userns : UserNs
  mountns : ℕ
  /-- The newest first. -/
  filters : List Filter

/-- The process may have the capability over what the user namespace owns. -/
def Task.Able (t : Task) (cap : Capability) (ns : UserNs) : Prop :=
  t.userns <+: ns ∧ (ns = t.userns → cap ∈ t.creds.effective)

instance (t : Task) (cap : Capability) (ns : UserNs) : Decidable (t.Able cap ns) :=
  inferInstanceAs (Decidable (_ ∧ (_ → _)))

/-- A mount namespace: the user namespace that owns it, and what is mounted. -/
structure MountNs (T : Type) where
  owner : UserNs
  table : T

/-- Processes and mount namespaces. -/
structure System (T : Type) where
  tasks : List Task
  mounts : ℕ → Option (MountNs T)

/-- What a process does. -/
inductive Act (T : Type) where
  | fork (child : ℕ)
  | exec (file : Executable)
  | capset (permitted effective inheritable : Finset Capability)
  | dropBounding (cap : Capability)
  | lowerAmbient (cap : Capability)
  | raiseAmbient (cap : Capability)
  /-- Change the user, with the capabilities that are left. -/
  | setuid (permitted effective ambient : Finset Capability)
  | noNewPrivs
  | addFilter (f : Filter)
  /-- Enter a new user namespace. -/
  | unshareUser (n : ℕ)
  /-- Enter a user namespace that exists. -/
  | enterUser (ns : UserNs)
  /-- Enter a new mount namespace, a copy of the present one. -/
  | unshareMounts (new : ℕ)
  | enterMounts (ns : ℕ)
  /-- Any call that changes what is mounted. -/
  | changeMounts (table : T)
  /-- Any other call. -/
  | other
  | exit

variable {T : Type}

/-- The process after the call, where the call is one that may succeed and that concerns the process
alone. -/
def Task.after (t : Task) : Act T → Option Task
  | .exec file => some { t with creds := t.creds.exec file }
  | .capset p e i => if t.creds.MayCapset p e i then some { t with creds := t.creds.capset p e i } else none
  | .dropBounding cap =>
    if .setpcap ∈ t.creds.effective then some { t with creds := t.creds.dropBounding cap } else none
  | .lowerAmbient cap => some { t with creds := t.creds.lowerAmbient cap }
  | .raiseAmbient cap =>
    if cap ∈ t.creds.permitted ∧ cap ∈ t.creds.inheritable then
      some { t with creds := t.creds.raiseAmbient cap }
    else none
  | .setuid p e a =>
    if p ⊆ t.creds.permitted ∧ e ⊆ p ∧ a ⊆ t.creds.ambient then
      some { t with creds := { t.creds with permitted := p, effective := e, ambient := a } }
    else none
  | .noNewPrivs => some { t with creds := { t.creds with noNewPrivs := true } }
  | .addFilter f =>
    if t.creds.noNewPrivs = true ∨ t.Able .sysAdmin t.userns then some { t with filters := f :: t.filters }
    else none
  | .unshareUser n => some { t with creds := .full, userns := t.userns ++ [n] }
  | .enterUser ns =>
    if t.userns <+: ns ∧ ns ≠ t.userns then some { t with creds := .full, userns := ns } else none
  | _ => some t

namespace System

/-- Replace the process with the pid. -/
def put (s : System T) (pid : ℕ) (t : Task) : System T :=
  { s with tasks := s.tasks.map fun u => if u.pid = pid then t else u }

/-- The mount namespace `id` becomes `ns`. -/
def setMounts (s : System T) (id : ℕ) (ns : MountNs T) : System T :=
  { s with mounts := fun i => if i = id then some ns else s.mounts i }

/-- What the system is after the process `t` has done something; `none` if the call fails. -/
def stepOf (s : System T) (t : Task) : Act T → Option (System T)
  | .fork child =>
    if child ∈ s.tasks.map Task.pid then none
    else some { s with tasks := { t with pid := child } :: s.tasks }
  | .unshareMounts new =>
    match s.mounts t.mountns, s.mounts new with
    | some ns, none =>
      if t.Able .sysAdmin t.userns then
        some ((s.put t.pid { t with mountns := new }).setMounts new ⟨t.userns, ns.table⟩)
      else none
    | _, _ => none
  | .enterMounts id =>
    match s.mounts id with
    | some ns =>
      if t.Able .sysAdmin ns.owner then some (s.put t.pid { t with mountns := id }) else none
    | none => none
  | .changeMounts table =>
    match s.mounts t.mountns with
    | some ns =>
      if t.Able .sysAdmin ns.owner then some (s.setMounts t.mountns ⟨ns.owner, table⟩) else none
    | none => none
  | .exit => some { s with tasks := s.tasks.filter fun u => u.pid ≠ t.pid }
  | a => (t.after a).map (s.put t.pid)

/-- A process makes a system call that its filters let run. -/
inductive Step (s : System T) : CallData → Act T → System T → Prop
  | mk {t : Task} {d : CallData} {a : Act T} {s' : System T} (ht : t ∈ s.tasks)
      (hd : (strictest t.filters d).Runs) (h : s.stepOf t a = some s') : Step s d a s'

/-- The systems that are reached from `s`, in any order of the processes. -/
inductive Reaches (s : System T) : System T → Prop
  | refl : Reaches s s
  | tail {s₁ s₂ : System T} {d : CallData} {a : Act T} (h : Reaches s s₁) (hstep : Step s₁ d a s₂) :
      Reaches s s₂

/-! ### What one step does -/

/-- What becomes of the processes in a step: each is one from before, possibly under another pid or in
another mount namespace, or what a call of its own made of it. -/
lemma stepOf_tasks {s s' : System T} {t : Task} {a : Act T} (ht : t ∈ s.tasks)
    (h : s.stepOf t a = some s') {u' : Task} (hu : u' ∈ s'.tasks) :
    (∃ u ∈ s.tasks, u'.creds = u.creds ∧ u'.userns = u.userns ∧ u'.filters = u.filters) ∨
      t.after a = some u' := by
  have hput : ∀ v u', u' ∈ (s.put t.pid v).tasks → u' = v ∨ u' ∈ s.tasks := by
    intro v u' hu'
    obtain ⟨w, hw, rfl⟩ := List.mem_map.mp hu'
    by_cases hp : w.pid = t.pid
    · rw [if_pos hp]
      exact .inl rfl
    · rw [if_neg hp]
      exact .inr hw
  have hsame : ∀ v : Task, v.creds = t.creds → v.userns = t.userns → v.filters = t.filters →
      ∀ u', u' ∈ (s.put t.pid v).tasks →
        ∃ u ∈ s.tasks, u'.creds = u.creds ∧ u'.userns = u.userns ∧ u'.filters = u.filters := by
    intro v hc hn hf u' hu'
    rcases hput v u' hu' with rfl | hmem
    · exact ⟨t, ht, hc, hn, hf⟩
    · exact ⟨u', hmem, rfl, rfl, rfl⟩
  cases a with
  | fork child =>
    simp only [stepOf] at h
    split at h
    · cases h
    · obtain rfl := Option.some.inj h
      rcases List.mem_cons.mp hu with rfl | hu
      · exact .inl ⟨t, ht, rfl, rfl, rfl⟩
      · exact .inl ⟨u', hu, rfl, rfl, rfl⟩
  | unshareMounts new =>
    simp only [stepOf] at h
    split at h
    · split at h
      · obtain rfl := Option.some.inj h
        exact .inl (hsame { t with mountns := new } rfl rfl rfl u' hu)
      · cases h
    · cases h
  | enterMounts id =>
    simp only [stepOf] at h
    split at h
    · split at h
      · obtain rfl := Option.some.inj h
        exact .inl (hsame { t with mountns := id } rfl rfl rfl u' hu)
      · cases h
    · cases h
  | changeMounts table =>
    simp only [stepOf] at h
    split at h
    · split at h
      · obtain rfl := Option.some.inj h
        exact .inl ⟨u', hu, rfl, rfl, rfl⟩
      · cases h
    · cases h
  | exit =>
    obtain rfl := Option.some.inj h
    exact .inl ⟨u', List.mem_of_mem_filter hu, rfl, rfl, rfl⟩
  | _ =>
    simp only [stepOf] at h
    obtain ⟨v, hv, rfl⟩ := Option.map_eq_some_iff.mp h
    rcases hput v u' hu with rfl | hmem
    · exact .inr hv
    · exact .inl ⟨u', hmem, rfl, rfl, rfl⟩

/-- What becomes of a mount namespace in a step: it stays, or a process that is able to mount in it
changes what is mounted. -/
lemma stepOf_mounts {s s' : System T} {t : Task} {a : Act T} (h : s.stepOf t a = some s') {id : ℕ}
    {ns : MountNs T} (hns : s.mounts id = some ns) :
    s'.mounts id = some ns ∨ t.mountns = id ∧ t.Able .sysAdmin ns.owner := by
  cases a with
  | fork child =>
    simp only [stepOf] at h
    split at h
    · cases h
    · obtain rfl := Option.some.inj h
      exact .inl hns
  | unshareMounts new =>
    simp only [stepOf] at h
    split at h
    case h_1 ns' hold hnew =>
      split at h
      · obtain rfl := Option.some.inj h
        have hne : id ≠ new := by
          rintro rfl
          rw [hns] at hnew
          cases hnew
        exact .inl ((if_neg hne).trans hns)
      · cases h
    case h_2 => cases h
  | enterMounts id' =>
    simp only [stepOf] at h
    split at h
    · split at h
      · obtain rfl := Option.some.inj h
        exact .inl hns
      · cases h
    · cases h
  | changeMounts table =>
    simp only [stepOf] at h
    split at h
    case h_1 ns' hold =>
      split at h
      case isTrue hable =>
        obtain rfl := Option.some.inj h
        by_cases hid : id = t.mountns
        · subst hid
          rw [hns] at hold
          obtain rfl := Option.some.inj hold
          exact .inr ⟨rfl, hable⟩
        · exact .inl ((if_neg hid).trans hns)
      case isFalse => cases h
    case h_2 => cases h
  | exit =>
    obtain rfl := Option.some.inj h
    exact .inl hns
  | _ =>
    simp only [stepOf] at h
    obtain ⟨v, -, rfl⟩ := Option.map_eq_some_iff.mp h
    exact .inl hns

/-! ### Capabilities that stay lacking -/

end System

/-- In the first user namespace, the process has none of the capabilities in any of its sets. -/
def Task.Lacks (D : Finset Capability) (t : Task) : Prop := t.userns = [] → t.creds.Lacks D

/-- **No call of its own** gives a process what it lacks.

**Proof sketch.** A call that stays in the user namespace changes the credentials by one of the rules
for them, each of which gives nothing that is in none of the sets; a process that has left the first
user namespace does not come back to it. -/
lemma Task.Lacks.after {D : Finset Capability} {t t' : Task} {a : Act T} (hl : t.Lacks D)
    (h : t.after a = some t') : t'.Lacks D := by
  intro hroot
  cases a with
  | exec file =>
    obtain rfl := Option.some.inj h
    exact (hl hroot).exec file
  | capset p e i =>
    simp only [Task.after] at h
    split at h
    case isTrue hmay =>
      obtain rfl := Option.some.inj h
      exact (hl hroot).capset hmay
    case isFalse => cases h
  | dropBounding cap =>
    simp only [Task.after] at h
    split at h
    · obtain rfl := Option.some.inj h
      exact (hl hroot).dropBounding cap
    · cases h
  | lowerAmbient cap =>
    obtain rfl := Option.some.inj h
    exact (hl hroot).lowerAmbient cap
  | raiseAmbient cap =>
    simp only [Task.after] at h
    split at h
    case isTrue hcap =>
      obtain rfl := Option.some.inj h
      exact (hl hroot).raiseAmbient hcap.1
    case isFalse => cases h
  | setuid p e a =>
    simp only [Task.after] at h
    split at h
    case isTrue hsub =>
      obtain rfl := Option.some.inj h
      obtain ⟨hp, he, ha⟩ := hsub
      have hc := hl hroot
      exact ⟨hc.permitted.mono_right hp, hc.permitted.mono_right (he.trans hp), hc.inheritable,
        hc.bounding, hc.ambient.mono_right ha⟩
    case isFalse => cases h
  | noNewPrivs =>
    obtain rfl := Option.some.inj h
    have hc := hl hroot
    exact ⟨hc.permitted, hc.effective, hc.inheritable, hc.bounding, hc.ambient⟩
  | addFilter f =>
    simp only [Task.after] at h
    split at h
    · obtain rfl := Option.some.inj h
      exact hl hroot
    · cases h
  | unshareUser n =>
    obtain rfl := Option.some.inj h
    exact absurd hroot (List.append_ne_nil_of_right_ne_nil _ (List.cons_ne_nil _ _))
  | enterUser ns =>
    simp only [Task.after] at h
    split at h
    case isTrue hns =>
      obtain rfl := Option.some.inj h
      obtain rfl : ns = [] := hroot
      exact absurd (List.prefix_nil.mp hns.1).symm hns.2
    case isFalse => cases h
  | _ =>
    obtain rfl := Option.some.inj h
    exact hl hroot

/-- No call removes a filter. -/
lemma Task.filters_after {t t' : Task} {a : Act T} (h : t.after a = some t') :
    t.filters ⊆ t'.filters := by
  cases a with
  | capset p e i =>
    simp only [Task.after] at h
    split at h
    · obtain rfl := Option.some.inj h
      exact List.Subset.refl _
    · cases h
  | dropBounding cap =>
    simp only [Task.after] at h
    split at h
    · obtain rfl := Option.some.inj h
      exact List.Subset.refl _
    · cases h
  | raiseAmbient cap =>
    simp only [Task.after] at h
    split at h
    · obtain rfl := Option.some.inj h
      exact List.Subset.refl _
    · cases h
  | setuid p e a =>
    simp only [Task.after] at h
    split at h
    · obtain rfl := Option.some.inj h
      exact List.Subset.refl _
    · cases h
  | addFilter f =>
    simp only [Task.after] at h
    split at h
    · obtain rfl := Option.some.inj h
      exact List.subset_cons_self _ _
    · cases h
  | enterUser ns =>
    simp only [Task.after] at h
    split at h
    · obtain rfl := Option.some.inj h
      exact List.Subset.refl _
    · cases h
  | _ =>
    obtain rfl := Option.some.inj h
    exact List.Subset.refl _

/-- A process that lacks the capability is not able to use it over the first user namespace. -/
lemma Task.Lacks.not_able {D : Finset Capability} {t : Task} {cap : Capability} (hl : t.Lacks D)
    (hcap : cap ∈ D) : ¬ t.Able cap [] := by
  rintro ⟨hns, heff⟩
  have hroot : t.userns = [] := List.prefix_nil.mp hns
  exact Finset.disjoint_left.mp (hl hroot).effective hcap (heff hroot.symm)

namespace System

variable {s s' : System T} {D : Finset Capability}

/-! ### What holds of every system that is reached -/

namespace Reaches

/-- **Capabilities stay lacking**, whatever the processes execute and in whatever order. -/
theorem lacks (h : s.Reaches s') (hs : ∀ t ∈ s.tasks, t.Lacks D) : ∀ t ∈ s'.tasks, t.Lacks D := by
  induction h with
  | refl => exact hs
  | tail _ hstep ih =>
    obtain ⟨ht, -, h⟩ := hstep
    intro u' hu'
    rcases stepOf_tasks ht h hu' with ⟨u, hu, hc, hn, -⟩ | hafter
    · intro hroot
      rw [hc]
      exact ih u hu (hn ▸ hroot)
    · exact (ih _ ht).after hafter

/-- **The mounts stay** in a namespace that the first user namespace owns, when all its processes lack
the capability to mount. -/
theorem table (h : s.Reaches s') (hs : ∀ t ∈ s.tasks, t.Lacks D) (hD : .sysAdmin ∈ D) {id : ℕ} {table : T}
    (hid : s.mounts id = some ⟨[], table⟩) : s'.mounts id = some ⟨[], table⟩ := by
  induction h with
  | refl => exact hid
  | tail hbefore hstep ih =>
    obtain ⟨ht, -, h⟩ := hstep
    rcases stepOf_mounts h ih with hstay | ⟨-, hable⟩
    · exact hstay
    · exact absurd hable ((hbefore.lacks hs _ ht).not_able hD)

/-- **A filter stays** with every process. -/
theorem filtered {f : Filter} (h : s.Reaches s') (hs : ∀ t ∈ s.tasks, f ∈ t.filters) :
    ∀ t ∈ s'.tasks, f ∈ t.filters := by
  induction h with
  | refl => exact hs
  | tail _ hstep ih =>
    obtain ⟨ht, -, h⟩ := hstep
    intro u' hu'
    rcases stepOf_tasks ht h hu' with ⟨u, hu, -, -, hf⟩ | hafter
    · rw [hf]
      exact ih u hu
    · exact Task.filters_after hafter (ih _ ht)

end Reaches

end System

end Linux
