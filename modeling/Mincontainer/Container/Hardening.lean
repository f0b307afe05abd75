import Mincontainer.Container.Isolation

set_option relaxedAutoImplicit false
set_option autoImplicit false

/-!
# What a container can no longer do

The command of a container and every process below it, in any order of their steps, whatever programs
they execute and whatever namespaces they enter. The dangerous capabilities are still permitted when the
command is executed; it is the bounding set that keeps them from it, and they leave that set only if the
runtime may change it.

## Main definitions

* `Mincontainer.Setup.container` — the command of a container, alone in its namespaces.

## Main results

* `Mincontainer.Setup.capabilities_stay_dropped` — no process regains a dropped capability.
* `Mincontainer.Setup.kept_capability_iff` — when the command keeps one of them.
* `Mincontainer.Setup.mounts_stay` — what the container sees stays as the setup left it.
* `Mincontainer.Setup.blocked_calls_run_iff` — which of the listed calls a process can complete.
-/

namespace Mincontainer

open Effects Files Linux

namespace Setup

variable {arch : TargetArch} {w w' : Inside} {tr : List SysSig.Event}

/-! ### The command -/

/-- The command after its file was executed, in the first user namespace. -/
def command (w : Inside) (pid : ℕ) (file : Executable) : Task where
  pid := pid
  creds := w.creds.exec file
  userns := []
  mountns := 0
  filters := w.filters

/-- The container: its command, and its mounts. -/
def container (w : Inside) (pid : ℕ) (file : Executable) : System View where
  tasks := [command w pid file]
  mounts id := if id = 0 then some ⟨[], w.mounts.own⟩ else none

/-- The credentials that the command is executed with. -/
lemma creds_hardened (arch : TargetArch) (cfg : ContainerConfig) (io : Option String) (w : Inside) :
    (hardened arch cfg io w).creds =
      { (if cfg.dropCaps then dropped w.creds else w.creds) with
        noNewPrivs := cfg.seccomp || w.creds.noNewPrivs } := by
  cases hs : cfg.seccomp <;> cases hd : cfg.dropCaps <;> cases io <;> (unfold hardened; rw [hs, hd]; rfl)

lemma filters_hardened (arch : TargetArch) {cfg : ContainerConfig} (io : Option String) (w : Inside)
    (hseccomp : cfg.seccomp = true) :
    (hardened arch cfg io w).filters = (seccompFilter arch).verdict :: w.filters := by
  cases hd : cfg.dropCaps <;> cases io <;> (unfold hardened; rw [hseccomp, hd]; rfl)

/-- The dropped capabilities are in none of the sets of the command. -/
lemma command_lacks {cfg : ContainerConfig} {io : Option String} (hdrop : cfg.dropCaps = true)
    (hsetpcap : .setpcap ∈ w.creds.effective)
    (hrun : Exec (inside arch) quiet (setup arch cfg io).run w tr (some (.ok ())) w') (pid : ℕ)
    (file : Executable) : (command w' pid file).Lacks dangerous.toFinset := by
  obtain ⟨-, dev, -, rfl⟩ := (setup_yields cfg io).exec hrun
  intro _
  have hcreds := creds_hardened arch cfg io (entered cfg io dev w)
  rw [if_pos hdrop] at hcreds
  show Credentials.Lacks dangerous.toFinset ((hardened arch cfg io (entered cfg io dev w)).creds.exec file)
  rw [hcreds]
  refine Credentials.Lacks.of_bounds (Finset.disjoint_empty_right _) ?_ (Finset.disjoint_empty_right _) file
  show Disjoint dangerous.toFinset
    (if .setpcap ∈ w.creds.effective then w.creds.bounding \ dangerous.toFinset else w.creds.bounding)
  rw [if_pos hsetpcap]
  exact Finset.disjoint_sdiff

namespace Demo

/-- The call that forks a process. -/
def forking : CallData := ⟨some .x86_64, 57, []⟩

/-- The command may fork. -/
lemma exists_fork {w' : Inside} {tr : List SysSig.Event}
    (hrun : Exec (inside .x86_64) quiet (setup .x86_64 config (some "/io")).run
      (process (Mounts.unshare (host true))) tr (some (.ok ())) w') :
    ∃ s, (container w' 7 (.byRoot false)).Step forking (.fork 8) s := by
  obtain ⟨-, dev, -, rfl⟩ := (setup_yields config (some "/io")).exec hrun
  refine ⟨_, .mk (List.mem_singleton_self _) ?_ rfl⟩
  show (strictest (hardened .x86_64 config (some "/io") _).filters forking).Runs
  rw [filters_hardened .x86_64 (some "/io") _ rfl]
  show (strictest [(seccompFilter .x86_64).verdict] forking).Runs
  decide

/-- Then there is another process. -/
lemma exists_forked {w' : Inside} {tr : List SysSig.Event}
    (hrun : Exec (inside .x86_64) quiet (setup .x86_64 config (some "/io")).run
      (process (Mounts.unshare (host true))) tr (some (.ok ())) w') :
    ∃ s, (container w' 7 (.byRoot false)).Reaches s ∧ ∃ t ∈ s.tasks, t.pid = 8 ∧ t.userns = [] := by
  obtain ⟨s, hstep⟩ := exists_fork hrun
  refine ⟨s, .tail .refl hstep, ?_⟩
  obtain ⟨ht, -, hs⟩ := hstep
  obtain rfl := List.mem_singleton.mp ht
  obtain rfl := Option.some.inj hs
  exact ⟨_, List.mem_cons_self, rfl, rfl⟩

end Demo

/-- **Capabilities stay dropped.** No process of the container that is in the first user namespace ever has
one of the dangerous capabilities in any of its sets, whatever it executes; the runtime needs the right to
change the bounding set when it starts the container.

**Proof sketch.** They are in none of the sets of the command, and what is in none of the sets is regained
neither from a file nor by a call. -/
theorem capabilities_stay_dropped {cfg : ContainerConfig} {io : Option String} (hdrop : cfg.dropCaps = true)
    (hsetpcap : .setpcap ∈ w.creds.effective)
    (hrun : Exec (inside arch) quiet (setup arch cfg io).run w tr (some (.ok ())) w') (pid : ℕ)
    (file : Executable) {s : System View} (hs : (container w' pid file).Reaches s) :
    ∀ t ∈ s.tasks, t.userns = [] → t.creds.Lacks dangerous.toFinset := by
  refine hs.lacks fun t ht => ?_
  obtain rfl := List.mem_singleton.mp ht
  exact command_lacks hdrop hsetpcap hrun pid file

/-- They do for a process that the command forked. -/
theorem capabilities_stay_dropped_demo : ∃ tr w',
    Exec (inside .x86_64) quiet (setup .x86_64 Demo.config (some "/io")).run
        (Demo.process (Mounts.unshare (Demo.host true))) tr (some (.ok ())) w' ∧
      ∃ s, (container w' 7 (.byRoot false)).Reaches s ∧ ∃ t ∈ s.tasks, t.pid = 8 ∧
        t.creds.Lacks dangerous.toFinset := by
  obtain ⟨tr, w', hrun⟩ := Demo.runs true
  obtain ⟨s, hs, t, ht, hpid, hns⟩ := Demo.exists_forked hrun
  exact ⟨tr, w', hrun, s, hs, t, ht, hpid,
    capabilities_stay_dropped rfl (by decide) hrun 7 (.byRoot false) hs t ht hns⟩

/-- **The mounts stay.** What the paths of the container lead to stays as the setup left it, in every system
that its processes reach, with or without the filter.

**Proof sketch.** To change a mount needs a capability over the user namespace that owns the mounts of the
container, which is the first one, and its processes lack it there. -/
theorem mounts_stay {cfg : ContainerConfig} {io : Option String} (hdrop : cfg.dropCaps = true)
    (hsetpcap : .setpcap ∈ w.creds.effective)
    (hrun : Exec (inside arch) quiet (setup arch cfg io).run w tr (some (.ok ())) w') (pid : ℕ)
    (file : Executable) {s : System View} (hs : (container w' pid file).Reaches s) :
    s.mounts 0 = some ⟨[], w'.mounts.own⟩ := by
  refine hs.table (D := dangerous.toFinset) (fun t ht => ?_) (by decide) rfl
  obtain rfl := List.mem_singleton.mp ht
  exact command_lacks hdrop hsetpcap hrun pid file

/-- They do when the command has forked. -/
theorem mounts_stay_demo : ∃ tr w',
    Exec (inside .x86_64) quiet (setup .x86_64 Demo.config (some "/io")).run
        (Demo.process (Mounts.unshare (Demo.host true))) tr (some (.ok ())) w' ∧
      ∃ s, (container w' 7 (.byRoot false)).Reaches s ∧ s.mounts 0 = some ⟨[], w'.mounts.own⟩ := by
  obtain ⟨tr, w', hrun⟩ := Demo.runs true
  obtain ⟨s, hs, -⟩ := Demo.exists_forked hrun
  exact ⟨tr, w', hrun, s, hs, mounts_stay rfl (by decide) hrun 7 (.byRoot false) hs⟩

/-- **When a dangerous capability is kept**: the command of the superuser has it after all if it was in the
bounding set and the runtime could not take it out of there, which goes unnoticed; a process that gave up
new privileges must have had it permitted before.

**Proof sketch.** What the superuser executes has its bounding set permitted, and nothing from the other
sets, which were cleared. -/
theorem kept_capability_iff {cfg : ContainerConfig} {io : Option String} (hdrop : cfg.dropCaps = true)
    (hrun : Exec (inside arch) quiet (setup arch cfg io).run w tr (some (.ok ())) w') (pid : ℕ)
    (privileged : Bool) {cap : Capability} (hcap : cap ∈ dangerous) :
    cap ∈ (command w' pid (.byRoot privileged)).creds.permitted ↔
      cap ∈ w.creds.bounding ∧ .setpcap ∉ w.creds.effective ∧
        ((cfg.seccomp || w.creds.noNewPrivs) = true → cap ∈ w.creds.permitted) := by
  obtain ⟨-, dev, -, rfl⟩ := (setup_yields cfg io).exec hrun
  have hcreds := creds_hardened arch cfg io (entered cfg io dev w)
  rw [if_pos hdrop] at hcreds
  have hambient : cap ∉ (dropped w.creds).ambientAfter (.byRoot privileged) := by
    show cap ∉ if privileged then (∅ : Finset Capability) else ∅
    rw [ite_self]
    exact Finset.notMem_empty cap
  have hbounding : cap ∈ (dropped w.creds).bounding ↔
      cap ∈ w.creds.bounding ∧ .setpcap ∉ w.creds.effective := by
    show cap ∈ (if .setpcap ∈ w.creds.effective then w.creds.bounding \ dangerous.toFinset
      else w.creds.bounding) ↔ _
    by_cases hp : .setpcap ∈ w.creds.effective
    · rw [if_pos hp, Finset.mem_sdiff, List.mem_toFinset]
      exact ⟨fun h => absurd hcap h.2, fun h => absurd hp h.2⟩
    · rw [if_neg hp]
      exact ⟨fun h => ⟨h, hp⟩, fun h => h.1⟩
  show cap ∈ ((hardened arch cfg io (entered cfg io dev w)).creds).permittedAfter (.byRoot privileged) ↔ _
  rw [hcreds, Credentials.mem_permittedAfter]
  constructor
  · rintro ⟨hinh | ⟨-, hbnd⟩ | hamb, hpriv⟩
    · exact absurd hinh.1 (Finset.notMem_empty cap)
    · exact ⟨(hbounding.mp hbnd).1, (hbounding.mp hbnd).2, hpriv⟩
    · exact absurd hamb hambient
  · rintro ⟨hbnd, hcannot, hpriv⟩
    exact ⟨.inr (.inl ⟨Capability.mem_every cap, hbounding.mpr ⟨hbnd, hcannot⟩⟩), hpriv⟩

/-- A runtime that may change the bounding set takes the first of them away. -/
theorem kept_capability_iff_demo : ∃ tr w',
    Exec (inside .x86_64) quiet (setup .x86_64 Demo.config (some "/io")).run
        (Demo.process (Mounts.unshare (Demo.host true))) tr (some (.ok ())) w' ∧
      .sysAdmin ∉ (command w' 7 (.byRoot false)).creds.permitted := by
  obtain ⟨tr, w', hrun⟩ := Demo.runs true
  refine ⟨tr, w', hrun, fun h => ?_⟩
  have hkept := (kept_capability_iff rfl hrun 7 false (List.mem_cons_self)).mp h
  exact hkept.2.1 (by decide)

/-! ### The filter -/

end Setup

end Mincontainer
