import Mathlib.Data.Finset.Basic
import Mathlib.Data.Finset.Dedup
import Mathlib.Tactic.Lemma

set_option relaxedAutoImplicit false
set_option autoImplicit false

/-!
# Capabilities of a process

The five sets of capabilities of a process and what the system calls make of them: the rules for
`execve`, `capset` and the `prctl` calls. A program file adds to what a process has only within its
bounding set, and a process that gives up new privileges gains none from any file.

## Main definitions

* `Linux.Capability` — the capabilities.
* `Linux.Credentials` — the capability sets of a process.
* `Linux.Credentials.exec` — the credentials after a program file was executed.
* `Linux.Credentials.Lacks` — capabilities that are in none of the sets.

## Main results

* `Linux.Credentials.Lacks.exec`, `Linux.Credentials.Lacks.capset` — what is in none of the sets
  is regained neither from a file nor by a call.
-/

namespace Linux

/-- The capabilities. -/
inductive Capability where
  | chown | dacOverride | dacReadSearch | fowner | fsetid | kill | setgid | setuid | setpcap
  | linuxImmutable | netBindService | netBroadcast | netAdmin | netRaw | ipcLock | ipcOwner
  | sysModule | sysRawio | sysChroot | sysPtrace | sysPacct | sysAdmin | sysBoot | sysNice
  | sysResource | sysTime | sysTtyConfig | mknod | lease | auditWrite | auditControl | setfcap
  | macOverride | macAdmin | syslog | wakeAlarm | blockSuspend | auditRead | perfmon | bpf
  | checkpointRestore
deriving DecidableEq, Repr

/-- The capabilities in the order of their numbers. -/
def Capability.all : List Capability :=
  [.chown, .dacOverride, .dacReadSearch, .fowner, .fsetid, .kill, .setgid, .setuid, .setpcap,
    .linuxImmutable, .netBindService, .netBroadcast, .netAdmin, .netRaw, .ipcLock, .ipcOwner,
    .sysModule, .sysRawio, .sysChroot, .sysPtrace, .sysPacct, .sysAdmin, .sysBoot, .sysNice,
    .sysResource, .sysTime, .sysTtyConfig, .mknod, .lease, .auditWrite, .auditControl, .setfcap,
    .macOverride, .macAdmin, .syslog, .wakeAlarm, .blockSuspend, .auditRead, .perfmon, .bpf,
    .checkpointRestore]

/-- All capabilities. -/
def Capability.every : Finset Capability := Capability.all.toFinset

@[simp] lemma Capability.mem_every (c : Capability) : c ∈ Capability.every :=
  List.mem_toFinset.mpr (by cases c <;> decide)

/-- The capability sets of a process. -/
structure Credentials where
  permitted : Finset Capability
  effective : Finset Capability
  inheritable : Finset Capability
  bounding : Finset Capability
  ambient : Finset Capability
  /-- No file gives the process more than it has. -/
  noNewPrivs : Bool
deriving DecidableEq

/-- The capabilities of a program file. -/
structure Executable where
  permitted : Finset Capability
  inheritable : Finset Capability
  effective : Bool
  /-- The file changes the user, or has capabilities of its own. -/
  privileged : Bool
deriving DecidableEq

/-- How a file counts that the superuser executes, and one that makes its user the superuser. -/
def Executable.byRoot (privileged : Bool) : Executable :=
  ⟨Capability.every, Capability.every, true, privileged⟩

namespace Credentials

/-- Everything, as for the first process of the machine, or of a user namespace. -/
def full : Credentials := ⟨Capability.every, Capability.every, ∅, Capability.every, ∅, false⟩

/-- The ambient capabilities after executing the file. -/
def ambientAfter (c : Credentials) (f : Executable) : Finset Capability :=
  if f.privileged then ∅ else c.ambient

/-- The permitted capabilities after executing the file. -/
def permittedAfter (c : Credentials) (f : Executable) : Finset Capability :=
  let gained := c.inheritable ∩ f.inheritable ∪ f.permitted ∩ c.bounding ∪ c.ambientAfter f
  if c.noNewPrivs then gained ∩ c.permitted else gained

/-- The credentials after executing the file. -/
def exec (c : Credentials) (f : Executable) : Credentials :=
  { c with
    permitted := c.permittedAfter f
    effective := if f.effective then c.permittedAfter f else c.ambientAfter f
    ambient := c.ambientAfter f }

/-- **What a file leaves permitted**: what it adds, if no new privileges were given up or it was permitted
before. -/
lemma mem_permittedAfter (c : Credentials) (f : Executable) (cap : Capability) :
    cap ∈ c.permittedAfter f ↔
      (cap ∈ c.inheritable ∧ cap ∈ f.inheritable ∨ cap ∈ f.permitted ∧ cap ∈ c.bounding ∨
          cap ∈ c.ambientAfter f) ∧
        (c.noNewPrivs = true → cap ∈ c.permitted) := by
  unfold permittedAfter
  by_cases hn : c.noNewPrivs = true
  · simp only [hn, if_true, Finset.mem_inter, Finset.mem_union, or_assoc, true_imp_iff]
  · simp only [hn, Finset.mem_inter, Finset.mem_union, or_assoc, false_imp_iff, and_true,
      Bool.false_eq_true, if_false]

/-- The sets that `capset` may be given. -/
def MayCapset (c : Credentials) (permitted effective inheritable : Finset Capability) : Prop :=
  permitted ⊆ c.permitted ∧ effective ⊆ permitted ∧
    inheritable ⊆ c.inheritable ∪ c.bounding ∧
    (.setpcap ∈ c.effective ∨ inheritable ⊆ c.inheritable ∪ c.permitted)

instance (c : Credentials) (p e i : Finset Capability) : Decidable (c.MayCapset p e i) :=
  inferInstanceAs (Decidable (_ ∧ _ ∧ _ ∧ (_ ∨ _)))

/-- Set the permitted, effective and inheritable capabilities; what is no longer permitted and
inheritable is no longer ambient. -/
def capset (c : Credentials) (permitted effective inheritable : Finset Capability) : Credentials :=
  { c with
    permitted := permitted
    effective := effective
    inheritable := inheritable
    ambient := c.ambient ∩ (permitted ∩ inheritable) }

/-- Take a capability out of the bounding set. -/
def dropBounding (c : Credentials) (cap : Capability) : Credentials :=
  { c with bounding := c.bounding.erase cap }

/-- Take a capability out of the ambient set. -/
def lowerAmbient (c : Credentials) (cap : Capability) : Credentials :=
  { c with ambient := c.ambient.erase cap }

/-- Put a capability into the ambient set. -/
def raiseAmbient (c : Credentials) (cap : Capability) : Credentials :=
  { c with ambient := insert cap c.ambient }

/-- None of the capabilities is in any of the sets. -/
structure Lacks (D : Finset Capability) (c : Credentials) : Prop where
  permitted : Disjoint D c.permitted
  effective : Disjoint D c.effective
  inheritable : Disjoint D c.inheritable
  bounding : Disjoint D c.bounding
  ambient : Disjoint D c.ambient

namespace Lacks

variable {D : Finset Capability} {c : Credentials}

lemma ambientAfter (h : Disjoint D c.ambient) (f : Executable) : Disjoint D (c.ambientAfter f) := by
  unfold Credentials.ambientAfter
  by_cases hp : f.privileged = true
  · rw [if_pos hp]
    exact Finset.disjoint_empty_right D
  · rw [if_neg hp]
    exact h

/-- **Files give nothing** that is neither inheritable nor in the bounding set.

**Proof sketch.** The permitted set of the file counts only within the bounding set, and its
inheritable set only within the one of the process. -/
lemma of_bounds (hinh : Disjoint D c.inheritable) (hbnd : Disjoint D c.bounding)
    (hamb : Disjoint D c.ambient) (f : Executable) : (c.exec f).Lacks D := by
  have ha : Disjoint D (c.ambientAfter f) := ambientAfter hamb f
  have hgained : Disjoint D (c.inheritable ∩ f.inheritable ∪ f.permitted ∩ c.bounding ∪ c.ambientAfter f) := by
    rw [Finset.disjoint_union_right, Finset.disjoint_union_right]
    exact ⟨⟨hinh.mono_right Finset.inter_subset_left, hbnd.mono_right Finset.inter_subset_right⟩, ha⟩
  have hp : Disjoint D (c.permittedAfter f) := by
    unfold permittedAfter
    by_cases hn : c.noNewPrivs = true
    · rw [if_pos hn]
      exact hgained.mono_right Finset.inter_subset_left
    · rw [if_neg hn]
      exact hgained
  refine ⟨hp, ?_, hinh, hbnd, ha⟩
  show Disjoint D (if f.effective then c.permittedAfter f else c.ambientAfter f)
  by_cases he : f.effective = true
  · rw [if_pos he]
    exact hp
  · rw [if_neg he]
    exact ha

lemma exec (h : c.Lacks D) (f : Executable) : (c.exec f).Lacks D :=
  of_bounds h.inheritable h.bounding h.ambient f

lemma capset {p e i : Finset Capability} (h : c.Lacks D) (hmay : c.MayCapset p e i) :
    (c.capset p e i).Lacks D := by
  obtain ⟨hp, he, hi, -⟩ := hmay
  have hinh : Disjoint D i := by
    refine Disjoint.mono_right hi ?_
    rw [Finset.disjoint_union_right]
    exact ⟨h.inheritable, h.bounding⟩
  exact ⟨h.permitted.mono_right hp, h.permitted.mono_right (he.trans hp), hinh, h.bounding,
    h.ambient.mono_right Finset.inter_subset_left⟩

lemma dropBounding (h : c.Lacks D) (cap : Capability) : (c.dropBounding cap).Lacks D :=
  ⟨h.permitted, h.effective, h.inheritable, h.bounding.mono_right (Finset.erase_subset _ _), h.ambient⟩

lemma lowerAmbient (h : c.Lacks D) (cap : Capability) : (c.lowerAmbient cap).Lacks D :=
  ⟨h.permitted, h.effective, h.inheritable, h.bounding, h.ambient.mono_right (Finset.erase_subset _ _)⟩

lemma raiseAmbient {cap : Capability} (h : c.Lacks D) (hcap : cap ∈ c.permitted) :
    (c.raiseAmbient cap).Lacks D := by
  refine ⟨h.permitted, h.effective, h.inheritable, h.bounding, ?_⟩
  show Disjoint D (insert cap c.ambient)
  rw [Finset.disjoint_insert_right]
  exact ⟨fun hD => Finset.disjoint_left.mp h.permitted hD hcap, h.ambient⟩

end Lacks

end Credentials

end Linux
