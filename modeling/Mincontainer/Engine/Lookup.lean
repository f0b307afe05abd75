import Mincontainer.Effects.Reports
import Mincontainer.Engine.RestorePhases

set_option relaxedAutoImplicit false
set_option autoImplicit false

/-!
# Which snapshot is found

Two places look for the snapshot of a container: a restore resolves it, and a reconciliation asks
whether there is one. Both take the one that the record names if it is a file, and the latest
otherwise; a text in the record is taken from the working directory of whoever asks.

## Main definitions

* `Mincontainer.Host.recorded` — the snapshot that the record names, if it is on disk.
* `Mincontainer.Host.lookup` — that one, or else the latest.

## Main results

* `Mincontainer.Restore.resolveSnapshot_reports` — what a restore without `--from` resolves.
* `Mincontainer.Restore.hasSnapshot_reports` — what a reconciliation is told.
-/

namespace Mincontainer

open Effects Files Bytes Snapshot

/-- The snapshot that the record names, if it is on disk. -/
def Host.recorded (h : Host) (env : Env) (st : ContainerState) : Option PathBuf :=
  st.snapshot.bind fun text =>
    if h.kind (resolve env.cwd text) = some .file then some ⟨text, env.cwd⟩ else none

/-- The snapshot that the record names, if it is on disk; or else the latest. -/
def Host.lookup (h : Host) (env : Env) (dir : ContainerStateDir) (st : ContainerState) :
    Option PathBuf :=
  match h.recorded env st with
  | some b => some b
  | none =>
    if h.kind (dir.snapshotFile "latest") = some .file then
      some (PathBuf.ofPath (dir.snapshotFile "latest"))
    else none

/-- The lookup depends on which paths are regular files. -/
lemma Host.lookup_congr {g h : Host} {env : Env} {dir : ContainerStateDir} {st : ContainerState}
    (hkind : ∀ p, g.kind p = some .file ↔ h.kind p = some .file) :
    g.lookup env dir st = h.lookup env dir st := by
  have hrec : g.recorded env st = h.recorded env st := by simp only [Host.recorded, hkind]
  simp only [Host.lookup, hrec, hkind]

namespace Restore

variable {env : Env} {dir : ContainerStateDir} {st : ContainerState} {h : Host}

/-- A question about a path has one answer. -/
lemma stat_reports {p : Path} {α : Type} {f : Option Kind → HostM α} {res : Except RuntimeError α}
    (hf : Reports machine (f (h.kind p)).run h res) :
    Reports machine (sys (.stat p) >>= f).run h res := by
  rw [sys, Fallible.run_sys_bind]
  refine Reports.call (r := h.kind p) ?_ (fun r hr => ?_) rfl hf
  · exact Host.enabled_stat.mpr rfl
  · exact Host.enabled_stat.mp hr

lemma isFile_reports (p : Path) :
    Reports machine (isFile p).run h (.ok (decide (h.kind p = some .file))) := by
  refine stat_reports ?_
  rw [beq_eq_decide]
  exact Reports.ret _ _

/-- The first look of a restore: the snapshot that the record names, if it is there. -/
def lookRecorded (env : Env) (st : ContainerState) : HostM (Option PathBuf) :=
  match st.snapshot with
  | some text => do
    let b : PathBuf := ⟨text, env.cwd⟩
    let there ← isFile b.path
    pure (if there then some b else none)
  | none => pure none

lemma lookRecorded_reports :
    Reports machine (lookRecorded env st).run h (.ok (h.recorded env st)) := by
  rw [lookRecorded, Host.recorded]
  cases st.snapshot with
  | none => exact Reports.ret _ _
  | some text =>
    have hfile := isFile_reports (h := h) (resolve env.cwd text)
    dsimp only [Option.bind_some]
    by_cases hkind : h.kind (resolve env.cwd text) = some .file
    · rw [decide_eq_true hkind] at hfile
      rw [if_pos hkind]
      exact Reports.bind hfile (Reports.ret _ _)
    · rw [decide_eq_false hkind] at hfile
      rw [if_neg hkind]
      exact Reports.bind hfile (Reports.ret _ _)

/-- **What a restore resolves.** Without a snapshot asked for, a restore resolves the one that the
lookup finds; it fails when there is none. -/
lemma resolveSnapshot_reports {opts : Options} (hopts : opts.from_ = none) :
    (∃ b, h.lookup env dir st = some b ∧
        Reports machine (resolveSnapshot env dir st opts).run h (.ok b)) ∨
      h.lookup env dir st = none ∧
        ∃ e, Reports machine (resolveSnapshot env dir st opts).run h (.error e) := by
  rw [resolveSnapshot, hopts, Host.lookup]
  have hfirst := @lookRecorded_reports env st h
  have hlast := isFile_reports (h := h) (dir.snapshotFile "latest")
  cases hrec : h.recorded env st with
  | some b =>
    rw [hrec] at hfirst
    exact .inl ⟨b, rfl, Reports.bind hfirst (Reports.ret _ _)⟩
  | none =>
    rw [hrec] at hfirst
    by_cases hlatest : h.kind (dir.snapshotFile "latest") = some .file
    · rw [decide_eq_true hlatest] at hlast
      exact .inl ⟨_, if_pos hlatest, Reports.bind hfirst (Reports.bind hlast (Reports.ret _ _))⟩
    · rw [decide_eq_false hlatest] at hlast
      exact .inr ⟨if_neg hlatest, _, Reports.bind hfirst (Reports.bind hlast (Reports.ret _ _))⟩

/-- **What a reconciliation is told.** Whether the lookup finds a snapshot. -/
lemma hasSnapshot_reports :
    Reports machine (hasSnapshot env dir st).run h (.ok (h.lookup env dir st).isSome) := by
  have hlast : Reports machine (isFile (dir.snapshotFile "latest")).run h
      (.ok (if h.kind (dir.snapshotFile "latest") = some .file then
        some (PathBuf.ofPath (dir.snapshotFile "latest")) else none).isSome) := by
    have hfile := isFile_reports (h := h) (dir.snapshotFile "latest")
    split <;> simp_all
  rw [Host.lookup, Host.recorded, hasSnapshot]
  cases st.snapshot with
  | none => exact Reports.bind (Reports.ret _ _) hlast
  | some text =>
    have hfile := isFile_reports (h := h) (resolve env.cwd text)
    dsimp only [Option.bind_some]
    by_cases hkind : h.kind (resolve env.cwd text) = some .file
    · rw [decide_eq_true hkind] at hfile
      rw [if_pos hkind]
      exact Reports.bind hfile (Reports.ret _ _)
    · rw [decide_eq_false hkind] at hfile
      rw [if_neg hkind]
      exact Reports.bind hfile hlast

end Restore

end Mincontainer
