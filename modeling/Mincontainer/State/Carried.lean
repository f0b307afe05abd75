import Mincontainer.Effects.Monitor
import Mincontainer.Engine.RestorePhases

set_option relaxedAutoImplicit false
set_option autoImplicit false

/-!
# What is carried from record to record

Whoever changes a record reads it first and writes it back, changed in a few fields. A property that the
change keeps is carried over: if the records that are read have it, those that are written have it.

## Main definitions

* `Mincontainer.CarriesOver` — a property of records that replies bring in and calls may write.

## Main results

* `Mincontainer.CarriesOver.update`, `Mincontainer.CarriesOver.stamp` — changing a record.
* `Mincontainer.CarriesOver.reconcile` — reconciling one.
-/

namespace Mincontainer

open Effects Files Bytes

/-- A record that is loaded is one that was read. -/
lemma loadState_relies {G : HostSig.Event → Prop} {P : HostOp → Prop} {Q : ContainerState → Prop}
    {dir : ContainerStateDir} (hread : P (.readFile dir.stateFile))
    (hG : ∀ (text : Bytes) (st : ContainerState),
      G ⟨.readFile dir.stateFile, (.ok (.doc text (.state st)) : Except String Content)⟩ → Q st) :
    Fallible.Relies G P Q dir.loadState := by
  refine Fallible.Relies.bind (Q := fun r => G ⟨.readFile _, r⟩)
    (Fallible.Relies.sys hread fun _ hr => hr) fun r hr => ?_
  refine Fallible.Relies.bind (Q := fun c => ∀ text st, c = .doc text (.state st) → Q st)
    (relies_orErr fun c hcontent => ?_) fun c hcontent => ?_
  · subst hcontent
    rintro text st rfl
    exact hG text st hr
  · split
    · exact Fallible.Relies.pure (hcontent _ _ rfl)
    · exact Fallible.Relies.throw _

/-- The records that come in have the property `T`, depending on where they lie, and those that have it
may be written. -/
structure CarriesOver (G : HostSig.Event → Prop) (P : HostOp → Prop)
    (T : Path → ContainerState → Prop) : Prop where
  read : ∀ (p : Path) (text : Bytes) (st : ContainerState),
    G ⟨.readFile p, (.ok (.doc text (.state st)) : Except String Content)⟩ → T p st
  reads : ∀ o : HostOp, o.reads = true → P o
  create : ∀ p, P (.createFile p)
  put : ∀ p st, T p st → P (.putDoc p (.state st))

namespace CarriesOver

variable {G : HostSig.Event → Prop} {P : HostOp → Prop} {T : Path → ContainerState → Prop} {env : Env}
  {id : String} {α : Type}

lemma of_reads (hc : CarriesOver G P T) {x : HostM α}
    (hx : x.run.Within fun o : HostOp => o.reads = true) : Fallible.Relies G P (fun _ => True) x :=
  .of_within (hx.mono hc.reads)

/-- A record that is loaded. -/
lemma loadState (hc : CarriesOver G P T) (dir : ContainerStateDir) :
    Fallible.Relies G P (T dir.stateFile) dir.loadState :=
  loadState_relies (hc.reads _ rfl) fun text st => hc.read _ text st

/-- A record that is written. -/
lemma writeDoc (hc : CarriesOver G P T) {p : Path} {st : ContainerState} (hst : T p st)
    {f : String → RuntimeError} : (ContainerStateDir.writeDoc p (.state st) f).run.Within P :=
  within_writeDoc (hc.create p) (hc.put p st hst)

/-- **A change of a record** that keeps the property. -/
lemma update (hc : CarriesOver G P T) {f : ContainerState → ContainerState}
    (hf : ∀ st, T (ContainerStateDir.forId env id).stateFile st →
      T (ContainerStateDir.forId env id).stateFile (f st)) :
    Fallible.Relies G P (fun _ => True) (update env id f) :=
  Fallible.Relies.bind (hc.loadState _) fun st hst => .of_within (hc.writeDoc (hf st hst))

/-- A change with a time stamp. -/
lemma stamp (hc : CarriesOver G P T) {f : String → ContainerState → ContainerState}
    (hf : ∀ now st, T (ContainerStateDir.forId env id).stateFile st →
      T (ContainerStateDir.forId env id).stateFile (f now st)) :
    Fallible.Relies G P (fun _ => True)
      (sys .now >>= fun now : String => Mincontainer.update env id (f now)) :=
  Fallible.Relies.bind (hc.of_reads ((within_sys .now).mpr rfl)) fun now _ => hc.update (hf now)

/-- **A reconciliation.** It kills the process on record, cleans up, and changes the pid and the
status. -/
lemma reconcile (hc : CarriesOver G P T)
    (hkill : ∀ st, T (ContainerStateDir.forId env id).stateFile st → ∀ pid ∈ st.pid, P (.kill pid))
    (hleaf : ∀ p, P (.removeDir p)) (hlink : ∀ name, P (.net (.linkDelete name)))
    (hstaging : P (.removeDirAll (ContainerStateDir.forId env id).stagingDir))
    (hswept : ∀ status st, T (ContainerStateDir.forId env id).stateFile st →
      T (ContainerStateDir.forId env id).stateFile { st with pid := none, status := status }) :
    Fallible.Relies G P (fun _ => True) (Restore.reconcile env id) := by
  refine Fallible.Relies.bind (hc.of_reads (pathExists_reads _)) fun found _ => ?_
  split
  · exact Fallible.Relies.pure trivial
  refine Fallible.Relies.bind (hc.loadState _) fun st hst => ?_
  refine Fallible.Relies.bind (hc.of_reads (Restore.isStale_reads st)) fun stale _ => ?_
  split
  · exact Fallible.Relies.pure trivial
  have hclear : (Restore.clear env id st).run.Within P := by
    refine Fallible.within_bind (Restore.within_killRecorded hc.reads (hkill st hst)) fun _ => ?_
    refine Fallible.within_bind (Restore.within_cleanResources hc.reads hleaf hlink) fun _ => ?_
    refine Fallible.within_bind ((within_sys (.removeDirAll _)).mpr hstaging) fun _ => ?_
    exact (Restore.hasSnapshot_reads _ _).mono hc.reads
  exact Fallible.Relies.bind (.of_within hclear) fun found _ => hc.update (hswept _)

end CarriesOver

end Mincontainer
