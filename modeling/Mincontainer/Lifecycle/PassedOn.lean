import Mincontainer.Engine.Lookup
import Mincontainer.Lifecycle.Footprint
import Mincontainer.Lifecycle.Pids
import Mincontainer.Lifecycle.Wiring
import Mincontainer.State.Carried

set_option relaxedAutoImplicit false
set_option autoImplicit false

/-!
# Who passes the snapshot of a record on

A checkpoint writes the text of its output path into the record. Who changes the record afterwards keeps
the text: the starts, the supervisor, the restores, the reconciliations, and a later checkpoint until it
records a snapshot of its own.

## Main definitions

* `Mincontainer.Host.PointsTo` — the record names this snapshot.
* `Mincontainer.HostOp.Heeds` — calls that write no other snapshot into a record.
* `Mincontainer.PassesOn` — programs that pass on the snapshot of the record that they read.
* `Mincontainer.RecordsSnapshot` — a checkpoint got as far as recording its snapshot.

## Main results

* `Mincontainer.Runs.pointsTo` — such a program keeps the snapshot on record, next to others that do.
* `Mincontainer.Checkpoint.checkpoint_pointsTo`, `Mincontainer.Migrate.migrate_pointsTo` — a
  checkpoint, and a migration that takes one, as long as they do not record it.
-/

namespace Mincontainer

open Effects Files Bytes

/-! ### The snapshot on record -/

/-- The record in the file `q`, if it is one, names this snapshot. -/
def Host.PointsTo (q : Path) (text : String) (h : Host) : Prop :=
  ∀ (json : Bytes) (st : ContainerState), h.file q = some (.doc json (.state st)) →
    st.snapshot = some text

/-- The call puts no other snapshot on record. -/
def HostOp.Heeds (q : Path) (text : String) : HostOp → Prop
  | .putDoc p (.state st) => p = q → st.snapshot = some text
  | .rename _ _ => False
  | _ => True

/-- A record that is read names the snapshot. -/
def Tells (q : Path) (text : String) (e : HostSig.Event) : Prop :=
  ∀ (json : Bytes) (st : ContainerState),
    e = ⟨.readFile q, (.ok (.doc json (.state st)) : Except String Content)⟩ → st.snapshot = some text

section Record

variable {q : Path} {text : String} {h h' : Host}

lemma heeds_of_reads {o : HostOp} (ho : o.reads = true) : o.Heeds q text := by
  cases o <;> trivial

/-- A call that leaves the record, or writes one that names the snapshot. -/
lemma Host.PointsTo.next (hp : h.PointsTo q text) {o : HostOp} {r : o.Reply}
    (hno : ∀ src dst, o ≠ .rename src dst)
    (hput : ∀ (json : Bytes) (st : ContainerState),
      (⟨o, r⟩ : HostSig.Event) = ⟨.putDoc q (.state st), (.ok json : Except (Bytes × String) Bytes)⟩ →
        st.snapshot = some text) : (h.next o r).PointsTo q text := by
  intro json st hfile
  by_cases hputs : o.puts q
  · cases o with
    | putDoc p d =>
      obtain rfl : q = p := hputs
      rcases r with ⟨part, e⟩ | json'
      · exact hp json st (Host.extend_doc hfile)
      · have hd := (h.file_write q (.doc json' d)).symm.trans hfile
        obtain ⟨rfl, rfl⟩ : json' = json ∧ d = .state st := by simpa using hd
        exact hput json' st rfl
    | rename src dst => exact absurd rfl (hno src dst)
    | _ => exact hputs.elim
  · exact hp json st (Host.next_doc hputs r hfile)

lemma Host.PointsTo.heeds (hp : h.PointsTo q text) {o : HostOp} (r : o.Reply)
    (ho : o.Heeds q text) : (h.next o r).PointsTo q text := by
  refine hp.next ?_ ?_
  · rintro src dst rfl
    exact ho
  · intro json st he
    obtain ⟨rfl, -⟩ := Sigma.mk.inj he
    exact ho rfl

/-- What is read from the host while the record names the snapshot. -/
lemma tells_of_enabled (hp : h.PointsTo q text) {o : HostOp} {r : o.Reply}
    (hr : machine.Enabled h o r) : Tells q text ⟨o, r⟩ := by
  intro json st he
  obtain ⟨rfl, hreply⟩ := Sigma.mk.inj he
  obtain rfl := eq_of_heq hreply
  exact hp json st (of_decide_eq_true hr)

variable {R : Host → Host → Prop} {α : Type} {x : HostM α} {tr : List HostSig.Event}
  {out : Option (Except RuntimeError α)}

/-- A program that passes the snapshot on keeps it on record, next to others that do. -/
lemma Runs.pointsTo {Q : α → Prop} (hR : ∀ a b, R a b → a.PointsTo q text → b.PointsTo q text)
    (hx : Fallible.Relies (Tells q text) (HostOp.Heeds q text) Q x) (hrun : Runs R x h tr out h')
    (hp : h.PointsTo q text) : h'.PointsTo q text :=
  (Exec.relying (I := Host.PointsTo q text) (fun _ _ _ hw hr => tells_of_enabled hw hr)
    (fun w _ r ho _ hw => Host.PointsTo.heeds (h := w) hw r ho) hR hx hrun hp).1

/-- A run that did not write the record keeps the snapshot. -/
lemma Runs.pointsTo_of_not_writes (hR : ∀ a b, R a b → a.PointsTo q text → b.PointsTo q text)
    (hx : x.run.Within fun o : HostOp => ∀ src dst, o ≠ .rename src dst)
    (hrun : Runs R x h tr out h') (hno : ∀ d, ¬ Writes tr q d) (hp : h.PointsTo q text) :
    h'.PointsTo q text := by
  refine Exec.invariant (I := Host.PointsTo q text) (G := fun e : HostSig.Event => ∀ d, ¬ Writes [e] q d)
    (fun w o r ho hgood _ hw => ?_) hR hx hrun (fun e he d hd => ?_) hp
  · refine Host.PointsTo.next (h := w) hw ho fun json st he => ?_
    rw [he] at hgood
    exact absurd ⟨json, List.mem_cons_self⟩ (hgood (.state st))
  · obtain ⟨json, hmem⟩ := hd
    obtain rfl := List.mem_singleton.mp hmem
    exact hno d ⟨json, he⟩

end Record

/-! ### Who passes the snapshot on -/

section Programs

variable {q : Path} {text : String} {env : Env} {codec : Codec Manifest} {id : String} {α β : Type}

/-- A program that passes on the snapshot of the record that it reads. -/
abbrev PassesOn {α : Type} (q : Path) (text : String) (x : HostM α) : Prop :=
  Fallible.Relies (Tells q text) (HostOp.Heeds q text) (fun _ => True) x

/-- The snapshot is carried from record to record. -/
lemma carriesOver_snapshot : CarriesOver (Tells q text) (HostOp.Heeds q text) fun p st =>
    p = q → st.snapshot = some text where
  read p json st hG hq := hG json st (by rw [hq])
  reads _ := heeds_of_reads
  create _ := trivial
  put _ _ hst := hst

lemma update_passesOn {f : ContainerState → ContainerState} (hf : ∀ st, (f st).snapshot = st.snapshot) :
    PassesOn q text (update env id f) :=
  carriesOver_snapshot.update fun st hst hq => (hf st).trans (hst hq)

lemma stamp_passesOn {f : String → ContainerState → ContainerState}
    (hf : ∀ now st, (f now st).snapshot = st.snapshot) :
    PassesOn q text (sys .now >>= fun now : String => update env id (f now)) :=
  carriesOver_snapshot.stamp fun now st hst hq => (hf now st).trans (hst hq)

lemma reconcile_passesOn : PassesOn q text (Restore.reconcile env id) :=
  carriesOver_snapshot.reconcile (fun _ _ _ _ => trivial) (fun _ => trivial) (fun _ => trivial) trivial
    fun _ _ hst => hst

lemma ignore_passesOn {x : HostM α} (hx : PassesOn q text x) : PassesOn q text (ignore x) :=
  Fallible.Relies.bind (Fallible.Relies.attempt hx) fun _ _ => Fallible.Relies.pure trivial

lemma orOne_passesOn {x : HostM α} {f : α → HostM Int} (hx : PassesOn q text x)
    (hf : ∀ a, PassesOn q text (f a)) : PassesOn q text (orOne x f) := by
  refine Fallible.Relies.bind (Fallible.Relies.attempt hx) fun r _ => ?_
  split
  · exact hf _
  · exact Fallible.Relies.pure trivial

lemma reads_passesOn {x : HostM α} (hx : x.run.Within fun o : HostOp => o.reads = true) :
    PassesOn q text x :=
  carriesOver_snapshot.of_reads hx

lemma init_passesOn : PassesOn q text (ContainerStateDir.init env) :=
  .of_within ((within_mkdirAll _ _).mpr trivial)

lemma allowsFile_heeds (p : Path) : AllowsFile (HostOp.Heeds q text) p :=
  ⟨trivial, fun _ => trivial, trivial⟩

/-! Starting, and looking after what was started. -/

lemma tends_heeds {cfg : ContainerConfig} {index : UInt8} : Tends (HostOp.Heeds q text) id index cfg where
  delegate := trivial
  leaf := trivial
  limit _ _ := trivial
  tree := trivial
  join _ := trivial
  setup _ := Network.setup_obeys (fun _ _ => trivial) (fun _ _ _ _ => ⟨trivial, fun _ _ => trivial⟩) trivial
  wait _ := trivial
  delete _ _ := trivial
  drop := trivial

lemma supervise_passesOn {cfg : ContainerConfig} {self : Int} :
    PassesOn q text (supervise env id cfg self) := by
  have htends : Tends (HostOp.Heeds q text) id 0 cfg := tends_heeds
  refine Fallible.Relies.bind (Fallible.Relies.attempt htends.spawn.relies) fun started hstarted => ?_
  split
  · exact ignore_passesOn (update_passesOn fun _ => rfl)
  rename_i handle
  refine Fallible.Relies.bind (ignore_passesOn (stamp_passesOn fun _ _ => rfl)) fun _ _ => ?_
  refine Fallible.Relies.bind (.of_within (htends.handleWait (hstarted handle rfl))) fun code _ => ?_
  refine Fallible.Relies.bind (reads_passesOn (Fallible.within_bind
    (Fallible.within_attempt (getContainer_reads _ _)) fun _ => trivial)) fun frozen _ => ?_
  rw [when]
  split
  · exact ignore_passesOn (stamp_passesOn fun _ _ => rfl)
  · exact Fallible.Relies.pure trivial

lemma start_passesOn {detach : Bool} {polls : ℕ} : PassesOn q text (cmdStart env id detach polls) := by
  refine orOne_passesOn (.of_within ?_) fun cfg => ?_
  · refine Fallible.within_bind ((within_mkdirAll _ _).mpr trivial) fun _ => ?_
    refine Fallible.within_bind ((pathExists_reads _).mono fun _ => heeds_of_reads) fun found => ?_
    split
    · exact trivial
    refine Fallible.within_bind ?_ fun _ => (loadConfig_reads _).mono fun _ => heeds_of_reads
    exact Fallible.within_bind ((within_mkdirAll _ _).mpr trivial) fun _ =>
      Fallible.within_bind ((within_mkdirAll _ _).mpr trivial) fun _ =>
        (within_mkdirAll _ _).mpr trivial
  split
  · have hlog : ∀ p, PassesOn q text (ignore (createFile p RuntimeError.io)) := fun p =>
      ignore_passesOn (.of_within ((within_createFile _ _).mpr trivial))
    refine Fallible.Relies.bind (hlog _) fun _ _ => Fallible.Relies.bind (hlog _) fun _ _ => ?_
    refine .of_within (Fallible.within_bind ((within_sys (.fork id cfg)).mpr trivial) fun r => ?_)
    split
    · refine Fallible.within_bind ((awaitRunning_reads _ _ _).mono fun _ => heeds_of_reads) fun _ => ?_
      split <;> exact trivial
    · exact trivial
  · refine Fallible.Relies.bind (.of_within (Fallible.within_attempt tends_heeds.run)) fun r _ => ?_
    split
    · exact Fallible.Relies.bind (ignore_passesOn (stamp_passesOn fun _ _ => rfl)) fun _ _ =>
        Fallible.Relies.pure trivial
    · exact Fallible.Relies.bind (ignore_passesOn (stamp_passesOn fun _ _ => rfl)) fun _ _ =>
        Fallible.Relies.pure trivial

/-! Restoring. -/

lemma restoreCommit_passesOn {m : Manifest} {pid : Int} :
    PassesOn q text (Restore.commit env id m pid) := by
  refine Fallible.Relies.bind (stamp_passesOn fun _ _ => rfl) fun _ _ => ?_
  refine Fallible.Relies.bind (reads_passesOn ((within_sys .hostname).mpr rfl)) fun here _ => ?_
  rw [when]
  split
  · exact update_passesOn fun _ => rfl
  · exact Fallible.Relies.pure trivial

lemma restore_passesOn {opts : Restore.Options} :
    PassesOn q text (Restore.restore env codec id opts) := by
  have hreads : ∀ o : HostOp, o.reads = true → o.Heeds q text := fun _ => heeds_of_reads
  have hundo : ∀ {rb : Restore.Rollback} {e : RuntimeError},
      PassesOn q text (Restore.undo env id rb e : HostM Restore.Report) := fun {rb e} => by
    refine Fallible.Relies.bind (.of_within (Restore.within_rollback hreads (fun _ => trivial)
      (fun _ _ => trivial) (fun _ _ => trivial) trivial)) fun _ _ => ?_
    exact Fallible.Relies.bind (Fallible.Relies.attempt (update_passesOn fun _ => rfl)) fun _ _ =>
      Fallible.Relies.throw _
  refine Fallible.Relies.bind (Q := fun _ => True) ?_ fun x _ => ?_
  · refine Fallible.Relies.bind reconcile_passesOn fun _ _ => ?_
    refine reads_passesOn (Fallible.within_bind Restore.refuseRunning_reads fun st => ?_)
    refine Fallible.within_bind (Restore.resolveSnapshot_reads _ _ _) fun path => ?_
    exact Fallible.within_bind (Restore.examine_reads _ _) fun _ => trivial
  refine Fallible.Relies.bind (.of_within (Restore.within_unpack_of
    ⟨fun _ => hreads _ rfl, fun _ _ => trivial, fun _ _ => allowsFile_heeds _⟩ trivial
    (hreads _ rfl))) fun _ _ => ?_
  refine Fallible.Relies.bind (reads_passesOn (Restore.checkRootfs_reads _)) fun _ _ => ?_
  refine Fallible.Relies.bind (update_passesOn fun _ => rfl) fun _ _ => ?_
  refine Fallible.Relies.bind (.of_within (Restore.within_build hreads (fun _ => trivial)
    (fun _ => allowsFile_heeds _) trivial fun _ _ _ => trivial)) fun cgroup _ => ?_
  refine Fallible.Relies.bind (Q := fun _ => True) (.of_within ?_) fun r _ => ?_
  · refine Fallible.within_bind ((within_sys (.removeFile _)).mpr trivial) fun _ => ?_
    refine Fallible.within_bind ((within_sys (.criuRestore _ _)).mpr trivial) fun r => ?_
    split <;> exact trivial
  split
  · exact hundo
  refine Fallible.Relies.bind (.of_within (Fallible.within_attempt
    (Restore.within_wire hreads trivial fun _ => trivial))) fun built _ => ?_
  split
  · exact hundo
  exact Fallible.Relies.bind restoreCommit_passesOn fun _ _ =>
    .of_within (Restore.within_report hreads trivial)

/-! Everything else but what replaces the record. -/

lemma stop_heeds : (cmdStop env id).run.Within (HostOp.Heeds q text) := by
  have hget : (getContainer env id).run.Within (HostOp.Heeds q text) :=
    (getContainer_reads _ _).mono fun _ => heeds_of_reads
  refine within_orOne ((within_mkdirAll _ _).mpr trivial) fun _ => within_orOne hget fun st => ?_
  split
  · exact trivial
  split
  · exact trivial
  refine Fallible.within_bind ((within_sys (.term _)).mpr trivial) fun _ => ?_
  refine Fallible.within_bind ((within_sys (.awaitExit _)).mpr trivial) fun _ => ?_
  refine Fallible.within_bind ((within_sys (.pidAlive _)).mpr trivial) fun _ => ?_
  exact Fallible.within_bind (within_when fun _ => (within_sys (.kill _)).mpr trivial) fun _ => trivial

lemma reconcileEach_passesOn (sts : List ContainerState) :
    PassesOn q text (reconcileEach env sts) := by
  induction sts with
  | nil => exact Fallible.Relies.pure trivial
  | cons st sts ih =>
    exact Fallible.Relies.bind (ignore_passesOn reconcile_passesOn) fun _ _ => ih

lemma ps_passesOn : PassesOn q text (cmdPs env) := by
  refine orOne_passesOn init_passesOn fun _ => ?_
  refine Fallible.Relies.bind (Q := fun _ => True) ?_ fun _ _ =>
    orOne_passesOn (reads_passesOn (listAll_reads env)) fun _ => Fallible.Relies.pure trivial
  refine Fallible.Relies.bind (Fallible.Relies.attempt (reads_passesOn (listAll_reads env)))
    fun r _ => ?_
  split
  · exact reconcileEach_passesOn _
  · exact Fallible.Relies.pure trivial

lemma rm_heeds : (cmdRm env id).run.Within (HostOp.Heeds q text) := by
  refine within_orOne ((within_mkdirAll _ _).mpr trivial) fun _ => ?_
  refine Fallible.within_bind ((pathExists_reads _).mono fun _ => heeds_of_reads) fun found => ?_
  split
  · exact trivial
  · exact within_orOne (within_removeTree trivial) fun _ => trivial

/-- A migration of an existing snapshot. -/
lemma migrate_passesOn {proto : Protocol} {target : String} {opts : Migrate.Options}
    (hexisting : opts.useExisting = true) :
    PassesOn q text (Migrate.migrate env codec proto id target opts) := by
  refine Fallible.Relies.bind (reads_passesOn (pathExists_reads _)) fun found _ => ?_
  split
  · exact Fallible.Relies.throw _
  refine Fallible.Relies.bind (Q := fun _ => True) (reads_passesOn ?_) fun snapshot _ => ?_
  · refine Fallible.within_bind (loadState_reads _) fun st => ?_
    rw [if_pos hexisting]
    exact Migrate.existingSnapshot_reads st
  refine Fallible.Relies.bind (Q := fun _ => True) (reads_passesOn ?_) fun tx _ => ?_
  · refine Fallible.within_bind (Fallible.within_attempt (Transport.sendSnapshot_reads _ _ _ _))
      fun sent => ?_
    split <;> exact trivial
  refine Fallible.Relies.bind (Q := fun _ => True) ?_ fun _ _ => Fallible.Relies.pure trivial
  rw [when]
  split
  · exact update_passesOn fun _ => rfl
  · exact Fallible.Relies.pure trivial

end Programs

/-! ### A later checkpoint -/

/-- A checkpoint recorded its snapshot: it wrote the record after it had thrown its scratch directory
away, which it does once the snapshot is complete. -/
def RecordsSnapshot (q scratch : Path) (tr : List HostSig.Event) : Prop :=
  ∃ (tr₁ tr₂ : List HostSig.Event) (d : Doc), tr = tr₁ ++ ⟨.removeDirAll scratch, ()⟩ :: tr₂ ∧
    Writes tr₂ q d

lemma RecordsSnapshot.append_left {q scratch : Path} {tr : List HostSig.Event}
    (t : List HostSig.Event) (h : RecordsSnapshot q scratch tr) :
    RecordsSnapshot q scratch (t ++ tr) := by
  obtain ⟨tr₁, tr₂, d, rfl, hw⟩ := h
  exact ⟨t ++ tr₁, tr₂, d, by simp, hw⟩

lemma RecordsSnapshot.append_right {q scratch : Path} {tr : List HostSig.Event}
    (t : List HostSig.Event) (h : RecordsSnapshot q scratch tr) :
    RecordsSnapshot q scratch (tr ++ t) := by
  obtain ⟨tr₁, tr₂, d, rfl, hw⟩ := h
  exact ⟨tr₁, tr₂ ++ t, d, by simp, Writes.append_iff.mpr (.inl hw)⟩

/-- What follows the scratch directory did not write the record. -/
lemma not_writes_after {q scratch : Path} {tr₁ tr₂ : List HostSig.Event}
    (hno : ¬ RecordsSnapshot q scratch (tr₁ ++ ⟨.removeDirAll scratch, ()⟩ :: tr₂)) (d : Doc) :
    ¬ Writes tr₂ q d := fun hw => hno ⟨tr₁, tr₂, d, rfl, hw⟩

namespace Checkpoint

variable {env : Env} {codec : Codec Manifest} {id : String} {opts : Options}

/-- A checkpoint up to the complete snapshot: its manifest, its length and that of the images. -/
def gather (env : Env) (codec : Codec Manifest) (id : String) (opts : Options) :
    HostM (Manifest × Nat × Nat) := do
  let info ← prepare env id opts
  setStatus env id .checkpointing
  makeImagesDir (ContainerStateDir.forId env id)
  dumpTree env id info opts
  settle info opts
  let now ← sys .now
  let lifecycle := { info.lifecycle with
    status := Status.checkpointed.asStr
    pid := none
    checkpointedAt := some now }
  pack env codec (destination env (ContainerStateDir.forId env id) opts)
    (ContainerStateDir.forId env id) { info with lifecycle := lifecycle }

/-- The rest: drop the scratch directory, and record the snapshot. -/
def conclude (env : Env) (id : String) (opts : Options) (x : Manifest × Nat × Nat) :
    HostM Report := do
  sys (.removeDirAll (ContainerStateDir.forId env id).stagingDir)
  commit env id opts (destination env (ContainerStateDir.forId env id) opts)
  pure ⟨id, destination env (ContainerStateDir.forId env id) opts, x.2.1, x.2.2, x.1.entries.length⟩

lemma checkpoint_eq : checkpoint env codec id opts =
    gather env codec id opts >>= conclude env id opts := by
  simp only [checkpoint, freeze, store, gather, bind_assoc]
  rfl

lemma gather_passesOn {q : Path} {text : String} : PassesOn q text (gather env codec id opts) := by
  have hreads : ∀ o : HostOp, o.reads = true → o.Heeds q text := fun _ => heeds_of_reads
  refine Fallible.Relies.bind (reads_passesOn prepare_reads) fun info _ => ?_
  refine Fallible.Relies.bind (update_passesOn fun _ => rfl) fun _ _ => ?_
  refine Fallible.Relies.bind (Q := fun _ => True) (.of_within ?_) fun _ _ => ?_
  · exact Fallible.within_bind ((within_sys (.removeDirAll _)).mpr trivial) fun _ =>
      (within_mkdirAll _ _).mpr trivial
  refine Fallible.Relies.bind (Q := fun _ => True) ?_ fun _ _ => ?_
  · refine Fallible.Relies.bind (.of_within (within_dump trivial trivial)) fun r _ => ?_
    split
    · exact Fallible.Relies.pure trivial
    · refine Fallible.Relies.bind (reads_passesOn ((within_sys (.pidAlive _)).mpr rfl)) fun still _ => ?_
      exact Fallible.Relies.bind (Fallible.Relies.attempt (update_passesOn fun _ => rfl)) fun _ _ =>
        Fallible.Relies.throw _
  refine Fallible.Relies.bind (.of_within (within_settle hreads fun _ => trivial)) fun _ _ => ?_
  refine Fallible.Relies.bind (reads_passesOn ((within_sys .now).mpr rfl)) fun now _ => ?_
  exact .of_within (within_pack hreads (fun _ => trivial) (allowsFile_heeds _) (allowsFile_heeds _))

variable {R : Host → Host → Prop} {h h' : Host} {tr : List HostSig.Event} {q : Path} {text : String}
  {out : Option (Except RuntimeError Report)}

lemma conclude_noRename {x : Manifest × Nat × Nat} :
    (conclude env id opts x).run.Within fun o : HostOp => ∀ src dst, o ≠ .rename src dst := by
  have hreads : ∀ o : HostOp, o.reads = true → ∀ src dst, o ≠ .rename src dst := by
    rintro o ho src dst rfl
    cases ho
  refine Fallible.within_bind ((within_sys (.removeDirAll _)).mpr (by rintro _ _ ⟨⟩)) fun _ => ?_
  refine Fallible.within_bind ?_ fun _ => trivial
  have hupdate : ∀ f : ContainerState → ContainerState, (update env id f).run.Within
      fun o : HostOp => ∀ src dst, o ≠ .rename src dst := fun f =>
    within_update hreads (by rintro _ _ ⟨⟩) fun _ => by rintro _ _ ⟨⟩
  rw [commit]
  split
  · exact Fallible.within_bind ((within_sys .now).mpr (by rintro _ _ ⟨⟩)) fun _ => hupdate _
  · exact Fallible.within_bind ((within_sys .now).mpr (by rintro _ _ ⟨⟩)) fun _ => hupdate _

/-- **A later checkpoint** that does not record its snapshot leaves the one that is recorded; if it
returns, its scratch directory is gone. -/
lemma checkpoint_pointsTo (hR : ∀ a b, R a b → a.PointsTo q text → b.PointsTo q text)
    (hrun : Runs R (checkpoint env codec id opts) h tr out h')
    (hno : ¬ RecordsSnapshot q (ContainerStateDir.forId env id).stagingDir tr)
    (hp : h.PointsTo q text) :
    h'.PointsTo q text ∧ ∀ rep, out = some (.ok rep) →
      ∃ tr₁ tr₂, tr = tr₁ ++ ⟨.removeDirAll (ContainerStateDir.forId env id).stagingDir, ()⟩ :: tr₂ := by
  rw [checkpoint_eq] at hrun
  rcases Exec.fallible_bind_inv hrun with ⟨rfl, h₁⟩ | ⟨e, rfl, h₁⟩ | ⟨x, tr₁, tr₂, g, rfl, h₁, h₂⟩
  · exact ⟨Runs.pointsTo hR gather_passesOn h₁ hp, fun rep hrep => by cases hrep⟩
  · exact ⟨Runs.pointsTo hR gather_passesOn h₁ hp, fun rep hrep => by cases hrep⟩
  have hp₁ := Runs.pointsTo hR gather_passesOn h₁ hp
  obtain ⟨g₁, -, ⟨rfl, rfl, rfl⟩ | ⟨u, tr₃, -, rfl, -⟩⟩ := Exec.call_inv h₂
  · refine ⟨Runs.pointsTo_of_not_writes hR conclude_noRename h₂ (fun d hd => ?_) hp₁,
      fun rep hrep => by cases hrep⟩
    obtain ⟨json, hmem⟩ := hd
    cases hmem
  · refine ⟨Runs.pointsTo_of_not_writes hR conclude_noRename h₂ (fun d hd => ?_) hp₁,
      fun _ _ => ⟨tr₁, tr₃, rfl⟩⟩
    obtain ⟨json, hmem⟩ := hd
    rcases List.mem_cons.mp hmem with heq | hmem
    · cases heq
    · exact not_writes_after hno d ⟨json, hmem⟩

end Checkpoint

namespace Migrate

variable {env : Env} {codec : Codec Manifest} {proto : Protocol} {id target : String} {opts : Options}
  {R : Host → Host → Prop} {h h' : Host} {tr : List HostSig.Event} {q : Path} {text : String}

/-- The freeze of a migration, by a checkpoint that does not record its snapshot. -/
lemma freeze_pointsTo (hfresh : opts.useExisting = false)
    (hR : ∀ a b, R a b → a.PointsTo q text → b.PointsTo q text)
    {out : Option (Except RuntimeError PathBuf)} (hrun : Runs R (freeze env codec id opts) h tr out h')
    (hno : ¬ RecordsSnapshot q (ContainerStateDir.forId env id).stagingDir tr)
    (hp : h.PointsTo q text) :
    h'.PointsTo q text ∧ ∀ path, out = some (.ok path) →
      ∃ tr₁ tr₂, tr = tr₁ ++ ⟨.removeDirAll (ContainerStateDir.forId env id).stagingDir, ()⟩ :: tr₂ := by
  have hload : PassesOn q text (ContainerStateDir.forId env id).loadState :=
    reads_passesOn (loadState_reads _)
  rcases Exec.fallible_bind_inv hrun with ⟨rfl, h₁⟩ | ⟨e, rfl, h₁⟩ | ⟨st, tr₁, tr₂, g, rfl, h₁, h₂⟩
  · exact ⟨Runs.pointsTo hR hload h₁ hp, fun rep hrep => by cases hrep⟩
  · exact ⟨Runs.pointsTo hR hload h₁ hp, fun rep hrep => by cases hrep⟩
  have hp₁ := Runs.pointsTo hR hload h₁ hp
  rw [hfresh, if_neg Bool.false_ne_true] at h₂
  split at h₂
  · refine ⟨Runs.pointsTo (Q := fun _ => True) hR (Fallible.Relies.throw _) h₂ hp₁, ?_⟩
    rintro path rfl
    exact (Exec.throw_ok_false h₂).elim
  have hno₂ : ¬ RecordsSnapshot q (ContainerStateDir.forId env id).stagingDir tr₂ := fun hrec =>
    hno (hrec.append_left tr₁)
  rcases Exec.fallible_bind_inv h₂ with ⟨rfl, h₃⟩ | ⟨e, rfl, h₃⟩ | ⟨rep, tr₃, tr₄, g₂, rfl, h₃, h₄⟩
  · exact ⟨(Checkpoint.checkpoint_pointsTo hR h₃ hno₂ hp₁).1, fun rep hrep => by cases hrep⟩
  · exact ⟨(Checkpoint.checkpoint_pointsTo hR h₃ hno₂ hp₁).1, fun rep hrep => by cases hrep⟩
  obtain ⟨hp₂, hscratch⟩ := Checkpoint.checkpoint_pointsTo hR h₃
    (fun hrec => hno₂ (hrec.append_right tr₄)) hp₁
  obtain ⟨t₁, t₂, rfl⟩ := hscratch rep rfl
  refine ⟨Runs.pointsTo (Q := fun _ => True) hR (Fallible.Relies.pure trivial) h₄ hp₂, fun _ _ => ?_⟩
  exact ⟨tr₁ ++ t₁, t₂ ++ tr₄, by simp⟩

/-- What follows the freeze. -/
def handOver (env : Env) (proto : Protocol) (id target : String) (opts : Options)
    (snapshot : PathBuf) : HostM Report := do
  let tx ← ship env proto id target snapshot opts
  when (!opts.keepLocal) (release env id)
  pure ⟨id, target, tx.bytes, tx.result.pid, tx.result.containerIp⟩

lemma handOver_noRename {snapshot : PathBuf} : (handOver env proto id target opts snapshot).run.Within
    fun o : HostOp => ∀ src dst, o ≠ .rename src dst := by
  have hreads : ∀ o : HostOp, o.reads = true → ∀ src dst, o ≠ .rename src dst := by
    rintro o ho src dst rfl
    cases ho
  refine Fallible.within_bind (Fallible.within_bind (Fallible.within_attempt
    ((Transport.sendSnapshot_reads _ _ _ _).mono hreads)) fun sent => ?_) fun tx => ?_
  · split <;> exact trivial
  refine Fallible.within_bind (within_when fun _ => ?_) fun _ => trivial
  exact within_update hreads (by rintro _ _ ⟨⟩) fun _ => by rintro _ _ ⟨⟩

/-- **A later migration** that does not record a snapshot leaves the one that is recorded. -/
lemma migrate_pointsTo (hR : ∀ a b, R a b → a.PointsTo q text → b.PointsTo q text)
    {out : Option (Except RuntimeError Report)}
    (hrun : Runs R (migrate env codec proto id target opts) h tr out h')
    (hno : ¬ RecordsSnapshot q (ContainerStateDir.forId env id).stagingDir tr)
    (hp : h.PointsTo q text) : h'.PointsTo q text := by
  cases hexisting : opts.useExisting with
  | true => exact Runs.pointsTo hR (migrate_passesOn hexisting) hrun hp
  | false =>
    have hfound : PassesOn q text (ContainerStateDir.forId env id).pathExists :=
      reads_passesOn (pathExists_reads _)
    rcases Exec.fallible_bind_inv hrun with ⟨rfl, h₁⟩ | ⟨e, rfl, h₁⟩ | ⟨found, tr₁, tr₂, g, rfl, h₁, h₂⟩
    · exact Runs.pointsTo hR hfound h₁ hp
    · exact Runs.pointsTo hR hfound h₁ hp
    have hp₁ := Runs.pointsTo hR hfound h₁ hp
    split at h₂
    · exact Runs.pointsTo (Q := fun _ => True) hR (Fallible.Relies.throw _) h₂ hp₁
    have hno₂ : ¬ RecordsSnapshot q (ContainerStateDir.forId env id).stagingDir tr₂ := fun hrec =>
      hno (hrec.append_left tr₁)
    change Runs R (freeze env codec id opts >>= handOver env proto id target opts) _ _ _ _ at h₂
    rcases Exec.fallible_bind_inv h₂ with ⟨rfl, h₃⟩ | ⟨e, rfl, h₃⟩ | ⟨path, tr₃, tr₄, g₂, rfl, h₃, h₄⟩
    · exact (freeze_pointsTo hexisting hR h₃ hno₂ hp₁).1
    · exact (freeze_pointsTo hexisting hR h₃ hno₂ hp₁).1
    obtain ⟨hp₂, hscratch⟩ := freeze_pointsTo hexisting hR h₃
      (fun hrec => hno₂ (hrec.append_right tr₄)) hp₁
    obtain ⟨t₁, t₂, rfl⟩ := hscratch path rfl
    refine Runs.pointsTo_of_not_writes hR handOver_noRename h₄ (fun d hd => ?_) hp₂
    refine hno₂ ⟨t₁, t₂ ++ tr₄, d, by simp, Writes.append_iff.mpr (.inr hd)⟩

end Migrate

end Mincontainer
